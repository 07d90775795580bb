import AiGateway.Execution.Schema

/-! The recorder over PostgreSQL (`internal/execution/postgres.go`): every call is one transaction.
`stamp` takes a time to the precision of a stored timestamp, and the reads of the random source are
numbered. -/
namespace Execution
open Text Machine Adapter Proxy Metering Catalog

/-- Sixteen random bytes for each read that does not fail. -/
abbrev Random := ℕ → Option (Fin 16 → UInt8)

def newUUID (random : Random) (n : ℕ) : Option String := (random n).map uuidOfBytes

namespace Database
variable (stamp : Time → Time) (db : Database)

def startRequest (start : StartRequest) (now : Time) (references : Bool) :
    Except RecordKind (Database × GatewayRequest) :=
  if !start.validate then .error .invalid
  else db.insertRequest (GatewayRequest.authorized start (stamp now)) references

def markRouting (request : GatewayRequest) (now : Time) :
    Except RecordKind (Database × GatewayRequest) :=
  if !validateRequestHandle request [.authorized] then .error .invalid
  else db.updateRequest request.id
    (fun row => row.status = .authorized && row.version = request.version)
    (·.routed (stamp now))

def failRequest (request : GatewayRequest) (status : RequestStatus) (reason : String)
    (now : Time) : Except RecordKind (Database × GatewayRequest) :=
  if !(validateRequestHandle request [.authorized,.routing,.running] &&
      (status = .failed || status = .cancelled) && reasonPattern reason) then
    .error .invalid
  else db.updateRequest request.id
    (fun row => row.status = request.status && row.version = request.version)
    (·.ended status reason (stamp now))

def startAttempt (request : GatewayRequest) (deploymentID : String) (now : Time)
    (random : Random) : Except RecordKind (Database × GatewayRequest × RouteAttempt) :=
  if !(validateRequestHandle request [.routing,.running] && isUUID deploymentID) then
    .error .invalid
  else match newUUID random 0 with
    | none => .error .unavailable
    | some attemptID => do
        let (db,updated) ← db.updateRequest request.id
          (fun row => row.status = request.status &&
            row.version = request.version &&
            row.attemptCount = request.attemptCount)
          (·.counted (stamp now))
        let db ← db.insertAttempt (RouteAttempt.created attemptID request.id
          (request.attemptCount + 1) deploymentID (stamp now))
        let (db,attempt) ← db.updateAttempt attemptID
          (fun row => row.status = .created && row.version = 1)
          (·.connected (stamp now))
        return (db,updated,attempt)

/-- `WHERE id = $1 AND request_id = $2 AND status = $3 AND version = $4` -/
def attemptCurrent (request : GatewayRequest) (attempt row : RouteAttempt) : Bool :=
  row.requestID = request.id && row.status = attempt.status &&
    row.version = attempt.version

/-- `MarkAttemptStreaming`, with its two readings of the clock -/
def markAttemptStreaming (request : GatewayRequest) (attempt : RouteAttempt)
    (providerRequestID : String) (headerObservedAt firstByteAt : Time) :
    Except RecordKind (Database × RouteAttempt) :=
  if !(validateRequestHandle request [.running] && validateAttemptHandle attempt .connecting &&
      attempt.requestID = request.id &&
      (providerRequestID = "" || identifierPattern providerRequestID)) then
    .error .invalid
  else do
    let (db,headersReceived) ← db.updateAttempt attempt.id (attemptCurrent request attempt)
      (·.headed providerRequestID (stamp headerObservedAt))
    db.updateAttempt headersReceived.id (attemptCurrent request headersReceived)
      (·.streamed (stamp (if firstByteAt < headerObservedAt then headerObservedAt
        else firstByteAt)))

def usageEvents (request : GatewayRequest) (attempt : RouteAttempt)
    (usage : Option NormalizedUsage) (observedAt : Time) (random : Random) :
    Except RecordKind (List UsageEvent) :=
  match newUsageEvents ⟨request.tenantID,request.id,attempt.id,attempt.deploymentID,
      request.traceID,request.spanID,observedAt⟩ (newUUID random) usage with
  | .ok events => .ok events
  | .error .invalidUsageEvent => .error .invalid
  | .error .usageEventID => .error .unavailable

/-- The live deployment row is the one the estimate was made for. -/
def estimateMatches (deployment : Deployment) (metadata : UsageEstimateMetadata) : Bool :=
  deployment.physicalModel = metadata.physicalModel &&
    deployment.version = metadata.deploymentVersion &&
    deployment.providerProtocolVersion = metadata.providerProtocolVersion

/-- The `WHERE` of the insert; a comparison with null does not hold. -/
def insertAllowed (first : UsageEvent) (deployment : Deployment) : Bool :=
  first.source ≠ .estimated || (first.estimate.map (estimateMatches deployment)).getD false

def insertUsageEvents (events : List UsageEvent) : Except RecordKind Database :=
  match events with
  | [] => .ok db
  | first :: _ =>
      if !events.all (·.validate) then .error .invalid
      else match db.deployments.find? fun d => d.id = first.deploymentID with
        | none => .error .unavailable
        | some deployment =>
            if !insertAllowed first deployment then .error .unavailable
            else db.insertOutbox (events.map fun e => OutboxRow.inserted
              { first with
                eventID := e.eventID, tokenType := e.tokenType, billingUnit := e.billingUnit
                quantity := e.quantity } (stamp first.observedAt))

def completeAttemptInTransaction (request : GatewayRequest) (attempt : RouteAttempt)
    (outcome : AttemptOutcome) (summary : Option UsageSummary) (now : Time) :
    Except RecordKind (Database × RouteAttempt) := do
  let (db,current) ← if attempt.headersFirst outcome then
      db.updateAttempt attempt.id (attemptCurrent request attempt)
        (·.headed outcome.providerRequestID (stamp now))
    else .ok (db,attempt)
  db.updateAttempt current.id (attemptCurrent request current)
    (·.ended outcome summary (stamp now))

def completeAttempt (request : GatewayRequest) (attempt : RouteAttempt)
    (outcome : AttemptOutcome) (now : Time) (random : Random) :
    Except RecordKind (Database × GatewayRequest × RouteAttempt) :=
  if !(validateRequestHandle request [.running] && validateAttemptCompletion attempt outcome &&
      attempt.requestID = request.id) then .error .invalid
  else do
    let summary ← marshalUsageSummary outcome.usage
    let events ← usageEvents request attempt outcome.usage now random
    let (db,completedAttempt) ←
      db.completeAttemptInTransaction stamp request attempt outcome summary now
    let db ← db.insertUsageEvents stamp events
    let (db,completedRequest) ← db.updateRequest request.id
      (fun row => row.status = .running && row.version = request.version)
      (·.ended outcome.requestStatus outcome.endReason (stamp now))
    return (db,completedRequest,completedAttempt)

def completeAttemptForRetry (request : GatewayRequest) (attempt : RouteAttempt)
    (outcome : AttemptOutcome) (now : Time) (random : Random) :
    Except RecordKind (Database × RouteAttempt) :=
  if !(validateRequestHandle request [.running] &&
      validateRetryAttemptCompletion attempt outcome &&
        attempt.requestID = request.id) then
    .error .invalid
  else do
    let summary ← marshalUsageSummary outcome.usage
    let events ← usageEvents request attempt outcome.usage now random
    let (db,completedAttempt) ←
      db.completeAttemptInTransaction stamp request attempt outcome summary now
    let db ← db.insertUsageEvents stamp events
    return (db,completedAttempt)

end Database

/-! Runs. -/

/-- A call with its handles and clock readings, or a change of the catalog. -/
inductive Call where
  | startRequest (start : StartRequest) (now : Time) (references : Bool)
  | markRouting (request : GatewayRequest) (now : Time)
  | failRequest (request : GatewayRequest) (status : RequestStatus) (reason : String) (now : Time)
  | startAttempt (request : GatewayRequest) (deploymentID : String) (now : Time) (random : Random)
  | markAttemptStreaming (request : GatewayRequest) (attempt : RouteAttempt)
      (providerRequestID : String) (headerObservedAt firstByteAt : Time)
  | completeAttempt (request : GatewayRequest) (attempt : RouteAttempt) (outcome : AttemptOutcome)
      (now : Time) (random : Random)
  | completeAttemptForRetry (request : GatewayRequest) (attempt : RouteAttempt)
      (outcome : AttemptOutcome) (now : Time) (random : Random)
  | addDeployment (deployment : Deployment)
  | changeDeployment (id physicalModel : String) (version : ℤ) (providerProtocolVersion : String)

namespace Database
variable (stamp : Time → Time) (db : Database)

/-- The database a call leaves when it commits. A deployment is never deleted while an attempt
refers to it. -/
def commit : Call → Except RecordKind Database
  | .startRequest start now references => (db.startRequest stamp start now references).map (·.1)
  | .markRouting request now => (db.markRouting stamp request now).map (·.1)
  | .failRequest request status reason now =>
      (db.failRequest stamp request status reason now).map (·.1)
  | .startAttempt request deploymentID now random =>
      (db.startAttempt stamp request deploymentID now random).map (·.1)
  | .markAttemptStreaming request attempt providerRequestID headerObservedAt firstByteAt =>
      (db.markAttemptStreaming stamp request attempt providerRequestID headerObservedAt
        firstByteAt).map (·.1)
  | .completeAttempt request attempt outcome now random =>
      (db.completeAttempt stamp request attempt outcome now random).map (·.1)
  | .completeAttemptForRetry request attempt outcome now random =>
      (db.completeAttemptForRetry stamp request attempt outcome now random).map (·.1)
  | .addDeployment deployment =>
      if ∀ d ∈ db.deployments, d.id ≠ deployment.id then
        .ok { db with deployments := db.deployments ++ [deployment] }
      else .error .conflict
  | .changeDeployment id physicalModel version providerProtocolVersion =>
      .ok { db with
        deployments := Relational.update (·.id) id
          (fun d => ⟨d.id,physicalModel,version,providerProtocolVersion⟩) db.deployments }

/-- A call changes the database where it commits, whether or not its answer arrives, and not at all
otherwise: it was refused, or it broke off and its transaction was rolled back. -/
def step (call : Call) (broken : Bool) : Database :=
  if broken then db
  else match db.commit stamp call with
    | .ok db' => db'
    | .error _ => db

end Database

/-- The databases that calls can lead to. -/
inductive Reaches (stamp : Time → Time) : Database → Prop
  | start : Reaches stamp ⟨[],[],[],[],[],[]⟩
  | step {db : Database} (h : Reaches stamp db) (call : Call) (broken : Bool) :
      Reaches stamp (db.step stamp call broken)

/-- Calls one after another, none of them broken. -/
def replay (stamp : Time → Time) (calls : List Call) : Database :=
  calls.foldl (fun db call => db.step stamp call false) ⟨[],[],[],[],[],[]⟩

theorem reaches_replay (stamp : Time → Time) (calls : List Call) :
    Reaches stamp (replay stamp calls) := by
  have hfold : ∀ (calls : List Call) (db : Database), Reaches stamp db →
      Reaches stamp (calls.foldl (fun db call => db.step stamp call false) db) := by
    intro calls
    induction calls with
    | nil => exact fun db h => h
    | cons call calls ih => exact fun db h => ih _ (.step h call false)
  exact hfold calls _ .start

/-! A sample: one request with one attempt under way. -/

def sampleDeployment : Deployment := ⟨"65000000-0000-4000-8000-000000000001","model-a",1,"v1"⟩

def sampleStart : StartRequest where
  id := "request-0001"
  tenantID := "10000000-0000-4000-8000-000000000001"
  projectID := "20000000-0000-4000-8000-000000000001"
  virtualKeyID := "30000000-0000-4000-8000-000000000001"
  logicalModel := "chat"
  traceID := "0123456789abcdef0123456789abcdef"
  spanID := "0123456789abcdef"

/-- Bytes that are all `tag` but for the last one, which counts the reads. -/
def sampleRandom (tag : UInt8) : Random := fun n =>
  some fun i => if i.val = 15 then UInt8.ofNat n else tag

def sampleRequest : GatewayRequest :=
  ((GatewayRequest.authorized sampleStart 1000).routed 1000).counted 1000

def sampleAttempt : RouteAttempt :=
  (RouteAttempt.created (uuidOfBytes fun i => if i.val = 15 then 0 else 7) "request-0001" 1
    sampleDeployment.id 1000).connected 1000

def sampleCalls : List Call :=
  [.addDeployment sampleDeployment,.startRequest sampleStart 1000 true,
    .markRouting (GatewayRequest.authorized sampleStart 1000) 1000,
    .startAttempt ((GatewayRequest.authorized sampleStart 1000).routed 1000)
      sampleDeployment.id 1000
      (sampleRandom 7)]

def sampleUsage (input : ℤ) : NormalizedUsage where
  inputTokens := ⟨input,true⟩
  outputTokens := ⟨5,true⟩
  cacheReadTokens := ⟨0,false⟩
  cacheWriteTokens := ⟨0,false⟩
  reasoningTokens := ⟨0,true⟩
  audioInputTokens := ⟨0,false⟩
  audioOutputTokens := ⟨0,false⟩
  source := .provider
  complete := true
  estimate := none
  rawEvidence := ⟨[123,125]⟩
  unmappedFields := []

def sampleOutcome (usage : NormalizedUsage) : AttemptOutcome where
  attemptStatus := .succeeded
  requestStatus := .succeeded
  headersReceived := true
  endReason := "completed"
  usage := some usage

end Execution
