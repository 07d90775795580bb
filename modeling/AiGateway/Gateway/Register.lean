import AiGateway.Execution.Rows
import AiGateway.Gateway.Rounds
import AiGateway.Relational.Table

/-! A recorder that keeps the records of one request in memory: it checks handles and outcomes as
`PostgresRecorder` does, compares versions, and has no other reason to fail. -/
namespace Gateway
open Text Machine Proxy Execution Catalog Relational

/-- The calls that took effect. -/
inductive RecordEvent where
  | started (attempt : RouteAttempt)
  | retried (attempt : RouteAttempt) (outcome : AttemptOutcome)
  | completed (attempt : RouteAttempt) (outcome : AttemptOutcome)
  | failed (status : RequestStatus) (reason : String)

structure Register where
  request : GatewayRequest
  attempts : List RouteAttempt
  log : List RecordEvent

namespace Register
variable (clock : ℕ → Time) (newID : ℕ → String) (r : Register)

/-- The recorder's clock, read once for each call that takes effect. -/
def now : Time := clock r.log.length

/-- `WHERE id = $1 AND status = $2 AND version = $3` -/
def requestMatches (request : GatewayRequest) : Bool :=
  r.request.id = request.id && r.request.status = request.status &&
    r.request.version = request.version

def attemptMatches (requestID : String) (attempt row : RouteAttempt) : Bool :=
  row.id = attempt.id && row.requestID = requestID &&
    row.status = attempt.status && row.version = attempt.version

/-- The attempt row that `StartAttempt` leaves. -/
def begun (request : GatewayRequest) (deploymentID : String) : RouteAttempt :=
  (RouteAttempt.created (newID r.attempts.length) request.id (request.attemptCount + 1)
    deploymentID (r.now clock)).connected (r.now clock)

def startAttempt (request : GatewayRequest) (deploymentID : String) :
    Register × Except Fault (GatewayRequest × RouteAttempt) :=
  if !(validateRequestHandle request [.routing,.running] && isUUID deploymentID) then
    (r,.error (.record .invalid))
  else if !(r.requestMatches request && r.request.attemptCount = request.attemptCount) then
    (r,.error (.record .conflict))
  else
    let updated := r.request.counted (r.now clock)
    let attempt := r.begun clock newID request deploymentID
    (⟨updated,r.attempts ++ [attempt],r.log ++ [.started attempt]⟩,.ok (updated,attempt))

/-- The rows with one attempt completed. -/
def completeRow (attempt : RouteAttempt) (outcome : AttemptOutcome) : List RouteAttempt :=
  update (·.id) attempt.id
    (·.completed outcome (outcome.usage.map usageSummary) (r.now clock)) r.attempts

def completeAttempt (request : GatewayRequest) (attempt : RouteAttempt)
    (outcome : AttemptOutcome) : Register × Except Fault (GatewayRequest × RouteAttempt) :=
  if !(validateRequestHandle request [.running] && validateAttemptCompletion attempt outcome &&
      attempt.requestID = request.id) then (r,.error (.record .invalid))
  else match r.attempts.find? (attemptMatches request.id attempt) with
    | none => (r,.error (.record .conflict))
    | some row =>
        if !r.requestMatches request then (r,.error (.record .conflict))
        else
          let updated := r.request.ended outcome.requestStatus outcome.endReason (r.now clock)
          (⟨updated,r.completeRow clock attempt outcome,r.log ++ [.completed attempt outcome]⟩,
            .ok (updated,row.completed outcome (outcome.usage.map usageSummary) (r.now clock)))

def completeAttemptForRetry (request : GatewayRequest) (attempt : RouteAttempt)
    (outcome : AttemptOutcome) : Register × Except Fault RouteAttempt :=
  if !(validateRequestHandle request [.running] && validateRetryAttemptCompletion attempt outcome &&
      attempt.requestID = request.id) then (r,.error (.record .invalid))
  else match r.attempts.find? (attemptMatches request.id attempt) with
    | none => (r,.error (.record .conflict))
    | some row =>
        (⟨r.request,r.completeRow clock attempt outcome,r.log ++ [.retried attempt outcome]⟩,
          .ok (row.completed outcome (outcome.usage.map usageSummary) (r.now clock)))

def failRequest (request : GatewayRequest) (status : RequestStatus) (reason : String) :
    Register × Except Fault GatewayRequest :=
  if !(validateRequestHandle request [.authorized,.routing,.running] &&
      (status = .failed || status = .cancelled) && reasonPattern reason) then
    (r,.error (.record .invalid))
  else if !r.requestMatches request then (r,.error (.record .conflict))
  else
    let updated := r.request.ended status reason (r.now clock)
    (⟨updated,r.attempts,r.log ++ [.failed status reason]⟩,.ok updated)

/-- The recorder over these records. -/
def recorder : Recorder Register where
  startAttempt := startAttempt clock newID
  completeAttempt := completeAttempt clock
  completeAttemptForRetry := completeAttemptForRetry clock
  failRequest := failRequest clock

variable {clock newID r} {request : GatewayRequest}

theorem startAttempt_ok {deploymentID : String}
    (hhandle : validateRequestHandle r.request [.routing,.running]) (hdep : isUUID deploymentID) :
    startAttempt clock newID r r.request deploymentID = (⟨r.request.counted (r.now clock),
        r.attempts ++ [r.begun clock newID r.request deploymentID],
        r.log ++ [.started (r.begun clock newID r.request deploymentID)]⟩,
        .ok (r.request.counted (r.now clock),r.begun clock newID r.request deploymentID)) := by
  simp [startAttempt,hhandle,hdep,requestMatches]

theorem failRequest_ok {status : RequestStatus} {reason : String}
    (hhandle : validateRequestHandle r.request [.authorized,.routing,.running])
    (hstat : status = .failed ∨ status = .cancelled) (hreason : reasonPattern reason) :
    failRequest clock r r.request status reason =
      (⟨r.request.ended status reason (r.now clock),r.attempts,r.log ++ [.failed status reason]⟩,
        .ok (r.request.ended status reason (r.now clock))) := by
  rcases hstat with rfl | rfl
  · simp [failRequest,hhandle,hreason,requestMatches]
  · simp [failRequest,hhandle,hreason,requestMatches]

theorem find_last {rows : List RouteAttempt} {attempt : RouteAttempt}
    (hfresh : ∀ row ∈ rows, row.id ≠ attempt.id) (hreq : attempt.requestID = request.id) :
    (rows ++ [attempt]).find? (attemptMatches request.id attempt) = some attempt := by
  have hnone : rows.find? (attemptMatches request.id attempt) = none := by
    rw [List.find?_eq_none]
    intro row hrow
    simp [attemptMatches,hfresh row hrow]
  simp [List.find?_append,hnone,attemptMatches,hreq]

theorem completeRow_last {rows : List RouteAttempt} {attempt : RouteAttempt}
    {outcome : AttemptOutcome} (hrows : r.attempts = rows ++ [attempt])
    (hfresh : ∀ row ∈ rows, row.id ≠ attempt.id) : r.completeRow clock attempt outcome =
      rows ++ [attempt.completed outcome (outcome.usage.map usageSummary) (r.now clock)] := by
  have hrest := update_of_notMem
    (f := (·.completed outcome (outcome.usage.map usageSummary) (r.now clock))) hfresh
  unfold update at hrest
  simp [completeRow,update,hrows,hrest]

variable {rows : List RouteAttempt} {attempt : RouteAttempt} {outcome : AttemptOutcome}

section
variable (hrows : r.attempts = rows ++ [attempt]) (hfresh : ∀ row ∈ rows, row.id ≠ attempt.id)
  (hreq : attempt.requestID = r.request.id)
  (hhandle : validateRequestHandle r.request [.running])
include hrows hfresh hreq hhandle

theorem completeAttempt_ok (hvalid : validateAttemptCompletion attempt outcome) :
    completeAttempt clock r r.request attempt outcome =
      (⟨r.request.ended outcome.requestStatus outcome.endReason (r.now clock),
        rows ++ [attempt.completed outcome (outcome.usage.map usageSummary) (r.now clock)],
        r.log ++ [.completed attempt outcome]⟩,
        .ok (r.request.ended outcome.requestStatus outcome.endReason (r.now clock),
          attempt.completed outcome (outcome.usage.map usageSummary) (r.now clock))) := by
  rw [completeAttempt,completeRow_last hrows hfresh,hrows,find_last hfresh hreq]
  simp [hhandle,hvalid,hreq,requestMatches]

theorem completeAttemptForRetry_ok (hvalid : validateRetryAttemptCompletion attempt outcome =
    true) :
    completeAttemptForRetry clock r r.request attempt outcome = (⟨r.request,
        rows ++ [attempt.completed outcome (outcome.usage.map usageSummary) (r.now clock)],
        r.log ++ [.retried attempt outcome]⟩,
        .ok (attempt.completed outcome (outcome.usage.map usageSummary) (r.now clock))) := by
  rw [completeAttemptForRetry,completeRow_last hrows hfresh,hrows,find_last hfresh hreq]
  simp [hhandle,hvalid,hreq]

end
end Register

/-! Two deployments: the first fails in transit, the second is rate limited. -/

def sampleFirst : String := "65000000-0000-4000-8000-000000000001"

def sampleSecond : String := "65000000-0000-4000-8000-000000000002"

def sampleSelection (deploymentID : String) : Selection :=
  ⟨⟨"chat","provider-a",⟨deploymentID,"model-a",1,"v1"⟩,true⟩⟩

def sampleRateLimit : ProviderError where
  detail := {
    code := "RATE_LIMITED", category := .rateLimit, retryable := true, retryAfter := none
    providerStatus := 429, safeMessage := "slow down", providerRequestID := "" }
  valid := by decide

def sampleFailure : ℕ → Fault
  | 0 => .transport
  | 1 => .provider sampleRateLimit
  | _ => .protocol

def sampleServices : Services ℕ where
  select world request :=
    if !request.excludedDeploymentIDs.contains sampleFirst then
      (world,.ok (sampleSelection sampleFirst))
    else if !request.excludedDeploymentIDs.contains sampleSecond then
      (world,.ok (sampleSelection sampleSecond))
    else (world,.error .noCandidate)
  execute world _ _ := (world + 1,{},some (sampleFailure world))
  estimator := none
  record world _ := (world,none)
  recordRetry world _ := (world,none)
  now world := (world,1000)
  wait world _ := (world,none)
  contextError _ := none
  parentError _ := none

def sampleAttemptID (n : ℕ) : String :=
  "70000000-0000-4000-8000-00000000000" ++ toString (n % 10)

def sampleFailover (maximumAttempts : ℤ) : NonStreamFailover ℕ Register where
  services := sampleServices
  recorder := Register.recorder (fun _ => 1000) sampleAttemptID
  options := { defaultFailoverOptions with maximumAttempts := maximumAttempts }

def sampleRecorded : GatewayRequest :=
  (GatewayRequest.authorized ⟨"request-0001","10000000-0000-4000-8000-000000000001",
    "20000000-0000-4000-8000-000000000001","30000000-0000-4000-8000-000000000001","chat",
    "0123456789abcdef0123456789abcdef","0123456789abcdef"⟩ 1000).routed 1000

def sampleCall : Call where
  selectionRequest := ⟨⟨"chat",false,true⟩,[]⟩
  providerRequest := ⟨"chat",false,true⟩
  requestID := "request-0001"
  deadline := 30 * 1000000000

end Gateway
