import AiGateway.Catalog.Capabilities
import AiGateway.Execution.Rows
import AiGateway.Metering.Outbox
import AiGateway.Relational.Table

/-! The tables of the recorder: the constraints and triggers of migrations 7 and 16, and the
statements that insert and update rows. -/
namespace Execution
open Machine Adapter Proxy Metering Catalog

/-! `app.gateway_requests`. The statuses `received` and `reserved` are never written. -/

/-- `enforce_gateway_request_transition`, the statuses -/
def RequestStatus.leadsTo : RequestStatus → RequestStatus → Bool
  | .authorized, new => [.routing,.failed,.cancelled].contains new
  | .routing, new => [.running,.failed,.cancelled].contains new
  | .running, new => [.running,.succeeded,.partialFailed,.failed,.cancelled].contains new
  | _, _ => false

def GatewayRequest.lifecycleValid (r : GatewayRequest) : Prop :=
  if r.status.terminal then (∃ t, r.endedAt = some t ∧ r.startedAt ≤ t) ∧ r.endReason ≠ ""
  else r.endedAt = none ∧ r.endReason = ""

instance (r : GatewayRequest) : Decidable r.lifecycleValid := by
  unfold GatewayRequest.lifecycleValid
  have : Decidable (∃ t, r.endedAt = some t ∧ r.startedAt ≤ t) :=
    match h : r.endedAt with
    | none => isFalse (by simp)
    | some t => decidable_of_iff (r.startedAt ≤ t) (by simp)
  infer_instance

@[mk_iff] structure GatewayRequest.Check (r : GatewayRequest) : Prop where
  id : requestIDPattern r.id
  traceID : traceIDPattern r.traceID
  spanID : spanIDPattern r.spanID
  endReason : r.endReason = "" ∨ reasonPattern r.endReason
  lifecycle : r.lifecycleValid
  version : 0 < r.version
  updateTime : r.startedAt ≤ r.updatedAt

instance (r : GatewayRequest) : Decidable r.Check :=
  decidable_of_iff' _ (GatewayRequest.check_iff r)

/-- `enforce_gateway_request_transition` -/
@[mk_iff] structure RequestTransition (old new : GatewayRequest) : Prop where
  id : new.id = old.id
  tenantID : new.tenantID = old.tenantID
  projectID : new.projectID = old.projectID
  virtualKeyID : new.virtualKeyID = old.virtualKeyID
  logicalModel : new.logicalModel = old.logicalModel
  traceID : new.traceID = old.traceID
  spanID : new.spanID = old.spanID
  startedAt : new.startedAt = old.startedAt
  version : new.version = old.version + 1
  updatedAt : old.updatedAt ≤ new.updatedAt
  attemptCount : old.attemptCount ≤ new.attemptCount ∧ new.attemptCount ≤ old.attemptCount + 1
  counted : old.attemptCount < new.attemptCount → new.status = .running
  status : old.status.leadsTo new.status

instance (old new : GatewayRequest) : Decidable (RequestTransition old new) :=
  decidable_of_iff' _ (requestTransition_iff old new)

/-! `app.route_attempts` -/

/-- `enforce_route_attempt_transition`, the statuses -/
def AttemptStatus.leadsTo : AttemptStatus → AttemptStatus → Bool
  | .created, new => [.connecting,.failed,.cancelled].contains new
  | .connecting, new => [.headersReceived,.retryableFailed,.failed,.cancelled].contains new
  | .headersReceived, new =>
      [.streaming,.succeeded,.retryableFailed,.failed,.cancelled].contains new
  | .streaming, new => [.succeeded,.partialFailed,.failed,.cancelled].contains new
  | _, _ => false

/-- `route_attempts_lifecycle_valid` -/
def RouteAttempt.lifecycleValid (a : RouteAttempt) : Prop :=
  match a.status with
  | .created | .connecting => a.headersReceivedAt = none ∧ a.firstByteAt = none ∧
      a.endedAt = none ∧ a.endReason = "" ∧ a.providerRequestID = "" ∧ a.errorCategory = "" ∧
      a.errorCode = "" ∧ a.usageSummary = none
  | .headersReceived | .streaming => a.headersReceivedAt.isSome ∧ a.endedAt = none ∧
      a.endReason = "" ∧ a.errorCategory = "" ∧ a.errorCode = "" ∧ a.usageSummary = none
  | .succeeded => a.headersReceivedAt.isSome ∧ a.endedAt.isSome ∧ a.endReason ≠ "" ∧
      a.errorCategory = "" ∧ a.errorCode = ""
  | .retryableFailed | .failed | .partialFailed | .cancelled => a.endedAt.isSome ∧
      a.endReason ≠ "" ∧ a.errorCategory ≠ "" ∧ a.errorCode ≠ ""

instance (a : RouteAttempt) : Decidable a.lifecycleValid := by
  unfold RouteAttempt.lifecycleValid
  split <;> infer_instance

/-- `t` is null or not before `s`. -/
def notBefore (s : Time) (t : Option Time) : Prop :=
  (t.map fun t => decide (s ≤ t)).getD true

instance (s : Time) (t : Option Time) : Decidable (notBefore s t) := by
  unfold notBefore
  infer_instance

/-- `route_attempts_timestamps_valid` -/
@[mk_iff] structure RouteAttempt.Timestamps (a : RouteAttempt) : Prop where
  updatedAt : a.startedAt ≤ a.updatedAt
  headersReceivedAt : notBefore a.startedAt a.headersReceivedAt
  firstByteAt : notBefore a.startedAt a.firstByteAt
  endedAt : notBefore a.startedAt a.endedAt
  headersFirst : a.firstByteAt.isSome → a.headersReceivedAt.isSome
  endAfterHeaders : notBefore ((a.headersReceivedAt).getD a.startedAt) a.endedAt
  endAfterFirstByte : notBefore ((a.firstByteAt).getD a.startedAt) a.endedAt

instance (a : RouteAttempt) : Decidable a.Timestamps :=
  decidable_of_iff' _ (RouteAttempt.timestamps_iff a)

@[mk_iff] structure RouteAttempt.Check (a : RouteAttempt) : Prop where
  attemptNo : 0 < a.attemptNo
  endReason : a.endReason = "" ∨ reasonPattern a.endReason
  providerRequestID : a.providerRequestID = "" ∨ identifierPattern a.providerRequestID
  errorCategory : a.errorCategory = "" ∨ reasonPattern a.errorCategory
  errorCode : a.errorCode = "" ∨ errorCodePattern a.errorCode
  timestamps : a.Timestamps
  lifecycle : a.lifecycleValid
  version : 0 < a.version

instance (a : RouteAttempt) : Decidable a.Check := decidable_of_iff' _ (RouteAttempt.check_iff a)

/-- `enforce_route_attempt_transition` -/
@[mk_iff] structure AttemptTransition (old new : RouteAttempt) : Prop where
  id : new.id = old.id
  requestID : new.requestID = old.requestID
  attemptNo : new.attemptNo = old.attemptNo
  deploymentID : new.deploymentID = old.deploymentID
  startedAt : new.startedAt = old.startedAt
  version : new.version = old.version + 1
  updatedAt : old.updatedAt ≤ new.updatedAt
  status : old.status.leadsTo new.status

instance (old new : RouteAttempt) : Decidable (AttemptTransition old new) :=
  decidable_of_iff' _ (attemptTransition_iff old new)

/-! The database. -/

/-- A row of `gateway_request_status_events` or `route_attempt_status_events`. -/
structure StatusEvent (α : Type) where
  id : String
  version : ℕ
  fromStatus : Option α
  toStatus : α
  observedAt : Time
  reasonCode : String
  deriving DecidableEq

structure Database where
  requests : List GatewayRequest
  attempts : List RouteAttempt
  requestEvents : List (StatusEvent RequestStatus)
  attemptEvents : List (StatusEvent AttemptStatus)
  outbox : List OutboxRow
  deployments : List Deployment
  deriving DecidableEq

def GatewayRequest.event (new : GatewayRequest) (old : Option RequestStatus) :
    StatusEvent RequestStatus :=
  ⟨new.id,new.version,old,new.status,new.updatedAt,new.endReason⟩

def RouteAttempt.event (new : RouteAttempt) (old : Option AttemptStatus) :
    StatusEvent AttemptStatus :=
  ⟨new.id,new.version,old,new.status,new.updatedAt,new.endReason⟩

namespace Database
variable (db : Database)

/-! Statements. No row and a violated constraint (23503, 23505, 23514) are both `ErrConflict`. -/

/-- `references` says whether the tenant, the project and the key exist. -/
def insertRequest (row : GatewayRequest) (references : Bool) :
    Except RecordKind (Database × GatewayRequest) :=
  if references ∧ (∀ r ∈ db.requests, r.id ≠ row.id) ∧ row.Check then
    .ok ({ db with
      requests := db.requests ++ [row]
      requestEvents := db.requestEvents ++ [row.event none] },row)
  else .error .conflict

/-- `UPDATE … SET … WHERE id = $1 AND … RETURNING` -/
def updateRequest (id : String) (cond : GatewayRequest → Bool)
    (set : GatewayRequest → GatewayRequest) : Except RecordKind (Database × GatewayRequest) :=
  match db.requests.find? fun r => r.id = id with
  | none => .error .conflict
  | some row =>
      if cond row ∧ RequestTransition row (set row) ∧ (set row).Check then
        .ok ({ db with
          requests := Relational.update (·.id) id set db.requests
          requestEvents := db.requestEvents ++ [(set row).event (some row.status)] },set row)
      else .error .conflict

def insertAttempt (row : RouteAttempt) : Except RecordKind Database :=
  if (∀ a ∈ db.attempts, a.id ≠ row.id) ∧
      (∀ a ∈ db.attempts, a.requestID = row.requestID → a.attemptNo ≠ row.attemptNo) ∧
      (∃ r ∈ db.requests, r.id = row.requestID) ∧
      (∃ d ∈ db.deployments, d.id = row.deploymentID) ∧ row.Check then
    .ok { db with
      attempts := db.attempts ++ [row]
      attemptEvents := db.attemptEvents ++ [row.event none] }
  else .error .conflict

def updateAttempt (id : String) (cond : RouteAttempt → Bool) (set : RouteAttempt → RouteAttempt) :
    Except RecordKind (Database × RouteAttempt) :=
  match db.attempts.find? fun a => a.id = id with
  | none => .error .conflict
  | some row =>
      if cond row ∧ AttemptTransition row (set row) ∧ (set row).Check then
        .ok ({ db with
          attempts := Relational.update (·.id) id set db.attempts
          attemptEvents := db.attemptEvents ++ [(set row).event (some row.status)] },set row)
      else .error .conflict

/-- The keys and references of new outbox rows. -/
def outboxKeys (rows : List OutboxRow) : Prop :=
  ((db.outbox ++ rows).map (·.event.eventID)).Nodup ∧
    ((db.outbox ++ rows).map fun r =>
      (r.event.requestID,r.event.attemptID,r.event.tokenType,r.event.source)).Nodup ∧
    ∀ row ∈ rows, (∃ r ∈ db.requests, r.tenantID = row.event.tenantID ∧
      r.id = row.event.requestID) ∧
      ∃ a ∈ db.attempts, a.requestID = row.event.requestID ∧ a.id = row.event.attemptID ∧
        a.deploymentID = row.event.deploymentID

instance (rows : List OutboxRow) : Decidable (db.outboxKeys rows) := by
  unfold outboxKeys
  infer_instance

def insertOutbox (rows : List OutboxRow) : Except RecordKind Database :=
  if db.outboxKeys rows ∧ ∀ row ∈ rows, row.checks then
    .ok { db with outbox := db.outbox ++ rows }
  else .error .conflict

end Database
end Execution
