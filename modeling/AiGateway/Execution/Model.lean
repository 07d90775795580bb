import AiGateway.Adapter.Usage
import AiGateway.Machine.Arithmetic

/-! Execution records: requests, physical attempts and their outcomes
(`internal/execution/model.go` and the validation part of `postgres.go`). -/
namespace Execution
open Text Machine Adapter Bool

inductive RequestStatus where
  | authorized
  | routing
  | running
  | succeeded
  | partialFailed
  | failed
  | cancelled
  deriving DecidableEq

def RequestStatus.terminal : RequestStatus → Bool
  | .succeeded | .partialFailed | .failed | .cancelled => true
  | _ => false

inductive AttemptStatus where
  | created
  | connecting
  | headersReceived
  | streaming
  | succeeded
  | retryableFailed
  | failed
  | partialFailed
  | cancelled
  deriving DecidableEq

def AttemptStatus.terminal : AttemptStatus → Bool
  | .succeeded | .retryableFailed | .failed | .partialFailed | .cancelled => true
  | _ => false

structure GatewayRequest where
  (id tenantID projectID virtualKeyID logicalModel traceID spanID : String)
  status : RequestStatus
  attemptCount : ℕ
  startedAt : Time
  endedAt : Option Time
  endReason : String
  version : ℕ
  updatedAt : Time
  deriving DecidableEq

/-- The JSON object kept with an attempt: the present counts and where they come from. -/
structure UsageSummary where
  (inputTokens outputTokens cacheReadTokens cacheWriteTokens reasoningTokens : Option ℤ)
  (audioInputTokens audioOutputTokens : Option ℤ)
  source : UsageSource
  complete : Bool
  estimate : Option UsageEstimateMetadata
  deriving DecidableEq

structure RouteAttempt where
  (id requestID : String)
  attemptNo : ℕ
  deploymentID : String
  status : AttemptStatus
  startedAt : Time
  (headersReceivedAt firstByteAt endedAt : Option Time)
  (endReason providerRequestID errorCategory errorCode : String)
  usageSummary : Option UsageSummary
  version : ℕ
  updatedAt : Time
  deriving DecidableEq

structure StartRequest where
  (id tenantID projectID virtualKeyID logicalModel traceID spanID : String)

structure AttemptOutcome where
  attemptStatus : AttemptStatus
  requestStatus : RequestStatus
  headersReceived : Bool := false
  endReason : String
  providerRequestID : String := ""
  errorCategory : String := ""
  errorCode : String := ""
  usage : Option NormalizedUsage := none

/-! Patterns. -/

/-- One of `[A-Za-z0-9]`, then 7 to 127 of these or of `.`, `_`, `:` and `-`. -/
def requestIDPattern (s : String) : Bool :=
  isWord isAlnum (fun c => isAlnum c || ['.','_',':','-'].contains c) 7 127 s

/-- One of `[A-Za-z0-9]`, then at most 127 of these or of `.`, `_`, `:`, `/` and `-`. -/
def modelPattern (s : String) : Bool :=
  isWord isAlnum (fun c => isAlnum c || ['.','_',':','/','-'].contains c) 0 127 s

/-- `^[0-9a-f]{32}$` -/
def traceIDPattern (s : String) : Bool := isWord isHex isHex 31 31 s

/-- `^[0-9a-f]{16}$` -/
def spanIDPattern (s : String) : Bool := isWord isHex isHex 15 15 s

/-- `^[a-z][a-z0-9_]{0,63}$`, for end reasons and for error categories -/
def reasonPattern (s : String) : Bool :=
  isWord isLower (fun c => isLower c || isDigit c || c == '_') 0 63 s

/-- `^[A-Z][A-Z0-9_]{2,127}$` -/
def errorCodePattern (s : String) : Bool :=
  isWord isUpper (fun c => isUpper c || isDigit c || c == '_') 2 127 s

def StartRequest.validate (start : StartRequest) : Bool :=
  requestIDPattern start.id && isUUID start.tenantID && isUUID start.projectID &&
    isUUID start.virtualKeyID && modelPattern start.logicalModel &&
    traceIDPattern start.traceID && spanIDPattern start.spanID

/-! Outcomes and handles. Every refusal is `ErrInvalid`, so a check is a truth value. -/

namespace AttemptOutcome
variable (outcome : AttemptOutcome)

/-- The error category and code of a failure. -/
def classified : Bool :=
  reasonPattern outcome.errorCategory && errorCodePattern outcome.errorCode

def statusValid : Bool :=
  match outcome.attemptStatus with
  | .succeeded => outcome.requestStatus = .succeeded && outcome.headersReceived &&
      outcome.errorCategory = "" && outcome.errorCode = ""
  | .retryableFailed => (outcome.requestStatus = .failed ||
      outcome.requestStatus = .running) && outcome.classified
  | .failed => outcome.requestStatus = .failed && outcome.classified
  | .partialFailed => outcome.requestStatus = .partialFailed && outcome.headersReceived &&
      outcome.classified
  | .cancelled => outcome.requestStatus = .cancelled &&
      outcome.errorCategory = "cancelled" && errorCodePattern outcome.errorCode
  | .created | .connecting | .headersReceived | .streaming => false

/-- The provider request ID pattern is the one of adapter identifiers. -/
def validate : Bool :=
  reasonPattern outcome.endReason && (outcome.providerRequestID = "" ||
      outcome.headersReceived && identifierPattern outcome.providerRequestID) &&
    outcome.statusValid &&
    (outcome.usage.map fun usage => passes usage.validate).getD true

end AttemptOutcome

def validateRequestHandle (request : GatewayRequest) (allowed : List RequestStatus) : Bool :=
  requestIDPattern request.id && 1 ≤ request.version && allowed.contains request.status

def validateAttemptHandle (attempt : RouteAttempt) (status : AttemptStatus) : Bool :=
  isUUID attempt.id && requestIDPattern attempt.requestID && isUUID attempt.deploymentID &&
    1 ≤ attempt.attemptNo && 1 ≤ attempt.version &&
    attempt.status = status

def validateAttemptStateCompletion (attempt : RouteAttempt) (outcome : AttemptOutcome) : Bool :=
  match attempt.status with
  | .connecting => validateAttemptHandle attempt .connecting &&
      outcome.attemptStatus ≠ .partialFailed
  | .streaming => validateAttemptHandle attempt .streaming && attempt.headersReceivedAt.isSome &&
      attempt.firstByteAt.isSome && outcome.headersReceived &&
      [AttemptStatus.succeeded,.partialFailed,.cancelled].contains outcome.attemptStatus &&
      (attempt.providerRequestID = "" || outcome.providerRequestID = "" ||
        attempt.providerRequestID = outcome.providerRequestID)
  | _ => false

def validateAttemptCompletion (attempt : RouteAttempt) (outcome : AttemptOutcome) : Bool :=
  outcome.validate && outcome.requestStatus ≠ .running &&
    validateAttemptStateCompletion attempt outcome

def validateRetryAttemptCompletion (attempt : RouteAttempt) (outcome : AttemptOutcome) : Bool :=
  outcome.validate && outcome.attemptStatus = .retryableFailed &&
    outcome.requestStatus = .running && validateAttemptStateCompletion attempt outcome

/-- A valid outcome ends the attempt, and ends the request unless it is one for a retry. -/
theorem terminal_of_validate {outcome : AttemptOutcome} (h : outcome.validate) :
    outcome.attemptStatus.terminal ∧
      (outcome.requestStatus ≠ .running → outcome.requestStatus.terminal) := by
  simp only [AttemptOutcome.validate,AttemptOutcome.statusValid,and_eq_true] at h
  obtain ⟨⟨-,hstat⟩,-⟩ := h
  cases hatt : outcome.attemptStatus with
  | created => simp [hatt] at hstat
  | connecting => simp [hatt] at hstat
  | headersReceived => simp [hatt] at hstat
  | streaming => simp [hatt] at hstat
  | succeeded =>
    simp only [hatt,and_eq_true,decide_eq_true_eq] at hstat
    rw [hstat.1.1.1]
    exact ⟨rfl,fun _ => rfl⟩
  | retryableFailed =>
    simp only [hatt,and_eq_true,or_eq_true,decide_eq_true_eq] at hstat
    refine ⟨rfl,fun hrun => ?_⟩
    rw [hstat.1.resolve_right hrun]
    rfl
  | failed =>
    simp only [hatt,and_eq_true,decide_eq_true_eq] at hstat
    rw [hstat.1]
    exact ⟨rfl,fun _ => rfl⟩
  | partialFailed =>
    simp only [hatt,and_eq_true,decide_eq_true_eq] at hstat
    rw [hstat.1.1]
    exact ⟨rfl,fun _ => rfl⟩
  | cancelled =>
    simp only [hatt,and_eq_true,decide_eq_true_eq] at hstat
    rw [hstat.1.1]
    exact ⟨rfl,fun _ => rfl⟩

/-- In a valid outcome the request succeeds exactly where the attempt does. -/
theorem succeeded_iff_of_validate {outcome : AttemptOutcome} (h : outcome.validate) :
    outcome.requestStatus = .succeeded ↔ outcome.attemptStatus = .succeeded := by
  simp only [AttemptOutcome.validate,AttemptOutcome.statusValid,and_eq_true] at h
  obtain ⟨⟨-,hstat⟩,-⟩ := h
  split at hstat
  · rename_i hatt
    simp only [and_eq_true,decide_eq_true_eq] at hstat
    simp [hatt,hstat.1.1.1]
  · rename_i hatt
    simp only [and_eq_true,or_eq_true,decide_eq_true_eq] at hstat
    rcases hstat.1 with hreq | hreq <;> simp [hatt,hreq]
  all_goals
    rename_i hatt
    simp_all

end Execution
