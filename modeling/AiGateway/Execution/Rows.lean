import AiGateway.Execution.Model
import AiGateway.Proxy.Fault

/-! The rows of one request and what each statement of the recorder writes to them
(`internal/execution/postgres.go`). A null text column reads back as the empty text. -/
namespace Execution
open Machine Adapter Proxy

namespace GatewayRequest
variable (row : GatewayRequest)

/-- The row `StartRequest` inserts. -/
def authorized (start : StartRequest) (now : Time) : GatewayRequest where
  id := start.id
  tenantID := start.tenantID
  projectID := start.projectID
  virtualKeyID := start.virtualKeyID
  logicalModel := start.logicalModel
  traceID := start.traceID
  spanID := start.spanID
  status := .authorized
  attemptCount := 0
  startedAt := now
  endedAt := none
  endReason := ""
  version := 1
  updatedAt := now

def routed (now : Time) : GatewayRequest :=
  { row with status := .routing, version := row.version + 1, updatedAt := now }

/-- The update that begins an attempt. -/
def counted (now : Time) : GatewayRequest :=
  { row with
    status := .running, attemptCount := row.attemptCount + 1, version := row.version + 1
    updatedAt := now }

def ended (status : RequestStatus) (reason : String) (now : Time) : GatewayRequest :=
  { row with
    status := status, endedAt := some now, endReason := reason, version := row.version + 1
    updatedAt := now }

end GatewayRequest

namespace RouteAttempt
variable (row : RouteAttempt)

/-- The row `StartAttempt` inserts. -/
def created (id requestID : String) (attemptNo : ℕ) (deploymentID : String) (now : Time) :
    RouteAttempt where
  id := id
  requestID := requestID
  attemptNo := attemptNo
  deploymentID := deploymentID
  status := .created
  startedAt := now
  headersReceivedAt := none
  firstByteAt := none
  endedAt := none
  endReason := ""
  providerRequestID := ""
  errorCategory := ""
  errorCode := ""
  usageSummary := none
  version := 1
  updatedAt := now

def connected (now : Time) : RouteAttempt :=
  { row with status := .connecting, version := 2, updatedAt := now }

def headed (providerRequestID : String) (now : Time) : RouteAttempt :=
  { row with
    status := .headersReceived, headersReceivedAt := some now
    providerRequestID := providerRequestID, version := row.version + 1, updatedAt := now }

def streamed (now : Time) : RouteAttempt :=
  { row with
    status := .streaming, firstByteAt := some now, version := row.version + 1, updatedAt := now }

def ended (outcome : AttemptOutcome) (summary : Option UsageSummary) (now : Time) : RouteAttempt :=
  { row with
    status := outcome.attemptStatus, endedAt := some now, endReason := outcome.endReason
    errorCategory := outcome.errorCategory, errorCode := outcome.errorCode, usageSummary := summary
    providerRequestID :=
      if row.providerRequestID = "" then outcome.providerRequestID else row.providerRequestID
    version := row.version + 1, updatedAt := now }

/-- Whether completing the attempt passes through `headers_received`. -/
def headersFirst (outcome : AttemptOutcome) : Bool :=
  row.status = .connecting && outcome.headersReceived

/-- The row after `completeAttemptInTransaction`. -/
def completed (outcome : AttemptOutcome) (summary : Option UsageSummary) (now : Time) :
    RouteAttempt :=
  (if row.headersFirst outcome then row.headed outcome.providerRequestID now else row).ended
    outcome summary now

variable {row} {outcome : AttemptOutcome} {summary : Option UsageSummary} {now : Time}

@[simp] theorem completed_status :
    (row.completed outcome summary now).status = outcome.attemptStatus := rfl

@[simp] theorem completed_attemptNo :
    (row.completed outcome summary now).attemptNo = row.attemptNo := by
  unfold completed
  split <;> rfl

@[simp] theorem completed_id : (row.completed outcome summary now).id = row.id := by
  unfold completed
  split <;> rfl

end RouteAttempt

def tokenValue (count : TokenCount) : Option ℤ := if count.present then some count.value else none

def usageSummary (usage : NormalizedUsage) : UsageSummary where
  inputTokens := tokenValue usage.inputTokens
  outputTokens := tokenValue usage.outputTokens
  cacheReadTokens := tokenValue usage.cacheReadTokens
  cacheWriteTokens := tokenValue usage.cacheWriteTokens
  reasoningTokens := tokenValue usage.reasoningTokens
  audioInputTokens := tokenValue usage.audioInputTokens
  audioOutputTokens := tokenValue usage.audioOutputTokens
  source := usage.source
  complete := usage.complete
  estimate := usage.estimate

def marshalUsageSummary : Option NormalizedUsage → Except RecordKind (Option UsageSummary)
  | none => .ok none
  | some usage => if passes usage.validate then .ok (some (usageSummary usage)) else .error .invalid

theorem marshalUsageSummary_ok {outcome : AttemptOutcome} (h : outcome.validate) :
    marshalUsageSummary outcome.usage = .ok (outcome.usage.map usageSummary) := by
  cases husage : outcome.usage with
  | none => rfl
  | some usage =>
    simp only [AttemptOutcome.validate,husage,Option.map_some,Option.getD_some,
      Bool.and_eq_true] at h
    simp [marshalUsageSummary,h.2]

end Execution
