import AiGateway.Execution.Model
import AiGateway.Retry.Classifier

/-! How one attempt is judged: the projection of a result for the client, the submission state of an
error and the outcome that is recorded (`chat_response.go`, `execution_record.go`, and the helpers
of `failover.go`). -/
namespace Gateway
open Adapter Machine Proxy Execution AttemptOutcome

/-! Projection. -/

structure ChatResponseToolCall where
  (id type name arguments : String)

structure ChatAssistantMessage where
  role : String
  content : Option String
  toolCalls : List ChatResponseToolCall

structure ChatResponseChoice where
  index : ℤ
  message : ChatAssistantMessage
  finishReason : String

structure ChatPromptTokenDetails where
  (cachedTokens cacheWriteTokens audioTokens : Option ℤ)
  deriving DecidableEq

structure ChatCompletionTokenDetails where
  (reasoningTokens audioTokens : Option ℤ)
  deriving DecidableEq

structure ChatUsageResponse where
  (promptTokens completionTokens totalTokens : ℤ)
  promptTokensDetails : Option ChatPromptTokenDetails
  completionTokenDetails : Option ChatCompletionTokenDetails
  source : UsageSource

structure ChatGatewayMetadata where
  requestID : String
  attemptCount : ℕ
  usageComplete : Bool

structure ChatCompletionResponse where
  (id object : String)
  created : ℤ
  model : String
  choices : List ChatResponseChoice
  usage : Option ChatUsageResponse
  gateway : ChatGatewayMetadata

def projectAssistantMessage (message : Message) : Except Fault ChatAssistantMessage :=
  if message.role ≠ .assistant then .error .protocol
  else if message.parts.any (fun part => part.kind ≠ .text) then .error .protocol
  else
    let content := String.join (message.parts.map (·.text))
    .ok ⟨"assistant",if content = "" then none else some content,
      message.toolCalls.map fun call => ⟨call.id,"function",call.name,call.arguments.text⟩⟩

def projectFinishReason : FinishReason → Except Fault String
  | .stop => .ok "stop"
  | .length => .ok "length"
  | .toolCalls => .ok "tool_calls"
  | .contentPolicy => .ok "content_filter"
  | .cancelled => .ok "cancelled"
  | .error => .ok "error"
  | .unknown => .ok "unknown"
  | .other _ => .error .protocol

def tokenPointer (count : TokenCount) : Option ℤ := if count.present then some count.value else none

def projectChatUsage : Option NormalizedUsage → Option ChatUsageResponse × Bool
  | none => (none,false)
  | some usage =>
      if !usage.inputTokens.present || !usage.outputTokens.present then (none,false)
      else
        let prompt : ChatPromptTokenDetails := ⟨tokenPointer usage.cacheReadTokens,
          tokenPointer usage.cacheWriteTokens,tokenPointer usage.audioInputTokens⟩
        let completion : ChatCompletionTokenDetails :=
          ⟨tokenPointer usage.reasoningTokens,tokenPointer usage.audioOutputTokens⟩
        (some { promptTokens := usage.inputTokens.value
                completionTokens := usage.outputTokens.value
                totalTokens := (usage.inputTokens.value + usage.outputTokens.value).bmod (2 ^ 64)
                promptTokensDetails := if prompt = ⟨none,none,none⟩ then none else some prompt
                completionTokenDetails :=
                  if completion = ⟨none,none⟩ then none else some completion
                source := usage.source },usage.complete)

def projectChoice (choice : NormalizedChoice) : Except Fault ChatResponseChoice := do
  let message ← projectAssistantMessage choice.message
  let finishReason ← projectFinishReason choice.finishReason
  return ⟨choice.index,message,finishReason⟩

def projectChatCompletion (result : NormalizedResponse) (logicalModel requestID : String)
    (attemptCount : ℕ) : Except Fault ChatCompletionResponse :=
  if !passes result.validate || logicalModel = "" || requestID = "" || attemptCount < 1 then
    .error .protocol
  else do
    let choices ← result.choices.mapM projectChoice
    let (usage,usageComplete) := projectChatUsage result.usage
    return { id := result.responseID, object := "chat.completion"
             created := result.observedAt / 1000000000, model := logicalModel
             choices := choices, usage := usage
             gateway := ⟨requestID,attemptCount,usageComplete⟩ }

variable {result : NormalizedResponse}

theorem validate_of_projectChatCompletion
    {logicalModel requestID : String} {attemptCount : ℕ} {projected : ChatCompletionResponse}
    (h : projectChatCompletion result logicalModel requestID attemptCount = .ok projected) :
    result.validate = .ok () := by
  unfold projectChatCompletion at h
  split_ifs at h with hinv
  simp only [Bool.or_eq_true,not_or] at hinv
  simpa using hinv.1.1.1

/-! Outcomes. -/

def cancelledAttemptOutcome : AttemptOutcome where
  attemptStatus := .cancelled
  requestStatus := .cancelled
  endReason := "client_cancelled"
  errorCategory := "cancelled"
  errorCode := "CLIENT_CANCELLED"

def failedAttemptOutcome (status : AttemptStatus) (headers : Bool)
    (reason category code : String) : AttemptOutcome where
  attemptStatus := status
  requestStatus := .failed
  headersReceived := headers
  endReason := reason
  errorCategory := category
  errorCode := code

def executionErrorCode (value fallback : String) : String :=
  if 3 ≤ value.utf8ByteSize then value else fallback

/-- The outcome of an error the provider reported. -/
def providerOutcome (detail : NormalizedError) : AttemptOutcome :=
  if detail.category = .cancelled then
    { cancelledAttemptOutcome with
      headersReceived := true, providerRequestID := detail.providerRequestID }
  else
    { attemptStatus := if detail.retryable then .retryableFailed else .failed
      requestStatus := .failed
      headersReceived := true
      endReason := "provider_" ++ detail.category.text
      providerRequestID := detail.providerRequestID
      errorCategory := detail.category.text
      errorCode := executionErrorCode detail.code "PROVIDER_ERROR" }

/-- The outcome of an error with no provider error in it. -/
def localOutcome (fault : Fault) : AttemptOutcome :=
  if fault.is .deadlineExceeded || fault.is .upstreamTimeout then
    failedAttemptOutcome .retryableFailed false "provider_timeout" "timeout" "PROVIDER_TIMEOUT"
  else if fault.is .adapterUnavailable then
    failedAttemptOutcome .failed false "adapter_unavailable" "configuration" "ADAPTER_UNAVAILABLE"
  else if fault.is .transport then
    failedAttemptOutcome .retryableFailed false "provider_transport" "transport"
      "PROVIDER_TRANSPORT"
  else if fault.is .protocol then
    failedAttemptOutcome .failed true "provider_protocol" "protocol" "PROVIDER_PROTOCOL"
  else
    failedAttemptOutcome .failed false "gateway_execution" "gateway" "GATEWAY_EXECUTION_FAILED"

def attemptOutcomeForError (fault : Fault) : AttemptOutcome :=
  if fault.is .canceled then cancelledAttemptOutcome
  else match fault.asProvider with
    | some failure => providerOutcome failure.detail
    | none => localOutcome fault

def submissionState (fault : Fault) : Retry.SubmissionState :=
  if fault.is .adapterUnavailable then .notSubmitted
  else if fault.asProvider.isSome || fault.is .protocol then .submitted
  else .unknown

def failedOutcomeWithKnownUsage (fault : Fault) (result : NormalizedResponse) : AttemptOutcome :=
  let outcome := attemptOutcomeForError fault
  if passes result.validate then
    { outcome with
      headersReceived := true, providerRequestID := result.providerRequestID
      usage := result.usage }
  else match result.usage with
    | some usage =>
        if usage.source = .estimated ∧ passes usage.validate then
          { outcome with usage := some usage }
        else outcome
    | none => outcome

/-- The outcome of an attempt whose result reaches the client. -/
def completedOutcome (result : NormalizedResponse) : AttemptOutcome where
  attemptStatus := .succeeded
  requestStatus := .succeeded
  headersReceived := true
  endReason := "completed"
  providerRequestID := result.providerRequestID
  usage := result.usage

/-- What the attempt's outcome becomes when another attempt follows. -/
def retryOutcome (fault : Fault) (result : NormalizedResponse) : AttemptOutcome :=
  { failedOutcomeWithKnownUsage fault result with
    attemptStatus := .retryableFailed, requestStatus := .running }

/-! Every outcome passes the recorder's validation. -/

/-- What every outcome of a failed attempt has. -/
structure Failing (outcome : AttemptOutcome) : Prop where
  endReason : reasonPattern outcome.endReason
  providerRequestID : outcome.providerRequestID ≠ "" →
    outcome.headersReceived ∧ identifierPattern outcome.providerRequestID
  classified : outcome.classified
  status : outcome.attemptStatus = .cancelled ∧ outcome.requestStatus = .cancelled ∧
      outcome.errorCategory = "cancelled" ∨
    (outcome.attemptStatus = .failed ∨ outcome.attemptStatus = .retryableFailed) ∧
      outcome.requestStatus = .failed
  usage : ∀ usage, outcome.usage = some usage → usage.validate = .ok ()

theorem ascii_of_errorCode {code : String} (h : Adapter.errorCodePattern code) :
    ∀ c ∈ code.toList, c ≤ '\x7f' := by
  obtain ⟨c,cs,hcode,hc,hcs,-,-⟩ := Text.isWord_iff.mp h
  rw [hcode]
  intro d hd
  have hd' : Text.isUpper d ∨ Text.isDigit d ∨ d = '_' := by
    rcases List.mem_cons.mp hd with rfl | hd
    · exact .inl hc
    · simpa [or_assoc] using hcs d hd
  simp only [Text.isUpper,Text.isDigit,Bool.and_eq_true,decide_eq_true_eq] at hd'
  rcases hd' with hd' | hd' | rfl
  · exact hd'.2.trans (by decide)
  · exact hd'.2.trans (by decide)
  · decide

theorem executionErrorCode_valid {code fallback : String} (h : Adapter.errorCodePattern code)
    (hfallback : Execution.errorCodePattern fallback) :
    Execution.errorCodePattern (executionErrorCode code fallback) := by
  unfold executionErrorCode
  split_ifs with hlen
  · rw [Text.utf8ByteSize_of_ascii (ascii_of_errorCode h)] at hlen
    exact Text.isWord_of_length h hlen
  · exact hfallback

theorem reasonPattern_category {category : ErrorCategory} (h : category.valid) :
    reasonPattern category.text ∧ reasonPattern ("provider_" ++ category.text) := by
  cases category with
  | other text => simp [ErrorCategory.valid] at h
  | _ => decide

theorem failing_cancelled : Failing cancelledAttemptOutcome where
  endReason := by decide
  providerRequestID := by simp [cancelledAttemptOutcome]
  classified := by decide
  status := .inl ⟨rfl,rfl,rfl⟩
  usage := by simp [cancelledAttemptOutcome]

theorem failing_failed {status : AttemptStatus} {headers : Bool} {reason category code : String}
    (hstat : status = .failed ∨ status = .retryableFailed) (hreason : reasonPattern reason)
    (hcat : reasonPattern category) (hcode : Execution.errorCodePattern code) :
    Failing (failedAttemptOutcome status headers reason category code) where
  endReason := hreason
  providerRequestID := by simp [failedAttemptOutcome]
  classified := by simp [classified,failedAttemptOutcome,hcat,hcode]
  status := .inr ⟨hstat,rfl⟩
  usage := by simp [failedAttemptOutcome]

theorem failing_provider {detail : NormalizedError} (h : detail.Valid) :
    Failing (providerOutcome detail) := by
  obtain ⟨hcat,hreason⟩ := reasonPattern_category h.category
  unfold providerOutcome
  split
  · exact ⟨failing_cancelled.endReason,fun hid => ⟨rfl,h.providerRequestID hid⟩,
      failing_cancelled.classified,failing_cancelled.status,failing_cancelled.usage⟩
  · refine ⟨hreason,fun hid => ⟨rfl,h.providerRequestID hid⟩,?_,.inr ⟨?_,rfl⟩,by simp⟩
    · simp [classified,hcat,executionErrorCode_valid h.code
        (show Execution.errorCodePattern "PROVIDER_ERROR" by decide)]
    · cases detail.retryable with
      | true => exact .inr rfl
      | false => exact .inl rfl

section
variable (fault : Fault)
include fault

theorem failing_local : Failing (localOutcome fault) := by
  unfold localOutcome
  split_ifs
  · exact failing_failed (.inr rfl) (by decide) (by decide) (by decide)
  · exact failing_failed (.inl rfl) (by decide) (by decide) (by decide)
  · exact failing_failed (.inr rfl) (by decide) (by decide) (by decide)
  · exact failing_failed (.inl rfl) (by decide) (by decide) (by decide)
  · exact failing_failed (.inl rfl) (by decide) (by decide) (by decide)

theorem failing_attemptOutcomeForError : Failing (attemptOutcomeForError fault) := by
  unfold attemptOutcomeForError
  split_ifs
  · exact failing_cancelled
  · split
    · rename_i failure _
      exact failing_provider (NormalizedError.valid_of_validate failure.valid)
    · exact failing_local fault

@[simp] theorem attemptOutcomeForError_usage : (attemptOutcomeForError fault).usage = none := by
  unfold attemptOutcomeForError
  split
  · rfl
  · split
    · unfold providerOutcome
      split <;> rfl
    · unfold localOutcome
      split_ifs <;> rfl

theorem failing_knownUsage (result : NormalizedResponse) :
    Failing (failedOutcomeWithKnownUsage fault result) := by
  have hbase := failing_attemptOutcomeForError fault
  unfold failedOutcomeWithKnownUsage
  simp only [passes_iff]
  split
  · rename_i hvalid
    obtain ⟨husage,hid⟩ := NormalizedResponse.valid_of_validate hvalid
    exact ⟨hbase.endReason,fun h => ⟨rfl,hid h⟩,hbase.classified,hbase.status,husage⟩
  · split
    · rename_i usage _
      split_ifs with hest
      · refine ⟨hbase.endReason,hbase.providerRequestID,hbase.classified,hbase.status,?_⟩
        intro usage' heq
        cases heq
        exact hest.2
      · exact hbase
    · exact hbase

end

variable {outcome : AttemptOutcome}

theorem Failing.validate_of_status (h : Failing outcome)
    {attemptStatus : AttemptStatus} {requestStatus : RequestStatus}
    (hstat : ({ outcome with attemptStatus := attemptStatus, requestStatus := requestStatus } :
      AttemptOutcome).statusValid) :
    ({ outcome with attemptStatus := attemptStatus, requestStatus := requestStatus } :
      AttemptOutcome).validate := by
  simp only [validate,hstat,h.endReason,Bool.true_and,Bool.and_true,Bool.and_eq_true]
  constructor
  · by_cases hid : outcome.providerRequestID = ""
    · simp [hid]
    · simp [h.providerRequestID hid]
  · cases husage : outcome.usage with
    | none => rfl
    | some usage => simp [h.usage usage husage]

theorem Failing.validate (h : Failing outcome) : outcome.validate := by
  have hclassified := h.classified
  apply h.validate_of_status
  unfold AttemptOutcome.statusValid
  rcases h.status with ⟨hatt,hreq,hcat⟩ | ⟨hatt | hatt,hreq⟩
  · simp only [AttemptOutcome.classified,Bool.and_eq_true] at hclassified
    simp [hatt,hreq,hcat,hclassified.2]
  · simp only [hatt,hreq]
    simpa [AttemptOutcome.classified] using hclassified
  · simp only [hatt,hreq]
    simpa [AttemptOutcome.classified] using hclassified

theorem Failing.retry_validate (h : Failing outcome) :
    ({ outcome with attemptStatus := .retryableFailed, requestStatus := .running } :
      AttemptOutcome).validate := by
  apply h.validate_of_status
  simpa [AttemptOutcome.statusValid,AttemptOutcome.classified] using h.classified

theorem retryOutcome_validate (fault : Fault) (result : NormalizedResponse) :
    (retryOutcome fault result).validate := (failing_knownUsage fault result).retry_validate

theorem completedOutcome_validate (h : result.validate = .ok ()) :
    (completedOutcome result).validate := by
  obtain ⟨husage,hid⟩ := NormalizedResponse.valid_of_validate h
  simp only [validate,statusValid,completedOutcome,decide_true,
    Bool.true_and,Bool.and_true,Bool.and_eq_true]
  refine ⟨⟨by decide,?_⟩,?_⟩
  · by_cases hempty : result.providerRequestID = ""
    · simp [hempty]
    · simp [hid hempty]
  · cases hsome : result.usage with
    | none => rfl
    | some usage => simp [husage usage hsome]

end Gateway
