import AiGateway.Adapter.Usage
import AiGateway.Machine.Arithmetic

/-! Normalized requests, responses and provider errors (`internal/adapter/model.go`, `validate.go`).
Texts are valid UTF-8 by their type. -/
namespace Adapter
open Text Machine

/-- `NormalizedRequest` without its content, with the verdict of its `Validate`. -/
structure NormalizedRequest where
  logicalModel : String
  (stream valid : Bool)

inductive MessageRole where
  | system
  | developer
  | user
  | assistant
  | tool
  | other (text : String)
  deriving DecidableEq

inductive ContentKind where
  | text
  | imageReference
  | audioReference
  | other (text : String)
  deriving DecidableEq

inductive FinishReason where
  | stop
  | length
  | toolCalls
  | contentPolicy
  | cancelled
  | error
  | unknown
  | other (text : String)
  deriving DecidableEq

structure ContentPart where
  kind : ContentKind
  (text reference mediaType detail : String)

/-- How a JSON decoder that wants exactly one object ends. -/
inductive JSONShape where
  | object
  | malformed
  | trailing
  deriving DecidableEq

/-- `json.RawMessage`, with the decoder's verdict on it. -/
structure RawMessage where
  text : String
  shape : JSONShape
  deriving DecidableEq

structure ToolCall where
  (id name : String)
  arguments : RawMessage

structure Message where
  role : MessageRole
  name : String
  parts : List ContentPart
  toolCalls : List ToolCall
  toolCallID : String

structure NormalizedChoice where
  index : ℤ
  message : Message
  finishReason : FinishReason
  providerFinishReason : String

structure NormalizedResponse where
  responseID : String := ""
  model : String := ""
  choices : List NormalizedChoice := []
  usage : Option NormalizedUsage := none
  providerRequestID : String := ""
  observedAt : Time := zeroTime

def maxTextBytes : ℕ := 1024 * 1024

def maxMediaReferenceBytes : ℕ := 16 * 1024

def maxSchemaBytes : ℕ := 64 * 1024

/-- `^[A-Za-z_][A-Za-z0-9_.:-]{0,127}$` -/
def toolNamePattern (s : String) : Bool :=
  isWord (fun c => isUpper c || isLower c || c == '_')
    (fun c => isAlnum c || ['_','.',':','-'].contains c) 0 127 s

def validateJSONObject (field : String) (raw : RawMessage) (maxBytes : ℕ) :
    List (Bool × ValidationError) :=
  [(decide (raw.text = ""),⟨field,"must be a JSON object"⟩),
    (decide (maxBytes < raw.text.utf8ByteSize),
      ⟨field,"must not exceed " ++ toString maxBytes ++ " bytes"⟩),
    (decide (raw.shape = .malformed),⟨field,"must be a valid JSON object"⟩),
    (decide (raw.shape = .trailing),⟨field,"must contain exactly one JSON object"⟩)]

/-- The checks that image and audio references share. -/
def validateReference (field : String) (part : ContentPart) : List (Bool × ValidationError) :=
  [(decide (part.text ≠ ""),⟨field ++ ".text","media reference parts cannot contain text"⟩),
    (part.reference = "" || !isTrimmed part.reference ||
        maxMediaReferenceBytes < part.reference.utf8ByteSize,
      ⟨field ++ ".reference","must be a non-empty trimmed reference within the size limit"⟩),
    validateOptionalIdentifier (field ++ ".media_type") part.mediaType 128]

def validateContentPart (field : String) (part : ContentPart) : List (Bool × ValidationError) :=
  match part.kind with
  | .text =>
      [(part.text = "" || maxTextBytes < part.text.utf8ByteSize,
          ⟨field ++ ".text","must be non-empty valid UTF-8 within the size limit"⟩),
        (part.reference ≠ "" || part.mediaType ≠ "" || part.detail ≠ "",
          ⟨field,"text parts cannot contain media fields"⟩)]
  | .imageReference => validateReference field part ++
      [(!(["","auto","low","high"].contains part.detail),
        ⟨field ++ ".detail","must be auto, low, or high when present"⟩)]
  | .audioReference => validateReference field part ++
      [(decide (part.detail ≠ ""),⟨field ++ ".detail","is only allowed for image references"⟩)]
  | .other _ =>
      [(true,⟨field ++ ".kind","must be text, image_reference, or audio_reference"⟩)]

def validateToolCall (field : String) (call : ToolCall) : List (Bool × ValidationError) :=
  [validateIdentifier (field ++ ".id") call.id 256,
    (!toolNamePattern call.name,⟨field ++ ".name","must be a canonical tool name"⟩)] ++
  validateJSONObject (field ++ ".arguments") call.arguments maxSchemaBytes

/-- The name of an entry of a list field. -/
def entry (field : String) (index : ℕ) : String := field ++ "[" ++ toString index ++ "]"

def validateMessage (field : String) (message : Message) : List (Bool × ValidationError) :=
  [(match message.role with
      | .other _ => true
      | _ => false, ⟨field ++ ".role","must be a supported normalized role"⟩),
    validateOptionalIdentifier (field ++ ".name") message.name 128,
    (decide (1024 < message.parts.length),
      ⟨field ++ ".parts","must contain at most 1024 entries"⟩)] ++
  (message.parts.zipIdx.flatMap fun (part,i) =>
    validateContentPart (entry (field ++ ".parts") i) part) ++
  (message.toolCalls.zipIdx.flatMap fun (call,i) =>
    validateToolCall (entry (field ++ ".tool_calls") i) call) ++
  if message.role = .tool then
    [validateIdentifier (field ++ ".tool_call_id") message.toolCallID 256,
      (decide (message.toolCalls ≠ []),
        ⟨field ++ ".tool_calls","tool result messages cannot contain tool calls"⟩),
      (decide (message.parts = []),⟨field ++ ".parts","tool result messages require content"⟩)]
  else
    [(decide (message.toolCallID ≠ ""),
        ⟨field ++ ".tool_call_id","is only allowed for tool result messages"⟩),
      (message.toolCalls ≠ [] && message.role ≠ .assistant,
        ⟨field ++ ".tool_calls","are only allowed for assistant messages"⟩),
      (message.parts = [] && message.toolCalls = [],
        ⟨field,"must contain content or assistant tool calls"⟩)]

def validateFinishReason (field : String) (reason : FinishReason) (providerReason : String) :
    Bool × ValidationError :=
  match reason with
  | .other _ => (true,⟨field ++ ".finish_reason","must be a supported normalized finish reason"⟩)
  | .unknown => validateIdentifier (field ++ ".provider_finish_reason") providerReason 256
  | _ => validateOptionalIdentifier (field ++ ".provider_finish_reason") providerReason 256

/-- The checks of the choices from `i` on; `seen` has the indexes before. -/
def choiceChecks (i : ℕ) (seen : List ℤ) : List NormalizedChoice → List (Bool × ValidationError)
  | [] => []
  | choice :: choices =>
      let field := entry "choices" i
      [(decide (choice.index < 0),⟨field ++ ".index","must not be negative"⟩),
        (seen.contains choice.index,⟨field ++ ".index","must be unique"⟩),
        (decide (choice.message.role ≠ .assistant),
          ⟨field ++ ".message.role","must be assistant"⟩)] ++
      validateMessage (field ++ ".message") choice.message ++
      [validateFinishReason field choice.finishReason choice.providerFinishReason] ++
      choiceChecks (i + 1) (choice.index :: seen) choices

def NormalizedResponse.checks (response : NormalizedResponse) : List (Bool × ValidationError) :=
  [validateIdentifier "response_id" response.responseID 256,
    validateIdentifier "model" response.model 256,
    (response.choices = [] || 128 < response.choices.length,
      ⟨"choices","must contain 1-128 entries"⟩)] ++
  choiceChecks 0 [] response.choices ++ (response.usage.map (·.checks)).getD [] ++
  [validateOptionalIdentifier "provider_request_id" response.providerRequestID 256,
    (decide (response.observedAt = zeroTime),⟨"observed_at","must be present"⟩)]

def NormalizedResponse.validate (response : NormalizedResponse) : Except ValidationError Unit :=
  firstFailure response.checks

theorem identifierPattern_of_validateOptional {field value : String} {maxBytes : ℕ}
    (h : (validateOptionalIdentifier field value maxBytes).1 = false) (hvalue : value ≠ "") :
    identifierPattern value := by
  simp only [validateOptionalIdentifier,validateIdentifier,hvalue,ne_eq,not_false_eq_true,
    decide_true,decide_false,Bool.true_and,Bool.false_or,Bool.or_eq_false_iff,
    Bool.not_eq_false'] at h
  exact h.2

/-- What a validated response says of its usage and its provider request ID. -/
theorem NormalizedResponse.valid_of_validate {response : NormalizedResponse}
    (h : response.validate = .ok ()) :
    (∀ usage, response.usage = some usage → usage.validate = .ok ()) ∧
      (response.providerRequestID ≠ "" → identifierPattern response.providerRequestID) := by
  have hall := firstFailure_eq_ok.mp h
  simp only [NormalizedResponse.checks,List.forall_mem_append,List.forall_mem_cons] at hall
  obtain ⟨⟨-,husage⟩,hid,-⟩ := hall
  refine ⟨fun usage hsome => ?_,identifierPattern_of_validateOptional hid⟩
  rw [hsome] at husage
  exact firstFailure_eq_ok.mpr husage

theorem NormalizedResponse.not_valid_zero {usage : Option NormalizedUsage} :
    ({ usage := usage } : NormalizedResponse).validate ≠ .ok () := by
  intro h
  have hall := firstFailure_eq_ok.mp h
  simp only [NormalizedResponse.checks,List.forall_mem_append,List.forall_mem_cons] at hall
  have hempty := hall.1.1.1.1
  simp [validateIdentifier] at hempty

/-! Provider errors. -/

inductive ErrorCategory where
  | auth
  | permission
  | invalidRequest
  | rateLimit
  | capacity
  | timeout
  | provider5xx
  | contentPolicy
  | contextLength
  | protocol
  | cancelled
  | unknown
  | other (text : String)
  deriving DecidableEq

def ErrorCategory.text : ErrorCategory → String
  | .auth => "auth"
  | .permission => "permission"
  | .invalidRequest => "invalid_request"
  | .rateLimit => "rate_limit"
  | .capacity => "capacity"
  | .timeout => "timeout"
  | .provider5xx => "provider_5xx"
  | .contentPolicy => "content_policy"
  | .contextLength => "context_length"
  | .protocol => "protocol"
  | .cancelled => "cancelled"
  | .unknown => "unknown"
  | .other text => text

def ErrorCategory.valid : ErrorCategory → Bool
  | .other _ => false
  | _ => true

structure NormalizedError where
  code : String
  category : ErrorCategory
  retryable : Bool
  retryAfter : Option ℤ
  providerStatus : ℤ
  (safeMessage providerRequestID : String)
  deriving DecidableEq

/-- Twenty-four hours in nanoseconds. -/
def maximumRetryAfter : ℤ := 24 * 3600 * 1000000000

namespace NormalizedError
variable (e : NormalizedError)

def checks : List (Bool × ValidationError) :=
  [(!errorCodePattern e.code,⟨"error.code","must be an uppercase canonical code"⟩),
    (!e.category.valid,⟨"error.category","must be a supported normalized category"⟩),
    (e.category = .unknown && e.retryable,
      ⟨"error.retryable","must be false when category is unknown"⟩),
    (e.retryAfter.isSome && !e.retryable,⟨"error.retry_after","requires retryable=true"⟩),
    ((e.retryAfter.map fun d => d ≤ 0 || maximumRetryAfter < d).getD false,
      ⟨"error.retry_after","must be greater than zero and at most 24 hours"⟩),
    (e.providerStatus ≠ 0 &&
        (e.providerStatus < 100 || 599 < e.providerStatus),
      ⟨"error.provider_status","must be zero or a valid HTTP status"⟩),
    (e.safeMessage = "" || !isTrimmed e.safeMessage ||
        512 < e.safeMessage.utf8ByteSize || containsControl e.safeMessage,
      ⟨"error.safe_message","must be 1-512 trimmed printable UTF-8 bytes"⟩),
    validateOptionalIdentifier "error.provider_request_id" e.providerRequestID 256]

def validate : Except ValidationError Unit := firstFailure e.checks

/-- What a validated error says, as far as later stages rely on it. -/
structure Valid : Prop where
  code : errorCodePattern e.code
  category : e.category.valid
  providerRequestID : e.providerRequestID ≠ "" → identifierPattern e.providerRequestID

variable {e}

theorem valid_of_validate (h : e.validate = .ok ()) : e.Valid := by
  have hall := firstFailure_eq_ok.mp h
  simp only [checks,List.forall_mem_cons] at hall
  obtain ⟨hcode,hcat,-,-,-,-,-,hid,-⟩ := hall
  exact ⟨by simpa using hcode,by simpa using hcat,identifierPattern_of_validateOptional hid⟩

end NormalizedError
end Adapter
