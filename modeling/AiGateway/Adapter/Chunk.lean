import AiGateway.Adapter.Response

/-! Normalized stream events and their validation (`internal/adapter/model.go`, `validate.go`). -/
namespace Adapter
open Machine

inductive ChunkKind where
  | messageStart
  | contentDelta
  | reasoningDelta
  | toolDelta
  | usageDelta
  | messageEnd
  | heartbeat
  | providerExtension
  | other (text : String)
  deriving DecidableEq

inductive UsageStatus where
  | present
  | partial_
  | missing
  | other (text : String)
  deriving DecidableEq

structure ToolCallDelta where
  index : ℤ
  (id name argumentsFragment : String)
  deriving DecidableEq

/-- The text of an absent role, finish reason or usage status is empty. -/
structure NormalizedChunk where
  sequence : ℕ := 0
  kind : ChunkKind
  choiceIndex : ℤ := 0
  role : MessageRole := .other ""
  contentDelta : String := ""
  reasoningDelta : String := ""
  toolDelta : Option ToolCallDelta := none
  finishReason : FinishReason := .other ""
  providerFinishReason : String := ""
  usage : Option NormalizedUsage := none
  usageStatus : UsageStatus := .other ""
  providerEventType : String := ""
  providerExtension : RawMessage := ⟨"",.malformed⟩
  observedAt : Time := zeroTime
  deriving DecidableEq

def maxProviderExtensionBytes : ℕ := 16 * 1024

def MessageRole.valid : MessageRole → Bool
  | .other _ => false
  | _ => true

def validateToolDelta : Option ToolCallDelta → List (Bool × ValidationError)
  | none => [(true,⟨"tool_delta","must be present for tool_delta"⟩)]
  | some delta =>
      [(decide (delta.index < 0),⟨"tool_delta.index","must not be negative"⟩),
        (delta.id = "" && delta.name = "" &&
          delta.argumentsFragment = "",
          ⟨"tool_delta","must contain an id, name, or arguments fragment"⟩),
        validateOptionalIdentifier "tool_delta.id" delta.id 256,
        (delta.name ≠ "" && !toolNamePattern delta.name,
          ⟨"tool_delta.name","must be a canonical tool name"⟩),
        (decide (maxSchemaBytes < delta.argumentsFragment.utf8ByteSize),
          ⟨"tool_delta.arguments_fragment","must be valid UTF-8 within the size limit"⟩)]

def validateTerminalUsage (status : UsageStatus) (usage : Option NormalizedUsage) :
    List (Bool × ValidationError) :=
  (match status with
    | .present => [(!(usage.map (·.complete)).getD false,
        ⟨"usage","present terminal usage must be complete"⟩)]
    | .partial_ => [((usage.map (·.complete)).getD true,
        ⟨"usage","partial terminal usage must be incomplete"⟩)]
    | .missing => [(usage.isSome,⟨"usage","must be nil when terminal usage is missing"⟩)]
    | .other _ => [(true,
        ⟨"usage_status","must be present, partial, or missing for message_end"⟩)]) ++
  (usage.map (·.checks)).getD []

/-- The payloads a chunk kind may own, in the order of the source's bits. -/
inductive ChunkPayload where
  | role
  | content
  | reasoning
  | tool
  | finish
  | usage
  | extension
  deriving DecidableEq

namespace NormalizedChunk
variable (chunk : NormalizedChunk)

def payloads : List ChunkPayload :=
  (if chunk.role ≠ .other "" then [.role] else []) ++
  (if chunk.contentDelta ≠ "" then [.content] else []) ++
  (if chunk.reasoningDelta ≠ "" then [.reasoning] else []) ++
  (if chunk.toolDelta.isSome then [.tool] else []) ++
  (if chunk.finishReason ≠ .other "" ∨ chunk.providerFinishReason ≠ "" then [.finish] else []) ++
  (if chunk.usage.isSome ∨ chunk.usageStatus ≠ .other "" then [.usage] else []) ++
  (if chunk.providerExtension.text ≠ "" then [.extension] else [])

def validateChunkEmptyPayload (kind : String) (allowed : List ChunkPayload) :
    List (Bool × ValidationError) :=
  [(chunk.payloads.any fun p => !allowed.contains p,
    ⟨"chunk",kind ++ " contains a payload owned by another chunk kind"⟩)]

/-- The payload of the kind. -/
def kindChecks : List (Bool × ValidationError) :=
  match chunk.kind with
  | .messageStart =>
      (!chunk.role.valid,⟨"role","must be a supported role for message_start"⟩) ::
        chunk.validateChunkEmptyPayload "message_start" [.role]
  | .contentDelta =>
      (chunk.contentDelta = "" || maxTextBytes < chunk.contentDelta.utf8ByteSize,
        ⟨"content_delta","must be non-empty valid UTF-8 within the size limit"⟩) ::
        chunk.validateChunkEmptyPayload "content_delta" [.content]
  | .reasoningDelta =>
      (chunk.reasoningDelta = "" ||
          maxTextBytes < chunk.reasoningDelta.utf8ByteSize,
        ⟨"reasoning_delta","must be non-empty valid UTF-8 within the size limit"⟩) ::
        chunk.validateChunkEmptyPayload "reasoning_delta" [.reasoning]
  | .toolDelta =>
      validateToolDelta chunk.toolDelta ++ chunk.validateChunkEmptyPayload "tool_delta" [.tool]
  | .usageDelta =>
      [(chunk.usage.isNone,⟨"usage","must be present for usage_delta"⟩),
        ((chunk.usage.map (·.complete)).getD false,
          ⟨"usage.complete","must be false for usage_delta"⟩),
        (decide (chunk.usageStatus ≠ .partial_),
          ⟨"usage_status","must be partial for usage_delta"⟩)] ++
        (chunk.usage.map (·.checks)).getD [] ++
        chunk.validateChunkEmptyPayload "usage_delta" [.usage]
  | .messageEnd =>
      validateFinishReason "message_end" chunk.finishReason chunk.providerFinishReason ::
        validateTerminalUsage chunk.usageStatus chunk.usage ++
        chunk.validateChunkEmptyPayload "message_end" [.finish,.usage]
  | .heartbeat => chunk.validateChunkEmptyPayload "heartbeat" []
  | .providerExtension =>
      [(decide (chunk.providerEventType = ""),
          ⟨"provider_event_type","must be present for provider_extension"⟩),
        (decide (chunk.providerExtension.text = ""),
          ⟨"provider_extension","must be present for provider_extension"⟩)] ++
        chunk.validateChunkEmptyPayload "provider_extension" [.extension]
  | .other _ => [(true,⟨"kind","must be a supported normalized chunk kind"⟩)]

def checks : List (Bool × ValidationError) :=
  [(decide (chunk.choiceIndex < 0),⟨"choice_index","must not be negative"⟩),
    (decide (chunk.observedAt = zeroTime),⟨"observed_at","must be present"⟩),
    validateOptionalIdentifier "provider_event_type" chunk.providerEventType 256] ++
  (if chunk.providerExtension.text ≠ "" then
    validateJSONObject "provider_extension" chunk.providerExtension maxProviderExtensionBytes
    else []) ++
  chunk.kindChecks

def validate : Except ValidationError Unit := firstFailure chunk.checks

end NormalizedChunk
end Adapter
