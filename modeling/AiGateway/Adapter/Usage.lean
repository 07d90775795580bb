import AiGateway.Machine.Control
import AiGateway.Text.Word

/-! Normalized usage and its validation (`internal/adapter/model.go`, `validate.go`). -/
namespace Adapter
open Text Machine

structure ValidationError where
  (field reason : String)
  deriving DecidableEq

def ValidationError.text (e : ValidationError) : String := e.field ++ ": " ++ e.reason

/-- One of `[A-Za-z0-9]`, then at most 255 of these or of `.`, `_`, `:`, `/` and `-`. -/
def identifierPattern (s : String) : Bool :=
  isWord isAlnum (fun c => isAlnum c || ['.','_',':','/','-'].contains c) 0 255 s

/-- `^[a-z][a-z0-9._:-]{0,127}$` -/
def labelPattern (s : String) : Bool :=
  isWord isLower (fun c => isLower c || isDigit c || ['.','_',':','-'].contains c) 0 127 s

/-- `^[A-Z][A-Z0-9_]{0,127}$` -/
def errorCodePattern (s : String) : Bool :=
  isWord isUpper (fun c => isUpper c || isDigit c || c == '_') 0 127 s

/-- `validateIdentifier`; the pattern leaves no room for blanks or for bytes that are not text. -/
def validateIdentifier (field value : String) (maxBytes : ℕ) : Bool × ValidationError :=
  (value = "" || maxBytes < value.utf8ByteSize || !identifierPattern value,
    ⟨field,"must be a canonical identifier within " ++ toString maxBytes ++ " bytes"⟩)

def validateOptionalIdentifier (field value : String) (maxBytes : ℕ) : Bool × ValidationError :=
  let (failed,e) := validateIdentifier field value maxBytes
  (value ≠ "" && failed,e)

structure TokenCount where
  value : ℤ
  present : Bool
  deriving DecidableEq

inductive UsageSource where
  | provider
  | estimated
  | reconciled
  | adjustment
  | other (text : String)
  deriving DecidableEq

def UsageSource.valid : UsageSource → Bool
  | .other _ => false
  | _ => true

structure UsageEstimateMetadata where
  estimated : Bool
  (tokenizer tokenizerVersion physicalModel : String)
  deploymentVersion : ℤ
  providerProtocolVersion : String
  deriving DecidableEq

/-- `UsageEvidence`; its digest is a function of the bytes. -/
structure UsageEvidence where
  raw : List UInt8
  deriving DecidableEq

def UsageEvidence.present (evidence : UsageEvidence) : Bool := !evidence.raw.isEmpty

structure NormalizedUsage where
  (inputTokens outputTokens cacheReadTokens cacheWriteTokens reasoningTokens : TokenCount)
  (audioInputTokens audioOutputTokens : TokenCount)
  source : UsageSource
  complete : Bool
  estimate : Option UsageEstimateMetadata
  rawEvidence : UsageEvidence
  unmappedFields : List String
  deriving DecidableEq

def UsageEstimateMetadata.checks (metadata : UsageEstimateMetadata) :
    List (Bool × ValidationError) :=
  [(!metadata.estimated,⟨"usage.estimate.estimated","must be true"⟩),
    (!labelPattern metadata.tokenizer,
      ⟨"usage.estimate.tokenizer","must be a canonical tokenizer identifier"⟩),
    (!labelPattern metadata.tokenizerVersion,
      ⟨"usage.estimate.tokenizer_version","must be a canonical version identifier"⟩),
    validateIdentifier "usage.estimate.physical_model" metadata.physicalModel 200,
    (decide (metadata.deploymentVersion < 1),
      ⟨"usage.estimate.deployment_version","must be positive"⟩),
    validateIdentifier "usage.estimate.provider_protocol_version"
      metadata.providerProtocolVersion 64]

def UsageEstimateMetadata.validate (metadata : UsageEstimateMetadata) :
    Except ValidationError Unit := firstFailure metadata.checks

namespace NormalizedUsage
variable (usage : NormalizedUsage)

/-- The counted dimensions with their field names, in the order they are checked. -/
def counts : List (String × TokenCount) :=
  [("usage.input_tokens",usage.inputTokens),("usage.output_tokens",usage.outputTokens),
    ("usage.cache_read_tokens",usage.cacheReadTokens),
    ("usage.cache_write_tokens",usage.cacheWriteTokens),
    ("usage.reasoning_tokens",usage.reasoningTokens),
    ("usage.audio_input_tokens",usage.audioInputTokens),
    ("usage.audio_output_tokens",usage.audioOutputTokens)]

def countChecks (count : String × TokenCount) : List (Bool × ValidationError) :=
  [(!count.2.present && count.2.value ≠ 0,⟨count.1,"missing token count must have a zero value"⟩),
    (count.2.present && count.2.value < 0 && usage.source ≠ .adjustment,
      ⟨count.1,"must not be negative outside an adjustment"⟩)]

/-- The checks of the unmapped fields from `index` on, after the field `previous`. -/
def unmappedChecks (index : ℕ) (previous : Option String) :
    List String → List (Bool × ValidationError)
  | [] => []
  | field :: fields =>
      (!isTrimmed field || field.toList.head? ≠ some '/' ||
          256 < field.utf8ByteSize || containsControl field,
        ⟨"usage.unmapped_fields[" ++ toString index ++ "]",
          "must be a trimmed JSON pointer within 256 bytes"⟩) ::
      ((previous.map fun p => decide (field ≤ p)).getD false,
        ⟨"usage.unmapped_fields","must be sorted and unique"⟩) ::
      unmappedChecks (index + 1) (some field) fields

def estimateChecks : List (Bool × ValidationError) :=
  if usage.source = .estimated then
    match usage.estimate with
    | none => [(true,⟨"usage.estimate","must identify the local tokenizer and model"⟩)]
    | some metadata => metadata.checks
  else [(usage.estimate.isSome,⟨"usage.estimate","must be absent outside estimated usage"⟩)]

def checks : List (Bool × ValidationError) :=
  [(!usage.source.valid,
    ⟨"usage.source","must be provider, estimated, reconciled, or adjustment"⟩)] ++
  usage.counts.flatMap usage.countChecks ++
  [((usage.source = .provider || usage.source = .reconciled) &&
      !usage.rawEvidence.present,
      ⟨"usage.raw_evidence","must be present for provider or reconciled usage"⟩),
    (decide (256 < usage.unmappedFields.length),
      ⟨"usage.unmapped_fields","must contain at most 256 entries"⟩),
    (0 < usage.unmappedFields.length && !usage.rawEvidence.present,
      ⟨"usage.raw_evidence","must be present when unmapped fields exist"⟩)] ++
  unmappedChecks 0 none usage.unmappedFields ++ usage.estimateChecks

def validate : Except ValidationError Unit := firstFailure usage.checks

/-- What validated usage says, as far as later stages rely on it. -/
structure Valid : Prop where
  source : usage.source.valid
  nonneg : usage.source ≠ .adjustment → ∀ count ∈ usage.counts, 0 ≤ count.2.value
  estimated : usage.source = .estimated →
    ∃ metadata, usage.estimate = some metadata ∧ metadata.validate = .ok ()
  unestimated : usage.source ≠ .estimated → usage.estimate = none

variable {usage}

theorem valid_of_validate (h : usage.validate = .ok ()) : usage.Valid := by
  have hall := firstFailure_eq_ok.mp h
  simp only [checks,List.forall_mem_append,List.forall_mem_singleton,List.forall_mem_flatMap]
    at hall
  obtain ⟨⟨⟨⟨hsrc,hcounts⟩,-⟩,-⟩,hest⟩ := hall
  refine ⟨by simpa using hsrc,?_,?_,?_⟩
  · intro hadj count hcount
    have hcount := hcounts count hcount
    simp only [countChecks,List.forall_mem_cons,List.not_mem_nil,Bool.and_eq_false_iff,
      Bool.not_eq_false',decide_eq_false_iff_not,not_not,not_lt] at hcount
    obtain ⟨hmissing | hzero,(hpresent | hnn) | hsrc,-⟩ := hcount
    · rw [hmissing] at hpresent
      cases hpresent
    · exact hnn
    · exact absurd hsrc hadj
    · exact hzero.ge
    · exact hzero.ge
    · exact hzero.ge
  · intro hestimated
    unfold estimateChecks at hest
    rw [if_pos hestimated] at hest
    cases hmetadata : usage.estimate with
    | none => simp [hmetadata] at hest
    | some metadata =>
      rw [hmetadata] at hest
      exact ⟨metadata,rfl,firstFailure_eq_ok.mpr hest⟩
  · intro hother
    unfold estimateChecks at hest
    rw [if_neg hother] at hest
    simpa using hest

end NormalizedUsage
end Adapter
