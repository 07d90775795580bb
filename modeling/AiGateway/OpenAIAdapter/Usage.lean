import AiGateway.Gateway.Outcome
import Mathlib.Data.List.Sort

/-! The usage of a provider response (`internal/openaiadapter/response.go`) and its
public totals. -/
namespace OpenAIAdapter
open Adapter Machine

/-- A decoded value; the fields of an object stand in the order in which Go ranges over the map. -/
inductive JSON where
  | null
  | integer (n : ℤ)
  | object (fields : List (String × JSON))
  | other

/-- `map[string]json.RawMessage`, decoded. -/
abbrev Fields := List (String × JSON)

/-- `json.RawMessage`, with its value where `decodeOneJSON` finds exactly one. -/
structure RawUsage where
  bytes : List UInt8
  value : Option JSON

structure ProtocolError where
  (operation code : String)

def usageError {α : Type} (code : String) : Except ProtocolError α := .error ⟨"parse_usage",code⟩

/-- Other numbers, and integers beyond 64 bits, do not unmarshal into an `int64`. -/
def parseTokenCount (fields : Fields) (name : String) : Except ProtocolError TokenCount :=
  match fields.lookup name with
  | none | some .null => .ok ⟨0,false⟩
  | some (.integer n) =>
      if 0 ≤ n ∧ n < 2 ^ 63 then .ok ⟨n,true⟩ else usageError ("invalid_" ++ name)
  | some _ => usageError ("invalid_" ++ name)

def escapeJSONPointer (value : String) : String :=
  String.ofList (value.toList.flatMap fun c =>
    if c = '~' then ['~','0'] else if c = '/' then ['~','1'] else [c])

def unknownPointers (fields : Fields) (known : List String) : List String :=
  (fields.filter fun field => !known.contains field.1).map fun field =>
    "/" ++ escapeJSONPointer field.1

def parseDetailCounts (raw : Option JSON) (path : String) (mappings : List (String × String)) :
    Except ProtocolError (List (String × TokenCount) × List String) :=
  match raw with
  | none | some .null => .ok ([],[])
  | some (.object fields) => do
      let known := fields.filterMap fun field => (mappings.lookup field.1).map (field.1,·)
      let counts ← known.mapM fun (name,target) => (parseTokenCount fields name).map (target,·)
      return (counts,(unknownPointers fields (mappings.map (·.1))).map (path ++ ·))
  | some _ => usageError "invalid_usage_details"

def detail (counts : List (String × TokenCount)) (target : String) : TokenCount :=
  (counts.lookup target).getD ⟨0,false⟩

def maxUsageEvidenceBytes : ℕ := 64 * 1024

def newUsageEvidence (raw : RawUsage) : Except ProtocolError UsageEvidence :=
  match raw.value with
  | some (.object _) =>
      if raw.bytes ≠ [] ∧ raw.bytes.length ≤ maxUsageEvidenceBytes then .ok ⟨raw.bytes⟩
      else usageError "invalid_usage_evidence"
  | _ => usageError "invalid_usage_evidence"

/-- `int64` addition. -/
def add (a b : ℤ) : ℤ := (a + b).bmod (2 ^ 64)

def parseUsage (raw : RawUsage) (complete : Bool) : Except ProtocolError NormalizedUsage :=
  match raw.value with
  | some (.object fields) => do
      let input ← parseTokenCount fields "prompt_tokens"
      let output ← parseTokenCount fields "completion_tokens"
      let total ← parseTokenCount fields "total_tokens"
      if total.present ∧ input.present ∧ output.present ∧
          total.value ≠ add input.value output.value then usageError "inconsistent_total_tokens"
      else do
        let (prompt,promptUnknown) ← parseDetailCounts (fields.lookup "prompt_tokens_details")
          "/prompt_tokens_details" [("cached_tokens","cache_read"),
            ("cache_write_tokens","cache_write"),("audio_tokens","audio_input")]
        let (completion,completionUnknown) ← parseDetailCounts
          (fields.lookup "completion_tokens_details") "/completion_tokens_details"
          [("reasoning_tokens","reasoning"),("audio_tokens","audio_output")]
        let unmapped := unknownPointers fields ["prompt_tokens","completion_tokens",
          "total_tokens","prompt_tokens_details","completion_tokens_details"] ++
          promptUnknown ++ completionUnknown
        let evidence ← newUsageEvidence raw
        let usage : NormalizedUsage :=
          { inputTokens := input, outputTokens := output
            cacheReadTokens := detail prompt "cache_read"
            cacheWriteTokens := detail prompt "cache_write"
            reasoningTokens := detail completion "reasoning"
            audioInputTokens := detail prompt "audio_input"
            audioOutputTokens := detail completion "audio_output"
            source := .provider, complete := complete, estimate := none
            rawEvidence := evidence, unmappedFields := unmapped.insertionSort (· ≤ ·) }
        if passes usage.validate then .ok usage else usageError "invalid_normalized_usage"
  | _ => usageError "invalid_usage"

variable {fields : Fields} {raw : RawUsage} {complete : Bool} {usage : NormalizedUsage}
variable {name : String} {count : TokenCount}

theorem parseTokenCount_range (h : parseTokenCount fields name = .ok count) :
    0 ≤ count.value ∧ count.value < 2 ^ 63 := by
  unfold parseTokenCount usageError at h
  split at h
  · cases h
    decide
  · cases h
    decide
  · rw [ite_eq_ok] at h
    exact h.2 ▸ h.1
  · cases h

theorem parseTokenCount_integer {n : ℤ} (hn : fields.lookup name = some (.integer n))
    (h : parseTokenCount fields name = .ok count) : count = ⟨n,true⟩ := by
  unfold parseTokenCount usageError at h
  rw [hn] at h
  exact (ite_eq_ok.mp h).2

/-- What accepted usage says about its counts. -/
theorem parseUsage_eq_ok (h : parseUsage raw complete = .ok usage) :
    ∃ fields total, raw.value = some (.object fields) ∧
      parseTokenCount fields "prompt_tokens" = .ok usage.inputTokens ∧
      parseTokenCount fields "completion_tokens" = .ok usage.outputTokens ∧
      parseTokenCount fields "total_tokens" = .ok total ∧
      (total.present → usage.inputTokens.present → usage.outputTokens.present →
        total.value = add usage.inputTokens.value usage.outputTokens.value) := by
  unfold parseUsage at h
  split at h
  · next fields hfields =>
    simp only [bind_eq_ok] at h
    obtain ⟨input,hinput,output,hout,total,htotal,h⟩ := h
    split_ifs at h with hsum
    · cases h
    · simp only [bind_eq_ok] at h
      obtain ⟨⟨prompt,promptUnknown⟩,-,⟨completion,completionUnknown⟩,-,evidence,-,h⟩ := h
      have husage := (ite_eq_ok.mp h).2
      subst husage
      refine ⟨fields,total,hfields,hinput,hout,htotal,?_⟩
      intro hp hi ho
      by_contra hne
      exact hsum ⟨hp,hi,ho,hne⟩
  · cases h

/-- The sum of two counts, or a negative number where it wraps. -/
theorem add_eq {a b : ℤ} (ha : 0 ≤ a ∧ a < 2 ^ 63) (hb : 0 ≤ b ∧ b < 2 ^ 63) :
    add a b = if a + b < 2 ^ 63 then a + b else a + b - 2 ^ 64 := by
  unfold add
  rw [Int.bmod_def]
  split_ifs with hsum <;> omega

/-- The consistency check is exact, since a wrapped sum is negative and equals no total; the public
total is exact only while the sum does not wrap. -/
theorem projectChatUsage_exact_iff (h : parseUsage raw complete = .ok usage) :
    (∀ fields prompt completion total, raw.value = some (.object fields) →
      fields.lookup "prompt_tokens" = some (.integer prompt) →
      fields.lookup "completion_tokens" = some (.integer completion) →
      fields.lookup "total_tokens" = some (.integer total) → prompt + completion = total) ∧
    ∀ projected, (Gateway.projectChatUsage (some usage)).1 = some projected →
      0 ≤ projected.promptTokens ∧ 0 ≤ projected.completionTokens ∧
      (0 ≤ projected.totalTokens ∧
          projected.totalTokens = projected.promptTokens + projected.completionTokens ↔
        usage.inputTokens.value + usage.outputTokens.value < 2 ^ 63) := by
  obtain ⟨fields,total,hfields,hinput,hout,htotal,hsum⟩ := parseUsage_eq_ok h
  have hi := parseTokenCount_range hinput
  have ho := parseTokenCount_range hout
  have hadd := add_eq hi ho
  refine ⟨?_,?_⟩
  · intro fields' p c t hfields' hp hc ht
    cases hfields.symm.trans hfields'
    have hnn := (parseTokenCount_range htotal).1
    rw [parseTokenCount_integer hp hinput] at hsum hadd hi
    rw [parseTokenCount_integer hc hout] at hsum hadd ho
    rw [parseTokenCount_integer ht htotal] at hsum hnn
    have hexact := hsum rfl rfl rfl
    dsimp only at hexact hadd hi ho hnn
    split_ifs at hadd <;> omega
  · intro projected hproj
    simp only [Gateway.projectChatUsage] at hproj
    split at hproj
    · cases hproj
    · cases hproj
      refine ⟨hi.1,ho.1,?_⟩
      change 0 ≤ add _ _ ∧ add _ _ = usage.inputTokens.value + usage.outputTokens.value ↔ _
      rw [hadd]
      split_ifs <;> omega

/-- A response that counts the largest prompt and no total. -/
def largestPrompt (completion : ℕ) : RawUsage where
  bytes := ("\x7b\"prompt_tokens\":9223372036854775807,\"completion_tokens\":" ++
    toString completion ++ "\x7d").toUTF8.data.toList
  value := some (.object
    [("prompt_tokens",.integer (2 ^ 63 - 1)),("completion_tokens",.integer completion)])

theorem largestPrompt_exact : ∃ usage projected, parseUsage (largestPrompt 0) true = .ok usage ∧
      (Gateway.projectChatUsage (some usage)).1 = some projected ∧ 0 ≤ projected.totalTokens ∧
      projected.totalTokens = projected.promptTokens + projected.completionTokens := by
  refine ⟨_,_,rfl,rfl,?_⟩
  exact ((@projectChatUsage_exact_iff (largestPrompt 0) true _ rfl).2 _ rfl).2.2.mpr (by decide)

theorem largestPrompt_wraps : ∃ usage projected, parseUsage (largestPrompt 1) true = .ok usage ∧
      (Gateway.projectChatUsage (some usage)).1 = some projected ∧
      projected.promptTokens = 2 ^ 63 - 1 ∧ projected.completionTokens = 1 ∧
      projected.totalTokens = -2 ^ 63 := by
  refine ⟨_,_,rfl,rfl,rfl,rfl,?_⟩
  decide

end OpenAIAdapter
