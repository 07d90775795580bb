import AiGateway.Catalog.Capabilities

/-! The capability contract as the database checks it (`migrations/000004`), beside the domain's. A
condition that is NULL is not met, so a check of a key that is missing may not fire. -/
namespace Catalog
open Machine Text List

/-- A document as `jsonb` keeps it: numbers with their coefficient and decimal places, and objects
with one member for each key. -/
inductive Json where
  | null
  | bool (b : Bool)
  | number (coefficient : ℤ) (places : ℕ)
  | string (s : String)
  | array (elements : List Json)
  | object (members : List (String × Json))

namespace Json

def members : Json → Option (List (String × Json))
  | .object members => some members
  | _ => none

/-- `doc -> name` -/
def get (doc : Json) (name : String) : Option Json :=
  doc.members.bind fun members => (members.find? fun m => m.1 = name).map Prod.snd

/-- `doc ? name` -/
def has (doc : Json) (name : String) : Bool := (doc.get name).isSome

/-- A number whose text matches `^[1-9][0-9]{0,17}$`. -/
def tokens : Json → Option ℤ
  | .number n 0 => if 1 ≤ n ∧ n < 10 ^ 18 then some n else none
  | _ => none

def text : Json → Option String
  | .string s => some s
  | _ => none

def texts : Json → Option (List String)
  | .array elements => elements.mapM text
  | _ => none

/-- `COALESCE((doc ->> name)::boolean, false)` where the member is a boolean or missing. -/
def isOn (doc : Json) (name : String) : Bool :=
  match doc.get name with
  | some (.bool b) => b
  | _ => false

end Json

open Json

def booleanNames : List String :=
  ["chat","stream","tools","parallel_tools","structured_output","vision","audio_input",
    "audio_output","embeddings"]

def reportNames : List String := ["usage_in_stream","cache_usage","reasoning_usage"]

def validCatalogRequirements (doc : Json) : Bool :=
  match doc.members with
  | none => false
  | some members =>
      !members.isEmpty &&
      members.all (fun m => (booleanNames ++
        ["min_context_tokens","min_output_tokens","data_retention_modes"]).contains m.1) &&
      booleanNames.all (fun name => !doc.has name || doc.isOn name) &&
      ["min_context_tokens","min_output_tokens"].all (fun name =>
        (doc.get name).all fun value => value.tokens.isSome) &&
      !((doc.get "min_context_tokens").any fun context =>
        (doc.get "min_output_tokens").any fun output =>
        context.tokens.getD 0 < output.tokens.getD 0) &&
      (doc.get "data_retention_modes").all fun value =>
        value.texts.any fun modes => 1 ≤ modes.length && modes.length ≤ 4 &&
          modes.all retentionModes.contains && modes.Nodup

def validCatalogCapabilities (doc : Json) : Bool :=
  match doc.members with
  | none => false
  | some members =>
      members.all (fun m => (booleanNames ++ reportNames ++
        ["max_context_tokens","max_output_tokens",
        "data_retention_mode","provider_protocol_version"]).contains m.1) &&
      (booleanNames ++ reportNames).all (fun name => (doc.get name).all fun value =>
        match value with
        | .bool _ => true
        | _ => false) &&
      (doc.isOn "chat" || doc.isOn "embeddings") &&
      ["max_context_tokens","max_output_tokens"].all (fun name =>
        (doc.get name).any fun value => value.tokens.isSome) &&
      !(((doc.get "max_context_tokens").bind tokens).getD 0 <
        ((doc.get "max_output_tokens").bind tokens).getD 0) &&
      -- For a missing key `jsonb_typeof` and the comparison are NULL, and so is the condition.
      (doc.get "data_retention_mode").all (fun value => value.text.any retentionModes.contains) &&
      (doc.get "provider_protocol_version").all fun value => value.text.any protocolPattern

def catalogDeploymentSatisfies (requirements : Json) (allowedRegions : Option (List String))
    (capabilities : Json) (region : String) : Bool :=
  regionAllowed allowedRegions region &&
  booleanNames.all (fun name => !requirements.has name || capabilities.isOn name) &&
  !((requirements.get "min_context_tokens").any fun value =>
    ((capabilities.get "max_context_tokens").bind tokens).any (· < value.tokens.getD 0)) &&
  !((requirements.get "min_output_tokens").any fun value =>
    ((capabilities.get "max_output_tokens").bind tokens).any (· < value.tokens.getD 0)) &&
  -- `? NULL` is NULL where the deployment names no mode.
  (requirements.get "data_retention_modes").all fun value =>
    ((capabilities.get "data_retention_mode").bind text).all fun mode =>
      (value.texts.getD []).contains mode

/-! Decoding into the domain's types: a missing member or `null` is the zero value. -/

def Json.decode {α : Type} (zero : α) (f : Json → Option α) (doc : Json) (name : String) :
    Option α :=
  match doc.get name with
  | none | some .null => some zero
  | some value => f value

def Json.flag : Json → Option Bool
  | .bool b => some b
  | _ => none

def Json.int64 : Json → Option ℤ
  | .number n 0 => if -(2 ^ 63) ≤ n ∧ n < 2 ^ 63 then some n else none
  | _ => none

/-- Strings, and `null` for the empty one. -/
def Json.strings : Json → Option (List String)
  | .array elements => elements.mapM fun value =>
      match value with
      | .string s => some s
      | .null => some ""
      | _ => none
  | _ => none

def decodeRequirements (doc : Json) : Option CapabilityRequirements := do
  some {
    chat := ← doc.decode false flag "chat"
    stream := ← doc.decode false flag "stream"
    tools := ← doc.decode false flag "tools"
    parallelTools := ← doc.decode false flag "parallel_tools"
    structuredOutput := ← doc.decode false flag "structured_output"
    vision := ← doc.decode false flag "vision"
    audioInput := ← doc.decode false flag "audio_input"
    audioOutput := ← doc.decode false flag "audio_output"
    embeddings := ← doc.decode false flag "embeddings"
    minContextTokens := ← doc.decode none (fun v => v.int64.map some) "min_context_tokens"
    minOutputTokens := ← doc.decode none (fun v => v.int64.map some) "min_output_tokens"
    dataRetentionModes := ← doc.decode [] strings "data_retention_modes" }

def decodeCapabilities (doc : Json) : Option CapabilitySet := do
  some {
    chat := ← doc.decode false flag "chat"
    stream := ← doc.decode false flag "stream"
    tools := ← doc.decode false flag "tools"
    parallelTools := ← doc.decode false flag "parallel_tools"
    structuredOutput := ← doc.decode false flag "structured_output"
    vision := ← doc.decode false flag "vision"
    audioInput := ← doc.decode false flag "audio_input"
    audioOutput := ← doc.decode false flag "audio_output"
    embeddings := ← doc.decode false flag "embeddings"
    usageInStream := ← doc.decode false flag "usage_in_stream"
    cacheUsage := ← doc.decode false flag "cache_usage"
    reasoningUsage := ← doc.decode false flag "reasoning_usage"
    maxContextTokens := ← doc.decode 0 int64 "max_context_tokens"
    maxOutputTokens := ← doc.decode 0 int64 "max_output_tokens"
    dataRetentionMode := ← doc.decode "" text "data_retention_mode"
    providerProtocolVersion := ← doc.decode "" text "provider_protocol_version" }

/-- The rules that the database does not check. -/
def dependenciesHold (r c : Json) : Bool :=
  (!r.has "parallel_tools" || r.has "tools") && (!c.isOn "parallel_tools" || c.isOn "tools") &&
    (!c.isOn "usage_in_stream" || c.isOn "stream") && c.has "data_retention_mode" &&
    c.has "provider_protocol_version"

/-- What an accepted document of requirements decodes to. -/
def requirementsOf (r : Json) : CapabilityRequirements where
  chat := r.has "chat"
  stream := r.has "stream"
  tools := r.has "tools"
  parallelTools := r.has "parallel_tools"
  structuredOutput := r.has "structured_output"
  vision := r.has "vision"
  audioInput := r.has "audio_input"
  audioOutput := r.has "audio_output"
  embeddings := r.has "embeddings"
  minContextTokens := (r.get "min_context_tokens").bind tokens
  minOutputTokens := (r.get "min_output_tokens").bind tokens
  dataRetentionModes := ((r.get "data_retention_modes").bind texts).getD []

/-- What an accepted document of capabilities decodes to. -/
def capabilitiesOf (c : Json) : CapabilitySet where
  chat := c.isOn "chat"
  stream := c.isOn "stream"
  tools := c.isOn "tools"
  parallelTools := c.isOn "parallel_tools"
  structuredOutput := c.isOn "structured_output"
  vision := c.isOn "vision"
  audioInput := c.isOn "audio_input"
  audioOutput := c.isOn "audio_output"
  embeddings := c.isOn "embeddings"
  usageInStream := c.isOn "usage_in_stream"
  cacheUsage := c.isOn "cache_usage"
  reasoningUsage := c.isOn "reasoning_usage"
  maxContextTokens := ((c.get "max_context_tokens").bind tokens).getD 0
  maxOutputTokens := ((c.get "max_output_tokens").bind tokens).getD 0
  dataRetentionMode := ((c.get "data_retention_mode").bind text).getD ""
  providerProtocolVersion := ((c.get "provider_protocol_version").bind text).getD ""

variable {doc r c : Json} {name : String} {value : Json}

theorem tokens_eq_some {n : ℤ} (h : value.tokens = some n) :
    value = .number n 0 ∧ 1 ≤ n ∧ n < 10 ^ 18 := by
  cases value with
  | number m places =>
    cases places with
    | zero =>
      simp only [tokens,Option.ite_none_right_eq_some,Option.some.injEq] at h
      exact ⟨by rw [h.2],h.2 ▸ h.1⟩
    | succ => cases h
  | _ => cases h

theorem text_eq_some {s : String} (h : value.text = some s) : value = .string s := by
  cases value with
  | string => simpa [text] using h
  | _ => cases h

theorem strings_of_texts {modes : List String} (h : value.texts = some modes) :
    value.strings = some modes := by
  cases value with
  | array elements =>
    simp only [texts,strings] at h ⊢
    induction elements generalizing modes with
    | nil => exact h
    | cons value elements ih =>
      simp only [mapM_cons,Option.bind_eq_bind,Option.bind_eq_some_iff] at h ⊢
      obtain ⟨s,hs,rest,hrest,hmodes⟩ := h
      exact ⟨s,by rw [text_eq_some hs],rest,ih hrest,hmodes⟩
  | _ => cases h

theorem decode_required (h : (!doc.has name || doc.isOn name)) :
    doc.decode false flag name = some (doc.has name) := by
  unfold decode
  cases hget : doc.get name with
  | none => simp [has,hget]
  | some value => cases value <;> simp_all [has,isOn,flag]

theorem decode_flag
    (h : (doc.get name).all (fun value => match value with | .bool _ => true | _ => false)) :
    doc.decode false flag name = some (doc.isOn name) := by
  unfold decode
  cases hget : doc.get name with
  | none => simp [isOn,hget]
  | some value => cases value <;> simp_all [isOn,flag]

theorem decode_tokens {α : Type} {zero : α} {f : ℤ → α}
    (h : (doc.get name).all (fun value => value.tokens.isSome)) :
    doc.decode zero (fun v => v.int64.map f) name =
      some (((doc.get name).bind tokens).elim zero f) := by
  unfold decode
  cases hget : doc.get name with
  | none => rfl
  | some value =>
    obtain ⟨n,hn⟩ := Option.isSome_iff_exists.mp (by simpa [hget] using h)
    obtain ⟨rfl,hlow,hhigh⟩ := tokens_eq_some hn
    have hint : (number n 0).int64 = some n := if_pos (by omega)
    simp [hint,hn]

theorem decode_text (h : ∃ p : String → Bool,
    (doc.get name).all (fun value => value.text.any p)) :
    doc.decode "" text name = some (((doc.get name).bind text).getD "") := by
  obtain ⟨p,h⟩ := h
  unfold decode
  cases hget : doc.get name with
  | none => rfl
  | some value => cases value <;> simp_all [text]

/-- What the database checks of requirements. -/
structure RequirementsChecked (r : Json) : Prop where
  nonempty : ∃ name ∈ booleanNames ++ ["min_context_tokens","min_output_tokens",
    "data_retention_modes"],
    r.has name
  flags : ∀ name ∈ booleanNames, (!r.has name || r.isOn name)
  context : (r.get "min_context_tokens").all (fun value => value.tokens.isSome)
  output : (r.get "min_output_tokens").all (fun value => value.tokens.isSome)
  ordered : ∀ context output, (r.get "min_context_tokens").bind tokens = some context →
    (r.get "min_output_tokens").bind tokens = some output → output ≤ context
  modes : ∀ value, r.get "data_retention_modes" = some value → ∃ modes, value.texts = some modes ∧
    1 ≤ modes.length ∧ modes.length ≤ 4 ∧ modes.all retentionModes.contains ∧ modes.Nodup

theorem requirementsChecked (h : validCatalogRequirements r) : RequirementsChecked r := by
  unfold validCatalogRequirements at h
  split at h
  · cases h
  next members hmembers =>
  simp only [Bool.and_eq_true,all_cons,all_nil,Bool.and_true,all_eq_true] at h
  obtain ⟨⟨⟨⟨⟨hsome,hnames⟩,hflags⟩,hctx,hout⟩,hordered⟩,hmodes⟩ := h
  constructor
  case nonempty =>
    obtain ⟨m,hm⟩ : ∃ m, m ∈ members := by
      cases members with
      | nil => cases hsome
      | cons m rest => exact ⟨m,mem_cons_self⟩
    refine ⟨m.1,by simpa using hnames m hm,?_⟩
    simpa [Json.has,Json.get,hmembers,find?_isSome] using ⟨m.2,hm⟩
  case flags => exact hflags
  case context => exact hctx
  case output => exact hout
  case ordered =>
    intro context output hc ho
    obtain ⟨cv,hcv,hc⟩ := Option.bind_eq_some_iff.mp hc
    obtain ⟨ov,hov,ho⟩ := Option.bind_eq_some_iff.mp ho
    simpa [hcv,hov,hc,ho] using hordered
  case modes =>
    intro value hvalue
    rw [hvalue,Option.all_some,Option.any_eq_true] at hmodes
    obtain ⟨modes,htexts,hmodes⟩ := hmodes
    simp only [Bool.and_eq_true,decide_eq_true_eq] at hmodes
    exact ⟨modes,htexts,hmodes.1.1.1,hmodes.1.1.2,hmodes.1.2,hmodes.2⟩

theorem decodeRequirements_eq (h : RequirementsChecked r) :
    decodeRequirements r = some (requirementsOf r) := by
  have hflag : ∀ name ∈ booleanNames, r.decode false flag name = some (r.has name) :=
    fun name hname => decode_required (h.flags name hname)
  have hmodes : r.decode [] strings "data_retention_modes" =
      some (((r.get "data_retention_modes").bind texts).getD []) := by
    unfold decode
    cases hget : r.get "data_retention_modes" with
    | none => rfl
    | some value =>
      obtain ⟨modes,htexts,-⟩ := h.modes value hget
      cases value <;> simp_all [strings_of_texts htexts,texts]
  have hsome : ∀ x : Option ℤ, x.elim none some = x := fun x => by cases x <;> rfl
  simp only [booleanNames,forall_mem_cons] at hflag
  simp [decodeRequirements,requirementsOf,hflag,hmodes,decode_tokens h.context,
    decode_tokens h.output,
    hsome]

theorem tokens_pos {doc : Json} {name : String} {n : ℤ} (h : (doc.get name).bind tokens = some n) :
    1 ≤ n := by
  obtain ⟨value,-,hvalue⟩ := Option.bind_eq_some_iff.mp h
  exact (tokens_eq_some hvalue).2.1

theorem RequirementsChecked.hasRequirement (h : RequirementsChecked r) :
    (requirementsOf r).hasRequirement := by
  obtain ⟨name,hname,hhas⟩ := h.nonempty
  have htoken : ∀ name, (r.get name).all (fun value => value.tokens.isSome) →
      r.has name → ((r.get name).bind tokens).isSome := by
    intro name hall hhas
    obtain ⟨value,hvalue⟩ := Option.isSome_iff_exists.mp hhas
    simpa [hvalue] using hall
  have hmodes : r.has "data_retention_modes" →
      ((r.get "data_retention_modes").bind texts).getD [] ≠ [] := by
    intro hhas
    obtain ⟨value,hvalue⟩ := Option.isSome_iff_exists.mp hhas
    obtain ⟨modes,htexts,hlen,-⟩ := h.modes value hvalue
    simpa [hvalue,htexts] using ne_nil_of_length_pos hlen
  simp only [booleanNames,cons_append,nil_append,mem_cons,not_mem_nil,or_false] at hname
  simp only [CapabilityRequirements.hasRequirement,requirementsOf,Bool.or_eq_true,Bool.not_eq_true',
    isEmpty_eq_false_iff]
  rcases hname with rfl | rfl | rfl | rfl | rfl | rfl | rfl | rfl | rfl | rfl | rfl | rfl
  iterate 9 simp [hhas]
  · simp [htoken _ h.context hhas]
  · simp [htoken _ h.output hhas]
  · exact .inr (hmodes hhas)

theorem requirements_valid_iff (h : RequirementsChecked r) :
    (requirementsOf r).validate = .ok () ↔ (!r.has "parallel_tools" || r.has "tools") := by
  have hmodes : (((r.get "data_retention_modes").bind texts).getD []).length ≤ 4 ∧
      (((r.get "data_retention_modes").bind texts).getD []).all retentionModes.contains ∧
      (((r.get "data_retention_modes").bind texts).getD []).Nodup := by
    cases hget : r.get "data_retention_modes" with
    | none => simp
    | some value =>
      obtain ⟨modes,htexts,-,hlen,hall,hnodup⟩ := h.modes value hget
      simpa [htexts] using ⟨hlen,by simpa using hall,hnodup⟩
  have hlow : ∀ name, ((r.get name).bind tokens).any (· ≤ 0) = false := by
    intro name
    cases htokens : (r.get name).bind tokens with
    | none => rfl
    | some n => simpa [Int.lt_iff_add_one_le] using tokens_pos htokens
  have hordered : (((r.get "min_context_tokens").bind tokens).any fun context =>
      ((r.get "min_output_tokens").bind tokens).any (context < ·)) = false := by
    cases hc : (r.get "min_context_tokens").bind tokens with
    | none => rfl
    | some context =>
      cases ho : (r.get "min_output_tokens").bind tokens with
      | none => rfl
      | some output => simpa using h.ordered context output hc ho
  have hfields : (requirementsOf r).minContextTokens = (r.get "min_context_tokens").bind tokens ∧
      (requirementsOf r).minOutputTokens = (r.get "min_output_tokens").bind tokens := ⟨rfl,rfl⟩
  simp only [CapabilityRequirements.validate,firstFailure_eq_ok,forall_mem_cons,
    h.hasRequirement,hfields,hlow,hordered]
  cases htools : r.has "tools" <;> cases hparallel : r.has "parallel_tools" <;>
    simp [requirementsOf,hmodes,htools,hparallel]

/-- What the database checks of capabilities. -/
structure CapabilitiesChecked (c : Json) : Prop where
  flags : ∀ name ∈ booleanNames ++ reportNames, (c.get name).all (fun value =>
    match value with
    | .bool _ => true
    | _ => false)
  serves : (c.isOn "chat" || c.isOn "embeddings")
  context : ∃ n, (c.get "max_context_tokens").bind tokens = some n
  output : ∃ n, (c.get "max_output_tokens").bind tokens = some n
  ordered : ((c.get "max_output_tokens").bind tokens).getD 0 ≤
    ((c.get "max_context_tokens").bind tokens).getD 0
  mode : (c.get "data_retention_mode").all (fun value =>
    value.text.any retentionModes.contains)
  protocol : (c.get "provider_protocol_version").all (fun value =>
    value.text.any protocolPattern)

theorem capabilitiesChecked (h : validCatalogCapabilities c) : CapabilitiesChecked c := by
  unfold validCatalogCapabilities at h
  split at h
  · cases h
  simp only [Bool.and_eq_true,all_cons,all_nil,Bool.and_true,all_eq_true] at h
  obtain ⟨⟨⟨⟨⟨⟨-,hflags⟩,hserves⟩,hctx,hout⟩,hordered⟩,hmode⟩,hproto⟩ := h
  have htoken : ∀ name, (c.get name).any (fun value => value.tokens.isSome) →
      ∃ n, (c.get name).bind tokens = some n := by
    intro name hany
    obtain ⟨value,hvalue,hsome⟩ := (Option.any_eq_true _ _).mp hany
    simpa [hvalue] using Option.isSome_iff_exists.mp hsome
  exact ⟨hflags,hserves,htoken _ hctx,htoken _ hout,by simpa using hordered,hmode,hproto⟩

theorem decodeCapabilities_eq (h : CapabilitiesChecked c) :
    decodeCapabilities c = some (capabilitiesOf c) := by
  have hflag : ∀ name ∈ booleanNames ++ reportNames,
      c.decode false flag name = some (c.isOn name) := fun name hname =>
        decode_flag (h.flags name hname)
  have htoken : ∀ name, (∃ n, (c.get name).bind tokens = some n) →
      c.decode 0 int64 name = some (((c.get name).bind tokens).getD 0) := by
    rintro name ⟨n,hn⟩
    have hall : (c.get name).all (fun value => value.tokens.isSome) := by
      obtain ⟨value,hvalue,hsome⟩ := Option.bind_eq_some_iff.mp hn
      simp [hvalue,hsome]
    have hdecode : c.decode 0 (fun value => value.int64.map id) name =
        some (((c.get name).bind tokens).elim 0 id) := decode_tokens hall
    simpa [hn] using hdecode
  simp only [booleanNames,reportNames,cons_append,nil_append,forall_mem_cons] at hflag
  simp [decodeCapabilities,capabilitiesOf,hflag,htoken _ h.context,htoken _ h.output,
    decode_text ⟨_,h.mode⟩,decode_text ⟨_,h.protocol⟩]

theorem capabilities_valid_iff (h : CapabilitiesChecked c) : (capabilitiesOf c).validate = .ok () ↔
    ((!c.isOn "parallel_tools" || c.isOn "tools") &&
    (!c.isOn "usage_in_stream" || c.isOn "stream") &&
      c.has "data_retention_mode" && c.has "provider_protocol_version") := by
  have hnamed : ∀ name (p : String → Bool), p "" = false →
      (c.get name).all (fun value => value.text.any p) →
      p (((c.get name).bind text).getD "") = c.has name := by
    intro name p hempty hall
    cases hget : c.get name with
    | none => simp [has,hget,hempty]
    | some value =>
      obtain ⟨s,hs,hp⟩ := (Option.any_eq_true _ _).mp (by simpa [hget] using hall)
      simp [has,hget,hs,hp]
  have hserves : (!c.isOn "chat" && !c.isOn "embeddings") = false := by
    simpa [Decidable.or_iff_not_imp_left] using h.serves
  have htokens : decide ((capabilitiesOf c).maxContextTokens ≤ 0) = false ∧
      ((capabilitiesOf c).maxOutputTokens ≤ 0 ||
        (capabilitiesOf c).maxContextTokens < (capabilitiesOf c).maxOutputTokens) =
          false := by
    obtain ⟨context,hctx⟩ := h.context
    obtain ⟨output,hout⟩ := h.output
    have hordered := h.ordered
    have hlow := tokens_pos hctx
    have hlow' := tokens_pos hout
    simp only [capabilitiesOf,hctx,hout,Option.getD_some] at hordered ⊢
    simp only [Bool.or_eq_false_iff,decide_eq_false_iff_not]
    omega
  simp only [CapabilitySet.validate,firstFailure_eq_ok,forall_mem_cons,htokens]
  simp only [capabilitiesOf,hserves,hnamed _ retentionModes.contains (by decide) h.mode,
    hnamed _ protocolPattern (by decide) h.protocol]
  cases c.isOn "parallel_tools" <;> cases c.isOn "usage_in_stream" <;> simp [and_assoc]

theorem satisfies_eq (hr : RequirementsChecked r) (hc : CapabilitiesChecked c)
    (hmode : c.has "data_retention_mode") (allowedRegions : Option (List String))
    (region : String) : catalogDeploymentSatisfies r allowedRegions c region =
      deploymentSatisfies (capabilitiesOf c) region (requirementsOf r) allowedRegions := by
  have htoken : ∀ name name', (r.get name).all (fun value => value.tokens.isSome) →
      (∃ n, (c.get name').bind tokens = some n) →
      ((r.get name).any fun value =>
        ((c.get name').bind tokens).any (· < value.tokens.getD 0)) =
      ((r.get name).bind tokens).any (((c.get name').bind tokens).getD 0 < ·) := by
    rintro name name' hall ⟨n,hn⟩
    cases hget : r.get name with
    | none => rfl
    | some value =>
      obtain ⟨m,hm⟩ := Option.isSome_iff_exists.mp (by simpa [hget] using hall)
      simp [hn,hm]
  have hmodes : ((r.get "data_retention_modes").all fun value =>
        ((c.get "data_retention_mode").bind text).all fun mode =>
          (value.texts.getD []).contains mode) =
      ((((r.get "data_retention_modes").bind texts).getD []).isEmpty ||
        (((r.get "data_retention_modes").bind texts).getD []).contains
          (((c.get "data_retention_mode").bind text).getD "")) := by
    obtain ⟨value,hvalue⟩ := Option.isSome_iff_exists.mp hmode
    obtain ⟨s,hs,-⟩ := (Option.any_eq_true _ _).mp (by simpa [hvalue] using hc.mode)
    cases hget : r.get "data_retention_modes" with
    | none => rfl
    | some value' =>
      obtain ⟨modes,htexts,hlen,-⟩ := hr.modes value' hget
      have hne : modes.isEmpty = false := by
        simpa using ne_nil_of_length_pos hlen
      simp [hvalue,hs,htexts,hne]
  unfold catalogDeploymentSatisfies deploymentSatisfies CapabilitySet.satisfies
  rw [htoken _ _ hr.context hc.context,htoken _ _ hr.output hc.output,hmodes]
  simp only [booleanNames,all_cons,all_nil,requirementsOf,capabilitiesOf,Bool.and_assoc,
    Bool.and_true]
  rw [Bool.and_comm]
  simp only [Bool.and_assoc]
  rfl

/-- For documents that the database accepts, the two contracts agree exactly where the documents
keep the rules that only the domain checks. -/
theorem contract_iff (r c : Json) (allowedRegions : Option (List String)) (region : String)
    (hr : validCatalogRequirements r) (hc : validCatalogCapabilities c) :
    (∃ requirements capabilities, decodeRequirements r = some requirements ∧
      decodeCapabilities c = some capabilities ∧ requirements.validate = .ok () ∧
      capabilities.validate = .ok () ∧ catalogDeploymentSatisfies r allowedRegions c region =
        deploymentSatisfies capabilities region requirements allowedRegions) ↔
    dependenciesHold r c := by
  have hr := requirementsChecked hr
  have hc := capabilitiesChecked hc
  have hvalid : dependenciesHold r c ↔
      (requirementsOf r).validate = .ok () ∧ (capabilitiesOf c).validate = .ok () := by
    rw [requirements_valid_iff hr,capabilities_valid_iff hc,← Bool.and_eq_true_iff,dependenciesHold]
    simp only [Bool.and_assoc]
  simp only [decodeRequirements_eq hr,decodeCapabilities_eq hc,Option.some.injEq,exists_and_left,
    exists_eq_left',hvalid]
  constructor
  · rintro ⟨hvr,hvc,-⟩
    exact ⟨hvr,hvc⟩
  · rintro ⟨hvr,hvc⟩
    have hmode := (capabilities_valid_iff hc).mp hvc
    simp only [Bool.and_eq_true] at hmode
    exact ⟨hvr,hvc,satisfies_eq hr hc hmode.1.2 allowedRegions region⟩

def sampleRequirements : Json :=
  .object [("chat",.bool true),("tools",.bool true),("parallel_tools",.bool true),
    ("min_context_tokens",.number 4096 0)]

def sampleCapabilities : Json :=
  .object [("chat",.bool true),("stream",.bool true),("tools",.bool true),
    ("parallel_tools",.bool true),("max_context_tokens",.number 8192 0),
    ("max_output_tokens",.number 1024 0),("data_retention_mode",.string "zero_retention"),
    ("provider_protocol_version",.string "openai-chat-v1")]

theorem sampleRequirements_contract : validCatalogRequirements sampleRequirements ∧
    validCatalogCapabilities sampleCapabilities ∧
    ∃ requirements capabilities, decodeRequirements sampleRequirements = some requirements ∧
      decodeCapabilities sampleCapabilities = some capabilities ∧ requirements.validate = .ok () ∧
      capabilities.validate = .ok () ∧
      catalogDeploymentSatisfies sampleRequirements (some ["eu-west-1"]) sampleCapabilities
      "eu-west-1" =
        deploymentSatisfies capabilities "eu-west-1" requirements (some ["eu-west-1"]) :=
  have hr : validCatalogRequirements sampleRequirements := by decide
  have hc : validCatalogCapabilities sampleCapabilities := by decide
  ⟨hr,hc,(contract_iff sampleRequirements sampleCapabilities _ _ hr hc).mpr (by decide)⟩

/-- The database stores parallel tool calls without tools; the domain refuses the row it
reads back. -/
theorem parallelTools_alone_stored :
    let requirements := object [("parallel_tools",.bool true)]
    validCatalogRequirements requirements ∧
      (decodeRequirements requirements).map CapabilityRequirements.validate =
        some (.error ⟨"required_capabilities.parallel_tools","requires tools"⟩) := by
  decide

end Catalog
