import AiGateway.Adapter.Usage
import AiGateway.Machine.Arithmetic

/-! Usage events (`internal/metering/event.go`, `taxonomy.go`): one fact for each positive dimension
of an attempt's usage. -/
namespace Metering
open Text Machine Adapter List

inductive TokenType where
  | input
  | output
  | cacheRead
  | cacheWrite
  | reasoning
  | audioInput
  | audioOutput
  | imageInput
  | imageOutput
  | other (text : String)
  deriving DecidableEq

def TokenType.valid : TokenType → Bool
  | .other _ => false
  | _ => true

inductive BillingUnit where
  | token
  | image
  | second
  | other (text : String)
  deriving DecidableEq

inductive UsageEventKind where
  | observed
  | estimated
  | other (text : String)
  deriving DecidableEq

/-- The largest integer that JSON numbers keep exactly. -/
def maximumExactInteger : ℤ := 9007199254740991

def usageEventSchemaVersionV1 : ℤ := 1

def usageEventSchemaVersion : ℤ := 2

structure UsageIdentity where
  (tenantID requestID attemptID deploymentID traceID spanID : String)
  observedAt : Time

structure UsageEvent where
  eventID : String
  schemaVersion : ℤ
  kind : UsageEventKind
  (tenantID requestID attemptID deploymentID : String)
  tokenType : TokenType
  billingUnit : BillingUnit
  quantity : ℤ
  source : UsageSource
  usageComplete : Bool
  estimate : Option UsageEstimateMetadata
  observedAt : Time
  (traceID spanID : String)
  deriving DecidableEq

inductive EventError where
  | invalidUsageEvent
  | usageEventID
  deriving DecidableEq

/-- One of `[A-Za-z0-9]`, then 7 to 127 of these or of `.`, `_`, `:` and `-`. -/
def eventRequestIDPattern (s : String) : Bool :=
  isWord isAlnum (fun c => isAlnum c || ['.','_',':','-'].contains c) 7 127 s

/-- `^[0-9a-f]{32}$` -/
def eventTraceIDPattern (s : String) : Bool := isWord isHex isHex 31 31 s

/-- `^[0-9a-f]{16}$` -/
def eventSpanIDPattern (s : String) : Bool := isWord isHex isHex 15 15 s

def UsageIdentity.validate (identity : UsageIdentity) : Bool :=
  isUUID identity.tenantID && eventRequestIDPattern identity.requestID &&
    isUUID identity.attemptID && isUUID identity.deploymentID &&
    eventTraceIDPattern identity.traceID && eventSpanIDPattern identity.spanID &&
    identity.observedAt ≠ zeroTime

def gatewayUsageKind : UsageSource → Option UsageEventKind
  | .provider => some .observed
  | .estimated => some .estimated
  | _ => none

namespace UsageEvent
variable (event : UsageEvent)

def identity : UsageIdentity where
  tenantID := event.tenantID
  requestID := event.requestID
  attemptID := event.attemptID
  deploymentID := event.deploymentID
  traceID := event.traceID
  spanID := event.spanID
  observedAt := event.observedAt

/-- The estimate that the schema version and the source ask for. -/
def estimateValid : Bool :=
  if event.schemaVersion = usageEventSchemaVersionV1 then event.estimate.isNone
  else if event.source = .estimated then
    (event.estimate.map fun metadata => passes metadata.validate).getD false
  else event.estimate.isNone

/-- `Validate`; every refusal is `ErrInvalidUsageEvent`. -/
def validate : Bool :=
  (event.schemaVersion = usageEventSchemaVersionV1 ||
      event.schemaVersion = usageEventSchemaVersion) &&
    isUUID event.eventID && event.identity.validate && event.tokenType.valid &&
    event.billingUnit = .token && 1 ≤ event.quantity &&
    event.quantity ≤ maximumExactInteger &&
    gatewayUsageKind event.source = some event.kind && event.estimateValid

end UsageEvent

/-- The dimensions of usage in the order of their events. -/
def dimensions (usage : NormalizedUsage) : List (TokenType × TokenCount) :=
  [(.input,usage.inputTokens),(.output,usage.outputTokens),
    (.cacheRead,usage.cacheReadTokens),(.cacheWrite,usage.cacheWriteTokens),
    (.reasoning,usage.reasoningTokens),(.audioInput,usage.audioInputTokens),
    (.audioOutput,usage.audioOutputTokens)]

def usageEvent (identity : UsageIdentity) (usage : NormalizedUsage) (kind : UsageEventKind)
    (eventID : String) (tokenType : TokenType) (quantity : ℤ) : UsageEvent where
  eventID := eventID
  schemaVersion := usageEventSchemaVersion
  kind := kind
  tenantID := identity.tenantID
  requestID := identity.requestID
  attemptID := identity.attemptID
  deploymentID := identity.deploymentID
  tokenType := tokenType
  billingUnit := .token
  quantity := quantity
  source := usage.source
  usageComplete := usage.complete
  estimate := usage.estimate
  observedAt := identity.observedAt
  traceID := identity.traceID
  spanID := identity.spanID

section Events
variable (identity : UsageIdentity) (usage : NormalizedUsage) (kind : UsageEventKind)
  (newEventID : ℕ → Option String)

/-- The loop over the dimensions; `i` is the number of IDs already taken. -/
def collectEvents (i : ℕ) : List (TokenType × TokenCount) → Except EventError (List UsageEvent)
  | [] => .ok []
  | (tokenType,count) :: rest =>
      if !count.present || count.value = 0 then collectEvents i rest
      else if count.value < 0 || count.value > maximumExactInteger then .error .invalidUsageEvent
      else match newEventID i with
        | none => .error .usageEventID
        | some eventID =>
            let event := usageEvent identity usage kind eventID tokenType count.value
            if !event.validate then .error .invalidUsageEvent
            else (collectEvents (i + 1) rest).map (event :: ·)

/-- `NewUsageEvents`; the factory's calls are numbered, and `none` is its failure. -/
def newUsageEvents (usage : Option NormalizedUsage) : Except EventError (List UsageEvent) :=
  match usage with
  | none => .ok []
  | some usage =>
      if !identity.validate || !passes usage.validate then .error .invalidUsageEvent
      else match gatewayUsageKind usage.source with
        | none => .error .invalidUsageEvent
        | some kind => collectEvents identity usage kind newEventID 0 (dimensions usage)

/-- The dimensions that are present and positive. -/
def positives (dims : List (TokenType × TokenCount)) : List (TokenType × ℤ) :=
  dims.filterMap fun d => if d.2.present && 0 < d.2.value then
    some (d.1,d.2.value) else none

variable {identity usage kind newEventID} {i : ℕ} {events : List UsageEvent} {tokenType : TokenType}

/-- One turn of the loop that does not stop it: the dimension has nothing to bill, or it gives the
next event. -/
theorem collectEvents_cons_eq_ok {count : TokenCount} {rest : List (TokenType × TokenCount)} :
    collectEvents identity usage kind newEventID i ((tokenType,count) :: rest) = .ok events ↔
      ((count.present = false ∨ count.value = 0) ∧
          collectEvents identity usage kind newEventID i rest = .ok events) ∨
        (count.present ∧ 0 < count.value ∧ count.value ≤ maximumExactInteger ∧
          ∃ eventID, newEventID i = some eventID ∧
            (usageEvent identity usage kind eventID tokenType count.value).validate ∧
            ∃ tail, collectEvents identity usage kind newEventID (i + 1) rest = .ok tail ∧
              events = usageEvent identity usage kind eventID tokenType count.value :: tail) := by
  simp only [collectEvents]
  by_cases hskip : count.present = false ∨ count.value = 0
  · rw [if_pos (by simpa using hskip)]
    constructor
    · exact fun h => .inl ⟨hskip,h⟩
    · rintro (h | h)
      · exact h.2
      · rcases hskip with hskip | hskip
        · rw [hskip] at h
          cases h.1
        · omega
  · rw [if_neg (by simpa using hskip)]
    rw [not_or,Bool.not_eq_false] at hskip
    by_cases hrange : 0 < count.value ∧ count.value ≤ maximumExactInteger
    · rw [if_neg (by simp only [Bool.or_eq_true,decide_eq_true_eq]; omega)]
      cases newEventID i with
      | none => simp [hskip]
      | some eventID =>
        cases hvalid : (usageEvent identity usage kind eventID tokenType count.value).validate with
        | false => simp [hskip,hvalid]
        | true =>
          cases collectEvents identity usage kind newEventID (i + 1) rest with
          | error e => simp [hskip,hvalid,Except.map]
          | ok tail =>
            simp [hskip,hvalid,hrange,Except.map]
            exact eq_comm
    · rw [if_pos (by simp only [Bool.or_eq_true,decide_eq_true_eq]; omega)]
      simp only [reduceCtorEq,false_iff,not_or]
      exact ⟨fun h => by simp_all,fun h => hrange ⟨h.2.1,h.2.2.1⟩⟩

variable {dims : List (TokenType × TokenCount)}

section
variable (h : collectEvents identity usage kind newEventID i dims = .ok events)
include h

/-- What the loop returns: one valid event for each positive dimension, with the IDs in order. -/
theorem collectEvents_spec : events.map (fun e => (e.tokenType,e.quantity)) = positives dims ∧
      events.map (fun e => some e.eventID) = (range' i events.length).map newEventID ∧
      ∀ e ∈ events, e.validate ∧
        e = usageEvent identity usage kind e.eventID e.tokenType e.quantity := by
  induction dims generalizing i events with
  | nil =>
    cases h
    simp [positives]
  | cons d rest ih =>
    obtain ⟨tokenType,count⟩ := d
    rcases collectEvents_cons_eq_ok.mp h with
      ⟨hskip,hrest⟩ | ⟨hpresent,hpos,-,eventID,hid,hvalid,tail,hrest,rfl⟩
    · obtain ⟨hfacts,hids,hall⟩ := ih hrest
      refine ⟨?_,hids,hall⟩
      rw [hfacts,positives,positives,filterMap_cons_none]
      rcases hskip with hskip | hskip <;> simp [hskip]
    · obtain ⟨hfacts,hids,hall⟩ := ih hrest
      refine ⟨?_,?_,?_⟩
      · simp [positives,hpresent,hpos,usageEvent] at hfacts ⊢
        exact hfacts
      · simp [range'_succ,hids,hid,usageEvent]
      · intro e he
        rcases mem_cons.mp he with rfl | he
        · exact ⟨hvalid,rfl⟩
        · exact hall e he

theorem collectEvents_le : ∀ d ∈ dims, d.2.present → d.2.value ≤ maximumExactInteger := by
  induction dims generalizing i events with
  | nil => simp
  | cons d rest ih =>
    obtain ⟨tokenType,count⟩ := d
    rcases collectEvents_cons_eq_ok.mp h with
      ⟨hskip,hrest⟩ | ⟨-,-,hle,eventID,-,-,tail,hrest,-⟩
    · refine forall_mem_cons.mpr ⟨?_,ih hrest⟩
      intro hpresent
      rcases hskip with hskip | hskip
      · rw [hskip] at hpresent
        cases hpresent
      · rw [hskip]
        decide
    · exact forall_mem_cons.mpr ⟨fun _ => hle,ih hrest⟩

end

/-- The loop runs through where the counts are exact integers and the IDs do not run out. -/
theorem collectEvents_ok (hcounts : ∀ d ∈ dims, d.2.present → 0 ≤ d.2.value ∧
    d.2.value ≤ maximumExactInteger)
    (hids : ∀ j, j < i + dims.length → ∃ eventID, newEventID j = some eventID ∧
      ∀ d ∈ dims, 1 ≤ d.2.value → d.2.value ≤ maximumExactInteger →
        (usageEvent identity usage kind eventID d.1 d.2.value).validate) :
    ∃ events, collectEvents identity usage kind newEventID i dims = .ok events := by
  induction dims generalizing i with
  | nil => exact ⟨[],rfl⟩
  | cons d rest ih =>
    obtain ⟨tokenType,count⟩ := d
    obtain ⟨hcount,hrest⟩ := forall_mem_cons.mp hcounts
    by_cases hskip : count.present = false ∨ count.value = 0
    · obtain ⟨events,hevents⟩ := @ih i hrest fun j hj => by
        obtain ⟨eventID,hid,hvalid⟩ := hids j (by simp only [length_cons]; omega)
        exact ⟨eventID,hid,(forall_mem_cons.mp hvalid).2⟩
      exact ⟨events,collectEvents_cons_eq_ok.mpr (.inl ⟨hskip,hevents⟩)⟩
    · rw [not_or,Bool.not_eq_false] at hskip
      obtain ⟨hnn,hle⟩ : 0 ≤ count.value ∧ count.value ≤ maximumExactInteger := hcount hskip.1
      obtain ⟨tail,htail⟩ := @ih (i + 1) hrest fun j hj => by
        obtain ⟨eventID,hid,hvalid⟩ := hids j (by simp only [length_cons]; omega)
        exact ⟨eventID,hid,(forall_mem_cons.mp hvalid).2⟩
      obtain ⟨eventID,hid,hvalid⟩ := hids i (by simp only [length_cons]; omega)
      have hpos : 0 < count.value := by omega
      have hevent := (forall_mem_cons.mp hvalid).1 hpos hle
      exact ⟨_,collectEvents_cons_eq_ok.mpr
        (.inr ⟨hskip.1,hpos,hle,eventID,hid,hevent,tail,htail,rfl⟩)⟩

theorem usageEvent_validate {eventID : String} {quantity : ℤ}
    (hident : identity.validate) (husage : usage.validate = .ok ())
    (hkind : gatewayUsageKind usage.source = some kind) (hid : isUUID eventID)
    (htype : tokenType.valid) (hleast : 1 ≤ quantity) (hmost : quantity ≤ maximumExactInteger) :
    (usageEvent identity usage kind eventID tokenType quantity).validate := by
  have hvalid := NormalizedUsage.valid_of_validate husage
  have hest : (usageEvent identity usage kind eventID tokenType quantity).estimateValid =
      true := by
    by_cases hsrc : usage.source = .estimated
    · obtain ⟨metadata,hmetadata,hok⟩ := hvalid.estimated hsrc
      simp [UsageEvent.estimateValid,usageEvent,usageEventSchemaVersion,
        usageEventSchemaVersionV1,hsrc,hmetadata,hok,passes]
    · simp [UsageEvent.estimateValid,usageEvent,usageEventSchemaVersion,
        usageEventSchemaVersionV1,hsrc,hvalid.unestimated hsrc]
  have hshared : (usageEvent identity usage kind eventID tokenType quantity).identity = identity :=
    rfl
  simp only [UsageEvent.validate,hest,hshared,hident]
  simp [usageEvent,hid,htype,hleast,hmost,hkind]

theorem dimensions_types (usage : NormalizedUsage) : ((dimensions usage).map (·.1)).Nodup ∧
    ∀ d ∈ dimensions usage, d.1.valid := by
  constructor
  · show [TokenType.input,.output,.cacheRead,.cacheWrite,.reasoning,.audioInput,.audioOutput].Nodup
    decide
  · simp [dimensions,TokenType.valid]

theorem positives_types (usage : NormalizedUsage) :
    ((positives (dimensions usage)).map (·.1)).Nodup := by
  have hfilter : ∀ dims : List (TokenType × TokenCount), (positives dims).map (·.1) =
      (dims.filter fun d => d.2.present && 0 < d.2.value).map (·.1) := by
    intro dims
    induction dims with
    | nil => rfl
    | cons d dims ih =>
      unfold positives at ih ⊢
      rw [filterMap_cons,filter_cons]
      split_ifs <;> simp_all
  rw [hfilter]
  exact (dimensions_types usage).1.sublist (filter_sublist.map _)

end Events

/-- A sample: twelve input tokens, as a provider reported them. -/
def sampleEvent : UsageEvent where
  eventID := "10000000-0000-4000-8000-000000000001"
  schemaVersion := 2
  kind := .observed
  tenantID := "20000000-0000-4000-8000-000000000001"
  requestID := "req_00000001"
  attemptID := "30000000-0000-4000-8000-000000000001"
  deploymentID := "40000000-0000-4000-8000-000000000001"
  tokenType := .input
  billingUnit := .token
  quantity := 12
  source := .provider
  usageComplete := true
  estimate := none
  observedAt := 5000
  traceID := "0123456789abcdef0123456789abcdef"
  spanID := "0123456789abcdef"

end Metering
