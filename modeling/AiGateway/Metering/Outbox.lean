import AiGateway.Metering.Event

/-! Rows of `app.usage_event_outbox` with the constraints and triggers of migrations
16, 18 and 19. -/
namespace Metering
open Text Machine Adapter List

inductive OutboxStatus where
  | pending
  | publishing
  | published
  deriving DecidableEq

/-- A row: the event's facts and the columns of the relay. -/
structure OutboxRow where
  event : UsageEvent
  status : OutboxStatus
  publishAttempts : ℕ
  availableAt : Time
  leaseID : Option String
  (leaseExpiresAt publishedAt : Option Time)
  lastErrorCode : Option String
  createdAt : Time
  createdBy : String
  updatedAt : Time
  deriving DecidableEq

/-- The row that an insert gives. The five estimate columns leave the flag out, which is read
back as true. -/
def OutboxRow.inserted (event : UsageEvent) (storedAt : Time) : OutboxRow where
  event := { event with
    observedAt := storedAt
    estimate := event.estimate.map fun metadata => { metadata with estimated := true } }
  status := .pending
  publishAttempts := 0
  availableAt := storedAt
  leaseID := none
  leaseExpiresAt := none
  publishedAt := none
  lastErrorCode := none
  createdAt := storedAt
  createdBy := "gateway:usage-publisher"
  updatedAt := storedAt

/-- One of `[A-Za-z0-9]`, then at most `most` of these or of `.`, `_`, `:`, `/` and `-`. -/
def metadataPattern (most : ℕ) (s : String) : Bool :=
  isWord isAlnum (fun c => isAlnum c || ['.','_',':','/','-'].contains c) 0 most s

namespace OutboxRow
variable (row : OutboxRow)

/-- `usage_event_outbox_kind_source_valid` -/
def kindSourceValid : Bool :=
  (row.event.kind = .observed && row.event.source = .provider) ||
    (row.event.kind = .estimated && row.event.source = .estimated)

/-- `usage_event_outbox_estimate_metadata_valid`; the five columns are null together. -/
def estimateMetadataValid : Bool :=
  if row.event.schemaVersion = 2 ∧ row.event.source = .estimated then
    match row.event.estimate with
    | none => false
    | some metadata => labelPattern metadata.tokenizer && labelPattern metadata.tokenizerVersion &&
        metadataPattern 199 metadata.physicalModel && 0 < metadata.deploymentVersion &&
        metadataPattern 63 metadata.providerProtocolVersion
  else row.event.estimate.isNone

/-- `usage_event_outbox_time_valid` -/
def timeValid : Bool :=
  row.createdAt ≤ row.availableAt && row.createdAt ≤ row.updatedAt &&
    (row.leaseExpiresAt.map fun t => decide (row.updatedAt < t)).getD true &&
    (row.publishedAt.map fun t => decide (row.createdAt ≤ t)).getD true

/-- `usage_event_outbox_lifecycle_valid` -/
def lifecycleValid : Bool :=
  match row.status with
  | .pending => row.leaseID.isNone && row.leaseExpiresAt.isNone && row.publishedAt.isNone
  | .publishing => row.leaseID.isSome && row.leaseExpiresAt.isSome && row.publishedAt.isNone
  | .published => row.leaseID.isNone && row.leaseExpiresAt.isNone && row.publishedAt.isSome &&
      row.lastErrorCode.isNone

/-- `^[A-Z][A-Z0-9_]{2,127}$` -/
def errorCodeValid : Bool :=
  (row.lastErrorCode.map fun code =>
    isWord isUpper (fun c => isUpper c || isDigit c || c == '_') 2 127 code).getD true

def createdByValid : Bool :=
  isTrimmed row.createdBy && 1 ≤ row.createdBy.toList.length &&
    row.createdBy.toList.length ≤ 200

/-- The constraints on the facts, which no update changes. -/
def factsValid : Bool :=
  (row.event.schemaVersion = 1 || row.event.schemaVersion = 2) &&
    row.kindSourceValid && row.event.tokenType.valid && row.event.billingUnit = .token &&
    1 ≤ row.event.quantity && row.event.quantity ≤ 9007199254740991 &&
    eventTraceIDPattern row.event.traceID && eventSpanIDPattern row.event.spanID &&
    row.createdByValid && row.estimateMetadataValid

def maximumPublishAttempts : ℕ := 1000000

/-- The constraints on the columns of the relay. -/
def relayValid : Bool :=
  row.publishAttempts ≤ maximumPublishAttempts && row.errorCodeValid && row.timeValid &&
    row.lifecycleValid

/-- The `CHECK` constraints of the table. -/
def checks : Bool := row.factsValid && row.relayValid

end OutboxRow

open OutboxRow

/-- The triggers before an update. -/
def outboxTransition (old new : OutboxRow) : Bool :=
  new.event = old.event && new.createdAt = old.createdAt &&
    new.createdBy = old.createdBy && old.updatedAt ≤ new.updatedAt &&
    match old.status, new.status with
    | .pending, .publishing => new.publishAttempts = old.publishAttempts &&
        new.availableAt = old.availableAt && new.leaseID.isSome &&
        new.leaseExpiresAt.isSome && new.publishedAt.isNone
    | .publishing, .pending => new.publishAttempts = old.publishAttempts + 1 &&
        new.updatedAt ≤ new.availableAt && new.leaseID.isNone &&
        new.leaseExpiresAt.isNone && new.publishedAt.isNone && new.lastErrorCode.isSome
    | .publishing, .published => new.publishAttempts = old.publishAttempts &&
        new.availableAt = old.availableAt && new.leaseID.isNone &&
        new.leaseExpiresAt.isNone && new.publishedAt.isSome && new.lastErrorCode.isNone
    | _, _ => false

/-- A statement that rewrites a row: refused where a trigger or a constraint refuses it. -/
def updateRow (new old : OutboxRow) : Option OutboxRow :=
  if outboxTransition old new && new.checks then some new else none

theorem metadataPattern_of_identifier {field value : String} {most : ℕ}
    (h : (validateIdentifier field value (most + 1)).1 = false) : metadataPattern most value := by
  simp only [validateIdentifier,Bool.or_eq_false_iff,decide_eq_false_iff_not,not_lt,
    Bool.not_eq_false'] at h
  obtain ⟨⟨-,hsize⟩,hpattern⟩ := h
  have hascii : ∀ c ∈ value.toList, c ≤ '\x7f' := by
    apply isWord_ascii hpattern
    · exact fun c => ascii_of_isAlnum
    · intro c hc
      simp only [Bool.or_eq_true,contains_iff_mem] at hc
      rcases hc with hc | hc
      · exact ascii_of_isAlnum hc
      · simp only [mem_cons,not_mem_nil,or_false] at hc
        rcases hc with rfl | rfl | rfl | rfl | rfl
        all_goals decide
  rw [utf8ByteSize_of_ascii hascii] at hsize
  obtain ⟨c,cs,hs,hc,hcs,hmin,-⟩ := isWord_iff.mp hpattern
  rw [hs,length_cons] at hsize
  exact isWord_iff.mpr ⟨c,cs,hs,hc,hcs,hmin,by omega⟩

theorem estimateMetadataValid_of_validate {metadata : UsageEstimateMetadata}
    (h : metadata.validate = .ok ()) :
    labelPattern metadata.tokenizer ∧ labelPattern metadata.tokenizerVersion ∧
      metadataPattern 199 metadata.physicalModel ∧ 0 < metadata.deploymentVersion ∧
      metadataPattern 63 metadata.providerProtocolVersion := by
  have hall := firstFailure_eq_ok.mp h
  simp only [UsageEstimateMetadata.checks,forall_mem_cons,Bool.not_eq_false',
    decide_eq_false_iff_not,not_lt] at hall
  obtain ⟨-,htokenizer,hver,hmodel,hdep,hproto,-⟩ := hall
  exact ⟨htokenizer,hver,metadataPattern_of_identifier hmodel,hdep,
    metadataPattern_of_identifier hproto⟩

variable {event : UsageEvent}

theorem estimateMetadataValid_inserted {storedAt : Time}
    (hschema : event.schemaVersion = 1 ∨ event.schemaVersion = 2) (h : event.estimateValid) :
    (inserted event storedAt).estimateMetadataValid := by
  unfold UsageEvent.estimateValid usageEventSchemaVersionV1 at h
  show (if event.schemaVersion = 2 ∧ event.source = .estimated then _ else _) = true
  split at h
  · rename_i hver
    rw [if_neg (by simp [hver])]
    simpa [inserted] using h
  · rename_i hfirst
    split at h
    · rename_i hsrc
      rw [if_pos ⟨hschema.resolve_left hfirst,hsrc⟩]
      cases hest : event.estimate with
      | none => simp [hest] at h
      | some metadata =>
        simp only [hest,Option.map_some,Option.getD_some,passes_iff] at h
        obtain ⟨htokenizer,hver,hmodel,hdep,hproto⟩ :=
          estimateMetadataValid_of_validate h
        simp [inserted,hest,htokenizer,hver,hmodel,hdep,hproto]
    · rename_i hsrc
      rw [if_neg (by simp [hsrc])]
      simpa [inserted] using h

theorem factsValid_of_validate {storedAt : Time} (h : event.validate) :
    (inserted event storedAt).factsValid := by
  simp only [UsageEvent.validate,UsageIdentity.validate,UsageEvent.identity,Bool.and_eq_true,
    Bool.or_eq_true,decide_eq_true_eq,usageEventSchemaVersionV1,usageEventSchemaVersion,
    maximumExactInteger] at h
  obtain ⟨⟨⟨⟨⟨⟨⟨⟨hver,-⟩,hident⟩,htype⟩,hunit⟩,hleast⟩,hmost⟩,hkind⟩,hest⟩ := h
  have hschema : event.schemaVersion = 1 ∨ event.schemaVersion = 2 :=
    hver.imp of_decide_eq_true of_decide_eq_true
  have hsrc : (inserted event storedAt).kindSourceValid := by
    cases hevent : event.source <;> simp_all [kindSourceValid,inserted,gatewayUsageKind]
  have hcreator : (inserted event storedAt).createdByValid := by
    show (isTrimmed "gateway:usage-publisher" &&
      1 ≤ "gateway:usage-publisher".toList.length &&
      "gateway:usage-publisher".toList.length ≤ 200)
    decide
  simp only [factsValid,hsrc,hcreator,estimateMetadataValid_inserted hschema hest,
    Bool.and_eq_true,Bool.or_eq_true,decide_eq_true_eq]
  exact ⟨⟨⟨⟨⟨⟨⟨⟨⟨hschema,trivial⟩,htype⟩,hunit⟩,hleast⟩,of_decide_eq_true hmost⟩,
    hident.1.1.2⟩,hident.1.2⟩,trivial⟩,trivial⟩

theorem relayValid_inserted (event : UsageEvent) (storedAt : Time) :
    (inserted event storedAt).relayValid := by
  simp [relayValid,errorCodeValid,timeValid,lifecycleValid,inserted]

end Metering
