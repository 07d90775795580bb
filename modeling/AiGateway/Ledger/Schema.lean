import AiGateway.Execution.Schema
import AiGateway.Metering.Price

/-! The tables of prices and of the usage ledger, with the constraints and triggers of migrations 13
to 15, 17, 19 and 20. -/
namespace Ledger
open Text Machine Adapter Metering Execution

/-! `app.price_versions` and `app.price_version_rates` -/

inductive PriceStatus where
  | draft
  | published
  deriving DecidableEq

structure PriceVersion where
  (id deploymentID region currency : String)
  effectiveAt : Time
  status : PriceStatus
  version : ℤ
  createdAt : Time
  createdBy : String
  updatedAt : Time
  updatedBy : String
  publishedAt : Option Time
  deriving DecidableEq

structure VersionRate where
  priceVersionID : String
  rate : PriceRate
  createdAt : Time
  createdBy : String
  deriving DecidableEq

structure Prices where
  versions : List PriceVersion
  rates : List VersionRate
  deriving DecidableEq

namespace Prices
variable (prices : Prices)

def version? (id : String) : Option PriceVersion := prices.versions.find? fun v => v.id = id

def rate? (id : String) (tokenType : TokenType) : Option VersionRate :=
  prices.rates.find? fun r => r.priceVersionID = id ∧ r.rate.tokenType = tokenType

def ratesOf (id : String) : List VersionRate := prices.rates.filter fun r => r.priceVersionID = id

end Prices

/-! `app.usage_ledger_entries` -/

inductive Origin where
  | manual
  | providerReconciliation
  | systemRepair
  | other (text : String)
  deriving DecidableEq

def Origin.valid : Origin → Bool
  | .other _ => false
  | _ => true

/-- The columns of a correction, which are null together. -/
structure Adjustment where
  (adjustsEventID idempotencyKey : String)
  origin : Origin
  (reason reference actor : String)
  (resultQuantity resultAmountMicros : ℤ)
  deriving DecidableEq

/-- The estimate columns are null together. -/
structure LedgerEntry where
  (eventID tenantID requestID : String)
  attemptID : Option String
  tokenType : TokenType
  quantity : ℤ
  source : UsageSource
  (observedAt createdAt : Time)
  (createdBy priceVersionID : String)
  amountMicros : ℤ
  eventSchemaVersion : Option ℤ
  estimate : Option UsageEstimateMetadata
  adjustment : Option Adjustment
  deriving DecidableEq

/-- `value = btrim(value) AND char_length(value) BETWEEN 1 AND 200` -/
def actorFormat (value : String) : Bool :=
  value.toList.head? ≠ some ' ' && value.toList.getLast? ≠ some ' ' &&
    1 ≤ value.toList.length && value.toList.length ≤ 200

/-- One of `[A-Za-z0-9]`, then 7 to 127 of these or of `.`, `_`, `:`, `/` and `-`. -/
def idempotencyPattern (s : String) : Bool :=
  isWord isAlnum (fun c => isAlnum c || ['.','_',':','/','-'].contains c) 7 127 s

/-- One of `[A-Za-z0-9]`, then at most 199 of these or of `.`, `_`, `:`, `@`, `/` and `-`. -/
def auditPattern (s : String) : Bool :=
  isWord isAlnum (fun c => isAlnum c || ['.','_',':','@','/','-'].contains c) 0 199 s

namespace LedgerEntry
variable (entry : LedgerEntry)

def quantityValid : Bool :=
  if entry.source = .adjustment then
    -maximumExactInteger ≤ entry.quantity && entry.quantity ≤ maximumExactInteger
  else 1 ≤ entry.quantity && entry.quantity ≤ maximumExactInteger

def amountValid : Bool :=
  if entry.source = .adjustment then
    -maximumExactInteger ≤ entry.amountMicros &&
      entry.amountMicros ≤ maximumExactInteger
  else 0 ≤ entry.amountMicros && entry.amountMicros ≤ maximumExactInteger

def adjustmentMetadataValid : Bool :=
  match entry.adjustment with
  | none => decide (entry.source ≠ .adjustment)
  | some a => entry.source = .adjustment && idempotencyPattern a.idempotencyKey &&
      a.origin.valid && labelPattern a.reason && auditPattern a.reference &&
      auditPattern a.actor && 0 ≤ a.resultQuantity &&
      a.resultQuantity ≤ maximumExactInteger && 0 ≤ a.resultAmountMicros &&
      a.resultAmountMicros ≤ maximumExactInteger &&
      (entry.quantity ≠ 0 || entry.amountMicros ≠ 0)

def estimateMetadataValid : Bool :=
  if entry.source = .adjustment then entry.eventSchemaVersion.isNone && entry.estimate.isNone
  else if entry.eventSchemaVersion = some 1 then entry.estimate.isNone
  else if entry.eventSchemaVersion = some 2 then
    if entry.source = .estimated then
      match entry.estimate with
      | none => false
      | some metadata =>
        labelPattern metadata.tokenizer && labelPattern metadata.tokenizerVersion &&
          metadataPattern 199 metadata.physicalModel && 0 < metadata.deploymentVersion &&
          metadataPattern 63 metadata.providerProtocolVersion
    else entry.estimate.isNone
  else false

/-- The `CHECK` constraints. -/
@[mk_iff] structure Check : Prop where
  tokenType : entry.tokenType.valid
  source : entry.source.valid
  quantity : entry.quantityValid
  amount : entry.amountValid
  createdBy : actorFormat entry.createdBy
  adjustment : entry.adjustmentMetadataValid
  estimate : entry.estimateMetadataValid

instance : Decidable entry.Check := decidable_of_iff' _ (check_iff entry)

/-- The entry is a usage fact, not a correction. -/
def original : Bool := decide (entry.source ≠ .adjustment)

/-- The entry corrects the other one. -/
def adjusts (eventID : String) : Bool :=
  (entry.adjustment.map fun a => decide (a.adjustsEventID = eventID)).getD false

end LedgerEntry

/-! `app.usage_event_receipts` -/

structure Receipt (H : Type) where
  eventID : String
  schemaVersion : ℤ
  payloadSHA256 : H
  consumerGroup : String
  consumedAt : Time
  createdBy : String

/-- `^[a-z0-9][a-z0-9._-]{2,127}$` -/
def consumerGroupPattern (s : String) : Bool :=
  isWord (fun c => isLower c || isDigit c)
    (fun c => isLower c || isDigit c || ['.','_','-'].contains c) 2 127 s

def Receipt.checks {H : Type} (receipt : Receipt H) : Bool :=
  (receipt.schemaVersion = 1 || receipt.schemaVersion = 2) &&
    consumerGroupPattern receipt.consumerGroup && actorFormat receipt.createdBy

/-! The database. -/

/-- The columns of `app.deployments` that prices refer to. -/
structure PricedDeployment where
  (id region : String)
  deriving DecidableEq

structure Tables (H : Type) where
  requests : List GatewayRequest
  attempts : List RouteAttempt
  deployments : List PricedDeployment
  prices : Prices
  receipts : List (Receipt H)
  entries : List LedgerEntry

/-- The codes of violated constraints, and any other failure. -/
inductive SqlState where
  -- 23505
  | uniqueViolation
  -- 23503
  | foreignKeyViolation
  -- 23514
  | checkViolation
  | unavailable

namespace Tables
variable {H : Type} (db : Tables H)

def entry? (eventID : String) : Option LedgerEntry := db.entries.find? fun e => e.eventID = eventID

/-- The quantities and the amounts of the corrections of an entry. -/
def corrections (eventID : String) : ℤ × ℤ :=
  let chain := db.entries.filter (·.adjusts eventID)
  (Relational.total (·.quantity) chain,Relational.total (·.amountMicros) chain)

/-- `enforce_usage_ledger_adjustment_integrity` -/
def adjustmentIntegrity (entry : LedgerEntry) : Bool :=
  if entry.source ≠ .adjustment then true
  else match entry.adjustment with
    | none => false
    | some a => match db.entry? a.adjustsEventID with
      | none => false
      | some target =>
          target.source ≠ .adjustment && entry.tenantID = target.tenantID &&
            entry.requestID = target.requestID &&
            entry.attemptID = target.attemptID &&
            entry.tokenType = target.tokenType &&
            entry.priceVersionID = target.priceVersionID &&
            target.observedAt ≤ entry.observedAt && entry.createdBy = a.actor &&
            decide (target.quantity + (db.corrections a.adjustsEventID).1 + entry.quantity =
              a.resultQuantity) &&
            decide (target.amountMicros + (db.corrections a.adjustsEventID).2 + entry.amountMicros =
              a.resultAmountMicros)

/-- `enforce_usage_ledger_price_lock` -/
def priceLock (entry : LedgerEntry) : Bool :=
  match db.prices.version? entry.priceVersionID with
  | none => true
  | some price => price.status = .published &&
      price.effectiveAt ≤ entry.observedAt &&
      match entry.attemptID with
      | none => true
      | some attemptID =>
          match db.attempts.find? fun a => a.requestID = entry.requestID ∧ a.id = attemptID with
          | none => true
          | some attempt => decide (attempt.deploymentID = price.deploymentID)

/-- The unique constraints against the rows of the table. -/
def entryUnique (entry : LedgerEntry) : Prop :=
  (∀ e ∈ db.entries, e.eventID ≠ entry.eventID) ∧
    ∀ a ∈ entry.adjustment, ∀ e ∈ db.entries, ∀ b ∈ e.adjustment, e.tenantID = entry.tenantID →
      b.idempotencyKey ≠ a.idempotencyKey

instance (entry : LedgerEntry) : Decidable (db.entryUnique entry) := by
  unfold entryUnique
  infer_instance

/-- The foreign keys. -/
def entryReferences (entry : LedgerEntry) : Prop :=
  (∃ r ∈ db.requests, r.tenantID = entry.tenantID ∧ r.id = entry.requestID) ∧
    (∀ attemptID ∈ entry.attemptID,
      ∃ a ∈ db.attempts, a.requestID = entry.requestID ∧ a.id = attemptID) ∧
    (∃ r ∈ db.prices.rates, r.priceVersionID = entry.priceVersionID ∧
      r.rate.tokenType = entry.tokenType) ∧
    ∀ a ∈ entry.adjustment, ∃ e ∈ db.entries, e.eventID = a.adjustsEventID

instance (entry : LedgerEntry) : Decidable (db.entryReferences entry) := by
  unfold entryReferences
  infer_instance

/-- `INSERT INTO app.usage_ledger_entries`: the triggers, the checks, the unique indexes, and then
the foreign keys. -/
def insertEntry (entry : LedgerEntry) : Except SqlState (Tables H) :=
  if db.adjustmentIntegrity entry ∧ db.priceLock entry ∧ entry.Check then
    if db.entryUnique entry then
      if db.entryReferences entry then .ok { db with entries := db.entries ++ [entry] }
      else .error .foreignKeyViolation
    else .error .uniqueViolation
  else .error .checkViolation

theorem insertEntry_eq_ok {entry : LedgerEntry} {db' : Tables H} :
    db.insertEntry entry = .ok db' ↔ (db.adjustmentIntegrity entry ∧
      db.priceLock entry ∧ entry.Check) ∧ db.entryUnique entry ∧ db.entryReferences entry ∧
      db' = { db with entries := db.entries ++ [entry] } := by
  unfold insertEntry
  split_ifs with hchecks hunique hrefs
  · rw [Except.ok.injEq,eq_comm]
    simp [hchecks,hunique,hrefs]
  · simp [hrefs]
  · simp [hunique]
  · simp [hchecks]

end Tables
/-! A sample: the request and the attempt of the sample event, and a published price of 250 micros
for a thousand input tokens. -/

def sampleVersion : PriceVersion where
  id := "50000000-0000-4000-8000-000000000001"
  deploymentID := sampleEvent.deploymentID
  region := "eu"
  currency := "EUR"
  effectiveAt := 1000
  status := .published
  version := 2
  createdAt := 500
  createdBy := "pricing"
  updatedAt := 600
  updatedBy := "pricing"
  publishedAt := some 600

def sampleRate : VersionRate :=
  ⟨sampleVersion.id,⟨.input,.token,1000,250⟩,550,"pricing"⟩

def sampleTables (H : Type) : Tables H where
  requests := [GatewayRequest.authorized ⟨sampleEvent.requestID,sampleEvent.tenantID,
    "21000000-0000-4000-8000-000000000001","22000000-0000-4000-8000-000000000001","model",
    sampleEvent.traceID,sampleEvent.spanID⟩ 1000]
  attempts := [RouteAttempt.created sampleEvent.attemptID sampleEvent.requestID 1
    sampleEvent.deploymentID 1000]
  deployments := [⟨sampleEvent.deploymentID,"eu"⟩]
  prices := ⟨[sampleVersion],[sampleRate]⟩
  receipts := []
  entries := []

end Ledger
