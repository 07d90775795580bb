import AiGateway.Ledger.Schema

/-! The consumer of usage events (`internal/meteringconsumer/processor.go`): the parts of `Process`
between two of which others may come in. -/
namespace MeteringConsumer
open Machine Adapter Metering Ledger

variable {π H : Type}

inductive ConsumerError where
  | invalidEvent
  | eventConflict
  | priceUnavailable
  | storeUnavailable
  deriving DecidableEq

structure Result where
  (eventID priceVersionID : String)
  amountMicros : ℤ
  (inserted replayed : Bool)

/-- The strict JSON decoder with the bytes it reads, and the SHA-256 of the canonical encoding,
which may fail. -/
structure Codec (π H : Type) where
  size : π → ℕ
  decode : π → Option UsageEvent
  fingerprint : UsageEvent → Option H

def maximumUsageEventBytes : ℕ := 64 * 1024

def ledgerWriter : String := "metering-worker:usage-v1"

/-- Version 1 had no unit: its absence stands for tokens. -/
def withUnit (event : UsageEvent) : UsageEvent :=
  { event with
    billingUnit := if event.billingUnit = .other "" then .token else event.billingUnit }

def canonicalUsageEvent (codec : Codec π H) (key : String) (payload : π) :
    Except ConsumerError (UsageEvent × H) :=
  if key = "" ∨ codec.size payload = 0 ∨ maximumUsageEventBytes < codec.size payload then
    .error .invalidEvent
  else match codec.decode payload with
    | none => .error .invalidEvent
    | some decoded =>
        let event := withUnit decoded
        if event.eventID ≠ key ∨ event.validate = false then .error .invalidEvent
        else match codec.fingerprint event with
          | none => .error .invalidEvent
          | some fingerprint => .ok (event,fingerprint)

theorem canonicalUsageEvent_eq_ok {codec : Codec π H} {key : String} {payload : π}
    {event : UsageEvent} {fingerprint : H} :
    canonicalUsageEvent codec key payload = .ok (event,fingerprint) ↔
      (key ≠ "" ∧ codec.size payload ≠ 0 ∧ codec.size payload ≤ maximumUsageEventBytes) ∧
      (∃ decoded, codec.decode payload = some decoded ∧ event = withUnit decoded) ∧
      event.eventID = key ∧ event.validate ∧ codec.fingerprint event = some fingerprint := by
  unfold canonicalUsageEvent
  split
  · rename_i hrefused
    refine iff_of_false (by simp) fun h => ?_
    obtain ⟨⟨hkey,hempty,hsize⟩,-⟩ := h
    rcases hrefused with hrefused | hrefused | hrefused
    · exact hkey hrefused
    · exact hempty hrefused
    · omega
  · rename_i hacc
    simp only [not_or,not_lt] at hacc
    rw [and_iff_right hacc]
    cases hdecode : codec.decode payload with
    | none => simp
    | some decoded =>
      dsimp only
      split
      · rename_i hrefused
        refine iff_of_false (by simp) fun h => ?_
        obtain ⟨⟨_,hdec,rfl⟩,hkey,hvalid,-⟩ := h
        cases hdec
        rcases hrefused with hrefused | hrefused
        · exact hrefused hkey
        · simp [hvalid] at hrefused
      · rename_i hkept
        simp only [not_or,not_not,Bool.not_eq_false] at hkept
        cases hprint : codec.fingerprint (withUnit decoded) with
        | none =>
          refine iff_of_false (by simp) fun h => ?_
          obtain ⟨⟨_,hdec,rfl⟩,-,-,hsome⟩ := h
          cases hdec
          rw [hprint] at hsome
          cases hsome
        | some found =>
          constructor
          · intro h
            cases h
            exact ⟨⟨decoded,rfl,rfl⟩,hkept.1,hkept.2,hprint⟩
          · intro h
            obtain ⟨⟨_,hdec,rfl⟩,-,-,hsome⟩ := h
            cases hdec
            rw [hprint,Option.some.injEq] at hsome
            rw [hsome]

section Statements
variable (stamp : Time → Time)

def receiptOf (consumerGroup : String) (event : UsageEvent) (fingerprint : H) (consumedAt : Time) :
    Receipt H where
  eventID := event.eventID
  schemaVersion := event.schemaVersion
  payloadSHA256 := fingerprint
  consumerGroup := consumerGroup
  consumedAt := stamp consumedAt
  createdBy := ledgerWriter

/-- The row of the ledger; its columns have no place for the flag of the estimate. -/
def entryOf (event : UsageEvent) (consumedAt : Time) (priceVersionID : String) (amountMicros : ℤ) :
    LedgerEntry where
  eventID := event.eventID
  tenantID := event.tenantID
  requestID := event.requestID
  attemptID := some event.attemptID
  tokenType := event.tokenType
  quantity := event.quantity
  source := event.source
  observedAt := stamp event.observedAt
  createdAt := stamp consumedAt
  createdBy := ledgerWriter
  priceVersionID := priceVersionID
  amountMicros := amountMicros
  eventSchemaVersion := some event.schemaVersion
  estimate := event.estimate.map fun metadata => { metadata with estimated := true }
  adjustment := none

variable (db : Tables H)

def loadReplay [DecidableEq H] (eventID : String) (fingerprint : H) : Except ConsumerError Result :=
  match db.receipts.find? fun r => r.eventID = eventID, db.entry? eventID with
  | some receipt, some entry =>
      if receipt.payloadSHA256 ≠ fingerprint then .error .eventConflict
      else .ok ⟨eventID,entry.priceVersionID,entry.amountMicros,false,true⟩
  | _, _ => .error .storeUnavailable

/-- The request, the attempt and its deployment are those of the event. -/
def attributed (event : UsageEvent) : Prop :=
  (∃ r ∈ db.requests, r.tenantID = event.tenantID ∧ r.id = event.requestID) ∧
    ∃ a ∈ db.attempts, a.requestID = event.requestID ∧ a.id = event.attemptID ∧
      a.deploymentID = event.deploymentID

instance (event : UsageEvent) : Decidable (attributed db event) := by
  unfold attributed
  infer_instance

/-- The version is published for the deployment in its region and in effect. -/
def effective (event : UsageEvent) (price : PriceVersion) : Prop :=
  price.deploymentID = event.deploymentID ∧
    (∃ d ∈ db.deployments, d.id = event.deploymentID ∧ d.region = price.region) ∧
    price.status = .published ∧ price.effectiveAt ≤ stamp event.observedAt

instance (event : UsageEvent) (price : PriceVersion) :
    Decidable (effective stamp db event price) := by
  unfold effective
  infer_instance

def rateFor (event : UsageEvent) (price : PriceVersion) : Option VersionRate :=
  db.prices.rates.find? fun r => r.priceVersionID = price.id ∧ r.rate.tokenType = event.tokenType ∧
    r.rate.billingUnit = event.billingUnit

/-- `ORDER BY price.effective_at DESC, price.id DESC` -/
def newestFirst (a b : PriceVersion) : Bool :=
  b.effectiveAt < a.effectiveAt ||
    (b.effectiveAt = a.effectiveAt && b.id < a.id)

def effectivePrices (event : UsageEvent) : List (PriceVersion × VersionRate) :=
  if attributed db event then
    (db.prices.versions.filter fun price => effective stamp db event price).filterMap
      fun price => (rateFor db event price).map (price,·)
  else []

def selectEffectiveRate (event : UsageEvent) : Except ConsumerError (String × PriceRate) :=
  match Relational.first (fun a b => newestFirst a.1 b.1) (effectivePrices stamp db event) with
  | none => .error .priceUnavailable
  | some (price,found) =>
      let rate : PriceRate := { found.rate with tokenType := event.tokenType }
      if rate.validate = false then .error .priceUnavailable else .ok (price.id,rate)

theorem selectEffectiveRate_spec {event : UsageEvent} {priceVersionID : String} {rate : PriceRate}
    (h : selectEffectiveRate stamp db event = .ok (priceVersionID,rate)) :
    attributed db event ∧ rate.validate ∧
      ∃ price ∈ db.prices.versions, effective stamp db event price ∧ price.id = priceVersionID ∧
        ∃ found ∈ db.prices.rates, found.priceVersionID = price.id ∧ found.rate = rate ∧
          rate.tokenType = event.tokenType ∧ rate.billingUnit = event.billingUnit := by
  unfold selectEffectiveRate at h
  split at h
  · cases h
  · rename_i price found hfirst
    dsimp only at h
    split at h
    · cases h
    · rename_i hvalid
      cases h
      have hmem := Relational.first_mem hfirst
      unfold effectivePrices at hmem
      split at hmem
      · rename_i hattr
        rw [List.mem_filterMap] at hmem
        obtain ⟨candidate,hcand,hjoined⟩ := hmem
        rw [Option.map_eq_some_iff] at hjoined
        obtain ⟨joined,hrate,hpair⟩ := hjoined
        cases hpair
        rw [List.mem_filter,decide_eq_true_eq] at hcand
        have hfound := List.find?_some hrate
        simp only [decide_eq_true_eq] at hfound
        refine ⟨hattr,by simpa using hvalid,price,hcand.1,hcand.2,rfl,
          found,List.mem_of_find?_eq_some hrate,hfound.1,?_,rfl,hfound.2.2⟩
        rw [← hfound.2.1]
      · cases hmem

end Statements
end MeteringConsumer
