import AiGateway.Ledger.Later
import AiGateway.MeteringCost.Projection
import AiGateway.Relational.Join

/-! `PostgresAggregator.Aggregate` (`internal/meteringcost/postgres.go`), in one snapshot. -/
namespace MeteringCost
open Adapter Metering Execution Ledger List

variable {H : Type} (db : Tables H) (outbox : List OutboxRow)

def loadRequest (scope : Scope) (requestID : String) : Except CostError (RequestStatus × ℕ) :=
  match db.requests.find? fun r => r.id = requestID ∧ r.tenantID = scope.tenantID ∧
      r.projectID = scope.projectID with
  | none => .error .notFound
  | some r => .ok (r.status,r.attemptCount)

def attemptFact (a : RouteAttempt) : AttemptFact := ⟨a.id,a.attemptNo,a.deploymentID,a.status⟩

/-- `ORDER BY attempt_no` -/
def loadAttempts (requestID : String) : List AttemptFact :=
  ((db.attempts.filter fun a => a.requestID = requestID).map attemptFact).insertionSort
    fun a b => a.number ≤ b.number

/-- The join of the outbox with the ledger. -/
def countedAs (row : OutboxRow) (entry : Ledger.LedgerEntry) : Bool :=
  entry.eventID = row.event.eventID && entry.tenantID = row.event.tenantID &&
    entry.requestID = row.event.requestID &&
    entry.attemptID = some row.event.attemptID

def outboxComplete (tenantID requestID : String) : Except CostError Bool :=
  let joined := Relational.leftJoin countedAs
    (outbox.filter fun row => row.event.tenantID = tenantID ∧ row.event.requestID = requestID)
    db.entries
  let expected := joined.length
  let priced := joined.countP (·.2.isSome)
  if expected < priced then .error .unavailable else .ok (decide (expected = priced))

def factOf (row : Ledger.LedgerEntry) (price : PriceVersion) (rate : PriceRate) : LedgerFact where
  eventID := row.eventID
  attemptID := row.attemptID.getD ""
  tokenType := row.tokenType
  quantity := row.quantity
  source := row.source
  observedAt := row.observedAt
  createdAt := row.createdAt
  priceVersionID := row.priceVersionID
  currency := price.currency
  billingUnit := rate.billingUnit
  unitQuantity := rate.unitQuantity
  unitPriceMicros := rate.unitPriceMicros
  amountMicros := row.amountMicros
  adjustment := row.adjustment.map fun a =>
    ⟨a.adjustsEventID,a.origin,a.reason,a.reference,a.actor,a.resultQuantity,a.resultAmountMicros⟩

/-- A row of the ledger, joined with its price and its rate. -/
def ledgerFact (row : Ledger.LedgerEntry) : Option LedgerFact := do
  let price ← db.prices.version? row.priceVersionID
  let found ← db.prices.rate? row.priceVersionID row.tokenType
  return factOf row price found.rate

/-- `ORDER BY attempt_id NULLS FIRST`; rows of one attempt stay in the order of the table. -/
def attemptOrder (a b : Ledger.LedgerEntry) : Prop :=
  match a.attemptID, b.attemptID with
  | none, _ => True
  | some _, none => False
  | some id, some id' => id ≤ id'

instance : DecidableRel attemptOrder := fun a b => by
  unfold attemptOrder
  split <;> infer_instance

def loadLedger (tenantID requestID : String) : List LedgerFact :=
  ((db.entries.filter fun row => row.tenantID = tenantID ∧ row.requestID = requestID).insertionSort
    attemptOrder).filterMap (ledgerFact db)

def aggregate (scope : Scope) (requestID : String) : Except CostError RequestCost :=
  if scope.validate && requestIDPattern requestID then
    match loadRequest db scope requestID with
    | .error e => .error e
    | .ok (status,attemptCount) =>
        if !status.terminal then .error .notTerminal
        else match outboxComplete db outbox scope.tenantID requestID with
          | .error e => .error e
          | .ok false => .error .pending
          | .ok true => buildRequestCost scope requestID status attemptCount
              (loadAttempts db requestID) (loadLedger db scope.tenantID requestID)
  else .error .invalid

variable {db outbox} {scope : Scope} {requestID : String}

theorem ledgerFact_eq_some (hkey : db.prices.Keyed) {row : Ledger.LedgerEntry} {fact : LedgerFact} :
    ledgerFact db row = some fact ↔ ∃ price ∈ db.prices.versions, price.id = row.priceVersionID ∧
      ∃ found ∈ db.prices.rates, (found.priceVersionID = row.priceVersionID ∧
        found.rate.tokenType = row.tokenType) ∧ fact = factOf row price found.rate := by
  simp only [ledgerFact,Option.bind_eq_bind,Option.bind_eq_some_iff,hkey.version?_eq_some,
    hkey.rate?_eq_some,Option.pure_def,Option.some.injEq,and_assoc]
  simp only [eq_comm]

theorem mem_loadLedger {tenantID : String} {fact : LedgerFact} :
    fact ∈ loadLedger db tenantID requestID ↔ ∃ row ∈ db.entries, row.tenantID = tenantID ∧
      row.requestID = requestID ∧ ledgerFact db row = some fact := by
  rw [loadLedger,mem_filterMap]
  simp only [mem_insertionSort,mem_filter,decide_eq_true_eq,and_assoc]

theorem mem_loadAttempts {fact : AttemptFact} : fact ∈ loadAttempts db requestID ↔
    ∃ a ∈ db.attempts, a.requestID = requestID ∧ attemptFact a = fact := by
  rw [loadAttempts,mem_insertionSort,mem_map]
  simp only [mem_filter,decide_eq_true_eq,and_assoc]

theorem outboxComplete_eq_ok {tenantID : String} :
    outboxComplete db outbox tenantID requestID = .ok true ↔
      ∀ row ∈ outbox, row.event.tenantID = tenantID → row.event.requestID = requestID →
        ∃ entry ∈ db.entries, countedAs row entry := by
  unfold outboxComplete
  dsimp only
  rw [if_neg (not_lt.mpr countP_le_length),Except.ok.injEq,decide_eq_true_eq,eq_comm,
    Relational.countP_leftJoin]
  simp only [mem_filter,decide_eq_true_eq,and_imp]

/-- A returned cost: the request has ended, every row of its outbox is counted, and the result is
the projection of the ledger. -/
theorem aggregate_spec {cost : RequestCost} (h : aggregate db outbox scope requestID = .ok cost) :
    ∃ r ∈ db.requests, (r.id = requestID ∧ r.tenantID = scope.tenantID ∧
        r.projectID = scope.projectID) ∧
      (∀ row ∈ outbox, row.event.tenantID = scope.tenantID → row.event.requestID = requestID →
        ∃ entry ∈ db.entries, countedAs row entry) ∧
      Projects scope requestID r.status (loadAttempts db requestID)
        (loadLedger db scope.tenantID requestID) cost := by
  unfold aggregate at h
  split_ifs at h with hvalid
  split at h
  · cases h
  · rename_i status attemptCount hreq
    split_ifs at h with hterm
    split at h
    · cases h
    · cases h
    · rename_i hcompl
      unfold loadRequest at hreq
      split at hreq
      · cases hreq
      · rename_i r hfound
        cases hreq
        have hfacts := find?_some hfound
        rw [decide_eq_true_eq] at hfacts
        exact ⟨r,mem_of_find?_eq_some hfound,hfacts,outboxComplete_eq_ok.mp hcompl,
          buildRequestCost_spec h⟩

end MeteringCost
