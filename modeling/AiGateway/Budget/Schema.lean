import AiGateway.Budget.Commands
import AiGateway.Relational.Table

/-! The stored rows of one budget account, the constraints and triggers of migrations 000011 and
000012, the statements of the three transactions, and the decoding of rows. -/
namespace Budget

inductive RequestStatus where
  | received | authorized | reserved | routing | running
  | succeeded | partialFailed | failed | cancelled
  deriving DecidableEq

/-- The table `requests` is keyed by tenant and request; `locks` are the reservations held
`FOR UPDATE`. -/
structure Database where
  account : AccountRow
  reservations : List ReservationRow
  ledger : List LedgerRow
  ledgerSeq : ℤ
  requests : String → String → Option RequestStatus
  locks : List String

/-- How a statement ends without a row: `retryable` stands for 40001 and 40P01, `constraint` for
23503, 23505 and 23514 except the unique key of reservations, and `overflow` for a `bigint`
expression out of range. -/
inductive SqlError where
  | noRows | retryable | idempotencyUnique | constraint | overflow | failure

/-! CHECK constraints. The reference format is the one of `budgetRefPattern`. -/

/-- The check `created_by = btrim(created_by) AND char_length(created_by) BETWEEN 1 AND 200`. -/
def actorFormat (s : String) : Bool :=
  s.toList.head? != some ' ' && s.toList.getLast? != some ' ' && 1 ≤ s.length && s.length ≤ 200

def Scope.shapeValid (s : Scope) : Bool :=
  match s.kind with
  | .tenant => s.projectID == "" && s.virtualKeyID == "" && s.principalRef == "" &&
      s.sessionRef == ""
  | .project => s.projectID != "" && s.virtualKeyID == "" && s.principalRef == "" &&
      s.sessionRef == ""
  | .key => s.projectID != "" && s.virtualKeyID != "" && s.principalRef == "" && s.sessionRef == ""
  | .user => s.projectID == "" && s.virtualKeyID == "" && s.principalRef != "" && s.sessionRef == ""
  | .session => s.projectID == "" && s.virtualKeyID == "" && s.principalRef == "" &&
      s.sessionRef != ""

def between (low value high : ℤ) : Prop := low ≤ value ∧ value ≤ high

instance (low value high : ℤ) : Decidable (between low value high) := by
  unfold between
  infer_instance

@[mk_iff] structure AccountRow.Check (a : AccountRow) : Prop where
  scopeShape : a.scope.shapeValid
  principalRef : a.scope.principalRef = "" ∨ budgetRefPattern a.scope.principalRef
  sessionRef : a.scope.sessionRef = "" ∨ budgetRefPattern a.scope.sessionRef
  currency : currencyPattern a.currency
  period : a.periodStart < a.periodEnd
  soft : between 1 a.softLimitMicros maximumAmount
  hard : between 1 a.hardLimitMicros maximumAmount
  limits : a.softLimitMicros ≤ a.hardLimitMicros
  committed : between 0 a.committedMicros maximumAmount
  reserved : between 0 a.reservedMicros maximumAmount
  balances : a.committedMicros ≤ maximumAmount - a.reservedMicros
  version : 0 < a.version
  createdBy : actorFormat a.createdBy
  updatedBy : actorFormat a.updatedBy
  updateTime : a.createdAt ≤ a.updatedAt
  closed : a.status = .closed ↔ a.closedAt.isSome
  closedAt : ∀ t, a.closedAt = some t → a.createdAt ≤ t

instance (a : AccountRow) : Decidable a.Check := decidable_of_iff' _ (AccountRow.check_iff a)

def ReservationRow.terminalAmountsValid (r : ReservationRow) : Prop :=
  match r.actualMicros, r.releasedMicros, r.overageMicros, r.terminalAt with
  | some actual, some released, some overage, some terminal =>
      r.status ≠ .pending ∧ between 0 actual maximumAmount ∧ between 0 released maximumAmount ∧
        between 0 overage maximumAmount ∧ released = max (r.reservedMicros - actual) 0 ∧
        overage = max (actual - r.reservedMicros) 0 ∧ r.createdAt ≤ terminal
  | none, none, none, none => r.status = .pending
  | _, _, _, _ => False

instance (r : ReservationRow) : Decidable r.terminalAmountsValid := by
  unfold ReservationRow.terminalAmountsValid
  split <;> infer_instance

@[mk_iff] structure ReservationRow.Check (r : ReservationRow) : Prop where
  idempotencyKey : budgetRefPattern r.idempotencyKey
  reserved : between 1 r.reservedMicros maximumAmount
  terminalAmounts : r.terminalAmountsValid
  expiry : r.createdAt < r.expiresAt
  version : 0 < r.version
  createdBy : actorFormat r.createdBy
  updatedBy : actorFormat r.updatedBy
  updateTime : r.createdAt ≤ r.updatedAt

instance (r : ReservationRow) : Decidable r.Check :=
  decidable_of_iff' _ (ReservationRow.check_iff r)

def LedgerRow.shapeValid (e : LedgerRow) : Prop :=
  match e.kind with
  | .reserve => e.reservationID ≠ "" ∧ e.committedDeltaMicros = 0 ∧ 0 < e.reservedDeltaMicros
  | .settle => e.reservationID ≠ "" ∧ 0 ≤ e.committedDeltaMicros ∧ e.reservedDeltaMicros < 0
  | .release | .expire => e.reservationID ≠ "" ∧ e.committedDeltaMicros = 0 ∧
      e.reservedDeltaMicros < 0
  | .adjustment => e.reservationID = ""

instance (e : LedgerRow) : Decidable e.shapeValid := by
  unfold LedgerRow.shapeValid
  split <;> infer_instance

@[mk_iff] structure LedgerRow.Check (e : LedgerRow) : Prop where
  idempotencyKey : budgetRefPattern e.idempotencyKey
  committedDelta : between (-maximumAmount) e.committedDeltaMicros maximumAmount
  reservedDelta : between (-maximumAmount) e.reservedDeltaMicros maximumAmount
  deltas : e.committedDeltaMicros ≠ 0 ∨ e.reservedDeltaMicros ≠ 0
  shape : e.shapeValid
  committed : between 0 e.resultCommittedMicros maximumAmount
  reserved : between 0 e.resultReservedMicros maximumAmount
  results : e.resultCommittedMicros ≤ maximumAmount - e.resultReservedMicros
  createdBy : actorFormat e.createdBy

instance (e : LedgerRow) : Decidable e.Check := decidable_of_iff' _ (LedgerRow.check_iff e)

/-! Triggers. -/

/-- The trigger `enforce_budget_account_transition`, as migration 000012 leaves it. -/
def accountTransition (old new : AccountRow) : Prop :=
  (new.id = old.id ∧ new.scope = old.scope ∧ new.currency = old.currency ∧
    new.periodStart = old.periodStart ∧ new.periodEnd = old.periodEnd ∧
    new.softLimitMicros = old.softLimitMicros ∧ new.hardLimitMicros = old.hardLimitMicros ∧
    new.createdAt = old.createdAt ∧ new.createdBy = old.createdBy) ∧
  (old.status = .closed → new.status = .closed ∧ new.closedAt = old.closedAt) ∧
  new.version = old.version + 1 ∧ old.updatedAt ≤ new.updatedAt

instance (old new : AccountRow) : Decidable (accountTransition old new) := by
  unfold accountTransition
  infer_instance

/-- The trigger `enforce_budget_reservation_transition`. -/
def reservationTransition (old new : ReservationRow) : Prop :=
  (new.id = old.id ∧ new.tenantID = old.tenantID ∧ new.accountID = old.accountID ∧
    new.requestID = old.requestID ∧ new.idempotencyKey = old.idempotencyKey ∧
    new.reservedMicros = old.reservedMicros ∧ new.expiresAt = old.expiresAt ∧
    new.createdAt = old.createdAt ∧ new.createdBy = old.createdBy) ∧
  (old.status = .pending ∧ new.status ≠ .pending) ∧
  new.version = old.version + 1 ∧ old.updatedAt ≤ new.updatedAt

instance (old new : ReservationRow) : Decidable (reservationTransition old new) := by
  unfold reservationTransition
  infer_instance

/-- The statuses `enforce_gateway_request_transition` lets follow each other. -/
def requestTransition : RequestStatus → RequestStatus → Bool
  | .received, new => new = .authorized || new = .failed || new = .cancelled
  | .authorized, new => new = .reserved || new = .routing || new = .failed || new = .cancelled
  | .reserved, new => new = .routing || new = .failed || new = .cancelled
  | .routing, new => new = .running || new = .failed || new = .cancelled
  | .running, new => new = .running || new = .succeeded || new = .partialFailed ||
      new = .failed || new = .cancelled
  | _, _ => false

/-! Statements. Each returns the row it wrote. -/

/-- The statement `UPDATE app.budget_accounts SET set WHERE tenant_id AND id AND cond`; an
expression of either clause is `none` where it leaves the `bigint` range. -/
def Database.updateAccount (s : Database) (tenantID accountID : String)
    (cond : AccountRow → Option Bool) (set : AccountRow → Option AccountRow) :
    Except SqlError (Database × AccountRow) :=
  if s.account.scope.tenantID = tenantID ∧ s.account.id = accountID then
    match cond s.account, set s.account with
    | some true, some new =>
        if accountTransition s.account new ∧ new.Check then .ok ({ s with account := new },new)
        else .error .constraint
    | some false, _ => .error .noRows
    | _, _ => .error .overflow
  else .error .noRows

def Database.insertReservation (s : Database) (r : ReservationRow) :
    Except SqlError (Database × ReservationRow) :=
  if ¬r.Check then .error .constraint
  else if r.id ∈ s.reservations.map (·.id) then .error .constraint
  else if (r.accountID,r.idempotencyKey) ∈
      s.reservations.map fun x => (x.accountID,x.idempotencyKey) then .error .idempotencyUnique
  else if r.tenantID = s.account.scope.tenantID ∧ r.accountID = s.account.id ∧
      (s.requests r.tenantID r.requestID).isSome then
    .ok ({ s with reservations := s.reservations ++ [r] },r)
  else .error .constraint

def Database.updateReservation (s : Database) (tenantID accountID id : String)
    (cond : ReservationRow → Bool) (set : ReservationRow → ReservationRow) :
    Except SqlError (Database × ReservationRow) :=
  match s.reservations.find? fun r => r.id = id with
  | none => .error .noRows
  | some r =>
      if r.tenantID = tenantID ∧ r.accountID = accountID ∧ cond r then
        if reservationTransition r (set r) ∧ ReservationRow.Check (set r) then
          .ok ({ s with reservations := Relational.update (·.id) id set s.reservations },set r)
        else .error .constraint
      else .error .noRows

/-- The identity column takes the next value of its sequence, which may skip `gap` values. -/
def Database.insertLedger (s : Database) (gap : ℕ) (entry : LedgerRow) :
    Except SqlError (Database × LedgerRow) :=
  let id := s.ledgerSeq + 1 + gap
  let e : LedgerRow := { entry with id }
  if ¬e.Check then .error .constraint
  else if (e.accountID,e.idempotencyKey) ∈
      s.ledger.map fun x => (x.accountID,x.idempotencyKey) then .error .constraint
  else if e.tenantID = s.account.scope.tenantID ∧ e.accountID = s.account.id ∧
      (e.reservationID = "" ∨ ∃ r ∈ s.reservations, r.tenantID = e.tenantID ∧
        r.accountID = e.accountID ∧ r.id = e.reservationID) then
    .ok ({ s with ledger := s.ledger ++ [e], ledgerSeq := id },e)
  else .error .constraint

/-! Decoding. -/

def stored (value : ℤ) : Except SqlError ℕ :=
  match unsignedStoredAmount value with
  | some amount => .ok amount
  | none => .error .failure

def storedOption : Option ℤ → Except SqlError (Option ℕ)
  | some value => some <$> stored value
  | none => .ok none

def scanBudgetAccount (row : AccountRow) : Except SqlError Account := do
  let softLimitMicros ← stored row.softLimitMicros
  let hardLimitMicros ← stored row.hardLimitMicros
  let committedMicros ← stored row.committedMicros
  let reservedMicros ← stored row.reservedMicros
  let account : Account :=
    { row with softLimitMicros, hardLimitMicros, committedMicros, reservedMicros }
  if account.Validate then return account else throw .failure

def scanBudgetReservation (row : ReservationRow) : Except SqlError Reservation := do
  let reservedMicros ← stored row.reservedMicros
  let actualMicros ← storedOption row.actualMicros
  let releasedMicros ← storedOption row.releasedMicros
  let overageMicros ← storedOption row.overageMicros
  let reservation : Reservation :=
    { row with reservedMicros, actualMicros, releasedMicros, overageMicros }
  if reservation.Validate then return reservation else throw .failure

def scanBudgetLedger (row : LedgerRow) : Except SqlError LedgerEntry := do
  let resultCommittedMicros ← stored row.resultCommittedMicros
  let resultReservedMicros ← stored row.resultReservedMicros
  let entry : LedgerEntry := { row with resultCommittedMicros, resultReservedMicros }
  if entry.Validate then return entry else throw .failure

end Budget
