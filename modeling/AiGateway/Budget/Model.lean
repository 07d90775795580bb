import AiGateway.Text.Pattern

/-! Budget accounts, reservations and ledger entries with their validators (`model.go`), and the
advisory limit notices (`limit_notice.go`). A validator is a proposition: `Validate` holds when
the source returns no error. -/
namespace Budget
open Text

/-- Nanoseconds since the zero instant of Go's `time.Time`. -/
abbrev Time := ℤ

def maximumAmount : ℕ := 9007199254740991

def budgetRefPattern (s : String) : Bool := isRef ['.','_',':','/','-'] s && s.length ≤ 128

def currencyPattern (s : String) : Bool :=
  matchesEach (List.replicate 3 fun c => 'A' ≤ c && c ≤ 'Z') s.toList

/-- The length counts bytes; a first or last byte equal to `' '` is a first or last space. -/
def validActor (s : String) : Bool :=
  1 ≤ s.utf8ByteSize && s.utf8ByteSize ≤ 200 && s.toList.head? != some ' ' &&
    s.toList.getLast? != some ' '

def validAmount (value : ℕ) : Bool := 0 < value && value ≤ maximumAmount

def validDelta (value : ℤ) : Bool := -maximumAmount ≤ value && value ≤ maximumAmount

inductive ScopeKind where
  | tenant | project | key | user | session
  deriving DecidableEq

inductive AccountStatus where
  | opened | closed
  deriving DecidableEq

inductive ReservationStatus where
  | pending | settled | cancelled | expired
  deriving DecidableEq

inductive EntryKind where
  | reserve | settle | release | expire | adjustment
  deriving DecidableEq

/-- The stored text of an entry kind. -/
def EntryKind.text : EntryKind → String
  | .reserve => "reserve"
  | .settle => "settle"
  | .release => "release"
  | .expire => "expire"
  | .adjustment => "adjustment"

/-- An absent identifier is the empty string, as after scanning a NULL column. -/
structure Scope where
  kind : ScopeKind
  (tenantID projectID virtualKeyID principalRef sessionRef : String)
  deriving DecidableEq

def Scope.validate (s : Scope) : Bool :=
  isUUID s.tenantID &&
    match s.kind with
    | .tenant => s.projectID == "" && s.virtualKeyID == "" && s.principalRef == "" &&
        s.sessionRef == ""
    | .project => isUUID s.projectID && s.virtualKeyID == "" && s.principalRef == "" &&
        s.sessionRef == ""
    | .key => isUUID s.projectID && isUUID s.virtualKeyID && s.principalRef == "" &&
        s.sessionRef == ""
    | .user => s.projectID == "" && s.virtualKeyID == "" && budgetRefPattern s.principalRef &&
        s.sessionRef == ""
    | .session => s.projectID == "" && s.virtualKeyID == "" && s.principalRef == "" &&
        budgetRefPattern s.sessionRef

/-- An account with its amounts in `amt`: `ℤ` for the `bigint` columns of the stored row, `ℕ` for
the `uint64` fields of the decoded value. -/
structure AccountOf (amt : Type) where
  id : String
  scope : Scope
  currency : String
  (periodStart periodEnd : Time)
  softLimitMicros : amt
  hardLimitMicros : amt
  committedMicros : amt
  reservedMicros : amt
  status : AccountStatus
  version : ℤ
  createdAt : Time
  createdBy : String
  updatedAt : Time
  updatedBy : String
  closedAt : Option Time

abbrev Account := AccountOf ℕ
abbrev AccountRow := AccountOf ℤ

@[mk_iff] structure Account.Validate (a : Account) : Prop where
  id : isUUID a.id
  scope : a.scope.validate
  currency : currencyPattern a.currency
  periodStart : a.periodStart ≠ 0
  periodEnd : a.periodStart < a.periodEnd
  soft : validAmount a.softLimitMicros
  hard : validAmount a.hardLimitMicros
  limits : a.softLimitMicros ≤ a.hardLimitMicros
  committed : a.committedMicros ≤ maximumAmount
  reserved : a.reservedMicros ≤ maximumAmount
  balance : a.committedMicros ≤ maximumAmount - a.reservedMicros
  version : 1 ≤ a.version
  createdAt : a.createdAt ≠ 0
  updatedAt : a.createdAt ≤ a.updatedAt
  createdBy : validActor a.createdBy
  updatedBy : validActor a.updatedBy
  closed : a.status = .closed ↔ a.closedAt.isSome
  closedAt : ∀ t, a.closedAt = some t → a.createdAt ≤ t

instance (a : Account) : Decidable a.Validate :=
  decidable_of_iff' _ (Account.validate_iff a)

structure ReservationOf (amt : Type) where
  (id tenantID accountID requestID idempotencyKey : String)
  status : ReservationStatus
  reservedMicros : amt
  actualMicros : Option amt
  releasedMicros : Option amt
  overageMicros : Option amt
  expiresAt : Time
  version : ℤ
  createdAt : Time
  createdBy : String
  updatedAt : Time
  updatedBy : String
  terminalAt : Option Time
  deriving DecidableEq

abbrev Reservation := ReservationOf ℕ
abbrev ReservationRow := ReservationOf ℤ

/-- The pair (released, overage) of a hold of `reserved` that cost `actual`. -/
def reservationDifference (reserved actual : ℕ) : ℕ × ℕ :=
  if actual ≤ reserved then (reserved - actual,0) else (0,actual - reserved)

/-- The terminal amounts: all present, in range, and equal to the difference of hold and cost. -/
def Reservation.terminalAmounts (r : Reservation) : Prop :=
  match r.actualMicros, r.releasedMicros, r.overageMicros, r.terminalAt with
  | some actual, some released, some overage, some terminal =>
      r.createdAt ≤ terminal ∧ actual ≤ maximumAmount ∧ released ≤ maximumAmount ∧
        overage ≤ maximumAmount ∧ (released,overage) = reservationDifference r.reservedMicros actual
  | _, _, _, _ => False

instance (r : Reservation) : Decidable r.terminalAmounts := by
  unfold Reservation.terminalAmounts
  split <;> infer_instance

/-- No terminal fact is present. -/
def Reservation.pendingAmounts (r : Reservation) : Prop :=
  r.actualMicros = none ∧ r.releasedMicros = none ∧ r.overageMicros = none ∧ r.terminalAt = none

instance (r : Reservation) : Decidable r.pendingAmounts := by
  unfold Reservation.pendingAmounts
  infer_instance

@[mk_iff] structure Reservation.Validate (r : Reservation) : Prop where
  id : isUUID r.id
  tenantID : isUUID r.tenantID
  accountID : isUUID r.accountID
  requestID : budgetRefPattern r.requestID
  idempotencyKey : budgetRefPattern r.idempotencyKey
  reserved : validAmount r.reservedMicros
  createdAt : r.createdAt ≠ 0
  expiresAt : r.createdAt < r.expiresAt
  updatedAt : r.createdAt ≤ r.updatedAt
  version : 1 ≤ r.version
  createdBy : validActor r.createdBy
  updatedBy : validActor r.updatedBy
  amounts : if r.status = .pending then r.pendingAmounts else r.terminalAmounts

instance (r : Reservation) : Decidable r.Validate :=
  decidable_of_iff' _ (Reservation.validate_iff r)

/-- An absent reservation is the empty string. -/
structure LedgerEntryOf (amt : Type) where
  id : ℤ
  (tenantID accountID reservationID : String)
  kind : EntryKind
  idempotencyKey : String
  (committedDeltaMicros reservedDeltaMicros : ℤ)
  resultCommittedMicros : amt
  resultReservedMicros : amt
  occurredAt : Time
  createdBy : String

abbrev LedgerEntry := LedgerEntryOf ℕ
abbrev LedgerRow := LedgerEntryOf ℤ

/-- The deltas each kind of entry may carry. -/
def LedgerEntry.shape (e : LedgerEntry) : Prop :=
  match e.kind with
  | .reserve => isUUID e.reservationID ∧ e.committedDeltaMicros = 0 ∧
      0 < e.reservedDeltaMicros
  | .settle => isUUID e.reservationID ∧ 0 ≤ e.committedDeltaMicros ∧
      e.reservedDeltaMicros < 0
  | .release | .expire => isUUID e.reservationID ∧ e.committedDeltaMicros = 0 ∧
      e.reservedDeltaMicros < 0
  | .adjustment => e.reservationID = ""

instance (e : LedgerEntry) : Decidable e.shape := by
  unfold LedgerEntry.shape
  split <;> infer_instance

@[mk_iff] structure LedgerEntry.Validate (e : LedgerEntry) : Prop where
  id : 1 ≤ e.id
  tenantID : isUUID e.tenantID
  accountID : isUUID e.accountID
  idempotencyKey : budgetRefPattern e.idempotencyKey
  occurredAt : e.occurredAt ≠ 0
  createdBy : validActor e.createdBy
  committedDelta : validDelta e.committedDeltaMicros
  reservedDelta : validDelta e.reservedDeltaMicros
  deltas : ¬(e.committedDeltaMicros = 0 ∧ e.reservedDeltaMicros = 0)
  committed : e.resultCommittedMicros ≤ maximumAmount
  reserved : e.resultReservedMicros ≤ maximumAmount
  balance : e.resultCommittedMicros ≤ maximumAmount - e.resultReservedMicros
  shape : e.shape

instance (e : LedgerEntry) : Decidable e.Validate :=
  decidable_of_iff' _ (LedgerEntry.validate_iff e)

/-! Limit notices. -/

inductive LimitLevel where
  | soft | hard
  deriving DecidableEq

/-- Here `none` is the empty hint; `other` is a text outside the finite list. -/
inductive DegradationHint where
  | none | useLowerCostModel | reduceMaxOutput | waitForReset | other (text : String)
  deriving DecidableEq

def validDegradationHint : DegradationHint → Bool
  | .other _ => false
  | _ => true

structure LimitNotice where
  level : LimitLevel
  remainingMicros : ℕ
  resetAt : Time
  degradationHint : DegradationHint
  deriving DecidableEq

def LimitNotice.validate (n : LimitNotice) : Bool :=
  n.remainingMicros ≤ maximumAmount && n.resetAt != 0 && validDegradationHint n.degradationHint

end Budget
