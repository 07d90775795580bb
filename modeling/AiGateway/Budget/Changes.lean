import AiGateway.Budget.Rows
import AiGateway.Budget.Transactions

/-! What a committed attempt does to the rows. A reservation `Opens` a hold; a settlement and an
expiration `Close` one. The statements between the account `UPDATE` and the commit succeed only as
one of these two changes. -/
namespace Budget
open Machine Option

/-- The values a committed attempt decoded are valid. -/
structure Commit.Valid (c : Commit) : Prop where
  account : c.account.Validate
  reservation : c.reservation.Validate
  entry : c.entry.Validate

def Database.afterOpen (s : Database) (c : Commit) : Database :=
  { s with
    account := c.account.row, reservations := s.reservations ++ [c.reservation.row]
    ledger := s.ledger ++ [c.entry.row], ledgerSeq := c.entry.id }

def Database.afterClose (s : Database) (c : Commit)
    (set : ReservationRow → ReservationRow) : Database :=
  { s with
    account := c.account.row
    reservations := Relational.update (·.id) c.reservation.id set s.reservations
    ledger := s.ledger ++ [c.entry.row], ledgerSeq := c.entry.id }

/-- The commit `c` admits `input` as a new hold. -/
structure Opens (input : ReserveInput) (s : Database) (c : Commit) : Prop where
  valid : c.Valid
  tenantID : s.account.scope.tenantID = input.tenantID
  accountID : s.account.id = input.accountID
  fits : s.account.committedMicros + s.account.reservedMicros + input.amountMicros ≤
    s.account.hardLimitMicros
  account : c.account.row = { s.account with
    reservedMicros := s.account.reservedMicros + input.amountMicros
    version := s.account.version + 1, updatedAt := c.account.updatedAt, updatedBy := input.actor }
  updatedAt : s.account.updatedAt ≤ c.account.updatedAt
  reservation : c.reservation.row =
    reserveRow input c.reservation.id input.amountMicros c.account.updatedAt
  entry : c.entry.row = { ledgerRow input.tenantID input.accountID c.reservation.id .reserve
    input.idempotencyKey 0 input.amountMicros c.account input.actor with id := c.entry.id }
  freshID : c.reservation.id ∉ s.reservations.map (·.id)
  freshKey : (input.accountID,input.idempotencyKey) ∉
    s.reservations.map fun x => (x.accountID,x.idempotencyKey)
  freshEntry : (input.accountID,input.idempotencyKey) ∉
    s.ledger.map fun x => (x.accountID,x.idempotencyKey)
  request : (s.requests input.tenantID input.requestID).isSome
  ledgerSeq : s.ledgerSeq < c.entry.id

/-- How a hold ends: the status, the cost, and the kind of the ledger entry. -/
structure Ending where
  status : ReservationStatus
  actual : ℕ
  kind : EntryKind
  actor : String

/-- The terminal columns of the hold `old`. -/
def Ending.set (f : Ending) (old : ReservationRow) (eventTime : Time) :
    ReservationRow → ReservationRow :=
  terminalSet f.status f.actual (max (old.reservedMicros - f.actual) 0)
    (max (f.actual - old.reservedMicros) 0) eventTime f.actor

/-- The commit `c` ends the pending hold `old` as `f` says. -/
structure Closes (f : Ending) (s : Database) (old : ReservationRow) (c : Commit) : Prop where
  valid : c.Valid
  mem : old ∈ s.reservations
  pending : old.status = .pending
  tenantID : s.account.scope.tenantID = old.tenantID
  accountID : s.account.id = old.accountID
  covered : old.reservedMicros ≤ s.account.reservedMicros
  account : c.account.row = { s.account with
    committedMicros := s.account.committedMicros + f.actual
    reservedMicros := s.account.reservedMicros - old.reservedMicros
    version := s.account.version + 1, updatedAt := c.account.updatedAt, updatedBy := f.actor }
  updatedAt : s.account.updatedAt ≤ c.account.updatedAt
  reservation : c.reservation.row = f.set old c.account.updatedAt old
  entry : c.entry.row = { ledgerRow old.tenantID old.accountID old.id f.kind
    (settlementLedgerKey f.kind old.id) f.actual (-old.reservedMicros) c.account f.actor with
      id := c.entry.id }
  freshEntry : (old.accountID,settlementLedgerKey f.kind old.id) ∉
    s.ledger.map fun x => (x.accountID,x.idempotencyKey)
  ledgerSeq : s.ledgerSeq < c.entry.id

/-- The ending a settlement asks for. -/
def SettlementInput.ending (input : SettlementInput) (actual : ℕ) : Ending where
  status := settlementReservationStatus input.outcome
  actual := actual
  kind := settlementEntryKind input.outcome actual
  actor := input.actor

def expiration (actor : String) : Ending := ⟨.expired,0,.expire,actor⟩

/-! Inverting the clauses of the account updates. -/

variable {amount version : ℤ} {e : Oracle} {a : AccountRow}

theorem reserveWhere_eq_true (h : reserveWhere amount version e a = some true) :
    a.committedMicros + a.reservedMicros + amount ≤ a.hardLimitMicros := by
  simp only [reserveWhere,bind_eq_bind,bind_eq_some_iff,pure_def,
    some.injEq,Bool.and_eq_true,decide_eq_true_eq] at h
  obtain ⟨spent,hs,room,hr,-,hle⟩ := h
  have := int64_eq_some hs
  have := int64_eq_some hr
  omega

variable {actor : String} {row : AccountRow}

theorem reserveSet_eq_some (h : reserveSet amount actor e a = some row) :
    row = { a with
      reservedMicros := a.reservedMicros + amount, version := a.version + 1
      updatedAt := max a.updatedAt e.stamp, updatedBy := actor } := by
  simp only [reserveSet,bind_eq_bind,bind_eq_some_iff,pure_def,some.injEq] at h
  obtain ⟨reserved,hr,rfl⟩ := h
  rw [int64_eq_some hr]

variable {reserved : ℤ}

theorem settleWhere_eq_true {actual : ℤ} (h : settleWhere actual reserved version a = some true) :
    reserved ≤ a.reservedMicros := by
  simp only [settleWhere,bind_eq_bind,bind_eq_some_iff,pure_def,
    some.injEq,Bool.and_eq_true,decide_eq_true_eq] at h
  obtain ⟨-,-,-,-,-,-,-,-,⟨⟨-,hle⟩,-⟩,-⟩ := h
  exact hle

theorem settleSet_eq_some {actual : ℤ} (h : settleSet actual reserved actor e a = some row) :
    row = { a with
      committedMicros := a.committedMicros + actual, reservedMicros := a.reservedMicros - reserved
      version := a.version + 1, updatedAt := max a.updatedAt e.stamp, updatedBy := actor } := by
  simp only [settleSet,bind_eq_bind,bind_eq_some_iff,pure_def,some.injEq] at h
  obtain ⟨committed,hc,left,hr,rfl⟩ := h
  rw [int64_eq_some hc,int64_eq_some hr]

theorem reapWhere_eq_true (h : reapWhere reserved version a = some true) :
    reserved ≤ a.reservedMicros := by
  simp only [reapWhere,some.injEq,Bool.and_eq_true,decide_eq_true_eq] at h
  exact h.2

theorem reapSet_eq_some (h : reapSet reserved actor e a = some row) :
    row = { a with
      reservedMicros := a.reservedMicros - reserved, version := a.version + 1
      updatedAt := max a.updatedAt e.stamp, updatedBy := actor } := by
  simp only [reapSet,bind_eq_bind,bind_eq_some_iff,pure_def,some.injEq] at h
  obtain ⟨left,hr,rfl⟩ := h
  rw [int64_eq_some hr]

/-! Inverting the bodies. -/

variable {s t : Database}

theorem reserveBody_eq_ok {input : ReserveInput} {id : String} {c : Commit}
    (hamt : amount = input.amountMicros) (h : reserveBody input id amount version e s = .ok (t,c)) :
    Opens input s c ∧ t = s.afterOpen c := by
  subst hamt
  simp only [reserveBody,throw_bind,ite_throw_eq_ok,bind_eq_ok,mapError_eq_ok,Prod.exists,
    pure_eq_ok] at h
  obtain ⟨s₁,row₁,h₁,a,ha,hexp,s₂,row₂,h₂,r,hr,s₃,row₃,h₃,l,hl,heq⟩ := h
  cases heq
  obtain ⟨⟨ht,hid⟩,hw,hset,-,rfl⟩ := updateAccount_eq_ok.mp h₁
  obtain ⟨-,hfresh,hkey,⟨-,-,hreq⟩,rfl,rfl⟩ := insertReservation_eq_ok.mp h₂
  obtain ⟨hrow,-,hentry,-,rfl⟩ := insertLedger_eq_ok.mp h₃
  obtain ⟨rfl,hav⟩ := scanBudgetAccount_eq_ok.mp ha
  obtain ⟨hrr,hrv⟩ := scanBudgetReservation_eq_ok.mp hr
  obtain ⟨rfl,hlv⟩ := scanBudgetLedger_eq_ok.mp hl
  have hrid : id = r.id := congrArg (·.id) hrr
  subst hrid
  have hacc := reserveSet_eq_some hset
  have htime : a.updatedAt = max s.account.updatedAt e.stamp := congrArg (·.updatedAt) hacc
  have hlid : l.id = s.ledgerSeq + 1 + e.gap := congrArg (·.id) hrow
  refine ⟨⟨⟨hav,hrv,hlv⟩,ht,hid,reserveWhere_eq_true hw,?_,?_,hrr.symm,?_,hfresh,
    hkey,?_,hreq,?_⟩,?_⟩
  · rw [htime]
    exact hacc
  · rw [htime]
    exact le_max_left _ _
  · rw [hlid]
    exact hrow
  · rw [hrow] at hentry
    exact hentry
  · rw [hlid]
    omega
  · rw [hrr]
    rfl

theorem signedStoredAmount_difference {reserved actual : ℕ} (hr : reserved ≤ maximumAmount)
    (ha : actual ≤ maximumAmount) :
    signedStoredAmount (reservationDifference reserved actual).1 = max ((reserved : ℤ) - actual) 0 ∧
      signedStoredAmount (reservationDifference reserved actual).2 =
        max ((actual : ℤ) - reserved) 0 := by
  unfold reservationDifference
  split_ifs
  · rw [signedStoredAmount_eq (by omega),signedStoredAmount_eq (by omega)]
    omega
  · rw [signedStoredAmount_eq (by omega),signedStoredAmount_eq (by omega)]
    omega

/-- The statements shared by settlement and expiration, for a hold of `reserved`. -/
theorem closes_of_statements {f : Ending} {s₁ s₂ s₃ : Database}
    {tenantID accountID id : String} {cond : AccountRow → Option Bool}
    {set : AccountRow → Option AccountRow} {cond' : ReservationRow → Bool}
    {row₁ : AccountRow} {row₂ : ReservationRow} {row₃ : LedgerRow} {a : Account}
    {r : Reservation} {l : LedgerEntry}
    (hset : ∀ row, set s.account = some row → row = { s.account with
      committedMicros := s.account.committedMicros + f.actual
      reservedMicros := s.account.reservedMicros - reserved, version := s.account.version + 1
      updatedAt := max s.account.updatedAt e.stamp, updatedBy := f.actor })
    (hcov : cond s.account = some true → reserved ≤ s.account.reservedMicros)
    (hpend : ∀ r, cond' r → r.status = .pending)
    (hsame : ∀ r ∈ s.reservations, r.id = id → r.reservedMicros = reserved)
    (h₁ : s.updateAccount tenantID accountID cond set = .ok (s₁,row₁))
    (ha : scanBudgetAccount row₁ = .ok a)
    (h₂ : s₁.updateReservation tenantID accountID id cond' (terminalSet f.status f.actual
      (max (reserved - f.actual) 0) (max (f.actual - reserved) 0) a.updatedAt f.actor) =
        .ok (s₂,row₂))
    (hr : scanBudgetReservation row₂ = .ok r)
    (h₃ : s₂.insertLedger e.gap (ledgerRow tenantID accountID id f.kind
      (settlementLedgerKey f.kind id) f.actual (-reserved) a f.actor) = .ok (s₃,row₃))
    (hl : scanBudgetLedger row₃ = .ok l) :
    ∃ old, old.id = id ∧ Closes f s old ⟨a,r,l⟩ ∧
      s₃ = s.afterClose ⟨a,r,l⟩ (f.set old a.updatedAt) := by
  obtain ⟨⟨ht,hid⟩,hw,hs,-,rfl⟩ := updateAccount_eq_ok.mp h₁
  obtain ⟨old,hfind,⟨hot,hoa,hcond⟩,-,rfl,rfl⟩ := updateReservation_eq_ok.mp h₂
  obtain ⟨hrow,-,hentry,-,rfl⟩ := insertLedger_eq_ok.mp h₃
  obtain ⟨rfl,hav⟩ := scanBudgetAccount_eq_ok.mp ha
  obtain ⟨hrr,hrv⟩ := scanBudgetReservation_eq_ok.mp hr
  obtain ⟨rfl,hlv⟩ := scanBudgetLedger_eq_ok.mp hl
  have hmem := List.mem_of_find?_eq_some hfind
  have holdid : old.id = id := by simpa using List.find?_some hfind
  have hresv := hsame old hmem holdid
  subst holdid hresv hot hoa
  have hacc := hset _ hs
  have hrid : old.id = r.id := congrArg (·.id) hrr
  have htime : a.updatedAt = max s.account.updatedAt e.stamp := congrArg (·.updatedAt) hacc
  have hlid : l.id = s.ledgerSeq + 1 + e.gap := congrArg (·.id) hrow
  refine ⟨old,rfl,⟨⟨hav,hrv,hlv⟩,hmem,hpend old hcond,ht,hid,hcov hw,?_,?_,hrr.symm,?_,?_,?_⟩,?_⟩
  · rw [htime]
    exact hacc
  · rw [htime]
    exact le_max_left _ _
  · rw [hlid]
    exact hrow
  · rw [hrow] at hentry
    exact hentry
  · rw [hlid]
    omega
  · simp only [Database.afterClose,← hrid]
    rfl

variable {reservation : Reservation}

section
variable (hresv : reservation.reservedMicros ≤ maximumAmount)
include hresv

theorem settleBody_eq_ok {input : SettlementInput} {actual : ℕ} {c : Commit}
    (hactual : actual ≤ maximumAmount)
    (hsame : ∀ r ∈ s.reservations, r.id = input.reservationID →
      r.reservedMicros = reservation.reservedMicros)
    (h : settleBody input reservation actual actual version e s = .ok (t,c)) :
    ∃ old, old.id = input.reservationID ∧ Closes (input.ending actual) s old c ∧
      t = s.afterClose c ((input.ending actual).set old c.account.updatedAt) := by
  obtain ⟨hrel,hover⟩ := signedStoredAmount_difference hresv hactual
  simp only [settleBody,bind_eq_ok,mapError_eq_ok,Prod.exists,pure_eq_ok,hrel,hover,
    signedStoredAmount_eq hresv] at h
  obtain ⟨s₁,row₁,h₁,a,ha,s₂,row₂,h₂,r,hr,s₃,row₃,h₃,l,hl,heq⟩ := h
  cases heq
  refine closes_of_statements (f := input.ending actual) (fun row hrow => settleSet_eq_some hrow)
    settleWhere_eq_true ?_ hsame h₁ ha h₂ hr h₃ hl
  intro x hx
  simp only [Bool.and_eq_true,decide_eq_true_eq] at hx
  exact hx.1

theorem reapBody_eq_ok {attempt : ℕ} {event : ExpirationEvent}
    (hsame : ∀ r ∈ s.reservations, r.id = reservation.id →
      r.reservedMicros = reservation.reservedMicros)
    (h : reapBody actor reservation version attempt e s = .ok (t,event)) :
    ∃ old c, old.id = reservation.id ∧ Closes (expiration actor) s old c ∧
      t = s.afterClose c ((expiration actor).set old c.account.updatedAt) ∧
      buildExpirationEvent c.account c.reservation c.entry attempt = .ok event := by
  simp only [reapBody,bind_eq_ok,mapError_eq_ok,Prod.exists,pure_eq_ok,
    signedStoredAmount_eq hresv] at h
  obtain ⟨s₁,row₁,h₁,a,ha,s₂,row₂,h₂,r,hr,s₃,row₃,h₃,l,hl,event',hev,heq⟩ := h
  cases heq
  have hset : ∀ row, reapSet reservation.reservedMicros actor e s.account = some row →
      row = { s.account with
        committedMicros := s.account.committedMicros + (expiration actor).actual
        reservedMicros := s.account.reservedMicros - reservation.reservedMicros
        version := s.account.version + 1, updatedAt := max s.account.updatedAt e.stamp
        updatedBy := (expiration actor).actor } := by
    intro row hrow
    simp [reapSet_eq_some hrow,expiration]
  have hzero : terminalSet .expired 0 reservation.reservedMicros 0 a.updatedAt actor =
      terminalSet (expiration actor).status (expiration actor).actual
        (max ((reservation.reservedMicros : ℤ) - (expiration actor).actual) 0)
        (max ((expiration actor).actual - (reservation.reservedMicros : ℤ)) 0) a.updatedAt
        (expiration actor).actor := by
    simp [expiration]
  rw [hzero] at h₂
  have hcloses := closes_of_statements (f := expiration actor) hset reapWhere_eq_true
    (fun x hx => ?_) hsame h₁ ha h₂ hr h₃ hl
  · obtain ⟨old,hold,hc,ht⟩ := hcloses
    exact ⟨old,_,hold,hc,ht,hev⟩
  · simp only [Bool.and_eq_true,decide_eq_true_eq] at hx
    exact hx.1.1

end
end Budget
