import AiGateway.Budget.Schema
import AiGateway.Machine.Control

/-! Decoding inverts encoding: a row scans exactly when it is the encoding of a valid value. A
valid value passes every CHECK constraint, so a constraint can only fail on uniqueness, on a
reference or on a transition. -/
namespace Budget
open Text Machine ReservationRow Database Option

/-- The stored row of a decoded value. -/
def AccountOf.row (a : Account) : AccountRow :=
  { a with
    softLimitMicros := a.softLimitMicros, hardLimitMicros := a.hardLimitMicros
    committedMicros := a.committedMicros, reservedMicros := a.reservedMicros }

@[inherit_doc AccountOf.row]
def ReservationOf.row (r : Reservation) : ReservationRow :=
  { r with
    reservedMicros := r.reservedMicros, actualMicros := r.actualMicros.map Nat.cast
    releasedMicros := r.releasedMicros.map Nat.cast
    overageMicros := r.overageMicros.map Nat.cast }

open ReservationOf

@[inherit_doc AccountOf.row]
def LedgerEntryOf.row (e : LedgerEntry) : LedgerRow :=
  { e with
    resultCommittedMicros := e.resultCommittedMicros
    resultReservedMicros := e.resultReservedMicros }

variable {r : Reservation} {accountID tenantID : String} {e : LedgerEntry} {a : Account} {gap : ℕ}

theorem ReservationOf.row_injective {r' : Reservation} (h : r.row = r'.row) : r = r' := by
  have hcast := map_injective (Nat.cast_injective (R := ℤ))
  obtain ⟨⟩ := r
  obtain ⟨⟩ := r'
  simp only [row,mk.injEq,Nat.cast_inj,hcast.eq_iff] at h ⊢
  exact h

variable {n : ℕ}

theorem signedExactAmount_eq (h : n ≤ maximumAmount) : signedExactAmount n = some (n : ℤ) := by
  simp [signedExactAmount,h]

theorem signedStoredAmount_eq (h : n ≤ maximumAmount) : signedStoredAmount n = n := by
  simp [signedStoredAmount,signedExactAmount_eq h]

theorem signedExactAmount_eq_some {z : ℤ} (h : signedExactAmount n = some z) :
    z = n ∧ n ≤ maximumAmount := by
  unfold signedExactAmount at h
  split_ifs at h with hn
  cases h
  exact ⟨rfl,by omega⟩

theorem stored_eq_ok {v : ℤ} : stored v = .ok n ↔ v = n ∧ n ≤ maximumAmount := by
  unfold stored unsignedStoredAmount
  split_ifs with h
  · simp only [false_iff]
    omega
  · simp only [Except.ok.injEq]
    omega

theorem storedOption_eq_ok {v : Option ℤ} {n : Option ℕ} :
    storedOption v = .ok n ↔ v = n.map Nat.cast ∧ ∀ x ∈ n, x ≤ maximumAmount := by
  cases v with
  | none => cases n <;> simp [storedOption]
  | some v =>
    cases hv : stored v with
    | error e =>
      simp only [storedOption,hv,Functor.map,Except.map,reduceCtorEq,false_iff]
      rintro ⟨h,hle⟩
      cases n with
      | none => simp at h
      | some n =>
        have := stored_eq_ok.mpr ⟨some.inj h,hle n rfl⟩
        simp [hv] at this
    | ok m =>
      obtain ⟨rfl,hm⟩ := stored_eq_ok.mp hv
      cases n with
      | none => simp [storedOption,hv,Functor.map,Except.map]
      | some n =>
        simp only [storedOption,hv,Functor.map,Except.map,Except.ok.injEq,some.injEq,
          map_some,Nat.cast_inj,mem_def,forall_eq']
        constructor
        · rintro rfl
          exact ⟨rfl,hm⟩
        · exact fun h => h.1

theorem validAmount_iff : validAmount n ↔ 1 ≤ n ∧ n ≤ maximumAmount := by
  simp [validAmount,Nat.one_le_iff_ne_zero,Nat.pos_iff_ne_zero]

theorem validDelta_iff {v : ℤ} : validDelta v ↔ -(maximumAmount : ℤ) ≤ v ∧ v ≤ maximumAmount := by
  simp [validDelta]

theorem scanBudgetAccount_eq_ok {row : AccountRow} :
    scanBudgetAccount row = .ok a ↔ row = a.row ∧ a.Validate := by
  simp only [scanBudgetAccount,bind_eq_ok,stored_eq_ok,ite_pure_eq_ok]
  constructor
  · rintro ⟨soft,⟨hs,-⟩,hard,⟨hh,-⟩,committed,⟨hc,-⟩,reserved,⟨hr,-⟩,hv,rfl⟩
    refine ⟨?_,hv⟩
    cases row
    simp_all [AccountOf.row]
  · rintro ⟨rfl,hv⟩
    exact ⟨_,⟨rfl,(validAmount_iff.mp hv.soft).2⟩,_,⟨rfl,(validAmount_iff.mp hv.hard).2⟩,
      _,⟨rfl,hv.committed⟩,_,⟨rfl,hv.reserved⟩,hv,rfl⟩

theorem Reservation.Validate.terminal (h : r.Validate) (hp : r.status ≠ .pending) :
    ∃ actual released overage time, r.actualMicros = some actual ∧
      r.releasedMicros = some released ∧ r.overageMicros = some overage ∧
      r.terminalAt = some time ∧ r.createdAt ≤ time ∧ actual ≤ maximumAmount ∧
      released ≤ maximumAmount ∧ overage ≤ maximumAmount ∧
      (released,overage) = reservationDifference r.reservedMicros actual := by
  have ha := h.amounts
  rw [if_neg hp] at ha
  unfold Reservation.terminalAmounts at ha
  split at ha
  · rename_i actual released overage time h₁ h₂ h₃ h₄
    exact ⟨actual,released,overage,time,h₁,h₂,h₃,h₄,ha⟩
  · exact ha.elim

theorem Reservation.Validate.pending (h : r.Validate) (hp : r.status = .pending) :
    r.pendingAmounts := by
  have ha := h.amounts
  rwa [if_pos hp] at ha

theorem Reservation.Validate.amounts_le (h : r.Validate) :
    (∀ x ∈ r.actualMicros, x ≤ maximumAmount) ∧ (∀ x ∈ r.releasedMicros, x ≤ maximumAmount) ∧
      ∀ x ∈ r.overageMicros, x ≤ maximumAmount := by
  by_cases hp : r.status = .pending
  · obtain ⟨h₁,h₂,h₃,-⟩ := h.pending hp
    simp [h₁,h₂,h₃]
  · obtain ⟨actual,released,overage,time,h₁,h₂,h₃,-,-,ha,hr,ho,-⟩ := h.terminal hp
    simp [h₁,h₂,h₃,ha,hr,ho]

variable {row : ReservationRow}

theorem scanBudgetReservation_eq_ok :
    scanBudgetReservation row = .ok r ↔ row = r.row ∧ r.Validate := by
  simp only [scanBudgetReservation,bind_eq_ok,stored_eq_ok,storedOption_eq_ok,ite_pure_eq_ok]
  constructor
  · rintro ⟨reserved,⟨hs,-⟩,actual,⟨ha,-⟩,released,⟨hl,-⟩,overage,⟨ho,-⟩,hv,rfl⟩
    refine ⟨?_,hv⟩
    cases row
    simp_all [row]
  · rintro ⟨rfl,hv⟩
    obtain ⟨ha,hl,ho⟩ := hv.amounts_le
    exact ⟨_,⟨rfl,(validAmount_iff.mp hv.reserved).2⟩,_,⟨rfl,ha⟩,_,⟨rfl,hl⟩,_,⟨rfl,ho⟩,hv,rfl⟩

theorem scanBudgetLedger_eq_ok {row : LedgerRow} :
    scanBudgetLedger row = .ok e ↔ row = e.row ∧ e.Validate := by
  simp only [scanBudgetLedger,bind_eq_ok,stored_eq_ok,ite_pure_eq_ok]
  constructor
  · rintro ⟨committed,⟨hc,-⟩,reserved,⟨hr,-⟩,hv,rfl⟩
    refine ⟨?_,hv⟩
    cases row
    simp_all [LedgerEntryOf.row]
  · rintro ⟨rfl,hv⟩
    exact ⟨_,⟨rfl,hv.committed⟩,_,⟨rfl,hv.reserved⟩,hv,rfl⟩

/-! Valid values pass the CHECK constraints. -/

theorem actorFormat_of_validActor {s : String} (h : validActor s) : actorFormat s := by
  simp only [validActor,Bool.and_eq_true,decide_eq_true_eq] at h
  obtain ⟨⟨⟨hpos,hle⟩,hhead⟩,hlast⟩ := h
  have hlen := length_le_utf8ByteSize s
  have hne : s ≠ "" := by
    rintro rfl
    simp at hpos
  have hlen' : 1 ≤ s.length := by
    rw [Nat.one_le_iff_ne_zero]
    simpa using hne
  simp only [actorFormat,hhead,hlast,Bool.true_and,Bool.and_eq_true,decide_eq_true_eq]
  omega

theorem ne_empty_of_isUUID {s : String} (h : isUUID s) : s ≠ "" := by
  rintro rfl
  simpa using isUUID_length h

theorem ne_empty_of_budgetRefPattern {s : String} (h : budgetRefPattern s) : s ≠ "" := by
  rintro rfl
  simp [budgetRefPattern,isRef] at h

theorem Scope.shapeValid_of_validate {s : Scope} (h : s.validate) :
    s.shapeValid ∧ (s.principalRef = "" ∨ budgetRefPattern s.principalRef) ∧
      (s.sessionRef = "" ∨ budgetRefPattern s.sessionRef) := by
  unfold Scope.validate at h
  unfold Scope.shapeValid
  cases hk : s.kind <;> simp only [hk,Bool.and_eq_true,beq_iff_eq,bne_iff_ne] at h ⊢
  case tenant => simp [h]
  case project => simp [h,ne_empty_of_isUUID h.2.1.1.1]
  case key => simp [h,ne_empty_of_isUUID h.2.1.1.1,ne_empty_of_isUUID h.2.1.1.2]
  case user => simp [h,ne_empty_of_budgetRefPattern h.2.1.2]
  case session => simp [h,ne_empty_of_budgetRefPattern h.2.2]

theorem Account.Validate.check (h : a.Validate) : AccountRow.Check a.row := by
  obtain ⟨hshape,hprincipal,hsess⟩ := Scope.shapeValid_of_validate h.scope
  have hsoft := validAmount_iff.mp h.soft
  have hhard := validAmount_iff.mp h.hard
  have hle := h.limits
  have hc := h.committed
  have hr := h.reserved
  have hb := h.balance
  have hv := h.version
  constructor
  case scopeShape => exact hshape
  case principalRef => exact hprincipal
  case sessionRef => exact hsess
  case currency => exact h.currency
  case period => exact h.periodEnd
  case createdBy => exact actorFormat_of_validActor h.createdBy
  case updatedBy => exact actorFormat_of_validActor h.updatedBy
  case updateTime => exact h.updatedAt
  case closed => exact h.closed
  case closedAt => exact h.closedAt
  all_goals
    simp only [between,AccountOf.row]
    omega

theorem Reservation.Validate.check (h : r.Validate) : Check r.row := by
  have hr := validAmount_iff.mp h.reserved
  have hv := h.version
  constructor
  case idempotencyKey => exact h.idempotencyKey
  case expiry => exact h.expiresAt
  case createdBy => exact actorFormat_of_validActor h.createdBy
  case updatedBy => exact actorFormat_of_validActor h.updatedBy
  case updateTime => exact h.updatedAt
  case terminalAmounts =>
    unfold terminalAmountsValid
    by_cases hp : r.status = .pending
    · obtain ⟨h₁,h₂,h₃,h₄⟩ := h.pending hp
      simp [row,h₁,h₂,h₃,h₄,hp]
    · obtain ⟨actual,released,overage,time,h₁,h₂,h₃,h₄,ht,ha,hl,ho,hd⟩ := h.terminal hp
      simp only [row,h₁,h₂,h₃,h₄,map_some]
      unfold reservationDifference at hd
      split_ifs at hd <;> cases hd <;> simp only [between] <;>
        exact ⟨hp,by omega,by omega,by omega,by omega,by omega,ht⟩
  all_goals
    simp only [between,row]
    omega

theorem LedgerEntry.Validate.check (h : e.Validate) : LedgerRow.Check e.row := by
  have hcd := validDelta_iff.mp h.committedDelta
  have hrd := validDelta_iff.mp h.reservedDelta
  have hd := h.deltas
  have hc := h.committed
  have hr := h.reserved
  have hb := h.balance
  constructor
  case idempotencyKey => exact h.idempotencyKey
  case createdBy => exact actorFormat_of_validActor h.createdBy
  case shape =>
    have hs := h.shape
    unfold LedgerEntry.shape at hs
    unfold LedgerRow.shapeValid
    cases hk : e.kind <;> simp only [hk,LedgerEntryOf.row] at hs ⊢
    case adjustment => exact hs
    all_goals exact ⟨ne_empty_of_isUUID hs.1,hs.2⟩
  all_goals
    simp only [between,LedgerEntryOf.row]
    omega

/-! When the statements succeed. -/

variable {s t : Database}

theorem updateAccount_eq_ok {cond : AccountRow → Option Bool} {set : AccountRow → Option AccountRow}
    {row : AccountRow} : s.updateAccount tenantID accountID cond set = .ok (t,row) ↔
      (s.account.scope.tenantID = tenantID ∧ s.account.id = accountID) ∧
        cond s.account = some true ∧ set s.account = some row ∧
        (accountTransition s.account row ∧ AccountRow.Check row) ∧
        t = { s with account := row } := by
  unfold updateAccount
  constructor
  · intro h
    split_ifs at h with how
    split at h
    · rename_i new hc hs
      split_ifs at h with hok
      cases h
      exact ⟨how,hc,hs,hok,rfl⟩
    · cases h
    · cases h
  · rintro ⟨how,hc,hs,hok,rfl⟩
    simp [how,hc,hs,hok]

theorem insertReservation_eq_ok {r : ReservationRow} : s.insertReservation r = .ok (t,row) ↔
      Check r ∧ r.id ∉ s.reservations.map (·.id) ∧ (r.accountID,r.idempotencyKey) ∉
          s.reservations.map (fun x => (x.accountID,x.idempotencyKey)) ∧
        (r.tenantID = s.account.scope.tenantID ∧ r.accountID = s.account.id ∧
          (s.requests r.tenantID r.requestID).isSome) ∧
        t = { s with reservations := s.reservations ++ [r] } ∧ row = r := by
  unfold insertReservation
  constructor
  · intro h
    split_ifs at h with hc hid hkey hfk
    cases h
    exact ⟨hc,hid,hkey,hfk,rfl,rfl⟩
  · rintro ⟨hc,hid,hkey,hfk,rfl,rfl⟩
    rw [if_neg (not_not.mpr hc),if_neg hid,if_neg hkey,if_pos hfk]

theorem updateReservation_eq_ok {id : String} {cond : ReservationRow → Bool}
    {set : ReservationRow → ReservationRow} :
    s.updateReservation tenantID accountID id cond set = .ok (t,row) ↔
      ∃ r, s.reservations.find? (fun r => r.id = id) = some r ∧
        (r.tenantID = tenantID ∧ r.accountID = accountID ∧ cond r) ∧
        (reservationTransition r (set r) ∧ Check (set r)) ∧
        t = { s with reservations := Relational.update (·.id) id set s.reservations } ∧
        row = set r := by
  unfold updateReservation
  constructor
  · intro h
    split at h
    · cases h
    · rename_i r hr
      split_ifs at h with hw hok
      cases h
      exact ⟨r,hr,hw,hok,rfl,rfl⟩
  · rintro ⟨r,hr,hw,hok,rfl,rfl⟩
    simp [hr,hw,hok]

theorem insertLedger_eq_ok {entry row : LedgerRow} : s.insertLedger gap entry = .ok (t,row) ↔
      row = { entry with id := s.ledgerSeq + 1 + gap } ∧ LedgerRow.Check row ∧
        (row.accountID,row.idempotencyKey) ∉
          s.ledger.map (fun x => (x.accountID,x.idempotencyKey)) ∧
        (row.tenantID = s.account.scope.tenantID ∧ row.accountID = s.account.id ∧
          (row.reservationID = "" ∨ ∃ r ∈ s.reservations, r.tenantID = row.tenantID ∧
            r.accountID = row.accountID ∧ r.id = row.reservationID)) ∧
        t = { s with ledger := s.ledger ++ [row], ledgerSeq := row.id } := by
  unfold insertLedger
  constructor
  · intro h
    simp only at h
    split_ifs at h with hc hkey hfk
    cases h
    exact ⟨rfl,hc,hkey,hfk,rfl⟩
  · rintro ⟨rfl,hc,hkey,hfk,rfl⟩
    simp only
    rw [if_neg (not_not.mpr hc),if_neg hkey,if_pos hfk]

theorem insertLedger_eq_constraint {entry : LedgerRow}
    (h : (entry.accountID,entry.idempotencyKey) ∈ s.ledger.map fun x =>
      (x.accountID,x.idempotencyKey)) : s.insertLedger gap entry = .error .constraint := by
  unfold insertLedger
  simp only
  split_ifs <;> rfl

end Budget
