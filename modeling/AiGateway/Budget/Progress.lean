import AiGateway.Budget.HardLimit

/-! Ending a pending hold when nobody interferes. The statements of a settlement and of an
expiration all succeed, with one exception: the key of the closing ledger entry may be taken. -/
namespace Budget
open Text Machine Interleaving Interleaving.Prog Relational ReservationOf Option

/-! The values that a close writes. -/

def Ending.accountAfter (f : Ending) (a : Account) (r : Reservation) (stamp : Time) : Account :=
  { a with
    committedMicros := a.committedMicros + f.actual
    reservedMicros := a.reservedMicros - r.reservedMicros, version := a.version + 1
    updatedAt := max a.updatedAt stamp, updatedBy := f.actor }

open Ending

def Ending.reservationAfter (f : Ending) (r : Reservation) (time : Time) : Reservation :=
  { r with
    status := f.status, actualMicros := some f.actual
    releasedMicros := some (reservationDifference r.reservedMicros f.actual).1
    overageMicros := some (reservationDifference r.reservedMicros f.actual).2
    terminalAt := some time, version := r.version + 1, updatedAt := time, updatedBy := f.actor }

def Ending.entryAfter (f : Ending) (r : Reservation) (updated : Account) (id : ℤ) :
    LedgerEntry where
  id := id
  tenantID := r.tenantID
  accountID := r.accountID
  reservationID := r.id
  kind := f.kind
  idempotencyKey := settlementLedgerKey f.kind r.id
  committedDeltaMicros := f.actual
  reservedDeltaMicros := -r.reservedMicros
  resultCommittedMicros := updated.committedMicros
  resultReservedMicros := updated.reservedMicros
  occurredAt := updated.updatedAt
  createdBy := f.actor

/-- The pending hold `r` of the account `a` can end as `f` within the exact range. -/
structure Closable (f : Ending) (s : Database) (a : Account) (r : Reservation) : Prop where
  inv : Inv s
  coherent : f.Coherent
  actor : validActor f.actor
  account : s.account = a.row
  accountValid : a.Validate
  mem : r.row ∈ s.reservations
  valid : r.Validate
  pending : r.status = .pending
  room : a.committedMicros + f.actual + (a.reservedMicros - r.reservedMicros) ≤ maximumAmount

open Closable

variable {f : Ending} {s : Database} {a : Account} {r : Reservation} {e : Oracle}
variable {x : ReservationRow}

theorem pendingAmount_nonneg (h : ∃ v, scanBudgetReservation x = .ok v) : 0 ≤ pendingAmount x := by
  obtain ⟨v,hv⟩ := h
  obtain ⟨rfl,-⟩ := scanBudgetReservation_eq_ok.mp hv
  unfold pendingAmount
  split_ifs
  · simp [row]
  · exact le_rfl

theorem Inv.covered (hs : Inv s) (hx : x ∈ s.reservations) (hp : x.status = .pending) :
    x.reservedMicros ≤ s.account.reservedMicros := by
  have hle : pendingAmount x ≤ total pendingAmount s.reservations :=
    le_total (fun y hy => pendingAmount_nonneg (hs.valid.reservations y hy)) hx
  rw [hs.balanced.reserved]
  simpa [pendingAmount,hp] using hle

section
variable (h : Closable f s a r)
include h

theorem Closable.covered : r.reservedMicros ≤ a.reservedMicros := by
  have hle := h.inv.covered h.mem h.pending
  rw [h.account] at hle
  simp only [row,AccountOf.row] at hle
  omega

theorem Closable.accountAfter_valid (stamp : Time) : (f.accountAfter a r stamp).Validate := by
  have hv := h.accountValid
  have hroom := h.room
  exact { hv with
    committed := by simp only [accountAfter]; omega
    reserved := by have := hv.reserved; simp only [accountAfter]; omega
    balance := by simp only [accountAfter]; omega
    version := by have := hv.version; simp only [accountAfter]; omega
    updatedAt := hv.updatedAt.trans (le_max_left _ _)
    updatedBy := h.actor }

theorem Closable.createdAt_le (stamp : Time) : r.createdAt ≤ max a.updatedAt stamp := by
  have hnew := h.inv.valid.updatedAt _ h.mem
  rw [h.account] at hnew
  exact h.valid.updatedAt.trans (le_max_of_le_left hnew)

theorem Closable.reservationAfter_valid (stamp : Time) :
    (f.reservationAfter r (max a.updatedAt stamp)).Validate := by
  have hv := h.valid
  have hroom := h.room
  have hresv := (validAmount_iff.mp hv.reserved).2
  have htime := h.createdAt_le stamp
  have hstat : (f.reservationAfter r (max a.updatedAt stamp)).status ≠ .pending :=
    h.coherent.terminal
  exact { hv with
    updatedAt := htime
    version := by have := hv.version; simp only [reservationAfter]; omega
    updatedBy := h.actor
    amounts := by
      rw [if_neg hstat]
      simp only [Reservation.terminalAmounts,reservationAfter]
      refine ⟨htime,by omega,?_,?_,trivial⟩ <;> unfold reservationDifference <;> split_ifs <;>
        simp only <;> omega }

end

theorem budgetRefPattern_settlementLedgerKey (kind : EntryKind) {id : String}
    (h : isUUID id) : budgetRefPattern (settlementLedgerKey kind id) := by
  have htag : isRef ['.','_',':','/','-'] kind.text := by cases kind <;> decide
  have hlen : kind.text.length ≤ 10 := by cases kind <;> decide
  have hid : id.length = 36 := by
    rw [← String.length_toList]
    exact isUUID_length h
  have hcolon : ":".length = 1 := by decide
  simp only [budgetRefPattern,settlementLedgerKey,Bool.and_eq_true,decide_eq_true_eq,
    String.length_append]
  exact ⟨isRef_tagged htag h (by decide) (by decide),by omega⟩

section
variable (h : Closable f s a r)
include h

theorem Closable.entryAfter_valid (stamp : Time) (hpos : 0 < stamp) {id : ℤ} (hid : 1 ≤ id) :
    (f.entryAfter r (f.accountAfter a r stamp) id).Validate := by
  have hacc := h.accountAfter_valid stamp
  have hroom := h.room
  have hresv := validAmount_iff.mp h.valid.reserved
  constructor
  case id => exact hid
  case tenantID => exact h.valid.tenantID
  case accountID => exact h.valid.accountID
  case idempotencyKey => exact budgetRefPattern_settlementLedgerKey f.kind h.valid.id
  case occurredAt =>
    exact (lt_of_lt_of_le hpos (le_max_right a.updatedAt stamp)).ne'
  case createdBy => exact h.actor
  case committed => exact hacc.committed
  case reserved => exact hacc.reserved
  case balance => exact hacc.balance
  case shape =>
    have hkind := h.coherent.kind
    have hexp := h.coherent.expired
    unfold LedgerEntry.shape
    simp only [entryAfter]
    rw [hkind]
    unfold closingKind
    cases hs : f.status with
    | pending => exact absurd hs h.coherent.terminal
    | settled => exact ⟨h.valid.id,by omega,by omega⟩
    | cancelled =>
      by_cases hz : (f.actual : ℤ) = 0
      · simp only [hz,↓reduceIte]
        exact ⟨h.valid.id,trivial,by omega⟩
      · simp only [hz,↓reduceIte]
        exact ⟨h.valid.id,by omega,by omega⟩
    | expired =>
      have := hexp hs
      exact ⟨h.valid.id,by omega,by omega⟩
  case committedDelta =>
    refine validDelta_iff.mpr ?_
    simp only [entryAfter]
    omega
  case reservedDelta =>
    refine validDelta_iff.mpr ?_
    simp only [entryAfter]
    omega
  case deltas =>
    simp only [entryAfter]
    omega

/-! The statements. -/

theorem Closable.ids_find : s.reservations.find? (fun x => x.id = r.id) = some r.row :=
  (find?_eq_some (k := r.id) h.inv.unique.ids).mpr ⟨h.mem,rfl⟩

theorem Closable.updateAccount_eq (cond : AccountRow → Option Bool)
    (set : AccountRow → Option AccountRow) {stamp : Time} (hcond : cond s.account = some true)
    (hset : set s.account = some (f.accountAfter a r stamp).row) :
    s.updateAccount r.tenantID r.accountID cond set =
      .ok ({ s with account := (f.accountAfter a r stamp).row },
        (f.accountAfter a r stamp).row) := by
  obtain ⟨ht,ha⟩ := h.inv.valid.owner _ h.mem
  refine updateAccount_eq_ok.mpr ⟨⟨ht.symm,ha.symm⟩,hcond,hset,⟨?_,?_⟩,rfl⟩
  · rw [h.account]
    exact ⟨⟨rfl,rfl,rfl,rfl,rfl,rfl,rfl,rfl,rfl⟩,fun hc => ⟨hc,rfl⟩,rfl,le_max_left _ _⟩
  · exact (h.accountAfter_valid stamp).check

theorem Closable.set_row (time : Time) :
    f.set r.row time r.row = (f.reservationAfter r time).row := by
  have hresv := (validAmount_iff.mp h.valid.reserved).2
  have hactual : f.actual ≤ maximumAmount := by
    have := h.room
    omega
  obtain ⟨h₁,h₂⟩ := signedStoredAmount_difference hresv hactual
  have hd : (reservationDifference r.reservedMicros f.actual).1 ≤ maximumAmount ∧
      (reservationDifference r.reservedMicros f.actual).2 ≤ maximumAmount := by
    unfold reservationDifference
    split_ifs <;> simp only <;> omega
  rw [signedStoredAmount_eq hd.1] at h₁
  rw [signedStoredAmount_eq hd.2] at h₂
  simp [Ending.set,terminalSet,Ending.reservationAfter,row,h₁,h₂]

end

variable (f s a r) in
/-- The rows before the ledger insertion. -/
def Closable.rows (stamp : Time) : Database :=
  { s with
    account := (f.accountAfter a r stamp).row
    reservations := update (·.id) r.id (f.set r.row (max a.updatedAt stamp))
      s.reservations }

theorem Closable.updateReservation_eq (h : Closable f s a r) (cond : ReservationRow → Bool)
    (stamp : Time) (hcond : cond r.row) :
    Database.updateReservation { s with account := (f.accountAfter a r stamp).row } r.tenantID
        r.accountID r.id cond (f.set r.row (max a.updatedAt stamp)) =
      .ok (rows f s a r stamp,(f.reservationAfter r (max a.updatedAt stamp)).row) := by
  refine updateReservation_eq_ok.mpr ⟨r.row,h.ids_find,⟨rfl,rfl,hcond⟩,⟨?_,?_⟩,rfl,
    (h.set_row _).symm⟩
  · have hnew := h.inv.valid.updatedAt _ h.mem
    rw [h.account] at hnew
    exact ⟨⟨rfl,rfl,rfl,rfl,rfl,rfl,rfl,rfl,rfl⟩,⟨h.pending,h.coherent.terminal⟩,rfl,
      le_max_of_le_left hnew⟩
  · rw [h.set_row]
    exact (h.reservationAfter_valid stamp).check

/-- The key of the closing entry is free in the ledger. -/
def KeyFree {amt : Type} (kind : EntryKind) (s : Database) (r : ReservationOf amt) : Prop :=
  (r.accountID,settlementLedgerKey kind r.id) ∉
    s.ledger.map fun x => (x.accountID,x.idempotencyKey)

instance {amt : Type} (kind : EntryKind) (s : Database) (r : ReservationOf amt) :
    Decidable (KeyFree kind s r) :=
  inferInstanceAs (Decidable (¬(r.accountID,settlementLedgerKey kind r.id) ∈
    s.ledger.map fun x => (x.accountID,x.idempotencyKey)))

variable (f s a r e) in
/-- The decoded rows of the close. -/
def Closable.commit : Commit where
  account := f.accountAfter a r e.stamp
  reservation := f.reservationAfter r (max a.updatedAt e.stamp)
  entry := f.entryAfter r (f.accountAfter a r e.stamp) (s.ledgerSeq + 1 + e.gap)

variable (f s a r e) in
/-- The state after the close. -/
def Closable.after : Database :=
  { rows f s a r e.stamp with
    ledger := s.ledger ++ [(commit f s a r e).entry.row]
    ledgerSeq := s.ledgerSeq + 1 + e.gap }

theorem Closable.insertLedger_ok (h : Closable f s a r) (hfree : KeyFree f.kind s r) (e : Oracle) :
    (rows f s a r e.stamp).insertLedger e.gap (ledgerRow r.tenantID r.accountID r.id
        f.kind (settlementLedgerKey f.kind r.id) f.actual (-r.reservedMicros)
        (f.accountAfter a r e.stamp) f.actor) =
      .ok (after f s a r e,(commit f s a r e).entry.row) := by
  have hseq := h.inv.valid.ledgerSeq
  have hacc := h.accountAfter_valid e.stamp
  have hvalid : (commit f s a r e).entry.Validate :=
    h.entryAfter_valid e.stamp e.stamp_pos (by omega)
  have hrow : (commit f s a r e).entry.row =
      { ledgerRow r.tenantID r.accountID r.id f.kind (settlementLedgerKey f.kind r.id)
        f.actual (-r.reservedMicros) (f.accountAfter a r e.stamp) f.actor with
          id := s.ledgerSeq + 1 + e.gap } := by
    simp only [ledgerRow,signedStoredAmount_eq hacc.committed,signedStoredAmount_eq hacc.reserved]
    rfl
  obtain ⟨ht,ha⟩ := h.inv.valid.owner _ h.mem
  rw [h.account] at ht ha
  have hfk : ∃ x ∈ (rows f s a r e.stamp).reservations, x.tenantID = r.tenantID ∧
      x.accountID = r.accountID ∧ x.id = r.id :=
    ⟨_,mem_update.mpr (.inr ⟨r.row,h.mem,rfl,rfl⟩),rfl,rfl,rfl⟩
  exact insertLedger_eq_ok.mpr ⟨hrow,hvalid.check,hfree,⟨ht,ha,.inr hfk⟩,rfl⟩

theorem insertLedger_taken (hfree : ¬KeyFree f.kind s r) (e : Oracle) :
    (rows f s a r e.stamp).insertLedger e.gap (ledgerRow r.tenantID r.accountID r.id
        f.kind (settlementLedgerKey f.kind r.id) f.actual (-r.reservedMicros)
        (f.accountAfter a r e.stamp) f.actor) = .error .constraint :=
  insertLedger_eq_constraint (not_not.mp hfree)

theorem Closable.scans (h : Closable f s a r) (e : Oracle) :
    scanBudgetAccount (f.accountAfter a r e.stamp).row = .ok (commit f s a r e).account ∧
      scanBudgetReservation (f.reservationAfter r (max a.updatedAt e.stamp)).row =
        .ok (commit f s a r e).reservation ∧
      scanBudgetLedger (f.entryAfter r (f.accountAfter a r e.stamp)
        (s.ledgerSeq + 1 + e.gap)).row = .ok (commit f s a r e).entry := by
  have hseq := h.inv.valid.ledgerSeq
  exact ⟨scanBudgetAccount_eq_ok.mpr ⟨rfl,h.accountAfter_valid e.stamp⟩,
    scanBudgetReservation_eq_ok.mpr ⟨rfl,h.reservationAfter_valid e.stamp⟩,
    scanBudgetLedger_eq_ok.mpr ⟨rfl,h.entryAfter_valid e.stamp e.stamp_pos (by omega)⟩⟩

theorem Closable.commit_valid (h : Closable f s a r) (e : Oracle) : (commit f s a r e).Valid := by
  obtain ⟨h₁,h₂,h₃⟩ := h.scans e
  exact ⟨(scanBudgetAccount_eq_ok.mp h₁).2,(scanBudgetReservation_eq_ok.mp h₂).2,
    (scanBudgetLedger_eq_ok.mp h₃).2⟩

/-- The statements shared by settlement and expiration, followed by `next`. -/
theorem Closable.statements {β : Type} (h : Closable f s a r) (cond : AccountRow → Option Bool)
    (set : AccountRow → Option AccountRow) (cond' : Account → ReservationRow → Bool)
    (hcond : cond s.account = some true)
    (hset : set s.account = some (f.accountAfter a r e.stamp).row)
    (hcond' : cond' (f.accountAfter a r e.stamp) r.row)
    (next : Database → Commit → Except Abort β) :
    (do
      let (s,row) ← (s.updateAccount r.tenantID r.accountID cond set).mapError updateAbort
      let updated ← (scanBudgetAccount row).mapError updateAbort
      let (s,row) ← (s.updateReservation r.tenantID r.accountID r.id (cond' updated)
        (f.set r.row updated.updatedAt)).mapError updateAbort
      let terminal ← (scanBudgetReservation row).mapError updateAbort
      let (s,row) ← (s.insertLedger e.gap (ledgerRow r.tenantID r.accountID r.id f.kind
        (settlementLedgerKey f.kind r.id) f.actual (-r.reservedMicros) updated
        f.actor)).mapError insertLedgerAbort
      let entry ← (scanBudgetLedger row).mapError insertLedgerAbort
      next s ⟨updated,terminal,entry⟩) =
      if KeyFree f.kind s r then next (after f s a r e) (commit f s a r e)
      else .error (.fail .conflict) := by
  obtain ⟨hs₁,hs₂,hs₃⟩ := h.scans e
  have h₂ := h.updateReservation_eq (cond' (f.accountAfter a r e.stamp)) e.stamp hcond'
  have htime : (f.accountAfter a r e.stamp).updatedAt = max a.updatedAt e.stamp := rfl
  have hacc : (commit f s a r e).account = f.accountAfter a r e.stamp := rfl
  rw [h.updateAccount_eq cond set hcond hset,mapError_ok,ok_bind]
  simp only
  rw [hs₁,mapError_ok,ok_bind]
  simp only [hacc,htime]
  rw [h₂,mapError_ok,ok_bind]
  simp only
  rw [hs₂,mapError_ok,ok_bind]
  split_ifs with hfree
  · rw [h.insertLedger_ok hfree e,mapError_ok,ok_bind]
    simp only
    rw [show (commit f s a r e).entry.row = (f.entryAfter r (f.accountAfter a r e.stamp)
      (s.ledgerSeq + 1 + e.gap)).row from rfl,hs₃,mapError_ok,ok_bind]
    rfl
  · rw [insertLedger_taken hfree e,mapError_error,error_bind]
    rfl

/-! Settlement. -/

theorem Closable.planSettlement_eq (h : Closable f s a r) :
    planSettlement a r f.actual = .ok f.actual := by
  have hm := maximumAmount_lt
  have hroom := h.room
  have hcov := h.covered
  have hc := h.accountValid.committed
  have hr := h.accountValid.reserved
  simp only [planSettlement,throw_bind]
  rw [if_neg (by omega),subU64_eq hc,orOverflow,ok_bind,if_neg (by omega),subU64_eq hcov,
    orOverflow,ok_bind,addU64_eq (by omega),orOverflow,ok_bind,subU64_eq (by omega),
    orOverflow,ok_bind,if_neg (by omega),signedExactAmount_eq (by omega)]
  rfl

theorem Closable.settleWhere_eq (h : Closable f s a r) :
    settleWhere f.actual r.reservedMicros a.version s.account = some true := by
  have hm := maximumAmount_lt
  have hroom := h.room
  have hcov := h.covered
  have hcommit : s.account.committedMicros = a.committedMicros := by rw [h.account]; rfl
  have hresv : s.account.reservedMicros = a.reservedMicros := by rw [h.account]; rfl
  have hver : s.account.version = a.version := by rw [h.account]; rfl
  have hle := h.accountValid.reserved
  unfold settleWhere
  rw [signedStoredAmount_eq (le_refl maximumAmount)]
  simp only
  rw [int64_eq (by omega) (by omega),int64_eq (by omega) (by omega),int64_eq (by omega) (by omega)]
  simp only [bind_eq_bind,bind_some]
  rw [int64_eq (by omega) (by omega)]
  simp only [bind_some,pure_def,some.injEq,Bool.and_eq_true,decide_eq_true_eq]
  omega

theorem Closable.settleSet_eq (h : Closable f s a r) (e : Oracle) :
    settleSet f.actual r.reservedMicros f.actor e s.account =
      some (f.accountAfter a r e.stamp).row := by
  have hm := maximumAmount_lt
  have hroom := h.room
  have hcov := h.covered
  have hr := h.accountValid.reserved
  rw [h.account]
  simp only [settleSet,AccountOf.row]
  rw [int64_eq (by omega) (by omega),int64_eq (by omega) (by omega)]
  simp [accountAfter,Nat.cast_sub hcov]

variable {input : SettlementInput} {actual : ℕ}

theorem Closable.settleBody_eq (h : Closable (input.ending actual) s a r)
    (ht : input.tenantID = r.tenantID) (hacc : input.accountID = r.accountID)
    (hid : input.reservationID = r.id) : settleBody input r actual actual a.version e s =
      if KeyFree (settlementEntryKind input.outcome actual) s r then
        .ok (after (input.ending actual) s a r e,commit (input.ending actual) s a r e)
      else .error (.fail .conflict) := by
  have hresv := (validAmount_iff.mp h.valid.reserved).2
  have hactual : actual ≤ maximumAmount := by
    have := h.room
    simp only [SettlementInput.ending] at this
    omega
  obtain ⟨hrel,hover⟩ := signedStoredAmount_difference hresv hactual
  simp only [settleBody,ht,hacc,hid,signedStoredAmount_eq hresv,hrel,hover]
  exact h.statements (settleWhere actual r.reservedMicros a.version)
    (settleSet actual r.reservedMicros input.actor e)
    (fun _ x => x.status = .pending && x.version = r.version)
    h.settleWhere_eq (h.settleSet_eq e) (by simp [row,h.pending])
    fun s c => .ok (s,c)

theorem buildSettlementResult_ok (account : Account) (reservation : Reservation)
    (entry : LedgerEntry) (outcome : SettlementOutcome) {attempts actual released overage : ℕ}
    (hf : SettlementFacts account reservation entry attempts)
    (ha : reservation.actualMicros = some actual) (hr : reservation.releasedMicros = some released)
    (ho : reservation.overageMicros = some overage) (hle : actual ≤ maximumAmount)
    (hs : reservation.status = settlementReservationStatus outcome)
    (hk : entry.kind = settlementEntryKind outcome actual)
    (hkey : entry.idempotencyKey =
      settlementLedgerKey (settlementEntryKind outcome actual) reservation.id)
    (hc : entry.committedDeltaMicros = actual)
    (hd : entry.reservedDeltaMicros = -signedStoredAmount reservation.reservedMicros)
    (idempotent : Bool) :
    ∃ result, buildSettlementResult account reservation entry outcome idempotent attempts =
      .ok result ∧ result.idempotent = idempotent := by
  obtain ⟨remaining,hrem⟩ := ne_none_iff_exists'.mp (remainingHard_isSome account
    (entry.resultCommittedMicros + entry.resultReservedMicros))
  unfold buildSettlementResult
  rw [if_neg (not_not.mpr hf),ha,hr,ho]
  simp only [signedExactAmount_eq hle,hf.2.2.1.spent_eq,checked,ok_bind,hrem]
  rw [if_neg (by simp [hs,hk,hkey,hc,hd])]
  exact ⟨_,rfl,rfl⟩

variable {attempt : ℕ}

theorem Closable.finishSettle_eq (h : Closable (input.ending actual) s a r) (hatt : 1 ≤ attempt) :
    ∃ result, finishSettle input attempt (.ok (commit (input.ending actual) s a r e)) =
        .ok result ∧ result.idempotent = false := by
  have hv := h.commit_valid e
  have hroom := h.room
  have hresv := (validAmount_iff.mp h.valid.reserved).2
  obtain ⟨ht,ha⟩ := h.inv.valid.owner _ h.mem
  rw [h.account] at ht ha
  have hactual : actual ≤ maximumAmount := by
    simp only [SettlementInput.ending] at hroom
    omega
  obtain ⟨result,hb,hi⟩ := buildSettlementResult_ok (commit (input.ending actual) s a r e).account
    (commit (input.ending actual) s a r e).reservation
    (commit (input.ending actual) s a r e).entry input.outcome
    ⟨hv.account,hv.reservation,hv.entry,hatt,ht,ha,ht,ha,rfl⟩ rfl rfl rfl hactual rfl
    rfl rfl rfl (congrArg Neg.neg (signedStoredAmount_eq hresv).symm) false
  exact ⟨result,mapError_eq_ok.mpr hb,hi⟩

/-! Expiration. -/

variable {actor : String}

theorem Closable.reapWhere_eq (h : Closable f s a r) :
    reapWhere r.reservedMicros a.version s.account = some true := by
  have hcov := h.covered
  have hresv : s.account.reservedMicros = a.reservedMicros := by rw [h.account]; rfl
  have hver : s.account.version = a.version := by rw [h.account]; rfl
  simp only [reapWhere,hver,hresv,decide_true,Bool.true_and,some.injEq,decide_eq_true_eq]
  omega

section
variable (h : Closable (expiration actor) s a r)
include h

theorem Closable.reapSet_eq (e : Oracle) : reapSet r.reservedMicros actor e s.account =
      some ((expiration actor).accountAfter a r e.stamp).row := by
  have hm := maximumAmount_lt
  have hcov := h.covered
  have hr := h.accountValid.reserved
  rw [h.account]
  simp only [reapSet,AccountOf.row]
  rw [int64_eq (by omega) (by omega)]
  simp [accountAfter,expiration,Nat.cast_sub hcov]

theorem Closable.buildExpirationEvent_eq (hatt : 1 ≤ attempt)
    (hexp : r.expiresAt ≤ max a.updatedAt e.stamp) :
    ∃ event, buildExpirationEvent (commit (expiration actor) s a r e).account
        (commit (expiration actor) s a r e).reservation
        (commit (expiration actor) s a r e).entry attempt = .ok event := by
  have hv := h.commit_valid e
  have hresv := (validAmount_iff.mp h.valid.reserved).2
  obtain ⟨ht,ha⟩ := h.inv.valid.owner _ h.mem
  rw [h.account] at ht ha
  refine ⟨_,if_pos ⟨hv.account,hv.reservation,hv.entry,hatt,rfl,rfl,?_,?_,ht,ha,
    rfl,rfl,rfl,rfl,rfl,rfl,?_,rfl,rfl,rfl,hexp⟩⟩
  · simp [commit,reservationAfter,expiration,reservationDifference]
  · simp [commit,reservationAfter,expiration,reservationDifference]
  · exact congrArg Neg.neg (signedStoredAmount_eq hresv).symm

theorem Closable.reapBody_eq {event : ExpirationEvent}
    (hexp : r.expiresAt ≤ max a.updatedAt e.stamp)
    (hevent : buildExpirationEvent (commit (expiration actor) s a r e).account
        (commit (expiration actor) s a r e).reservation
        (commit (expiration actor) s a r e).entry attempt = .ok event) :
    reapBody actor r a.version attempt e s =
      if KeyFree .expire s r then .ok (after (expiration actor) s a r e,event)
      else .error (.fail .conflict) := by
  have hresv := (validAmount_iff.mp h.valid.reserved).2
  have hset : ∀ time, terminalSet .expired 0 r.reservedMicros 0 time actor =
      (expiration actor).set r.row time := by
    intro time
    simp [Ending.set,expiration,row]
  have hnext := h.statements (reapWhere r.reservedMicros a.version)
    (reapSet r.reservedMicros actor e)
    (fun updated x => x.status = .pending && x.version = r.version &&
      x.expiresAt ≤ updated.updatedAt) h.reapWhere_eq (h.reapSet_eq e)
    (by
      simp only [row,h.pending,decide_true,Bool.true_and,decide_eq_true_eq]
      exact hexp)
    fun s c => (buildExpirationEvent c.account c.reservation c.entry attempt).mapError .fail >>=
      fun event => .ok (s,event)
  rw [hevent,mapError_ok,ok_bind] at hnext
  simp only [reapBody,signedStoredAmount_eq hresv,hset]
  exact hnext

end
end Budget
