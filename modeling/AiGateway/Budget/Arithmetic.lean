import AiGateway.Budget.Changes

/-! The 64-bit arithmetic of the commands stays in range: on valid values no checked operation
fails, so none of these functions ends in `overflow`. -/
namespace Budget
open Machine

theorem checked_eq_error {β : Type} {x : Option β} {f : Failure} :
    checked x = .error f ↔ x = none ∧ f = .overflow := by
  cases x with
  | none => simp [checked,eq_comm]
  | some b => simp [checked]

theorem orOverflow_eq_error {β : Type} {x : Option β} {a : Abort} :
    orOverflow x = .error a ↔ x = none ∧ a = .fail .overflow := by
  cases x with
  | none => simp [orOverflow,eq_comm]
  | some b => simp [orOverflow]

theorem remainingHard_isSome (account : Account) (spent : ℕ) :
    remainingHard account spent ≠ none := by
  unfold remainingHard
  split_ifs with h
  · simp [subU64_eq h.le]
  · simp

theorem newBudgetLimitNotice_isSome (level : LimitLevel) (account : Account) (spent : ℕ)
    (hint : DegradationHint) : newBudgetLimitNotice level account spent hint ≠ none := by
  unfold newBudgetLimitNotice
  cases h : remainingHard account spent with
  | none => exact absurd h (remainingHard_isSome account spent)
  | some r => simp

theorem maximumAmount_lt : maximumAmount + maximumAmount < 2 ^ 63 := by decide

theorem Account.Validate.spent_eq {a : Account} (h : a.Validate) :
    addU64 a.committedMicros a.reservedMicros = some (a.committedMicros + a.reservedMicros) := by
  have hc := h.committed
  have hr := h.reserved
  have hm := maximumAmount_lt
  exact addU64_eq (by omega)

theorem LedgerEntry.Validate.spent_eq {e : LedgerEntry} (h : e.Validate) :
    addU64 e.resultCommittedMicros e.resultReservedMicros =
      some (e.resultCommittedMicros + e.resultReservedMicros) := by
  have hc := h.committed
  have hr := h.reserved
  have hm := maximumAmount_lt
  exact addU64_eq (by omega)

theorem newBudgetExceededError_ne_overflow {account : Account} (h : account.Validate)
    (hint : DegradationHint) : newBudgetExceededError account hint ≠ .overflow := by
  unfold newBudgetExceededError
  rw [h.spent_eq,Option.bind_some]
  split
  · simp
  · rename_i hn
    exact absurd hn (newBudgetLimitNotice_isSome _ _ _ _)

theorem softLimitNotice_ne_overflow (account : Account) (spent : ℕ) (hint : DegradationHint) :
    softLimitNotice account spent hint ≠ .error .overflow := by
  intro h
  unfold softLimitNotice at h
  split_ifs at h
  simp only [bind_eq_error,checked_eq_error] at h
  rcases h with ⟨h,-⟩ | ⟨value,-,h⟩
  · exact newBudgetLimitNotice_isSome _ _ _ _ h
  · split_ifs at h <;> cases h

section
variable (account : Account) (reservation : Reservation) (entry : LedgerEntry)
include account reservation entry

theorem buildReserveResult_ne_overflow (hint : DegradationHint) (idempotent : Bool) (attempts : ℕ) :
    buildReserveResult account reservation entry hint idempotent attempts ≠ .error .overflow := by
  intro h
  unfold buildReserveResult at h
  simp only [throw_bind,ite_throw_eq_error,bind_eq_error,checked_eq_error] at h
  rcases h with ⟨-,h⟩ | ⟨hf,h⟩
  · cases h
  obtain ⟨-,-,he,-⟩ := not_not.mp hf
  rcases h with ⟨h,-⟩ | ⟨spent,-,⟨h,-⟩ | ⟨remaining,-,h | ⟨notice,-,h⟩⟩⟩
  · simp [he.spent_eq] at h
  · exact remainingHard_isSome _ _ h
  · exact softLimitNotice_ne_overflow _ _ _ h
  · cases h

theorem buildSettlementResult_ne_overflow (outcome : SettlementOutcome) (idempotent : Bool)
    (attempts : ℕ) : buildSettlementResult account reservation entry outcome idempotent attempts ≠
      .error .overflow := by
  intro h
  unfold buildSettlementResult at h
  simp only [throw_bind,ite_throw_eq_error] at h
  rcases h with ⟨-,h⟩ | ⟨hf,h⟩
  · cases h
  obtain ⟨-,-,he,-⟩ := not_not.mp hf
  split at h
  · split at h
    · cases h
    · simp only [ite_throw_eq_error,bind_eq_error,checked_eq_error] at h
      rcases h with ⟨-,h⟩ | ⟨-,⟨h,-⟩ | ⟨spent,-,⟨h,-⟩ | ⟨remaining,-,h⟩⟩⟩
      · cases h
      · simp [he.spent_eq] at h
      · exact remainingHard_isSome _ _ h
      · cases h
  · cases h

theorem buildExpirationEvent_ne_overflow (attempts : ℕ) :
    buildExpirationEvent account reservation entry attempts ≠ .error .overflow := by
  unfold buildExpirationEvent
  split_ifs <;> simp

end

variable {input : ReserveInput}

theorem admitReserve_ne_overflow {now : Time} {account : Account} (h : account.Validate) :
    admitReserve input now account ≠ .error .overflow := by
  intro he
  unfold admitReserve at he
  simp only [throw_bind,ite_throw_eq_error,bind_eq_error,checked_eq_error] at he
  rcases he with ⟨-,he⟩ | ⟨-,⟨he,-⟩ | ⟨spent,-,he⟩⟩
  · cases he
  · simp [h.spent_eq] at he
  rcases he with ⟨-,he⟩ | ⟨hle,⟨he,-⟩ | ⟨room,-,he⟩⟩
  · exact newBudgetExceededError_ne_overflow h _ he
  · simp [subU64_eq (Nat.le_of_not_lt hle)] at he
  rcases he with ⟨-,he⟩ | ⟨-,he⟩
  · exact newBudgetExceededError_ne_overflow h _ he
  · split at he <;> cases he

theorem admitReserve_eq_ok {now : Time} {account : Account} {amount : ℤ}
    (h : admitReserve input now account = .ok amount) :
    amount = input.amountMicros ∧ input.amountMicros ≤ maximumAmount := by
  unfold admitReserve at h
  simp only [throw_bind,ite_throw_eq_ok,bind_eq_ok] at h
  obtain ⟨-,spent,-,-,room,-,-,h⟩ := h
  split at h
  · rename_i value hv
    cases h
    exact signedExactAmount_eq_some hv
  · cases h

variable {reservation : Reservation}

theorem planSettlement_ne_overflow {account : Account} {actual : ℕ} (h : account.Validate) :
    planSettlement account reservation actual ≠ .error (.fail .overflow) := by
  have hc := h.committed
  have hr := h.reserved
  have hm := maximumAmount_lt
  intro he
  unfold planSettlement at he
  simp only [throw_bind,ite_throw_eq_error,bind_eq_error,orOverflow_eq_error] at he
  rcases he with ⟨-,he⟩ | ⟨hcov,⟨he,-⟩ | ⟨room,hroom,he⟩⟩
  · cases he
  · simp [subU64_eq hc] at he
  rw [subU64_eq hc] at hroom
  cases hroom
  rcases he with ⟨-,he⟩ | ⟨hact,⟨he,-⟩ | ⟨remaining,hrem,he⟩⟩
  · cases he
  · simp [subU64_eq (Nat.le_of_not_lt hcov)] at he
  rw [subU64_eq (Nat.le_of_not_lt hcov)] at hrem
  cases hrem
  rcases he with ⟨he,-⟩ | ⟨committed,-,⟨he,-⟩ | ⟨limit,-,he⟩⟩
  · rw [addU64_eq (by omega)] at he
    cases he
  · rw [subU64_eq (by omega)] at he
    cases he
  rcases he with ⟨-,he⟩ | ⟨-,he⟩
  · cases he
  · split at he <;> cases he

theorem planSettlement_eq_ok {account : Account} {actual : ℕ}
    {amount : ℤ} (h : planSettlement account reservation actual = .ok amount) :
    amount = actual ∧ actual ≤ maximumAmount := by
  unfold planSettlement at h
  simp only [throw_bind,ite_throw_eq_ok,bind_eq_ok] at h
  obtain ⟨-,room,-,-,remaining,-,committed,-,limit,-,-,h⟩ := h
  split at h
  · rename_i value hv
    cases h
    exact signedExactAmount_eq_some hv
  · cases h

/-! The `bigint` expressions of the account updates. -/

theorem Account.Validate.amounts {a : Account} (h : a.Validate) :
    (0 ≤ a.row.committedMicros ∧ a.row.committedMicros ≤ maximumAmount) ∧
      (0 ≤ a.row.reservedMicros ∧ a.row.reservedMicros ≤ maximumAmount) ∧
      0 ≤ a.row.hardLimitMicros ∧ a.row.hardLimitMicros ≤ maximumAmount := by
  have hc := h.committed
  have hr := h.reserved
  have hh := (validAmount_iff.mp h.hard).2
  simp only [AccountOf.row]
  omega

variable {account : Account} {amount actual reserved : ℕ} {version : ℤ} {actor : String}
  {e : Oracle}

section
variable (h : account.Validate)
include h

theorem reserveWhere_isSome (ha : amount ≤ maximumAmount) :
    reserveWhere amount version e account.row ≠ none := by
  obtain ⟨hc,hr,hh⟩ := h.amounts
  have hm := maximumAmount_lt
  unfold reserveWhere
  rw [int64_eq (by omega) (by omega),int64_eq (by omega) (by omega)]
  simp

theorem reserveSet_isSome (ha : amount ≤ maximumAmount) :
    reserveSet amount actor e account.row ≠ none := by
  obtain ⟨hc,hr,hh⟩ := h.amounts
  have hm := maximumAmount_lt
  unfold reserveSet
  rw [int64_eq (by omega) (by omega)]
  simp

theorem settleWhere_isSome (ha : actual ≤ maximumAmount) (hr' : reserved ≤ maximumAmount) :
    settleWhere actual reserved version account.row ≠ none := by
  obtain ⟨hc,hr,hh⟩ := h.amounts
  have hm := maximumAmount_lt
  have hmax := signedStoredAmount_eq (le_refl maximumAmount)
  unfold settleWhere
  simp only [hmax]
  rw [int64_eq (by omega) (by omega),int64_eq (by omega) (by omega),int64_eq (by omega) (by omega)]
  simp only [Option.bind_eq_bind,Option.bind_some]
  rw [int64_eq (by omega) (by omega)]
  simp

theorem settleSet_isSome (ha : actual ≤ maximumAmount) (hr' : reserved ≤ maximumAmount) :
    settleSet actual reserved actor e account.row ≠ none := by
  obtain ⟨hc,hr,hh⟩ := h.amounts
  have hm := maximumAmount_lt
  unfold settleSet
  rw [int64_eq (by omega) (by omega),int64_eq (by omega) (by omega)]
  simp

theorem reapSet_isSome (hr' : reserved ≤ maximumAmount) :
    reapSet reserved actor e account.row ≠ none := by
  obtain ⟨hc,hr,hh⟩ := h.amounts
  have hm := maximumAmount_lt
  unfold reapSet
  rw [int64_eq (by omega) (by omega)]
  simp

end

/-! Only the account update evaluates `bigint` expressions. -/

theorem updateAccount_ne_overflow {s : Database} {tenantID accountID : String}
    {cond : AccountRow → Option Bool} {set : AccountRow → Option AccountRow}
    (hc : cond s.account ≠ none) (hs : set s.account ≠ none) :
    s.updateAccount tenantID accountID cond set ≠ .error .overflow := by
  unfold Database.updateAccount
  cases hcond : cond s.account with
  | none => exact absurd hcond hc
  | some b =>
    cases hset : set s.account with
    | none => exact absurd hset hs
    | some row => cases b <;> simp only <;> split_ifs <;> simp

theorem insertReservation_ne_overflow (s : Database) (r : ReservationRow) :
    s.insertReservation r ≠ .error .overflow := by
  unfold Database.insertReservation
  split_ifs <;> simp

theorem updateReservation_ne_overflow (s : Database) (tenantID accountID id : String)
    (cond : ReservationRow → Bool) (set : ReservationRow → ReservationRow) :
    s.updateReservation tenantID accountID id cond set ≠ .error .overflow := by
  unfold Database.updateReservation
  split
  · simp
  · split_ifs <;> simp

theorem insertLedger_ne_overflow (s : Database) (gap : ℕ) (entry : LedgerRow) :
    s.insertLedger gap entry ≠ .error .overflow := by
  unfold Database.insertLedger
  simp only
  split_ifs <;> simp

theorem stored_ne_overflow (v : ℤ) : stored v ≠ .error .overflow := by
  unfold stored
  split <;> simp

theorem storedOption_ne_overflow (v : Option ℤ) : storedOption v ≠ .error .overflow := by
  cases v with
  | none => simp [storedOption]
  | some v =>
    cases h : stored v with
    | error err =>
      have := stored_ne_overflow v
      simp_all [storedOption,Functor.map,Except.map]
    | ok n => simp [storedOption,h,Functor.map,Except.map]

theorem scanBudgetAccount_ne_overflow (row : AccountRow) :
    scanBudgetAccount row ≠ .error .overflow := by
  intro h
  simp only [scanBudgetAccount,bind_eq_error,stored_ne_overflow,false_or] at h
  obtain ⟨_,_,_,_,_,_,_,_,h⟩ := h
  split_ifs at h <;> cases h

theorem scanBudgetReservation_ne_overflow (row : ReservationRow) :
    scanBudgetReservation row ≠ .error .overflow := by
  intro h
  simp only [scanBudgetReservation,bind_eq_error,stored_ne_overflow,storedOption_ne_overflow,
    false_or] at h
  obtain ⟨_,_,_,_,_,_,_,_,h⟩ := h
  split_ifs at h <;> cases h

theorem scanBudgetLedger_ne_overflow (row : LedgerRow) :
    scanBudgetLedger row ≠ .error .overflow := by
  intro h
  simp only [scanBudgetLedger,bind_eq_error,stored_ne_overflow,false_or] at h
  obtain ⟨_,_,_,_,h⟩ := h
  split_ifs at h <;> cases h

variable {err : SqlError}

@[simp] theorem updateAbort_eq_overflow : updateAbort err = .fail .overflow ↔ err = .overflow := by
  cases err <;> simp [updateAbort,mapReserveDatabaseError]

@[simp] theorem insertReservationAbort_eq_overflow :
    insertReservationAbort err = .fail .overflow ↔ err = .overflow := by
  cases err <;> simp [insertReservationAbort,mapReserveDatabaseError]

@[simp] theorem insertLedgerAbort_eq_overflow :
    insertLedgerAbort err = .fail .overflow ↔ err = .overflow := by
  cases err <;> simp [insertLedgerAbort,mapReserveDatabaseError]

variable {s : Database}

section
variable (hs : ∃ a, scanBudgetAccount s.account = .ok a)
include hs

theorem reserveBody_ne_overflow {id : String} (ha : amount ≤ maximumAmount) :
    reserveBody input id amount version e s ≠ .error (.fail .overflow) := by
  obtain ⟨a,hs⟩ := hs
  obtain ⟨hrow,hv⟩ := scanBudgetAccount_eq_ok.mp hs
  have hupd : s.updateAccount input.tenantID input.accountID (reserveWhere amount version e)
      (reserveSet amount input.actor e) ≠ .error .overflow :=
    updateAccount_ne_overflow (hrow ▸ reserveWhere_isSome hv ha) (hrow ▸ reserveSet_isSome hv ha)
  intro h
  simp only [reserveBody,throw_bind,bind_eq_error,mapError_eq_error,ite_throw_eq_error,
    updateAbort_eq_overflow,insertReservationAbort_eq_overflow,insertLedgerAbort_eq_overflow,
    exists_eq_right,hupd,scanBudgetAccount_ne_overflow,insertReservation_ne_overflow,
    scanBudgetReservation_ne_overflow,insertLedger_ne_overflow,scanBudgetLedger_ne_overflow,
    false_or,Abort.fail.injEq,reduceCtorEq,and_false] at h
  obtain ⟨_,_,_,_,_,_,_,_,_,_,_,_,_,h⟩ := h
  cases h

section
variable (hr : reservation.reservedMicros ≤ maximumAmount)
include hr

theorem settleBody_ne_overflow {input : SettlementInput} (ha : actual ≤ maximumAmount) :
    settleBody input reservation actual actual version e s ≠ .error (.fail .overflow) := by
  obtain ⟨a,hs⟩ := hs
  obtain ⟨hrow,hv⟩ := scanBudgetAccount_eq_ok.mp hs
  have hupd : s.updateAccount input.tenantID input.accountID
      (settleWhere actual reservation.reservedMicros version)
      (settleSet actual reservation.reservedMicros input.actor e) ≠ .error .overflow :=
    updateAccount_ne_overflow (hrow ▸ settleWhere_isSome hv ha hr)
      (hrow ▸ settleSet_isSome hv ha hr)
  intro h
  simp only [settleBody,bind_eq_error,mapError_eq_error,updateAbort_eq_overflow,
    insertLedgerAbort_eq_overflow,exists_eq_right,signedStoredAmount_eq hr,hupd,
    scanBudgetAccount_ne_overflow,updateReservation_ne_overflow,scanBudgetReservation_ne_overflow,
    insertLedger_ne_overflow,scanBudgetLedger_ne_overflow,false_or] at h
  obtain ⟨_,_,_,_,_,_,_,_,_,_,_,_,h⟩ := h
  cases h

theorem reapBody_ne_overflow {attempt : ℕ} :
    reapBody actor reservation version attempt e s ≠ .error (.fail .overflow) := by
  obtain ⟨a,hs⟩ := hs
  obtain ⟨hrow,hv⟩ := scanBudgetAccount_eq_ok.mp hs
  have hupd : s.updateAccount reservation.tenantID reservation.accountID
      (reapWhere reservation.reservedMicros version)
      (reapSet reservation.reservedMicros actor e) ≠ .error .overflow :=
    updateAccount_ne_overflow (by simp [reapWhere]) (hrow ▸ reapSet_isSome hv hr)
  intro h
  simp only [reapBody,bind_eq_error,mapError_eq_error,updateAbort_eq_overflow,
    insertLedgerAbort_eq_overflow,exists_eq_right,signedStoredAmount_eq hr,hupd,
    scanBudgetAccount_ne_overflow,updateReservation_ne_overflow,
    scanBudgetReservation_ne_overflow,insertLedger_ne_overflow,scanBudgetLedger_ne_overflow,
    Abort.fail.injEq,buildExpirationEvent_ne_overflow,false_or] at h
  obtain ⟨_,_,_,_,_,_,_,_,_,_,_,_,_,_,h⟩ := h
  cases h

end
end

/-! The sum of the charges. -/

/-- What `Validate` checks on the way is what the sum needs. -/
theorem validCharges_sum {seen : List String} {actual : ℕ} {charges : List SettlementCharge}
    (h : validCharges seen actual charges) (ha : actual ≤ maximumAmount) : ∃ n, n ≤ maximumAmount ∧
      charges.foldlM (fun total c => addU64 total c.amountMicros) actual = some n := by
  induction charges generalizing seen actual with
  | nil => exact ⟨actual,ha,rfl⟩
  | cons c charges ih =>
    simp only [validCharges,Bool.and_eq_true,Bool.not_eq_true',Bool.or_eq_false_iff,
      decide_eq_false_iff_not,SettlementCharge.wellFormed,decide_eq_true_eq] at h
    obtain ⟨⟨⟨hc,-⟩,-,hle⟩,hrest⟩ := h
    have hm := maximumAmount_lt
    obtain ⟨n,hn,hsum⟩ := ih hrest (by omega)
    refine ⟨n,hn,?_⟩
    rw [List.foldlM_cons,addU64_eq (by omega)]
    exact hsum

theorem SettlementInput.actualMicros_ne_overflow (input : SettlementInput) :
    input.actualMicros ≠ .error .overflow := by
  unfold SettlementInput.actualMicros
  split_ifs with h
  · simp only [SettlementInput.validate,Bool.and_eq_true] at h
    obtain ⟨n,-,hn⟩ := validCharges_sum h.1.2 (Nat.zero_le _)
    simp [hn,checked]
  · simp

end Budget
