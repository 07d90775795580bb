import AiGateway.Budget.Progress

/-! Which calls can end a pending hold. Undisturbed, a Settle or a Reap ends it unless the key of
its closing ledger entry is taken, and only the key of another Reserve can have taken it. -/
namespace Budget
open Text Machine Interleaving Interleaving.Prog Closable List ReservationOf

/-- Nothing fails while the call runs, and the database clock does not go back. -/
structure Calm (oracle : ℕ → Oracle) : Prop where
  fault : ∀ i, (oracle i).fault = none
  lostAck : ∀ i, (oracle i).lostAck = false
  clock : ∀ i j, i < j → (oracle i).clock ≤ (oracle j).stamp

/-- A Settle of the hold `r` at the cost `actual`, as the gateway would issue it. -/
structure SettleReady (s : Database) (r : ReservationRow) (options : ReserveOptions)
    (input : SettlementInput) (actual : ℕ) (oracle : ℕ → Oracle) : Prop where
  calm : Calm oracle
  unlocked : r.id ∉ s.locks
  tenantID : input.tenantID = r.tenantID
  accountID : input.accountID = r.accountID
  reservationID : input.reservationID = r.id
  requestID : input.requestID = r.requestID
  cost : input.actualMicros = .ok actual
  outcome : ∃ status, s.requests r.tenantID r.requestID = some status ∧
    requestStatusMatchesOutcome status input.outcome
  room : s.account.committedMicros + actual + (s.account.reservedMicros - r.reservedMicros) ≤
    maximumAmount

/-- The hold `r` has expired, and no expired pending hold comes before it. -/
structure ReapReady (s : Database) (r : ReservationRow) (actor : String) (attempt : ℕ)
    (oracle : ℕ → Oracle) : Prop where
  calm : Calm oracle
  actor : validActor actor
  attempt : 1 ≤ attempt
  unlocked : r.id ∉ s.locks
  expired : r.expiresAt ≤ (oracle 0).clock
  earliest : ∀ x ∈ s.reservations, x.status = .pending → x.expiresAt ≤ (oracle 0).clock →
    x ≠ r → expiresBefore r x

/-- The Settle, run with nobody else acting, ends the hold. -/
def Settles (s : Database) (r : ReservationRow) (options : ReserveOptions)
    (input : SettlementInput) (oracle : ℕ → Oracle) : Prop :=
  ∃ result k t, (settle options input).alone oracle 0 s = some (.ok result,k,t) ∧
    result.idempotent = false ∧ result.reservation.id = r.id ∧
    result.reservation.status = settlementReservationStatus input.outcome ∧
    result.reservation.row ∈ t.reservations

/-- The sweep step, run with nobody else acting, finds the hold and expires it. -/
def Expires (s : Database) (r : ReservationRow) (actor : String) (attempt : ℕ)
    (oracle : ℕ → Oracle) : Prop :=
  ∃ event k t, (reapOnce actor attempt).alone oracle 0 s = some (.ok (some event),k,t) ∧
    event.reservation.id = r.id ∧ event.reservation.status = .expired ∧
    event.reservation.row ∈ t.reservations

/-- Every call that should end the hold does. -/
structure Finishable (s : Database) (r : ReservationRow) : Prop where
  settle : ∀ options input actual oracle, SettleReady s r options input actual oracle →
    Settles s r options input oracle
  reap : ∀ actor attempt oracle, ReapReady s r actor attempt oracle →
    Expires s r actor attempt oracle

variable {s : Database} {a : Account} {r : Reservation} {oracle : ℕ → Oracle}

/-! Undisturbed steps. -/

variable {β : Type}

theorem Calm.query (h : Calm oracle) (i : ℕ) (x : Except SqlError β) : (oracle i).query x = x := by
  simp [Oracle.query,h.fault]

variable {i : ℕ} {t : Database} {body : Oracle → Database → Except Abort (Database × β)}

theorem Calm.transact_ok (h : Calm oracle) {b : β} (hb : body (oracle i) s = .ok (t,b)) :
    transact body (oracle i) s = (t,.ok b) := by
  simp [transact,h.fault,h.lostAck,hb]

theorem Calm.transact_error (h : Calm oracle) {x : Abort} (hb : body (oracle i) s = .error x) :
    transact body (oracle i) s = (s,.error x) := by
  simp [transact,h.fault,hb]

theorem Calm.claim_eq (h : Calm oracle) (i : ℕ) (hv : r.Validate) :
    s.claim (oracle i) (some r.row) = (s.lock r.id,.ok r) := by
  have hscan : scanBudgetReservation r.row = .ok r := scanBudgetReservation_eq_ok.mpr ⟨rfl,hv⟩
  simp [Database.claim,h.query,scanFirst,hscan]

variable {α : Type}

theorem alone_release (id : String) (out : α) (i : ℕ) :
    (release id out).alone oracle i s = some (out,i + 1,s.unlock id) := rfl

variable {once : ℕ → Prog Database Oracle (Except Abort α)}

theorem attempts_alone_ok {n attempt k : ℕ} {x : α} (hn : 1 ≤ n)
    (h : (once attempt).alone oracle i s = some (.ok x,k,t)) :
    (attempts once n attempt).alone oracle i s = some (.ok x,k,t) := by
  obtain ⟨m,rfl⟩ := Nat.exists_eq_add_of_le' hn
  rw [attempts,alone_bind,h]
  rfl

theorem attempts_alone_fail {n attempt k : ℕ} {f : Failure} (hn : 1 ≤ n)
    (h : (once attempt).alone oracle i s = some (.error (.fail f),k,t)) :
    (attempts once n attempt).alone oracle i s = some (.error f,k,t) := by
  obtain ⟨m,rfl⟩ := Nat.exists_eq_add_of_le' hn
  rw [attempts,alone_bind,h]
  rfl

/-! Settlement. -/

theorem Closable.loadBudgetAccount_eq {f : Ending} (h : Closable f s a r) :
    s.loadBudgetAccount r.tenantID r.accountID = .ok a := by
  obtain ⟨ht,ha⟩ := h.inv.valid.owner _ h.mem
  have hscan : scanBudgetAccount s.account = .ok a :=
    scanBudgetAccount_eq_ok.mpr ⟨h.account,h.accountValid⟩
  unfold Database.loadBudgetAccount
  rw [if_pos ⟨ht.symm,ha.symm⟩,hscan]

theorem Closable.after_mem {f : Ending} (h : Closable f s a r) (e : Oracle) :
    (commit f s a r e).reservation.row ∈ (after f s a r e).reservations :=
  Relational.mem_update.mpr (.inr ⟨r.row,h.mem,rfl,h.set_row _⟩)

theorem keyFree_lock (kind : EntryKind) (id : String) :
    KeyFree kind (s.lock id) r ↔ KeyFree kind s r := Iff.rfl

section Settlement

variable {input : SettlementInput} {actual attempt : ℕ} {options : ReserveOptions}

theorem settleLocked_alone (h : Closable (input.ending actual) s a r) (hc : Calm oracle)
    (ht : input.tenantID = r.tenantID) (hacc : input.accountID = r.accountID)
    (hid : input.reservationID = r.id) (hreq : input.requestID = r.requestID)
    {status : RequestStatus} (hstat : s.requests r.tenantID r.requestID = some status)
    (hmatch : requestStatusMatchesOutcome status input.outcome) (i : ℕ) :
    (settleLocked input actual attempt r).alone oracle i s =
      if KeyFree (settlementEntryKind input.outcome actual) s r then
        some (finishSettle input attempt
            (.ok (commit (input.ending actual) s a r (oracle (i + 2)))),i + 3,
          after (input.ending actual) s a r (oracle (i + 2)))
      else some (.error (.fail .conflict),i + 3,s) := by
  have hplan : planSettlement a r actual = .ok actual := h.planSettlement_eq
  unfold settleLocked
  rw [if_neg (by simp [hreq]),alone_read]
  simp only [hc.query,Database.loadBudgetRequestStatus,ht,hreq,hstat,hmatch,not_true,
    if_false,h.pending,ne_eq,alone_read,hacc,h.loadBudgetAccount_eq,hplan,alone_write]
  have hbody := h.settleBody_eq (e := oracle (i + 2)) ht hacc hid
  split_ifs with hfree
  · rw [if_pos hfree] at hbody
    rw [hc.transact_ok hbody]
    rfl
  · rw [if_neg hfree] at hbody
    rw [hc.transact_error hbody]
    rfl

theorem SettleReady.closable (h : SettleReady s r.row options input actual oracle) (hs : Inv s)
    (hmem : r.row ∈ s.reservations) (hv : r.Validate) (hp : r.status = .pending) :
    ∃ a, Closable (input.ending actual) (s.lock r.id) a r := by
  obtain ⟨a,hscan⟩ := hs.valid.account
  obtain ⟨hrow,hav⟩ := scanBudgetAccount_eq_ok.mp hscan
  have hcov := hs.covered hmem hp
  have hroom := h.room
  have hvalid : input.validate := by
    have hcost := h.cost
    unfold SettlementInput.actualMicros at hcost
    split_ifs at hcost with hval
    exact hval
  refine ⟨a,hs.locks _,input.ending_coherent actual,?_,hrow,hav,hmem,hv,hp,?_⟩
  · simp only [SettlementInput.validate,Bool.and_eq_true] at hvalid
    exact hvalid.1.1.2
  · rw [hrow] at hcov hroom
    simp only [row,AccountOf.row,SettlementInput.ending] at hcov hroom ⊢
    omega

theorem reservationByID_eq (hs : Inv s) (hmem : r.row ∈ s.reservations) :
    s.reservationByID r.tenantID r.accountID r.id = some r.row := by
  cases hfind : s.reservationByID r.tenantID r.accountID r.id with
  | none =>
    have hnone := find?_eq_none.mp hfind _ hmem
    simp [row] at hnone
  | some x =>
    obtain ⟨hx,-,-,hid⟩ := reservationByID_mem hfind
    rw [hs.unique.eq_of_id hx hmem hid]

section
variable (h : SettleReady s r.row options input actual oracle) (hs : Inv s)
  (hmem : r.row ∈ s.reservations) (hv : r.Validate)
include h hs hmem hv

theorem settleOnce_alone (hclose : Closable (input.ending actual) (s.lock r.id) a r) (attempt : ℕ) :
    (settleOnce input actual attempt).alone oracle 0 s =
      if KeyFree (settlementEntryKind input.outcome actual) s r then
        some (finishSettle input attempt
            (.ok (commit (input.ending actual) (s.lock r.id) a r (oracle 3))),5,
          (after (input.ending actual) (s.lock r.id) a r (oracle 3)).unlock r.id)
      else some (.error (.fail .conflict),5,(s.lock r.id).unlock r.id) := by
  obtain ⟨status,hstat,hmatch⟩ := h.outcome
  have hfind : s.reservationByID input.tenantID input.accountID input.reservationID =
      some r.row := by
    rw [h.tenantID,h.accountID,h.reservationID]
    exact reservationByID_eq hs hmem
  have hready : settleReady input s := by
    have hfree : r.id ∉ s.locks := h.unlocked
    simp [settleReady,hfind,row,hfree]
  unfold settleOnce
  rw [alone_await hready,hfind,h.calm.claim_eq 0 hv]
  simp only [alone_bind]
  rw [settleLocked_alone hclose h.calm h.tenantID h.accountID h.reservationID h.requestID hstat
    hmatch]
  simp only [keyFree_lock]
  split_ifs <;> simp only [Option.bind_some,alone_release]

theorem SettleReady.settles_iff (hp : r.status = .pending) : Settles s r.row options input oracle ↔
      KeyFree (settlementEntryKind input.outcome actual) s r := by
  obtain ⟨a,hclose⟩ := h.closable hs hmem hv hp
  have honce := settleOnce_alone h hs hmem hv hclose 1
  have hsettle : settle options input =
      Budget.attempts (settleOnce input actual) options.maxAttempts 1 := by
    simp [settle,h.cost]
  unfold Settles
  rw [hsettle]
  constructor
  · rintro ⟨result,k,t,halone,-⟩
    by_contra hfree
    rw [if_neg hfree] at honce
    rw [attempts_alone_fail options.positive honce] at halone
    cases halone
  · intro hfree
    rw [if_pos hfree] at honce
    obtain ⟨result,hres,hidem⟩ := hclose.finishSettle_eq (e := oracle 3) le_rfl
    rw [hres] at honce
    obtain ⟨hr,-,hstat,-⟩ := buildSettlementResult_eq_ok (mapError_eq_ok.mp hres)
    refine ⟨result,_,_,attempts_alone_ok options.positive honce,hidem,?_,?_,?_⟩
    · rw [hr]
      rfl
    · rw [hr]
      exact hstat
    · rw [hr]
      exact hclose.after_mem (oracle 3)

end
end Settlement

/-! Expiration. -/

section Expiration

variable {actor : String} {attempt : ℕ}

theorem expiresBefore_asymm {x y : ReservationRow} (h : expiresBefore x y) :
    expiresBefore y x = false := by
  simp only [expiresBefore,Bool.or_eq_true,Bool.and_eq_true,decide_eq_true_eq,
    Bool.or_eq_false_iff,decide_eq_false_iff_not,Bool.and_eq_false_imp] at h ⊢
  rcases h with h | ⟨h,hid⟩
  · exact ⟨lt_asymm h,fun heq => absurd heq h.ne'⟩
  · exact ⟨h.not_gt,fun _ => String.lt_asymm hid⟩

theorem ReapReady.nextExpired_eq (h : ReapReady s r.row actor attempt oracle)
    (hmem : r.row ∈ s.reservations) (hp : r.status = .pending) :
    s.nextExpired (oracle 0).clock = some r.row := by
  have hexp : r.expiresAt ≤ (oracle 0).clock := h.expired
  have hfree : r.id ∉ s.locks := h.unlocked
  refine Relational.first_eq_some (mem_filter.mpr ⟨hmem,?_⟩) fun x hx hne => ?_
  · simp [row,hp,hexp,hfree]
  · obtain ⟨hxmem,hcond⟩ := mem_filter.mp hx
    simp only [Bool.and_eq_true,decide_eq_true_eq] at hcond
    have hbefore := h.earliest x hxmem hcond.1.1 hcond.1.2 hne
    exact ⟨hbefore,expiresBefore_asymm hbefore⟩

theorem ReapReady.closable (h : ReapReady s r.row actor attempt oracle) (hs : Inv s)
    (hmem : r.row ∈ s.reservations) (hv : r.Validate) (hp : r.status = .pending) :
    ∃ a, Closable (expiration actor) (s.lock r.id) a r := by
  obtain ⟨a,hscan⟩ := hs.valid.account
  obtain ⟨hrow,hav⟩ := scanBudgetAccount_eq_ok.mp hscan
  have hbal := hav.balance
  have hresv := hav.reserved
  refine ⟨a,hs.locks _,expiration_coherent actor,h.actor,hrow,hav,hmem,hv,hp,?_⟩
  simp only [expiration]
  omega

theorem reapLocked_alone (h : Closable (expiration actor) s a r) (hc : Calm oracle)
    {event : ExpirationEvent} (hexp : r.expiresAt ≤ max a.updatedAt (oracle (i + 1)).stamp)
    (hevent : buildExpirationEvent (commit (expiration actor) s a r (oracle (i + 1))).account
      (commit (expiration actor) s a r (oracle (i + 1))).reservation
      (commit (expiration actor) s a r (oracle (i + 1))).entry attempt = .ok event) :
    (reapLocked actor attempt r).alone oracle i s =
      if KeyFree .expire s r then some (.ok (some event),i + 2,
        after (expiration actor) s a r (oracle (i + 1)))
      else some (.error (.fail .conflict),i + 2,s) := by
  have hcov := h.covered
  have hbody := h.reapBody_eq hexp hevent
  unfold reapLocked
  simp only [alone_read,hc.query,h.loadBudgetAccount_eq]
  rw [if_neg (by omega),alone_write]
  split_ifs with hfree
  · rw [if_pos hfree] at hbody
    rw [hc.transact_ok hbody]
    rfl
  · rw [if_neg hfree] at hbody
    rw [hc.transact_error hbody]
    rfl

theorem ReapReady.expires_iff (h : ReapReady s r.row actor attempt oracle) (hs : Inv s)
    (hmem : r.row ∈ s.reservations) (hv : r.Validate) (hp : r.status = .pending) :
    Expires s r.row actor attempt oracle ↔ KeyFree .expire s r := by
  obtain ⟨a,hclose⟩ := h.closable hs hmem hv hp
  have hexp : r.expiresAt ≤ max a.updatedAt (oracle 2).stamp :=
    le_max_of_le_right (h.expired.trans (h.calm.clock 0 2 (by decide)))
  obtain ⟨event,hevent⟩ := hclose.buildExpirationEvent_eq (e := oracle 2) h.attempt hexp
  have hlocked := reapLocked_alone hclose h.calm (i := 1) hexp hevent
  unfold Expires reapOnce
  rw [alone_write,h.nextExpired_eq hmem hp,h.calm.claim_eq 0 hv]
  simp only [alone_bind,keyFree_lock,hlocked]
  constructor
  · rintro ⟨x,k,t,halone,-⟩
    by_contra hfree
    rw [if_neg hfree] at halone
    cases halone
  · intro hfree
    rw [if_pos hfree]
    obtain ⟨hr,-,hstat,-⟩ := buildExpirationEvent_eq_ok hevent
    refine ⟨event,_,_,rfl,?_,?_,?_⟩
    · rw [hr]
      rfl
    · rw [hr]
      exact hstat
    · rw [hr]
      exact hclose.after_mem (oracle 2)

end Expiration

/-! Keys of callers and keys of endings. -/

/-- A caller's key that is not the ledger key of a hold's ending. -/
def PlainKey (key : String) : Prop :=
  ∀ kind id, kind.closing → isUUID id → key ≠ settlementLedgerKey kind id

/-- A Reserve call with such a key, or any other call. -/
def PlainCall : Call → Prop
  | .reserve _ input => PlainKey input.idempotencyKey
  | .settle _ _ => True
  | .reap _ _ => True

def PlainRows (s : Database) : Prop :=
  ∀ key ∈ s.reservations.map (·.idempotencyKey), PlainKey key

theorem settlementLedgerKey_inj {kind kind' : EntryKind} {id id' : String} (hid : isUUID id)
    (hid' : isUUID id') (h : settlementLedgerKey kind id = settlementLedgerKey kind' id') :
    id = id' := by
  have hlist := congrArg String.toList h
  simp only [settlementLedgerKey,String.toList_append] at hlist
  have hlen : id.toList.length = id'.toList.length := by
    rw [isUUID_length hid,isUUID_length hid']
  exact String.toList_inj.mp (append_inj_right' hlist hlen)

theorem Inv.isUUID_id (hs : Inv s) {x : ReservationRow} (hx : x ∈ s.reservations) :
    isUUID x.id := by
  obtain ⟨v,hv⟩ := hs.valid.reservations x hx
  obtain ⟨rfl,hvalid⟩ := scanBudgetReservation_eq_ok.mp hv
  exact hvalid.id

theorem PlainRows.keyFree (h : PlainRows s) (hs : Inv s) {x : ReservationRow}
    (hx : x ∈ s.reservations) (hp : x.status = .pending) {kind : EntryKind}
    (hk : kind.closing) : KeyFree kind s x := by
  intro hmem
  obtain ⟨entry,he,hkey⟩ := mem_map.mp hmem
  have hkey : entry.idempotencyKey = settlementLedgerKey kind x.id := congrArg Prod.snd hkey
  obtain ⟨y,hy,hyid⟩ := hs.booked.reservation_mem he
  by_cases hkind : entry.kind = .reserve
  · -- an admission carries the key of its caller
    have hadm := (hs.booked.admits entry he hkind y hy hyid).key
    exact h _ (mem_map_of_mem hy) kind x.id hk (hs.isUUID_id hx) (hadm.symm.trans hkey)
  · -- an ending carries the identifier of a terminal hold
    have hends := hs.booked.ends entry he hkind y hy hyid
    have hid := settlementLedgerKey_inj (hs.isUUID_id hy) (hs.isUUID_id hx)
      (hends.key.symm.trans hkey)
    exact hends.terminal (hs.unique.eq_of_id hy hx hid ▸ hp)

theorem Acts.plainRows {call : Call} (h : Acts call s t) (hcall : PlainCall call)
    (hs : PlainRows s) : PlainRows t := by
  cases h with
  | idle _ _ locks => exact hs
  | opens options input _ c h =>
    intro key hkey
    have hnew : c.reservation.row.idempotencyKey = input.idempotencyKey :=
      congrArg (·.idempotencyKey) h.reservation
    simp only [Database.afterOpen,map_append,map_cons,map_nil,mem_append,mem_singleton,hnew] at hkey
    rcases hkey with hkey | rfl
    · exact hs key hkey
    · exact hcall
  | settles options input _ old c actual ha hid h =>
    unfold PlainRows
    rw [afterClose_keys]
    exact hs
  | expires options actor _ old c h =>
    unfold PlainRows
    rw [afterClose_keys]
    exact hs

theorem Environment.plainRows (h : Environment s t) (hs : PlainRows s) : PlainRows t := by
  cases h <;> exact hs

section Runs

variable {allowed : Call → Oracle → Prop} {p : Pool Database Oracle Call Reply} {x : ReservationRow}

theorem reachable_plainRows (hallow : ∀ call e, allowed call e → PlainCall call)
    (hp : (systemOf allowed).Reachable p) : PlainRows p.shared := by
  have hsound := (systemOf_sound allowed).and (J := PlainRows)
    (fun s hs => by simp [PlainRows,Initial.reservations hs])
    (fun s t _ hs henv => Environment.plainRows henv hs)
    (fun call e s t _ hs hg hacts => hacts.plainRows (hallow call e hg) hs)
  exact (hsound.holds hp).inv.2

theorem settlementEntryKind_closing (outcome : SettlementOutcome) (actual : ℕ) :
    (settlementEntryKind outcome actual).closing := by
  unfold settlementEntryKind
  split_ifs <;> rfl

/-- In every reachable pool an undisturbed Settle or Reap ends the pending hold `x` exactly if the
key of its closing ledger entry is free, and with plain Reserve keys it always is. -/
theorem pending_finishes (hp : (systemOf allowed).Reachable p) (hx : x ∈ p.shared.reservations)
    (hpend : x.status = .pending) :
    (∀ options input actual oracle, SettleReady p.shared x options input actual oracle →
      (Settles p.shared x options input oracle ↔
        KeyFree (settlementEntryKind input.outcome actual) p.shared x)) ∧
    (∀ actor attempt oracle, ReapReady p.shared x actor attempt oracle →
      (Expires p.shared x actor attempt oracle ↔ KeyFree .expire p.shared x)) ∧
    ((∀ call e, allowed call e → PlainCall call) → Finishable p.shared x) := by
  have hinv := ((systemOf_sound allowed).holds hp).inv
  obtain ⟨r,hscan⟩ := hinv.valid.reservations x hx
  obtain ⟨rfl,hv⟩ := scanBudgetReservation_eq_ok.mp hscan
  have hsettle : ∀ options input actual oracle,
      SettleReady p.shared r.row options input actual oracle →
      (Settles p.shared r.row options input oracle ↔
        KeyFree (settlementEntryKind input.outcome actual) p.shared r.row) :=
    fun _ _ _ _ h => h.settles_iff hinv hx hv hpend
  have hreap : ∀ actor attempt oracle, ReapReady p.shared r.row actor attempt oracle →
      (Expires p.shared r.row actor attempt oracle ↔ KeyFree .expire p.shared r.row) :=
    fun _ _ _ h => h.expires_iff hinv hx hv hpend
  refine ⟨hsettle,hreap,fun hallow => ?_⟩
  have hplain := reachable_plainRows hallow hp
  constructor
  · exact fun options input actual oracle h => (hsettle _ _ _ _ h).mpr
      (hplain.keyFree hinv hx hpend (settlementEntryKind_closing _ _))
  · exact fun actor attempt oracle h => (hreap _ _ _ h).mpr (hplain.keyFree hinv hx hpend rfl)

end Runs

/-! Two runs on one account: with a plain key the hold can be settled, and with the keys of its
endings taken by other callers it can neither be settled nor swept. -/

theorem sampleOracle_calm (time : Time) (h : 0 < time) (byte : UInt8) :
    Calm (sampleOracle time h byte) :=
  ⟨fun _ => rfl,fun _ => rfl,fun _ _ _ => le_rfl⟩

theorem plainKey_a : PlainKey "a" := by
  intro kind id _ hid h
  have hlist := congrArg (fun s => s.toList.length) h
  simp only [settlementLedgerKey,String.toList_append,length_append,isUUID_length hid] at hlist
  have hone : "a".toList.length = 1 := by decide
  omega

def sampleHeld : Pool Database Oracle Call Reply :=
  (systemOf fun c _ => PlainCall c).exec [.spawn (sampleReserve "a" 40),
    .run 0 4 (sampleOracle 2000 sampleClock_pos 0)] ⟨sampleDatabase,[]⟩

def sampleHold : ReservationRow where
  id := sampleID
  tenantID := sampleID
  accountID := sampleID
  requestID := "r"
  idempotencyKey := "a"
  status := .pending
  reservedMicros := 40
  actualMicros := none
  releasedMicros := none
  overageMicros := none
  expiresAt := 5000
  version := 1
  createdAt := 2000
  createdBy := "g"
  updatedAt := 2000
  updatedBy := "g"
  terminalAt := none

theorem sampleHeld_reachable : (systemOf fun c _ => PlainCall c).Reachable sampleHeld := by
  refine (System.Reachable.init _ sampleDatabase_initial).reaches
    (System.exec_reaches (by simp) fun c hc _ _ => ?_)
  simp only [mem_cons,System.Turn.spawn.injEq,reduceCtorEq,not_mem_nil,or_self,or_false] at hc
  subst hc
  exact plainKey_a

theorem sampleHeld_rows : (sampleHeld.shared.reservations,sampleHeld.shared.locks,
      sampleHeld.shared.account.committedMicros,sampleHeld.shared.account.reservedMicros,
      sampleHeld.shared.requests sampleID "r") = ([sampleHold],[],0,40,some .succeeded) := by
  decide +kernel

theorem sampleHold_finishes : sampleHold ∈ sampleHeld.shared.reservations ∧
      SettleReady sampleHeld.shared sampleHold sampleOptions (sampleSettlement 45) 45
        (sampleOracle 2000 sampleClock_pos 0) ∧
      Settles sampleHeld.shared sampleHold sampleOptions (sampleSettlement 45)
        (sampleOracle 2000 sampleClock_pos 0) := by
  obtain ⟨hholds,hlocks,hcommit,hresv,hrequest⟩ :
      sampleHeld.shared.reservations = [sampleHold] ∧ sampleHeld.shared.locks = [] ∧
        sampleHeld.shared.account.committedMicros = 0 ∧
        sampleHeld.shared.account.reservedMicros = 40 ∧
        sampleHeld.shared.requests sampleID "r" = some .succeeded := by
    simpa only [Prod.mk.injEq] using sampleHeld_rows
  have hmem : sampleHold ∈ sampleHeld.shared.reservations := by
    rw [hholds]
    exact mem_singleton_self _
  have hready : SettleReady sampleHeld.shared sampleHold sampleOptions (sampleSettlement 45) 45
      (sampleOracle 2000 sampleClock_pos 0) := by
    refine ⟨sampleOracle_calm _ _ _,?_,rfl,rfl,rfl,rfl,by decide +kernel,
      ⟨.succeeded,hrequest,rfl⟩,?_⟩
    · rw [hlocks]
      exact not_mem_nil
    · rw [hcommit,hresv]
      decide
  exact ⟨hmem,hready,
    ((pending_finishes sampleHeld_reachable hmem rfl).2.2 fun _ _ h => h).settle _ _ _ _ hready⟩

def sampleCollision : Pool Database Oracle Call Reply :=
  sampleRun [(sampleReserve "a" 40,sampleOracle 2000 sampleClock_pos 0),
    (sampleReserve ("settle:" ++ sampleID) 1,sampleOracle 2000 sampleClock_pos 1),
    (sampleReserve ("expire:" ++ sampleID) 1,sampleOracle 2000 sampleClock_pos 2),
    (sampleSettle 40,sampleOracle 2000 sampleClock_pos 3),
    (.reap ⟨10,by decide,by decide,sampleOptions⟩ "ops",sampleOracle 6000 (by decide) 4)]

theorem sampleCollision_conflicts : system.Reachable sampleCollision ∧
    (sampleCollision.results.map fun x => x.map Reply.failure,
      sampleCollision.shared.reservations.map (·.status)) =
      ([some none,some none,some none,some (some .conflict),some (some .conflict)],
        [.pending,.pending,.pending]) :=
  ⟨sampleRun_reachable _,by decide +kernel⟩

end Budget
