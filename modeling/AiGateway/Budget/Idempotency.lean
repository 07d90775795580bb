import AiGateway.Budget.HardLimit

/-! Repeated and concurrent commands. However many calls carry one Reserve key, or settle one hold,
one of them takes effect; the others report its facts or fail without touching a row. -/
namespace Budget
open Interleaving Interleaving.Prog Relational List Option ReservationOf

/-- The stored hold `r` carries the key of the command. -/
structure SameKey (input : ReserveInput) (r : ReservationRow) : Prop where
  tenantID : r.tenantID = input.tenantID
  accountID : r.accountID = input.accountID
  key : r.idempotencyKey = input.idempotencyKey

/-- The command disagrees with the stored hold `r`, deadlines compared at stored precision. -/
def Differs (input : ReserveInput) (r : ReservationRow) : Prop :=
  r.requestID ≠ input.requestID ∨ r.reservedMicros ≠ input.amountMicros ∨
    r.expiresAt ≠ postgresTime input.expiresAt

/-- The settlement disagrees with how the hold `r` ended. -/
def Unlike (input : SettlementInput) (r : ReservationRow) : Prop :=
  r.status ≠ settlementReservationStatus input.outcome ∨
    ∀ actual : ℕ, input.actualMicros = .ok actual → r.actualMicros ≠ some (actual : ℤ)

structure SameRows (s t : Database) : Prop where
  account : t.account = s.account
  reservations : t.reservations = s.reservations
  ledger : t.ledger = s.ledger

/-- From `p` on, the call can only fail, and its steps change no row. -/
structure Barred (S : System Database Oracle Call Reply) (call : Call)
    (p : Pool Database Oracle Call Reply) : Prop where
  fails : ∀ q, S.Reaches p q → ∀ reply, (call,.ret reply) ∈ q.threads → reply.failure.isSome
  idle : ∀ q, S.Reaches p q → ∀ ready update next e,
    (call,.step ready update next) ∈ q.threads → ready q.shared →
    S.guard call e q.shared → SameRows q.shared (update e q.shared)

/-- How a Reserve call may fail that was made when a hold with other facts was already stored.
`allowed` admits the outside events: it is refused as invalid only if its deadline has passed by
the clock, and as unavailable only if the database does not answer. -/
def Refusal (allowed : Oracle → Prop) (input : ReserveInput) : Failure → Prop
  | .idempotencyConflict => True
  | .invalid => ¬input.Validate ∨ input.stored.expiresAt = 0 ∨
      ∃ e, allowed e ∧ (postgresTime e.now = 0 ∨ ¬postgresTime e.now < input.stored.expiresAt)
  | .unavailable => ∃ e, allowed e ∧ e.fault ≠ none
  | _ => False

variable {s t : Database} {allowed : Call → Oracle → Prop}
  {p q : Pool Database Oracle Call Reply} {r : ReservationRow} {input : ReserveInput}

/-! One Reserve key. -/

theorem KeysUnique.eq_of_key (h : KeysUnique s) {r r' : ReservationRow} (hr : r ∈ s.reservations)
    (hr' : r' ∈ s.reservations) (hkey : r.idempotencyKey = r'.idempotencyKey) : r = r' :=
  inj_on_of_nodup_map h.keys hr hr' hkey

/-- A hold that carries the key of the command and other facts. -/
def Contradicted (input : ReserveInput) (s : Database) : Prop :=
  ∃ r ∈ s.reservations, SameKey input r ∧ Differs input r

theorem Contradicted.evolves (h : Contradicted input s) (hst : Evolves s t) :
    Contradicted input t := by
  obtain ⟨r,hr,hkey,hdiff⟩ := h
  obtain ⟨r',hr',hc⟩ := hst.holds r hr
  have hfield : ∀ {β : Type} (f : ReservationRow → β), f r'.created = f r.created :=
    fun f => congrArg f hc.created
  refine ⟨r',hr',⟨(hfield (·.tenantID)).trans hkey.tenantID,
    (hfield (·.accountID)).trans hkey.accountID,(hfield (·.idempotencyKey)).trans hkey.key⟩,?_⟩
  unfold Differs
  rw [show r'.requestID = r.requestID from hfield (·.requestID),
    show r'.reservedMicros = r.reservedMicros from hfield (·.reservedMicros),
    show r'.expiresAt = r.expiresAt from hfield (·.expiresAt)]
  exact hdiff

theorem Held.not_contradicted {result : ReserveResult} (h : Held input.stored result s)
    (hk : KeysUnique s) : ¬Contradicted input s := by
  rintro ⟨r,hr,hkey,hdiff⟩
  obtain ⟨x,hx,hc⟩ := h.stored
  have hxr : x = r := by
    refine hk.eq_of_key hx hr ((congrArg (·.idempotencyKey) hc).trans ?_)
    exact h.key.trans hkey.key.symm
  subst hxr
  rcases hdiff with hne | hne | hne
  · exact hne ((congrArg (·.requestID) hc).trans h.requestID)
  · refine hne ((congrArg (·.reservedMicros) hc).trans ?_)
    exact congrArg Nat.cast h.amount
  · exact hne ((congrArg (·.expiresAt) hc).trans h.expiresAt)

variable {options : ReserveOptions}

theorem Acts.sameRows_of_contradicted
    (h : Acts (.reserve options input) s t) (hc : Contradicted input s) : SameRows s t := by
  cases h with
  | idle _ _ locks => exact ⟨rfl,rfl,rfl⟩
  | opens _ _ _ c h =>
    obtain ⟨r,hr,hkey,-⟩ := hc
    refine absurd (mem_map.mpr ⟨r,hr,?_⟩) h.freshKey
    exact Prod.ext hkey.accountID hkey.key

theorem reservationByKey_eq (hk : KeysUnique s) (hr : r ∈ s.reservations) (hkey : SameKey input r) :
    s.reservationByKey input.tenantID input.accountID input.idempotencyKey = some r := by
  cases hfind : s.reservationByKey input.tenantID input.accountID input.idempotencyKey with
  | none =>
    have hnone := find?_eq_none.mp hfind r hr
    simp [hkey.tenantID,hkey.accountID,hkey.key] at hnone
  | some x =>
    obtain ⟨hx,-,-,hxkey⟩ := reservationByKey_mem hfind
    rw [hk.eq_of_key hx hr (hxkey.trans hkey.key.symm)]

section Refused

variable {g : Oracle → Database → Prop} {G : Database → Database → Prop}
  {admitted : Oracle → Prop}

section
variable (hG : ∀ s, G s s) (hg : ∀ e s, g e s → admitted e) (hc : Contradicted input s)
include hG hg hc

theorem loadExistingReserve_refused (attempt : ℕ) :
    (loadExistingReserve input.stored attempt).Sat contract g G (fun out _ =>
      ∃ f, out = .error f ∧ Refusal admitted input f) s := by
  unfold loadExistingReserve
  refine sat_read hG fun t e hst hi hge => ?_
  cases hf : e.fault with
  | some f =>
    have hquery : ∀ x : Except SqlError Reservation, e.query x = .error f.sqlError := by
      intro x
      simp [Oracle.query,hf]
    rw [hquery]
    cases f <;> exact sat_ret fun _ _ _ => ⟨_,rfl,e,hg e t hge,by simp [hf]⟩
  | none =>
    obtain ⟨r,hr,hkey,hdiff⟩ := hc.evolves hst
    obtain ⟨v,hv⟩ := hi.valid.reservations r hr
    have hkey' : SameKey input.stored r := ⟨hkey.tenantID,hkey.accountID,hkey.key⟩
    have hquery : e.query (scanFirst scanBudgetReservation (t.reservationByKey
        input.stored.tenantID input.stored.accountID input.stored.idempotencyKey)) = .ok v := by
      rw [reservationByKey_eq hi.unique hr hkey']
      simp [Oracle.query,hf,scanFirst,hv]
    obtain ⟨rfl,-⟩ := scanBudgetReservation_eq_ok.mp hv
    have hne : v.requestID ≠ input.stored.requestID ∨
        v.reservedMicros ≠ input.stored.amountMicros ∨ v.expiresAt ≠ input.stored.expiresAt :=
      hdiff.imp_right (Or.imp_left fun h heq => h (congrArg Nat.cast heq))
    rw [hquery]
    simp only
    rw [if_pos hne]
    exact sat_ret fun _ _ _ => ⟨.idempotencyConflict,rfl,trivial⟩

theorem reserve_refused (options : ReserveOptions) :
    (reserve options input).Sat contract g G (fun out _ =>
      ∃ f, out = .error f ∧ Refusal admitted input f) s := by
  unfold reserve
  split_ifs with hvalid hzero
  · exact sat_ret fun _ _ _ => ⟨.invalid,rfl,.inr (.inl hzero)⟩
  · obtain ⟨n,hn⟩ := Nat.exists_eq_add_of_le' options.positive
    rw [hn,reserveLoop]
    refine sat_read hG fun t e hst hi hge => ?_
    split
    · rename_i hdead
      exact sat_ret fun _ _ _ => ⟨.invalid,rfl,.inr (.inr ⟨e,hg e t hge,hdead⟩)⟩
    · refine Sat.bind ?_ hi
      unfold reserveOnce
      refine Sat.bind ((loadExistingReserve_refused hG hg (hc.evolves hst) 1).mono
        (fun _ _ h => h) fun out u hu hout => ?_) hi
      obtain ⟨f,rfl,hf⟩ := hout
      exact sat_ret fun _ _ _ => sat_ret fun _ _ _ => ⟨f,rfl,hf⟩
  · exact sat_ret fun _ _ _ => ⟨.invalid,rfl,.inl hvalid⟩

end
end Refused

/-! Runs. -/

variable {reply : Reply}

theorem Post.contradicted_fails
    (h : Post (.reserve options input) reply s) (hk : KeysUnique s) (hc : Contradicted input s) :
    reply.failure.isSome := by
  cases reply with
  | reserve result =>
    cases result with
    | ok result => exact absurd hc (Held.not_contradicted h hk)
    | error f => rfl
  | settle result => exact h.elim
  | reap reply => exact h.elim

section
variable (hp : (systemOf allowed).Reachable p) (hc : Contradicted input p.shared)
include hp hc

/-- Once a hold with other facts is stored under its key, a Reserve call cannot take effect. -/
theorem reserve_barred (options : ReserveOptions) :
    Barred (systemOf allowed) (.reserve options input) p := by
  have hsound := systemOf_sound allowed
  have hlater : ∀ q, (systemOf allowed).Reaches p q → Contradicted input q.shared :=
    fun q hq => hc.evolves (hsound.reaches hp hq)
  constructor
  · intro q hq reply hmem
    have hq' := hp.reaches hq
    exact (hsound.result hq' hmem).contradicted_fails (hsound.holds hq').inv.unique (hlater q hq)
  · intro q hq ready update next e hmem hready hguard
    exact (hsound.guarantee (hp.reaches hq) e hmem hready hguard).sameRows_of_contradicted
      (hlater q hq)

theorem reserve_refused_later (hq : (systemOf allowed).Reaches p q) {i : ℕ}
    (hi : p.threads.length ≤ i)
    (hreply : q.threads[i]? = some (.reserve options input,.ret reply)) :
    ∃ f, reply = .reserve (.error f) ∧ Refusal (allowed (.reserve options input)) input f := by
  have hsound := systemOf_sound allowed
  have hsat := hsound.later (Contradicted input) (fun call reply _ =>
      call = .reserve options input → ∃ f, reply = .reserve (.error f) ∧
        Refusal (allowed (.reserve options input)) input f)
    (fun _ _ hst h => h.evolves hst) (fun call s hs hF => ?_) hp hc hq hi hreply
  · have hinv := (hsound.holds (hp.reaches hq)).inv
    exact hsat q.shared (Evolves.refl _) hinv rfl
  · by_cases hcall : call = .reserve options input
    · subst hcall
      have hrefused := reserve_refused (g := (systemOf allowed).guard (.reserve options input))
        (G := Acts (.reserve options input)) (fun s => .idle _ s s.locks)
        (fun e _ (h : allowed (.reserve options input) e) => h) hF options
      refine Sat.bind (hrefused.mono (fun _ _ h => h) fun out t _ hout => ?_) hs
      obtain ⟨f,rfl,hf⟩ := hout
      exact sat_ret fun _ _ _ _ => ⟨f,rfl,hf⟩
    · exact (start_sat call hs).mono (fun _ _ h => h) fun _ _ _ _ h => absurd h hcall

end

/-! One hold. -/

variable {result : SettlementResult}

theorem Reconciled.not_unlike {input : SettlementInput} (h : Reconciled input result s)
    (hk : KeysUnique s) (hr : r ∈ s.reservations) (hid : input.reservationID = r.id) :
    ¬Unlike input r := by
  have hrow : result.reservation.row = r := hk.eq_of_id h.stored hr (h.id.trans hid)
  subst hrow
  rintro (hne | hne)
  · exact hne h.status
  · refine hne _ h.input ?_
    simp [row,h.actual]

theorem Acts.sameRows_of_terminal {input : SettlementInput}
    (h : Acts (.settle options input) s t) (hk : KeysUnique s) (hr : r ∈ s.reservations)
    (hid : input.reservationID = r.id) (hterm : r.status ≠ .pending) : SameRows s t := by
  cases h with
  | idle _ _ locks => exact ⟨rfl,rfl,rfl⟩
  | settles _ _ _ old c actual ha hold h =>
    have heq := hk.eq_of_id h.mem hr (hold.trans hid)
    subst heq
    exact absurd h.pending hterm

theorem Post.unlike_fails {input : SettlementInput}
    (h : Post (.settle options input) reply s) (hk : KeysUnique s) (hr : r ∈ s.reservations)
    (hid : input.reservationID = r.id) (hne : Unlike input r) : reply.failure.isSome := by
  cases reply with
  | reserve result => exact h.elim
  | settle result =>
    cases result with
    | ok result => exact absurd hne (Reconciled.not_unlike h hk hr hid)
    | error f => rfl
  | reap reply => exact h.elim

/-- Once the hold has ended, a Settle call with another total or outcome cannot take effect. -/
theorem settle_barred (hp : (systemOf allowed).Reachable p) (hr : r ∈ p.shared.reservations)
    (hterm : r.status ≠ .pending) {input : SettlementInput}
    (hid : input.reservationID = r.id) (hne : Unlike input r) (options : ReserveOptions) :
    Barred (systemOf allowed) (.settle options input) p := by
  have hsound := systemOf_sound allowed
  have hlater : ∀ q, (systemOf allowed).Reaches p q → r ∈ q.shared.reservations :=
    fun q hq => Evolves.terminal_mem (hsound.reaches hp hq) hr hterm
  constructor
  · intro q hq reply hmem
    have hq' := hp.reaches hq
    exact (hsound.result hq' hmem).unlike_fails (hsound.holds hq').inv.unique (hlater q hq) hid hne
  · intro q hq ready update next e hmem hready hguard
    have hq' := hp.reaches hq
    exact (hsound.guarantee hq' e hmem hready hguard).sameRows_of_terminal
      (hsound.holds hq').inv.unique (hlater q hq) hid hterm

/-! The results. -/

variable (allowed p) in
/-- One Reserve key names one hold. -/
structure ReservesOnce : Prop where
  hold : ∀ key, p.shared.reservations.countP (fun r => r.idempotencyKey = key) ≤ 1
  entry : ∀ key, p.shared.ledger.countP
    (fun e => e.idempotencyKey = key && e.kind = .reserve) ≤ 1
  success : ∀ options input result,
    (.reserve options input,.ret (.reserve (.ok result))) ∈ p.threads →
      ∃ r ∈ p.shared.reservations, SameKey input r ∧ ¬Differs input r ∧
        result.reservation.row.created = r.created ∧
        ∃ e ∈ p.shared.ledger, e.kind = .reserve ∧ e.idempotencyKey = input.idempotencyKey ∧
          e.reservationID = r.id ∧ result.ledgerEntry.row = e
  barred : ∀ r ∈ p.shared.reservations, ∀ input, SameKey input r → Differs input r →
    ∀ options, Barred (systemOf allowed) (.reserve options input) p
  refused : ∀ r ∈ p.shared.reservations, ∀ input, SameKey input r → Differs input r →
    ∀ q, (systemOf allowed).Reaches p q → ∀ i options reply, p.threads.length ≤ i →
      q.threads[i]? = some (.reserve options input,.ret reply) →
      ∃ f, reply = .reserve (.error f) ∧ Refusal (allowed (.reserve options input)) input f

variable (allowed p) in
/-- One hold ends once. -/
structure SettlesOnce : Prop where
  entry : ∀ id, p.shared.ledger.countP (fun e => e.reservationID = id && e.kind.closing) ≤ 1
  stays : ∀ r ∈ p.shared.reservations, r.status ≠ .pending →
    ∀ q, (systemOf allowed).Reaches p q → r ∈ q.shared.reservations
  amounts : ∀ options input result,
    (.settle options input,.ret (.settle (.ok result))) ∈ p.threads →
      (result.releasedMicros : ℤ) - result.overageMicros =
        result.reservation.reservedMicros - result.actualMicros
  same : ∀ options input result options' input' result',
    (.settle options input,.ret (.settle (.ok result))) ∈ p.threads →
    (.settle options' input',.ret (.settle (.ok result'))) ∈ p.threads →
    input.reservationID = input'.reservationID →
      result.reservation = result'.reservation ∧ result.actualMicros = result'.actualMicros ∧
        result.releasedMicros = result'.releasedMicros ∧
        result.overageMicros = result'.overageMicros
  barred : ∀ r ∈ p.shared.reservations, r.status ≠ .pending → ∀ input,
    input.reservationID = r.id → Unlike input r →
    ∀ options, Barred (systemOf allowed) (.settle options input) p

theorem Held.reports {result : ReserveResult} (h : Held input.stored result s) (hs : Inv s) :
    ∃ r ∈ s.reservations, SameKey input r ∧ ¬Differs input r ∧
      result.reservation.row.created = r.created ∧
      ∃ e ∈ s.ledger, e.kind = .reserve ∧ e.idempotencyKey = input.idempotencyKey ∧
        e.reservationID = r.id ∧ result.ledgerEntry.row = e := by
  obtain ⟨r,hr,hc⟩ := h.stored
  have hkey : SameKey input r := ⟨(congrArg (·.tenantID) hc).trans h.tenantID,
    (congrArg (·.accountID) hc).trans h.accountID,(congrArg (·.idempotencyKey) hc).trans h.key⟩
  have hid : r.id = result.reservation.id := congrArg (·.id) hc
  have hentry : result.ledgerEntry.row.reservationID = r.id := h.entryID.trans hid.symm
  have hbooked := hs.booked.admits _ h.entry h.entryKind r hr hentry.symm
  exact ⟨r,hr,hkey,fun hdiff => h.not_contradicted hs.unique ⟨r,hr,hkey,hdiff⟩,hc.symm,_,
    h.entry,h.entryKind,hbooked.key.trans hkey.key,hentry,rfl⟩

theorem Reconciled.released_sub_overage {input : SettlementInput}
    (h : Reconciled input result s) (hs : Inv s) :
    (result.releasedMicros : ℤ) - result.overageMicros =
      result.reservation.reservedMicros - result.actualMicros := by
  obtain ⟨v,hv⟩ := hs.valid.reservations _ h.stored
  obtain ⟨hrow,hvalid⟩ := scanBudgetReservation_eq_ok.mp hv
  have heq := row_injective hrow
  subst heq
  have hterm : result.reservation.status ≠ .pending := by
    rw [h.status]
    exact settlementReservationStatus_ne_pending _
  obtain ⟨actual,released,overage,-,ha,hr,ho,-,-,-,-,-,hdiff⟩ :=
    hvalid.terminal hterm
  have h₁ : actual = result.actualMicros := some.inj (ha.symm.trans h.actual)
  have h₂ : released = result.releasedMicros := some.inj (hr.symm.trans h.released)
  have h₃ : overage = result.overageMicros := some.inj (ho.symm.trans h.overage)
  subst h₁ h₂ h₃
  unfold reservationDifference at hdiff
  split_ifs at hdiff <;> simp only [Prod.mk.injEq] at hdiff <;> omega

theorem Reconciled.same {input input' : SettlementInput} {result result' : SettlementResult}
    (h : Reconciled input result s) (h' : Reconciled input' result' s) (hk : KeysUnique s)
    (hid : input.reservationID = input'.reservationID) :
    result.reservation = result'.reservation ∧ result.actualMicros = result'.actualMicros ∧
      result.releasedMicros = result'.releasedMicros ∧
      result.overageMicros = result'.overageMicros := by
  have heq : result.reservation = result'.reservation := row_injective
    (hk.eq_of_id h.stored h'.stored (h.id.trans (hid.trans h'.id.symm)))
  refine ⟨heq,some.inj ?_,some.inj ?_,some.inj ?_⟩
  · rw [← h.actual,← h'.actual,heq]
  · rw [← h.released,← h'.released,heq]
  · rw [← h.overage,← h'.overage,heq]

theorem reservesOnce (hp : (systemOf allowed).Reachable p) : ReservesOnce allowed p := by
  have hsound := systemOf_sound allowed
  have hinv := (hsound.holds hp).inv
  constructor
  case hold =>
    intro key
    have hcount := nodup_iff_count_le_one.mp hinv.unique.keys key
    rwa [count,countP_map] at hcount
  case entry =>
    intro key
    rw [countP_key fun e : LedgerRow => decide (e.kind = .reserve)]
    exact nodup_iff_count_le_one.mp (hinv.unique.ledger.sublist (filter_sublist.map _)) key
  case success => exact fun options input result hmem => (hsound.result hp hmem).reports hinv
  case barred =>
    exact fun r hr input hkey hdiff options => reserve_barred hp ⟨r,hr,hkey,hdiff⟩ options
  case refused =>
    exact fun r hr input hkey hdiff q hq i options reply hi hreply =>
      reserve_refused_later hp ⟨r,hr,hkey,hdiff⟩ hq hi hreply

theorem settlesOnce (hp : (systemOf allowed).Reachable p) : SettlesOnce allowed p := by
  have hsound := systemOf_sound allowed
  have hinv := (hsound.holds hp).inv
  constructor
  case entry =>
    intro id
    rw [hinv.booked.countP_closing]
    exact nodup_iff_count_le_one.mp hinv.booked.closings id
  case stays =>
    exact fun r hr hterm q hq => Evolves.terminal_mem (hsound.reaches hp hq) hr hterm
  case amounts =>
    exact fun options input result hmem => (hsound.result hp hmem).released_sub_overage hinv
  case same =>
    exact fun options input result options' input' result' hmem hmem' hid =>
      Reconciled.same (hsound.result hp hmem) (hsound.result hp hmem') hinv.unique hid
  case barred =>
    exact fun r hr hterm input hid hne options => settle_barred hp hr hterm hid hne options

/-- Whatever calls run and however their steps interleave, each Reserve key has one hold with one
admission entry, and each hold ends once. -/
theorem reachable_exactlyOnce (hp : (systemOf allowed).Reachable p) :
    ReservesOnce allowed p ∧ SettlesOnce allowed p :=
  ⟨reservesOnce hp,settlesOnce hp⟩

/-! A race on one key: the first call has found no hold when the second one stores its own. A third
call comes with a deadline that has passed. -/

def sampleRace : Pool Database Oracle Call Reply :=
  system.exec [.spawn (sampleReserve "a" 50),.run 0 2 (sampleOracle 2000 sampleClock_pos 0),
    .spawn (sampleReserve "a" 60),.run 1 4 (sampleOracle 2000 sampleClock_pos 1),
    .run 0 2 (sampleOracle 2000 sampleClock_pos 2),
    .spawn (sampleReserveUntil 1000 "a" 60),.run 2 4 (sampleOracle 2000 sampleClock_pos 3)]
    ⟨sampleDatabase,[]⟩

theorem sampleRace_replies : (sampleRace.results.map fun x => x.map Reply.failure,
      sampleRace.shared.reservations.map fun r => (r.idempotencyKey,r.reservedMicros,
        r.expiresAt)) =
      ([some (some (.budgetExceeded ⟨.hard,40,9000000,.none⟩)),some none,
        some (some .invalid)],[("a",60,5000)]) := by
  decide +kernel

theorem sampleRace_reachable : system.Reachable sampleRace :=
  (System.Reachable.init _ sampleDatabase_initial).reaches
    (System.exec_reaches (by simp) fun _ _ _ _ => trivial)

theorem sampleRace_exactlyOnce : sampleRace.shared.reservations.length = 1 ∧
      ReservesOnce (fun _ _ => True) sampleRace ∧ SettlesOnce (fun _ _ => True) sampleRace := by
  have hlen := congrArg (fun x => x.2.length) sampleRace_replies
  simp only [length_map,length_cons,length_nil] at hlen
  exact ⟨hlen,reachable_exactlyOnce sampleRace_reachable⟩

/-- Neither losing call is told of the conflict: one exceeds the budget left by the winner, and the
other has expired. -/
theorem sampleRace_losers : system.Reachable sampleRace ∧
    (sampleRace.results.map fun x => x.map Reply.failure) =
      [some (some (.budgetExceeded ⟨.hard,40,9000000,.none⟩)),some none,some (some .invalid)] ∧
    (sampleRace.shared.reservations.map fun r => (r.idempotencyKey,r.reservedMicros,
      r.expiresAt)) = [("a",60,5000)] :=
  ⟨sampleRace_reachable,by simpa only [Prod.mk.injEq] using sampleRace_replies⟩

end Budget
