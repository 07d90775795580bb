import AiGateway.Budget.Arithmetic
import AiGateway.Budget.Contract

/-! Every call keeps the contract, whatever the others do between its steps, and what it returns
is true of the stored rows from then on. -/
namespace Budget
open Interleaving Interleaving.Prog Machine List

/-- What a successful Reserve reports: a stored hold with the facts of the command, and its
ledger entry. -/
structure Held (input : ReserveInput) (result : ReserveResult) (s : Database) : Prop where
  stored : ∃ r ∈ s.reservations, r.created = result.reservation.row.created
  tenantID : result.reservation.tenantID = input.tenantID
  accountID : result.reservation.accountID = input.accountID
  key : result.reservation.idempotencyKey = input.idempotencyKey
  requestID : result.reservation.requestID = input.requestID
  amount : result.reservation.reservedMicros = input.amountMicros
  expiresAt : result.reservation.expiresAt = input.expiresAt
  entry : result.ledgerEntry.row ∈ s.ledger
  entryKind : result.ledgerEntry.kind = .reserve
  entryID : result.ledgerEntry.reservationID = result.reservation.id
  committed : result.resultCommittedMicros = result.ledgerEntry.resultCommittedMicros
  reserved : result.resultReservedMicros = result.ledgerEntry.resultReservedMicros

/-- What a successful Settle reports: a stored terminal hold and its ledger entry. -/
structure Reconciled (input : SettlementInput) (result : SettlementResult) (s : Database) :
    Prop where
  stored : result.reservation.row ∈ s.reservations
  id : result.reservation.id = input.reservationID
  status : result.reservation.status = settlementReservationStatus input.outcome
  input : input.actualMicros = .ok result.actualMicros
  actual : result.reservation.actualMicros = some result.actualMicros
  released : result.reservation.releasedMicros = some result.releasedMicros
  overage : result.reservation.overageMicros = some result.overageMicros
  entry : result.ledgerEntry.row ∈ s.ledger
  entryID : result.ledgerEntry.reservationID = result.reservation.id

/-- What one expiration event reports. -/
structure Reaped (event : ExpirationEvent) (s : Database) : Prop where
  stored : event.reservation.row ∈ s.reservations
  status : event.reservation.status = .expired
  entry : event.ledgerEntry.row ∈ s.ledger
  entryID : event.ledgerEntry.reservationID = event.reservation.id

/-- The result of one attempt. -/
def Attempted {α : Type} (P : α → Database → Prop) : Except Abort α → Database → Prop
  | .ok a, s => P a s
  | .error .retry, _ => True
  | .error (.fail f), _ => f ≠ .overflow

/-- The result of a command. -/
def Returned {α : Type} (P : α → Database → Prop) : Except Failure α → Database → Prop
  | .ok a, s => P a s
  | .error f, _ => f ≠ .overflow

def Post : Call → Reply → Database → Prop
  | .reserve _ input, .reserve result, s => Returned (Held input.stored) result s
  | .settle _ input, .settle result, s => Returned (Reconciled input) result s
  | .reap _ _, .reap reply, s =>
      reply.failure ≠ some .overflow ∧ ∀ event ∈ reply.result.events, Reaped event s
  | _, _, _ => False

attribute [simp] Attempted Returned

variable {s t : Database} {β : Type} {e : Oracle}

theorem settlementReservationStatus_ne_pending (outcome : SettlementOutcome) :
    settlementReservationStatus outcome ≠ .pending := by
  unfold settlementReservationStatus
  split_ifs <;> simp

variable {r : ReservationRow}

theorem Evolves.terminal_mem (h : Evolves s t) (hr : r ∈ s.reservations)
    (hp : r.status ≠ .pending) : r ∈ t.reservations := by
  obtain ⟨r',hr',hc⟩ := h.holds r hr
  rwa [hc.terminal hp] at hr'

theorem Held.evolves {input : ReserveInput} {result : ReserveResult} (h : Held input result s)
    (hst : Evolves s t) : Held input result t := by
  obtain ⟨r,hr,hc⟩ := h.stored
  obtain ⟨r',hr',hc'⟩ := hst.holds r hr
  exact { h with
    stored := ⟨r',hr',hc'.created.trans hc⟩
    entry := hst.ledger.subset h.entry }

variable {input : SettlementInput} {result : SettlementResult}

theorem Reconciled.evolves (h : Reconciled input result s) (hst : Evolves s t) :
    Reconciled input result t := by
  have hp : result.reservation.row.status ≠ .pending := by
    rw [show result.reservation.row.status = result.reservation.status from rfl,h.status]
    exact settlementReservationStatus_ne_pending _
  exact { h with
    stored := hst.terminal_mem h.stored hp
    entry := hst.ledger.subset h.entry }

variable {event : ExpirationEvent}

theorem Reaped.evolves (h : Reaped event s) (hst : Evolves s t) : Reaped event t := by
  have hp : event.reservation.row.status ≠ .pending := by
    rw [show event.reservation.row.status = event.reservation.status from rfl,h.status]
    simp
  exact { h with
    stored := hst.terminal_mem h.stored hp
    entry := hst.ledger.subset h.entry }

/-! What the queries return. -/

theorem query_eq_ok {x : Except SqlError β} {b : β} (h : e.query x = .ok b) : x = .ok b := by
  unfold Oracle.query at h
  split at h
  · cases h
  · exact h

theorem scanFirst_eq_ok {row : Type} {scan : row → Except SqlError β} {x : Option row} {b : β}
    (h : scanFirst scan x = .ok b) : ∃ r, x = some r ∧ scan r = .ok b := by
  cases x with
  | none => cases h
  | some r => exact ⟨r,rfl,h⟩

variable {tenantID accountID : String} {account : Account}

theorem loadBudgetAccount_valid (h : s.loadBudgetAccount tenantID accountID = .ok account) :
    account.Validate := by
  unfold Database.loadBudgetAccount at h
  split_ifs at h
  exact (scanBudgetAccount_eq_ok.mp h).2

theorem reservationByKey_mem {key : String}
    (h : s.reservationByKey tenantID accountID key = some r) : r ∈ s.reservations ∧
      r.tenantID = tenantID ∧ r.accountID = accountID ∧ r.idempotencyKey = key :=
  ⟨mem_of_find?_eq_some h,by simpa using find?_some h⟩

theorem reservationByID_mem {id : String} (h : s.reservationByID tenantID accountID id = some r) :
    r ∈ s.reservations ∧ r.tenantID = tenantID ∧ r.accountID = accountID ∧ r.id = id :=
  ⟨mem_of_find?_eq_some h,by simpa using find?_some h⟩

theorem ledgerEntry_mem {reservationID key : String} {kind : EntryKind}
    {x : LedgerRow} (h : s.ledgerEntry tenantID accountID reservationID kind key = some x) :
    x ∈ s.ledger ∧ x.tenantID = tenantID ∧ x.accountID = accountID ∧
      x.reservationID = reservationID ∧ x.kind = kind ∧ x.idempotencyKey = key :=
  ⟨mem_of_find?_eq_some h,by simpa using find?_some h⟩

theorem nextExpired_mem {clock : Time} (h : s.nextExpired clock = some r) : r ∈ s.reservations :=
  (mem_filter.mp (Relational.first_mem h)).1

/-! What the results are made of. -/

variable {reservation : Reservation} {entry : LedgerEntry}

theorem buildReserveResult_eq_ok {hint : DegradationHint} {idempotent : Bool} {attempts : ℕ}
    {result : ReserveResult}
    (h : buildReserveResult account reservation entry hint idempotent attempts = .ok result) :
    result.reservation = reservation ∧ result.ledgerEntry = entry ∧
      result.resultCommittedMicros = entry.resultCommittedMicros ∧
      result.resultReservedMicros = entry.resultReservedMicros := by
  unfold buildReserveResult at h
  simp only [throw_bind,ite_throw_eq_ok,bind_eq_ok,pure_eq_ok] at h
  obtain ⟨-,spent,-,remaining,-,notice,-,rfl⟩ := h
  exact ⟨rfl,rfl,rfl,rfl⟩

theorem buildSettlementResult_eq_ok {outcome : SettlementOutcome} {idempotent : Bool} {attempts : ℕ}
    (h : buildSettlementResult account reservation entry outcome idempotent attempts = .ok result) :
    result.reservation = reservation ∧ result.ledgerEntry = entry ∧
      reservation.status = settlementReservationStatus outcome ∧
      reservation.actualMicros = some result.actualMicros ∧
      reservation.releasedMicros = some result.releasedMicros ∧
      reservation.overageMicros = some result.overageMicros ∧
      entry.reservationID = reservation.id := by
  unfold buildSettlementResult at h
  simp only [throw_bind,ite_throw_eq_ok] at h
  obtain ⟨hf,h⟩ := h
  have hid := (not_not.mp hf).2.2.2.2.2.2.2.2
  split at h
  · rename_i actual released overage h₁ h₂ h₃
    split at h
    · cases h
    · simp only [ite_throw_eq_ok,bind_eq_ok,pure_eq_ok] at h
      obtain ⟨hs,spent,-,remaining,-,rfl⟩ := h
      exact ⟨rfl,rfl,not_not.mp fun hn => hs (.inl hn),h₁,h₂,h₃,hid⟩
  · cases h

theorem buildExpirationEvent_eq_ok {attempts : ℕ}
    (h : buildExpirationEvent account reservation entry attempts = .ok event) :
    event.reservation = reservation ∧ event.ledgerEntry = entry ∧
      reservation.status = .expired ∧ entry.reservationID = reservation.id := by
  unfold buildExpirationEvent at h
  split_ifs at h with hf
  cases h
  obtain ⟨-,-,-,-,hs,-,-,-,-,-,-,-,hid,-⟩ := hf
  exact ⟨rfl,rfl,hs,hid⟩

/-- A transaction rolls back with an error, or commits its body; a commit may be reported as
unavailable. -/
theorem transact_cases (body : Oracle → Database → Except Abort (Database × β)) (e : Oracle)
    (s : Database) :
    (∃ a, transact body e s = (s,.error a) ∧ (a = .fail .overflow → body e s = .error a)) ∨
      ∃ s' b out, body e s = .ok (s',b) ∧ transact body e s = (s',out) ∧
        (out = .ok b ∨ out = .error (.fail .unavailable)) := by
  unfold transact
  cases hf : e.fault with
  | some f =>
    exact .inl ⟨_,rfl,by cases f <;> simp [Fault.sqlError,updateAbort,mapReserveDatabaseError]⟩
  | none =>
    cases hb : body e s with
    | error a => exact .inl ⟨a,rfl,fun _ => rfl⟩
    | ok r =>
      refine .inr ⟨r.1,r.2,_,rfl,rfl,?_⟩
      split_ifs
      · exact .inr rfl
      · exact .inl rfl

/-! Reserve. The guarantee `G` is any relation that allows the steps of the call. -/

section Calls

variable {g : Oracle → Database → Prop} {G : Database → Database → Prop}
variable {α : Type} {P : α → Database → Prop} {out : Except Abort α}

theorem Attempted.evolves (hP : ∀ a s t, P a s → Evolves s t → P a t) (h : Attempted P out s)
    (hst : Evolves s t) : Attempted P out t := by
  match out, h with
  | .ok a, h => exact hP a s t h hst
  | .error .retry, _ => trivial
  | .error (.fail f), h => exact h

theorem transact_sound {body : Oracle → Database → Except Abort (Database × β)}
    {f : Except Abort β → Except Abort α} (hs : Inv s) (hG : G s s)
    (hP : ∀ a s t, P a s → Evolves s t → P a t) (herror : ∀ a, f (.error a) = .error a)
    (hfinish : ∀ b, f (.ok b) ≠ .error (.fail .overflow))
    (hbody : body e s ≠ .error (.fail .overflow))
    (hok : ∀ s' b, body e s = .ok (s',b) → Inv s' ∧ G s s' ∧ ∀ a, f (.ok b) = .ok a → P a s') :
    Inv (transact body e s).1 ∧ G s (transact body e s).1 ∧
      ∀ t, Evolves (transact body e s).1 t → Inv t → Attempted P (f (transact body e s).2) t := by
  rcases transact_cases body e s with ⟨a,heq,ha⟩ | ⟨s',b,out,hb,heq,hout⟩ <;> rw [heq]
  · refine ⟨hs,hG,fun t _ _ => ?_⟩
    rw [herror]
    cases a with
    | retry => trivial
    | fail f =>
      rintro rfl
      exact hbody (ha rfl)
  · obtain ⟨hs',hss',hdone⟩ := hok s' b hb
    refine ⟨hs',hss',fun t ht _ => ?_⟩
    rcases hout with rfl | rfl
    · cases hf : f (.ok b) with
      | ok a => exact hP a s' t (hdone a hf) ht
      | error a =>
        cases a with
        | retry => trivial
        | fail f =>
          rintro rfl
          exact hfinish b hf
    · simp [herror]

def Loaded (input : ReserveInput) : Except Failure (Option ReserveResult) → Database → Prop
  | .ok (some result), s => Held input result s
  | .ok none, _ => True
  | .error f, _ => f ≠ .overflow

attribute [simp] Loaded

theorem loadExistingReserve_sat (hG : ∀ s, G s s) (input : ReserveInput) (attempt : ℕ)
    (s : Database) : (loadExistingReserve input attempt).Sat contract g G (Loaded input) s := by
  unfold loadExistingReserve
  refine sat_read hG fun t₁ e₁ _ _ _ => ?_
  cases hq₁ : e₁.query (scanFirst scanBudgetReservation
      (t₁.reservationByKey input.tenantID input.accountID input.idempotencyKey)) with
  | error err => cases err <;> exact sat_const (by simp)
  | ok reservation =>
    obtain ⟨row,hrow,hscan⟩ := scanFirst_eq_ok (query_eq_ok hq₁)
    obtain ⟨rfl,-⟩ := scanBudgetReservation_eq_ok.mp hscan
    obtain ⟨hmem,ht,ha,hk⟩ := reservationByKey_mem hrow
    simp only
    split_ifs with hdiff
    · exact sat_const (by simp)
    simp only [not_or,not_not] at hdiff
    obtain ⟨hreq,hamt,hexp⟩ := hdiff
    refine sat_read hG fun t₂ e₂ h₂ _ _ => ?_
    cases e₂.query (t₂.loadBudgetAccount input.tenantID input.accountID) with
    | error err => exact sat_const (by simp)
    | ok account =>
      refine sat_read hG fun t₃ e₃ h₃ _ _ => ?_
      cases hq₃ : e₃.query (scanFirst scanBudgetLedger (t₃.ledgerEntry input.tenantID
          input.accountID reservation.id .reserve input.idempotencyKey)) with
      | error err => exact sat_const (by simp)
      | ok entry =>
        obtain ⟨erow,herow,hescan⟩ := scanFirst_eq_ok (query_eq_ok hq₃)
        obtain ⟨rfl,-⟩ := scanBudgetLedger_eq_ok.mp hescan
        obtain ⟨hemem,-,-,heid,hekind,-⟩ := ledgerEntry_mem herow
        refine sat_ret fun t₄ h₄ _ => ?_
        cases hb : buildReserveResult account reservation entry input.degradationHint true
            attempt with
        | error f =>
          rintro rfl
          exact buildReserveResult_ne_overflow _ _ _ _ _ _ hb
        | ok result =>
          obtain ⟨rfl,rfl,hc,hr⟩ := buildReserveResult_eq_ok hb
          have hheld : Held input result t₃ := by
            obtain ⟨r',hr',hc'⟩ := (h₂.trans h₃).holds _ hmem
            exact ⟨⟨r',hr',hc'.created⟩,ht,ha,hk,hreq,hamt,hexp,hemem,hekind,heid,hc,hr⟩
          exact hheld.evolves h₄

variable {c : Commit} {attempt : ℕ}

theorem Opens.held {input : ReserveInput} (h : Opens input s c)
    {result : ReserveResult} (hf : finishReserve input attempt (.ok c) = .ok result) :
    Held input result (s.afterOpen c) := by
  unfold finishReserve at hf
  obtain ⟨hr,he,hc,hres⟩ := buildReserveResult_eq_ok (mapError_eq_ok.mp hf)
  have hrow := h.reservation
  have hentry := h.entry
  have hamt : (c.reservation.reservedMicros : ℤ) = input.amountMicros :=
    congrArg (·.reservedMicros) hrow
  rw [← hr] at hrow hamt hentry
  rw [← he] at hentry hc hres
  constructor
  case stored => exact ⟨_,mem_append_right _ (mem_singleton_self _),by rw [hr]⟩
  case tenantID => exact congrArg (·.tenantID) hrow
  case accountID => exact congrArg (·.accountID) hrow
  case key => exact congrArg (·.idempotencyKey) hrow
  case requestID => exact congrArg (·.requestID) hrow
  case amount => exact_mod_cast hamt
  case expiresAt => exact congrArg (·.expiresAt) hrow
  case entry =>
    rw [he]
    exact mem_append_right _ (mem_singleton_self _)
  case entryKind => exact congrArg (·.kind) hentry
  case entryID => exact congrArg (·.reservationID) hentry
  case committed => exact hc
  case reserved => exact hres

theorem finishReserve_ne_overflow {input : ReserveInput} :
    finishReserve input attempt (.ok c) ≠ .error (.fail .overflow) := by
  intro h
  unfold finishReserve at h
  obtain ⟨f,hf,hfail⟩ := mapError_eq_error.mp h
  cases hfail
  exact buildReserveResult_ne_overflow _ _ _ _ _ _ hf

theorem reserveOnce_sat {input : ReserveInput} (hG : ∀ s, G s s)
    (hopen : ∀ s c, Inv s → Opens input s c → G s (s.afterOpen c)) (now : Time)
    (reservationID : String) (attempt : ℕ) (hs : Inv s) :
    (reserveOnce input now reservationID attempt).Sat contract g G
      (fun r t => Attempted (Held input) r.1 t) s := by
  unfold reserveOnce
  refine Sat.bind ((loadExistingReserve_sat hG input attempt s).mono (fun _ _ h => h) ?_) hs
  intro loaded t _ hloaded
  match loaded, hloaded with
  | .error f, hf => exact sat_ret fun _ _ _ => hf
  | .ok (some result), hheld => exact sat_ret fun _ h _ => hheld.evolves h
  | .ok none, _ =>
    refine sat_read hG fun t₁ e₁ _ _ _ => ?_
    cases hq : e₁.query (t₁.loadBudgetAccount input.tenantID input.accountID) with
    | error err => cases err <;> exact sat_const (by simp)
    | ok account =>
      have hvalid := loadBudgetAccount_valid (query_eq_ok hq)
      simp only
      cases hadmit : admitReserve input now account with
      | error f =>
        refine sat_ret fun _ _ _ => ?_
        rintro rfl
        exact admitReserve_ne_overflow hvalid hadmit
      | ok amount =>
        obtain ⟨rfl,hle⟩ := admitReserve_eq_ok hadmit
        simp only
        cases drawReservationID reservationID e₁.random with
        | none => exact sat_const (by simp)
        | some id =>
          refine sat_write fun t₂ e₂ _ hi₂ _ => ?_
          refine transact_sound (f := finishReserve input attempt) hi₂ (hG t₂)
            (fun _ _ _ => Held.evolves) (fun _ => rfl) (fun _ => finishReserve_ne_overflow)
            (reserveBody_ne_overflow hi₂.valid.account hle) fun s' c hbody => ?_
          obtain ⟨ho,rfl⟩ := reserveBody_eq_ok rfl hbody
          exact ⟨ho.inv hi₂,hopen t₂ c hi₂ ho,fun _ => ho.held⟩

theorem reserveLoop_sat {input : ReserveInput} (hG : ∀ s, G s s)
    (hopen : ∀ s c, Inv s → Opens input s c → G s (s.afterOpen c)) (remaining attempt : ℕ)
    (reservationID : String) (hs : Inv s) :
    (reserveLoop input remaining attempt reservationID).Sat contract g G
      (Returned (Held input)) s := by
  induction remaining generalizing attempt reservationID s with
  | zero => exact sat_const (by simp)
  | succ remaining ih =>
    unfold reserveLoop
    refine sat_read hG fun t e _ hi _ => ?_
    split
    · exact sat_const (by simp)
    refine Sat.bind ((reserveOnce_sat hG hopen _ reservationID attempt hi).mono
      (fun _ _ h => h) ?_) hi
    intro out t₁ _ hout
    match out, hout with
    | (.ok result,_), hheld => exact sat_ret fun _ h _ => Held.evolves hheld h
    | (.error (.fail f),_), hf => exact sat_ret fun _ _ _ => hf
    | (.error .retry,id), _ =>
      simp only
      split_ifs
      · exact sat_const (by simp)
      refine sat_read hG fun t₂ e₂ _ hi₂ _ => ?_
      cases e₂.cancelled with
      | true => exact sat_const (by simp)
      | false => exact ih (attempt + 1) id hi₂

theorem reserve_sat {input : ReserveInput} (hG : ∀ s, G s s)
    (hopen : ∀ s c, Inv s → Opens input.stored s c → G s (s.afterOpen c))
    (options : ReserveOptions) (hs : Inv s) :
    (reserve options input).Sat contract g G (Returned (Held input.stored)) s := by
  unfold reserve
  split_ifs
  · exact sat_const (by simp)
  · exact reserveLoop_sat hG hopen _ _ _ hs
  · exact sat_const (by simp)

/-! Settle and Reap. -/

/-- The hold that a transaction has read and locked. -/
structure Claimed (reservation : Reservation) (s : Database) : Prop where
  valid : reservation.Validate
  stored : ∃ r ∈ s.reservations, Continues reservation.row r

section
variable (h : Claimed reservation s)
include h

theorem Claimed.evolves (hst : Evolves s t) : Claimed reservation t := by
  obtain ⟨r,hr,hc⟩ := h.stored
  obtain ⟨r',hr',hc'⟩ := hst.holds r hr
  exact ⟨h.valid,r',hr',hc.trans hc'⟩

theorem Claimed.reserved_eq (hk : KeysUnique s) : ∀ r ∈ s.reservations, r.id = reservation.id →
      r.reservedMicros = reservation.reservedMicros := by
  intro r hr hid
  obtain ⟨r',hr',hc⟩ := h.stored
  rw [hk.eq_of_id hr hr' (hid.trans hc.id_eq.symm)]
  exact hc.reserved_eq

theorem Claimed.terminal_mem (hp : reservation.status ≠ .pending) :
    reservation.row ∈ s.reservations := by
  obtain ⟨r,hr,hc⟩ := h.stored
  rwa [hc.terminal hp] at hr

end

theorem claim_cases (s : Database) (e : Oracle) (row : Option ReservationRow) :
    (∃ err, s.claim e row = (s,.error err)) ∨
      ∃ reservation, s.claim e row = (s.lock reservation.id,.ok reservation) ∧
        row = some reservation.row ∧ reservation.Validate := by
  unfold Database.claim
  cases hq : e.query (scanFirst scanBudgetReservation row) with
  | error err => exact .inl ⟨err,rfl⟩
  | ok reservation =>
    obtain ⟨r,rfl,hscan⟩ := scanFirst_eq_ok (query_eq_ok hq)
    obtain ⟨rfl,hv⟩ := scanBudgetReservation_eq_ok.mp hscan
    exact .inr ⟨reservation,rfl,rfl,hv⟩

theorem release_sat (hP : ∀ a s t, P a s → Evolves s t → P a t)
    (hidle : ∀ (s : Database) (locks : List String), G s { s with locks }) (id : String)
    (h : Attempted P out s) : (release id out).Sat contract g G (Attempted P) s := by
  refine sat_write fun t e hst hi _ => ⟨hi.locks _,hidle t _,sat_ret fun u hu _ => ?_⟩
  exact h.evolves hP (hst.trans ((Evolves.locks t _).trans hu))

theorem attempts_sat (hG : ∀ s, G s s)
    (hP : ∀ a s t, P a s → Evolves s t → P a t) {once : ℕ → Prog Database Oracle (Except Abort α)}
    (honce : ∀ n s, Inv s → (once n).Sat contract g G (Attempted P) s) (remaining attempt : ℕ)
    (hs : Inv s) : (attempts once remaining attempt).Sat contract g G (Returned P) s := by
  induction remaining generalizing attempt s with
  | zero => exact sat_const (by simp)
  | succ remaining ih =>
    unfold attempts
    refine Sat.bind ((honce attempt s hs).mono (fun _ _ h => h) ?_) hs
    intro out t _ hout
    match out, hout with
    | .ok a, h => exact sat_ret fun u hu _ => hP a t u h hu
    | .error (.fail f), hf => exact sat_ret fun _ _ _ => hf
    | .error .retry, _ =>
      simp only
      split
      · exact sat_const (by simp)
      refine sat_read hG fun t₂ e₂ _ hi₂ _ => ?_
      cases e₂.cancelled with
      | true => exact sat_const (by simp)
      | false => exact ih (attempt + 1) hi₂

variable {actual : ℕ}

theorem loadTerminalSettlement_sat (hG : ∀ s, G s s) (hclaim : Claimed reservation s)
    (hid : reservation.id = input.reservationID) (hactual : input.actualMicros = .ok actual)
    (hp : reservation.status ≠ .pending) (attempt : ℕ) :
    (loadTerminalSettlement input reservation actual attempt).Sat contract g G
      (Attempted (Reconciled input)) s := by
  unfold loadTerminalSettlement
  split
  · exact sat_const (by simp)
  rename_i hsame
  simp only [not_or,not_not] at hsame
  refine sat_read hG fun t₁ e₁ h₁ _ _ => ?_
  cases e₁.query (t₁.loadBudgetAccount input.tenantID input.accountID) with
  | error err => exact sat_const (by simp)
  | ok account =>
    refine sat_read hG fun t₂ e₂ h₂ _ _ => ?_
    cases hq : e₂.query (scanFirst scanBudgetLedger (t₂.ledgerEntry input.tenantID
        input.accountID input.reservationID (settlementEntryKind input.outcome actual)
        (settlementLedgerKey (settlementEntryKind input.outcome actual)
          input.reservationID))) with
    | error err => exact sat_const (by simp)
    | ok entry =>
      obtain ⟨row,hrow,hscan⟩ := scanFirst_eq_ok (query_eq_ok hq)
      obtain ⟨rfl,-⟩ := scanBudgetLedger_eq_ok.mp hscan
      obtain ⟨hmem,-⟩ := ledgerEntry_mem hrow
      refine sat_ret fun t₃ h₃ _ => ?_
      cases hb : buildSettlementResult account reservation entry input.outcome true attempt with
      | error f =>
        rintro rfl
        exact buildSettlementResult_ne_overflow _ _ _ _ _ _ hb
      | ok result =>
        obtain ⟨hr,he,hstat,ha,hrel,hover,hentry⟩ := buildSettlementResult_eq_ok hb
        have hres : Reconciled input result t₂ := by
          have hrow' := (hclaim.evolves (h₁.trans h₂)).terminal_mem hp
          have hsum : result.actualMicros = actual := Option.some.inj (ha.symm.trans hsame.2)
          subst hsum
          rw [← hr] at hrow' hid hstat ha hrel hover hentry
          rw [← he] at hmem hentry
          exact ⟨hrow',hid,hstat,hactual,ha,hrel,hover,hmem,hentry⟩
        exact hres.evolves h₃

variable {old : ReservationRow}

theorem Closes.reconciled (h : Closes (input.ending actual) s old c) (hk : KeysUnique s)
    (hid : old.id = input.reservationID) (hactual : input.actualMicros = .ok actual)
    (hf : finishSettle input attempt (.ok c) = .ok result) : Reconciled input result
      (s.afterClose c ((input.ending actual).set old c.account.updatedAt)) := by
  unfold finishSettle at hf
  obtain ⟨hr,he,hstat,ha,hrel,hover,hentry⟩ :=
    buildSettlementResult_eq_ok (mapError_eq_ok.mp hf)
  have hsum : c.reservation.actualMicros.map Nat.cast = some (actual : ℤ) :=
    congrArg (·.actualMicros) h.reservation
  have hsum' : result.actualMicros = actual := by
    rw [ha] at hsum
    exact_mod_cast Option.some.inj hsum
  subst hsum'
  have hrid : c.reservation.id = input.reservationID := h.row_id.trans hid
  rw [← hr] at hrid hstat ha hrel hover hentry
  rw [← he] at hentry
  refine ⟨?_,hrid,hstat,hactual,ha,hrel,hover,?_,hentry⟩
  · rw [hr]
    exact (h.mem_after hk).mpr (.inr rfl)
  · rw [he]
    exact mem_append_right _ (mem_singleton_self _)

theorem finishSettle_ne_overflow :
    finishSettle input attempt (.ok c) ≠ .error (.fail .overflow) := by
  intro h
  unfold finishSettle at h
  obtain ⟨f,hf,hfail⟩ := mapError_eq_error.mp h
  cases hfail
  exact buildSettlementResult_ne_overflow _ _ _ _ _ _ hf

theorem settleLocked_sat (hG : ∀ s, G s s)
    (hclose : ∀ s old c, Inv s → old.id = input.reservationID →
      Closes (input.ending actual) s old c →
      G s (s.afterClose c ((input.ending actual).set old c.account.updatedAt)))
    (hactual : input.actualMicros = .ok actual)
    (hclaim : Claimed reservation s) (hid : reservation.id = input.reservationID) (attempt : ℕ) :
    (settleLocked input actual attempt reservation).Sat contract g G
      (Attempted (Reconciled input)) s := by
  unfold settleLocked
  split
  · exact sat_const (by simp)
  refine sat_read hG fun t₁ e₁ h₁ _ _ => ?_
  cases e₁.query (t₁.loadBudgetRequestStatus input.tenantID input.requestID) with
  | error err => exact sat_const (by simp)
  | ok status =>
    simp only
    split
    · exact sat_const (by simp)
    split
    · rename_i hp
      exact loadTerminalSettlement_sat hG (hclaim.evolves h₁) hid hactual hp attempt
    refine sat_read hG fun t₂ e₂ h₂ _ _ => ?_
    cases hq : e₂.query (t₂.loadBudgetAccount input.tenantID input.accountID) with
    | error err => exact sat_const (by simp)
    | ok account =>
      have hvalid := loadBudgetAccount_valid (query_eq_ok hq)
      simp only
      cases hplan : planSettlement account reservation actual with
      | error a =>
        refine sat_ret fun _ _ _ => ?_
        cases a with
        | retry => trivial
        | fail f =>
          rintro rfl
          exact planSettlement_ne_overflow hvalid hplan
      | ok amount =>
        obtain ⟨rfl,hle⟩ := planSettlement_eq_ok hplan
        have hresv := (validAmount_iff.mp hclaim.valid.reserved).2
        refine sat_write fun t₃ e₃ h₃ hi₃ _ => ?_
        have hsame := (hclaim.evolves (h₁.trans (h₂.trans h₃))).reserved_eq hi₃.unique
        rw [hid] at hsame
        refine transact_sound (f := finishSettle input attempt) hi₃ (hG t₃)
          (fun _ _ _ => Reconciled.evolves) (fun _ => rfl) (fun _ => finishSettle_ne_overflow)
          (settleBody_ne_overflow hi₃.valid.account hresv hle) fun s' c hbody => ?_
        obtain ⟨old,hold,hc,rfl⟩ := settleBody_eq_ok hresv hle hsame hbody
        exact ⟨hc.inv (input.ending_coherent actual) hi₃,hclose t₃ old c hi₃ hold hc,
          fun _ => hc.reconciled hi₃.unique hold hactual⟩

section
variable (hidle : ∀ (s : Database) (locks : List String), G s { s with locks })
include hidle

theorem settleOnce_sat (hclose : ∀ s old c, Inv s → old.id = input.reservationID →
      Closes (input.ending actual) s old c →
      G s (s.afterClose c ((input.ending actual).set old c.account.updatedAt)))
    (hactual : input.actualMicros = .ok actual) (attempt : ℕ) (s : Database) :
    (settleOnce input actual attempt).Sat contract g G (Attempted (Reconciled input)) s := by
  have hG : ∀ s, G s s := fun s => hidle s s.locks
  unfold settleOnce
  refine sat_await fun t e _ hi _ _ => ?_
  rcases claim_cases t e (t.reservationByID input.tenantID input.accountID input.reservationID)
    with ⟨err,heq⟩ | ⟨reservation,heq,hrow,hv⟩ <;> rw [heq]
  · refine ⟨hi,hG t,?_⟩
    cases err <;> exact sat_const (by simp)
  · have hinv := hi.locks (reservation.id :: t.locks)
    refine ⟨hinv,hidle t _,?_⟩
    obtain ⟨hmem,-,-,hid⟩ := reservationByID_mem hrow
    have hclaim : Claimed reservation (t.lock reservation.id) := ⟨hv,_,hmem,.refl _⟩
    refine Sat.bind ((settleLocked_sat hG hclose hactual hclaim hid attempt).mono
      (fun _ _ h => h) ?_) hinv
    exact fun out u _ hu => release_sat (fun _ _ _ h => h.evolves) hidle _ hu

theorem settle_sat (hclose : ∀ s old c actual, Inv s → input.actualMicros = .ok actual →
      old.id = input.reservationID → Closes (input.ending actual) s old c →
      G s (s.afterClose c ((input.ending actual).set old c.account.updatedAt)))
    (options : ReserveOptions) (hs : Inv s) :
    (settle options input).Sat contract g G (Returned (Reconciled input)) s := by
  unfold settle
  cases hactual : input.actualMicros with
  | error f =>
    refine sat_ret fun _ _ _ => ?_
    rintro rfl
    exact input.actualMicros_ne_overflow hactual
  | ok actual =>
    exact attempts_sat (fun s => hidle s s.locks) (fun _ _ _ h => h.evolves)
      (fun n s _ => settleOnce_sat hidle
        (fun s old c hi hid hc => hclose s old c actual hi hactual hid hc) hactual n s) _ _ hs

end

/-- The event of a sweep step, if it found one. -/
def ReapedAll (event : Option ExpirationEvent) (s : Database) : Prop := ∀ x ∈ event, Reaped x s

theorem ReapedAll.evolves {event : Option ExpirationEvent} (h : ReapedAll event s)
    (hst : Evolves s t) : ReapedAll event t := fun x hx => (h x hx).evolves hst

variable {actor : String}

theorem Closes.reaped (h : Closes (expiration actor) s old c) (hk : KeysUnique s)
    (hb : buildExpirationEvent c.account c.reservation c.entry attempt = .ok event) :
    Reaped event (s.afterClose c ((expiration actor).set old c.account.updatedAt)) := by
  obtain ⟨hr,he,hstat,hid⟩ := buildExpirationEvent_eq_ok hb
  rw [← hr] at hstat hid
  rw [← he] at hid
  refine ⟨?_,hstat,?_,hid⟩
  · rw [hr]
    exact (h.mem_after hk).mpr (.inr rfl)
  · rw [he]
    exact mem_append_right _ (mem_singleton_self _)

theorem reapLocked_sat (hG : ∀ s, G s s)
    (hclose : ∀ s old c, Inv s → Closes (expiration actor) s old c →
      G s (s.afterClose c ((expiration actor).set old c.account.updatedAt)))
    (hclaim : Claimed reservation s) (attempt : ℕ) :
    (reapLocked actor attempt reservation).Sat contract g G (Attempted ReapedAll) s := by
  unfold reapLocked
  refine sat_read hG fun t₁ e₁ h₁ _ _ => ?_
  cases e₁.query (t₁.loadBudgetAccount reservation.tenantID reservation.accountID) with
  | error err => exact sat_const (by simp)
  | ok account =>
    simp only
    split
    · exact sat_const (by simp)
    have hresv := (validAmount_iff.mp hclaim.valid.reserved).2
    refine sat_write fun t₂ e₂ h₂ hi₂ _ => ?_
    have hsame := (hclaim.evolves (h₁.trans h₂)).reserved_eq hi₂.unique
    refine transact_sound (f := Except.map some) hi₂ (hG t₂) (fun _ _ _ => ReapedAll.evolves)
      (fun _ => rfl) (fun _ => nofun) (reapBody_ne_overflow hi₂.valid.account hresv)
      fun s' event hbody => ?_
    obtain ⟨old,c,-,hc,rfl,hb⟩ := reapBody_eq_ok hresv hsame hbody
    refine ⟨hc.inv (expiration_coherent actor) hi₂,hclose t₂ old c hi₂ hc,?_⟩
    rintro _ ⟨⟩ x hx
    cases Option.mem_some.mp hx
    exact hc.reaped hi₂.unique hb

section
variable (hidle : ∀ (s : Database) (locks : List String), G s { s with locks })
  (hclose : ∀ s old c, Inv s → Closes (expiration actor) s old c →
    G s (s.afterClose c ((expiration actor).set old c.account.updatedAt)))
include hidle hclose

theorem reapOnce_sat (attempt : ℕ) (s : Database) :
    (reapOnce actor attempt).Sat contract g G (Attempted ReapedAll) s := by
  have hG : ∀ s, G s s := fun s => hidle s s.locks
  unfold reapOnce
  refine sat_write fun t e _ hi _ => ?_
  rcases claim_cases t e (t.nextExpired e.clock) with
    ⟨err,heq⟩ | ⟨reservation,heq,hrow,hv⟩ <;> rw [heq]
  · refine ⟨hi,hG t,?_⟩
    cases err <;> exact sat_const (by simp [ReapedAll])
  · have hinv := hi.locks (reservation.id :: t.locks)
    refine ⟨hinv,hidle t _,?_⟩
    have hmem := nextExpired_mem hrow
    have hclaim : Claimed reservation (t.lock reservation.id) := ⟨hv,_,hmem,.refl _⟩
    refine Sat.bind ((reapLocked_sat hG hclose hclaim attempt).mono (fun _ _ h => h) ?_) hinv
    exact fun out u _ hu => release_sat (fun _ _ _ h => h.evolves) hidle _ hu

section
variable (hrely : ∀ s t, Inv s → Inv t → G s t → Evolves s t) (options : ReaperOptions)
include hrely options

theorem reapLoop_sat (room : ℕ) (events : List ExpirationEvent) (hevents : ∀ x ∈ events, Reaped x s)
    (hs : Inv s) :
    (reapLoop options actor room events).Sat contract g G (fun reply t =>
      reply.failure ≠ some .overflow ∧ ∀ x ∈ reply.result.events, Reaped x t) s := by
  induction room generalizing events s with
  | zero => exact sat_ret fun t h _ => ⟨by simp,fun x hx => (hevents x hx).evolves h⟩
  | succ room ih =>
    unfold reapLoop
    have hnext : (reapNext options actor).Sat contract g G (Returned ReapedAll) s :=
      attempts_sat (fun s => hidle s s.locks) (fun _ _ _ h => h.evolves)
        (fun n s _ => reapOnce_sat hidle hclose n s) _ _ hs
    -- the events reported so far stay true while the next one is looked for
    have hframed := hnext.frame (F := fun t => ∀ x ∈ events, Reaped x t)
      (fun _ _ h hF x hx => (hF x hx).evolves h) hrely hevents
    refine Sat.bind (hframed.mono (fun _ _ h => h) ?_) hs
    rintro out t hi ⟨hout,hold⟩
    match out, hout with
    | .error f, hf =>
      exact sat_ret fun u hu _ => ⟨fun h => hf (Option.some.inj h),
        fun x hx => (hold x hx).evolves hu⟩
    | .ok none, _ =>
      exact sat_ret fun u hu _ => ⟨by simp,fun x hx => (hold x hx).evolves hu⟩
    | .ok (some event), hevent =>
      refine ih (events ++ [event]) (fun x hx => ?_) hi
      rcases mem_append.mp hx with hx | hx
      · exact hold x hx
      · rw [mem_singleton.mp hx]
        exact hevent event rfl

theorem reap_sat (hs : Inv s) :
    (reap options actor).Sat contract g G (fun reply t =>
      reply.failure ≠ some .overflow ∧ ∀ x ∈ reply.result.events, Reaped x t) s := by
  unfold reap
  split
  · exact reapLoop_sat hidle hclose hrely options _ _ (by simp) hs
  · exact sat_ret fun _ _ _ => by simp

end
end
end Calls

/-- Each call does in every step what `Acts` allows, and returns what `Post` says. -/
theorem start_sat {g : Oracle → Database → Prop} (call : Call) (hs : Inv s) :
    (start call).Sat contract g (Acts call) (Post call) s := by
  cases call with
  | reserve options input =>
    have hsat := reserve_sat (g := g) (G := Acts (.reserve options input))
      (fun s => .idle _ s s.locks) (fun s c _ h => .opens options input s c h) options hs
    refine Sat.bind (hsat.mono (fun _ _ h => h) fun out t _ hout => ?_) hs
    refine sat_ret fun u hu _ => ?_
    match out, hout with
    | .ok result, hheld => exact Held.evolves hheld hu
    | .error f, hf => exact hf
  | settle options input =>
    have hsat := settle_sat (g := g) (G := Acts (.settle options input))
      (fun s locks => .idle _ s locks)
      (fun s old c actual _ ha hid h => .settles options input s old c actual ha hid h) options hs
    refine Sat.bind (hsat.mono (fun _ _ h => h) fun out t _ hout => ?_) hs
    refine sat_ret fun u hu _ => ?_
    match out, hout with
    | .ok result, hrec => exact Reconciled.evolves hrec hu
    | .error f, hf => exact hf
  | reap options actor =>
    have hsat := reap_sat (g := g) (G := Acts (.reap options actor))
      (fun s locks => .idle _ s locks) (fun s old c _ h => .expires options actor s old c h)
      (fun s t hi _ h => h.evolves hi) options hs
    refine Sat.bind (hsat.mono (fun _ _ h => h) fun out t _ hout => ?_) hs
    exact sat_ret fun u hu _ => ⟨hout.1,fun x hx => (hout.2 x hx).evolves hu⟩

theorem systemOf_sound (allowed : Call → Oracle → Prop) :
    (systemOf allowed).Sound contract Acts Post where
  init _ h := Initial.inv h
  env _ _ hi h := ⟨Environment.inv h hi,Environment.evolves h⟩
  guar_rely _ _ _ hi _ h := h.evolves hi
  start call _ hi := start_sat call hi

end Budget
