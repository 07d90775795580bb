import AiGateway.Budget.Soundness

/-! In every run of Reserve, Settle and Reap calls the balances are the sums over the stored holds,
and the ledger books every hold once and every end of a hold once. -/
namespace Budget
open Interleaving Relational

/-- The kinds of entry that end a hold. -/
def EntryKind.closing (kind : EntryKind) : Bool :=
  kind = .settle || kind = .release || kind = .expire

/-- The balances agree with the holds, and the holds with the ledger. -/
structure Conserved (s : Database) : Prop where
  reserved : s.account.reservedMicros =
    total (·.reservedMicros) (s.reservations.filter fun r => r.status = .pending)
  committed : s.account.committedMicros =
    total (fun r => r.actualMicros.getD 0) (s.reservations.filter fun r => r.status ≠ .pending)
  actual : ∀ r ∈ s.reservations, r.status ≠ .pending → r.actualMicros.isSome
  owner : ∀ r ∈ s.reservations, r.tenantID = s.account.scope.tenantID ∧ r.accountID = s.account.id
  opened : ∀ r ∈ s.reservations,
    s.ledger.countP (fun e => e.reservationID = r.id && e.kind = .reserve) = 1
  closed : ∀ r ∈ s.reservations, r.status ≠ .pending →
    s.ledger.countP (fun e => e.reservationID = r.id && e.kind.closing) = 1
  pending : ∀ r ∈ s.reservations, r.status = .pending →
    s.ledger.countP (fun e => e.reservationID = r.id && e.kind.closing) = 0
  booked : ∀ e ∈ s.ledger, (e.kind = .reserve ∨ e.kind.closing) ∧
    ∃ r ∈ s.reservations, r.id = e.reservationID

variable {s : Database}

theorem Booked.closing_iff (hb : Booked s) {e : LedgerRow} (he : e ∈ s.ledger) :
    e.kind.closing ↔ e.kind ≠ .reserve := by
  constructor
  · intro h hk
    simp [EntryKind.closing,hk] at h
  · intro hk
    obtain ⟨r,hr,hid⟩ := hb.reservation_mem he
    rw [(hb.ends e he hk r hr hid).kind]
    unfold closingKind
    split
    · rfl
    · split_ifs <;> rfl
    · rfl

theorem Booked.countP_closing (hb : Booked s) (id : String) :
    s.ledger.countP (fun e => e.reservationID = id && e.kind.closing) =
      (closingIDs s.ledger).count id := by
  rw [closingIDs,← countP_key fun e : LedgerRow => decide (e.kind ≠ .reserve)]
  apply List.countP_congr
  intro e he
  simp only [Bool.and_eq_true,decide_eq_true_eq,hb.closing_iff he]

theorem actualMicros_isSome {r : ReservationRow} (h : ∃ v, scanBudgetReservation r = .ok v)
    (hp : r.status ≠ .pending) : r.actualMicros.isSome := by
  obtain ⟨v,hv⟩ := h
  obtain ⟨rfl,hvalid⟩ := scanBudgetReservation_eq_ok.mp hv
  obtain ⟨actual,-,-,-,hactual,-⟩ := hvalid.terminal hp
  simp [ReservationOf.row,hactual]

theorem Inv.conserved (h : Inv s) : Conserved s := by
  obtain ⟨hv,hk,hb,hbk⟩ := h
  constructor
  case reserved =>
    rw [hb.reserved,total_filter]
    exact total_congr fun r _ => by simp [pendingAmount]
  case committed =>
    rw [hb.committed,total_filter]
    exact total_congr fun r _ => by by_cases hp : r.status = .pending <;> simp [spentAmount,hp]
  case actual => exact fun r hr hp => actualMicros_isSome (hv.reservations r hr) hp
  case owner => exact hv.owner
  case opened =>
    intro r hr
    rw [countP_key fun e : LedgerRow => decide (e.kind = .reserve),← openingIDs,hbk.openings]
    exact List.count_eq_one_of_mem hk.ids (List.mem_map.mpr ⟨r,hr,rfl⟩)
  case closed =>
    intro r hr hp
    rw [hbk.countP_closing]
    exact List.count_eq_one_of_mem hbk.closings ((hbk.closed r.id).mpr ⟨r,hr,rfl,hp⟩)
  case pending =>
    intro r hr hp
    rw [hbk.countP_closing,List.count_eq_zero]
    intro hmem
    obtain ⟨r',hr',hid,hp'⟩ := (hbk.closed r.id).mp hmem
    exact hp' (hk.eq_of_id hr' hr hid ▸ hp)
  case booked =>
    intro e he
    refine ⟨?_,hbk.reservation_mem he⟩
    by_cases hkind : e.kind = .reserve
    · exact .inl hkind
    · exact .inr ((hbk.closing_iff he).mpr hkind)

theorem reachable_inv {p : Pool Database Oracle Call Reply} (hp : system.Reachable p) :
    Inv p.shared :=
  ((systemOf_sound _).holds hp).inv

/-- Whatever calls run, in whatever order their steps interleave, the books balance. -/
theorem reachable_conserved {p : Pool Database Oracle Call Reply} (hp : system.Reachable p) :
    Conserved p.shared :=
  (reachable_inv hp).conserved

/-! A run on one account: a hold of 40 that is settled at 45. -/

def sampleID : String := "00000000-0000-4000-8000-000000000000"

def sampleDatabase : Database where
  account := {
    id := sampleID, scope := ⟨.tenant,sampleID,"","","",""⟩, currency := "USD"
    periodStart := 1000, periodEnd := 9000000, softLimitMicros := 80, hardLimitMicros := 100
    committedMicros := 0, reservedMicros := 0, status := .opened, version := 1
    createdAt := 1000, createdBy := "ops", updatedAt := 1000, updatedBy := "ops"
    closedAt := none }
  reservations := []
  ledger := []
  ledgerSeq := 0
  requests := fun _ _ => some .succeeded
  locks := []

/-- No failures, all clocks at `time`, and every random byte equal to `byte`. -/
def sampleOracle (time : Time) (h : 0 < time) (byte : UInt8) : ℕ → Oracle := fun _ =>
  { now := time, clock := time, stamp := time, stamp_pos := h, random := some fun _ => byte
    fault := none, lostAck := false, cancelled := false, gap := 0 }

theorem sampleClock_pos : (0 : Time) < 2000 := by decide

def sampleOptions : ReserveOptions := ⟨1,by decide,by decide⟩

def sampleReserveUntil (expiresAt : Time) (key : String) (amount : ℕ) : Call :=
  .reserve sampleOptions {
    tenantID := sampleID, accountID := sampleID, requestID := "r", idempotencyKey := key
    amountMicros := amount, expiresAt := expiresAt, actor := "g", degradationHint := .none }

def sampleReserve (key : String) (amount : ℕ) : Call := sampleReserveUntil 5000 key amount

def sampleSettlement (amount : ℕ) : SettlementInput where
  tenantID := sampleID
  accountID := sampleID
  reservationID := sampleID
  requestID := "r"
  outcome := .succeeded
  charges := [⟨.attempt,sampleID,amount⟩]
  actor := "g"

def sampleSettle (amount : ℕ) : Call := .settle sampleOptions (sampleSettlement amount)

theorem sampleDatabase_initial : Initial sampleDatabase :=
  ⟨⟨_,rfl⟩,rfl,rfl,rfl,rfl,le_rfl,rfl⟩

def sampleRun (calls : List (Call × (ℕ → Oracle))) : Pool Database Oracle Call Reply :=
  system.exec (calls.zipIdx.flatMap fun ((call,oracle),i) =>
    [.spawn call,.run i 40 oracle]) ⟨sampleDatabase,[]⟩

theorem sampleRun_reachable (calls : List (Call × (ℕ → Oracle))) :
    system.Reachable (sampleRun calls) :=
  (System.Reachable.init _ sampleDatabase_initial).reaches
    (System.exec_reaches (by simp) fun _ _ _ _ => trivial)

def sampleSettled : Pool Database Oracle Call Reply :=
  sampleRun [(sampleReserve "a" 40,sampleOracle 2000 sampleClock_pos 0),
    (sampleSettle 45,sampleOracle 2000 sampleClock_pos 0)]

theorem sampleSettled_conserved :
    (sampleSettled.shared.account.committedMicros,sampleSettled.shared.account.reservedMicros,
      sampleSettled.shared.ledger.length) = (45,0,2) ∧ Conserved sampleSettled.shared :=
  ⟨by decide +kernel,reachable_conserved (sampleRun_reachable _)⟩

end Budget
