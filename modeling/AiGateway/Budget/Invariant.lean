import AiGateway.Budget.Changes

/-! The invariant of the stored rows: every row is valid, keys are unique, the balances are the
sums over the holds, and the ledger books each hold. Both changes keep it. -/
namespace Budget
open Relational List Database SettlementInput

def pendingAmount (r : ReservationRow) : ℤ := if r.status = .pending then r.reservedMicros else 0

def spentAmount (r : ReservationRow) : ℤ :=
  if r.status = .pending then 0 else r.actualMicros.getD 0

def overageAmount (r : ReservationRow) : ℤ :=
  if r.status = .pending then 0 else r.overageMicros.getD 0

/-- The kind of the entry that ends a hold with this status and cost. -/
def closingKind (status : ReservationStatus) (actual : ℤ) : EntryKind :=
  match status with
  | .expired => .expire
  | .cancelled => if actual = 0 then .release else .settle
  | _ => .settle

def openingIDs (ledger : List LedgerRow) : List String :=
  (ledger.filter fun e => e.kind = .reserve).map (·.reservationID)

def closingIDs (ledger : List LedgerRow) : List String :=
  (ledger.filter fun e => e.kind ≠ .reserve).map (·.reservationID)

/-- The entry `e` books the admission of the hold `r`. -/
structure Admits (e : LedgerRow) (r : ReservationRow) : Prop where
  key : e.idempotencyKey = r.idempotencyKey
  committed : e.committedDeltaMicros = 0
  reserved : e.reservedDeltaMicros = r.reservedMicros

/-- The entry `e` books the end of the hold `r`. -/
structure Ends (e : LedgerRow) (r : ReservationRow) : Prop where
  terminal : r.status ≠ .pending
  kind : e.kind = closingKind r.status (r.actualMicros.getD 0)
  key : e.idempotencyKey = settlementLedgerKey e.kind r.id
  committed : r.actualMicros = some e.committedDeltaMicros
  reserved : e.reservedDeltaMicros = -r.reservedMicros

/-- Every row decodes and belongs to the account, and no row is newer than the account. -/
structure RowsValid (s : Database) : Prop where
  account : ∃ a, scanBudgetAccount s.account = .ok a
  reservations : ∀ r ∈ s.reservations, ∃ v, scanBudgetReservation r = .ok v
  ledger : ∀ e ∈ s.ledger, ∃ v, scanBudgetLedger e = .ok v
  owner : ∀ r ∈ s.reservations, r.tenantID = s.account.scope.tenantID ∧ r.accountID = s.account.id
  ledgerOwner : ∀ e ∈ s.ledger, e.tenantID = s.account.scope.tenantID ∧ e.accountID = s.account.id
  updatedAt : ∀ r ∈ s.reservations, r.updatedAt ≤ s.account.updatedAt
  ledgerSeq : 0 ≤ s.ledgerSeq

structure KeysUnique (s : Database) : Prop where
  ids : (s.reservations.map (·.id)).Nodup
  keys : (s.reservations.map (·.idempotencyKey)).Nodup
  ledger : (s.ledger.map (·.idempotencyKey)).Nodup

structure Balanced (s : Database) : Prop where
  reserved : s.account.reservedMicros = total pendingAmount s.reservations
  committed : s.account.committedMicros = total spentAmount s.reservations
  hard : s.account.committedMicros + s.account.reservedMicros ≤
    s.account.hardLimitMicros + total overageAmount s.reservations

structure Booked (s : Database) : Prop where
  openings : openingIDs s.ledger = s.reservations.map (·.id)
  closings : (closingIDs s.ledger).Nodup
  closed : ∀ id, id ∈ closingIDs s.ledger ↔ ∃ r ∈ s.reservations, r.id = id ∧ r.status ≠ .pending
  admits : ∀ e ∈ s.ledger, e.kind = .reserve → ∀ r ∈ s.reservations, r.id = e.reservationID →
    Admits e r
  ends : ∀ e ∈ s.ledger, e.kind ≠ .reserve → ∀ r ∈ s.reservations, r.id = e.reservationID → Ends e r

structure Inv (s : Database) : Prop where
  valid : RowsValid s
  unique : KeysUnique s
  balanced : Balanced s
  booked : Booked s

/-- An ending that a settlement or an expiration can ask for. -/
structure Ending.Coherent (f : Ending) : Prop where
  terminal : f.status ≠ .pending
  kind : f.kind = closingKind f.status f.actual
  expired : f.status = .expired → f.actual = 0

theorem SettlementInput.ending_coherent (input : SettlementInput) (actual : ℕ) :
    (input.ending actual).Coherent := by
  constructor
  · simp only [ending,settlementReservationStatus]
    split_ifs <;> simp
  · simp only [ending,settlementEntryKind,settlementReservationStatus,closingKind]
    by_cases h : input.outcome = .cancelled
    · simp [h]
    · simp [h]
  · simp only [ending,settlementReservationStatus]
    split_ifs <;> simp

theorem expiration_coherent (actor : String) : (expiration actor).Coherent :=
  ⟨by simp [expiration],rfl,fun _ => rfl⟩

theorem closingKind_ne_reserve (status : ReservationStatus) (actual : ℤ) :
    closingKind status actual ≠ .reserve := by
  unfold closingKind
  split
  · simp
  · split_ifs <;> simp
  · simp

variable {s t : Database} {c : Commit} {input : ReserveInput} {f : Ending} {old : ReservationRow}

/-! Facts read off valid rows. -/

variable {r : ReservationRow}

theorem overageAmount_nonneg (h : ∃ v, scanBudgetReservation r = .ok v) : 0 ≤ overageAmount r := by
  obtain ⟨v,hv⟩ := h
  obtain ⟨rfl,-⟩ := scanBudgetReservation_eq_ok.mp hv
  unfold overageAmount
  split_ifs
  · exact le_rfl
  · cases ho : v.overageMicros <;> simp [ReservationOf.row,ho]

theorem RowsValid.total_overage_nonneg (h : RowsValid s) : 0 ≤ total overageAmount s.reservations :=
  total_nonneg fun r hr => overageAmount_nonneg (h.reservations r hr)

theorem KeysUnique.eq_of_id (h : KeysUnique s) {r r' : ReservationRow} (hr : r ∈ s.reservations)
    (hr' : r' ∈ s.reservations) (hid : r.id = r'.id) : r = r' :=
  inj_on_of_nodup_map h.ids hr hr' hid

/-- A commit puts the account's row and one entry of the ledger in place, and touches no hold but
its own. -/
theorem RowsValid.commit (hs : RowsValid s) (hvalid : c.Valid)
    (haccount : c.account.row.scope = s.account.scope ∧ c.account.row.id = s.account.id)
    (htime : s.account.updatedAt ≤ c.account.row.updatedAt) (hseq : s.ledgerSeq < c.entry.id)
    (hrow : c.reservation.row.tenantID = s.account.scope.tenantID ∧
      c.reservation.row.accountID = s.account.id)
    (hrowTime : c.reservation.row.updatedAt = c.account.row.updatedAt)
    (hentry : c.entry.row.tenantID = s.account.scope.tenantID ∧
      c.entry.row.accountID = s.account.id)
    {rows : List ReservationRow} (hrows : ∀ r ∈ rows, r ∈ s.reservations ∨ r = c.reservation.row) :
    RowsValid { s with
      account := c.account.row, reservations := rows
      ledger := s.ledger ++ [c.entry.row], ledgerSeq := c.entry.id } := by
  constructor
  case account => exact ⟨c.account,scanBudgetAccount_eq_ok.mpr ⟨rfl,hvalid.account⟩⟩
  case reservations =>
    intro r hr
    rcases hrows r hr with hr | rfl
    · exact hs.reservations r hr
    · exact ⟨_,scanBudgetReservation_eq_ok.mpr ⟨rfl,hvalid.reservation⟩⟩
  case ledger =>
    intro e he
    rcases mem_append.mp he with he | he
    · exact hs.ledger e he
    · rw [mem_singleton.mp he]
      exact ⟨_,scanBudgetLedger_eq_ok.mpr ⟨rfl,hvalid.entry⟩⟩
  case owner =>
    intro r hr
    simp only [haccount]
    rcases hrows r hr with hr | rfl
    · exact hs.owner r hr
    · exact hrow
  case ledgerOwner =>
    intro e he
    simp only [haccount]
    rcases mem_append.mp he with he | he
    · exact hs.ledgerOwner e he
    · rw [mem_singleton.mp he]
      exact hentry
  case updatedAt =>
    intro r hr
    rcases hrows r hr with hr | rfl
    · exact (hs.updatedAt r hr).trans htime
    · exact hrowTime.le
  case ledgerSeq => exact (hs.ledgerSeq.trans_lt hseq).le

/-! The change of an opened hold. -/

section
variable (h : Opens input s c)
include h

theorem Opens.row_pending : c.reservation.row.status = .pending := by
  rw [h.reservation]
  rfl

theorem Opens.rowsValid (hs : RowsValid s) : RowsValid (s.afterOpen c) := by
  apply hs.commit h.valid _ h.updatedAt h.ledgerSeq
  · rw [h.reservation]
    exact ⟨h.tenantID.symm,h.accountID.symm⟩
  · rw [h.reservation]
    rfl
  · rw [h.entry]
    exact ⟨h.tenantID.symm,h.accountID.symm⟩
  · intro r hr
    simpa using hr
  · rw [h.account]
    exact ⟨rfl,rfl⟩

theorem Opens.keysUnique (hs : RowsValid s) (hk : KeysUnique s) : KeysUnique (s.afterOpen c) := by
  have hkey : input.idempotencyKey ∉ s.reservations.map (·.idempotencyKey) := by
    intro hmem
    obtain ⟨r,hr,hrk⟩ := mem_map.mp hmem
    apply h.freshKey
    exact mem_map.mpr ⟨r,hr,by rw [hrk,(hs.owner r hr).2,h.accountID]⟩
  have hentry : input.idempotencyKey ∉ s.ledger.map (·.idempotencyKey) := by
    intro hmem
    obtain ⟨e,he,hek⟩ := mem_map.mp hmem
    apply h.freshEntry
    exact mem_map.mpr ⟨e,he,by rw [hek,(hs.ledgerOwner e he).2,h.accountID]⟩
  have hrow : c.reservation.row.idempotencyKey = input.idempotencyKey := by rw [h.reservation]; rfl
  have hlrow : c.entry.row.idempotencyKey = input.idempotencyKey := by rw [h.entry]; rfl
  constructor
  · simpa [afterOpen,nodup_append] using ⟨hk.ids,fun r hr hid => h.freshID (mem_map.mpr ⟨r,hr,hid⟩)⟩
  · simpa [afterOpen,nodup_append,hrow] using
      ⟨hk.keys,fun r hr hid => hkey (mem_map.mpr ⟨r,hr,hid⟩)⟩
  · simpa [afterOpen,nodup_append,hlrow] using
      ⟨hk.ledger,fun r hr hid => hentry (mem_map.mpr ⟨r,hr,hid⟩)⟩

theorem Opens.balanced (hs : RowsValid s) (hb : Balanced s) : Balanced (s.afterOpen c) := by
  have hp : pendingAmount c.reservation.row = input.amountMicros := by
    simp [pendingAmount,h.reservation,reserveRow]
  have hz : spentAmount c.reservation.row = 0 := by simp [spentAmount,h.row_pending]
  have ho : overageAmount c.reservation.row = 0 := by simp [overageAmount,h.row_pending]
  have hfits := h.fits
  have hnn := hs.total_overage_nonneg
  have h₁ := hb.reserved
  have h₂ := hb.committed
  constructor <;> simp only [afterOpen,h.account,total_append,total_cons,total_nil,hp,hz,ho] <;>
    omega

end

theorem openingIDs_append (ledger : List LedgerRow) (e : LedgerRow) : openingIDs (ledger ++ [e]) =
      openingIDs ledger ++ if e.kind = .reserve then [e.reservationID] else [] := by
  by_cases h : e.kind = .reserve <;> simp [openingIDs,h]

theorem closingIDs_append (ledger : List LedgerRow) (e : LedgerRow) : closingIDs (ledger ++ [e]) =
      closingIDs ledger ++ if e.kind = .reserve then [] else [e.reservationID] := by
  by_cases h : e.kind = .reserve <;> simp [closingIDs,h]

variable {ledger : List LedgerRow} {e : LedgerRow}

theorem mem_openingIDs (he : e ∈ ledger) (hk : e.kind = .reserve) :
    e.reservationID ∈ openingIDs ledger :=
  mem_map.mpr ⟨e,mem_filter.mpr ⟨he,by simpa using hk⟩,rfl⟩

theorem mem_closingIDs (he : e ∈ ledger) (hk : e.kind ≠ .reserve) :
    e.reservationID ∈ closingIDs ledger :=
  mem_map.mpr ⟨e,mem_filter.mpr ⟨he,by simpa using hk⟩,rfl⟩

theorem Booked.reservation_mem (hb : Booked s) (he : e ∈ s.ledger) :
    ∃ r ∈ s.reservations, r.id = e.reservationID := by
  by_cases hk : e.kind = .reserve
  · have hmem := mem_openingIDs he hk
    rw [hb.openings] at hmem
    exact mem_map.mp hmem
  · obtain ⟨r,hr,hid,-⟩ := (hb.closed e.reservationID).mp (mem_closingIDs he hk)
    exact ⟨r,hr,hid⟩

theorem Opens.booked (h : Opens input s c) (hb : Booked s) : Booked (s.afterOpen c) := by
  have hkind : c.entry.row.kind = .reserve := by rw [h.entry]; rfl
  have hentryID : c.entry.row.reservationID = c.reservation.row.id := by rw [h.entry]; rfl
  have hfresh : ∀ r ∈ s.reservations, r.id ≠ c.reservation.row.id := fun r hr hid =>
    h.freshID (mem_map.mpr ⟨r,hr,hid⟩)
  have hstray : ∀ e ∈ s.ledger, c.reservation.row.id ≠ e.reservationID := by
    intro e he hid
    obtain ⟨r,hr,hrid⟩ := hb.reservation_mem he
    exact hfresh r hr (hrid.trans hid.symm)
  constructor
  case openings =>
    simp only [afterOpen,openingIDs_append,if_pos hkind,hb.openings,hentryID,
      map_append,map_cons,map_nil]
  case closings =>
    simpa only [afterOpen,closingIDs_append,if_pos hkind,append_nil] using hb.closings
  case closed =>
    intro id
    simp only [afterOpen,closingIDs_append,if_pos hkind,append_nil,hb.closed id]
    constructor
    · rintro ⟨r,hr,hid,hp⟩
      exact ⟨r,mem_append_left _ hr,hid,hp⟩
    · rintro ⟨r,hr,hid,hp⟩
      rcases mem_append.mp hr with hr | hr
      · exact ⟨r,hr,hid,hp⟩
      · rw [mem_singleton.mp hr] at hp
        exact absurd h.row_pending hp
  case admits =>
    intro e he hk r hr hid
    rcases mem_append.mp he with he | he <;> rcases mem_append.mp hr with hr | hr
    · exact hb.admits e he hk r hr hid
    · rw [mem_singleton.mp hr] at hid
      exact absurd hid (hstray e he)
    · rw [mem_singleton.mp he,hentryID] at hid
      exact absurd hid (hfresh r hr)
    · rw [mem_singleton.mp he,mem_singleton.mp hr,h.entry,h.reservation]
      exact ⟨rfl,rfl,rfl⟩
  case ends =>
    intro e he hk r hr hid
    rcases mem_append.mp he with he | he
    · rcases mem_append.mp hr with hr | hr
      · exact hb.ends e he hk r hr hid
      · rw [mem_singleton.mp hr] at hid
        exact absurd hid (hstray e he)
    · rw [mem_singleton.mp he] at hk
      exact absurd hkind hk

theorem Opens.inv (h : Opens input s c) (hs : Inv s) : Inv (s.afterOpen c) :=
  ⟨h.rowsValid hs.valid,h.keysUnique hs.valid hs.unique,h.balanced hs.valid hs.balanced,
    h.booked hs.booked⟩

/-! The change of a closed hold. -/

theorem Closes.mem_after (h : Closes f s old c) (hk : KeysUnique s) :
    r ∈ (s.afterClose c (f.set old c.account.updatedAt)).reservations ↔
      (r ∈ s.reservations ∧ r.id ≠ old.id) ∨ r = c.reservation.row := by
  have hid : c.reservation.id = old.id := congrArg (·.id) h.reservation
  simp only [afterClose,mem_update,hid]
  constructor
  · rintro (hr | ⟨x,hx,hxid,rfl⟩)
    · exact .inl hr
    · rw [hk.eq_of_id hx h.mem hxid]
      exact .inr h.reservation.symm
  · rintro (hr | rfl)
    · exact .inl hr
    · exact .inr ⟨old,h.mem,rfl,h.reservation.symm⟩

@[simp] theorem afterClose_ids (eventTime : Time) :
    (s.afterClose c (f.set old eventTime)).reservations.map (·.id) = s.reservations.map (·.id) :=
  map_update fun r => (rfl : (f.set old eventTime r).id = r.id)

@[simp] theorem afterClose_keys (eventTime : Time) :
    (s.afterClose c (f.set old eventTime)).reservations.map (·.idempotencyKey) =
      s.reservations.map (·.idempotencyKey) :=
  map_update fun r => (rfl : (f.set old eventTime r).idempotencyKey = r.idempotencyKey)

section
variable (h : Closes f s old c)
include h

theorem Closes.row_id : c.reservation.row.id = old.id := by
  rw [h.reservation]
  rfl

theorem Closes.rowsValid (hs : RowsValid s) (hk : KeysUnique s) :
    RowsValid (s.afterClose c (f.set old c.account.updatedAt)) := by
  apply hs.commit h.valid _ h.updatedAt h.ledgerSeq
  · rw [h.reservation]
    exact ⟨h.tenantID.symm,h.accountID.symm⟩
  · rw [h.reservation]
    rfl
  · rw [h.entry]
    exact ⟨h.tenantID.symm,h.accountID.symm⟩
  · exact fun r hr => ((h.mem_after hk).mp hr).imp_left And.left
  · rw [h.account]
    exact ⟨rfl,rfl⟩

theorem Closes.keysUnique (hs : RowsValid s) (hk : KeysUnique s) :
    KeysUnique (s.afterClose c (f.set old c.account.updatedAt)) := by
  have hkey : c.entry.row.idempotencyKey = settlementLedgerKey f.kind old.id := by
    rw [h.entry]
    rfl
  have hentry : settlementLedgerKey f.kind old.id ∉ s.ledger.map (·.idempotencyKey) := by
    intro hmem
    obtain ⟨e,he,hek⟩ := mem_map.mp hmem
    apply h.freshEntry
    exact mem_map.mpr ⟨e,he,by rw [hek,(hs.ledgerOwner e he).2,h.accountID]⟩
  constructor
  · rw [afterClose_ids]
    exact hk.ids
  · rw [afterClose_keys]
    exact hk.keys
  · simpa [afterClose,nodup_append,hkey] using
      ⟨hk.ledger,fun r hr hid => hentry (mem_map.mpr ⟨r,hr,hid⟩)⟩

theorem Closes.balanced (hf : f.Coherent) (hk : KeysUnique s) (hb : Balanced s) :
    Balanced (s.afterClose c (f.set old c.account.updatedAt)) := by
  have hid : old.id = c.reservation.id := (congrArg (·.id) h.reservation).symm
  have hupd : ∀ w : ReservationRow → ℤ,
      total w (s.afterClose c (f.set old c.account.updatedAt)).reservations =
        total w s.reservations - w old + w (f.set old c.account.updatedAt old) := fun w =>
    total_update w hk.ids h.mem hid
  have hold : pendingAmount old = old.reservedMicros ∧ spentAmount old = 0 ∧
      overageAmount old = 0 := by
    simp [pendingAmount,spentAmount,overageAmount,h.pending]
  have hnew : pendingAmount (f.set old c.account.updatedAt old) = 0 ∧
      spentAmount (f.set old c.account.updatedAt old) = f.actual ∧
      overageAmount (f.set old c.account.updatedAt old) =
        max (f.actual - old.reservedMicros) 0 := by
    simp [pendingAmount,spentAmount,overageAmount,Ending.set,terminalSet,hf.terminal]
  have hacc : (s.afterClose c (f.set old c.account.updatedAt)).account = c.account.row := rfl
  have h₁ := hb.reserved
  have h₂ := hb.committed
  have h₃ := hb.hard
  constructor <;> rw [hacc,h.account,hupd] <;> simp only [hold,hnew] <;> omega

theorem Closes.booked (hf : f.Coherent) (hk : KeysUnique s) (hb : Booked s) :
    Booked (s.afterClose c (f.set old c.account.updatedAt)) := by
  have hkind : c.entry.row.kind = f.kind := by rw [h.entry]; rfl
  have hne : c.entry.row.kind ≠ .reserve := by
    rw [hkind,hf.kind]
    exact closingKind_ne_reserve _ _
  have hentryID : c.entry.row.reservationID = old.id := by rw [h.entry]; rfl
  have hledger : (s.afterClose c (f.set old c.account.updatedAt)).ledger =
      s.ledger ++ [c.entry.row] := rfl
  have hstat : c.reservation.row.status ≠ .pending := by
    rw [h.reservation]
    exact hf.terminal
  -- the hold was pending, so no entry had ended it
  have hopen : old.id ∉ closingIDs s.ledger := by
    intro hmem
    obtain ⟨r,hr,hid,hp⟩ := (hb.closed old.id).mp hmem
    rw [hk.eq_of_id hr h.mem hid] at hp
    exact hp h.pending
  constructor
  case openings =>
    rw [hledger,openingIDs_append,if_neg hne,append_nil,hb.openings,afterClose_ids]
  case closings =>
    rw [hledger,closingIDs_append,if_neg hne,hentryID]
    exact nodup_append.mpr ⟨hb.closings,by simp,by
      intro a ha b hb' hab
      rw [mem_singleton.mp hb'] at hab
      exact hopen (hab ▸ ha)⟩
  case closed =>
    intro id
    rw [hledger,closingIDs_append,if_neg hne,hentryID,mem_append,mem_singleton,hb.closed id]
    constructor
    · rintro (⟨r,hr,hid,hp⟩ | rfl)
      · have hro : r.id ≠ old.id := fun hro => hp (hk.eq_of_id hr h.mem hro ▸ h.pending)
        exact ⟨r,(h.mem_after hk).mpr (.inl ⟨hr,hro⟩),hid,hp⟩
      · exact ⟨_,(h.mem_after hk).mpr (.inr rfl),h.row_id,hstat⟩
    · rintro ⟨r,hr,hid,hp⟩
      rcases (h.mem_after hk).mp hr with ⟨hr,-⟩ | rfl
      · exact .inl ⟨r,hr,hid,hp⟩
      · exact .inr (hid.symm.trans h.row_id)
  case admits =>
    intro e he hk' r hr hid
    rw [hledger] at he
    rcases mem_append.mp he with he | he
    · rcases (h.mem_after hk).mp hr with ⟨hr,-⟩ | rfl
      · exact hb.admits e he hk' r hr hid
      · have hadm := hb.admits e he hk' old h.mem (h.row_id.symm.trans hid)
        rw [h.reservation]
        exact ⟨hadm.key,hadm.committed,hadm.reserved⟩
    · rw [mem_singleton.mp he] at hk'
      exact absurd hk' hne
  case ends =>
    intro e he hk' r hr hid
    rw [hledger] at he
    rcases mem_append.mp he with he | he
    · rcases (h.mem_after hk).mp hr with ⟨hr,-⟩ | rfl
      · exact hb.ends e he hk' r hr hid
      · exact absurd (h.row_id.symm.trans hid ▸ mem_closingIDs he hk') hopen
    · rw [mem_singleton.mp he,hentryID] at hid
      rcases (h.mem_after hk).mp hr with ⟨-,hro⟩ | rfl
      · exact absurd hid hro
      · rw [mem_singleton.mp he,h.entry,h.reservation]
        exact ⟨hf.terminal,hf.kind,rfl,rfl,rfl⟩

theorem Closes.inv (hf : f.Coherent) (hs : Inv s) :
    Inv (s.afterClose c (f.set old c.account.updatedAt)) :=
  ⟨h.rowsValid hs.valid hs.unique,h.keysUnique hs.valid hs.unique,
    h.balanced hf hs.unique hs.balanced,h.booked hf hs.unique hs.booked⟩

end
end Budget
