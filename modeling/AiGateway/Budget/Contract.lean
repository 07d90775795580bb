import AiGateway.Budget.Invariant

/-! What a call may do in one step, and what every call may rely on while the others act: the
account keeps its identity, a hold keeps the columns it was created with and never changes once it
is terminal, and the ledger only grows. -/
namespace Budget
open Interleaving

/-- The columns of a hold that never change, as the row was inserted. -/
def ReservationOf.created {amt : Type} (r : ReservationOf amt) : ReservationOf amt :=
  { r with
    status := .pending, actualMicros := none, releasedMicros := none, overageMicros := none
    version := 1, updatedAt := r.createdAt, updatedBy := r.createdBy, terminalAt := none }

/-- The row of a hold at a later time. -/
structure Continues (r r' : ReservationRow) : Prop where
  created : r'.created = r.created
  terminal : r.status ≠ .pending → r' = r

structure Evolves (s t : Database) : Prop where
  id : t.account.id = s.account.id
  scope : t.account.scope = s.account.scope
  hardLimit : t.account.hardLimitMicros = s.account.hardLimitMicros
  holds : ∀ r ∈ s.reservations, ∃ r' ∈ t.reservations, Continues r r'
  ledger : s.ledger <+: t.ledger

theorem Continues.refl (r : ReservationRow) : Continues r r := ⟨rfl,fun _ => rfl⟩

theorem Continues.trans {a b c : ReservationRow} (hab : Continues a b) (hbc : Continues b c) :
    Continues a c := by
  refine ⟨hbc.created.trans hab.created,fun ha => ?_⟩
  have hb := hab.terminal ha
  subst hb
  exact hbc.terminal ha

variable {r r' : ReservationRow}

theorem Continues.id_eq (h : Continues r r') : r'.id = r.id :=
  congrArg (·.id) h.created

theorem Continues.reserved_eq (h : Continues r r') : r'.reservedMicros = r.reservedMicros :=
  congrArg (·.reservedMicros) h.created

theorem Evolves.refl (s : Database) : Evolves s s :=
  ⟨rfl,rfl,rfl,fun r hr => ⟨r,hr,.refl r⟩,List.prefix_rfl⟩

theorem Evolves.trans {s t u : Database} (hst : Evolves s t) (htu : Evolves t u) : Evolves s u := by
  refine ⟨htu.id.trans hst.id,htu.scope.trans hst.scope,htu.hardLimit.trans hst.hardLimit,
    fun r hr => ?_,hst.ledger.trans htu.ledger⟩
  obtain ⟨r',hr',hc⟩ := hst.holds r hr
  obtain ⟨r'',hr'',hc'⟩ := htu.holds r' hr'
  exact ⟨r'',hr'',hc.trans hc'⟩

theorem Evolves.locks (s : Database) (locks : List String) : Evolves s { s with locks } :=
  ⟨rfl,rfl,rfl,fun r hr => ⟨r,hr,.refl r⟩,List.prefix_rfl⟩

def contract : Contract Database where
  inv := Inv
  rely := Evolves
  rely_refl := Evolves.refl
  rely_trans := Evolves.trans

/-- One step of a call: the rows stay as they are, or the call commits its change. -/
inductive Acts : Call → Database → Database → Prop
  | idle (call : Call) (s : Database) (locks : List String) : Acts call s { s with locks }
  | opens (options : ReserveOptions) (input : ReserveInput) (s : Database) (c : Commit)
      (h : Opens input.stored s c) : Acts (.reserve options input) s (s.afterOpen c)
  | settles (options : ReserveOptions) (input : SettlementInput) (s : Database)
      (old : ReservationRow) (c : Commit) (actual : ℕ) (ha : input.actualMicros = .ok actual)
      (hid : old.id = input.reservationID) (h : Closes (input.ending actual) s old c) :
      Acts (.settle options input) s
        (s.afterClose c ((input.ending actual).set old c.account.updatedAt))
  | expires (options : ReaperOptions) (actor : String) (s : Database) (old : ReservationRow)
      (c : Commit) (h : Closes (expiration actor) s old c) :
      Acts (.reap options actor) s
        (s.afterClose c ((expiration actor).set old c.account.updatedAt))

variable {s t : Database} {c : Commit} {input : ReserveInput} {f : Ending} {old : ReservationRow}

theorem Opens.evolves (h : Opens input s c) : Evolves s (s.afterOpen c) := by
  have hacc : (s.afterOpen c).account = c.account.row := rfl
  constructor
  case id => rw [hacc,h.account]
  case scope => rw [hacc,h.account]
  case hardLimit => rw [hacc,h.account]
  case holds => exact fun r hr => ⟨r,List.mem_append_left _ hr,.refl r⟩
  case ledger => exact List.prefix_append _ _

theorem Closes.evolves (h : Closes f s old c) (hk : KeysUnique s) :
    Evolves s (s.afterClose c (f.set old c.account.updatedAt)) := by
  have hacc : (s.afterClose c (f.set old c.account.updatedAt)).account = c.account.row := rfl
  constructor
  case id => rw [hacc,h.account]
  case scope => rw [hacc,h.account]
  case hardLimit => rw [hacc,h.account]
  case holds =>
    intro r hr
    by_cases hid : r.id = old.id
    · have hro := hk.eq_of_id hr h.mem hid
      subst hro
      refine ⟨c.reservation.row,(h.mem_after hk).mpr (.inr rfl),?_,fun hp => ?_⟩
      · rw [h.reservation]
        rfl
      · exact absurd h.pending hp
    · exact ⟨r,(h.mem_after hk).mpr (.inl ⟨hr,hid⟩),.refl r⟩
  case ledger => exact List.prefix_append _ _

/-- A step that leaves the books alone and keeps the account valid keeps the invariant. -/
theorem Inv.of_account (hs : Inv s) (hr : t.reservations = s.reservations)
    (hl : t.ledger = s.ledger) (hq : t.ledgerSeq = s.ledgerSeq)
    (hv : ∃ a, scanBudgetAccount t.account = .ok a) (hid : t.account.id = s.account.id)
    (hscope : t.account.scope = s.account.scope)
    (hres : t.account.reservedMicros = s.account.reservedMicros)
    (hcom : t.account.committedMicros = s.account.committedMicros)
    (hhard : t.account.hardLimitMicros = s.account.hardLimitMicros)
    (htime : s.account.updatedAt ≤ t.account.updatedAt) : Inv t := by
  obtain ⟨⟨-,hrs,hls,ho,hlo,hu,hseq⟩,⟨h₁,h₂,h₃⟩,⟨h₄,h₅,h₆⟩,⟨h₇,h₈,h₉,h₁₀,h₁₁⟩⟩ := hs
  refine ⟨⟨hv,?_,?_,?_,?_,?_,?_⟩,⟨?_,?_,?_⟩,⟨?_,?_,?_⟩,⟨?_,?_,?_,?_,?_⟩⟩ <;>
    simp only [hr,hl,hq,hid,hscope,hres,hcom,hhard]
  all_goals first | assumption | exact fun r hr => (hu r hr).trans htime

theorem Inv.locks (hs : Inv s) (locks : List String) : Inv { s with locks } :=
  hs.of_account rfl rfl rfl hs.valid.account rfl rfl rfl rfl rfl le_rfl

theorem Acts.evolves {call : Call} (h : Acts call s t) (hs : Inv s) : Evolves s t := by
  cases h with
  | idle _ _ locks => exact .locks s locks
  | opens options input _ c h => exact h.evolves
  | settles options input _ old c actual ha hid h => exact h.evolves hs.unique
  | expires options actor _ old c h => exact h.evolves hs.unique

theorem scanBudgetAccount_close {a : Account} {time : Time} {actor : String} (h : a.Validate)
    (ht : a.createdAt ≤ time) (hactor : validActor actor) :
    ∃ b, scanBudgetAccount { a.row with
      status := .closed, closedAt := some time, version := a.row.version + 1
      updatedAt := max a.row.updatedAt time, updatedBy := actor } = .ok b := by
  refine ⟨{ a with
    status := .closed, closedAt := some time, version := a.version + 1
    updatedAt := max a.updatedAt time, updatedBy := actor },scanBudgetAccount_eq_ok.mpr ⟨rfl,?_⟩⟩
  exact { h with
    version := by have := h.version; simp only; omega
    updatedAt := h.updatedAt.trans (le_max_left _ _)
    updatedBy := hactor
    closed := by simp
    closedAt := by simp only [Option.some.injEq]; rintro t rfl; exact ht }

theorem Environment.inv (h : Environment s t) (hs : Inv s) : Inv t := by
  cases h with
  | insertRequest tenantID requestID status h =>
    exact hs.of_account rfl rfl rfl hs.valid.account rfl rfl rfl rfl rfl le_rfl
  | moveRequest tenantID requestID old new h ht =>
    exact hs.of_account rfl rfl rfl hs.valid.account rfl rfl rfl rfl rfl le_rfl
  | close time actor ho ht ha =>
    obtain ⟨a,hv⟩ := hs.valid.account
    obtain ⟨hrow,hvalid⟩ := scanBudgetAccount_eq_ok.mp hv
    refine hs.of_account rfl rfl rfl ?_ rfl rfl rfl rfl rfl (le_max_left _ _)
    simp only [Database.close,hrow] at ht ⊢
    exact scanBudgetAccount_close hvalid ht ha

theorem Environment.evolves (h : Environment s t) : Evolves s t := by
  cases h <;> exact ⟨rfl,rfl,rfl,fun r hr => ⟨r,hr,.refl r⟩,List.prefix_rfl⟩

theorem Initial.inv (h : Initial s) : Inv s := by
  obtain ⟨ha,hc,hr,hrs,hl,hq,-⟩ := h
  obtain ⟨a,hv⟩ := ha
  obtain ⟨hrow,hvalid⟩ := scanBudgetAccount_eq_ok.mp hv
  have hhard : 0 ≤ s.account.hardLimitMicros := by simp [hrow,AccountOf.row]
  refine ⟨⟨⟨a,hv⟩,?_,?_,?_,?_,?_,hq⟩,⟨?_,?_,?_⟩,⟨?_,?_,?_⟩,⟨?_,?_,?_,?_,?_⟩⟩ <;>
    simp [hrs,hl,hc,hr,hhard,openingIDs,closingIDs]

end Budget
