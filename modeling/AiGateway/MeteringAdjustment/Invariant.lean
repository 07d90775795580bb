import AiGateway.MeteringAdjustment.Writers
import AiGateway.Relational.Chain
import Mathlib.Algebra.Group.Prod

/-! What holds of the ledger and of the writers between any two statements. -/
namespace MeteringAdjustment
open Machine Adapter Metering Ledger Relational

variable {ι H : Type}

/-! An entry with the chain of its corrections, in the order of their commits. -/

def delta (entry : LedgerEntry) : ℤ × ℤ := (entry.quantity,entry.amountMicros)

/-- The values after a correction; those of an original are its own. -/
def result (entry : LedgerEntry) : ℤ × ℤ :=
  (entry.adjustment.map fun a => (a.resultQuantity,a.resultAmountMicros)).getD (delta entry)

def chain (db : Tables H) (eventID : String) : List LedgerEntry :=
  db.entries.filter (·.adjusts eventID)

/-- The quantity and the amount that count for an original. -/
def effective (db : Tables H) (target : LedgerEntry) : ℤ × ℤ :=
  final result (delta target) (chain db target.eventID)

def inRange (values : ℤ × ℤ) : Prop :=
  (0 ≤ values.1 ∧ values.1 ≤ maximumExactInteger) ∧ 0 ≤ values.2 ∧ values.2 ≤ maximumExactInteger

theorem sum_delta (entries : List LedgerEntry) : (entries.map delta).sum =
    (total (·.quantity) entries,total (·.amountMicros) entries) := by
  induction entries with
  | nil => rfl
  | cons e entries ih =>
    rw [List.map_cons,List.sum_cons,ih]
    simp [delta]

theorem corrections_eq (db : Tables H) (eventID : String) :
    db.corrections eventID = ((chain db eventID).map delta).sum :=
  (sum_delta _).symm

/-! The ledger. -/

/-- A row of the consumer. -/
structure OriginalSound (db : Tables H) (entry : LedgerEntry) : Prop where
  check : entry.Check
  attempt : entry.attemptID ≠ some ""
  priced : db.Priced entry
  referenced : db.Referenced entry

/-- A correction belongs to an original, with the attribution of that one. -/
structure Corrects (entry : LedgerEntry) (a : Adjustment) (target : LedgerEntry) : Prop where
  original : target.original
  id : target.eventID = a.adjustsEventID
  tenantID : entry.tenantID = target.tenantID
  requestID : entry.requestID = target.requestID
  attemptID : entry.attemptID = target.attemptID
  tokenType : entry.tokenType = target.tokenType
  priceVersionID : entry.priceVersionID = target.priceVersionID

structure LedgerSound (db : Tables H) : Prop where
  keyed : db.Keyed
  ids : (db.entries.map (·.eventID)).Nodup
  keys : (db.entries.filterMap correctionKey).Nodup
  originals : ∀ entry ∈ db.entries, entry.original → OriginalSound db entry
  checks : ∀ entry ∈ db.entries, entry.Check
  targets : ∀ entry ∈ db.entries, ∀ a ∈ entry.adjustment, ∃ target ∈ db.entries,
    Corrects entry a target
  chains : ∀ target ∈ db.entries, target.original →
    Telescopes delta result (delta target) (chain db target.eventID)

/-! The writers. -/

/-- The transaction has read the row of its target. -/
structure Targeted (db : Tables H) (command : Command) (target : TargetFact) (entry : LedgerEntry) :
    Prop where
  mem : entry ∈ db.entries
  original : entry.original
  id : entry.eventID = command.targetEventID
  tenant : entry.tenantID = command.scope.tenantID
  joined : joined db command.scope.projectID entry = some target.currency
  fact : target = targetFact entry target.currency

/-- No correction of the target has the key of the command. -/
def Fresh (db : Tables H) (command : Command) : Prop :=
  ∀ entry ∈ db.entries, command.keyed entry → entry.adjusts command.targetEventID = false

/-- The differences from what counts now to what the command asks for. -/
structure Derived (db : Tables H) (command : Command) (entry : LedgerEntry)
    (quantityDelta amountDelta : ℤ) : Prop where
  exact : (quantityDelta,amountDelta) =
    (command.correctedQuantity,command.correctedAmountMicros) -
      (delta entry + db.corrections command.targetEventID)
  changes : quantityDelta ≠ 0 ∨ amountDelta ≠ 0
  within : inRange (delta entry + db.corrections command.targetEventID)

/-- The stored correction is that of the command. -/
def Stored (db : Tables H) (command : Command) (entry : LedgerEntry) (a : Adjustment) : Prop :=
  entry ∈ db.entries ∧ entry.adjustment = some a ∧ command.keyed entry ∧
    command.matches entry a

def PhaseSound (stamp : Time → Time) (db : Tables H) : Phase → Prop
  | .idle => True
  | .begun command _ | .missed command _ => command.validate
  | .locked command _ target => command.validate ∧ ∃ entry, Targeted db command target entry
  | .rechecked command _ target => command.validate ∧ Fresh db command ∧
      ∃ entry, Targeted db command target entry
  | .derived command _ target quantityDelta amountDelta => command.validate ∧
      Fresh db command ∧ ∃ entry, Targeted db command target entry ∧
        Derived db command entry quantityDelta amountDelta
  | .inserted command createdAt target quantityDelta amountDelta => command.validate ∧
      Fresh db command ∧ ∃ entry, Targeted db command target entry ∧
        Derived db command entry quantityDelta amountDelta ∧
        entry.observedAt ≤ stamp createdAt
  | .found command result => ∃ entry a currency, Stored db command entry a ∧
      result = storedResult entry a currency

/-- The row that a phase has inserted. -/
def Phase.pending (stamp : Time → Time) : Phase → Option LedgerEntry
  | .inserted command createdAt target quantityDelta amountDelta =>
      some (adjustmentEntry stamp command target quantityDelta amountDelta createdAt)
  | _ => none

/-- A successful call returned what the ledger holds; only the insert returns its own time. -/
def CallSound (stamp : Time → Time) (db : Tables H)
    (call : Command × Except AdjustmentError Result) : Prop :=
  ∀ result, call.2 = .ok result → ∃ entry a currency, Stored db call.1 entry a ∧
    (result = storedResult entry a currency ∨ ∃ createdAt, entry.createdAt = stamp createdAt ∧
      result = { storedResult entry a currency with
        createdAt := createdAt, inserted := true, replayed := false })

structure Sound (stamp : Time → Time) (s : System ι H) : Prop where
  ledger : LedgerSound s.tables
  times : ∀ entry ∈ s.tables.entries, entry.original →
    stamp entry.observedAt = entry.observedAt
  locked : ∀ i eventID, (s.sessions i).lock = some eventID → (eventID,i) ∈ s.locks
  lockIDs : (s.locks.map Prod.fst).Nodup
  waiting : ∀ i entry, (s.sessions i).pending stamp = some entry → (entry,i) ∈ s.pending
  ids : ((s.tables.entries ++ s.pending.map Prod.fst).map (·.eventID)).Nodup
  keys : ((s.tables.entries ++ s.pending.map Prod.fst).filterMap correctionKey).Nodup
  sessions : ∀ i, PhaseSound stamp s.tables (s.sessions i)
  log : ∀ call ∈ s.log, CallSound stamp s.tables call

/-! What is known stays known while the target is locked. -/

variable {entry : LedgerEntry}

section Later
variable {stamp : Time → Time} {db db' : Tables H} {command : Command} {projectID currency : String}

theorem joined_eq_some : joined db projectID entry = some currency ↔
      (∃ r ∈ db.requests, r.tenantID = entry.tenantID ∧ r.id = entry.requestID ∧
        r.projectID = projectID) ∧
      ∃ v, db.prices.version? entry.priceVersionID = some v ∧ v.currency = currency := by
  unfold joined
  split_ifs with h
  · simp only [h,true_and,Option.map_eq_some_iff]
  · simp [h]

theorem joined_later (hlater : db.Later db') (hkey : db.Keyed) (hkey' : db'.Keyed)
    (hpriced : db.Priced entry) (h : joined db projectID entry = some currency) :
    joined db' projectID entry = some currency := by
  obtain ⟨⟨r,hr,htenant,hid,hproj⟩,v,hv,hcurr⟩ := joined_eq_some.mp h
  obtain ⟨r',hr',hid',htenant',hproj'⟩ := hlater.requests r hr
  obtain ⟨w,hw,hwid,hstat,-⟩ := hpriced
  have hsame : v = w := by
    obtain ⟨hmem,hvid⟩ := (find?_eq_some hkey.prices.versions).mp hv
    exact List.inj_on_of_nodup_map hkey.prices.versions hmem hw (hvid.trans hwid.symm)
  rw [joined_eq_some]
  refine ⟨⟨r',hr',htenant'.trans htenant,hid'.trans hid,hproj'.trans hproj⟩,v,?_,hcurr⟩
  exact (find?_eq_some hkey'.prices.versions).mpr
    ⟨hlater.prices.versions v (hsame ▸ hw) (hsame ▸ hstat),hsame ▸ hwid⟩

/-- The other database is later and has no further corrections of this entry. -/
structure Leaves (eventID : String) (db db' : Tables H) : Prop where
  later : db.Later db'
  chain : chain db' eventID = chain db eventID

variable (hleaves : Leaves command.targetEventID db db')
include hleaves

theorem Leaves.corrections :
    db'.corrections command.targetEventID = db.corrections command.targetEventID := by
  rw [corrections_eq,corrections_eq,hleaves.chain]

theorem Fresh.leaves (h : Fresh db command) : Fresh db' command := by
  intro entry hentry hkey
  by_contra hadj
  rw [Bool.not_eq_false] at hadj
  have hchain : entry ∈ chain db command.targetEventID := by
    rw [← hleaves.chain]
    exact List.mem_filter.mpr ⟨hentry,hadj⟩
  have hfresh := h entry (List.mem_filter.mp hchain).1 hkey
  rw [hadj] at hfresh
  cases hfresh

theorem Derived.leaves {quantityDelta amountDelta : ℤ}
    (h : Derived db command entry quantityDelta amountDelta) :
    Derived db' command entry quantityDelta amountDelta := by
  obtain ⟨hexact,hchanges,hwithin⟩ := h
  rw [← hleaves.corrections] at hexact hwithin
  exact ⟨hexact,hchanges,hwithin⟩

end Later

section Later
variable {stamp : Time → Time} {db db' : Tables H}

theorem Targeted.later {command : Command} {target : TargetFact}
    (h : Targeted db command target entry) (hdb : LedgerSound db) (hkey : db'.Keyed)
    (hlater : db.Later db') : Targeted db' command target entry := by
  refine { h with mem := hlater.entries.subset h.mem, joined := ?_ }
  exact joined_later hlater hdb.keyed hkey (hdb.originals entry h.mem h.original).priced h.joined

theorem Stored.later {command : Command} {a : Adjustment}
    (h : Stored db command entry a) (hlater : db.Later db') : Stored db' command entry a :=
  ⟨hlater.entries.subset h.1,h.2⟩

theorem PhaseSound.later {phase : Phase} (h : PhaseSound stamp db phase) (hdb : LedgerSound db)
    (hkey : db'.Keyed) (hlater : db.Later db')
    (hchain : ∀ eventID, phase.lock = some eventID → chain db' eventID = chain db eventID) :
    PhaseSound stamp db' phase := by
  cases phase with
  | idle => trivial
  | begun command createdAt => exact h
  | missed command createdAt => exact h
  | locked command createdAt target =>
    obtain ⟨hvalid,entry,htgt⟩ := h
    exact ⟨hvalid,entry,htgt.later hdb hkey hlater⟩
  | rechecked command createdAt target =>
    obtain ⟨hvalid,hfresh,entry,htgt⟩ := h
    have hleaves : Leaves command.targetEventID db db' := ⟨hlater,hchain _ rfl⟩
    exact ⟨hvalid,hfresh.leaves hleaves,entry,htgt.later hdb hkey hlater⟩
  | derived command createdAt target quantityDelta amountDelta =>
    obtain ⟨hvalid,hfresh,entry,htgt,hderived⟩ := h
    have hleaves : Leaves command.targetEventID db db' := ⟨hlater,hchain _ rfl⟩
    exact ⟨hvalid,hfresh.leaves hleaves,entry,htgt.later hdb hkey hlater,hderived.leaves hleaves⟩
  | inserted command createdAt target quantityDelta amountDelta =>
    obtain ⟨hvalid,hfresh,entry,htgt,hderived,htime⟩ := h
    have hleaves : Leaves command.targetEventID db db' := ⟨hlater,hchain _ rfl⟩
    exact ⟨hvalid,hfresh.leaves hleaves,entry,htgt.later hdb hkey hlater,
      hderived.leaves hleaves,htime⟩
  | found command result =>
    obtain ⟨entry,a,currency,hstored,hres⟩ := h
    exact ⟨entry,a,currency,hstored.later hlater,hres⟩

theorem CallSound.later {call : Command × Except AdjustmentError Result}
    (h : CallSound stamp db call) (hlater : db.Later db') : CallSound stamp db' call := by
  intro result hres
  obtain ⟨entry,a,currency,hstored,hcase⟩ := h result hres
  exact ⟨entry,a,currency,hstored.later hlater,hcase⟩

end Later
end MeteringAdjustment
