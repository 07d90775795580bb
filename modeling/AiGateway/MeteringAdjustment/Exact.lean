import AiGateway.MeteringAdjustment.Runs
import Mathlib.Data.Int.ConditionallyCompleteOrder

/-! Chains of corrections stay exact, over every interleaving of commands, duplicates
and conflicts. -/
namespace MeteringAdjustment
open Machine Adapter Metering Ledger List LedgerEntry Relational

variable {ι H : Type} {stamp : Time → Time} {db : Tables H} {s : System ι H} {i : ι}

/-! Sums over a part of the ledger: a correction counts where its original counts. -/

/-- What says where an entry belongs. -/
def attribution (entry : LedgerEntry) : String × String × Option String × String :=
  (entry.tenantID,entry.requestID,entry.attemptID,entry.priceVersionID)

variable {entry : LedgerEntry} {a : Adjustment}

theorem Corrects.attribution_eq {target : LedgerEntry} (h : Corrects entry a target) :
    attribution entry = attribution target := by
  rw [attribution,attribution,h.tenantID,h.requestID,h.attemptID,h.priceVersionID]

theorem LedgerSound.total_eq (h : LedgerSound db)
    (p : String × String × Option String × String → Bool) :
    total (·.amountMicros) (db.entries.filter fun e => p (attribution e)) =
      total (fun t => (effective db t).2)
        ((db.entries.filter original).filter fun t => p (attribution t)) := by
  have hnodup : ((db.entries.filter original).filter fun t => p (attribution t)).Nodup :=
    (h.ids.of_map.filter _).filter _
  -- every correction has its original in the same part of the ledger
  have hparent : ∀ e ∈ (db.entries.filter fun e => p (attribution e)).filter fun e => !e.original,
      ∃ t ∈ (db.entries.filter original).filter fun t => p (attribution t),
        e.adjusts t.eventID ∧
        ∀ t' ∈ (db.entries.filter original).filter fun t => p (attribution t),
          e.adjusts t'.eventID → t' = t := by
    intro e he
    obtain ⟨he,hcorrection⟩ := mem_filter.mp he
    obtain ⟨hmem,hp⟩ := mem_filter.mp he
    obtain ⟨a,ha⟩ := adjustment_some (h.checks e hmem) (by simpa using hcorrection)
    obtain ⟨t,ht,hcorr⟩ := h.targets e hmem a ha
    refine ⟨t,?_,adjusts_iff.mpr ⟨a,ha,hcorr.id.symm⟩,?_⟩
    · rw [mem_filter,mem_filter]
      exact ⟨⟨ht,hcorr.original⟩,hcorr.attribution_eq ▸ hp⟩
    · intro t' ht' hadj
      obtain ⟨b,hb,hid⟩ := adjusts_iff.mp hadj
      rw [ha] at hb
      cases hb
      have hmem' := (mem_filter.mp (mem_filter.mp ht').1).1
      exact h.target_unique hmem' ht (hid.symm.trans hcorr.id.symm)
  have hgrouped := total_grouped amountMicros (fun e t => e.adjusts t.eventID) hnodup hparent
  rw [total_split _ original,hgrouped,filter_comm,← total_add]
  apply total_congr
  intro t ht
  obtain ⟨ht,hp⟩ := mem_filter.mp ht
  obtain ⟨hmem,horig⟩ := mem_filter.mp ht
  have hrows : ((db.entries.filter fun e => p (attribution e)).filter
      fun e => !e.original).filter (·.adjusts t.eventID) = chain db t.eventID := by
    rw [filter_filter,filter_filter,chain]
    apply filter_congr
    intro e he
    cases hadj : e.adjusts t.eventID with
    | false => simp
    | true =>
      obtain ⟨a,ha,hcorr⟩ := h.corrects he hmem hadj
      have hcorrection : e.original = false := by
        by_contra hnot
        rw [Bool.not_eq_false] at hnot
        rw [adjustment_none (h.checks e he) hnot] at ha
        cases ha
      simp [hcorrection,hcorr.attribution_eq,hp]
  rw [hrows,← h.effective_eq hmem horig]
  rfl

/-! A command whose key is in the ledger. -/

variable {command : Command}

theorem targetRow_stored (h : LedgerSound db) (hstored : Stored db command entry a)
    {currency : String} (hjoined : joined db command.scope.projectID entry = some currency) :
    ∃ target, targetRow db command = some (target,currency) ∧
      (targetFact target currency).valid := by
  obtain ⟨hmem,ha,hkeyed,hmatches⟩ := hstored
  obtain ⟨target,htgt,hcorr⟩ := h.targets entry hmem a ha
  simp only [Command.matches,Bool.and_eq_true,decide_eq_true_eq] at hmatches
  have hid : target.eventID = command.targetEventID :=
    hcorr.id.trans hmatches.1.1.1.1.1.1.1.2
  have htenant : target.tenantID = command.scope.tenantID := by
    rw [← hcorr.tenantID]
    simp only [Command.keyed,Bool.and_eq_true] at hkeyed
    exact of_decide_eq_true hkeyed.1
  refine ⟨target,targetRow_eq_some.mpr ⟨?_,htenant,joined_congr hcorr ▸ hjoined⟩,?_⟩
  · exact (find?_eq_some h.ids).mpr ⟨htgt,hid⟩
  · have hcheck := h.checks target htgt
    have horig := hcorr.original
    have hqty := hcheck.quantity
    have hamt := hcheck.amount
    rw [original,decide_eq_true_eq] at horig
    rw [quantityValid,if_neg horig,Bool.and_eq_true] at hqty
    rw [amountValid,if_neg horig,Bool.and_eq_true] at hamt
    simp only [TargetFact.valid,targetFact,Bool.and_eq_true]
    exact ⟨⟨⟨⟨⟨decide_eq_true horig,hcheck.tokenType⟩,hqty.1⟩,hqty.2⟩,hamt.1⟩,hamt.2⟩

theorem Stored.not_fresh (h : Stored db command entry a) : ¬ Fresh db command := by
  obtain ⟨hmem,ha,hkeyed,hmatches⟩ := h
  intro hfresh
  simp only [Command.matches,Bool.and_eq_true] at hmatches
  have hadj : entry.adjusts command.targetEventID :=
    adjusts_iff.mpr ⟨a,ha,of_decide_eq_true hmatches.1.1.1.1.1.1.1.2⟩
  rw [hfresh entry hmem hkeyed] at hadj
  cases hadj

variable [DecidableEq ι] {action : Action ι H}

theorem System.step_tables (hwriter : action.writer = some i) :
    (s.step stamp action).tables = s.tables ∨ ∃ entry, (s.sessions i).pending stamp = some entry ∧
      (s.step stamp action).tables = { s.tables with entries := s.tables.entries ++ [entry] } := by
  have hexist : ∀ (j : ι) (command : Command) (next : Phase),
      (s.existing j command next).tables = s.tables := by
    intro j command next
    unfold System.existing
    split <;> rfl
  cases action with
  | apply j command now =>
    left
    simp only [System.step,System.apply]
    split
    · split_ifs <;> rfl
    · rfl
  | find j =>
    left
    simp only [System.step,System.find]
    split
    · exact hexist _ _ _
    · rfl
  | lock j =>
    left
    simp only [System.step,System.lock]
    split
    · split
      · rfl
      · split_ifs <;> rfl
    · rfl
  | recheck j =>
    left
    simp only [System.step,System.recheck]
    split
    · exact hexist _ _ _
    · rfl
  | derive j =>
    left
    simp only [System.step,System.derive]
    split
    · split
      · rfl
      · split_ifs <;> rfl
    · rfl
  | insert j =>
    left
    simp only [System.step,System.insert]
    split
    · split
      · rfl
      · split_ifs <;> rfl
    · rfl
  | commit j reply =>
    cases hwriter
    simp only [System.step,System.commit]
    split
    · rename_i command createdAt target quantityDelta amountDelta hins
      rw [hins]
      cases reply with
      | failed => exact .inl rfl
      | unanswered => exact .inr ⟨_,rfl,rfl⟩
      | answered => exact .inr ⟨_,rfl,rfl⟩
    · left
      cases reply <;> rfl
    · exact .inl rfl
  | fail j =>
    left
    simp only [System.step,System.fail]
    split <;> rfl
  | record entry => cases hwriter
  | change tables => cases hwriter

theorem System.tables_step (hwriter : action.writer = some i)
    (hphase : (s.sessions i).pending stamp = none) : (s.step stamp action).tables = s.tables := by
  rcases System.step_tables hwriter with hsame | ⟨entry,hpend,-⟩
  · exact hsame
  · rw [hphase] at hpend
    cases hpend

/-- A writer whose command is stored returns that correction, or fails at the store. -/
theorem Sound.replay (hs : Sound stamp s) (hcmd : (s.sessions i).command = some command)
    (hstored : Stored s.tables command entry a) {currency : String}
    (hjoined : joined s.tables command.scope.projectID entry = some currency)
    (hwriter : action.writer = some i) : (s.step stamp action).log = s.log ∨
      (s.step stamp action).log = s.log ++ [(command,.error .storeUnavailable)] ∨
      ∃ currency, (s.step stamp action).log =
        s.log ++ [(command,.ok (storedResult entry a currency))] := by
  have hload := loadExisting_stored hs.ledger hstored.1 hstored.2.1 hstored.2.2.1 hjoined
  rw [if_pos hstored.2.2.2] at hload
  have hexist : ∀ next, (s.existing i command next).log = s.log := by
    intro next
    unfold System.existing
    rw [hload]
    rfl
  obtain ⟨target,hrow,hvalid⟩ := targetRow_stored hs.ledger hstored hjoined
  have hsess := hs.sessions i
  cases action with
  | apply j command' now =>
    cases hwriter
    left
    simp only [System.step,System.apply]
    split
    · rename_i hidle
      rw [hidle] at hcmd
      cases hcmd
    · rfl
  | find j =>
    cases hwriter
    left
    simp only [System.step,System.find]
    split
    · rename_i c createdAt hphase
      rw [hphase] at hcmd
      cases hcmd
      exact hexist _
    · rfl
  | lock j =>
    cases hwriter
    left
    simp only [System.step,System.lock]
    split
    · rename_i c createdAt hphase
      rw [hphase] at hcmd
      cases hcmd
      rw [hrow]
      dsimp only
      split_ifs with hheld hinv
      · rfl
      · rw [hvalid] at hinv
        cases hinv
      · rfl
    · rfl
  | recheck j =>
    cases hwriter
    left
    simp only [System.step,System.recheck]
    split
    · rename_i c createdAt fact hphase
      rw [hphase] at hcmd
      cases hcmd
      exact hexist _
    · rfl
  | derive j =>
    cases hwriter
    left
    simp only [System.step,System.derive]
    split
    · rename_i c createdAt fact hphase
      rw [hphase] at hcmd hsess
      cases hcmd
      exact absurd hsess.2.1 hstored.not_fresh
    · rfl
  | insert j =>
    cases hwriter
    left
    simp only [System.step,System.insert]
    split
    · rename_i c createdAt fact quantityDelta amountDelta hphase
      rw [hphase] at hcmd hsess
      cases hcmd
      exact absurd hsess.2.1 hstored.not_fresh
    · rfl
  | commit j reply =>
    cases hwriter
    simp only [System.step,System.commit]
    split
    · rename_i c createdAt fact quantityDelta amountDelta hphase
      rw [hphase] at hcmd hsess
      cases hcmd
      exact absurd hsess.2.1 hstored.not_fresh
    · rename_i c result hphase
      rw [hphase] at hcmd hsess
      cases hcmd
      obtain ⟨found,b,currency',hfound,rfl⟩ := hsess
      have hsame : found = entry := inj_on_of_nodup_filterMap hs.ledger.keys hfound.1
        hstored.1 (keyed_iff.mp hfound.2.2.1) (keyed_iff.mp hstored.2.2.1)
      have hadjust := hfound.2.1
      rw [hsame,hstored.2.1] at hadjust
      cases hadjust
      cases reply with
      | answered => exact .inr (.inr ⟨currency',by rw [hsame]; rfl⟩)
      | unanswered => exact .inr (.inl rfl)
      | failed => exact .inr (.inl rfl)
    · exact .inl rfl
  | fail j =>
    cases hwriter
    right; left
    simp only [System.step,System.fail,hcmd]
    rfl
  | record entry => cases hwriter
  | change tables => cases hwriter

variable (stamp) in
structure System.Exact (s : System ι H) : Prop where
  /-- An original and the differences of its corrections give the result of the last one, -/
  total : ∀ t ∈ s.tables.entries, t.original →
    delta t + s.tables.corrections t.eventID = effective s.tables t
  /-- which is within the exact integers. -/
  range : ∀ t ∈ s.tables.entries, t.original → inRange (effective s.tables t)
  /-- Each difference is the one from the value before it. -/
  differences : ∀ t ∈ s.tables.entries, t.original → ∀ before e after,
    chain s.tables t.eventID = before ++ e :: after →
    delta e = result e - final result (delta t) before
  /-- Every correction is in the chain of one original, with its attribution. -/
  attributed : ∀ e ∈ s.tables.entries, e.original = false → ∃ t ∈ s.tables.entries,
    t.original ∧ e ∈ chain s.tables t.eventID ∧ attribution e = attribution t
  /-- So the amounts of any part of the ledger add up to what counts for its originals. -/
  parts : ∀ p : String × String × Option String × String → Bool,
    Relational.total (·.amountMicros) (s.tables.entries.filter fun e => p (attribution e)) =
      Relational.total (fun t => (effective s.tables t).2)
        ((s.tables.entries.filter original).filter fun t => p (attribution t)) ∧
    0 ≤ Relational.total (·.amountMicros) (s.tables.entries.filter fun e => p (attribution e))
  /-- A key is in a tenant once. -/
  keys : ∀ e ∈ s.tables.entries, ∀ e' ∈ s.tables.entries, ∀ k, correctionKey e = some k →
    correctionKey e' = some k → e = e'
  /-- A call whose key is there appends nothing, -/
  appends : ∀ i command e, (s.sessions i).command = some command → e ∈ s.tables.entries →
    command.keyed e → ∀ action : Action ι H, action.writer = some i →
    (s.step stamp action).tables = s.tables
  /-- the same command returns what is stored, if the store answers, -/
  replays : ∀ i command e a currency, (s.sessions i).command = some command →
    Stored s.tables command e a → joined s.tables command.scope.projectID e = some currency →
    ∀ action : Action ι H, action.writer = some i → (s.step stamp action).log = s.log ∨
      (s.step stamp action).log = s.log ++ [(command,.error .storeUnavailable)] ∨
      ∃ currency, (s.step stamp action).log = s.log ++ [(command,.ok (storedResult e a currency))]
  /-- and a call that succeeded had the content that is stored under its key. -/
  succeeds : ∀ command result, (command,.ok result) ∈ s.log → ∃ e a currency,
    Stored s.tables command e a ∧ (result = storedResult e a currency ∨
      ∃ createdAt, e.createdAt = stamp createdAt ∧ result = { storedResult e a currency with
        createdAt := createdAt, inserted := true, replayed := false })
  /-- The trigger accepts what a writer is about to insert, and only a key that is
  taken stops it. -/
  accepts : ∀ i command createdAt target quantityDelta amountDelta,
    s.sessions i = .derived command createdAt target quantityDelta amountDelta →
    ∀ t ∈ s.tables.entries, t.eventID = command.targetEventID → t.observedAt ≤ createdAt →
    s.tables.adjustmentIntegrity
      (adjustmentEntry stamp command target quantityDelta amountDelta createdAt) ∧
    ∀ e, s.tables.insertEntry
      (adjustmentEntry stamp command target quantityDelta amountDelta createdAt) = .error e →
      e = .uniqueViolation

theorem leads_exact (hstamp : Monotone stamp) {tables : Tables H} (hkeyed : tables.Keyed)
    (h : (System.start tables).Leads stamp s) : s.Exact stamp := by
  have hs := leads_sound hkeyed h
  refine ⟨fun t => hs.ledger.effective_eq,fun t => hs.ledger.effective_inRange,?_,?_,?_,?_,?_,
    ?_,fun command result hcall => hs.log _ hcall result rfl,?_⟩
  · intro t ht horig before e after hchain
    have htele := hs.ledger.chains t ht horig
    rw [hchain,Relational.telescopes_append] at htele
    exact htele.2.1
  · intro e he hcorrection
    obtain ⟨a,ha⟩ := adjustment_some (hs.ledger.checks e he) hcorrection
    obtain ⟨t,ht,hcorr⟩ := hs.ledger.targets e he a ha
    refine ⟨t,ht,hcorr.original,?_,hcorr.attribution_eq⟩
    exact mem_filter.mpr ⟨he,adjusts_iff.mpr ⟨a,ha,hcorr.id.symm⟩⟩
  · intro p
    have htotal := hs.ledger.total_eq p
    refine ⟨htotal,?_⟩
    rw [htotal]
    apply total_nonneg
    intro t ht
    obtain ⟨hmem,horig⟩ := mem_filter.mp (mem_filter.mp ht).1
    exact (hs.ledger.effective_inRange hmem horig).2.1
  · intro e he e' he' k hk hk'
    exact inj_on_of_nodup_filterMap hs.ledger.keys he he' hk hk'
  · intro i command e hcmd he hkey action hwriter
    apply System.tables_step hwriter
    -- an uncommitted row with the same key is out of the question
    cases hpend : (s.sessions i).pending stamp with
    | none => rfl
    | some row =>
      have hwaiting := hs.waiting i row hpend
      have hrow : correctionKey row = some (command.scope.tenantID,command.idempotencyKey) := by
        have hsess := hs.sessions i
        cases hphase : s.sessions i <;> rw [hphase] at hpend hcmd hsess <;> cases hpend
        cases hcmd
        obtain ⟨-,-,entry,htgt,-⟩ := hsess
        rw [← htgt.tenant,htgt.fact]
        rfl
      have hkeys := hs.keys
      rw [filterMap_append,nodup_append] at hkeys
      exact absurd rfl (hkeys.2.2 _ (mem_filterMap.mpr ⟨e,he,keyed_iff.mp hkey⟩) _
        (mem_filterMap.mpr ⟨row,mem_map_of_mem hwaiting,hrow⟩))
  · intro i command e a currency hcmd hstored hjoined action hwriter
    exact hs.replay hcmd hstored hjoined hwriter
  · intro i command createdAt target quantityDelta amountDelta hphase t ht hid htime
    have hsess := hs.sessions i
    rw [hphase] at hsess
    obtain ⟨hvalid,hfresh,entry,htgt,hderived⟩ := hsess
    have hsame : t = entry := hs.ledger.target_unique ht htgt.mem (hid.trans htgt.id.symm)
    have hstored : entry.observedAt ≤ stamp createdAt := by
      rw [← hs.times entry htgt.mem htgt.original]
      exact hstamp (hsame ▸ htime)
    have hinteg : s.tables.adjustmentIntegrity
        (adjustmentEntry stamp command target quantityDelta amountDelta createdAt) :=
      adjustmentEntry_integrity hs.ledger htgt hderived hstored
    obtain ⟨hlock,hrefs⟩ : s.tables.priceLock
          (adjustmentEntry stamp command target quantityDelta amountDelta createdAt) ∧
        s.tables.entryReferences
          (adjustmentEntry stamp command target quantityDelta amountDelta createdAt) :=
      adjustmentEntry_priced hs.ledger htgt hstored
    refine ⟨hinteg,?_⟩
    intro e hinsert
    unfold Tables.insertEntry at hinsert
    rw [if_pos ⟨hinteg,hlock,adjustmentEntry_check hs.ledger htgt hvalid
      hderived⟩] at hinsert
    split_ifs at hinsert with hunique
    cases hinsert
    rfl

/-! A sample: twelve tokens are corrected to ten, and the command comes again. -/

def sampleEntry : LedgerEntry where
  eventID := sampleEvent.eventID
  tenantID := sampleEvent.tenantID
  requestID := sampleEvent.requestID
  attemptID := some sampleEvent.attemptID
  tokenType := .input
  quantity := 12
  source := .provider
  observedAt := 5000
  createdAt := 6000
  createdBy := "metering-worker:usage-v1"
  priceVersionID := sampleVersion.id
  amountMicros := 3
  eventSchemaVersion := some 2
  estimate := none
  adjustment := none

def sampleCommand : Command where
  scope := ⟨sampleEvent.tenantID,"21000000-0000-4000-8000-000000000001"⟩
  eventID := "10000000-0000-4000-8000-000000000002"
  idempotencyKey := "correction-1"
  targetEventID := sampleEvent.eventID
  correctedQuantity := 10
  correctedAmountMicros := 2
  origin := .manual
  reason := "miscounted"
  reference := "ticket-7"
  actor := "billing"

def sampleActions : List (Action Bool Unit) :=
  [.record sampleEntry,.apply true sampleCommand 7000,.find true,.lock true,.recheck true,
    .derive true,.insert true,.commit true .answered,.apply false sampleCommand 8000,.find false,
    .commit false .answered]

def sampleSystem : System Bool Unit :=
  sampleActions.foldl (fun s action => s.step id action) (System.start (sampleTables Unit))

theorem sampleTables_keyed : (sampleTables Unit).Keyed := by
  decide +kernel

theorem sampleSystem_exact : sampleSystem.Exact id ∧
    effective sampleSystem.tables sampleEntry = (10,2) ∧
    sampleSystem.log.map (fun call => call.2.toOption.map fun r => (r.quantityDelta,r.replayed)) =
      [some (-2,false),some (-2,true)] := by
  refine ⟨leads_exact monotone_id sampleTables_keyed ?_,?_,?_⟩
  · exact List.foldlRecOn _ _ .refl fun s hs action _ => hs.tail ⟨action,rfl⟩
  · decide +kernel
  · decide +kernel

end MeteringAdjustment
