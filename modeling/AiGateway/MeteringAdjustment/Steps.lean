import AiGateway.MeteringAdjustment.Invariant

/-! Every statement keeps the ledger and the writers sound. -/
namespace MeteringAdjustment
open Text Machine Adapter Metering Ledger Relational List LedgerEntry Bool Option

variable {ι H : Type} {stamp : Time → Time} {db : Tables H} {command : Command}
  {entry target : LedgerEntry}

/-! Rows. -/

theorem adjustment_none (hcheck : entry.Check) (horig : entry.original) :
    entry.adjustment = none := by
  have hvalid := hcheck.adjustment
  cases hadjust : entry.adjustment with
  | none => rfl
  | some a =>
    rw [adjustmentMetadataValid,hadjust] at hvalid
    simp only [and_eq_true,decide_eq_true_eq] at hvalid
    rw [original,decide_eq_true_eq] at horig
    exact absurd hvalid.1.1.1.1.1.1.1.1.1.1 horig

theorem adjustment_some (hcheck : entry.Check) (hcorrection : entry.original = false) :
    ∃ a, entry.adjustment = some a := by
  have hvalid := hcheck.adjustment
  cases hadjust : entry.adjustment with
  | none =>
    rw [adjustmentMetadataValid,hadjust] at hvalid
    exact absurd (hvalid.symm.trans hcorrection) (by decide)
  | some a => exact ⟨a,rfl⟩

theorem adjusts_iff {eventID : String} :
    entry.adjusts eventID ↔ ∃ a, entry.adjustment = some a ∧ a.adjustsEventID = eventID := by
  unfold adjusts
  cases entry.adjustment <;> simp

theorem keyed_iff : command.keyed entry ↔
      correctionKey entry = some (command.scope.tenantID,command.idempotencyKey) := by
  unfold Command.keyed correctionKey
  cases entry.adjustment <;> simp

variable {a : Adjustment}

theorem result_inRange (hcheck : entry.Check) (ha : entry.adjustment = some a) :
    inRange (result entry) := by
  have hvalid := hcheck.adjustment
  rw [adjustmentMetadataValid,ha] at hvalid
  simp only [and_eq_true,decide_eq_true_eq] at hvalid
  rw [result,ha]
  exact ⟨⟨hvalid.1.1.1.1.2,hvalid.1.1.1.2⟩,hvalid.1.1.2,hvalid.1.2⟩

theorem delta_inRange (hcheck : entry.Check) (horig : entry.original) : inRange (delta entry) := by
  have hqty := hcheck.quantity
  have hamt := hcheck.amount
  rw [original,decide_eq_true_eq] at horig
  rw [quantityValid,if_neg horig] at hqty
  rw [amountValid,if_neg horig] at hamt
  simp only [and_eq_true,decide_eq_true_eq] at hqty hamt
  exact ⟨⟨by simp only [delta]; omega,hqty.2⟩,hamt⟩

namespace LedgerSound
variable (h : LedgerSound db)
include h

theorem target_unique (hentry : entry ∈ db.entries) (htgt : target ∈ db.entries)
    (hid : entry.eventID = target.eventID) : entry = target :=
  inj_on_of_nodup_map h.ids hentry htgt hid

theorem corrects (hentry : entry ∈ db.entries) (htgt : target ∈ db.entries)
    (hadj : entry.adjusts target.eventID) :
    ∃ a, entry.adjustment = some a ∧ Corrects entry a target := by
  obtain ⟨a,ha,hid⟩ := adjusts_iff.mp hadj
  obtain ⟨found,hfound,hcorr⟩ := h.targets entry hentry a ha
  rw [h.target_unique hfound htgt (hcorr.id.trans hid)] at hcorr
  exact ⟨a,ha,hcorr⟩

theorem effective_eq (htgt : target ∈ db.entries) (horig : target.original) :
    delta target + db.corrections target.eventID = effective db target := by
  rw [corrections_eq]
  exact (h.chains target htgt horig).sum

theorem effective_inRange (htgt : target ∈ db.entries) (horig : target.original) :
    inRange (effective db target) := by
  apply final_induction
  · exact delta_inRange (h.checks target htgt) horig
  · intro entry hentry
    obtain ⟨hmem,hadj⟩ := mem_filter.mp hentry
    obtain ⟨a,ha,-⟩ := adjusts_iff.mp hadj
    exact result_inRange (h.checks entry hmem) ha

/-- A new row: an original, or a correction by the difference from what counts now. -/
theorem append (hcheck : entry.Check) (hfresh : ∀ e ∈ db.entries, e.eventID ≠ entry.eventID)
    (hkeys : ((db.entries ++ [entry]).filterMap correctionKey).Nodup)
    (horig : entry.original → OriginalSound db entry)
    (hcorr : ∀ a ∈ entry.adjustment, ∃ target ∈ db.entries, Corrects entry a target ∧
      delta entry = result entry - effective db target) :
    LedgerSound { db with entries := db.entries ++ [entry] } := by
  have hlater : db.Later { db with entries := db.entries ++ [entry] } :=
    { Tables.Later.refl db with entries := prefix_append _ _ }
  have hnobody : ∀ e ∈ db.entries, e.adjusts entry.eventID = false := by
    intro e he
    by_contra hadj
    obtain ⟨a,ha,hid⟩ := adjusts_iff.mp (by simpa using hadj)
    obtain ⟨target,htgt,hcorr'⟩ := h.targets e he a ha
    exact hfresh target htgt (hcorr'.id.trans hid)
  have hmono : ∀ e, OriginalSound db e →
      OriginalSound { db with entries := db.entries ++ [entry] } e := fun e he =>
    ⟨he.check,he.attempt,he.priced.later hlater,he.referenced.later he.priced hlater⟩
  refine ⟨⟨h.keyed.attempts,h.keyed.prices⟩,?_,hkeys,?_,?_,?_,?_⟩
  · rw [map_append,nodup_append]
    refine ⟨h.ids,nodup_singleton _,?_⟩
    intro id hid id' hid'
    obtain ⟨e,he,rfl⟩ := mem_map.mp hid
    rw [map_singleton,mem_singleton] at hid'
    rw [hid']
    exact hfresh e he
  · exact forall_mem_append.mpr ⟨fun e he ho => hmono e (h.originals e he ho),
      forall_mem_singleton.mpr fun ho => hmono entry (horig ho)⟩
  · exact forall_mem_append.mpr ⟨h.checks,forall_mem_singleton.mpr hcheck⟩
  · rw [forall_mem_append]
    constructor
    · intro e he a ha
      obtain ⟨target,htgt,hcorr'⟩ := h.targets e he a ha
      exact ⟨target,mem_append_left _ htgt,hcorr'⟩
    · refine forall_mem_singleton.mpr fun a ha => ?_
      obtain ⟨target,htgt,hcorr',-⟩ := hcorr a ha
      exact ⟨target,mem_append_left _ htgt,hcorr'⟩
  · rw [forall_mem_append]
    constructor
    · intro target htgt ho
      show Telescopes delta result (delta target)
        ((db.entries ++ [entry]).filter (·.adjusts target.eventID))
      rw [filter_append,telescopes_append]
      refine ⟨h.chains target htgt ho,?_⟩
      by_cases hadj : entry.adjusts target.eventID
      · obtain ⟨a,ha,hid⟩ := adjusts_iff.mp hadj
        obtain ⟨found,hfound,hcorr',hdelta⟩ := hcorr a ha
        have hsame := h.target_unique hfound htgt (hcorr'.id.trans hid)
        rw [filter_singleton,hadj]
        exact ⟨hsame ▸ hdelta,trivial⟩
      · rw [not_eq_true] at hadj
        rw [filter_singleton,hadj]
        trivial
    · refine forall_mem_singleton.mpr fun ho => ?_
      have hempty : chain { db with entries := db.entries ++ [entry] } entry.eventID = [] := by
        refine filter_eq_nil_iff.mpr (forall_mem_append.mpr ⟨?_,?_⟩)
        · exact fun e he => by simp [hnobody e he]
        · refine forall_mem_singleton.mpr ?_
          simp [adjusts,adjustment_none hcheck ho]
      rw [hempty]
      trivial

theorem change {db' : Tables H} (hlater : db.Later db') (hkeyed : db'.Keyed)
    (hentries : db'.entries = db.entries) : LedgerSound db' := by
  have hchain : ∀ eventID, chain db' eventID = chain db eventID := fun eventID => by
    rw [chain,chain,hentries]
  refine ⟨hkeyed,hentries ▸ h.ids,hentries ▸ h.keys,?_,hentries ▸ h.checks,hentries ▸ h.targets,?_⟩
  · intro entry hentry ho
    have hold := h.originals entry (hentries ▸ hentry) ho
    exact ⟨hold.check,hold.attempt,hold.priced.later hlater,
      hold.referenced.later hold.priced hlater⟩
  · intro target htgt ho
    rw [hchain]
    exact h.chains target (hentries ▸ htgt) ho

end LedgerSound

/-! What the statements of a writer read. -/

theorem joined_congr {projectID : String} (h : Corrects entry a target) :
    joined db projectID entry = joined db projectID target := by
  rw [joined,joined,h.tenantID,h.requestID,h.priceVersionID]

theorem loadExisting_some {result : Result} (h : loadExisting db command = .ok (some result)) :
    ∃ entry a currency, Stored db command entry a ∧ result = storedResult entry a currency := by
  unfold loadExisting at h
  split at h
  · cases h
  · rename_i entry hfind
    have hkeyed := find?_some hfind
    rw [and_eq_true] at hkeyed
    split at h
    · rename_i a currency ha hjoined
      split_ifs at h with hmatches
      cases h
      exact ⟨entry,a,currency,⟨mem_of_find?_eq_some hfind,ha,hkeyed.1,hmatches⟩,rfl⟩
    · cases h

theorem loadExisting_none (h : loadExisting db command = .ok none) :
    ∀ entry ∈ db.entries, command.keyed entry → joined db command.scope.projectID entry = none := by
  unfold loadExisting at h
  split at h
  · rename_i hfind
    intro entry hentry hkeyed
    have hnot := find?_eq_none.mp hfind entry hentry
    simpa [hkeyed] using hnot
  · rename_i found hfind
    have hkeyed := find?_some hfind
    rw [and_eq_true] at hkeyed
    obtain ⟨a,ha⟩ : ∃ a, found.adjustment = some a := by
      have hkey := keyed_iff.mp hkeyed.1
      unfold correctionKey at hkey
      cases hadjust : found.adjustment with
      | none => simp [hadjust] at hkey
      | some a => exact ⟨a,rfl⟩
    obtain ⟨currency,hcurr⟩ := isSome_iff_exists.mp hkeyed.2
    rw [ha,hcurr] at h
    dsimp only at h
    split_ifs at h
    cases h

/-- A correction that is there is found, and refused where it has another content. -/
theorem loadExisting_stored (hdb : LedgerSound db) {currency : String} (hentry : entry ∈ db.entries)
    (ha : entry.adjustment = some a) (hkeyed : command.keyed entry)
    (hjoined : joined db command.scope.projectID entry = some currency) : loadExisting db command =
      if command.matches entry a then .ok (some (storedResult entry a currency))
      else .error .conflict := by
  have hfound : db.entries.find? (fun e =>
      command.keyed e && (joined db command.scope.projectID e).isSome) = some entry := by
    cases hfind : db.entries.find? fun e =>
        command.keyed e && (joined db command.scope.projectID e).isSome with
    | none =>
      have hnot := find?_eq_none.mp hfind entry hentry
      simp [hkeyed,hjoined] at hnot
    | some found =>
      have hfoundKeyed := find?_some hfind
      rw [and_eq_true] at hfoundKeyed
      rw [inj_on_of_nodup_filterMap hdb.keys (mem_of_find?_eq_some hfind) hentry
        (keyed_iff.mp hfoundKeyed.1) (keyed_iff.mp hkeyed)]
  unfold loadExisting
  rw [hfound]
  simp only [ha,hjoined]

theorem targetRow_eq_some {currency : String} :
    targetRow db command = some (entry,currency) ↔ db.entry? command.targetEventID = some entry ∧
      entry.tenantID = command.scope.tenantID ∧
      joined db command.scope.projectID entry = some currency := by
  unfold targetRow
  cases db.entry? command.targetEventID with
  | none => simp
  | some found =>
    by_cases htenant : found.tenantID = command.scope.tenantID
    · cases hjoined : joined db command.scope.projectID found with
      | none =>
        simp only [bind_eq_bind,bind_some,htenant,if_true,hjoined]
        refine iff_of_false (by simp) fun h => ?_
        obtain ⟨hfound,-,hsome⟩ := h
        cases hfound
        simp [hjoined] at hsome
      | some found' =>
        simp only [bind_eq_bind,bind_some,htenant,if_true,hjoined]
        constructor
        · intro h
          cases h
          exact ⟨rfl,htenant,hjoined⟩
        · intro h
          obtain ⟨hfound,-,hsome⟩ := h
          cases hfound
          rw [hjoined] at hsome
          cases hsome
          rfl
    · simp only [bind_eq_bind,bind_some,htenant,if_false]
      refine iff_of_false (by simp) fun h => ?_
      obtain ⟨hfound,hsame,-⟩ := h
      cases hfound
      exact htenant hsame

theorem loadCurrentResult_ok {target : TargetFact} (htgt : Targeted db command target entry)
    {values : ℤ × ℤ} (h : loadCurrentResult db command.targetEventID target = .ok values) :
    values = delta entry + db.corrections command.targetEventID ∧ inRange values := by
  have hqty : target.quantity = entry.quantity := by rw [htgt.fact]; rfl
  have hamt : target.amountMicros = entry.amountMicros := by rw [htgt.fact]; rfl
  unfold loadCurrentResult at h
  dsimp only at h
  split_ifs at h with hexact
  cases h
  simp only [exactNonnegative,and_eq_true,decide_eq_true_eq] at hexact
  rw [hqty,hamt] at hexact ⊢
  exact ⟨rfl,hexact⟩

/-! The row that a writer inserts. -/

section Correction
variable {target : TargetFact}
  {quantityDelta amountDelta : ℤ} {createdAt : Time}

theorem actorFormat_of_audit {value : String} (h : auditPattern value) : actorFormat value := by
  obtain ⟨c,cs,hs,hc,hcs,-,hmost⟩ := isWord_iff.mp h
  have hplain : ∀ d ∈ c :: cs, d ≠ ' ' := by
    intro d hd hspace
    rw [hspace] at hd
    rcases mem_cons.mp hd with hhead | htail
    · rw [← hhead] at hc
      revert hc
      decide
    · have hrest := hcs ' ' htail
      revert hrest
      decide
  simp only [actorFormat,hs,and_eq_true,decide_eq_true_eq]
  refine ⟨⟨⟨?_,?_⟩,by simp⟩,Nat.succ_le_succ hmost⟩
  · intro hhead
    exact hplain ' ' (mem_of_head? hhead) rfl
  · intro hlast
    exact hplain ' ' (mem_of_getLast? hlast) rfl

theorem Command.corrected_inRange (h : command.validate) :
    inRange (command.correctedQuantity,command.correctedAmountMicros) := by
  simp only [Command.validate,and_eq_true,decide_eq_true_eq] at h
  exact ⟨⟨h.1.1.1.2,h.1.1.2⟩,h.1.2,h.2⟩

variable (hdb : LedgerSound db) (htgt : Targeted db command target entry)
include hdb htgt

theorem adjustmentEntry_corrects :
    Corrects (adjustmentEntry stamp command target quantityDelta amountDelta createdAt)
      command.adjustment entry := by
  have hatt : nullableString (entry.attemptID.getD "") = entry.attemptID := by
    have hne := (hdb.originals entry htgt.mem htgt.original).attempt
    cases hentry : entry.attemptID with
    | none => rfl
    | some attemptID =>
      rw [hentry] at hne
      have hfilled : attemptID ≠ "" := fun h => hne (by rw [h])
      simp [nullableString,hfilled]
  rw [htgt.fact]
  exact ⟨htgt.original,htgt.id,rfl,rfl,hatt,rfl,rfl⟩

/-- Its difference leads from what counts now to what the command asks for. -/
theorem Derived.exact_effective (hderived : Derived db command entry quantityDelta amountDelta) :
    (quantityDelta,amountDelta) =
      (command.correctedQuantity,command.correctedAmountMicros) - effective db entry := by
  rw [hderived.exact,← htgt.id,hdb.effective_eq htgt.mem htgt.original]

theorem adjustmentEntry_check (hvalid : command.validate)
    (hderived : Derived db command entry quantityDelta amountDelta) :
    (adjustmentEntry stamp command target quantityDelta amountDelta createdAt).Check := by
  have htype : target.tokenType = entry.tokenType := by rw [htgt.fact]; rfl
  obtain ⟨⟨hq,hq'⟩,ha,ha'⟩ := Command.corrected_inRange hvalid
  obtain ⟨⟨hcq,hcq'⟩,hca,hca'⟩ := hdb.effective_inRange htgt.mem htgt.original
  have hexact := hderived.exact_effective hdb htgt
  rw [Prod.ext_iff] at hexact
  simp only [Prod.fst_sub,Prod.snd_sub] at hexact hq hq' ha ha'
  have hchanges := hderived.changes
  simp only [Command.validate,and_eq_true,decide_eq_true_eq] at hvalid
  obtain ⟨⟨⟨⟨⟨⟨⟨⟨⟨⟨⟨⟨-,-⟩,-⟩,-⟩,hkey⟩,horigin⟩,hreason⟩,href⟩,hactor⟩,-⟩,-⟩,-⟩,-⟩ := hvalid
  refine ⟨?_,rfl,?_,?_,actorFormat_of_audit hactor,?_,rfl⟩
  · show target.tokenType.valid
    rw [htype]
    exact (hdb.checks entry htgt.mem).tokenType
  · show (-maximumExactInteger ≤ quantityDelta &&
      quantityDelta ≤ maximumExactInteger)
    rw [and_eq_true,decide_eq_true_eq,decide_eq_true_eq]
    omega
  · show (-maximumExactInteger ≤ amountDelta &&
      amountDelta ≤ maximumExactInteger)
    rw [and_eq_true,decide_eq_true_eq,decide_eq_true_eq]
    omega
  · simp [adjustmentMetadataValid,adjustmentEntry,Command.adjustment,hkey,horigin,
      hreason,href,hactor,hq,hq',ha,ha']
    exact hchanges.imp decide_eq_true decide_eq_true

/-- The trigger accepts it, where the writer's clock is not before the target. -/
theorem adjustmentEntry_integrity (hderived : Derived db command entry quantityDelta amountDelta)
    (htime : entry.observedAt ≤ stamp createdAt) : db.adjustmentIntegrity
      (adjustmentEntry stamp command target quantityDelta amountDelta createdAt) := by
  have hcorr : Corrects
      (adjustmentEntry stamp command target quantityDelta amountDelta createdAt)
      command.adjustment entry := adjustmentEntry_corrects hdb htgt
  have hfound : db.entry? command.targetEventID = some entry :=
    (find?_eq_some hdb.ids).mpr ⟨htgt.mem,htgt.id⟩
  have hexact := Prod.ext_iff.mp hderived.exact
  simp only [Prod.fst_sub,Prod.snd_sub,Prod.fst_add,Prod.snd_add,delta] at hexact
  have horig := htgt.original
  rw [original,decide_eq_true_eq] at horig
  unfold Tables.adjustmentIntegrity
  rw [if_neg (by simp [adjustmentEntry])]
  simp only [adjustmentEntry,Command.adjustment,hfound,and_eq_true]
  refine ⟨⟨⟨⟨⟨⟨⟨⟨⟨decide_eq_true horig,decide_eq_true hcorr.tenantID⟩,
    decide_eq_true hcorr.requestID⟩,decide_eq_true hcorr.attemptID⟩,
    decide_eq_true hcorr.tokenType⟩,decide_eq_true hcorr.priceVersionID⟩,
    decide_eq_true htime⟩,decide_eq_true trivial⟩,decide_eq_true ?_⟩,decide_eq_true ?_⟩
  · omega
  · omega

theorem observedAt_le_of_integrity (hinteg : db.adjustmentIntegrity
    (adjustmentEntry stamp command target quantityDelta amountDelta createdAt)) :
    entry.observedAt ≤ stamp createdAt := by
  have hfound : db.entry? command.targetEventID = some entry :=
    (find?_eq_some hdb.ids).mpr ⟨htgt.mem,htgt.id⟩
  unfold Tables.adjustmentIntegrity at hinteg
  rw [if_neg (by simp [adjustmentEntry])] at hinteg
  simp only [adjustmentEntry,Command.adjustment,hfound,and_eq_true] at hinteg
  exact of_decide_eq_true hinteg.1.1.1.2

theorem adjustmentEntry_priced (htime : entry.observedAt ≤ stamp createdAt) :
    db.priceLock (adjustmentEntry stamp command target quantityDelta amountDelta createdAt) ∧
      db.entryReferences
        (adjustmentEntry stamp command target quantityDelta amountDelta createdAt) := by
  have hcorr : Corrects
      (adjustmentEntry stamp command target quantityDelta amountDelta createdAt)
      command.adjustment entry := adjustmentEntry_corrects hdb htgt
  have hsound := hdb.originals entry htgt.mem htgt.original
  obtain ⟨v,hv,hid,hstat,heff,hatt⟩ := hsound.priced
  constructor
  · apply Tables.Priced.priceLock _ hdb.keyed
    refine ⟨v,hv,hid.trans hcorr.priceVersionID.symm,hstat,heff.trans htime,?_⟩
    intro attemptID hattemptID
    rw [hcorr.requestID]
    exact hatt attemptID (hcorr.attemptID ▸ hattemptID)
  · refine ⟨?_,?_,?_,?_⟩
    · rw [hcorr.tenantID,hcorr.requestID]
      exact hsound.referenced.request
    · intro attemptID hattemptID
      obtain ⟨a,ha,hreq,haid,-⟩ := hatt attemptID (hcorr.attemptID ▸ hattemptID)
      exact ⟨a,ha,hreq.trans hcorr.requestID.symm,haid⟩
    · rw [hcorr.priceVersionID,hcorr.tokenType]
      exact hsound.referenced.rate
    · intro a ha
      cases ha
      exact ⟨entry,htgt.mem,htgt.id⟩

end Correction
end MeteringAdjustment
