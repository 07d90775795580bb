import AiGateway.MeteringAdjustment.Steps

/-! Every step of a writer or of another program keeps the ledger and the writers sound, and so does
every run. -/
namespace MeteringAdjustment
open Machine Adapter Ledger List Prod

variable {ι H : Type} {stamp : Time → Time} {s : System ι H} {i : ι}
  {outcome : Except AdjustmentError Result} {target : TargetFact}

/-! The parts of a step. -/

theorem Sound.grant (hs : Sound stamp s) {eventID : String} (hfree : eventID ∉ s.locks.map fst) :
    Sound stamp { s with locks := (eventID,i) :: s.locks } :=
  { hs with
    locked := fun j id h => mem_cons_of_mem _ (hs.locked j id h)
    lockIDs := nodup_cons.mpr ⟨hfree,hs.lockIDs⟩ }

variable {entry : LedgerEntry}

theorem Sound.hold (hs : Sound stamp s) (hunique : s.tables.entryUnique entry)
    (hfree : s.pending.any (fun row => clashes entry row.1) = false) :
    Sound stamp { s with pending := (entry,i) :: s.pending } := by
  have hpend : ∀ e ∈ s.pending.map fst, clashes entry e = false := by
    intro e he
    obtain ⟨row,hrow,rfl⟩ := mem_map.mp he
    rw [any_eq_false] at hfree
    simpa using hfree row hrow
  have hid : entry.eventID ∉ (s.tables.entries ++ s.pending.map fst).map (·.eventID) := by
    rw [mem_map]
    rintro ⟨e,he,hsame⟩
    rcases mem_append.mp he with he | he
    · exact hunique.1 e he hsame
    · simpa [clashes,hsame] using hpend e he
  have hkey : ∀ k, correctionKey entry = some k →
      k ∉ (s.tables.entries ++ s.pending.map fst).filterMap correctionKey := by
    intro k hk
    rw [mem_filterMap]
    rintro ⟨e,he,hsame⟩
    rcases mem_append.mp he with he | he
    · unfold correctionKey at hk hsame
      rw [Option.map_eq_some_iff] at hk hsame
      obtain ⟨a,ha,rfl⟩ := hk
      obtain ⟨b,hb,heq⟩ := hsame
      rw [mk.injEq] at heq
      exact hunique.2 a ha e he b hb heq.1 heq.2
    · simpa [clashes,hk,hsame] using hpend e he
  have hperm : (s.tables.entries ++ entry :: s.pending.map fst).Perm
      (entry :: (s.tables.entries ++ s.pending.map fst)) := perm_middle
  refine { hs with waiting := ?_, ids := ?_, keys := ?_ }
  · exact fun j e h => mem_cons_of_mem _ (hs.waiting j e h)
  · rw [map_cons,(hperm.map _).nodup_iff,map_cons,nodup_cons]
    exact ⟨hid,hs.ids⟩
  · rw [map_cons,(hperm.filterMap _).nodup_iff]
    cases hentry : correctionKey entry with
    | none =>
      rw [filterMap_cons_none hentry]
      exact hs.keys
    | some k =>
      rw [filterMap_cons_some hentry,nodup_cons]
      exact ⟨hkey k hentry,hs.keys⟩

variable {command : Command}

theorem Sound.append (hs : Sound stamp s)
    (hledger : LedgerSound { s.tables with entries := s.tables.entries ++ [entry] })
    (htime : entry.original → stamp entry.observedAt = entry.observedAt)
    (hids : ((s.tables.entries ++ [entry] ++ s.pending.map fst).map (·.eventID)).Nodup)
    (hkeys : ((s.tables.entries ++ [entry] ++ s.pending.map fst).filterMap correctionKey).Nodup)
    (hlocks : ∀ j eventID, (s.sessions j).lock = some eventID → entry.adjusts eventID = false) :
    Sound stamp (s.append entry) := by
  have hlater : s.tables.Later { s.tables with entries := s.tables.entries ++ [entry] } :=
    { Tables.Later.refl s.tables with entries := prefix_append _ _ }
  refine ⟨hledger,?_,hs.locked,hs.lockIDs,hs.waiting,hids,hkeys,?_,?_⟩
  · exact forall_mem_append.mpr ⟨hs.times,forall_mem_singleton.mpr htime⟩
  · intro j
    apply (hs.sessions j).later hs.ledger hledger.keyed hlater
    intro eventID hlock
    show (s.tables.entries ++ [entry]).filter _ = _
    rw [filter_append,filter_singleton,hlocks j eventID hlock]
    exact append_nil _
  · exact fun call hcall => (hs.log call hcall).later hlater

theorem Sound.record (hs : Sound stamp s) (entry : LedgerEntry) :
    Sound stamp (s.record stamp entry) := by
  unfold System.record
  split_ifs with hguard
  · obtain ⟨horig,hatt,htime,hfree⟩ := hguard
    split
    · rename_i tables hins
      obtain ⟨⟨-,hlock,hcheck⟩,hunique,hrefs,-⟩ := s.tables.insertEntry_eq_ok.mp hins
      have hnone := adjustment_none hcheck horig
      have hkey : correctionKey entry = none := by rw [correctionKey,hnone]; rfl
      have hkeys : ∀ rows : List LedgerEntry, (s.tables.entries ++ [entry] ++ rows).filterMap
          correctionKey = (s.tables.entries ++ rows).filterMap correctionKey := fun rows => by
        simp [filterMap_append,hkey]
      have hpriced := Tables.priced_of_insert hs.ledger.keyed hlock hrefs
      apply hs.append
      · apply hs.ledger.append hcheck hunique.1
        · have hplain := hkeys []
          rw [append_nil,append_nil] at hplain
          exact hplain ▸ hs.ledger.keys
        · exact fun _ => ⟨hcheck,hatt,hpriced,hrefs.1,hrefs.2.2.1⟩
        · intro a ha
          rw [hnone] at ha
          cases ha
      · exact fun _ => htime
      · have hperm : (s.tables.entries ++ [entry] ++ s.pending.map fst).Perm
            (entry :: (s.tables.entries ++ s.pending.map fst)) := by
          rw [append_assoc]
          exact perm_middle
        rw [(hperm.map _).nodup_iff,map_cons,nodup_cons]
        refine ⟨?_,hs.ids⟩
        rw [mem_map]
        rintro ⟨e,he,hsame⟩
        rcases mem_append.mp he with he | he
        · exact hunique.1 e he hsame
        · obtain ⟨row,hrow,rfl⟩ := mem_map.mp he
          have hclash := all_eq_true.mp hfree row hrow
          simp [clashes,hsame] at hclash
      · rw [hkeys]
        exact hs.keys
      · intro j eventID hlock
        rw [LedgerEntry.adjusts,hnone]
        rfl
    · exact hs
  · exact hs

theorem Sound.change (hs : Sound stamp s) (tables : Tables H) : Sound stamp (s.change tables) := by
  unfold System.change
  split_ifs with hguard
  · obtain ⟨hlater,hkeyed⟩ := hguard
    have hkeyed' : Tables.Keyed { tables with entries := s.tables.entries } :=
      ⟨hkeyed.attempts,hkeyed.prices⟩
    refine { hs with ledger := hs.ledger.change hlater hkeyed' rfl, sessions := ?_, log := ?_ }
    · exact fun j => (hs.sessions j).later hs.ledger hkeyed' hlater fun _ _ => rfl
    · exact fun call h => (hs.log call h).later hlater
  · exact hs

theorem sound_start {tables : Tables H} (hkeyed : tables.Keyed) :
    Sound stamp (System.start tables : System ι H) := by
  refine ⟨⟨⟨hkeyed.attempts,hkeyed.prices⟩,nodup_nil,nodup_nil,?_,?_,?_,?_⟩,?_,?_,
    nodup_nil,?_,nodup_nil,nodup_nil,fun i => trivial,?_⟩
  · exact fun entry h => nomatch h
  · exact fun entry h => nomatch h
  · exact fun entry h => nomatch h
  · exact fun entry h => nomatch h
  · exact fun entry h => nomatch h
  · exact fun i eventID h => nomatch h
  · exact fun i entry h => nomatch h
  · exact fun call h => nomatch h

variable [DecidableEq ι]

theorem Sound.enter (hs : Sound stamp s) {phase : Phase} (hphase : PhaseSound stamp s.tables phase)
    (hlock : ∀ eventID, phase.lock = some eventID → (eventID,i) ∈ s.locks)
    (hpend : ∀ entry, phase.pending stamp = some entry → (entry,i) ∈ s.pending) :
    Sound stamp (s.enter i phase) := by
  refine { hs with locked := ?_, waiting := ?_, sessions := ?_ }
  · intro j eventID h
    by_cases hj : j = i
    · rw [hj] at h ⊢
      exact hlock eventID (by simpa [System.enter] using h)
    · exact hs.locked j eventID (by simpa [System.enter,hj] using h)
  · intro j entry h
    by_cases hj : j = i
    · rw [hj] at h ⊢
      exact hpend entry (by simpa [System.enter] using h)
    · exact hs.waiting j entry (by simpa [System.enter,hj] using h)
  · intro j
    by_cases hj : j = i
    · rw [hj]
      simpa [System.enter] using hphase
    · simpa [System.enter,hj] using hs.sessions j

theorem Sound.finish (hs : Sound stamp s) (hcall : CallSound stamp s.tables (command,outcome)) :
    Sound stamp (s.finish i command outcome) := by
  have hsub : (s.tables.entries ++ (s.pending.filter fun row => row.2 ≠ i).map fst).Sublist
      (s.tables.entries ++ s.pending.map fst) :=
    (Sublist.refl _).append (filter_sublist.map _)
  refine ⟨hs.ledger,hs.times,?_,?_,?_,?_,?_,?_,?_⟩
  · intro j eventID h
    by_cases hj : j = i
    · simp [System.finish,System.enter,hj,Phase.lock] at h
    · have hheld := hs.locked j eventID (by simpa [System.finish,System.enter,hj] using h)
      exact mem_filter.mpr ⟨hheld,by simpa using hj⟩
  · exact hs.lockIDs.sublist (filter_sublist.map _)
  · intro j entry h
    by_cases hj : j = i
    · simp [System.finish,System.enter,hj,Phase.pending] at h
    · have hheld := hs.waiting j entry (by simpa [System.finish,System.enter,hj] using h)
      exact mem_filter.mpr ⟨hheld,by simpa using hj⟩
  · exact hs.ids.sublist (hsub.map _)
  · exact hs.keys.sublist (hsub.filterMap _)
  · intro j
    by_cases hj : j = i
    · simp [System.finish,System.enter,hj,PhaseSound]
    · simpa [System.finish,System.enter,hj] using hs.sessions j
  · exact forall_mem_append.mpr ⟨hs.log,forall_mem_singleton.mpr hcall⟩

theorem Sound.finish_error (hs : Sound stamp s) (command : Command) (e : AdjustmentError) :
    Sound stamp (s.finish i command (.error e)) :=
  hs.finish fun _ h => nomatch h

/-! The steps. -/

section
variable (hs : Sound stamp s)
include hs

theorem Sound.apply (command : Command) (now : Time) : Sound stamp (s.apply i command now) := by
  unfold System.apply
  split
  · split_ifs with hinv hzero
    · exact hs.finish_error command _
    · exact hs.finish_error command _
    · apply hs.enter
      · simpa [PhaseSound] using hinv
      · exact fun _ h => nomatch h
      · exact fun _ h => nomatch h
  · exact hs

theorem Sound.existing {next : Phase}
    (hnext : loadExisting s.tables command = .ok none → PhaseSound stamp s.tables next)
    (hlock : ∀ eventID, next.lock = some eventID → (eventID,i) ∈ s.locks)
    (hpend : next.pending stamp = none) : Sound stamp (s.existing i command next) := by
  unfold System.existing
  split
  · exact hs.finish_error command _
  · rename_i result hload
    apply hs.enter
    · exact loadExisting_some hload
    · exact fun _ h => nomatch h
    · exact fun _ h => nomatch h
  · rename_i hload
    apply hs.enter (hnext hload) hlock
    intro entry h
    rw [hpend] at h
    cases h

theorem Sound.find : Sound stamp (s.find i) := by
  unfold System.find
  split
  · rename_i command createdAt hphase
    have hsess := hs.sessions i
    rw [hphase] at hsess
    exact hs.existing (fun _ => hsess) (fun _ h => nomatch h) rfl
  · exact hs

theorem Sound.lock : Sound stamp (s.lock i) := by
  unfold System.lock
  split
  · rename_i command createdAt hphase
    have hsess := hs.sessions i
    rw [hphase] at hsess
    split
    · exact hs.finish_error command _
    · rename_i entry currency hrow
      split_ifs with hheld hinv
      · exact hs
      · exact hs.finish_error command _
      · obtain ⟨hfound,htenant,hjoined⟩ := targetRow_eq_some.mp hrow
        obtain ⟨hmem,hid⟩ := (Relational.find?_eq_some hs.ledger.ids).mp hfound
        have horig : entry.original := by
          rw [Bool.not_eq_false,TargetFact.valid] at hinv
          simp only [Bool.and_eq_true] at hinv
          exact hinv.1.1.1.1.1
        apply Sound.enter (s := { s with locks := (command.targetEventID,i) :: s.locks })
          (hs.grant hheld)
        · exact ⟨hsess,entry,hmem,horig,hid,htenant,hjoined,rfl⟩
        · intro eventID h
          cases h
          exact mem_cons_self
        · exact fun _ h => nomatch h
  · exact hs

theorem Sound.recheck : Sound stamp (s.recheck i) := by
  unfold System.recheck
  split
  · rename_i command createdAt target hphase
    have hsess := hs.sessions i
    rw [hphase] at hsess
    obtain ⟨hvalid,entry,htgt⟩ := hsess
    apply hs.existing
    · intro hload
      refine ⟨hvalid,?_,entry,htgt⟩
      intro e he hkeyed
      by_contra hadj
      rw [Bool.not_eq_false,← htgt.id] at hadj
      -- a correction of the target is in the scope of the command, as the target is
      obtain ⟨a,-,hcorr⟩ := hs.ledger.corrects he htgt.mem hadj
      have hnone := loadExisting_none hload e he hkeyed
      rw [joined_congr hcorr,htgt.joined] at hnone
      cases hnone
    · intro eventID h
      exact hs.locked i eventID (by rw [hphase]; exact h)
    · rfl
  · exact hs

theorem Sound.derive : Sound stamp (s.derive i) := by
  unfold System.derive
  split
  · rename_i command createdAt target hphase
    have hsess := hs.sessions i
    rw [hphase] at hsess
    obtain ⟨hvalid,hfresh,entry,htgt⟩ := hsess
    split
    · exact hs.finish_error command _
    · rename_i quantity amount hload
      obtain ⟨hvalues,hrange⟩ := loadCurrentResult_ok htgt hload
      split_ifs with hsame
      · exact hs.finish_error command _
      · apply hs.enter
        · refine ⟨hvalid,hfresh,entry,htgt,?_,?_,hvalues ▸ hrange⟩
          · rw [← hvalues]
            rfl
          · rw [not_and_or] at hsame
            exact hsame.imp (fun h h' => h (by omega)) (fun h h' => h (by omega))
        · intro eventID h
          exact hs.locked i eventID (by rw [hphase]; exact h)
        · exact fun _ h => nomatch h
  · exact hs

theorem Sound.insert : Sound stamp (s.insert stamp i) := by
  unfold System.insert
  split
  · rename_i command createdAt target quantityDelta amountDelta hphase
    have hsess := hs.sessions i
    rw [hphase] at hsess
    obtain ⟨hvalid,hfresh,entry,htgt,hderived⟩ := hsess
    dsimp only
    split
    · exact hs.finish_error command _
    · rename_i tables hins
      split_ifs with hclash
      · exact hs
      · obtain ⟨⟨hinteg,-,-⟩,hunique,-,-⟩ := s.tables.insertEntry_eq_ok.mp hins
        have htime := observedAt_le_of_integrity hs.ledger htgt hinteg
        apply Sound.enter (s := { s with pending := (_,i) :: s.pending })
          (hs.hold hunique (by simpa using hclash))
        · exact ⟨hvalid,hfresh,entry,htgt,hderived,htime⟩
        · intro eventID h
          exact hs.locked i eventID (by rw [hphase]; exact h)
        · intro e h
          cases h
          exact mem_cons_self
  · exact hs

end

theorem perm_commit (entries : List LedgerEntry) {pending : List (LedgerEntry × ι)}
    (h : (entry,i) ∈ pending) : ∃ rows,
    (entries ++ [entry] ++ (pending.filter fun row => row.2 ≠ i).map fst).Perm rows ∧
      rows.Sublist (entries ++ pending.map fst) := by
  obtain ⟨before,after,rfl⟩ := append_of_mem h
  refine ⟨entries ++ ((before.filter fun row => row.2 ≠ i).map fst ++
    entry :: (after.filter fun row => row.2 ≠ i).map fst),?_,?_⟩
  · rw [filter_append,filter_cons_of_neg (by simp),map_append,append_assoc,singleton_append]
    exact Perm.append_left _ perm_middle.symm
  · rw [map_append,map_cons]
    exact (Sublist.refl _).append
      ((filter_sublist.map _).append ((filter_sublist.map _).cons_cons _))

theorem Sound.correct (hs : Sound stamp s) {createdAt : Time} {quantityDelta amountDelta : ℤ}
    (hphase : s.sessions i = .inserted command createdAt target quantityDelta amountDelta)
    (hcall : CallSound stamp { s.tables with entries := s.tables.entries ++
      [adjustmentEntry stamp command target quantityDelta amountDelta createdAt] }
      (command,outcome)) :
    Sound stamp ((s.finish i command outcome).append
      (adjustmentEntry stamp command target quantityDelta amountDelta createdAt)) := by
  have hsess := hs.sessions i
  rw [hphase] at hsess
  obtain ⟨hvalid,hfresh,entry,htgt,hderived,htime⟩ := hsess
  have hheld : (command.targetEventID,i) ∈ s.locks := hs.locked i _ (by rw [hphase]; rfl)
  have hended : Sound stamp (s.finish i command (.error .storeUnavailable)) :=
    hs.finish_error command _
  -- the keys are free apart from the row itself, which was waiting
  obtain ⟨rows,hperm,hsub⟩ := perm_commit s.tables.entries (hs.waiting i _ (by rw [hphase]; rfl))
  have hids := ((hperm.map (·.eventID)).nodup_iff).mpr (hs.ids.sublist (hsub.map _))
  have hkeys := ((hperm.filterMap correctionKey).nodup_iff).mpr (hs.keys.sublist (hsub.filterMap _))
  have hledger : LedgerSound { s.tables with entries := s.tables.entries ++
      [adjustmentEntry stamp command target quantityDelta amountDelta createdAt] } := by
    apply hs.ledger.append
    · exact adjustmentEntry_check hs.ledger htgt hvalid hderived
    · intro e he hsame
      rw [map_append,map_append,append_assoc,nodup_append] at hids
      exact hids.2.2 _ (mem_map_of_mem he) _ (by simp) hsame
    · rw [filterMap_append] at hkeys
      exact (nodup_append.mp hkeys).1
    · exact fun h => nomatch h
    · intro a ha
      cases ha
      exact ⟨entry,htgt.mem,adjustmentEntry_corrects hs.ledger htgt,
        hderived.exact_effective hs.ledger htgt⟩
  have happended : Sound stamp ((s.finish i command (.error .storeUnavailable)).append
      (adjustmentEntry stamp command target quantityDelta amountDelta createdAt)) := by
    apply hended.append hledger (fun h => nomatch h) hids hkeys
    intro j eventID hlock
    by_contra hadj
    obtain ⟨a,ha,hid⟩ := adjusts_iff.mp (by simpa using hadj)
    cases ha
    -- only this writer has locked the target, and it is done
    have hj : j ≠ i := by
      intro hj
      simp [System.finish,System.enter,hj,Phase.lock] at hlock
    have hother := hs.locked j eventID (by simpa [System.finish,System.enter,hj] using hlock)
    have hsame := inj_on_of_nodup_map hs.lockIDs hother hheld hid.symm
    rw [mk.injEq] at hsame
    exact hj hsame.2
  refine { happended with log := ?_ }
  have hlater : s.tables.Later { s.tables with entries := s.tables.entries ++
      [adjustmentEntry stamp command target quantityDelta amountDelta createdAt] } :=
    { Tables.Later.refl s.tables with entries := prefix_append _ _ }
  exact forall_mem_append.mpr ⟨fun call h => (hs.log call h).later hlater,
    forall_mem_singleton.mpr hcall⟩

theorem callSound_inserted (db : Tables H) (htenant : target.tenantID = command.scope.tenantID)
    (quantityDelta amountDelta : ℤ) (createdAt : Time) :
    CallSound stamp { db with entries := db.entries ++
        [adjustmentEntry stamp command target quantityDelta amountDelta createdAt] }
      (command,.ok (resultFrom command target quantityDelta amountDelta createdAt true false)) := by
  intro result hres
  cases hres
  have hatt : (nullableString target.attemptID).getD "" = target.attemptID := by
    unfold nullableString
    split_ifs with h
    · exact h.symm
    · rfl
  refine ⟨_,command.adjustment,target.currency,
    ⟨mem_append_right _ mem_cons_self,rfl,?_,?_⟩,.inr ⟨createdAt,rfl,?_⟩⟩
  · exact keyed_iff.mpr (by rw [← htenant]; rfl)
  · simp [Command.matches,adjustmentEntry,Command.adjustment]
  · simp [resultFrom,storedResult,adjustmentEntry,Command.adjustment,hatt]

theorem Sound.commit (hs : Sound stamp s) (reply : Reply) :
    Sound stamp (s.commit stamp i reply) := by
  unfold System.commit
  split
  · rename_i command createdAt target quantityDelta amountDelta hphase
    have hsess := hs.sessions i
    rw [hphase] at hsess
    obtain ⟨-,-,entry,htgt,-⟩ := hsess
    cases reply with
    | failed => exact hs.finish_error command _
    | unanswered => exact hs.correct hphase fun _ h => nomatch h
    | answered =>
      apply hs.correct hphase
      apply callSound_inserted
      rw [htgt.fact]
      exact htgt.tenant
  · rename_i command result hphase
    have hsess := hs.sessions i
    rw [hphase] at hsess
    obtain ⟨entry,a,currency,hstored,hres⟩ := hsess
    cases reply with
    | answered =>
      apply hs.finish
      intro found hfound
      cases hfound
      exact ⟨entry,a,currency,hstored,.inl hres⟩
    | unanswered => exact hs.finish_error command _
    | failed => exact hs.finish_error command _
  · exact hs

theorem Sound.fail (hs : Sound stamp s) : Sound stamp (s.fail i) := by
  unfold System.fail
  split
  · exact hs
  · rename_i command hcmd
    exact hs.finish_error command _

theorem Sound.step (hs : Sound stamp s) (action : Action ι H) :
    Sound stamp (s.step stamp action) := by
  cases action with
  | apply i command now => exact hs.apply command now
  | find i => exact hs.find
  | lock i => exact hs.lock
  | recheck i => exact hs.recheck
  | derive i => exact hs.derive
  | insert i => exact hs.insert
  | commit i reply => exact hs.commit reply
  | fail i => exact hs.fail
  | record entry => exact hs.record entry
  | change tables => exact hs.change tables

theorem leads_sound {tables : Tables H} (hkeyed : tables.Keyed)
    (h : (System.start tables).Leads stamp s) : Sound stamp s := by
  induction h with
  | refl => exact sound_start hkeyed
  | tail hleads hstep ih =>
    obtain ⟨action,rfl⟩ := hstep
    exact ih.step action

end MeteringAdjustment
