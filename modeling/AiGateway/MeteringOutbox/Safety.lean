import AiGateway.MeteringOutbox.Fleet
import AiGateway.MeteringOutbox.Rows
import Mathlib.Data.Int.ConditionallyCompleteOrder

/-! What holds of the outbox over every interleaving of the relays: nothing is lost, nothing is
marked published without an acknowledgement, and a lease that was taken away is of no more use. -/
namespace MeteringOutbox
open Machine Metering Function MeteringOutbox.System List Option RowStep

variable {ι π : Type} {stamp : Time → Time} {s s' : System ι π}

/-- The sink has acknowledged the event. -/
def System.Acknowledged (s : System ι π) (eventID : String) : Prop :=
  ∃ p ∈ s.log, p.eventID = eventID ∧ p.acknowledged

variable (stamp s) in
/-- What a relay in the middle of a pass may rely on. -/
def System.Holds (i : ι) : Prop :=
  match (s.sessions i).phase with
  | .idle => True
  | .claiming leaseID now => now ≤ (s.sessions i).clock ∧ ∀ row ∈ s.rows, row.leaseID ≠ some leaseID
  | .working leaseID _ =>
      ∀ row ∈ s.rows, row.leaseID = some leaseID → row.updatedAt ≤ stamp (s.sessions i).clock
  | .marking leaseID event acknowledged transitionAt _ =>
      transitionAt = (s.sessions i).clock ∧
      (∀ row ∈ s.rows, row.leaseID = some leaseID → row.updatedAt ≤ stamp transitionAt) ∧
      (acknowledged → s.Acknowledged event.event.eventID)

variable (stamp s) in
structure System.Sound : Prop where
  rows : ∀ row ∈ s.rows, RowSound row
  keys : (s.rows.map (·.event.eventID)).Nodup
  drawn : ∀ row ∈ s.rows, ∀ leaseID, row.leaseID = some leaseID → leaseID ∈ s.leases
  held : ∀ i leaseID, (s.sessions i).phase.leaseID = some leaseID → leaseID ∈ s.leases
  apart : ∀ i j leaseID, (s.sessions i).phase.leaseID = some leaseID →
    (s.sessions j).phase.leaseID = some leaseID → i = j
  sessions : ∀ i, s.Holds stamp i
  published : ∀ row ∈ s.rows, row.status = .published → s.Acknowledged row.event.eventID

theorem System.Holds.keep {i : ι} (h : s.Holds stamp i) (hsess : s'.sessions i = s.sessions i)
    (hrows : ∀ leaseID, (s.sessions i).phase.leaseID = some leaseID →
      ∀ row ∈ s'.rows, row.leaseID = some leaseID → row ∈ s.rows)
    (hlog : ∀ eventID, s.Acknowledged eventID → s'.Acknowledged eventID) : s'.Holds stamp i := by
  unfold Holds at h ⊢
  rw [hsess]
  cases hphase : (s.sessions i).phase with
  | idle => trivial
  | claiming leaseID now =>
    rw [hphase] at h hrows
    exact ⟨h.1,fun row hrow hlease => h.2 row (hrows leaseID rfl row hrow hlease) hlease⟩
  | working leaseID todo =>
    rw [hphase] at h hrows
    exact fun row hrow hlease => h row (hrows leaseID rfl row hrow hlease) hlease
  | marking leaseID event acknowledged transitionAt todo =>
    rw [hphase] at h hrows
    exact ⟨h.1,fun row hrow hlease => h.2.1 row (hrows leaseID rfl row hrow hlease) hlease,
      fun hack => hlog _ (h.2.2 hack)⟩

/-- A step of one relay under its lease: rows change as that lease allows, and the relay goes on
under it or drops it. -/
structure System.Moves (s : System ι π) (i : ι) (g : OutboxRow → OutboxRow) (s' : System ι π) :
    Prop where
  rows : s'.rows = s.rows.map g
  step : ∀ row ∈ s.rows, RowStep (s.sessions i).phase.leaseID row (g row)
  others : ∀ j, j ≠ i → s'.sessions j = s.sessions j
  lease : (s'.sessions i).phase.leaseID = none ∨
    (s'.sessions i).phase.leaseID = (s.sessions i).phase.leaseID
  leases : s'.leases = s.leases
  log : ∀ p ∈ s.log, p ∈ s'.log

section Moves
variable {i : ι} {g : OutboxRow → OutboxRow}

theorem System.Moves.acknowledged (h : s.Moves i g s') {eventID : String}
    (hack : s.Acknowledged eventID) : s'.Acknowledged eventID := by
  obtain ⟨p,hp,hfacts⟩ := hack
  exact ⟨p,h.log p hp,hfacts⟩

theorem System.Moves.untouched (h : s.Moves i g s') {leaseID : String}
    (hother : (s.sessions i).phase.leaseID ≠ some leaseID) {row : OutboxRow} (hrow : row ∈ s'.rows)
    (hlease : row.leaseID = some leaseID) : row ∈ s.rows := by
  rw [h.rows] at hrow
  obtain ⟨old,hold,rfl⟩ := mem_map.mp hrow
  rcases (h.step old hold).lease with hsame | hnone | hown
  · rwa [hsame]
  · rw [hnone] at hlease
    cases hlease
  · rw [hown] at hlease
    exact absurd hlease hother

theorem System.Moves.sound (h : s.Moves i g s') (hs : s.Sound stamp) (hholds : s'.Holds stamp i)
    (hpub : ∀ row ∈ s.rows, (g row).status = .published →
      row.status = .published ∨ s'.Acknowledged row.event.eventID) : s'.Sound stamp := by
  have hother : ∀ j, j ≠ i → ∀ leaseID, (s.sessions j).phase.leaseID = some leaseID →
      (s.sessions i).phase.leaseID ≠ some leaseID :=
    fun j hj leaseID hlease hown => hj (hs.apart j i leaseID hlease hown)
  have hown : ∀ leaseID, (s'.sessions i).phase.leaseID = some leaseID →
      (s.sessions i).phase.leaseID = some leaseID := by
    intro leaseID hlease
    rcases h.lease with hnone | hsame
    · rw [hnone] at hlease
      cases hlease
    · rwa [← hsame]
  -- the lease of any relay after the step was its lease before
  have hbefore : ∀ j leaseID, (s'.sessions j).phase.leaseID = some leaseID →
      (s.sessions j).phase.leaseID = some leaseID := by
    intro j leaseID hlease
    by_cases hj : j = i
    · rw [hj] at hlease ⊢
      exact hown leaseID hlease
    · rwa [h.others j hj] at hlease
  refine ⟨?_,?_,?_,?_,?_,?_,?_⟩
  · rw [h.rows]
    intro row hrow
    obtain ⟨old,hold,rfl⟩ := mem_map.mp hrow
    exact (h.step old hold).sound (hs.rows old hold)
  · rw [h.rows,map_eventID fun row hrow => (h.step row hrow).event]
    exact hs.keys
  · rw [h.rows,h.leases]
    intro row hrow leaseID hlease
    obtain ⟨old,hold,rfl⟩ := mem_map.mp hrow
    rcases (h.step old hold).lease with hsame | hnone | hheld
    · exact hs.drawn old hold leaseID (hsame ▸ hlease)
    · rw [hnone] at hlease
      cases hlease
    · exact hs.held i leaseID (hheld.symm.trans hlease)
  · intro j leaseID hlease
    rw [h.leases]
    exact hs.held j leaseID (hbefore j leaseID hlease)
  · intro j k leaseID hj hk
    exact hs.apart j k leaseID (hbefore j leaseID hj) (hbefore k leaseID hk)
  · intro j
    by_cases hj : j = i
    · rwa [hj]
    · exact (hs.sessions j).keep (h.others j hj)
        (fun leaseID hlease row => h.untouched (hother j hj leaseID hlease))
        fun eventID => h.acknowledged
  · rw [h.rows]
    intro row hrow hstat
    obtain ⟨old,hold,rfl⟩ := mem_map.mp hrow
    rw [(h.step old hold).event]
    rcases hpub old hold hstat with hbefore | hack
    · exact h.acknowledged (hs.published old hold hbefore)
    · exact hack

end Moves

/-! The steps. -/

variable [DecidableEq ι] {encode : ι → UsageEvent → Option π} {options : ι → Options} {i : ι}

/-- The result of `Publish` is recorded on the rows that are still under the relay's lease. -/
theorem transition_effect {opts : Options} {leaseID : String} {event : ClaimedEvent}
    {acknowledged : Bool} {transitionAt : Time} {rows rows' : List OutboxRow} {updated : ℕ}
    (h : transition stamp opts leaseID event acknowledged transitionAt rows =
      some (rows',updated)) :
    ∃ g : OutboxRow → OutboxRow, rows' = rows.map g ∧
      ∀ row ∈ rows, RowStep (some leaseID) row (g row) ∧
        (g row = row ∨ leased event.event.eventID leaseID row ∧ (g row).leaseID = none ∧
          ((g row).status = .published → acknowledged)) := by
  unfold transition at h
  cases acknowledged with
  | true =>
    simp only [if_true,markPublished,bind_eq_bind,bind_eq_some_iff] at h
    obtain ⟨after,hupdate,hres⟩ := h
    cases hres
    obtain ⟨hacc,rfl⟩ := updateWhere_eq_some.mp hupdate
    refine ⟨_,rfl,?_⟩
    intro row hrow
    split_ifs with hleased
    · exact ⟨update _ (hacc row hrow hleased) (.inl rfl),.inr ⟨hleased,rfl,fun _ => rfl⟩⟩
    · exact ⟨refl _ row,.inl rfl⟩
  | false =>
    simp only [Bool.false_eq_true,if_false,markRetry,bind_eq_bind,bind_eq_some_iff] at h
    obtain ⟨after,hupdate,hres⟩ := h
    cases hres
    obtain ⟨hacc,rfl⟩ := updateWhere_eq_some.mp hupdate
    refine ⟨_,rfl,?_⟩
    intro row hrow
    split_ifs with hleased
    · exact ⟨update _ (hacc row hrow hleased) (.inl rfl),
        .inr ⟨hleased,rfl,fun hstat => by cases hstat⟩⟩
    · exact ⟨refl _ row,.inl rfl⟩

variable (encode : ι → UsageEvent → Option π) (stamp : Time → Time) (s : System ι π) in
/-- Everything a step can do. -/
inductive System.Turn : System ι π → Prop
  | same : Turn s
  | inserted (event : UsageEvent) (storedAt : Time) (hvalid : event.validate)
      (hfresh : ∀ row ∈ s.rows, row.event.eventID ≠ event.eventID)
      (hchecks : (OutboxRow.inserted event storedAt).checks) :
      Turn { s with rows := s.rows ++ [OutboxRow.inserted event storedAt] }
  | woken (i : ι) (now : Time) (leaseID : String) (hphase : (s.sessions i).phase = .idle)
      (hfresh : leaseID ∉ s.leases) :
      Turn { s with
        sessions := update s.sessions i ⟨now,.claiming leaseID now⟩
        leases := leaseID :: s.leases }
  | stopped (i : ι) : Turn (s.enter i .idle)
  | claimed (i : ι) (leaseID : String) (now : Time) (events : List ClaimedEvent)
      (g : OutboxRow → OutboxRow) (answered : Bool)
      (hphase : (s.sessions i).phase = .claiming leaseID now)
      (hrows : ∀ row ∈ s.rows, RowStep (some leaseID) row (g row) ∧
        (g row = row ∨ ((g row).leaseID = none ∧ (g row).status = .pending) ∨
          (g row).leaseID = some leaseID ∧ (g row).status = .publishing ∧
            (g row).updatedAt = stamp now))
      (hevents : ∀ e ∈ events, ∃ row ∈ s.rows, e.event = (scan row).event) :
      Turn { s.enter i (if answered then .working leaseID events else .idle) with
        rows := s.rows.map g }
  | published (i : ι) (leaseID : String) (event : ClaimedEvent) (todo : List ClaimedEvent)
      (payload : π) (acknowledged cancelled : Bool) (now : Time)
      (hphase : (s.sessions i).phase = .working leaseID (event :: todo))
      (hpayload : encode i event.event = some payload) (hclock : (s.sessions i).clock ≤ now) :
      Turn { s with
        sessions := update s.sessions i ⟨now,if cancelled then .idle
          else .marking leaseID event acknowledged now todo⟩
        log := s.log ++ [⟨event.event.eventID,payload,acknowledged⟩] }
  | marked (i : ι) (leaseID : String) (event : ClaimedEvent) (acknowledged : Bool)
      (transitionAt : Time) (todo : List ClaimedEvent) (g : OutboxRow → OutboxRow) (goesOn : Bool)
      (hphase : (s.sessions i).phase = .marking leaseID event acknowledged transitionAt todo)
      (hrows : ∀ row ∈ s.rows, RowStep (some leaseID) row (g row) ∧
        (g row = row ∨ leased event.event.eventID leaseID row ∧ (g row).leaseID = none ∧
          ((g row).status = .published → acknowledged))) :
      Turn { s.enter i (if goesOn then .working leaseID todo else .idle) with
        rows := s.rows.map g }

theorem System.turn_claim (locked locked' : List String) (reply : Reply) :
    s.Turn encode stamp (s.claim stamp options i locked locked' reply) := by
  unfold claim
  split
  · rename_i leaseID now hphase
    split
    · exact .stopped i
    · split
      · exact .stopped i
      · rename_i rows events hclaim
        obtain ⟨⟨g,rfl,hrows⟩,hevents⟩ := claim_effect hclaim
        have hturn : s.Turn encode stamp _ := .claimed i leaseID now events g
          (decide (reply = .answered)) hphase hrows hevents
        simpa using hturn
  · exact .same

theorem System.turn_publish (acknowledged cancelled : Bool) (now : Time) :
    s.Turn encode stamp (s.publish encode i acknowledged cancelled now) := by
  unfold publish
  split
  · exact .stopped i
  · rename_i leaseID event todo hphase
    split
    · exact .stopped i
    · rename_i payload hpayload
      split
      · exact .stopped i
      · split
        · rename_i hclock
          exact .published i leaseID event todo payload acknowledged cancelled now hphase hpayload
            hclock
        · exact .same
  · exact .same

theorem System.turn_mark (reply : Reply) : s.Turn encode stamp (s.mark stamp options i reply) := by
  unfold mark
  split
  · rename_i leaseID event acknowledged transitionAt todo hphase
    split
    · exact .stopped i
    · split
      · exact .stopped i
      · rename_i rows updated htrans
        obtain ⟨g,rfl,hrows⟩ := transition_effect htrans
        have hturn : s.Turn encode stamp _ := .marked i leaseID event acknowledged transitionAt todo
          g (decide (reply = .answered ∧ updated = 1)) hphase hrows
        simpa using hturn
  · exact .same

theorem System.turn_step (action : Action ι) :
    s.Turn encode stamp (s.step stamp encode options action) := by
  cases action with
  | insert event storedAt =>
    show s.Turn encode stamp (s.insert event storedAt)
    unfold insert
    split
    · rename_i hguard
      exact .inserted event storedAt hguard.1 hguard.2.1 hguard.2.2
    · exact .same
  | wake i now leaseID =>
    show s.Turn encode stamp (s.wake i now leaseID)
    unfold wake
    split
    · rename_i hphase
      split
      · rename_i hguard
        exact .woken i now leaseID hphase hguard.2
      · exact .same
    · exact .same
  | claim i locked locked' reply => exact turn_claim locked locked' reply
  | publish i acknowledged cancelled now => exact turn_publish acknowledged cancelled now
  | mark i reply => exact turn_mark reply
  | crash i => exact .stopped i

/-! The invariant. -/

theorem System.statement_moves {g : OutboxRow → OutboxRow} {phase : Phase}
    (hg : ∀ row ∈ s.rows, RowStep (s.sessions i).phase.leaseID row (g row))
    (hlease : phase.leaseID = none ∨ phase.leaseID = (s.sessions i).phase.leaseID) :
    s.Moves i g { s.enter i phase with rows := s.rows.map g } where
  rows := rfl
  step := hg
  others := fun j hj => update_of_ne hj _ _
  lease := by simpa [enter] using hlease
  leases := rfl
  log := fun _ hp => hp

theorem System.Sound.stopped (hs : s.Sound stamp) (i : ι) : (s.enter i .idle).Sound stamp := by
  have hmoves : s.Moves i id (s.enter i .idle) :=
    ⟨(map_id _).symm,fun row _ => refl _ row,fun j hj => update_of_ne hj _ _,
      .inl (by simp [enter,Phase.leaseID]),rfl,fun _ hp => hp⟩
  apply hmoves.sound hs
  · simp [Holds,enter]
  · exact fun row _ hstat => .inl hstat

omit [DecidableEq ι] in
theorem System.Sound.inserted (hs : s.Sound stamp) {event : UsageEvent} {storedAt : Time}
    (hfresh : ∀ row ∈ s.rows, row.event.eventID ≠ event.eventID)
    (hchecks : (OutboxRow.inserted event storedAt).checks) :
    ({ s with rows := s.rows ++ [OutboxRow.inserted event storedAt] } : System ι π).Sound
    stamp := by
  refine ⟨?_,?_,?_,hs.held,hs.apart,?_,?_⟩
  · rw [forall_mem_append]
    exact ⟨hs.rows,forall_mem_singleton.mpr ⟨hchecks,fun _ => le_rfl⟩⟩
  · rw [map_append,nodup_append]
    refine ⟨hs.keys,nodup_singleton _,?_⟩
    intro id hid id' hid'
    obtain ⟨row,hrow,rfl⟩ := mem_map.mp hid
    rw [map_singleton,mem_singleton] at hid'
    rw [hid']
    exact hfresh row hrow
  · rw [forall_mem_append]
    exact ⟨hs.drawn,forall_mem_singleton.mpr fun leaseID hlease => by cases hlease⟩
  · intro j
    refine (hs.sessions j).keep ?_ ?_ ?_
    · rfl
    · intro leaseID _ row hrow hlease
      rcases mem_append.mp hrow with hrow | hrow
      · exact hrow
      · rw [mem_singleton.mp hrow] at hlease
        cases hlease
    · exact fun _ hack => hack
  · rw [forall_mem_append]
    exact ⟨hs.published,forall_mem_singleton.mpr fun hstat => by cases hstat⟩

theorem System.Sound.woken (hs : s.Sound stamp) (i : ι) (now : Time) {leaseID : String}
    (hfresh : leaseID ∉ s.leases) :
    ({ s with
      sessions := update s.sessions i ⟨now,.claiming leaseID now⟩
      leases := leaseID :: s.leases } : System ι π).Sound stamp := by
  have hother : ∀ j, j ≠ i → update s.sessions i ⟨now,.claiming leaseID now⟩ j = s.sessions j :=
    fun j hj => update_of_ne hj _ _
  refine ⟨hs.rows,hs.keys,?_,?_,?_,?_,hs.published⟩
  · exact fun row hrow L hlease => mem_cons_of_mem _ (hs.drawn row hrow L hlease)
  · intro j L hlease
    by_cases hj : j = i
    · rw [hj] at hlease
      simp only [update_self,Phase.leaseID,some.injEq] at hlease
      exact hlease ▸ mem_cons_self
    · simp only [hother j hj] at hlease
      exact mem_cons_of_mem _ (hs.held j L hlease)
  · -- nobody else holds a lease that was just drawn
    have hnew : ∀ j, (s.sessions j).phase.leaseID ≠ some leaseID :=
      fun j hlease => hfresh (hs.held j leaseID hlease)
    intro j k L hj hk
    by_cases hji : j = i <;> by_cases hki : k = i
    · rw [hji,hki]
    · rw [hji] at hj
      simp only [hother k hki,update_self,Phase.leaseID,some.injEq] at hj hk
      exact absurd (hj ▸ hk) (hnew k)
    · rw [hki] at hk
      simp only [hother j hji,update_self,Phase.leaseID,some.injEq] at hj hk
      exact absurd (hk ▸ hj) (hnew j)
    · simp only [hother j hji,hother k hki] at hj hk
      exact hs.apart j k L hj hk
  · intro j
    by_cases hj : j = i
    · rw [hj]
      simp only [Holds,update_self,le_refl,true_and]
      exact fun row hrow hlease => hfresh (hs.drawn row hrow leaseID hlease)
    · refine (hs.sessions j).keep (hother j hj) ?_ ?_
      · exact fun L _ row hrow _ => hrow
      · exact fun _ hack => hack

theorem System.Sound.turn (hstamp : Monotone stamp) (hs : s.Sound stamp)
    (h : s.Turn encode stamp s') : s'.Sound stamp := by
  cases h with
  | same => exact hs
  | inserted event storedAt hvalid hfresh hchecks => exact hs.inserted hfresh hchecks
  | woken i now leaseID hphase hfresh => exact hs.woken i now hfresh
  | stopped i => exact hs.stopped i
  | claimed i leaseID now events g answered hphase hrows hevents =>
    have hholds := hs.sessions i
    simp only [Holds,hphase] at hholds
    refine (statement_moves ?_ ?_).sound hs ?_ ?_
    · rw [hphase]
      exact fun row hrow => (hrows row hrow).1
    · rw [hphase]
      cases answered with
      | true => exact .inr rfl
      | false => exact .inl rfl
    · simp only [Holds,enter,update_self]
      cases answered with
      | true =>
        intro row hrow hlease
        obtain ⟨old,hold,rfl⟩ := mem_map.mp hrow
        rcases (hrows old hold).2 with hsame | ⟨hnone,-⟩ | ⟨-,-,hupd⟩
        · rw [hsame] at hlease
          exact absurd hlease (hholds.2 old hold)
        · rw [hnone] at hlease
          cases hlease
        · rw [hupd]
          exact hstamp hholds.1
      | false => trivial
    · intro row hrow hstat
      rcases (hrows row hrow).2 with hsame | ⟨-,hpend⟩ | ⟨-,hpublishing,-⟩
      · exact .inl (hsame ▸ hstat)
      · rw [hpend] at hstat
        cases hstat
      · rw [hpublishing] at hstat
        cases hstat
  | published i leaseID event todo payload acknowledged cancelled now hphase hpayload hclock =>
    have hholds := hs.sessions i
    simp only [Holds,hphase] at hholds
    have hmoves : s.Moves i id { s with
        sessions := update s.sessions i ⟨now,if cancelled then .idle
          else .marking leaseID event acknowledged now todo⟩
        log := s.log ++ [⟨event.event.eventID,payload,acknowledged⟩] } := by
      refine ⟨(map_id _).symm,fun row _ => refl _ row,
        fun j hj => update_of_ne hj _ _,?_,rfl,fun p hp => mem_append_left _ hp⟩
      simp only [update_self,hphase]
      cases cancelled with
      | true => exact .inl rfl
      | false => exact .inr rfl
    apply hmoves.sound hs
    · simp only [Holds,update_self]
      cases cancelled with
      | true => trivial
      | false =>
        refine ⟨rfl,fun row hrow hlease => (hholds row hrow hlease).trans (hstamp hclock),?_⟩
        intro hack
        exact ⟨_,mem_append_right _ mem_cons_self,rfl,hack⟩
    · exact fun row _ hstat => .inl hstat
  | marked i leaseID event acknowledged transitionAt todo g goesOn hphase hrows =>
    have hholds := hs.sessions i
    simp only [Holds,hphase] at hholds
    obtain ⟨hclock,hupd,hack⟩ := hholds
    refine (statement_moves ?_ ?_).sound hs ?_ ?_
    · rw [hphase]
      exact fun row hrow => (hrows row hrow).1
    · rw [hphase]
      cases goesOn with
      | true => exact .inr rfl
      | false => exact .inl rfl
    · simp only [Holds,enter,update_self]
      cases goesOn with
      | true =>
        intro row hrow hlease
        obtain ⟨old,hold,rfl⟩ := mem_map.mp hrow
        rcases (hrows old hold).2 with hsame | ⟨-,hnone,-⟩
        · rw [hsame] at hlease ⊢
          rw [← hclock]
          exact hupd old hold hlease
        · rw [hnone] at hlease
          cases hlease
      | false => trivial
    · intro row hrow hstat
      rcases (hrows row hrow).2 with hsame | ⟨hleased,-,hpub⟩
      · exact .inl (hsame ▸ hstat)
      · simp only [leased,Bool.and_eq_true,decide_eq_true_eq] at hleased
        rw [hleased.1.1]
        exact .inr (hack (hpub hstat))

theorem reaches_sound (hstamp : Monotone stamp) (h : Reaches stamp encode options s) :
    s.Sound stamp := by
  induction h with
  | start clock =>
    refine ⟨?_,?_,?_,?_,?_,?_,?_⟩ <;> simp [Phase.leaseID,Holds]
  | step h action ih => exact ih.turn hstamp (turn_step action)

end MeteringOutbox
