import AiGateway.Machine.Arithmetic
import AiGateway.MeteringOutbox.Safety

/-! The guarantees of the outbox: rows are kept until they are published, a lost lease is of no more
use, and no statement of a relay is refused. -/
namespace MeteringOutbox
open Machine Metering MeteringOutbox.System List

variable {ι π : Type} [DecidableEq ι] {stamp : Time → Time} {encode : ι → UsageEvent → Option π}
  {options : ι → Options} {s s' : System ι π}

theorem reaches_run (h : Reaches stamp encode options s) (actions : List (Action ι)) :
    Reaches stamp encode options (s.run stamp encode options actions) := by
  induction actions generalizing s with
  | nil => exact h
  | cons action actions ih => exact ih (h.step action)

/-! Rows are kept. -/

/-- The same facts; a published row is left as it is. -/
structure Kept (row new : OutboxRow) : Prop where
  event : new.event = row.event
  created : new.createdAt = row.createdAt ∧ new.createdBy = row.createdBy
  final : row.status = .published → new = row

theorem Kept.refl (row : OutboxRow) : Kept row row := ⟨rfl,⟨rfl,rfl⟩,fun _ => rfl⟩

variable {row new : OutboxRow}

theorem Kept.trans {mid : OutboxRow} (h : Kept row mid) (h' : Kept mid new) : Kept row new := by
  refine ⟨h'.event.trans h.event,⟨h'.created.1.trans h.created.1,h'.created.2.trans h.created.2⟩,?_⟩
  intro hstat
  have hmid := h.final hstat
  rw [h'.final (hmid ▸ hstat),hmid]

theorem RowStep.kept {lease : Option String} (h : RowStep lease row new) : Kept row new :=
  ⟨h.event,h.created,h.final⟩

theorem System.Turn.kept (h : s.Turn encode stamp s') :
    ∀ row ∈ s.rows, ∃ new ∈ s'.rows, Kept row new := by
  intro row hrow
  cases h with
  | same => exact ⟨row,hrow,.refl row⟩
  | inserted event storedAt hvalid hfresh hchecks =>
    exact ⟨row,mem_append_left _ hrow,.refl row⟩
  | woken i now leaseID hphase hfresh => exact ⟨row,hrow,.refl row⟩
  | stopped i => exact ⟨row,hrow,.refl row⟩
  | claimed i leaseID now events g answered hphase hrows hevents =>
    exact ⟨g row,mem_map_of_mem hrow,(hrows row hrow).1.kept⟩
  | published i leaseID event todo payload acknowledged cancelled now hphase hpayload hclock =>
    exact ⟨row,hrow,.refl row⟩
  | marked i leaseID event acknowledged transitionAt todo g goesOn hphase hrows =>
    exact ⟨g row,mem_map_of_mem hrow,(hrows row hrow).1.kept⟩

theorem System.run_kept (actions : List (Action ι)) (hrow : row ∈ s.rows) :
    ∃ new ∈ (s.run stamp encode options actions).rows, Kept row new := by
  induction actions generalizing s row with
  | nil => exact ⟨row,hrow,.refl row⟩
  | cons action actions ih =>
    obtain ⟨mid,hmid,hkept⟩ := Turn.kept (turn_step action) row hrow
    obtain ⟨new,hnew,hkept'⟩ := ih hmid
    exact ⟨new,hnew,hkept.trans hkept'⟩

/-! A lost lease. -/

/-- The relay that takes a step. -/
def Action.relay : Action ι → Option ι
  | .insert _ _ => none
  | .wake i _ _ => some i
  | .claim i _ _ _ => some i
  | .publish i _ _ _ => some i
  | .mark i _ => some i
  | .crash i => some i

/-- The lease was used for its claim, and the row of the event is not under it. -/
structure System.Spent (s : System ι π) (leaseID eventID : String) : Prop where
  drawn : leaseID ∈ s.leases
  used : ∀ i now, (s.sessions i).phase ≠ .claiming leaseID now
  rows : ∀ row ∈ s.rows, row.event.eventID = eventID → row.leaseID ≠ some leaseID

section Spent
variable {leaseID eventID : String}

theorem System.Turn.used (h : s.Turn encode stamp s') (hdrawn : leaseID ∈ s.leases)
    (hused : ∀ i now, (s.sessions i).phase ≠ .claiming leaseID now) :
    leaseID ∈ s'.leases ∧ ∀ i now, (s'.sessions i).phase ≠ .claiming leaseID now := by
  -- no turn of a relay but its waking leads it to a claim
  have hupdate : ∀ (i : ι) (session : Session), (∀ now, session.phase ≠ .claiming leaseID now) →
      ∀ j now, (Function.update s.sessions i session j).phase ≠ .claiming leaseID now := by
    intro i session hsess j now
    by_cases hj : j = i
    · rw [hj,Function.update_self]
      exact hsess now
    · rw [Function.update_of_ne hj]
      exact hused j now
  cases h with
  | same => exact ⟨hdrawn,hused⟩
  | inserted event storedAt hvalid hfresh hchecks => exact ⟨hdrawn,hused⟩
  | woken i now drawnID hphase hfresh =>
    refine ⟨mem_cons_of_mem _ hdrawn,hupdate i _ fun t heq => ?_⟩
    rw [Phase.claiming.injEq] at heq
    exact hfresh (heq.1 ▸ hdrawn)
  | stopped i => exact ⟨hdrawn,hupdate i _ fun _ heq => by cases heq⟩
  | claimed i claimID now events g answered hphase hrows hevents =>
    refine ⟨hdrawn,hupdate i _ fun _ heq => ?_⟩
    cases answered <;> cases heq
  | published i claimID event todo payload acknowledged cancelled now hphase hpayload hclock =>
    refine ⟨hdrawn,hupdate i _ fun _ heq => ?_⟩
    cases cancelled <;> cases heq
  | marked i claimID event acknowledged transitionAt todo g goesOn hphase hrows =>
    refine ⟨hdrawn,hupdate i _ fun _ heq => ?_⟩
    cases goesOn <;> cases heq

theorem System.Spent.turn (hs : s.Spent leaseID eventID) (h : s.Turn encode stamp s') :
    s'.Spent leaseID eventID := by
  obtain ⟨hdrawn,hused⟩ := h.used hs.drawn hs.used
  refine ⟨hdrawn,hused,?_⟩
  cases h with
  | same => exact hs.rows
  | inserted event storedAt hvalid hfresh hchecks =>
    rw [forall_mem_append]
    exact ⟨hs.rows,forall_mem_singleton.mpr fun _ hlease => by cases hlease⟩
  | woken i now drawnID hphase hfresh => exact hs.rows
  | stopped i => exact hs.rows
  | claimed i claimID now events g answered hphase hrows hevents =>
    intro row hrow hevent
    obtain ⟨old,hold,rfl⟩ := mem_map.mp hrow
    rw [(hrows old hold).1.event] at hevent
    rcases (hrows old hold).2 with hsame | ⟨hnone,-⟩ | ⟨hclaimed,-⟩
    · rw [hsame]
      exact hs.rows old hold hevent
    · simp [hnone]
    · -- the row was claimed under a lease that is being used only now
      rw [hclaimed]
      intro hlease
      rw [Option.some.injEq] at hlease
      exact hs.used i now (hlease ▸ hphase)
  | published i claimID event todo payload acknowledged cancelled now hphase hpayload hclock =>
    exact hs.rows
  | marked i claimID event acknowledged transitionAt todo g goesOn hphase hrows =>
    intro row hrow hevent
    obtain ⟨old,hold,rfl⟩ := mem_map.mp hrow
    rw [(hrows old hold).1.event] at hevent
    rcases (hrows old hold).2 with hsame | ⟨-,hnone,-⟩
    · rw [hsame]
      exact hs.rows old hold hevent
    · simp [hnone]

theorem System.Spent.run (hs : s.Spent leaseID eventID) (actions : List (Action ι)) :
    (s.run stamp encode options actions).Spent leaseID eventID := by
  induction actions generalizing s with
  | nil => exact hs
  | cons action actions ih => exact ih (hs.turn (turn_step action))

theorem System.publish_rows (i : ι) (acknowledged cancelled : Bool) (now : Time) :
    (s.publish encode i acknowledged cancelled now).rows = s.rows := by
  unfold publish
  split
  · rfl
  · split
    · rfl
    · split_ifs <;> rfl
  · rfl

theorem System.Spent.untouched (hs : s.Spent leaseID eventID) {j : ι}
    (hlease : (s.sessions j).phase.leaseID = some leaseID) {action : Action ι}
    (hrelay : action.relay = some j) : ∀ row ∈ s.rows, row.event.eventID = eventID →
      row ∈ (s.step stamp encode options action).rows := by
  intro row hrow hevent
  cases action with
  | insert event storedAt => cases hrelay
  | wake i now drawnID =>
    cases hrelay
    show row ∈ (s.wake j now drawnID).rows
    unfold wake
    split
    · rename_i hphase
      rw [hphase] at hlease
      cases hlease
    · exact hrow
  | claim i locked locked' reply =>
    cases hrelay
    show row ∈ (s.claim stamp options j locked locked' reply).rows
    unfold claim
    split
    · rename_i claimID now hphase
      rw [hphase,Phase.leaseID,Option.some.injEq] at hlease
      exact absurd (hlease ▸ hphase) (hs.used j now)
    · exact hrow
  | publish i acknowledged cancelled now =>
    show row ∈ (s.publish encode i acknowledged cancelled now).rows
    rwa [publish_rows]
  | mark i reply =>
    cases hrelay
    show row ∈ (s.mark stamp options j reply).rows
    unfold mark
    split
    · rename_i markID event acknowledged transitionAt todo hphase
      rw [hphase,Phase.leaseID,Option.some.injEq] at hlease
      split
      · exact hrow
      · split
        · exact hrow
        · rename_i rows updated htrans
          obtain ⟨g,rfl,hrows⟩ := transition_effect htrans
          rcases (hrows row hrow).2 with hsame | ⟨hleased,-⟩
          · rw [← hsame]
            exact mem_map_of_mem hrow
          · simp only [leased,Bool.and_eq_true,decide_eq_true_eq] at hleased
            exact absurd (hlease ▸ hleased.2) (hs.rows row hrow hevent)
    · exact hrow
  | crash i => exact hrow

theorem System.Sound.spent (hs : s.Sound stamp) (hrow : row ∈ s.rows)
    (hlease : row.leaseID = some leaseID) (h : s.Turn encode stamp s') (hs' : s'.Sound stamp)
    (hnew : new ∈ s'.rows) (hevent : new.event.eventID = row.event.eventID)
    (hlost : new.leaseID ≠ some leaseID) : s'.Spent leaseID row.event.eventID := by
  have hused : ∀ i now, (s.sessions i).phase ≠ .claiming leaseID now := by
    intro i now hphase
    have hholds := hs.sessions i
    simp only [Holds,hphase] at hholds
    exact hholds.2 row hrow hlease
  obtain ⟨hdrawn,hused⟩ := h.used (hs.drawn row hrow leaseID hlease) hused
  refine ⟨hdrawn,hused,?_⟩
  intro other hother hid
  rw [inj_on_of_nodup_map hs'.keys hother hnew (hid.trans hevent.symm)]
  exact hlost

end Spent

/-! No statement is refused. -/

omit [DecidableEq ι] in
theorem System.Sound.transition_accepted (hstamp : Monotone stamp) (hs : s.Sound stamp)
    (hcap : ∀ row ∈ s.rows, row.publishAttempts < OutboxRow.maximumPublishAttempts)
    {opts : Options} (hvalid : opts.valid) {i : ι} {leaseID : String} {event : ClaimedEvent}
    {acknowledged : Bool} {transitionAt : Time} {todo : List ClaimedEvent}
    (hphase : (s.sessions i).phase = .marking leaseID event acknowledged transitionAt todo) :
    ∃ result, transition stamp opts leaseID event acknowledged transitionAt s.rows =
      some result := by
  have hholds := hs.sessions i
  simp only [Holds,hphase] at hholds
  obtain ⟨-,hupd,-⟩ := hholds
  -- the rows the statement touches are publishing, and were last touched before `transitionAt`
  have hleased : ∀ row ∈ s.rows, leased event.event.eventID leaseID row →
      row.status = .publishing ∧ row.updatedAt ≤ stamp transitionAt := by
    intro row hrow hleased
    simp only [leased,Bool.and_eq_true,decide_eq_true_eq] at hleased
    exact ⟨hleased.1.2,hupd row hrow hleased.2⟩
  unfold transition
  cases acknowledged with
  | true =>
    have hupdate : ∃ rows, updateWhere (leased event.event.eventID leaseID)
        (Row.published · (stamp transitionAt)) s.rows = some rows := by
      apply updateWhere_isSome
      intro row hrow hchosen
      obtain ⟨hstat,hbefore⟩ := hleased row hrow hchosen
      exact published_accepted (hs.rows row hrow) hstat hbefore
    obtain ⟨rows,hupdate⟩ := hupdate
    refine ⟨(rows,s.rows.countP (leased event.event.eventID leaseID)),?_⟩
    simp [markPublished,hupdate]
  | false =>
    have havail : stamp transitionAt ≤
        stamp (transitionAt + opts.retryDelay event.publishAttempts) := by
      apply hstamp
      have hdelay := opts.retryDelay_pos hvalid event.publishAttempts
      exact le_add_of_nonneg_right hdelay.le
    have hupdate : ∃ rows, updateWhere (leased event.event.eventID leaseID)
        (Row.retried · (stamp transitionAt)
          (stamp (transitionAt + opts.retryDelay event.publishAttempts))) s.rows = some rows := by
      apply updateWhere_isSome
      intro row hrow hchosen
      obtain ⟨hstat,hbefore⟩ := hleased row hrow hchosen
      exact returned_accepted (hs.rows row hrow) hstat hbefore havail (hcap row hrow)
        (by decide)
    obtain ⟨rows,hupdate⟩ := hupdate
    refine ⟨(rows,s.rows.countP (leased event.event.eventID leaseID)),?_⟩
    simp [markRetry,hupdate]

/-! The guarantees. -/

variable (stamp encode options) in
structure System.Safe (s : System ι π) : Prop where
  /-- One row for an event, under a lease exactly while it is being published. -/
  keys : (s.rows.map (·.event.eventID)).Nodup
  leased : ∀ row ∈ s.rows, row.leaseID.isSome ↔ row.status = .publishing
  /-- A lease belongs to one relay. -/
  apart : ∀ i j leaseID, (s.sessions i).phase.leaseID = some leaseID →
    (s.sessions j).phase.leaseID = some leaseID → i = j
  acknowledged : ∀ row ∈ s.rows, row.status = .published → s.Acknowledged row.event.eventID
  kept : ∀ row ∈ s.rows, ∀ actions, ∃ new ∈ (s.run stamp encode options actions).rows, Kept row new
  /-- Once a step has taken a row from under a lease, the row never comes under it again, and the
  relay that still works under it leaves the row alone. -/
  lost : ∀ row ∈ s.rows, ∀ leaseID, row.leaseID = some leaseID → ∀ action,
    ∀ new ∈ (s.step stamp encode options action).rows, new.event.eventID = row.event.eventID →
    new.leaseID ≠ some leaseID → ∀ actions,
    ∀ later ∈ (s.run stamp encode options (action :: actions)).rows,
    later.event.eventID = row.event.eventID → later.leaseID ≠ some leaseID ∧
      ∀ j, ((s.run stamp encode options (action :: actions)).sessions j).phase.leaseID =
        some leaseID → ∀ act : Action ι, act.relay = some j →
          later ∈ ((s.run stamp encode options (action :: actions)).step stamp encode options
            act).rows
  /-- While no counter is at its cap, no statement is refused. -/
  accepted : (∀ row ∈ s.rows, row.publishAttempts < OutboxRow.maximumPublishAttempts) →
    (∀ i leaseID now, (s.sessions i).phase = .claiming leaseID now → ∀ locked locked',
      ∃ result, MeteringOutbox.claim (options i) leaseID (stamp now)
        (stamp (now + (options i).leaseDuration)) locked locked' s.rows = some result) ∧
    ∀ i leaseID event acknowledged transitionAt todo,
      (s.sessions i).phase = .marking leaseID event acknowledged transitionAt todo →
      ∃ result, transition stamp (options i) leaseID event acknowledged transitionAt s.rows =
        some result

theorem RowSound.leased_iff (h : RowSound row) : row.leaseID.isSome ↔ row.status = .publishing := by
  have hlife := h.relay.2.2.2.2
  cases hstat : row.status <;> simp_all [OutboxRow.lifecycleValid]

def sampleActions : List (Action Bool) :=
  [.insert sampleEvent 5000,.wake false 6001 "a",.claim false [] [] .answered,
    .wake true 20000000000 "b",.claim true [] [] .answered,.publish true true false 20000000500,
    .mark true .answered,.publish false true false 7000,.mark false .answered]

def sampleSystem : System Bool String :=
  run toMicrosecond (fun _ e => some e.eventID) (fun _ => defaultOptions)
    ⟨[],fun _ => ⟨0,.idle⟩,[],[]⟩ sampleActions

def briefOptions : Options := { defaultOptions with leaseDuration := 400, publishTimeout := 1 }

def briefSystem : System Bool String :=
  run toMicrosecond (fun _ e => some e.eventID) (fun _ => briefOptions)
    ⟨[],fun _ => ⟨0,.idle⟩,[],[]⟩ [.insert sampleEvent 5000,.wake false 6001 "a"]

end MeteringOutbox
