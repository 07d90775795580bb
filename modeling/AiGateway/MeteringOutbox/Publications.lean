import AiGateway.MeteringOutbox.Delivery

/-! What the relays publish: the facts of rows that are or were in the table. -/
namespace MeteringOutbox
open Machine Adapter Metering UsageEvent List

variable {ι π : Type} {stamp : Time → Time} {encode : ι → UsageEvent → Option π}
  {options : ι → Options} {known : Set UsageEvent} {s s' : System ι π}

/-- The event with its time at the precision of the table. -/
def stored (stamp : Time → Time) (event : UsageEvent) : UsageEvent :=
  { event with observedAt := stamp event.observedAt }

variable {event : UsageEvent}

theorem scan_inserted (h : event.validate) (storedAt : Time) :
    (scan (OutboxRow.inserted event storedAt)).event = { event with observedAt := storedAt } := by
  simp only [validate,Bool.and_eq_true,Bool.or_eq_true,decide_eq_true_eq] at h
  have hver : event.schemaVersion = usageEventSchemaVersionV1 ∨
      event.schemaVersion = usageEventSchemaVersion := h.1.1.1.1.1.1.1.1
  have hest := h.2
  unfold estimateValid at hest
  cases hevent : event.estimate with
  | none => simp [scan,OutboxRow.inserted,hevent]
  | some metadata =>
    split at hest
    · simp [hevent] at hest
    · rename_i hfirst
      split at hest
      · rename_i hsrc
        simp only [hevent,Option.map_some,Option.getD_some,passes_iff] at hest
        have hall := firstFailure_eq_ok.mp hest
        simp only [UsageEstimateMetadata.checks,forall_mem_cons,Bool.not_eq_false'] at hall
        have hflag : ({ metadata with estimated := true } : UsageEstimateMetadata) = metadata := by
          rw [← hall.1]
        simp [scan,OutboxRow.inserted,hevent,hsrc,hver.resolve_left hfirst,hflag]
      · simp [hevent] at hest

theorem validate_stored {stamp : Time → Time} (h : event.validate)
    (htime : stamp event.observedAt ≠ zeroTime) : (stored stamp event).validate := by
  simp only [validate,UsageIdentity.validate,identity,Bool.and_eq_true,decide_eq_true_eq] at h ⊢
  obtain ⟨⟨⟨⟨⟨⟨⟨hids,hident⟩,htype⟩,hunit⟩,hleast⟩,hmost⟩,hkind⟩,hest⟩ := h
  exact ⟨⟨⟨⟨⟨⟨⟨hids,hident.1,decide_eq_true htime⟩,htype⟩,hunit⟩,hleast⟩,hmost⟩,hkind⟩,hest⟩

/-- The claimed events that a relay still has to publish or to mark. -/
def Phase.events : Phase → List ClaimedEvent
  | .idle | .claiming _ _ => []
  | .working _ todo => todo
  | .marking _ event _ _ todo => event :: todo

variable (encode known s) in
/-- All events are known ones, from the table to the sink. -/
structure System.Scanned : Prop where
  rows : ∀ row ∈ s.rows, (scan row).event ∈ known
  sessions : ∀ i, ∀ e ∈ (s.sessions i).phase.events, e.event ∈ known
  log : ∀ p ∈ s.log, ∃ i, ∃ event ∈ known, p.eventID = event.eventID ∧
    encode i event = some p.payload

theorem System.Scanned.mono {known' : Set UsageEvent} (hknown : known ⊆ known')
    (hs : s.Scanned encode known) : s.Scanned encode known' := by
  refine ⟨fun row hrow => hknown (hs.rows row hrow),fun i e he => hknown (hs.sessions i e he),?_⟩
  intro p hp
  obtain ⟨i,event,hevent,hfacts⟩ := hs.log p hp
  exact ⟨i,event,hknown hevent,hfacts⟩

variable [DecidableEq ι]

theorem System.Scanned.turn (hs : s.Scanned encode known) (h : s.Turn encode stamp s')
    (hrows : ∀ row ∈ s'.rows, (scan row).event ∈ known) : s'.Scanned encode known := by
  -- the relay that moves has known events, and the others are as before
  have hsessions : ∀ (i : ι) (session : Session), (∀ e ∈ session.phase.events, e.event ∈ known) →
      ∀ j, ∀ e ∈ (Function.update s.sessions i session j).phase.events, e.event ∈ known := by
    intro i session hsess j e he
    by_cases hj : j = i
    · rw [hj,Function.update_self] at he
      exact hsess e he
    · rw [Function.update_of_ne hj] at he
      exact hs.sessions j e he
  cases h with
  | same => exact hs
  | inserted event storedAt hvalid hfresh hchecks => exact ⟨hrows,hs.sessions,hs.log⟩
  | woken i now leaseID hphase hfresh =>
    exact ⟨hrows,hsessions i _ (fun e he => nomatch he),hs.log⟩
  | stopped i => exact ⟨hrows,hsessions i _ (fun e he => nomatch he),hs.log⟩
  | claimed i leaseID now events g answered hphase hmoved hevents =>
    refine ⟨hrows,hsessions i _ ?_,hs.log⟩
    cases answered with
    | true =>
      intro e he
      obtain ⟨row,hrow,hscan⟩ := hevents e he
      exact hscan ▸ hs.rows row hrow
    | false => exact fun e he => nomatch he
  | published i leaseID event todo payload acknowledged cancelled now hphase hpayload hclock =>
    have hown := hs.sessions i
    rw [hphase] at hown
    refine ⟨hrows,?_,?_⟩
    · apply hsessions i
      cases cancelled with
      | true => exact fun e he => nomatch he
      | false => exact hown
    · rw [forall_mem_append]
      refine ⟨hs.log,forall_mem_singleton.mpr ?_⟩
      exact ⟨i,event.event,hown event mem_cons_self,rfl,hpayload⟩
  | marked i leaseID event acknowledged transitionAt todo g goesOn hphase hmoved =>
    refine ⟨hrows,hsessions i _ ?_,hs.log⟩
    have hown := hs.sessions i
    rw [hphase] at hown
    cases goesOn with
    | true => exact fun e he => hown e (mem_cons_of_mem _ he)
    | false => exact fun e he => nomatch he

variable {action : Action ι}
variable (stamp encode options s) in
theorem System.step_rows {i : ι} (hrelay : action.relay = some i) :
    ∃ g : OutboxRow → OutboxRow, (s.step stamp encode options action).rows = s.rows.map g ∧
      ∀ row ∈ s.rows, Kept row (g row) := by
  have hsame : ∀ rows, rows = s.rows →
      ∃ g : OutboxRow → OutboxRow, rows = s.rows.map g ∧ ∀ row ∈ s.rows, Kept row (g row) := by
    intro rows hrows
    exact ⟨id,by rw [hrows,map_id],fun row _ => .refl row⟩
  cases action with
  | insert event storedAt => cases hrelay
  | wake j now leaseID =>
    apply hsame
    show (s.wake j now leaseID).rows = s.rows
    unfold System.wake
    split
    · split_ifs <;> rfl
    · rfl
  | claim j locked locked' reply =>
    show ∃ g, (s.claim stamp options j locked locked' reply).rows = _ ∧ _
    unfold System.claim
    split
    · split
      · exact hsame _ rfl
      · split
        · exact hsame _ rfl
        · rename_i rows events hclaim
          obtain ⟨⟨g,rfl,hmoved⟩,-⟩ := claim_effect hclaim
          exact ⟨g,rfl,fun row hrow => (hmoved row hrow).1.kept⟩
    · exact hsame _ rfl
  | publish j acknowledged cancelled now =>
    exact hsame _ (s.publish_rows j acknowledged cancelled now)
  | mark j reply =>
    show ∃ g, (s.mark stamp options j reply).rows = _ ∧ _
    unfold System.mark
    split
    · split
      · exact hsame _ rfl
      · split
        · exact hsame _ rfl
        · rename_i rows updated htrans
          obtain ⟨g,rfl,hmoved⟩ := transition_effect htrans
          exact ⟨g,rfl,fun row hrow => (hmoved row hrow).1.kept⟩
    · exact hsame _ rfl
  | crash j => exact hsame _ rfl

theorem System.Scanned.step (hs : s.Scanned encode known) {i : ι} (hrelay : action.relay = some i) :
    (s.step stamp encode options action).Scanned encode known := by
  apply hs.turn (System.turn_step action)
  obtain ⟨g,hrows,hkept⟩ := s.step_rows stamp encode options hrelay
  rw [hrows]
  intro row hrow
  obtain ⟨old,hold,rfl⟩ := mem_map.mp hrow
  have hscan : (scan (g old)).event = (scan old).event := by
    rw [scan,scan,(hkept old hold).event]
  exact hscan ▸ hs.rows old hold

end MeteringOutbox
