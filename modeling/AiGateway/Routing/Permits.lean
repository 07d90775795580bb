import AiGateway.Routing.Effects

/-! A permit acts on the period in which it was issued and on no other, as long as no record goes
while a permit of one of its earlier periods is out, and no generation is used twice. -/
namespace Routing
open Machine List

/-- The permit has its slot in the record of the deployment, issued in this period. -/
def Permit.countedIn (d : String) (period : ℕ) (p : Permit) : Bool :=
  p.deploymentID = d && p.period = period && !p.released

/-- What ties the permits of a deployment to its record. -/
structure Bound (d : String) (v : View) (permits : List Permit) : Prop where
  finished : ∀ p ∈ permits, p.deploymentID = d → p.released → p.completed
  past : ∀ p ∈ permits, p.deploymentID = d → p.period ≤ v.period
  absent : v.record = none →
    ∀ p ∈ permits, p.deploymentID = d → p.completed ∧ p.period < v.period
  current : ∀ r, v.record = some r → ∀ p ∈ permits, p.deploymentID = d →
    p.period = v.period → p.generation = r.generation
  stale : ∀ r, v.record = some r → ∀ p ∈ permits, p.deploymentID = d → p.completed = false →
    p.period < v.period → p.generation < r.generation
  counted : ∀ r, v.record = some r → r.inFlight = permits.countP (Permit.countedIn d v.period)
  idle : ∀ r, v.record = some r → r.state = .open →
    ∀ p ∈ permits, p.deploymentID = d → p.period < v.period

section
variable {d : String} {v : View} {permits permits' : List Permit} {r r' : CircuitRecord}
  {n i : ℕ} {e e' : List CircuitOutcome} {p q : Permit}

theorem bound_nil (h : v.record = none) : Bound d v [] := by
  constructor <;> simp [h]

section
variable (h : Bound d v permits)
include h

/-- An outstanding permit of the record's generation is one of the present period. -/
theorem Bound.present (hr : v.record = some r) (hp : p ∈ permits) (hd : p.deploymentID = d)
    (hfresh : p.completed = false) (hgener : r.generation = p.generation) :
    p.period = v.period := by
  by_contra hne
  have hlt := h.stale r hr p hp hd hfresh (lt_of_le_of_ne (h.past p hp hd) hne)
  omega

section
variable (hp : p ∈ permits) (hd : p.deploymentID = d) (hfresh : p.completed = false)
include hp hd hfresh

theorem Bound.not_released : p.released = false := by
  by_contra htrue
  rw [h.finished p hp hd (by simpa using htrue)] at hfresh
  cases hfresh

theorem Bound.countedIn (hper : p.period = v.period) : p.countedIn d v.period := by
  simp [Permit.countedIn,hd,hper,h.not_released hp hd hfresh]

end

theorem Bound.inFlight_pos (hr : v.record = some r) (hp : p ∈ permits)
    (hd : p.deploymentID = d) (hfresh : p.completed = false) (hper : p.period = v.period) :
    0 < r.inFlight := by
  rw [h.counted r hr,countP_pos_iff]
  exact ⟨p,hp,h.countedIn hp hd hfresh hper⟩

/-- A completion that the record does not match is one of an earlier period. -/
theorem Bound.earlier (hp : p ∈ permits) (hd : p.deploymentID = d) (hfresh : p.completed = false)
    (hr : ∀ r, v.record = some r → r.generation ≠ p.generation ∨ r.inFlight = 0) :
    p.period < v.period := by
  cases hrec : v.record with
  | none => exact (h.absent hrec p hp hd).2
  | some r =>
    apply lt_of_le_of_ne (h.past p hp hd)
    intro hper
    rcases hr r hrec with hne | hzero
    · exact hne (h.current r hrec p hp hd hper).symm
    · have hpos := h.inFlight_pos hrec hp hd hfresh hper
      omega

theorem Bound.not_open (hr : v.record = some r) (hp : p ∈ permits)
    (hd : p.deploymentID = d) (hper : p.period = v.period) : r.state ≠ .open := by
  intro hopen
  have hlt := h.idle r hr hopen p hp hd
  omega

end

/-! What the steps do to it. -/

theorem countedIn_deploymentID (h : p.countedIn d n) : p.deploymentID = d := by
  simp only [Permit.countedIn,Bool.and_eq_true,decide_eq_true_eq] at h
  exact h.1.1

theorem Bound.agree (h : Bound d v permits) (hperms : PermitsAgree d permits permits') :
    Bound d v permits' where
  finished p hp hd := h.finished p (hperms.mem p hp hd) hd
  past p hp hd := h.past p (hperms.mem p hp hd) hd
  absent hnone p hp hd := h.absent hnone p (hperms.mem p hp hd) hd
  current r hr p hp hd := h.current r hr p (hperms.mem p hp hd) hd
  stale r hr p hp hd := h.stale r hr p (hperms.mem p hp hd) hd
  counted r hr := by
    rw [h.counted r hr]
    exact (hperms.count _ fun _ => countedIn_deploymentID).symm
  idle r hr hopen p hp hd := h.idle r hr hopen p (hperms.mem p hp hd) hd

theorem Bound.touch (h : Bound d ⟨some r,n,e⟩ permits) (hstate : r'.state = r.state)
    (hgener : r'.generation = r.generation) (hinFlight : r'.inFlight = r.inFlight) :
    Bound d ⟨some r',n,e'⟩ permits where
  finished := h.finished
  past := h.past
  absent := by simp
  current := by
    rintro _ ⟨⟩ p hp hd hper
    exact (h.current r rfl p hp hd hper).trans hgener.symm
  stale := by
    rintro _ ⟨⟩ p hp hd hfresh hper
    exact (h.stale r rfl p hp hd hfresh hper).trans_eq hgener.symm
  counted := by
    rintro _ ⟨⟩
    exact hinFlight.trans (h.counted r rfl)
  idle := by
    rintro _ ⟨⟩ hopen
    exact h.idle r rfl (hstate.symm.trans hopen)

theorem countP_countedIn_eq_zero (h : ∀ p ∈ permits, p.deploymentID = d → p.period < n) :
    permits.countP (Permit.countedIn d n) = 0 := by
  rw [countP_eq_zero]
  intro p hp hcounted
  have hlt := h p hp (countedIn_deploymentID hcounted)
  simp only [Permit.countedIn,Bool.and_eq_true,decide_eq_true_eq] at hcounted
  omega

theorem Bound.turn (h : Bound d ⟨some r,n,e⟩ permits)
    (hgener : r'.generation = r.generation + 1) (hinFlight : r'.inFlight = 0) :
    Bound d ⟨some r',n + 1,e'⟩ permits := by
  have hpast : ∀ p ∈ permits, p.deploymentID = d → p.period < n + 1 := fun p hp hd =>
    Nat.lt_succ_of_le (h.past p hp hd)
  refine ⟨h.finished,fun p hp hd => (hpast p hp hd).le,by simp,?_,?_,?_,?_⟩
  · rintro _ ⟨⟩ p hp hd hper
    exact absurd hper (hpast p hp hd).ne
  · rintro _ ⟨⟩ p hp hd hfresh -
    rw [hgener,Nat.lt_succ_iff]
    rcases (h.past p hp hd).lt_or_eq with hlt | heq
    · exact (h.stale r rfl p hp hd hfresh hlt).le
    · exact (h.current r rfl p hp hd heq).le
  · rintro _ ⟨⟩
    rw [hinFlight,countP_countedIn_eq_zero hpast]
  · rintro _ ⟨⟩ -
    exact hpast

theorem Bound.issue (h : Bound d ⟨some r,n,e⟩ permits) (hopen : r.state ≠ .open)
    (hstate : r'.state = r.state) (hgener : r'.generation = r.generation)
    (hinFlight : r'.inFlight = r.inFlight + 1) :
    Bound d ⟨some r',n,e'⟩ (permits ++ [⟨d,r.generation,false,n,false⟩]) := by
  refine ⟨?_,?_,by simp,?_,?_,?_,?_⟩
  · intro p hp hd hrel
    rcases mem_append.mp hp with hp | hp
    · exact h.finished p hp hd hrel
    · rw [mem_singleton.mp hp] at hrel
      cases hrel
  · intro p hp hd
    rcases mem_append.mp hp with hp | hp
    · exact h.past p hp hd
    · rw [mem_singleton.mp hp]
  · rintro _ ⟨⟩ p hp hd hper
    rw [hgener]
    rcases mem_append.mp hp with hp | hp
    · exact h.current r rfl p hp hd hper
    · rw [mem_singleton.mp hp]
  · rintro _ ⟨⟩ p hp hd hfresh hper
    rw [hgener]
    rcases mem_append.mp hp with hp | hp
    · exact h.stale r rfl p hp hd hfresh hper
    · rw [mem_singleton.mp hp] at hper
      exact absurd hper (lt_irrefl n)
  · rintro _ ⟨⟩
    rw [hinFlight,h.counted r rfl,countP_append]
    simp [Permit.countedIn]
  · rintro _ ⟨⟩ hopen'
    exact absurd (hstate.symm.trans hopen') hopen

/-- A record comes; the permits of the records before it are all completed. -/
theorem Bound.create (h : Bound d ⟨none,n,e⟩ permits) (hinFlight : r.inFlight = 0) :
    Bound d ⟨some r,n + 1,e'⟩ permits := by
  have habsent := h.absent rfl
  have hpast : ∀ p ∈ permits, p.deploymentID = d → p.period < n + 1 := fun p hp hd =>
    (habsent p hp hd).2.trans (Nat.lt_succ_self n)
  refine ⟨h.finished,fun p hp hd => (hpast p hp hd).le,by simp,?_,?_,?_,?_⟩
  · rintro _ ⟨⟩ p hp hd hper
    exact absurd hper (hpast p hp hd).ne
  · rintro _ ⟨⟩ p hp hd hfresh -
    rw [(habsent p hp hd).1] at hfresh
    cases hfresh
  · rintro _ ⟨⟩
    rw [hinFlight,countP_countedIn_eq_zero hpast]
  · rintro _ ⟨⟩ -
    exact hpast

theorem Bound.completed_of_idle (h : Bound d v permits) (hr : v.record = some r)
    (hidle : r.inFlight = 0) (hp : p ∈ permits) (hd : p.deploymentID = d)
    (hper : p.period = v.period) : p.completed := by
  by_contra hfresh
  have hpos := h.inFlight_pos hr hp hd (by simpa using hfresh) hper
  omega

theorem Bound.evict (h : Bound d ⟨some r,n,e⟩ permits)
    (hcompl : ∀ p ∈ permits, p.deploymentID = d → p.completed) :
    Bound d ⟨none,n + 1,e'⟩ permits := by
  have hpast : ∀ p ∈ permits, p.deploymentID = d → p.period < n + 1 := fun p hp hd =>
    Nat.lt_succ_of_le (h.past p hp hd)
  exact ⟨h.finished,fun p hp hd => (hpast p hp hd).le,
    fun _ p hp hd => ⟨hcompl p hp hd,hpast p hp hd⟩,by simp,by simp,by simp,by simp⟩

theorem Bound.spend {record record' : Option CircuitRecord}
    (h : Bound d ⟨record,n,e⟩ permits) (hi : permits[i]? = some p)
    (hq : q = { p with completed := true, released := q.released })
    (hrec : ∀ r', record' = some r' →
      ∃ r, record = some r ∧ r'.state = r.state ∧ r'.generation = r.generation)
    (hnone : record' = none → record = none)
    (hcounted : ∀ r', record' = some r' →
      r'.inFlight = (permits.set i q).countP (Permit.countedIn d n)) :
    Bound d ⟨record',n,e'⟩ (permits.set i q) := by
  -- a permit after the step is one from before it, up to its marks
  have hmem : ∀ p' ∈ permits.set i q, ∃ p₀ ∈ permits, p'.deploymentID = p₀.deploymentID ∧
      p'.generation = p₀.generation ∧ p'.period = p₀.period ∧
      (p'.completed ∨ p' = p₀) := by
    intro p' hp'
    rcases mem_or_eq_of_mem_set hp' with hp' | rfl
    · exact ⟨p',hp',rfl,rfl,rfl,.inr rfl⟩
    · refine ⟨p,mem_of_getElem? hi,?_⟩
      rw [hq]
      exact ⟨rfl,rfl,rfl,.inl rfl⟩
  refine ⟨?_,?_,?_,?_,?_,hcounted,?_⟩
  · intro p' hp' hd hrel
    obtain ⟨p₀,hp₀,-,-,-,hcompl | rfl⟩ := hmem p' hp'
    · exact hcompl
    · exact h.finished p' hp₀ hd hrel
  · intro p' hp' hd
    obtain ⟨p₀,hp₀,hid,-,hper,-⟩ := hmem p' hp'
    rw [hper]
    exact h.past p₀ hp₀ (hid.symm.trans hd)
  · intro hrec' p' hp' hd
    obtain ⟨p₀,hp₀,hid,-,hper,hcompl⟩ := hmem p' hp'
    obtain ⟨hcompl₀,hlt⟩ := h.absent (hnone hrec') p₀ hp₀ (hid.symm.trans hd)
    rw [hper]
    rcases hcompl with hcompl | rfl
    · exact ⟨hcompl,hlt⟩
    · exact ⟨hcompl₀,hlt⟩
  · intro r' hr' p' hp' hd hpresent
    obtain ⟨r,hr,-,hgener⟩ := hrec r' hr'
    obtain ⟨p₀,hp₀,hid,hgen,hper,-⟩ := hmem p' hp'
    rw [hgener,hgen]
    exact h.current r hr p₀ hp₀ (hid.symm.trans hd) (hper.symm.trans hpresent)
  · intro r' hr' p' hp' hd hfresh hlt
    obtain ⟨r,hr,-,hgener⟩ := hrec r' hr'
    obtain ⟨p₀,hp₀,-,-,-,hcompl | rfl⟩ := hmem p' hp'
    · rw [hcompl] at hfresh
      cases hfresh
    · rw [hgener]
      exact h.stale r hr p' hp₀ hd hfresh hlt
  · intro r' hr' hopen p' hp' hd
    obtain ⟨r,hr,hstate,-⟩ := hrec r' hr'
    obtain ⟨p₀,hp₀,hid,-,hper,-⟩ := hmem p' hp'
    rw [hper]
    exact h.idle r hr (hstate.symm.trans hopen) p₀ hp₀ (hid.symm.trans hd)

/-- A permit is spent that keeps its slot, or never had one in this period. -/
theorem Bound.spend_same (h : Bound d v permits) (hi : permits[i]? = some p)
    (hq : q = { p with completed := true, released := q.released })
    (hsame : q.countedIn d v.period = p.countedIn d v.period) :
    Bound d ⟨v.record,v.period,e'⟩ (permits.set i q) := by
  apply h.spend hi hq (fun r hr => ⟨r,hr,rfl,rfl⟩) id
  intro r hr
  obtain ⟨hlt,hget⟩ := List.getElem?_eq_some_iff.mp hi
  rw [h.counted r hr,List.countP_set hlt,hget,hsame]
  split_ifs with hp
  · have hpos : 0 < permits.countP (Permit.countedIn d v.period) :=
      countP_pos_iff.mpr ⟨p,mem_of_getElem? hi,hp⟩
    omega
  · rfl

theorem Bound.release (h : Bound d ⟨some r,n,e⟩ permits) (hi : permits[i]? = some p)
    (hd : p.deploymentID = d) (hfresh : p.completed = false) (hper : p.period = n)
    (hstate : r'.state = r.state) (hgener : r'.generation = r.generation)
    (hinFlight : r'.inFlight = r.inFlight - 1) :
    Bound d ⟨some r',n,e'⟩ (permits.set i p.finish) := by
  apply h.spend hi rfl
  · rintro _ ⟨⟩
    exact ⟨r,rfl,hstate,hgener⟩
  · rintro ⟨⟩
  · rintro _ ⟨⟩
    obtain ⟨hlt,hget⟩ := List.getElem?_eq_some_iff.mp hi
    have hcounted := h.countedIn (List.mem_of_getElem? hi) hd hfresh hper
    rw [hinFlight,h.counted r rfl,List.countP_set hlt,hget,if_pos hcounted,if_neg]
    · rfl
    · simp [Permit.countedIn,Permit.finish]

end

/-! Completions of one record. -/

section
variable {options : CircuitOptions} {now : Time} {outcome : CircuitOutcome} {r : CircuitRecord}

section
variable (h : (r.complete options now outcome).state ≠ r.state)
include h

theorem complete_turns : ∃ r₀ : CircuitRecord, r₀.generation = r.generation ∧
      (r.complete options now outcome = r₀.openCircuit options.openDuration now ∨
        r.complete options now outcome = r₀.closeCircuit now) := by
  unfold CircuitRecord.complete at h ⊢
  cases outcome <;> cases hstate : r.state <;> simp only [hstate,ne_eq,not_true] at h ⊢
  case succeeded.halfOpen =>
    split_ifs at h ⊢ with hthresh
    · refine ⟨_,?_,.inr rfl⟩
      rfl
    · exact absurd rfl h
  case failed.closed =>
    split_ifs at h ⊢ with hthresh
    · refine ⟨_,?_,.inl rfl⟩
      rfl
    · exact absurd rfl h
  case failed.halfOpen =>
    refine ⟨_,?_,.inl rfl⟩
    rfl

theorem complete_turned :
    (r.complete options now outcome).generation = saturatingIncrement r.generation ∧
      (r.complete options now outcome).inFlight = 0 := by
  obtain ⟨r₀,hgener,hopened | hclosed⟩ := complete_turns h
  · rw [hopened,← hgener]
    exact ⟨rfl,rfl⟩
  · rw [hclosed,← hgener]
    exact ⟨rfl,rfl⟩

end

theorem complete_kept (h : (r.complete options now outcome).state = r.state) :
    (r.complete options now outcome).generation = r.generation ∧
      (r.complete options now outcome).inFlight = r.inFlight - 1 := by
  unfold CircuitRecord.complete at h ⊢
  cases outcome <;> cases hstate : r.state <;> simp only [hstate,and_self] at h ⊢
  case succeeded.halfOpen =>
    split_ifs at h ⊢ with hthresh
    · cases h
    · exact ⟨rfl,rfl⟩
  case failed.closed =>
    split_ifs at h ⊢ with hthresh
    · cases h
    · exact ⟨rfl,rfl⟩
  case failed.halfOpen => cases h

end

/-! Runs. -/

/-- The call takes the record of the deployment away. -/
def Evicts (w : World) (op : Op) (d : String) : Prop :=
  (w.record d).isSome ∧ (w.step op).1.record d = none

/-- The call changes the state of the record, whose generation cannot grow any more. -/
def Saturates (w : World) (op : Op) (d : String) : Prop :=
  ∃ r r', w.record d = some r ∧ (w.step op).1.record d = some r' ∧ r'.state ≠ r.state ∧
    maxU64 ≤ r.generation

/-- No permit of an earlier period is out when the record goes, and no generation is used twice. -/
structure Careful (d : String) (w : World) (op : Op) : Prop where
  evicts : Evicts w op d → ∀ p ∈ w.permits, p.deploymentID = d → p.period < w.period d →
    p.completed
  saturates : ¬Saturates w op d

variable {d : String} {w : World} {op : Op}

theorem record_of_view {v : View} (h : w.view d = v) : w.record d = v.record :=
  congrArg View.record h

theorem Careful.generation (h : Careful d w op) {r r' : CircuitRecord} (hr : w.record d = some r)
    (hr' : (w.step op).1.record d = some r') (hstate : r'.state ≠ r.state) :
    saturatingIncrement r.generation = r.generation + 1 := by
  apply if_neg
  intro hmax
  exact h.saturates ⟨r,r',hr,hr',hstate,hmax.ge⟩

theorem advanceOpen_generation {r : CircuitRecord} {now : Time} (hdue : r.Due now) :
    (r.advanceOpen now).generation = saturatingIncrement r.generation ∧
      (r.advanceOpen now).inFlight = 0 ∧ (r.advanceOpen now).state = .halfOpen := by
  rw [advanceOpen_of_due hdue]
  exact ⟨rfl,rfl,rfl⟩

theorem Evicts.idle (h : Evicts w op d) : ∃ r, w.record d = some r ∧ r.inFlight = 0 := by
  obtain ⟨hsome,hnone⟩ := h
  cases step_effect w op d with
  | evicted r hr hclosed hidle hview hperms => exact ⟨r,hr,hidle⟩
  | idle hview hperms =>
    rw [record_of_view hview,show (w.view d).record = w.record d from rfl] at hnone
    simp [hnone] at hsome
  | lost now i p outcome hop hzero hview hperms =>
    rw [record_of_view hview,show (w.view d).record = w.record d from rfl] at hnone
    simp [hnone] at hsome
  | stale now i p outcome hop hr hview hperms =>
    rw [record_of_view hview] at hnone
    simp only at hnone
    simp [hnone] at hsome
  | touched r r' hr hsame hview hperms => cases (record_of_view hview).symm.trans hnone
  | advanced r r' hr hdue hsame hview hperms => cases (record_of_view hview).symm.trans hnone
  | granted r r' hr hgrants hsame hview hperms => cases (record_of_view hview).symm.trans hnone
  | probed r r' hr hdue hgrants hsame hview hperms =>
    cases (record_of_view hview).symm.trans hnone
  | created r' hid hr hsame hview hperms => cases (record_of_view hview).symm.trans hnone
  | completed now i p outcome r hop hclock hr hgener hpos hview hperms =>
    split_ifs at hview
    · cases (record_of_view hview).symm.trans hnone
    · cases (record_of_view hview).symm.trans hnone

section
variable (h : Bound d (w.view d) w.permits) (hcareful : Careful d w op)
include h hcareful

theorem Bound.completed_of_evicts (hevicts : Evicts w op d) :
    ∀ p ∈ w.permits, p.deploymentID = d → p.completed := by
  intro p hp hd
  obtain ⟨r,hr,hidle⟩ := hevicts.idle
  rcases (h.past p hp hd).lt_or_eq with hlt | heq
  · exact hcareful.evicts hevicts p hp hd hlt
  · exact h.completed_of_idle hr hidle hp hd heq

theorem step_bound : Bound d ((w.step op).1.view d) (w.step op).1.permits := by
  have hsome {r : CircuitRecord} (hr : w.record d = some r) :
      Bound d ⟨some r,w.period d,w.evidence d⟩ w.permits := by
    rw [← hr]
    exact h
  cases step_effect w op d with
  | idle hview hperms =>
    rw [hview]
    exact h.agree hperms
  | touched r r' hr hsame hview hperms =>
    rw [hview,hperms]
    exact (hsome hr).touch hsame.state hsame.generation hsame.inFlight
  | advanced r r' hr hdue hsame hview hperms =>
    obtain ⟨hgener,hinFlight,hstate⟩ := advanceOpen_generation hdue
    have hnext := hcareful.generation hr (record_of_view hview)
      (by rw [hsame.state,hstate,hdue.1]; decide)
    rw [hview,hperms]
    exact (hsome hr).turn (by rw [hsame.generation,hgener,hnext])
      (hsame.inFlight.trans hinFlight)
  | granted r r' hr hgrants hsame hview hperms =>
    rw [hview,hperms]
    exact (hsome hr).issue hgrants.notOpen hsame.state hsame.generation hsame.inFlight
  | probed r r' hr hdue hgrants hsame hview hperms =>
    obtain ⟨hgener,hinFlight,hstate⟩ := advanceOpen_generation hdue
    have hnext := hcareful.generation hr (record_of_view hview)
      (by rw [hsame.state]; show (r.advanceOpen op.now).state ≠ _; rw [hstate,hdue.1]; decide)
    rw [hview,hperms]
    have hturn : Bound d ⟨some (r.advanceOpen op.now),w.period d + 1,[]⟩ w.permits :=
      (hsome hr).turn (hgener.trans hnext) hinFlight
    exact hturn.issue hgrants.notOpen hsame.state hsame.generation
      (by rw [hsame.inFlight,hinFlight])
  | created r' hid hr hsame hview hperms =>
    rw [hview,hperms]
    have hnone : Bound d ⟨none,w.period d,w.evidence d⟩ w.permits := by
      rw [← hr]
      exact h
    have hcreate : Bound d ⟨some (newRecord op.now),w.period d + 1,[]⟩ w.permits :=
      hnone.create rfl
    exact hcreate.issue (by simp [newRecord]) hsame.state hsame.generation hsame.inFlight
  | evicted r hr hclosed hidle hview hperms =>
    rw [hview]
    apply Bound.agree _ hperms
    exact (hsome hr).evict (h.completed_of_evicts hcareful ⟨by simp [hr],record_of_view hview⟩)
  | lost now i p outcome hop hzero hview hperms =>
    rw [hview,hperms]
    exact h.spend_same hop.permit rfl rfl
  | stale now i p outcome hop hr hview hperms =>
    rw [hview,hperms]
    have hlt := h.earlier (mem_of_getElem? hop.permit) hop.deployment hop.fresh hr
    apply h.spend_same hop.permit rfl
    simp [Permit.countedIn,Permit.finish,hlt.ne]
  | completed now i p outcome r hop hclock hr hgener hpos hview hperms =>
    have hper := h.present hr (mem_of_getElem? hop.permit) hop.deployment hop.fresh hgener
    have hrelease : Bound d ⟨some { r with inFlight := r.inFlight - 1 },w.period d,w.evidence d⟩
        (w.permits.set i p.finish) :=
      (hsome hr).release hop.permit hop.deployment hop.fresh hper rfl rfl rfl
    rw [hview,hperms]
    split_ifs at hview ⊢ with hstate
    · obtain ⟨hsame,hinFlight⟩ := complete_kept hstate
      exact hrelease.touch hstate hsame hinFlight
    · obtain ⟨hnew,hinFlight⟩ := complete_turned hstate
      have hnext := hcareful.generation hr (record_of_view hview) hstate
      exact hrelease.turn (hnew.trans hnext) hinFlight

end

theorem reaches_bound (h : Reaches (Careful d) w) : Bound d (w.view d) w.permits := by
  induction h with
  | start options breaker h =>
    apply bound_nil
    unfold newCircuitBreaker at h
    split at h
    · cases h
    · cases h
      rfl
  | step h op hop ih => exact step_bound ih hop

end Routing
