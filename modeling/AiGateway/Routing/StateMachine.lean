import AiGateway.Routing.Generations

/-! The circuit of a deployment as a state machine over the history of its permits
(`docs/architecture/circuit-breaker.md`). -/
namespace Routing
open Text Machine CircuitRecord List Permit

/-- The last outcomes are failures, as many as asked for; the latest comes first. -/
def failingStreak (threshold : ℕ) (evidence : List CircuitOutcome) : Bool :=
  evidence.take threshold = replicate threshold .failed

def leadingFailures (evidence : List CircuitOutcome) : ℕ :=
  (evidence.takeWhile (· = .failed)).length

theorem take_eq_replicate_iff {α : Type*} [DecidableEq α] (a : α) (n : ℕ) (l : List α) :
    l.take n = replicate n a ↔ n ≤ (l.takeWhile (· = a)).length := by
  induction n generalizing l with
  | zero => simp
  | succ n ih =>
    cases l with
    | nil => simp [replicate_succ]
    | cons b l =>
      by_cases hb : b = a
      · simp [replicate_succ,hb,ih]
      · simp [replicate_succ,hb]

theorem failingStreak_iff {threshold : ℕ} {evidence : List CircuitOutcome} :
    failingStreak threshold evidence ↔ threshold ≤ leadingFailures evidence := by
  simp only [failingStreak,decide_eq_true_eq]
  exact take_eq_replicate_iff _ _ _

/-! The counters of the record say what the evidence says. -/

structure Evident (options : CircuitOptions) (d : String) (v : View) : Prop where
  id : v.record.isSome → isUUID d
  closed : ∀ r, v.record = some r → r.state = .closed →
    r.consecutiveFailures = leadingFailures v.evidence ∧
      r.consecutiveFailures < options.failureThreshold
  waiting : ∀ r, v.record = some r → r.state = .open → r.retryAt = r.openedAt + options.openDuration
  successes : ∀ r, v.record = some r → r.state = .halfOpen →
    (∀ outcome ∈ v.evidence, outcome = .succeeded) ∧ r.halfOpenSuccesses = v.evidence.length ∧
      r.halfOpenSuccesses < options.halfOpenSuccessThreshold
  probes : ∀ r, v.record = some r → r.state = .halfOpen → r.inFlight ≤ options.halfOpenMaximumProbes

variable {outcome : CircuitOutcome}

section
variable {options : CircuitOptions} {d : String} {r r' : CircuitRecord} {n n' : ℕ}
  {e : List CircuitOutcome} {now : Time}

theorem evident_none : Evident options d ⟨none,n,e⟩ := by
  constructor <;> simp

theorem Evident.keep (h : Evident options d ⟨some r,n,e⟩) (hstate : r'.state = r.state)
    (hfails : r'.consecutiveFailures = r.consecutiveFailures)
    (hsuccesses : r'.halfOpenSuccesses = r.halfOpenSuccesses) (hopened : r'.openedAt = r.openedAt)
    (hretry : r'.retryAt = r.retryAt)
    (hprobes : r.state = .halfOpen → r'.inFlight ≤ options.halfOpenMaximumProbes) :
    Evident options d ⟨some r',n',e⟩ where
  id _ := h.id rfl
  closed := by
    rintro _ ⟨⟩ hclosed
    rw [hfails]
    exact h.closed r rfl (hstate.symm.trans hclosed)
  waiting := by
    rintro _ ⟨⟩ hopen
    rw [hretry,hopened]
    exact h.waiting r rfl (hstate.symm.trans hopen)
  successes := by
    rintro _ ⟨⟩ hhalf
    rw [hsuccesses]
    exact h.successes r rfl (hstate.symm.trans hhalf)
  probes := by
    rintro _ ⟨⟩ hhalf
    exact hprobes (hstate.symm.trans hhalf)

theorem Evident.touch (h : Evident options d ⟨some r,n,e⟩) (hsame : SameDecisions r r') :
    Evident options d ⟨some r',n',e⟩ := by
  apply h.keep hsame.state hsame.consecutiveFailures hsame.halfOpenSuccesses hsame.openedAt
    hsame.retryAt
  intro hhalf
  rw [hsame.inFlight]
  exact h.probes r rfl hhalf

/-- What validated options say. -/
structure CircuitOptions.Valid (options : CircuitOptions) : Prop where
  failureThreshold : 2 ≤ options.failureThreshold ∧ options.failureThreshold ≤ 1000
  halfOpenMaximumProbes : 1 ≤ options.halfOpenMaximumProbes
  halfOpenSuccessThreshold :
    1 ≤ options.halfOpenSuccessThreshold ∧ options.halfOpenSuccessThreshold ≤ 1000

theorem valid_of_validate (h : options.validate = .ok ()) : options.Valid := by
  unfold CircuitOptions.validate at h
  split_ifs at h with hfail hduration hprobes hsuccess hdeps
  exact ⟨by omega,by omega,by omega⟩

theorem evident_closed (hopts : options.Valid) (hid : isUUID d)
    (hstate : r.state = .closed) (hfails : r.consecutiveFailures = 0) :
    Evident options d ⟨some r,n,[]⟩ := by
  have hpos := hopts.failureThreshold.1
  refine ⟨fun _ => hid,?_,?_,?_,?_⟩
  · rintro _ ⟨⟩ -
    rw [hfails]
    exact ⟨rfl,by omega⟩
  all_goals
    rintro _ ⟨⟩ h
    cases hstate.symm.trans h

theorem evident_open (hid : isUUID d) (hstate : r.state = .open)
    (hretry : r.retryAt = r.openedAt + options.openDuration) : Evident options d ⟨some r,n,[]⟩ := by
  refine ⟨fun _ => hid,?_,?_,?_,?_⟩
  case refine_2 =>
    rintro _ ⟨⟩ -
    exact hretry
  all_goals
    rintro _ ⟨⟩ h
    cases hstate.symm.trans h

theorem evident_halfOpen (hopts : options.Valid) (hid : isUUID d)
    (hstate : r.state = .halfOpen) (hsuccesses : r.halfOpenSuccesses = 0)
    (hprobes : r.inFlight ≤ options.halfOpenMaximumProbes) : Evident options d ⟨some r,n,[]⟩ := by
  refine ⟨fun _ => hid,?_,?_,?_,?_⟩
  case refine_3 =>
    rintro _ ⟨⟩ -
    rw [hsuccesses]
    exact ⟨by simp,rfl,hopts.halfOpenSuccessThreshold.1⟩
  case refine_4 =>
    rintro _ ⟨⟩ -
    exact hprobes
  all_goals
    rintro _ ⟨⟩ h
    cases hstate.symm.trans h

theorem circuitSaturatingIncrement32_of_lt {k : ℕ} (h : k < 1000) :
    circuitSaturatingIncrement32 k = k + 1 := by
  apply if_neg
  unfold maxU32
  omega

variable (now) in
theorem Evident.failed_opens (h : Evident options d ⟨some r,n,e⟩) (hopts : options.Valid)
    (hstate : r.state = .closed) : (r.complete options now .failed).state = .open ↔
      failingStreak options.failureThreshold (.failed :: e) := by
  obtain ⟨hfails,hlt⟩ := h.closed r rfl hstate
  have hstreak : leadingFailures (.failed :: e) = r.consecutiveFailures + 1 := by
    simp [leadingFailures,hfails]
  have hnext := circuitSaturatingIncrement32_of_lt (hlt.trans_le hopts.failureThreshold.2)
  rw [failingStreak_iff,hstreak]
  simp only [complete,hstate,hnext]
  split_ifs with hthresh
  · simpa [openCircuit] using hthresh
  · simpa using hthresh

variable (now) in
/-- A success in half-open closes the circuit just when it is the last one needed. -/
theorem Evident.succeeded_closes (h : Evident options d ⟨some r,n,e⟩) (hopts : options.Valid)
    (hstate : r.state = .halfOpen) : (r.complete options now .succeeded).state = .closed ↔
      e.length + 1 = options.halfOpenSuccessThreshold := by
  obtain ⟨-,hsuccesses,hlt⟩ := h.successes r rfl hstate
  have hlen : r.halfOpenSuccesses = e.length := hsuccesses
  have hnext := circuitSaturatingIncrement32_of_lt
    (hlt.trans_le hopts.halfOpenSuccessThreshold.2)
  simp only [complete,hstate,hnext]
  split_ifs with hthresh
  · simp only [closeCircuit,true_iff]
    omega
  · simp only [false_iff]
    omega

theorem Evident.turned (h : Evident options d ⟨some r,n,e⟩)
    (hopts : options.Valid) (hstate : (r.complete options now outcome).state ≠ r.state) :
    Evident options d ⟨some (r.complete options now outcome),n',[]⟩ := by
  obtain ⟨r₀,-,hopened | hclosed⟩ := complete_turns hstate
  · rw [hopened]
    exact evident_open (h.id rfl) rfl rfl
  · rw [hclosed]
    exact evident_closed hopts (h.id rfl) rfl rfl

/-- The success or failure that a completion in the present period adds to the evidence. -/
def decisive : CircuitOutcome → List CircuitOutcome
  | .ignored => []
  | outcome => [outcome]

theorem Evident.kept (h : Evident options d ⟨some r,n,e⟩)
    (hopts : options.Valid) (hopen : r.state ≠ .open) (hvalid : World.isValid outcome)
    (hkept : (r.complete options now outcome).state = r.state) :
    Evident options d ⟨some (r.complete options now outcome),n',decisive outcome ++ e⟩ := by
  have hslots : r.state = .halfOpen → r.inFlight - 1 ≤ options.halfOpenMaximumProbes :=
    fun hhalf => (Nat.sub_le _ _).trans (h.probes r rfl hhalf)
  cases hstate : r.state with
  | «open» => exact absurd hstate hopen
  | closed =>
    obtain ⟨hfails,hlt⟩ := h.closed r rfl hstate
    have hnext := circuitSaturatingIncrement32_of_lt (hlt.trans_le hopts.failureThreshold.2)
    have hclosed : (r.complete options now outcome).state = .closed := hkept.trans hstate
    cases outcome with
    | other text => cases hvalid
    | ignored => exact h.keep hkept rfl rfl rfl rfl hslots
    | succeeded =>
      refine ⟨fun _ => h.id rfl,?_,?_,?_,?_⟩
      · rintro _ ⟨⟩ -
        have hzero : (r.complete options now .succeeded).consecutiveFailures = 0 := by
          simp [complete,hstate]
        rw [hzero]
        exact ⟨rfl,by omega⟩
      all_goals
        rintro _ ⟨⟩ hother
        cases hclosed.symm.trans hother
    | failed =>
      refine ⟨fun _ => h.id rfl,?_,?_,?_,?_⟩
      · rintro _ ⟨⟩ -
        have hbelow : ¬r.consecutiveFailures + 1 ≥ options.failureThreshold := by
          intro hthresh
          simp [complete,hstate,hnext,hthresh,openCircuit] at hclosed
        have hsucc : (r.complete options now .failed).consecutiveFailures =
            r.consecutiveFailures + 1 := by
          simp [complete,hstate,hnext,hbelow]
        rw [hsucc]
        exact ⟨by simp [leadingFailures,decisive,hfails],by omega⟩
      all_goals
        rintro _ ⟨⟩ hother
        cases hclosed.symm.trans hother
  | halfOpen =>
    obtain ⟨hall,hlen,hlt⟩ := h.successes r rfl hstate
    have hnext := circuitSaturatingIncrement32_of_lt
      (hlt.trans_le hopts.halfOpenSuccessThreshold.2)
    have hhalf : (r.complete options now outcome).state = .halfOpen := hkept.trans hstate
    cases outcome with
    | other text => cases hvalid
    | ignored => exact h.keep hkept rfl rfl rfl rfl hslots
    | failed => simp [complete,hstate,openCircuit] at hhalf
    | succeeded =>
      have hbelow : ¬r.halfOpenSuccesses + 1 ≥ options.halfOpenSuccessThreshold := by
        intro hthresh
        simp [complete,hstate,hnext,hthresh,closeCircuit] at hhalf
      have hcompl := complete_kept hkept
      have hsucc : (r.complete options now .succeeded).halfOpenSuccesses =
          r.halfOpenSuccesses + 1 := by
        simp [complete,hstate,hnext,hbelow]
      refine ⟨fun _ => h.id rfl,?_,?_,?_,?_⟩
      case refine_3 =>
        rintro _ ⟨⟩ -
        rw [hsucc]
        refine ⟨?_,by simpa [decisive] using hlen,by omega⟩
        intro outcome houtcome
        rcases mem_cons.mp houtcome with rfl | htail
        · rfl
        · exact hall outcome htail
      case refine_4 =>
        rintro _ ⟨⟩ -
        rw [hcompl.2]
        exact hslots hstate
      all_goals
        rintro _ ⟨⟩ hother
        cases hhalf.symm.trans hother

end

/-! Runs. -/

section
variable {d : String} {w : World} {op : Op}

/-- The record of the deployment stays, and its generation has room. -/
structure Undisturbed (d : String) (w : World) (op : Op) : Prop where
  evicts : ¬Evicts w op d
  saturates : ¬Saturates w op d

theorem Undisturbed.careful (h : Undisturbed d w op) : Careful d w op :=
  ⟨fun hevicts => absurd hevicts h.evicts,h.saturates⟩

theorem noted_present {p : Permit} (hd : p.deploymentID = d) (hper : p.period = w.period d)
    (outcome : CircuitOutcome) : w.noted p outcome d = decisive outcome := by
  cases outcome <;> simp [World.noted,decisive,hd,hper]

theorem noted_earlier {p : Permit} (hper : p.period < w.period d) (outcome : CircuitOutcome) :
    w.noted p outcome d = [] := if_neg fun h => hper.ne h.2.1

theorem step_evident (hbound : Bound d (w.view d) w.permits)
    (hopts : w.breaker.options.Valid) (h : Evident w.breaker.options d (w.view d)) :
    Evident w.breaker.options d ((w.step op).1.view d) := by
  have hsome {r : CircuitRecord} (hr : w.record d = some r) :
      Evident w.breaker.options d ⟨some r,w.period d,w.evidence d⟩ := by
    rw [← hr]
    exact h
  cases step_effect w op d with
  | idle hview hperms =>
    rw [hview]
    exact h
  | touched r r' hr hsame hview hperms =>
    rw [hview]
    exact (hsome hr).touch hsame
  | advanced r r' hr hdue hsame hview hperms =>
    rw [hview]
    rw [advanceOpen_of_due hdue] at hsame
    apply evident_halfOpen hopts ((hsome hr).id rfl) hsame.state hsame.halfOpenSuccesses
    rw [hsame.inFlight]
    exact Nat.zero_le _
  | granted r r' hr hgrants hsame hview hperms =>
    rw [hview]
    apply (hsome hr).keep hsame.state hsame.consecutiveFailures hsame.halfOpenSuccesses
      hsame.openedAt hsame.retryAt
    intro hhalf
    rw [hsame.inFlight]
    exact hgrants.probes hhalf
  | probed r r' hr hdue hgrants hsame hview hperms =>
    rw [hview]
    rw [advanceOpen_of_due hdue] at hsame
    apply evident_halfOpen hopts ((hsome hr).id rfl) hsame.state hsame.halfOpenSuccesses
    rw [hsame.inFlight]
    exact hopts.halfOpenMaximumProbes
  | created r' hid hr hsame hview hperms =>
    rw [hview]
    exact evident_closed hopts hid hsame.state hsame.consecutiveFailures
  | evicted r hr hclosed hidle hview hperms =>
    rw [hview]
    exact evident_none
  | lost now i p outcome hop hzero hview hperms =>
    rw [hview]
    exact h
  | stale now i p outcome hop hr hview hperms =>
    have hlt := hbound.earlier (mem_of_getElem? hop.permit) hop.deployment hop.fresh hr
    rw [hview,noted_earlier hlt]
    exact h
  | completed now i p outcome r hop hclock hr hgen hpos hview hperms =>
    have hmem := mem_of_getElem? hop.permit
    have hper := hbound.present hr hmem hop.deployment hop.fresh hgen
    rw [hview,noted_present hop.deployment hper]
    split_ifs with hstate
    · exact (hsome hr).kept hopts (hbound.not_open hr hmem hop.deployment hper) hop.valid
        hstate
    · exact (hsome hr).turned hopts hstate

theorem Undisturbed.reaches_bound (h : Reaches (Undisturbed d) w) : Bound d (w.view d) w.permits :=
  Routing.reaches_bound (h.mono fun _ _ hop => hop.careful)

theorem reaches_evident (h : Reaches (Undisturbed d) w) :
    w.breaker.options.Valid ∧ Evident w.breaker.options d (w.view d) := by
  induction h with
  | start options breaker h =>
    unfold newCircuitBreaker at h
    split at h
    · cases h
    · rename_i hvalid
      cases h
      exact ⟨valid_of_validate hvalid,evident_none⟩
  | step h op hop ih =>
    rw [step_options]
    exact ⟨ih.1,step_evident (Undisturbed.reaches_bound h) ih.1 ih.2⟩

/-- The call completes a permit of the present period. -/
def Accepted (w : World) (d : String) (op : Op) (outcome : CircuitOutcome) : Prop :=
  ∃ now i p, Completes w d op now i p outcome ∧ now ≠ zeroTime ∧ p.period = w.period d

section
variable (hbound : Bound d (w.view d) w.permits)
include hbound

theorem step_accepted {r : CircuitRecord} (hid : isUUID d) (hr : w.record d = some r)
    (h : Accepted w d op outcome) :
    (w.step op).1.record d = some (r.complete w.breaker.options op.now outcome) := by
  obtain ⟨now,i,p,hop,hclock,hper⟩ := h
  obtain ⟨rfl,hi,hd,hfresh,hvalid⟩ := hop
  have hmem := mem_of_getElem? hi
  have hcur := hbound.current r hr p hmem hd hper
  have hpos := hbound.inFlight_pos hr hmem hd hfresh hper
  subst hd
  have hcompl : (w.breaker.complete now p.deploymentID p.generation outcome).1 =
      w.breaker.store p.deploymentID (r.complete w.breaker.options now outcome) := by
    unfold CircuitBreaker.complete
    rw [show w.breaker.deployments.lookup p.deploymentID = some r from hr]
    simp [hcur,hpos.ne']
  simp only [World.step,World.complete,hi,hid,hvalid,hfresh,if_neg hclock,
    Bool.true_eq_false,Bool.false_eq_true,if_false]
  show (w.breaker.complete now p.deploymentID p.generation outcome).1.find _ = _
  rw [hcompl,find_store,if_pos rfl]
  rfl

/-- A record keeps its state, half-opens, or takes the completion of a permit of the present
period. -/
theorem step_record {r r' : CircuitRecord} (hr : w.record d = some r)
    (hr' : (w.step op).1.record d = some r') :
    (r'.state = r.state ∧ r'.openedAt = r.openedAt) ∨ (r.Due op.now ∧ r'.state = .halfOpen) ∨
      ∃ outcome, Accepted w d op outcome ∧ r' = r.complete w.breaker.options op.now outcome := by
  have hnext {record : CircuitRecord} {period : ℕ} {evidence : List CircuitOutcome}
      (hview : (w.step op).1.view d = ⟨some record,period,evidence⟩) : r' = record :=
    Option.some.inj (hr'.symm.trans (record_of_view hview))
  have hsame (hview : (w.step op).1.view d = w.view d) : r' = r :=
    Option.some.inj (hr'.symm.trans ((record_of_view hview).trans hr))
  cases step_effect w op d with
  | idle hview hperms =>
    rw [hsame hview]
    exact .inl ⟨rfl,rfl⟩
  | lost now i p outcome hop hzero hview hperms =>
    rw [hsame hview]
    exact .inl ⟨rfl,rfl⟩
  | stale now i p outcome hop hgen hview hperms =>
    rw [hr] at hview
    rw [hnext hview]
    exact .inl ⟨rfl,rfl⟩
  | touched r₀ r₁ hr₀ hdecs hview hperms =>
    cases hr.symm.trans hr₀
    rw [hnext hview]
    exact .inl ⟨hdecs.state,hdecs.openedAt⟩
  | granted r₀ r₁ hr₀ hgrants hdecs hview hperms =>
    cases hr.symm.trans hr₀
    rw [hnext hview]
    exact .inl ⟨hdecs.state,hdecs.openedAt⟩
  | advanced r₀ r₁ hr₀ hdue hdecs hview hperms =>
    cases hr.symm.trans hr₀
    rw [advanceOpen_of_due hdue] at hdecs
    rw [hnext hview]
    exact .inr (.inl ⟨hdue,hdecs.state⟩)
  | probed r₀ r₁ hr₀ hdue hgrants hdecs hview hperms =>
    cases hr.symm.trans hr₀
    rw [advanceOpen_of_due hdue] at hdecs
    rw [hnext hview]
    exact .inr (.inl ⟨hdue,hdecs.state⟩)
  | created r₁ hid hnone hdecs hview hperms => cases hr.symm.trans hnone
  | evicted r₀ hr₀ hclosed hidle hview hperms => cases hr'.symm.trans (record_of_view hview)
  | completed now i p outcome r₀ hop hclock hr₀ hgen hpos hview hperms =>
    cases hr.symm.trans hr₀
    have hper := hbound.present hr (mem_of_getElem? hop.permit) hop.deployment hop.fresh
      hgen
    refine .inr (.inr ⟨outcome,⟨now,i,p,hop,hclock,hper⟩,?_⟩)
    rw [hop.op]
    split_ifs at hview
    · exact hnext hview
    · exact hnext hview

/-- A record turns by its cooldown, or by the completion of a permit of the present period. -/
theorem step_turn {r r' : CircuitRecord} (hr : w.record d = some r)
    (hr' : (w.step op).1.record d = some r') (hstate : r'.state ≠ r.state) :
    (r.Due op.now ∧ r'.state = .halfOpen) ∨
      ∃ outcome, Accepted w d op outcome ∧ r' = r.complete w.breaker.options op.now outcome := by
  rcases step_record hbound hr hr' with hkept | hturn
  · exact absurd hkept.1 hstate
  · exact hturn

end

def World.stateOf (w : World) (d : String) : Option CircuitState :=
  (w.record d).map state

theorem stateOf_eq_some {state : CircuitState} (h : w.stateOf d = some state) :
    ∃ r, w.record d = some r ∧ r.state = state := Option.map_eq_some_iff.mp h

theorem stateOf_of_record {r : CircuitRecord} (h : w.record d = some r) :
    w.stateOf d = some r.state := by
  unfold World.stateOf
  rw [h]
  rfl

/-- What holds of a deployment along its undisturbed runs. -/
structure Sound (d : String) (w : World) : Prop where
  bound : Bound d (w.view d) w.permits
  options : w.breaker.options.Valid
  evident : Evident w.breaker.options d (w.view d)

theorem reaches_sound (h : Reaches (Undisturbed d) w) : Sound d w :=
  ⟨Undisturbed.reaches_bound h,(reaches_evident h).1,(reaches_evident h).2⟩

section
variable {r : CircuitRecord}

section
variable (h : Sound d w) (hr : w.record d = some r)
include h hr

theorem Sound.record : Evident w.breaker.options d ⟨some r,w.period d,w.evidence d⟩ := by
  rw [← hr]
  exact h.evident

theorem Sound.accepted (hacc : Accepted w d op outcome) :
    (w.step op).1.stateOf d = some (r.complete w.breaker.options op.now outcome).state :=
  stateOf_of_record (step_accepted h.bound ((h.record hr).id rfl) hr hacc)

/-- A closed circuit opens just at the completion that makes a streak of failures. -/
theorem Sound.closed_opens_iff (hclosed : r.state = .closed) :
    (w.step op).1.stateOf d = some .open ↔ Accepted w d op .failed ∧
      failingStreak w.breaker.options.failureThreshold (.failed :: w.evidence d) := by
  have hopens (now : Time) := (h.record hr).failed_opens now h.options hclosed
  constructor
  · intro hnext
    obtain ⟨r',hr',hopen⟩ := stateOf_eq_some hnext
    rcases step_turn h.bound hr hr' (by rw [hopen,hclosed]; decide) with hdue | hacc
    · cases hclosed.symm.trans hdue.1.1
    · obtain ⟨outcome,hacc,rfl⟩ := hacc
      -- of the outcomes in closed, only a failure opens
      cases outcome with
      | failed => exact ⟨hacc,(hopens _).mp hopen⟩
      | succeeded => simp [complete,hclosed] at hopen
      | ignored => simp [complete,hclosed] at hopen
      | other text => simp [complete,hclosed] at hopen
  · rintro ⟨hacc,hstreak⟩
    rw [h.accepted hr hacc,(hopens _).mpr hstreak]

theorem Sound.closed_not_halfOpen (hclosed : r.state = .closed) :
    (w.step op).1.stateOf d ≠ some .halfOpen := by
  intro hnext
  obtain ⟨r',hr',hhalf⟩ := stateOf_eq_some hnext
  rcases step_turn h.bound hr hr' (by rw [hhalf,hclosed]; decide) with hdue | hacc
  · cases hclosed.symm.trans hdue.1.1
  · obtain ⟨outcome,hacc,rfl⟩ := hacc
    obtain ⟨r₀,-,hopened | hclosed⟩ := complete_turns (by rw [hhalf,hclosed]; decide)
    · rw [hopened] at hhalf
      cases hhalf
    · rw [hclosed] at hhalf
      cases hhalf

/-- A half-open circuit opens just at a failure, which is the first one of the period. -/
theorem Sound.halfOpen_opens_iff (hhalf : r.state = .halfOpen) :
    (w.step op).1.stateOf d = some .open ↔ Accepted w d op .failed := by
  constructor
  · intro hnext
    obtain ⟨r',hr',hopen⟩ := stateOf_eq_some hnext
    rcases step_turn h.bound hr hr' (by rw [hopen,hhalf]; decide) with hdue | hacc
    · cases hhalf.symm.trans hdue.1.1
    · obtain ⟨outcome,hacc,rfl⟩ := hacc
      cases outcome with
      | failed => exact hacc
      | succeeded =>
        simp only [complete,hhalf] at hopen
        split_ifs at hopen
        cases hopen
      | ignored => simp [complete,hhalf] at hopen
      | other text => simp [complete,hhalf] at hopen
  · intro hacc
    rw [h.accepted hr hacc]
    simp [complete,hhalf,openCircuit]

theorem Sound.halfOpen_closes_iff (hhalf : r.state = .halfOpen) :
    (w.step op).1.stateOf d = some .closed ↔ Accepted w d op .succeeded ∧
      (w.evidence d).length + 1 = w.breaker.options.halfOpenSuccessThreshold := by
  have hcloses (now : Time) := (h.record hr).succeeded_closes now h.options hhalf
  constructor
  · intro hnext
    obtain ⟨r',hr',hclosed⟩ := stateOf_eq_some hnext
    rcases step_turn h.bound hr hr' (by rw [hclosed,hhalf]; decide) with hdue | hacc
    · cases hhalf.symm.trans hdue.1.1
    · obtain ⟨outcome,hacc,rfl⟩ := hacc
      cases outcome with
      | succeeded => exact ⟨hacc,(hcloses _).mp hclosed⟩
      | failed => simp [complete,hhalf,openCircuit] at hclosed
      | ignored => simp [complete,hhalf] at hclosed
      | other text => simp [complete,hhalf] at hclosed
  · rintro ⟨hacc,hlast⟩
    rw [h.accepted hr hacc,(hcloses _).mpr hlast]

end

section
variable (h : Sound d w)
include h

theorem Sound.openedAt {r' : CircuitRecord} (hr : w.record d = some r)
    (hr' : (w.step op).1.record d = some r') (hnot : r.state ≠ .open) (hopen : r'.state = .open) :
    r'.openedAt = op.now := by
  have hturn : r'.state ≠ r.state := by
    rw [hopen]
    exact hnot.symm
  rcases step_turn h.bound hr hr' hturn with hdue | hacc
  · cases hopen.symm.trans hdue.2
  · obtain ⟨outcome,hacc,rfl⟩ := hacc
    obtain ⟨r₀,-,hopened | hclosed⟩ := complete_turns hturn
    · rw [hopened]
      rfl
    · rw [hclosed] at hopen
      cases hopen

/-- An open circuit stays as it is until its cooldown is over, and then it half-opens. -/
theorem Sound.open_next {r' : CircuitRecord} (hr : w.record d = some r)
    (hr' : (w.step op).1.record d = some r') (hopen : r.state = .open) :
    r'.state = .open ∧ r'.openedAt = r.openedAt ∨ r.Due op.now ∧ r'.state = .halfOpen := by
  rcases step_record h.bound hr hr' with hkept | hdue | hacc
  · exact .inl ⟨hkept.1.trans hopen,hkept.2⟩
  · exact .inr hdue
  · obtain ⟨outcome,⟨now,i,p,hop,-,hper⟩,rfl⟩ := hacc
    exact absurd hopen (h.bound.not_open hr (mem_of_getElem? hop.permit) hop.deployment hper)

theorem Sound.open_refuses {now : Time} (hr : w.record d = some r) (hopen : r.state = .open)
    (hearly : now < r.openedAt + w.breaker.options.openDuration) :
    ∃ f, (w.step (.acquire now d)).2 = .acquired (.error f) := by
  have hwait : ¬r.Due now := by
    intro hdue
    have hle := hdue.2
    rw [(h.record hr).waiting r rfl hopen] at hle
    exact absurd hearly (not_lt.mpr hle)
  have houtcome := acquire_outcome w.breaker now d
  show ∃ f, Reply.acquired (w.breaker.acquire now d).2 = _
  generalize w.breaker.acquire now d = result at houtcome
  obtain ⟨next,result⟩ := result
  cases houtcome with
  | refused f h => exact ⟨f,rfl⟩
  | rejected f r₀ r' hr₀ hsame h => exact ⟨f,rfl⟩
  | granted r₀ r' hr₀ hgrants hsame h =>
    cases hr.symm.trans hr₀
    rw [advanceOpen_of_not_due hwait] at hgrants
    exact absurd hopen hgrants.notOpen
  | created r' victim hid hnone hopts hvictim hsame hfind => cases hr.symm.trans hnone

theorem Sound.halfOpen_probes (hr : w.record d = some r) (hhalf : r.state = .halfOpen) :
    w.permits.countP (heldIn d (w.period d)) ≤ w.breaker.options.halfOpenMaximumProbes := by
  have hcount : w.permits.countP (heldIn d (w.period d)) ≤
      w.permits.countP (countedIn d (w.period d)) := by
    apply countP_mono_left
    intro p hp hheld
    simp only [heldIn,Bool.and_eq_true,decide_eq_true_eq,Bool.not_eq_true'] at hheld
    exact h.bound.countedIn hp hheld.1.1 hheld.2 hheld.1.2
  calc w.permits.countP (heldIn d (w.period d))
      ≤ w.permits.countP (countedIn d (w.period d)) := hcount
    _ = r.inFlight := (h.bound.counted r hr).symm
    _ ≤ w.breaker.options.halfOpenMaximumProbes := (h.record hr).probes r rfl hhalf

end
end

/-- The documented machine: when the circuit of a deployment opens, half-opens and closes, told from
the history of its permits. -/
structure Documented (d : String) (w : World) (op : Op) : Prop where
  closedOpens : w.stateOf d = some .closed →
    ((w.step op).1.stateOf d = some .open ↔ Accepted w d op .failed ∧
      failingStreak w.breaker.options.failureThreshold (.failed :: w.evidence d))
  closedStays : w.stateOf d = some .closed → (w.step op).1.stateOf d ≠ some .halfOpen
  openedAt : ∀ r r', w.record d = some r → (w.step op).1.record d = some r' → r'.state = .open →
    r'.openedAt = if r.state = .open then r.openedAt else op.now
  openRefuses : ∀ r now, w.record d = some r → r.state = .open →
    now < r.openedAt + w.breaker.options.openDuration →
    ∃ f, (w.step (.acquire now d)).2 = .acquired (.error f)
  openTurns : ∀ r r', w.record d = some r → (w.step op).1.record d = some r' → r.state = .open →
    r'.state ≠ .open →
    r'.state = .halfOpen ∧ r.openedAt + w.breaker.options.openDuration ≤ op.now
  probes : w.stateOf d = some .halfOpen →
    w.permits.countP (heldIn d (w.period d)) ≤ w.breaker.options.halfOpenMaximumProbes
  halfOpenOpens : w.stateOf d = some .halfOpen →
    ((w.step op).1.stateOf d = some .open ↔ Accepted w d op .failed)
  halfOpenCloses : w.stateOf d = some .halfOpen →
    ((w.step op).1.stateOf d = some .closed ↔ Accepted w d op .succeeded ∧
      (∀ outcome ∈ w.evidence d, outcome = .succeeded) ∧
      (w.evidence d).length + 1 = w.breaker.options.halfOpenSuccessThreshold)
  earlier : ∀ now i outcome p, op = .complete now i outcome → w.permits[i]? = some p →
    p.deploymentID = d → p.period < w.period d → (w.step op).1.record d = w.record d

/-- Along every run that neither evicts the record of a deployment nor runs out of generations, its
circuit is the documented machine. -/
theorem reaches_documented (d : String) (w : World) (h : Reaches (Undisturbed d) w) (op : Op) :
    Documented d w op := by
  have hsound := reaches_sound h
  constructor
  case closedOpens =>
    intro hstate
    obtain ⟨r,hr,hclosed⟩ := stateOf_eq_some hstate
    exact hsound.closed_opens_iff hr hclosed
  case closedStays =>
    intro hstate
    obtain ⟨r,hr,hclosed⟩ := stateOf_eq_some hstate
    exact hsound.closed_not_halfOpen hr hclosed
  case openedAt =>
    intro r r' hr hr' hopen
    split_ifs with hwas
    · rcases hsound.open_next hr hr' hwas with hkept | hdue
      · exact hkept.2
      · cases hopen.symm.trans hdue.2
    · exact hsound.openedAt hr hr' hwas hopen
  case openRefuses =>
    intro r now hr hopen hearly
    exact hsound.open_refuses hr hopen hearly
  case openTurns =>
    intro r r' hr hr' hopen hturn
    rcases hsound.open_next hr hr' hopen with hkept | hdue
    · exact absurd hkept.1 hturn
    · rw [← (hsound.record hr).waiting r rfl hopen]
      exact ⟨hdue.2,hdue.1.2⟩
  case probes =>
    intro hstate
    obtain ⟨r,hr,hhalf⟩ := stateOf_eq_some hstate
    exact hsound.halfOpen_probes hr hhalf
  case halfOpenOpens =>
    intro hstate
    obtain ⟨r,hr,hhalf⟩ := stateOf_eq_some hstate
    exact hsound.halfOpen_opens_iff hr hhalf
  case halfOpenCloses =>
    intro hstate
    obtain ⟨r,hr,hhalf⟩ := stateOf_eq_some hstate
    have hall := ((hsound.record hr).successes r rfl hhalf).1
    rw [hsound.halfOpen_closes_iff hr hhalf]
    exact and_congr_right fun _ => (and_iff_right hall).symm
  case earlier =>
    rintro now i outcome p rfl hi rfl hearlier
    exact step_complete_earlier hsound.bound hi hearlier _

end

/-! A run that can be evaluated. -/

def undisturbedCheck (d : String) (w : World) (op : Op) : Bool :=
  carefulCheck w op d && ((w.record d).isNone || ((w.step op).1.record d).isSome)

theorem undisturbed_of_check {d : String} {w : World} {op : Op}
    (h : undisturbedCheck d w op) : Undisturbed d w op := by
  simp only [undisturbedCheck,Bool.and_eq_true] at h
  refine ⟨fun hevicts => ?_,(careful_of_check h.1).saturates⟩
  have hkept := h.2
  rw [hevicts.2] at hkept
  simp only [Option.isSome_none,Bool.or_false] at hkept
  have hsome := hevicts.1
  rw [Option.isNone_iff_eq_none.mp hkept] at hsome
  cases hsome

def sampleFailing : World :=
  sampleStart.run [.acquire (1 * second) sampleFirst,.acquire (1 * second) sampleFirst,
    .acquire (1 * second) sampleFirst,.complete (2 * second) 1 .failed]

theorem sampleFailing_documented :
    (sampleFailing.step (.complete (2 * second) 2 .failed)).1.stateOf sampleFirst = some .open := by
  have hreaches : Reaches (Undisturbed sampleFirst) sampleFailing :=
    (sampleStart_reaches _).run (fun _ _ => undisturbed_of_check) (by decide +kernel)
  have hdocumented := reaches_documented sampleFirst sampleFailing hreaches
    (.complete (2 * second) 2 .failed)
  have hfacts : sampleFailing.stateOf sampleFirst = some .closed ∧
      sampleFailing.permits[2]? = some ⟨sampleFirst,1,false,1,false⟩ ∧
      sampleFailing.period sampleFirst = 1 ∧ sampleFailing.evidence sampleFirst = [.failed] := by
    decide +kernel
  obtain ⟨hclosed,hpermit,hper,hevid⟩ := hfacts
  apply (hdocumented.closedOpens hclosed).mpr
  refine ⟨⟨2 * second,2,_,⟨rfl,hpermit,rfl,rfl,rfl⟩,by decide,hper.symm⟩,?_⟩
  rw [hevid]
  decide

end Routing
