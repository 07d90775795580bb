import AiGateway.Streaming.Terminal

/-! What holds of the timeout controller and its stream under every order of timers, reads,
cancellations and closes. -/
namespace Streaming.Timeout
open Adapter Interleaving List

variable {ι ε : Type}

/-! Calls of `Next` that begin when the controller is terminal. -/

/-- The step after `closeAttached` that is still to come. -/
def Phase.after : Phase ε → Option (After ε)
  | .closing _ after | .releasing _ after _ | .inClose _ after _ | .leavingClose _ after _ =>
    some after
  | _ => none

/-- The calls of `Next` from number `n` on will return `e`. -/
structure Phase.Answers (e : Cause ε) (n : ℕ) (phase : Phase ε) : Prop where
  beyond : ∀ call, phase.Beyond call → call < n
  after : ∀ call e', phase.after = some (.next call e') → n ≤ call → e' = e

variable {phase : Phase ε} {call : ℕ}

theorem Phase.Beyond.unique {call' : ℕ} (h : phase.Beyond call) (h' : phase.Beyond call') :
    call = call' := by
  cases phase <;> simp_all [Phase.Beyond]

theorem Phase.Beyond.after_eq (h : phase.Beyond call) : phase.after = none := by
  cases phase <;> simp_all [Phase.Beyond,Phase.after]

variable {i : ι} {s : Shared ι ε} {e : Cause ε}

theorem Shared.Knows.after_call (h : s.Knows i phase) (hafter : phase.after = some (.next call e)) :
    call < s.nexts := by
  cases phase with
  | closing made after =>
    cases hafter
    exact h.2 call rfl
  | releasing made after stream | inClose made after stream | leavingClose made after err =>
    cases hafter
    exact h.1.2 call rfl
  | _ => cases hafter

theorem answers_idle (e : Cause ε) (n : ℕ) (reply : Reply ε) :
    (.idle reply : Phase ε).Answers e n :=
  ⟨nofun,nofun⟩

theorem answers_finish (e : Cause ε) (n : ℕ) (s : Shared ι ε) (made : Bool) (after : After ε) :
    (s.finish made after).2.Answers e n := by
  cases after with
  | closeAgain => exact ⟨nofun,nofun⟩
  | _ => exact answers_idle e n _

variable {s' : Shared ι ε} {phase' : Phase ε}

theorem Moved.answers {n : ℕ} (h : Moved i s phase s' phase')
    (hterm : s.controller.terminalErr = some e) (ha : phase.Answers e n) : phase'.Answers e n := by
  have hdead : s.controller.terminalErr ≠ none := by simp [hterm]
  cases h with
  | stays => exact ha
  | enters hlive => exact absurd hlive hdead
  | observes hobs => exact absurd hobs.live hdead
  | interrupts reply hended => exact absurd hended.live hdead
  | ends hended => exact absurd hended.live hdead
  | goes hbeyond hbeyond' =>
    refine ⟨fun call hcall => ?_,fun call e' hafter => ?_⟩
    · rw [← hbeyond'.unique hcall]
      exact ha.beyond _ hbeyond
    · rw [hbeyond'.after_eq] at hafter
      cases hafter
  | meets hwhere hcause =>
    refine ⟨nofun,fun call e' hafter _ => ?_⟩
    cases hafter
    rw [hterm] at hcause
    exact (Option.some.inj hcause).symm
  | finishes => exact answers_finish e n _ _ _
  | leaves => exact answers_finish e n _ _ _
  | finds => exact ⟨nofun,fun call e' hafter => ha.after call e' hafter⟩
  | claims => exact ⟨nofun,fun call e' hafter => ha.after call e' hafter⟩
  | closes => exact ⟨nofun,fun call e' hafter => ha.after call e' hafter⟩
  | fails hbeyond hterm e' => exact answers_idle e n _
  | _ => exact ⟨nofun,nofun⟩

theorem Moved.answered {n : ℕ}
    (h : Moved i s phase s' phase') (hterm : s.controller.terminalErr = some e)
    (ha : phase.Answers e n) (hlog : ∀ entry ∈ s.log, n ≤ entry.1 → entry.2 = .error e) :
    ∀ entry ∈ s'.log, n ≤ entry.1 → entry.2 = .error e := by
  rcases h.log with hsame | ⟨call,e',hnew,hwhy⟩ | ⟨call,chunk,hnew,-,hobs⟩
  · rw [hsame]
    exact hlog
  · rw [hnew,forall_mem_append,forall_mem_singleton]
    refine ⟨hlog,fun hle => ?_⟩
    rcases hwhy with ⟨hbeyond,-⟩ | ⟨made,hrel | ⟨err,rfl⟩⟩
    · exact absurd (ha.beyond call hbeyond) (not_lt.mpr hle)
    · have hafter : phase.after = some (.next call e') := by cases hrel <;> rfl
      rw [ha.after call e' hafter hle]
    · rw [ha.after call e' rfl hle]
  · have hlive := hobs.live
    rw [hterm] at hlive
    cases hlive

theorem timeoutMoves_answers (e : Cause ε) (n : ℕ) :
    Keeps (timeoutMoves : Moves ι (Move ε) (Shared ι ε) (Phase ε))
      (fun s => s.Sound ∧ s.controller.terminalErr = some e ∧
        ∀ entry ∈ s.log, n ≤ entry.1 → entry.2 = .error e)
      (fun i s phase => s.Knows i phase ∧ phase.Answers e n) Phase.Apart := by
  refine ⟨fun a b hab => hab.symm,?_,?_⟩
  · intro i m s phase hs hk
    have hmoved := moved i m s phase hk.1.ending
    exact ⟨⟨hmoved.sound hs.1 hk.1,(hmoved.terminal hs.2.1).1,
      hmoved.answered hs.2.1 hk.2 hs.2.2⟩,hmoved.own hs.1 hk.1,hmoved.answers hs.2.1 hk.2⟩
  · intro i m s phase j other hne hs hk hother hapart
    obtain ⟨hknows,hapart'⟩ := timeoutMoves_keeps.other i m s phase j other hne hs.1 hk.1 hother.1
      hapart
    exact ⟨⟨hknows,hother.2⟩,hapart'⟩

/-! Every run. -/

abbrev Goroutines (ι ε : Type) := Threads ι (Shared ι ε) (Phase ε)

def Goroutines.fresh : Goroutines ι ε := .start {} (.idle .nothing)

theorem fresh_holds : (Goroutines.fresh : Goroutines ι ε).Holds Shared.Sound
    (fun i s phase => s.Knows i phase) Phase.Apart := by
  refine ⟨?_,fun _ => trivial,fun _ _ _ _ _ _ _ h => nomatch h⟩
  constructor <;> simp [Goroutines.fresh,Threads.start]

/-- The deadline that the controller has recorded, as the cause or beside it. -/
def Controller.HasFailure (c : Controller ε) (f : TimeoutFailure) : Prop :=
  c.terminalErr = some (.failure f) ∨ c.timeoutFailure = some f

/-- The call that made the controller terminal has returned to this goroutine. -/
def Phase.MadeTerminal (phase : Phase ε) : Prop :=
  phase = .idle (.done true) ∨ ∃ err, phase = .idle (.closed true err)

variable {f : TimeoutFailure}

theorem Shared.Sound.hasFailure (hs : s.Sound) (h : s.controller.HasFailure f) :
    s.controller.terminalErr = some (.failure f) :=
  h.elim id (hs.failed f)

variable {kind : TimeoutKind}

/-- A deadline that may be retried has expired on an attached stream without output. -/
theorem eligible_failure {c : Controller ε} (h : (c.failure kind).retryEligibleBeforeOutput) :
    c.headersReceivedAt.isSome ∧ c.firstModelEventAt.isSome = false := by
  simp only [Controller.failure,Bool.and_eq_true,Bool.not_eq_true',decide_eq_true_eq] at h
  exact ⟨h.1.2,h.2⟩

/-- From a terminal state on, nothing but errors is logged. -/
def Settles (s t : Shared ι ε) : Prop :=
  ∀ e, s.controller.terminalErr = some e → t.controller.terminalErr = some e ∧
    t.controller.firstModelEventAt = s.controller.firstModelEventAt ∧
    ∃ more, t.log = s.log ++ more ∧ ∀ entry ∈ more, ∃ e, entry.2 = .error e

theorem Settles.trans {t u : Shared ι ε} (hst : Settles s t) (htu : Settles t u) : Settles s u := by
  intro e he
  obtain ⟨he',hfirst,more,hlog,hall⟩ := hst e he
  obtain ⟨he'',hfirst',more',hlog',hall'⟩ := htu e he'
  refine ⟨he'',hfirst'.trans hfirst,more ++ more',?_,?_⟩
  · rw [hlog',hlog,append_assoc]
  · rw [forall_mem_append]
    exact ⟨hall,hall'⟩

theorem Moved.settles (h : Moved i s phase s' phase') : Settles s s' := by
  intro e he
  obtain ⟨he',-,-,hfirst⟩ := h.terminal he
  refine ⟨he',hfirst,?_⟩
  rcases h.log with hsame | ⟨call,e',hnew,-⟩ | ⟨call,chunk,hnew,-,hobs⟩
  · exact ⟨[],by rw [hsame,append_nil],fun entry hentry => nomatch hentry⟩
  · refine ⟨_,hnew,?_⟩
    rw [forall_mem_singleton]
    exact ⟨e',rfl⟩
  · have hlive := hobs.live
    rw [he] at hlive
    cases hlive

theorem Moved.before (h : Moved i s phase s' phase') (hs : s.Sound)
    (hnot : ¬s.controller.HasFailure f) (hhas : s'.controller.HasFailure f)
    (helig : f.retryEligibleBeforeOutput) : s.controller.stream.isSome := by
  rcases h.record with ⟨hterm,hfail⟩ | ⟨cause,hended⟩
  · rw [Controller.HasFailure,hterm,hfail] at hhas
    exact absurd hhas hnot
  · have hf : ∃ kind, f = s.controller.failure kind := by
      rcases hended.failure with ⟨kind,rfl,hfail⟩ | ⟨hnone,hother⟩
      · rw [Controller.HasFailure,hended.terminalErr,hfail] at hhas
        rcases hhas with hhas | hhas
        · cases hhas
          exact ⟨kind,rfl⟩
        · cases hhas
          exact ⟨kind,rfl⟩
      · rw [Controller.HasFailure,hended.terminalErr,hnone] at hhas
        rcases hhas with hhas | hhas
        · exact absurd (Option.some.inj hhas) (hother f)
        · cases hhas
    obtain ⟨kind,rfl⟩ := hf
    rw [hs.headers]
    exact (eligible_failure helig).1

theorem fire_shared {generation : ℕ}
    (h : s.controller.timeout kind generation = none) (phase : Phase ε) :
    (timeoutMoves i (.fire kind generation) s phase).1 = s := by
  cases phase with
  | idle reply =>
    show (s.fire kind generation).1 = s
    rw [Shared.fire,h]
  | _ => rfl

variable [DecidableEq ι]

/-- What holds in a state that a run leads to, and of what comes later. -/
structure Guarded (s later : Goroutines ι ε) : Prop where
  first : ∀ e, s.shared.controller.terminalErr = some e →
    later.shared.controller.terminalErr = some e
  answers : ∀ e, s.shared.controller.terminalErr = some e → ∀ entry ∈ later.shared.log,
    s.shared.nexts ≤ entry.1 → entry.2 = .error e
  silent : s.shared.controller.terminalErr.isSome → ∃ more,
    later.shared.log = s.shared.log ++ more ∧ ∀ entry ∈ more, ∃ e, entry.2 = .error e
  eligible : ∀ f, s.shared.controller.HasFailure f → f.retryEligibleBeforeOutput →
    s.shared.controller.stream.isSome ∧ ∀ entry ∈ later.shared.log, ∀ chunk,
      entry.2 = .ok chunk → isModelOutput chunk.kind = false
  before : ∀ i m f, ¬s.shared.controller.HasFailure f →
    (s.step timeoutMoves i m).shared.controller.HasFailure f →
    f.retryEligibleBeforeOutput → s.shared.controller.stream.isSome
  partly : ∀ f, s.shared.controller.HasFailure f → f.modelOutputStarted →
    f.partialFailure ∧ f.retryEligibleBeforeOutput = false
  stale : ∀ i generation, generation ≠ s.shared.controller.noProgressGeneration →
    (s.step timeoutMoves i (.fire .noProgress generation)).shared = s.shared
  late : ∀ i generation, s.shared.controller.firstModelEventAt.isSome →
    (s.step timeoutMoves i (.fire .firstToken generation)).shared = s.shared
  rejected : ∀ i x e, s.place i = .idle (.rejected x e) → s.shared.closes.count x = 1
  closed : ∀ i, (s.place i).MadeTerminal → ∀ x, s.shared.controller.stream = some x →
    s.shared.closes.count x = 1
  once : ∀ x, later.shared.closes.count x ≤ 1

theorem leads_guarded {s later : Goroutines ι ε} (hs : Goroutines.fresh.Leads timeoutMoves s)
    (hlater : s.Leads timeoutMoves later) : Guarded s later := by
  have hholds := timeoutMoves_keeps.leads fresh_holds hs
  have hholds' := timeoutMoves_keeps.leads hholds hlater
  have hsound := hholds.shared
  have hsettles : Settles s.shared later.shared :=
    timeoutMoves_keeps.related (fun _ e he => ⟨he,rfl,[],by simp⟩)
      (fun _ _ _ hst htu => hst.trans htu)
      (fun i m s phase _ hk => (moved i m s phase hk.ending).settles) hholds hlater
  refine ⟨fun e he => (hsettles e he).1,?_,?_,?_,?_,?_,?_,?_,?_,?_,?_⟩
  · intro e he
    -- all calls of `Next` that are under way have smaller numbers
    have hanswers : s.Holds (fun t => t.Sound ∧ t.controller.terminalErr = some e ∧
        ∀ entry ∈ t.log, s.shared.nexts ≤ entry.1 → entry.2 = .error e)
        (fun i t phase => t.Knows i phase ∧ phase.Answers e s.shared.nexts) Phase.Apart := by
      refine ⟨⟨hsound,he,?_⟩,fun i => ⟨hholds.thread i,?_,?_⟩,hholds.apart⟩
      · exact fun entry hentry hle => absurd (hsound.calls entry hentry) (not_lt.mpr hle)
      · exact fun call hbeyond => (hholds.thread i).beyond hbeyond
      · intro call e' hafter hle
        refine absurd ((hholds.thread i).after_call hafter) (not_lt.mpr hle)
    exact ((timeoutMoves_answers e _).leads hanswers hlater).shared.2.2
  · intro hterm
    obtain ⟨e,he⟩ := Option.isSome_iff_exists.mp hterm
    exact (hsettles e he).2.2
  · intro f hhas helig
    have hterm := hsound.hasFailure hhas
    have hf := hsound.failure f hterm
    rw [hf] at helig
    obtain ⟨hhdrs,hfirst⟩ := eligible_failure helig
    refine ⟨hsound.headers ▸ hhdrs,fun entry hentry chunk hok => ?_⟩
    rw [← Bool.not_eq_true]
    intro hkind
    have hlate := hholds'.shared.output entry hentry chunk hok hkind
    rw [(hsettles _ hterm).2.1,hfirst] at hlate
    cases hlate
  · intro i m f hnot hhas helig
    exact (moved i m s.shared (s.place i) (hholds.thread i).ending).before hsound hnot hhas
      helig
  · intro f hhas hout
    have hf := hsound.failure f (hsound.hasFailure hhas)
    rw [hf] at hout ⊢
    simp only [Controller.failure] at hout ⊢
    simp [hout]
  · intro i generation hstale
    apply fire_shared
    simp [Controller.timeout,hstale]
  · intro i generation hout
    apply fire_shared
    simp [Controller.timeout,hout]
  · intro i x e hphase
    have hk := hholds.thread i
    rw [hphase] at hk
    exact count_eq_one_of_mem hsound.once hk
  · intro i hmade x hx
    have hk := hholds.thread i
    apply count_eq_one_of_mem hsound.once
    rcases hmade with hphase | ⟨err,hphase⟩
    · rw [hphase] at hk
      exact (hk rfl).2 x hx
    · rw [hphase] at hk
      exact (hk rfl).2 x hx
  · exact fun x => nodup_iff_count_le_one.mp hholds'.shared.once x

/-! A sample: a heartbeat of the upstream is read, the first-token deadline expires while `Next`
reads on, and neither a later `Next` nor a second `Attach` gets anywhere. -/

def sampleEnv : Env Unit := { now := 5, result := .ok { kind := .heartbeat, observedAt := 4 } }

def sampleMoves : List (Fin 3 × Move Unit) :=
  [(0,.attach 1),(1,.next),(1,.go sampleEnv),(1,.go sampleEnv),(1,.go sampleEnv),
    (1,.go sampleEnv),(1,.go sampleEnv),(1,.go sampleEnv),(1,.next),(1,.go sampleEnv),
    (1,.go sampleEnv),(2,.fire .firstToken 0),(1,.go sampleEnv),(1,.go sampleEnv),
    (2,.go sampleEnv),(2,.go sampleEnv),(1,.go sampleEnv),(1,.go sampleEnv),
    (2,.go sampleEnv),(2,.go sampleEnv),(1,.go sampleEnv),(1,.next),(1,.go sampleEnv),
    (1,.go sampleEnv),(1,.go sampleEnv),(1,.go sampleEnv),(0,.attach 6),(0,.go sampleEnv)]

def sampleGoroutines : Goroutines (Fin 3) Unit := Goroutines.fresh.run timeoutMoves sampleMoves

def sampleFailure : TimeoutFailure := ⟨.firstToken,true,false,true,false⟩

theorem sampleGoroutines_guarded :
    (sampleGoroutines.shared.log.map (fun entry => entry.2.toOption.map (·.kind)) =
        [some .heartbeat,none,none] ∧
      sampleGoroutines.shared.controller.terminalErr = some (.failure sampleFailure) ∧
      sampleGoroutines.shared.closes = [0,1]) ∧
    Guarded sampleGoroutines sampleGoroutines := by
  refine ⟨?_,leads_guarded (Threads.leads_run _ _ _) .refl⟩
  decide +kernel

end Streaming.Timeout
