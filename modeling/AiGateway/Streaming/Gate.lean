import AiGateway.Streaming.Attempts

/-! What holds of concurrent calls of the gate, in every order. -/
namespace Streaming.Failover
open Adapter Interleaving FailoverGate Threads

variable {ι : Type}

/-! One move. -/

variable {i : ι} {s s' : Shared ι} {phase phase' : Phase}

theorem Moved.final (h : Moved i s phase s' phase') (hs : s.Sound) (hk : s.Knows i phase)
    (hout : s.gate.modelOutputStarted) : s'.gate.modelOutputStarted ∧
      s'.starts = s.starts ∧ s'.gate.attemptsStarted = s.gate.attemptsStarted := by
  cases h with
  | replies halike reply =>
    exact ⟨halike.modelOutputStarted.trans hout,rfl,halike.attemptsStarted⟩
  | reserves hresv deploymentID =>
    obtain ⟨-,-,hnone,-⟩ := hs.reservable hresv
    rw [hout] at hnone
    cases hnone
  | starts =>
    have hnext := hk.2.2.2
    obtain ⟨-,hall,-⟩ := hs.output hout
    omega
  | admits hcur hadmits =>
    rcases admits_eq_ok hadmits with ⟨rfl,-⟩ | ⟨rfl,-⟩
    · exact ⟨hout,rfl,rfl⟩
    · exact ⟨rfl,rfl,rfl⟩
  | @counts chunk =>
    have halike := alike_count s.gate chunk
    exact ⟨halike.modelOutputStarted.trans hout,rfl,halike.attemptsStarted⟩
  | _ => exact ⟨hout,rfl,rfl⟩

theorem Moved.called (h : Moved i s phase s' phase') : s'.sinks = s.sinks ∨
      ∃ token chunk, phase = .admitted token chunk ∧ s'.sinks = s.sinks ++ [(token,chunk)] := by
  cases h with
  | sinks => exact .inr ⟨_,_,rfl,rfl⟩
  | _ => exact .inl rfl

variable {token : AttemptToken}

theorem Moved.admitted {chunk : NormalizedChunk}
    (h : Moved i s phase s' (.admitted token chunk)) (hs : s.Sound) (hk : s.Knows i phase) :
    phase = .admitted token chunk ∨
      phase = .locked token chunk ∧ token = s.gate.newest ∧ token ∈ s.returned := by
  cases h with
  | stays => exact .inl rfl
  | admits hcur hadmits =>
    have hnewest := hs.currentToken_iff.mp hcur
    exact .inr ⟨rfl,hnewest,hnewest ▸ (hs.started_of_newest (hnewest ▸ hk.1)).1⟩

theorem startFailover_attempts (hs : s.Sound) {cancelled : Bool}
    {previous : AttemptToken} {failure : Option TimeoutFailure} {deploymentID : String}
    (h : (s.startFailover cancelled previous failure deploymentID).1.gate.attemptsStarted ≠
      s.gate.attemptsStarted) : previous = s.gate.newest := by
  unfold Shared.startFailover startFailover at h
  rw [← hs.currentToken_iff]
  by_contra hcur
  apply h
  simp only [Bool.not_eq_true] at hcur
  rw [hcur]
  cases validateFailoverStart cancelled deploymentID with
  | error e => rfl
  | ok _ =>
    cases s.gate.closed <;> simp

theorem Moved.busy (h : Moved i s phase s' phase') (hbusy : ∀ reply, phase ≠ .idle reply) :
    s'.gate.attemptsStarted = s.gate.attemptsStarted := by
  cases h with
  | replies halike reply => exact halike.attemptsStarted
  | reserves hresv deploymentID => exact absurd rfl (hbusy _)
  | admits hcur hadmits => rcases admits_eq_ok hadmits with ⟨rfl,-⟩ | ⟨rfl,-⟩ <;> rfl
  | @counts chunk => exact (alike_count s.gate chunk).attemptsStarted
  | _ => rfl

theorem moves_attempts {m : Move} (hs : s.Sound)
    (h : (failoverMoves i m s phase).1.gate.attemptsStarted ≠ s.gate.attemptsStarted) :
    (∃ cancelled deploymentID, m = .startInitial cancelled deploymentID ∧
        s.gate.attemptsStarted = 0) ∨
      ∃ cancelled failure deploymentID,
        m = .startFailover cancelled s.gate.newest failure deploymentID := by
  cases phase with
  | idle reply =>
    cases m with
    | go ok => exact absurd rfl h
    | startInitial cancelled deploymentID =>
      refine .inl ⟨cancelled,deploymentID,rfl,?_⟩
      by_contra hlater
      apply h
      show (s.startInitial cancelled deploymentID).1.gate.attemptsStarted = _
      unfold Shared.startInitial startInitial
      cases validateFailoverStart cancelled deploymentID with
      | error e => rfl
      | ok _ => cases s.gate.closed <;> simp [hlater]
    | startFailover cancelled previous failure deploymentID =>
      unfold failoverMoves at h
      dsimp only at h
      split_ifs at h with havail
      · exact .inr ⟨cancelled,failure,deploymentID,startFailover_attempts hs h ▸ rfl⟩
      · exact absurd rfl h
    | forward cancelled token chunk =>
      refine absurd ?_ h
      unfold failoverMoves Shared.forward
      dsimp only
      split_ifs <;> rfl
    | close token =>
      refine absurd ?_ h
      unfold failoverMoves Shared.close close
      dsimp only
      split_ifs <;> rfl
  | _ =>
    refine absurd ?_ h
    apply (moved i m s _).busy
    nofun

theorem Shared.Sound.numbered_get (hs : s.Sound) {k : ℕ} {start : AttemptStart}
    (h : s.starts[k]? = some start) : start.number = k + 1 ∧ start.failover = decide (k ≠ 0) := by
  have hmap := congrArg (·[k]?) hs.numbered
  have hlt : k < s.starts.length := (List.getElem?_eq_some_iff.mp h).1
  simp only [List.getElem?_map,h,Option.map_some,List.getElem?_range hlt,Option.some.injEq,
    Prod.mk.injEq] at hmap
  exact hmap

/-! Every run. -/

/-- Calls of the gate on their way. -/
abbrev Callers (ι : Type) := Threads ι (Shared ι) Phase

def Callers.fresh (gate : FailoverGate) : Callers ι := .start (.fresh gate) (.idle .none)

variable {gate : FailoverGate}

theorem fresh_holds {maxAttempts sequence sequence' : ℕ}
    (h : newFailoverGate maxAttempts sequence = .ok (gate,sequence')) :
    (Callers.fresh gate : Callers ι).Holds Shared.Sound (fun i s phase => s.Knows i phase)
      Phase.Apart := by
  unfold newFailoverGate at h
  split_ifs at h with hinv
  cases h
  refine ⟨?_,fun _ => trivial,fun _ _ _ => trivial⟩
  simp only [not_or,not_lt] at hinv
  constructor <;> simp [Callers.fresh,start,Shared.fresh,hinv.1]

variable [DecidableEq ι]

/-- A model-output chunk was admitted, whatever its sink does. -/
def Callers.OutputAdmitted (s : Callers ι) : Prop :=
  (∃ i token chunk, s.place i = .admitted token chunk ∧ isModelOutput chunk.kind) ∨
    ∃ call ∈ s.shared.sinks, isModelOutput call.2.kind

/-- What holds in a state that calls have led to, and of what comes later. -/
structure Gated (s later : Callers ι) : Prop where
  exclusive : ∀ i j token chunk token' chunk', s.place i = .sinking token chunk →
    s.place j = .sinking token' chunk' → i = j
  ordered : (s.shared.sinks.map (·.1.number)).Pairwise (· ≤ ·)
  single : ∀ call ∈ s.shared.sinks, isModelOutput call.2.kind →
    call.1.number = s.shared.gate.firstModelOutputAttempt
  limit : s.shared.starts.length ≤ s.shared.gate.maxAttempts
  numbered : ∀ k start, s.shared.starts[k]? = some start →
    start.number = k + 1 ∧ start.failover = decide (k ≠ 0)
  final : s.OutputAdmitted → later.shared.starts = s.shared.starts ∧
    later.shared.gate.attemptsStarted = s.shared.gate.attemptsStarted
  /-- A sink is called for an admitted chunk, -/
  called : ∀ i m, (s.step failoverMoves i m).shared.sinks = s.shared.sinks ∨
    ∃ token chunk, s.place i = .admitted token chunk ∧
      (s.step failoverMoves i m).shared.sinks = s.shared.sinks ++ [(token,chunk)]
  /-- which is admitted only with the newest token, -/
  admitted : ∀ i m token chunk, (s.step failoverMoves i m).place i = .admitted token chunk →
    s.place i = .admitted token chunk ∨
      s.place i = .locked token chunk ∧ token = s.shared.gate.newest ∧ token ∈ s.shared.returned
  /-- and so is an attempt that replaces another one. -/
  replaced : ∀ i m, (s.step failoverMoves i m).shared.gate.attemptsStarted ≠
      s.shared.gate.attemptsStarted →
    (∃ cancelled deploymentID, m = .startInitial cancelled deploymentID ∧
      s.shared.gate.attemptsStarted = 0) ∨
    ∃ cancelled failure deploymentID,
      m = .startFailover cancelled s.shared.gate.newest failure deploymentID

def heartbeat : NormalizedChunk := { kind := .heartbeat, observedAt := 1 }

def content (text : String) : NormalizedChunk :=
  { kind := .contentDelta, contentDelta := text, observedAt := 1 }

def firstTokenFailure : TimeoutFailure := ⟨.firstToken,true,false,true,false⟩

def sampleGate : FailoverGate := { maxAttempts := 3, gateID := 1 }

def sampleCalls : List (Bool × Move) :=
  [(true,.startInitial false "a"),(true,.go true),(true,.go true),
    (false,.forward false ⟨1,1,1⟩ heartbeat),(false,.go true),(false,.go true),
    (true,.startFailover false ⟨1,1,1⟩ (some firstTokenFailure) "b"),(false,.go true),
    (true,.go true),(true,.go true),(true,.forward false ⟨1,2,2⟩ (content "x")),
    (true,.go true),(false,.go true),(false,.go true),
    (false,.forward false ⟨1,1,1⟩ (content "y")),(false,.go true),(false,.go true),
    (true,.go true),(true,.go true),(true,.go true),(true,.go false),
    (false,.startFailover false ⟨1,2,2⟩ (some firstTokenFailure) "c")]

def sampleCallers : Callers Bool := (Callers.fresh sampleGate).run failoverMoves sampleCalls

theorem admits_closed (h : gate.closed) (token : AttemptToken) (chunk : NormalizedChunk) :
    gate.admits token chunk = .error .closed := by
  simp [admits,h]

/-- A `Forward` between its check and its sink. -/
def Phase.isAdmitted : Phase → Bool
  | .admitted _ _ => true
  | _ => false

omit [DecidableEq ι] in
theorem proceed_closed {ok : Bool} (hclosed : s.gate.closed) (hphase : phase.isAdmitted = false) :
    (s.proceed i ok phase).1.gate.closed ∧ (s.proceed i ok phase).1.sinks = s.sinks ∧
      (s.proceed i ok phase).2.isAdmitted = false := by
  cases phase with
  | admitted token chunk => cases hphase
  | locked token chunk => simp [Shared.proceed,admits_closed hclosed,hclosed,Phase.isAdmitted]
  | waiting token chunk | sinking token chunk =>
    unfold Shared.proceed
    dsimp only
    split_ifs <;> exact ⟨hclosed,rfl,rfl⟩
  | forwarded chunk =>
    refine ⟨?_,rfl,rfl⟩
    unfold Shared.proceed count
    dsimp only
    split_ifs <;> exact hclosed
  | _ => exact ⟨hclosed,rfl,rfl⟩

omit [DecidableEq ι] in
theorem moves_closed {m : Move} (hclosed : s.gate.closed) (hphase : phase.isAdmitted = false) :
    (failoverMoves i m s phase).1.gate.closed ∧ (failoverMoves i m s phase).1.sinks = s.sinks ∧
      (failoverMoves i m s phase).2.isAdmitted = false := by
  cases phase with
  | idle reply =>
    cases m with
    | go ok => exact proceed_closed hclosed hphase
    | startInitial cancelled deploymentID =>
      unfold failoverMoves Shared.startInitial
      dsimp only
      cases validateFailoverStart cancelled deploymentID with
      | error e => exact ⟨hclosed,rfl,rfl⟩
      | ok _ => simp [startInitial,hclosed,Phase.isAdmitted]
    | startFailover cancelled previous failure deploymentID =>
      unfold failoverMoves Shared.startFailover
      dsimp only
      split_ifs with havail
      · cases validateFailoverStart cancelled deploymentID with
        | error e => exact ⟨hclosed,rfl,rfl⟩
        | ok _ => simp [startFailover,hclosed,Phase.isAdmitted]
      · exact ⟨hclosed,rfl,rfl⟩
    | forward cancelled token chunk =>
      unfold failoverMoves Shared.forward
      dsimp only
      split_ifs <;> exact ⟨hclosed,rfl,rfl⟩
    | close token =>
      unfold failoverMoves Shared.close close
      dsimp only
      split_ifs <;> exact ⟨by first | exact hclosed | rfl,rfl,rfl⟩
  | _ =>
    cases m with
    | go ok => exact proceed_closed hclosed hphase
    | _ => exact ⟨hclosed,rfl,hphase⟩

/-- The gate is closed and no call stands between the check and its sink. -/
structure Callers.Ended (s : Callers ι) : Prop where
  closed : s.shared.gate.closed
  checked : ∀ i, (s.place i).isAdmitted = false

theorem Callers.Ended.step {s : Callers ι} (h : s.Ended) (i : ι) (m : Move) :
    Callers.Ended (s.step failoverMoves i m) ∧
    (s.step failoverMoves i m).shared.sinks = s.shared.sinks := by
  obtain ⟨hclosed,hsinks,hplace⟩ := moves_closed (m := m) h.closed (h.checked i)
  refine ⟨⟨hclosed,?_⟩,hsinks⟩
  intro j
  by_cases hj : j = i
  · rw [hj]
    simpa [Threads.step] using hplace
  · simpa [Threads.step,hj] using h.checked j

theorem Callers.Ended.leads {s later : Callers ι} (h : s.Ended)
    (hlater : s.Leads failoverMoves later) : later.Ended ∧ later.shared.sinks = s.shared.sinks := by
  induction hlater with
  | refl => exact ⟨h,rfl⟩
  | tail _ hstep ih =>
    obtain ⟨i,m,rfl⟩ := hstep
    obtain ⟨hended,hsinks⟩ := ih.1.step i m
    exact ⟨hended,hsinks.trans ih.2⟩

/-- A `Close` with the current token returns nil. No sink is called from then on, whatever the other
calls do, exactly when none of them has passed the check and still has to call its sink. -/
theorem close_final_iff {s : Callers ι} {i : ι} {reply : Reply} {token : AttemptToken}
    (hidle : s.place i = .idle reply) (havail : s.shared.available token)
    (hcur : s.shared.gate.currentTokenLocked token) :
    (s.step failoverMoves i (.close token)).place i = .idle .closed ∧
      ((∀ later, (s.step failoverMoves i (.close token)).Leads failoverMoves later →
          later.shared.sinks = s.shared.sinks) ↔
        ∀ j, (s.place j).isAdmitted = false) := by
  have hstep : s.step failoverMoves i (.close token) =
      ⟨{ s.shared with gate := { s.shared.gate with closed := true } },
        Function.update s.place i (.idle .closed)⟩ := by
    simp [step,failoverMoves,Shared.close,close,hidle,havail,hcur]
  rw [hstep]
  refine ⟨by simp,?_,?_⟩
  · intro hfinal j
    by_contra hadm
    obtain ⟨token',chunk,hj⟩ : ∃ token' chunk, s.place j = .admitted token' chunk := by
      cases hphase : s.place j with
      | admitted token' chunk => exact ⟨token',chunk,rfl⟩
      | _ => simp [hphase,Phase.isAdmitted] at hadm
    have hne : j ≠ i := by
      rintro rfl
      rw [hidle] at hj
      cases hj
    have hsinks := hfinal _ (.single ⟨j,.go true,rfl⟩)
    simp [step,failoverMoves,Shared.proceed,hne,hj] at hsinks
  · intro hchecked later hlater
    refine (Callers.Ended.leads ⟨rfl,?_⟩ hlater).2
    intro j
    by_cases hj : j = i
    · simp [hj,Phase.isAdmitted]
    · simpa [hj] using hchecked j

/-- A stream with a chunk that one caller has handed to `Forward`, as far as `steps` goes, when the
other one closes the gate. -/
def sampleClosing (steps : ℕ) : Callers Bool :=
  (Callers.fresh sampleGate).run failoverMoves
    ([(true,.startInitial false "a"),(true,.go true),(true,.go true),
      (true,.forward false ⟨1,1,1⟩ (content "x"))] ++ List.replicate steps (true,.go true))

theorem sampleClosing_final : (sampleClosing 1).place true = .locked ⟨1,1,1⟩ (content "x") ∧
      ∀ later, ((sampleClosing 1).step failoverMoves false (.close ⟨1,1,1⟩)).Leads failoverMoves
        later → later.shared.sinks = (sampleClosing 1).shared.sinks := by
  have hfacts : (sampleClosing 1).place true = .locked ⟨1,1,1⟩ (content "x") ∧
      (sampleClosing 1).place false = .idle .none ∧
      (sampleClosing 1).shared.available ⟨1,1,1⟩ ∧
      (sampleClosing 1).shared.gate.currentTokenLocked ⟨1,1,1⟩ ∧
      ∀ j, ((sampleClosing 1).place j).isAdmitted = false := by
    decide +kernel
  obtain ⟨hlocked,hidle,havail,hcur,hchecked⟩ := hfacts
  exact ⟨hlocked,(close_final_iff hidle havail hcur).2.mpr hchecked⟩

/-- The chunk passes the check, `Close` returns nil, and the sink is called. -/
theorem sampleClosing_delivers :
    let closed := (sampleClosing 2).step failoverMoves false (.close ⟨1,1,1⟩)
    newFailoverGate 3 0 = .ok (sampleGate,1) ∧
      (Callers.fresh sampleGate).Leads failoverMoves (sampleClosing 2) ∧
      closed.place false = .idle .closed ∧ closed.shared.sinks = [] ∧
      (closed.step failoverMoves true (.go true)).shared.sinks = [(⟨1,1,1⟩,content "x")] := by
  refine ⟨by decide,leads_run _ _ _,?_⟩
  decide +kernel

end Streaming.Failover
