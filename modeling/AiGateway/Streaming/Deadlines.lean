import AiGateway.Streaming.Timeout
import Mathlib.Data.List.Nodup

/-! What a move of a goroutine can do to the timeout controller. -/
namespace Streaming.Timeout
open Adapter Machine Shared

variable {ι ε : Type}

/-- The call of `Next` is past its first check; it never ends the stream with a deadline. -/
def Phase.Beyond (call : ℕ) : Phase ε → Prop
  | .reading c | .read c _ | .judged c _ | .observing c _ => c = call
  | .ending c cause _ => c = call ∧ ∀ f, cause ≠ .failure f
  | _ => False

/-- What only the counters and the generation tell apart. -/
structure Alike (c c' : Controller ε) : Prop where
  headersReceivedAt : c'.headersReceivedAt = c.headersReceivedAt
  firstModelEventAt : c'.firstModelEventAt = c.firstModelEventAt
  stream : c'.stream = c.stream
  guarded : c'.guarded = c.guarded
  terminalErr : c'.terminalErr = c.terminalErr
  timeoutFailure : c'.timeoutFailure = c.timeoutFailure

theorem Alike.refl (c : Controller ε) : Alike c c := ⟨rfl,rfl,rfl,rfl,rfl,rfl⟩

theorem alike_released (c : Controller ε) (err : Option ε) (now : Time) :
    Alike c (c.released err now) := by
  unfold Controller.released
  split <;> exact ⟨rfl,rfl,rfl,rfl,rfl,rfl⟩

variable {c c' : Controller ε}

theorem alike_heartbeat (h : c.recordGatewayHeartbeat = .ok c') : Alike c c' := by
  unfold Controller.recordGatewayHeartbeat at h
  split_ifs at h
  cases h
  exact ⟨rfl,rfl,rfl,rfl,rfl,rfl⟩

/-- The controller becomes terminal. -/
structure Ended (c : Controller ε) (cause : Cause ε) (c' : Controller ε) : Prop where
  live : c.terminalErr = none
  terminalErr : c'.terminalErr = some cause
  headersReceivedAt : c'.headersReceivedAt = c.headersReceivedAt
  firstModelEventAt : c'.firstModelEventAt = c.firstModelEventAt
  stream : c'.stream = c.stream
  guarded : c'.guarded = c.guarded
  failure : (∃ kind, cause = .failure (c.failure kind) ∧
      c'.timeoutFailure = some (c.failure kind)) ∨
    c'.timeoutFailure = none ∧ ∀ f, cause ≠ .failure f

variable {now : Time} {cancellation : Bool}

theorem terminateObserved_eq_some {cause : Cause ε}
    (h : c.terminateObserved cause cancellation now = some c') (hcause : ∀ f, cause ≠ .failure f) :
    Ended c cause c' := by
  unfold Controller.terminateObserved at h
  split_ifs at h with hterm
  all_goals
    cases h
    exact ⟨by simpa using hterm,rfl,rfl,rfl,rfl,rfl,.inr ⟨rfl,hcause⟩⟩

theorem terminateObserved_eq_none {cause : Cause ε}
    (h : c.terminateObserved cause cancellation now = none) : ∃ e, c.terminalErr = some e := by
  unfold Controller.terminateObserved at h
  split_ifs at h with hterm
  exact Option.isSome_iff_exists.mp hterm

theorem timeout_eq_some {kind : TimeoutKind} {generation : ℕ}
    (h : c.timeout kind generation = some c') : Ended c (.failure (c.failure kind)) c' := by
  unfold Controller.timeout at h
  split_ifs at h with hnone
  cases h
  simp only [Bool.or_eq_true,not_or,Bool.not_eq_true,Option.isSome_eq_false_iff,
    Option.isNone_iff_eq_none] at hnone
  exact ⟨hnone.1.1,rfl,rfl,rfl,rfl,rfl,.inl ⟨kind,rfl,rfl⟩⟩

/-- The section of `observe`, where the controller is not terminal. -/
structure Observed (c : Controller ε) (chunk : NormalizedChunk) (c' : Controller ε) : Prop where
  live : c.terminalErr = none
  terminalErr : c'.terminalErr = none
  headersReceivedAt : c'.headersReceivedAt = c.headersReceivedAt
  stream : c'.stream = c.stream
  guarded : c'.guarded = c.guarded
  timeoutFailure : c'.timeoutFailure = c.timeoutFailure
  output : isModelOutput chunk.kind ∨ c.firstModelEventAt.isSome →
    c'.firstModelEventAt.isSome

variable {chunk : NormalizedChunk}

theorem observe_eq_ok (h : c.observe chunk now = .ok c') : Observed c chunk c' := by
  unfold Controller.observe at h
  split at h
  · cases h
  · rename_i hlive
    dsimp only at h
    split_ifs at h with hfirst hmore
    · cases h
      exact ⟨hlive,hlive,rfl,rfl,rfl,rfl,fun _ => rfl⟩
    · cases h
      exact ⟨hlive,hlive,rfl,rfl,rfl,rfl,fun _ => hmore⟩
    · cases h
      refine ⟨hlive,hlive,rfl,rfl,rfl,rfl,fun hout => ?_⟩
      rcases hout with hkind | hsome
      · simp only [Bool.and_eq_true,not_and,Bool.not_eq_true] at hfirst
        have hnone : c.firstModelEventAt.isNone := by simpa using hmore
        rw [hfirst hnone] at hkind
        cases hkind
      · exact hsome

theorem observe_eq_error {e : Cause ε} (h : c.observe chunk now = .error e) :
    c.terminalErr = some e := by
  unfold Controller.observe at h
  split at h
  · cases h
    assumption
  · dsimp only at h
    split_ifs at h

theorem attach_eq_ok {stream : ℕ} (h : c.attach stream now = .ok c') :
    c.terminalErr = none ∧ c.stream = none ∧
      c' = { c with headersReceivedAt := some now, stream := some stream, guarded := true } := by
  unfold Controller.attach at h
  split_ifs at h with hattached
  simp only [Bool.or_eq_true,not_or,Bool.not_eq_true,Option.isSome_eq_false_iff,
    Option.isNone_iff_eq_none] at hattached
  split at h
  · cases h
  · rename_i hlive
    cases h
    exact ⟨hlive,hattached.1.2,rfl⟩

/-! All moves. -/

/-- `closeAttached` returns: there is no stream, or `closeOnce` is through. -/
inductive Released (s : Shared ι ε) (made : Bool) (after : After ε) : Phase ε → Prop
  | none (h : s.controller.stream = none) : Released s made after (.closing made after)
  | done (h : s.closeOnce = .done) (stream : ℕ) : Released s made after
    (.releasing made after stream)

variable (i : ι) (s : Shared ι ε) in
inductive Moved : Phase ε → Shared ι ε → Phase ε → Prop
  | stays (phase : Phase ε) : Moved phase s phase
  | rejects (reply : Reply ε) (e : Cause ε) :
      Moved (.idle reply) { s with attaches := s.attaches + 1 } (.rejecting s.attaches e)
  | attaches (reply : Reply ε) (now : Time) (hlive : s.controller.terminalErr = none)
      (hnone : s.controller.stream = none) :
      Moved (.idle reply) { s with
        controller := { s.controller with
          headersReceivedAt := some now, stream := some s.attaches, guarded := true }
        attaches := s.attaches + 1 } (.idle (.attached s.attaches))
  | discards (stream : ℕ) (e : Cause ε) : Moved (.rejecting stream e)
      { s with closes := s.closes ++ [stream] } (.idle (.rejected stream e))
  | begins (reply : Reply ε) :
      Moved (.idle reply) { s with nexts := s.nexts + 1 } (.waiting s.nexts)
  | locks (call : ℕ) : Moved (.waiting call) { s with nextMu := some i } (.entered call)
  | enters {call : ℕ} {phase : Phase ε} (hlive : s.controller.terminalErr = none)
      (h : phase.Beyond call) : Moved (.entered call) s phase
  | goes {call : ℕ} {phase phase' : Phase ε} (h : phase.Beyond call) (h' : phase'.Beyond call) :
      Moved phase s phase'
  | meets {call : ℕ} {phase : Phase ε} (h : phase = .entered call ∨ phase.Beyond call) {e : Cause ε}
      (hterm : s.controller.terminalErr = some e) :
      Moved phase s (.closing false (.next call e))
  | fails {call : ℕ} {phase : Phase ε} (h : phase.Beyond call)
      (hterm : s.controller.terminalErr.isSome) (e : Cause ε) :
      Moved phase (s.answer call (.error e) false).1 (s.answer call (.error e) false).2
  | observes {call : ℕ} {chunk : NormalizedChunk} {c : Controller ε}
      (h : Observed s.controller chunk c) : Moved (.observing call chunk)
        ({ s with controller := c }.answer call (.ok chunk) false).1
        ({ s with controller := c }.answer call (.ok chunk) false).2
  | replies (reply : Reply ε) {c : Controller ε} (h : Alike s.controller c) :
      Moved (.idle reply) { s with controller := c } (.idle (.done false))
  | interrupts (reply : Reply ε) {cause : Cause ε} {c : Controller ε}
      (h : Ended s.controller cause c) {after : After ε} (hafter : ∀ call e, after ≠ .next call e) :
      Moved (.idle reply) { s with controller := c } (.closing true after)
  | ends {call : ℕ} {cause : Cause ε} {cancellation : Bool} {c : Controller ε}
      (h : Ended s.controller cause c) : Moved (.ending call cause cancellation)
        { s with controller := c } (.closing true (.next call cause))
  | closesAgain (reply : Reply ε) (hterm : s.controller.terminalErr.isSome) :
      Moved (.idle reply) s (.closing false .closeErr)
  | finishes {made : Bool} {after : After ε} {phase : Phase ε} (h : Released s made after phase) :
      Moved phase (s.finish made after).1 (s.finish made after).2
  | finds {made : Bool} {after : After ε} {stream : ℕ} (h : s.controller.stream = some stream) :
      Moved (.closing made after) s (.releasing made after stream)
  | claims {made : Bool} {after : After ε} {stream : ℕ} (h : s.closeOnce = .unused) :
      Moved (.releasing made after stream) { s with closeOnce := .running i }
        (.inClose made after stream)
  | closes {made : Bool} {after : After ε} {stream : ℕ} (err : Option ε) :
      Moved (.inClose made after stream) { s with closes := s.closes ++ [stream] }
        (.leavingClose made after err)
  | leaves {made : Bool} {after : After ε} {err : Option ε} {c : Controller ε}
      (h : Alike s.controller c) : Moved (.leavingClose made after err)
        ({ s with controller := c, closeOnce := .done }.finish made after).1
        ({ s with controller := c, closeOnce := .done }.finish made after).2

theorem moved_judge (i : ι) (env : Env ε) (s : Shared ι ε) (call : ℕ)
    (result : Except ε NormalizedChunk) :
    Moved i s (.judged call result) (s.judge env call result).1 (s.judge env call result).2 := by
  unfold judge
  split
  · exact .goes rfl ⟨rfl,nofun⟩
  · split
    · exact .goes rfl ⟨rfl,nofun⟩
    · split
      · exact .goes rfl ⟨rfl,nofun⟩
      · split
        · exact .goes rfl ⟨rfl,nofun⟩
        · exact .goes rfl rfl

theorem moved_proceed (i : ι) (env : Env ε) (s : Shared ι ε) (phase : Phase ε)
    (hending : ∀ call cause cancellation, phase = .ending call cause cancellation →
      phase.Beyond call) :
    Moved i s phase (s.proceed i env phase).1 (s.proceed i env phase).2 := by
  cases phase with
  | idle reply => exact .stays _
  | rejecting stream e => exact .discards stream e
  | waiting call =>
    unfold proceed
    dsimp only
    split
    · exact .stays _
    · exact .locks call
  | entered call =>
    unfold proceed enter
    dsimp only
    split
    · exact .meets (.inl rfl) ‹_›
    · split
      · exact .enters ‹_› ⟨rfl,nofun⟩
      · exact .enters ‹_› rfl
  | reading call => exact .goes rfl rfl
  | read call result =>
    unfold proceed
    dsimp only
    have hbeyond : Phase.Beyond call (.read call result) := rfl
    split
    · exact .meets (.inr hbeyond) ‹_›
    · exact .goes hbeyond rfl
  | judged call result => exact moved_judge i env s call result
  | ending call cause cancellation =>
    unfold proceed
    dsimp only
    have hbeyond := hending _ _ _ rfl
    split
    · rename_i hnone
      obtain ⟨e,hterm⟩ := terminateObserved_eq_none hnone
      exact .fails hbeyond (hterm ▸ rfl) cause
    · rename_i hsome
      exact .ends (terminateObserved_eq_some hsome hbeyond.2)
  | observing call chunk =>
    unfold proceed
    dsimp only
    have hbeyond : Phase.Beyond call (.observing call chunk : Phase ε) := rfl
    split
    · rename_i hterm
      exact .fails hbeyond (observe_eq_error hterm ▸ rfl) _
    · rename_i hobs
      exact .observes (observe_eq_ok hobs)
  | closing made after =>
    unfold proceed
    dsimp only
    split
    · exact .finishes (.none ‹_›)
    · exact .finds ‹_›
  | releasing made after stream =>
    unfold proceed
    dsimp only
    split
    · exact .claims ‹_›
    · exact .stays _
    · exact .finishes (.done ‹_› stream)
  | inClose made after stream => exact .closes _
  | leavingClose made after err => exact .leaves (alike_released _ _ _)

theorem moved (i : ι) (m : Move ε) (s : Shared ι ε) (phase : Phase ε)
    (hending : ∀ call cause cancellation, phase = .ending call cause cancellation →
      phase.Beyond call) :
    Moved i s phase (timeoutMoves i m s phase).1 (timeoutMoves i m s phase).2 := by
  cases m with
  | go env => exact moved_proceed i env s phase hending
  | attach now =>
    cases phase with
    | idle reply =>
      show Moved i s (.idle reply) (s.attach now).1 (s.attach now).2
      unfold attach
      split
      · exact .rejects reply _
      · rename_i hattached
        obtain ⟨hlive,hnone,rfl⟩ := attach_eq_ok hattached
        exact .attaches reply now hlive hnone
    | _ => exact .stays _
  | next =>
    cases phase with
    | idle reply =>
      unfold timeoutMoves
      dsimp only
      split
      · exact .begins reply
      · exact .stays _
    | _ => exact .stays _
  | close now =>
    cases phase with
    | idle reply =>
      show Moved i s (.idle reply) (s.close now).1 (s.close now).2
      unfold close
      split
      · rename_i hnone
        obtain ⟨e,hterm⟩ := terminateObserved_eq_none hnone
        exact .closesAgain reply (hterm ▸ rfl)
      · rename_i hsome
        exact .interrupts reply (terminateObserved_eq_some hsome nofun) nofun
    | _ => exact .stays _
  | fire kind generation =>
    cases phase with
    | idle reply =>
      show Moved i s (.idle reply) (s.fire kind generation).1 (s.fire kind generation).2
      unfold fire
      split
      · exact .replies reply (.refl _)
      · rename_i hsome
        exact .interrupts reply (timeout_eq_some hsome) nofun
    | _ => exact .stays _
  | cancelled e now =>
    cases phase with
    | idle reply =>
      show Moved i s (.idle reply) (s.cancelled e now).1 (s.cancelled e now).2
      unfold cancelled
      split
      · exact .replies reply (.refl _)
      · rename_i hsome
        exact .interrupts reply (terminateObserved_eq_some hsome nofun) nofun
    | _ => exact .stays _
  | heartbeat =>
    cases phase with
    | idle reply =>
      show Moved i s (.idle reply) s.heartbeat.1 s.heartbeat.2
      unfold heartbeat
      split
      · exact .replies reply (.refl _)
      · exact .replies reply (alike_heartbeat ‹_›)
    | _ => exact .stays _

end Streaming.Timeout
