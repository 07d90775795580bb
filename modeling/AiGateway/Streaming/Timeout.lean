import AiGateway.Adapter.Chunk
import AiGateway.Interleaving.Threads

/-! The deadlines of one streaming attempt (`internal/streaming/timeout.go`). Errors of the upstream
and of contexts are of a type `ε`. Each call of `Attach` brings a stream of its own, which is named
by the number of that call. -/
namespace Streaming
open Adapter

/-- A client-visible model delta. -/
def isModelOutput : ChunkKind → Bool
  | .contentDelta | .reasoningDelta | .toolDelta => true
  | _ => false

inductive TimeoutKind where
  | firstToken
  | noProgress
  | total
  deriving DecidableEq

structure TimeoutFailure where
  kind : TimeoutKind
  (headersReceived modelOutputStarted retryEligibleBeforeOutput partialFailure : Bool)
  deriving DecidableEq

end Streaming

namespace Streaming.Timeout
open Adapter Interleaving Machine

variable {ι ε : Type}

inductive Cause (ε : Type) where
  | timeoutState
  | streamClosed
  | failure (failure : TimeoutFailure)
  | external (e : ε)
  deriving DecidableEq

/-- `TimeoutController`. Timers may fire at any time, so that they need no fields. -/
structure Controller (ε : Type) where
  headersReceivedAt : Option Time := none
  firstModelEventAt : Option Time := none
  lastUpstreamEventAt : Option Time := none
  cancellationObservedAt : Option Time := none
  upstreamReleasedAt : Option Time := none
  cancellationPropagation : ℤ := 0
  upstreamEvents : ℕ := 0
  gatewayHeartbeats : ℕ := 0
  stream : Option ℕ := none
  guarded : Bool := false
  terminalErr : Option (Cause ε) := none
  timeoutFailure : Option TimeoutFailure := none
  noProgressGeneration : ℕ := 0
  closeErr : Option ε := none

/-! The sections under `mu`. -/

namespace Controller
variable (c : Controller ε)

def attach (stream : ℕ) (now : Time) : Except (Cause ε) (Controller ε) :=
  if c.headersReceivedAt.isSome || c.stream.isSome || c.guarded then .error .timeoutState
  else match c.terminalErr with
    | some e => .error e
    | none => .ok { c with headersReceivedAt := some now, stream := some stream, guarded := true }

def recordGatewayHeartbeat : Except (Cause ε) (Controller ε) :=
  if c.headersReceivedAt.isNone || c.terminalErr.isSome then .error .timeoutState
  else .ok { c with gatewayHeartbeats := c.gatewayHeartbeats + 1 }

def observe (chunk : NormalizedChunk) (now : Time) : Except (Cause ε) (Controller ε) :=
  match c.terminalErr with
  | some e => .error e
  | none =>
      let c := { c with upstreamEvents := c.upstreamEvents + 1, lastUpstreamEventAt := some now }
      if c.firstModelEventAt.isNone && isModelOutput chunk.kind then
        .ok { c with
          firstModelEventAt := some now, noProgressGeneration := c.noProgressGeneration + 1 }
      else if c.firstModelEventAt.isSome then
        .ok { c with noProgressGeneration := c.noProgressGeneration + 1 }
      else .ok c

/-- The failure of a deadline that expires now. -/
def failure (kind : TimeoutKind) : TimeoutFailure where
  kind := kind
  headersReceived := c.headersReceivedAt.isSome
  modelOutputStarted := c.firstModelEventAt.isSome
  retryEligibleBeforeOutput := kind = .firstToken && c.headersReceivedAt.isSome &&
    !c.firstModelEventAt.isSome
  partialFailure := c.firstModelEventAt.isSome

/-- A firing without effect is `none`. -/
def timeout (kind : TimeoutKind) (generation : ℕ) : Option (Controller ε) :=
  if c.terminalErr.isSome || (kind = .firstToken && c.firstModelEventAt.isSome) ||
      (kind = .noProgress && (c.firstModelEventAt.isNone ||
        generation ≠ c.noProgressGeneration)) then none
  else some { c with
    terminalErr := some (.failure (c.failure kind))
    timeoutFailure := some (c.failure kind)
    noProgressGeneration := c.noProgressGeneration + 1 }

/-- The controller is left alone where it is terminal already. -/
def terminateObserved (cause : Cause ε) (cancellation : Bool) (now : Time) :
    Option (Controller ε) :=
  if c.terminalErr.isSome then none
  else some { c with
    terminalErr := some cause
    timeoutFailure := none
    cancellationObservedAt := if cancellation then some now else c.cancellationObservedAt
    noProgressGeneration := c.noProgressGeneration + 1 }

/-- The end of `closeOnce`. -/
def released (err : Option ε) (now : Time) : Controller ε :=
  match c.cancellationObservedAt with
  | none => { c with closeErr := err }
  | some observed => { c with
      closeErr := err, upstreamReleasedAt := some now
      cancellationPropagation := max 0 (now - observed) }

end Controller

/-! Concurrent calls. -/

inductive Once (ι : Type) where
  | unused
  | running (i : ι)
  | done

/-- What a call does when `closeAttached` has returned. -/
inductive After (ε : Type) where
  | next (call : ℕ) (e : Cause ε)
  | closeAgain
  | closeErr
  | callback

/-- What a call has returned; the results of `Next` are in the log. `made` says that it was this
call that made the controller terminal. -/
inductive Reply (ε : Type) where
  | nothing
  | attached (stream : ℕ)
  | rejected (stream : ℕ) (e : Cause ε)
  | done (made : Bool)
  | closed (made : Bool) (err : Option ε)

/-- Where a goroutine stands. -/
inductive Phase (ε : Type) where
  | idle (reply : Reply ε)
  | rejecting (stream : ℕ) (e : Cause ε)
  | waiting (call : ℕ)
  | entered (call : ℕ)
  | reading (call : ℕ)
  | read (call : ℕ) (result : Except ε NormalizedChunk)
  | judged (call : ℕ) (result : Except ε NormalizedChunk)
  | ending (call : ℕ) (cause : Cause ε) (cancellation : Bool)
  | observing (call : ℕ) (chunk : NormalizedChunk)
  | closing (made : Bool) (after : After ε)
  | releasing (made : Bool) (after : After ε) (stream : ℕ)
  | inClose (made : Bool) (after : After ε) (stream : ℕ)
  | leavingClose (made : Bool) (after : After ε) (err : Option ε)

/-- The controller with the holder of `nextMu`, `closeOnce`, the numbers of calls of `Attach` and of
`Next`, the closed streams, and the results of `Next`. -/
structure Shared (ι ε : Type) where
  controller : Controller ε := {}
  nextMu : Option ι := none
  closeOnce : Once ι := .unused
  attaches : ℕ := 0
  nexts : ℕ := 0
  closes : List ℕ := []
  log : List (ℕ × Except (Cause ε) NormalizedChunk) := []

/-- What happens outside while a call makes its next step: contexts that are cancelled, and what the
upstream returns. -/
structure Env (ε : Type) where
  now : Time := 0
  callerCancelled : Option ε := none
  controllerCancelled : Option ε := none
  result : Except ε NormalizedChunk
  closeErr : Option ε := none

inductive Move (ε : Type) where
  | attach (now : Time)
  | next
  | close (now : Time)
  | fire (kind : TimeoutKind) (generation : ℕ)
  | cancelled (e : ε) (now : Time)
  | heartbeat
  | go (env : Env ε)

namespace Shared
variable (i : ι) (env : Env ε) (s : Shared ι ε)

/-- The results of `Next` are logged where it returns. -/
def answer (call : ℕ) (result : Except (Cause ε) NormalizedChunk) (made : Bool) :
    Shared ι ε × Phase ε :=
  ({ s with nextMu := none, log := s.log ++ [(call,result)] },.idle (.done made))

def finish (made : Bool) : After ε → Shared ι ε × Phase ε
  | .next call e => s.answer call (.error e) made
  | .closeAgain => (s,.closing made .closeErr)
  | .closeErr => (s,.idle (.closed made s.controller.closeErr))
  | .callback => (s,.idle (.done made))

def attach (now : Time) : Shared ι ε × Phase ε :=
  match s.controller.attach s.attaches now with
  | .error e => ({ s with attaches := s.attaches + 1 },.rejecting s.attaches e)
  | .ok c => ({ s with controller := c, attaches := s.attaches + 1 },.idle (.attached s.attaches))

/-- `Close` begins with `terminate(ErrStreamClosed, nil)`. -/
def close (now : Time) : Shared ι ε × Phase ε :=
  match s.controller.terminateObserved .streamClosed false now with
  | none => (s,.closing false .closeErr)
  | some c => ({ s with controller := c },.closing true .closeAgain)

def fire (kind : TimeoutKind) (generation : ℕ) : Shared ι ε × Phase ε :=
  match s.controller.timeout kind generation with
  | none => (s,.idle (.done false))
  | some c => ({ s with controller := c },.closing true .callback)

/-- The callback of a context that was cancelled. -/
def cancelled (e : ε) (now : Time) : Shared ι ε × Phase ε :=
  match s.controller.terminateObserved (.external e) true now with
  | none => (s,.idle (.done false))
  | some c => ({ s with controller := c },.closing true .callback)

def heartbeat : Shared ι ε × Phase ε :=
  match s.controller.recordGatewayHeartbeat with
  | .error _ => (s,.idle (.done false))
  | .ok c => ({ s with controller := c },.idle (.done false))

/-- The first checks of `Next`. -/
def enter (call : ℕ) : Shared ι ε × Phase ε :=
  match s.controller.terminalErr with
  | some e => (s,.closing false (.next call e))
  | none => match env.callerCancelled with
    | some e => (s,.ending call (.external e) true)
    | none => (s,.reading call)

/-- What `Next` does with the result of the upstream, after it has seen no terminal error. -/
def judge (call : ℕ) (result : Except ε NormalizedChunk) : Shared ι ε × Phase ε :=
  match env.callerCancelled with
  | some e => (s,.ending call (.external e) true)
  | none => match env.controllerCancelled with
    | some e => (s,.ending call (.external e) true)
    | none => match result with
      | .error e => (s,.ending call (.external e) false)
      | .ok chunk =>
          if chunk.validate ≠ .ok () then (s,.ending call .timeoutState false)
          else (s,.observing call chunk)

def proceed : Phase ε → Shared ι ε × Phase ε
  | .idle reply => (s,.idle reply)
  | .rejecting stream e => ({ s with closes := s.closes ++ [stream] },.idle (.rejected stream e))
  | .waiting call =>
      if s.nextMu.isSome then (s,.waiting call) else ({ s with nextMu := some i },.entered call)
  | .entered call => s.enter env call
  | .reading call => (s,.read call env.result)
  | .read call result =>
      match s.controller.terminalErr with
      | some e => (s,.closing false (.next call e))
      | none => (s,.judged call result)
  | .judged call result => s.judge env call result
  | .ending call cause cancellation =>
      match s.controller.terminateObserved cause cancellation env.now with
      | none => s.answer call (.error cause) false
      | some c => ({ s with controller := c },.closing true (.next call cause))
  | .observing call chunk =>
      match s.controller.observe chunk env.now with
      | .error e => s.answer call (.error e) false
      | .ok c => { s with controller := c }.answer call (.ok chunk) false
  | .closing made after =>
      match s.controller.stream with
      | none => s.finish made after
      | some stream => (s,.releasing made after stream)
  | .releasing made after stream =>
      match s.closeOnce with
      | .unused => ({ s with closeOnce := .running i },.inClose made after stream)
      | .running _ => (s,.releasing made after stream)
      | .done => s.finish made after
  | .inClose made after stream =>
      ({ s with closes := s.closes ++ [stream] },.leavingClose made after env.closeErr)
  | .leavingClose made after err =>
      { s with controller := s.controller.released err env.now, closeOnce := .done }.finish
        made after

end Shared

/-- `Next` is a method of the stream that `Attach` has returned. -/
def timeoutMoves : Moves ι (Move ε) (Shared ι ε) (Phase ε)
  | i, .go env, s, phase => s.proceed i env phase
  | _, .attach now, s, .idle _ => s.attach now
  | _, .next, s, .idle reply =>
      if s.controller.guarded then ({ s with nexts := s.nexts + 1 },.waiting s.nexts)
      else (s,.idle reply)
  | _, .close now, s, .idle _ => s.close now
  | _, .fire kind generation, s, .idle _ => s.fire kind generation
  | _, .cancelled e now, s, .idle _ => s.cancelled e now
  | _, .heartbeat, s, .idle _ => s.heartbeat
  | _, _, s, phase => (s,phase)

end Streaming.Timeout
