import AiGateway.Streaming.Timeout

/-! The gate between the attempts of one stream and its client
(`internal/streaming/failover.go`). -/
namespace Streaming.Failover
open Adapter Interleaving

inductive FailoverError where
  | invalid
  | state
  | afterOutput
  | notEligible
  | limit
  | closed
  | cancelled
  deriving DecidableEq

structure AttemptStart where
  number : ℕ
  deploymentID : String
  failover : Bool
  deriving DecidableEq

structure AttemptToken where
  (gateID generation number : ℕ)
  deriving DecidableEq

structure FailoverGate where
  (maxAttempts gateID : ℕ)
  generation : ℕ := 0
  attemptsStarted : ℕ := 0
  currentAttempt : ℕ := 0
  modelOutputStarted : Bool := false
  firstModelOutputAttempt : ℕ := 0
  modelChunksForwarded : ℕ := 0
  nonModelChunksForwarded : ℕ := 0
  postOutputFailoverDenials : ℕ := 0
  closed : Bool := false
  deriving DecidableEq

def maximumFailoverAttempts : ℕ := 32

/-- The gate, and the sequence that numbers the gates. -/
def newFailoverGate (maxAttempts sequence : ℕ) : Except FailoverError (FailoverGate × ℕ) :=
  if maxAttempts < 1 ∨ maximumFailoverAttempts < maxAttempts then .error .invalid
  else .ok ({ maxAttempts, gateID := sequence + 1 },sequence + 1)

def validateFailoverStart (cancelled : Bool) (deploymentID : String) : Except FailoverError Unit :=
  if deploymentID = "" ∨ 128 < deploymentID.utf8ByteSize then .error .invalid
  else if cancelled then .error .cancelled
  else .ok ()

/-! The sections under `mu`. -/

namespace FailoverGate
variable (gate : FailoverGate)

def reserveAttemptLocked : FailoverGate × AttemptToken :=
  let gate := { gate with
    attemptsStarted := gate.attemptsStarted + 1
    currentAttempt := gate.attemptsStarted + 1
    generation := gate.generation + 1 }
  (gate,⟨gate.gateID,gate.generation,gate.currentAttempt⟩)

def currentTokenLocked (token : AttemptToken) : Bool :=
  token.gateID ≠ 0 && token.gateID = gate.gateID &&
    token.generation = gate.generation && token.number = gate.currentAttempt

def startInitial : Except FailoverError (FailoverGate × AttemptToken) :=
  if gate.closed then .error .closed
  else if gate.attemptsStarted ≠ 0 then .error .state
  else .ok gate.reserveAttemptLocked

/-- A refusal after output is counted. -/
def startFailover (previous : AttemptToken) (failure : Option TimeoutFailure) :
    FailoverGate × Except FailoverError AttemptToken :=
  if gate.closed then (gate,.error .closed)
  else if !gate.currentTokenLocked previous then (gate,.error .state)
  else if gate.modelOutputStarted then
    ({ gate with postOutputFailoverDenials := gate.postOutputFailoverDenials + 1 },
      .error .afterOutput)
  else if (failure.map fun f => f.modelOutputStarted || !f.retryEligibleBeforeOutput).getD true then
    (gate,.error .notEligible)
  else if gate.maxAttempts ≤ gate.attemptsStarted then (gate,.error .limit)
  else (gate.reserveAttemptLocked.1,.ok gate.reserveAttemptLocked.2)

/-- The first section of `Forward`: the check of the token, and the mark of model output. -/
def admits (token : AttemptToken) (chunk : NormalizedChunk) : Except FailoverError FailoverGate :=
  if gate.closed then .error .closed
  else if !gate.currentTokenLocked token then .error .state
  else if isModelOutput chunk.kind && !gate.modelOutputStarted then
    .ok { gate with modelOutputStarted := true, firstModelOutputAttempt := token.number }
  else .ok gate

/-- The second section of `Forward`. -/
def count (chunk : NormalizedChunk) : FailoverGate :=
  if isModelOutput chunk.kind then
    { gate with modelChunksForwarded := gate.modelChunksForwarded + 1 }
  else { gate with nonModelChunksForwarded := gate.nonModelChunksForwarded + 1 }

def close (token : AttemptToken) : Except FailoverError FailoverGate :=
  if !gate.currentTokenLocked token then .error .state
  else .ok { gate with closed := true }

end FailoverGate

/-! Concurrent calls. -/

/-- What a call has returned. -/
inductive Reply where
  | none
  | refused (e : FailoverError)
  | started (token : AttemptToken) (ok : Bool)
  | forwarded
  | sinkFailed
  | closed
  deriving DecidableEq

/-- Where a caller stands. -/
inductive Phase where
  | idle (reply : Reply)
  | reserved (token : AttemptToken) (start : AttemptStart)
  | starting (token : AttemptToken)
  | waiting (token : AttemptToken) (chunk : NormalizedChunk)
  | locked (token : AttemptToken) (chunk : NormalizedChunk)
  | admitted (token : AttemptToken) (chunk : NormalizedChunk)
  | sinking (token : AttemptToken) (chunk : NormalizedChunk)
  | forwarded (chunk : NormalizedChunk)
  deriving DecidableEq

/-- The gate with the holder of `forwardMu`, the tokens that calls have returned, and the calls of
starters and of sinks in the order in which they began. -/
structure Shared (ι : Type) where
  gate : FailoverGate
  forwardMu : Option ι
  returned : List AttemptToken
  starts : List AttemptStart
  sinks : List (AttemptToken × NormalizedChunk)

/-- `go` is the next step of a call; `ok` is the outcome of a callback that returns. -/
inductive Move where
  | startInitial (cancelled : Bool) (deploymentID : String)
  | startFailover (cancelled : Bool) (previous : AttemptToken) (failure : Option TimeoutFailure)
      (deploymentID : String)
  | forward (cancelled : Bool) (token : AttemptToken) (chunk : NormalizedChunk)
  | close (token : AttemptToken)
  | go (ok : Bool)

variable {ι : Type}

/-- Tokens are opaque: a token of this gate was returned by one of its calls. -/
def Shared.available (s : Shared ι) (token : AttemptToken) : Bool :=
  token.gateID ≠ s.gate.gateID || s.returned.contains token

def Shared.startInitial (s : Shared ι) (cancelled : Bool) (deploymentID : String) :
    Shared ι × Phase :=
  match validateFailoverStart cancelled deploymentID with
  | .error e => (s,.idle (.refused e))
  | .ok _ =>
      match s.gate.startInitial with
      | .error e => (s,.idle (.refused e))
      | .ok (gate,token) =>
          ({ s with gate := gate },.reserved token ⟨token.number,deploymentID,false⟩)

def Shared.startFailover (s : Shared ι) (cancelled : Bool) (previous : AttemptToken)
    (failure : Option TimeoutFailure) (deploymentID : String) : Shared ι × Phase :=
  match validateFailoverStart cancelled deploymentID with
  | .error e => (s,.idle (.refused e))
  | .ok _ =>
      match s.gate.startFailover previous failure with
      | (gate,.error e) => ({ s with gate := gate },.idle (.refused e))
      | (gate,.ok token) =>
          ({ s with gate := gate },.reserved token ⟨token.number,deploymentID,true⟩)

def Shared.forward (s : Shared ι) (cancelled : Bool) (token : AttemptToken)
    (chunk : NormalizedChunk) : Shared ι × Phase :=
  if chunk.validate ≠ .ok () then (s,.idle (.refused .invalid))
  else if cancelled then (s,.idle (.refused .cancelled))
  else (s,.waiting token chunk)

def Shared.close (s : Shared ι) (token : AttemptToken) : Shared ι × Phase :=
  match s.gate.close token with
  | .error e => (s,.idle (.refused e))
  | .ok gate => ({ s with gate := gate },.idle .closed)

/-- The next step of a call that is under way. -/
def Shared.proceed (i : ι) (ok : Bool) (s : Shared ι) : Phase → Shared ι × Phase
  | .idle reply => (s,.idle reply)
  | .reserved token start => ({ s with starts := s.starts ++ [start] },.starting token)
  | .starting token => ({ s with returned := token :: s.returned },.idle (.started token ok))
  | .waiting token chunk =>
      if s.forwardMu.isSome then (s,.waiting token chunk)
      else ({ s with forwardMu := some i },.locked token chunk)
  | .locked token chunk =>
      match s.gate.admits token chunk with
      | .error e => ({ s with forwardMu := none },.idle (.refused e))
      | .ok gate => ({ s with gate := gate },.admitted token chunk)
  | .admitted token chunk => ({ s with sinks := s.sinks ++ [(token,chunk)] },.sinking token chunk)
  | .sinking _ chunk =>
      if ok then (s,.forwarded chunk) else ({ s with forwardMu := none },.idle .sinkFailed)
  | .forwarded chunk =>
      ({ s with gate := s.gate.count chunk, forwardMu := none },.idle .forwarded)

/-- A caller begins a call only with a token it can have. -/
def failoverMoves : Moves ι Move (Shared ι) Phase
  | i, .go ok, s, phase => s.proceed i ok phase
  | _, .startInitial cancelled deploymentID, s, .idle _ => s.startInitial cancelled deploymentID
  | _, .startFailover cancelled previous failure deploymentID, s, .idle reply =>
      if s.available previous then s.startFailover cancelled previous failure deploymentID
      else (s,.idle reply)
  | _, .forward cancelled token chunk, s, .idle reply =>
      if s.available token then s.forward cancelled token chunk else (s,.idle reply)
  | _, .close token, s, .idle reply =>
      if s.available token then s.close token else (s,.idle reply)
  | _, _, s, phase => (s,phase)

def Shared.fresh (gate : FailoverGate) : Shared ι := ⟨gate,none,[],[],[]⟩

end Streaming.Failover
