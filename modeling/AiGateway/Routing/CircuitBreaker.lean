import AiGateway.Machine.Arithmetic
import AiGateway.Text.Pattern
import Mathlib.Data.List.AList

/-! The circuit breaker (`circuit_breaker.go`): one record for each deployment, permits, and the
bounded map of records. Every operation holds one mutex after its validation, so a run is a sequence
of calls, each with its own clock reading. -/
namespace Routing
open Text Machine

inductive CircuitState where
  | closed
  | «open»
  | halfOpen
  deriving DecidableEq

inductive CircuitOutcome where
  | succeeded
  | failed
  | ignored
  | other (text : String)
  deriving DecidableEq

structure CircuitOptions where
  failureThreshold : ℕ
  openDuration : ℤ
  (halfOpenMaximumProbes halfOpenSuccessThreshold : ℕ)
  maximumDeployments : ℤ

inductive Failure where
  | invalid (detail : String)
  | «open»
  | halfOpenSaturated
  | capacity
  | permitCompleted
  deriving DecidableEq

def Failure.text : Failure → String
  | .invalid "" => "circuit breaker input is invalid"
  | .invalid detail => "circuit breaker input is invalid: " ++ detail
  | .open => "deployment circuit is open"
  | .halfOpenSaturated => "deployment half-open probes are saturated"
  | .capacity => "circuit breaker state capacity is exhausted"
  | .permitCompleted => "circuit breaker permit is already completed"

def CircuitOptions.validate (options : CircuitOptions) : Except Failure Unit :=
  if options.failureThreshold < 2 ∨ options.failureThreshold > 1000 then
    .error (.invalid "failure threshold must be between 2 and 1000")
  else if options.openDuration < second ∨ options.openDuration > 3600 * second then
    .error (.invalid "open duration must be between 1s and 1h")
  else if options.halfOpenMaximumProbes < 1 ∨ options.halfOpenMaximumProbes > 1000 then
    .error (.invalid "half-open maximum probes must be between 1 and 1000")
  else if options.halfOpenSuccessThreshold < 1 ∨ options.halfOpenSuccessThreshold > 1000 then
    .error (.invalid "half-open success threshold must be between 1 and 1000")
  else if options.maximumDeployments < 1 ∨ options.maximumDeployments > 100000 then
    .error (.invalid "maximum deployments must be between 1 and 100000")
  else .ok ()

def maxU64 : ℕ := 2 ^ 64 - 1

def maxU32 : ℕ := 2 ^ 32 - 1

def saturatingIncrement (value : ℕ) : ℕ := if value = maxU64 then value else value + 1

def circuitSaturatingIncrement32 (value : ℕ) : ℕ := if value = maxU32 then value else value + 1

structure CircuitRecord where
  state : CircuitState
  generation : ℕ
  consecutiveFailures : ℕ := 0
  halfOpenSuccesses : ℕ := 0
  inFlight : ℕ := 0
  openedAt : Time := zeroTime
  retryAt : Time := zeroTime
  (lastTransitionAt lastTouchedAt : Time)
  totalSuccesses : ℕ := 0
  totalFailures : ℕ := 0
  totalIgnored : ℕ := 0
  rejectedOpen : ℕ := 0
  rejectedHalfOpen : ℕ := 0

/-- The map of records, by deployment ID. -/
abbrev Deployments := AList fun _ : String => CircuitRecord

structure CircuitBreaker where
  options : CircuitOptions
  deployments : Deployments
  (evictions rejectedCapacity : ℕ)

def newCircuitBreaker (options : CircuitOptions) : Except Failure CircuitBreaker :=
  match options.validate with
  | .error f => .error f
  | .ok () => .ok ⟨options,∅,0,0⟩

/-! Transitions of one record. -/

namespace CircuitRecord

/-- `advanceOpenLocked` -/
def advanceOpen (now : Time) (record : CircuitRecord) : CircuitRecord :=
  if record.state = .open ∧ ¬now < record.retryAt then
    { record with
      state := .halfOpen, generation := saturatingIncrement record.generation
      halfOpenSuccesses := 0, inFlight := 0, lastTransitionAt := now, lastTouchedAt := now }
  else record

/-- `openLocked` -/
def openCircuit (openDuration : ℤ) (now : Time) (record : CircuitRecord) : CircuitRecord :=
  { record with
    state := .open, generation := saturatingIncrement record.generation
    openedAt := now, retryAt := now + openDuration
    halfOpenSuccesses := 0, inFlight := 0, lastTransitionAt := now, lastTouchedAt := now }

/-- `closeLocked` -/
def closeCircuit (now : Time) (record : CircuitRecord) : CircuitRecord :=
  { record with
    state := .closed, generation := saturatingIncrement record.generation
    consecutiveFailures := 0, halfOpenSuccesses := 0, inFlight := 0
    openedAt := zeroTime, retryAt := zeroTime, lastTransitionAt := now, lastTouchedAt := now }

/-- What a completion of a permit of the record's own generation does, with `inFlight` not zero. -/
def complete (options : CircuitOptions) (now : Time) (outcome : CircuitOutcome)
    (record : CircuitRecord) : CircuitRecord :=
  let record := { record with inFlight := record.inFlight - 1, lastTouchedAt := now }
  match outcome with
  | .succeeded =>
      let record := { record with totalSuccesses := saturatingIncrement record.totalSuccesses }
      match record.state with
      | .closed => { record with consecutiveFailures := 0 }
      | .halfOpen =>
          let record := { record with
            halfOpenSuccesses := circuitSaturatingIncrement32 record.halfOpenSuccesses }
          if record.halfOpenSuccesses ≥ options.halfOpenSuccessThreshold then
            record.closeCircuit now
          else record
      | .open => record
  | .failed =>
      let record := { record with totalFailures := saturatingIncrement record.totalFailures }
      match record.state with
      | .closed =>
          let record := { record with
            consecutiveFailures := circuitSaturatingIncrement32 record.consecutiveFailures }
          if record.consecutiveFailures ≥ options.failureThreshold then
            record.openCircuit options.openDuration now
          else record
      | .halfOpen => record.openCircuit options.openDuration now
      | .open => record
  | .ignored => { record with totalIgnored := saturatingIncrement record.totalIgnored }
  | .other _ => record

end CircuitRecord

structure CircuitSnapshot where
  (policyVersion deploymentID : String)
  tracked : Bool
  state : CircuitState
  healthy : Bool
  generation : ℕ := 0
  consecutiveFailures : ℕ := 0
  halfOpenSuccesses : ℕ := 0
  inFlight : ℕ := 0
  openedAt : Time := zeroTime
  retryAt : Time := zeroTime
  lastTransitionAt : Time := zeroTime
  totalSuccesses : ℕ := 0
  totalFailures : ℕ := 0
  totalIgnored : ℕ := 0
  rejectedOpen : ℕ := 0
  rejectedHalfOpen : ℕ := 0
  (rejectedCapacity evictedClosedCircuits : ℕ)

def circuitPolicyVersion : String := "circuit-breaker/v1"

/-! The map. -/

/-- One round of the loop over the map: the oldest idle closed record so far, and its time. -/
def oldestIdle (oldest : Option (String × Time)) (candidateID : String) (record : CircuitRecord) :
    Option (String × Time) :=
  if record.state ≠ .closed ∨ record.inFlight ≠ 0 then oldest
  else match oldest with
    | none => some (candidateID,record.lastTouchedAt)
    | some (oldestID,oldestTime) =>
        if record.lastTouchedAt < oldestTime ∨
            record.lastTouchedAt = oldestTime ∧ candidateID < oldestID then
          some (candidateID,record.lastTouchedAt)
        else some (oldestID,oldestTime)

/-- The record that makes room; the loop's minimum does not depend on the order of the map. -/
def evictionCandidate (deployments : Deployments) : Option String :=
  (deployments.entries.foldl (fun oldest entry => oldestIdle oldest entry.1 entry.2) none).map
    Prod.fst

namespace CircuitBreaker
variable (breaker : CircuitBreaker)

/-- `allocateLocked`, which gives the new record, or nothing where no record may go. -/
def allocate (deploymentID : String) (now : Time) : Option (CircuitBreaker × CircuitRecord) :=
  let record : CircuitRecord :=
    { state := .closed, generation := 1, lastTransitionAt := now, lastTouchedAt := now }
  if (breaker.deployments.entries.length : ℤ) ≥ breaker.options.maximumDeployments then
    match evictionCandidate breaker.deployments with
    | none => none
    | some oldestID => some ({ breaker with
        deployments := (breaker.deployments.erase oldestID).insert deploymentID record
        evictions := saturatingIncrement breaker.evictions },record)
  else some ({ breaker with deployments := breaker.deployments.insert deploymentID record },record)

def store (deploymentID : String) (record : CircuitRecord) : CircuitBreaker :=
  { breaker with deployments := breaker.deployments.insert deploymentID record }

/-- `validateRead` and `currentTime`; the clock must not read the zero time. -/
def validateRead (now : Time) (deploymentID : String) : Except Failure Unit :=
  if isUUID deploymentID = false then .error (.invalid "")
  else if now = zeroTime then .error (.invalid "")
  else .ok ()

def eligible (record : CircuitRecord) : Bool :=
  record.state = .closed ||
    record.state = .halfOpen && record.inFlight < breaker.options.halfOpenMaximumProbes

def healthy (now : Time) (deploymentID : String) : CircuitBreaker × Except Failure Bool :=
  match validateRead now deploymentID with
  | .error f => (breaker,.error f)
  | .ok () => match breaker.deployments.lookup deploymentID with
    | none => (breaker,.ok true)
    | some record =>
        let record := record.advanceOpen now
        (breaker.store deploymentID record,.ok (breaker.eligible record))

/-- `snapshotLocked` -/
def snapshotRecord (deploymentID : String) (record : CircuitRecord) : CircuitSnapshot where
  policyVersion := circuitPolicyVersion
  deploymentID := deploymentID
  tracked := true
  state := record.state
  healthy := breaker.eligible record
  generation := record.generation
  consecutiveFailures := record.consecutiveFailures
  halfOpenSuccesses := record.halfOpenSuccesses
  inFlight := record.inFlight
  openedAt := record.openedAt
  retryAt := record.retryAt
  lastTransitionAt := record.lastTransitionAt
  totalSuccesses := record.totalSuccesses
  totalFailures := record.totalFailures
  totalIgnored := record.totalIgnored
  rejectedOpen := record.rejectedOpen
  rejectedHalfOpen := record.rejectedHalfOpen
  rejectedCapacity := breaker.rejectedCapacity
  evictedClosedCircuits := breaker.evictions

def snapshot (now : Time) (deploymentID : String) :
    CircuitBreaker × Except Failure CircuitSnapshot :=
  match validateRead now deploymentID with
  | .error f => (breaker,.error f)
  | .ok () => match breaker.deployments.lookup deploymentID with
    | none => (breaker,.ok {
        policyVersion := circuitPolicyVersion, deploymentID := deploymentID, tracked := false
        state := .closed, healthy := true, rejectedCapacity := breaker.rejectedCapacity
        evictedClosedCircuits := breaker.evictions })
    | some record =>
        let record := record.advanceOpen now
        (breaker.store deploymentID record,.ok (breaker.snapshotRecord deploymentID record))

/-- `Acquire` for a record that is there. -/
def acquireRecord (now : Time) (deploymentID : String) (record : CircuitRecord) :
    CircuitBreaker × Except Failure ℕ :=
  let record := record.advanceOpen now
  match record.state with
  | .open => (breaker.store deploymentID { record with
      rejectedOpen := saturatingIncrement record.rejectedOpen, lastTouchedAt := now },.error .open)
  | state =>
      if state = .halfOpen ∧ record.inFlight ≥ breaker.options.halfOpenMaximumProbes then
        (breaker.store deploymentID { record with
          rejectedHalfOpen := saturatingIncrement record.rejectedHalfOpen, lastTouchedAt := now },
          .error .halfOpenSaturated)
      else if record.inFlight = maxU32 then (breaker.store deploymentID record,.error .capacity)
      else (breaker.store deploymentID { record with
        inFlight := record.inFlight + 1, lastTouchedAt := now },.ok record.generation)

/-- The permit that `Acquire` gives out is its deployment and the generation returned here. -/
def acquire (now : Time) (deploymentID : String) : CircuitBreaker × Except Failure ℕ :=
  match validateRead now deploymentID with
  | .error f => (breaker,.error f)
  | .ok () => match breaker.deployments.lookup deploymentID with
    | some record => breaker.acquireRecord now deploymentID record
    | none => match breaker.allocate deploymentID now with
      | none => ({ breaker with rejectedCapacity := saturatingIncrement breaker.rejectedCapacity },
          .error .capacity)
      | some (breaker,record) => breaker.acquireRecord now deploymentID record

/-- The locked part of `Complete`. -/
def complete (now : Time) (deploymentID : String) (generation : ℕ) (outcome : CircuitOutcome) :
    CircuitBreaker × Except Failure Unit :=
  match breaker.deployments.lookup deploymentID with
  | none => (breaker,.ok ())
  | some record =>
      if record.generation ≠ generation then (breaker,.ok ())
      else if record.inFlight = 0 then (breaker,.error (.invalid ""))
      else (breaker.store deploymentID (record.complete breaker.options now outcome),.ok ())

end CircuitBreaker

/-! Runs. -/

/-- A permit. The last two fields are for statements only and no operation reads them: the
period of the deployment in which the permit was issued, and whether its completion got as far
as the record. -/
structure Permit where
  deploymentID : String
  generation : ℕ
  completed : Bool
  period : ℕ
  released : Bool
  deriving DecidableEq

inductive Op where
  | healthy (now : Time) (deploymentID : String)
  | acquire (now : Time) (deploymentID : String)
  | snapshot (now : Time) (deploymentID : String)
  | complete (now : Time) (permit : ℕ) (outcome : CircuitOutcome)

def Op.now : Op → Time
  | .healthy now _ => now
  | .acquire now _ => now
  | .snapshot now _ => now
  | .complete now _ _ => now

inductive Reply where
  | healthy (result : Except Failure Bool)
  | acquired (result : Except Failure ℕ)
  | snapshot (result : Except Failure CircuitSnapshot)
  | completed (result : Except Failure Unit)

/-- The breaker and the permits it has issued, in order. For statements only: `period` numbers the
time between two transitions of a deployment's record, or between two records, and `evidence` has
the successes and failures completed by permits of the present period, the latest first. -/
structure World where
  breaker : CircuitBreaker
  permits : List Permit
  period : String → ℕ
  evidence : String → List CircuitOutcome

namespace World
variable (w : World)

def record (deploymentID : String) : Option CircuitRecord :=
  w.breaker.deployments.lookup deploymentID

/-- A record has come, gone or changed its state. -/
def turns (breaker : CircuitBreaker) (deploymentID : String) : Bool :=
  (breaker.deployments.lookup deploymentID).map CircuitRecord.state ≠
    (w.record deploymentID).map CircuitRecord.state

def nextPeriod (breaker : CircuitBreaker) (deploymentID : String) : ℕ :=
  if w.turns breaker deploymentID then w.period deploymentID + 1 else w.period deploymentID

/-- The world with another breaker and other permits; `noted` is new evidence. -/
def update (breaker : CircuitBreaker) (permits : List Permit)
    (noted : String → List CircuitOutcome) : World where
  breaker := breaker
  permits := permits
  period := w.nextPeriod breaker
  evidence := fun d => if w.turns breaker d then [] else noted d ++ w.evidence d

def isValid : CircuitOutcome → Bool
  | .other _ => false
  | _ => true

/-- The success or failure that the completion of a permit of the present period adds. -/
def noted (permit : Permit) (outcome : CircuitOutcome) (deploymentID : String) :
    List CircuitOutcome :=
  if deploymentID = permit.deploymentID ∧ permit.period = w.period deploymentID ∧
      outcome ≠ .ignored then [outcome]
  else []

/-- `Complete`; a permit that was not issued stands for the nil permit. -/
def complete (now : Time) (i : ℕ) (outcome : CircuitOutcome) : World × Reply :=
  match w.permits[i]? with
  | none => (w,.completed (.error (.invalid "")))
  | some permit =>
      if isUUID permit.deploymentID = false then (w,.completed (.error (.invalid "")))
      else if isValid outcome = false then (w,.completed (.error (.invalid "")))
      else if permit.completed then (w,.completed (.error .permitCompleted))
      else if now = zeroTime then
        -- the permit is spent although nothing was recorded
        (w.update w.breaker (w.permits.set i { permit with completed := true }) fun _ => [],
          .completed (.error (.invalid "")))
      else
        let (breaker,result) :=
          w.breaker.complete now permit.deploymentID permit.generation outcome
        (w.update breaker (w.permits.set i { permit with completed := true, released := true })
          (w.noted permit outcome),.completed result)

def step : Op → World × Reply
  | .healthy now d =>
      let (breaker,result) := w.breaker.healthy now d
      (w.update breaker w.permits fun _ => [], .healthy result)
  | .acquire now d =>
      let (breaker,result) := w.breaker.acquire now d
      let issued := match result with
        | .ok generation => [⟨d,generation,false,w.nextPeriod breaker d,false⟩]
        | .error _ => []
      (w.update breaker (w.permits ++ issued) fun _ => [], .acquired result)
  | .snapshot now d =>
      let (breaker,result) := w.breaker.snapshot now d
      (w.update breaker w.permits fun _ => [], .snapshot result)
  | .complete now i outcome => w.complete now i outcome

end World

/-- The worlds that allowed calls can lead to. -/
inductive Reaches (allowed : World → Op → Prop) : World → Prop
  | start (options : CircuitOptions) (breaker : CircuitBreaker)
      (h : newCircuitBreaker options = .ok breaker) :
      Reaches allowed ⟨breaker,[],fun _ => 0,fun _ => []⟩
  | step {w : World} (h : Reaches allowed w) (op : Op) (hop : allowed w op) :
      Reaches allowed (w.step op).1

end Routing
