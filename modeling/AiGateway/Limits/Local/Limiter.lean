import AiGateway.Limits.Evaluator
import AiGateway.Limits.Reply

/-! The process-local limiter (`local.go`). Its four operations hold one mutex, so a run is a
sequence of calls; a clock reading is an argument of the call that takes it. -/
namespace Limits.Local
open Machine

structure Request where
  scopes : List Scope
  estimatedTokens : ℕ

inductive Resource where
  | rpm
  | tpm
  | concurrency

structure SoftThreshold where
  scope : Scope
  resource : Resource
  (usage threshold : ℕ)

structure Rejection where
  scope : Scope
  resource : Resource
  (usage requested hard : ℕ)
  retryAfter : ℤ
  resetAt : Time

/-- A lease is given by its scopes. -/
structure Admission where
  snapshotVersion : ℕ
  lease : Option (List Scope)
  softThresholds : List SoftThreshold
  rejection : Option Rejection

def Admission.allowed (admission : Admission) : Bool :=
  admission.lease.isSome && admission.rejection.isNone

structure UsageSnapshot where
  snapshotVersion : ℕ
  scope : Scope
  (rpm tpm concurrency : ℕ)
  (windowStart resetAt : Time)
  policy : Effective

structure LocalState where
  windowStart : Time
  (rpm tpm concurrency : ℕ)

abbrev States := Scope → Option LocalState

structure LocalLimiter where
  maximumBindings : ℤ
  version : ℕ
  policies : Scope → Option Effective
  states : States

inductive Failure where
  | invalid
  | staleSnapshot
  | policyUnavailable (missing : Option ScopeKind)

def Failure.text : Failure → String
  | .invalid => "local limit input is invalid"
  | .staleSnapshot => "local limit snapshot is stale"
  | .policyUnavailable none => "local limit policy is unavailable"
  | .policyUnavailable (some kind) =>
      "local limit policy is unavailable: missing " ++ kind.text ++ " scope"

def newLocalLimiter (maximumBindings : ℤ) : Option LocalLimiter :=
  if maximumBindings < requiredScopeCount then none
  else some ⟨maximumBindings,0,fun _ => none,fun _ => none⟩

/-! Windows. -/

def minute : Time := 60000000000

/-- `Truncate(time.Minute)` -/
def truncate (now : Time) : Time := now - now % minute

/-- The zero value of a time: the first of January of the year 1. -/
def zeroTime : Time := -62135596800000000000

/-- A window opens for a scope without a state, and moves forward only. -/
def LocalState.advance (windowStart : Time) (state : LocalState) : LocalState :=
  if windowStart > state.windowStart then
    { state with windowStart := windowStart, rpm := 0, tpm := 0 }
  else state

def openWindow (windowStart : Time) : Option LocalState → LocalState
  | none => ⟨windowStart,0,0,0⟩
  | some state => state.advance windowStart

/-- A loop over scopes that rewrites the state of each. -/
def updateEach (f : Scope → Option LocalState → Option LocalState) : List Scope → States → States
  | [], states => states
  | scope :: scopes, states =>
      updateEach f scopes (Function.update states scope (f scope (states scope)))

/-! Hard and soft limits. -/

def rateRejection (now : Time) (scope : Scope) (resource : Resource) (usage requested hard : ℕ)
    (windowStart : Time) : Rejection :=
  let resetAt := windowStart + minute
  ⟨scope,resource,usage,requested,hard,max (timeSub resetAt now) 0,resetAt⟩

def checkHardLimits (now : Time) (scope : Scope) (state : LocalState) (policy : Effective)
    (estimatedTokens : ℕ) : Option Rejection :=
  if exceeds state.rpm 1 policy.rpm.hard then
    some (rateRejection now scope .rpm state.rpm 1 policy.rpm.hard state.windowStart)
  else if exceeds state.tpm estimatedTokens policy.tpm.hard then
    some (rateRejection now scope .tpm state.tpm estimatedTokens policy.tpm.hard state.windowStart)
  else if exceeds state.concurrency 1 policy.concurrency.hard then
    some ⟨scope,.concurrency,state.concurrency,1,policy.concurrency.hard,0,zeroTime⟩
  else none

/-- The first scope in order that denies. -/
def firstRejection (now : Time) (estimatedTokens : ℕ) :
    List (Scope × LocalState × Effective) → Option Rejection
  | [] => none
  | (scope,state,policy) :: rest =>
    match checkHardLimits now scope state policy estimatedTokens with
      | some rejection => some rejection
      | none => firstRejection now estimatedTokens rest

def LocalState.charge (estimatedTokens : ℕ) (state : LocalState) : LocalState :=
  { state with
    rpm := wrapU64 (state.rpm + 1), tpm := wrapU64 (state.tpm + estimatedTokens)
    concurrency := wrapU64 (state.concurrency + 1) }

def appendSoftThresholds (thresholds : List SoftThreshold) (scope : Scope) (state : LocalState)
    (policy : Effective) : List SoftThreshold :=
  let thresholds := if state.rpm > policy.rpm.soft then
    thresholds ++ [⟨scope,.rpm,state.rpm,policy.rpm.soft⟩] else thresholds
  let thresholds := if state.tpm > policy.tpm.soft then
    thresholds ++ [⟨scope,.tpm,state.tpm,policy.tpm.soft⟩] else thresholds
  if state.concurrency > policy.concurrency.soft then
    thresholds ++ [⟨scope,.concurrency,state.concurrency,policy.concurrency.soft⟩]
  else thresholds

/-! The operations. -/

namespace LocalLimiter
variable (limiter : LocalLimiter)

/-- States without a lease go with their configuration. -/
def replace (version : ℕ) (bindings : List Binding) : LocalLimiter × Except Failure Unit :=
  if version = 0 ∨ bindings.length = 0 ∨ (bindings.length : ℤ) > limiter.maximumBindings then
    (limiter,.error .invalid)
  else match collectPolicies [] bindings with
    | none => (limiter,.error .invalid)
    | some next =>
        if version ≤ limiter.version then (limiter,.error .staleSnapshot)
        else
          let states := fun scope => (limiter.states scope).filter fun state =>
            (next.lookup scope).isSome || state.concurrency ≠ 0
          ({ limiter with
            policies := fun scope => next.lookup scope, version := version, states := states },
            .ok ())

/-- The policy of each scope, or the kind of the first scope without one. -/
def findPolicies : List Scope → Except ScopeKind (List Effective)
  | [] => .ok []
  | scope :: scopes => match limiter.policies scope with
      | none => .error scope.kind
      | some policy => (findPolicies scopes).map (policy :: ·)

/-- The end of `Acquire`, with every policy found. The scopes are distinct, so the pointers that the
source keeps are to the states read here. -/
def decideAdmission (now : Time) (scopes : List Scope) (policies : List Effective)
    (estimatedTokens : ℕ) : LocalLimiter × Admission :=
  let windowStart := truncate now
  let states := updateEach (fun _ state => some (openWindow windowStart state)) scopes
    limiter.states
  let opened := scopes.map fun scope => openWindow windowStart (limiter.states scope)
  match firstRejection now estimatedTokens (scopes.zip (opened.zip policies)) with
  | some rejection =>
      ({ limiter with states := states },⟨limiter.version,none,[],some rejection⟩)
  | none =>
      let states := updateEach (fun _ state => state.map (LocalState.charge estimatedTokens)) scopes
        states
      let softThresholds := (scopes.zip (opened.zip policies)).foldl
        (fun thresholds (scope,state,policy) =>
          appendSoftThresholds thresholds scope (state.charge estimatedTokens) policy) []
      ({ limiter with states := states },⟨limiter.version,some scopes,softThresholds,none⟩)

def acquire (now : Time) (request : Request) : LocalLimiter × Except Failure Admission :=
  if request.estimatedTokens = 0 ∨ request.estimatedTokens > maximumValue then
    (limiter,.error .invalid)
  else match normalizeScopes request.scopes with
    | none => (limiter,.error .invalid)
    | some scopes =>
        if limiter.version = 0 then (limiter,.error (.policyUnavailable none))
        else match limiter.findPolicies scopes with
          | .error kind => (limiter,.error (.policyUnavailable (some kind)))
          | .ok policies =>
              let (next,admission) :=
                limiter.decideAdmission now scopes policies request.estimatedTokens
              (next,.ok admission)

def snapshot (now : Time) (scope : Scope) : LocalLimiter × Except Failure UsageSnapshot :=
  if scope.validate = false then (limiter,.error .invalid)
  else match limiter.policies scope with
    | none => (limiter,.error (.policyUnavailable none))
    | some policy =>
        let windowStart := truncate now
        match limiter.states scope with
        | none => (limiter,.ok {
            snapshotVersion := limiter.version, scope := scope, rpm := 0, tpm := 0
            concurrency := 0, windowStart := windowStart, resetAt := windowStart + minute
            policy := policy })
        | some state =>
            let state := state.advance windowStart
            ({ limiter with states := Function.update limiter.states scope (some state) },.ok {
              snapshotVersion := limiter.version, scope := scope, rpm := state.rpm
              tpm := state.tpm, concurrency := state.concurrency
              windowStart := state.windowStart, resetAt := state.windowStart + minute
              policy := policy })

/-- What `release` does to the state of one scope. -/
def releaseState (configured : Bool) : Option LocalState → Option LocalState
  | none => none
  | some state =>
      if state.concurrency = 0 then some state
      else
        let state := { state with concurrency := state.concurrency - 1 }
        if !configured && state.concurrency = 0 then none else some state

def release (scopes : List Scope) : LocalLimiter :=
  { limiter with
    states := updateEach (fun scope => releaseState (limiter.policies scope).isSome) scopes
      limiter.states }

end LocalLimiter

/-! Runs. -/

/-- A lease in a caller's hands; `once` remembers the first `Release`. -/
structure Lease where
  scopes : List Scope
  released : Bool

/-- The limiter and the leases it has granted, in order. -/
structure World where
  limiter : LocalLimiter
  leases : List Lease

inductive Op where
  | replace (version : ℕ) (bindings : List Binding)
  | acquire (now : Time) (request : Request)
  | snapshot (now : Time) (scope : Scope)
  | release (lease : ℕ)

inductive Reply where
  | replaced (result : Except Failure Unit)
  | acquired (result : Except Failure Admission)
  | snapshot (result : Except Failure UsageSnapshot)
  | released

/-- The lease an admission hands out. -/
def granted : Except Failure Admission → List Lease
  | .ok admission => (admission.lease.map fun scopes => ⟨scopes,false⟩).toList
  | .error _ => []

def World.step (w : World) : Op → World × Reply
  | .replace version bindings =>
      let (limiter,result) := w.limiter.replace version bindings
      ({ w with limiter := limiter },.replaced result)
  | .acquire now request =>
      let (limiter,result) := w.limiter.acquire now request
      (⟨limiter,w.leases ++ granted result⟩,.acquired result)
  | .snapshot now scope =>
      let (limiter,result) := w.limiter.snapshot now scope
      ({ w with limiter := limiter },.snapshot result)
  | .release lease => match w.leases[lease]? with
      | some ⟨scopes,false⟩ =>
          (⟨w.limiter.release scopes,w.leases.set lease ⟨scopes,true⟩⟩,.released)
      | _ => (w,.released)

/-- The worlds that calls can lead to, each with the calls and their replies so far. -/
inductive Reaches : World → List (Op × Reply) → Prop
  | start (maximumBindings : ℤ) (limiter : LocalLimiter)
      (h : newLocalLimiter maximumBindings = some limiter) : Reaches ⟨limiter,[]⟩ []
  | step {w : World} {history : List (Op × Reply)} (h : Reaches w history) (op : Op) :
      Reaches (w.step op).1 (history ++ [(op,(w.step op).2)])

end Limits.Local
