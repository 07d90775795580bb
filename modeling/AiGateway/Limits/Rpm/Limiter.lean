import AiGateway.Limits.Evaluator
import AiGateway.Limits.Reply

/-! The RPM limiter (`redis_rpm.go`): the admission script, the reply parser with its range checks,
and `AcquireRPM` as a program on the Redis server. -/
namespace Limits.Rpm
open Redis Interleaving

/-- The two arguments of one scope. -/
structure ScopeArgument where
  field : String
  hard : ℕ

/-- Read the counter of each scope, or fail with the scope's index. -/
def readCounts (hash : Hash) : ℕ → List ScopeArgument → Except ℕ (List ℕ)
  | _, [] => .ok []
  | index, scope :: scopes =>
      match readCount (hash scope.field) with
      | none => .error index
      | some count => (readCounts hash (index + 1) scopes).map (count :: ·)

/-- The first scope that has used up its hard limit: index, count and limit. -/
def firstDenied : ℕ → List (ScopeArgument × ℕ) → Option (ℕ × ℕ × ℕ)
  | _, [] => none
  | index, (scope,count) :: rest =>
      if count + 1 > scope.hard then some (index,count,scope.hard)
      else firstDenied (index + 1) rest

def redisRPMAdmissionScript (key : String) (expectedWindow : ℤ) (retentionMS : ℕ)
    (scopes : List ScopeArgument) : Script := fun s =>
  let nowMS := s.time.1 * 1000 + s.time.2 / 1000
  if (serverWindow s : ℤ) ≠ expectedWindow then
    (s,some (.ints [2,serverWindow s,nowMS,resetMS s]))
  else match readCounts (s.hash key) 1 scopes with
    | .error index => (s,some (.ints [3,index]))
    | .ok counts => match firstDenied 1 (scopes.zip counts) with
      | some (index,count,hard) =>
          (s,some (.ints [0,index,count,hard,serverWindow s,nowMS,resetMS s]))
      | none => match s.hincrbyAll key (scopes.map ScopeArgument.field) 1 with
        | (s',none) => (s',none)
        | (s',some counts) => (s'.pexpireatHash key (resetMS s + retentionMS),
            some (.ints ([1,(serverWindow s : ℤ),nowMS,resetMS s] ++ counts)))

/-! Results. -/

structure Rejection where
  scope : Scope
  (count hard : ℕ)
  retryAfter : ℤ
  resetAt : Time

structure Admission where
  window : ℤ
  windowKey : String
  (serverTime resetAt : Time)
  counts : List Count
  rejection : Option Rejection

def Admission.allowed (admission : Admission) : Bool :=
  admission.rejection.isNone && admission.counts.length == requiredScopeCount

/-- The last one carries `ErrRedisRPMProtocol` with a text of its own. -/
inductive Failure where
  | invalid
  | evaluation
  | clockBoundary
  | protocol
  | corruptCounter (scope : ScopeKind)

def Failure.text : Failure → String
  | .invalid => "local limit input is invalid"
  | .evaluation => "evaluate Redis RPM script"
  | .clockBoundary => "redis RPM clock boundary did not stabilize"
  | .protocol => "redis RPM response is invalid"
  | .corruptCounter scope =>
      "redis RPM response is invalid: corrupt " ++ scope.text ++ " scope counter"

/-- `errors.Is(err, ErrRedisRPMProtocol)` -/
def Failure.isProtocol : Failure → Bool
  | .protocol | .corruptCounter _ => true
  | _ => false

/-! Replies of the script. -/

structure ParsedResponse where
  code : ℤ
  window : ℤ := 0
  nowMS : ℤ := 0
  resetMS : ℤ := 0
  scopeIndex : ℤ := 0
  count : ℕ := 0
  hard : ℕ := 0
  counts : List ℕ := []

def assignRedisRPMTimeFields (windowValue nowValue resetValue : Value)
    (response : ParsedResponse) : Option ParsedResponse := do
  let window ← redisRPMInt64 windowValue
  let now ← redisRPMInt64 nowValue
  let reset ← redisRPMInt64 resetValue
  if window < 0 ∨ now < 0 ∨ reset ≤ now then none
  else pure { response with window := window, nowMS := now, resetMS := reset }

def assignRedisRPMDenial (values : List Value) (response : ParsedResponse) :
    Option ParsedResponse :=
  match values with
  | [_,indexValue,countValue,hardValue,window,now,reset] => do
      let index ← redisRPMInt64 indexValue
      let count ← redisRPMUint64 countValue
      let hard ← redisRPMUint64 hardValue
      if index < 1 ∨ index > requiredScopeCount ∨ hard = 0 ∨ hard > maximumValue ∨ count < hard then
        none
      else
        let response := { response with scopeIndex := index - 1, count := count, hard := hard }
        assignRedisRPMTimeFields window now reset response
  | _ => none

def assignAllowed (values : List Value) (response : ParsedResponse) : Option ParsedResponse :=
  if values.length ≠ 8 then none
  else match values with
    | _ :: window :: now :: reset :: counts => do
        let response ← assignRedisRPMTimeFields window now reset response
        let counts ← parseCounts 1 counts
        pure { response with counts := counts }
    | _ => none

def redisRPMResponse (raw : Value) : Option ParsedResponse :=
  match raw with
  | .array (first :: rest) => do
      let values := first :: rest
      let code ← redisRPMInt64 first
      let response : ParsedResponse := { code := code }
      if code = 2 then
        match rest with
        | [window,now,reset] => assignRedisRPMTimeFields window now reset response
        | _ => none
      else if code = 0 then assignRedisRPMDenial values response
      else if code = 1 then assignAllowed values response
      else if code = 3 then (assignCorrupt 1 values).map fun i => { response with scopeIndex := i }
      else none
  | _ => none

def deniedRedisRPMAdmission (key : String) (scopes : List Scope) (policies : List Effective)
    (response : ParsedResponse) : Except Failure Admission :=
  match scopes[response.scopeIndex.toNat]?, policies[response.scopeIndex.toNat]? with
  | some scope, some policy =>
      if response.hard ≠ policy.rpm.hard then .error .protocol
      else
        let serverTime := unixMilli response.nowMS
        let resetAt := unixMilli response.resetMS
        .ok {
          window := response.window, windowKey := key, serverTime := serverTime
          resetAt := resetAt, counts := []
          rejection := some ⟨scope,response.count,response.hard,
            max (timeSub resetAt serverTime) 0,resetAt⟩ }
  | _, _ => .error .protocol

def allowedRedisRPMAdmission (key : String) (scopes : List Scope) (policies : List Effective)
    (response : ParsedResponse) : Except Failure Admission :=
  match allowedCounts Effective.rpm true response.counts scopes policies with
  | none => .error .protocol
  | some counts => .ok {
      window := response.window, windowKey := key, serverTime := unixMilli response.nowMS
      resetAt := unixMilli response.resetMS, counts := counts, rejection := none }

def corruptError (scopes : List Scope) (scopeIndex : ℤ) : Failure :=
  match scopes[scopeIndex.toNat]? with
  | some scope => .corruptCounter scope.kind
  | none => .protocol

/-! The call. -/

abbrev RedisRPMLimiter := WindowLimiter "\x7brpm\x7d" 60000

def newRedisRPMLimiter : String → ℤ → ℤ → Option RedisRPMLimiter :=
  newWindowLimiter "\x7brpm\x7d" 60000

/-- How a reply continues the call: ask again for another minute, or return. -/
inductive AcquireStep where
  | retry (window : ℤ)
  | done (result : Except Failure Admission)

/-- What one evaluation of the script means for the call. -/
def acquireStep (limiter : RedisRPMLimiter) (scopes : List Scope) (policies : List Effective)
    (window : ℤ) (raw : Option Value) : AcquireStep :=
  let key := windowKey limiter.keyPrefix window
  match raw with
  | none => .done (.error .evaluation)
  | some raw => match redisRPMResponse raw with
    | none => .done (.error .protocol)
    | some response =>
        if response.code = 2 then .retry response.window
        else if response.code = 0 then .done (deniedRedisRPMAdmission key scopes policies response)
        else if response.code = 1 then .done (allowedRedisRPMAdmission key scopes policies response)
        else if response.code = 3 then .done (.error (corruptError scopes response.scopeIndex))
        else .done (.error .protocol)

def redisRPMArguments (scopes : List Scope) (policies : List Effective) : List ScopeArgument :=
  (scopes.zip policies).map fun (scope,policy) => ⟨redisRPMField scope,policy.rpm.hard⟩

/-- The script of one round of `AcquireRPM`. -/
def admissionScript (limiter : RedisRPMLimiter) (scopes : List Scope) (policies : List Effective)
    (window : ℤ) : Script :=
  redisRPMAdmissionScript (windowKey limiter.keyPrefix window) window limiter.retentionMS
    (redisRPMArguments scopes policies)

abbrev Reply := Except Failure Admission

/-- The loop over `clockRetries`. -/
def acquireLoop (limiter : RedisRPMLimiter) (scopes : List Scope) (policies : List Effective) :
    ℕ → ℤ → Prog Server Oracle Reply
  | 0, _ => .ret (.error .clockBoundary)
  | retries + 1, window =>
      .write (evaluate (admissionScript limiter scopes policies window)) fun raw =>
        match acquireStep limiter scopes policies window raw with
        | .retry window => acquireLoop limiter scopes policies retries window
        | .done result => .ret result

def acquireRPM (limiter : RedisRPMLimiter) (bindings : List Binding) : Prog Server Oracle Reply :=
  match normalizeRPMBindings bindings with
  | none => .ret (.error .invalid)
  | some (scopes,policies) =>
      .read (fun e _ => localWindow e) fun window =>
        acquireLoop limiter scopes policies limiter.clockRetries window

/-- A call of `AcquireRPM`. -/
structure Call where
  limiter : RedisRPMLimiter
  bindings : List Binding

/-- Any number of calls on any number of limiter instances against one server. -/
def system : System Server Oracle Call Reply where
  init := fresh
  start call := acquireRPM call.limiter call.bindings
  env := passes
  guard _ _ _ := True

def sampleLimiter : RedisRPMLimiter where
  keyPrefix := "agw:limits:rpm:v1:\x7brpm\x7d"
  retentionMS := 5000
  clockRetries := 3
  namespaced := by decide +kernel
  retention_pos := by decide
  retention_le := by decide
  retries_pos := by decide
  retries_le := by decide

def sampleCall : Call := ⟨sampleLimiter,sampleBindings 1 2⟩

end Limits.Rpm
