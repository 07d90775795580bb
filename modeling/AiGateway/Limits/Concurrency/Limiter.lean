import AiGateway.Limits.Concurrency.Script
import AiGateway.Limits.Reply

/-! The concurrency limiter's three calls (`redis_concurrency.go`): configuration, the reply parsers
with their range checks, and `Acquire`, `Renew` and `Release` as programs on the Redis server. -/
namespace Limits.Concurrency
open Text Redis Interleaving

/-! Configuration. -/

def minimumRedisConcurrencyLeaseMS : ℕ := 100

def maximumRedisConcurrencyLeaseMS : ℕ := 600000

def maximumRedisConcurrencyRetentionMS : ℕ := 3600000

def validRedisConcurrencyPrefix (keyPrefix : String) : Bool :=
  validRedisKeyPrefix "\x7bconcurrency\x7d" keyPrefix

@[ext]
structure RedisConcurrencyLimiter where
  keyPrefix : String
  (leaseMS retainMS : ℕ)
  namespaced : validRedisConcurrencyPrefix keyPrefix
  lease_ge : minimumRedisConcurrencyLeaseMS ≤ leaseMS
  lease_le : leaseMS ≤ maximumRedisConcurrencyLeaseMS
  retain_pos : 1 ≤ retainMS
  retain_le : retainMS ≤ maximumRedisConcurrencyRetentionMS

instance : DecidableEq RedisConcurrencyLimiter :=
  fun _ _ => decidable_of_iff _ RedisConcurrencyLimiter.ext_iff.symm

/-- Durations are given in nanoseconds. -/
def newRedisConcurrencyLimiter (keyPrefix : String) (leaseDuration retention : ℤ) :
    Option RedisConcurrencyLimiter :=
  let leaseMilliseconds := leaseDuration.tdiv 1000000
  let retentionMilliseconds := retention.tdiv 1000000
  if h : validRedisConcurrencyPrefix keyPrefix ∧
      minimumRedisConcurrencyLeaseMS * 1000000 ≤ leaseDuration ∧
      leaseDuration ≤ maximumRedisConcurrencyLeaseMS * 1000000 ∧ 1 ≤ retentionMilliseconds ∧
      retention ≤ maximumRedisConcurrencyRetentionMS * 1000000 then
    some {
      keyPrefix := keyPrefix
      leaseMS := leaseMilliseconds.toNat
      retainMS := retentionMilliseconds.toNat
      namespaced := h.1
      lease_ge := by
        have hge := Int.tdiv_le_tdiv (by decide : (0 : ℤ) < 1000000) h.2.1
        rw [Int.mul_tdiv_cancel _ (by decide)] at hge
        omega
      lease_le := by
        have hle := Int.tdiv_le_tdiv (by decide : (0 : ℤ) < 1000000) h.2.2.1
        rw [Int.mul_tdiv_cancel _ (by decide)] at hle
        omega
      retain_pos := by omega
      retain_le := by
        have hle := Int.tdiv_le_tdiv (by decide : (0 : ℤ) < 1000000) h.2.2.2.2
        rw [Int.mul_tdiv_cancel _ (by decide)] at hle
        omega }
  else none

def maximumRedisConcurrencyLeaseIDBytes : ℕ := 128

def validRedisConcurrencyLeaseID (value : String) : Bool :=
  1 ≤ value.utf8ByteSize && value.utf8ByteSize ≤ maximumRedisConcurrencyLeaseIDBytes &&
    isRef ['.','_',':','-'] value

/-! Requests and results. -/

structure AcquireRequest where
  leaseID : String
  bindings : List Binding
  deriving DecidableEq

structure Usage where
  scope : Scope
  count : ℕ

structure Rejection where
  scope : Scope
  (count hard : ℕ)
  retryAfter : ℤ
  earliestExpiry : Time

structure Handle where
  leaseID : String
  scopes : List Scope
  deriving DecidableEq

def Handle.zero : Handle := ⟨"",[]⟩

structure Admission where
  handle : Handle
  (serverTime expiresAt : Time)
  counts : List Count
  idempotent : Bool
  rejection : Option Rejection

def Admission.allowed (a : Admission) : Bool :=
  a.rejection.isNone && a.handle.leaseID != "" && a.counts.length == requiredScopeCount

structure Renewal where
  handle : Handle
  (serverTime expiresAt : Time)
  usage : List Usage

structure Release where
  handle : Handle
  (serverTime expiresAt : Time)
  usage : List Usage
  (idempotent expired : Bool)

/-- The last two carry `ErrRedisConcurrencyProtocol` with a text of their own. -/
inductive Failure where
  | invalid
  | evaluation (script : String)
  | conflict
  | expired
  | protocol
  | corruptMetadata
  | corruptSet (scope : ScopeKind)
  deriving DecidableEq

def Failure.text : Failure → String
  | .invalid => "local limit input is invalid"
  | .evaluation script => "evaluate Redis concurrency " ++ script ++ " script"
  | .conflict => "redis concurrency lease conflicts with existing state"
  | .expired => "redis concurrency lease is missing or expired"
  | .protocol => "redis concurrency response is invalid"
  | .corruptMetadata => "redis concurrency response is invalid: corrupt lease metadata"
  | .corruptSet scope =>
      "redis concurrency response is invalid: corrupt " ++ scope.text ++ " scope lease set"

/-- Whether the error is an `ErrRedisConcurrencyProtocol`. -/
def Failure.isProtocol : Failure → Bool
  | .protocol | .corruptMetadata | .corruptSet _ => true
  | _ => false

def redisConcurrencyCorruptError (scopeIndex : ℤ) : Failure :=
  if scopeIndex < 0 then .corruptMetadata else .corruptSet (scopeIndexName scopeIndex)

/-! Replies. -/

structure ParsedRedisConcurrency where
  code : ℤ
  nowMS : ℤ := 0
  expiresMS : ℤ := 0
  earliestMS : ℤ := 0
  scopeIndex : ℤ := 0
  count : ℕ := 0
  hard : ℕ := 0
  idempotent : Bool := false
  expired : Bool := false
  counts : List ℕ := []

def assignRedisConcurrencyDenied (values : List Value) (response : ParsedRedisConcurrency) :
    Option ParsedRedisConcurrency :=
  match values with
  | [_,indexValue,countValue,hardValue,earliestValue,nowValue] => do
      let index ← redisRPMInt64 indexValue
      let count ← redisRPMUint64 countValue
      let hard ← redisRPMUint64 hardValue
      let earliest ← redisRPMInt64 earliestValue
      let now ← redisRPMInt64 nowValue
      if index < 1 ∨ index > requiredScopeCount ∨ hard = 0 ∨ hard > maximumValue ∨ count < hard ∨
          now < 0 ∨ earliest ≤ now then none
      else pure { response with
        scopeIndex := index - 1, count := count, hard := hard
        earliestMS := earliest, nowMS := now }
  | _ => none

def assignRedisConcurrencyAllowed (values : List Value) (response : ParsedRedisConcurrency) :
    Option ParsedRedisConcurrency :=
  if values.length ≠ 8 then none
  else match values with
    | _ :: nowValue :: expiresValue :: idempotentValue :: counts => do
        let now ← redisRPMInt64 nowValue
        let expires ← redisRPMInt64 expiresValue
        let idempotent ← redisRPMInt64 idempotentValue
        if now < 0 ∨ expires ≤ now ∨ idempotent ≠ 0 ∧ idempotent ≠ 1 then none
        else do
          let counts ← parseCounts 1 counts
          pure { response with
            nowMS := now, expiresMS := expires, idempotent := idempotent == 1, counts := counts }
    | _ => none

def assignRedisConcurrencyCorrupt (values : List Value) : Option ℤ := assignCorrupt 0 values

def parseRedisConcurrencyAcquire (raw : Value) : Option ParsedRedisConcurrency :=
  match raw with
  | .array (first :: rest) => do
      let values := first :: rest
      let code ← redisRPMInt64 first
      let response : ParsedRedisConcurrency := { code := code }
      if code = 0 then assignRedisConcurrencyDenied values response
      else if code = 1 then assignRedisConcurrencyAllowed values response
      else if code = 2 ∨ code = 4 then if rest.length ≠ 0 then none else pure response
      else if code = 3 then
        (assignRedisConcurrencyCorrupt values).map fun i => { response with scopeIndex := i }
      else none
  | _ => none

/-- The replies of renew and of release differ in the two flags of the latter. -/
def assignRedisConcurrencyLifecycleSuccess (values : List Value) (successLength : ℕ)
    (release : Bool) (response : ParsedRedisConcurrency) : Option ParsedRedisConcurrency :=
  if values.length ≠ successLength then none
  else match values with
    | _ :: nowValue :: expiresValue :: rest => do
        let now ← redisRPMInt64 nowValue
        let expires ← redisRPMInt64 expiresValue
        if now < 0 ∨ expires < 0 then none
        else
          let response := { response with nowMS := now, expiresMS := expires }
          if release then match rest with
            | idempotentValue :: expiredValue :: counts => do
                let idempotent ← redisRPMInt64 idempotentValue
                let expired ← redisRPMInt64 expiredValue
                if idempotent ≠ 0 ∧ idempotent ≠ 1 ∨ expired ≠ 0 ∧ expired ≠ 1 then none
                else do
                  let counts ← parseCounts 0 counts
                  pure { response with
                    idempotent := idempotent == 1, expired := expired == 1, counts := counts }
            | _ => none
          else if expires ≤ now then none
          else do
            let counts ← parseCounts 0 rest
            pure { response with counts := counts }
    | _ => none

def parseRedisConcurrencyLifecycle (raw : Value) (successLength : ℕ) (release : Bool) :
    Option ParsedRedisConcurrency :=
  match raw with
  | .array (first :: rest) => do
      let values := first :: rest
      let code ← redisRPMInt64 first
      let response : ParsedRedisConcurrency := { code := code }
      if code = 0 then assignRedisConcurrencyLifecycleSuccess values successLength release response
      else if code = 1 ∨ code = 2 then if rest.length ≠ 0 then none else pure response
      else if code = 3 then
        (assignRedisConcurrencyCorrupt values).map fun i => { response with scopeIndex := i }
      else none
  | _ => none

def parseRedisConcurrencyRenew (raw : Value) : Option ParsedRedisConcurrency :=
  parseRedisConcurrencyLifecycle raw 7 false

def parseRedisConcurrencyRelease (raw : Value) : Option ParsedRedisConcurrency :=
  parseRedisConcurrencyLifecycle raw 9 true

def deniedRedisConcurrencyAdmission (scopes : List Scope) (policies : List Effective)
    (response : ParsedRedisConcurrency) : Except Failure Admission :=
  match scopes[response.scopeIndex.toNat]?, policies[response.scopeIndex.toNat]? with
  | some scope, some policy =>
      if response.hard ≠ policy.concurrency.hard then .error .protocol
      else
        let serverTime := unixMilli response.nowMS
        let earliest := unixMilli response.earliestMS
        .ok {
          handle := .zero, serverTime := serverTime, expiresAt := 0, counts := []
          idempotent := false
          rejection := some ⟨scope,response.count,response.hard,timeSub earliest serverTime,
            earliest⟩ }
  | _, _ => .error .protocol

def allowedRedisConcurrencyAdmission (leaseID : String) (scopes : List Scope)
    (policies : List Effective) (response : ParsedRedisConcurrency) : Except Failure Admission :=
  match allowedCounts Effective.concurrency (!response.idempotent) response.counts scopes
      policies with
  | none => .error .protocol
  | some counts => .ok {
      handle := ⟨leaseID,scopes⟩, serverTime := unixMilli response.nowMS
      expiresAt := unixMilli response.expiresMS, counts := counts
      idempotent := response.idempotent, rejection := none }

def redisConcurrencyUsage (scopes : List Scope) (counts : List ℕ) : List Usage :=
  (scopes.zip counts).map fun (scope,count) => ⟨scope,count⟩

/-! The calls. -/

def validateRedisConcurrencyHandle (handle : Handle) : Option (List Scope) :=
  if validRedisConcurrencyLeaseID handle.leaseID = false then none
  else normalizeScopes handle.scopes

/-- The keys of the four sets. -/
def RedisConcurrencyLimiter.keys (limiter : RedisConcurrencyLimiter) (scopes : List Scope) :
    List String :=
  scopes.map (scopeKey limiter.keyPrefix)

inductive Call where
  | acquire (limiter : RedisConcurrencyLimiter) (request : AcquireRequest)
  | renew (limiter : RedisConcurrencyLimiter) (handle : Handle)
  | release (limiter : RedisConcurrencyLimiter) (handle : Handle)
  deriving DecidableEq

def Call.limiter : Call → RedisConcurrencyLimiter
  | .acquire limiter _ => limiter
  | .renew limiter _ => limiter
  | .release limiter _ => limiter

inductive Reply where
  | acquired (result : Except Failure Admission)
  | renewed (result : Except Failure Renewal)
  | released (result : Except Failure Release)

def Reply.failure : Reply → Option Failure
  | .acquired (.error f) => some f
  | .renewed (.error f) => some f
  | .released (.error f) => some f
  | _ => none

/-- What `Acquire` makes of a reply. -/
def acquireResult (request : AcquireRequest) (scopes : List Scope) (policies : List Effective)
    (raw : Option Value) : Except Failure Admission :=
  match raw with
  | none => .error (.evaluation "acquire")
  | some raw => match parseRedisConcurrencyAcquire raw with
    | none => .error .protocol
    | some response =>
        if response.code = 0 then deniedRedisConcurrencyAdmission scopes policies response
        else if response.code = 1 then
          allowedRedisConcurrencyAdmission request.leaseID scopes policies response
        else if response.code = 2 then .error .conflict
        else if response.code = 3 then .error (redisConcurrencyCorruptError response.scopeIndex)
        else if response.code = 4 then .error .expired
        else .error .protocol

/-- The switch that `Renew` and `Release` share: a success, or the error of the code. -/
def lifecycleResult {α : Type} (script : String) (parsed : Value → Option ParsedRedisConcurrency)
    (succeeded : ParsedRedisConcurrency → α) (raw : Option Value) : Except Failure α :=
  match raw with
  | none => .error (.evaluation script)
  | some raw => match parsed raw with
    | none => .error .protocol
    | some response =>
        if response.code = 0 then .ok (succeeded response)
        else if response.code = 1 then .error .expired
        else if response.code = 2 then .error .conflict
        else if response.code = 3 then .error (redisConcurrencyCorruptError response.scopeIndex)
        else .error .protocol

def renewResult (handle : Handle) (scopes : List Scope) (raw : Option Value) :
    Except Failure Renewal :=
  lifecycleResult "renew" parseRedisConcurrencyRenew (fun response => {
    handle := handle, serverTime := unixMilli response.nowMS
    expiresAt := unixMilli response.expiresMS
    usage := redisConcurrencyUsage scopes response.counts }) raw

def releaseResult (handle : Handle) (scopes : List Scope) (raw : Option Value) :
    Except Failure Release :=
  lifecycleResult "release" parseRedisConcurrencyRelease (fun response => {
    handle := handle, serverTime := unixMilli response.nowMS
    expiresAt := unixMilli response.expiresMS
    usage := redisConcurrencyUsage scopes response.counts
    idempotent := response.idempotent, expired := response.expired }) raw

variable (sha : String → String)

def acquireScript (limiter : RedisConcurrencyLimiter) (request : AcquireRequest)
    (scopes : List Scope) (policies : List Effective) : Script :=
  redisConcurrencyAcquireScript (limiter.keys scopes) (leaseKey limiter.keyPrefix request.leaseID)
    limiter.leaseMS limiter.retainMS request.leaseID (redisScopeFingerprint sha scopes)
    (policies.map fun policy => policy.concurrency.hard)

def acquire (limiter : RedisConcurrencyLimiter) (request : AcquireRequest) :
    Prog Server Oracle Reply :=
  if validRedisConcurrencyLeaseID request.leaseID = false then .ret (.acquired (.error .invalid))
  else match normalizeRPMBindings request.bindings with
    | none => .ret (.acquired (.error .invalid))
    | some (scopes,policies) =>
        .write (evaluate (acquireScript sha limiter request scopes policies)) fun raw =>
          .ret (.acquired (acquireResult request scopes policies raw))

def renewScript (limiter : RedisConcurrencyLimiter) (handle : Handle) (scopes : List Scope) :
    Script :=
  redisConcurrencyRenewScript (limiter.keys scopes) (leaseKey limiter.keyPrefix handle.leaseID)
    limiter.leaseMS limiter.retainMS handle.leaseID (redisScopeFingerprint sha scopes)

def renew (limiter : RedisConcurrencyLimiter) (handle : Handle) : Prog Server Oracle Reply :=
  match validateRedisConcurrencyHandle handle with
  | none => .ret (.renewed (.error .invalid))
  | some scopes =>
      .write (evaluate (renewScript sha limiter handle scopes)) fun raw =>
        .ret (.renewed (renewResult handle scopes raw))

def releaseScript (limiter : RedisConcurrencyLimiter) (handle : Handle) (scopes : List Scope) :
    Script :=
  redisConcurrencyReleaseScript (limiter.keys scopes) (leaseKey limiter.keyPrefix handle.leaseID)
    handle.leaseID (redisScopeFingerprint sha scopes)

def release (limiter : RedisConcurrencyLimiter) (handle : Handle) : Prog Server Oracle Reply :=
  match validateRedisConcurrencyHandle handle with
  | none => .ret (.released (.error .invalid))
  | some scopes =>
      .write (evaluate (releaseScript sha limiter handle scopes)) fun raw =>
        .ret (.released (releaseResult handle scopes raw))

def Call.program : Call → Prog Server Oracle Reply
  | .acquire limiter request => Concurrency.acquire sha limiter request
  | .renew limiter handle => Concurrency.renew sha limiter handle
  | .release limiter handle => Concurrency.release sha limiter handle

/-- Any number of calls on the limiter instances in use against one server. -/
def system (inUse : RedisConcurrencyLimiter → Prop) : System Server Oracle Call Reply where
  init := fresh
  start := Call.program sha
  env := passes
  guard call _ _ := inUse call.limiter

/-! Instances and requests to evaluate the model on. -/

def sampleLimiter : RedisConcurrencyLimiter where
  keyPrefix := "agw:limits:concurrency:v1:\x7bconcurrency\x7d"
  leaseMS := 30000
  retainMS := 300000
  namespaced := by decide +kernel
  lease_ge := by decide
  lease_le := by decide
  retain_pos := by decide
  retain_le := by decide

/-- The shortest lease and retention. -/
def briefLimiter : RedisConcurrencyLimiter where
  keyPrefix := "agw:limits:concurrency:v1:\x7bconcurrency\x7d"
  leaseMS := 100
  retainMS := 1
  namespaced := by decide +kernel
  lease_ge := by decide
  lease_le := by decide
  retain_pos := le_rfl
  retain_le := by decide

def sampleRequest (leaseID : String) : AcquireRequest := ⟨leaseID,sampleBindings 1 2⟩

def sampleOracle : Oracle := ⟨0,none⟩

end Limits.Concurrency
