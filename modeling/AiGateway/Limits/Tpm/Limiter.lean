import AiGateway.Adapter.Usage
import AiGateway.Limits.Reply
import AiGateway.Limits.Tpm.Script

/-! The TPM limiter's two calls (`tpm.go`, `redis_tpm.go`): validation, the reply parsers with their
range checks, and `ReserveTPM` and `SettleTPM` as programs on the Redis server. -/
namespace Limits.Tpm
open Text Redis Interleaving
open Adapter (UsageSource UsageEstimateMetadata)

/-! Plans and actual usage. -/

structure TPMReservationPlan where
  (inputTokens maximumOutputTokens reservedTokens : ℕ)
  metadata : UsageEstimateMetadata

/-- The difference and the sum are unsigned 64-bit operations and wrap. -/
def TPMReservationPlan.validate (plan : TPMReservationPlan) : Bool :=
  plan.metadata.estimated && plan.inputTokens ≠ 0 && plan.maximumOutputTokens ≠ 0 &&
    plan.reservedTokens ≠ 0 && plan.reservedTokens ≤ maximumValue &&
    (plan.inputTokens : ℤ) ≤ (maximumValue - plan.maximumOutputTokens : ℤ) % 2 ^ 64 &&
    plan.reservedTokens == (plan.inputTokens + plan.maximumOutputTokens) % 2 ^ 64 &&
    Machine.passes plan.metadata.validate

structure TPMActual where
  (inputTokens outputTokens tokens : ℕ)
  source : UsageSource
  complete : Bool

def TPMActual.validate (actual : TPMActual) : Bool :=
  actual.inputTokens ≤ maximumValue && actual.outputTokens ≤ maximumValue &&
    actual.inputTokens ≤ maximumValue - actual.outputTokens &&
    actual.tokens == actual.inputTokens + actual.outputTokens &&
    match actual.source with
    | .provider | .estimated | .reconciled => true
    | .adjustment | .other _ => false

/-! Requests and results. -/

def maximumTPMReservationIDBytes : ℕ := 128

def validTPMReservationID (value : String) : Bool :=
  1 ≤ value.utf8ByteSize && value.utf8ByteSize ≤ maximumTPMReservationIDBytes &&
    isRef ['.','_',':','-'] value

structure ReserveRequest where
  reservationID : String
  bindings : List Binding
  plan : TPMReservationPlan

structure Rejection where
  scope : Scope
  (count requested hard : ℕ)
  retryAfter : ℤ
  resetAt : Time

structure Handle where
  reservationID : String
  window : ℤ
  scopes : List Scope
  reservedTokens : ℕ

def Handle.zero : Handle := ⟨"",0,[],0⟩

structure Reservation where
  handle : Handle
  windowKey : String
  (serverTime resetAt expiresAt : Time)
  counts : List Count
  idempotent : Bool
  rejection : Option Rejection

def Reservation.allowed (r : Reservation) : Bool :=
  r.rejection.isNone && r.counts.length == requiredScopeCount && r.handle.reservationID != ""

structure Settlement where
  handle : Handle
  windowKey : String
  serverTime : Time
  actual : TPMActual
  (releasedTokens overageTokens : ℕ)
  counts : List Count
  idempotent : Bool

/-- The last two carry `ErrRedisTPMProtocol` with a text of their own. -/
inductive Failure where
  | invalid
  | evaluation (script : String)
  | clockBoundary
  | conflict
  | expired
  | protocol
  | corruptRecord
  | corruptCounter (scope : ScopeKind)

def Failure.text : Failure → String
  | .invalid => "local limit input is invalid"
  | .evaluation script => "evaluate Redis TPM " ++ script ++ " script"
  | .clockBoundary => "redis TPM clock boundary did not stabilize"
  | .conflict => "redis TPM reservation conflicts with existing state"
  | .expired => "redis TPM reservation is missing or expired"
  | .protocol => "redis TPM response is invalid"
  | .corruptRecord => "redis TPM response is invalid: corrupt reservation record"
  | .corruptCounter scope =>
      "redis TPM response is invalid: corrupt " ++ scope.text ++ " scope counter"

/-- `errors.Is(err, ErrRedisTPMProtocol)` -/
def Failure.isProtocol : Failure → Bool
  | .protocol | .corruptRecord | .corruptCounter _ => true
  | _ => false

def redisTPMCorruptError (scopeIndex : ℤ) : Failure :=
  if scopeIndex < 0 then .corruptRecord else .corruptCounter (scopeIndexName scopeIndex)

/-! Replies of the reserve script. -/

structure ParsedReserve where
  code : ℤ
  window : ℤ := 0
  nowMS : ℤ := 0
  resetMS : ℤ := 0
  expiresMS : ℤ := 0
  scopeIndex : ℤ := 0
  count : ℕ := 0
  hard : ℕ := 0
  idempotent : Bool := false
  counts : List ℕ := []

def assignReserveTime (windowValue nowValue resetValue : Value) (expiresValue : Option Value)
    (response : ParsedReserve) : Option ParsedReserve := do
  let window ← redisRPMInt64 windowValue
  let now ← redisRPMInt64 nowValue
  let reset ← redisRPMInt64 resetValue
  if window < 0 ∨ now < 0 ∨ reset ≤ now then none
  else
    let response := { response with window := window, nowMS := now, resetMS := reset }
    match expiresValue with
    | none => pure response
    | some value => do
        let expires ← redisRPMInt64 value
        if expires ≤ reset then none else pure { response with expiresMS := expires }

def assignDenial (values : List Value) (requested : ℕ) (response : ParsedReserve) :
    Option ParsedReserve :=
  match values with
  | [_,indexValue,countValue,hardValue,window,now,reset] => do
      let index ← redisRPMInt64 indexValue
      let count ← redisRPMUint64 countValue
      let hard ← redisRPMUint64 hardValue
      if index < 1 ∨ index > requiredScopeCount ∨ hard = 0 ∨ hard > maximumValue ∨
          exceeds count requested hard = false then none
      else
        let response := { response with scopeIndex := index - 1, count := count, hard := hard }
        assignReserveTime window now reset none response
  | _ => none

def assignAllowed (values : List Value) (response : ParsedReserve) : Option ParsedReserve :=
  if values.length ≠ 10 then none
  else match values with
    | _ :: window :: now :: reset :: expires :: idempotentValue :: counts => do
        let response ← assignReserveTime window now reset (some expires) response
        let idempotent ← redisRPMInt64 idempotentValue
        if idempotent ≠ 0 ∧ idempotent ≠ 1 then none
        else do
          let counts ← parseCounts 1 counts
          pure { response with idempotent := idempotent == 1, counts := counts }
    | _ => none

def parseRedisTPMReserveResponse (raw : Value) (requested : ℕ) : Option ParsedReserve :=
  match raw with
  | .array (first :: rest) => do
      let values := first :: rest
      let code ← redisRPMInt64 first
      let response : ParsedReserve := { code := code }
      if code = 2 then
        match rest with
        | [window,now,reset] => assignReserveTime window now reset none response
        | _ => none
      else if code = 0 then assignDenial values requested response
      else if code = 1 then assignAllowed values response
      else if code = 3 then (assignCorrupt 0 values).map fun i => { response with scopeIndex := i }
      else if code = 4 then if rest.length ≠ 0 then none else pure response
      else none
  | _ => none

/-- How a reply continues the call: ask again for another minute, or return. -/
inductive ReserveStep where
  | retry (window : ℤ)
  | done (result : Except Failure Reservation)

def deniedRedisTPMReservation (key : String) (request : ReserveRequest) (scopes : List Scope)
    (policies : List Effective) (response : ParsedReserve) : Except Failure Reservation :=
  match scopes[response.scopeIndex.toNat]?, policies[response.scopeIndex.toNat]? with
  | some scope, some policy =>
      if response.hard ≠ policy.tpm.hard then .error .protocol
      else
        let serverTime := unixMilli response.nowMS
        let resetAt := unixMilli response.resetMS
        .ok {
          handle := .zero, windowKey := key, serverTime := serverTime, resetAt := resetAt
          expiresAt := 0, counts := [], idempotent := false
          rejection := some ⟨scope,response.count,request.plan.reservedTokens,response.hard,
            max (timeSub resetAt serverTime) 0,resetAt⟩ }
  | _, _ => .error .protocol

def allowedRedisTPMReservation (key : String) (request : ReserveRequest) (scopes : List Scope)
    (policies : List Effective) (response : ParsedReserve) : Except Failure Reservation :=
  match allowedCounts Effective.tpm (!response.idempotent) response.counts scopes policies with
  | none => .error .protocol
  | some counts => .ok {
      handle := ⟨request.reservationID,response.window,scopes,request.plan.reservedTokens⟩
      windowKey := key, serverTime := unixMilli response.nowMS
      resetAt := unixMilli response.resetMS, expiresAt := unixMilli response.expiresMS
      counts := counts, idempotent := response.idempotent, rejection := none }

abbrev RedisTPMLimiter := WindowLimiter "\x7btpm\x7d" 86400000

/-- What one evaluation of the reserve script means for the call. -/
def reserveStep (limiter : RedisTPMLimiter) (request : ReserveRequest) (scopes : List Scope)
    (policies : List Effective) (window : ℤ) (raw : Option Value) : ReserveStep :=
  let key := windowKey limiter.keyPrefix window
  match raw with
  | none => .done (.error (.evaluation "reserve"))
  | some raw => match parseRedisTPMReserveResponse raw request.plan.reservedTokens with
    | none => .done (.error .protocol)
    | some response =>
        if response.code = 2 then .retry response.window
        else if response.code = 0 then
          if response.window ≠ window then .done (.error .protocol)
          else .done (deniedRedisTPMReservation key request scopes policies response)
        else if response.code = 1 then
          if response.window ≠ window ∨ response.resetMS > 2 ^ 63 - 1 - limiter.retentionMS ∨
              response.expiresMS ≠ response.resetMS + limiter.retentionMS then
            .done (.error .protocol)
          else .done (allowedRedisTPMReservation key request scopes policies response)
        else if response.code = 3 then .done (.error (redisTPMCorruptError response.scopeIndex))
        else if response.code = 4 then .done (.error .conflict)
        else .done (.error .protocol)

/-! Replies of the settle script. -/

structure ParsedSettlement where
  code : ℤ
  nowMS : ℤ := 0
  delta : ℤ := 0
  scopeIndex : ℤ := 0
  idempotent : Bool := false
  counts : List ℕ := []

/-- `redisTPMDelta` -/
def redisTPMDelta (reserved actual : ℕ) : Option ℤ :=
  if actual ≥ reserved then
    if actual - reserved > maximumValue then none else some (actual - reserved : ℕ)
  else if reserved - actual > maximumValue then none else some (-(reserved - actual : ℕ))

def assignSettlement (values : List Value) (handle : Handle) (actual : TPMActual)
    (response : ParsedSettlement) : Option ParsedSettlement :=
  if values.length ≠ 10 then none
  else match values with
    | _ :: nowValue :: reservedValue :: actualValue :: deltaValue :: idempotentValue :: counts => do
        let now ← redisRPMInt64 nowValue
        let reserved ← redisRPMUint64 reservedValue
        let echoedActual ← redisRPMUint64 actualValue
        let delta ← redisRPMInt64 deltaValue
        let idempotent ← redisRPMInt64 idempotentValue
        let wantDelta ← redisTPMDelta handle.reservedTokens actual.tokens
        if now < 0 ∨ reserved ≠ handle.reservedTokens ∨ echoedActual ≠ actual.tokens ∨
            delta ≠ wantDelta ∨ (idempotent ≠ 0 ∧ idempotent ≠ 1) then none
        else do
          let counts ← parseCounts 0 counts
          pure { response with
            nowMS := now, delta := delta, idempotent := idempotent == 1, counts := counts }
    | _ => none

def parseRedisTPMSettleResponse (raw : Value) (handle : Handle) (actual : TPMActual) :
    Option ParsedSettlement :=
  match raw with
  | .array (first :: rest) => do
      let values := first :: rest
      let code ← redisRPMInt64 first
      let response : ParsedSettlement := { code := code }
      if code = 0 then assignSettlement values handle actual response
      else if code = 1 ∨ code = 2 then if rest.length ≠ 0 then none else pure response
      else if code = 3 then (assignCorrupt 0 values).map fun i => { response with scopeIndex := i }
      else none
  | _ => none

def redisTPMSettlement (key : String) (handle : Handle) (scopes : List Scope) (actual : TPMActual)
    (response : ParsedSettlement) : Settlement where
  handle := handle
  windowKey := key
  serverTime := unixMilli response.nowMS
  actual := actual
  releasedTokens := if response.delta < 0 then (-response.delta).toNat else 0
  overageTokens := if response.delta < 0 then 0 else response.delta.toNat
  counts := (scopes.zip response.counts).map fun (scope,count) => ⟨scope,count,0,false⟩
  idempotent := response.idempotent

/-- What one evaluation of the settle script means for the call. -/
def settleResult (limiter : RedisTPMLimiter) (handle : Handle) (scopes : List Scope)
    (actual : TPMActual) (raw : Option Value) : Except Failure Settlement :=
  match raw with
  | none => .error (.evaluation "settle")
  | some raw => match parseRedisTPMSettleResponse raw handle actual with
    | none => .error .protocol
    | some response =>
        if response.code = 0 then
          .ok (redisTPMSettlement (windowKey limiter.keyPrefix handle.window) handle scopes actual
            response)
        else if response.code = 1 then .error .expired
        else if response.code = 2 then .error .conflict
        else if response.code = 3 then .error (redisTPMCorruptError response.scopeIndex)
        else .error .protocol

/-! The calls. -/

inductive Call where
  | reserve (limiter : RedisTPMLimiter) (request : ReserveRequest)
  | settle (limiter : RedisTPMLimiter) (handle : Handle) (actual : TPMActual)

inductive Reply where
  | reserved (result : Except Failure Reservation)
  | settled (result : Except Failure Settlement)

def Reply.failure : Reply → Option Failure
  | .reserved (.error e) => some e
  | .settled (.error e) => some e
  | _ => none

def reserveArguments (scopes : List Scope) (policies : List Effective) : List ScopeArgument :=
  (scopes.zip policies).map fun (scope,policy) =>
    ⟨redisRPMField scope,policy.tpm.hard,policy.tpm.soft⟩

variable (sha : String → String)

/-- The script of one round of `ReserveTPM`. -/
def reserveScript (limiter : RedisTPMLimiter) (request : ReserveRequest) (scopes : List Scope)
    (policies : List Effective) (window : ℤ) : Script :=
  redisTPMReserveScript (windowKey limiter.keyPrefix window) window limiter.retentionMS
    (redisTPMReservationField request.reservationID)
    (redisTPMPendingValue request.plan.reservedTokens (redisScopeFingerprint sha scopes))
    request.plan.reservedTokens (reserveArguments scopes policies)

/-- The loop over `clockRetries`. -/
def reserveLoop (limiter : RedisTPMLimiter) (request : ReserveRequest) (scopes : List Scope)
    (policies : List Effective) : ℕ → ℤ → Prog Server Oracle Reply
  | 0, _ => .ret (.reserved (.error .clockBoundary))
  | retries + 1, window =>
      .write (evaluate (reserveScript sha limiter request scopes policies window)) fun raw =>
        match reserveStep limiter request scopes policies window raw with
        | .retry window => reserveLoop limiter request scopes policies retries window
        | .done result => .ret (.reserved result)

def reserveTPM (limiter : RedisTPMLimiter) (request : ReserveRequest) : Prog Server Oracle Reply :=
  if validTPMReservationID request.reservationID = false ∨ request.plan.validate = false then
    .ret (.reserved (.error .invalid))
  else match normalizeRPMBindings request.bindings with
    | none => .ret (.reserved (.error .invalid))
    | some (scopes,policies) =>
        .read (fun e _ => localWindow e) fun window =>
          reserveLoop sha limiter request scopes policies limiter.clockRetries window

def validateRedisTPMHandle (handle : Handle) : Option (List Scope) :=
  if validTPMReservationID handle.reservationID = false ∨ handle.window < 0 ∨
      handle.reservedTokens = 0 ∨ handle.reservedTokens > maximumValue then none
  else normalizeScopes handle.scopes

/-- The script of `SettleTPM`. -/
def settleScript (limiter : RedisTPMLimiter) (handle : Handle) (scopes : List Scope)
    (actual : TPMActual) : Script :=
  let fingerprint := redisScopeFingerprint sha scopes
  redisTPMSettleScript (windowKey limiter.keyPrefix handle.window)
    (redisTPMReservationField handle.reservationID)
    (redisTPMPendingValue handle.reservedTokens fingerprint)
    (redisTPMSettledValue handle.reservedTokens actual.tokens fingerprint)
    handle.reservedTokens actual.tokens (scopes.map redisRPMField)

def settleTPM (limiter : RedisTPMLimiter) (handle : Handle) (actual : TPMActual) :
    Prog Server Oracle Reply :=
  if actual.validate = false then .ret (.settled (.error .invalid))
  else match validateRedisTPMHandle handle with
    | none => .ret (.settled (.error .invalid))
    | some scopes =>
        .write (evaluate (settleScript sha limiter handle scopes actual)) fun raw =>
          .ret (.settled (settleResult limiter handle scopes actual raw))

def Call.program : Call → Prog Server Oracle Reply
  | .reserve limiter request => reserveTPM sha limiter request
  | .settle limiter handle actual => settleTPM sha limiter handle actual

/-- Any number of calls on any number of limiter instances against one server; a call steps only
where `allowed` permits it. -/
def systemOf (allowed : Call → Server → Prop) : System Server Oracle Call Reply where
  init := fresh
  start := Call.program sha
  env := passes
  guard call _ s := allowed call s

def system : System Server Oracle Call Reply := systemOf sha fun _ _ => True

/-! A limiter and a request to evaluate the model on. -/

def sampleLimiter : RedisTPMLimiter where
  keyPrefix := "agw:limits:tpm:v1:\x7btpm\x7d"
  retentionMS := 3600000
  clockRetries := 2
  namespaced := by decide +kernel
  retention_pos := by decide
  retention_le := by decide
  retries_pos := by decide
  retries_le := by decide

def sampleRequest : ReserveRequest where
  reservationID := "res-1"
  bindings := sampleBindings 80 100
  plan := ⟨10,20,30,⟨true,"bytes","v1","model-a",1,"2024-01"⟩⟩

def sampleHandle (window : ℤ) : Handle := ⟨"res-1",window,sampleHierarchy.scopes,30⟩

def sampleActual : TPMActual := ⟨10,15,25,.provider,true⟩

def sampleOracle (seconds : ℤ) : Oracle := ⟨seconds,none⟩

end Limits.Tpm
