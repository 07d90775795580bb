import AiGateway.OpenAIAdapter.Error
import AiGateway.Proxy.Fault

/-! Errors on their way to the client: `executionPublicError` (`internal/gateway/chat_response.go`)
and what `apierror.New` accepts. -/
namespace Gateway
open Text Machine Adapter Proxy NormalizedError
open OpenAIAdapter (normalizeError normalizeError_valid)

structure Definition where
  status : ℤ
  (code message type param : String)
  retryable : Bool
  retryAfter : ℤ
  deriving DecidableEq

/-- `^[A-Z][A-Z0-9_]{2,127}$` -/
def codePattern (s : String) : Bool :=
  isWord isUpper (fun c => isUpper c || isDigit c || c == '_') 2 127 s

/-- `^[a-z][a-z0-9_]{2,63}$` -/
def typePattern (s : String) : Bool :=
  isWord isLower (fun c => isLower c || isDigit c || c == '_') 2 63 s

/-- One or more of `[A-Za-z0-9_.]`, brackets and dashes. -/
def paramPattern (s : String) : Bool :=
  s ≠ "" && s.toList.all fun c => isAlnum c || ['_','.','[',']','-'].contains c

def Definition.checks (d : Definition) : List (Bool × String) :=
  [(d.status < 400 || 599 < d.status,"public error status must be between 400 and 599"),
    (!codePattern d.code,
      "public error code must be 3-128 uppercase letters, digits, or underscores"),
    (d.message = "" || 256 < d.message.utf8ByteSize ||
        d.message.toList.any fun c => c == '\r' || c == '\n',
      "public error message must be 1-256 bytes without line breaks"),
    (!typePattern d.type,
      "public error type must be 3-64 lowercase letters, digits, or underscores"),
    (d.param ≠ "" && (128 < d.param.utf8ByteSize || !paramPattern d.param),
      "public error param must be at most 128 safe path characters"),
    (d.retryAfter < 0,"public error retry-after must not be negative"),
    (0 < d.retryAfter && d.retryAfter < millisecond,
      "public error retry-after must be at least one millisecond"),
    (0 < d.retryAfter && !d.retryable,"public error retry-after requires a retryable error")]

/-- `apierror.New`; `MustNew` panics with its error. -/
def newError (d : Definition) : Except String Definition :=
  let d := { d with
    code := trimSpace d.code
    message := trimSpace d.message
    type := trimSpace d.type
    param := trimSpace d.param }
  (firstFailure d.checks).map fun _ => d

def newExecutionAPIError (status : ℤ) (code message : String) (retryable : Bool) (retryAfter : ℤ) :
    Except String Definition :=
  newError ⟨status,code,message,"provider_error","",retryable,retryAfter⟩

def clientClosedRequestStatus : ℤ := 499

def providerPublicError (detail : NormalizedError) : Except String Definition :=
  let retryAfter := detail.retryAfter.getD 0
  match detail.category with
  | .rateLimit => newExecutionAPIError 429 "PROVIDER_RATE_LIMITED"
      "The upstream provider rate limited the request" detail.retryable retryAfter
  | .timeout => newExecutionAPIError 504 "PROVIDER_TIMEOUT" "The upstream provider timed out"
      detail.retryable retryAfter
  | .capacity | .provider5xx => newExecutionAPIError 503 "PROVIDER_UNAVAILABLE"
      "The upstream provider is temporarily unavailable" detail.retryable retryAfter
  | .contentPolicy => newExecutionAPIError 403 "CONTENT_POLICY_REJECTED"
      "The request was rejected by a content policy" false 0
  | .cancelled => newExecutionAPIError clientClosedRequestStatus "REQUEST_CANCELLED"
      "The request was cancelled" false 0
  | .auth | .permission => newExecutionAPIError 502 "PROVIDER_CREDENTIAL_ERROR"
      "The upstream provider rejected gateway credentials" false 0
  | .invalidRequest | .contextLength => newExecutionAPIError 502 "PROVIDER_REQUEST_REJECTED"
      "The upstream provider rejected the normalized request" false 0
  | .protocol => newExecutionAPIError 502 "PROVIDER_PROTOCOL_ERROR"
      "The upstream provider returned an invalid response" false 0
  | .unknown | .other _ => newExecutionAPIError 502 "PROVIDER_ERROR"
      "The upstream provider returned an error" false 0

def executionPublicError (err : Fault) : Except String Definition :=
  if err.is (.circuit .open) || err.is (.circuit .halfOpenSaturated) ||
    err.is (.circuit .capacity) then
    newExecutionAPIError 503 "MODEL_UNAVAILABLE" "No healthy deployment is currently available"
      true second
  else if err.is .canceled then
    newExecutionAPIError clientClosedRequestStatus "REQUEST_CANCELLED"
      "The request was cancelled" false 0
  else if err.is .deadlineExceeded || err.is .upstreamTimeout then
    newExecutionAPIError 504 "PROVIDER_TIMEOUT" "The upstream provider timed out" true second
  else match err.asProvider with
    | some failure => providerPublicError failure.detail
    | none =>
        if err.is .adapterUnavailable then
          newExecutionAPIError 503 "PROVIDER_CONFIGURATION_UNAVAILABLE"
            "Provider configuration is temporarily unavailable" true second
        else if err.is .transport then
          newExecutionAPIError 502 "PROVIDER_CONNECTION_FAILED"
            "The upstream provider could not be reached" true second
        else if err.is .protocol then
          newExecutionAPIError 502 "PROVIDER_PROTOCOL_ERROR"
            "The upstream provider returned an invalid response" false 0
        else newExecutionAPIError 500 "CHAT_EXECUTION_FAILED" "Chat execution failed" false 0

/-! What is valid, and what panics. -/

theorem newError_isOk {d : Definition}
    (htrimmed : trimSpace d.code = d.code ∧ trimSpace d.message = d.message ∧
      trimSpace d.type = d.type ∧ trimSpace d.param = d.param) :
    (newError d).isOk ↔ ∀ check ∈ d.checks, check.1 = false := by
  obtain ⟨hcode,hmsg,htype,hparam⟩ := htrimmed
  rw [← firstFailure_eq_ok,newError,hcode,hmsg,htype,hparam]
  cases h : firstFailure d.checks with
  | error e => simp [Except.map,Except.isOk,Except.toBool]
  | ok u => simp [Except.map,Except.isOk,Except.toBool]

/-- A definition that is accepted as not retryable is accepted with every delay that is allowed. -/
theorem newExecutionAPIError_isOk {status : ℤ} {code message : String} {retryable : Bool}
    {retryAfter : ℤ} (htrimmed : trimSpace code = code ∧ trimSpace message = message)
    (hconst : (newExecutionAPIError status code message false 0).isOk) :
    (newExecutionAPIError status code message retryable retryAfter).isOk ↔
      0 ≤ retryAfter ∧ (0 < retryAfter → millisecond ≤ retryAfter ∧ retryable) := by
  have hfixed : trimSpace "provider_error" = "provider_error" ∧ trimSpace "" = "" := by
    decide +kernel
  have hnew (r : Bool) (a : ℤ) := newError_isOk (d := ⟨status,code,message,"provider_error","",r,a⟩)
    ⟨htrimmed.1,htrimmed.2,hfixed.1,hfixed.2⟩
  rw [newExecutionAPIError,hnew] at hconst ⊢
  simp only [Definition.checks,List.forall_mem_cons] at hconst ⊢
  obtain ⟨hstat,hcode,hmsg,htype,hparam,-⟩ := hconst
  rw [and_iff_right hstat,and_iff_right hcode,and_iff_right hmsg,and_iff_right htype,
    and_iff_right hparam]
  cases retryable <;> simp
  all_goals omega

/-- The categories whose delay is forwarded. -/
def forwards : ErrorCategory → Bool
  | .rateLimit | .timeout | .capacity | .provider5xx => true
  | _ => false

section
variable {detail : NormalizedError} (h : detail.validate = .ok ())
include h

theorem retryAfter_of_validate {d : ℤ} (hd : detail.retryAfter = some d) :
    0 < d ∧ detail.retryable := by
  have hall := firstFailure_eq_ok.mp h
  simp only [checks,List.forall_mem_cons,hd] at hall
  obtain ⟨-,-,-,hretryable,hrange,-⟩ := hall
  simp only [Option.isSome_some,Bool.true_and,Bool.not_eq_false'] at hretryable
  simp only [Option.map_some,Option.getD_some,Bool.or_eq_false_iff,decide_eq_false_iff_not,
    not_le] at hrange
  exact ⟨hrange.1,hretryable⟩

theorem forwarded_isOk {status : ℤ} {code message : String}
    (htrimmed : trimSpace code = code ∧ trimSpace message = message)
    (hconst : (newExecutionAPIError status code message false 0).isOk) :
    (newExecutionAPIError status code message detail.retryable
      (detail.retryAfter.getD 0)).isOk ↔
      ∀ d, detail.retryAfter = some d → millisecond ≤ d := by
  rw [newExecutionAPIError_isOk htrimmed hconst]
  cases hd : detail.retryAfter with
  | none => simp
  | some d =>
    have hvalid := retryAfter_of_validate h hd
    simp [hvalid.1,hvalid.1.le,hvalid.2]

theorem providerPublicError_isOk : (providerPublicError detail).isOk ↔
      (forwards detail.category → ∀ d, detail.retryAfter = some d → millisecond ≤ d) := by
  unfold providerPublicError
  cases detail.category with
  | rateLimit | timeout | capacity | provider5xx =>
    simp only [forwards,forall_const]
    exact forwarded_isOk h (by decide +kernel) (by decide +kernel)
  | _ =>
    refine iff_of_true ?_ (by simp [forwards])
    dsimp only
    decide +kernel

end

/-- A provider error with a shorter delay is what the client is to be told of. -/
def TooShort (err : Fault) : Prop :=
  (err.is (.circuit .open) || err.is (.circuit .halfOpenSaturated) || err.is (.circuit .capacity) ||
      err.is .canceled || err.is .deadlineExceeded || err.is .upstreamTimeout) = false ∧
    ∃ failure, err.asProvider = some failure ∧ forwards failure.detail.category ∧
      ∃ d, failure.detail.retryAfter = some d ∧ d < millisecond

theorem executionPublicError_isOk (err : Fault) :
    (executionPublicError err).isOk ↔ ¬TooShort err := by
  unfold executionPublicError TooShort
  split
  · rename_i hcircuit
    exact iff_of_true (by decide +kernel) (by rw [hcircuit]; simp)
  rename_i hcircuit
  rw [Bool.not_eq_true] at hcircuit
  rw [hcircuit]
  split
  · rename_i hcanceled
    exact iff_of_true (by decide +kernel) (by simp [hcanceled])
  rename_i hcanceled
  split
  · rename_i hdeadline
    rw [Bool.or_eq_true] at hdeadline
    exact iff_of_true (by decide +kernel) (by rcases hdeadline with h | h <;> simp [h])
  rename_i hdeadline
  simp only [Bool.not_eq_true,Bool.or_eq_false_iff] at hcanceled hdeadline
  cases hfail : err.asProvider with
  | some failure =>
    dsimp only
    rw [providerPublicError_isOk failure.valid]
    simp [hcanceled,hdeadline]
  | none =>
    refine iff_of_true ?_ (by simp)
    dsimp only
    split_ifs
    all_goals decide +kernel

/-- A normalized error is valid unless a call is cancelled on a response with an impossible status,
and an error becomes a public one unless the provider asked for a delay under a millisecond. -/
theorem errors_public_iff (parseTime : String → Option Time) :
    (∀ cancelled response now, (normalizeError parseTime cancelled response now).validate = .ok () ↔
      (cancelled → ∀ r, response = some r → r.statusCode = 0 ∨
        100 ≤ r.statusCode ∧ r.statusCode ≤ 599)) ∧
    ∀ err, (executionPublicError err).isOk ↔ ¬TooShort err := by
  exact ⟨normalizeError_valid parseTime,executionPublicError_isOk⟩

/-- A provider that asks for half a millisecond panics the gateway. -/
theorem halfMillisecond_panics :
    let detail := normalizeError (fun _ => some 1500000) false (some ⟨503,"","soon"⟩) 1000000
    detail.retryAfter = some 500000 ∧ ∃ hvalid : detail.validate = .ok (),
      executionPublicError (.provider ⟨detail,hvalid⟩) =
        .error "public error retry-after must be at least one millisecond" := by
  exact ⟨by decide +kernel,by decide +kernel,by decide +kernel⟩

end Gateway
