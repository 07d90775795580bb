import AiGateway.Adapter.Response
import AiGateway.Text.Decimal

/-! Errors of a provider in the gateway's own terms: `NormalizeError`
(`internal/openaiadapter/error.go`). Durations are in nanoseconds. -/
namespace OpenAIAdapter
open Text Machine Adapter NormalizedError

/-- What is read of a response. -/
structure Response where
  statusCode : ℤ
  (requestID retryAfter : String)

def normalizedError (code : String) (category : ErrorCategory) (retryable : Bool)
    (message : String) : NormalizedError :=
  ⟨code,category,retryable,none,0,message,""⟩

def classifyProviderError (status : ℤ) : NormalizedError :=
  if status = 401 then
    normalizedError "OPENAI_AUTHENTICATION_FAILED" .auth false "OpenAI authentication failed"
  else if status = 403 then
    normalizedError "OPENAI_PERMISSION_DENIED" .permission false "OpenAI denied the request"
  else if status = 408 ∨ status = 504 then
    normalizedError "OPENAI_TIMEOUT" .timeout true "OpenAI request timed out"
  else if status = 429 then
    normalizedError "OPENAI_RATE_LIMITED" .rateLimit true "OpenAI rate limited the request"
  else if status = 503 then
    normalizedError "OPENAI_CAPACITY_UNAVAILABLE" .capacity true "OpenAI is temporarily unavailable"
  else if [400,404,405,409,413,415,422].contains status then
    normalizedError "OPENAI_INVALID_REQUEST" .invalidRequest false "OpenAI rejected the request"
  else if 500 ≤ status ∧ status ≤ 599 then
    normalizedError "OPENAI_PROVIDER_FAILED" .provider5xx true "OpenAI request failed"
  else normalizedError "OPENAI_PROVIDER_ERROR" .unknown false "OpenAI returned an unknown error"

/-- `strconv.ParseInt(value, 10, 32)` -/
def parseInt32 (value : String) : Option ℤ :=
  let number : Option ℤ := match value.toList with
    | '-' :: digits => (decimal (String.ofList digits)).map fun n => -(n : ℤ)
    | '+' :: digits => (decimal (String.ofList digits)).map fun n => (n : ℤ)
    | _ => (decimal value).map fun n => (n : ℤ)
  number.filter fun n => -(2 ^ 31) ≤ n && n < 2 ^ 31

/-- `parseTime` is `http.ParseTime`. -/
def parseRetryAfter (parseTime : String → Option Time) (value : String) (now : Time) : Option ℤ :=
  let value := trimSpace value
  if value = "" then none
  else match parseInt32 value with
    | some seconds => some (seconds * second) |>.filter fun d => 0 < d && d ≤ maximumRetryAfter
    | none => (parseTime value).map (· - now) |>.filter fun d => 0 < d && d ≤ maximumRetryAfter

/-- One of `[A-Za-z0-9]`, then at most 255 of these or of `.`, `_`, `:`, `/` and `-`. -/
def safeProviderRequestID (value : String) : String :=
  let value := trimSpace value
  if isWord isAlnum (fun c => isAlnum c || ['.','_',':','/','-'].contains c) 0 255 value then value
  else ""

def validProviderStatus (status : ℤ) : ℤ := if 100 ≤ status ∧ status ≤ 599 then status else 0

def normalizeError (parseTime : String → Option Time) (cancelled : Bool)
    (response : Option Response) (now : Time) : NormalizedError :=
  let status := response.elim 0 Response.statusCode
  let requestID := response.elim "" fun r => safeProviderRequestID r.requestID
  if cancelled then
    { normalizedError "UPSTREAM_CANCELLED" .cancelled false "Upstream request was cancelled" with
      providerStatus := status, providerRequestID := requestID }
  else
    let normalized := { classifyProviderError status with
      providerStatus := status, providerRequestID := requestID
      retryAfter := if (classifyProviderError status).retryable then
          response.bind fun r => parseRetryAfter parseTime r.retryAfter now
        else none }
    if passes normalized.validate then normalized
    else { normalizedError "OPENAI_PROTOCOL_ERROR" .protocol false
        "OpenAI returned an invalid error response" with
      providerStatus := validProviderStatus status }

theorem safeProviderRequestID_valid (value : String) :
    (validateOptionalIdentifier "error.provider_request_id" (safeProviderRequestID value) 256).1 =
      false := by
  unfold safeProviderRequestID
  dsimp only
  split_ifs with hword
  · have hsize : (trimSpace value).utf8ByteSize ≤ 256 := by
      obtain ⟨c,cs,hchars,-,-,-,hlen⟩ := isWord_iff.mp hword
      rw [utf8ByteSize_of_ascii (isWord_ascii hword (fun c hc => ascii_of_isAlnum hc) ?_),hchars,
        List.length_cons]
      · omega
      · intro c hc
        simp only [Bool.or_eq_true,List.contains_iff_mem,List.mem_cons,List.not_mem_nil,
          or_false] at hc
        rcases hc with hc | rfl | rfl | rfl | rfl | rfl
        · exact ascii_of_isAlnum hc
        all_goals decide
    have hne : trimSpace value ≠ "" := by
      intro hempty
      rw [hempty] at hword
      simp [isWord] at hword
    have hpattern : identifierPattern (trimSpace value) := hword
    simp [validateOptionalIdentifier,validateIdentifier,hpattern,hne,hsize]
  · rfl

/-- The checks of an error with a fixed text that is not to be retried. -/
theorem fixed_valid {code message requestID : String} {category : ErrorCategory} {status : ℤ}
    (hconst : (normalizedError code category false message).validate = .ok ())
    (hid : (validateOptionalIdentifier "error.provider_request_id" requestID 256).1 = false) :
    ({ normalizedError code category false message with
      providerStatus := status, providerRequestID := requestID }).validate = .ok () ↔
        status = 0 ∨ 100 ≤ status ∧ status ≤ 599 := by
  rw [validate,firstFailure_eq_ok] at hconst ⊢
  simp only [checks,normalizedError,List.forall_mem_cons] at hconst ⊢
  obtain ⟨hcode,hcat,hunknown,-,-,-,hmsg,-⟩ := hconst
  simp only [hcode,hcat,hunknown,hmsg,hid]
  simp
  omega

theorem valid_or {detail other : NormalizedError} (h : other.validate = .ok ()) :
    (if passes detail.validate then detail else other).validate = .ok () := by
  split_ifs with hpasses
  · exact passes_iff.mp hpasses
  · exact h

theorem normalizeError_valid (parseTime : String → Option Time) (cancelled : Bool)
    (response : Option Response) (now : Time) :
    (normalizeError parseTime cancelled response now).validate = .ok () ↔
      (cancelled → ∀ r, response = some r → r.statusCode = 0 ∨
        100 ≤ r.statusCode ∧ r.statusCode ≤ 599) := by
  cases cancelled with
  | false =>
    refine iff_of_true ?_ (by simp)
    rw [normalizeError,if_neg (by simp)]
    apply valid_or
    refine (fixed_valid (by decide +kernel) (by decide +kernel)).mpr ?_
    unfold validProviderStatus
    split_ifs with hrange
    · exact .inr hrange
    · exact .inl rfl
  | true =>
    rw [normalizeError,if_pos rfl]
    cases response with
    | none =>
      refine iff_of_true ?_ (by simp)
      exact (fixed_valid (by decide +kernel) (by decide +kernel)).mpr (.inl rfl)
    | some r =>
      dsimp only [Option.elim]
      refine (fixed_valid (by decide +kernel) (safeProviderRequestID_valid r.requestID)).trans ?_
      simp

end OpenAIAdapter
