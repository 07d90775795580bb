import AiGateway.Proxy.Fault
import Mathlib.Tactic.Linarith

/-! The retry classifier (`internal/retry/classifier.go`). Durations are in nanoseconds. -/
namespace Retry
open Adapter Machine Proxy

inductive Action where
  | noRetry
  | retryAllowed
  | differentDeploymentOnly
  deriving DecidableEq

inductive Reason where
  | modelOutputStarted
  | callerCancelled
  | callerDeadline
  | authentication
  | permission
  | invalidRequest
  | contextLength
  | contentPolicy
  | providerNotRetryable
  | unknownFailure
  | localAdapter
  | streamTimeoutIneligible
  | rateLimited
  | capacity
  | providerTimeout
  | providerTemporary
  | transport
  | protocol
  | firstTokenTimeout
  | attemptLimit
  | costBudget
  | deadlineExhausted
  | retryAfterExceeds
  | attemptWindow

inductive FailureClass where
  | authentication
  | permission
  | invalidRequest
  | contextLength
  | contentPolicy
  | rateLimit
  | capacity
  | timeout
  | provider5xx
  | protocol
  | transport
  | cancelled
  | localAdapter
  | unknown

inductive SubmissionState where
  | notSubmitted
  | submitted
  | unknown
  deriving DecidableEq

inductive CostPermission where
  | allowed
  | denied
  deriving DecidableEq

structure Input where
  failure : Fault
  modelOutputStarted : Bool
  submission : SubmissionState
  (attemptNumber maximumAttempts : ℤ)
  (now deadline : Time)
  minimumAttemptWindow : ℤ
  additionalCost : CostPermission

def policyVersion : String := "retry-classifier/v1"

structure Decision where
  policyVersion : String
  action : Action
  reason : Reason
  failureClass : FailureClass
  submission : SubmissionState
  (attemptNumber maximumAttempts remainingBudgetMS requiredDelayMS : ℤ)
  modelOutputStarted : Bool

def maximumRetryBudget : ℤ := 24 * 3600 * 1000000000

def maximumAttemptWindow : ℤ := 10 * 60 * 1000000000

structure Candidate where
  action : Action
  reason : Reason
  failureClass : FailureClass
  retryAfter : ℤ := 0
  submissionSensitive : Bool := false

def noRetry (reason : Reason) (failureClass : FailureClass) : Candidate :=
  ⟨.noRetry,reason,failureClass,0,false⟩

/-- A candidate only where the provider marked the failure as retryable. -/
def ifRetryable (failure : NormalizedError) (candidate : Candidate) : Candidate :=
  if failure.retryable then candidate
  else noRetry .providerNotRetryable candidate.failureClass

def classifyNormalized (failure : NormalizedError) : Candidate :=
  let retryAfter := failure.retryAfter.getD 0
  match failure.category with
  | .auth => noRetry .authentication .authentication
  | .permission => noRetry .permission .permission
  | .invalidRequest => noRetry .invalidRequest .invalidRequest
  | .contextLength => noRetry .contextLength .contextLength
  | .contentPolicy => noRetry .contentPolicy .contentPolicy
  | .cancelled => noRetry .callerCancelled .cancelled
  | .unknown => noRetry .unknownFailure .unknown
  | .protocol => ⟨.differentDeploymentOnly,.protocol,.protocol,retryAfter,false⟩
  | .rateLimit => ifRetryable failure ⟨.retryAllowed,.rateLimited,.rateLimit,retryAfter,false⟩
  | .capacity => ifRetryable failure ⟨.retryAllowed,.capacity,.capacity,retryAfter,false⟩
  | .timeout => ifRetryable failure ⟨.retryAllowed,.providerTimeout,.timeout,retryAfter,true⟩
  | .provider5xx =>
      ifRetryable failure ⟨.retryAllowed,.providerTemporary,.provider5xx,retryAfter,true⟩
  | .other _ => noRetry .unknownFailure .unknown

/-- The end of `classifyFailure`, where no provider error is found. -/
def classifyLocal (failure : Fault) : Candidate :=
  if failure.is .adapterUnavailable || failure.is .upstreamInvalidRequest then
    noRetry .localAdapter .localAdapter
  else if failure.is .protocol then
    ⟨.differentDeploymentOnly,.protocol,.protocol,0,false⟩
  else if failure.is .transport || failure.is .upstreamTransport || failure.is .upstreamTimeout then
    ⟨.retryAllowed,.transport,.transport,0,true⟩
  else noRetry .unknownFailure .unknown

def classifyFailure (failure : Fault) : Candidate :=
  match failure.asTimeout with
  | some timeout =>
      if timeout.retryEligibleBeforeOutput then
        ⟨.differentDeploymentOnly,.firstTokenTimeout,.timeout,0,false⟩
      else noRetry .streamTimeoutIneligible .timeout
  | none =>
      if failure.is .canceled then noRetry .callerCancelled .cancelled
      else if failure.is .deadlineExceeded then noRetry .callerDeadline .cancelled
      else match failure.asProvider with
        | some provider => classifyNormalized provider.detail
        | none => match failure.asNormalized with
          | some normalized =>
              if passes normalized.validate then classifyNormalized normalized
              else classifyLocal failure
          | none => classifyLocal failure

/-- `validateInput`; the enumerations are valid by their types. -/
def validateInput (input : Input) : Bool :=
  1 ≤ input.attemptNumber && 1 ≤ input.maximumAttempts && input.maximumAttempts ≤ 32 &&
    input.attemptNumber ≤ input.maximumAttempts &&
    input.now ≠ zeroTime && input.deadline ≠ zeroTime &&
    input.deadline - input.now ≤ maximumRetryBudget &&
    0 < input.minimumAttemptWindow && input.minimumAttemptWindow ≤ maximumAttemptWindow

def durationMillisecondsCeil (value : ℤ) : ℤ :=
  if value ≤ 0 then 0 else (value + 1000000 - 1) / 1000000

/-- The budget that refuses another attempt, in the order they are checked. -/
def refusal (input : Input) (candidate : Candidate) : Option Reason :=
  let remaining := input.deadline - input.now
  if input.attemptNumber ≥ input.maximumAttempts then some .attemptLimit
  else if input.additionalCost ≠ .allowed then some .costBudget
  else if remaining ≤ 0 then some .deadlineExhausted
  else if remaining ≤ input.minimumAttemptWindow then some .attemptWindow
  else if candidate.retryAfter > remaining - input.minimumAttemptWindow then some .retryAfterExceeds
  else none

/-- `Classify`; no decision stands for `ErrInvalid`. -/
def classify (input : Input) : Option Decision :=
  if validateInput input = false then none
  else
    let candidate := classifyFailure input.failure
    let decision : Decision := {
      policyVersion := policyVersion, action := candidate.action, reason := candidate.reason
      failureClass := candidate.failureClass, submission := input.submission
      attemptNumber := input.attemptNumber, maximumAttempts := input.maximumAttempts
      remainingBudgetMS := durationMillisecondsCeil (input.deadline - input.now)
      requiredDelayMS := durationMillisecondsCeil candidate.retryAfter
      modelOutputStarted := input.modelOutputStarted ||
        (input.failure.asTimeout.map (·.modelOutputStarted)).getD false }
    if decision.modelOutputStarted then
      some { decision with action := .noRetry, reason := .modelOutputStarted }
    else if candidate.action = .noRetry then some decision
    else match refusal input candidate with
      | some reason => some { decision with action := .noRetry, reason := reason }
      | none =>
          if candidate.submissionSensitive && input.submission ≠ .notSubmitted then
            some { decision with action := .differentDeploymentOnly }
          else some decision

variable {input : Input} {candidate : Candidate} {decision : Decision}

theorem refusal_eq_none (h : refusal input candidate = none) :
    input.attemptNumber < input.maximumAttempts ∧ input.additionalCost = .allowed ∧
      input.minimumAttemptWindow < input.deadline - input.now ∧ 0 < input.deadline - input.now ∧
      candidate.retryAfter ≤ input.deadline - input.now - input.minimumAttemptWindow := by
  unfold refusal at h
  dsimp only at h
  split_ifs at h with hlimit hcost hdeadline hwindow hafter
  exact ⟨not_le.mp hlimit,not_not.mp hcost,not_le.mp hwindow,not_le.mp hdeadline,not_lt.mp hafter⟩

/-- A decision for another attempt is made before any output, and within every budget. -/
theorem classify_spec (h : classify input = some decision) :
    decision.remainingBudgetMS = durationMillisecondsCeil (input.deadline - input.now) ∧
      decision.requiredDelayMS =
        durationMillisecondsCeil (classifyFailure input.failure).retryAfter ∧
      (decision.action ≠ .noRetry → (input.modelOutputStarted ||
          (input.failure.asTimeout.map (·.modelOutputStarted)).getD false) = false ∧
        refusal input (classifyFailure input.failure) = none) := by
  unfold classify at h
  simp only at h
  split at h
  · cases h
  · split at h
    · cases h
      exact ⟨rfl,rfl,fun hretry => absurd rfl hretry⟩
    · rename_i hstarted
      split at h
      · rename_i hno
        cases h
        exact ⟨rfl,rfl,fun hretry => absurd hno hretry⟩
      · split at h
        · cases h
          exact ⟨rfl,rfl,fun hretry => absurd rfl hretry⟩
        · rename_i hrefusal
          split at h
          all_goals
            cases h
            exact ⟨rfl,rfl,fun _ => ⟨Bool.eq_false_iff.mpr hstarted,hrefusal⟩⟩

theorem classify_attemptNumber (h : classify input = some decision)
    (hretry : decision.action ≠ .noRetry) : input.attemptNumber < input.maximumAttempts :=
  (refusal_eq_none ((classify_spec h).2.2 hretry).2).1

/-- Milliseconds that are rounded up fit where the whole milliseconds of the room hold them. -/
theorem durationMillisecondsCeil_le {value room : ℤ} (hroom : 0 ≤ room) :
    durationMillisecondsCeil value * 1000000 ≤ room ↔ value ≤ room / 1000000 * 1000000 := by
  unfold durationMillisecondsCeil
  split_ifs <;> omega

/-- The recorded milliseconds are rounded up: the delay respects the deadline, and the allowance is
not overstated, where this rounding changes nothing. -/
theorem classify_deadline_iff (h : classify input = some decision) :
    ((decision.action ≠ .noRetry →
        input.now + decision.requiredDelayMS * 1000000 + input.minimumAttemptWindow ≤
          input.deadline ∧ input.modelOutputStarted = false ∧
        (∀ failure, input.failure.asTimeout = some failure → failure.modelOutputStarted = false) ∧
        input.attemptNumber < input.maximumAttempts ∧ input.additionalCost = .allowed) ∧
      decision.remainingBudgetMS * 1000000 ≤ max (input.deadline - input.now) 0) ↔
    (decision.action ≠ .noRetry → (classifyFailure input.failure).retryAfter ≤
        (input.deadline - input.now - input.minimumAttemptWindow) / 1000000 * 1000000) ∧
      (input.deadline ≤ input.now ∨ 1000000 ∣ input.deadline - input.now) := by
  obtain ⟨hbudget,hdelay,hallow⟩ := classify_spec h
  refine and_congr (forall_congr' fun hretry => ?_) ?_
  · obtain ⟨hstarted,hrefusal⟩ := hallow hretry
    obtain ⟨hatt,hcost,hwindow,-,-⟩ := refusal_eq_none hrefusal
    rw [Bool.or_eq_false_iff] at hstarted
    have hfail : ∀ failure, input.failure.asTimeout = some failure →
        failure.modelOutputStarted = false := by
      intro failure hfail
      simpa [hfail] using hstarted.2
    rw [hdelay,← durationMillisecondsCeil_le (by omega)]
    constructor
    · rintro ⟨hfits,-⟩
      linarith
    · intro hfits
      exact ⟨by linarith,hstarted.1,hfail,hatt,hcost⟩
  · rw [hbudget,durationMillisecondsCeil_le (le_max_right _ _)]
    dsimp only [Time]
    omega

/-- A first attempt that may be followed by another one of a millisecond. -/
def sampleInput (failure : Fault) (deadline : Time) : Input :=
  ⟨failure,false,.notSubmitted,1,2,0,deadline,1000000,.allowed⟩

theorem sampleInput_whole : ∃ decision, classify (sampleInput (.timeout ⟨false,true⟩) 3000000) =
    some decision ∧ decision.remainingBudgetMS * 1000000 ≤ max (3000000 - 0) 0 :=
  have h : classify (sampleInput (.timeout ⟨false,true⟩) 3000000) = some _ := rfl
  ⟨_,h,((classify_deadline_iff h).mpr ⟨fun _ => by decide,.inr (by decide)⟩).2⟩

/-- A delay of one and a half milliseconds is recorded as two, which end after the deadline; the two
and a half milliseconds that are left are recorded as three. -/
theorem sampleInput_late :
    let input := sampleInput
      (.normalized ⟨"RATE_LIMITED",.rateLimit,true,some 1500000,429,"Slow down",""⟩) 2500000
    (classify input).map (fun d => (d.action,decide (input.deadline <
        input.now + d.requiredDelayMS * 1000000 + input.minimumAttemptWindow),
      decide (max (input.deadline - input.now) 0 < d.remainingBudgetMS * 1000000))) =
    some (.retryAllowed,true,true) := by
  decide +kernel

/-- `Decision.Validate`; the enumerations are valid by their types. -/
def Decision.validate (d : Decision) : Bool :=
  d.policyVersion = Retry.policyVersion && 1 ≤ d.attemptNumber && 1 ≤ d.maximumAttempts &&
    d.maximumAttempts ≤ 32 && d.attemptNumber ≤ d.maximumAttempts && 0 ≤ d.remainingBudgetMS &&
    0 ≤ d.requiredDelayMS && !(d.modelOutputStarted && d.action ≠ .noRetry)

theorem durationMillisecondsCeil_nonneg (value : ℤ) : 0 ≤ durationMillisecondsCeil value := by
  unfold durationMillisecondsCeil
  split_ifs <;> omega

theorem classifyFailure_sensitive (failure : Fault)
    (h : (classifyFailure failure).action = .retryAllowed) :
    (classifyFailure failure).submissionSensitive ∨
      (classifyFailure failure).failureClass ∈ [.rateLimit,.capacity] := by
  revert h
  unfold classifyFailure classifyLocal classifyNormalized ifRetryable
  repeat' split
  all_goals simp [noRetry]

/-- Every decision can be persisted, and the same deployment is tried again only with a request that
was not submitted, or that it refused for its rate or capacity. -/
theorem classify_cautious (h : classify input = some decision) :
    decision.validate ∧ (decision.action = .retryAllowed →
      decision.submission = .notSubmitted ∨ decision.failureClass ∈ [.rateLimit,.capacity]) := by
  have hsensitive := classifyFailure_sensitive input.failure
  have hbudget := durationMillisecondsCeil_nonneg (input.deadline - input.now)
  have hdelay := durationMillisecondsCeil_nonneg (classifyFailure input.failure).retryAfter
  simp only [classify,validateInput] at h
  split at h
  · cases h
  · -- one case for each place where a decision is returned
    repeat' split at h
    all_goals
      cases h
      grind [Decision.validate]

theorem sampleInput_cautious : ∃ decision, classify (sampleInput (.timeout ⟨false,true⟩) 3000000) =
    some decision ∧ decision.validate :=
  have h : classify (sampleInput (.timeout ⟨false,true⟩) 3000000) = some _ := rfl
  ⟨_,h,(classify_cautious h).1⟩

end Retry
