import AiGateway.Gateway.Register
import AiGateway.Proxy.NonStream

/-! Usage of attempts that never reached a provider: the executor chain (`circuit_breaker.go` over
`nonstream.go`) under the failover loop, and when such an attempt is recorded with usage. -/
namespace Gateway
open Adapter Machine Proxy Execution Catalog Routing

def classifyProviderOutcome (detail : NormalizedError) : CircuitOutcome :=
  match detail.category with
  | .rateLimit | .capacity | .timeout | .provider5xx | .protocol => .failed
  | .unknown => if detail.retryable then .failed else .ignored
  | _ => .ignored

def classifyCircuitOutcome : Option Fault → CircuitOutcome
  | none => .succeeded
  | some fault =>
      if fault.is .canceled then .ignored
      else if fault.is .deadlineExceeded || fault.is .upstreamTimeout then .failed
      else match fault.asProvider with
        | some failure => classifyProviderOutcome failure.detail
        | none => if fault.is .transport || fault.is .protocol then .failed else .ignored

namespace CircuitChatExecutor
variable {τ : Type} (wire : Wire τ)

/-- `permit.Complete`; a failure is counted and changes nothing else. -/
def completePermit (plant : Plant τ) (deploymentID : String) (generation : ℕ)
    (outcome : CircuitOutcome) : Plant τ :=
  let (env,now) := wire.now plant.env
  if now = zeroTime then
    { plant with env := env, completionFailures := plant.completionFailures + 1 }
  else match env.breaker.complete now deploymentID generation outcome with
    | (breaker,.ok ()) => { plant with env := { env with breaker := breaker } }
    | (breaker,.error _) =>
        { plant with
          env := { env with breaker := breaker }
          completionFailures := plant.completionFailures + 1 }

/-- `Execute`; `Acquire` looks at the context before anything else. -/
def execute (plant : Plant τ) (selection : Selection) (request : NormalizedRequest) :
    Plant τ × NormalizedResponse × Option Fault :=
  match wire.contextError plant.env with
  | some e => (plant,{},some e)
  | none =>
      let (env,now) := wire.now plant.env
      match env.breaker.acquire now selection.deploymentID with
      | (breaker,.error failure) =>
          ({ plant with env := { env with breaker := breaker } },{},some (.circuit failure))
      | (breaker,.ok generation) =>
          let (plant,response,executeErr) := NonStreamExecutor.execute wire
            { plant with env := { env with breaker := breaker } } selection request
          (completePermit wire plant selection.deploymentID generation
            (classifyCircuitOutcome executeErr),response,executeErr)

variable {wire} {plant plant' : Plant τ} {selection : Selection} {request : NormalizedRequest}
  {result : NormalizedResponse} {fault : Option Fault}

theorem completePermit_sends {deploymentID : String} {generation : ℕ} {outcome : CircuitOutcome} :
    (completePermit wire plant deploymentID generation outcome).sends = plant.sends := by
  unfold completePermit
  simp only
  split
  · rfl
  · split <;> rfl

theorem execute_unsent (h : execute wire plant selection request = (plant',result,fault))
    (hsends : plant'.sends = plant.sends) : result = {} ∧ ∃ cause, fault = some cause := by
  unfold execute at h
  split at h
  · cases h
    exact ⟨rfl,_,rfl⟩
  · simp only at h
    split at h
    · cases h
      exact ⟨rfl,_,rfl⟩
    · cases h
      rw [completePermit_sends] at hsends
      exact NonStreamExecutor.execute_unsent rfl hsends

end CircuitChatExecutor

open CircuitChatExecutor

/-- The estimator has no usable answer for a request whose response is unknown. -/
def Unestimated {σ : Type} (services : Services σ) (world : σ) (deployment : Deployment)
    (request : NormalizedRequest) : Prop :=
  ∀ estimateUsage, services.estimator = some estimateUsage →
    ∀ usage, (estimateUsage world deployment request none).2 = .ok usage →
      usableEstimate usage = false

section Usage
variable {σ : Type} {services : Services σ} {world : σ} {deployment : Deployment}
  {request : NormalizedRequest} {fault : Fault}

theorem submissionState_notSubmitted :
    submissionState fault = .notSubmitted ↔ fault.is .adapterUnavailable := by
  unfold submissionState
  split
  · simp_all
  · split <;> simp_all

theorem validate_of_usable {usage : NormalizedUsage} (h : usableEstimate usage) :
    usage.source = .estimated ∧ usage.validate = .ok () := by
  simp only [usableEstimate,Bool.and_eq_true,decide_eq_true_eq,passes_iff] at h
  exact ⟨h.1.1.2,h.1.1.1⟩

/-- The outcome of an attempt without a result has usage exactly where an estimate is attached. -/
theorem usage_of_estimate (usage : Option NormalizedUsage)
    (h : ∀ u, usage = some u → usableEstimate u) :
    (failedOutcomeWithKnownUsage fault { usage := usage }).usage = usage := by
  have hinv : passes ({ usage := usage } : NormalizedResponse).validate = false := by
    rw [← Bool.not_eq_true,passes_iff]
    exact NormalizedResponse.not_valid_zero
  unfold failedOutcomeWithKnownUsage
  simp only [hinv]
  cases usage with
  | none => exact attemptOutcomeForError_usage fault
  | some u =>
    obtain ⟨hsrc,hvalid⟩ := validate_of_usable (h u rfl)
    simp [hsrc,hvalid]

variable (services world deployment request fault) in
theorem withLocalUsageEstimate_empty :
    ∃ usage, (withLocalUsageEstimate services world deployment request {} (some fault)).2 =
        { usage := usage } ∧
      (∀ u, usage = some u → usableEstimate u) ∧
      (usage = none ↔ fault.is .adapterUnavailable ∨
        Unestimated services world deployment request) := by
  have hinv : passes ({} : NormalizedResponse).validate = false := by
    rw [← Bool.not_eq_true,passes_iff]
    exact NormalizedResponse.not_valid_zero
  unfold withLocalUsageEstimate
  cases hestimator : services.estimator with
  | none => exact ⟨none,rfl,by simp,by simp [Unestimated,hestimator]⟩
  | some estimateUsage =>
    simp only [Option.isSome_none,Bool.false_eq_true,false_or,Option.map_some,
      Option.some.injEq,submissionState_notSubmitted,hinv,if_false]
    split
    · rename_i hunavail
      exact ⟨none,rfl,by simp,by simp [hunavail]⟩
    · rename_i hunavail
      have hiff (p : Prop) : (fault.is .adapterUnavailable ∨ p) ↔ p := by
        simp [hunavail]
      simp only [hiff,Unestimated,hestimator,Option.some.injEq,forall_eq']
      cases hanswer : estimateUsage world deployment request none with
      | mk world' answer =>
        cases answer with
        | error cause => exact ⟨none,rfl,by simp,by simp⟩
        | ok usage =>
          cases husable : usableEstimate usage with
          | false => exact ⟨none,by simp [husable],by simp,by simp [husable]⟩
          | true => exact ⟨some usage,by simp [husable],by simp [husable],by simp [husable]⟩

end Usage

variable {τ ρ : Type} {wire : Wire τ} {f : NonStreamFailover (Plant τ) ρ} {call : Call}

/-- The attempt was made without a call of `HTTPClient.Do`. -/
def Entry.unsent (e : Entry (Plant τ)) : Prop := e.answered.sends = e.called.sends

variable (f call) in
/-- No usage is made up for the attempt: its error is one of an unavailable adapter, or there is no
usable estimate. -/
def Withheld (e : Entry (Plant τ)) : Prop :=
  (∃ fault, e.failure = some fault ∧ fault.is .adapterUnavailable) ∨
    Unestimated f.services e.answered e.selection.candidate.deployment call.providerRequest

theorem tried_unsent (hexecutor : f.services.execute = execute wire)
    {world : Plant τ} {selection : Selection} {attemptCount : ℕ}
    (hsends : (f.attempt call world selection attemptCount).answered.sends = world.sends) :
    ∃ fault usage, (f.attempt call world selection attemptCount).answer = .error fault ∧
      (f.attempt call world selection attemptCount).result = { usage := usage } ∧
      (∀ u, usage = some u → usableEstimate u) ∧
      (usage = none ↔ fault.is .adapterUnavailable ∨
        Unestimated f.services (f.attempt call world selection attemptCount).answered
          selection.candidate.deployment call.providerRequest) := by
  unfold NonStreamFailover.attempt at hsends ⊢
  cases hcall : f.services.execute world selection call.providerRequest with
  | mk answered rest =>
    obtain ⟨result,fault⟩ := rest
    simp only [hcall] at hsends ⊢
    rw [hexecutor] at hcall
    obtain ⟨rfl,cause,rfl⟩ := execute_unsent hcall hsends
    obtain ⟨usage,hres,husable,hiff⟩ := withLocalUsageEstimate_empty f.services answered
      selection.candidate.deployment call.providerRequest cause
    exact ⟨cause,usage,rfl,hres,husable,hiff⟩

/-- In every run over the executor chain, an attempt that was not sent is completed without usage
exactly where its error says that the adapter was unavailable, or there is no usable estimate. -/
theorem unsent_usage (f : NonStreamFailover (Plant τ) ρ) (wire : Wire τ)
    (hexecutor : f.services.execute = execute wire) (call : Call)
    (world : Plant τ) (store : ρ) (recorded : GatewayRequest) (n : ℕ) :
    ∀ e ∈ traceOf (f.execute call world store recorded n), e.unsent →
      (e.outcome.usage = none ↔ Withheld f call e) := by
  intro e he hunsent
  obtain ⟨l,st,failure,decision,outcome,widened,hjudged,rfl⟩ :=
    execute_isEntry f call world store recorded n e he
  obtain ⟨fault,usage,hanswer,hres,husable,hiff⟩ := tried_unsent hexecutor hunsent
  have houtcome : (failedOutcomeWithKnownUsage fault (st.tried call).result).usage = usage := by
    rw [show (st.tried call).result = _ from hres]
    exact usage_of_estimate usage husable
  have hcause {fault' : Fault} (h : (st.tried call).answer = .error fault') : fault' = fault := by
    rw [show (st.tried call).answer = _ from hanswer] at h
    cases h
    rfl
  cases hjudged with
  | succeeded h =>
    rw [show (st.tried call).answer = _ from hanswer] at h
    cases h
  | failed h =>
    obtain rfl := hcause h
    show (failedOutcomeWithKnownUsage _ (st.tried call).result).usage = none ↔ _
    rw [houtcome,hiff]
    simp [Withheld,Started.entry,Started.tried]
  | retried h =>
    obtain rfl := hcause h
    show (failedOutcomeWithKnownUsage _ (st.tried call).result).usage = none ↔ _
    rw [houtcome,hiff]
    simp [Withheld,Started.entry,Started.tried]

/-! An open circuit, and an adapter that cannot be built. -/

def sampleEstimate : NormalizedUsage where
  inputTokens := ⟨12,true⟩
  outputTokens := ⟨0,false⟩
  cacheReadTokens := ⟨0,false⟩
  cacheWriteTokens := ⟨0,false⟩
  reasoningTokens := ⟨0,false⟩
  audioInputTokens := ⟨0,false⟩
  audioOutputTokens := ⟨0,false⟩
  source := .estimated
  complete := false
  estimate := some ⟨true,"bytes","v1","model-a",1,"v1"⟩
  rawEvidence := ⟨[]⟩
  unmappedFields := []

/-- The result of building the adapter is given; everything else goes well. -/
def sampleWire (built : Option Fault) : Wire Unit where
  contextError _ := none
  contextCause _ := none
  now env := (env,1000)
  build env _ := (env,built)
  buildRequest env _ _ := (env,true,none)
  send env := (env,true,none)
  parseResponse env _ := (env,{},none)

def sampleChain (built : Option Fault) : NonStreamFailover (Plant Unit) Register where
  services := {
    select := fun world request => (world,(sampleServices.select 0 request).2)
    execute := execute (sampleWire built)
    estimator := some fun world _ _ _ => (world,.ok sampleEstimate)
    record := fun world _ => (world,none)
    recordRetry := fun world _ => (world,none)
    now := fun world => (world,1000)
    wait := fun world _ => (world,none)
    contextError := fun _ => none
    parentError := fun _ => none }
  recorder := Register.recorder (fun _ => 1000) sampleAttemptID
  options := defaultFailoverOptions

def sampleCircuit (deployments : Deployments) : Plant Unit :=
  ⟨⟨(),⟨⟨3,30 * 1000000000,1,2,10⟩,deployments,0,0⟩⟩,0,0⟩

/-- The first deployment's circuit is open at the time of the run. -/
def sampleOpen : Deployments :=
  AList.insert sampleFirst
    { state := .open, generation := 2, retryAt := 5000, lastTransitionAt := 500
      lastTouchedAt := 500 } ∅

def sampleChainRun (built : Option Fault) (deployments : Deployments) :
    Loop (Plant Unit) Register ⊕ Finish (Plant Unit) Register :=
  (sampleChain built).execute sampleCall (sampleCircuit deployments) ⟨sampleRecorded,[],[]⟩
    sampleRecorded 3

theorem sampleUnbuilt_withheld : (∃ e ∈ traceOf (sampleChainRun (some (.other "no credentials")) ∅),
      e.unsent ∧ e.outcome.usage = none) ∧
    ∀ e ∈ traceOf (sampleChainRun (some (.other "no credentials")) ∅), e.unsent →
      (e.outcome.usage = none ↔
        Withheld (sampleChain (some (.other "no credentials"))) sampleCall e) := by
  refine ⟨?_,unsent_usage _ (sampleWire _) rfl sampleCall _ _ _ _⟩
  unfold Entry.unsent
  decide +kernel

/-- The breaker refuses the attempt, so nothing is sent, and the attempt is recorded with estimated
usage. -/
theorem sampleRejected_charged :
    (traceOf (sampleChainRun none sampleOpen)).map (fun e =>
        (e.called.sends,e.answered.sends,e.failure,e.outcome.usage)) =
      [(0,0,some (.circuit .open),some sampleEstimate)] := by
  decide +kernel

end Gateway
