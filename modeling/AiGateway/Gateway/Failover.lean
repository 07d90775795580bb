import AiGateway.Catalog.Capabilities
import AiGateway.Gateway.Outcome
import AiGateway.Machine.Control

/-! The failover loop of one request (`internal/gateway/failover.go`, `route_decision.go`). The
services it calls are arbitrary functions of a world; the recorder has a state of its own. -/
namespace Gateway
open Adapter Machine Proxy Execution Catalog Retry

/-! Options. -/

structure FailoverOptions where
  (maximumAttempts totalTimeout minimumAttemptWindow : ℤ)
  additionalCost : CostPermission

def maximumFailoverAttempts : ℤ := 32

def FailoverOptions.checks (options : FailoverOptions) : List (Bool × Fault) :=
  [(options.maximumAttempts < 1 ||
      maximumFailoverAttempts < options.maximumAttempts,
    .wrap .failoverInvalid (.other "maximum attempts must be between 1 and 32")),
  (options.totalTimeout ≤ 0 || 24 * 3600 * 1000000000 < options.totalTimeout,
    .wrap .failoverInvalid (.other "total timeout must be positive and at most 24 hours")),
  (options.minimumAttemptWindow ≤ 0 ||
      10 * 60 * 1000000000 < options.minimumAttemptWindow ||
      options.totalTimeout ≤ options.minimumAttemptWindow,
    .wrap .failoverInvalid (.other "minimum attempt window is outside the total timeout"))]

/-- `Validate`; the cost permission is explicit by its type. -/
def FailoverOptions.validate (options : FailoverOptions) : Except Fault Unit :=
  firstFailure options.checks

def defaultFailoverOptions : FailoverOptions where
  maximumAttempts := 3
  totalTimeout := 30 * 1000000000
  minimumAttemptWindow := 250 * 1000000
  additionalCost := .allowed

/-! Services. -/

inductive DecisionOutcome where
  | selected
  | noCandidate
  | selectionFailed

/-- `routedecision.Input` without the explanation of the filter and the policy. -/
structure DecisionInput where
  requestID : String
  nextAttemptNo : ℕ
  outcome : DecisionOutcome
  retry : Option Decision

structure RetryInput where
  requestID : String
  attemptNo : ℕ
  decision : Decision

/-- What surrounds the loop. An error next to a result is `none` where the source has nil. -/
structure Services (σ : Type) where
  select : σ → SelectionRequest → σ × Except Fault Selection
  execute : σ → Selection → NormalizedRequest → σ × NormalizedResponse × Option Fault
  estimator : Option (σ → Deployment → NormalizedRequest → Option NormalizedResponse →
    σ × Except Fault NormalizedUsage)
  record : σ → DecisionInput → σ × Option Fault
  recordRetry : σ → RetryInput → σ × Option Fault
  now : σ → σ × Time
  wait : σ → ℤ → σ × Option Fault
  contextError : σ → Option Fault
  parentError : σ → Option Fault

/-- `execution.Recorder`, as far as the loop calls it. -/
structure Recorder (ρ : Type) where
  startAttempt : ρ → GatewayRequest → String → ρ × Except Fault (GatewayRequest × RouteAttempt)
  completeAttempt : ρ → GatewayRequest → RouteAttempt → AttemptOutcome →
    ρ × Except Fault (GatewayRequest × RouteAttempt)
  completeAttemptForRetry : ρ → GatewayRequest → RouteAttempt → AttemptOutcome →
    ρ × Except Fault RouteAttempt
  failRequest : ρ → GatewayRequest → RequestStatus → String → ρ × Except Fault GatewayRequest

structure NonStreamFailover (σ ρ : Type) where
  services : Services σ
  recorder : Recorder ρ
  options : FailoverOptions

/-- The arguments of `Execute`, with the deadline of its context. -/
structure Call where
  selectionRequest : SelectionRequest
  providerRequest : NormalizedRequest
  requestID : String
  deadline : Time

def executionRecordPublicError (cause : Fault) : Fault :=
  .public "EXECUTION_RECORD_UNAVAILABLE" cause

def routeSelectionPublicError (fault : Fault) : Fault :=
  if fault.is .noCandidate then .public "MODEL_UNAVAILABLE" fault
  else .public "ROUTING_UNAVAILABLE" fault

section Services
variable {σ : Type} (services : Services σ)

def selectAndRecordRoute (world : σ) (requestID : String) (nextAttemptNo : ℕ)
    (request : SelectionRequest) (retryDecision : Option Decision) : σ × Except Fault Selection :=
  if requestID = "" ∨ nextAttemptNo < 1 then (world,.error .failoverInvalid)
  else
    let (world,selected) := services.select world request
    let outcome := match selected with
      | .ok _ => DecisionOutcome.selected
      | .error fault => if fault.is .noCandidate then .noCandidate else .selectionFailed
    match services.record world ⟨requestID,nextAttemptNo,outcome,retryDecision⟩ with
    | (world,some cause) => (world,.error (.wrap .routeDecisionRecord cause))
    | (world,none) => (world,selected)

def recordRetryDecision (world : σ) (requestID : String) (attemptNo : ℕ)
    (decision : Decision) : σ × Option Fault :=
  if requestID = "" ∨ attemptNo < 1 then (world,some .failoverInvalid)
  else match services.recordRetry world ⟨requestID,attemptNo,decision⟩ with
    | (world,some cause) => (world,some (.wrap .routeDecisionRecord cause))
    | (world,none) => (world,none)

/-- An answer of the estimator that is used: valid, estimated and incomplete usage. -/
def usableEstimate (usage : NormalizedUsage) : Bool :=
  passes usage.validate && usage.source = .estimated && !usage.complete &&
    (usage.estimate.map (·.estimated)).getD false

def withLocalUsageEstimate (world : σ) (deployment : Deployment) (request : NormalizedRequest)
    (result : NormalizedResponse) (fault : Option Fault) : σ × NormalizedResponse :=
  match services.estimator with
  | none => (world,result)
  | some estimateUsage =>
      if result.usage.isSome ∨ (fault.map submissionState) = some .notSubmitted then (world,result)
      else
        let response := if passes result.validate then some result else none
        match estimateUsage world deployment request response with
        | (world,.error _) => (world,result)
        | (world,.ok usage) =>
            (world,if usableEstimate usage then { result with usage := some usage } else result)

def containsDeployment (deployments : List String) (target : String) : Bool :=
  deployments.contains target

/-- `selectNext`. The flag is set where the exclusions were dropped. -/
def selectNext (world : σ) (request : SelectionRequest) (recorded : GatewayRequest)
    (attempted : List String) (decision : Decision) : σ × Except Fault Selection × Bool :=
  match selectAndRecordRoute services world recorded.id (recorded.attemptCount + 1)
      { request with excludedDeploymentIDs := attempted } (some decision) with
  | (world,.ok selection) =>
      if decision.action = .differentDeploymentOnly ∧
          containsDeployment attempted selection.deploymentID then
        (world,.error .failoverInvalid,false)
      else (world,.ok selection,false)
  | (world,.error fault) =>
      if !fault.is .noCandidate || decision.action ≠ .retryAllowed then
        (world,.error fault,false)
      else
        let (world,selected) := selectAndRecordRoute services world recorded.id
          (recorded.attemptCount + 1) { request with excludedDeploymentIDs := [] } (some decision)
        (world,selected,true)

end Services

/-! The loop. -/

/-- One attempt as it went: the worlds around the executor's call, the error it is judged by, the
classifier's decision, the outcome handed to the recorder, and whether the exclusions were dropped
for the selection that followed. -/
structure Entry (σ : Type) where
  selection : Selection
  attempt : RouteAttempt
  called : σ
  answered : σ
  failure : Option Fault
  decision : Option Decision
  outcome : AttemptOutcome
  widened : Bool

/-- The head of the loop. The trace is kept for reasoning only. -/
structure Loop (σ ρ : Type) where
  world : σ
  store : ρ
  request : GatewayRequest
  selection : Selection
  attempted : List String
  trace : List (Entry σ)

/-- What `Execute` returns, with what it leaves behind. -/
structure Finish (σ ρ : Type) where
  world : σ
  store : ρ
  trace : List (Entry σ)
  answer : Except Fault ChatCompletionResponse

section Recorder
variable {ρ : Type} (recorder : Recorder ρ)

/-- `CompleteAttempt` and then `answer`, unless the call fails. -/
def completeRecordedAttempt (store : ρ) (request : GatewayRequest) (attempt : RouteAttempt)
    (outcome : AttemptOutcome) (answer : Except Fault ChatCompletionResponse) :
    ρ × Except Fault ChatCompletionResponse :=
  match recorder.completeAttempt store request attempt outcome with
  | (store,.error cause) => (store,.error (executionRecordPublicError cause))
  | (store,.ok _) => (store,answer)

/-- `FailRequest` and then the error, unless the call fails. -/
def failRecordedRequest (store : ρ) (request : GatewayRequest) (status : RequestStatus)
    (reason : String) (fault : Fault) : ρ × Fault :=
  match recorder.failRequest store request status reason with
  | (store,.error cause) => (store,executionRecordPublicError cause)
  | (store,.ok _) => (store,fault)

def finalizeRequestFailure (contextError : Option Fault) (store : ρ) (request : GatewayRequest)
    (publicError : Fault) : ρ × Fault :=
  let cancelled := publicError.is .canceled || (contextError.map (·.is .canceled)).getD false
  let reason :=
    if cancelled then "client_cancelled"
    else if publicError.is .noCandidate then "model_unavailable" else "routing_failed"
  failRecordedRequest recorder store request (if cancelled then .cancelled else .failed) reason
    publicError

def failRetryRequest (parentError : Option Fault) (store : ρ) (request : GatewayRequest)
    (failure : Fault) : ρ × Fault :=
  if parentError.isSome then
    failRecordedRequest recorder store request .cancelled "client_cancelled" failure
  else failRecordedRequest recorder store request .failed "retry_deadline_exhausted" failure

/-- How the loop ends when no next deployment is selected. -/
def failSelection (store : ρ) (request : GatewayRequest) (attemptErr fault : Fault) : ρ × Fault :=
  if fault.is .routeDecisionRecord then
    let (store,_) := recorder.failRequest store request .failed "route_decision_record_unavailable"
    (store,executionRecordPublicError fault)
  else if fault.is .noCandidate then
    failRecordedRequest recorder store request .failed "failover_exhausted" attemptErr
  else
    failRecordedRequest recorder store request .failed "failover_routing_failed"
      (routeSelectionPublicError fault)

end Recorder

/-- The executor's call with the estimate and the projection of its result. -/
structure Tried (σ : Type) where
  answered : σ
  world : σ
  result : NormalizedResponse
  answer : Except Fault ChatCompletionResponse

namespace NonStreamFailover
variable {σ ρ : Type} (f : NonStreamFailover σ ρ) (call : Call)

def attempt (world : σ) (selection : Selection) (attemptCount : ℕ) : Tried σ :=
  let (answered,result,fault) := f.services.execute world selection call.providerRequest
  let (world,result) := withLocalUsageEstimate f.services answered selection.candidate.deployment
    call.providerRequest result fault
  { answered := answered, world := world, result := result
    answer := match fault with
      | some fault => .error fault
      | none => projectChatCompletion result call.providerRequest.logicalModel call.requestID
          attemptCount }

def classifyInput (fault : Fault) (attemptCount : ℕ) (now : Time) : Input where
  failure := fault
  modelOutputStarted := false
  submission := submissionState fault
  attemptNumber := attemptCount
  maximumAttempts := f.options.maximumAttempts
  now := now
  deadline := call.deadline
  minimumAttemptWindow := f.options.minimumAttemptWindow
  additionalCost := f.options.additionalCost

/-- After an attempt that is completed for a retry: wait, and select again. -/
def proceed (l : Loop σ ρ) (entry : Entry σ) (attemptErr : Fault) (decision : Decision) :
    Loop σ ρ ⊕ Finish σ ρ :=
  let attempted :=
    if containsDeployment l.attempted l.selection.deploymentID then l.attempted
    else l.attempted ++ [l.selection.deploymentID]
  match f.services.wait l.world (decision.requiredDelayMS * 1000000) with
  | (world,some waitErr) =>
      let (store,fault) := failRetryRequest f.recorder (f.services.parentError world) l.store
        l.request waitErr
      .inr ⟨world,store,l.trace ++ [entry],.error fault⟩
  | (world,none) =>
      match selectNext f.services world call.selectionRequest l.request attempted decision with
      | (world,.ok selection,widened) =>
          .inl ⟨world,l.store,l.request,selection,attempted,
            l.trace ++ [{ entry with widened := widened }]⟩
      | (world,.error fault,widened) =>
          let (store,fault) := failSelection f.recorder l.store l.request attemptErr fault
          .inr ⟨world,store,l.trace ++ [{ entry with widened := widened }],.error fault⟩

/-- A failed attempt: classify it, record the decision, and end or go on. -/
def afterFailure (l : Loop σ ρ) (attempt : RouteAttempt) (called : σ) (tried : Tried σ)
    (fault : Fault) : Loop σ ρ ⊕ Finish σ ρ :=
  let (world,now) := f.services.now l.world
  let decision := classify (f.classifyInput call fault l.request.attemptCount now)
  let failed := failedOutcomeWithKnownUsage fault tried.result
  let entry : Entry σ := ⟨l.selection,attempt,called,tried.answered,some fault,decision,
    failed,false⟩
  let finish (world : σ) (answer : Fault) : Loop σ ρ ⊕ Finish σ ρ :=
    let (store,answer) := completeRecordedAttempt f.recorder l.store l.request attempt failed
      (.error answer)
    .inr ⟨world,store,l.trace ++ [entry],answer⟩
  match decision with
  | none => finish world fault
  | some decision =>
      match recordRetryDecision f.services world l.request.id attempt.attemptNo decision with
      | (world,some recordErr) => finish world (executionRecordPublicError recordErr)
      | (world,none) =>
          if decision.action = .noRetry then finish world fault
          else
            let retried := retryOutcome fault tried.result
            let entry := { entry with outcome := retried }
            match f.recorder.completeAttemptForRetry l.store l.request attempt retried with
            | (store,.error cause) =>
                .inr ⟨world,store,l.trace ++ [entry],.error (executionRecordPublicError cause)⟩
            | (store,.ok _) =>
                f.proceed call { l with world := world, store := store } entry fault decision

/-- One turn of the loop. -/
def round (l : Loop σ ρ) : Loop σ ρ ⊕ Finish σ ρ :=
  match f.recorder.startAttempt l.store l.request l.selection.deploymentID with
  | (store,.error cause) =>
      let (store,_) := f.recorder.failRequest store l.request .failed "attempt_record_unavailable"
      .inr ⟨l.world,store,l.trace,.error (executionRecordPublicError cause)⟩
  | (store,.ok (request,attempt)) =>
      let tried := f.attempt call l.world l.selection request.attemptCount
      match tried.answer with
      | .ok projected =>
          let outcome := completedOutcome tried.result
          let (store,answer) := completeRecordedAttempt f.recorder store request attempt outcome
            (.ok projected)
          .inr ⟨tried.world,store,l.trace ++ [⟨l.selection,attempt,l.world,tried.answered,
            none,none,outcome,false⟩],answer⟩
      | .error fault =>
          f.afterFailure call { l with world := tried.world, store := store, request := request }
            attempt l.world tried fault

/-- What `Execute` asks of its arguments. -/
def guard (recorded : GatewayRequest) : Bool :=
  call.selectionRequest.request.valid && call.providerRequest.valid &&
    !call.providerRequest.stream && call.requestID ≠ "" &&
    recorded.status = .routing

/-- `Execute` up to the head of the loop. -/
def enter (world : σ) (store : ρ) (recorded : GatewayRequest) : Loop σ ρ ⊕ Finish σ ρ :=
  if !guard call recorded then .inr ⟨world,store,[],.error .failoverInvalid⟩
  else
    match selectAndRecordRoute f.services world recorded.id (recorded.attemptCount + 1)
        call.selectionRequest none with
    | (world,.ok selection) => .inl ⟨world,store,recorded,selection,[],[]⟩
    | (world,.error fault) =>
        if fault.is .routeDecisionRecord then
          let (store,_) := f.recorder.failRequest store recorded .failed
            "route_decision_record_unavailable"
          .inr ⟨world,store,[],.error (executionRecordPublicError fault)⟩
        else
          let (store,fault) := finalizeRequestFailure f.recorder (f.services.contextError world)
            store recorded (routeSelectionPublicError fault)
          .inr ⟨world,store,[],.error fault⟩

/-- `Execute`, cut after `n` rounds. -/
def execute (world : σ) (store : ρ) (recorded : GatewayRequest) (n : ℕ) : Loop σ ρ ⊕ Finish σ ρ :=
  match f.enter call world store recorded with
  | .inl l => loop (f.round call) n l
  | .inr finish => .inr finish

end NonStreamFailover
end Gateway
