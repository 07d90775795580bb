import AiGateway.Catalog.Capabilities
import AiGateway.Proxy.Fault

/-! One selected non-streaming attempt (`internal/proxy/nonstream.go`). The registry, the adapter
and the HTTP client are arbitrary functions of the surroundings; the plant counts the calls of
`HTTPClient.Do`. -/
namespace Proxy
open Adapter Machine Catalog

/-- The surroundings of an attempt, with the breaker that all requests share. -/
structure Surroundings (τ : Type) where
  state : τ
  breaker : Routing.CircuitBreaker

structure Plant (τ : Type) where
  env : Surroundings τ
  (sends completionFailures : ℕ)

/-- What the executor calls. The flags say whether the request and the response with its body are
there; the context's error and cause are read from the surroundings. -/
structure Wire (τ : Type) where
  contextError : Surroundings τ → Option Fault
  contextCause : Surroundings τ → Option Fault
  now : Surroundings τ → Surroundings τ × Time
  build : Surroundings τ → RouteCandidate → Surroundings τ × Option Fault
  buildRequest : Surroundings τ → RouteCandidate → NormalizedRequest →
    Surroundings τ × Bool × Option Fault
  send : Surroundings τ → Surroundings τ × Bool × Option Fault
  parseResponse : Surroundings τ → RouteCandidate →
    Surroundings τ × NormalizedResponse × Option Fault

/-- `errors.Join` of an error that may be nil with two that are not -/
def joined (observed : Option Fault) (e cause : Fault) : Fault :=
  match observed with
  | none => .wrap e cause
  | some observed => .wrap observed (.wrap e cause)

/-- `normalizeExecutionError`; a protocol violation ends like any other error. -/
def normalizeExecutionError (fault : Fault) : Fault :=
  match fault.asNormalized with
  | none => .wrap .protocol fault
  | some detail =>
      if h : detail.validate = .ok () then .provider ⟨detail,h⟩ else .wrap .protocol fault

/-- The cause of a result that does not validate. -/
def validationFault (response : NormalizedResponse) : Option Fault :=
  match response.validate with
  | .ok () => none
  | .error e => some (.other e.text)

namespace NonStreamExecutor
variable {τ : Type} (wire : Wire τ)

def cancellationExecutionError (env : Surroundings τ) (observed : Option Fault) : Option Fault :=
  (wire.contextError env).map fun e =>
    .wrap .transport (joined observed e ((wire.contextCause env).getD e))

/-- The cancellation where the context is done, and otherwise the failure itself. -/
def failure (env : Surroundings τ) (observed : Option Fault) (fault : Fault) : Fault :=
  (cancellationExecutionError wire env observed).getD fault

/-- `Execute` once the request was sent. -/
def receive (plant : Plant τ) (selection : Selection) :
    Plant τ × NormalizedResponse × Option Fault :=
  match wire.send plant.env with
  | (env,_,some e) =>
      ({ plant with env := env },{},some (failure wire env (some e) (.wrap .transport e)))
  | (env,false,none) => ({ plant with env := env },{},some .transport)
  | (env,true,none) =>
      match wire.parseResponse env selection.candidate with
      | (env,_,some e) =>
          ({ plant with env := env },{},
            some (failure wire env (some e) (normalizeExecutionError e)))
      | (env,normalized,none) =>
          if !passes normalized.validate ||
              normalized.model ≠ selection.candidate.deployment.physicalModel then
            ({ plant with env := env },{},
              some (Fault.withCause .protocol (validationFault normalized)))
          else ({ plant with env := env },normalized,none)

/-- The checks of `Execute` before it builds anything. -/
def refused (selection : Selection) (request : NormalizedRequest) : Bool :=
  request.stream || !request.valid || !selection.candidate.valid ||
    selection.candidate.logicalModel ≠ request.logicalModel

def execute (plant : Plant τ) (selection : Selection) (request : NormalizedRequest) :
    Plant τ × NormalizedResponse × Option Fault :=
  match wire.contextError plant.env with
  | some e => (plant,{},cancellationExecutionError wire plant.env (some e))
  | none =>
      if refused selection request then (plant,{},some .invalidExecution)
      else match wire.build plant.env selection.candidate with
        | (env,some e) =>
            ({ plant with env := env },{},
              some (failure wire env (some e) (.wrap .adapterUnavailable e)))
        | (env,none) =>
            match wire.buildRequest env selection.candidate request with
            | (env,true,none) =>
                receive wire { plant with env := env, sends := plant.sends + 1 } selection
            | (env,_,e) =>
                ({ plant with env := env },{},
                  some (failure wire env e (Fault.withCause .adapterUnavailable e)))

variable {wire} {plant plant' : Plant τ} {selection : Selection} {request : NormalizedRequest}
  {result : NormalizedResponse} {fault : Option Fault}

theorem receive_sends : (receive wire plant selection).1.sends = plant.sends := by
  unfold receive
  split
  · rfl
  · rfl
  · split
    · rfl
    · split <;> rfl

theorem execute_unsent (h : execute wire plant selection request = (plant',result,fault))
    (hsends : plant'.sends = plant.sends) : result = {} ∧ ∃ cause, fault = some cause := by
  unfold execute at h
  split at h
  · rename_i e he
    cases h
    exact ⟨rfl,by simp [cancellationExecutionError,he]⟩
  · split at h
    · cases h
      exact ⟨rfl,_,rfl⟩
    · split at h
      · cases h
        exact ⟨rfl,_,rfl⟩
      · split at h
        · have hreceived := congrArg (fun r => r.1.sends) h
          simp only [receive_sends] at hreceived
          omega
        · cases h
          exact ⟨rfl,_,rfl⟩

/-- An attempt that is not sent fails as one of an unavailable adapter exactly where the adapter or
its request cannot be built: it is begun and not refused, and the context is still live. -/
theorem execute_unavailable {cause : Fault}
    (h : execute wire plant selection request = (plant',result,some cause))
    (hsends : plant'.sends = plant.sends) : cause.tree.head? = some .adapterUnavailable ↔
      wire.contextError plant.env = none ∧ refused selection request = false ∧
        wire.contextError plant'.env = none := by
  have hkind (env : Surroundings τ) (observed : Option Fault) :
      (failure wire env observed (Fault.withCause .adapterUnavailable observed)).tree.head? =
        some .adapterUnavailable ↔ wire.contextError env = none := by
    cases hctx : wire.contextError env <;> cases observed <;>
      simp [failure,cancellationExecutionError,hctx,Fault.withCause,Fault.tree]
  unfold execute at h
  split at h
  · rename_i e he
    simp only [cancellationExecutionError,he,Option.map_some,Prod.mk.injEq,Option.some.injEq] at h
    rw [← h.2.2]
    simp [Fault.tree,he]
  · rename_i hlive
    rw [and_iff_right hlive]
    split at h
    · rename_i hrefused
      cases h
      simp [Fault.tree,hrefused]
    · rename_i hacc
      rw [and_iff_right (Bool.not_eq_true _ ▸ hacc)]
      split at h
      · cases h
        exact hkind _ (some _)
      · split at h
        · have hreceived := congrArg (fun r => r.1.sends) h
          simp only [receive_sends] at hreceived
          omega
        · cases h
          exact hkind _ _

end NonStreamExecutor
end Proxy
