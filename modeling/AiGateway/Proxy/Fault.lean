import AiGateway.Adapter.Response
import AiGateway.Routing.CircuitBreaker

/-! The errors that pass through the gateway, and how `errors.Is` and `errors.As` look into them. -/
namespace Proxy
open Adapter

/-- `ProviderError`; `NewProviderError` takes validated details only. -/
structure ProviderError where
  detail : NormalizedError
  valid : detail.validate = .ok ()
  deriving DecidableEq

/-- The facts of a `streaming.TimeoutFailure` that are read outside its package. -/
structure TimeoutFailure where
  (modelOutputStarted retryEligibleBeforeOutput : Bool)
  deriving DecidableEq

/-- The kinds of `execution.Err…`. -/
inductive RecordKind where
  | invalid
  | conflict
  | unavailable
  deriving DecidableEq

inductive Fault where
  | canceled
  | deadlineExceeded
  | invalidExecution
  | adapterUnavailable
  | transport
  | protocol
  | provider (failure : ProviderError)
  | normalized (failure : NormalizedError)
  | timeout (failure : TimeoutFailure)
  | upstreamInvalidRequest
  | upstreamTransport
  | upstreamTimeout
  | circuit (failure : Routing.Failure)
  | noCandidate
  | routeDecisionRecord
  | failoverInvalid
  | record (kind : RecordKind)
  | other (text : String)
  -- `apierror.Error` with its code
  | «public» (code : String) (cause : Fault)
  -- an error with a kind and a cause, or two joined ones
  | wrap (kind cause : Fault)
  deriving DecidableEq

namespace Fault

/-- The errors in the tree, in the order in which `errors.Is` and `errors.As` meet them. -/
def tree : Fault → List Fault
  | .wrap kind cause => kind.tree ++ cause.tree
  | .public _ cause => cause.tree
  | .timeout failure => [.timeout failure,.deadlineExceeded]
  | fault => [fault]

/-- `errors.Is` -/
def is (fault target : Fault) : Bool := fault.tree.contains target

/-- `errors.As` for a `*ProviderError` -/
def asProvider (fault : Fault) : Option ProviderError :=
  fault.tree.findSome? fun
    | .provider failure => some failure
    | _ => none

/-- `errors.As` for a `NormalizedError` -/
def asNormalized (fault : Fault) : Option NormalizedError :=
  fault.tree.findSome? fun
    | .normalized failure => some failure
    | _ => none

/-- `errors.As` for a `*streaming.TimeoutFailure` -/
def asTimeout (fault : Fault) : Option TimeoutFailure :=
  fault.tree.findSome? fun
    | .timeout failure => some failure
    | _ => none

/-- `newExecutionError` and its likes; a nil cause leaves the kind alone. -/
def withCause (kind : Fault) : Option Fault → Fault
  | none => kind
  | some cause => .wrap kind cause

end Fault
end Proxy
