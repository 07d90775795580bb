import AiGateway.Adapter.Response
import AiGateway.Text.Word

/-! The capability contract of models and deployments (`internal/catalog/model.go`), and the
catalog facts that a route carries (`internal/routing/selector.go`). -/
namespace Catalog
open Machine Text

structure ValidationError where
  (field reason : String)
  deriving DecidableEq

structure CapabilityRequirements where
  (chat stream tools parallelTools structuredOutput vision audioInput audioOutput embeddings : Bool)
  (minContextTokens minOutputTokens : Option ℤ)
  dataRetentionModes : List String

structure CapabilitySet where
  (chat stream tools parallelTools structuredOutput vision audioInput audioOutput embeddings : Bool)
  (usageInStream cacheUsage reasoningUsage : Bool)
  (maxContextTokens maxOutputTokens : ℤ)
  (dataRetentionMode providerProtocolVersion : String)

def retentionModes : List String :=
  ["provider_default","no_training","zero_retention","self_hosted"]

/-- `^[A-Za-z0-9][A-Za-z0-9._:-]{0,63}$` -/
def protocolPattern (s : String) : Bool :=
  isWord isAlnum (fun c => isAlnum c || ['.','_',':','-'].contains c) 0 63 s

namespace CapabilityRequirements

def hasRequirement (r : CapabilityRequirements) : Bool :=
  r.chat || r.stream || r.tools || r.parallelTools || r.structuredOutput || r.vision ||
    r.audioInput || r.audioOutput || r.embeddings || r.minContextTokens.isSome ||
    r.minOutputTokens.isSome || !r.dataRetentionModes.isEmpty

def validate (r : CapabilityRequirements) : Except ValidationError Unit :=
  firstFailure [
    (r.parallelTools && !r.tools,⟨"required_capabilities.parallel_tools","requires tools"⟩),
    (!r.hasRequirement,⟨"required_capabilities","must contain at least one requirement"⟩),
    (r.minContextTokens.any (· ≤ 0),
      ⟨"required_capabilities.min_context_tokens","must be a positive integer"⟩),
    (r.minOutputTokens.any (· ≤ 0),
      ⟨"required_capabilities.min_output_tokens","must be a positive integer"⟩),
    (r.minContextTokens.any fun context => r.minOutputTokens.any (context < ·),
      ⟨"required_capabilities.min_output_tokens","must not exceed min_context_tokens"⟩),
    (4 < r.dataRetentionModes.length,
      ⟨"required_capabilities.data_retention_modes","must contain at most four modes"⟩),
    (!r.dataRetentionModes.all retentionModes.contains,
      ⟨"required_capabilities.data_retention_modes","contains an unsupported mode"⟩),
    (!r.dataRetentionModes.Nodup,
      ⟨"required_capabilities.data_retention_modes","contains a duplicate mode"⟩)]

end CapabilityRequirements

namespace CapabilitySet

def validate (c : CapabilitySet) : Except ValidationError Unit :=
  firstFailure [(!c.chat && !c.embeddings,⟨"capabilities","must enable chat or embeddings"⟩),
    (c.parallelTools && !c.tools,⟨"capabilities.parallel_tools","requires tools"⟩),
    (c.usageInStream && !c.stream,⟨"capabilities.usage_in_stream","requires stream"⟩),
    (c.maxContextTokens ≤ 0,⟨"capabilities.max_context_tokens","must be a positive integer"⟩),
    (c.maxOutputTokens ≤ 0 || c.maxContextTokens < c.maxOutputTokens,
      ⟨"capabilities.max_output_tokens","must be positive and not exceed max_context_tokens"⟩),
    (!retentionModes.contains c.dataRetentionMode,
      ⟨"capabilities.data_retention_mode","is unsupported"⟩),
    (!protocolPattern c.providerProtocolVersion,
      ⟨"capabilities.provider_protocol_version","must be a canonical 1-64 character identifier"⟩)]

def satisfies (c : CapabilitySet) (r : CapabilityRequirements) : Bool :=
  (!r.chat || c.chat) && (!r.stream || c.stream) && (!r.tools || c.tools) &&
    (!r.parallelTools || c.parallelTools) && (!r.structuredOutput || c.structuredOutput) &&
    (!r.vision || c.vision) && (!r.audioInput || c.audioInput) &&
      (!r.audioOutput || c.audioOutput) &&
    (!r.embeddings || c.embeddings) && !(r.minContextTokens.any (c.maxContextTokens < ·)) &&
    !(r.minOutputTokens.any (c.maxOutputTokens < ·)) &&
    (r.dataRetentionModes.isEmpty || r.dataRetentionModes.contains c.dataRetentionMode)

end CapabilitySet

def regionAllowed (allowedRegions : Option (List String)) (region : String) : Bool :=
  allowedRegions.all fun allowed => allowed.contains region

/-- `Deployment.Satisfies` -/
def deploymentSatisfies (c : CapabilitySet) (region : String) (r : CapabilityRequirements)
    (allowedRegions : Option (List String)) : Bool :=
  c.satisfies r && regionAllowed allowedRegions region

/-! Routes. -/

structure Deployment where
  (id physicalModel : String)
  version : ℤ
  -- `capabilities->>'provider_protocol_version'`
  providerProtocolVersion : String
  deriving DecidableEq

/-- `RouteCandidate`, with the verdict of its `Validate`. -/
structure RouteCandidate where
  (logicalModel provider : String)
  deployment : Deployment
  valid : Bool

structure Selection where
  candidate : RouteCandidate

def Selection.deploymentID (selection : Selection) : String := selection.candidate.deployment.id

structure SelectionRequest where
  request : Adapter.NormalizedRequest
  excludedDeploymentIDs : List String

end Catalog
