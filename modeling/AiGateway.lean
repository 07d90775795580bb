import AiGateway.Budget.Completion
import AiGateway.Budget.Idempotency
import AiGateway.Budget.Journal
import AiGateway.Limits.Concurrency.Fleet
import AiGateway.Limits.Local.Refinement
import AiGateway.Limits.Rpm.Admissions
import AiGateway.Limits.Tpm.Retry
import AiGateway.Routing.StateMachine
import AiGateway.Routing.Policy
import AiGateway.Gateway.ChatRequest
import AiGateway.OpenAIAdapter.Usage
import AiGateway.Gateway.Exclusion
import AiGateway.Gateway.Lifecycle
import AiGateway.Gateway.Submission
import AiGateway.Execution.Completion
import AiGateway.Pipeline.Totals
import AiGateway.Pricing.Frozen
import AiGateway.Streaming.Gate
import AiGateway.Streaming.Guarded
import AiGateway.Sse.Writer
import AiGateway.Catalog.Contract
import AiGateway.MeteringConsumer.Selection
import AiGateway.MeteringCost.Partition
import AiGateway.Observability.Logging
