import ModelGateway.Accounting.Accountant
import ModelGateway.Gateway.Ports

namespace ModelGateway

def Code.name : Code → Str
  | .unauthenticated => str "unauthenticated"
  | .forbidden => str "forbidden"
  | .invalidRequest => str "invalid_request"
  | .modelNotFound => str "model_not_found"
  | .noCandidates => str "no_candidates"
  | .trustTierDenied => str "trust_tier_denied"
  | .rateLimited => str "rate_limited"
  | .budgetExhausted => str "budget_exhausted"
  | .endpointUnsupported => str "endpoint_unsupported"
  | .guardrailDenied => str "guardrail_denied"
  | .upstreamError => str "upstream_error"
  | .upstreamTimeout => str "upstream_timeout"
  | .unavailable => str "unavailable"
  | .internal => str "internal"

namespace Telemetry

structure Times where
  timestampUnixMs : Int
  latencyMs : Int
  timeToFirstByteMs : Int

def encode (times : Times) (e : Gateway.UsageEvent) : Accounting.UsageEvent where
  requestID := e.requestID
  timestampUnixMs := times.timestampUnixMs
  tenant := e.tenant
  keyID := e.keyID
  usage := e.usage
  costMicroUSD := e.costMicroUSD
  priceMicroUSD := e.priceMicroUSD
  outcome := (e.outcome.map Code.name).getD []
  deployment := e.deployment
  shadow := e.shadow
  baseModel := e.route.baseModel
  adapterID := e.route.adapterID
  provider := e.provider
  stream := e.stream
  latencyMs := times.latencyMs
  timeToFirstByteMs := times.timeToFirstByteMs
  snapshotVersion := e.snapshotVersion
  budgetIDs := e.budgets

end Telemetry

end ModelGateway
