import ModelGateway.Gateway.ResponseLeg
import ModelGateway.Router.Prober
import ModelGateway.Gateway.Stamps
import ModelGateway.Gateway.PolicyCache
import ModelGateway.Gateway.Audit
import ModelGateway.Gateway.TrustFloor
import ModelGateway.Gateway.VaultLifetime
import ModelGateway.Snapshot.Monotonic
import ModelGateway.Wasm.Worker
import ModelGateway.Limits.LimiterLemmas
import ModelGateway.Httpapi.RequestIDs
import ModelGateway.Snapshot.Subscriber
import ModelGateway.Router.ProbeSlot
import ModelGateway.Router.BreakerRuns
import ModelGateway.Httpapi.Slots
import ModelGateway.Control.AuditLog
import ModelGateway.Control.EventStream
import ModelGateway.Control.Publishing
import ModelGateway.Control.Attribution
import ModelGateway.Control.FineTuneRuns
import ModelGateway.Gateway.Usage
import ModelGateway.Control.KeyLifetimes
import ModelGateway.Control.IdempotentCalls
import ModelGateway.Telemetry.Deliveries
import ModelGateway.Shadow.MirrorRuns
import ModelGateway.Guardrails.OffPath
import ModelGateway.Control.RolloutIsolation
import ModelGateway.Pii.Checksums
import ModelGateway.Pii.Overlaps
import ModelGateway.Pii.RoundTrip
import ModelGateway.Adapters.PrepareBody
import ModelGateway.Httpapi.Streaming
import ModelGateway.Gateway.DeepInspection
import ModelGateway.Control.Availability
import ModelGateway.Wire.KeyEntries
import ModelGateway.Wire.Sealing
import ModelGateway.Wire.Bundles
import ModelGateway.Limits.Buckets
import ModelGateway.Control.Verdicts
import ModelGateway.Adapters.Memkv
import ModelGateway.Secrets.Resolver
import ModelGateway.Router.Trips
