import ModelGateway.Control.Tenant
import ModelGateway.Wire.Codec
import Mathlib.Data.Int.Log

/-!
This module contains the builder of the control plane: validation of fleet and tenants, and the sealed
snapshot that it encodes.
-/

namespace ModelGateway.Control

open Signing (TrustStore)
open Policy (PolicyBundleMsg)
open Wire

def roundHalfEven (q : ℚ) : Int :=
  let below := ⌊q⌋
  if q - below < 1 / 2 then below
  else if 1 / 2 < q - below then below + 1
  else if below % 2 = 0 then below
  else below + 1

def toDouble (q : ℚ) : ℚ :=
  let ulp : ℚ := 2 ^ (Int.log 2 |q| - 52)
  roundHalfEven (q / ulp) * ulp

def truncate (q : ℚ) : Int :=
  if 0 ≤ q then ⌊q⌋ else ⌈q⌉

def toUnixMs (time : Int) : Int :=
  truncate (toDouble (toDouble (time / 1000000) * 1000))

section

variable (sha256 : Str → Str) (ed25519 : Str → Str → Str → Bool)

def resolve (registry : Registry) (port : Port) (component version place : Str)
    : Except Error Component :=
  (registry.resolve port component version).mapError fun err =>
    .invalidRequest (place ++ str ": " ++ err.message)

def requireBindable (component : Component) (place : Str) : Except Error Unit :=
  if component.isBindable then
    .ok ()
  else
    .error (.invalidRequest (place ++ str " binds " ++ component.manifest.ref ++ str ", which is "
      ++ component.status.value
      ++ str " — only an admitted, active component can enter a snapshot"))

def requireSignature (component : Component) (place : Str) (trust : TrustStore) : Except Error Unit :=
  match trust.verify ed25519 (component.manifest.digest sha256) component.signature with
  | .ok _ => .ok ()
  | .error err =>
    .error (.invalidRequest (place ++ str " binds " ++ component.manifest.ref ++ str ": "
      ++ err.message))

def requireLatency (component : Component) (place : Str) (g : GuardrailBinding) : Except Error Unit :=
  let declared := component.manifest.latencyBudgetMs
  if declared ≠ 0 ∧ g.timeoutMs < declared then
    .error (.invalidRequest (place ++ str " allows " ++ component.manifest.ref ++ str " "
      ++ decimal g.timeoutMs ++ str "ms, but it declares it needs " ++ decimal declared ++ str "ms"))
  else
    .ok ()

def validatePlugin (registry : Registry) (place : Str) (trust : TrustStore) (p : PluginBinding)
    : Except Error Unit := do
  let component ← resolve registry p.port p.component p.version place
  requireBindable component place
  requireSignature sha256 ed25519 component place trust

def validateGuardrail (registry : Registry) (place : Str) (trust : TrustStore) (g : GuardrailBinding)
    : Except Error Unit := do
  let component ← resolve registry .guardrail g.component g.version place
  requireBindable component place
  requireSignature sha256 ed25519 component place trust
  requireLatency component place g

def validateBindings (registry : Registry) (tenant : Option Str) (plugins : List PluginBinding)
    (guardrails : List GuardrailBinding) (trust : TrustStore)
    : Except Error Unit := do
  let place :=
    match tenant with
    | some id => str "tenant " ++ repr id
    | none => str "the fleet defaults"
  plugins.forM (validatePlugin sha256 ed25519 registry place trust)
  guardrails.forM (validateGuardrail sha256 ed25519 registry place trust)

def validatePrincipal (tenant : Tenant) (p : Principal) : Except Error Unit :=
  if p.tenant ≠ tenant.id then
    .error (.invalidRequest (str "principal " ++ repr p.keyID ++ str " belongs to " ++ repr p.tenant
      ++ str ", not " ++ repr tenant.id))
  else
    match p.budgets.find? fun ref => !(tenant.budgets.map (·.id)).contains ref.id with
    | some ref =>
      .error (.invalidRequest (str "principal " ++ repr p.keyID ++ str " references unknown budget "
        ++ repr ref.id))
    | none => .ok ()

def validateKey (tenant : Tenant) (lookup keyID : Str) : Except Error Unit :=
  if lookup.length ≠ 32 then
    .error (.invalidRequest (str "tenant " ++ repr tenant.id ++ str " has a malformed key lookup"))
  else if !(tenant.principals.map (·.keyID)).contains keyID then
    .error (.invalidRequest (str "tenant " ++ repr tenant.id ++ str " maps a key to unknown principal "
      ++ repr keyID))
  else
    .ok ()

def validateTenant (tenant : Tenant) : Except Error Unit := do
  tenant.principals.forM (validatePrincipal tenant)
  tenant.keys.entries.forM fun e => validateKey tenant e.1 e.2

def validateAlias (routes : List RoutingKey) (a : ModelAlias) : Except Error Unit :=
  match a.targets.find? fun target => !routes.contains target with
  | some target =>
    .error (.invalidRequest (str "alias " ++ repr a.name ++ str " targets " ++ target.toStr
      ++ str ", which has no deployment"))
  | none => .ok ()

def claimPrefix (tenant : Str) (seenPrefixes : GoMap Str Str) (pre : Str)
    : Except Error (GoMap Str Str) :=
  match seenPrefixes.lookup pre with
  | some owner =>
    .error (.invalidRequest (str "key prefix " ++ repr pre ++ str " is claimed by both " ++ repr owner
      ++ str " and " ++ repr tenant))
  | none => .ok (seenPrefixes.insert pre tenant)

structure Seen where
  tenants : List Str
  prefixes : GoMap Str Str

def validateLayer (registry : Registry) (trust : TrustStore) (seen : Seen) (tenant : Tenant)
    : Except Error Seen :=
  if seen.tenants.contains tenant.id then
    .error (.invalidRequest (str "two layers for tenant " ++ repr tenant.id))
  else do
    let prefixes ← tenant.keyPrefixes.foldlM (claimPrefix tenant.id) seen.prefixes
    validateTenant tenant
    validateBindings sha256 ed25519 registry (some tenant.id) tenant.plugins tenant.guardrails trust
    return ⟨tenant.id :: seen.tenants, prefixes⟩

def validateIDs (deployments : List Deployment) : Except Error Unit :=
  match duplicateID [] (deployments.map (·.id)) with
  | some id => .error (.invalidRequest (str "duplicate deployment id " ++ repr id))
  | none => .ok ()

def validate (fleet : Fleet) (tenants : List Tenant) (trust : TrustStore) : Except Error Unit := do
  validateIDs fleet.deployments
  fleet.aliases.forM (validateAlias (fleet.deployments.map (·.key)))
  let _ ← tenants.foldlM (validateLayer sha256 ed25519 fleet.registry trust) ⟨[], ∅⟩
  validateBindings sha256 ed25519 fleet.registry none fleet.defaultPlugins fleet.defaultGuardrails
    trust

end

def encodeBudgetScope : BudgetScope → Nat
  | .unset => 0
  | .key => 1
  | .app => 2
  | .user => 3
  | .team => 4
  | .org => 5
  | .model => 6
  | .training => 7

def encodePort : Port → Option Nat
  | .provider => some 1
  | .guardrail => some 2
  | .store => some 3
  | .telemetry => some 4
  | .trainer => none
  | .eval => none

def encodePlugin (b : PluginBinding) : Except Error PluginBindingMsg :=
  match encodePort b.port with
  | none => .error (.invalidRequest (b.port.value ++ str " components do not run in the data plane"))
  | some port => .ok ⟨port, b.component, b.version, b.configRef⟩

def encodeFailureMode : FailureMode → Nat
  | .failOpen => 1
  | .failClosed => 2

def encodeGuardrail (registry : Registry) (g : GuardrailBinding) : Except Error GuardrailBindingMsg := do
  let component ← registry.resolve .guardrail g.component g.version
  let timeoutMs ← uint32 g.timeoutMs
  return {
    component := g.component
    version := g.version
    configRef := g.configRef
    execution := component.manifest.execution.value
    moduleDigest := component.manifest.moduleDigest
    timeoutMs := timeoutMs
    failureMode := encodeFailureMode g.failureMode
    blocking := g.blocking
    phases := g.phases
  }

def encodeBudget (b : Budget) : Except Error BudgetStateMsg := do
  let limitMicroUSD ← int64Field b.limitMicroUSD
  let spentMicroUSD ← int64Field b.spentMicroUSD
  let headroomBasisPoints ← uint32 b.headroomBasisPoints
  return ⟨b.id, encodeBudgetScope b.scope, limitMicroUSD, spentMicroUSD, b.hard, headroomBasisPoints⟩

def encodeBudgetRef (r : BudgetRef) : BudgetRefMsg :=
  ⟨r.id, encodeBudgetScope r.scope⟩

def encodePrincipal (p : Principal) : Except Error PrincipalMsg := do
  let requestsPerMinute ← uint32 p.limits.requestsPerMinute
  let tokensPerMinute ← uint32 p.limits.tokensPerMinute
  let maxConcurrent ← uint32 p.limits.maxConcurrent
  let notAfterUnixMs ← int64Field ((p.notAfter.map toUnixMs).getD 0)
  return {
    keyID := p.keyID
    tenant := p.tenant
    org := p.org
    team := p.team
    user := p.user
    app := p.app
    roles := p.roles
    modelsAllowAll := p.modelsAllowAll
    models := p.models
    budgets := p.budgets.map encodeBudgetRef
    defaultDataClass := p.defaultDataClass
    minTrustTier := encodeTrustTier p.minTrustTier
    maxConcurrent := maxConcurrent
    deprecated := p.deprecated
    notAfterUnixMs := notAfterUnixMs
    limits := some ⟨requestsPerMinute, tokensPerMinute, maxConcurrent⟩
  }

def encodeDefaultPolicy : Option PolicyBundle → Except Error (Option PolicyBundleMsg)
  | none => .ok none
  | some bundle => (encodePolicy bundle).map some

def tenantPrefixes (tenants : List Tenant) : Finmap fun _ : Str => Str :=
  tenants.foldl
    (fun prefixes t => t.keyPrefixes.foldl (fun prefixes pre => prefixes.insert pre t.id) prefixes) ∅

def encodeFleet (fleet : Fleet) (tenants : List Tenant) (builtAt : Int)
    : Except Error GlobalLayerMsg := do
  let number ← uint64 fleet.version
  let builtAtUnixMs ← int64Field (toUnixMs builtAt)
  let deployments ← fleet.deployments.mapM encodeDeployment
  let defaultPlugins ← fleet.defaultPlugins.mapM encodePlugin
  let defaultGuardrails ← fleet.defaultGuardrails.mapM (encodeGuardrail fleet.registry)
  let defaultPolicy ← encodeDefaultPolicy fleet.defaultPolicy
  return {
    version := ⟨number, []⟩
    builtAtUnixMs := builtAtUnixMs
    deployments := deployments
    aliases := fleet.aliases
    tenantPrefixes := tenantPrefixes tenants
    defaultPlugins := defaultPlugins
    policyBundleRef := fleet.policyBundleRef
    defaultGuardrails := defaultGuardrails
    defaultPolicy := defaultPolicy
  }

def encodeKeys (keys : GoMap Str Str) : List KeyEntryMsg :=
  (keys.keys.mergeSort fun s t => s ≤ t).filterMap fun lookup =>
    (keys.lookup lookup).map fun keyID => ⟨lookup, keyID⟩

def encodeTenant (registry : Registry) (builtAt : Int) (tenant : Tenant)
    : Except Error TenantLayerMsg := do
  let number ← uint64 tenant.version
  let builtAtUnixMs ← int64Field (toUnixMs builtAt)
  let principals ← tenant.principals.mapM encodePrincipal
  let budgets ← tenant.budgets.mapM encodeBudget
  let plugins ← tenant.plugins.mapM encodePlugin
  let guardrails ← tenant.guardrails.mapM (encodeGuardrail registry)
  let policy ← encodeDefaultPolicy tenant.policy
  return {
    tenant := tenant.id
    version := ⟨number, []⟩
    builtAtUnixMs := builtAtUnixMs
    tier := tenant.tier
    principals := principals
    keys := encodeKeys tenant.keys
    aliasOverrides := tenant.aliasOverrides
    budgets := budgets
    plugins := plugins
    minTrustTier := encodeTrustTier tenant.minTrustTier
    guardrails := guardrails
    policy := policy
  }

def sealLayer {Layer : Type} (sha256 : Str → Str) (serialize : Layer → Str)
    (withDigest : Layer → Str → Layer) (layer : Layer)
    : Layer :=
  withDigest layer (str "sha256:" ++ Pii.hexEncode (sha256 (serialize (withDigest layer []))))

def sealSnapshot (f : Format) (layer : GlobalLayerMsg) (layers : List TenantLayerMsg) : SnapshotMsg where
  globalLayer := some (sealLayer f.sha256 f.globalLayer.marshal GlobalLayerMsg.withDigest layer)
  tenants := layers.map (sealLayer f.sha256 f.tenantLayer.marshal TenantLayerMsg.withDigest)

def buildSnapshot (f : Format) (ed25519 : Str → Str → Str → Bool) (fleet : Fleet)
    (tenants : List Tenant) (builtAt : Int) (trust : Option TrustStore)
    : Except Error SnapshotMsg := do
  validate f.sha256 ed25519 fleet tenants (trust.getD .empty)
  let layer ← encodeFleet fleet tenants builtAt
  let layers ← tenants.mapM (encodeTenant fleet.registry builtAt)
  return sealSnapshot f layer layers

end ModelGateway.Control
