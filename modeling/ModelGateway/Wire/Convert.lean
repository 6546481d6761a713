import ModelGateway.Wire.Codec

namespace ModelGateway.Wire

open Policy (PolicyBundleMsg)
open Control (decodeTrustTier decodeDeployment)

def unixEpoch : Int := 62135596800 * second

def fromUnixMillis (ms : Int) : Int :=
  if ms = 0 then 0 else unixEpoch + ms * millisecond

def decodeBudgetScope : Nat → BudgetScope
  | 1 => .key
  | 2 => .app
  | 3 => .user
  | 4 => .team
  | 5 => .org
  | 6 => .model
  | 7 => .training
  | _ => .unset

def decodePort : Nat → Str
  | 1 => str "provider"
  | 2 => str "guardrail"
  | 3 => str "store"
  | 4 => str "telemetry"
  | _ => []

def decodePlugin (p : PluginBindingMsg) : PluginBinding where
  port := decodePort p.port
  component := p.component
  version := p.version
  configRef := p.configRef

def decodeFailureMode : Nat → FailureMode
  | 1 => .failOpen
  | _ => .failClosed

def decodeGuardrail (g : GuardrailBindingMsg) : GuardrailBinding where
  component := g.component
  version := g.version
  configRef := g.configRef
  execution := g.execution
  moduleDigest := g.moduleDigest
  budget := {
    timeout := g.timeoutMs * millisecond
    mode := decodeFailureMode g.failureMode
    blocking := g.blocking
    phases := g.phases.map fun name => if name = str "response" then .response else .request
  }

def decodeBudget (b : BudgetStateMsg) : BudgetState where
  id := b.id
  scope := decodeBudgetScope b.scope
  limitMicroUSD := b.limitMicroUSD
  spentMicroUSD := b.spentMicroUSD
  hard := b.hard
  headroomBasisPoints := b.headroomBasisPoints

def decodeLimits (p : PrincipalMsg) : RateLimit :=
  match p.limits with
  | none => ⟨0, 0, p.maxConcurrent⟩
  | some l =>
    ⟨l.requestsPerMinute, l.tokensPerMinute,
      if 0 < l.maxConcurrent then l.maxConcurrent else p.maxConcurrent⟩

def decodePrincipal (p : PrincipalMsg) : Principal where
  keyID := p.keyID
  tenant := p.tenant
  org := p.org
  team := p.team
  user := p.user
  app := p.app
  roles := p.roles
  models := ⟨p.modelsAllowAll, p.models⟩
  budgets := p.budgets.map fun b => ⟨b.id, decodeBudgetScope b.scope⟩
  defaultClass := .ofStr p.defaultDataClass
  minTrustTier := decodeTrustTier p.minTrustTier
  limits := decodeLimits p
  deprecated := p.deprecated
  notAfter := fromUnixMillis p.notAfterUnixMs

def copyEntry (m : Finmap fun _ : Str => Str) (out : GoMap Str Str) (k : Str) : GoMap Str Str :=
  match m.lookup k with
  | some v => out.insert k v
  | none => out

def decodeMap (m : Finmap fun _ : Str => Str) : GoMap Str Str :=
  (m.keys.sort (· ≤ ·)).foldl (copyEntry m) ∅

def decodeKeys (keys : List KeyEntryMsg) : GoMap Str Str :=
  keys.foldl (fun out k => if k.lookup.length ≠ 32 then out else out.insert k.lookup k.keyID) ∅

variable (f : Format)

def marshalPolicy : Option PolicyBundleMsg → Str
  | none => []
  | some bundle => if bundle.rules = [] ∧ bundle.id = [] then [] else f.policy.marshal bundle

def decodeGlobal (msg : GlobalLayerMsg) : GlobalSpec where
  version := msg.version
  builtAt := fromUnixMillis msg.builtAtUnixMs
  policyBundleRef := msg.policyBundleRef
  tenantPrefixes := decodeMap msg.tenantPrefixes
  deployments := msg.deployments.map decodeDeployment
  aliases := msg.aliases
  defaultPlugins := msg.defaultPlugins.map decodePlugin
  defaultGuardrails := msg.defaultGuardrails.map decodeGuardrail
  defaultPolicy := marshalPolicy f msg.defaultPolicy

def decodeTenant (msg : TenantLayerMsg) : TenantSpec where
  tenant := msg.tenant
  version := msg.version
  builtAt := fromUnixMillis msg.builtAtUnixMs
  tier := msg.tier
  minTrustTier := decodeTrustTier msg.minTrustTier
  keys := decodeKeys msg.keys
  principals := msg.principals.map decodePrincipal
  aliasOverrides := msg.aliasOverrides
  budgets := msg.budgets.map decodeBudget
  plugins := msg.plugins.map decodePlugin
  guardrails := msg.guardrails.map decodeGuardrail
  policy := marshalPolicy f msg.policy

def decodeSnapshot (msg : SnapshotMsg) : Except GoError Snapshot :=
  match msg.globalLayer with
  | none => .error (.invalid (str "snapshot has no global layer"))
  | some g => do
    let global ← newGlobalLayer (decodeGlobal f g)
    let tenants ← msg.tenants.mapM fun t => newTenantLayer (decodeTenant f t)
    compose global tenants

def decodeAndVerify (b : Str) : Except GoError (Snapshot × Str) := do
  let msg ← unmarshalSnapshot f b
  msg.globalLayer.forM (verifyGlobal f)
  msg.tenants.forM (verifyTenant f)
  let snap ← decodeSnapshot f msg
  return (snap, (msg.globalLayer.map (·.version.digest)).getD [])

end ModelGateway.Wire
