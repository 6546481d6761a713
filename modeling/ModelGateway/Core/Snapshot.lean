import ModelGateway.Core.Basic

/-!
This module contains the layers of a snapshot, their constructors with every check, and the lookups.
-/

namespace ModelGateway

structure LayerVersion where
  number : Nat
  digest : Str
  deriving DecidableEq, Repr

structure PluginBinding where
  port : Str
  component : Str
  version : Str
  configRef : Str
  deriving DecidableEq, Repr

structure GlobalSpec where
  version : LayerVersion
  builtAt : Int
  deployments : List Deployment
  aliases : List ModelAlias
  tenantPrefixes : GoMap Str Str
  defaultPlugins : List PluginBinding
  policyBundleRef : Str
  defaultGuardrails : List GuardrailBinding
  defaultPolicy : Str

structure TenantSpec where
  tenant : Str
  version : LayerVersion
  builtAt : Int
  tier : Str
  principals : List Principal
  keys : GoMap Str Str
  aliasOverrides : List ModelAlias
  budgets : List BudgetState
  plugins : List PluginBinding
  guardrails : List GuardrailBinding
  policy : Str
  minTrustTier : TrustTier

structure GlobalLayer where
  version : LayerVersion
  builtAt : Int
  deployments : GoMap Str Deployment
  shadows : GoMap Str (List Deployment)
  byRoute : GoMap RoutingKey (List Deployment)
  aliases : GoMap Str ModelAlias
  tenantByPrefix : GoMap Str Str
  plugins : GoMap Str PluginBinding
  guardrails : List GuardrailBinding
  policy : Str
  policyBundleRef : Str

structure TenantLayer where
  tenant : Str
  version : LayerVersion
  builtAt : Int
  tier : Str
  principals : GoMap Str Principal
  keys : GoMap Str Str
  aliases : GoMap Str ModelAlias
  budgets : GoMap Str BudgetState
  plugins : GoMap Str PluginBinding
  guardrails : List GuardrailBinding
  policy : Str
  minTrustTier : TrustTier

namespace GoMap

variable {K V : Type} [DecidableEq K]

def slice (m : GoMap K (List V)) (k : K) : List V :=
  (m.lookup k).getD []

def append (m : GoMap K (List V)) (k : K) (v : V) : GoMap K (List V) :=
  m.insert k (slice m k ++ [v])

@[simp]
theorem slice_empty (k : K) : slice (∅ : GoMap K (List V)) k = [] := by
  simp [slice]

theorem slice_append (m : GoMap K (List V)) (k k' : K) (v : V)
    : slice (append m k v) k' = if k' = k then slice m k ++ [v] else slice m k' := by
  unfold slice append
  split
  . next h =>
    subst h
    simp [slice]
  . next h => rw [AList.lookup_insert_ne h]

end GoMap

def deploymentError (g : GlobalLayer) (d : Deployment) : Option GoError :=
  if d.id = [] then
    some (.invalid (str "deployment has an empty id"))
  else if (g.deployments.lookup d.id).isSome then
    some (.invalid (str "duplicate deployment id " ++ Str.quote d.id))
  else if d.key.baseModel = [] then
    some (.invalid (str "deployment " ++ Str.quote d.id ++ str " has no base model"))
  else if !d.trustTier.valid then
    some (.invalid (str "deployment " ++ Str.quote d.id ++ str " has an unset trust tier"))
  else if 100 < d.weight then
    some (.invalid (str "deployment " ++ Str.quote d.id ++ str " weight " ++ Str.ofNat d.weight
      ++ str " exceeds 100"))
  else if 100 < d.shadowPercent then
    some (.invalid (str "deployment " ++ Str.quote d.id ++ str " shadows "
      ++ Str.ofNat d.shadowPercent ++ str "% of traffic, which is more than there is"))
  else if 0 < d.shadowPercent ∧ !d.key.isAdapter then
    some (.invalid (str "deployment " ++ Str.quote d.id ++ str " is not an adapter and cannot shadow"))
  else
    none

def GlobalLayer.addDeployment (g : GlobalLayer) (d : Deployment) : Except GoError GlobalLayer :=
  match deploymentError g d with
  | some err => .error err
  | none =>
    .ok { g with
      deployments := g.deployments.insert d.id d
      byRoute := GoMap.append g.byRoute d.key d
      shadows :=
        if d.shadowing then GoMap.append g.shadows d.key.baseModel d else g.shadows }

def validateAlias (a : ModelAlias) (routes : GoMap RoutingKey (List Deployment))
    : Except GoError Unit :=
  if a.name = [] then
    .error (.invalid (str "alias has an empty name"))
  else if a.targets = [] then
    .error (.invalid (str "alias " ++ Str.quote a.name ++ str " has no targets"))
  else
    match a.targets.find? (fun t => GoMap.slice routes t = []) with
    | some t =>
      .error (.invalid (str "alias " ++ Str.quote a.name ++ str " targets " ++ Str.quote t.toStr
        ++ str ", which has no deployment"))
    | none => .ok ()

def GlobalLayer.addAlias (g : GlobalLayer) (a : ModelAlias) : Except GoError GlobalLayer :=
  match validateAlias a g.byRoute with
  | .error err => .error err
  | .ok () => .ok { g with aliases := g.aliases.insert a.name a }

def GlobalLayer.addPlugin (g : GlobalLayer) (p : PluginBinding) : Except GoError GlobalLayer :=
  if (g.plugins.lookup p.port).isSome then
    .error (.invalid (str "two default plugins bound to port " ++ Str.quote p.port))
  else
    .ok { g with plugins := g.plugins.insert p.port p }

def GlobalLayer.init (spec : GlobalSpec) : GlobalLayer where
  version := spec.version
  builtAt := spec.builtAt
  deployments := ∅
  byRoute := ∅
  shadows := ∅
  aliases := ∅
  tenantByPrefix := spec.tenantPrefixes
  plugins := ∅
  guardrails := spec.defaultGuardrails
  policy := spec.defaultPolicy
  policyBundleRef := spec.policyBundleRef

def newGlobalLayer (spec : GlobalSpec) : Except GoError GlobalLayer :=
  if spec.version.number = 0 then
    .error (.invalid (str "global layer version must be non-zero"))
  else do
    let g ← spec.deployments.foldlM GlobalLayer.addDeployment (.init spec)
    let g ← spec.aliases.foldlM GlobalLayer.addAlias g
    spec.defaultPlugins.foldlM GlobalLayer.addPlugin g

namespace TenantLayer

def addBudget (t : TenantLayer) (b : BudgetState) : Except GoError TenantLayer :=
  if b.id = [] then
    .error (.invalid (str "tenant " ++ Str.quote t.tenant ++ str " has a budget with no id"))
  else if basisPointsPerUnit < b.headroomBasisPoints then
    .error (.invalid (str "budget " ++ Str.quote b.id ++ str " headroom exceeds 100%"))
  else
    .ok { t with budgets := t.budgets.insert b.id b }

def addPrincipal (t : TenantLayer) (p : Principal) : Except GoError TenantLayer :=
  if p.keyID = [] then
    .error (.invalid (str "tenant " ++ Str.quote t.tenant ++ str " has a principal with no key id"))
  else if p.tenant ≠ t.tenant then
    .error (.invalid (str "principal " ++ Str.quote p.keyID ++ str " belongs to tenant "
      ++ Str.quote p.tenant ++ str ", not " ++ Str.quote t.tenant))
  else
    match p.budgets.find? (fun ref => (t.budgets.lookup ref.id).isNone) with
    | some ref =>
      .error (.invalid (str "principal " ++ Str.quote p.keyID ++ str " references unknown budget "
        ++ Str.quote ref.id))
    | none => .ok { t with principals := t.principals.insert p.keyID p }

def checkKeys (t : TenantLayer) : Except GoError TenantLayer :=
  match t.keys.entries.find? (fun e => (t.principals.lookup e.2).isNone) with
  | some e =>
    .error (.invalid (str "tenant " ++ Str.quote t.tenant ++ str " maps a key to unknown principal "
      ++ Str.quote e.2))
  | none => .ok t

def addAlias (t : TenantLayer) (a : ModelAlias) : Except GoError TenantLayer :=
  if a.name = [] ∨ a.targets = [] then
    .error (.invalid (str "tenant " ++ Str.quote t.tenant ++ str " has a malformed alias override"))
  else
    .ok { t with aliases := t.aliases.insert a.name a }

def addPlugin (t : TenantLayer) (p : PluginBinding) : Except GoError TenantLayer :=
  if (t.plugins.lookup p.port).isSome then
    .error (.invalid (str "tenant " ++ Str.quote t.tenant ++ str " binds two plugins to port "
      ++ Str.quote p.port))
  else
    .ok { t with plugins := t.plugins.insert p.port p }

def init (spec : TenantSpec) : TenantLayer where
  tenant := spec.tenant
  version := spec.version
  builtAt := spec.builtAt
  tier := spec.tier
  principals := ∅
  keys := spec.keys
  aliases := ∅
  budgets := ∅
  plugins := ∅
  guardrails := spec.guardrails
  policy := spec.policy
  minTrustTier := spec.minTrustTier

end TenantLayer

def newTenantLayer (spec : TenantSpec) : Except GoError TenantLayer :=
  if spec.tenant = [] then
    .error (.invalid (str "tenant layer has no tenant id"))
  else if spec.version.number = 0 then
    .error (.invalid (str "tenant " ++ Str.quote spec.tenant
      ++ str " layer version must be non-zero"))
  else do
    let t ← spec.budgets.foldlM TenantLayer.addBudget (.init spec)
    let t ← spec.principals.foldlM TenantLayer.addPrincipal t
    let t ← t.checkKeys
    let t ← spec.aliasOverrides.foldlM TenantLayer.addAlias t
    spec.plugins.foldlM TenantLayer.addPlugin t

structure Snapshot where
  global : GlobalLayer
  tenants : GoMap Str TenantLayer

def Snapshot.addTenant (byTenant : GoMap Str TenantLayer) (t : TenantLayer)
    : Except GoError (GoMap Str TenantLayer) :=
  if (byTenant.lookup t.tenant).isSome then
    .error (.invalid (str "two layers for tenant " ++ Str.quote t.tenant))
  else
    .ok (byTenant.insert t.tenant t)

def GlobalLayer.routed (g : GlobalLayer) (tenant : Str) : Bool :=
  g.tenantByPrefix.entries.any (fun e => e.2 = tenant)

def compose (global : GlobalLayer) (tenants : List TenantLayer) : Except GoError Snapshot :=
  match tenants.foldlM Snapshot.addTenant ∅ with
  | .error err => .error err
  | .ok byTenant =>
    match byTenant.keys.find? (fun tenant => !global.routed tenant) with
    | some tenant =>
      .error (.invalid (str "tenant " ++ Str.quote tenant
        ++ str " has a layer but no key prefix routes to it"))
    | none => .ok ⟨global, byTenant⟩

namespace Snapshot

def Composed (s : Snapshot) : Prop :=
  ∃ globalSpec global tenants, newGlobalLayer globalSpec = .ok global ∧
    (∀ layer ∈ tenants, ∃ spec, newTenantLayer spec = .ok layer) ∧
    compose global tenants = .ok s

def globalVersion (s : Snapshot) : LayerVersion :=
  s.global.version

def tenantVersion (s : Snapshot) (tenant : Str) : Option LayerVersion :=
  (s.tenants.lookup tenant).map TenantLayer.version

def tenantIDs (s : Snapshot) : List Str :=
  s.tenants.keys

def tenantForPrefix (s : Snapshot) (pre : Str) : Option Str :=
  s.global.tenantByPrefix.lookup pre

def principal (s : Snapshot) (tenant : Str) (lookup : Str) : Option Principal :=
  match s.tenants.lookup tenant with
  | none => none
  | some layer =>
    match layer.keys.lookup lookup with
    | none => none
    | some keyID => layer.principals.lookup keyID

def tier (s : Snapshot) (tenant : Str) : Str :=
  match s.tenants.lookup tenant with
  | some layer => layer.tier
  | none => str "unknown"

def minTrustTier (s : Snapshot) (tenant : Str) : TrustTier :=
  match s.tenants.lookup tenant with
  | some layer => layer.minTrustTier
  | none => .internal

def resolveAlias (s : Snapshot) (tenant name : Str) : List RoutingKey :=
  match (s.tenants.lookup tenant).bind (·.aliases.lookup name) with
  | some a => a.targets
  | none =>
    match s.global.aliases.lookup name with
    | some a => a.targets
    | none => [⟨name, []⟩]

def deployments (s : Snapshot) (key : RoutingKey) : List Deployment :=
  GoMap.slice s.global.byRoute key

def shadows (s : Snapshot) (baseModel : Str) : List Deployment :=
  GoMap.slice s.global.shadows baseModel

def guardrails (s : Snapshot) (tenant : Str) (phase : Phase) : List GuardrailBinding :=
  let bindings :=
    match s.tenants.lookup tenant with
    | some layer => if layer.guardrails = [] then s.global.guardrails else layer.guardrails
    | none => s.global.guardrails
  bindings.filter (·.inspects phase)

def allGuardrails (s : Snapshot) : List GuardrailBinding :=
  s.global.guardrails ++ s.tenants.entries.flatMap (·.2.guardrails)

def policy (s : Snapshot) (tenant : Str) : Str :=
  match s.tenants.lookup tenant with
  | some layer => if layer.policy = [] then s.global.policy else layer.policy
  | none => s.global.policy

def budget (s : Snapshot) (tenant id : Str) : Option BudgetState :=
  (s.tenants.lookup tenant).bind (·.budgets.lookup id)

def deniedBudget (s : Snapshot) (p : Principal) : Option BudgetState :=
  p.budgets.findSome? fun ref =>
    match s.budget p.tenant ref.id with
    | none => none
    | some b => if b.denies then some b else none

end Snapshot

end ModelGateway
