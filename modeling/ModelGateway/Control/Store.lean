import ModelGateway.Control.Canary
import ModelGateway.Control.Keys
import ModelGateway.Control.RegistryService
import ModelGateway.Snapshot.Source
import Mathlib.Data.PNat.Basic

/-!
This module contains the tables of the control plane's database, the constraints that they keep, and the
load that builds one snapshot from them.
-/

namespace ModelGateway.Control

open Accounting (UsageRecord)
open Accounting.Postgres (InRange)
open Keys (ApiKey KeyColumns)
open Signing (TrustStore)
open TextColumn (Fits varchar)

section

structure FleetStateRow where
  version : Int
  policyBundleRef : Str

structure TenantRow where
  id : Str
  tier : Str
  minTrustTier : Int
  version : ℕ+

structure BudgetRow where
  id : Str
  tenantID : Str
  scope : BudgetScope
  limitMicroUSD : Int
  spentMicroUSD : Int
  hard : Bool
  headroomBasisPoints : Int
  deriving DecidableEq

structure PluginBindingRow where
  tenantID : Option Str
  binding : PluginBinding

inductive ConditionKind where
  | model
  | endpoint
  | role
  | region
  | cidr
  deriving DecidableEq

structure PolicyRuleRow where
  tenantID : Option Str
  ruleID : Str
  position : Int
  effect : PolicyEffect
  maxPayloadBytes : Int
  dataClass : Str
  minTrustTier : Int
  reason : Str
  conditions : List (ConditionKind × Str)
  deriving DecidableEq

end

structure Tables where
  fleetState : Option FleetStateRow
  tenants : List TenantRow
  keyPrefixes : List (Str × Str)
  orgs : List (Str × Str)
  teams : List (Str × Str)
  users : List (Str × Str)
  applications : List (Str × Str)
  apiKeys : List ApiKey
  keyRoles : List (Str × Str)
  keyModels : List (Str × Str)
  keyBudgets : List (Str × Str)
  budgets : List BudgetRow
  deployments : List DeploymentRow
  aliases : List AliasRow
  pluginBindings : List PluginBindingRow
  policyRules : List PolicyRuleRow
  components : ComponentTable
  finetuneJobs : FineTune.Table
  usageRecords : List UsageRecord

section

def IsDatetime (time : Int) : Prop :=
  -62135596800000000 ≤ time ∧ time < 253402300800000000

instance (time : Int) : Decidable (IsDatetime time) :=
  inferInstanceAs (Decidable (_ ∧ _))

def TenantRow.Stored (row : TenantRow) : Prop :=
  Fits 64 row.id ∧ Fits 32 row.tier ∧ InRange row.minTrustTier ∧ InRange row.version

instance (row : TenantRow) : Decidable row.Stored :=
  inferInstanceAs (Decidable (_ ∧ _))

def ChildStored (parents : List Str) (row : Str × Str) : Prop :=
  Fits 64 row.1 ∧ row.2 ∈ parents

instance (parents : List Str) (row : Str × Str) : Decidable (ChildStored parents row) :=
  inferInstanceAs (Decidable (_ ∧ _))

def GrantStored (keys : List Str) (granted : Str → Prop) (row : Str × Str) : Prop :=
  row.1 ∈ keys ∧ granted row.2

instance (keys : List Str) (granted : Str → Prop) [DecidablePred granted] (row : Str × Str)
    : Decidable (GrantStored keys granted row) :=
  inferInstanceAs (Decidable (_ ∧ _))

def BudgetRow.Stored (tenants : List Str) (row : BudgetRow) : Prop :=
  Fits 64 row.id ∧ row.tenantID ∈ tenants ∧ InRange row.limitMicroUSD ∧ InRange row.spentMicroUSD ∧
    InRange row.headroomBasisPoints

instance (tenants : List Str) (row : BudgetRow) : Decidable (row.Stored tenants) :=
  inferInstanceAs (Decidable (_ ∧ _))

def DeploymentRow.Stored (row : DeploymentRow) : Prop :=
  Fits 64 row.id ∧ Fits 255 row.baseModel ∧ Fits 255 row.adapterID ∧ Fits 64 row.provider ∧
    Fits 1024 row.endpoint ∧ Fits 64 row.region ∧ InRange row.trustTier ∧ Fits 512 row.credentialRef ∧
    InRange row.weight ∧ InRange row.cost.inputPer1K ∧ InRange row.cost.outputPer1K ∧
    InRange row.cost.cachedInputPer1K ∧ InRange row.cost.cacheWritePer1K ∧
    row.capabilities.Nodup ∧ ∀ c ∈ row.capabilities, Fits 64 c

instance (row : DeploymentRow) : Decidable row.Stored :=
  inferInstanceAs (Decidable (_ ∧ _))

def AliasRow.Stored (tenants : List Str) (row : AliasRow) : Prop :=
  (∀ id ∈ row.tenantID, id ∈ tenants) ∧ Fits 255 row.name ∧
    ∀ target ∈ row.targets, Fits 255 target.baseModel ∧ Fits 255 target.adapterID

instance (tenants : List Str) (row : AliasRow) : Decidable (row.Stored tenants) :=
  inferInstanceAs (Decidable (_ ∧ _))

def PluginBindingRow.Stored (tenants : List Str) (row : PluginBindingRow) : Prop :=
  (∀ id ∈ row.tenantID, id ∈ tenants) ∧ Fits 255 row.binding.component ∧
    Fits 64 row.binding.version ∧ Fits 512 row.binding.configRef

instance (tenants : List Str) (row : PluginBindingRow) : Decidable (row.Stored tenants) :=
  inferInstanceAs (Decidable (_ ∧ _))

def PolicyRuleRow.Stored (tenants : List Str) (row : PolicyRuleRow) : Prop :=
  (∀ id ∈ row.tenantID, id ∈ tenants) ∧ Fits 64 row.ruleID ∧ InRange row.position ∧
    InRange row.maxPayloadBytes ∧ Fits 32 row.dataClass ∧ InRange row.minTrustTier ∧
    Fits 512 row.reason ∧ ∀ c ∈ row.conditions, Fits 255 c.2

instance (tenants : List Str) (row : PolicyRuleRow) : Decidable (row.Stored tenants) :=
  inferInstanceAs (Decidable (_ ∧ _))

def ofTenants {α β : Type} (tenant : α → Option Str) (other : α → β) (rows : List α) : List (Str × β) :=
  rows.filterMap fun row => (tenant row).map (·, other row)

namespace Tables

variable (t : Tables)

def tenantIDs : List Str :=
  t.tenants.map (·.id)

def keyIDs : List Str :=
  t.apiKeys.map (·.columns.id)

def KeyStored (row : ApiKey) : Prop :=
  Fits 64 row.columns.id ∧ row.columns.tenantID ∈ t.tenantIDs ∧
    (∀ id ∈ row.columns.applicationID, id ∈ t.applications.map (·.1)) ∧
    (∀ id ∈ row.columns.userID, id ∈ t.users.map (·.1)) ∧
    Fits 32 row.columns.defaultDataClass ∧ InRange row.columns.minTrustTier ∧
    InRange row.columns.requestsPerMinute ∧ InRange row.columns.tokensPerMinute ∧
    InRange row.columns.maxConcurrent ∧ (∀ time ∈ row.columns.notAfter, IsDatetime time) ∧
    ∀ time ∈ row.columns.revokedAt, IsDatetime time

instance (row : ApiKey) : Decidable (t.KeyStored row) :=
  inferInstanceAs (Decidable (_ ∧ _))

/-
What the schema guarantees: primary and foreign keys, unique constraints, and that every value fits its
column.
-/

@[mk_iff]
structure IdentitySound : Prop where
  fleetState : ∀ row ∈ t.fleetState, InRange row.version ∧ Fits 255 row.policyBundleRef
  tenants : Table.Holds TenantRow.id TenantRow.Stored t.tenants
  keyPrefixes : Table.Holds Prod.fst (ChildStored t.tenantIDs) t.keyPrefixes
  orgs : Table.Holds Prod.fst (ChildStored t.tenantIDs) t.orgs
  teams : Table.Holds Prod.fst (ChildStored (t.orgs.map (·.1))) t.teams
  users : Table.Holds Prod.fst (ChildStored (t.teams.map (·.1))) t.users
  applications : Table.Holds Prod.fst (ChildStored (t.teams.map (·.1))) t.applications

@[mk_iff]
structure KeysSound : Prop where
  apiKeys : Table.Holds (·.columns.id) t.KeyStored t.apiKeys
  lookups : (t.apiKeys.map (·.lookup)).Nodup
  keyRoles : Table.Holds id (GrantStored t.keyIDs (Fits 64)) t.keyRoles
  keyModels : Table.Holds id (GrantStored t.keyIDs (Fits 255)) t.keyModels
  keyBudgets : Table.Holds id (GrantStored t.keyIDs (· ∈ t.budgets.map (·.id))) t.keyBudgets

@[mk_iff]
structure ConfigurationSound : Prop where
  budgets : Table.Holds BudgetRow.id (BudgetRow.Stored t.tenantIDs) t.budgets
  deployments : Table.Holds DeploymentRow.id DeploymentRow.Stored t.deployments
  aliasNames : (ofTenants AliasRow.tenantID AliasRow.name t.aliases).Nodup
  aliases : ∀ row ∈ t.aliases, row.Stored t.tenantIDs
  bindingPorts : (ofTenants PluginBindingRow.tenantID (·.binding.port) t.pluginBindings).Nodup
  pluginBindings : ∀ row ∈ t.pluginBindings, row.Stored t.tenantIDs
  ruleIDs : (ofTenants PolicyRuleRow.tenantID PolicyRuleRow.ruleID t.policyRules).Nodup
  policyRules : ∀ row ∈ t.policyRules, row.Stored t.tenantIDs
  finetuneJobs : ∀ row ∈ t.finetuneJobs, row.job.spec.tenant ∈ t.tenantIDs
  usageRecords : (t.usageRecords.map (·.requestID)).Nodup

structure Sound : Prop extends t.IdentitySound, t.KeysSound, t.ConfigurationSound

instance : Decidable t.IdentitySound :=
  decidable_of_iff' _ t.identitySound_iff

local instance lawfulBEq_bytes : LawfulBEq (List UInt8) := inferInstance

instance : Decidable t.KeysSound :=
  decidable_of_iff' _ t.keysSound_iff

instance : Decidable t.ConfigurationSound :=
  decidable_of_iff' _ t.configurationSound_iff

instance : Decidable t.Sound :=
  decidable_of_iff (t.IdentitySound ∧ t.KeysSound ∧ t.ConfigurationSound)
    ⟨fun ⟨h₁, h₂, h₃⟩ => ⟨h₁, h₂, h₃⟩, fun h => ⟨h.1, h.2, h.3⟩⟩

end Tables

end

def Store := { t : Tables // t.Sound }

def Tables.initialised (state : FleetStateRow) : Tables where
  fleetState := some state
  tenants := []
  keyPrefixes := []
  orgs := []
  teams := []
  users := []
  applications := []
  apiKeys := []
  keyRoles := []
  keyModels := []
  keyBudgets := []
  budgets := []
  deployments := []
  aliases := []
  pluginBindings := []
  policyRules := []
  components := []
  finetuneJobs := []
  usageRecords := []

def commit (t : Tables) : Except FineTune.Failure Store :=
  if h : t.Sound then .ok ⟨t, h⟩ else .error .external

section

def toBudget (row : BudgetRow) : Except Error Budget :=
  Budget.postInit {
    id := row.id
    scope := row.scope
    limitMicroUSD := row.limitMicroUSD
    spentMicroUSD := row.spentMicroUSD
    hard := row.hard
    headroomBasisPoints := row.headroomBasisPoints
  }

def toAlias (row : AliasRow) : Except Error ModelAlias := do
  let targets ← row.targets.mapM fun target => routingKey target.baseModel target.adapterID
  modelAlias row.name targets

def PolicyRuleRow.values (row : PolicyRuleRow) (kind : ConditionKind) : List Str :=
  ((row.conditions.filter fun c => c.1 = kind).map (·.2)).mergeSort fun s t => s ≤ t

def toPolicyRule (row : PolicyRuleRow) : Except Error PolicyRule := do
  let minTrustTier ← trustTier row.minTrustTier
  PolicyRule.postInit {
    id := row.ruleID
    effect := row.effect
    models := row.values .model
    endpoints := row.values .endpoint
    roles := row.values .role
    regions := row.values .region
    sourceCidrs := row.values .cidr
    maxPayloadBytes := row.maxPayloadBytes
    dataClass := row.dataClass
    minTrustTier := minTrustTier
    reason := row.reason
  }

structure Ancestry where
  org : Str
  team : Str
  user : Str
  app : Str

namespace Tables

variable (t : Tables)

def budgetsOf (tenantID : Str) : List BudgetRow :=
  t.budgets.filter fun row => row.tenantID = tenantID

def keysOf (tenantID : Str) : List ApiKey :=
  t.apiKeys.filter fun row => row.columns.tenantID = tenantID ∧ row.columns.revokedAt.isNone

def prefixesOf (tenantID : Str) : List Str :=
  ((t.keyPrefixes.filter fun p => p.2 = tenantID).map (·.1)).insertionSort (· ≤ ·)

def pluginsOf (tenantID : Option Str) : List PluginBinding :=
  (t.pluginBindings.filter fun row => row.tenantID = tenantID).map (·.binding)

def loadAliases (tenantID : Option Str) : Except Error (List ModelAlias) :=
  (t.aliases.filter fun row => row.tenantID = tenantID).mapM toAlias

def rulesOf (tenantID : Option Str) : List PolicyRuleRow :=
  (t.policyRules.filter fun row => row.tenantID = tenantID).mergeSort fun row row' =>
    row.position ≤ row'.position

def policyID (tenantID : Option Str) : Str :=
  (tenantID.filter (· ≠ [])).getD (str "fleet")

def loadPolicy (tenantID : Option Str) : Except Error (Option PolicyBundle) :=
  if t.rulesOf tenantID = [] then
    .ok none
  else do
    let rules ← (t.rulesOf tenantID).mapM toPolicyRule
    let bundle ← PolicyBundle.postInit ⟨policyID tenantID, 1, rules, .allow⟩
    return some bundle

def lineage (teamID : Str) : Str × Str :=
  match Table.get Prod.fst t.teams teamID with
  | none => ([], [])
  | some team => (((Table.get Prod.fst t.orgs team.2).map (·.1)).getD [], team.1)

def ancestry (key : KeyColumns) : Ancestry :=
  match key.applicationID.bind (Table.get Prod.fst t.applications) with
  | some app => ⟨(t.lineage app.2).1, (t.lineage app.2).2, [], app.1⟩
  | none =>
    match key.userID.bind (Table.get Prod.fst t.users) with
    | some user => ⟨(t.lineage user.2).1, (t.lineage user.2).2, user.1, []⟩
    | none => ⟨[], [], [], []⟩

def granted (grants : List (Str × Str)) (keyID : Str) : List Str :=
  ((grants.filter fun g => g.1 = keyID).map (·.2)).mergeSort fun s t => s ≤ t

def budgetRefs (budgets : List Budget) (keyID : Str) : List BudgetRef :=
  (granted t.keyBudgets keyID).filterMap fun id =>
    (Table.get Budget.id budgets id).map fun b => ⟨id, b.scope⟩

def toPrincipal (budgets : List Budget) (key : KeyColumns) (tenantID : Str) : Except Error Principal := do
  let minTrustTier ← trustTier key.minTrustTier
  let limits ← RateLimit.postInit ⟨key.requestsPerMinute, key.tokensPerMinute, key.maxConcurrent⟩
  Principal.postInit {
    keyID := key.id
    tenant := tenantID
    org := (t.ancestry key).org
    team := (t.ancestry key).team
    user := (t.ancestry key).user
    app := (t.ancestry key).app
    roles := granted t.keyRoles key.id
    modelsAllowAll := key.modelsAllowAll
    models := granted t.keyModels key.id
    budgets := t.budgetRefs budgets key.id
    defaultDataClass := key.defaultDataClass
    minTrustTier := minTrustTier
    limits := limits
    deprecated := key.deprecated
    notAfter := key.notAfter
  }

def lookups (keys : List ApiKey) : GoMap Str Str :=
  Table.index ApiKey.lookup (·.columns.id) keys

def loadTenant (tenantID : Str) : Except Error Tenant :=
  match Table.get TenantRow.id t.tenants tenantID with
  | none => .error (.notFound (str "no tenant " ++ Control.repr tenantID))
  | some row => do
    let budgets ← (t.budgetsOf row.id).mapM toBudget
    let principals ← (t.keysOf tenantID).mapM fun key => t.toPrincipal budgets key.columns tenantID
    let aliasOverrides ← t.loadAliases (some tenantID)
    let policy ← t.loadPolicy (some tenantID)
    let minTrustTier ← trustTier row.minTrustTier
    Tenant.postInit {
      id := row.id
      tier := row.tier
      version := row.version
      keyPrefixes := t.prefixesOf row.id
      principals := principals
      keys := lookups (t.keysOf tenantID)
      aliasOverrides := aliasOverrides
      budgets := budgets
      plugins := t.pluginsOf (some tenantID)
      guardrails := []
      policy := policy
      minTrustTier := minTrustTier
    }

def loadTenants : Except Error (List Tenant) :=
  t.tenants.mapM fun row => t.loadTenant row.id

variable (rt : Runtime)

def loadRegistry : Except Error Registry := do
  let components ← t.components.mapM (ComponentRow.toComponent rt)
  Registry.postInit ⟨components⟩

def loadDeployments : Except Error (List Deployment) :=
  Database.loadDeployments ⟨t.deployments, t.finetuneJobs.map (·.job.row)⟩

def loadFleet : Except Error Fleet :=
  match t.fleetState with
  | none =>
    .error (.notFound (str "fleet state has not been initialised; run a migration and seed row 1"))
  | some state => do
    let defaultPolicy ← t.loadPolicy none
    let deployments ← t.loadDeployments
    let aliases ← t.loadAliases none
    let registry ← t.loadRegistry rt
    Fleet.postInit {
      version := state.version
      deployments := deployments
      aliases := aliases
      registry := registry
      defaultPlugins := t.pluginsOf none
      defaultGuardrails := []
      defaultPolicy := defaultPolicy
      policyBundleRef := state.policyBundleRef
    }

def load : Except Error (Fleet × List Tenant) := do
  let fleet ← t.loadFleet rt
  let tenants ← t.loadTenants
  return (fleet, tenants)

def build (f : Wire.Format) (now : Int) (trust : Option TrustStore) : Except Error Wire.SnapshotMsg :=
  Config.build f rt.ed25519 ⟨t.load rt, now, trust⟩

end Tables

end

end ModelGateway.Control
