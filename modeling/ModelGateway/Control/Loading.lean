import ModelGateway.Control.Bindings
import ModelGateway.Control.Store

namespace ModelGateway.Control

open List
open Except (bind_eq_ok_iff ite_error_eq_ok_iff ok)
open Accounting.Postgres (InRange)
open Keys (ApiKey KeyColumns)

section

def BudgetRow.budget (row : BudgetRow) : Budget where
  id := row.id
  scope := row.scope
  limitMicroUSD := row.limitMicroUSD
  spentMicroUSD := row.spentMicroUSD
  hard := row.hard
  headroomBasisPoints := row.headroomBasisPoints

@[mk_iff]
structure BudgetRow.Loads (row : BudgetRow) : Prop where
  id_ne : row.id ≠ []
  scope_ne : row.scope ≠ .unset
  limit : 0 ≤ row.limitMicroUSD
  spent : 0 ≤ row.spentMicroUSD
  headroom : 0 ≤ row.headroomBasisPoints ∧ row.headroomBasisPoints ≤ 10000

instance (row : BudgetRow) : Decidable row.Loads :=
  decidable_of_iff' _ row.loads_iff

theorem toBudget_eq_ok_iff {row : BudgetRow} {b : Budget}
    : toBudget row = .ok b ↔ row.Loads ∧ row.budget = b := by
  have hbudget : toBudget row = row.budget.postInit := rfl
  rw [hbudget]
  unfold Budget.postInit
  simp only [ite_error_eq_ok_iff, Decidable.not_not, not_or, Int.not_lt, ok.injEq]
  constructor
  . rintro ⟨hid, hscope, ⟨hlimit, hspent⟩, hheadroom, hb⟩
    exact ⟨⟨hid, hscope, hlimit, hspent, hheadroom⟩, hb⟩
  . rintro ⟨⟨hid, hscope, hlimit, hspent, hheadroom⟩, hb⟩
    exact ⟨hid, hscope, ⟨hlimit, hspent⟩, hheadroom, hb⟩

@[mk_iff]
structure AliasRow.Loads (row : AliasRow) : Prop where
  name_ne : row.name ≠ []
  targets_ne : row.targets ≠ []
  baseModels : ∀ target ∈ row.targets, target.baseModel ≠ []

instance (row : AliasRow) : Decidable row.Loads :=
  decidable_of_iff' _ row.loads_iff

theorem toAlias_eq_ok_iff {row : AliasRow} {a : ModelAlias}
    : toAlias row = .ok a ↔ row.Loads ∧ ⟨row.name, row.targets⟩ = a := by
  have hkey : ∀ target ∈ row.targets, ∀ key, routingKey target.baseModel target.adapterID = .ok key
      ↔ target.baseModel ≠ [] ∧ id target = key := by
    intro target _ key
    unfold routingKey
    rw [ite_error_eq_ok_iff, ok.injEq]
    rfl
  unfold toAlias modelAlias
  simp only [bind_eq_ok_iff, ite_error_eq_ok_iff, mapM_eq_ok_iff_map hkey, map_id, ok.injEq]
  constructor
  . rintro ⟨_, ⟨hbase, rfl⟩, hname, hne, ha⟩
    exact ⟨⟨hname, hne, hbase⟩, ha⟩
  . rintro ⟨⟨hname, hne, hbase⟩, ha⟩
    exact ⟨_, ⟨hbase, rfl⟩, hname, hne, ha⟩

@[simp]
theorem trustTier_eq_ok_iff {n : Int} {tier : TrustTier}
    : trustTier n = .ok tier ↔ (0 ≤ n ∧ n ≤ 3) ∧ n.toNat = tier := by
  unfold trustTier
  split
  . next h => simp [h]
  . next h => simp [h]

@[mk_iff]
structure DeploymentRow.Loads (row : DeploymentRow) : Prop where
  id_ne : row.id ≠ []
  baseModel_ne : row.baseModel ≠ []
  provider_ne : row.provider ≠ []
  trustTier : 1 ≤ row.trustTier ∧ row.trustTier ≤ 3
  weight : 0 ≤ row.weight ∧ row.weight ≤ 100
  cost : 0 ≤ row.cost.inputPer1K ∧ 0 ≤ row.cost.outputPer1K ∧ 0 ≤ row.cost.cachedInputPer1K ∧
    0 ≤ row.cost.cacheWritePer1K
  capabilities : ∀ c ∈ row.capabilities, capability c = .ok c

instance (row : DeploymentRow) : Decidable row.Loads :=
  decidable_of_iff' _ row.loads_iff

def DeploymentRow.deployment (row : DeploymentRow) : Deployment where
  id := row.id
  key := ⟨row.baseModel, row.adapterID⟩
  provider := row.provider
  endpoint := row.endpoint
  region := row.region
  trustTier := row.trustTier.toNat
  credentialRef := row.credentialRef
  weight := row.weight
  shadowPercent := 0
  cost := row.cost
  capabilities := row.capabilities.mergeSort fun s t => s ≤ t

theorem capability_eq_ok_iff {name c : Str}
    : capability name = .ok c ↔ capability name = .ok name ∧ name = c := by
  unfold capability
  split
  . simp
  . simp

@[simp]
theorem checkCost_eq_ok_iff {cost cost' : Cost}
    : checkCost cost = .ok cost'
        ↔
      (0 ≤ cost.inputPer1K ∧ 0 ≤ cost.outputPer1K ∧ 0 ≤ cost.cachedInputPer1K ∧
        0 ≤ cost.cacheWritePer1K) ∧ cost = cost' := by
  unfold checkCost
  rw [ite_error_eq_ok_iff, ok.injEq, Int.not_lt]
  simp only [le_min_iff, and_assoc]

theorem toDeployment_eq_ok_iff {row : DeploymentRow} {d : Deployment}
    : toDeployment row = .ok d ↔ row.Loads ∧ row.deployment = d := by
  have hcapabilities : ∀ cs, (row.capabilities.mergeSort fun s t => s ≤ t).mapM capability = .ok cs
      ↔ (∀ c ∈ row.capabilities, capability c = .ok c) ∧ row.deployment.capabilities = cs := by
    intro cs
    have hknown : ∀ c ∈ row.capabilities.mergeSort fun s t => s ≤ t, ∀ c', capability c = .ok c'
        ↔ capability c = .ok c ∧ id c = c' := fun c _ c' => capability_eq_ok_iff
    rw [mapM_eq_ok_iff_map hknown, map_id]
    simp only [mem_mergeSort]
    rfl
  have hpost : row.deployment.postInit = .ok d
      ↔ (row.id ≠ [] ∧ row.provider ≠ [] ∧ row.trustTier.toNat ≠ 0 ∧ 0 ≤ row.weight ∧ row.weight ≤ 100)
        ∧ row.deployment = d := by
    constructor
    . intro h
      have hd := postInit_eq_ok h
      subst hd
      exact ⟨postInit_eq_self_iff.mp h, rfl⟩
    . rintro ⟨h, rfl⟩
      exact postInit_eq_self_iff.mpr h
  unfold toDeployment routingKey
  simp only [bind_eq_ok_iff, ite_error_eq_ok_iff, trustTier_eq_ok_iff,
    checkCost_eq_ok_iff, hcapabilities, ok.injEq]
  constructor
  . rintro ⟨_, ⟨hbase, rfl⟩, _, ⟨htier, rfl⟩, _, ⟨hcost, rfl⟩, _, ⟨hcaps, rfl⟩, h⟩
    rcases hpost.mp h with ⟨⟨hid, hprovider, hunset, hweight⟩, hd⟩
    exact ⟨⟨hid, hbase, hprovider, by omega, hweight, hcost, hcaps⟩, hd⟩
  . rintro ⟨h, hd⟩
    refine ⟨_, ⟨h.baseModel_ne, rfl⟩, _, ⟨?_, rfl⟩, _, ⟨h.cost, rfl⟩, _, ⟨h.capabilities, rfl⟩,
      hpost.mpr ⟨⟨h.id_ne, h.provider_ne, ?_, h.weight⟩, hd⟩⟩
    . have htier := h.trustTier
      omega
    . have htier := h.trustTier
      omega

theorem toPolicyRule_eq_ok {row : PolicyRuleRow} {rule : PolicyRule} (h : toPolicyRule row = .ok rule)
    : 0 ≤ rule.maxPayloadBytes ∧ rule.maxPayloadBytes = row.maxPayloadBytes := by
  unfold toPolicyRule PolicyRule.postInit at h
  simp only [bind_eq_ok_iff, ite_error_eq_ok_iff] at h
  rcases h with ⟨tier, _, _, hbound, h⟩
  split at h
  . simp at h
  . split at h
    . simp at h
    . rw [← ok.inj h]
      exact ⟨by simpa using hbound, rfl⟩

end

namespace Tables

variable {t : Tables}

section

def KeyLoads (key : KeyColumns) : Prop :=
  key.id ≠ [] ∧ 0 ≤ key.minTrustTier ∧ key.minTrustTier ≤ 3

instance (key : KeyColumns) : Decidable (KeyLoads key) :=
  inferInstanceAs (Decidable (_ ∧ _))

def principalOf (t : Tables) (budgets : List Budget) (key : KeyColumns) (tenantID : Str) : Principal where
  keyID := key.id
  tenant := tenantID
  org := (t.ancestry key).org
  team := (t.ancestry key).team
  user := (t.ancestry key).user
  app := (t.ancestry key).app
  roles := granted t.keyRoles key.id
  modelsAllowAll := key.modelsAllowAll
  models := granted t.keyModels key.id
  budgets := t.budgetRefs budgets key.id
  defaultDataClass := key.defaultDataClass
  minTrustTier := key.minTrustTier.toNat
  limits := ⟨key.requestsPerMinute, key.tokensPerMinute, key.maxConcurrent⟩
  deprecated := key.deprecated
  notAfter := key.notAfter

theorem toPrincipal_eq_ok_iff {budgets : List Budget} {key : KeyColumns} {tenantID : Str}
    (htenant : tenantID ≠ []) {p : Principal}
    : t.toPrincipal budgets key tenantID = .ok p
        ↔
      KeyLoads key ∧ t.principalOf budgets key tenantID = p := by
  have hlimits : ∀ l, RateLimit.postInit ⟨key.requestsPerMinute, key.tokensPerMinute, key.maxConcurrent⟩
      = .ok l ↔ ⟨key.requestsPerMinute, key.tokensPerMinute, key.maxConcurrent⟩ = l := by
    intro l
    unfold RateLimit.postInit
    rw [if_neg (by simp), ok.injEq]
  unfold toPrincipal Principal.postInit KeyLoads
  simp only [bind_eq_ok_iff, trustTier_eq_ok_iff, hlimits, ite_error_eq_ok_iff, ok.injEq]
  constructor
  . rintro ⟨_, ⟨htier, rfl⟩, _, rfl, hid, _, hp⟩
    exact ⟨⟨hid, htier⟩, hp⟩
  . rintro ⟨⟨hid, htier⟩, hp⟩
    exact ⟨_, ⟨htier, rfl⟩, _, rfl, hid, htenant, hp⟩

end

theorem loadAliases_eq_ok_iff {tenantID : Option Str} {aliases : List ModelAlias}
    : t.loadAliases tenantID = .ok aliases
        ↔
      (∀ row ∈ t.aliases, row.tenantID = tenantID → row.Loads) ∧
        aliasesOf t.aliases tenantID = aliases := by
  unfold loadAliases
  rw [mapM_eq_ok_iff_map fun row _ a => toAlias_eq_ok_iff]
  simp only [mem_filter, decide_eq_true_eq, and_imp]
  rfl

def policyOf (t : Tables) (tenantID : Option Str) : Option PolicyBundle :=
  (t.loadPolicy tenantID).toOption.join

theorem policyOf_eq {tenantID : Option Str} {policy : Option PolicyBundle}
    (h : t.loadPolicy tenantID = .ok policy)
    : t.policyOf tenantID = policy := by
  unfold policyOf
  rw [h]
  rfl

section

def baseDeployments (t : Tables) : List Deployment :=
  t.deployments.map DeploymentRow.deployment

def deploymentsOf (t : Tables) : List Deployment :=
  t.baseDeployments ++ (hosted t.baseDeployments (t.finetuneJobs.map (·.job))).map adapterOf

theorem loadDeployments_eq_ok_iff {deployments : List Deployment}
    : t.loadDeployments = .ok deployments
        ↔
      (∀ row ∈ t.deployments, row.Loads) ∧ t.deploymentsOf = deployments := by
  have hload : ∀ base, t.deployments.mapM toDeployment = .ok base
      ↔ (∀ row ∈ t.deployments, row.Loads) ∧ t.baseDeployments = base :=
    fun base => mapM_eq_ok_iff_map fun row _ d => toDeployment_eq_ok_iff
  have hjobs : t.finetuneJobs.map (·.job.row) = (t.finetuneJobs.map (·.job)).map (·.row) := by
    rw [map_map]
    rfl
  unfold loadDeployments Database.loadDeployments
  rw [hjobs]
  simp only [bind_eq_ok_iff, pure, Except.pure, ok.injEq]
  constructor
  . rintro ⟨base, hbase, _, hadapters, rfl⟩
    rw [adapterDeployments_eq hbase, ok.injEq] at hadapters
    rw [hload] at hbase
    rcases hbase with ⟨hrows, rfl⟩
    refine ⟨hrows, ?_⟩
    unfold deploymentsOf
    rw [hadapters]
  . rintro ⟨hrows, rfl⟩
    have hbase := (hload _).mpr ⟨hrows, rfl⟩
    exact ⟨_, hbase, _, adapterDeployments_eq hbase _, rfl⟩

structure FleetLoads (t : Tables) (rt : Runtime) : Prop where
  initialised : ∃ state, t.fleetState = some state ∧ 1 ≤ state.version
  policy : ∃ policy, t.loadPolicy none = .ok policy
  deployments : ∀ row ∈ t.deployments, row.Loads
  aliases : ∀ a ∈ t.aliases, a.tenantID = none → a.Loads
  registry : ∃ registry, t.loadRegistry rt = .ok registry

def registryOf (t : Tables) (rt : Runtime) : Registry :=
  (t.loadRegistry rt).toOption.getD .empty

def fleetOf (t : Tables) (rt : Runtime) : Fleet where
  version := (t.fleetState.map (·.version)).getD 0
  deployments := t.deploymentsOf
  aliases := aliasesOf t.aliases none
  registry := t.registryOf rt
  defaultPlugins := t.pluginsOf none
  defaultGuardrails := []
  defaultPolicy := t.policyOf none
  policyBundleRef := (t.fleetState.map (·.policyBundleRef)).getD []

theorem loadFleet_eq_ok_iff {rt : Runtime} {fleet : Fleet}
    : t.loadFleet rt = .ok fleet ↔ t.FleetLoads rt ∧ t.fleetOf rt = fleet := by
  have hregistry : ∀ registry, t.loadRegistry rt = .ok registry → t.registryOf rt = registry := by
    intro registry h
    unfold registryOf
    rw [h]
    rfl
  unfold loadFleet fleetOf
  cases hstate : t.fleetState with
  | none =>
    simp only [reduceCtorEq, false_iff, not_and]
    intro h
    rcases h.initialised with ⟨state, hsome, _⟩
    rw [hstate] at hsome
    simp at hsome
  | some state =>
    unfold Fleet.postInit
    simp only [bind_eq_ok_iff, loadDeployments_eq_ok_iff, loadAliases_eq_ok_iff,
      ite_error_eq_ok_iff, ok.injEq, Int.not_lt]
    constructor
    . rintro ⟨policy, hpolicy, _, ⟨hdeployments, rfl⟩, _, ⟨haliases, rfl⟩, registry, hload, hversion, hfleet⟩
      rw [← policyOf_eq hpolicy, ← hregistry registry hload] at hfleet
      exact ⟨⟨⟨state, hstate, hversion⟩, ⟨policy, hpolicy⟩, hdeployments, haliases, registry, hload⟩, hfleet⟩
    . rintro ⟨h, hfleet⟩
      rcases h.initialised with ⟨_, hsome, hversion⟩
      rcases h.policy with ⟨policy, hpolicy⟩
      rcases h.registry with ⟨registry, hload⟩
      rw [hstate, Option.some.injEq] at hsome
      subst hsome
      rw [policyOf_eq hpolicy, hregistry registry hload] at hfleet
      exact ⟨policy, hpolicy, _, ⟨h.deployments, rfl⟩, _, ⟨h.aliases, rfl⟩, registry, hload, hversion, hfleet⟩

end

section

structure TenantLoads (t : Tables) (row : TenantRow) : Prop where
  id_ne : row.id ≠ []
  prefixes_ne : t.prefixesOf row.id ≠ []
  minTrustTier : 0 ≤ row.minTrustTier ∧ row.minTrustTier ≤ 3
  budgets : ∀ b ∈ t.budgetsOf row.id, b.Loads
  keys : ∀ key ∈ t.keysOf row.id, KeyLoads key.columns
  aliases : ∀ a ∈ t.aliases, a.tenantID = some row.id → a.Loads
  policy : ∃ policy, t.loadPolicy (some row.id) = .ok policy

def tenantOf (t : Tables) (row : TenantRow) : Tenant where
  id := row.id
  tier := row.tier
  version := row.version
  keyPrefixes := t.prefixesOf row.id
  principals := (t.keysOf row.id).map fun key =>
    t.principalOf ((t.budgetsOf row.id).map BudgetRow.budget) key.columns row.id
  keys := lookups (t.keysOf row.id)
  aliasOverrides := aliasesOf t.aliases (some row.id)
  budgets := (t.budgetsOf row.id).map BudgetRow.budget
  plugins := t.pluginsOf (some row.id)
  guardrails := []
  policy := t.policyOf (some row.id)
  minTrustTier := row.minTrustTier.toNat

theorem loadTenant_eq_ok_iff {row : TenantRow} (hrow : Table.get TenantRow.id t.tenants row.id = some row)
    {tenant : Tenant}
    : t.loadTenant row.id = .ok tenant ↔ t.TenantLoads row ∧ t.tenantOf row = tenant := by
  unfold loadTenant
  rw [hrow]
  unfold Tenant.postInit
  simp only [bind_eq_ok_iff, loadAliases_eq_ok_iff, trustTier_eq_ok_iff,
    ite_error_eq_ok_iff, ok.injEq, mapM_eq_ok_iff_map fun row _ b => toBudget_eq_ok_iff]
  constructor
  . rintro ⟨_, ⟨hbudgets, rfl⟩, _, hprincipals, _, ⟨haliases, rfl⟩, policy, hpolicy, _,
      ⟨htier, rfl⟩, hid, _, hprefixes, htenant⟩
    rw [mapM_eq_ok_iff_map fun key _ p => toPrincipal_eq_ok_iff hid] at hprincipals
    rcases hprincipals with ⟨hkeys, rfl⟩
    rw [← policyOf_eq hpolicy] at htenant
    exact ⟨⟨hid, hprefixes, htier, hbudgets, hkeys, haliases, policy, hpolicy⟩, htenant⟩
  . rintro ⟨h, htenant⟩
    rcases h.policy with ⟨policy, hpolicy⟩
    unfold tenantOf at htenant
    rw [policyOf_eq hpolicy] at htenant
    refine ⟨_, ⟨h.budgets, rfl⟩, _, ?_, _, ⟨h.aliases, rfl⟩, policy, hpolicy, _, ⟨h.minTrustTier, rfl⟩,
      h.id_ne, ?_, h.prefixes_ne, htenant⟩
    . rw [mapM_eq_ok_iff_map fun key _ p => toPrincipal_eq_ok_iff h.id_ne]
      exact ⟨h.keys, rfl⟩
    . have hpos := row.version.pos
      omega

theorem loadTenants_eq_ok_iff (hunique : Table.Unique TenantRow.id t.tenants) {tenants : List Tenant}
    : t.loadTenants = .ok tenants
        ↔
      (∀ row ∈ t.tenants, t.TenantLoads row) ∧ t.tenants.map t.tenantOf = tenants := by
  unfold loadTenants
  rw [mapM_eq_ok_iff_map]
  intro row hrow tenant
  exact loadTenant_eq_ok_iff ((Table.get_eq_some_iff TenantRow.id hunique).mpr ⟨hrow, rfl⟩)

theorem lookup_lookups {keys : List ApiKey} (hunique : (keys.map (·.lookup)).Nodup) {lookup keyID : Str}
    : (lookups keys).lookup lookup = some keyID
        ↔
      ∃ key ∈ keys, key.lookup = lookup ∧ key.columns.id = keyID := by
  unfold lookups
  rw [Table.lookup_index ApiKey.lookup _ hunique, Option.map_eq_some_iff]
  simp only [Table.get_eq_some_iff ApiKey.lookup hunique, and_assoc]

end

end Tables

end ModelGateway.Control
