import ModelGateway.Core.SnapshotLemmas

namespace ModelGateway

open Except List Table

structure Deployment.Acceptable (d : Deployment) : Prop where
  id_ne : d.id ≠ []
  baseModel_ne : d.key.baseModel ≠ []
  trustTier_valid : d.trustTier.valid
  weight_le : d.weight ≤ 100
  shadowPercent_le : d.shadowPercent ≤ 100
  shadow_adapter : 0 < d.shadowPercent → d.key.isAdapter

structure GlobalSpec.Coherent (spec : GlobalSpec) : Prop where
  version_ne : spec.version.number ≠ 0
  deployments : ∀ d ∈ spec.deployments, d.Acceptable
  ids_nodup : (spec.deployments.map (·.id)).Nodup
  aliases : ∀ a ∈ spec.aliases, a.name ≠ [] ∧ a.targets ≠ [] ∧
    ∀ t ∈ a.targets, ∃ d ∈ spec.deployments, d.key = t
  ports_nodup : (spec.defaultPlugins.map (·.port)).Nodup

structure TenantSpec.Coherent (spec : TenantSpec) : Prop where
  tenant_ne : spec.tenant ≠ []
  version_ne : spec.version.number ≠ 0
  budgets : ∀ b ∈ spec.budgets, b.id ≠ [] ∧ b.headroomBasisPoints ≤ basisPointsPerUnit
  principals : ∀ p ∈ spec.principals, p.keyID ≠ [] ∧ p.tenant = spec.tenant ∧
    ∀ ref ∈ p.budgets, ∃ b ∈ spec.budgets, b.id = ref.id
  keys : ∀ lookup keyID, spec.keys.lookup lookup = some keyID → ∃ p ∈ spec.principals, p.keyID = keyID
  aliasOverrides : ∀ a ∈ spec.aliasOverrides, a.name ≠ [] ∧ a.targets ≠ []
  ports_nodup : (spec.plugins.map (·.port)).Nodup

@[simp]
theorem ite_some_eq_none_iff {α : Type} {c : Prop} [Decidable c] {a : α} {x : Option α}
    : (if c then some a else x) = none ↔ ¬ c ∧ x = none := by
  split
  . next h => simp [h]
  . next h => simp [h]

variable {g : GlobalLayer}

theorem deploymentError_eq_none_iff {d : Deployment}
    : deploymentError g d = none ↔ d.Acceptable ∧ ¬ (g.deployments.lookup d.id).isSome := by
  unfold deploymentError
  simp only [ite_some_eq_none_iff]
  constructor
  . rintro ⟨hid, hfresh, hbase, htier, hweight, hshadow, hadapter, -⟩
    exact ⟨⟨hid, hbase, by simpa using htier, by omega, by omega, by simpa using hadapter⟩, hfresh⟩
  . rintro ⟨⟨hid, hbase, htier, hweight, hshadow, hadapter⟩, hfresh⟩
    exact ⟨hid, hfresh, hbase, by simp [htier], by omega, by omega, by simpa using hadapter, trivial⟩

namespace GlobalLayer

theorem addDeployment_isOk_iff (d : Deployment) (g : GlobalLayer)
    : (∃ g', g.addDeployment d = .ok g') ↔ d.Acceptable ∧ ¬ (g.deployments.lookup d.id).isSome := by
  rw [← deploymentError_eq_none_iff]
  unfold addDeployment
  split
  . next h => simp [h]
  . next h => simp [h]

theorem validateAlias_eq_ok_iff {a : ModelAlias} {routes : GoMap RoutingKey (List Deployment)}
    : validateAlias a routes = .ok ()
        ↔
      a.name ≠ [] ∧ a.targets ≠ [] ∧ ∀ t ∈ a.targets, GoMap.slice routes t ≠ [] := by
  unfold validateAlias
  rw [ite_error_eq_ok_iff, ite_error_eq_ok_iff]
  refine and_congr_right fun _ => and_congr_right fun _ => ?_
  split
  . next t hfind =>
    have hslice := find?_some hfind
    simp only [decide_eq_true_eq] at hslice
    simp only [reduceCtorEq, false_iff, not_forall, Decidable.not_not]
    exact ⟨t, mem_of_find?_eq_some hfind, hslice⟩
  . next hfind =>
    simpa using hfind

theorem addAlias_isOk_iff (a : ModelAlias) (g : GlobalLayer)
    : (∃ g', g.addAlias a = .ok g') ↔ validateAlias a g.byRoute = .ok () := by
  unfold addAlias
  split
  . next h => simp [h]
  . next h => simp [h]

theorem addPlugin_isOk_iff (p : PluginBinding) (g : GlobalLayer)
    : (∃ g', g.addPlugin p = .ok g') ↔ ¬ (g.plugins.lookup p.port).isSome := by
  unfold addPlugin
  simp only [ite_error_eq_ok_iff, ok.injEq, exists_and_left, exists_eq', and_true]

end GlobalLayer

theorem GoMap.lookup_insert_isSome_iff {K V : Type} [DecidableEq K] (m : GoMap K V) (k k' : K) (v : V)
    : ((m.insert k v).lookup k').isSome ↔ k' = k ∨ (m.lookup k').isSome := by
  by_cases h : k' = k
  . subst h
    simp
  . simp [h]

theorem slice_byRoute_ne_nil_iff {spec : GlobalSpec} {ds : List Deployment} (key : RoutingKey)
    : GoMap.slice (spec.deployed ds).byRoute key ≠ [] ↔ ∃ d ∈ ds, d.key = key := by
  unfold GlobalSpec.deployed
  rw [GoMap.slice_group]
  simp

section

variable {spec : GlobalSpec}

theorem foldlM_addDeployment_isOk_iff
    : (∃ g, spec.deployments.foldlM GlobalLayer.addDeployment (.init spec) = .ok g)
        ↔
      (∀ d ∈ spec.deployments, d.Acceptable) ∧ (spec.deployments.map (·.id)).Nodup := by
  rw [foldlM_index_isOk_iff _ Deployment.id
    (fun g id => (AList.lookup id (GlobalLayer.deployments g)).isSome) Deployment.Acceptable
    GlobalLayer.addDeployment_isOk_iff]
  . simp [GlobalLayer.init]
  . intro d g g' hstep id
    rw [GlobalLayer.addDeployment_eq_ok hstep, GoMap.lookup_insert_isSome_iff]

theorem foldlM_addAlias_isOk_iff
    : (∃ g, spec.aliases.foldlM GlobalLayer.addAlias (spec.deployed spec.deployments) = .ok g)
        ↔
      ∀ a ∈ spec.aliases, a.name ≠ [] ∧ a.targets ≠ [] ∧
        ∀ t ∈ a.targets, ∃ d ∈ spec.deployments, d.key = t := by
  rw [foldlM_isOk_iff _ (fun g => g.byRoute = (spec.deployed spec.deployments).byRoute)
    (fun a => validateAlias a (spec.deployed spec.deployments).byRoute = .ok ())]
  . simp only [GlobalLayer.validateAlias_eq_ok_iff, slice_byRoute_ne_nil_iff]
  . intro a g hg
    rw [GlobalLayer.addAlias_isOk_iff, hg]
  . intro a g₁ g₂ hg₁ hstep
    rw [GlobalLayer.addAlias_eq_ok hstep]
    exact hg₁
  . rfl

theorem foldlM_addPlugin_isOk_iff {plugins : List PluginBinding} {g : GlobalLayer} (hg : g.plugins = ∅)
    : (∃ g', plugins.foldlM GlobalLayer.addPlugin g = .ok g') ↔ (plugins.map (·.port)).Nodup := by
  rw [foldlM_index_isOk_iff _ PluginBinding.port
    (fun g port => (AList.lookup port (GlobalLayer.plugins g)).isSome) (fun _ => True)]
  . simp [hg]
  . intro p g
    rw [GlobalLayer.addPlugin_isOk_iff]
    simp
  . intro p g g' hstep port
    rw [GlobalLayer.addPlugin_eq_ok hstep, GoMap.lookup_insert_isSome_iff]

end

theorem newGlobalLayer_isOk_iff (spec : GlobalSpec)
    : (∃ g, newGlobalLayer spec = .ok g) ↔ spec.Coherent := by
  unfold newGlobalLayer
  simp only [ite_error_eq_ok_iff, bind_eq_ok_iff]
  constructor
  . rintro ⟨g, hversion, g₁, h₁, g₂, h₂, h₃⟩
    rcases foldlM_addDeployment_isOk_iff.mp ⟨g₁, h₁⟩ with ⟨hdeployments, hids⟩
    rw [foldlM_addDeployment_eq_ok h₁] at h₂
    have haliases := foldlM_addAlias_isOk_iff.mp ⟨g₂, h₂⟩
    rw [foldlM_addAlias_eq_ok rfl h₂] at h₃
    exact ⟨hversion, hdeployments, hids, haliases, (foldlM_addPlugin_isOk_iff rfl).mp ⟨g, h₃⟩⟩
  . rintro ⟨hversion, hdeployments, hids, haliases, hports⟩
    rcases foldlM_addDeployment_isOk_iff.mpr ⟨hdeployments, hids⟩ with ⟨g₁, h₁⟩
    rcases foldlM_addAlias_isOk_iff.mpr haliases with ⟨g₂, h₂⟩
    have hplugins : g₂.plugins = ∅ := by
      rw [foldlM_addAlias_eq_ok rfl h₂]
      rfl
    rcases (foldlM_addPlugin_isOk_iff hplugins).mpr hports with ⟨g₃, h₃⟩
    rw [← foldlM_addDeployment_eq_ok h₁] at h₂
    exact ⟨g₃, hversion, g₁, h₁, g₂, h₂, h₃⟩

theorem newGlobalLayer_tenantByPrefix {spec : GlobalSpec} (h : newGlobalLayer spec = .ok g)
    : g.tenantByPrefix = spec.tenantPrefixes := by
  rw [newGlobalLayer_eq_layer h]
  rfl

namespace TenantLayer

theorem addBudget_isOk_iff (b : BudgetState) (t : TenantLayer)
    : (∃ t', t.addBudget b = .ok t') ↔ b.id ≠ [] ∧ b.headroomBasisPoints ≤ basisPointsPerUnit := by
  unfold addBudget
  simp

theorem addPrincipal_isOk_iff (p : Principal) (t : TenantLayer)
    : (∃ t', t.addPrincipal p = .ok t')
        ↔
      p.keyID ≠ [] ∧ p.tenant = t.tenant ∧ ∀ ref ∈ p.budgets, (t.budgets.lookup ref.id).isSome := by
  unfold addPrincipal
  simp only [ite_error_eq_ok_iff, exists_and_left, ne_eq, Decidable.not_not]
  refine and_congr_right fun _ => and_congr_right fun _ => ?_
  split
  . next ref hfind =>
    have hnone := find?_some hfind
    have hmem := mem_of_find?_eq_some hfind
    constructor
    . rintro ⟨t', h⟩
      simp at h
    . intro hall
      have hsome := hall ref hmem
      rw [Option.isNone_iff_eq_none] at hnone
      simp [hnone] at hsome
  . next hfind =>
    simpa [Option.isSome_iff_ne_none] using hfind

theorem checkKeys_isOk_iff (t : TenantLayer)
    : (∃ t', t.checkKeys = .ok t')
        ↔
      ∀ l k, t.keys.lookup l = some k → (t.principals.lookup k).isSome := by
  constructor
  . rintro ⟨t', h⟩
    exact (checkKeys_eq_ok h).1
  . intro hknown
    unfold checkKeys
    split
    . next e hfind =>
      have hnone := find?_some hfind
      have hlookup := hknown e.1 e.2 (AList.mem_lookup_iff.mpr (mem_of_find?_eq_some hfind))
      simp [Option.isSome_iff_ne_none] at hnone hlookup
      exact absurd hnone hlookup
    . exact ⟨t, rfl⟩

theorem addAlias_isOk_iff (a : ModelAlias) (t : TenantLayer)
    : (∃ t', t.addAlias a = .ok t') ↔ a.name ≠ [] ∧ a.targets ≠ [] := by
  unfold addAlias
  simp

theorem addPlugin_isOk_iff (p : PluginBinding) (t : TenantLayer)
    : (∃ t', t.addPlugin p = .ok t') ↔ ¬ (t.plugins.lookup p.port).isSome := by
  unfold addPlugin
  simp only [ite_error_eq_ok_iff, ok.injEq, exists_and_left, exists_eq', and_true]

end TenantLayer

section

open TenantLayer

variable {spec : TenantSpec} {t : TenantLayer}

theorem foldlM_addPrincipal_isOk_iff
    : (∃ t, spec.principals.foldlM addPrincipal { TenantLayer.init spec with budgets := spec.identified.budgets }
        = .ok t) ↔ ∀ p ∈ spec.principals, p.keyID ≠ [] ∧ p.tenant = spec.tenant ∧
        ∀ ref ∈ p.budgets, ∃ b ∈ spec.budgets, b.id = ref.id := by
  simp only [← lookup_index_isSome_iff BudgetState.id id]
  refine foldlM_isOk_iff _ (fun t => t.tenant = spec.tenant ∧ t.budgets = spec.identified.budgets) _ ?_ ?_
    _ _ ⟨rfl, rfl⟩
  . rintro p t ⟨htenant, hbudgets⟩
    rw [addPrincipal_isOk_iff, htenant, hbudgets]
    rfl
  . rintro p t₁ t₂ hinv hstep
    rw [(addPrincipal_eq_ok hstep).2.2]
    exact hinv

theorem checkKeys_identified_iff
    : (∃ t, spec.identified.checkKeys = .ok t)
        ↔
      ∀ lookup keyID, spec.keys.lookup lookup = some keyID → ∃ p ∈ spec.principals, p.keyID = keyID := by
  simp only [checkKeys_isOk_iff, ← lookup_index_isSome_iff Principal.keyID id]
  rfl

theorem foldlM_addTenantPlugin_isOk_iff {plugins : List PluginBinding} (ht : t.plugins = ∅)
    : (∃ t', plugins.foldlM TenantLayer.addPlugin t = .ok t') ↔ (plugins.map (·.port)).Nodup := by
  rw [foldlM_index_isOk_iff _ PluginBinding.port
    (fun t port => (AList.lookup port (TenantLayer.plugins t)).isSome) (fun _ => True)]
  . simp [ht]
  . intro p t
    rw [TenantLayer.addPlugin_isOk_iff]
    simp
  . intro p t t' hstep port
    rw [TenantLayer.addPlugin_eq_ok hstep, GoMap.lookup_insert_isSome_iff]

theorem newTenantLayer_isOk_iff (spec : TenantSpec)
    : (∃ t, newTenantLayer spec = .ok t) ↔ spec.Coherent := by
  have hbudgets : (∃ t, spec.budgets.foldlM addBudget (.init spec) = .ok t)
      ↔ ∀ b ∈ spec.budgets, b.id ≠ [] ∧ b.headroomBasisPoints ≤ basisPointsPerUnit :=
    foldlM_isOk_iff _ (fun _ => True) _ (fun b t _ => addBudget_isOk_iff b t)
      (fun _ _ _ _ _ => trivial) _ _ trivial
  have haliases : ∀ t : TenantLayer, (∃ t', spec.aliasOverrides.foldlM addAlias t = .ok t')
      ↔ ∀ a ∈ spec.aliasOverrides, a.name ≠ [] ∧ a.targets ≠ [] :=
    fun t => foldlM_isOk_iff _ (fun _ => True) _ (fun a t _ => addAlias_isOk_iff a t)
      (fun _ _ _ _ _ => trivial) _ _ trivial
  unfold newTenantLayer
  simp only [ite_error_eq_ok_iff, bind_eq_ok_iff]
  constructor
  . rintro ⟨t, htenant, hversion, t₁, h₁, t₂, h₂, t₃, h₃, t₄, h₄, h₅⟩
    rw [foldlM_addBudget_eq_ok h₁] at h₂
    have hprincipals := foldlM_addPrincipal_isOk_iff.mp ⟨t₂, h₂⟩
    rw [foldlM_addPrincipal_eq_ok h₂] at h₃
    rw [(checkKeys_eq_ok h₃).2] at h₄
    have halias := (haliases _).mp ⟨t₄, h₄⟩
    rw [foldlM_addOverride_eq_ok h₄] at h₅
    exact ⟨htenant, hversion, hbudgets.mp ⟨t₁, h₁⟩, hprincipals, checkKeys_identified_iff.mp ⟨t₃, h₃⟩, halias,
      (foldlM_addTenantPlugin_isOk_iff rfl).mp ⟨t, h₅⟩⟩
  . rintro ⟨htenant, hversion, hbudget, hprincipal, hkey, halias, hports⟩
    rcases hbudgets.mpr hbudget with ⟨t₁, h₁⟩
    rcases foldlM_addPrincipal_isOk_iff.mpr hprincipal with ⟨t₂, h₂⟩
    rcases checkKeys_identified_iff.mpr hkey with ⟨t₃, h₃⟩
    have ht₃ := (checkKeys_eq_ok h₃).2
    rcases (haliases t₃).mpr halias with ⟨t₄, h₄⟩
    have hplugins : t₄.plugins = ∅ := by
      rw [ht₃] at h₄
      rw [foldlM_addOverride_eq_ok h₄]
      rfl
    rcases (foldlM_addTenantPlugin_isOk_iff hplugins).mpr hports with ⟨t₅, h₅⟩
    rw [← foldlM_addPrincipal_eq_ok h₂] at h₃
    rw [← foldlM_addBudget_eq_ok h₁] at h₂
    exact ⟨t₅, htenant, hversion, t₁, h₁, t₂, h₂, t₃, h₃, t₄, h₄, h₅⟩

end

structure TenantLayer.WellFormed (t : TenantLayer) : Prop where
  principal_keyID : ∀ k p, t.principals.lookup k = some p → p.keyID = k
  principal_tenant : ∀ k p, t.principals.lookup k = some p → p.tenant = t.tenant
  keys_known : ∀ l k, t.keys.lookup l = some k → (t.principals.lookup k).isSome

theorem newTenantLayer_eq_ok {spec : TenantSpec} {t : TenantLayer} (h : newTenantLayer spec = .ok t)
    : t.WellFormed ∧ t.tenant = spec.tenant ∧ t.keys = spec.keys := by
  have hspec := (newTenantLayer_isOk_iff spec).mp ⟨t, h⟩
  rw [newTenantLayer_eq_layer h]
  refine ⟨⟨?_, ?_, ?_⟩, rfl, rfl⟩
  . intro k p hp
    rcases mem_of_lookup_index _ _ hp with ⟨_, _, hk, rfl⟩
    exact hk
  . intro k p hp
    rcases mem_of_lookup_index _ _ hp with ⟨_, hmem, _, rfl⟩
    exact (hspec.principals _ hmem).2.1
  . intro l k hk
    exact (lookup_index_isSome_iff _ _).mpr (hspec.keys l k hk)

theorem GlobalLayer.routed_iff (g : GlobalLayer) (tenant : Str)
    : g.routed tenant ↔ ∃ pre, g.tenantByPrefix.lookup pre = some tenant := by
  unfold routed
  rw [any_eq_true]
  constructor
  . rintro ⟨⟨pre, t⟩, he, ht⟩
    rw [decide_eq_true_eq] at ht
    subst ht
    exact ⟨pre, AList.mem_lookup_iff.mpr he⟩
  . rintro ⟨pre, hpre⟩
    exact ⟨⟨pre, tenant⟩, AList.mem_lookup_iff.mp hpre, by simp⟩

section

variable {tenants : List TenantLayer}

theorem addTenant_isOk_iff (t : TenantLayer) (byTenant : GoMap Str TenantLayer)
    : (∃ byTenant', Snapshot.addTenant byTenant t = .ok byTenant')
        ↔
      True ∧ ¬ (byTenant.lookup t.tenant).isSome := by
  unfold Snapshot.addTenant
  simp

theorem compose_isOk_iff (global : GlobalLayer)
    : (∃ s, compose global tenants = .ok s)
        ↔
      (tenants.map (·.tenant)).Nodup ∧ ∀ t ∈ tenants, global.routed t.tenant := by
  have hindex : (∃ byTenant, tenants.foldlM Snapshot.addTenant ∅ = .ok byTenant)
      ↔ (tenants.map (·.tenant)).Nodup := by
    rw [foldlM_index_isOk_iff _ TenantLayer.tenant (fun m tenant => (AList.lookup tenant m).isSome)
      (fun _ => True) addTenant_isOk_iff]
    . simp
    . intro t m m' hstep id
      rw [Snapshot.addTenant_eq_ok hstep, GoMap.lookup_insert_isSome_iff]
  unfold compose
  split
  . next err hfold =>
    rw [← hindex, hfold]
    simp
  . next byTenant hfold =>
    have hkeys : ∀ tenant, tenant ∈ byTenant.keys ↔ ∃ t ∈ tenants, t.tenant = tenant := by
      intro tenant
      rw [← AList.mem_keys, ← AList.lookup_isSome, foldlM_addTenant_eq_ok hfold]
      exact lookup_index_isSome_iff TenantLayer.tenant id
    rw [← hindex, hfold]
    split
    . next tenant hfind =>
      have hrouted := find?_some hfind
      have hmem := mem_of_find?_eq_some hfind
      rcases (hkeys tenant).mp hmem with ⟨t, ht, rfl⟩
      simp only [reduceCtorEq, exists_false, false_iff, not_and, not_forall]
      intro _
      exact ⟨t, ht, by simpa using hrouted⟩
    . next hfind =>
      rw [find?_eq_none] at hfind
      simp only [hkeys, forall_exists_index, and_imp, forall_apply_eq_imp_iff₂, Bool.not_eq_true,
        Bool.not_eq_false'] at hfind
      simpa using hfind

theorem compose_eq_ok {global : GlobalLayer} {s : Snapshot} (h : compose global tenants = .ok s)
    : s.global = global
        ∧ ∀ tenant layer, s.tenants.lookup tenant = some layer →
            layer ∈ tenants ∧ layer.tenant = tenant ∧ global.routed tenant := by
  have hrouted := ((compose_isOk_iff global).mp ⟨s, h⟩).2
  rw [compose_eq_index h]
  refine ⟨rfl, ?_⟩
  intro tenant layer hlookup
  rcases mem_of_lookup_index _ _ hlookup with ⟨_, hmem, rfl, rfl⟩
  exact ⟨hmem, rfl, hrouted _ hmem⟩

theorem compose_serves {global : GlobalLayer} {s : Snapshot} (h : compose global tenants = .ok s)
    {layer : TenantLayer} (hlayer : layer ∈ tenants)
    : s.tenants.lookup layer.tenant = some layer := by
  have hunique : Table.Unique TenantLayer.tenant tenants := ((compose_isOk_iff global).mp ⟨s, h⟩).1
  rw [compose_eq_index h, lookup_index _ _ hunique, (get_eq_some_iff _ hunique).mpr ⟨hlayer, rfl⟩]
  rfl

end

structure TenantLayer.IndexOf (t : TenantLayer) (spec : TenantSpec) : Prop where
  tenant : t.tenant = spec.tenant
  keys : t.keys = spec.keys
  policy : t.policy = spec.policy
  budgets : t.budgets = Table.index BudgetState.id id spec.budgets
  principals : t.principals = Table.index Principal.keyID id spec.principals

theorem newTenantLayer_indexOf {spec : TenantSpec} {t : TenantLayer} (h : newTenantLayer spec = .ok t)
    : t.IndexOf spec := by
  rw [newTenantLayer_eq_layer h]
  exact ⟨rfl, rfl, rfl, rfl, rfl⟩

theorem newGlobalLayer_policy {spec : GlobalSpec} {g : GlobalLayer} (h : newGlobalLayer spec = .ok g)
    : g.policy = spec.defaultPolicy := by
  rw [newGlobalLayer_eq_layer h]
  rfl

end ModelGateway
