import ModelGateway.Core.Snapshot
import ModelGateway.Lib.Fold
import ModelGateway.Lib.Table

namespace ModelGateway

open Except List

namespace GoMap

variable {K V : Type} [DecidableEq K] (key : V → K) (vs : List V)

def group : GoMap K (List V) :=
  vs.foldl (fun m v => append m (key v) v) ∅

theorem group_append (v : V) : group key (vs ++ [v]) = append (group key vs) (key v) v := by
  unfold group
  rw [foldl_append]
  rfl

theorem slice_group (k : K) : slice (group key vs) k = vs.filter fun v => key v = k := by
  induction vs using reverseRecOn with
  | nil => simp [group]
  | append_singleton vs v ih =>
    rw [group_append, slice_append, filter_append]
    by_cases hk : k = key v
    . subst hk
      simp [ih]
    . rw [if_neg hk, ih]
      simp [Ne.symm hk]

end GoMap

namespace GlobalLayer

variable {g g' : GlobalLayer}

theorem addDeployment_eq_ok {d : Deployment} (h : g.addDeployment d = .ok g')
    : g' = { g with
        deployments := g.deployments.insert d.id d
        byRoute := GoMap.append g.byRoute d.key d
        shadows := if d.shadowing then GoMap.append g.shadows d.key.baseModel d else g.shadows } := by
  unfold addDeployment at h
  split at h
  . simp at h
  . exact (ok.inj h).symm

theorem addAlias_eq_ok {a : ModelAlias} (h : g.addAlias a = .ok g')
    : g' = { g with aliases := g.aliases.insert a.name a } := by
  unfold addAlias at h
  split at h
  . simp at h
  . exact (ok.inj h).symm

theorem addPlugin_eq_ok {p : PluginBinding} (h : g.addPlugin p = .ok g')
    : g' = { g with plugins := g.plugins.insert p.port p } := by
  unfold addPlugin at h
  rw [ite_error_eq_ok_iff] at h
  rw [← ok.inj h.2]

end GlobalLayer

namespace GlobalSpec

variable (spec : GlobalSpec)

def deployed (ds : List Deployment) : GlobalLayer :=
  { GlobalLayer.init spec with
    deployments := Table.index Deployment.id id ds
    byRoute := GoMap.group Deployment.key ds
    shadows := GoMap.group (fun d => d.key.baseModel) (ds.filter (·.shadowing)) }

def layer : GlobalLayer :=
  { spec.deployed spec.deployments with
    aliases := Table.index ModelAlias.name id spec.aliases
    plugins := Table.index PluginBinding.port id spec.defaultPlugins }

end GlobalSpec

section

open GlobalLayer

variable {spec : GlobalSpec} {g : GlobalLayer}

theorem foldlM_addDeployment_eq_ok (h : spec.deployments.foldlM addDeployment (.init spec) = .ok g)
    : g = spec.deployed spec.deployments := by
  refine foldlM_ok_induction _ (fun done g => g = spec.deployed done) _ _ _ h rfl ?_
  intro done d g g' _ hdone hstep
  rw [addDeployment_eq_ok hstep, hdone]
  unfold GlobalSpec.deployed
  rw [Table.index_append, GoMap.group_append, filter_append]
  by_cases hshadowing : d.shadowing
  . simp [hshadowing, GoMap.group_append]
  . simp [hshadowing]

theorem foldlM_addAlias_eq_ok {g₁ : GlobalLayer} (hnone : g₁.aliases = ∅) {as : List ModelAlias}
    (h : as.foldlM addAlias g₁ = .ok g)
    : g = { g₁ with aliases := Table.index ModelAlias.name id as } := by
  refine foldlM_eq_ok_foldl (fun m => { g₁ with aliases := m }) (fun _ _ _ => addAlias_eq_ok) as ?_
  rw [← hnone]
  exact h

theorem newGlobalLayer_eq_layer (h : newGlobalLayer spec = .ok g) : g = spec.layer := by
  unfold newGlobalLayer at h
  simp only [ite_error_eq_ok_iff, bind_eq_ok_iff] at h
  rcases h with ⟨_, g₁, h₁, g₂, h₂, h₃⟩
  rw [foldlM_addDeployment_eq_ok h₁] at h₂
  rw [foldlM_addAlias_eq_ok rfl h₂] at h₃
  exact foldlM_eq_ok_foldl (fun m => { spec.layer with plugins := m }) (fun _ _ _ => addPlugin_eq_ok) _ h₃

theorem newGlobalLayer_shadows (h : newGlobalLayer spec = .ok g) (baseModel : Str)
    : GoMap.slice g.shadows baseModel
        =
      spec.deployments.filter fun d => d.shadowing && d.key.baseModel = baseModel := by
  rw [newGlobalLayer_eq_layer h]
  refine (GoMap.slice_group _ _ baseModel).trans ?_
  rw [filter_filter]
  simp only [Bool.and_comm]

end

namespace TenantLayer

variable {t t' : TenantLayer}

theorem addBudget_eq_ok {b : BudgetState} (h : t.addBudget b = .ok t')
    : t' = { t with budgets := t.budgets.insert b.id b } := by
  unfold addBudget at h
  split at h
  . simp at h
  . split at h
    . simp at h
    . simpa using h.symm

theorem addPrincipal_eq_ok {p : Principal} (h : t.addPrincipal p = .ok t')
    : p.tenant = t.tenant ∧ (∀ ref ∈ p.budgets, (t.budgets.lookup ref.id).isSome)
        ∧ t' = { t with principals := t.principals.insert p.keyID p } := by
  unfold addPrincipal at h
  split at h
  . simp at h
  . split at h
    . simp at h
    . next htenant =>
      split at h
      . simp at h
      . next hfind =>
        refine ⟨by simpa using htenant, ?_, by simpa using h.symm⟩
        intro ref href
        rw [find?_eq_none] at hfind
        simpa [Option.isSome_iff_ne_none] using hfind ref href

theorem checkKeys_eq_ok (h : t.checkKeys = .ok t')
    : (∀ l k, t.keys.lookup l = some k → (t.principals.lookup k).isSome) ∧ t' = t := by
  unfold checkKeys at h
  split at h
  . simp at h
  . next hfind =>
    refine ⟨?_, by simpa using h.symm⟩
    intro l k hk
    rw [find?_eq_none] at hfind
    have := hfind ⟨l, k⟩ (AList.mem_lookup_iff.mp hk)
    simpa [Option.isSome_iff_ne_none] using this

theorem addAlias_eq_ok {a : ModelAlias} (h : t.addAlias a = .ok t')
    : t' = { t with aliases := t.aliases.insert a.name a } := by
  unfold addAlias at h
  split at h
  . simp at h
  . simpa using h.symm

theorem addPlugin_eq_ok {p : PluginBinding} (h : t.addPlugin p = .ok t')
    : t' = { t with plugins := t.plugins.insert p.port p } := by
  unfold addPlugin at h
  split at h
  . simp at h
  . simpa using h.symm

end TenantLayer

namespace TenantSpec

variable (spec : TenantSpec)

def identified : TenantLayer :=
  { TenantLayer.init spec with
    budgets := Table.index BudgetState.id id spec.budgets
    principals := Table.index Principal.keyID id spec.principals }

def layer : TenantLayer :=
  { spec.identified with
    aliases := Table.index ModelAlias.name id spec.aliasOverrides
    plugins := Table.index PluginBinding.port id spec.plugins }

end TenantSpec

section

open TenantLayer

variable {spec : TenantSpec} {t : TenantLayer}

theorem foldlM_addBudget_eq_ok (h : spec.budgets.foldlM addBudget (.init spec) = .ok t)
    : t = { TenantLayer.init spec with budgets := spec.identified.budgets } :=
  foldlM_eq_ok_foldl (fun m => { TenantLayer.init spec with budgets := m })
    (fun _ _ _ => addBudget_eq_ok) _ h

theorem foldlM_addPrincipal_eq_ok
    (h : spec.principals.foldlM addPrincipal { TenantLayer.init spec with budgets := spec.identified.budgets }
      = .ok t)
    : t = spec.identified :=
  foldlM_eq_ok_foldl (fun m => { spec.identified with principals := m })
    (fun _ _ _ hstep => (addPrincipal_eq_ok hstep).2.2) _ h

theorem foldlM_addOverride_eq_ok (h : spec.aliasOverrides.foldlM addAlias spec.identified = .ok t)
    : t = { spec.identified with aliases := spec.layer.aliases } :=
  foldlM_eq_ok_foldl (fun m => { spec.identified with aliases := m }) (fun _ _ _ => addAlias_eq_ok) _ h

theorem newTenantLayer_eq_layer (h : newTenantLayer spec = .ok t) : t = spec.layer := by
  unfold newTenantLayer at h
  simp only [ite_error_eq_ok_iff, bind_eq_ok_iff] at h
  rcases h with ⟨_, _, t₁, h₁, t₂, h₂, t₃, h₃, t₄, h₄, h₅⟩
  rw [foldlM_addBudget_eq_ok h₁] at h₂
  rw [(checkKeys_eq_ok h₃).2, foldlM_addPrincipal_eq_ok h₂] at h₄
  rw [foldlM_addOverride_eq_ok h₄] at h₅
  exact foldlM_eq_ok_foldl (fun m => { spec.layer with plugins := m }) (fun _ _ _ => addPlugin_eq_ok) _ h₅

end

theorem Snapshot.addTenant_eq_ok {m m' : GoMap Str TenantLayer} {t : TenantLayer}
    (h : Snapshot.addTenant m t = .ok m')
    : m' = m.insert t.tenant t := by
  unfold Snapshot.addTenant at h
  rw [ite_error_eq_ok_iff, ok.injEq] at h
  exact h.2.symm

theorem foldlM_addTenant_eq_ok {tenants : List TenantLayer} {m : GoMap Str TenantLayer}
    (h : tenants.foldlM Snapshot.addTenant ∅ = .ok m)
    : m = Table.index TenantLayer.tenant id tenants :=
  foldlM_eq_ok_foldl id (fun _ _ _ => Snapshot.addTenant_eq_ok) _ h

theorem compose_eq_index {global : GlobalLayer} {tenants : List TenantLayer} {s : Snapshot}
    (h : compose global tenants = .ok s)
    : s = ⟨global, Table.index TenantLayer.tenant id tenants⟩ := by
  unfold compose at h
  split at h
  . simp at h
  . next byTenant hfold =>
    split at h
    . simp at h
    . rw [← ok.inj h, foldlM_addTenant_eq_ok hfold]

end ModelGateway
