import ModelGateway.Core.Coherence

namespace ModelGateway

variable {spec : GlobalSpec}

theorem newGlobalLayer_byRoute {g : GlobalLayer} (h : newGlobalLayer spec = .ok g) (key : RoutingKey)
    : GoMap.slice g.byRoute key = spec.deployments.filter fun d => d.key = key := by
  rw [newGlobalLayer_eq_layer h]
  exact GoMap.slice_group _ _ key

theorem newGlobalLayer_aliases {g : GlobalLayer} (h : newGlobalLayer spec = .ok g)
    : ∀ name a, g.aliases.lookup name = some a → a ∈ spec.aliases := by
  rw [newGlobalLayer_eq_layer h]
  intro name a ha
  rcases Table.mem_of_lookup_index _ _ ha with ⟨_, hmem, _, rfl⟩
  exact hmem

theorem newTenantLayer_aliases {spec : TenantSpec} {t : TenantLayer} (h : newTenantLayer spec = .ok t)
    : ∀ name a, t.aliases.lookup name = some a → a ∈ spec.aliasOverrides := by
  rw [newTenantLayer_eq_layer h]
  intro name a ha
  rcases Table.mem_of_lookup_index _ _ ha with ⟨_, hmem, _, rfl⟩
  exact hmem

variable {layers : List TenantLayer}

theorem mem_resolveAlias {global : GlobalLayer} {specs : List TenantSpec} {snap : Snapshot}
    (hglobal : newGlobalLayer spec = .ok global) (hlayers : specs.mapM newTenantLayer = .ok layers)
    (hcompose : compose global layers = .ok snap) {tenant name : Str} {key : RoutingKey}
    (hkey : key ∈ snap.resolveAlias tenant name)
    : key = ⟨name, []⟩ ∨ (∃ a ∈ spec.aliases, key ∈ a.targets) ∨
        ∃ tenantSpec ∈ specs, ∃ a ∈ tenantSpec.aliasOverrides, key ∈ a.targets := by
  rcases compose_eq_ok hcompose with ⟨hsnap, htenants⟩
  unfold Snapshot.resolveAlias at hkey
  split at hkey
  . next a ha =>
    rw [Option.bind_eq_some_iff] at ha
    rcases ha with ⟨layer, hlayer, ha⟩
    rcases List.mem_of_mapM_ok _ hlayers (htenants tenant layer hlayer).1 with
      ⟨tenantSpec, hspec, hnew⟩
    exact .inr (.inr ⟨tenantSpec, hspec, a, newTenantLayer_aliases hnew name a ha, hkey⟩)
  . split at hkey
    . next a ha =>
      rw [hsnap] at ha
      exact .inr (.inl ⟨a, newGlobalLayer_aliases hglobal name a ha, hkey⟩)
    . exact .inl (List.mem_singleton.mp hkey)

theorem mem_deployments_iff {global : GlobalLayer} {snap : Snapshot}
    (hglobal : newGlobalLayer spec = .ok global) (hcompose : compose global layers = .ok snap)
    {key : RoutingKey} {d : Deployment}
    : d ∈ snap.deployments key ↔ d ∈ spec.deployments ∧ d.key = key := by
  unfold Snapshot.deployments
  rw [(compose_eq_ok hcompose).1, newGlobalLayer_byRoute hglobal, List.mem_filter, decide_eq_true_eq]

end ModelGateway
