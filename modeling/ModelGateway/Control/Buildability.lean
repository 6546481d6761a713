import ModelGateway.Control.BudgetLayers

/-!
This module contains the operations after which the store still builds, and one after which it does not.
-/

namespace ModelGateway.Control

open Except Tables
open List hiding format

open FineTune (Failure)
open Keys (ApiKey KeyColumns Settings)
open Signing (TrustStore)
open TextColumn (Fits varchar)
open Wire

section

namespace Tables

variable (t : Tables)

def Routed (served : RoutingKey → Prop) : Prop :=
  ∀ a ∈ t.aliases, a.tenantID = none → ∀ target ∈ a.targets, served target

end Tables

def Op.Harmless (t : Tables) : Op → Prop
  | .ensureDeployment spec =>
    (spec.provider ≠ [] ∧ 0 ≤ spec.cost.inputPer1K ∧ 0 ≤ spec.cost.outputPer1K ∧
      0 ≤ spec.cost.cachedInputPer1K ∧ 0 ≤ spec.cost.cacheWritePer1K) ∧
    t.Routed fun target =>
      (∃ row ∈ t.deployments, row.id ≠ spec.id ∧ row.deployment.key = target) ∨
        (varchar 255 spec.baseModel = some target.baseModel ∧ varchar 255 spec.adapterID = some target.adapterID)
  | .removeDeployment id =>
    t.Routed fun target => ∃ row ∈ t.deployments, row.id ≠ id ∧ row.deployment.key = target
  | .ensureAlias name targets tenantID =>
    name ≠ [] ∧ (∀ target ∈ targets, target ≠ []) ∧
      (tenantID = none → ∀ target ∈ targets, ∃ row ∈ t.deployments,
        varchar 255 target = some row.baseModel ∧ row.adapterID = [])
  | .ensureBudget spec =>
    spec.id ≠ [] ∧ spec.scope ≠ .unset ∧ 0 ≤ spec.headroomBasisPoints ∧ spec.headroomBasisPoints ≤ 10000
  | .ensureTenant _ _ _ => True
  | .key _ => True

end

namespace Tables

variable {t t' : Tables} {settings : Settings}

structure Grown (t : Tables) : Prop where
  plain : t.Plain
  prefixes : ∀ p ∈ t.keyPrefixes, p.1 = p.2

section

theorem tier_bounds (tier : Tier) : 0 ≤ (tier.val : Int) ∧ (tier.val : Int) ≤ 3 := by
  rcases tier with ⟨tier, htier⟩
  change Nat at tier
  change tier ≤ 3 at htier
  dsimp only
  omega

variable {tenantID : Str}

theorem prefixesOf_ne_nil_iff
    : t.prefixesOf tenantID ≠ [] ↔ ∃ pre, (pre, tenantID) ∈ t.keyPrefixes := by
  simp only [← mem_prefixesOf]
  constructor
  . intro hne
    exact exists_mem_of_ne_nil _ hne
  . rintro ⟨pre, hpre⟩
    exact ne_nil_of_mem hpre

theorem PlainReady.bump (h : t.PlainReady) (tenantID : Str)
    : ∀ row ∈ t.bump tenantID, row.id ≠ [] ∧ t.prefixesOf row.id ≠ [] ∧
        0 ≤ row.minTrustTier ∧ row.minTrustTier ≤ 3 := by
  intro row hrow
  unfold Tables.bump at hrow
  rw [Table.mem_update_iff] at hrow
  rcases hrow with ⟨hrow, _⟩ | ⟨row', hrow', _, rfl⟩
  . exact h.tenants row hrow
  . exact h.tenants row' hrow'

theorem ensureTenant_prefixes (hsound : t.Sound) (hgrown : t.Grown) {tier : Str} {minTrustTier : Tier}
    (h : t.ensureTenant tenantID tier minTrustTier = .ok t')
    : (∀ p ∈ t'.keyPrefixes, p.1 = p.2) ∧ t.keyPrefixes ⊆ t'.keyPrefixes ∧
        (tenantID, tenantID) ∈ t'.keyPrefixes := by
  have hfits := ensureTenant_fits hsound h
  rcases ensureTenant_eq_ok h with ⟨_, _, _, _, _, _, _, hprefixes, _, _, _, rfl⟩
  rcases mem_ensure hprefixes hfits hfits with ⟨hthere, rfl⟩ | ⟨_, rfl⟩
  . refine ⟨hgrown.prefixes, Subset.refl _, ?_⟩
    rcases mem_map.mp hthere with ⟨⟨pre, _⟩, hmem, rfl⟩
    have howner := hgrown.prefixes _ hmem
    dsimp only at howner
    rw [← howner] at hmem
    exact hmem
  . refine ⟨?_, subset_append_left _ _, mem_append_right _ (mem_singleton.mpr rfl)⟩
    intro p hp
    rw [mem_append, mem_singleton] at hp
    rcases hp with hp | rfl
    . exact hgrown.prefixes p hp
    . rfl

theorem ensureTenant_ready (hsound : t.Sound) (hgrown : t.Grown) (hready : t.PlainReady) {tier : Str}
    {minTrustTier : Tier} (h : t.ensureTenant tenantID tier minTrustTier = .ok t')
    : t'.PlainReady := by
  rcases ensureTenant_prefixes hsound hgrown h with ⟨_, hsubset, hown⟩
  have hfits := ensureTenant_fits hsound h
  have htenants : ∀ row ∈ t'.tenants, row.id ≠ [] ∧ t'.prefixesOf row.id ≠ [] ∧
      0 ≤ row.minTrustTier ∧ row.minTrustTier ≤ 3 := by
    intro row hrow
    rcases mem_ensureTenant hfits h hrow with hrow | ⟨rfl, htier⟩
    . rcases hready.tenants row hrow with ⟨hid, hprefixes, htier⟩
      rcases prefixesOf_ne_nil_iff.mp hprefixes with ⟨pre, hpre⟩
      exact ⟨hid, prefixesOf_ne_nil_iff.mpr ⟨pre, hsubset hpre⟩, htier⟩
    . rw [htier]
      exact ⟨(ensureTenant_eq_ok h).1, prefixesOf_ne_nil_iff.mpr ⟨_, hown⟩, tier_bounds minTrustTier⟩
  rcases ensureTenant_eq_ok h with ⟨_, _, _, _, _, _, _, _, _, _, _, rfl⟩
  exact ⟨hready.initialised, hready.deployments, hready.aliases, hready.targets, htenants, hready.budgets,
    hready.keys⟩

end

section

variable {spec : DeploymentSpec}

theorem deployment_row_eq_some {row : DeploymentRow} (h : spec.row = some row)
    : varchar 64 spec.id = some row.id ∧ varchar 255 spec.baseModel = some row.baseModel ∧
        varchar 255 spec.adapterID = some row.adapterID ∧ varchar 64 spec.provider = some row.provider ∧
        row.trustTier = spec.trustTier.val ∧ row.weight = spec.weight ∧ row.cost = spec.cost ∧
        row.capabilities = [] := by
  unfold DeploymentSpec.row at h
  simp only [Option.bind_eq_bind, Option.bind_eq_some_iff, pure, Option.some.injEq] at h
  rcases h with ⟨_, hid, _, hbase, _, hadapter, _, hprovider, _, _, _, _, _, _, rfl⟩
  exact ⟨hid, hbase, hadapter, hprovider, rfl, rfl, rfl, rfl⟩

theorem deployment_loads_iff (hspec : spec.postInit = .ok spec) {row : DeploymentRow}
    (hrow : spec.row = some row)
    : row.Loads ↔ spec.provider ≠ [] ∧ 0 ≤ spec.cost.inputPer1K ∧ 0 ≤ spec.cost.outputPer1K ∧
        0 ≤ spec.cost.cachedInputPer1K ∧ 0 ≤ spec.cost.cacheWritePer1K := by
  rcases deployment_row_eq_some hrow with ⟨hid, hbase, _, hprovider, htier, hweight, hcost, hcapabilities⟩
  have hprovider' := not_congr (TextColumn.varchar_eq_nil_iff hprovider (by decide))
  unfold DeploymentSpec.postInit at hspec
  simp only [ite_error_eq_ok_iff, not_or, Decidable.not_not] at hspec
  rcases hspec with ⟨⟨hidne, hbasene⟩, _, hbounds, hunset, _⟩
  constructor
  . intro h
    refine ⟨hprovider'.mp h.provider_ne, ?_⟩
    rw [← hcost]
    exact h.cost
  . rintro ⟨hne, hcosts⟩
    have htier' : 1 ≤ row.trustTier ∧ row.trustTier ≤ 3 := by
      rcases tier_bounds spec.trustTier with ⟨hpos, hle⟩
      have hne0 : (spec.trustTier.val : Int) ≠ 0 := by
        intro h0
        exact hunset (Int.ofNat_eq_zero.mp h0)
      omega
    refine ⟨TextColumn.varchar_ne_nil hid (by decide) hidne, TextColumn.varchar_ne_nil hbase (by decide) hbasene,
      hprovider'.mpr hne, htier', ?_, ?_, ?_⟩
    . rw [hweight]
      exact hbounds
    . rw [hcost]
      exact hcosts
    . rw [hcapabilities]
      simp

theorem ensureDeployment_ready_iff (hready : t.PlainReady) (h : t.ensureDeployment spec = .ok t')
    : t'.PlainReady ↔ (Op.ensureDeployment spec).Harmless t := by
  rcases ensureDeployment_eq_ok h with ⟨hspec, _, row, hrow, rfl⟩
  rcases deployment_row_eq_some hrow with ⟨_, hbase, hadapter, _⟩
  have hdeployments : (∀ r ∈ t.writeDeployment row spec.id, r.Loads) ↔ row.Loads := by
    simp only [mem_writeDeployment]
    constructor
    . intro hall
      exact hall row (.inr rfl)
    . rintro hloads r (⟨hr, _⟩ | rfl)
      . exact hready.deployments r hr
      . exact hloads
  have hserved : ∀ target : RoutingKey,
      (∃ d ∈ (t.writeDeployment row spec.id).map DeploymentRow.deployment, d.key = target)
        ↔ (∃ r ∈ t.deployments, r.id ≠ spec.id ∧ r.deployment.key = target) ∨
          (varchar 255 spec.baseModel = some target.baseModel ∧
            varchar 255 spec.adapterID = some target.adapterID) := by
    intro target
    simp only [mem_map, exists_exists_and_eq_and, mem_writeDeployment]
    rw [hbase, hadapter]
    constructor
    . rintro ⟨r, ⟨hr, hne⟩ | rfl, hkey⟩
      . exact .inl ⟨r, hr, hne, hkey⟩
      . rw [← hkey]
        exact .inr ⟨rfl, rfl⟩
    . rintro (⟨r, hr, hne, hkey⟩ | ⟨hbase', hadapter'⟩)
      . exact ⟨r, .inl ⟨hr, hne⟩, hkey⟩
      . refine ⟨row, .inr rfl, ?_⟩
        rw [Option.some.injEq] at hbase' hadapter'
        cases target
        exact congrArg₂ RoutingKey.mk hbase' hadapter'
  unfold Op.Harmless Routed
  simp only [← hserved]
  rw [← deployment_loads_iff hspec hrow, ← hdeployments]
  constructor
  . intro h'
    exact ⟨h'.deployments, h'.targets⟩
  . rintro ⟨hloads, htargets⟩
    exact ⟨hready.initialised, hloads, hready.aliases, htargets, hready.tenants, hready.budgets, hready.keys⟩

theorem removeDeployment_ready_iff (hready : t.PlainReady) {id : Str} (h : t.removeDeployment id = .ok t')
    : t'.PlainReady ↔ (Op.removeDeployment id).Harmless t := by
  rw [removeDeployment_eq_ok h]
  have hserved : ∀ target : RoutingKey,
      (∃ d ∈ (t.deployments.filter fun row => row.id ≠ id).map DeploymentRow.deployment, d.key = target)
        ↔ ∃ r ∈ t.deployments, r.id ≠ id ∧ r.deployment.key = target := by
    intro target
    simp only [mem_map, exists_exists_and_eq_and]
    simp only [mem_filter, decide_eq_true_eq, and_assoc]
  unfold Op.Harmless Routed
  simp only [← hserved]
  constructor
  . intro h'
    exact h'.targets
  . intro htargets
    exact ⟨hready.initialised, fun row hrow => hready.deployments row (mem_filter.mp hrow).1, hready.aliases,
      htargets, hready.tenants, hready.budgets, hready.keys⟩

end

section

theorem ready_alias_iff (hready : t.PlainReady) {rows : List AliasRow} (hrows : rows ⊆ t.aliases)
    (new : AliasRow)
    : Tables.PlainReady { t with aliases := rows ++ [new] }
        ↔
      new.Loads ∧ (new.tenantID = none → ∀ target ∈ new.targets, ∃ d ∈ t.baseDeployments, d.key = target) := by
  constructor
  . intro h
    have hlast : new ∈ rows ++ [new] := mem_append_right rows (mem_singleton.mpr rfl)
    exact ⟨h.aliases new hlast, h.targets new hlast⟩
  . rintro ⟨hloads, htargets⟩
    refine ⟨hready.initialised, hready.deployments, ?_, ?_, hready.tenants, hready.budgets, hready.keys⟩
    . intro a ha
      rw [mem_append, mem_singleton] at ha
      rcases ha with ha | rfl
      . exact hready.aliases a (hrows ha)
      . exact hloads
    . intro a ha hnone
      rw [mem_append, mem_singleton] at ha
      rcases ha with ha | rfl
      . exact hready.targets a (hrows ha) hnone
      . exact htargets hnone

variable {targets stored : List Str}
  (htargets : List.Forall₂ (fun target target' => varchar 255 target = some target') targets stored)

include htargets

theorem stored_alias_loads_iff (hne : targets ≠ []) {name name' : Str} (hname : varchar 255 name = some name')
    (owner : Option Str)
    : AliasRow.Loads ⟨owner, name', stored.map fun target => ⟨target, []⟩⟩
        ↔
      name ≠ [] ∧ ∀ target ∈ targets, target ≠ [] := by
  have hnonempty : (∀ target ∈ targets, target ≠ []) ↔ ∀ target ∈ stored, target ≠ [] := by
    apply List.Forall₂.forall_mem_iff
    apply htargets.imp
    intro target target' htarget
    exact not_congr (TextColumn.varchar_eq_nil_iff htarget (by decide)).symm
  rw [hnonempty]
  apply Iff.trans _ (and_congr_left' (not_congr (TextColumn.varchar_eq_nil_iff hname (by decide))))
  constructor
  . intro h
    exact ⟨h.name_ne, fun target htarget => h.baseModels ⟨target, []⟩ (mem_map_of_mem htarget)⟩
  . rintro ⟨hname, hstored⟩
    refine ⟨hname, ?_, ?_⟩
    . intro hnil
      rw [map_eq_nil_iff.mp hnil, forall₂_nil_right_iff] at htargets
      exact hne htargets
    . intro key hkey
      rcases mem_map.mp hkey with ⟨target, htarget, rfl⟩
      exact hstored target htarget

theorem stored_targets_served_iff
    : (∀ target ∈ stored.map fun target => (⟨target, []⟩ : RoutingKey), ∃ d ∈ t.baseDeployments, d.key = target)
        ↔
      ∀ target ∈ targets, ∃ row ∈ t.deployments,
        varchar 255 target = some row.baseModel ∧ row.adapterID = [] := by
  rw [forall_mem_map]
  symm
  apply List.Forall₂.forall_mem_iff
  apply htargets.imp
  intro target target' htarget
  unfold baseDeployments
  simp only [mem_map, exists_exists_and_eq_and, htarget, Option.some.injEq]
  apply exists_congr
  intro row
  apply and_congr_right
  intro _
  change _ ↔ RoutingKey.mk row.baseModel row.adapterID = _
  rw [RoutingKey.mk.injEq, eq_comm]

end

theorem ensureAlias_ready_iff (hready : t.PlainReady) {name : Str} {targets : List Str} {tenantID : Option Str}
    (h : t.ensureAlias name targets tenantID = .ok t')
    : t'.PlainReady ↔ (Op.ensureAlias name targets tenantID).Harmless t := by
  rcases ensureAlias_eq_ok h with ⟨hne, _, _, owner, hname, htargets, howner, rfl⟩
  rw [List.mapM_eq_some_iff_forall₂] at htargets
  have howner' : owner = none ↔ tenantID = none := by
    cases tenantID with
    | none =>
      cases howner
      simp
    | some id =>
      rcases Option.map_eq_some_iff.mp howner with ⟨_, _, rfl⟩
      simp
  rw [ready_alias_iff hready (eraseP_sublist.subset), stored_alias_loads_iff htargets hne hname,
    stored_targets_served_iff htargets, and_assoc]
  rw [howner']
  rfl

theorem ensureBudget_ready_iff (hsound : t.Sound) (hready : t.PlainReady) {spec : BudgetSpec}
    (h : t.ensureBudget spec = .ok t')
    : t'.PlainReady ↔ (Op.ensureBudget spec).Harmless t := by
  rcases exists_written hsound h with ⟨written, hwritten⟩
  rcases hwritten.fields with ⟨hscope, hlimit, _, hheadroom⟩
  have hid := not_congr (TextColumn.varchar_eq_nil_iff hwritten.id (by decide))
  have hspent : 0 ≤ written.spentMicroUSD := by
    rcases hwritten.origin with ⟨_, _, hspent⟩ | ⟨old, hold, _, rfl⟩
    . exact hspent.ge
    . exact (hready.budgets old hold).spent
  rcases ensureBudget_eq_ok h with ⟨hpos, _, budgets, _, rfl⟩
  have hbudgets : (∀ b ∈ budgets, b.Loads) ↔ (Op.ensureBudget spec).Harmless t := by
    have hmem := hwritten.mem
    simp only [hmem]
    unfold Op.Harmless
    dsimp only
    rw [← hscope, ← hheadroom]
    apply Iff.trans _ (and_congr_left' hid)
    constructor
    . intro hall
      have hloads := hall written (.inr rfl)
      exact ⟨hloads.id_ne, hloads.scope_ne, hloads.headroom⟩
    . rintro ⟨hidne, hscopene, hbounds⟩ b (⟨hb, _⟩ | rfl)
      . exact hready.budgets b hb
      . exact ⟨hidne, hscopene, by rw [hlimit]; exact hpos, hspent, hbounds⟩
  rw [← hbudgets]
  constructor
  . intro h'
    exact h'.budgets
  . intro hloads
    refine ⟨hready.initialised, hready.deployments, hready.aliases, hready.targets, ?_, hloads, hready.keys⟩
    exact hready.bump _

section

variable (hhmac : ∀ pepper secret, (settings.hmac pepper secret).length = 32)

include hhmac

theorem keyStep_ready (hsound : t.Sound) (hready : t.PlainReady) {op : KeyOp}
    (h : t.keyStep settings op = .ok t')
    : t'.PlainReady := by
  have hunique := hsound.tenants.1
  cases op with
  | issue tenantID body tier secret =>
    rcases map_eq_ok_iff.mp h with ⟨⟨minted, _⟩, hissue, rfl⟩
    rcases (issueKey_eq_ok_iff hunique).mp hissue with ⟨_, pre, _, _, _, _, _, _, hmintable, _, rfl⟩
    refine ⟨hready.initialised, hready.deployments, hready.aliases, hready.targets, ?_, hready.budgets, ?_⟩
    . exact hready.bump _
    . intro key hkey hlive
      change key ∈ t.apiKeys ++ [_] at hkey
      rw [mem_append, mem_singleton] at hkey
      rcases hkey with hkey | rfl
      . exact hready.keys key hkey hlive
      . exact ⟨⟨hmintable.2.2.1, tier_bounds tier⟩, hhmac _ _⟩
  | rotate keyID newKeyID namedAt deprecatedAt secret =>
    rcases map_eq_ok_iff.mp h with ⟨⟨minted, _⟩, hrotate, rfl⟩
    rcases rotateKey_eq_ok hunique hrotate
      with ⟨existing, hexisting, id, pre, _, hlive', _, _, _, hmintable, _, rfl⟩
    refine ⟨hready.initialised, hready.deployments, hready.aliases, hready.targets, ?_, hready.budgets, ?_⟩
    . exact hready.bump _
    . intro key hkey hlive
      change key ∈ Table.update (·.columns.id) t.apiKeys keyID _ ++ [_] at hkey
      rw [mem_append, mem_singleton, Table.mem_update_iff] at hkey
      rcases hkey with (⟨hkey, _⟩ | ⟨key', hkey', _, rfl⟩) | rfl
      . exact hready.keys key hkey hlive
      . exact hready.keys key' hkey' hlive
      . exact ⟨⟨hmintable.2.2.1, (hready.keys existing hexisting hlive').1.2⟩, hhmac _ _⟩
  | revoke keyID now =>
    rcases revokeKey_eq_ok hunique h with ⟨row, _, _, ⟨_, rfl⟩ | ⟨_, rfl⟩⟩
    . exact hready
    . refine ⟨hready.initialised, hready.deployments, hready.aliases, hready.targets, ?_, hready.budgets, ?_⟩
      . exact hready.bump _
      . intro key hkey hlive
        change key ∈ Table.update (·.columns.id) t.apiKeys row.columns.id _ at hkey
        rw [Table.mem_update_iff] at hkey
        rcases hkey with ⟨hkey, _⟩ | ⟨key', _, _, rfl⟩
        . exact hready.keys key hkey hlive
        . cases hlive

end

section

theorem step_grown (hsound : t.Sound) (hgrown : t.Grown) {op : Op} (h : t.step settings op = .ok t')
    : t'.Grown := by
  have huntouched := step_untouched hsound.tenants.1 h
  have hplain : t'.Plain := ⟨huntouched.pluginBindings.trans hgrown.plain.pluginBindings,
    huntouched.policyRules.trans hgrown.plain.policyRules,
    huntouched.components.trans hgrown.plain.components,
    huntouched.finetuneJobs.trans hgrown.plain.finetuneJobs⟩
  refine ⟨hplain, ?_⟩
  cases op with
  | ensureTenant tenantID tier minTrustTier => exact (ensureTenant_prefixes hsound hgrown h).1
  | ensureDeployment spec =>
    rcases ensureDeployment_eq_ok h with ⟨_, _, _, _, rfl⟩
    exact hgrown.prefixes
  | removeDeployment id =>
    rw [removeDeployment_eq_ok h]
    exact hgrown.prefixes
  | ensureAlias name targets tenantID =>
    rcases ensureAlias_eq_ok h with ⟨_, _, _, _, _, _, _, rfl⟩
    exact hgrown.prefixes
  | ensureBudget spec =>
    rcases ensureBudget_eq_ok h with ⟨_, _, _, _, rfl⟩
    exact hgrown.prefixes
  | key op =>
    rcases keyStep_cases hsound.tenants.1 h with rfl | ⟨_, rfl⟩ | ⟨_, _, _, rfl⟩ | ⟨_, _, rfl⟩
    . exact hgrown.prefixes
    . exact hgrown.prefixes
    . exact hgrown.prefixes
    . exact hgrown.prefixes

theorem step_ready_iff (hhmac : ∀ pepper secret, (settings.hmac pepper secret).length = 32) (hsound : t.Sound)
    (hgrown : t.Grown) (hready : t.PlainReady) {op : Op} (h : t.step settings op = .ok t')
    : t'.PlainReady ↔ op.Harmless t := by
  cases op with
  | ensureTenant tenantID tier minTrustTier =>
    exact iff_of_true (ensureTenant_ready hsound hgrown hready h) trivial
  | ensureDeployment spec => exact ensureDeployment_ready_iff hready h
  | removeDeployment id => exact removeDeployment_ready_iff hready h
  | ensureAlias name targets tenantID => exact ensureAlias_ready_iff hready h
  | ensureBudget spec => exact ensureBudget_ready_iff hsound hready h
  | key op => exact iff_of_true (keyStep_ready hhmac hsound hready h) trivial

end

end Tables

def Store.Initial (s : Store) : Prop :=
  ∃ state, 1 ≤ state.version ∧ s.val = Tables.initialised state

theorem buildable_throughout_iff (settings : Settings)
    (hhmac : ∀ pepper secret, (settings.hmac pepper secret).length = 32) (f : Format) (rt : Runtime)
    (trust : Option TrustStore) {now : Int} (hnow : IsDatetime now) {s s' : Store} (hinitial : s.Initial)
    {ops : List Op} (hrun : ops.foldlM (Store.step settings) s = .ok s')
    : (∀ before s₁, before <+: ops → before.foldlM (Store.step settings) s = .ok s₁ →
        ∃ msg, s₁.val.build rt f now trust = .ok msg)
        ↔
      ∀ before op s₁, before ++ [op] <+: ops → before.foldlM (Store.step settings) s = .ok s₁ →
        op.Harmless s₁.val := by
  have hfirst : s.val.Grown ∧ s.val.PlainReady := by
    rcases hinitial with ⟨state, hversion, hs⟩
    rw [hs]
    refine ⟨⟨⟨rfl, rfl, rfl, rfl⟩, ?_⟩, ⟨state, rfl, hversion⟩, ?_, ?_, ?_, ?_, ?_, ?_⟩
    all_goals exact forall_mem_nil _
  have hgrown : ∀ (before : List Op) s₁, before.foldlM (Store.step settings) s = .ok s₁ → s₁.val.Grown := by
    intro before s₁ hbefore
    apply List.foldlM_ok_invariant (Store.step settings) (fun s => s.val.Grown) before s s₁ hbefore hfirst.1
    intro op s s' hgrown hstep
    exact step_grown s.property hgrown (Store.step_eq_ok_iff.mp hstep)
  have hbuilds : ∀ (before : List Op) s₁, before.foldlM (Store.step settings) s = .ok s₁ →
      ((∃ msg, s₁.val.build rt f now trust = .ok msg) ↔ s₁.val.Grown ∧ s₁.val.PlainReady) := by
    intro before s₁ hbefore
    have hgrown := hgrown before s₁ hbefore
    rw [build_isOk_iff f rt trust s₁.property hnow, hgrown.plain.ready_iff f rt trust s₁.property]
    exact (and_iff_right hgrown).symm
  have hthroughout := List.foldlM_throughout_iff (Store.step settings)
    (fun s => s.val.Grown ∧ s.val.PlainReady) (fun s op => op.Harmless s.val) ops s s' hrun (by
      intro op _ s s' hinv hstep
      rw [Store.step_eq_ok_iff] at hstep
      rw [← step_ready_iff hhmac s.property hinv.1 hinv.2 hstep]
      exact and_iff_right (step_grown s.property hinv.1 hstep))
  rw [and_iff_right hfirst] at hthroughout
  rw [← hthroughout]
  apply forall₃_congr
  intro before s₁ _
  apply forall_congr'
  intro hbefore
  exact hbuilds before s₁ hbefore

namespace Sample

def keySettings : Settings :=
  { Keys.Sample.settings with hmac := fun _ secret => (secret ++ replicate 32 0).take 32 }

theorem keySettings_hmac (pepper secret : Str) : (keySettings.hmac pepper secret).length = 32 := by
  change ((secret ++ replicate 32 0).take 32).length = 32
  simp

def emptyStore : Store :=
  ⟨Tables.initialised ⟨1, []⟩, by decide +kernel⟩

theorem emptyStore_initial : emptyStore.Initial :=
  ⟨⟨1, []⟩, by decide, rfl⟩

theorem external_le : TrustTier.external ≤ .internal := by
  decide

def onboard : Op :=
  .ensureTenant (str "acme") (str "standard") ⟨.external, external_le⟩

def onboardedTables : Tables :=
  { Tables.initialised ⟨1, []⟩ with
    tenants := [⟨str "acme", str "standard", 1, ⟨1, Nat.one_pos⟩⟩]
    keyPrefixes := [(str "acme", str "acme")]
    orgs := [(str "acme-org", str "acme")]
    teams := [(str "acme-team", str "acme-org")]
    applications := [(str "acme-app", str "acme-team")] }

def onboardedStore : Store :=
  ⟨onboardedTables, by decide +kernel⟩

theorem step_onboard : emptyStore.step keySettings onboard = .ok onboardedStore := by
  rfl

def scopeless : BudgetSpec :=
  { capSpec with scope := .unset }

def budgetedTables (spec : BudgetSpec) : Tables :=
  { onboardedTables with
    tenants := onboardedTables.bump (str "acme")
    budgets := [{ spec.write (spentBudget (str "acme")) with spentMicroUSD := 0 }] }

def budgetedStore : Store :=
  ⟨budgetedTables capSpec, by decide +kernel⟩

def brokenStore : Store :=
  ⟨budgetedTables scopeless, by decide +kernel⟩

theorem run_budgeted
    : [onboard, .ensureBudget capSpec].foldlM (Store.step keySettings) emptyStore = .ok budgetedStore := by
  change (onboardedStore.step keySettings (.ensureBudget capSpec) >>= pure) = _
  rfl

theorem run_broken
    : [onboard, .ensureBudget scopeless].foldlM (Store.step keySettings) emptyStore = .ok brokenStore := by
  change (onboardedStore.step keySettings (.ensureBudget scopeless) >>= pure) = _
  rfl

end Sample

open Wire.Sample (format)

open Sample

theorem buildable_throughout_budgeted
    : emptyStore.Initial ∧
        [onboard, .ensureBudget capSpec].foldlM (Store.step keySettings) emptyStore
          = .ok budgetedStore ∧
        ∀ before s₁, before <+: [onboard, .ensureBudget capSpec] →
          before.foldlM (Store.step keySettings) emptyStore = .ok s₁ →
          ∃ msg, s₁.val.build runtime format 0 none = .ok msg := by
  refine ⟨emptyStore_initial, run_budgeted, ?_⟩
  apply (buildable_throughout_iff keySettings keySettings_hmac format runtime none
    (by decide) emptyStore_initial run_budgeted).mpr
  intro before op s₁ hbefore _
  have hop : op ∈ [onboard, .ensureBudget capSpec] :=
    hbefore.subset (mem_append_right before (mem_singleton.mpr rfl))
  rw [mem_pair] at hop
  rcases hop with rfl | rfl
  . trivial
  . change str "cap" ≠ [] ∧ BudgetScope.key ≠ .unset ∧ (0 : Int) ≤ 0 ∧ (0 : Int) ≤ 10000
    decide

theorem scopeless_budget_breaks_build
    : [onboard, .ensureBudget scopeless].foldlM (Store.step keySettings) emptyStore
          = .ok brokenStore ∧
        ∀ msg, brokenStore.val.build runtime format 0 none ≠ .ok msg := by
  refine ⟨run_broken, ?_⟩
  intro msg hbuild
  have hready := (build_isOk_iff format runtime none brokenStore.property (by decide)).mp
    ⟨msg, hbuild⟩
  have hplain : brokenStore.val.Plain := ⟨rfl, rfl, rfl, rfl⟩
  rw [hplain.ready_iff format runtime none brokenStore.property] at hready
  exact absurd hready (by decide +kernel)

end ModelGateway.Control
