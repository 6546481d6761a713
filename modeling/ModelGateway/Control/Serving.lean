import ModelGateway.Control.Building
import ModelGateway.Core.Acceptance

namespace ModelGateway.Control

open List Except

open Keys (ApiKey)
open Signing (TrustStore)
open Wire

section

theorem isSome_lookup_decodeKeys {keys : List KeyEntryMsg} {entry : KeyEntryMsg} (hentry : entry ∈ keys)
    (hlength : entry.lookup.length = 32)
    : ((decodeKeys keys).lookup entry.lookup).isSome := by
  unfold decodeKeys
  induction keys using reverseRecOn with
  | nil => simp at hentry
  | append_singleton keys last ih =>
    rw [foldl_append, foldl_cons, foldl_nil]
    rw [mem_append, mem_singleton] at hentry
    split
    . next hlast =>
      rcases hentry with hentry | rfl
      . exact ih hentry
      . exact absurd hlength hlast
    . rw [GoMap.lookup_insert_isSome_iff]
      rcases hentry with hentry | rfl
      . exact .inr (ih hentry)
      . exact .inl rfl

theorem mem_encodeKeys {keys : GoMap Str Str} {lookup keyID : Str} (h : keys.lookup lookup = some keyID)
    : ⟨lookup, keyID⟩ ∈ encodeKeys keys := by
  unfold encodeKeys
  rw [mem_filterMap]
  refine ⟨lookup, ?_, by rw [h]; rfl⟩
  rw [mem_mergeSort]
  exact AList.lookup_isSome.mp (by rw [h]; rfl)

theorem lookup_decodeKeys_encodeKeys {keys : GoMap Str Str}
    (hlengths : ∀ lookup keyID, keys.lookup lookup = some keyID → lookup.length = 32)
    {lookup keyID : Str}
    : (decodeKeys (encodeKeys keys)).lookup lookup = some keyID ↔ keys.lookup lookup = some keyID := by
  have hread : ∀ keyID', (decodeKeys (encodeKeys keys)).lookup lookup = some keyID' →
      keys.lookup lookup = some keyID' :=
    fun _ h => lookup_of_mem_encodeKeys (mem_of_lookup_decodeKeys h)
  refine ⟨hread keyID, ?_⟩
  intro h
  have hsome := isSome_lookup_decodeKeys (mem_encodeKeys h) (hlengths lookup keyID h)
  rcases Option.isSome_iff_exists.mp hsome with ⟨keyID', hkeyID'⟩
  have heq := hread keyID' hkeyID'
  rw [h, Option.some.injEq] at heq
  rw [heq]
  exact hkeyID'

end

section

/-
What is read from the database has gone through its constructors.
-/

theorem BudgetRow.Loads.accepted {row : BudgetRow} (h : row.Loads) : row.budget.postInit = .ok row.budget :=
  toBudget_eq_ok_iff.mpr ⟨h, rfl⟩

theorem AliasRow.Loads.constructed {row : AliasRow} (h : row.Loads)
    : AliasConstructed ⟨row.name, row.targets⟩ := by
  constructor
  . intro target htarget
    unfold RoutingKeyConstructed routingKey
    rw [if_neg (h.baseModels target htarget)]
  . unfold modelAlias
    rw [if_neg h.name_ne, if_neg h.targets_ne]

theorem PolicyRule.postInit_eq_ok {rule rule' : PolicyRule} (h : rule.postInit = .ok rule')
    : rule' = rule := by
  unfold PolicyRule.postInit at h
  simp only [ite_error_eq_ok_iff] at h
  rcases h with ⟨_, _, h⟩
  split at h
  . simp at h
  . split at h
    . simp at h
    . exact (ok.inj h).symm

theorem PolicyBundle.postInit_eq_ok {bundle bundle' : PolicyBundle} (h : bundle.postInit = .ok bundle')
    : bundle' = bundle := by
  unfold PolicyBundle.postInit at h
  split at h
  . simp at h
  . exact (ok.inj h).symm

theorem toPolicyRule_constructed {row : PolicyRuleRow} {rule : PolicyRule}
    (h : toPolicyRule row = .ok rule)
    : rule.Constructed := by
  unfold toPolicyRule at h
  simp only [bind_eq_ok_iff, trustTier_eq_ok_iff] at h
  rcases h with ⟨_, ⟨htier, rfl⟩, h⟩
  have heq := PolicyRule.postInit_eq_ok h
  constructor
  . rw [heq] at h ⊢
    exact h
  . rw [heq]
    change row.minTrustTier.toNat ≤ 3
    omega

theorem DeploymentRow.Loads.constructed {row : DeploymentRow} (h : row.Loads)
    : row.deployment.Constructed := by
  rcases h.trustTier with ⟨_, htier⟩
  refine ⟨?_, ?_, checkCost_eq_ok_iff.mpr ⟨h.cost, rfl⟩, ?_, ?_⟩
  . exact if_neg h.baseModel_ne
  . change row.trustTier.toNat ≤ 3
    omega
  . intro c hc
    exact h.capabilities c (mem_mergeSort.mp hc)
  . rw [postInit_eq_self_iff]
    refine ⟨h.id_ne, h.provider_ne, ?_, h.weight⟩
    change row.trustTier.toNat ≠ 0
    omega

end

namespace Tables

section

variable {t : Tables}

theorem loadPolicy_constructed {tenantID : Option Str} {bundle : PolicyBundle}
    (h : t.loadPolicy tenantID = .ok (some bundle))
    : bundle.Constructed := by
  unfold loadPolicy at h
  split at h
  . simp at h
  . simp only [bind_eq_ok_iff, pure, Except.pure, ok.injEq, Option.some.injEq] at h
    rcases h with ⟨_, hrules, _, hbundle, rfl⟩
    have heq := PolicyBundle.postInit_eq_ok hbundle
    subst heq
    refine ⟨?_, hbundle⟩
    intro rule hrule
    rcases List.mem_of_mapM_ok _ hrules hrule with ⟨row, _, hrow⟩
    exact toPolicyRule_constructed hrow

theorem TenantLoads.constructed {row : TenantRow} (h : t.TenantLoads row) : (t.tenantOf row).Constructed := by
  have hpos := row.version.pos
  refine ⟨?_, ?_, ?_, by simp [tenantOf], ?_, ?_, ?_⟩
  . intro p hp
    rcases mem_map.mp hp with ⟨key, hkey, rfl⟩
    rcases h.keys key hkey with ⟨hid, _, htier⟩
    refine ⟨?_, ?_, ?_⟩
    . change key.columns.minTrustTier.toNat ≤ 3
      omega
    . exact if_neg (by simp [principalOf])
    . unfold Principal.postInit
      rw [if_neg (by exact hid), if_neg (by exact h.id_ne)]
  . change ∀ a ∈ aliasesOf t.aliases (some row.id), _
    rw [forall_aliasesOf_iff]
    intro a ha howner
    exact (h.aliases a ha howner).constructed
  . change ∀ b ∈ (t.budgetsOf row.id).map BudgetRow.budget, _
    rw [forall_mem_map]
    intro b hb
    exact (h.budgets b hb).accepted
  . intro bundle hbundle
    rcases h.policy with ⟨policy, hpolicy⟩
    change t.policyOf (some row.id) = some bundle at hbundle
    rw [policyOf_eq hpolicy] at hbundle
    rw [hbundle] at hpolicy
    exact loadPolicy_constructed hpolicy
  . have htier := h.minTrustTier.2
    change row.minTrustTier.toNat ≤ 3
    omega
  . unfold Tenant.postInit
    rw [if_neg (by exact h.id_ne), if_neg, if_neg (by exact h.prefixes_ne)]
    change ¬ ((row.version : Nat) : Int) < 1
    omega

theorem deploymentsOf_constructed (h : ∀ row ∈ t.deployments, row.Loads)
    : ∀ d ∈ t.deploymentsOf, d.Constructed ∧ d.ShadowsAdapter := by
  have hbase : ∀ d ∈ t.baseDeployments, d.Constructed := by
    intro d hd
    rcases mem_map.mp hd with ⟨row, hrow, rfl⟩
    exact (h row hrow).constructed
  unfold deploymentsOf
  rw [forall_mem_append, forall_mem_map]
  constructor
  . intro d hd
    refine ⟨hbase d hd, ?_⟩
    rcases mem_map.mp hd with ⟨row, _, rfl⟩
    exact ⟨by change (0 : Int) ≤ 100; decide, fun hpos => absurd hpos (Int.lt_irrefl 0)⟩
  . intro placed hplaced
    have hhost := hbase placed.1 (mem_hosted hplaced).1
    refine ⟨⟨?_, hhost.trustTier_le, hhost.cost, hhost.capabilities, ?_⟩, ?_, ?_⟩
    . exact if_neg placed.2.spec.valid.baseModel
    . have hadapter := adapterDeployment_eq hhost.accepted placed.2
      unfold adapterDeployment at hadapter
      rw [bind_eq_ok_iff] at hadapter
      rcases hadapter with ⟨_, _, hadapter⟩
      have heq := postInit_eq_ok hadapter
      rw [← heq] at hadapter
      exact hadapter
    . have hshadow := placed.2.spec.valid.shadowPercent.2
      change (if _ then _ else _) ≤ _
      split
      . exact hshadow
      . decide
    . intro _
      have hname : placed.2.name ≠ [] := by
        intro hnil
        have hnamed := placed.2.named
        rw [hnil] at hnamed
        exact absurd hnamed (by decide)
      exact decide_eq_true hname

theorem nodup_of_ofTenants {α β : Type} {tenant : α → Option Str} {other : α → β} {rows : List α}
    (h : (ofTenants tenant other rows).Nodup) (tenantID : Str)
    : ((rows.filter fun row => tenant row = some tenantID).map other).Nodup := by
  unfold ofTenants List.Nodup at h
  rw [pairwise_filterMap] at h
  unfold List.Nodup
  rw [pairwise_map, pairwise_filter]
  apply h.imp
  intro row row' hne howner howner' heq
  rw [decide_eq_true_eq] at howner howner'
  apply hne (tenantID, other row) (by rw [howner]; rfl) (tenantID, other row') (by rw [howner']; rfl)
  rw [heq]

end

variable (f : Format)

def principalAt (t : Tables) (row : ApiKey) (tenantID : Str) : ModelGateway.Principal :=
  decodePrincipal (t.principalMsg ((t.budgetsOf tenantID).map BudgetRow.budget) row tenantID)

structure ServesTenant (t : Tables) (row : TenantRow) (layer : TenantLayer) : Prop where
  keys : ∀ lookup keyID, layer.keys.lookup lookup = some keyID
    ↔ ∃ key ∈ t.keysOf row.id, key.lookup = lookup ∧ key.columns.id = keyID
  principals : ∀ keyID p, layer.principals.lookup keyID = some p
    ↔ ∃ key ∈ t.keysOf row.id, key.columns.id = keyID ∧ t.principalAt key row.id = p
  budgets : ∀ id b, layer.budgets.lookup id = some b
    ↔ ∃ budget ∈ t.budgetsOf row.id, budget.id = id ∧ decodeBudget budget.msg = b
  policy : ∃ m, encodeDefaultPolicy (t.policyOf (some row.id)) = .ok m ∧ layer.policy = marshalPolicy f m

structure Serves (t : Tables) (snap : Snapshot) : Prop where
  tenants : ∀ row ∈ t.tenants, ∃ layer, snap.tenants.lookup row.id = some layer ∧
    t.ServesTenant f row layer
  known : ∀ id layer, snap.tenants.lookup id = some layer → ∃ row ∈ t.tenants, row.id = id
  routed : ∀ pre tenantID, (pre, tenantID) ∈ t.keyPrefixes → snap.tenantForPrefix pre = some tenantID
  policy : ∃ m, encodeDefaultPolicy (t.policyOf none) = .ok m ∧ snap.global.policy = marshalPolicy f m

variable {f} {t : Tables}

theorem unique_keysOf (hsound : t.Sound) (tenantID : Str)
    : Table.Unique (·.columns.id) (t.keysOf tenantID) :=
  hsound.apiKeys.1.sublist ((filter_sublist).map _)

theorem unique_budgetsOf (hsound : t.Sound) (tenantID : Str)
    : Table.Unique BudgetRow.id (t.budgetsOf tenantID) :=
  hsound.budgets.1.sublist ((filter_sublist).map _)

theorem lookup_index_map {α β : Type} {key : α → Str} {key' : β → Str} {g : α → β} {rows : List α}
    (hunique : Table.Unique key rows) (hkey : ∀ a, key' (g a) = key a) {k : Str} {b : β}
    : (Table.index key' id (rows.map g)).lookup k = some b ↔ ∃ a ∈ rows, key a = k ∧ g a = b := by
  have hmap : Table.Unique key' (rows.map g) := by
    unfold Table.Unique
    rw [map_map]
    have hcomp : key' ∘ g = key := funext hkey
    rw [hcomp]
    exact hunique
  rw [Table.lookup_index key' _ hmap, Option.map_id, id, Table.get_eq_some_iff key' hmap]
  constructor
  . rintro ⟨hb, rfl⟩
    rcases mem_map.mp hb with ⟨a, ha, rfl⟩
    exact ⟨a, ha, (hkey a).symm, rfl⟩
  . rintro ⟨a, ha, rfl, rfl⟩
    exact ⟨mem_map_of_mem ha, hkey a⟩

variable {now : Int} {digest : Str}

theorem servesTenant (hsound : t.Sound) {row : TenantRow}
    (hlengths : ∀ key ∈ t.keysOf row.id, key.lookup.length = 32) {m : TenantLayerMsg}
    (hencodes : t.Encodes row now m) {layer : TenantLayer}
    (hlayer : newTenantLayer (decodeTenant f (m.withDigest digest)) = .ok layer)
    : layer.tenant = row.id ∧ t.ServesTenant f row layer := by
  have hindex := newTenantLayer_indexOf hlayer
  have hlookup := @lookup_lookups _ (lookups_nodup hsound row.id)
  have hprincipals : (decodeTenant f (m.withDigest digest)).principals
      = (t.keysOf row.id).map fun key => t.principalAt key row.id := by
    change m.principals.map decodePrincipal = _
    rw [hencodes.principals, map_map]
    rfl
  have hbudgets : (decodeTenant f (m.withDigest digest)).budgets
      = (t.budgetsOf row.id).map fun budget => decodeBudget budget.msg := by
    change m.budgets.map decodeBudget = _
    rw [hencodes.budgets, map_map]
    rfl
  refine ⟨hindex.tenant.trans hencodes.tenant, ?_, ?_, ?_, m.policy, hencodes.policy, hindex.policy⟩
  . intro lookup keyID
    rw [← hlookup, hindex.keys]
    change (decodeKeys m.keys).lookup lookup = _ ↔ _
    rw [hencodes.keys, lookup_decodeKeys_encodeKeys]
    intro lookup keyID h
    rcases hlookup.mp h with ⟨key, hkey, rfl, _⟩
    exact hlengths key hkey
  . intro keyID p
    rw [hindex.principals, hprincipals]
    apply lookup_index_map (unique_keysOf hsound row.id)
    intro key
    rfl
  . intro budgetID b
    rw [hindex.budgets, hbudgets]
    apply lookup_index_map (unique_budgetsOf hsound row.id)
    intro budget
    rfl

theorem decodeAndVerify_sealSnapshot {layer : GlobalLayerMsg} {layers : List TenantLayerMsg}
    {snap : Snapshot}
    (h : decodeAndVerify f (f.snapshot.marshal (sealSnapshot f layer layers)) = .ok (snap, digest))
    : ∃ global served, newGlobalLayer (decodeGlobal f
          (sealLayer f.sha256 f.globalLayer.marshal GlobalLayerMsg.withDigest layer)) = .ok global ∧
        (layers.mapM fun m => newTenantLayer (decodeTenant f
          (sealLayer f.sha256 f.tenantLayer.marshal TenantLayerMsg.withDigest m))) = .ok served ∧
        compose global served = .ok snap := by
  rw [decodeAndVerify_eq_ok_iff] at h
  rcases h with ⟨msg, hmsg, _, _, hsnap, _⟩
  rw [f.snapshot.unmarshal_marshal, ok.injEq] at hmsg
  subst hmsg
  unfold decodeSnapshot sealSnapshot at hsnap
  simp only [bind_eq_ok_iff, List.mapM_eq_ok_iff_forall₂, forall₂_map_left_iff] at hsnap
  rcases hsnap with ⟨global, hglobal, served, hserved, hcompose⟩
  exact ⟨global, served, hglobal, List.mapM_eq_ok_iff_forall₂.mpr hserved, hcompose⟩

variable {rt : Runtime} {trust : Option TrustStore}

theorem serves (hsound : t.Sound) (hnow : IsDatetime now) {msg : SnapshotMsg}
    (hbuild : t.build rt f now trust = .ok msg) {snap : Snapshot}
    (hdecode : decodeAndVerify f (f.snapshot.marshal msg) = .ok (snap, digest))
    : t.Serves f snap := by
  have hready := (build_isOk_iff f rt trust hsound hnow).mp ⟨msg, hbuild⟩
  rcases build_eq_ok hsound hnow hbuild with ⟨layer, _, rfl, hvalidate, hlayer, hlayers⟩
  rcases decodeAndVerify_sealSnapshot hdecode with ⟨_, _, hglobal, hserved, hcompose⟩
  rcases compose_eq_ok hcompose with ⟨hsnap, hknown⟩
  rcases validate_eq_ok hvalidate with ⟨_, _, seen, hcovers⟩
  have hlayerOf : ∀ row m l, row ∈ t.tenants → t.Encodes row now m → newTenantLayer (decodeTenant f
        (sealLayer f.sha256 f.tenantLayer.marshal TenantLayerMsg.withDigest m)) = .ok l →
      l.tenant = row.id ∧ t.ServesTenant f row l := by
    intro row m l hrow hm hl
    exact servesTenant hsound (hready.tenants row hrow).lookups hm hl
  refine ⟨?_, ?_, ?_, ?_⟩
  . intro row hrow
    rcases hlayers.exists_of_mem_left hrow with ⟨m, hm, hencodes⟩
    rcases List.exists_mem_of_mapM_ok _ hserved hm with ⟨l, hl, hnew⟩
    rcases hlayerOf row m l hrow hencodes hnew with ⟨htenant, hserves⟩
    refine ⟨l, ?_, hserves⟩
    rw [← htenant]
    exact compose_serves hcompose hl
  . intro id l hl
    rcases hknown id l hl with ⟨hmem, htenant, _⟩
    rcases List.mem_of_mapM_ok _ hserved hmem with ⟨m, hm, hnew⟩
    rcases hlayers.exists_of_mem_right hm with ⟨row, hrow, hencodes⟩
    exact ⟨row, hrow, (hlayerOf row m l hrow hencodes hnew).1.symm.trans htenant⟩
  . intro pre tenantID hpre
    rcases mem_map.mp (hsound.keyPrefixes.2 _ hpre).2 with ⟨row, hrow, hid⟩
    have hclaimed := hcovers.claimed (t.tenantOf row) (mem_map_of_mem hrow) pre
      (mem_prefixesOf.mpr (by rw [hid]; exact hpre))
    unfold Snapshot.tenantForPrefix
    rw [hsnap, newGlobalLayer_tenantByPrefix hglobal]
    change (decodeMap layer.tenantPrefixes).lookup pre = _
    rw [lookup_decodeMap, (encodeFleet_eq_ok hlayer).2.2.2.1, ← hcovers.prefixes_eq,
      Finmap.lookup_toFinmap, hclaimed]
    exact congrArg some hid
  . rw [hsnap, newGlobalLayer_policy hglobal]
    refine ⟨layer.defaultPolicy, ?_, rfl⟩
    unfold encodeFleet at hlayer
    simp only [bind_eq_ok_iff] at hlayer
    rcases hlayer with ⟨_, _, _, _, _, _, _, _, _, _, _, hpolicy, hlayer⟩
    rw [← ok.inj hlayer]
    exact hpolicy

theorem accepted_iff (hsound : t.Sound) {msg : SnapshotMsg} (hbuild : t.build rt f now trust = .ok msg)
    : (∃ snap digest, decodeAndVerify f (f.snapshot.marshal msg) = .ok (snap, digest))
        ↔
      ((t.pluginsOf none).map (·.port)).Nodup := by
  unfold build Config.build load at hbuild
  simp only [bind_eq_ok_iff, loadFleet_eq_ok_iff, loadTenants_eq_ok_iff hsound.tenants.1] at hbuild
  rcases hbuild with ⟨_, ⟨_, ⟨hfleet, rfl⟩, _, ⟨htenants, rfl⟩, ⟨⟩⟩, hbuild⟩
  have hdeployments := deploymentsOf_constructed hfleet.deployments
  have haliases : ∀ a ∈ (t.fleetOf rt).aliases, AliasConstructed a := by
    change ∀ a ∈ aliasesOf t.aliases none, _
    rw [forall_aliasesOf_iff]
    intro a ha howner
    exact (hfleet.aliases a ha howner).constructed
  have haccepted : (t.fleetOf rt).postInit = .ok (t.fleetOf rt) := by
    rcases hfleet.initialised with ⟨state, hstate, hversion⟩
    have heq : (t.fleetOf rt).version = state.version := by
      unfold fleetOf
      rw [hstate]
      rfl
    unfold Fleet.postInit
    rw [if_neg (by omega)]
  have hconstructed : ∀ tenant ∈ t.tenants.map t.tenantOf, tenant.Constructed := by
    rw [forall_mem_map]
    intro row hrow
    exact (htenants row hrow).constructed
  rw [accepted_iff_shippable f rt.ed25519 (fun d hd => (hdeployments d hd).1) haliases haccepted
    hconstructed hbuild]
  constructor
  . intro h
    exact h.defaultPlugins
  . intro hports
    refine ⟨fun d hd => (hdeployments d hd).2, hports, ?_⟩
    rw [forall_mem_map]
    intro row _
    change ((t.pluginsOf (some row.id)).map _).Nodup
    unfold pluginsOf
    rw [map_map]
    exact nodup_of_ofTenants hsound.bindingPorts row.id

theorem Plain.accepted (hplain : t.Plain) (hsound : t.Sound) (hready : t.PlainReady)
    (hnow : IsDatetime now)
    : ∃ msg snap digest, t.build rt f now trust = .ok msg ∧
        decodeAndVerify f (f.snapshot.marshal msg) = .ok (snap, digest) := by
  rcases (build_isOk_iff f rt trust hsound hnow).mpr ((hplain.ready_iff f rt trust hsound).mpr hready)
    with ⟨msg, hbuild⟩
  have hports : ((t.pluginsOf none).map (·.port)).Nodup := by
    rw [hplain.pluginsOf]
    exact nodup_nil
  rcases (accepted_iff hsound hbuild).mpr hports with ⟨snap, digest, hdecode⟩
  exact ⟨msg, snap, digest, hbuild, hdecode⟩

end Tables

end ModelGateway.Control
