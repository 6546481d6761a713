import ModelGateway.Control.Loading
import ModelGateway.Control.Times

/-!
This module contains the condition under which the tables build a snapshot, and the messages that they build.
-/

namespace ModelGateway.Control

open List Except

open Accounting.Postgres (InRange)
open Keys (ApiKey)
open Signing (TrustStore)
open Wire

section

theorem int64Field_of_inRange {n : Int} (h : InRange n) : int64Field n = .ok n := by
  unfold InRange at h
  unfold int64Field
  rw [if_pos (by omega)]

theorem uint32_of_inRange {n : Int} (h : InRange n) (hpos : 0 ≤ n) : uint32 n = .ok n.toNat := by
  unfold InRange at h
  unfold uint32
  rw [if_pos (by omega)]

theorem uint64_of_inRange {n : Int} (h : InRange n) (hpos : 0 ≤ n) : uint64 n = .ok n.toNat := by
  unfold InRange at h
  unfold uint64
  rw [if_pos (by omega)]

end

section

def BudgetRow.msg (row : BudgetRow) : BudgetStateMsg where
  id := row.id
  scope := encodeBudgetScope row.scope
  limitMicroUSD := row.limitMicroUSD
  spentMicroUSD := row.spentMicroUSD
  hard := row.hard
  headroomBasisPoints := row.headroomBasisPoints.toNat

theorem encodeBudget_eq {tenants : List Str} {row : BudgetRow} (hstored : row.Stored tenants)
    (hloads : row.Loads)
    : encodeBudget row.budget = .ok row.msg := by
  rcases hstored with ⟨_, _, hlimit, hspent, hheadroom⟩
  unfold encodeBudget
  simp only [bind_eq_ok_iff]
  exact ⟨_, int64Field_of_inRange hlimit, _, int64Field_of_inRange hspent, _,
    uint32_of_inRange hheadroom hloads.headroom.1, rfl⟩

def expiry (notAfter : Option Int) : Int :=
  (notAfter.map toUnixMs).getD 0

variable {t : Tables}

def Tables.principalMsg (t : Tables) (budgets : List Budget) (row : ApiKey) (tenantID : Str)
    : PrincipalMsg where
  keyID := row.columns.id
  tenant := tenantID
  org := (t.ancestry row.columns).org
  team := (t.ancestry row.columns).team
  user := (t.ancestry row.columns).user
  app := (t.ancestry row.columns).app
  roles := Tables.granted t.keyRoles row.columns.id
  modelsAllowAll := row.columns.modelsAllowAll
  models := Tables.granted t.keyModels row.columns.id
  budgets := (t.budgetRefs budgets row.columns.id).map encodeBudgetRef
  defaultDataClass := row.columns.defaultDataClass
  minTrustTier := encodeTrustTier row.columns.minTrustTier.toNat
  maxConcurrent := row.columns.maxConcurrent
  deprecated := row.columns.deprecated
  notAfterUnixMs := expiry row.columns.notAfter
  limits := some ⟨row.columns.requestsPerMinute, row.columns.tokensPerMinute, row.columns.maxConcurrent⟩

theorem Tables.encodePrincipal_eq {row : ApiKey} (hstored : t.KeyStored row) (budgets : List Budget)
    (tenantID : Str)
    : encodePrincipal (t.principalOf budgets row.columns tenantID)
        = .ok (t.principalMsg budgets row tenantID) := by
  rcases hstored with ⟨_, _, _, _, _, _, hrequests, htokens, hconcurrent, hnotAfter, _⟩
  have hexpiry : int64Field (expiry row.columns.notAfter) = .ok (expiry row.columns.notAfter) := by
    cases hcase : row.columns.notAfter with
    | none => rfl
    | some time => exact int64Field_toUnixMs (hnotAfter time hcase)
  unfold encodePrincipal
  simp only [bind_eq_ok_iff]
  exact ⟨_, uint32_of_inRange hrequests (by simp [principalOf]), _,
    uint32_of_inRange htokens (by simp [principalOf]), _,
    uint32_of_inRange hconcurrent (by simp [principalOf]), _, hexpiry, rfl⟩

theorem encodePolicy_isOk {bundle : PolicyBundle} (hversion : bundle.version = 1)
    (hrules : ∀ rule ∈ bundle.rules, InRange rule.maxPayloadBytes ∧ 0 ≤ rule.maxPayloadBytes)
    : ∃ m, encodePolicy bundle = .ok m := by
  have hencode : ∃ ms, bundle.rules.mapM encodePolicyRule = .ok ms := by
    rw [List.mapM_isOk_iff]
    intro rule hrule
    unfold encodePolicyRule
    rw [uint64_of_inRange (hrules rule hrule).1 (hrules rule hrule).2]
    exact ⟨_, rfl⟩
  rcases hencode with ⟨ms, hms⟩
  unfold encodePolicy
  rw [hversion, hms]
  exact ⟨_, rfl⟩

theorem Tables.encodeDefaultPolicy_isOk (hsound : t.Sound) {tenantID : Option Str}
    {policy : Option PolicyBundle} (h : t.loadPolicy tenantID = .ok policy)
    : ∃ m, encodeDefaultPolicy policy = .ok m := by
  unfold loadPolicy at h
  split at h
  . rw [← ok.inj h]
    exact ⟨none, rfl⟩
  . simp only [bind_eq_ok_iff] at h
    rcases h with ⟨rules, hrules, bundle, hbundle, h⟩
    have heq : bundle = ⟨policyID tenantID, 1, rules, .allow⟩ := by
      unfold PolicyBundle.postInit at hbundle
      split at hbundle
      . simp at hbundle
      . exact (ok.inj hbundle).symm
    have hbounds : ∀ rule ∈ bundle.rules, InRange rule.maxPayloadBytes ∧ 0 ≤ rule.maxPayloadBytes := by
      rw [heq]
      intro rule hrule
      rcases List.mem_of_mapM_ok _ hrules hrule with ⟨row, hrow, hread⟩
      rcases toPolicyRule_eq_ok hread with ⟨hpos, hbytes⟩
      unfold rulesOf at hrow
      rw [mem_mergeSort, mem_filter] at hrow
      rw [hbytes] at hpos ⊢
      exact ⟨(hsound.policyRules row hrow.1).2.2.2.1, hpos⟩
    rcases encodePolicy_isOk (by rw [heq]) hbounds with ⟨m, hm⟩
    rw [← ok.inj h]
    refine ⟨some m, ?_⟩
    change (encodePolicy bundle).map some = _
    rw [hm]
    rfl

end

def OnWire (b : PluginBinding) : Prop :=
  (encodePort b.port).isSome

theorem encodePlugins_isOk_iff (plugins : List PluginBinding)
    : (∃ ms, plugins.mapM encodePlugin = .ok ms) ↔ ∀ b ∈ plugins, OnWire b := by
  rw [List.mapM_isOk_iff]
  apply forall₂_congr
  intro b _
  unfold encodePlugin OnWire
  cases encodePort b.port with
  | none => simp
  | some port => simp

section

variable {t : Tables}

namespace Tables

@[simp]
theorem mem_budgetsOf {tenantID : Str} {row : BudgetRow}
    : row ∈ t.budgetsOf tenantID ↔ row ∈ t.budgets ∧ row.tenantID = tenantID := by
  unfold budgetsOf
  rw [mem_filter, decide_eq_true_eq]

theorem mem_keysOf {tenantID : Str} {row : ApiKey}
    : row ∈ t.keysOf tenantID
        ↔
      row ∈ t.apiKeys ∧ row.columns.tenantID = tenantID ∧ row.columns.revokedAt = none := by
  unfold keysOf
  rw [mem_filter, decide_eq_true_eq, Option.isNone_iff_eq_none]

theorem get_tenant (hsound : t.Sound) {row : TenantRow} (hrow : row ∈ t.tenants)
    : Table.get TenantRow.id t.tenants row.id = some row :=
  (Table.get_eq_some_iff TenantRow.id hsound.tenants.1).mpr ⟨hrow, rfl⟩

structure Encodes (t : Tables) (row : TenantRow) (now : Int) (m : TenantLayerMsg) : Prop where
  tenant : m.tenant = row.id
  version : m.version = ⟨row.version, []⟩
  builtAt : m.builtAtUnixMs = toUnixMs now
  tier : m.tier = row.tier
  principals : m.principals = (t.keysOf row.id).map fun key =>
    t.principalMsg ((t.budgetsOf row.id).map BudgetRow.budget) key row.id
  keys : m.keys = encodeKeys (lookups (t.keysOf row.id))
  aliases : m.aliasOverrides = aliasesOf t.aliases (some row.id)
  budgets : m.budgets = (t.budgetsOf row.id).map BudgetRow.msg
  plugins : (t.pluginsOf (some row.id)).mapM encodePlugin = .ok m.plugins
  minTrustTier : m.minTrustTier = encodeTrustTier row.minTrustTier.toNat
  guardrails : m.guardrails = []
  policy : encodeDefaultPolicy (t.policyOf (some row.id)) = .ok m.policy

theorem encodeTenant_eq_ok_iff (hsound : t.Sound) {row : TenantRow} (hrow : row ∈ t.tenants)
    (hloads : t.TenantLoads row) {now : Int} (hnow : IsDatetime now) (registry : Registry)
    {m : TenantLayerMsg}
    : encodeTenant registry now (t.tenantOf row) = .ok m ↔ t.Encodes row now m := by
  have hversion : uint64 (row.version : Int) = .ok row.version := by
    have hrange := (hsound.tenants.2 row hrow).2.2.2
    rw [uint64_of_inRange hrange (by simp)]
    rfl
  have hprincipals : ((t.tenantOf row).principals.mapM encodePrincipal)
      = .ok ((t.keysOf row.id).map fun key =>
          t.principalMsg ((t.budgetsOf row.id).map BudgetRow.budget) key row.id) := by
    rw [List.mapM_eq_ok_iff_forall₂]
    unfold tenantOf
    rw [forall₂_map_left_iff, forall₂_map_right_iff, forall₂_same]
    intro key hkey
    exact encodePrincipal_eq (hsound.apiKeys.2 key (mem_keysOf.mp hkey).1) _ _
  have hbudgets : ((t.tenantOf row).budgets.mapM encodeBudget)
      = .ok ((t.budgetsOf row.id).map BudgetRow.msg) := by
    rw [List.mapM_eq_ok_iff_forall₂]
    unfold tenantOf
    rw [forall₂_map_left_iff, forall₂_map_right_iff, forall₂_same]
    intro b hb
    exact encodeBudget_eq (hsound.budgets.2 b (mem_budgetsOf.mp hb).1) (hloads.budgets b hb)
  unfold encodeTenant
  rw [hprincipals, hbudgets, int64Field_toUnixMs hnow]
  change (uint64 (row.version : Int) >>= _) = _ ↔ _
  rw [hversion]
  simp only [bind_eq_ok_iff, pure, Except.pure, ok.injEq]
  constructor
  . rintro ⟨_, rfl, _, rfl, _, rfl, _, rfl, plugins, hplugins, _, hguardrails, _, hpolicy, rfl⟩
    exact ⟨rfl, rfl, rfl, rfl, rfl, rfl, rfl, rfl, hplugins, rfl, (ok.inj hguardrails).symm, hpolicy⟩
  . intro h
    refine ⟨_, rfl, _, rfl, _, rfl, _, rfl, _, h.plugins, [], rfl, _, h.policy, ?_⟩
    cases m with
    | mk tenant version builtAt tier principals keys aliases budgets plugins tier' guardrails policy =>
      rcases h with ⟨htenant, hversion', hbuilt, htier, hprin, hkeys, haliases, hbud, _, htrust, hguard, _⟩
      dsimp only at htenant hversion' hbuilt htier hprin hkeys haliases hbud htrust hguard
      rw [htenant, hversion', hbuilt, htier, hprin, hkeys, haliases, hbud, htrust, hguard]
      rfl

end Tables

end

section

variable {sha256 : Str → Str} {ed25519 : Str → Str → Str → Bool} {registry : Registry}
  {trust : TrustStore}

theorem claimPrefix_eq_ok {tenant pre : Str} {m m' : GoMap Str Str}
    (h : claimPrefix tenant m pre = .ok m')
    : m' = m.insert pre tenant := by
  unfold claimPrefix at h
  split at h
  . simp at h
  . exact (ok.inj h).symm

theorem claimPrefix_isOk_iff (tenant : Str) (pre : Str) (m : GoMap Str Str)
    : (∃ m', claimPrefix tenant m pre = .ok m') ↔ True ∧ ¬ (m.lookup pre).isSome := by
  unfold claimPrefix
  split
  . next h => simp [h]
  . next h => simp [h]

theorem claimed_iff (tenant : Str) (pre : Str) (m m' : GoMap Str Str)
    (h : claimPrefix tenant m pre = .ok m') (pre' : Str)
    : (m'.lookup pre').isSome ↔ pre' = pre ∨ (m.lookup pre').isSome := by
  rw [claimPrefix_eq_ok h, GoMap.lookup_insert_isSome_iff]

theorem foldlM_validateLayer_isOk {tenants : List Tenant} (seen : Seen)
    (hvalid : ∀ t ∈ tenants, validateTenant t = .ok () ∧
      validateBindings sha256 ed25519 registry (some t.id) t.plugins t.guardrails trust = .ok ())
    (hids : (tenants.map (·.id)).Nodup) (hnew : ∀ t ∈ tenants, t.id ∉ seen.tenants)
    (hprefixes : (tenants.flatMap (·.keyPrefixes)).Nodup)
    (hfree : ∀ pre ∈ tenants.flatMap (·.keyPrefixes), ¬ (seen.prefixes.lookup pre).isSome)
    : ∃ seen', tenants.foldlM (validateLayer sha256 ed25519 registry trust) seen = .ok seen' := by
  induction tenants generalizing seen with
  | nil => exact ⟨seen, rfl⟩
  | cons t tenants ih =>
    rw [forall_mem_cons] at hvalid hnew
    rw [map_cons, nodup_cons] at hids
    rw [flatMap_cons, nodup_append] at hprefixes
    rw [flatMap_cons, forall_mem_append] at hfree
    have hclaim := (List.foldlM_index_isOk_iff (claimPrefix t.id) id
      (fun m pre => (AList.lookup pre m).isSome) (fun _ => True) (claimPrefix_isOk_iff t.id)
      (claimed_iff t.id) t.keyPrefixes seen.prefixes).mpr
        ⟨fun _ _ => trivial, by simpa using hprefixes.1, hfree.1⟩
    rcases hclaim with ⟨prefixes, hclaim⟩
    have hclaimed := List.foldlM_ok_indexed (claimPrefix t.id) id
      (fun m pre => (AList.lookup pre m).isSome = true) (claimed_iff t.id) hclaim
    have hlayer : validateLayer sha256 ed25519 registry trust seen t
        = .ok ⟨t.id :: seen.tenants, prefixes⟩ := by
      unfold validateLayer
      rw [ite_error_eq_ok_iff, contains_iff_mem]
      simp only [bind_eq_ok_iff]
      exact ⟨hnew.1, prefixes, hclaim, (), hvalid.1.1, (), hvalid.1.2, rfl⟩
    rw [foldlM_cons, hlayer]
    apply ih _ hvalid.2 hids.2 _ hprefixes.2.1
    . intro pre hpre
      change ¬ (AList.lookup pre prefixes).isSome = true
      rw [hclaimed]
      rintro (⟨pre', hpre', rfl⟩ | hseen)
      . exact hprefixes.2.2 pre' hpre' pre' hpre rfl
      . exact hfree.2 pre hpre hseen
    . intro t' ht'
      rw [mem_cons]
      rintro (heq | hseen)
      . exact hids.1 (heq ▸ mem_map_of_mem ht')
      . exact hnew.2 t' ht' hseen

theorem validate_eq_ok_iff {fleet : Fleet} {tenants : List Tenant} (hids : (tenants.map (·.id)).Nodup)
    (hprefixes : (tenants.flatMap (·.keyPrefixes)).Nodup)
    : validate sha256 ed25519 fleet tenants trust = .ok () ↔ ((fleet.deployments.map (·.id)).Nodup ∧
        (∀ a ∈ fleet.aliases, ∀ target ∈ a.targets, ∃ d ∈ fleet.deployments, d.key = target) ∧
        validateBindings sha256 ed25519 fleet.registry none fleet.defaultPlugins fleet.defaultGuardrails
          trust = .ok ()) ∧
      ∀ t ∈ tenants, validateTenant t = .ok () ∧
        validateBindings sha256 ed25519 fleet.registry (some t.id) t.plugins t.guardrails trust = .ok () := by
  constructor
  . intro h
    rcases validate_eq_ok h with ⟨hdeployments, haliases, seen, hcovers⟩
    rcases validate_bindings h with ⟨hdefaults, hbindings⟩
    exact ⟨⟨hdeployments, haliases, hdefaults⟩, fun t ht => ⟨hcovers.valid t ht, hbindings t ht⟩⟩
  . rintro ⟨⟨hdeployments, haliases, hdefaults⟩, hvalid⟩
    rcases foldlM_validateLayer_isOk ⟨[], ∅⟩ hvalid hids (by simp) hprefixes (by simp)
      with ⟨seen, hseen⟩
    unfold validate
    simp only [bind_eq_ok_iff]
    refine ⟨(), (validateIDs_eq_ok_iff _).mpr hdeployments, (), ?_, seen, hseen, hdefaults⟩
    rw [List.forM_eq_ok_iff]
    intro a ha
    rw [validateAlias_eq_ok_iff]
    intro target htarget
    rw [mem_map]
    exact haliases a ha target htarget

theorem validateKey_eq_ok_iff {tenant : Tenant} {lookup keyID : Str}
    : validateKey tenant lookup keyID = .ok ()
        ↔
      lookup.length = 32 ∧ ∃ p ∈ tenant.principals, p.keyID = keyID := by
  unfold validateKey
  simp only [ite_error_eq_ok_iff]
  simp

namespace Tables

variable {t : Tables}

theorem lookups_nodup (hsound : t.Sound) (tenantID : Str)
    : ((t.keysOf tenantID).map (·.lookup)).Nodup :=
  hsound.lookups.sublist ((filter_sublist).map _)

theorem validateTenant_tenantOf_iff (hsound : t.Sound) (row : TenantRow)
    : validateTenant (t.tenantOf row) = .ok ()
        ↔
      ∀ key ∈ t.keysOf row.id, key.lookup.length = 32 := by
  have hprincipals : ∀ p ∈ (t.tenantOf row).principals,
      validatePrincipal (t.tenantOf row) p = .ok () := by
    intro p hp
    rcases mem_map.mp hp with ⟨key, _, rfl⟩
    rw [validatePrincipal_eq_ok_iff]
    refine ⟨rfl, ?_⟩
    intro ref href
    rcases mem_filterMap.mp href with ⟨id, _, href⟩
    rcases Option.map_eq_some_iff.mp href with ⟨b, hb, rfl⟩
    exact ⟨b, Table.get_eq_some Budget.id hb⟩
  have hlookup := @lookup_lookups _ (lookups_nodup hsound row.id)
  unfold validateTenant
  simp only [bind_eq_ok_iff, List.forM_eq_ok_iff, validateKey_eq_ok_iff]
  constructor
  . rintro ⟨_, _, hkeys⟩ key hkey
    have hentry := hlookup.mpr ⟨key, hkey, rfl, rfl⟩
    exact (hkeys ⟨key.lookup, key.columns.id⟩ (AList.mem_lookup_iff.mp hentry)).1
  . intro hlengths
    refine ⟨(), (List.forM_eq_ok_iff _ _).mpr hprincipals, ?_⟩
    rintro ⟨lookup, _⟩ hentry
    rcases hlookup.mp (AList.mem_lookup_iff.mpr hentry) with ⟨key, hkey, rfl, rfl⟩
    exact ⟨hlengths key hkey, _, mem_map_of_mem hkey, rfl⟩

@[simp]
theorem mem_prefixesOf {tenantID pre : Str}
    : pre ∈ t.prefixesOf tenantID ↔ (pre, tenantID) ∈ t.keyPrefixes := by
  unfold prefixesOf
  rw [mem_insertionSort, mem_map]
  constructor
  . rintro ⟨⟨pre', _⟩, hmem, rfl⟩
    rw [mem_filter, decide_eq_true_eq] at hmem
    rcases hmem with ⟨hmem, rfl⟩
    exact hmem
  . intro hmem
    exact ⟨(pre, tenantID), mem_filter.mpr ⟨hmem, by simp⟩, rfl⟩

theorem prefixesOf_nodup (hsound : t.Sound) (tenantID : Str) : (t.prefixesOf tenantID).Nodup := by
  unfold prefixesOf
  rw [(perm_insertionSort _ _).nodup_iff]
  exact List.Nodup.sublist ((filter_sublist).map _) hsound.keyPrefixes.1

theorem keyPrefixes_nodup (hsound : t.Sound)
    : ((t.tenants.map t.tenantOf).flatMap (·.keyPrefixes)).Nodup := by
  rw [nodup_flatMap]
  constructor
  . intro tenant htenant
    rcases mem_map.mp htenant with ⟨row, _, rfl⟩
    exact prefixesOf_nodup hsound row.id
  . rw [pairwise_map]
    have hids := hsound.tenants.1
    unfold Table.Unique List.Nodup at hids
    rw [pairwise_map] at hids
    apply hids.imp
    intro row row' hne pre hpre hpre'
    have hmem := mem_prefixesOf.mp hpre
    have hmem' := mem_prefixesOf.mp hpre'
    have heq := hsound.keyPrefixes.1.eq_of_mem Prod.fst hmem hmem' rfl
    exact hne (Prod.mk.inj heq).2

end Tables

end

section

variable {t : Tables} {rt : Runtime}

theorem encodeDeployment_isOk {d : Deployment} (hweight : 0 ≤ d.weight ∧ d.weight ≤ 100)
    (hshadow : 0 ≤ d.shadowPercent ∧ d.shadowPercent ≤ 100)
    (hcost : InRange d.cost.inputPer1K ∧ InRange d.cost.outputPer1K ∧ InRange d.cost.cachedInputPer1K ∧
      InRange d.cost.cacheWritePer1K)
    : ∃ m, encodeDeployment d = .ok m := by
  rcases hcost with ⟨hinput, houtput, hcached, hwrite⟩
  have hsmall : ∀ {n : Int}, 0 ≤ n ∧ n ≤ 100 → InRange n := by
    intro n hn
    unfold InRange
    omega
  have hencode : encodeCost d.cost = .ok d.cost := by
    unfold encodeCost
    rw [int64Field_of_inRange hinput, int64Field_of_inRange houtput, int64Field_of_inRange hcached,
      int64Field_of_inRange hwrite]
    rfl
  unfold encodeDeployment
  rw [uint32_of_inRange (hsmall hweight) hweight.1, uint32_of_inRange (hsmall hshadow) hshadow.1, hencode]
  exact ⟨_, rfl⟩

namespace Tables

theorem mem_hosted {base : List Deployment} {jobs : List FineTune.FineTuneJob}
    {placed : Deployment × FineTune.FineTuneJob} (h : placed ∈ hosted base jobs)
    : placed.1 ∈ base ∧ placed.2 ∈ jobs := by
  unfold hosted at h
  rcases mem_filterMap.mp h with ⟨job, hjob, h⟩
  split at h
  . rcases Option.map_eq_some_iff.mp h with ⟨host, hhost, rfl⟩
    unfold hostOf at hhost
    exact ⟨(mem_filter.mp (mem_of_getLast? hhost)).1, hjob⟩
  . simp at h

theorem encodeDeployments_isOk (hsound : t.Sound) (hloads : ∀ row ∈ t.deployments, row.Loads)
    : ∃ ms, t.deploymentsOf.mapM encodeDeployment = .ok ms := by
  have hcosts : ∀ d ∈ t.baseDeployments, InRange d.cost.inputPer1K ∧ InRange d.cost.outputPer1K ∧
      InRange d.cost.cachedInputPer1K ∧ InRange d.cost.cacheWritePer1K := by
    intro d hd
    rcases mem_map.mp hd with ⟨row, hrow, rfl⟩
    rcases hsound.deployments.2 row hrow with ⟨_, _, _, _, _, _, _, _, _, h₁, h₂, h₃, h₄, _⟩
    exact ⟨h₁, h₂, h₃, h₄⟩
  rw [List.mapM_isOk_iff]
  unfold deploymentsOf
  rw [forall_mem_append, forall_mem_map]
  constructor
  . intro d hd
    apply encodeDeployment_isOk _ _ (hcosts d hd)
    . rcases mem_map.mp hd with ⟨row, hrow, rfl⟩
      exact (hloads row hrow).weight
    . rcases mem_map.mp hd with ⟨row, _, rfl⟩
      change (0 : Int) ≤ 0 ∧ (0 : Int) ≤ 100
      decide
  . intro placed hplaced
    have hshadow : 0 ≤ (adapterOf placed).shadowPercent ∧ (adapterOf placed).shadowPercent ≤ 100 := by
      have hvalid := placed.2.spec.valid.shadowPercent
      unfold adapterOf
      dsimp only
      split
      . exact hvalid
      . decide
    exact encodeDeployment_isOk placed.2.status.percentage hshadow (hcosts placed.1 (mem_hosted hplaced).1)

theorem encodeFleet_isOk_iff (hsound : t.Sound) (hloads : t.FleetLoads rt) {now : Int}
    (hnow : IsDatetime now) (tenants : List Tenant)
    : (∃ m, encodeFleet (t.fleetOf rt) tenants now = .ok m) ↔ ∀ b ∈ t.pluginsOf none, OnWire b := by
  have hversion : ∃ n, uint64 (t.fleetOf rt).version = .ok n := by
    rcases hloads.initialised with ⟨state, hstate, hpos⟩
    have hrange := (hsound.fleetState state hstate).1
    have hfleet : (t.fleetOf rt).version = state.version := by
      unfold fleetOf
      rw [hstate]
      rfl
    rw [hfleet]
    exact ⟨_, uint64_of_inRange hrange (by omega)⟩
  rcases hversion with ⟨number, hnumber⟩
  rcases encodeDeployments_isOk hsound hloads.deployments with ⟨deployments, hdeployments⟩
  rcases hloads.policy with ⟨policy, hpolicy⟩
  rcases encodeDefaultPolicy_isOk hsound hpolicy with ⟨msg, hmsg⟩
  rw [← policyOf_eq hpolicy] at hmsg
  rw [← encodePlugins_isOk_iff]
  unfold encodeFleet
  simp only [bind_eq_ok_iff]
  constructor
  . rintro ⟨_, _, _, _, _, _, _, plugins, hplugins, _⟩
    exact ⟨plugins, hplugins⟩
  . rintro ⟨plugins, hplugins⟩
    exact ⟨_, number, hnumber, _, int64Field_toUnixMs hnow, deployments, hdeployments, plugins, hplugins,
      [], rfl, msg, hmsg, rfl⟩

end Tables

end

namespace Tables

variable {t : Tables} (f : Format) (rt : Runtime) (trust : Option TrustStore)

structure TenantReady (t : Tables) (row : TenantRow) : Prop where
  loads : t.TenantLoads row
  lookups : ∀ key ∈ t.keysOf row.id, key.lookup.length = 32
  bindings : validateBindings f.sha256 rt.ed25519 (t.registryOf rt) (some row.id)
    (t.pluginsOf (some row.id)) [] (trust.getD .empty) = .ok ()
  onWire : ∀ b ∈ t.pluginsOf (some row.id), OnWire b

structure FleetReady (t : Tables) : Prop where
  loads : t.FleetLoads rt
  ids : (t.deploymentsOf.map (·.id)).Nodup
  targets : ∀ a ∈ t.aliases, a.tenantID = none → ∀ target ∈ a.targets, ∃ d ∈ t.deploymentsOf, d.key = target
  bindings : validateBindings f.sha256 rt.ed25519 (t.registryOf rt) none (t.pluginsOf none) []
    (trust.getD .empty) = .ok ()
  onWire : ∀ b ∈ t.pluginsOf none, OnWire b

structure Ready (t : Tables) : Prop where
  fleet : t.FleetReady f rt trust
  tenants : ∀ row ∈ t.tenants, t.TenantReady f rt trust row

theorem forall_aliasesOf_iff {rows : List AliasRow} {tenantID : Option Str} {P : ModelAlias → Prop}
    : (∀ a ∈ aliasesOf rows tenantID, P a)
        ↔
      ∀ row ∈ rows, row.tenantID = tenantID → P ⟨row.name, row.targets⟩ := by
  unfold aliasesOf
  rw [forall_mem_map]
  simp only [mem_filter, decide_eq_true_eq, and_imp]

variable (hsound : t.Sound)

include hsound

theorem encodeTenant_isOk_iff {row : TenantRow} (hrow : row ∈ t.tenants)
    (hloads : t.TenantLoads row) {now : Int} (hnow : IsDatetime now) (registry : Registry)
    : (∃ m, encodeTenant registry now (t.tenantOf row) = .ok m)
        ↔
      ∀ b ∈ t.pluginsOf (some row.id), OnWire b := by
  simp only [encodeTenant_eq_ok_iff hsound hrow hloads hnow]
  rw [← encodePlugins_isOk_iff]
  constructor
  . rintro ⟨m, hm⟩
    exact ⟨_, hm.plugins⟩
  . rintro ⟨plugins, hplugins⟩
    rcases hloads.policy with ⟨policy, hpolicy⟩
    rcases encodeDefaultPolicy_isOk hsound hpolicy with ⟨msg, hmsg⟩
    rw [← policyOf_eq hpolicy] at hmsg
    exact ⟨⟨_, _, _, _, _, _, _, _, plugins, _, _, msg⟩, rfl, rfl, rfl, rfl, rfl, rfl, rfl, rfl, hplugins,
      rfl, rfl, hmsg⟩

theorem validate_fleetOf_iff
    : validate f.sha256 rt.ed25519 (t.fleetOf rt) (t.tenants.map t.tenantOf) (trust.getD .empty) = .ok ()
        ↔
      ((t.deploymentsOf.map (·.id)).Nodup ∧
        (∀ a ∈ t.aliases, a.tenantID = none → ∀ target ∈ a.targets, ∃ d ∈ t.deploymentsOf, d.key = target) ∧
        validateBindings f.sha256 rt.ed25519 (t.registryOf rt) none (t.pluginsOf none) []
          (trust.getD .empty) = .ok ()) ∧
      ∀ row ∈ t.tenants, (∀ key ∈ t.keysOf row.id, key.lookup.length = 32) ∧
        validateBindings f.sha256 rt.ed25519 (t.registryOf rt) (some row.id) (t.pluginsOf (some row.id)) []
          (trust.getD .empty) = .ok () := by
  have hids : ((t.tenants.map t.tenantOf).map (·.id)).Nodup := by
    rw [map_map]
    exact hsound.tenants.1
  rw [validate_eq_ok_iff hids (keyPrefixes_nodup hsound), forall_mem_map]
  simp only [validateTenant_tenantOf_iff hsound]
  change (_ ∧ (∀ a ∈ aliasesOf t.aliases none, _) ∧ _) ∧ _ ↔ _
  rw [forall_aliasesOf_iff]
  rfl

theorem build_isOk_iff {now : Int} (hnow : IsDatetime now)
    : (∃ msg, t.build rt f now trust = .ok msg) ↔ t.Ready f rt trust := by
  unfold build Config.build load
  simp only [bind_eq_ok_iff, loadFleet_eq_ok_iff, loadTenants_eq_ok_iff hsound.tenants.1]
  constructor
  . rintro ⟨msg, _, ⟨_, ⟨hfleet, rfl⟩, _, ⟨htenants, rfl⟩, ⟨⟩⟩, hbuild⟩
    rcases buildSnapshot_eq_ok f hbuild with ⟨layer, layers, hvalidate, hlayer, hlayers, _⟩
    rcases (validate_fleetOf_iff f rt trust hsound).mp hvalidate with ⟨⟨hids, htargets, hbindings⟩, hvalid⟩
    have hencoded := (List.mapM_isOk_iff _ _).mp ⟨layers, hlayers⟩
    rw [forall_mem_map] at hencoded
    refine ⟨⟨hfleet, hids, htargets, hbindings, (encodeFleet_isOk_iff hsound hfleet hnow _).mp ⟨layer, hlayer⟩⟩, ?_⟩
    intro row hrow
    exact ⟨htenants row hrow, (hvalid row hrow).1, (hvalid row hrow).2,
      (encodeTenant_isOk_iff hsound hrow (htenants row hrow) hnow _).mp (hencoded row hrow)⟩
  . intro h
    have hvalidate := (validate_fleetOf_iff f rt trust hsound).mpr ⟨⟨h.fleet.ids, h.fleet.targets,
      h.fleet.bindings⟩, fun row hrow => ⟨(h.tenants row hrow).lookups, (h.tenants row hrow).bindings⟩⟩
    rcases (encodeFleet_isOk_iff hsound h.fleet.loads hnow (t.tenants.map t.tenantOf)).mpr h.fleet.onWire
      with ⟨layer, hlayer⟩
    have hlayers : ∃ layers, (t.tenants.map t.tenantOf).mapM (encodeTenant (t.fleetOf rt).registry now)
        = .ok layers := by
      rw [List.mapM_isOk_iff, forall_mem_map]
      intro row hrow
      have hready := h.tenants row hrow
      exact (encodeTenant_isOk_iff hsound hrow hready.loads hnow _).mpr hready.onWire
    rcases hlayers with ⟨layers, hlayers⟩
    refine ⟨sealSnapshot f layer layers, _, ⟨_, ⟨h.fleet.loads, rfl⟩, _,
      ⟨fun row hrow => (h.tenants row hrow).loads, rfl⟩, rfl⟩, ?_⟩
    unfold buildSnapshot
    rw [hvalidate]
    change (encodeFleet (t.fleetOf rt) (t.tenants.map t.tenantOf) now >>= _) = _
    rw [hlayer]
    change ((t.tenants.map t.tenantOf).mapM (encodeTenant (t.fleetOf rt).registry now) >>= _) = _
    rw [hlayers]
    rfl

theorem build_eq_ok {f : Format} {rt : Runtime} {trust : Option TrustStore} {now : Int}
    (hnow : IsDatetime now) {msg : SnapshotMsg} (h : t.build rt f now trust = .ok msg)
    : ∃ layer layers, msg = sealSnapshot f layer layers ∧
        validate f.sha256 rt.ed25519 (t.fleetOf rt) (t.tenants.map t.tenantOf) (trust.getD .empty) = .ok () ∧
        encodeFleet (t.fleetOf rt) (t.tenants.map t.tenantOf) now = .ok layer ∧
        List.Forall₂ (fun row m => t.Encodes row now m) t.tenants layers := by
  have hready := (build_isOk_iff f rt trust hsound hnow).mp ⟨msg, h⟩
  unfold build Config.build load at h
  simp only [bind_eq_ok_iff, loadFleet_eq_ok_iff, loadTenants_eq_ok_iff hsound.tenants.1] at h
  rcases h with ⟨_, ⟨_, ⟨hfleet, rfl⟩, _, ⟨htenants, rfl⟩, ⟨⟩⟩, hbuild⟩
  rcases buildSnapshot_eq_ok f hbuild with ⟨layer, layers, hvalidate, hlayer, hlayers, rfl⟩
  refine ⟨layer, layers, rfl, hvalidate, hlayer, ?_⟩
  rw [List.mapM_eq_ok_iff_forall₂, forall₂_map_left_iff] at hlayers
  rw [forall₂_iff_get] at hlayers ⊢
  refine ⟨hlayers.1, ?_⟩
  intro i hrow hlayer
  have hmem := get_mem t.tenants ⟨i, hrow⟩
  exact (encodeTenant_eq_ok_iff hsound hmem (htenants _ hmem) hnow _).mp (hlayers.2 i hrow hlayer)

omit hsound

section

structure Plain (t : Tables) : Prop where
  pluginBindings : t.pluginBindings = []
  policyRules : t.policyRules = []
  components : t.components = []
  finetuneJobs : t.finetuneJobs = []

@[mk_iff]
structure PlainReady (t : Tables) : Prop where
  initialised : ∃ state ∈ t.fleetState, 1 ≤ state.version
  deployments : ∀ row ∈ t.deployments, row.Loads
  aliases : ∀ a ∈ t.aliases, a.Loads
  targets : ∀ a ∈ t.aliases, a.tenantID = none → ∀ target ∈ a.targets, ∃ d ∈ t.baseDeployments, d.key = target
  tenants : ∀ row ∈ t.tenants, row.id ≠ [] ∧ t.prefixesOf row.id ≠ [] ∧
    0 ≤ row.minTrustTier ∧ row.minTrustTier ≤ 3
  budgets : ∀ b ∈ t.budgets, b.Loads
  keys : ∀ key ∈ t.apiKeys, key.columns.revokedAt = none → KeyLoads key.columns ∧ key.lookup.length = 32

instance (t : Tables) : Decidable t.PlainReady :=
  decidable_of_iff' _ t.plainReady_iff

variable (hplain : t.Plain)

include hplain

theorem Plain.pluginsOf (tenantID : Option Str) : t.pluginsOf tenantID = [] := by
  unfold Tables.pluginsOf
  rw [hplain.pluginBindings]
  rfl

theorem Plain.loadPolicy (tenantID : Option Str) : t.loadPolicy tenantID = .ok none := by
  have hrules : t.rulesOf tenantID = [] := by
    unfold rulesOf
    rw [hplain.policyRules]
    simp
  unfold Tables.loadPolicy
  exact if_pos hrules

theorem Plain.deploymentsOf : t.deploymentsOf = t.baseDeployments := by
  unfold Tables.deploymentsOf
  rw [hplain.finetuneJobs]
  exact append_nil _

theorem Plain.loadRegistry : t.loadRegistry rt = .ok .empty := by
  unfold Tables.loadRegistry
  rw [hplain.components]
  rfl

theorem Plain.ready_iff (hsound : t.Sound) : t.Ready f rt trust ↔ t.PlainReady := by
  have hbindings : ∀ tenantID, validateBindings f.sha256 rt.ed25519 (t.registryOf rt) tenantID
      (t.pluginsOf tenantID) [] (trust.getD .empty) = .ok () := by
    intro tenantID
    rw [hplain.pluginsOf]
    rfl
  have honWire : ∀ tenantID, ∀ b ∈ t.pluginsOf tenantID, OnWire b := by
    intro tenantID
    rw [hplain.pluginsOf]
    simp
  constructor
  . intro h
    have htenant : ∀ id ∈ t.tenantIDs, ∃ row, t.TenantReady f rt trust row ∧ row.id = id := by
      intro id hid
      rcases mem_map.mp hid with ⟨row, hrow, heq⟩
      exact ⟨row, h.tenants row hrow, heq⟩
    refine ⟨h.fleet.loads.initialised, h.fleet.loads.deployments, ?_, ?_, ?_, ?_, ?_⟩
    . intro a ha
      cases howner : a.tenantID with
      | none => exact h.fleet.loads.aliases a ha howner
      | some id =>
        rcases htenant id ((hsound.aliases a ha).1 id howner) with ⟨row, hready, rfl⟩
        exact hready.loads.aliases a ha howner
    . rw [← hplain.deploymentsOf]
      exact h.fleet.targets
    . intro row hrow
      have hloads := (h.tenants row hrow).loads
      exact ⟨hloads.id_ne, hloads.prefixes_ne, hloads.minTrustTier⟩
    . intro b hb
      rcases htenant _ (hsound.budgets.2 b hb).2.1 with ⟨row, hready, hid⟩
      exact hready.loads.budgets b (mem_budgetsOf.mpr ⟨hb, hid.symm⟩)
    . intro key hkey hlive
      rcases htenant _ (hsound.apiKeys.2 key hkey).2.1 with ⟨row, hready, hid⟩
      have hmem := mem_keysOf.mpr ⟨hkey, hid.symm, hlive⟩
      exact ⟨hready.loads.keys key hmem, hready.lookups key hmem⟩
  . intro h
    constructor
    . refine ⟨⟨h.initialised, ⟨none, hplain.loadPolicy none⟩, h.deployments, fun a ha _ => h.aliases a ha,
        ⟨_, hplain.loadRegistry rt⟩⟩, ?_, ?_, hbindings none, honWire none⟩
      . rw [hplain.deploymentsOf]
        unfold baseDeployments
        rw [map_map]
        exact hsound.deployments.1
      . rw [hplain.deploymentsOf]
        exact h.targets
    . intro row hrow
      rcases h.tenants row hrow with ⟨hid, hprefixes, htier⟩
      refine ⟨⟨hid, hprefixes, htier, ?_, ?_, fun a ha _ => h.aliases a ha, ⟨none, hplain.loadPolicy _⟩⟩, ?_,
        hbindings _, honWire _⟩
      . intro b hb
        exact h.budgets b (mem_budgetsOf.mp hb).1
      . intro key hkey
        exact (h.keys key (mem_keysOf.mp hkey).1 (mem_keysOf.mp hkey).2.2).1
      . intro key hkey
        exact (h.keys key (mem_keysOf.mp hkey).1 (mem_keysOf.mp hkey).2.2).2

end

end Tables

end ModelGateway.Control
