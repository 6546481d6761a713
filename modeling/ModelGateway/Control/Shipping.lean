import ModelGateway.Control.BuilderLemmas

namespace ModelGateway.Control

open List

open Signing (TrustStore)
open Wire

def Deployment.ShadowsAdapter (d : Deployment) : Prop :=
  d.shadowPercent ≤ 100 ∧ (0 < d.shadowPercent → d.key.isAdapter)

theorem acceptable_iff {d : Deployment} {m : DeploymentMsg} (hd : d.Constructed)
    (hm : encodeDeployment d = .ok m)
    : (decodeDeployment m).Acceptable ↔ d.ShadowsAdapter := by
  rcases encodeDeployment_eq_ok hm with ⟨hid, hkey, htier, hweight, hshadow⟩
  rcases Deployment.postInit_eq_ok hd.accepted with ⟨hid_ne, htier_ne, _, hweight_le⟩
  unfold Deployment.ShadowsAdapter
  rw [← hshadow, ← hkey]
  constructor
  . intro h
    have hle : m.shadowPercent ≤ 100 := h.shadowPercent_le
    have hadapter : 0 < m.shadowPercent → m.key.isAdapter := h.shadow_adapter
    exact ⟨by omega, fun hpos => hadapter (by omega)⟩
  . rintro ⟨hle, hadapter⟩
    refine ⟨?_, ?_, ?_, ?_, ?_, ?_⟩
    . change m.id ≠ []
      rw [hid]
      exact hid_ne
    . change m.key.baseModel ≠ []
      rw [hkey]
      exact hd.key.baseModel_ne
    . change (decodeTrustTier m.trustTier).valid
      rw [htier, decodeTrustTier_encodeTrustTier hd.trustTier_le]
      exact TrustTier.valid_of_ne_unset htier_ne hd.trustTier_le
    . change m.weight ≤ 100
      omega
    . change m.shadowPercent ≤ 100
      omega
    . intro hpos
      apply hadapter
      change 0 < m.shadowPercent at hpos
      omega

section

variable (f : Format)

theorem decodeGlobal_coherent_iff {fleet : Fleet} {tenants : List Tenant} {builtAt : Int}
    {m : GlobalLayerMsg} (hconstructed : ∀ d ∈ fleet.deployments, d.Constructed)
    (hnamed : ∀ a ∈ fleet.aliases, AliasConstructed a) (haccepted : fleet.postInit = .ok fleet)
    (hids : (fleet.deployments.map (·.id)).Nodup)
    (haliases : ∀ a ∈ fleet.aliases, ∀ target ∈ a.targets, ∃ d ∈ fleet.deployments, d.key = target)
    (hm : encodeFleet fleet tenants builtAt = .ok m) (digest : Str)
    : (decodeGlobal f (m.withDigest digest)).Coherent
        ↔
      (∀ d ∈ fleet.deployments, d.ShadowsAdapter) ∧ (fleet.defaultPlugins.map (·.port)).Nodup := by
  rcases encodeFleet_eq_ok hm with ⟨hversion, hdeployments, halias, _, hplugins⟩
  rw [List.mapM_eq_ok_iff_forall₂] at hdeployments
  have hdecoded_ids : fleet.deployments.map (·.id) = (m.deployments.map decodeDeployment).map (·.id) := by
    rw [map_map]
    apply List.Forall₂.map_eq_map
    apply hdeployments.imp
    intro d msg hmsg
    exact (encodeDeployment_eq_ok hmsg).1.symm
  have hdecoded_keys : fleet.deployments.map (·.key) = (m.deployments.map decodeDeployment).map (·.key) := by
    rw [map_map]
    apply List.Forall₂.map_eq_map
    apply hdeployments.imp
    intro d msg hmsg
    exact (encodeDeployment_eq_ok hmsg).2.1.symm
  have hacceptable : (∀ d ∈ m.deployments.map decodeDeployment, d.Acceptable)
      ↔ ∀ d ∈ fleet.deployments, d.ShadowsAdapter := by
    rw [forall_mem_map]
    apply Iff.symm
    apply List.Forall₂.forall_mem_iff
    apply ((forall₂_and_left _ _).mpr ⟨hconstructed, hdeployments⟩).imp
    rintro d msg ⟨hd, hmsg⟩
    exact (acceptable_iff hd hmsg).symm
  have hfleet_version := Fleet.postInit_eq_ok haccepted
  constructor
  . intro h
    exact ⟨hacceptable.mp h.deployments, (ports_nodup_iff hplugins).mp h.ports_nodup⟩
  . rintro ⟨hshadows, hports⟩
    refine ⟨?_, hacceptable.mpr hshadows, ?_, ?_, (ports_nodup_iff hplugins).mpr hports⟩
    . change m.version.number ≠ 0
      omega
    . exact hdecoded_ids ▸ hids
    . intro a ha
      change a ∈ m.aliases at ha
      rw [halias] at ha
      rcases (hnamed a ha).named with ⟨hname, htargets⟩
      refine ⟨hname, htargets, ?_⟩
      intro target htarget
      have hmem : target ∈ fleet.deployments.map (·.key) := by
        simpa using haliases a ha target htarget
      rw [hdecoded_keys] at hmem
      exact mem_map.mp hmem

section

variable {registry : Registry} {builtAt : Int} {t : Tenant} {m : TenantLayerMsg}
  {msgs : List BudgetStateMsg}

theorem decodeBudget_ids {budgets : List Budget} (h : budgets.mapM encodeBudget = .ok msgs)
    : budgets.map (·.id) = (msgs.map decodeBudget).map (·.id) := by
  rw [List.mapM_eq_ok_iff_forall₂] at h
  rw [map_map]
  apply List.Forall₂.map_eq_map
  apply h.imp
  intro b msg hmsg
  exact (encodeBudget_eq_ok hmsg).1.symm

theorem decodePrincipal_keyIDs {principals : List Principal} {msgs : List PrincipalMsg}
    (h : principals.mapM encodePrincipal = .ok msgs)
    : principals.map (·.keyID) = (msgs.map decodePrincipal).map (·.keyID) := by
  rw [List.mapM_eq_ok_iff_forall₂] at h
  rw [map_map]
  apply List.Forall₂.map_eq_map
  apply h.imp
  intro p msg hmsg
  exact (encodePrincipal_eq_ok hmsg).1.symm

theorem decodeBudget_acceptable {budgets : List Budget} (hbudgets : ∀ b ∈ budgets, b.postInit = .ok b)
    (h : budgets.mapM encodeBudget = .ok msgs)
    : ∀ b ∈ msgs.map decodeBudget, b.id ≠ [] ∧ b.headroomBasisPoints ≤ basisPointsPerUnit := by
  intro b hb
  rcases mem_map.mp hb with ⟨msg, hmsg, rfl⟩
  rcases List.mem_of_mapM_ok _ h hmsg with ⟨budget, hbudget, hencode⟩
  rcases encodeBudget_eq_ok hencode with ⟨hid, hheadroom⟩
  rcases Budget.postInit_eq_ok (hbudgets budget hbudget) with ⟨hne, hle⟩
  change msg.id ≠ [] ∧ msg.headroomBasisPoints ≤ 10000
  rw [hid]
  exact ⟨hne, by omega⟩

theorem decodePrincipal_acceptable (ht : t.Constructed) (hvalid : validateTenant t = .ok ())
    (hm : encodeTenant registry builtAt t = .ok m)
    : ∀ p ∈ m.principals.map decodePrincipal, p.keyID ≠ [] ∧ p.tenant = m.tenant ∧
        ∀ ref ∈ p.budgets, ∃ b ∈ m.budgets.map decodeBudget, b.id = ref.id := by
  rcases encodeTenant_eq_ok hm with ⟨hid, _, hprincipals, _, _, hbudgets, _⟩
  intro p hp
  rcases mem_map.mp hp with ⟨msg, hmsg, rfl⟩
  rcases List.mem_of_mapM_ok _ hprincipals hmsg with ⟨principal, hprincipal, hencode⟩
  rcases encodePrincipal_eq_ok hencode with ⟨hkeyID, htenant, hrefs⟩
  rcases (validateTenant_eq_ok hvalid).1 principal hprincipal with ⟨howner, hknown⟩
  refine ⟨?_, ?_, ?_⟩
  . change msg.keyID ≠ []
    rw [hkeyID]
    exact (ht.principals principal hprincipal).keyID_ne
  . change msg.tenant = m.tenant
    rw [htenant, hid, howner]
  . intro ref href
    change ref ∈ msg.budgets.map _ at href
    rw [hrefs, map_map] at href
    rcases mem_map.mp href with ⟨r, hr, rfl⟩
    have hmem : r.id ∈ t.budgets.map (·.id) := mem_map.mpr (hknown r hr)
    rw [decodeBudget_ids hbudgets] at hmem
    exact mem_map.mp hmem

theorem decodeKeys_known (hvalid : validateTenant t = .ok ())
    (hm : encodeTenant registry builtAt t = .ok m) {lookup keyID : Str}
    (hlookup : (decodeKeys m.keys).lookup lookup = some keyID)
    : ∃ p ∈ m.principals.map decodePrincipal, p.keyID = keyID := by
  rcases encodeTenant_eq_ok hm with ⟨_, _, hprincipals, hkeys, _⟩
  rw [hkeys] at hlookup
  have hentry := lookup_of_mem_encodeKeys (mem_of_lookup_decodeKeys hlookup)
  have hknown : keyID ∈ t.principals.map (·.keyID) :=
    mem_map.mpr ((validateTenant_eq_ok hvalid).2 lookup keyID hentry)
  rw [decodePrincipal_keyIDs hprincipals] at hknown
  exact mem_map.mp hknown

theorem decodeTenant_coherent_iff (ht : t.Constructed) (hvalid : validateTenant t = .ok ())
    (hm : encodeTenant registry builtAt t = .ok m) (digest : Str)
    : (decodeTenant f (m.withDigest digest)).Coherent ↔ (t.plugins.map (·.port)).Nodup := by
  rcases encodeTenant_eq_ok hm with ⟨hid, hversion, _, _, halias, hbudgets, hplugins⟩
  rcases Tenant.postInit_eq_ok ht.accepted with ⟨hid_ne, hversion_pos, _⟩
  constructor
  . intro h
    exact (ports_nodup_iff hplugins).mp h.ports_nodup
  . intro hports
    have hprincipals := decodePrincipal_acceptable ht hvalid hm
    refine ⟨?_, ?_, decodeBudget_acceptable ht.budgets hbudgets, hprincipals,
      fun _ _ => decodeKeys_known hvalid hm, ?_, (ports_nodup_iff hplugins).mpr hports⟩
    . change m.tenant ≠ []
      rw [hid]
      exact hid_ne
    . change m.version.number ≠ 0
      omega
    . intro a ha
      change a ∈ m.aliasOverrides at ha
      rw [halias] at ha
      exact (ht.aliasOverrides a ha).named

end

structure Shippable (fleet : Fleet) (tenants : List Tenant) : Prop where
  deployments : ∀ d ∈ fleet.deployments, d.ShadowsAdapter
  defaultPlugins : (fleet.defaultPlugins.map (·.port)).Nodup
  plugins : ∀ t ∈ tenants, (t.plugins.map (·.port)).Nodup

theorem accepted_iff_shippable (ed25519 : Str → Str → Str → Bool) {fleet : Fleet} {tenants : List Tenant}
    {builtAt : Int} {trust : Option TrustStore} {msg : SnapshotMsg}
    (hconstructed : ∀ d ∈ fleet.deployments, d.Constructed)
    (hnamed : ∀ a ∈ fleet.aliases, AliasConstructed a) (haccepted : fleet.postInit = .ok fleet)
    (htenants : ∀ t ∈ tenants, t.Constructed)
    (hbuild : buildSnapshot f ed25519 fleet tenants builtAt trust = .ok msg)
    : (∃ snap digest, decodeAndVerify f (f.snapshot.marshal msg) = .ok (snap, digest))
        ↔
      Shippable fleet tenants := by
  rcases buildSnapshot_eq_ok f hbuild with ⟨layer, layers, hvalidate, hlayer, hlayers, rfl⟩
  rcases validate_eq_ok hvalidate with ⟨hids, haliases, seen, hcovers⟩
  have hglobal := decodeGlobal_coherent_iff f hconstructed hnamed haccepted hids haliases hlayer
  rw [List.mapM_eq_ok_iff_forall₂] at hlayers
  have hcoherent : (∀ t ∈ tenants, (t.plugins.map (·.port)).Nodup)
      ↔ ∀ m ∈ layers, (decodeTenant f
          (sealLayer f.sha256 f.tenantLayer.marshal TenantLayerMsg.withDigest m)).Coherent := by
    apply List.Forall₂.forall_mem_iff
    have hall : ∀ t ∈ tenants, t.Constructed ∧ validateTenant t = .ok () :=
      fun t ht => ⟨htenants t ht, hcovers.valid t ht⟩
    apply ((forall₂_and_left _ _).mpr ⟨hall, hlayers⟩).imp
    rintro t m ⟨⟨ht, hvalid⟩, hm⟩
    exact (decodeTenant_coherent_iff f ht hvalid hm _).symm
  have htenant_ids : tenants.map (·.id) = layers.map (·.tenant) := by
    apply List.Forall₂.map_eq_map
    apply hlayers.imp
    intro t m hm
    exact (encodeTenant_eq_ok hm).1.symm
  rw [sealed_acceptable_iff]
  constructor
  . intro h
    rcases (hglobal _).mp h.globalLayer with ⟨hdeployments, hplugins⟩
    have hdecoded := h.layers
    rw [forall_mem_map] at hdecoded
    exact ⟨hdeployments, hplugins, hcoherent.mpr hdecoded⟩
  . intro h
    refine ⟨(hglobal _).mpr ⟨h.deployments, h.defaultPlugins⟩,
      forall_mem_map.mpr (hcoherent.mp h.plugins), ?_, ?_⟩
    . rw [map_map]
      exact htenant_ids ▸ hcovers.ids_nodup
    . rw [forall_mem_map]
      intro m hm
      have hmem : m.tenant ∈ layers.map (·.tenant) := mem_map.mpr ⟨m, hm, rfl⟩
      rw [← htenant_ids] at hmem
      rcases mem_map.mp hmem with ⟨t, ht, hid⟩
      change ∃ pre, layer.tenantPrefixes.lookup pre = some m.tenant
      rw [(encodeFleet_eq_ok hlayer).2.2.2.1, ← hid]
      exact hcovers.routed ht (Tenant.postInit_eq_ok (htenants t ht).accepted).2.2

theorem built_accepted_iff (ed25519 : Str → Str → Str → Bool) {fleet : Fleet} {tenants : List Tenant}
    {builtAt : Int} {trust : Option TrustStore} {msg : SnapshotMsg}
    (hfleet : fleet.Constructed f.sha256) (htenants : ∀ t ∈ tenants, t.Constructed)
    (hbuild : buildSnapshot f ed25519 fleet tenants builtAt trust = .ok msg)
    : (∃ snap digest, decodeAndVerify f (f.snapshot.marshal msg) = .ok (snap, digest))
        ↔
      Shippable fleet tenants :=
  accepted_iff_shippable f ed25519 hfleet.deployments hfleet.aliases hfleet.accepted htenants hbuild

end

namespace Sample

def fleet (shadowPercent : Int) : Fleet where
  version := 1
  deployments := [{
    id := str "d"
    key := ⟨str "m", []⟩
    provider := str "p"
    endpoint := []
    region := []
    trustTier := .internal
    credentialRef := []
    weight := 100
    shadowPercent := shadowPercent
    cost := ⟨0, 0, 0, 0⟩
    capabilities := []
  }]
  aliases := []
  registry := .empty
  defaultPlugins := []
  defaultGuardrails := []
  defaultPolicy := none
  policyBundleRef := []

def tenant : Tenant where
  id := str "t"
  tier := str "unknown"
  version := 1
  keyPrefixes := [str "t"]
  principals := []
  keys := ∅
  aliasOverrides := []
  budgets := []
  plugins := []
  guardrails := []
  policy := none
  minTrustTier := .external

theorem fleet_constructed (sha256 : Str → Str) (shadowPercent : Int)
    : (fleet shadowPercent).Constructed sha256 := by
  constructor
  . intro d hd
    rw [mem_singleton.mp hd]
    exact ⟨rfl, Nat.le_refl _, rfl, by simp, rfl⟩
  . simp [fleet]
  . exact ⟨by simp [fleet, Registry.empty], _, rfl⟩
  . simp [fleet]
  . simp [fleet]
  . rfl

theorem tenant_constructed : tenant.Constructed :=
  ⟨by simp [tenant], by simp [tenant], by simp [tenant], by simp [tenant], by simp [tenant], by decide, rfl⟩

def anySignature (_ _ _ : Str) : Bool := true

theorem toUnixMs_zero : toUnixMs 0 = 0 := by
  simp [toUnixMs, toDouble, roundHalfEven, truncate]

theorem encodeTenant_tenant : ∃ m, encodeTenant .empty 0 tenant = .ok m := by
  have hkeys : encodeKeys tenant.keys = [] := by
    simp [encodeKeys, tenant]
  unfold encodeTenant
  rw [toUnixMs_zero, hkeys]
  exact ⟨_, rfl⟩

theorem build_fleet {shadowPercent : Int} (h : 0 ≤ shadowPercent ∧ shadowPercent < 2 ^ 32)
    : ∃ msg, buildSnapshot Wire.Sample.format anySignature (fleet shadowPercent) [tenant] 0 none
        = .ok msg := by
  rcases encodeTenant_tenant with ⟨m, hm⟩
  have hvalidate : validate Wire.Sample.format.sha256 anySignature (fleet shadowPercent) [tenant] .empty
      = .ok () := rfl
  have hfleet : ∃ layer, encodeFleet (fleet shadowPercent) [tenant] 0 = .ok layer := by
    have hshadow : uint32 shadowPercent = .ok shadowPercent.toNat := if_pos h
    unfold encodeFleet
    rw [toUnixMs_zero]
    simp only [fleet, mapM_cons, encodeDeployment, hshadow]
    exact ⟨_, rfl⟩
  rcases hfleet with ⟨layer, hlayer⟩
  have hlayers : [tenant].mapM (encodeTenant (fleet shadowPercent).registry 0) = .ok [m] := by
    change (encodeTenant .empty 0 tenant >>= _) = _
    rw [hm]
    rfl
  unfold buildSnapshot
  rw [Option.getD_none, hvalidate, hlayer, hlayers]
  exact ⟨_, rfl⟩

end Sample

open Sample

theorem built_accepted_unshadowed
    : ∃ msg, buildSnapshot Wire.Sample.format anySignature (fleet 0) [tenant] 0 none
          = .ok msg ∧
        ∃ snap digest, decodeAndVerify Wire.Sample.format (Wire.Sample.format.snapshot.marshal msg)
          = .ok (snap, digest) := by
  rcases build_fleet (show (0 : Int) ≤ 0 ∧ (0 : Int) < 2 ^ 32 by decide) with ⟨msg, hmsg⟩
  refine ⟨msg, hmsg, ?_⟩
  have hfleet := fleet_constructed Wire.Sample.format.sha256 0
  have htenants : ∀ t ∈ [tenant], t.Constructed := by
    simpa using tenant_constructed
  rw [built_accepted_iff Wire.Sample.format anySignature hfleet htenants hmsg]
  refine ⟨?_, by simp [fleet], by simp [tenant]⟩
  intro d hd
  rw [mem_singleton.mp hd]
  exact ⟨by decide, by decide⟩

theorem shadowed_base_rejected
    : (fleet 1).Constructed Wire.Sample.format.sha256 ∧ tenant.Constructed ∧
        ∃ msg, buildSnapshot Wire.Sample.format anySignature (fleet 1) [tenant] 0 none
            = .ok msg ∧
          ¬ ∃ snap digest, decodeAndVerify Wire.Sample.format (Wire.Sample.format.snapshot.marshal msg)
            = .ok (snap, digest) := by
  have hfleet := fleet_constructed Wire.Sample.format.sha256 1
  refine ⟨hfleet, tenant_constructed, ?_⟩
  rcases build_fleet (show (0 : Int) ≤ 1 ∧ (1 : Int) < 2 ^ 32 by decide) with ⟨msg, hmsg⟩
  refine ⟨msg, hmsg, ?_⟩
  rcases buildSnapshot_eq_ok _ hmsg with ⟨_, _, hvalidate, hlayer, _, rfl⟩
  rcases validate_eq_ok hvalidate with ⟨hids, haliases, _⟩
  rw [sealed_acceptable_iff]
  intro h
  rcases (decodeGlobal_coherent_iff _ hfleet.deployments hfleet.aliases hfleet.accepted hids haliases
    hlayer _).mp h.globalLayer with ⟨hshadows, _⟩
  have hadapter := (hshadows _ mem_cons_self).2 (by decide)
  revert hadapter
  decide

end ModelGateway.Control
