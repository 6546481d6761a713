import ModelGateway.Control.Builder
import ModelGateway.Wire.Acceptance

namespace ModelGateway.Control

open List Except

open Signing (TrustStore)
open Wire

section

theorem validateIDs_eq_ok_iff (deployments : List Deployment)
    : validateIDs deployments = .ok () ↔ (deployments.map (·.id)).Nodup := by
  have hnone := @duplicateID_eq_none_iff [] (deployments.map (·.id))
  simp only [not_mem_nil, not_false_eq_true, implies_true, and_true] at hnone
  rw [← hnone]
  unfold validateIDs
  split
  . next h => simp [h]
  . next h => simp [h]

theorem validateAlias_eq_ok_iff (routes : List RoutingKey) (a : ModelAlias)
    : validateAlias routes a = .ok () ↔ ∀ target ∈ a.targets, target ∈ routes := by
  have hnone : (a.targets.find? fun target => !routes.contains target) = none
      ↔ ∀ target ∈ a.targets, target ∈ routes := by
    simp [find?_eq_none]
  rw [← hnone]
  unfold validateAlias
  split
  . next h =>
    rw [h]
    simp
  . next h =>
    rw [h]
    simp

theorem validatePrincipal_eq_ok_iff (t : Tenant) (p : Principal)
    : validatePrincipal t p = .ok ()
        ↔
      p.tenant = t.id ∧ ∀ ref ∈ p.budgets, ∃ b ∈ t.budgets, b.id = ref.id := by
  have hnone : (p.budgets.find? fun ref => !(t.budgets.map (·.id)).contains ref.id) = none
      ↔ ∀ ref ∈ p.budgets, ∃ b ∈ t.budgets, b.id = ref.id := by
    simp [find?_eq_none]
  rw [← hnone]
  unfold validatePrincipal
  rw [ite_error_eq_ok_iff]
  apply and_congr (by simp)
  split
  . next h =>
    rw [h]
    simp
  . next h =>
    rw [h]
    simp

variable {t : Tenant}

theorem validateKey_eq_ok {lookup keyID : Str} (h : validateKey t lookup keyID = .ok ())
    : ∃ p ∈ t.principals, p.keyID = keyID := by
  unfold validateKey at h
  simp only [ite_error_eq_ok_iff] at h
  simpa using h.2.1

theorem validateTenant_eq_ok (h : validateTenant t = .ok ())
    : (∀ p ∈ t.principals, p.tenant = t.id ∧ ∀ ref ∈ p.budgets, ∃ b ∈ t.budgets, b.id = ref.id) ∧
        ∀ lookup keyID, t.keys.lookup lookup = some keyID → ∃ p ∈ t.principals, p.keyID = keyID := by
  unfold validateTenant at h
  rw [bind_eq_ok_iff] at h
  rcases h with ⟨_, hprincipals, hkeys⟩
  rw [List.forM_eq_ok_iff] at hprincipals hkeys
  constructor
  . intro p hp
    exact (validatePrincipal_eq_ok_iff t p).mp (hprincipals p hp)
  . intro lookup keyID hlookup
    exact validateKey_eq_ok (hkeys ⟨lookup, keyID⟩ (AList.mem_lookup_iff.mp hlookup))

theorem foldlM_claimPrefix_eq_ok {tenant : Str} {prefixes : List Str} {m m' : GoMap Str Str}
    (h : prefixes.foldlM (claimPrefix tenant) m = .ok m')
    : m'.toFinmap = prefixes.foldl (fun fm pre => fm.insert pre tenant) m.toFinmap ∧
        (∀ pre owner, m.lookup pre = some owner → m'.lookup pre = some owner) ∧
        ∀ pre ∈ prefixes, m'.lookup pre = some tenant := by
  refine List.foldlM_ok_induction _
    (fun done m' => m'.toFinmap = done.foldl (fun fm pre => fm.insert pre tenant) m.toFinmap ∧
      (∀ pre owner, m.lookup pre = some owner → m'.lookup pre = some owner) ∧
      ∀ pre ∈ done, m'.lookup pre = some tenant) _ _ _ h ⟨rfl, by simp, by simp⟩ ?_
  rintro done pre m₁ m₂ _ ⟨hfinmap, hkept, hclaimed⟩ hstep
  unfold claimPrefix at hstep
  split at hstep
  . simp at hstep
  . next hfree =>
    rw [← ok.inj hstep]
    have hother : ∀ pre' owner, m₁.lookup pre' = some owner →
        (m₁.insert pre tenant).lookup pre' = some owner := by
      intro pre' owner howner
      rw [AList.lookup_insert_ne, howner]
      rintro rfl
      simp [hfree] at howner
    refine ⟨?_, ?_, ?_⟩
    . rw [foldl_append, ← hfinmap]
      exact (Finmap.insert_toFinmap _ _ _).symm
    . intro pre' owner howner
      exact hother pre' owner (hkept pre' owner howner)
    . intro pre' hpre'
      rw [mem_append, mem_singleton] at hpre'
      rcases hpre' with hdone | rfl
      . exact hother pre' tenant (hclaimed pre' hdone)
      . simp

variable {sha256 : Str → Str} {ed25519 : Str → Str → Str → Bool}
  {registry : Registry} {trust : TrustStore} {seen : Seen}

theorem validateLayer_eq_ok {seen' : Seen}
    (h : validateLayer sha256 ed25519 registry trust seen t = .ok seen')
    : t.id ∉ seen.tenants ∧ seen'.tenants = t.id :: seen.tenants ∧ validateTenant t = .ok () ∧
        t.keyPrefixes.foldlM (claimPrefix t.id) seen.prefixes = .ok seen'.prefixes := by
  unfold validateLayer at h
  simp only [ite_error_eq_ok_iff, bind_eq_ok_iff] at h
  rcases h with ⟨hfresh, prefixes, hprefixes, _, htenant, _, _, h⟩
  rw [contains_iff_mem] at hfresh
  rw [← ok.inj h]
  exact ⟨hfresh, rfl, htenant, hprefixes⟩

structure Seen.Covers (seen : Seen) (done : List Tenant) : Prop where
  mem_tenants_iff : ∀ id, id ∈ seen.tenants ↔ id ∈ done.map (·.id)
  ids_nodup : (done.map (·.id)).Nodup
  valid : ∀ t ∈ done, validateTenant t = .ok ()
  prefixes_eq : seen.prefixes.toFinmap = tenantPrefixes done
  claimed : ∀ t ∈ done, ∀ pre ∈ t.keyPrefixes, seen.prefixes.lookup pre = some t.id

theorem Seen.Covers.step {seen' : Seen} {done : List Tenant} (hcovers : seen.Covers done)
    (h : validateLayer sha256 ed25519 registry trust seen t = .ok seen')
    : seen'.Covers (done ++ [t]) := by
  rcases validateLayer_eq_ok h with ⟨hfresh, htenants, htenant, hclaim⟩
  rcases foldlM_claimPrefix_eq_ok hclaim with ⟨hadded, hkept, hclaimed⟩
  rw [hcovers.mem_tenants_iff] at hfresh
  constructor
  . intro id
    rw [htenants, mem_cons, hcovers.mem_tenants_iff, map_append, mem_append]
    simp [or_comm]
  . rw [map_append, nodup_append]
    refine ⟨hcovers.ids_nodup, by simp, ?_⟩
    rintro id hid _ hmem rfl
    rw [map_singleton, mem_singleton] at hmem
    exact hfresh (hmem ▸ hid)
  . simpa [or_imp, forall_and, htenant] using hcovers.valid
  . rw [hadded, hcovers.prefixes_eq]
    unfold tenantPrefixes
    rw [foldl_append]
    rfl
  . intro t' ht' pre hpre
    rw [mem_append, mem_singleton] at ht'
    rcases ht' with hdone | rfl
    . exact hkept pre t'.id (hcovers.claimed t' hdone pre hpre)
    . exact hclaimed pre hpre

variable {tenants : List Tenant}

theorem foldlM_validateLayer_eq_ok
    (h : tenants.foldlM (validateLayer sha256 ed25519 registry trust) ⟨[], ∅⟩ = .ok seen)
    : seen.Covers tenants := by
  refine List.foldlM_ok_induction _ (fun done seen => seen.Covers done) _ _ _ h ?_ ?_
  . exact ⟨by simp, by simp, by simp, rfl, by simp⟩
  . intro done t seen₁ seen₂ _ hcovers hstep
    exact hcovers.step hstep

theorem Seen.Covers.routed (h : seen.Covers tenants) (ht : t ∈ tenants) (hprefixes : t.keyPrefixes ≠ [])
    : ∃ pre, (tenantPrefixes tenants).lookup pre = some t.id := by
  rcases exists_mem_of_ne_nil _ hprefixes with ⟨pre, hpre⟩
  refine ⟨pre, ?_⟩
  rw [← h.prefixes_eq, Finmap.lookup_toFinmap]
  exact h.claimed t ht pre hpre

theorem validate_eq_ok {fleet : Fleet} (h : validate sha256 ed25519 fleet tenants trust = .ok ())
    : (fleet.deployments.map (·.id)).Nodup ∧
        (∀ a ∈ fleet.aliases, ∀ target ∈ a.targets, ∃ d ∈ fleet.deployments, d.key = target) ∧
        ∃ seen : Seen, seen.Covers tenants := by
  unfold validate at h
  simp only [bind_eq_ok_iff] at h
  rcases h with ⟨_, hids, _, haliases, seen, htenants, _⟩
  refine ⟨(validateIDs_eq_ok_iff _).mp hids, ?_, seen, foldlM_validateLayer_eq_ok htenants⟩
  intro a ha target htarget
  rw [List.forM_eq_ok_iff] at haliases
  have hroute := (validateAlias_eq_ok_iff _ a).mp (haliases a ha) target htarget
  simpa using hroute

end

section

theorem decodeTrustTier_encodeTrustTier {t : TrustTier} (h : t ≤ .internal)
    : decodeTrustTier (encodeTrustTier t) = t := by
  match t, h with
  | 0, _ => rfl
  | 1, _ => rfl
  | 2, _ => rfl
  | 3, _ => rfl

theorem Port.value_injective : Function.Injective Port.value := by
  intro p p' h
  revert h
  cases p <;> cases p' <;> decide

theorem encodePlugin_eq_ok {b : PluginBinding} {m : PluginBindingMsg} (h : encodePlugin b = .ok m)
    : (decodePlugin m).port = b.port.value := by
  unfold encodePlugin at h
  split at h
  . simp at h
  . next port hport =>
    rw [← ok.inj h]
    revert hport
    cases b.port with
    | provider => rintro ⟨⟩; rfl
    | guardrail => rintro ⟨⟩; rfl
    | store => rintro ⟨⟩; rfl
    | telemetry => rintro ⟨⟩; rfl
    | trainer => simp [encodePort]
    | eval => simp [encodePort]

theorem ports_nodup_iff {plugins : List PluginBinding} {msgs : List PluginBindingMsg}
    (h : plugins.mapM encodePlugin = .ok msgs)
    : ((msgs.map decodePlugin).map (·.port)).Nodup ↔ (plugins.map (·.port)).Nodup := by
  have hports : plugins.map (fun b => b.port.value) = msgs.map fun m => (decodePlugin m).port := by
    rw [List.mapM_eq_ok_iff_forall₂] at h
    apply List.Forall₂.map_eq_map
    apply h.imp
    intro b m hm
    exact (encodePlugin_eq_ok hm).symm
  rw [map_map, ← nodup_map_iff Port.value_injective, map_map]
  exact iff_of_eq (congrArg _ hports.symm)

theorem encodeBudget_eq_ok {b : Budget} {m : BudgetStateMsg} (h : encodeBudget b = .ok m)
    : m.id = b.id ∧ (m.headroomBasisPoints : Int) = b.headroomBasisPoints := by
  unfold encodeBudget at h
  simp only [bind_eq_ok_iff] at h
  rcases h with ⟨_, _, _, _, headroom, hheadroom, h⟩
  rw [← ok.inj h]
  exact ⟨rfl, uint32_eq_ok hheadroom⟩

theorem encodePrincipal_eq_ok {p : Principal} {m : PrincipalMsg} (h : encodePrincipal p = .ok m)
    : m.keyID = p.keyID ∧ m.tenant = p.tenant ∧ m.budgets = p.budgets.map encodeBudgetRef := by
  unfold encodePrincipal at h
  simp only [bind_eq_ok_iff] at h
  rcases h with ⟨_, _, _, _, _, _, _, _, h⟩
  rw [← ok.inj h]
  exact ⟨rfl, rfl, rfl⟩

theorem lookup_of_mem_encodeKeys {keys : GoMap Str Str} {lookup keyID : Str}
    (h : ⟨lookup, keyID⟩ ∈ encodeKeys keys)
    : keys.lookup lookup = some keyID := by
  unfold encodeKeys at h
  rw [mem_filterMap] at h
  rcases h with ⟨l, _, hl⟩
  rw [Option.map_eq_some_iff] at hl
  rcases hl with ⟨k, hk, heq⟩
  cases heq
  exact hk

theorem encodeFleet_eq_ok {fleet : Fleet} {tenants : List Tenant} {builtAt : Int} {m : GlobalLayerMsg}
    (h : encodeFleet fleet tenants builtAt = .ok m)
    : (m.version.number : Int) = fleet.version ∧
        fleet.deployments.mapM encodeDeployment = .ok m.deployments ∧ m.aliases = fleet.aliases ∧
        m.tenantPrefixes = tenantPrefixes tenants ∧
        fleet.defaultPlugins.mapM encodePlugin = .ok m.defaultPlugins := by
  unfold encodeFleet at h
  simp only [bind_eq_ok_iff] at h
  rcases h with ⟨number, hnumber, _, _, deployments, hdeployments, _, hplugins, _, _, _, _, h⟩
  rw [← ok.inj h]
  exact ⟨uint64_eq_ok hnumber, hdeployments, rfl, rfl, hplugins⟩

theorem encodeTenant_eq_ok {registry : Registry} {builtAt : Int} {t : Tenant} {m : TenantLayerMsg}
    (h : encodeTenant registry builtAt t = .ok m)
    : m.tenant = t.id ∧ (m.version.number : Int) = t.version ∧
        t.principals.mapM encodePrincipal = .ok m.principals ∧ m.keys = encodeKeys t.keys ∧
        m.aliasOverrides = t.aliasOverrides ∧ t.budgets.mapM encodeBudget = .ok m.budgets ∧
        t.plugins.mapM encodePlugin = .ok m.plugins := by
  unfold encodeTenant at h
  simp only [bind_eq_ok_iff] at h
  rcases h with ⟨number, hnumber, _, _, principals, hprincipals, budgets, hbudgets, plugins, hplugins,
    _, _, _, _, h⟩
  rw [← ok.inj h]
  exact ⟨rfl, uint64_eq_ok hnumber, hprincipals, rfl, rfl, hbudgets, hplugins⟩

end

section

theorem RoutingKeyConstructed.baseModel_ne {k : RoutingKey} (h : RoutingKeyConstructed k)
    : k.baseModel ≠ [] := by
  unfold RoutingKeyConstructed routingKey at h
  rw [ite_error_eq_ok_iff] at h
  exact h.1

theorem AliasConstructed.named {a : ModelAlias} (h : AliasConstructed a)
    : a.name ≠ [] ∧ a.targets ≠ [] := by
  have haccepted := h.accepted
  unfold modelAlias at haccepted
  simp only [ite_error_eq_ok_iff] at haccepted
  exact ⟨haccepted.1, haccepted.2.1⟩

theorem Deployment.postInit_eq_ok {d : Deployment} (h : d.postInit = .ok d)
    : d.id ≠ [] ∧ d.trustTier ≠ .unset ∧ 0 ≤ d.weight ∧ d.weight ≤ 100 := by
  unfold Deployment.postInit at h
  simp only [ite_error_eq_ok_iff] at h
  rcases h with ⟨hid, _, htier, h⟩
  split at h
  . next hweight => exact ⟨hid, htier, hweight⟩
  . simp at h

theorem TrustTier.valid_of_ne_unset {t : TrustTier} (hne : t ≠ .unset) (hle : t ≤ .internal)
    : TrustTier.valid t := by
  match t, hne, hle with
  | 1, _, _ => rfl
  | 2, _, _ => rfl
  | 3, _, _ => rfl

theorem Principal.Constructed.keyID_ne {p : Principal} (h : p.Constructed) : p.keyID ≠ [] := by
  have haccepted := h.accepted
  unfold Principal.postInit at haccepted
  rw [ite_error_eq_ok_iff] at haccepted
  exact haccepted.1

theorem Budget.postInit_eq_ok {b : Budget} (h : b.postInit = .ok b)
    : b.id ≠ [] ∧ b.headroomBasisPoints ≤ 10000 := by
  unfold Budget.postInit at h
  simp only [ite_error_eq_ok_iff, Decidable.not_not] at h
  exact ⟨h.1, h.2.2.2.1.2⟩

theorem Tenant.postInit_eq_ok {t : Tenant} (h : t.postInit = .ok t)
    : t.id ≠ [] ∧ 1 ≤ t.version ∧ t.keyPrefixes ≠ [] := by
  unfold Tenant.postInit at h
  simp only [ite_error_eq_ok_iff, Int.not_lt] at h
  exact ⟨h.1, h.2.1, h.2.2.1⟩

theorem Fleet.postInit_eq_ok {fleet : Fleet} (h : fleet.postInit = .ok fleet) : 1 ≤ fleet.version := by
  unfold Fleet.postInit at h
  rw [ite_error_eq_ok_iff, Int.not_lt] at h
  exact h.1

end

section

variable (f : Format)

theorem verifyGlobal_sealLayer (m : GlobalLayerMsg)
    : verifyGlobal f (sealLayer f.sha256 f.globalLayer.marshal GlobalLayerMsg.withDigest m) = .ok () := by
  have hdigest : digestGlobal f (sealLayer f.sha256 f.globalLayer.marshal GlobalLayerMsg.withDigest m)
      = (sealLayer f.sha256 f.globalLayer.marshal GlobalLayerMsg.withDigest m).version.digest := rfl
  unfold verifyGlobal
  rw [hdigest]
  simp

theorem verifyTenant_sealLayer (m : TenantLayerMsg)
    : verifyTenant f (sealLayer f.sha256 f.tenantLayer.marshal TenantLayerMsg.withDigest m) = .ok () := by
  have hdigest : digestTenant f (sealLayer f.sha256 f.tenantLayer.marshal TenantLayerMsg.withDigest m)
      = (sealLayer f.sha256 f.tenantLayer.marshal TenantLayerMsg.withDigest m).version.digest := rfl
  unfold verifyTenant
  rw [hdigest]
  simp

theorem sealed_acceptable_iff {layer : GlobalLayerMsg} {layers : List TenantLayerMsg}
    : (∃ snap digest, decodeAndVerify f (f.snapshot.marshal (sealSnapshot f layer layers))
          = .ok (snap, digest))
        ↔
      Acceptable f (sealLayer f.sha256 f.globalLayer.marshal GlobalLayerMsg.withDigest layer)
        (layers.map (sealLayer f.sha256 f.tenantLayer.marshal TenantLayerMsg.withDigest)) := by
  apply decodeAndVerify_isOk_iff f (verifyGlobal_sealLayer f layer)
  rw [forall_mem_map]
  intro m _
  exact verifyTenant_sealLayer f m

theorem buildSnapshot_eq_ok {ed25519 : Str → Str → Str → Bool} {fleet : Fleet} {tenants : List Tenant}
    {builtAt : Int} {trust : Option TrustStore} {msg : SnapshotMsg}
    (h : buildSnapshot f ed25519 fleet tenants builtAt trust = .ok msg)
    : ∃ layer layers, validate f.sha256 ed25519 fleet tenants (trust.getD .empty) = .ok () ∧
        encodeFleet fleet tenants builtAt = .ok layer ∧
        tenants.mapM (encodeTenant fleet.registry builtAt) = .ok layers ∧
        msg = sealSnapshot f layer layers := by
  unfold buildSnapshot at h
  simp only [bind_eq_ok_iff] at h
  rcases h with ⟨_, hvalidate, layer, hlayer, layers, hlayers, hmsg⟩
  exact ⟨layer, layers, hvalidate, hlayer, hlayers, (ok.inj hmsg).symm⟩

end

end ModelGateway.Control
