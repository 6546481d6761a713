import ModelGateway.Core.Acceptance
import ModelGateway.Wire.Convert

namespace ModelGateway.Wire

open Except List

variable (m : Finmap fun _ : Str => Str)

theorem lookup_copyEntry (out : GoMap Str Str) (k k' : Str)
    : (copyEntry m out k').lookup k
        =
      if k = k' ∧ (m.lookup k).isSome then m.lookup k else out.lookup k := by
  unfold copyEntry
  by_cases hk : k = k'
  . subst hk
    cases hm : m.lookup k with
    | none => simp
    | some v => simp
  . cases hm : m.lookup k' with
    | none => simp [hk]
    | some v => simp [hk, AList.lookup_insert_ne hk]

theorem lookup_foldl_copyEntry (ks : List Str) (out : GoMap Str Str) (k : Str)
    : (ks.foldl (copyEntry m) out).lookup k
        =
      if k ∈ ks ∧ (m.lookup k).isSome then m.lookup k else out.lookup k := by
  induction ks generalizing out with
  | nil => simp
  | cons k' ks ih =>
    rw [foldl_cons, ih, lookup_copyEntry]
    cases m.lookup k with
    | none => simp
    | some v =>
      by_cases hk : k = k'
      . simp [hk]
      . simp [hk]

@[simp]
theorem lookup_decodeMap (k : Str) : (decodeMap m).lookup k = m.lookup k := by
  unfold decodeMap
  rw [lookup_foldl_copyEntry]
  cases hm : m.lookup k with
  | none => simp
  | some v =>
    have hmem : k ∈ m := by
      rw [← Finmap.lookup_isSome, hm]
      rfl
    simp [Finmap.mem_keys.mpr hmem]

theorem mem_of_lookup_decodeKeys {keys : List KeyEntryMsg} {lookup keyID : Str}
    (h : (decodeKeys keys).lookup lookup = some keyID)
    : ⟨lookup, keyID⟩ ∈ keys := by
  have hfold : ∀ (ks : List KeyEntryMsg) (out : GoMap Str Str),
      (ks.foldl (fun out k => if k.lookup.length ≠ 32 then out else out.insert k.lookup k.keyID)
        out).lookup lookup = some keyID → ⟨lookup, keyID⟩ ∈ ks ∨ out.lookup lookup = some keyID := by
    intro ks
    induction ks with
    | nil => simp
    | cons k ks ih =>
      intro out hks
      rw [foldl_cons] at hks
      rcases ih _ hks with hmem | hout
      . exact .inl (mem_cons_of_mem _ hmem)
      . split at hout
        . exact .inr hout
        . by_cases hk : lookup = k.lookup
          . subst hk
            rw [AList.lookup_insert, Option.some.injEq] at hout
            subst hout
            exact .inl mem_cons_self
          . rw [AList.lookup_insert_ne hk] at hout
            exact .inr hout
  rcases hfold keys ∅ h with hmem | hnone
  . exact hmem
  . simp at hnone

variable (f : Format)

structure Acceptable (g : GlobalLayerMsg) (tenants : List TenantLayerMsg) : Prop where
  globalLayer : (decodeGlobal f g).Coherent
  layers : ∀ t ∈ tenants, (decodeTenant f t).Coherent
  ids_nodup : (tenants.map (·.tenant)).Nodup
  routed : ∀ t ∈ tenants, ∃ pre, g.tenantPrefixes.lookup pre = some t.tenant

theorem routed_of_decodeGlobal {g : GlobalLayerMsg} {global : GlobalLayer}
    (h : newGlobalLayer (decodeGlobal f g) = .ok global) (tenant : Str)
    : global.routed tenant ↔ ∃ pre, g.tenantPrefixes.lookup pre = some tenant := by
  rw [GlobalLayer.routed_iff, newGlobalLayer_tenantByPrefix h]
  simp only [decodeGlobal, lookup_decodeMap]

theorem decodeSnapshot_isOk_iff (g : GlobalLayerMsg) (tenants : List TenantLayerMsg)
    : (∃ s, decodeSnapshot f ⟨some g, tenants⟩ = .ok s) ↔ Acceptable f g tenants := by
  have hids : ∀ layers : List TenantLayer,
      (tenants.mapM fun t => newTenantLayer (decodeTenant f t)) = .ok layers →
      tenants.map (·.tenant) = layers.map (·.tenant) := by
    intro layers hlayers
    rw [mapM_eq_ok_iff_forall₂] at hlayers
    apply List.Forall₂.map_eq_map
    apply hlayers.imp
    intro t layer hlayer
    exact (newTenantLayer_eq_ok hlayer).2.1.symm
  have hrouted : ∀ (global : GlobalLayer) (layers : List TenantLayer),
      newGlobalLayer (decodeGlobal f g) = .ok global →
      tenants.map (·.tenant) = layers.map TenantLayer.tenant →
      ((∀ layer ∈ layers, global.routed layer.tenant) ↔
        ∀ t ∈ tenants, ∃ pre, g.tenantPrefixes.lookup pre = some t.tenant) := by
    intro global layers hglobal heq
    simp only [routed_of_decodeGlobal f hglobal]
    rw [← forall_mem_map (f := TenantLayer.tenant)
      (P := fun id => ∃ pre, g.tenantPrefixes.lookup pre = some id), ← heq, forall_mem_map]
  unfold decodeSnapshot
  simp only [bind_eq_ok_iff]
  constructor
  . rintro ⟨s, global, hglobal, layers, hlayers, hcompose⟩
    have hcomposed := (compose_isOk_iff global).mp ⟨s, hcompose⟩
    refine ⟨(newGlobalLayer_isOk_iff _).mp ⟨global, hglobal⟩, ?_, ?_, ?_⟩
    . intro t ht
      rw [← newTenantLayer_isOk_iff]
      exact (mapM_isOk_iff _ _).mp ⟨layers, hlayers⟩ t ht
    . rw [hids layers hlayers]
      exact hcomposed.1
    . rw [← hrouted global layers hglobal (hids layers hlayers)]
      exact hcomposed.2
  . rintro ⟨hglobal, hlayers, hnodup, hroute⟩
    rcases (newGlobalLayer_isOk_iff _).mpr hglobal with ⟨global, hglobal⟩
    simp only [← newTenantLayer_isOk_iff] at hlayers
    rcases (mapM_isOk_iff _ _).mpr hlayers with ⟨layers, hlayers⟩
    have heq := hids layers hlayers
    rcases (compose_isOk_iff global).mpr
      ⟨heq ▸ hnodup, (hrouted global layers hglobal heq).mpr hroute⟩ with ⟨s, hs⟩
    exact ⟨s, global, hglobal, layers, hlayers, hs⟩

theorem decodeAndVerify_eq_ok_iff (b : Str) (snap : Snapshot) (digest : Str)
    : decodeAndVerify f b = .ok (snap, digest)
        ↔
      ∃ msg, f.snapshot.unmarshal b = .ok msg ∧ msg.globalLayer.forM (verifyGlobal f) = .ok () ∧
        (∀ t ∈ msg.tenants, verifyTenant f t = .ok ()) ∧ decodeSnapshot f msg = .ok snap ∧
        digest = (msg.globalLayer.map (·.version.digest)).getD [] := by
  have hunmarshal : ∀ msg, unmarshalSnapshot f b = .ok msg ↔ f.snapshot.unmarshal b = .ok msg := by
    intro msg
    unfold unmarshalSnapshot
    cases f.snapshot.unmarshal b with
    | error err => simp
    | ok m => simp
  unfold decodeAndVerify
  simp only [bind_eq_ok_iff, hunmarshal, pure, Except.pure, ok.injEq, Prod.mk.injEq]
  constructor
  . rintro ⟨msg, hmsg, _, hglobal, _, htenants, _, hsnap, rfl, rfl⟩
    exact ⟨msg, hmsg, hglobal, (forM_eq_ok_iff _ _).mp htenants, hsnap, rfl⟩
  . rintro ⟨msg, hmsg, hglobal, htenants, hsnap, rfl⟩
    exact ⟨msg, hmsg, (), hglobal, (), (forM_eq_ok_iff _ _).mpr htenants, snap, hsnap, rfl, rfl⟩

theorem decodeAndVerify_isOk_iff {g : GlobalLayerMsg} {tenants : List TenantLayerMsg}
    (hg : verifyGlobal f g = .ok ()) (htenants : ∀ t ∈ tenants, verifyTenant f t = .ok ())
    : (∃ snap digest, decodeAndVerify f (f.snapshot.marshal ⟨some g, tenants⟩) = .ok (snap, digest))
        ↔
      Acceptable f g tenants := by
  rw [← decodeSnapshot_isOk_iff]
  simp only [decodeAndVerify_eq_ok_iff, f.snapshot.unmarshal_marshal, ok.injEq]
  constructor
  . rintro ⟨snap, _, msg, rfl, _, _, hsnap, _⟩
    exact ⟨snap, hsnap⟩
  . rintro ⟨snap, hsnap⟩
    exact ⟨snap, _, _, rfl, hg, htenants, hsnap, rfl⟩

end ModelGateway.Wire
