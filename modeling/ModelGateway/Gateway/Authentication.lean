import ModelGateway.Core.Acceptance
import ModelGateway.Gateway.Pipeline

namespace ModelGateway.Gateway.Pipeline

variable (p : Pipeline) {snap : Snapshot}

theorem authenticate_eq_ok_iff_lookups (now : Int) (req : Request) (principal : Principal)
    : p.authenticate snap now req = .ok principal
        ↔
      ∃ pre secret tenant, parseAPIKey req.apiKey = .ok (pre, secret) ∧
        snap.tenantForPrefix pre = some tenant ∧
        snap.principal tenant (p.hmac p.pepper secret) = some principal ∧
        principal.validate now = .ok () := by
  unfold authenticate
  constructor
  . intro h
    split at h
    . simp at h
    . next pre secret hparse =>
      split at h
      . simp at h
      . next tenant htenant =>
        split at h
        . simp at h
        . next found hfound =>
          split at h
          . simp at h
          . next hvalid =>
            rw [Except.ok.injEq] at h
            subst h
            exact ⟨pre, secret, tenant, hparse, htenant, hfound, hvalid⟩
  . rintro ⟨pre, secret, tenant, hparse, htenant, hfound, hvalid⟩
    simp only [hparse, htenant, hfound, hvalid]

theorem principal_eq_some_iff (tenant lookup : Str) (principal : Principal)
    : snap.principal tenant lookup = some principal
        ↔
      ∃ layer keyID, snap.tenants.lookup tenant = some layer ∧
        layer.keys.lookup lookup = some keyID ∧
        layer.principals.lookup keyID = some principal := by
  unfold Snapshot.principal
  constructor
  . intro h
    split at h
    . simp at h
    . next layer hlayer =>
      split at h
      . simp at h
      . next keyID hkeyID => exact ⟨layer, keyID, hlayer, hkeyID, h⟩
  . rintro ⟨layer, keyID, hlayer, hkeyID, h⟩
    simp only [hlayer, hkeyID, h]

theorem authenticate_eq_ok_iff (global : GlobalLayer) (tenants : List TenantLayer)
    (htenants : ∀ layer ∈ tenants, ∃ spec, newTenantLayer spec = .ok layer)
    (hcompose : compose global tenants = .ok snap)
    (now : Int) (req : Request) (principal : Principal)
    : p.authenticate snap now req = .ok principal ↔ ∃ pre secret layer,
        req.apiKey = str "gw_" ++ pre ++ str "_" ++ secret ∧
        pre ≠ [] ∧ secret ≠ [] ∧ underscore ∉ pre ∧
        global.tenantByPrefix.lookup pre = some principal.tenant ∧
        snap.tenants.lookup principal.tenant = some layer ∧
        layer ∈ tenants ∧ layer.tenant = principal.tenant ∧
        layer.keys.lookup (p.hmac p.pepper secret) = some principal.keyID ∧
        layer.principals.lookup principal.keyID = some principal ∧
        (principal.notAfter = 0 ∨ now ≤ principal.notAfter) := by
  rcases compose_eq_ok hcompose with ⟨hsnap, hlayers⟩
  have hshape : ∀ pre secret : Str,
      str "gw_" ++ pre ++ str "_" ++ secret = scheme ++ pre ++ underscore :: secret := by
    intro pre secret
    rw [List.append_assoc]
    rfl
  simp only [authenticate_eq_ok_iff_lookups, parseAPIKey_eq_ok_iff, principal_eq_some_iff,
    Principal.validate_eq_ok_iff, Snapshot.tenantForPrefix, hsnap, hshape]
  constructor
  . rintro ⟨pre, secret, tenant, ⟨hkey, hpre, hsecret, hunderscore⟩, hassigned,
      ⟨layer, keyID, hlayer, hkeyID, hprincipal⟩, hvalid⟩
    rcases hlayers tenant layer hlayer with ⟨hmem, htenant, _⟩
    rcases htenants layer hmem with ⟨spec, hspec⟩
    have hwf := (newTenantLayer_eq_ok hspec).1
    -- what ties the principal to the tenant is the check made when its layer was built
    have howner : principal.tenant = tenant := by
      rw [hwf.principal_tenant keyID principal hprincipal, htenant]
    have hid : principal.keyID = keyID := hwf.principal_keyID keyID principal hprincipal
    subst howner
    subst hid
    exact ⟨pre, secret, layer, hkey, hpre, hsecret, hunderscore, hassigned, hlayer, hmem, htenant,
      hkeyID, hprincipal, hvalid⟩
  . rintro ⟨pre, secret, layer, hkey, hpre, hsecret, hunderscore, hassigned, hlayer, _, _, hkeyID,
      hprincipal, hvalid⟩
    exact ⟨pre, secret, principal.tenant, ⟨hkey, hpre, hsecret, hunderscore⟩, hassigned,
      ⟨layer, principal.keyID, hlayer, hkeyID, hprincipal⟩, hvalid⟩

open Sample in
theorem authenticate_eq_ok_iff_sample
    : pipeline.authenticate (snapshot [] [] .restricted .unset) 0 (request [])
        =
      .ok (principal .restricted) := by
  have htenants : ∀ t ∈ [layer .restricted .unset], ∃ spec, newTenantLayer spec = .ok t := by
    intro t ht
    rw [List.mem_singleton] at ht
    exact ⟨tenantSpec .restricted .unset, by rw [ht]; rfl⟩
  apply (authenticate_eq_ok_iff pipeline (global [] []) [layer .restricted .unset] htenants rfl 0
    (request []) (principal .restricted)).mpr
  exact ⟨str "ac", str "secret", layer .restricted .unset, by decide, by decide, by decide,
    by decide, rfl, rfl, List.mem_singleton_self _, rfl, rfl, rfl, .inl rfl⟩

end ModelGateway.Gateway.Pipeline
