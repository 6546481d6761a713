import ModelGateway.Wire.Codec

namespace ModelGateway.Wire

open Function

structure Layer (β : Type) where
  version : Option LayerVersion
  fields : β

namespace Layer

variable {β : Type} (marshal : Layer β → Str) (sha256 : Str → Str)

def clearDigest (m : Layer β) : Layer β :=
  { m with version := m.version.map fun v => ⟨v.number, []⟩ }

def digest (m : Layer β) : Str :=
  digestPrefix ++ Pii.hexEncode (sha256 (marshal m.clearDigest))

def ensureVersion (m : Layer β) : LayerVersion :=
  m.version.getD ⟨0, []⟩

def sealLayer (m : Layer β) : Layer β :=
  { m with version := some ⟨m.ensureVersion.number, m.digest marshal sha256⟩ }

def verify (mismatch : Str → Str → Str) (m : Layer β) : Except GoError Unit :=
  let want := m.ensureVersion.digest
  if want = [] then
    .ok ()
  else if m.digest marshal sha256 ≠ want then
    .error (.invalid (mismatch (m.digest marshal sha256) want))
  else
    .ok ()

variable {marshal sha256} {mismatch : Str → Str → Str} {m m' : Layer β}

theorem verify_eq_ok_iff
    : m.verify marshal sha256 mismatch = .ok ()
        ↔
      m.ensureVersion.digest = [] ∨ m.digest marshal sha256 = m.ensureVersion.digest := by
  unfold verify
  by_cases hwant : m.ensureVersion.digest = []
  . simp [hwant]
  . simp [hwant]

theorem digest_inj (hmarshal : Injective marshal) (hsha256 : Injective sha256)
    : m.digest marshal sha256 = m'.digest marshal sha256 ↔ m.clearDigest = m'.clearDigest := by
  constructor
  . intro h
    exact hmarshal (hsha256 (Pii.hexEncode_injective (List.append_cancel_left h)))
  . intro h
    unfold digest
    rw [h]

theorem digest_ne_nil (m : Layer β) : m.digest marshal sha256 ≠ [] :=
  List.append_ne_nil_of_left_ne_nil (by decide) _

theorem verify_seal_iff (hmarshal : Injective marshal) (hsha256 : Injective sha256)
    : (m.sealLayer marshal sha256).verify marshal sha256 mismatch = .ok () ↔ m.version.isSome := by
  rw [verify_eq_ok_iff]
  refine (or_iff_right (digest_ne_nil m)).trans ((digest_inj hmarshal hsha256).trans ?_)
  rcases m with ⟨_ | v, _⟩
  . simp [sealLayer, clearDigest]
  . simp [sealLayer, clearDigest, ensureVersion]

theorem sealed_iff (hmarshal : Injective marshal) (hsha256 : Injective sha256)
    (mismatch : Str → Str → Str) (m : Layer β)
    : ((m.sealLayer marshal sha256).verify marshal sha256 mismatch = .ok () ∧
        (m.sealLayer marshal sha256).sealLayer marshal sha256 = m.sealLayer marshal sha256 ∧
        ∀ m' : Layer β, m'.ensureVersion.digest = (m.sealLayer marshal sha256).ensureVersion.digest →
          m' ≠ m.sealLayer marshal sha256 → m'.verify marshal sha256 mismatch ≠ .ok ())
        ↔
      m.version.isSome := by
  rw [verify_seal_iff hmarshal hsha256]
  refine and_iff_left_of_imp fun hversion => ?_
  rcases m with ⟨_ | v, fields⟩
  . simp at hversion
  . refine ⟨rfl, ?_⟩
    rintro ⟨_ | v', _⟩ hkeeps hne hverify
    . exact digest_ne_nil _ hkeeps.symm
    . change v'.digest = digest marshal sha256 ⟨some v, fields⟩ at hkeeps
      rw [verify_eq_ok_iff] at hverify
      change v'.digest = [] ∨ _ = v'.digest at hverify
      rw [hkeeps, or_iff_right (digest_ne_nil _)] at hverify
      have hclear := (digest_inj hmarshal hsha256).mp hverify
      simp only [clearDigest, Option.map_some, mk.injEq, Option.some.injEq, LayerVersion.mk.injEq,
        and_true] at hclear
      apply hne
      rw [hclear.2]
      unfold sealLayer
      congr 2
      cases v'
      exact congrArg₂ LayerVersion.mk hclear.1 hkeeps

end Layer

theorem verifyGlobal_eq (f : Format) (m : GlobalLayerMsg)
    : verifyGlobal f m
        =
      Layer.verify (fun l => f.globalLayer.marshal { l.fields with version := l.ensureVersion }) f.sha256
        (fun got want => str "global layer digest mismatch: computed " ++ got ++ str ", layer claims " ++ want)
        ⟨some m.version, m⟩ :=
  rfl

theorem verifyTenant_eq (f : Format) (m : TenantLayerMsg)
    : verifyTenant f m
        =
      Layer.verify (fun l => f.tenantLayer.marshal { l.fields with version := l.ensureVersion }) f.sha256
        (fun got want => str "tenant " ++ m.tenant.quote ++ str " layer digest mismatch: computed " ++ got
          ++ str ", layer claims " ++ want)
        ⟨some m.version, m⟩ :=
  rfl

namespace Sample

deriving instance DecidableEq, Encodable for Layer

def layers : Serializer (Layer Str) := serializer ⟨none, []⟩

def versioned : Layer Str := ⟨some ⟨1, []⟩, str "fields"⟩

end Sample

open Sample in
theorem sealed_versioned
    : (versioned.sealLayer layers.marshal id).verify layers.marshal id (fun _ _ => []) = .ok () ∧
      (versioned.sealLayer layers.marshal id).sealLayer layers.marshal id = versioned.sealLayer layers.marshal id ∧
      ∀ m' : Layer Str,
        m'.ensureVersion.digest = (versioned.sealLayer layers.marshal id).ensureVersion.digest →
        m' ≠ versioned.sealLayer layers.marshal id → m'.verify layers.marshal id (fun _ _ => []) ≠ .ok () :=
  (Layer.sealed_iff layers.marshal_injective injective_id (fun _ _ => []) versioned).mpr rfl

theorem unversioned_rejected
    : ∃ marshal : Layer Unit → Str, Injective marshal ∧
        ((⟨none, ()⟩ : Layer Unit).sealLayer marshal id).verify marshal id (fun _ _ => []) ≠ .ok () := by
  have hmarshal := (Sample.serializer (⟨none, ()⟩ : Layer Unit)).marshal_injective
  refine ⟨_, hmarshal, ?_⟩
  rw [ne_eq, Layer.verify_seal_iff hmarshal injective_id]
  simp

end ModelGateway.Wire
