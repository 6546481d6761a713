import ModelGateway.Wire.TrustTiers

namespace ModelGateway.Wire

open Control (codec compiledDecision)
open Policy (Decision Input PolicyBundleMsg)

variable (f : Format)

def servedDecision (s : Snapshot) (tenant : Str) (input : Input) : Except GoError Decision := do
  let compiled ← Policy.decode (codec f) (s.policy tenant)
  return Policy.evaluate compiled input

abbrev Bare (b : PolicyBundleMsg) : Prop :=
  b.rules = [] ∧ b.id = []

def byDefault (effect : Policy.Effect) : Decision :=
  ⟨decide (effect ≠ .deny), [], [], .unset, .unset, false⟩

def globalDecision (default : Option PolicyBundleMsg) (input : Input) : Except GoError Decision :=
  match default with
  | none => .ok (byDefault .unset)
  | some b => if Bare b then .ok (byDefault .unset) else compiledDecision f b input

theorem compiledDecision_of_bare {b : PolicyBundleMsg} (hbare : Bare b) (input : Input)
    : compiledDecision f b input = .ok (byDefault (Policy.decodeEffect b.defaultEffect)) := by
  rcases b with ⟨id, version, _, defaultEffect⟩
  rcases hbare with ⟨rfl, rfl⟩
  have hunmarshal := f.policy.unmarshal_marshal ⟨[], version, [], defaultEffect⟩
  unfold compiledDecision Policy.decode
  split
  . next hnil =>
    rw [hnil, f.policy_nil, Except.ok.injEq, Policy.PolicyBundleMsg.mk.injEq] at hunmarshal
    rw [← hunmarshal.2.2.2]
    rfl
  . rw [show (codec f).unmarshal = f.policy.unmarshal from rfl, hunmarshal]
    rfl

variable {msg : SnapshotMsg} {s : Snapshot}

variable {g : GlobalLayerMsg}

variable (hglobal : s.global = (decodeGlobal f g).layer)

include hglobal

theorem servedDecision_of_global
    {tenant : Str} (hpolicy : s.policy tenant = s.global.policy) (input : Input)
    : servedDecision f s tenant input = globalDecision f g.defaultPolicy input := by
  have hraw : s.policy tenant = marshalPolicy f g.defaultPolicy := by
    rw [hpolicy, hglobal]
    rfl
  unfold servedDecision globalDecision
  rw [hraw]
  cases g.defaultPolicy with
  | none => rfl
  | some b =>
    unfold marshalPolicy
    dsimp only
    split
    . rfl
    . rfl

theorem servedDecision_of_tenant
    {t : TenantLayerMsg} (hlookup : s.tenants.lookup t.tenant = some (decodeTenant f t).layer)
    {b : PolicyBundleMsg} (hb : t.policy = some b) (input : Input)
    : servedDecision f s t.tenant input
        =
      if Bare b then globalDecision f g.defaultPolicy input else compiledDecision f b input := by
  have hown : s.policy t.tenant
      = if Bare b then s.global.policy else marshalPolicy f (some b) := by
    unfold Snapshot.policy
    rw [hlookup, ← if_congr (marshalPolicy_eq_nil_iff f b) rfl rfl, ← hb]
    rfl
  by_cases hbare : Bare b
  . rw [if_pos hbare] at hown ⊢
    apply servedDecision_of_global f hglobal hown
  . rw [if_neg hbare] at hown ⊢
    unfold servedDecision compiledDecision
    rw [hown, marshalPolicy, if_neg hbare]

omit hglobal

theorem servedDecision_eq_iff (hg : msg.globalLayer = some g)
    (h : decodeSnapshot f msg = .ok s) (input : Input)
    : (∀ b, g.defaultPolicy = some b →
        ∀ tenant, (∀ t ∈ msg.tenants, t.tenant = tenant → t.policy = none) →
          (servedDecision f s tenant input = compiledDecision f b input
            ↔
          (Bare b → Policy.decodeEffect b.defaultEffect ≠ .deny))) ∧
      (∀ t ∈ msg.tenants, ∀ b, t.policy = some b →
        (servedDecision f s t.tenant input = compiledDecision f b input ↔ (Bare b →
          globalDecision f g.defaultPolicy input
            =
          .ok (byDefault (Policy.decodeEffect b.defaultEffect))))) := by
  rcases decodeSnapshot_layers f h with ⟨⟨g', hg', hglobal⟩, hlookup, hlayers⟩
  rw [hg, Option.some.injEq] at hg'
  subst hg'
  constructor
  . intro b hb tenant hnone
    have hpolicy : s.policy tenant = s.global.policy := by
      unfold Snapshot.policy
      split
      . next layer hlayer =>
        rcases hlayers tenant layer hlayer with ⟨t, ht, htenant, rfl⟩
        have hraw : (decodeTenant f t).layer.policy = marshalPolicy f t.policy := rfl
        rw [hraw, hnone t ht htenant]
        rfl
      . rfl
    rw [servedDecision_of_global f hglobal hpolicy, hb]
    by_cases hbare : Bare b
    . rw [compiledDecision_of_bare f hbare, globalDecision, if_pos hbare]
      simp [hbare, byDefault]
    . rw [globalDecision, if_neg hbare]
      simp [hbare]
  . intro t ht b hb
    rw [servedDecision_of_tenant f hglobal (hlookup t ht) hb]
    by_cases hbare : Bare b
    . rw [compiledDecision_of_bare f hbare]
      simp [hbare]
    . simp [hbare]

namespace Sample

def denying : TenantLayerMsg :=
  { newTenant with policy := some ⟨[], 1, [], 2⟩ }

end Sample

open Sample

theorem servedDecision_eq_ruled
    : (∃ s, decodeSnapshot format ⟨some globalMsg, [newTenant]⟩ = .ok s ∧
        servedDecision format s newTenant.tenant ⟨[], .embeddings, [], [], none, 0⟩
          =
        compiledDecision format ⟨str "b", 1, [newRule], 1⟩ ⟨[], .embeddings, [], [], none, 0⟩) ∧
      ∃ s, decodeSnapshot format ⟨some globalMsg, [denying]⟩ = .ok s ∧
        (servedDecision format s denying.tenant ⟨[], .embeddings, [], [], none, 0⟩
            =
          compiledDecision format ⟨[], 1, [], 2⟩ ⟨[], .embeddings, [], [], none, 0⟩
          ↔
        (Bare ⟨[], 1, [], 2⟩ →
          globalDecision format globalMsg.defaultPolicy ⟨[], .embeddings, [], [], none, 0⟩
            =
          .ok (byDefault .deny))) := by
  constructor
  . rcases (decodeSnapshot_isOk_iff format _ _).mpr (acceptable_newTenant format newTenant.policy) with
      ⟨s, hs⟩
    refine ⟨s, hs, ?_⟩
    apply ((servedDecision_eq_iff format rfl hs _).2 newTenant (List.mem_singleton_self _) _ rfl).mpr
    intro hbare
    simp [Bare, newRule] at hbare
  . rcases (decodeSnapshot_isOk_iff format _ _).mpr (acceptable_newTenant format denying.policy) with
      ⟨s, hs⟩
    exact ⟨s, hs, (servedDecision_eq_iff format rfl hs _).2 denying (List.mem_singleton_self _) _ rfl⟩

theorem deny_default_dropped
    : ∃ s, decodeSnapshot format ⟨some globalMsg, [denying]⟩ = .ok s ∧
        compiledDecision format ⟨[], 1, [], 2⟩ ⟨[], .embeddings, [], [], none, 0⟩
          =
        .ok ⟨false, [], [], .unset, .unset, false⟩ ∧
        servedDecision format s denying.tenant ⟨[], .embeddings, [], [], none, 0⟩
          =
        .ok ⟨true, [], [], .unset, .unset, false⟩ := by
  rcases (decodeSnapshot_isOk_iff format _ _).mpr (acceptable_newTenant format denying.policy) with
    ⟨s, hs⟩
  rcases decodeSnapshot_layers format hs with ⟨⟨g, hg, hglobal⟩, hlookup, _⟩
  rw [← Option.some.inj hg] at hglobal
  refine ⟨s, hs, compiledDecision_of_bare format ⟨rfl, rfl⟩ _, ?_⟩
  rw [servedDecision_of_tenant format hglobal (hlookup denying (List.mem_singleton_self _)) rfl]
  rfl

end ModelGateway.Wire
