import ModelGateway.Core.Coherence
import ModelGateway.Control.PolicyCompile
import ModelGateway.Wire.Acceptance

namespace ModelGateway

open Except
open List hiding format

def TrustTier.AdmitsMore (floor : TrustTier) : Prop :=
  ∃ tier : TrustTier, tier.atLeast floor ∧ ¬ tier.atLeast .internal

def Policy.PolicyRuleMsg.Faulty (r : PolicyRuleMsg) : Prop :=
  decodeEffect r.effect = .unset ∨ ∃ cidr ∈ r.sourceCidrs, ∀ net, Netip.parsePrefix cidr ≠ .ok net

namespace Wire

open Policy (PolicyBundleMsg PolicyRuleMsg)
open Control (decodeTrustTier decodeDeployment codec)

/-- The values that the enum of the wire has names for. -/
abbrev Recognised (tier : Nat) : Prop :=
  tier ≤ 3

namespace SnapshotMsg

def deployments (msg : SnapshotMsg) : List Control.DeploymentMsg :=
  msg.globalLayer.toList.flatMap (·.deployments)

def policies (msg : SnapshotMsg) : List PolicyBundleMsg :=
  msg.globalLayer.toList.filterMap (·.defaultPolicy) ++ msg.tenants.filterMap (·.policy)

def trustTiers (msg : SnapshotMsg) : List Nat :=
  msg.deployments.map (·.trustTier) ++ msg.tenants.map (·.minTrustTier)
    ++ msg.tenants.flatMap (·.principals.map (·.minTrustTier))
    ++ msg.policies.flatMap (·.rules.map (·.minTrustTier))

end SnapshotMsg

variable (f : Format)

def Rejected (msg : SnapshotMsg) : Prop :=
  (∀ s, decodeSnapshot f msg ≠ .ok s) ∨
    ∃ b ∈ msg.policies, ∀ bundle, Policy.decode (codec f) (marshalPolicy f (some b)) ≠ .ok bundle

/-- No floor of a tier that nobody recognised is weaker than the one of internal destinations. -/
structure FloorsHold (msg : SnapshotMsg) (s : Snapshot) : Prop where
  layers : ∀ t ∈ msg.tenants, ¬ Recognised t.minTrustTier →
    ¬ TrustTier.AdmitsMore (s.minTrustTier t.tenant)
  principals : ∀ t ∈ msg.tenants, ∀ p ∈ t.principals, ¬ Recognised p.minTrustTier →
    ¬ TrustTier.AdmitsMore (decodePrincipal p).minTrustTier
  rules : ∀ b ∈ msg.policies, ∀ bundle,
    Policy.decode (codec f) (marshalPolicy f (some b)) = .ok bundle →
    ∀ r ∈ b.rules, ¬ Recognised r.minTrustTier →
    ∀ rule, Policy.decodeRule (codec f) r = .ok rule → ¬ TrustTier.AdmitsMore rule.minTrustTier

structure FloorsRecognised (msg : SnapshotMsg) : Prop where
  layers : ∀ t ∈ msg.tenants, Recognised t.minTrustTier
  principals : ∀ t ∈ msg.tenants, ∀ p ∈ t.principals, Recognised p.minTrustTier
  rules : ∀ b ∈ msg.policies, (∃ r ∈ b.rules, r.Faulty) ∨ ∀ r ∈ b.rules, Recognised r.minTrustTier

theorem decodeTrustTier_of_not_recognised {tier : Nat} (h : ¬ Recognised tier)
    : decodeTrustTier tier = .unset := by
  match tier with
  | 0 | 1 | 2 | 3 => omega
  | n + 4 => rfl

theorem decodeTier_of_not_recognised {tier : Nat} (h : ¬ Recognised tier)
    : Policy.decodeTier tier = .unset := by
  match tier with
  | 0 | 1 | 2 | 3 => omega
  | n + 4 => rfl

theorem admitsMore_unset : TrustTier.AdmitsMore .unset := by
  exists .external

theorem decodeRule_isOk_iff (r : PolicyRuleMsg)
    : (∃ rule, Policy.decodeRule (codec f) r = .ok rule) ↔ ¬ r.Faulty := by
  unfold Policy.decodeRule Policy.PolicyRuleMsg.Faulty
  simp only [ite_error_eq_ok_iff, bind_eq_ok_iff, exists_and_left, not_or]
  refine and_congr_right fun _ => ?_
  have hnets : (∃ nets, Policy.decodeNets (codec f) r.id r.sourceCidrs = .ok nets)
      ↔ ∀ cidr ∈ r.sourceCidrs, ∃ net, Netip.parsePrefix cidr = .ok net := by
    simp only [Control.decodeNets_eq_ok_iff, ← List.mapM_isOk_iff, List.mapM_eq_ok_iff_forall₂]
    rfl
  push Not
  rw [← hnets]
  constructor
  . rintro ⟨_, nets, h, _⟩
    exact ⟨nets, h⟩
  . rintro ⟨nets, h⟩
    exact ⟨_, nets, h, rfl⟩

variable {f} in
theorem decodeRule_minTrustTier {r : PolicyRuleMsg} {rule : Policy.Rule}
    (h : Policy.decodeRule (codec f) r = .ok rule)
    : rule.minTrustTier = Policy.decodeTier r.minTrustTier := by
  unfold Policy.decodeRule at h
  rw [ite_error_eq_ok_iff, bind_eq_ok_iff] at h
  rcases h with ⟨_, nets, _, h⟩
  rw [← ok.inj h]

theorem marshalPolicy_eq_nil_iff (b : PolicyBundleMsg)
    : marshalPolicy f (some b) = [] ↔ b.rules = [] ∧ b.id = [] := by
  unfold marshalPolicy
  dsimp only
  split
  . next hbare => simp [hbare]
  . next hcontent =>
    refine iff_of_false ?_ hcontent
    intro hnil
    have hb := f.policy.unmarshal_marshal b
    rw [hnil, f.policy_nil, ok.injEq] at hb
    apply hcontent
    simp [← hb]

theorem decode_marshalPolicy_isOk_iff (b : PolicyBundleMsg)
    : (∃ bundle, Policy.decode (codec f) (marshalPolicy f (some b)) = .ok bundle)
        ↔
      ∀ r ∈ b.rules, ¬ r.Faulty := by
  have hnil := marshalPolicy_eq_nil_iff f b
  unfold marshalPolicy at hnil ⊢
  dsimp only at hnil ⊢
  split
  . next hempty =>
    rw [hempty.1]
    simp [Policy.decode]
  . next hcontent =>
    have hne : f.policy.marshal b ≠ [] := by
      rw [if_neg hcontent] at hnil
      exact fun h => hcontent (hnil.mp h)
    have hunmarshal : (codec f).unmarshal (f.policy.marshal b) = .ok b :=
      f.policy.unmarshal_marshal b
    unfold Policy.decode
    rw [if_neg hne, hunmarshal]
    simp only [← decodeRule_isOk_iff f, ← List.mapM_isOk_iff, bind_eq_ok_iff]
    constructor
    . rintro ⟨_, rules, h, _⟩
      exact ⟨rules, h⟩
    . rintro ⟨rules, h⟩
      exact ⟨_, rules, h, rfl⟩

variable {msg : SnapshotMsg}

theorem decodeSnapshot_layers {s : Snapshot} (h : decodeSnapshot f msg = .ok s)
    : (∃ g, msg.globalLayer = some g ∧ s.global = (decodeGlobal f g).layer) ∧
      (∀ t ∈ msg.tenants, s.tenants.lookup t.tenant = some (decodeTenant f t).layer) ∧
      ∀ tenant layer, s.tenants.lookup tenant = some layer →
        ∃ t ∈ msg.tenants, t.tenant = tenant ∧ layer = (decodeTenant f t).layer := by
  unfold decodeSnapshot at h
  split at h
  . simp at h
  . next g hg =>
    simp only [bind_eq_ok_iff] at h
    rcases h with ⟨global, hglobal, _, hlayers, hcompose⟩
    refine ⟨⟨g, hg, ?_⟩, ?_, ?_⟩
    . rw [(compose_eq_ok hcompose).1, newGlobalLayer_eq_layer hglobal]
    . intro t ht
      rcases List.exists_mem_of_mapM_ok _ hlayers ht with ⟨layer, hmem, hlayer⟩
      rw [newTenantLayer_eq_layer hlayer] at hmem
      exact (compose_lookup_iff hcompose _ _).mpr ⟨hmem, rfl⟩
    . intro tenant layer hlookup
      rcases (compose_lookup_iff hcompose tenant layer).mp hlookup with ⟨hmem, rfl⟩
      rcases List.mem_of_mapM_ok _ hlayers hmem with ⟨t, ht, hlayer⟩
      refine ⟨t, ht, ?_, newTenantLayer_eq_layer hlayer⟩
      rw [newTenantLayer_eq_layer hlayer]
      rfl

theorem decodeSnapshot_minTrustTier {s : Snapshot} (h : decodeSnapshot f msg = .ok s)
    {t : TenantLayerMsg} (ht : t ∈ msg.tenants)
    : s.minTrustTier t.tenant = decodeTrustTier t.minTrustTier := by
  unfold Snapshot.minTrustTier
  rw [(decodeSnapshot_layers f h).2.1 t ht]
  rfl

theorem decodeSnapshot_rejects_iff (msg : SnapshotMsg)
    : (∀ s, decodeSnapshot f msg ≠ .ok s)
        ↔
      ∀ g, msg.globalLayer = some g → ¬ Acceptable f g msg.tenants := by
  rcases msg with ⟨globalLayer, tenants⟩
  cases globalLayer with
  | none => simp [decodeSnapshot]
  | some g =>
    simp only [← decodeSnapshot_isOk_iff, Option.some.injEq, forall_eq', not_exists]

theorem not_acceptable_of_deployment {d : Control.DeploymentMsg} (hd : d ∈ msg.deployments)
    (hunknown : ¬ Recognised d.trustTier)
    : ∀ g, msg.globalLayer = some g → ¬ Acceptable f g msg.tenants := by
  intro g hg hacceptable
  unfold SnapshotMsg.deployments at hd
  rw [hg] at hd
  simp only [Option.toList_some, flatMap_singleton] at hd
  have hvalid := (hacceptable.globalLayer.deployments _ (mem_map_of_mem hd)).trustTier_valid
  unfold decodeDeployment at hvalid
  rw [decodeTrustTier_of_not_recognised hunknown] at hvalid
  simp [TrustTier.valid, TrustTier.unset, TrustTier.external] at hvalid

theorem floorsHold_iff {s : Snapshot} (h : decodeSnapshot f msg = .ok s)
    : FloorsHold f msg s ↔ FloorsRecognised msg := by
  constructor
  . intro hfloors
    constructor
    . intro t ht
      by_contra hunknown
      apply hfloors.layers t ht hunknown
      rw [decodeSnapshot_minTrustTier f h ht, decodeTrustTier_of_not_recognised hunknown]
      exact admitsMore_unset
    . intro t ht p hp
      by_contra hunknown
      apply hfloors.principals t ht p hp hunknown
      unfold decodePrincipal
      rw [decodeTrustTier_of_not_recognised hunknown]
      exact admitsMore_unset
    . intro b hb
      by_cases hfaulty : ∃ r ∈ b.rules, r.Faulty
      . exact .inl hfaulty
      . push Not at hfaulty
        refine .inr fun r hr => ?_
        by_contra hunknown
        rcases (decode_marshalPolicy_isOk_iff f b).mpr hfaulty with ⟨bundle, hbundle⟩
        rcases (decodeRule_isOk_iff f r).mpr (hfaulty r hr) with ⟨rule, hrule⟩
        apply hfloors.rules b hb bundle hbundle r hr hunknown rule hrule
        rw [decodeRule_minTrustTier hrule, decodeTier_of_not_recognised hunknown]
        exact admitsMore_unset
  . intro hrecognised
    constructor
    . intro t ht hunknown
      exact absurd (hrecognised.layers t ht) hunknown
    . intro t ht p hp hunknown
      exact absurd (hrecognised.principals t ht p hp) hunknown
    . intro b hb bundle hbundle r hr hunknown
      rcases hrecognised.rules b hb with ⟨q, hq, hfaulty⟩ | hrules
      . exact absurd hfaulty ((decode_marshalPolicy_isOk_iff f b).mp ⟨bundle, hbundle⟩ q hq)
      . exact absurd (hrules r hr) hunknown

theorem unrecognised_tiers_kept_out_iff (msg : SnapshotMsg)
    : ((∃ tier ∈ msg.trustTiers, ¬ Recognised tier) → Rejected f msg) ∧
        (∀ s, decodeSnapshot f msg = .ok s → FloorsHold f msg s)
        ↔
      (∀ g, msg.globalLayer = some g → ¬ Acceptable f g msg.tenants) ∨ FloorsRecognised msg := by
  have haccepted := decodeSnapshot_rejects_iff f msg
  constructor
  . rintro ⟨-, hfloors⟩
    by_cases hrejects : ∀ s, decodeSnapshot f msg ≠ .ok s
    . exact .inl (haccepted.mp hrejects)
    . push Not at hrejects
      rcases hrejects with ⟨s, hs⟩
      exact .inr ((floorsHold_iff f hs).mp (hfloors s hs))
  . rintro (hunacceptable | hrecognised)
    . have hrejects := haccepted.mpr hunacceptable
      exact ⟨fun _ => .inl hrejects, fun s hs => absurd hs (hrejects s)⟩
    . refine ⟨?_, fun s hs => (floorsHold_iff f hs).mpr hrecognised⟩
      rintro ⟨tier, htier, hunknown⟩
      unfold SnapshotMsg.trustTiers at htier
      simp only [mem_append, mem_map, mem_flatMap] at htier
      rcases htier with ((⟨d, hd, rfl⟩ | ⟨t, ht, rfl⟩) | ⟨t, ht, p, hp, rfl⟩) | ⟨b, hb, r, hr, rfl⟩
      . exact .inl (haccepted.mpr (not_acceptable_of_deployment f hd hunknown))
      . exact absurd (hrecognised.layers t ht) hunknown
      . exact absurd (hrecognised.principals t ht p hp) hunknown
      . rcases hrecognised.rules b hb with hfaulty | hrules
        . refine .inr ⟨b, hb, ?_⟩
          rw [← not_exists, decode_marshalPolicy_isOk_iff]
          push Not
          exact hfaulty
        . exact absurd (hrules r hr) hunknown

namespace Sample

def globalMsg : GlobalLayerMsg :=
  ⟨⟨1, []⟩, 0, [], [], Finmap.singleton (str "ac") (str "acme"), [], [], [], none⟩

def newTier : Nat := 4

def newRule : PolicyRuleMsg :=
  ⟨str "residency", 1, [], [], [], [], [], 0, [], newTier, false, []⟩

def newPrincipal : PrincipalMsg :=
  ⟨str "k1", str "acme", [], [], [], [], [], true, [], [], [], newTier, 0, false, 0, none⟩

def newTenant : TenantLayerMsg :=
  ⟨str "acme", ⟨1, []⟩, 0, str "gold", [newPrincipal], [], [], [], [], newTier, [],
    some ⟨str "b", 1, [newRule], 1⟩⟩

theorem acceptable_newTenant (f : Format) (policy : Option PolicyBundleMsg)
    : Acceptable f globalMsg [{ newTenant with policy := policy }] := by
  constructor
  . constructor <;> simp [globalMsg, decodeGlobal]
  . intro t ht
    rw [mem_singleton.mp ht]
    constructor
    . change str "acme" ≠ []
      decide
    . simp [newTenant, decodeTenant]
    . simp [newTenant, decodeTenant]
    . intro p hp
      rw [mem_singleton.mp hp]
      exact ⟨by decide, rfl, by simp [decodePrincipal, newPrincipal]⟩
    . simp [newTenant, decodeTenant, decodeKeys]
    . simp [newTenant, decodeTenant]
    . simp [newTenant, decodeTenant]
  . simp
  . intro t ht
    rw [mem_singleton.mp ht]
    exact ⟨str "ac", Finmap.lookup_singleton_eq⟩

end Sample

open Sample in
theorem unrecognised_floors_dropped
    : (∃ s, decodeSnapshot format ⟨some globalMsg, [newTenant]⟩ = .ok s ∧
        ¬ Recognised newTenant.minTrustTier ∧ TrustTier.AdmitsMore (s.minTrustTier (str "acme"))) ∧
      (¬ Recognised newPrincipal.minTrustTier ∧
        TrustTier.AdmitsMore (decodePrincipal newPrincipal).minTrustTier) ∧
      (∃ bundle, Policy.decode (codec format) (marshalPolicy format newTenant.policy) = .ok bundle) ∧
      ∃ rule, Policy.decodeRule (codec format) newRule = .ok rule ∧
        ¬ Recognised newRule.minTrustTier ∧ TrustTier.AdmitsMore rule.minTrustTier := by
  have hnew : ¬ Recognised newTenant.minTrustTier := by decide
  refine ⟨?_, ⟨hnew, admitsMore_unset⟩, ?_, _, rfl, hnew, admitsMore_unset⟩
  . rcases (decodeSnapshot_isOk_iff format _ _).mpr (acceptable_newTenant format newTenant.policy) with ⟨s, hs⟩
    refine ⟨s, hs, hnew, ?_⟩
    have hfloor := decodeSnapshot_minTrustTier format hs (mem_singleton_self newTenant)
    change TrustTier.AdmitsMore (s.minTrustTier newTenant.tenant)
    rw [hfloor]
    exact admitsMore_unset
  . refine (decode_marshalPolicy_isOk_iff format _).mpr ?_
    intro r hr
    rw [mem_singleton.mp hr]
    simp [Policy.PolicyRuleMsg.Faulty, newRule, Policy.decodeEffect]

end Wire

end ModelGateway
