import ModelGateway.Policy.Evaluate
import ModelGateway.Gateway.PipelineLemmas
import ModelGateway.Gateway.Pipeline

namespace ModelGateway

open Policy

def DataClass.rank : DataClass → Nat
  | .restricted => 3
  | .confidential => 2
  | .internal => 1
  | .publicData => 0
  | .unset => 0
  | .other _ => 0

def Pii.Strategy.strength : Pii.Strategy → Nat
  | .none => 0
  | .redact => 1
  | .hash => 1
  | .tokenize => 2

namespace Gateway

theorem strategyFor_mono {c c' : DataClass} (h : c.rank ≤ c'.rank) (tier : TrustTier)
    : (strategyFor c tier).strength ≤ (strategyFor c' tier).strength := by
  unfold strategyFor
  split
  . apply Nat.le_refl
  . cases c <;> cases c' <;> simp_all [DataClass.rank, Pii.Strategy.strength]

structure AtLeastAsRestricted (before after : Principal) : Prop where
  minTrustTier : before.minTrustTier ≤ after.minTrustTier
  dataClass : before.defaultClass.rank ≤ after.defaultClass.rank
  strategy : ∀ tier, (strategyFor before.defaultClass tier).strength
    ≤ (strategyFor after.defaultClass tier).strength

theorem AtLeastAsRestricted.of_le {before after : Principal}
    (htier : before.minTrustTier ≤ after.minTrustTier)
    (hclass : before.defaultClass.rank ≤ after.defaultClass.rank)
    : AtLeastAsRestricted before after :=
  ⟨htier, hclass, strategyFor_mono hclass⟩

namespace Pipeline

variable (p : Pipeline) (snap : Snapshot)

theorem stamp_atLeastAsRestricted_iff (decision : Policy.Decision) (principal : Principal)
    (req : Request)
    : AtLeastAsRestricted principal (stamp decision principal req).1
        ↔
      (decision.dataClass ≠ .unset → principal.defaultClass.rank ≤ decision.dataClass.rank) := by
  constructor
  . intro h hset
    have hclass := h.dataClass
    simp only [stamp, if_neg hset] at hclass
    exact hclass
  . intro h
    apply AtLeastAsRestricted.of_le
    . simp only [stamp]
      split
      . next hraised => apply Nat.le_of_lt hraised
      . apply Nat.le_refl
    . simp only [stamp]
      split
      . apply Nat.le_refl
      . next hset => apply h hset

theorem applyPolicy_atLeastAsRestricted_iff (principal : Principal) (req : Request)
    (policies : Policy.Cache)
    : (∀ principal' req', (p.applyPolicy snap principal req policies).1 = .ok (principal', req') →
        AtLeastAsRestricted principal principal')
        ↔
      (snap.policy principal.tenant ≠ [] → ∀ bundle rule,
        (policies.forTenant p.codec principal.tenant snap.globalVersion.digest
          (snap.policy principal.tenant)).1 = .ok bundle →
        Policy.firstMatch bundle (p.policyInput principal req) = some rule →
        rule.effect ≠ .deny → rule.dataClass ≠ .unset →
        principal.defaultClass.rank ≤ rule.dataClass.rank) := by
  constructor
  . intro h hraw bundle rule hbundle hrule hallows hset
    have hok : (p.applyPolicy snap principal req policies).1
        = .ok (stamp rule.decision principal req) := by
      rw [applyPolicy_eq_ok_iff]
      right
      refine ⟨hraw, bundle, hbundle, ?_, ?_⟩
      . rw [evaluate_eq_of_firstMatch hrule, Policy.Rule.decision_allowed]
        exact hallows
      . rw [evaluate_eq_of_firstMatch hrule]
    have hle := (stamp_atLeastAsRestricted_iff rule.decision principal req).mp (h _ _ hok)
    rw [Policy.Rule.decision_dataClass_of_ne_deny hallows] at hle
    apply hle hset
  . intro h principal' req' hok
    rcases (p.applyPolicy_eq_ok_iff snap).mp hok with
      ⟨_, hout⟩ | ⟨hraw, bundle, hbundle, hallowed, hout⟩
    . rw [Prod.mk.injEq] at hout
      rw [← hout.1]
      apply AtLeastAsRestricted.of_le (Nat.le_refl _) (Nat.le_refl _)
    . have hprincipal := congrArg Prod.fst hout
      dsimp only at hprincipal
      rw [← hprincipal, stamp_atLeastAsRestricted_iff]
      cases hrule : Policy.firstMatch bundle (p.policyInput principal req) with
      | none =>
        rw [evaluate_eq_of_firstMatch_none hrule]
        exact fun hset => absurd rfl hset
      | some rule =>
        rw [evaluate_eq_of_firstMatch hrule] at hallowed ⊢
        have hallows := Policy.Rule.decision_allowed.mp hallowed
        rw [Policy.Rule.decision_dataClass_of_ne_deny hallows]
        apply h hraw bundle rule hbundle hrule hallows

end Pipeline

namespace Sample

def publishing : Pipeline :=
  { pipeline with
    codec := {
      codec with
      unmarshal := fun _ =>
        .ok ⟨[], 1, [⟨str "publish", 1, [], [], [], [], [], 0, str "public", 0, false, []⟩], 1⟩ } }

theorem class_lowered
    : (snapshot outside (str "bundle") .restricted .unset).Composed ∧ ∃ principal' req',
        (publishing.applyPolicy (snapshot outside (str "bundle") .restricted .unset)
          (principal .restricted) (request (str "hi")) .new).1 = .ok (principal', req') ∧
        principal'.defaultClass.rank < (principal .restricted).defaultClass.rank ∧
        strategyFor (principal .restricted).defaultClass .external = .tokenize ∧
        strategyFor principal'.defaultClass .external = .none := by
  refine ⟨snapshot_composed rfl rfl rfl, principal .publicData, request (str "hi"), ?_, ?_, ?_, ?_⟩
  . decide +kernel
  . decide
  . decide
  . decide

end Sample

end Gateway

end ModelGateway
