import ModelGateway.Gateway.PipelineLemmas
import ModelGateway.Gateway.Pipeline
import ModelGateway.Policy.CacheLemmas

namespace ModelGateway.Gateway

open List

structure Check where
  snap : Snapshot
  principal : Principal
  req : Request

def Check.lookup (k : Check) : Option Policy.Lookup :=
  let raw := k.snap.policy k.principal.tenant
  if raw = [] then none else some ⟨k.principal.tenant, k.snap.globalVersion.digest, raw⟩

namespace Pipeline

variable (p : Pipeline)

def check (k : Check) (policies : Policy.Cache) : Except GoError (Principal × Request) × Policy.Cache :=
  p.applyPolicy k.snap k.principal k.req policies

def policiesAfter (checks : List Check) : Policy.Cache :=
  checks.foldl (fun policies k => (p.check k policies).2) .new

theorem check_snd (k : Check) (policies : Policy.Cache)
    : (p.check k policies).2 = k.lookup.elim policies (policies.next p.codec) := by
  unfold check applyPolicy Check.lookup
  dsimp only
  split
  . rfl
  . unfold Policy.Cache.next
    split
    . next hanswer => simp [hanswer]
    . next hanswer =>
      rw [Option.elim_some, hanswer]
      split <;> rfl

theorem check_fst_congr {k : Check} {policies policies' : Policy.Cache}
    (h : ∀ l, k.lookup = some l → policies.get p.codec l = policies'.get p.codec l)
    : (p.check k policies).1 = (p.check k policies').1 := by
  unfold check applyPolicy
  dsimp only at h ⊢
  split
  . rfl
  . next hraw =>
    have hget := h _ (if_neg hraw)
    unfold Policy.Cache.get at hget
    revert hget
    cases policies.forTenant p.codec k.principal.tenant k.snap.globalVersion.digest
      (k.snap.policy k.principal.tenant) with
    | mk answer c =>
      cases policies'.forTenant p.codec k.principal.tenant k.snap.globalVersion.digest
        (k.snap.policy k.principal.tenant) with
      | mk answer' c' =>
        intro hget
        subst hget
        cases answer with
        | error err => rfl
        | ok bundle =>
          dsimp only
          split <;> rfl

theorem policiesAfter_eq (checks : List Check)
    : p.policiesAfter checks = Policy.Cache.after p.codec (checks.filterMap Check.lookup) := by
  unfold policiesAfter Policy.Cache.after
  generalize Policy.Cache.new = policies
  induction checks generalizing policies with
  | nil => rfl
  | cons k checks ih =>
    rw [foldl_cons, ih, check_snd]
    cases h : k.lookup with
    | none => rw [filterMap_cons_none h, Option.elim_none]
    | some l => rw [filterMap_cons_some h, Option.elim_some, foldl_cons]

theorem policies_transparent_iff (checks : List Check)
    : ((∀ before k since, checks = before ++ k :: since → ∀ l, k.lookup = some l →
          (p.policiesAfter before).get p.codec l = Policy.decode p.codec l.raw)
        ↔
      Policy.Consistent p.codec (checks.filterMap Check.lookup)) ∧
      (Policy.Consistent p.codec (checks.filterMap Check.lookup) →
        ∀ before k since, checks = before ++ k :: since →
          (p.check k (p.policiesAfter before)).1 = (p.check k .new).1) := by
  have hiff : (∀ before k since, checks = before ++ k :: since → ∀ l, k.lookup = some l →
        (p.policiesAfter before).get p.codec l = Policy.decode p.codec l.raw)
      ↔ Policy.Transparent p.codec (checks.filterMap Check.lookup) := by
    constructor
    . intro h before l since hls
      rw [filterMap_eq_append_iff] at hls
      rcases hls with ⟨pre, post, hchecks, hbefore, hpost⟩
      rw [filterMap_eq_cons_iff] at hpost
      rcases hpost with ⟨skipped, k, rest, hpost, hskipped, hk, _⟩
      have hget := h (pre ++ skipped) k rest (by simp [hchecks, hpost]) l hk
      rw [policiesAfter_eq, filterMap_append, hbefore,
        filterMap_eq_nil_iff.mpr hskipped, append_nil] at hget
      exact hget
    . intro h before k since hchecks l hk
      rw [policiesAfter_eq]
      apply h _ l (since.filterMap Check.lookup)
      rw [hchecks, filterMap_append, filterMap_cons_some hk]
  refine ⟨hiff.trans ⟨Policy.Transparent.consistent, Policy.Consistent.transparent⟩, ?_⟩
  intro hconsistent before k since hchecks
  apply p.check_fst_congr
  intro l hl
  rw [hiff.mpr hconsistent.transparent before k since hchecks l hl, Policy.Cache.get_new]

end Pipeline

namespace Sample

def switching : Pipeline :=
  { pipeline with
    codec := {
      codec with
      unmarshal := fun raw => .ok ⟨[], 1, [], if raw = str "deny" then 2 else 1⟩ } }

def governedLayer (policy : Str) : TenantLayer :=
  match newTenantLayer { tenantSpec .unset .unset with policy := policy } with
  | .ok layer => layer
  | .error _ => .init (tenantSpec .unset .unset)

def governed (policy : Str) : Snapshot :=
  match compose (global outside []) [governedLayer policy] with
  | .ok snap => snap
  | .error _ => ⟨global [] [], ∅⟩

theorem governed_composed {policy : Str}
    (hlayer : newTenantLayer { tenantSpec .unset .unset with policy := policy }
      = .ok (governedLayer policy))
    (hcompose : compose (global outside []) [governedLayer policy] = .ok (governed policy))
    : (governed policy).Composed := by
  refine ⟨globalSpec outside [], _, _, rfl, ?_, hcompose⟩
  intro layer h
  rw [mem_singleton] at h
  subst h
  exact ⟨_, hlayer⟩

def governedCheck (policy : Str) : Check :=
  ⟨governed policy, principal .unset, request (str "hi")⟩

theorem stale_policy
    : (governed (str "allow")).Composed ∧ (governed (str "deny")).Composed ∧
      (governed (str "allow")).globalVersion = (governed (str "deny")).globalVersion ∧
      ((switching.check (governedCheck (str "deny"))
        (switching.policiesAfter [governedCheck (str "allow")])).1.toOption.isSome = true) ∧
      ((switching.check (governedCheck (str "deny")) .new).1.toOption = none) := by
  refine ⟨governed_composed rfl rfl, governed_composed rfl rfl, ?_, ?_, ?_⟩
  . decide +kernel
  . decide +kernel
  . decide +kernel

end Sample

end ModelGateway.Gateway
