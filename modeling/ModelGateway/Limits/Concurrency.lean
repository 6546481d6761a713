import ModelGateway.Core.Basic
import ModelGateway.Lib.Totals
import ModelGateway.Lib.TransitionSystem

/-!
This module contains the concurrency slots of a principal, taken and freed by requests that interleave.
-/

namespace ModelGateway

open List
open Option (getD_some some)

def RateLimit.unlimited (r : RateLimit) : Bool :=
  r.requestsPerMinute = 0 && r.tokensPerMinute = 0 && r.maxConcurrent = 0

namespace Limits

inductive Stage where
  | started
  | acquiring
  | over
  | checking
  | freeing (release : Bool)
  | clamping (release : Bool)
  | admitted
  | refused
  | released
  deriving DecidableEq

def Stage.freed (release : Bool) : Stage :=
  if release then .released else .refused

def Stage.holds : Stage → Bool
  | .over | .checking | .freeing _ | .admitted => true
  | _ => false

structure Request where
  principal : Principal
  stage : Stage

structure Slots where
  concurrent : GoMap Str Int
  requests : List Request

inductive Slots.Event where
  | call (p : Principal)
  | start (i : Nat)
  | add (i : Nat)
  | undo (i : Nat)
  | check (i : Nat) (taken spent : Bool)
  | free (i : Nat)
  | clamp (i : Nat)
  | release (i : Nat)

namespace Slots

def new : Slots := ⟨∅, []⟩

def counter (s : Slots) (key : Str) : Int :=
  (s.concurrent.lookup key).getD 0

def store (s : Slots) (key : Str) (n : Int) : Slots :=
  { s with concurrent := s.concurrent.insert key n }

def setStage (s : Slots) (i : Nat) (p : Principal) (stage : Stage) : Slots :=
  { s with requests := s.requests.set i ⟨p, stage⟩ }

def step (s : Slots) : Event → Option Slots
  | .call p => some { s with requests := s.requests ++ [⟨p, .started⟩] }
  | .start i =>
    match s.requests[i]? with
    | some ⟨p, .started⟩ =>
      if p.limits.unlimited then
        some (s.setStage i p .admitted)
      else if 0 < p.limits.maxConcurrent then
        some ((s.store p.keyID (s.counter p.keyID)).setStage i p .acquiring)
      else
        some (s.setStage i p .checking)
    | _ => none
  | .add i =>
    match s.requests[i]? with
    | some ⟨p, .acquiring⟩ =>
      let n := s.counter p.keyID + 1
      some ((s.store p.keyID n).setStage i p (if p.limits.maxConcurrent < n then .over else .checking))
    | _ => none
  | .undo i =>
    match s.requests[i]? with
    | some ⟨p, .over⟩ => some ((s.store p.keyID (s.counter p.keyID - 1)).setStage i p .refused)
    | _ => none
  | .check i taken spent =>
    match s.requests[i]? with
    | some ⟨p, .checking⟩ =>
      if 0 < p.limits.requestsPerMinute ∧ !taken ∨ 0 < p.limits.tokensPerMinute ∧ spent then
        some (s.setStage i p (.freeing false))
      else
        some (s.setStage i p .admitted)
    | _ => none
  | .free i =>
    match s.requests[i]? with
    | some ⟨p, .freeing release⟩ =>
      match s.concurrent.lookup p.keyID with
      | none => some (s.setStage i p (.freed release))
      | some n =>
        some ((s.store p.keyID (n - 1)).setStage i p
          (if n - 1 < 0 then .clamping release else .freed release))
    | _ => none
  | .clamp i =>
    match s.requests[i]? with
    | some ⟨p, .clamping release⟩ => some ((s.store p.keyID 0).setStage i p (.freed release))
    | _ => none
  | .release i =>
    match s.requests[i]? with
    | some ⟨p, .admitted⟩ =>
      some (s.setStage i p (if 0 < p.limits.maxConcurrent then .freeing true else .released))
    | _ => none

def Quiescent (s : Slots) : Prop :=
  ∀ r ∈ s.requests, r.stage = .admitted ∨ r.stage = .refused ∨ r.stage = .released

def inFlight (s : Slots) (tenant key : Str) : Nat :=
  s.requests.countP fun r =>
    r.principal.tenant = tenant && r.principal.keyID = key && 0 < r.principal.limits.maxConcurrent
      && r.stage = .admitted

def fair (s : Slots) : Event → Bool
  | .call p =>
    p.limits.maxConcurrent = 0 || s.requests.all fun r =>
      r.principal.limits.maxConcurrent = 0 || r.principal.keyID ≠ p.keyID || r.principal.tenant = p.tenant
  | .free i =>
    match s.requests[i]? with
    | some ⟨p, .freeing _⟩ => 0 < p.limits.maxConcurrent || (s.concurrent.lookup p.keyID).isNone
    | _ => true
  | _ => true

def fairStep (s : Slots) (e : Event) : Option Slots :=
  if s.fair e then s.step e else none

def weight (key : Str) (r : Request) : Int :=
  if r.stage.holds ∧ r.principal.keyID = key ∧ 0 < r.principal.limits.maxConcurrent then 1 else 0

structure Inv (s : Slots) : Prop where
  counted : ∀ key, s.counter key = (s.requests.map (weight key)).sum
  unclamped : ∀ r ∈ s.requests, ∀ release, r.stage ≠ .clamping release
  limited : ∀ r ∈ s.requests, r.stage = .acquiring ∨ r.stage = .over →
    0 < r.principal.limits.maxConcurrent
  tenants : ∀ r ∈ s.requests, ∀ r' ∈ s.requests, 0 < r.principal.limits.maxConcurrent →
    0 < r'.principal.limits.maxConcurrent → r.principal.keyID = r'.principal.keyID →
    r.principal.tenant = r'.principal.tenant

theorem inv_new : new.Inv := by
  constructor
  . simp [new, counter]
  . simp [new]
  . simp [new]
  . simp [new]

theorem counter_store (s : Slots) (key key' : Str) (n : Int)
    : (s.store key n).counter key' = if key' = key then n else s.counter key' := by
  unfold counter store
  split
  . next h => rw [h, AList.lookup_insert, getD_some]
  . next h => rw [AList.lookup_insert_ne h]

variable (key : Str)

theorem weight_nonneg (r : Request) : 0 ≤ weight key r := by
  unfold weight
  split
  . omega
  . omega

theorem weight_congr (p : Principal) {a b : Stage} (h : a.holds = b.holds)
    : weight key ⟨p, a⟩ = weight key ⟨p, b⟩ := by
  unfold weight
  rw [h]

theorem weight_of_not_holds (p : Principal) {a : Stage} (h : a.holds = false)
    : weight key ⟨p, a⟩ = 0 := by
  unfold weight
  simp [h]

theorem weight_of_unlimited {p : Principal} (a : Stage) (h : p.limits.maxConcurrent = 0)
    : weight key ⟨p, a⟩ = 0 := by
  unfold weight
  simp [h]

theorem weight_of_holds {p : Principal} {a : Stage} (h : a.holds = true)
    (hmax : 0 < p.limits.maxConcurrent)
    : weight key ⟨p, a⟩ = if p.keyID = key then 1 else 0 := by
  unfold weight
  simp [h, hmax]

theorem freed_eq (release : Bool) : Stage.freed release = .refused ∨ Stage.freed release = .released := by
  cases release with
  | false => exact .inl rfl
  | true => exact .inr rfl

section

variable {s : Slots} (hinv : s.Inv)

include hinv

variable {i : Nat} {p : Principal} {a b : Stage}

theorem Inv.move {concurrent : GoMap Str Int} (hi : s.requests[i]? = some ⟨p, a⟩)
    (hcount : ∀ key, (concurrent.lookup key).getD 0 + weight key ⟨p, a⟩
      = s.counter key + weight key ⟨p, b⟩) (hclamp : ∀ release, b ≠ .clamping release)
    (hlimit : b = .acquiring ∨ b = .over → 0 < p.limits.maxConcurrent)
    : (⟨concurrent, s.requests.set i ⟨p, b⟩⟩ : Slots).Inv := by
  have hold : (⟨p, a⟩ : Request) ∈ s.requests := mem_of_getElem? hi
  -- The principals are those that were there.
  have hprincipal : ∀ r ∈ s.requests.set i ⟨p, b⟩, ∃ r' ∈ s.requests, r'.principal = r.principal := by
    intro r hr
    rcases mem_or_eq_of_mem_set hr with hmem | rfl
    . exact ⟨r, hmem, rfl⟩
    . exact ⟨⟨p, a⟩, hold, rfl⟩
  constructor
  . intro key
    have hsum := Totals.sum_set_add hi (weight key) ⟨p, b⟩
    rw [← hinv.counted key] at hsum
    have := hcount key
    unfold counter
    dsimp only
    omega
  . intro r hr release
    rcases mem_or_eq_of_mem_set hr with hmem | rfl
    . exact hinv.unclamped r hmem release
    . exact hclamp release
  . intro r hr hstage
    rcases mem_or_eq_of_mem_set hr with hmem | rfl
    . exact hinv.limited r hmem hstage
    . exact hlimit hstage
  . intro r hr r' hr' hmax hmax' hkey
    rcases hprincipal r hr with ⟨q, hq, hqr⟩
    rcases hprincipal r' hr' with ⟨q', hq', hqr'⟩
    rw [← hqr] at hmax hkey ⊢
    rw [← hqr'] at hmax' hkey ⊢
    exact hinv.tenants q hq q' hq' hmax hmax' hkey

theorem Inv.held_le {r : Request} (hi : s.requests[i]? = some r) (key : Str)
    : weight key r ≤ s.counter key := by
  rw [hinv.counted key]
  apply single_le_sum
  . intro w hw
    rcases mem_map.mp hw with ⟨r', -, rfl⟩
    exact weight_nonneg key r'
  . exact mem_map_of_mem (mem_of_getElem? hi)

theorem Inv.setStage (hi : s.requests[i]? = some ⟨p, a⟩)
    (hkeeps : p.limits.maxConcurrent = 0 ∨ a.holds = b.holds)
    (hb : b ≠ .acquiring ∧ b ≠ .over ∧ ∀ release, b ≠ .clamping release)
    : (s.setStage i p b).Inv := by
  refine hinv.move hi ?_ hb.2.2 ?_
  . intro key
    have hweight : weight key ⟨p, a⟩ = weight key ⟨p, b⟩ := by
      rcases hkeeps with hmax | hholds
      . rw [weight_of_unlimited key _ hmax, weight_of_unlimited key _ hmax]
      . exact weight_congr key p hholds
    rw [hweight]
    rfl
  . simp [hb.1, hb.2.1]

theorem Inv.store {n : Int} (hi : s.requests[i]? = some ⟨p, a⟩)
    (hother : ∀ key, key ≠ p.keyID → weight key ⟨p, a⟩ = weight key ⟨p, b⟩)
    (hown : n + weight p.keyID ⟨p, a⟩ = s.counter p.keyID + weight p.keyID ⟨p, b⟩)
    (hclamp : ∀ release, b ≠ .clamping release)
    (hlimit : b = .acquiring ∨ b = .over → 0 < p.limits.maxConcurrent)
    : ((s.store p.keyID n).setStage i p b).Inv := by
  refine hinv.move hi ?_ hclamp hlimit
  intro key
  change (s.store p.keyID n).counter key + _ = _
  rw [counter_store]
  split
  . next hkey => rw [hkey, hown]
  . next hkey => rw [hother key hkey]

theorem Inv.call (hfair : s.fair (.call p))
    : (⟨s.concurrent, s.requests ++ [⟨p, .started⟩]⟩ : Slots).Inv := by
  -- The tenant of a key with a limit is the one it had.
  have htenant : ∀ r ∈ s.requests, 0 < r.principal.limits.maxConcurrent →
      0 < p.limits.maxConcurrent → r.principal.keyID = p.keyID → r.principal.tenant = p.tenant := by
    intro r hr hmax hmax' hkey
    unfold fair at hfair
    simp only [Bool.or_eq_true, decide_eq_true_eq, all_eq_true] at hfair
    rcases hfair with hzero | hall
    . omega
    . rcases hall r hr with (hzero | hkey') | htenant
      . omega
      . exact absurd hkey hkey'
      . exact htenant
  constructor
  . intro key
    rw [map_append, sum_append, map_singleton, sum_singleton,
      weight_of_not_holds key p rfl, add_zero]
    exact hinv.counted key
  . intro r hr release
    rw [mem_append, mem_singleton] at hr
    rcases hr with hmem | rfl
    . exact hinv.unclamped r hmem release
    . simp
  . intro r hr hstage
    rw [mem_append, mem_singleton] at hr
    rcases hr with hmem | rfl
    . exact hinv.limited r hmem hstage
    . simp at hstage
  . intro r hr r' hr' hmax hmax' hkey
    rw [mem_append, mem_singleton] at hr hr'
    rcases hr with hmem | rfl
    . rcases hr' with hmem' | rfl
      . exact hinv.tenants r hmem r' hmem' hmax hmax' hkey
      . exact htenant r hmem hmax hmax' hkey
    . rcases hr' with hmem' | rfl
      . exact (htenant r' hmem' hmax' hmax hkey.symm).symm
      . rfl

variable {s' : Slots}

theorem Inv.start (h : s.step (.start i) = some s') : s'.Inv := by
  unfold step at h
  dsimp only at h
  split at h
  . next p hi =>
    split at h
    . next hunlimited =>
      have hmax : p.limits.maxConcurrent = 0 := by
        unfold RateLimit.unlimited at hunlimited
        simp only [Bool.and_eq_true, decide_eq_true_eq] at hunlimited
        exact hunlimited.2
      rw [← some.inj h]
      exact hinv.setStage hi (.inl hmax) (by simp)
    . split at h
      . next hmax =>
        rw [← some.inj h]
        apply hinv.store hi
        . intro key _
          exact weight_congr key p rfl
        . rw [weight_congr p.keyID p (show Stage.started.holds = Stage.acquiring.holds from rfl)]
        . simp
        . exact fun _ => hmax
      . next hmax =>
        have hmax : p.limits.maxConcurrent = 0 := by omega
        rw [← some.inj h]
        exact hinv.setStage hi (.inl hmax) (by simp)
  . simp at h

theorem Inv.add (h : s.step (.add i) = some s') : s'.Inv := by
  unfold step at h
  dsimp only at h
  split at h
  . next p hi =>
    have hmax := hinv.limited _ (mem_of_getElem? hi) (.inl rfl)
    rw [← some.inj h]
    generalize hstage : (if (p.limits.maxConcurrent : Int) < s.counter p.keyID + 1 then Stage.over
      else .checking) = stage
    have hholds : stage.holds = true := by
      rw [← hstage]
      split
      . rfl
      . rfl
    apply hinv.store hi
    . intro key hkey
      rw [weight_of_not_holds key p rfl, weight_of_holds key hholds hmax, if_neg (Ne.symm hkey)]
    . rw [weight_of_not_holds p.keyID p rfl, weight_of_holds p.keyID hholds hmax, if_pos rfl]
      omega
    . intro release hclamp
      rw [hclamp] at hholds
      simp [Stage.holds] at hholds
    . exact fun _ => hmax
  . simp at h

theorem Inv.giveBack (hi : s.requests[i]? = some ⟨p, a⟩) (hmax : 0 < p.limits.maxConcurrent)
    (ha : a.holds = true) (hb : b = .refused ∨ b = .released)
    : ((s.store p.keyID (s.counter p.keyID - 1)).setStage i p b).Inv := by
  have hholds : b.holds = false := by
    rcases hb with rfl | rfl
    . rfl
    . rfl
  apply hinv.store hi
  . intro key hkey
    rw [weight_of_not_holds key p hholds, weight_of_holds key ha hmax, if_neg (Ne.symm hkey)]
  . rw [weight_of_not_holds p.keyID p hholds, weight_of_holds p.keyID ha hmax, if_pos rfl]
    omega
  . rcases hb with rfl | rfl
    . simp
    . simp
  . rcases hb with rfl | rfl
    . simp
    . simp

theorem Inv.undo (h : s.step (.undo i) = some s') : s'.Inv := by
  unfold step at h
  dsimp only at h
  split at h
  . next p hi =>
    rw [← some.inj h]
    exact hinv.giveBack hi (hinv.limited _ (mem_of_getElem? hi) (.inr rfl)) rfl (.inl rfl)
  . simp at h

theorem Inv.check {taken spent : Bool} (h : s.step (.check i taken spent) = some s') : s'.Inv := by
  unfold step at h
  dsimp only at h
  split at h
  . next p hi =>
    split at h
    . rw [← some.inj h]
      exact hinv.setStage hi (.inr rfl) (by simp)
    . rw [← some.inj h]
      exact hinv.setStage hi (.inr rfl) (by simp)
  . simp at h

theorem Inv.free (hfair : s.fair (.free i)) (h : s.step (.free i) = some s') : s'.Inv := by
  unfold step at h
  unfold fair at hfair
  dsimp only at h hfair
  split at h
  . next p release hi =>
    rw [hi] at hfair
    simp only [Bool.or_eq_true, decide_eq_true_eq, Option.isNone_iff_eq_none] at hfair
    by_cases hmax : 0 < p.limits.maxConcurrent
    . -- The counter has the slot that is given back, so it is there and stays above zero.
      have hheld := hinv.held_le hi p.keyID
      rw [weight_of_holds p.keyID rfl hmax, if_pos rfl] at hheld
      have hcounter : s.counter p.keyID = (s.concurrent.lookup p.keyID).getD 0 := rfl
      cases hlookup : s.concurrent.lookup p.keyID with
      | none =>
        rw [hlookup, Option.getD_none] at hcounter
        omega
      | some n =>
        rw [hlookup, getD_some] at hcounter
        rw [hlookup] at h
        dsimp only at h
        rw [if_neg (by omega), ← hcounter] at h
        rw [← some.inj h]
        exact hinv.giveBack hi hmax rfl (freed_eq release)
    . have hnone := hfair.resolve_left hmax
      have hmax : p.limits.maxConcurrent = 0 := by omega
      rw [hnone] at h
      rw [← some.inj h]
      apply hinv.setStage hi (.inl hmax)
      rcases freed_eq release with hfreed | hfreed
      . simp [hfreed]
      . simp [hfreed]
  . simp at h

theorem Inv.clamp (h : s.step (.clamp i) = some s') : s'.Inv := by
  unfold step at h
  dsimp only at h
  split at h
  . next p release hi => exact absurd rfl (hinv.unclamped _ (mem_of_getElem? hi) release)
  . simp at h

theorem Inv.release (h : s.step (.release i) = some s') : s'.Inv := by
  unfold step at h
  dsimp only at h
  split at h
  . next p hi =>
    rw [← some.inj h]
    split
    . exact hinv.setStage hi (.inr rfl) (by simp)
    . next hmax =>
      have hmax : p.limits.maxConcurrent = 0 := by omega
      exact hinv.setStage hi (.inl hmax) (by simp)
  . simp at h

theorem Inv.fairStep {e : Event} (h : s.fairStep e = some s') : s'.Inv := by
  unfold Slots.fairStep at h
  split at h
  . next hfair =>
    cases e with
    | call p =>
      rw [← some.inj h]
      exact hinv.call hfair
    | start i => exact hinv.start h
    | add i => exact hinv.add h
    | undo i => exact hinv.undo h
    | check i taken spent => exact hinv.check h
    | free i => exact hinv.free hfair h
    | clamp i => exact hinv.clamp h
    | release i => exact hinv.release h
  . simp at h

end

theorem counter_eq_inFlight {s : Slots} (h : TransitionSystem.Reaches fairStep new s)
    (hquiet : s.Quiescent) {r : Request} (hr : r ∈ s.requests)
    (hmax : 0 < r.principal.limits.maxConcurrent)
    : s.counter r.principal.keyID = s.inFlight r.principal.tenant r.principal.keyID := by
  have hinv : s.Inv := h.invariant Inv (fun _ _ _ hs hstep => hs.fairStep hstep) inv_new
  rw [hinv.counted]
  apply Totals.sum_eq_countP
  intro r' hr'
  unfold weight
  congr 1
  simp only [Bool.and_eq_true, decide_eq_true_eq, eq_iff_iff]
  constructor
  . rintro ⟨hholds, hkey, hmax'⟩
    refine ⟨⟨⟨hinv.tenants r' hr' r hr hmax' hmax hkey, hkey⟩, hmax'⟩, ?_⟩
    rcases hquiet r' hr' with hadmitted | hrefused | hreleased
    . exact hadmitted
    . simp [hrefused, Stage.holds] at hholds
    . simp [hreleased, Stage.holds] at hholds
  . rintro ⟨⟨⟨-, hkey⟩, hmax'⟩, hadmitted⟩
    exact ⟨by rw [hadmitted]; rfl, hkey, hmax'⟩

namespace Sample

def principal (tenant : Str) (limits : RateLimit) : Principal :=
  { Principal.zero with keyID := str "k1", tenant := tenant, limits := limits }

def capped : Principal := principal (str "acme") ⟨0, 0, 2⟩

def changed : Principal := principal (str "acme") ⟨1, 0, 0⟩

def namesake : Principal := principal (str "other") ⟨0, 0, 1⟩

def admitCapped : List Event := [.call capped, .start 0, .add 0, .check 0 true false]

def admitTwice : List Event :=
  admitCapped ++ [.call capped, .start 1, .add 1, .check 1 true false]

def refuseChanged : List Event := [.call changed, .start 1, .check 1 false false, .free 1]

def refuseNamesake : List Event := [.call namesake, .start 1, .add 1, .undo 1]

end Sample

open Sample in
theorem counter_eq_inFlight_capped
    : ∃ s, admitTwice.foldlM fairStep new = some s ∧ s.counter (str "k1") = 2 ∧
        s.counter capped.keyID = s.inFlight capped.tenant capped.keyID := by
  refine ⟨_, rfl, rfl, ?_⟩
  apply counter_eq_inFlight (.of_foldlM admitTwice rfl) (r := ⟨capped, .admitted⟩)
  . intro r hr
    have hr : r ∈ [⟨capped, .admitted⟩, ⟨capped, .admitted⟩] := hr
    simp only [mem_cons, not_mem_nil, or_false, or_self] at hr
    rw [hr]
    exact .inl rfl
  . exact mem_cons_self
  . decide

open Sample in
theorem slots_shared
    : (∃ s, (admitCapped ++ refuseChanged).foldlM step new = some s ∧ s.Quiescent ∧
        s.inFlight capped.tenant capped.keyID = 1 ∧ s.counter capped.keyID = 0) ∧
      ∃ s, (admitCapped ++ refuseNamesake).foldlM step new = some s ∧ s.Quiescent ∧
        s.inFlight namesake.tenant namesake.keyID = 0 ∧ s.counter namesake.keyID = 1 := by
  constructor
  . refine ⟨_, rfl, ?_, by decide +kernel, by decide +kernel⟩
    unfold Quiescent
    decide +kernel
  . refine ⟨_, rfl, ?_, by decide +kernel, by decide +kernel⟩
    unfold Quiescent
    decide +kernel

end Slots

end Limits

end ModelGateway
