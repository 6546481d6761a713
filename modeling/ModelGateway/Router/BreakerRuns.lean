import ModelGateway.Router.Breaker
import ModelGateway.Lib.TransitionSystem

/-!
This module contains the breaker under traffic: requests that are let through and report back later.
-/

namespace ModelGateway.Router

open List Breaker
open Option (some)

structure Traffic where
  breaker : Breaker
  period : Nat
  inFlight : List (Option Nat)
  won : Nat

inductive Traffic.Event where
  | allow (now : Int)
  | succeed (tag : Option Nat)
  | fail (tag : Option Nat) (now : Int)
  | probed

namespace Traffic

def new (opts : BreakerOptions) : Traffic := ⟨.new opts, 0, [], 0⟩

def step (s : Traffic) : Event → Option Traffic
  | .allow now =>
    match s.breaker.allow now with
    | (false, breaker) => some { s with breaker := breaker }
    | (true, breaker) =>
      match s.breaker.state with
      | .closed => some { s with breaker := breaker, inFlight := none :: s.inFlight }
      | .open => some ⟨breaker, s.period + 1, some (s.period + 1) :: s.inFlight, 0⟩
      | .halfOpen => some { s with breaker := breaker, inFlight := some s.period :: s.inFlight }
  | .succeed tag =>
    if s.inFlight.contains tag then
      some { s with
        breaker := s.breaker.succeed
        inFlight := s.inFlight.erase tag
        won := if s.breaker.state = .halfOpen ∧ tag = some s.period then s.won + 1 else s.won }
    else
      none
  | .fail tag now =>
    if s.inFlight.contains tag then
      some { s with breaker := s.breaker.fail now, inFlight := s.inFlight.erase tag }
    else
      none
  | .probed => some { s with breaker := s.breaker.succeed }

def Exclusive (s : Traffic) : Prop :=
  s.breaker.state = .halfOpen → s.inFlight.count (some s.period) ≤ 1

def ClosesEarned (s s' : Traffic) : Prop :=
  s.breaker.state = .halfOpen → s'.breaker.state = .closed → s'.breaker.halfOpenSuccesses ≤ s'.won

def Own (s : Traffic) : Event → Prop
  | .succeed tag => s.breaker.state = .halfOpen → tag = some s.period
  | .probed => s.breaker.state ≠ .halfOpen
  | _ => True

instance (s : Traffic) (e : Event) : Decidable (s.Own e) :=
  match e with
  | .allow _ => isTrue trivial
  | .succeed tag => inferInstanceAs (Decidable (s.breaker.state = .halfOpen → tag = some s.period))
  | .fail _ _ => isTrue trivial
  | .probed => inferInstanceAs (Decidable (s.breaker.state ≠ .halfOpen))

def ownStep (s : Traffic) (e : Event) : Option Traffic :=
  if s.Own e then s.step e else none

def Sound (s : Traffic) : Prop :=
  ∀ t, TransitionSystem.Reaches ownStep s t →
    t.Exclusive ∧ ∀ e t', t.ownStep e = some t' → t.ClosesEarned t'

structure Inv (s : Traffic) : Prop where
  needed : s.breaker.halfOpenSuccesses = 2
  tags : ∀ p, some p ∈ s.inFlight → p ≤ s.period
  probes : s.breaker.state = .halfOpen →
    s.inFlight.count (some s.period) = if s.breaker.probeInFlight then 1 else 0
  successes : s.breaker.state = .halfOpen → s.breaker.successes = s.won ∧ s.won < 2

theorem inv_new (opts : BreakerOptions) : (new opts).Inv := by
  constructor
  . rfl
  . simp [new]
  . simp [new, Breaker.new]
  . simp [new, Breaker.new]

variable {s : Traffic}

theorem Inv.of_not_halfOpen (hneeded : s.breaker.halfOpenSuccesses = 2)
    (htags : ∀ p, some p ∈ s.inFlight → p ≤ s.period) (h : s.breaker.state ≠ .halfOpen)
    : s.Inv :=
  ⟨hneeded, htags, fun hhalf => absurd hhalf h, fun hhalf => absurd hhalf h⟩

variable {s' : Traffic}

theorem step_allow_cases {now : Int} (h : s.step (.allow now) = some s')
    : s' = s ∨ (s.breaker.state = .closed ∧ s' = { s with inFlight := none :: s.inFlight }) ∨
      (s.breaker.state = .open ∧
        s' = ⟨{ s.breaker with state := .halfOpen, successes := 0, probeInFlight := true },
          s.period + 1, some (s.period + 1) :: s.inFlight, 0⟩) ∨
      (s.breaker.state = .halfOpen ∧ s.breaker.probeInFlight = false ∧ s' = { s with
          breaker := { s.breaker with probeInFlight := true }
          inFlight := some s.period :: s.inFlight }) := by
  unfold step at h
  dsimp only at h
  generalize hasked : s.breaker.allow now = asked at h
  rcases asked with ⟨allowed, breaker⟩
  have hallowed : (s.breaker.allow now).1 = allowed := by rw [hasked]
  have hbreaker : (s.breaker.allow now).2 = breaker := by rw [hasked]
  cases allowed with
  | false =>
    rw [allow_of_refused hallowed] at hbreaker
    rw [← hbreaker] at h
    exact .inl (some.inj h).symm
  | true =>
    dsimp only at h
    split at h
    . next hstate =>
      rw [allow_of_closed hstate] at hbreaker
      rw [← hbreaker] at h
      exact .inr (.inl ⟨hstate, (some.inj h).symm⟩)
    . next hstate =>
      rw [allow_of_open hstate hallowed] at hbreaker
      rw [← hbreaker] at h
      exact .inr (.inr (.inl ⟨hstate, (some.inj h).symm⟩))
    . next hstate =>
      rcases allow_of_halfOpen hstate hallowed with ⟨hfree, hallow⟩
      rw [hallow] at hbreaker
      rw [← hbreaker] at h
      exact .inr (.inr (.inr ⟨hstate, hfree, (some.inj h).symm⟩))

variable (hinv : s.Inv)

include hinv

theorem Inv.allow {now : Int} (h : s.step (.allow now) = some s') : s'.Inv ∧ s.ClosesEarned s' := by
  rcases step_allow_cases h with rfl | ⟨hstate, rfl⟩ | ⟨hstate, rfl⟩ | ⟨hstate, hfree, rfl⟩
  . refine ⟨hinv, ?_⟩
    intro hhalf hclosed
    simp [hhalf] at hclosed
  . constructor
    . apply Inv.of_not_halfOpen
      . exact hinv.needed
      . simpa using hinv.tags
      . simp [hstate]
    . intro hhalf
      simp [hstate] at hhalf
  . have hfresh : s.inFlight.count (some (s.period + 1)) = 0 := by
      rw [count_eq_zero]
      intro hmem
      have hle := hinv.tags _ hmem
      omega
    constructor
    . constructor
      . exact hinv.needed
      . intro p hp
        rw [mem_cons] at hp
        dsimp only
        cases hp with
        | inl heq =>
          have := some.inj heq
          omega
        | inr hmem =>
          have := hinv.tags p hmem
          omega
      . intro _
        simp [hfresh]
      . simp
    . intro hhalf
      simp [hstate] at hhalf
  . have hnone := hinv.probes hstate
    rw [hfree] at hnone
    constructor
    . constructor
      . exact hinv.needed
      . intro p hp
        rw [mem_cons] at hp
        cases hp with
        | inl heq => exact le_of_eq (some.inj heq)
        | inr hmem => exact hinv.tags p hmem
      . intro _
        simp [hnone]
      . exact fun _ => hinv.successes hstate
    . intro _ hclosed
      simp [hstate] at hclosed

theorem tags_erase (tag : Option Nat) : ∀ p, some p ∈ s.inFlight.erase tag → p ≤ s.period := by
  intro p hp
  exact hinv.tags p (mem_of_mem_erase hp)

theorem Inv.fail {tag : Option Nat} {now : Int} (h : s.step (.fail tag now) = some s')
    : s'.Inv ∧ s.ClosesEarned s' := by
  unfold step at h
  dsimp only at h
  split at h
  . rw [← some.inj h]
    constructor
    . apply Inv.of_not_halfOpen
      . rw [fail_halfOpenSuccesses]
        exact hinv.needed
      . exact tags_erase hinv tag
      . apply fail_state_ne
    . intro hhalf hclosed
      simp [Breaker.fail, hhalf] at hclosed
  . simp at h

theorem Inv.succeed_elsewhere (hstate : s.breaker.state ≠ .halfOpen)
    {inFlight : List (Option Nat)} (htags : ∀ p, some p ∈ inFlight → p ≤ s.period) (won : Nat)
    : (⟨s.breaker.succeed, s.period, inFlight, won⟩ : Traffic).Inv ∧
        s.ClosesEarned ⟨s.breaker.succeed, s.period, inFlight, won⟩ := by
  constructor
  . apply Inv.of_not_halfOpen
    . rw [succeed_halfOpenSuccesses]
      exact hinv.needed
    . exact htags
    . rw [succeed_of_not_halfOpen hstate]
      exact hstate
  . exact fun hhalf => absurd hhalf hstate

theorem Inv.probes_of_mem (hstate : s.breaker.state = .halfOpen) (hmem : some s.period ∈ s.inFlight)
    : s.breaker.probeInFlight = true ∧ s.inFlight.count (some s.period) = 1 := by
  have hpos := count_pos_iff.mpr hmem
  have hprobes := hinv.probes hstate
  cases hflag : s.breaker.probeInFlight with
  | false =>
    rw [hflag] at hprobes
    simp only [Bool.false_eq_true, if_false] at hprobes
    omega
  | true =>
    rw [hflag] at hprobes
    exact ⟨rfl, hprobes⟩

theorem Inv.succeed_probe (hstate : s.breaker.state = .halfOpen) (hmem : some s.period ∈ s.inFlight)
    : (⟨s.breaker.succeed, s.period, s.inFlight.erase (some s.period), s.won + 1⟩ : Traffic).Inv ∧
        s.ClosesEarned
          ⟨s.breaker.succeed, s.period, s.inFlight.erase (some s.period), s.won + 1⟩ := by
  rcases hinv.successes hstate with ⟨hcount, hfew⟩
  rcases succeed_of_halfOpen hstate with ⟨hnext, hcounted⟩
  rw [hinv.needed, hcount] at hnext hcounted
  constructor
  . constructor
    . rw [succeed_halfOpenSuccesses]
      exact hinv.needed
    . exact tags_erase hinv _
    . intro _
      rw [count_erase_self, (hinv.probes_of_mem hstate hmem).2, succeed_probeInFlight]
      rfl
    . intro hhalf
      dsimp only at hhalf ⊢
      rw [hnext] at hhalf
      split at hhalf
      . simp at hhalf
      . next hmore =>
        omega
  . intro _ hclosed
    rw [hnext] at hclosed
    rw [succeed_halfOpenSuccesses, hinv.needed]
    split at hclosed
    . next hlast => exact hlast
    . simp at hclosed

theorem Inv.succeed {tag : Option Nat} (hown : s.Own (.succeed tag))
    (h : s.step (.succeed tag) = some s')
    : s'.Inv ∧ s.ClosesEarned s' := by
  unfold step at h
  dsimp only at h
  split at h
  . next hmem =>
    rw [← some.inj h]
    by_cases hstate : s.breaker.state = .halfOpen
    . have htag := hown hstate
      rw [htag, if_pos ⟨hstate, rfl⟩]
      rw [htag, contains_iff_mem] at hmem
      exact hinv.succeed_probe hstate hmem
    . exact hinv.succeed_elsewhere hstate (tags_erase hinv tag) _
  . simp at h

theorem Inv.probed (hown : s.Own .probed) (h : s.step .probed = some s')
    : s'.Inv ∧ s.ClosesEarned s' := by
  rw [← some.inj h]
  exact hinv.succeed_elsewhere hown hinv.tags _

theorem Inv.ownStep {e : Event} (h : s.ownStep e = some s') : s'.Inv ∧ s.ClosesEarned s' := by
  unfold Traffic.ownStep at h
  split at h
  . next hown =>
    cases e with
    | allow now => exact hinv.allow h
    | succeed tag => exact hinv.succeed hown h
    | fail tag now => exact hinv.fail h
    | probed => exact hinv.probed hown h
  . simp at h

theorem Inv.exclusive : s.Exclusive := by
  intro hhalf
  rw [hinv.probes hhalf]
  split
  . rfl
  . omega

theorem Inv.reaches {t : Traffic} (h : TransitionSystem.Reaches Traffic.ownStep s t) : t.Inv :=
  h.invariant Inv (fun _ _ _ hs hstep => (hs.ownStep hstep).1) hinv

theorem Inv.sound : s.Sound := by
  intro t ht
  have hinv := hinv.reaches ht
  exact ⟨hinv.exclusive, fun e t' hstep => (hinv.ownStep hstep).2⟩

omit hinv

theorem stray_step {e : Event} (hown : ¬ s.Own e) (h : s.step e = some s')
    : s.breaker.state = .halfOpen ∧
        ∃ inFlight, s' = ⟨s.breaker.succeed, s.period, inFlight, s.won⟩ := by
  cases e with
  | allow now => exact absurd trivial hown
  | fail tag now => exact absurd trivial hown
  | succeed tag =>
    unfold Own at hown
    push Not at hown
    unfold step at h
    dsimp only at h
    split at h
    . have hother : ¬ (s.breaker.state = .halfOpen ∧ tag = some s.period) := fun hsame => hown.2 hsame.2
      rw [if_neg hother] at h
      exact ⟨hown.1, _, (some.inj h).symm⟩
    . simp at h
  | probed =>
    exact ⟨Decidable.not_not.mp hown, s.inFlight, (some.inj h).symm⟩

theorem not_sound_of_ahead (hneeded : s.breaker.halfOpenSuccesses = 2)
    (hstate : s.breaker.state = .halfOpen) (hfree : s.breaker.probeInFlight = false)
    (hsuccesses : s.breaker.successes = 1) (hwon : s.won = 0)
    : ¬ s.Sound := by
  let t : Traffic := { s with
    breaker := { s.breaker with probeInFlight := true }
    inFlight := some s.period :: s.inFlight }
  have hallow : s.ownStep (.allow 0) = some t := by
    simp [ownStep, Own, step, Breaker.allow, hstate, hfree, t]
  have hreaches : TransitionSystem.Reaches ownStep s t := .single ⟨_, hallow⟩
  have hstate' : t.breaker.state = .halfOpen := hstate
  rcases succeed_of_halfOpen hstate' with ⟨hclosed, -⟩
  have hcloses : t.breaker.succeed.state = .closed := by
    rw [hclosed]
    apply if_pos
    change s.breaker.halfOpenSuccesses ≤ s.breaker.successes + 1
    omega
  have hsucceed : t.ownStep (.succeed (some t.period))
      = some ⟨t.breaker.succeed, t.period, t.inFlight.erase (some t.period), 1⟩ := by
    simp [ownStep, Own, step, hstate, hwon, t]
  intro hsound
  have hearned := (hsound t hreaches).2 _ _ hsucceed hstate' hcloses
  rw [succeed_halfOpenSuccesses] at hearned
  change s.breaker.halfOpenSuccesses ≤ 1 at hearned
  omega

theorem Inv.not_sound_of_stray {e : Event} (hinv : s.Inv) (hown : ¬ s.Own e) (h : s.step e = some s')
    : ¬ (s.ClosesEarned s' ∧ s'.Sound) := by
  rcases stray_step hown h with ⟨hstate, _, rfl⟩
  rcases hinv.successes hstate with ⟨hcount, hfew⟩
  rcases succeed_of_halfOpen hstate with ⟨hnext, hcounted⟩
  rw [hinv.needed, hcount] at hnext hcounted
  rintro ⟨hearned, hsound⟩
  by_cases hlast : 2 ≤ s.won + 1
  . rw [if_pos hlast] at hnext
    have hearned := hearned hstate hnext
    dsimp only at hearned
    rw [succeed_halfOpenSuccesses, hinv.needed] at hearned
    omega
  . rw [if_neg hlast] at hnext
    refine not_sound_of_ahead ?_ hnext ?_ ?_ ?_ hsound
    . rw [succeed_halfOpenSuccesses]
      exact hinv.needed
    . apply succeed_probeInFlight
    . rw [hcounted (by omega)]
      omega
    . dsimp only
      omega

theorem periods_sound_iff (opts : BreakerOptions)
    : (new opts).Sound ∧
        ∀ s, TransitionSystem.Reaches Traffic.ownStep (new opts) s → ∀ e s', s.step e = some s' →
          (s.ClosesEarned s' ∧ s'.Sound ↔ s.Own e) := by
  refine ⟨(inv_new opts).sound, ?_⟩
  intro s hs e s' hstep
  have hinv := (inv_new opts).reaches hs
  constructor
  . intro hsound
    by_contra hown
    exact hinv.not_sound_of_stray hown hstep hsound
  . intro hown
    have hnext := hinv.ownStep (show s.ownStep e = some s' by rw [Traffic.ownStep, if_pos hown, hstep])
    exact ⟨hnext.2, hnext.1.sound⟩

def lateSuccess : List Event :=
  replicate 6 (.allow 0) ++ replicate 5 (.fail none 0)
    ++ [.allow (20 * second), .succeed none, .allow (20 * second)]

theorem periods_sound_probed
    : ∃ s s', TransitionSystem.Reaches ownStep (new ⟨none, none⟩) s ∧ s.step .probed = some s' ∧
        ¬ (s.ClosesEarned s' ∧ s'.Sound) := by
  refine ⟨_, _, .of_foldlM (lateSuccess.take 12) rfl, rfl, ?_⟩
  rw [(periods_sound_iff ⟨none, none⟩).2 _ (.of_foldlM (lateSuccess.take 12) rfl) .probed _ rfl]
  decide +kernel

theorem late_success_breaks_period
    : ∃ s s', TransitionSystem.Reaches step (new ⟨none, none⟩) s ∧ ¬ s.Exclusive ∧
        s.step (.succeed (some 1)) = some s' ∧ ¬ s.ClosesEarned s' := by
  refine ⟨_, _, .of_foldlM lateSuccess rfl, ?_, rfl, ?_⟩
  . unfold Exclusive
    decide +kernel
  . unfold ClosesEarned
    decide +kernel

end Traffic

end ModelGateway.Router
