import ModelGateway.Router.Breaker
import Mathlib.Data.List.DropRight

namespace ModelGateway.Router.Breaker

open List

inductive Call where
  | allow (now : Int)
  | succeed
  | fail (now : Int)
  deriving DecidableEq

def Call.isFail : Call → Bool
  | .fail _ => true
  | .allow _ | .succeed => false

def call (b : Breaker) : Call → Breaker
  | .allow now => (b.allow now).2
  | .succeed => b.succeed
  | .fail now => b.fail now

def failuresSince (calls : List Call) : Nat :=
  (calls.rtakeWhile (· ≠ .succeed)).countP (·.isFail)

theorem call_of_closed {b : Breaker} {calls : List Call} (hstate : b.state = .closed)
    (hfailures : b.failures = failuresSince calls) (hbelow : b.failures < b.failureThreshold) (c : Call)
    : (b.call c).failureThreshold = b.failureThreshold ∧
      ((b.call c).state = .closed ↔ failuresSince (calls ++ [c]) < b.failureThreshold) ∧
      ((b.call c).state = .closed → (b.call c).failures = failuresSince (calls ++ [c])) := by
  cases c with
  | allow now =>
    have hsince : failuresSince (calls ++ [.allow now]) = failuresSince calls := by
      simp [failuresSince, Call.isFail]
    rw [call, allow_of_closed hstate, hsince, ← hfailures]
    exact ⟨rfl, iff_of_true hstate hbelow, fun _ => rfl⟩
  | succeed =>
    have hsince : failuresSince (calls ++ [.succeed]) = 0 := by simp [failuresSince]
    rw [call, succeed_of_not_halfOpen (by simp [hstate]), hsince]
    exact ⟨rfl, iff_of_true hstate (Nat.zero_lt_of_lt hbelow), fun _ => rfl⟩
  | fail now =>
    have hsince : failuresSince (calls ++ [.fail now]) = b.failures + 1 := by
      simp [failuresSince, Call.isFail, hfailures]
    rw [hsince]
    by_cases htrips : b.failureThreshold ≤ b.failures + 1
    . simp [call, fail, hstate, htrips]
    . simp [call, fail, hstate, htrips]
      omega

def StaysClosed (opts : BreakerOptions) (calls : List Call) : Prop :=
  ∀ before, before <+: calls → (before.foldl call (new opts)).state = .closed

/-- A breaker trips exactly when the failures since the last success reach its threshold. -/
theorem staysClosed_spec (opts : BreakerOptions) (calls : List Call)
    : (StaysClosed opts calls
          ↔
        ∀ before, before <+: calls → failuresSince before < (new opts).failureThreshold) ∧
      (StaysClosed opts calls → (calls.foldl call (new opts)).failures = failuresSince calls ∧
        (calls.foldl call (new opts)).failureThreshold = (new opts).failureThreshold) := by
  induction calls using reverseRecOn with
  | nil =>
    refine ⟨iff_of_true ?_ ?_, fun _ => ⟨rfl, rfl⟩⟩
    . simp [StaysClosed, new]
    . have hpos : 0 < (new opts).failureThreshold := by
        simp only [new, defaultFailureThreshold]
        grind
      simpa [failuresSince] using hpos
  | append_singleton calls c ih =>
    have hcall := fun h : StaysClosed opts calls => call_of_closed (h calls prefix_rfl) (ih.2 h).1 (by
      rw [(ih.2 h).1, (ih.2 h).2]
      exact ih.1.mp h calls prefix_rfl) c
    have hconcat : ∀ P : List Call → Prop,
        (∀ l, l <+: calls ++ [c] → P l) ↔ P (calls ++ [c]) ∧ ∀ l, l <+: calls → P l := by
      simp [prefix_concat_iff, or_imp, forall_and]
    have hstays : StaysClosed opts (calls ++ [c]) ↔
        ((calls.foldl call (new opts)).call c).state = .closed ∧ StaysClosed opts calls := by
      rw [StaysClosed, hconcat, foldl_concat]
      rfl
    rw [hstays, hconcat, ← ih.1, foldl_concat]
    constructor
    . apply and_congr_left
      intro h
      rw [(hcall h).2.1, (ih.2 h).2]
    . rintro ⟨hstate, h⟩
      exact ⟨(hcall h).2.2 hstate, (hcall h).1.trans (ih.2 h).2⟩

end ModelGateway.Router.Breaker
