import Mathlib.Data.List.Basic
import Mathlib.Tactic.Common

namespace TextColumn

open List
open Option (some)

def space : UInt8 := 0x20

def width (s : List UInt8) : Nat :=
  s.countP fun b => b &&& 0xc0 != 0x80

def varchar (n : Nat) (s : List UInt8) : Option (List UInt8) :=
  if s.contains 0 then
    none
  else if width s ≤ n then
    some s
  else
    let kept := s.length - (width s - n)
    if (s.drop kept).all (· == space) then some (s.take kept) else none

def Fits (n : Nat) (s : List UInt8) : Prop :=
  varchar n s = some s

instance (n : Nat) (s : List UInt8) : Decidable (Fits n s) :=
  inferInstanceAs (Decidable (_ = _))

theorem width_append (s t : List UInt8) : width (s ++ t) = width s + width t :=
  countP_append

theorem width_replicate_space (k : Nat) : width (replicate k space) = k := by
  unfold width
  rw [countP_replicate, if_pos (by decide)]

variable {n : Nat} {s t : List UInt8}

variable (h : varchar n s = some t)

include h

theorem varchar_eq_some : ∃ k, s = t ++ replicate k space ∧ (k = 0 ∨ width t = n) := by
  unfold varchar at h
  split at h
  . simp at h
  . split at h
    . refine ⟨0, ?_, .inl rfl⟩
      rw [some.inj h]
      simp
    . next hwide =>
      dsimp only at h
      split at h
      . next hspaces =>
        have hle : width s ≤ s.length := countP_le_length
        generalize hkept : s.length - (width s - n) = kept at h hspaces
        have hdrop : s.drop kept = replicate (s.length - kept) space := by
          rw [eq_replicate_iff]
          refine ⟨length_drop, ?_⟩
          intro b hb
          simpa using all_eq_true.mp hspaces b hb
        have hs : s = t ++ replicate (s.length - kept) space := by
          rw [← some.inj h, ← hdrop, take_append_drop]
        refine ⟨_, hs, .inr ?_⟩
        have hwidth := congrArg width hs
        rw [width_append, width_replicate_space] at hwidth
        omega
      . simp at h

theorem varchar_eq_self (hlast : s.getLast? ≠ some space) : t = s := by
  rcases varchar_eq_some h with ⟨k, hs, _⟩
  cases k with
  | zero => simpa using hs.symm
  | succ k =>
    refine absurd ?_ hlast
    rw [hs, replicate_succ', ← append_assoc, getLast?_concat]

theorem varchar_ne_nil (hn : 0 < n) (hs : s ≠ []) : t ≠ [] := by
  rintro rfl
  rcases varchar_eq_some h with ⟨k, hk, rfl | hwidth⟩
  . exact hs (by simpa using hk)
  . change 0 = n at hwidth
    omega

theorem varchar_eq_nil_iff (hn : 0 < n) : t = [] ↔ s = [] := by
  constructor
  . intro ht
    by_contra hs
    exact varchar_ne_nil h hn hs ht
  . rintro rfl
    rcases varchar_eq_some h with ⟨k, hk, _⟩
    exact (append_eq_nil_iff.mp hk.symm).1

theorem fits_iff : Fits n s ↔ t = s := by
  unfold Fits
  rw [h, some.injEq]

omit h

theorem fits_iff_width : Fits n s ↔ s.contains 0 = false ∧ width s ≤ n := by
  unfold Fits varchar
  cases hzero : s.contains 0 with
  | true => simp
  | false =>
    by_cases hwidth : width s ≤ n
    . simp [hwidth]
    . simp only [Bool.false_eq_true, if_false, hwidth, and_false, iff_false]
      have hle : width s ≤ s.length := countP_le_length
      split
      . intro h
        have hlength := congrArg List.length (some.inj h)
        rw [length_take] at hlength
        omega
      . simp

theorem fits_of_varchar (h : varchar n s = some t) : Fits n t := by
  have hzero : s.contains 0 = false := by
    unfold varchar at h
    split at h
    . simp at h
    . next hzero => simpa using hzero
  rcases varchar_eq_some h with ⟨k, rfl, hk⟩
  rw [contains_append, Bool.or_eq_false_iff] at hzero
  rcases hk with rfl | hwidth
  . rw [replicate_zero, append_nil] at h
    exact h
  . rw [fits_iff_width]
    exact ⟨hzero.1, by omega⟩

theorem fits_of_fits_append (h : Fits n (s ++ t)) : Fits n s := by
  rw [fits_iff_width, width_append, contains_append, Bool.or_eq_false_iff] at h
  rw [fits_iff_width]
  exact ⟨h.1.1, by omega⟩

end TextColumn
