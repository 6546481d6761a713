import Mathlib

/-!
This module contains what a sum over a finite family becomes when one member of the family changes.
-/

namespace Totals

open List

theorem sum_update_add [Fintype ι] [DecidableEq ι] [AddCommMonoid M] (f : ι → α) (g : α → M) (i : ι)
    (a : α)
    : (∑ j, g (Function.update f i a j)) + g (f i) = (∑ j, g (f j)) + g a := by
  have hcomp : (fun j => g (Function.update f i a j)) = Function.update (fun j => g (f j)) i (g a) := by
    funext j
    rw [Function.apply_update (fun _ => g)]
  rw [hcomp]
  rw [Finset.sum_update_of_mem (Finset.mem_univ i)]
  rw [Finset.sum_eq_add_sum_sdiff_singleton_of_mem (Finset.mem_univ i) (fun j => g (f j))]
  ac_rfl

theorem sum_set_add [AddCommMonoid M] {l : List α} {i : Nat} {b : α} (hi : l[i]? = some b)
    (g : α → M) (a : α)
    : ((l.set i a).map g).sum + g b = (l.map g).sum + g a := by
  induction l generalizing i with
  | nil => simp at hi
  | cons x xs ih =>
    cases i with
    | zero =>
      rw [getElem?_cons_zero] at hi
      rw [Option.some.inj hi]
      simp only [set_cons_zero, map_cons, sum_cons]
      ac_rfl
    | succ i =>
      rw [getElem?_cons_succ] at hi
      simp only [set_cons_succ, map_cons, sum_cons]
      rw [add_assoc, ih hi, add_assoc]

theorem sum_eq_countP {l : List α} {g : α → Int} {p : α → Bool}
    (h : ∀ a ∈ l, g a = if p a then 1 else 0)
    : (l.map g).sum = l.countP p := by
  induction l with
  | nil => rfl
  | cons a l ih =>
    rw [forall_mem_cons] at h
    rw [map_cons, sum_cons, ih h.2, h.1, countP_cons]
    split
    . push_cast
      omega
    . simp

end Totals
