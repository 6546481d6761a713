import Mathlib.Data.List.Induction
import Mathlib.Data.List.Sort

/-!
This module contains sorting by the insertion of one element after the other.
-/

namespace Insertion

open List

variable {α : Type} {r R : α → α → Prop} [DecidableRel r] {x : α} {xs : List α}

theorem perm_foldl : (xs.foldl (fun sorted x => sorted.orderedInsert r x) []).Perm xs := by
  induction xs using reverseRecOn with
  | nil => exact .refl _
  | append_singleton xs x ih =>
    rw [foldl_concat]
    exact (perm_orderedInsert r x _).trans ((ih.cons x).trans (perm_append_singleton x xs).symm)

section

variable (hr : ∀ a b, r a b → R a b) (htrans : ∀ a b c, r a b → R b c → R a c)

include hr htrans

theorem pairwise_orderedInsert (h : xs.Pairwise R) (hx : ∀ y ∈ xs, ¬ r x y → R y x)
    : (xs.orderedInsert r x).Pairwise R := by
  induction xs with
  | nil => exact pairwise_singleton R x
  | cons y ys ih =>
    have hys := pairwise_cons.mp h
    rw [orderedInsert_cons]
    split
    . next hxy =>
      apply List.Pairwise.cons _ h
      intro z hz
      rcases mem_cons.mp hz with rfl | hz
      . exact hr _ _ hxy
      . exact htrans _ _ _ hxy (hys.1 z hz)
    . next hxy =>
      apply List.Pairwise.cons _ (ih hys.2 fun z hz => hx z (mem_cons_of_mem _ hz))
      intro z hz
      rcases (mem_orderedInsert r).mp hz with rfl | hz
      . exact hx y mem_cons_self hxy
      . exact hys.1 z hz

theorem pairwise_foldl (h : xs.Pairwise (fun a b => ¬ r b a → R a b))
    : (xs.foldl (fun sorted x => sorted.orderedInsert r x) []).Pairwise R := by
  induction xs using reverseRecOn with
  | nil => exact .nil
  | append_singleton xs x ih =>
    rw [pairwise_append] at h
    rw [foldl_concat]
    apply pairwise_orderedInsert hr htrans (ih h.1)
    intro y hy
    exact h.2.2 y (perm_foldl.mem_iff.mp hy) x (mem_singleton_self x)

end

theorem filter_orderedInsert {p : α → Bool} (h : ∀ y, p x → p y → r x y)
    : (xs.orderedInsert r x).filter p = (x :: xs).filter p := by
  induction xs with
  | nil => rfl
  | cons y ys ih =>
    rw [orderedInsert_cons]
    split
    . rfl
    . next hxy =>
      rw [filter_cons, ih, filter_cons, filter_cons, filter_cons]
      cases hx : p x with
      | false => simp
      | true =>
        have hy : ¬ p y = true := fun hy => hxy (h y hx hy)
        simp [hy]

theorem filter_foldl {p : α → Bool} (h : ∀ x y, p x → p y → r x y)
    : (xs.foldl (fun sorted x => sorted.orderedInsert r x) []).filter p = (xs.filter p).reverse := by
  induction xs using reverseRecOn with
  | nil => rfl
  | append_singleton xs x ih =>
    rw [foldl_concat, filter_orderedInsert (h x), ← filter_reverse, reverse_concat, filter_cons, filter_cons,
      ih, filter_reverse]

end Insertion
