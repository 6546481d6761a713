import Mathlib.Data.List.Pairwise
import Mathlib.Order.WellFounded

/-!
This module contains the greedy choice of intervals that do not overlap.
-/

namespace Intervals

open List

variable {α τ : Type} [LinearOrder τ] (start finish : α → τ)

def select : List α → Option τ → List α
  | [], _ => []
  | x :: xs, last =>
    if last.any (start x < ·) then select xs last else x :: select xs (some (finish x))

def Covers (xs : List α) (i : τ) : Prop :=
  ∃ x ∈ xs, start x ≤ i ∧ i < finish x

variable {start finish} {xs : List α} {last : Option τ}

theorem select_sublist : (select start finish xs last).Sublist xs := by
  induction xs generalizing last with
  | nil => exact Sublist.slnil
  | cons x xs ih =>
    unfold select
    split
    . exact ih.cons x
    . exact ih.cons_cons x

theorem le_start_of_mem_select (h : ∀ x ∈ xs, start x ≤ finish x) {l : τ} {x : α}
    (hx : x ∈ select start finish xs (some l))
    : l ≤ start x := by
  induction xs generalizing l with
  | nil => simp [select] at hx
  | cons y ys ih =>
    have hys : ∀ x ∈ ys, start x ≤ finish x := fun x hx => h x (by simp [hx])
    unfold select at hx
    split at hx
    . exact ih hys hx
    . next hskip =>
      have hy := h y (by simp)
      simp only [Option.any_some, decide_eq_true_eq, not_lt] at hskip
      rcases mem_cons.mp hx with rfl | hx
      . exact hskip
      . exact (hskip.trans hy).trans (ih hys hx)

theorem select_disjoint (h : ∀ x ∈ xs, start x ≤ finish x)
    : (select start finish xs last).Pairwise (fun a b => finish a ≤ start b) := by
  induction xs generalizing last with
  | nil => exact List.Pairwise.nil
  | cons x xs ih =>
    have hxs : ∀ x ∈ xs, start x ≤ finish x := fun x hx => h x (by simp [hx])
    unfold select
    split
    . exact ih hxs
    . apply List.Pairwise.cons _ (ih hxs)
      intro y hy
      apply le_start_of_mem_select hxs hy

section

variable {R : α → α → Prop}

variable (start finish last) in
theorem select_skips (hR : xs.Pairwise R) {b : α} (hb : b ∈ xs)
    : b ∈ select start finish xs last ∨
      (∃ a ∈ select start finish xs last, R a b ∧ start b < finish a) ∨
      ∃ l, last = some l ∧ start b < l := by
  induction xs generalizing last with
  | nil => simp at hb
  | cons x xs ih =>
    rw [pairwise_cons] at hR
    unfold select
    split
    . next hskip =>
      rcases mem_cons.mp hb with rfl | hb
      . right
        right
        cases last with
        | none => simp at hskip
        | some l => exact ⟨l, rfl, by simpa using hskip⟩
      . exact ih last hR.2 hb
    . rcases mem_cons.mp hb with rfl | hb
      . exact .inl (by simp)
      . rcases ih (some (finish x)) hR.2 hb with hkept | ⟨a, ha, hab, hlt⟩ | ⟨l, hl, hlt⟩
        . exact .inl (by simp [hkept])
        . exact .inr (.inl ⟨a, by simp [ha], hab, hlt⟩)
        . cases hl
          exact .inr (.inl ⟨x, by simp, hR.1 b hb, hlt⟩)

variable (start finish) in
theorem select_none_skips (hR : xs.Pairwise R) {b : α} (hb : b ∈ xs)
    : b ∈ select start finish xs none ∨
      ∃ a ∈ select start finish xs none, R a b ∧ start b < finish a := by
  rcases select_skips start finish none hR hb with hkept | hskipped | ⟨l, hl, _⟩
  . exact .inl hkept
  . exact .inr hskipped
  . cases hl

theorem eq_or_related (hR : xs.Pairwise R) {a b : α} (ha : a ∈ xs) (hb : b ∈ xs)
    : a = b ∨ R a b ∨ R b a := by
  have hsymm : xs.Pairwise (fun a b => R a b ∨ R b a) := hR.imp Or.inl
  have : Std.Symm (fun a b => R a b ∨ R b a) := ⟨fun _ _ => Or.symm⟩
  by_cases heq : a = b
  . exact .inl heq
  . exact .inr (hsymm.forall ha hb heq)

theorem finish_le_start (hR : xs.Pairwise R) (hwf : WellFounded R)
    (h : ∀ x ∈ xs, start x ≤ finish x) {a b : α} (ha : a ∈ select start finish xs last)
    (hb : b ∈ select start finish xs last) (hab : R a b)
    : finish a ≤ start b := by
  have hkept : (select start finish xs last).Pairwise (fun a b => R a b ∧ finish a ≤ start b) :=
    (hR.sublist select_sublist).and (select_disjoint h)
  rcases eq_or_related hkept ha hb with rfl | hbefore | hafter
  . exact absurd hab (hwf.asymmetric _ _ hab)
  . exact hbefore.2
  . exact absurd hab (hwf.asymmetric _ _ hafter.1)

variable (start finish) in
/-- An interval that reaches past one it overlaps lies, with it, inside an earlier one. -/
def Nested (R : α → α → Prop) (xs : List α) : Prop :=
  ∀ a ∈ xs, ∀ b ∈ xs, R a b → start b < finish a → finish a < finish b →
    ∃ c ∈ xs, R c a ∧ finish b ≤ finish c

theorem exists_kept_of_nested (hR : xs.Pairwise R) (hwf : WellFounded R)
    (htrans : ∀ {a b c}, R a b → R b c → R a c) (hstart : ∀ {a b}, R a b → start a ≤ start b)
    (hnested : Nested start finish R xs) {b : α} (hb : b ∈ xs)
    : ∃ k ∈ select start finish xs none, start k ≤ start b ∧ finish b ≤ finish k := by
  -- The induction is along the order: what contains an interval that was skipped is earlier.
  induction b using hwf.induction with
  | h b ih =>
    rcases select_none_skips start finish hR hb with hkept | ⟨a, ha, hab, hlt⟩
    . exact ⟨b, hkept, le_refl _, le_refl _⟩
    . by_cases hinside : finish b ≤ finish a
      . exact ⟨a, ha, hstart hab, hinside⟩
      . rcases hnested a (select_sublist.subset ha) b hb hab hlt (not_le.mp hinside) with ⟨c, hc, hca, hfinish⟩
        have hcb := htrans hca hab
        rcases ih c hcb hc with ⟨k, hk, hstartk, hfinishk⟩
        exact ⟨k, hk, hstartk.trans (hstart hcb), hfinish.trans hfinishk⟩

theorem nested_of_covered (hR : xs.Pairwise R) (htrans : ∀ {a b c}, R a b → R b c → R a c)
    (hgap : ∀ a ∈ select start finish xs none, ∀ b ∈ xs, R a b → start b < finish a →
      finish a < finish b →
      ∃ x ∈ xs, ∃ i, start x ≤ i ∧ i < finish x ∧
        ¬ Covers start finish (select start finish xs none) i)
    (hcovered : ∀ x ∈ xs, ∀ i, start x ≤ i → i < finish x →
      Covers start finish (select start finish xs none) i)
    : Nested start finish R xs := by
  have hinside : ∀ k ∈ select start finish xs none, ∀ x ∈ xs, R k x → start x < finish k →
      finish x ≤ finish k := by
    intro k hk x hx hkx hlt
    by_contra hgt
    rcases hgap k hk x hx hkx hlt (not_le.mp hgt) with ⟨y, hy, i, hi, hi', hnot⟩
    exact hnot (hcovered y hy i hi hi')
  intro a ha b hb hab hlt hgt
  rcases select_none_skips start finish hR ha with hkept | ⟨k, hk, hka, hltk⟩
  . exact absurd (hinside a hkept b hb hab hlt) (not_le.mpr hgt)
  . have hle := hinside k hk a ha hka hltk
    exact ⟨k, select_sublist.subset hk, hka, hinside k hk b hb (htrans hka hab) (hlt.trans_le hle)⟩

end

end Intervals
