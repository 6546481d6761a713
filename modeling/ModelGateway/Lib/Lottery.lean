import Mathlib.Algebra.Order.BigOperators.Group.List
import Mathlib.Data.List.Range
import Mathlib.Data.Rat.Floor
import Mathlib.Tactic.Positivity

namespace Lottery

open List

variable {α : Type}

section

variable (weight : α → Nat)

def total (l : List α) : Nat :=
  (l.map weight).sum

def pick : List α → Nat → Option α
  | [], _ => none
  | a :: l, ticket => if ticket < weight a then some a else pick l (ticket - weight a)

@[simp]
theorem total_cons (a : α) (l : List α) : total weight (a :: l) = weight a + total weight l := by
  simp [total]

theorem total_perm {l l' : List α} (h : l.Perm l') : total weight l = total weight l' :=
  (h.map weight).sum_eq

theorem le_total_of_mem {l : List α} {a : α} (ha : a ∈ l) : weight a ≤ total weight l :=
  le_sum_of_mem (mem_map_of_mem ha)

theorem total_filter_add (p : α → Bool) (l : List α)
    : total weight (l.filter p) + total weight (l.filter fun a => !p a) = total weight l := by
  induction l with
  | nil => simp [total]
  | cons a l ih =>
    rw [total_cons, ← ih]
    cases hp : p a with
    | true => simp [hp, Nat.add_assoc]
    | false => simp [hp, Nat.add_left_comm]

theorem pick_isSome_of_lt {l : List α} {ticket : Nat} (h : ticket < total weight l)
    : ∃ a, pick weight l ticket = some a := by
  induction l generalizing ticket with
  | nil => simp [total] at h
  | cons a l ih =>
    rw [total_cons] at h
    unfold pick
    split
    . exact ⟨a, rfl⟩
    . exact ih (by omega)

theorem countP_pick (p : α → Bool) (l : List α)
    : (List.range (total weight l)).countP (fun ticket => (pick weight l ticket).any p)
        =
      total weight (l.filter p) := by
  induction l with
  | nil => simp [total]
  | cons a l ih =>
    rw [total_cons, range_add, countP_append, countP_map]
    have hfirst : (List.range (weight a)).countP (fun ticket => (pick weight (a :: l) ticket).any p)
        = if p a then weight a else 0 := by
      rw [countP_congr (q := fun _ => p a)]
      . cases p a <;> simp
      . intro ticket hticket
        rw [mem_range] at hticket
        simp [pick, hticket]
    have hrest : (fun ticket => (pick weight (a :: l) ticket).any p) ∘ (weight a + ·)
        = fun ticket => (pick weight l ticket).any p := by
      funext ticket
      simp [pick]
    rw [hfirst, hrest, ih]
    cases hp : p a with
    | true => simp [filter_cons_of_pos hp]
    | false => simp [filter_cons_of_neg (by simpa using hp)]

end

section

/-- The fraction of the draws with a property, which is constant between points of a grid. -/
def Fraction (P : ℚ → Bool) (f : ℚ) : Prop :=
  ∃ n : Nat, 0 < n ∧ (∀ draw, 0 ≤ draw → draw < 1 → P draw = P ((⌊draw * n⌋₊ : ℚ) / n)) ∧
    f = (List.range n).countP (fun k : Nat => P ((k : ℚ) / n)) / n

theorem floor_lt_of_draw {draw : ℚ} {n : Nat} (h : draw < 1) (hn : 0 < n) : ⌊draw * n⌋₊ < n := by
  have hpos : (0 : ℚ) < n := by exact_mod_cast hn
  rw [Nat.floor_lt' (by omega)]
  exact mul_lt_of_lt_one_left hpos h

theorem grid_point {n k : Nat} (hk : k < n)
    : 0 ≤ (k : ℚ) / n ∧ (k : ℚ) / n < 1 ∧ ⌊(k : ℚ) / n * n⌋₊ = k := by
  have hpos : (0 : ℚ) < n := by exact_mod_cast Nat.lt_of_le_of_lt (Nat.zero_le k) hk
  refine ⟨by positivity, ?_, ?_⟩
  . rw [div_lt_one hpos]
    exact_mod_cast hk
  . rw [div_mul_cancel₀ _ hpos.ne', Nat.floor_natCast]

theorem Fraction.of_tickets {P : ℚ → Bool} {owns : Nat → Bool} {n : Nat} (hn : 0 < n)
    (h : ∀ draw, 0 ≤ draw → draw < 1 → P draw = owns ⌊draw * n⌋₊)
    : Fraction P ((List.range n).countP owns / n) := by
  have hgrid : ∀ k, k < n → P ((k : ℚ) / n) = owns k := by
    intro k hk
    rcases grid_point hk with ⟨hnonneg, hlt, hfloor⟩
    rw [h _ hnonneg hlt, hfloor]
  refine ⟨n, hn, ?_, ?_⟩
  . intro draw hnonneg hlt
    rw [h draw hnonneg hlt, hgrid _ (floor_lt_of_draw hlt hn)]
  . congr 2
    apply countP_congr
    intro k hk
    rw [hgrid k (mem_range.mp hk)]

theorem fraction_const_iff {P : ℚ → Bool} {b : Bool} {f : ℚ}
    (h : ∀ draw, 0 ≤ draw → draw < 1 → P draw = b)
    : Fraction P f ↔ f = if b then 1 else 0 := by
  have hcount : ∀ n : Nat, 0 < n →
      ((List.range n).countP (fun k : Nat => P ((k : ℚ) / n)) : ℚ) / n = if b then 1 else 0 := by
    intro n hn
    have hpos : (0 : ℚ) < n := by exact_mod_cast hn
    rw [countP_congr (q := fun _ => b)]
    . cases b with
      | true => simp [hpos.ne']
      | false => simp
    . intro k hk
      rcases grid_point (mem_range.mp hk) with ⟨hnonneg, hlt, _⟩
      rw [h _ hnonneg hlt]
  constructor
  . rintro ⟨n, hn, _, hf⟩
    rw [hf, hcount n hn]
  . intro hf
    refine ⟨1, Nat.one_pos, ?_, ?_⟩
    . intro draw hnonneg hlt
      rcases grid_point (floor_lt_of_draw hlt Nat.one_pos) with ⟨hnonneg', hlt', _⟩
      rw [h draw hnonneg hlt, h _ hnonneg' hlt']
    . rw [hf, hcount 1 Nat.one_pos]

end

end Lottery
