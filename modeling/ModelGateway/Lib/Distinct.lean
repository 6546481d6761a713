import Mathlib.Data.List.Nodup

/-!
This module contains the elements of a list that are the first ones with their key.
-/

namespace Distinct

open List

variable {α κ : Type*} [DecidableEq κ] (key : α → κ)

def distinctBy (seen : List κ) : List α → List α
  | [] => []
  | a :: l =>
    if key a ∈ seen then distinctBy seen l else a :: distinctBy (key a :: seen) l

theorem distinctBy_congr {seen seen' : List κ} (h : ∀ k, k ∈ seen ↔ k ∈ seen') (l : List α)
    : distinctBy key seen l = distinctBy key seen' l := by
  induction l generalizing seen seen' with
  | nil => rfl
  | cons a l ih =>
    have hcons : ∀ k, k ∈ key a :: seen ↔ k ∈ key a :: seen' := by
      intro k
      rw [mem_cons, mem_cons, h]
    simp only [distinctBy, h, ih h, ih hcons]

theorem distinctBy_append (seen : List κ) (l l' : List α)
    : distinctBy key seen (l ++ l')
        =
      distinctBy key seen l ++ distinctBy key (seen ++ (distinctBy key seen l).map key) l' := by
  induction l generalizing seen with
  | nil => simp [distinctBy]
  | cons a l ih =>
    rw [cons_append, distinctBy, distinctBy]
    split
    . exact ih seen
    . rw [ih]
      rw [cons_append, map_cons]
      congr 2
      apply distinctBy_congr
      simp only [mem_append, mem_cons]
      tauto

theorem distinctBy_map {β : Type*} (f : β → α) (seen : List κ) (l : List β)
    : distinctBy key seen (l.map f) = (distinctBy (fun b => key (f b)) seen l).map f := by
  induction l generalizing seen with
  | nil => rfl
  | cons b l ih =>
    rw [map_cons, distinctBy, distinctBy]
    split
    . exact ih seen
    . rw [ih, map_cons]

theorem distinctBy_sublist (seen : List κ) (l : List α) : distinctBy key seen l <+ l := by
  induction l generalizing seen with
  | nil => exact .slnil
  | cons a l ih =>
    rw [distinctBy]
    split
    . exact (ih seen).cons a
    . exact (ih _).cons_cons a

theorem filter_distinctBy_eq_iff (p : α → Bool) (seen : List κ) (l : List α)
    : (distinctBy key seen l).filter p = l.filter p
        ↔
      (∀ a ∈ l, p a = true → key a ∉ seen) ∧ l.Pairwise fun a b => p b = true → key b ≠ key a := by
  induction l generalizing seen with
  | nil => simp [distinctBy]
  | cons a l ih =>
    rw [distinctBy, forall_mem_cons, pairwise_cons]
    split
    . next hseen =>
      by_cases hp : p a = true
      . -- a selected element that is left out makes the selection shorter
        have hle := ((distinctBy_sublist key seen l).filter p).length_le
        rw [filter_cons_of_pos hp]
        refine iff_of_false ?_ fun h => h.1.1 hp hseen
        intro h
        rw [h, length_cons] at hle
        omega
      . rw [filter_cons_of_neg hp, ih]
        constructor
        . rintro ⟨hnew, hpairs⟩
          refine ⟨⟨fun h => absurd h hp, hnew⟩, ?_, hpairs⟩
          intro b hb hpb hkey
          exact hnew b hb hpb (hkey ▸ hseen)
        . rintro ⟨⟨_, hnew⟩, _, hpairs⟩
          exact ⟨hnew, hpairs⟩
    . next hseen =>
      have hrest : (a :: distinctBy key (key a :: seen) l).filter p = (a :: l).filter p
          ↔ (distinctBy key (key a :: seen) l).filter p = l.filter p := by
        rw [filter_cons, filter_cons]
        split
        . rw [cons_inj_right]
        . rfl
      rw [hrest, ih]
      simp only [mem_cons, not_or]
      constructor
      . rintro ⟨hnew, hpairs⟩
        exact ⟨⟨fun _ => hseen, fun b hb hpb => (hnew b hb hpb).2⟩, fun b hb hpb => (hnew b hb hpb).1, hpairs⟩
      . rintro ⟨⟨_, hnew⟩, hfirst, hpairs⟩
        exact ⟨fun b hb hpb => ⟨hfirst b hb hpb, hnew b hb hpb⟩, hpairs⟩

theorem mem_distinctBy {seen : List κ} {l : List α} {a : α}
    : a ∈ distinctBy key seen l ↔ key a ∉ seen ∧ l.find? (fun b => key b = key a) = some a := by
  induction l generalizing seen with
  | nil => simp [distinctBy]
  | cons b l ih =>
    rw [distinctBy, find?_cons]
    by_cases hkey : key b = key a
    . rw [hkey]
      by_cases hseen : key a ∈ seen
      . simp [hseen, ih]
      . simp only [hseen, if_false, mem_cons, ih, decide_true, Option.some.injEq]
        simp [eq_comm]
    . have hne : key a ≠ key b := Ne.symm hkey
      simp only [hkey, decide_false]
      split
      . exact ih
      . rw [mem_cons, ih, mem_cons]
        have hab : a ≠ b := fun h => hkey (h ▸ rfl)
        simp [hab, hne]

theorem nodup_map_distinctBy (seen : List κ) (l : List α) : ((distinctBy key seen l).map key).Nodup := by
  induction l generalizing seen with
  | nil => exact nodup_nil
  | cons a l ih =>
    rw [distinctBy]
    split
    . exact ih seen
    . rw [map_cons, nodup_cons]
      refine ⟨?_, ih _⟩
      intro hmem
      rcases mem_map.mp hmem with ⟨b, hb, hkey⟩
      exact ((mem_distinctBy key).mp hb).1 (hkey ▸ mem_cons_self)

theorem exists_mem_distinctBy {seen : List κ} {l : List α} {a : α} (ha : a ∈ l) (hnew : key a ∉ seen)
    : ∃ b ∈ distinctBy key seen l, key b = key a := by
  have hsome : (l.find? fun b => key b = key a).isSome = true := by
    rw [find?_isSome]
    exact ⟨a, ha, by simp⟩
  rcases Option.isSome_iff_exists.mp hsome with ⟨b, hb⟩
  have hkey : key b = key a := by simpa using find?_some hb
  exact ⟨b, (mem_distinctBy key).mpr ⟨hkey ▸ hnew, hkey ▸ hb⟩, hkey⟩

theorem mem_map_distinctBy {l : List α} {k : κ}
    : k ∈ (distinctBy key [] l).map key ↔ ∃ a ∈ l, key a = k := by
  rw [mem_map]
  simp only [mem_distinctBy, not_mem_nil, not_false_eq_true, true_and]
  constructor
  . rintro ⟨a, hfirst, hkey⟩
    exact ⟨a, mem_of_find?_eq_some hfirst, hkey⟩
  . rintro ⟨a, ha, rfl⟩
    rcases exists_mem_distinctBy key ha (not_mem_nil (a := key a)) with ⟨b, hb, hkey⟩
    exact ⟨b, ((mem_distinctBy key).mp hb).2, hkey⟩

end Distinct
