import Mathlib

namespace List

variable {α : Type}

theorem append_cons_inj_of_first {a : α} {x x' z z' : List α} (hx : a ∉ x) (hx' : a ∉ x')
    (h : x ++ a :: z = x' ++ a :: z')
    : x = x' ∧ z = z' := by
  induction x generalizing x' with
  | nil =>
    cases x' with
    | nil => exact ⟨rfl, (cons.inj h).2⟩
    | cons b x' =>
      rw [nil_append, cons_append, cons.injEq] at h
      rw [h.1] at hx'
      exact absurd mem_cons_self hx'
  | cons b x ih =>
    cases x' with
    | nil =>
      rw [nil_append, cons_append, cons.injEq] at h
      rw [h.1] at hx
      exact absurd mem_cons_self hx
    | cons b' x' =>
      rw [cons_append, cons_append, cons.injEq] at h
      rcases ih (fun hmem => hx (mem_cons_of_mem _ hmem)) (fun hmem => hx' (mem_cons_of_mem _ hmem))
        h.2 with ⟨hxx', hzz'⟩
      exact ⟨by rw [h.1, hxx'], hzz'⟩

theorem append_cons_inj_of_last {a : α} {x x' z z' : List α} (hz : a ∉ z) (hz' : a ∉ z')
    (h : x ++ a :: z = x' ++ a :: z')
    : x = x' ∧ z = z' := by
  have hrev := congrArg reverse h
  simp only [reverse_append, reverse_cons, append_assoc, singleton_append] at hrev
  rcases append_cons_inj_of_first (fun hmem => hz (mem_reverse.mp hmem))
    (fun hmem => hz' (mem_reverse.mp hmem)) hrev with ⟨hzz', hxx'⟩
  exact ⟨reverse_injective hxx', reverse_injective hzz'⟩

def Overlaps (a : α) (x y x' y' : List α) : Prop :=
  ∃ u, x' = x ++ a :: u ∧ y = u ++ a :: y'

theorem append_cons_eq_append_cons_iff {a : α} {x y x' y' : List α}
    : x ++ a :: y = x' ++ a :: y'
        ↔
      (x = x' ∧ y = y') ∨ Overlaps a x y x' y' ∨ Overlaps a x' y' x y := by
  constructor
  . intro h
    rcases append_eq_append_iff.mp h with ⟨u, hx, hy⟩ | ⟨u, hx, hy⟩
    . cases u with
      | nil =>
        rw [append_nil] at hx
        exact .inl ⟨hx.symm, (cons.inj hy).2⟩
      | cons b u =>
        rw [cons_append, cons.injEq] at hy
        rw [← hy.1] at hx
        exact .inr (.inl ⟨u, hx, hy.2⟩)
    . cases u with
      | nil =>
        rw [append_nil] at hx
        exact .inl ⟨hx, (cons.inj hy).2.symm⟩
      | cons b u =>
        rw [cons_append, cons.injEq] at hy
        rw [← hy.1] at hx
        exact .inr (.inr ⟨u, hx, hy.2⟩)
  . rintro (⟨rfl, rfl⟩ | ⟨u, rfl, rfl⟩ | ⟨u, rfl, rfl⟩)
    . rfl
    . simp
    . simp

theorem intercalate_append {sep : List α} {l l' : List (List α)} (hl : l ≠ []) (hl' : l' ≠ [])
    : sep.intercalate (l ++ l') = sep.intercalate l ++ sep ++ sep.intercalate l' := by
  induction l with
  | nil => exact absurd rfl hl
  | cons a l ih =>
    cases l with
    | nil =>
      cases l' with
      | nil => exact absurd rfl hl'
      | cons b l' => rw [singleton_append, intercalate_cons_cons, intercalate_singleton]
    | cons b l =>
      rw [cons_append, cons_append, intercalate_cons_cons, ← cons_append, ih (by simp),
        intercalate_cons_cons]
      simp only [append_assoc]

section

variable [DecidableEq α]

def cut (sep : α) : List α → Option (List α × List α)
  | [] => none
  | a :: l => if a = sep then some ([], l) else (cut sep l).map fun (x, y) => (a :: x, y)

theorem cut_eq_some_iff {sep : α} {l x y : List α}
    : cut sep l = some (x, y) ↔ sep ∉ x ∧ l = x ++ sep :: y := by
  induction l generalizing x with
  | nil => simp [cut]
  | cons a l ih =>
    unfold cut
    split
    . next ha =>
      subst ha
      constructor
      . intro h
        simp only [Option.some.injEq, Prod.mk.injEq] at h
        simp [← h.1, ← h.2]
      . rintro ⟨hx, hl⟩
        rcases append_cons_inj_of_first not_mem_nil hx hl with ⟨hx, hl⟩
        rw [hx, hl]
    . next ha =>
      rw [Option.map_eq_some_iff]
      constructor
      . rintro ⟨⟨x', y'⟩, hcut, heq⟩
        rcases heq with ⟨rfl, rfl⟩
        rcases ih.mp hcut with ⟨hx', hl⟩
        refine ⟨?_, by rw [hl, cons_append]⟩
        rw [mem_cons, not_or]
        exact ⟨fun h => ha h.symm, hx'⟩
      . rintro ⟨hx, hl⟩
        cases x with
        | nil =>
          rw [nil_append, cons.injEq] at hl
          exact absurd hl.1 ha
        | cons b x =>
          rw [cons_append, cons.injEq] at hl
          refine ⟨(x, y), ih.mpr ⟨fun h => hx (mem_cons_of_mem _ h), hl.2⟩, ?_⟩
          rw [hl.1]

theorem cut_eq_none_iff {sep : α} {l : List α} : cut sep l = none ↔ sep ∉ l := by
  induction l with
  | nil => simp [cut]
  | cons a l ih =>
    unfold cut
    split
    . next ha => simp [ha]
    . next ha =>
      rw [Option.map_eq_none_iff, ih, mem_cons, not_or]
      simp [Ne.symm ha]

end

theorem exists_mem_of_mem_intercalate {a b : α} {pieces : List (List α)}
    (h : b ∈ [a].intercalate pieces) (hb : b ≠ a)
    : ∃ piece ∈ pieces, b ∈ piece := by
  induction pieces with
  | nil => simp at h
  | cons piece rest ih =>
    cases rest with
    | nil => exact ⟨piece, mem_cons_self, by simpa using h⟩
    | cons piece' rest =>
      rw [intercalate_cons_cons, mem_append, mem_append, mem_singleton] at h
      rcases h with (h | h) | h
      . exact ⟨piece, mem_cons_self, h⟩
      . exact absurd h hb
      . rcases ih h with ⟨found, hmem, hfound⟩
        exact ⟨found, mem_cons_of_mem _ hmem, hfound⟩

theorem exists_mem_splitOn_of_mem [BEq α] [LawfulBEq α] {a b : α} {l : List α} (h : b ∈ l)
    (hb : b ≠ a)
    : ∃ piece ∈ l.splitOn a, b ∈ piece := by
  apply exists_mem_of_mem_intercalate ?_ hb
  rw [intercalate_splitOn]
  exact h

theorem length_intercalate_singleton (a : α) (pieces : List (List α))
    : ([a].intercalate pieces).length = (pieces.map length).sum + (pieces.length - 1) := by
  induction pieces with
  | nil => rfl
  | cons piece rest ih =>
    cases rest with
    | nil => simp
    | cons piece' rest =>
      rw [intercalate_cons_cons, length_append, length_append, ih]
      simp only [map_cons, sum_cons, length_cons, length_nil]
      omega

end List
