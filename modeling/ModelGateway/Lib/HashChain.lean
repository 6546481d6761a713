import Mathlib.Data.List.Induction
import Mathlib.Logic.Function.Basic

namespace HashChain

open List Function

section

variable {α : Type*} (number : Nat → List α) (sep : α)

def frame (part : List α) : List α :=
  number part.length ++ sep :: (part ++ [sep])

variable {number sep}

theorem append_sep_inj {l l' t t' : List α} (hl : sep ∉ l) (hl' : sep ∉ l')
    (h : l ++ sep :: t = l' ++ sep :: t')
    : l = l' ∧ t = t' := by
  induction l generalizing l' with
  | nil =>
    cases l' with
    | nil => simpa using h
    | cons a l' =>
      simp only [nil_append, cons_append, List.cons.injEq] at h
      exact absurd (by simp [h.1]) hl'
  | cons a l ih =>
    cases l' with
    | nil =>
      simp only [nil_append, cons_append, List.cons.injEq] at h
      exact absurd (by simp [← h.1]) hl
    | cons a' l' =>
      simp only [cons_append, List.cons.injEq] at h
      rcases ih (by simp_all) (by simp_all) h.2 with ⟨hrest, htail⟩
      rw [h.1, hrest]
      exact ⟨rfl, htail⟩

theorem frame_append_inj (hnumber : Injective number) (hsep : ∀ n, sep ∉ number n)
    {part part' t t' : List α} (h : frame number sep part ++ t = frame number sep part' ++ t')
    : part = part' ∧ t = t' := by
  unfold frame at h
  rw [append_assoc, append_assoc, cons_append, cons_append] at h
  rcases append_sep_inj (hsep _) (hsep _) h with ⟨hlength, hrest⟩
  rw [append_assoc, append_assoc] at hrest
  rcases append_inj hrest (hnumber hlength) with ⟨hpart, htail⟩
  exact ⟨hpart, by simpa using htail⟩

theorem frames_injective (hnumber : Injective number) (hsep : ∀ n, sep ∉ number n)
    : Injective fun parts : List (List α) => parts.flatMap (frame number sep) := by
  intro parts
  induction parts with
  | nil =>
    intro parts' h
    cases parts' with
    | nil => rfl
    | cons part' parts' => simp [frame] at h
  | cons part parts ih =>
    intro parts' h
    cases parts' with
    | nil => simp [frame] at h
    | cons part' parts' =>
      dsimp only at h
      rw [flatMap_cons, flatMap_cons] at h
      rcases frame_append_inj hnumber hsep h with ⟨hpart, hrest⟩
      rw [hpart, ih hrest]

end

section

variable {β η : Type*} (digest : β → η → η) (genesis : η)

def head (l : List β) : η :=
  l.foldl (fun prev b => digest b prev) genesis

@[simp]
theorem head_append (l : List β) (b : β)
    : head digest genesis (l ++ [b]) = digest b (head digest genesis l) := by
  unfold head
  rw [foldl_append]
  rfl

variable {digest genesis}

theorem head_injective
    (hdigest : ∀ b b' prev prev', digest b prev = digest b' prev' → b = b' ∧ prev = prev')
    (hgenesis : ∀ b prev, digest b prev ≠ genesis)
    : Injective (head digest genesis) := by
  intro l
  induction l using reverseRecOn with
  | nil =>
    intro l' h
    cases l' using reverseRecOn with
    | nil => rfl
    | append_singleton l' b' =>
      rw [head_append] at h
      exact absurd h.symm (hgenesis b' _)
  | append_singleton l b ih =>
    intro l' h
    cases l' using reverseRecOn with
    | nil =>
      rw [head_append] at h
      exact absurd h (hgenesis b _)
    | append_singleton l' b' =>
      rw [head_append, head_append] at h
      rcases hdigest _ _ _ _ h with ⟨hlast, hrest⟩
      rw [hlast, ih hrest]

end

end HashChain
