import Mathlib.Data.List.Basic

namespace List

variable {α : Type}

theorem foldl_modify_getElem? (f : Nat → α → α) {places : List Nat} (h : places.Nodup) (l : List α)
    (i : Nat)
    : (places.foldl (fun l j => l.modify j (f j)) l)[i]?
        =
      if i ∈ places then l[i]?.map (f i) else l[i]? := by
  induction places generalizing l with
  | nil => simp
  | cons j places ih =>
    rw [nodup_cons] at h
    rw [foldl_cons, ih h.2, getElem?_modify]
    by_cases hi : i = j
    . subst hi
      simp [h.1]
    . simp [hi, Ne.symm hi]

theorem bind_getElem?_eq_some_iff {l : List α} {place : Option Nat} {i : Nat} {a : α}
    : (place.bind fun i => l[i]?.map fun a => (i, a)) = some (i, a)
        ↔
      place = some i ∧ l[i]? = some a := by
  constructor
  . intro h
    rcases Option.bind_eq_some_iff.mp h with ⟨j, hplace, hj⟩
    rcases Option.map_eq_some_iff.mp hj with ⟨b, hb, heq⟩
    rw [Prod.mk.injEq] at heq
    rw [← heq.1, ← heq.2]
    exact ⟨hplace, hb⟩
  . rintro ⟨rfl, ha⟩
    simp [ha]

end List
