import Mathlib.Data.List.AList
import Mathlib.Data.List.Induction
import Mathlib.Data.List.Nodup
import Mathlib.Tactic.Common

/-!
This module contains tables: lists of rows with a primary key and a check of each row.
-/

namespace Table

open List

variable {α κ : Type} (key : α → κ) {rows : List α}

def Unique (rows : List α) : Prop :=
  (rows.map key).Nodup

instance [DecidableEq κ] (rows : List α) : Decidable (Unique key rows) :=
  inferInstanceAs (Decidable (List.Nodup _))

theorem unique_append_iff {r : α}
    : Unique key (rows ++ [r]) ↔ Unique key rows ∧ key r ∉ rows.map key := by
  unfold Unique
  rw [map_append, map_singleton, nodup_append_comm, singleton_append, nodup_cons]
  exact and_comm

def Holds (check : α → Prop) (rows : List α) : Prop :=
  Unique key rows ∧ ∀ r ∈ rows, check r

instance [DecidableEq κ] (check : α → Prop) [DecidablePred check] (rows : List α)
    : Decidable (Holds key check rows) :=
  inferInstanceAs (Decidable (_ ∧ _))

theorem Unique.eq_of_mem (h : Unique key rows) {r s : α} (hr : r ∈ rows) (hs : s ∈ rows)
    (hkey : key r = key s)
    : r = s :=
  inj_on_of_nodup_map h hr hs hkey

variable [DecidableEq κ]

def get (rows : List α) (k : κ) : Option α :=
  rows.find? fun r => key r = k

def update (rows : List α) (k : κ) (f : α → α) : List α :=
  rows.map fun r => if key r = k then f r else r

variable {k : κ} {r : α}

theorem get_eq_some (h : get key rows k = some r) : r ∈ rows ∧ key r = k := by
  unfold get at h
  have hkey := find?_some h
  exact ⟨mem_of_find?_eq_some h, of_decide_eq_true hkey⟩

theorem get_eq_none_iff : get key rows k = none ↔ k ∉ rows.map key := by
  unfold get
  simp [find?_eq_none]

theorem get_isSome_iff : (get key rows k).isSome ↔ k ∈ rows.map key := by
  rw [← not_iff_not, ← get_eq_none_iff, Option.not_isSome_iff_eq_none]

theorem get_eq_some_iff (h : Unique key rows) : get key rows k = some r ↔ r ∈ rows ∧ key r = k := by
  refine ⟨get_eq_some key, ?_⟩
  rintro ⟨hr, rfl⟩
  cases hget : get key rows (key r) with
  | none => exact absurd (mem_map_of_mem hr) ((get_eq_none_iff key).mp hget)
  | some s =>
    rcases get_eq_some key hget with ⟨hs, hkey⟩
    rw [h.eq_of_mem key hs hr hkey]

section

variable {f : α → α}

theorem map_update {β : Type} {g : α → β} (hf : ∀ r ∈ rows, key r = k → g (f r) = g r)
    : (update key rows k f).map g = rows.map g := by
  unfold update
  rw [map_map]
  apply map_congr_left
  intro r hr
  rw [Function.comp_apply]
  split
  . next h => exact hf r hr h
  . rfl

theorem mem_update_iff {s : α}
    : s ∈ update key rows k f ↔ (s ∈ rows ∧ key s ≠ k) ∨ ∃ r ∈ rows, key r = k ∧ f r = s := by
  unfold update
  rw [mem_map]
  constructor
  . rintro ⟨r, hr, rfl⟩
    split
    . next h => exact .inr ⟨r, hr, h, rfl⟩
    . next h => exact .inl ⟨hr, h⟩
  . rintro (⟨hs, hne⟩ | ⟨r, hr, hkey, rfl⟩)
    . exact ⟨s, hs, if_neg hne⟩
    . exact ⟨r, hr, if_pos hkey⟩

theorem filter_update {p : α → Bool} (hf : ∀ r ∈ rows, key r = k → p r = false ∧ p (f r) = false)
    : (update key rows k f).filter p = rows.filter p := by
  unfold update
  induction rows with
  | nil => rfl
  | cons r rows ih =>
    rw [forall_mem_cons] at hf
    rw [map_cons]
    by_cases hr : key r = k
    . rcases hf.1 hr with ⟨hbefore, hafter⟩
      rw [if_pos hr, filter_cons_of_neg (by simp [hafter]), filter_cons_of_neg (by simp [hbefore]),
        ih hf.2]
    . rw [if_neg hr, filter_cons, filter_cons, ih hf.2]

theorem get_update (hf : ∀ r, key r = k → key (f r) = key r) (k' : κ)
    : get key (update key rows k f) k'
        =
      if k' = k then (get key rows k').map f else get key rows k' := by
  unfold get update
  induction rows with
  | nil => simp
  | cons r rows ih =>
    rw [map_cons, find?_cons, find?_cons, ih]
    by_cases hr : key r = k
    . rw [if_pos hr, hf r hr]
      by_cases hk : k' = k
      . simp [hr, hk]
      . simp [hr, hk, Ne.symm hk]
    . rw [if_neg hr]
      by_cases hk : k' = k
      . subst hk
        simp [hr]
      . simp [hk]

end

section

variable {β : Type} (value : α → β)

def index (rows : List α) : AList fun _ : κ => β :=
  rows.foldl (fun m r => m.insert (key r) (value r)) ∅

theorem index_append (rows : List α) (r : α)
    : index key value (rows ++ [r]) = (index key value rows).insert (key r) (value r) := by
  unfold index
  rw [foldl_append]
  rfl

theorem mem_of_lookup_index {b : β} (h : (index key value rows).lookup k = some b)
    : ∃ r ∈ rows, key r = k ∧ value r = b := by
  induction rows using reverseRecOn with
  | nil => simp [index] at h
  | append_singleton rows r ih =>
    rw [index_append] at h
    by_cases hk : k = key r
    . rw [hk, AList.lookup_insert, Option.some.injEq] at h
      exact ⟨r, by simp, hk.symm, h⟩
    . rw [AList.lookup_insert_ne hk] at h
      rcases ih h with ⟨r', hr', hk'⟩
      exact ⟨r', by simp [hr'], hk'⟩

@[simp]
theorem lookup_index_isSome_iff : ((index key value rows).lookup k).isSome ↔ ∃ r ∈ rows, key r = k := by
  induction rows using reverseRecOn with
  | nil => simp [index]
  | append_singleton rows r ih =>
    rw [index_append]
    by_cases hk : k = key r
    . subst hk
      simp
    . rw [AList.lookup_insert_ne hk, ih]
      simp [Ne.symm hk]

theorem lookup_index (h : Unique key rows) (k : κ)
    : (index key value rows).lookup k = (get key rows k).map value := by
  induction rows using reverseRecOn with
  | nil => rfl
  | append_singleton rows r ih =>
    rcases (unique_append_iff key).mp h with ⟨hrows, hfresh⟩
    rw [index_append]
    unfold get at ih ⊢
    rw [find?_append]
    by_cases hk : k = key r
    . subst hk
      have hnone := (get_eq_none_iff key).mpr hfresh
      unfold get at hnone
      rw [AList.lookup_insert, hnone]
      simp
    . rw [AList.lookup_insert_ne hk, ih hrows]
      simp [Ne.symm hk]

end

end Table
