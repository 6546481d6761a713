import Mathlib.Logic.Function.Basic
import Mathlib.Tactic.Common

namespace RowLock

open Function

structure Task (ι σ τ : Type*) where
  row : ι
  seen : σ
  todo : τ

structure Rows (ι σ τ : Type*) where
  state : ι → σ
  lock : ι → Option Nat
  tasks : Nat → Option (Task ι σ τ)

namespace Rows

variable {ι σ τ : Type*}

section

variable (r : Rows ι σ τ) (t : Nat)

def read [DecidableEq ι] (i : ι) (todo : τ) (locks : Bool) : Rows ι σ τ :=
  { r with
    lock := if locks then Function.update r.lock i (some t) else r.lock
    tasks := Function.update r.tasks t (some ⟨i, r.state i, todo⟩) }

def proceed (k : Task ι σ τ) : Rows ι σ τ :=
  { r with tasks := Function.update r.tasks t (some k) }

def released (i : ι) : Option Nat :=
  if r.lock i = some t then none else r.lock i

def finish : Rows ι σ τ :=
  { r with lock := r.released t, tasks := Function.update r.tasks t none }

def writable (i : ι) : Bool :=
  r.lock i = none || r.lock i = some t

def commit [DecidableEq ι] (i : ι) (s : σ) (next : Option (Task ι σ τ)) : Rows ι σ τ where
  state := Function.update r.state i s
  lock := r.released t
  tasks := Function.update r.tasks t next

end

section

variable {r : Rows ι σ τ} {t t' : Nat}

def Guarded (r : Rows ι σ τ) : Prop :=
  ∀ i t, r.lock i = some t → ∃ k, r.tasks t = some k ∧ k.row = i ∧ k.seen = r.state i

structure Untouched (t : Nat) (r r' : Rows ι σ τ) : Prop where
  task : r'.tasks t = r.tasks t
  lock : ∀ i, r'.lock i = some t ↔ r.lock i = some t

theorem released_eq_some_iff {i : ι} : r.released t i = some t' ↔ r.lock i = some t' ∧ t' ≠ t := by
  unfold released
  split
  . next h =>
    rw [h, Option.some.injEq]
    simp only [reduceCtorEq, false_iff, not_and, not_not]
    exact Eq.symm
  . next h =>
    constructor
    . intro h'
      exact ⟨h', fun ht => h (ht ▸ h')⟩
    . exact And.left

theorem Guarded.seen {k : Task ι σ τ} (h : r.Guarded) (hk : r.tasks t = some k)
    (hlock : r.lock k.row = some t)
    : k.seen = r.state k.row := by
  rcases h k.row t hlock with ⟨k', hk', _, hseen⟩
  rw [hk] at hk'
  cases Option.some.inj hk'
  exact hseen

theorem Guarded.proceed {k k' : Task ι σ τ} (h : r.Guarded) (hk : r.tasks t = some k)
    (hrow : k'.row = k.row) (hseen : k'.seen = k.seen)
    : (r.proceed t k').Guarded := by
  intro i t' hlock
  rcases h i t' hlock with ⟨k₀, hk₀, hrow₀, hseen₀⟩
  by_cases ht : t' = t
  . subst ht
    rw [hk] at hk₀
    cases Option.some.inj hk₀
    exact ⟨k', update_self .., hrow.trans hrow₀, hseen.trans hseen₀⟩
  . exact ⟨k₀, by simpa [Rows.proceed, update_of_ne ht] using hk₀, hrow₀, hseen₀⟩

theorem Guarded.finish (h : r.Guarded) : (r.finish t).Guarded := by
  intro i t' hlock
  rcases released_eq_some_iff.mp hlock with ⟨hlock, ht⟩
  rcases h i t' hlock with ⟨k, hk, hrow, hseen⟩
  exact ⟨k, by simpa [Rows.finish, update_of_ne ht] using hk, hrow, hseen⟩

theorem Untouched.proceed (k : Task ι σ τ) (ht : t' ≠ t) : Untouched t' r (r.proceed t k) where
  task := update_of_ne ht ..
  lock _ := Iff.rfl

theorem released_eq_some_other_iff (ht : t' ≠ t) (i : ι)
    : r.released t i = some t' ↔ r.lock i = some t' := by
  rw [released_eq_some_iff]
  simp [ht]

theorem Untouched.finish (ht : t' ≠ t) : Untouched t' r (r.finish t) where
  task := update_of_ne ht ..
  lock i := released_eq_some_other_iff ht i

variable [DecidableEq ι] {i : ι}

variable {locks : Bool}

theorem read_lock_eq_some_iff {i' : ι} {todo : τ} (hfree : locks = true → r.lock i = none)
    : (r.read t i todo locks).lock i' = some t'
        ↔
      r.lock i' = some t' ∨ (locks = true ∧ i' = i ∧ t' = t) := by
  unfold read
  cases locks with
  | false => simp
  | true =>
    simp only [if_true, true_and]
    by_cases hi : i' = i
    . subst hi
      rw [update_self, hfree rfl]
      simp [eq_comm]
    . simp [hi]

theorem Guarded.read {todo : τ} (h : r.Guarded) (ht : r.tasks t = none)
    (hfree : locks = true → r.lock i = none)
    : (r.read t i todo locks).Guarded := by
  intro i' t' hlock
  rw [read_lock_eq_some_iff hfree] at hlock
  rcases hlock with hlock | ⟨_, rfl, rfl⟩
  . rcases h i' t' hlock with ⟨k, hk, hrow, hseen⟩
    have hne : t' ≠ t := by
      rintro rfl
      simp [ht] at hk
    exact ⟨k, by simpa [Rows.read, update_of_ne hne] using hk, hrow, hseen⟩
  . exact ⟨⟨i', r.state i', todo⟩, update_self .., rfl, rfl⟩

theorem Guarded.commit {s : σ} {next : Option (Task ι σ τ)} (h : r.Guarded)
    (hwritable : r.writable t i = true)
    : (r.commit t i s next).Guarded := by
  intro i' t' hlock
  rcases released_eq_some_iff.mp hlock with ⟨hheld, ht⟩
  rcases h i' t' hheld with ⟨k, hk, hrow, hseen⟩
  -- the lock of another task keeps this one from the row
  have hi : i' ≠ i := by
    rintro rfl
    simp [writable, hheld, ht] at hwritable
  refine ⟨k, ?_, hrow, ?_⟩
  . simpa [Rows.commit, update_of_ne ht] using hk
  . simpa [Rows.commit, update_of_ne hi] using hseen

theorem Untouched.read {todo : τ} (ht : t' ≠ t) (hfree : locks = true → r.lock i = none)
    : Untouched t' r (r.read t i todo locks) where
  task := update_of_ne ht ..
  lock i' := by
    rw [read_lock_eq_some_iff hfree]
    simp [ht]

theorem Untouched.commit (s : σ) (next : Option (Task ι σ τ)) (ht : t' ≠ t)
    : Untouched t' r (r.commit t i s next) where
  task := update_of_ne ht ..
  lock i' := released_eq_some_other_iff ht i'

end

end Rows

end RowLock
