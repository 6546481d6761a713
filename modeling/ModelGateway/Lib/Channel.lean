import Mathlib.Data.List.Basic

structure Channel (α : Type) where
  capacity : Nat
  items : List α
  closed : Bool
  bounded : items.length ≤ capacity

namespace Channel

variable {α : Type}

def make (capacity : Nat) : Channel α :=
  ⟨capacity, [], false, Nat.zero_le _⟩

inductive Sent (α : Type) where
  | queued (c : Channel α)
  | full
  | panics

def send (c : Channel α) (a : α) : Sent α :=
  if c.closed then
    .panics
  else if h : c.items.length < c.capacity then
    .queued { c with
      items := c.items ++ [a]
      bounded := by
        rw [List.length_append, List.length_singleton]
        exact h }
  else
    .full

def receive (c : Channel α) : Option (α × Channel α) :=
  match h : c.items with
  | [] => none
  | a :: items => some (a, { c with
      items := items
      bounded := by
        have := c.bounded
        rw [h, List.length_cons] at this
        omega })

def close (c : Channel α) : Channel α :=
  { c with closed := true }

variable {c c' : Channel α} {a : α}

theorem send_eq_panics_iff : c.send a = .panics ↔ c.closed = true := by
  unfold send
  cases c.closed with
  | true => simp
  | false =>
    simp only [Bool.false_eq_true, if_false, iff_false]
    split <;> simp

theorem closed_eq_false_of_send (h : c.send a ≠ .panics) : c.closed = false := by
  rw [← Bool.not_eq_true]
  exact fun hclosed => h (send_eq_panics_iff.2 hclosed)

theorem send_eq_queued (h : c.send a = .queued c') : c'.items = c.items ++ [a] ∧ c'.closed = c.closed := by
  unfold send at h
  split at h
  . cases h
  . split at h
    . cases h
      exact ⟨rfl, rfl⟩
    . cases h

theorem receive_eq_some (h : c.receive = some (a, c')) : c.items = a :: c'.items ∧ c'.closed = c.closed := by
  unfold receive at h
  split at h
  . cases h
  . next hitems =>
    cases h
    exact ⟨hitems, rfl⟩

theorem receive_eq_none_iff : c.receive = none ↔ c.items = [] := by
  unfold receive
  split
  . next hitems => simp [hitems]
  . next hitems => simp [hitems]

end Channel
