import Mathlib.Data.Nat.Digits.Defs
import Mathlib.Data.List.Forall2

/-!
This module contains the texts of IP addresses and the numbers they stand for.
-/

namespace AddressText

open Option (some)

abbrev Text := List UInt8

def value (base : Nat) (digits : List Nat) : Nat :=
  Nat.ofDigits base digits.reverse

@[simp]
theorem value_nil (base : Nat) : value base [] = 0 := by
  simp [value]

theorem value_concat (base : Nat) (digits : List Nat) (d : Nat)
    : value base (digits ++ [d]) = value base digits * base + d := by
  simp [value, Nat.ofDigits_cons, Nat.mul_comm, Nat.add_comm]

theorem value_append (base : Nat) (hi lo : List Nat)
    : value base (hi ++ lo) = value base hi * base ^ lo.length + value base lo := by
  simp [value, Nat.ofDigits_append, Nat.mul_comm, Nat.add_comm]

theorem value_singleton (base d : Nat) : value base [d] = d := by
  simp [value]

theorem value_le_append {base : Nat} (hbase : 0 < base) (hi lo : List Nat)
    : value base hi ≤ value base (hi ++ lo) := by
  rw [value_append]
  have := Nat.le_mul_of_pos_right (value base hi) (Nat.pow_pos (n := lo.length) hbase)
  omega

@[simp]
theorem value_replicate_zero (base n : Nat) : value base (List.replicate n 0) = 0 := by
  simp [value]

theorem value_lt {base : Nat} {digits : List Nat} (hbase : 1 < base) (h : ∀ d ∈ digits, d < base)
    : value base digits < base ^ digits.length := by
  rw [← List.length_reverse]
  apply Nat.ofDigits_lt_base_pow_length hbase
  intro d hd
  exact h d (List.mem_reverse.mp hd)

def digit? (b : UInt8) : Option Nat :=
  if 48 ≤ b ∧ b ≤ 57 then some (b.toNat - 48) else none

def hexDigit? (b : UInt8) : Option Nat :=
  if 48 ≤ b ∧ b ≤ 57 then some (b.toNat - 48)
  else if 97 ≤ b ∧ b ≤ 102 then some (b.toNat - 87)
  else if 65 ≤ b ∧ b ≤ 70 then some (b.toNat - 55)
  else none

variable {b : UInt8}

theorem digit?_lt {d : Nat} (h : digit? b = some d) : d < 10 := by
  unfold digit? at h
  simp only [UInt8.le_iff_toNat_le, UInt8.reduceToNat, Option.ite_none_right_eq_some, some.injEq] at h
  omega

theorem hexDigit?_lt {d : Nat} (h : hexDigit? b = some d) : d < 16 := by
  unfold hexDigit? at h
  simp only [UInt8.le_iff_toNat_le, UInt8.reduceToNat] at h
  split at h
  . rw [some.injEq] at h
    omega
  . split at h
    . rw [some.injEq] at h
      omega
    . rw [Option.ite_none_right_eq_some, some.injEq] at h
      omega

theorem hexDigit?_of_digit? {d : Nat} (h : digit? b = some d) : hexDigit? b = some d := by
  unfold digit? at h
  rw [Option.ite_none_right_eq_some] at h
  unfold hexDigit?
  rw [if_pos h.1]
  exact h.2

abbrev Digits (s : Text) (ds : List Nat) : Prop :=
  List.Forall₂ (fun b d => digit? b = some d) s ds

abbrev HexDigits (s : Text) (ds : List Nat) : Prop :=
  List.Forall₂ (fun b d => hexDigit? b = some d) s ds

variable {s : Text}

theorem Digits.digit?_ne_none {ds : List Nat} (h : Digits s ds) (hb : b ∈ s) : digit? b ≠ none := by
  induction h with
  | nil => simp at hb
  | cons hd _ ih =>
    rw [List.mem_cons] at hb
    rcases hb with rfl | hb
    . simp [hd]
    . exact ih hb

structure Octet (s : Text) (n : Nat) : Prop where
  digits : ∃ ds, Digits s ds ∧ n = value 10 ds
  nonempty : s ≠ []
  length_le : s.length ≤ 3
  canonical : s.head? = some 48 → s = [48]
  le : n ≤ 255

inductive DottedQuad : Text → List Nat → Prop where
  | mk {s₁ s₂ s₃ s₄ : Text} {n₁ n₂ n₃ n₄ : Nat} (h₁ : Octet s₁ n₁) (h₂ : Octet s₂ n₂)
      (h₃ : Octet s₃ n₃) (h₄ : Octet s₄ n₄)
      : DottedQuad (s₁ ++ 46 :: (s₂ ++ 46 :: (s₃ ++ 46 :: s₄))) [n₁, n₂, n₃, n₄]

structure Hextet (s : Text) (n : Nat) : Prop where
  digits : ∃ ds, HexDigits s ds ∧ n = value 16 ds
  nonempty : s ≠ []
  length_le : s.length ≤ 4

inductive Groups (quad : Bool) : Text → List Nat → Prop where
  | last {s : Text} {n : Nat} (h : Hextet s n) : Groups quad s [n]
  | quad {s : Text} {n₁ n₂ n₃ n₄ : Nat} (hquad : quad = true) (h : DottedQuad s [n₁, n₂, n₃, n₄])
      : Groups quad s [n₁ * 256 + n₂, n₃ * 256 + n₄]
  | cons {s rest : Text} {n : Nat} {ns : List Nat} (h : Hextet s n) (hrest : Groups quad rest ns)
      : Groups quad (s ++ 58 :: rest) (n :: ns)

def OptGroups (quad : Bool) (s : Text) (ns : List Nat) : Prop :=
  (s = [] ∧ ns = []) ∨ Groups quad s ns

inductive IPv6 : Text → Nat → Prop where
  | full {s : Text} {ns : List Nat} (h : Groups true s ns) (hlength : ns.length = 8)
      : IPv6 s (value 65536 ns)
  | elided {s t : Text} {hi lo : List Nat} (hhi : OptGroups false s hi) (hlo : OptGroups true t lo)
      (hlength : hi.length + lo.length < 8)
      : IPv6 (s ++ 58 :: 58 :: t)
          (value 65536 (hi ++ List.replicate (8 - (hi.length + lo.length)) 0 ++ lo))

theorem Hextet.unique {m n : Nat} (hm : Hextet s m) (hn : Hextet s n) : m = n := by
  rcases hm.digits with ⟨ds, hds, rfl⟩
  rcases hn.digits with ⟨ds', hds', rfl⟩
  have hunique : Relator.RightUnique fun (b : UInt8) (d : Nat) => hexDigit? b = some d := by
    intro b d d' hd hd'
    rw [hd] at hd'
    exact some.inj hd'
  rw [hunique.forall₂ hds hds']

theorem Octet.hextet {n : Nat} (h : Octet s n) : ∃ m, Hextet s m := by
  rcases h.digits with ⟨ds, hds, _⟩
  refine ⟨value 16 ds, ⟨ds, ?_, rfl⟩, h.nonempty, ?_⟩
  . exact hds.imp fun _ _ => hexDigit?_of_digit?
  . have := h.length_le
    omega

variable {quad : Bool} {ns : List Nat}

theorem Groups.hextet_head (h : Groups quad s ns) : ∃ t m rest, Hextet t m ∧ s = t ++ rest := by
  cases h with
  | last h => exact ⟨s, _, [], h, by simp⟩
  | quad _ h =>
    cases h with
    | mk h₁ =>
      rcases h₁.hextet with ⟨m, hm⟩
      exact ⟨_, m, _, hm, rfl⟩
  | cons h => exact ⟨_, _, _, h, rfl⟩

theorem Hextet.head {n : Nat} (h : Hextet s n) : ∃ b t, s = b :: t ∧ hexDigit? b ≠ none := by
  rcases h with ⟨⟨ds, hds, _⟩, hne, _⟩
  cases hds with
  | nil => exact absurd rfl hne
  | cons hd => exact ⟨_, _, rfl, by simp [hd]⟩

theorem Groups.head (h : Groups quad s ns) : ∃ b t, s = b :: t ∧ hexDigit? b ≠ none := by
  rcases h.hextet_head with ⟨_, m, rest, ht, rfl⟩
  rcases ht.head with ⟨b, t, rfl, hb⟩
  exact ⟨b, t ++ rest, by simp, hb⟩

theorem Groups.ne_nil (h : Groups quad s ns) : s ≠ [] := by
  rcases h.head with ⟨b, t, rfl, _⟩
  simp

end AddressText
