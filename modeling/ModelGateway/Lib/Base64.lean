import Mathlib.Data.List.Basic

/-!
This module contains the base64 encoding of bytes, and that a decoder reads it back.
-/

namespace Base64

open List
open Option (bind_eq_bind bind_some)

def char (n : Nat) : UInt8 :=
  if n < 26 then UInt8.ofNat (65 + n)
  else if n < 52 then UInt8.ofNat (71 + n)
  else if n < 62 then UInt8.ofNat (n - 4)
  else if n = 62 then 43
  else 47

def value (c : UInt8) : Option Nat :=
  if 65 ≤ c && c ≤ 90 then some (c.toNat - 65)
  else if 97 ≤ c && c ≤ 122 then some (c.toNat - 71)
  else if 48 ≤ c && c ≤ 57 then some (c.toNat + 4)
  else if c = 43 then some 62
  else if c = 47 then some 63
  else none

def pad : UInt8 := 61

def encode : List UInt8 → List UInt8
  | [] => []
  | [a] => [char (a.toNat / 4), char (a.toNat % 4 * 16), pad, pad]
  | [a, b] =>
    [char (a.toNat / 4), char (a.toNat % 4 * 16 + b.toNat / 16), char (b.toNat % 16 * 4), pad]
  | a :: b :: c :: rest =>
    char (a.toNat / 4) :: char (a.toNat % 4 * 16 + b.toNat / 16)
      :: char (b.toNat % 16 * 4 + c.toNat / 64) :: char (c.toNat % 64) :: encode rest

def decodeLast (w x y : UInt8) : Option (List UInt8) := do
  let p ← value w
  let q ← value x
  if y = pad then
    return [UInt8.ofNat (p * 4 + q / 16)]
  else
    let r ← value y
    return [UInt8.ofNat (p * 4 + q / 16), UInt8.ofNat (q % 16 * 16 + r / 4)]

def decode : List UInt8 → Option (List UInt8)
  | [] => some []
  | w :: x :: y :: z :: rest =>
    if z = pad then
      if rest = [] then decodeLast w x y else none
    else do
      let p ← value w
      let q ← value x
      let r ← value y
      let s ← value z
      let tail ← decode rest
      return UInt8.ofNat (p * 4 + q / 16) :: UInt8.ofNat (q % 16 * 16 + r / 4)
        :: UInt8.ofNat (r % 4 * 64 + s) :: tail
  | _ => none

theorem value_char : ∀ n, n < 64 → value (char n) = some n := by
  decide

theorem char_ne : ∀ n, n < 64 → char n ≠ pad ∧ char n ≠ 0x20 ∧ char n ≠ 0 := by
  decide

theorem mem_encode {l : List UInt8} {b : UInt8} (h : b ∈ encode l) : b ≠ 0x20 ∧ b ≠ 0 := by
  have hchar : ∀ n, n < 64 → b = char n → b ≠ 0x20 ∧ b ≠ 0 := by
    rintro n hn rfl
    exact (char_ne n hn).2
  have hpad : b = pad → b ≠ 0x20 ∧ b ≠ 0 := by
    rintro rfl
    decide
  fun_induction encode l with
  | case1 => simp at h
  | case2 a =>
    have ha := a.toNat_lt
    simp only [mem_cons, not_mem_nil, or_false] at h
    rcases h with h | h | h | h
    . exact hchar _ (by omega) h
    . exact hchar _ (by omega) h
    . exact hpad h
    . exact hpad h
  | case3 a c =>
    have ha := a.toNat_lt
    have hc := c.toNat_lt
    simp only [mem_cons, not_mem_nil, or_false] at h
    rcases h with h | h | h | h
    . exact hchar _ (by omega) h
    . exact hchar _ (by omega) h
    . exact hchar _ (by omega) h
    . exact hpad h
  | case4 a c d rest ih =>
    have ha := a.toNat_lt
    have hc := c.toNat_lt
    have hd := d.toNat_lt
    simp only [mem_cons] at h
    rcases h with h | h | h | h | h
    . exact hchar _ (by omega) h
    . exact hchar _ (by omega) h
    . exact hchar _ (by omega) h
    . exact hchar _ (by omega) h
    . exact ih h

theorem ofNat_eq_of_toNat {a : UInt8} {n : Nat} (h : n = a.toNat) : UInt8.ofNat n = a := by
  rw [h, UInt8.ofNat_toNat]

theorem decode_encode (l : List UInt8) : decode (encode l) = some l := by
  fun_induction encode l with
  | case1 => rfl
  | case2 a =>
    have ha := a.toNat_lt
    unfold decode decodeLast
    rw [if_pos rfl, if_pos rfl, value_char _ (by omega), value_char _ (by omega)]
    simp only [bind_eq_bind, bind_some, if_true]
    rw [ofNat_eq_of_toNat (a := a) (by omega)]
    rfl
  | case3 a b =>
    have ha := a.toNat_lt
    have hb := b.toNat_lt
    unfold decode decodeLast
    rw [if_pos rfl, if_pos rfl, value_char _ (by omega), value_char _ (by omega)]
    simp only [bind_eq_bind, bind_some]
    rw [if_neg (char_ne _ (by omega)).1, value_char _ (by omega)]
    simp only [bind_some]
    rw [ofNat_eq_of_toNat (a := a) (by omega), ofNat_eq_of_toNat (a := b) (by omega)]
    rfl
  | case4 a b c rest ih =>
    have ha := a.toNat_lt
    have hb := b.toNat_lt
    have hc := c.toNat_lt
    unfold decode
    rw [if_neg (char_ne _ (by omega)).1, value_char _ (by omega), value_char _ (by omega),
      value_char _ (by omega), value_char _ (by omega), ih]
    simp only [bind_eq_bind, bind_some]
    rw [ofNat_eq_of_toNat (a := a) (by omega), ofNat_eq_of_toNat (a := b) (by omega),
      ofNat_eq_of_toNat (a := c) (by omega)]
    rfl

end Base64
