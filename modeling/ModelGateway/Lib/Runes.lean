import Mathlib.Data.List.Basic
import Mathlib.Tactic.Common

structure Rune where
  char : Char
  raw : List UInt8
  deriving DecidableEq

namespace Rune

open List

def replacement : Char := '�'

def encode (text : List Char) : List UInt8 :=
  text.flatMap String.utf8EncodeChar

def decode (b : UInt8) (rest : List UInt8) : Rune :=
  match (b :: rest).toByteArray.utf8DecodeChar? 0 with
  | some c => ⟨c, (b :: rest).take c.utf8Size⟩
  | none => ⟨replacement, [b]⟩

def readFrom : Nat → List UInt8 → List Rune
  | 0, _ => []
  | _ + 1, [] => []
  | fuel + 1, b :: rest =>
    let r := decode b rest
    r :: readFrom fuel ((b :: rest).drop r.raw.length)

def read (bytes : List UInt8) : List Rune :=
  readFrom bytes.length bytes

def text (bytes : List UInt8) : List Char :=
  (read bytes).map char

def decodeIgnore (bytes : List UInt8) : List Char :=
  ((read bytes).filter fun r => r.raw = String.utf8EncodeChar r.char).map char

def legible : List Rune → Nat → Bool
  | [], _ => true
  | r :: rs, n =>
    n = 0 || (decide (r.raw = String.utf8EncodeChar r.char) &&
      legible rs (n - (String.utf8EncodeChar r.char).length))

def offset : List Rune → Nat → Nat
  | [], _ => 0
  | r :: rs, n =>
    if n = 0 then 0 else r.raw.length + offset rs (n - (String.utf8EncodeChar r.char).length)

theorem length_utf8EncodeChar_pos (c : Char) : 0 < (String.utf8EncodeChar c).length := by
  rw [String.length_utf8EncodeChar]
  exact c.utf8Size_pos

theorem decode_raw (b : UInt8) (rest : List UInt8)
    : (decode b rest).raw <+: b :: rest ∧ 0 < (decode b rest).raw.length := by
  unfold decode
  split
  . next c _ =>
    refine ⟨ take_prefix _ _, ?_⟩
    have := c.utf8Size_pos
    simp only [length_take, length_cons]
    omega
  . exact ⟨by simp, by simp⟩

theorem flatMap_raw_readFrom {fuel : Nat} {bytes : List UInt8} (h : bytes.length ≤ fuel)
    : (readFrom fuel bytes).flatMap raw = bytes := by
  induction fuel generalizing bytes with
  | zero =>
    rw [length_eq_zero_iff.mp (Nat.le_zero.mp h)]
    rfl
  | succ fuel ih =>
    cases bytes with
    | nil => rfl
    | cons b rest =>
      rcases decode_raw b rest with ⟨hleads, hpos⟩
      unfold readFrom
      rw [flatMap_cons, ih]
      . exact prefix_iff_eq_append.mp hleads
      . simp only [length_drop, length_cons] at *
        omega

theorem flatMap_raw_read (bytes : List UInt8) : (read bytes).flatMap raw = bytes :=
  flatMap_raw_readFrom (Nat.le_refl _)

section

theorem le_of_mem_utf8EncodeChar {c : Char} (h : (String.utf8EncodeChar c).length ≠ 1) {b : UInt8}
    (hb : b ∈ String.utf8EncodeChar c)
    : 128 ≤ b := by
  have hor : ∀ x y : UInt8, 128 ≤ y → 128 ≤ x ||| y := by
    intro x y hy
    rw [UInt8.le_iff_toNat_le] at hy ⊢
    exact Nat.le_trans hy Nat.right_le_or
  rw [String.length_utf8EncodeChar] at h
  rcases c.utf8Size_eq with hsize | hsize | hsize | hsize
  . contradiction
  . rw [String.utf8EncodeChar_eq_cons_cons hsize] at hb
    simp only [mem_cons, not_mem_nil, or_false] at hb
    rcases hb with rfl | rfl <;> exact hor _ _ (by decide)
  . rw [String.utf8EncodeChar_eq_cons_cons_cons hsize] at hb
    simp only [mem_cons, not_mem_nil, or_false] at hb
    rcases hb with rfl | rfl | rfl <;> exact hor _ _ (by decide)
  . rw [String.utf8EncodeChar_eq_cons_cons_cons_cons hsize] at hb
    simp only [mem_cons, not_mem_nil, or_false] at hb
    rcases hb with rfl | rfl | rfl | rfl <;> exact hor _ _ (by decide)

theorem decode_eq {b : UInt8} {rest tail : List UInt8} {c : Char}
    (h : b :: rest = String.utf8EncodeChar c ++ tail)
    : decode b rest = ⟨c, String.utf8EncodeChar c⟩ := by
  unfold decode
  rw [h, toByteArray_append, ByteArray.utf8DecodeChar?_utf8EncodeChar_append]
  dsimp only
  rw [← String.length_utf8EncodeChar, take_left]

theorem readFrom_encode {fuel : Nat} {text : List Char} (h : (encode text).length ≤ fuel)
    : (readFrom fuel (encode text)).map char = text := by
  induction fuel generalizing text with
  | zero =>
    cases text with
    | nil => rfl
    | cons c text =>
      have := length_utf8EncodeChar_pos c
      rw [encode, flatMap_cons, length_append] at h
      omega
  | succ fuel ih =>
    cases text with
    | nil => rfl
    | cons c text =>
      have hpos := length_utf8EncodeChar_pos c
      rw [encode, flatMap_cons, length_append] at h
      cases hbytes : encode (c :: text) with
      | nil =>
        rw [encode, flatMap_cons, append_eq_nil_iff] at hbytes
        rw [hbytes.1] at hpos
        simp at hpos
      | cons b rest =>
        have hsplit : b :: rest = String.utf8EncodeChar c ++ encode text := by
          rw [← hbytes, encode, flatMap_cons]
          rfl
        unfold readFrom
        dsimp only
        rw [decode_eq hsplit, hsplit, drop_left, map_cons, ih]
        change _ + (encode text).length ≤ fuel + 1 at h
        omega

@[simp]
theorem text_encode (chars : List Char) : text (encode chars) = chars :=
  readFrom_encode (Nat.le_refl _)

theorem raw_or_replacement {bytes : List UInt8} {r : Rune} (h : r ∈ read bytes)
    : r.raw = String.utf8EncodeChar r.char ∨ r.char = replacement := by
  have hdecode : ∀ (b : UInt8) (rest : List UInt8),
      (decode b rest).raw = String.utf8EncodeChar (decode b rest).char ∨
        (decode b rest).char = replacement := by
    intro b rest
    cases hc : (b :: rest).toByteArray.utf8DecodeChar? 0 with
    | none =>
      right
      unfold decode
      rw [hc]
    | some c =>
      left
      rcases ByteArray.exists_of_utf8DecodeChar?_eq_some hc with ⟨tail, htail⟩
      have hsplit : b :: rest = String.utf8EncodeChar c ++ tail.data.toList := by
        have := congrArg (fun bytes => bytes.data.toList) htail
        simpa using this
      rw [decode_eq hsplit]
  have hall : ∀ fuel (bytes : List UInt8), ∀ r ∈ readFrom fuel bytes,
      r.raw = String.utf8EncodeChar r.char ∨ r.char = replacement := by
    intro fuel
    induction fuel with
    | zero => simp [readFrom]
    | succ fuel ih =>
      intro bytes r hr
      cases bytes with
      | nil => simp [readFrom] at hr
      | cons b rest =>
        rcases mem_cons.mp hr with rfl | hr
        . exact hdecode b rest
        . exact ih _ r hr
  exact hall _ _ r h

end

section

variable {rs : List Rune} {j : Nat}

theorem offset_encode (hj : j ≤ rs.length)
    : offset rs (encode ((rs.map char).take j)).length = ((rs.take j).flatMap raw).length := by
  induction rs generalizing j with
  | nil =>
    rw [length_nil, Nat.le_zero] at hj
    subst hj
    rfl
  | cons r rs ih =>
    cases j with
    | zero => simp [offset, encode]
    | succ j =>
      have hpos := length_utf8EncodeChar_pos r.char
      rw [map_cons, take_succ_cons, take_succ_cons, flatMap_cons, encode,
        flatMap_cons, offset, length_append, length_append, if_neg (by omega),
        Nat.add_sub_cancel_left]
      rw [← ih (by simpa using hj)]
      rfl

theorem raw_eq_of_legible (hj : j ≤ rs.length)
    (h : legible rs (encode ((rs.map char).take j)).length = true)
    : ∀ r ∈ rs.take j, r.raw = String.utf8EncodeChar r.char := by
  induction rs generalizing j with
  | nil => simp
  | cons r rs ih =>
    cases j with
    | zero => simp
    | succ j =>
      have hpos := length_utf8EncodeChar_pos r.char
      rw [map_cons, take_succ_cons, encode, flatMap_cons, legible, length_append,
        Nat.add_sub_cancel_left, Bool.or_eq_true, Bool.and_eq_true, decide_eq_true_eq,
        decide_eq_true_eq] at h
      intro x hx
      rcases h with h | ⟨hraw, h⟩
      . omega
      . rcases mem_cons.mp hx with rfl | hx
        . exact hraw
        . exact ih (by simpa using hj) h x hx

theorem flatMap_raw_eq_encode (h : ∀ r ∈ rs, r.raw = String.utf8EncodeChar r.char)
    : rs.flatMap raw = encode (rs.map char) := by
  unfold encode
  rw [flatMap_map]
  exact flatMap_congr h

end

end Rune
