import ModelGateway.Pii.Shapes

namespace ModelGateway.Pii

open List hiding Cursor

def isUpper (b : UInt8) : Bool :=
  65 ≤ b && b ≤ 90

theorem isDigit_iff {b : UInt8} : isDigit b = true ↔ 48 ≤ b ∧ b ≤ 57 := by
  simp [isDigit]

theorem isUpper_iff {b : UInt8} : isUpper b = true ↔ 65 ≤ b ∧ b ≤ 90 := by
  simp [isUpper]

namespace validIBAN

def digits (b : UInt8) : List Nat :=
  if isDigit b then [b.toNat - 48] else [(b.toNat - 65 + 10) / 10, (b.toNat - 65 + 10) % 10]

def number (s : Str) : Nat :=
  Nat.ofDigits 10 ((s.drop 4 ++ s.take 4).flatMap digits).reverse

theorem foldlM_step_eq_some_iff {s : Str} {n r : Nat}
    : s.foldlM step (n % 97) = some r
        ↔
      (∀ b ∈ s, isDigit b || isUpper b) ∧ (s.flatMap digits).foldl (fun n d => d + 10 * n) n % 97 = r := by
  induction s generalizing n with
  | nil => simp
  | cons b s ih =>
    rw [foldlM_cons, flatMap_cons, foldl_append, forall_mem_cons]
    unfold step
    split
    . next hdigit =>
      rw [← isDigit_iff] at hdigit
      have hdigits : digits b = [b.toNat - 48] := if_pos hdigit
      have hremainder : (n % 97 * 10 + (b.toNat - 48)) % 97 = (b.toNat - 48 + 10 * n) % 97 := by omega
      change s.foldlM step _ = _ ↔ _
      rw [hdigits, hremainder, ih]
      simp [hdigit]
    . next hdigit =>
      rw [← isDigit_iff] at hdigit
      have hdigits : digits b = [(b.toNat - 65 + 10) / 10, (b.toNat - 65 + 10) % 10] := if_neg hdigit
      split
      . next hupper =>
        rw [← isUpper_iff] at hupper
        have hremainder : (n % 97 * 100 + (b.toNat - 65 + 10)) % 97
            = ((b.toNat - 65 + 10) % 10 + 10 * ((b.toNat - 65 + 10) / 10 + 10 * n)) % 97 := by omega
        change s.foldlM step _ = _ ↔ _
        rw [hdigits, hremainder, ih]
        simp [hupper]
      . next hupper =>
        rw [← isUpper_iff] at hupper
        change none = some r ↔ _
        simp [hdigit, hupper]

end validIBAN

theorem validIBAN_eq_true_iff (s : Str)
    : validIBAN s = true
        ↔
      (15 ≤ s.length ∧ s.length ≤ 34) ∧ (∀ b ∈ s, isDigit b || isUpper b) ∧ validIBAN.number s % 97 = 1 := by
  have hall : (∀ b ∈ s, isDigit b || isUpper b) ↔ ∀ b ∈ s.drop 4 ++ s.take 4, isDigit b || isUpper b := by
    nth_rewrite 1 [← take_append_drop 4 s]
    simp only [forall_mem_append]
    exact and_comm
  have hfold := @validIBAN.foldlM_step_eq_some_iff (s.drop 4 ++ s.take 4) 0 1
  unfold validIBAN validIBAN.number
  rw [Nat.ofDigits_eq_foldr, foldr_reverse, hall]
  simp only [Nat.cast_id]
  rw [← hfold]
  split
  . simp
    omega
  . cases (s.drop 4 ++ s.take 4).foldlM validIBAN.step (0 % 97) <;> simp
    omega

theorem luhn.sum_append (u v : Str) (double : Bool)
    : sum (u ++ v) double = sum u double + sum v (not^[u.length] double) := by
  induction u generalizing double with
  | nil => simp [sum]
  | cons b u ih =>
    simp only [cons_append, sum, length_cons, Function.iterate_succ_apply]
    rw [ih]
    omega

theorem luhn_append_iff (u m v : Str)
    : luhn (u ++ (m ++ v)) = true ↔ 12 ≤ (u ++ (m ++ v)).length ∧
        (luhn.sum v.reverse false + (luhn.sum m.reverse (not^[v.length] false)
          + luhn.sum u.reverse (not^[m.length] (not^[v.length] false)))) % 10 = 0 := by
  unfold luhn
  split
  . next hshort => exact iff_of_false Bool.false_ne_true fun h => absurd h.1 (Nat.not_le.mpr hshort)
  . next hlong =>
    rw [reverse_append, reverse_append, append_assoc, luhn.sum_append, luhn.sum_append, length_reverse,
      length_reverse, decide_eq_true_eq]
    exact (and_iff_right (Nat.not_lt.mp hlong)).symm

theorem luhn_detects {s : Str} (hdigits : s.all isDigit) (h : luhn s = true)
    : (∀ u v x y, s = u ++ x :: v → isDigit y → y ≠ x → luhn (u ++ y :: v) = false) ∧
      ∀ u v x y, s = u ++ x :: y :: v → x ≠ y →
        (luhn (u ++ y :: x :: v) = true ↔ x = 48 ∧ y = 57 ∨ x = 57 ∧ y = 48) := by
  have hdigit : ∀ {b}, isDigit b → 48 ≤ b.toNat ∧ b.toNat ≤ 57 := by
    intro b hb
    exact (isDigit_iff.mp hb).imp UInt8.le_iff_toNat_le.mp UInt8.le_iff_toNat_le.mp
  rw [all_eq_true] at hdigits
  constructor
  . rintro u v x y rfl hy hne
    have hx := hdigit (hdigits x (by simp))
    have hy := hdigit hy
    rw [ne_eq, ← UInt8.toNat_inj] at hne
    have h := (luhn_append_iff u [x] v).mp h
    rw [Bool.eq_false_iff]
    intro hother
    have h' := (luhn_append_iff u [y] v).mp hother
    cases hd : not^[v.length] false with
    | false =>
      simp [hd, luhn.sum] at h h'
      omega
    | true =>
      simp [hd, luhn.sum] at h h'
      split at h <;> split at h' <;> omega
  . rintro u v x y rfl hne
    have hx := hdigit (hdigits x (by simp))
    have hy := hdigit (hdigits y (by simp))
    rw [ne_eq, ← UInt8.toNat_inj] at hne
    have h := (luhn_append_iff u [x, y] v).mp h
    refine (luhn_append_iff u [y, x] v).trans ?_
    simp only [← UInt8.toNat_inj]
    -- one of the two is doubled on either side, which moves every digit but 0 and 9
    cases hd : not^[v.length] false with
    | false =>
      simp [hd, luhn.sum] at h ⊢
      split at h <;> split <;> omega
    | true =>
      simp [hd, luhn.sum] at h ⊢
      split at h <;> split <;> omega

theorem luhn_detects_card
    : luhn (str "4111111111111111") = true ∧ luhn (str "4111111111111112") = false :=
  ⟨by decide, (@luhn_detects (str "4111111111111111") (by decide) (by decide)).1 (str "411111111111111") []
    49 50 (by decide) (by decide) (by decide)⟩

end ModelGateway.Pii
