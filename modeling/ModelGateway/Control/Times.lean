import ModelGateway.Control.Store
import Mathlib.Tactic.Linarith
import Mathlib.Tactic.FieldSimp

namespace ModelGateway.Control

theorem abs_roundHalfEven_sub_le (q : ℚ) : |(roundHalfEven q : ℚ) - q| ≤ 1 / 2 := by
  have hle := Int.floor_le q
  have hlt := Int.lt_floor_add_one q
  unfold roundHalfEven
  dsimp only
  rw [abs_le]
  split
  . constructor <;> linarith
  . split
    . push_cast
      constructor <;> linarith
    . split
      . constructor <;> linarith
      . push_cast
        constructor <;> linarith

theorem roundHalfEven_intCast (n : Int) : roundHalfEven n = n := by
  unfold roundHalfEven
  rw [Int.floor_intCast]
  simp

theorem abs_toDouble_le (q : ℚ) : |toDouble q| ≤ 2 * |q| := by
  unfold toDouble
  dsimp only
  generalize hulp : (2 : ℚ) ^ (Int.log 2 |q| - 52) = ulp
  have hpos : 0 < ulp := by
    rw [← hulp]
    positivity
  have hround := abs_roundHalfEven_sub_le (q / ulp)
  have herror : |(roundHalfEven (q / ulp) : ℚ) * ulp - q| ≤ ulp / 2 := by
    have hsplit : (roundHalfEven (q / ulp) : ℚ) * ulp - q
        = ((roundHalfEven (q / ulp) : ℚ) - q / ulp) * ulp := by
      field_simp
    rw [hsplit, abs_mul, abs_of_pos hpos]
    linarith [mul_le_mul_of_nonneg_right hround hpos.le]
  by_cases hq : q = 0
  . subst hq
    simp [roundHalfEven]
  . -- the spacing of the doubles is a small part of the number
    have hspacing : ulp ≤ |q| := by
      have hlog := Int.zpow_log_le_self (by decide : 1 < 2) (abs_pos.mpr hq)
      have hmono : (2 : ℚ) ^ (Int.log 2 |q| - 52) ≤ (2 : ℚ) ^ Int.log 2 |q| :=
        zpow_le_zpow_right₀ (by norm_num) (by omega)
      rw [← hulp]
      exact hmono.trans (by exact_mod_cast hlog)
    have htriangle := abs_sub_abs_le_abs_sub ((roundHalfEven (q / ulp) : ℚ) * ulp) q
    linarith

theorem abs_truncate_le (q : ℚ) : |(truncate q : ℚ)| ≤ |q| := by
  unfold truncate
  split
  . next h =>
    have hfloor : (0 : ℚ) ≤ ⌊q⌋ := by
      exact_mod_cast Int.floor_nonneg.mpr h
    rw [abs_of_nonneg h, abs_of_nonneg hfloor]
    apply Int.floor_le
  . next h =>
    rw [not_le] at h
    have hceil : (⌈q⌉ : ℚ) ≤ 0 := by
      exact_mod_cast Int.ceil_le.mpr (by exact_mod_cast h.le)
    rw [abs_of_neg h, abs_of_nonpos hceil]
    linarith [Int.le_ceil q]

theorem int64Field_toUnixMs {time : Int} (h : IsDatetime time)
    : int64Field (toUnixMs time) = .ok (toUnixMs time) := by
  unfold IsDatetime at h
  have htime : |((time : ℚ) / 1000000)| ≤ 253402300800 := by
    rw [abs_le]
    have hlow : (-62135596800000000 : ℚ) ≤ time := by exact_mod_cast h.1
    have hhigh : (time : ℚ) < 253402300800000000 := by exact_mod_cast h.2
    constructor <;> linarith
  have hms : |(toUnixMs time : ℚ)| ≤ 2 * (2 * 253402300800 * 1000) := by
    unfold toUnixMs
    have hseconds := abs_toDouble_le ((time : ℚ) / 1000000)
    have hmillis := abs_toDouble_le (toDouble ((time : ℚ) / 1000000) * 1000)
    have htruncate := abs_truncate_le (toDouble (toDouble ((time : ℚ) / 1000000) * 1000))
    rw [abs_mul, abs_of_pos (by norm_num : (0 : ℚ) < 1000)] at hmillis
    linarith
  have hbound : |toUnixMs time| ≤ 1013609203200000 := by
    have hcast : ((|toUnixMs time| : Int) : ℚ) ≤ (1013609203200000 : Int) := by
      rw [Int.cast_abs]
      push_cast
      linarith
    exact_mod_cast hcast
  rw [abs_le] at hbound
  unfold int64Field
  rw [if_pos (by omega)]

theorem toDouble_intCast {n : Int} (h : |n| < 2 ^ 53) : toDouble n = n := by
  by_cases hn : n = 0
  . subst hn
    simp [toDouble, roundHalfEven]
  . have hpos : (0 : ℚ) < |(n : ℚ)| := abs_pos.mpr (by exact_mod_cast hn)
    have hlog : Int.log 2 |(n : ℚ)| < 53 := by
      rw [← Int.lt_zpow_iff_log_lt (by decide) hpos]
      exact_mod_cast h
    rcases Int.eq_ofNat_of_zero_le (show 0 ≤ 52 - Int.log 2 |(n : ℚ)| by omega) with ⟨k, hk⟩
    -- a number of at most 53 bits is a whole number of spacings
    have hulp : (2 : ℚ) ^ (Int.log 2 |(n : ℚ)| - 52) = ((2 : ℚ) ^ k)⁻¹ := by
      rw [← zpow_natCast, ← zpow_neg]
      congr 1
      omega
    have hscaled : (n : ℚ) / ((2 : ℚ) ^ k)⁻¹ = ((n * 2 ^ k : Int) : ℚ) := by
      push_cast
      rw [div_inv_eq_mul]
    unfold toDouble
    dsimp only
    rw [hulp, hscaled, roundHalfEven_intCast]
    push_cast
    rw [mul_assoc, mul_inv_cancel₀ (by positivity), mul_one]

theorem toUnixMs_seconds {n : Int} (h : |n| < 2 ^ 43) : toUnixMs (n * 1000000) = n * 1000 := by
  have hwhole : (((n * 1000000 : Int) : ℚ) / 1000000) = n := by
    push_cast
    ring
  have hmillis : (n : ℚ) * 1000 = ((n * 1000 : Int) : ℚ) := by
    push_cast
    ring
  rw [abs_lt] at h
  unfold toUnixMs
  rw [hwhole, toDouble_intCast (abs_lt.mpr (by omega)), hmillis,
    toDouble_intCast (abs_lt.mpr (by omega))]
  unfold truncate
  split
  . apply Int.floor_intCast
  . apply Int.ceil_intCast

end ModelGateway.Control
