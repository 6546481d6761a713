import ModelGateway.Control.Layers
import ModelGateway.Control.PolicyCompile
import ModelGateway.Control.Serving

namespace ModelGateway.Control

open Except
open Wire

namespace Budget

variable (b : Budget)

def availableMicroUSD : Int :=
  let reserved := b.limitMicroUSD * b.headroomBasisPoints / 10000
  max 0 (b.limitMicroUSD - reserved - b.spentMicroUSD)

def Fits : Prop :=
  b.limitMicroUSD < 2 ^ 63 ∧ b.spentMicroUSD < 2 ^ 63

instance : Decidable b.Fits :=
  inferInstanceAs (Decidable (_ ∧ _))

/-- The reserve does not wrap around, or the budget is used up with it too. -/
def Reserves : Prop :=
  b.limitMicroUSD * b.headroomBasisPoints < 2 ^ 63 ∨
    b.limitMicroUSD - b.limitMicroUSD * b.headroomBasisPoints / 10000 ≤ b.spentMicroUSD ∧
      (b.limitMicroUSD - ((b.limitMicroUSD * b.headroomBasisPoints).bmod (2 ^ 64)).tdiv 10000 ≤ b.spentMicroUSD ∨
        b.spentMicroUSD + 2 ^ 63
          ≤ b.limitMicroUSD - ((b.limitMicroUSD * b.headroomBasisPoints).bmod (2 ^ 64)).tdiv 10000)

end Budget

theorem max_remaining_iff {limit spent product : Int} (hlimit : 0 ≤ limit ∧ limit < 2 ^ 63)
    (hspent : 0 ≤ spent ∧ spent < 2 ^ 63) (hproduct : 0 ≤ product ∧ product ≤ limit * 10000)
    : max 0 (int64 (limit - (int64 product).tdiv 10000 - spent)) = max 0 (limit - product / 10000 - spent)
        ↔
      product < 2 ^ 63 ∨ limit - product / 10000 ≤ spent ∧
        (limit - (product.bmod (2 ^ 64)).tdiv 10000 ≤ spent ∨
          spent + 2 ^ 63 ≤ limit - (product.bmod (2 ^ 64)).tdiv 10000) := by
  unfold int64
  have hbmod : ∀ n : Int, ∃ k : Int, n.bmod (2 ^ 64) = n - 2 ^ 64 * k ∧ -2 ^ 63 ≤ n - 2 ^ 64 * k ∧
      n - 2 ^ 64 * k < 2 ^ 63 := by
    intro n
    rw [Int.bmod_def]
    split
    . exact ⟨n / 2 ^ 64, by omega, by omega, by omega⟩
    . exact ⟨n / 2 ^ 64 + 1, by omega, by omega, by omega⟩
  rcases hbmod product with ⟨k, hk, hlower, hupper⟩
  have htdiv : (product.bmod (2 ^ 64)).tdiv 10000 * 10000 ≤ product.bmod (2 ^ 64) + 9999 ∧
      product.bmod (2 ^ 64) - 9999 ≤ (product.bmod (2 ^ 64)).tdiv 10000 * 10000 ∧
      (0 ≤ product.bmod (2 ^ 64) → (product.bmod (2 ^ 64)).tdiv 10000 = product.bmod (2 ^ 64) / 10000) := by
    have hmod := Int.tmod_add_mul_tdiv (product.bmod (2 ^ 64)) 10000
    have hlt := @Int.tmod_lt_of_pos (product.bmod (2 ^ 64)) 10000 (by decide)
    have hgt := @Int.lt_tmod_of_pos (product.bmod (2 ^ 64)) 10000 (by decide)
    refine ⟨by omega, by omega, ?_⟩
    intro hpos
    rw [Int.tdiv_eq_ediv_of_nonneg hpos]
  generalize (product.bmod (2 ^ 64)).tdiv 10000 = q at *
  rw [hk] at htdiv
  rcases hbmod (limit - q - spent) with ⟨j, hj, hlower', hupper'⟩
  rw [hj]
  by_cases hsmall : product < 2 ^ 63
  . have hk : k = 0 := by omega
    subst hk
    have hq : q = product / 10000 := by omega
    have hj : j = 0 := by omega
    subst hj
    rw [hq, iff_true_intro (Or.inl hsmall), iff_true]
    congr 1
    omega
  . -- what is reserved is too little then, which shows unless both sides have nothing left
    have hreserved : q < product / 10000 := by omega
    have hlimit' : q ≤ limit := by omega
    have hj : j = 0 ∨ j = 1 := by omega
    rcases hj with rfl | rfl
    . omega
    . omega

theorem encodeBudget_of_fits {b : Budget} (hb : b.postInit = .ok b) (hfits : b.Fits)
    : encodeBudget b
        =
      .ok ⟨b.id, encodeBudgetScope b.scope, b.limitMicroUSD, b.spentMicroUSD, b.hard,
        b.headroomBasisPoints.toNat⟩ := by
  unfold Budget.postInit at hb
  simp only [ite_error_eq_ok_iff, not_or, Int.not_lt, Decidable.not_not] at hb
  rcases hb with ⟨_, _, ⟨hlimit, hspent⟩, ⟨hpos, hle⟩, _⟩
  rcases hfits with ⟨hlimit', hspent'⟩
  unfold encodeBudget int64Field uint32
  rw [if_pos (by omega), if_pos (by omega), if_pos (by omega)]
  rfl

theorem available_agrees_iff {b : Budget} (hb : b.postInit = .ok b) (hfits : b.Fits)
    : (∃ m, encodeBudget b = .ok m ∧ (decodeBudget m).available = b.availableMicroUSD ∧
        ((decodeBudget m).denies = true ↔ b.hard = true ∧ b.availableMicroUSD = 0))
        ↔
      b.Reserves := by
  simp only [encodeBudget_of_fits hb hfits, ok.injEq, exists_eq_left']
  unfold Budget.postInit at hb
  simp only [ite_error_eq_ok_iff, not_or, Int.not_lt, Decidable.not_not] at hb
  rcases hb with ⟨_, _, ⟨hlimit, hspent⟩, ⟨hpos, hle⟩, _⟩
  unfold BudgetState.denies BudgetState.available decodeBudget basisPointsPerUnit
  dsimp only
  rw [Int.toNat_of_nonneg hpos, Nat.cast_ofNat]
  have hagrees := max_remaining_iff ⟨hlimit, hfits.1⟩ ⟨hspent, hfits.2⟩
    ⟨Int.mul_nonneg hlimit hpos, Int.mul_le_mul_of_nonneg_left hle hlimit⟩
  rw [max_comm, max_def_lt] at hagrees
  change _ = b.availableMicroUSD ↔ b.Reserves at hagrees
  rw [hagrees]
  apply and_iff_left_of_imp
  intro hreserves
  rw [hagrees.mpr hreserves]
  simp

namespace Sample

def cappedBudget (limit : Int) : Budget :=
  ⟨str "cap", .key, limit, 0, true, 500⟩

end Sample

open Sample

theorem available_agrees_small
    : ∃ m, encodeBudget (cappedBudget 1000000) = .ok m ∧ (decodeBudget m).available = 950000 := by
  rcases (@available_agrees_iff (cappedBudget 1000000) rfl (by decide)).mpr (.inl (by decide))
    with ⟨m, hm, havailable, _⟩
  exact ⟨m, hm, havailable⟩

theorem available_wraps
    : (cappedBudget (2 ^ 62)).postInit = .ok (cappedBudget (2 ^ 62)) ∧
        (cappedBudget (2 ^ 62)).Fits ∧
        (encodeBudget (cappedBudget (2 ^ 62))).map (fun m => (decodeBudget m).available)
          = .ok 4611686018427387904 ∧
        (cappedBudget (2 ^ 62)).availableMicroUSD = 4381101717506018509 := by
  refine ⟨rfl, by decide, rfl, rfl⟩

end ModelGateway.Control
