/- GID: MiniRedis/Python/Rounding
   generality: G
   digest: Rounding to the nearest number errs by half a unit at most, and keeps what has few digits. -/

import MiniRedis.Python.Number
import Mathlib.Algebra.Order.Floor.Semifield
import Mathlib.Tactic.Linarith
import Mathlib.Tactic.FieldSimp
import Mathlib.Tactic.NormNum
import Mathlib.Tactic.Positivity

set_option autoImplicit false
set_option relaxedAutoImplicit false

namespace MiniRedis.Python

/-! ### To a whole number -/

theorem roundHalfEven_natCast (n : ℕ) : roundHalfEven n = n := by
  have below : (n : ℚ≥0) < n + 1 / 2 := lt_add_of_pos_right _ (by norm_num)
  simp only [roundHalfEven, Nat.floor_natCast]
  rw [if_pos below]

theorem abs_roundHalfEven_sub_le (q : ℚ≥0) : |(roundHalfEven q : ℚ) - q| ≤ 1 / 2 := by
  have low : ((⌊q⌋₊ : ℚ≥0) : ℚ) ≤ q := NNRat.coe_le_coe.mpr (Nat.floor_le zero_le)
  have high : (q : ℚ) < ⌊q⌋₊ + 1 := by exact_mod_cast Nat.lt_floor_add_one q
  have low' : (⌊q⌋₊ : ℚ) ≤ q := by exact_mod_cast low
  have half : ∀ f : ℕ, q < f + 1 / 2 ↔ (q : ℚ) < f + 1 / 2 := by
    intro f
    rw [← NNRat.coe_lt_coe]
    push_cast
    rfl
  have half' : ∀ f : ℕ, (f : ℚ≥0) + 1 / 2 < q ↔ (f : ℚ) + 1 / 2 < q := by
    intro f
    rw [← NNRat.coe_lt_coe]
    push_cast
    rfl
  simp only [roundHalfEven, half, half']
  rw [abs_le]
  split_ifs <;> push_cast <;> constructor <;> linarith

theorem roundHalfEven_mono {p q : ℚ≥0} (le : p ≤ q) : roundHalfEven p ≤ roundHalfEven q := by
  by_contra less
  have low := abs_le.mp (abs_roundHalfEven_sub_le p)
  have high := abs_le.mp (abs_roundHalfEven_sub_le q)
  have gap : (roundHalfEven q : ℚ) + 1 ≤ roundHalfEven p := by exact_mod_cast not_le.mp less
  have le' : (p : ℚ) ≤ q := NNRat.coe_le_coe.mpr le
  have same : (p : ℚ) = q := by linarith
  rw [NNRat.coe_inj.mp same] at less
  exact less le_rfl

/-! ### To binary64 -/

theorem roundBinary64_natCast (negative : Bool) {m k j : ℕ} (scaled : m = k * 2 ^ j)
    (short : k < 2 ^ 53) (small : m < 2 ^ 1024) :
    roundBinary64 negative (m : ℚ≥0) = .finite negative m := by
  unfold roundBinary64
  by_cases zero : m = 0
  · rw [zero, if_pos Nat.cast_zero, Nat.cast_zero]
  · rw [if_neg (Nat.cast_ne_zero.mpr zero)]
    have log : Int.log 2 (m : ℚ≥0) = Nat.log 2 m := Int.log_natCast 2 m
    have few : Nat.log 2 m ≤ 52 + j := by
      have below : m < 2 ^ (53 + j) := by
        rw [scaled, Nat.pow_add]
        exact Nat.mul_lt_mul_of_pos_right short (Nat.two_pow_pos j)
      have digits := Nat.log_lt_of_lt_pow zero below
      omega
    obtain ⟨i, split⟩ : ∃ i, Nat.log 2 m + i = 52 + j := Nat.exists_eq_add_of_le few |>.imp
      (fun _ same => same.symm)
    have large : max (Int.log 2 (m : ℚ≥0)) (-1022) - 52 = (j : ℤ) - i := by
      rw [log, max_eq_left (by omega)]
      omega
    have unit : (2 : ℚ≥0) ^ ((j : ℤ) - i) ≠ 0 := zpow_ne_zero _ two_ne_zero
    have steps : (m : ℚ≥0) / 2 ^ ((j : ℤ) - i) = (k * 2 ^ i : ℕ) := by
      rw [div_eq_iff unit, scaled, Nat.cast_mul, Nat.cast_mul, mul_assoc, Nat.cast_pow,
        Nat.cast_pow, Nat.cast_ofNat, ← zpow_natCast 2 i, ← zpow_add₀ two_ne_zero]
      simp
    have fits : ¬ (2 : ℚ≥0) ^ 1024 ≤ m := by
      rw [not_le]
      exact_mod_cast small
    have back : ((k * 2 ^ i : ℕ) : ℚ≥0) * 2 ^ ((j : ℤ) - i) = m := by
      rw [← steps, div_mul_cancel₀ _ unit]
    simp only [large, steps, roundHalfEven_natCast, back, if_neg fits]

/-- A magnitude below `2 ^ 53` is rounded to the multiples of a fraction `1 / 2 ^ j`, where it has
53 binary digits. -/
theorem roundBinary64_of_bounds (negative : Bool) {x : ℚ≥0} {j : ℕ}
    (low : (2 : ℚ≥0) ^ (52 - (j : ℤ)) ≤ x) (high : x < (2 : ℚ≥0) ^ (53 - (j : ℤ)))
    (normal : j ≤ 1074) :
    roundBinary64 negative x = .finite negative (roundHalfEven (x * 2 ^ j) / 2 ^ j) := by
  have positive : 0 < x := lt_of_lt_of_le (zpow_pos two_pos _) low
  have log : Int.log 2 x = 52 - (j : ℤ) := by
    have least := (Int.zpow_le_iff_le_log (R := ℚ≥0) one_lt_two positive).mp low
    have most := (Int.lt_zpow_iff_log_lt (R := ℚ≥0) one_lt_two positive).mp high
    omega
  have unit : max (Int.log 2 x) (-1022) - 52 = -(j : ℤ) := by
    rw [log, max_eq_left (by omega)]
    omega
  have scaled : x / 2 ^ (-(j : ℤ)) = x * 2 ^ j := by rw [zpow_neg, div_inv_eq_mul, zpow_natCast]
  have back : ∀ m : ℚ≥0, m * 2 ^ (-(j : ℤ)) = m / 2 ^ j := by
    intro m
    rw [zpow_neg, zpow_natCast, div_eq_mul_inv]
  have short : x * 2 ^ j < 2 ^ 53 := by
    calc x * 2 ^ j < 2 ^ (53 - (j : ℤ)) * 2 ^ j :=
        mul_lt_mul_of_pos_right high (pow_pos two_pos j)
      _ = 2 ^ 53 := by
        rw [← zpow_natCast 2 j, ← zpow_add₀ two_ne_zero, sub_add_cancel]
        rfl
  have fits : ¬ (2 : ℚ≥0) ^ 1024 ≤ roundHalfEven (x * 2 ^ j) / 2 ^ j := by
    have error := abs_le.mp (abs_roundHalfEven_sub_le (x * 2 ^ j))
    have short' : ((x * 2 ^ j : ℚ≥0) : ℚ) < 2 ^ 53 := by exact_mod_cast short
    have bounded : (roundHalfEven (x * 2 ^ j) : ℚ) < 2 ^ 54 := by linarith [error.2]
    have bounded' : (roundHalfEven (x * 2 ^ j) : ℚ≥0) < 2 ^ 54 := by exact_mod_cast bounded
    rw [not_le]
    calc (roundHalfEven (x * 2 ^ j) : ℚ≥0) / 2 ^ j ≤ roundHalfEven (x * 2 ^ j) :=
        div_le_self zero_le (one_le_pow₀ one_le_two)
      _ < 2 ^ 54 := bounded'
      _ < 2 ^ 1024 := pow_lt_pow_right₀ one_lt_two (by decide)
  unfold roundBinary64
  rw [if_neg positive.ne']
  simp only [unit, scaled, back, if_neg fits]

end MiniRedis.Python
