/- GID: MiniRedis/Python/Binary64
   generality: G
   digest: Seventeen significant digits tell every binary64 number from all others. -/

import MiniRedis.Python.Rounding

set_option autoImplicit false
set_option relaxedAutoImplicit false

namespace MiniRedis.Python

/-- A magnitude that binary64 holds exactly. -/
def IsBinary64 (q : ℚ≥0) : Prop := roundBinary64 false q = .finite false q

/-- A float whose magnitude, if it has one, is one of binary64. -/
def PyFloat.Exact : PyFloat → Prop
  | .finite _ q => IsBinary64 q
  | _ => True

/-! ### Units -/

/-- The exponent of the last binary digit. -/
def lastPlace (q : ℚ≥0) : ℤ := max (Int.log 2 q) (-1022) - 52

theorem roundBinary64_eq {negative : Bool} {q : ℚ≥0} (nonzero : q ≠ 0) :
    roundBinary64 negative q =
      if 2 ^ 1024 ≤ (roundHalfEven (q / 2 ^ lastPlace q) : ℚ≥0) * 2 ^ lastPlace q then .inf negative
      else .finite negative (roundHalfEven (q / 2 ^ lastPlace q) * 2 ^ lastPlace q) := by
  unfold roundBinary64
  rw [if_neg nonzero]
  rfl

theorem unit_pos (k : ℤ) : (0 : ℚ≥0) < 2 ^ k := zpow_pos two_pos k

theorem IsBinary64.exists_significand {q : ℚ≥0} (exact : IsBinary64 q) (nonzero : q ≠ 0) :
    ∃ m : ℕ, q = m * 2 ^ lastPlace q ∧ m < 2 ^ 53 ∧ q < 2 ^ 1024 := by
  rw [IsBinary64, roundBinary64_eq nonzero] at exact
  split at exact
  · cases exact
  · rename_i fits
    have same : (roundHalfEven (q / 2 ^ lastPlace q) : ℚ≥0) * 2 ^ lastPlace q = q := by
      injection exact
    rw [same] at fits
    refine ⟨_, same.symm, ?_, not_le.mp fits⟩
    have high := Int.lt_zpow_succ_log_self (R := ℚ≥0) (b := 2) (by decide) q
    have wide : q < 2 ^ (53 : ℤ) * 2 ^ lastPlace q := by
      calc q < 2 ^ (Int.log 2 q + 1) := by exact_mod_cast high
        _ ≤ 2 ^ (53 + lastPlace q) := by
          apply zpow_le_zpow_right₀ one_le_two
          have := le_max_left (Int.log 2 q) (-1022)
          unfold lastPlace
          omega
        _ = 2 ^ (53 : ℤ) * 2 ^ lastPlace q := zpow_add₀ two_ne_zero _ _
    have scaled : (roundHalfEven (q / 2 ^ lastPlace q) : ℚ≥0) * 2 ^ lastPlace q <
        2 ^ (53 : ℤ) * 2 ^ lastPlace q := same.trans_lt wide
    have digits := lt_of_mul_lt_mul_right scaled (unit_pos _).le
    exact_mod_cast digits

theorem roundHalfEven_eq {x : ℚ≥0} {n : ℕ} (near : |(x : ℚ) - n| < 1 / 2) : roundHalfEven x = n := by
  have error := abs_le.mp (abs_roundHalfEven_sub_le x)
  have close := abs_lt.mp near
  have above : (roundHalfEven x : ℚ) < n + 1 := by linarith
  have below : (n : ℚ) < roundHalfEven x + 1 := by linarith
  have above' : roundHalfEven x < n + 1 := by exact_mod_cast above
  have below' : n < roundHalfEven x + 1 := by exact_mod_cast below
  omega

theorem roundBinary64_near (negative : Bool) {x q : ℚ≥0} {n : ℕ} {k : ℤ} (nonzero : x ≠ 0)
    (unit : lastPlace x = k) (split : q = n * 2 ^ k) (fits : q < 2 ^ 1024)
    (near : |(x : ℚ) - q| < 1 / 2 * 2 ^ k) : roundBinary64 negative x = .finite negative q := by
  have positive : (0 : ℚ) < 2 ^ k := zpow_pos two_pos k
  have rounded : roundHalfEven (x / 2 ^ k) = n := by
    apply roundHalfEven_eq
    have scaled : ((x / 2 ^ k : ℚ≥0) : ℚ) - n = (x - q) / 2 ^ k := by
      rw [split]
      push_cast
      field_simp
    rw [scaled, abs_div, abs_of_pos positive, div_lt_iff₀ positive]
    exact near
  rw [roundBinary64_eq nonzero, unit, rounded, ← split, if_neg (not_le.mpr fits)]

/-! ### Small errors -/

private theorem zpow_le_of_lastPlace_lt {p q : ℚ≥0} (nonzero : q ≠ 0)
    (later : lastPlace p < lastPlace q) : (2 : ℚ) ^ (lastPlace q + 52) ≤ q := by
  have place : Int.log 2 q = lastPlace q + 52 := by
    unfold lastPlace at later ⊢
    omega
  rw [← place]
  have low := Int.zpow_log_le_self (R := ℚ≥0) (b := 2) (by decide) (pos_iff_ne_zero.mpr nonzero)
  exact_mod_cast low

private theorem lt_zpow_of_lastPlace (q : ℚ≥0) : (q : ℚ) < 2 ^ (lastPlace q + 53) := by
  have high := Int.lt_zpow_succ_log_self (R := ℚ≥0) (b := 2) (by decide) q
  have high' : (q : ℚ) < 2 ^ (Int.log 2 q + 1) := by exact_mod_cast high
  refine high'.trans_le (zpow_le_zpow_right₀ one_le_two ?_)
  unfold lastPlace
  omega

private theorem zpow_split (k : ℤ) (j : ℕ) : (2 : ℚ) ^ (k + j) = 2 ^ j * 2 ^ k := by
  rw [add_comm, zpow_add₀ two_ne_zero, zpow_natCast]

private theorem lastPlace_below {x q : ℚ≥0} (nonzero : x ≠ 0) (earlier : lastPlace x < lastPlace q)
    (large : (2 : ℚ) ^ (lastPlace q + 51) ≤ x) : lastPlace x = lastPlace q - 1 := by
  have large' : (2 : ℚ≥0) ^ (lastPlace q + 51) ≤ x := by exact_mod_cast large
  have least := (Int.zpow_le_iff_le_log (R := ℚ≥0) one_lt_two (pos_iff_ne_zero.mpr nonzero)).mp large'
  unfold lastPlace at *
  omega

theorem IsBinary64.absorbs {q x : ℚ≥0} (negative : Bool) (exact : IsBinary64 q) (nonzero : q ≠ 0)
    (near : |(x : ℚ) - q| ≤ 1 / 2 * (1 / 10 ^ 16) * q) :
    roundBinary64 negative x = .finite negative q := by
  obtain ⟨m, split, short, fits⟩ := exact.exists_significand nonzero
  have positive : (0 : ℚ) < q := by exact_mod_cast pos_iff_ne_zero.mpr nonzero
  have close := abs_le.mp near
  have alive : x ≠ 0 := by
    rintro rfl
    rw [NNRat.coe_zero] at close
    linarith [close.1]
  have split' : (q : ℚ) = m * 2 ^ lastPlace q := by
    conv_lhs => rw [split]
    push_cast
    rfl
  have unit : (0 : ℚ) < 2 ^ lastPlace q := zpow_pos two_pos _
  have short' : (m : ℚ) + 1 ≤ 2 ^ 53 := by exact_mod_cast short
  have small : 1 / 2 * (1 / 10 ^ 16) * (q : ℚ) < 1 / 2 * 2 ^ lastPlace q := by
    rw [split']
    nlinarith
  rcases lt_trichotomy (lastPlace x) (lastPlace q) with earlier | same | later
  · -- The number is a power of two, and its neighbours below are closer.
    have low := zpow_le_of_lastPlace_lt nonzero earlier
    have high : (x : ℚ) < 2 ^ (lastPlace q + 52) :=
      (lt_zpow_of_lastPlace x).trans_le (zpow_le_zpow_right₀ one_le_two (by omega))
    have step : (2 : ℚ) ^ (lastPlace q + 52) = 2 ^ 52 * 2 ^ lastPlace q := zpow_split _ 52
    have least : 2 ^ 52 ≤ m := by
      rw [step, split'] at low
      exact_mod_cast le_of_mul_le_mul_right low unit
    have most : m < 2 ^ 52 + 1 := by
      have bound : (m : ℚ) * 2 ^ lastPlace q < (2 ^ 52 + 1) * 2 ^ lastPlace q := by
        rw [← split']
        linarith [close.1]
      exact_mod_cast lt_of_mul_lt_mul_right bound unit.le
    obtain rfl : m = 2 ^ 52 := by omega
    have half : (2 : ℚ) ^ lastPlace q = 2 * 2 ^ (lastPlace q - 1) := by
      rw [zpow_sub_one₀ two_ne_zero]
      ring
    have below : lastPlace x = lastPlace q - 1 := by
      apply lastPlace_below alive earlier
      rw [show (2 : ℚ) ^ (lastPlace q + 51) = 2 ^ 51 * 2 ^ lastPlace q from zpow_split _ 51]
      push_cast at split'
      linarith [close.1]
    refine roundBinary64_near negative (n := 2 ^ 53) alive below ?_ fits ?_
    · refine split.trans ?_
      rw [zpow_sub_one₀ two_ne_zero]
      push_cast
      ring
    · have unit' : (0 : ℚ) < 2 ^ (lastPlace q - 1) := zpow_pos two_pos _
      refine near.trans_lt ?_
      rw [split', half]
      push_cast
      linarith
  · exact roundBinary64_near negative alive same split fits (near.trans_lt small)
  · exfalso
    have low := zpow_le_of_lastPlace_lt alive later
    have next : (2 : ℚ) ^ (lastPlace q + 53) ≤ x :=
      (zpow_le_zpow_right₀ one_le_two (by omega)).trans low
    rw [show (2 : ℚ) ^ (lastPlace q + 53) = 2 ^ 53 * 2 ^ lastPlace q from zpow_split _ 53] at next
    have gap : (m + 1) * (2 : ℚ) ^ lastPlace q ≤ 2 ^ 53 * 2 ^ lastPlace q :=
      mul_le_mul_of_nonneg_right short' unit.le
    linarith [close.2]

/-! ### Seventeen digits -/

/-- One in the last place of a magnitude that is written in some significant digits. -/
def decimalUnit (digits : ℕ) (q : ℚ≥0) : ℚ≥0 := ((10 : ℕ) : ℚ≥0) ^ (Int.log 10 q + 1 - digits)

theorem decimalUnit_pos (digits : ℕ) (q : ℚ≥0) : 0 < decimalUnit digits q :=
  zpow_pos (Nat.cast_pos.mpr (by decide)) _

/-- Seventeen digits are enough. -/
theorem IsBinary64.seventeen_digits {q : ℚ≥0} (negative : Bool) (exact : IsBinary64 q)
    (nonzero : q ≠ 0) :
    roundBinary64 negative (roundHalfEven (q / decimalUnit 17 q) * decimalUnit 17 q) =
      .finite negative q := by
  apply exact.absorbs negative nonzero
  have unit : (0 : ℚ) < decimalUnit 17 q := by exact_mod_cast decimalUnit_pos 17 q
  have error := abs_roundHalfEven_sub_le (q / decimalUnit 17 q)
  have scaled : ((roundHalfEven (q / decimalUnit 17 q) * decimalUnit 17 q : ℚ≥0) : ℚ) - q =
      (roundHalfEven (q / decimalUnit 17 q) - ((q / decimalUnit 17 q : ℚ≥0) : ℚ)) *
        decimalUnit 17 q := by
    push_cast
    field_simp
  have low := Int.zpow_log_le_self (R := ℚ≥0) (b := 10) (by decide) (pos_iff_ne_zero.mpr nonzero)
  have fine : (decimalUnit 17 q : ℚ) ≤ 1 / 10 ^ 16 * q := by
    have size : decimalUnit 17 q * 10 ^ 16 = 10 ^ Int.log 10 q := by
      rw [decimalUnit, ← zpow_natCast (10 : ℚ≥0) 16, Nat.cast_ofNat, ← zpow_add₀ (by norm_num)]
      congr 1
      push_cast
      ring
    have low' : decimalUnit 17 q * 10 ^ 16 ≤ q := by
      rw [size]
      exact_mod_cast low
    have low'' : (decimalUnit 17 q : ℚ) * 10 ^ 16 ≤ q := by exact_mod_cast low'
    linarith
  rw [scaled, abs_mul, abs_of_pos unit]
  calc _ ≤ 1 / 2 * (decimalUnit 17 q : ℚ) := mul_le_mul_of_nonneg_right error unit.le
    _ ≤ 1 / 2 * (1 / 10 ^ 16 * q) := by linarith
    _ = 1 / 2 * (1 / 10 ^ 16) * q := by ring

end MiniRedis.Python
