import TinyLisp.Proofs.Number.Numerals
import TinyLisp.Proofs.Number.Rounding
import TinyLisp.Number
import Mathlib.Algebra.Order.Field.Rat
import Mathlib.Algebra.Order.Field.Power
import Mathlib.Data.Rat.Cast.Order

/-!
# Decimals out of range

A decimal is infinite as a double just if it is at least halfway from the greatest double to the
next power of two. The bounds on exponents, which spare computing large powers, do not matter: a
decimal beyond them is on the same side of this bound.
-/

namespace TinyLisp

/-- A quotient is rounded up to an even number from the half below that number on. -/
theorem le_roundDiv_iff {count numerator denominator : Nat} (positive : 0 < denominator)
    (even : count % 2 = 0) (nonzero : count ≠ 0) :
    count ≤ roundDiv numerator denominator ↔ (2 * count - 1) * denominator ≤ 2 * numerator := by
  have whole := Nat.div_add_mod numerator denominator
  have small := Nat.mod_lt numerator positive
  simp only [roundDiv]
  generalize numerator / denominator = quotient at whole ⊢
  generalize numerator % denominator = remainder at whole small ⊢
  have halves : (2 * count - 1) * denominator + denominator = count * (2 * denominator) := by
    obtain ⟨lower, rfl⟩ := Nat.exists_eq_add_one_of_ne_zero nonzero
    have : 2 * (lower + 1) - 1 = 2 * lower + 1 := by omega
    rw [this]
    ring
  rcases lt_trichotomy count (quotient + 1) with less | rfl | more
  · have : count * (2 * denominator) ≤ quotient * (2 * denominator) :=
      Nat.mul_le_mul_right _ (by omega)
    have least : quotient * (2 * denominator) = 2 * (denominator * quotient) := by ring
    split <;> constructor <;> omega
  · -- The count is the upper neighbour, and the lower one is odd: half is enough.
    have next : (quotient + 1) * (2 * denominator) =
        2 * (denominator * quotient) + 2 * denominator := by ring
    split <;> constructor <;> omega
  · have : (quotient + 2) * (2 * denominator) ≤ count * (2 * denominator) :=
      Nat.mul_le_mul_right _ (by omega)
    have beyond : (quotient + 2) * (2 * denominator) =
        2 * (denominator * quotient) + 4 * denominator := by ring
    split <;> constructor <;> omega

/-- The rounded number is one of the two neighbours of the quotient among the multiples of the power
of two that is left out. -/
theorem nearestUnits_neighbours (numerator denominator : Nat) :
    numerator / denominator / 2 ^ ((numerator / denominator).log2 - 52) *
        2 ^ ((numerator / denominator).log2 - 52) ≤ nearestUnits numerator denominator ∧
      nearestUnits numerator denominator ≤
        (numerator / denominator / 2 ^ ((numerator / denominator).log2 - 52) + 1) *
          2 ^ ((numerator / denominator).log2 - 52) := by
  have upper := roundDiv_le numerator (denominator * 2 ^ ((numerator / denominator).log2 - 52))
  have lower : numerator / (denominator * 2 ^ ((numerator / denominator).log2 - 52)) ≤
      roundDiv numerator (denominator * 2 ^ ((numerator / denominator).log2 - 52)) := by
    simp only [roundDiv]
    split <;> omega
  rw [← Nat.div_div_eq_div_mul] at lower upper
  simp only [nearestUnits, Nat.pow_eq]
  exact ⟨Nat.mul_le_mul_right _ lower, Nat.mul_le_mul_right _ upper⟩

/-- Rounding does not pass the next power of two. -/
theorem nearestUnits_le_two_pow (numerator denominator : Nat) :
    nearestUnits numerator denominator ≤ 2 ^ ((numerator / denominator).log2 + 1) := by
  refine (nearestUnits_neighbours numerator denominator).2.trans ?_
  generalize numerator / denominator = quotient
  have parts : quotient.log2 + 1 - (quotient.log2 - 52) + (quotient.log2 - 52) =
      quotient.log2 + 1 := by omega
  have below : quotient / 2 ^ (quotient.log2 - 52) <
      2 ^ (quotient.log2 + 1 - (quotient.log2 - 52)) := by
    rw [Nat.div_lt_iff_lt_mul (Nat.two_pow_pos _), ← Nat.pow_add, parts]
    exact Nat.lt_log2_self
  calc (quotient / 2 ^ (quotient.log2 - 52) + 1) * 2 ^ (quotient.log2 - 52)
      ≤ 2 ^ (quotient.log2 + 1 - (quotient.log2 - 52)) * 2 ^ (quotient.log2 - 52) :=
        Nat.mul_le_mul_right _ below
    _ = 2 ^ (quotient.log2 + 1) := by rw [← Nat.pow_add, parts]

/-- Rounding does not pass the last power of two. -/
theorem two_pow_le_nearestUnits {numerator denominator : Nat}
    (nonzero : numerator / denominator ≠ 0) :
    2 ^ (numerator / denominator).log2 ≤ nearestUnits numerator denominator := by
  refine le_trans ?_ (nearestUnits_neighbours numerator denominator).1
  generalize numerator / denominator = quotient at nonzero
  have parts : quotient.log2 - (quotient.log2 - 52) + (quotient.log2 - 52) = quotient.log2 :=
    Nat.sub_add_cancel (Nat.sub_le _ _)
  have above : 2 ^ (quotient.log2 - (quotient.log2 - 52)) ≤
      quotient / 2 ^ (quotient.log2 - 52) := by
    rw [Nat.le_div_iff_mul_le (Nat.two_pow_pos _), ← Nat.pow_add, parts]
    exact Nat.log2_self_le nonzero
  calc 2 ^ quotient.log2
      = 2 ^ (quotient.log2 - (quotient.log2 - 52)) * 2 ^ (quotient.log2 - 52) := by
        rw [← Nat.pow_add, parts]
    _ ≤ quotient / 2 ^ (quotient.log2 - 52) * 2 ^ (quotient.log2 - 52) :=
        Nat.mul_le_mul_right _ above

/-- Which quotients are rounded to a power of two or beyond it. Below the power, a quotient of as
many bits is rounded to a multiple of two to the `bits + 1`, and half of one less is the bound. -/
theorem two_pow_le_nearestUnits_iff (bits : Nat) {numerator denominator : Nat}
    (positive : 0 < denominator) :
    2 ^ (bits + 54) ≤ nearestUnits numerator denominator ↔
      (2 ^ 54 - 1) * 2 ^ bits * denominator ≤ numerator := by
  have unit : 0 < 2 ^ bits * denominator := Nat.mul_pos (Nat.two_pow_pos bits) positive
  have bound : (2 ^ 54 - 1) * 2 ^ bits * denominator =
      (2 ^ 54 - 1) * (2 ^ bits * denominator) := Nat.mul_assoc _ _ _
  rw [bound]
  rcases lt_trichotomy (numerator / denominator).log2 (bits + 53) with less | same | more
  · have rounded : nearestUnits numerator denominator ≤ 2 ^ (bits + 53) :=
      (nearestUnits_le_two_pow _ _).trans (Nat.pow_le_pow_right Nat.two_pos less)
    have power : 2 ^ (bits + 53) < 2 ^ (bits + 54) :=
      Nat.pow_lt_pow_right Nat.one_lt_two (Nat.lt_succ_self _)
    have below : numerator < 2 ^ (bits + 53) * denominator :=
      (Nat.div_lt_iff_lt_mul positive).mp
        (Nat.lt_log2_self.trans_le (Nat.pow_le_pow_right Nat.two_pos less))
    rw [Nat.pow_add, Nat.mul_right_comm] at below
    constructor <;> intro reaches <;> omega
  · have shift : bits + 53 - 52 = bits + 1 := by omega
    have power : bits + 54 = 53 + (bits + 1) := by omega
    have doubled : (2 * 2 ^ 53 - 1) * (denominator * 2 ^ (bits + 1)) =
        2 * ((2 ^ 54 - 1) * (2 ^ bits * denominator)) := by
      rw [Nat.pow_succ 2 bits]
      ring
    simp only [nearestUnits, Nat.pow_eq, same, shift]
    rw [power, Nat.pow_add, Nat.mul_le_mul_right_iff (Nat.two_pow_pos _),
      le_roundDiv_iff (Nat.mul_pos positive (Nat.two_pow_pos _)) (by decide) (by decide), doubled,
      Nat.mul_le_mul_left_iff Nat.two_pos]
  · have nonzero : numerator / denominator ≠ 0 := by
      intro small
      simp [small] at more
    have power : 2 ^ (bits + 54) ≤ 2 ^ (numerator / denominator).log2 :=
      Nat.pow_le_pow_right Nat.two_pos more
    have above : 2 ^ (bits + 54) * denominator ≤ numerator :=
      (Nat.le_div_iff_mul_le positive).mp (power.trans (Nat.log2_self_le nonzero))
    rw [Nat.pow_add, Nat.mul_right_comm] at above
    refine iff_of_true (power.trans (two_pow_le_nearestUnits nonzero)) ?_
    omega

/-- The least number that is infinite as a double, in the middle between the greatest double,
`(2 ^ 53 - 1) * 2 ^ 971`, and the next power of two. -/
def Binary64.overflowBound : Nat := (2 ^ 54 - 1) * 2 ^ 970

theorem Binary64.overflowBound_pos : 0 < overflowBound := by
  unfold overflowBound
  generalize 970 = bits
  exact Nat.mul_pos (by decide) (Nat.two_pow_pos bits)

theorem Binary64.overflowBound_le_two_pow : overflowBound ≤ 2 ^ 1024 := by
  have power : 1024 = 54 + 970 := rfl
  unfold overflowBound
  rw [power, Nat.pow_add]
  generalize 970 = bits
  exact Nat.mul_le_mul_right _ (Nat.sub_le _ _)

theorem Binary64.signedZero_ne_infinite (negative other : Bool) :
    signedZero negative ≠ .infinite other := by
  rintro ⟨⟩

theorem Binary64.ofQuotient_eq_infinite_iff (negative : Bool) (count : Nat) {denominator : Nat}
    (positive : 0 < denominator) :
    ofQuotient negative (count * unitsPerOne) denominator = .infinite negative ↔
      overflowBound * denominator ≤ count := by
  have bits : unitBits = 970 + fractionBits + 54 := rfl
  have reaches : (¬ nearestUnits (count * unitsPerOne) denominator < unitBound) ↔
      overflowBound * denominator ≤ count := by
    unfold unitsPerOne unitBound overflowBound
    rw [not_lt, Nat.pow_eq, Nat.pow_eq, bits, two_pow_le_nearestUnits_iff _ positive]
    generalize fractionBits = scale
    generalize 970 = whole
    rw [Nat.pow_add, ← Nat.mul_assoc, Nat.mul_right_comm _ (2 ^ scale),
      Nat.mul_le_mul_right_iff (Nat.two_pow_pos scale)]
  rw [← reaches]
  unfold ofQuotient
  split <;> simp_all

namespace Decimal

def rational (decimal : Decimal) : ℚ := decimal.significand * 10 ^ decimal.exponent

/-- The power of ten above the leading digit. -/
def magnitude (decimal : Decimal) : Int := decimal.exponent + digitCount decimal.significand

theorem rational_lt_ten_zpow (decimal : Decimal) : decimal.rational < 10 ^ decimal.magnitude := by
  have count : 0 < digitCount decimal.significand := Nat.length_toDigits_pos
  have below : (decimal.significand : ℚ) < 10 ^ digitCount decimal.significand := by
    exact_mod_cast (digitCount_le_iff count).mp le_rfl
  rw [rational, magnitude, add_comm, zpow_add₀ (by norm_num), zpow_natCast]
  exact mul_lt_mul_of_pos_right below (zpow_pos (by norm_num) _)

theorem ten_zpow_le_rational {decimal : Decimal} (nonzero : decimal.significand ≠ 0) :
    10 ^ (decimal.magnitude - 1) ≤ decimal.rational := by
  obtain ⟨count, counted⟩ : ∃ count, digitCount decimal.significand = count + 1 :=
    Nat.exists_eq_add_one.mpr Nat.length_toDigits_pos
  have above : 10 ^ count ≤ decimal.significand := by
    rcases Nat.eq_zero_or_pos count with rfl | positive
    · exact Nat.pos_of_ne_zero nonzero
    · by_contra less
      have := (digitCount_le_iff positive).mpr (not_le.mp less)
      omega
  have exponent : decimal.magnitude - 1 = count + decimal.exponent := by
    rw [magnitude, counted]
    push_cast
    ring
  rw [rational, exponent, zpow_add₀ (by norm_num), zpow_natCast]
  exact mul_le_mul_of_nonneg_right (by exact_mod_cast above) (zpow_nonneg (by norm_num) _)

theorem powerOfTen_eq (exponent : Int) :
    (10 : ℚ) ^ exponent * (powerOfTen exponent).2 = (powerOfTen exponent).1 := by
  have parts : exponent + (-exponent).toNat = exponent.toNat := by omega
  simp only [powerOfTen, Nat.pow_eq]
  push_cast
  rw [← zpow_natCast, ← zpow_natCast, ← zpow_add₀ (by norm_num), parts]

/-- A decimal whose leading digit is far enough to the left is out of range. -/
theorem overflowBound_le_of_magnitude {decimal : Decimal} (nonzero : decimal.significand ≠ 0)
    (large : overflowExponent < decimal.magnitude) :
    (Binary64.overflowBound : ℚ) ≤ decimal.rational := by
  have bound := Binary64.overflowBound_le_two_pow.trans Magnitude.two_pow_le_ten_pow_wholeBits
  calc (Binary64.overflowBound : ℚ)
      ≤ 10 ^ (309 : ℕ) := by exact_mod_cast bound
    _ = 10 ^ (309 : ℤ) := (zpow_natCast _ _).symm
    _ ≤ 10 ^ (decimal.magnitude - 1) := by
        unfold overflowExponent at large
        exact zpow_le_zpow_right₀ (by norm_num) (by omega)
    _ ≤ decimal.rational := ten_zpow_le_rational nonzero

/-- A decimal below one is in range. -/
theorem rational_lt_overflowBound {decimal : Decimal} (small : decimal.magnitude ≤ 0) :
    decimal.rational < Binary64.overflowBound := by
  have one : 1 ≤ Binary64.overflowBound := Binary64.overflowBound_pos
  calc decimal.rational
      < 10 ^ decimal.magnitude := rational_lt_ten_zpow decimal
    _ ≤ 1 := zpow_le_one_of_nonpos₀ (by norm_num) small
    _ ≤ Binary64.overflowBound := by exact_mod_cast one

theorem toBinary64_of_ne_zero (negative : Bool) {decimal : Decimal}
    (nonzero : decimal.significand ≠ 0) :
    decimal.toBinary64 negative =
      if overflowExponent < decimal.magnitude then .infinite negative
      else if decimal.magnitude < underflowExponent then Binary64.signedZero negative
      else Binary64.ofQuotient negative
        (decimal.significand * (powerOfTen decimal.exponent).1 * unitsPerOne)
        (powerOfTen decimal.exponent).2 :=
  if_neg nonzero

/-- A decimal is infinite as a double from the bound on. -/
theorem toBinary64_eq_infinite_iff (negative : Bool) (decimal : Decimal) :
    decimal.toBinary64 negative = .infinite negative ↔
      (Binary64.overflowBound : ℚ) ≤ decimal.rational := by
  by_cases zero : decimal.significand = 0
  · have small : decimal.rational < Binary64.overflowBound := by
      rw [rational, zero, Nat.cast_zero, zero_mul]
      exact_mod_cast Binary64.overflowBound_pos
    rw [toBinary64, if_pos zero]
    exact iff_of_false (Binary64.signedZero_ne_infinite _ _) (not_le.mpr small)
  rw [toBinary64_of_ne_zero negative zero]
  split
  · next large => exact iff_of_true rfl (overflowBound_le_of_magnitude zero large)
  split
  · next small =>
      have least : underflowExponent ≤ 0 := by decide
      have below := rational_lt_overflowBound (small.le.trans least)
      exact iff_of_false (Binary64.signedZero_ne_infinite _ _) (not_le.mpr below)
  · have positive : (0 : ℚ) < (powerOfTen decimal.exponent).2 := by
      exact_mod_cast powerOfTen_pos decimal.exponent
    rw [Binary64.ofQuotient_eq_infinite_iff negative _ (powerOfTen_pos _), rational,
      ← mul_le_mul_iff_left₀ positive, mul_assoc, powerOfTen_eq]
    exact_mod_cast Iff.rfl

/-- The sign of an infinity is the one of the decimal. -/
theorem eq_of_toBinary64_eq_infinite {negative other : Bool} {decimal : Decimal}
    (rounds : decimal.toBinary64 negative = .infinite other) : other = negative := by
  revert rounds
  simp only [toBinary64, Binary64.ofQuotient, Binary64.signedZero]
  split_ifs <;> simp_all

end Decimal

namespace Numeral

/-- The numeral denotes a double, and one that is out of range. -/
def Overflows (numeral : Numeral) : Prop :=
  numeral.isInteger = false ∧ (Binary64.overflowBound : ℚ) ≤ numeral.decimal.rational

/-- A numeral denotes an infinity just if it is out of range. -/
theorem value_eq_infinite_iff {numeral : Numeral} {negative : Bool} :
    numeral.value = .ok (.float (.infinite negative)) ↔
      negative = numeral.negative ∧ numeral.Overflows := by
  unfold value Overflows
  split
  · next integer =>
      simp only [integer, Bool.true_eq_false, false_and, and_false, iff_false]
      split <;> simp
  · next double =>
      simp only [Bool.not_eq_true] at double
      simp only [double, Except.ok.injEq, Number.float.injEq, true_and]
      constructor
      · intro rounds
        obtain rfl := Decimal.eq_of_toBinary64_eq_infinite rounds
        exact ⟨rfl, (Decimal.toBinary64_eq_infinite_iff _ _).mp rounds⟩
      · rintro ⟨rfl, large⟩
        exact (Decimal.toBinary64_eq_infinite_iff _ _).mpr large

end Numeral

end TinyLisp
