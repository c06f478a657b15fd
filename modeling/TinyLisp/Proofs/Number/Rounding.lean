import TinyLisp.Number.Decimal
import Mathlib.Tactic.Ring
import Mathlib.Tactic.NormNum

/-!
# Rounding decimals

The double nearest to a decimal depends on the number alone, not on how many zeros its significand
ends in. The shortest decimal of a double is one that reads back as it: every candidate is tried,
and the exact value, the last resort, always does.
-/

namespace TinyLisp

theorem roundDiv_mul_right (numerator denominator factor : Nat) (positive : 0 < factor) :
    roundDiv (numerator * factor) (denominator * factor) = roundDiv numerator denominator := by
  have twice : 2 * (numerator % denominator * factor) = 2 * (numerator % denominator) * factor := by
    ring
  have exceeds : 2 * (numerator % denominator) * factor > denominator * factor ↔
      2 * (numerator % denominator) > denominator :=
    Nat.mul_lt_mul_right positive
  have half : 2 * (numerator % denominator) * factor = denominator * factor ↔
      2 * (numerator % denominator) = denominator :=
    Nat.mul_left_inj positive.ne'
  simp only [roundDiv, Nat.mul_div_mul_right _ _ positive, Nat.mul_mod_mul_right, twice, exceeds,
    half]

theorem nearestUnits_mul_right (numerator denominator factor : Nat) (positive : 0 < factor) :
    nearestUnits (numerator * factor) (denominator * factor) =
      nearestUnits numerator denominator := by
  simp only [nearestUnits, Nat.mul_div_mul_right _ _ positive]
  rw [Nat.mul_right_comm denominator factor, roundDiv_mul_right _ _ _ positive]

/-- Equal quotients are rounded alike. -/
theorem nearestUnits_congr {numerator denominator otherNumerator otherDenominator : Nat}
    (positive : 0 < denominator) (otherPositive : 0 < otherDenominator)
    (cross : numerator * otherDenominator = otherNumerator * denominator) :
    nearestUnits numerator denominator = nearestUnits otherNumerator otherDenominator := by
  rw [← nearestUnits_mul_right numerator denominator _ otherPositive, cross,
    ← nearestUnits_mul_right otherNumerator otherDenominator _ positive,
    Nat.mul_comm denominator]

/-- A number of units that is a magnitude already is not changed. -/
theorem nearestUnits_units (magnitude : Magnitude) :
    nearestUnits magnitude.units 1 = magnitude.units := by
  have whole : magnitude.units / 2 ^ (magnitude.units.log2 - 52) *
      2 ^ (magnitude.units.log2 - 52) = magnitude.units :=
    Nat.div_mul_cancel (Nat.dvd_of_mod_eq_zero magnitude.fits)
  have exact : roundDiv magnitude.units (2 ^ (magnitude.units.log2 - 52)) =
      magnitude.units / 2 ^ (magnitude.units.log2 - 52) := by
    have := magnitude.fits
    simp only [Nat.pow_eq] at this
    have : 0 < 2 ^ (magnitude.units.log2 - 52) := Nat.two_pow_pos _
    simp only [roundDiv]
    rw [if_neg (by omega)]
  simpa only [nearestUnits, Nat.div_one, Nat.one_mul, Nat.pow_eq, exact] using whole

namespace Binary64

theorem ofQuotient_congr (negative : Bool)
    {numerator denominator otherNumerator otherDenominator : Nat}
    (positive : 0 < denominator) (otherPositive : 0 < otherDenominator)
    (cross : numerator * otherDenominator = otherNumerator * denominator) :
    ofQuotient negative numerator denominator =
      ofQuotient negative otherNumerator otherDenominator := by
  simp only [ofQuotient, nearestUnits_congr positive otherPositive cross]

theorem ofQuotient_units (negative : Bool) (magnitude : Magnitude) :
    ofQuotient negative magnitude.units 1 = .finite negative magnitude := by
  simp only [ofQuotient, nearestUnits_units, magnitude.bounded, dite_true]

end Binary64

namespace Decimal

theorem digitCount_le_iff {value count : Nat} (positive : 0 < count) :
    digitCount value ≤ count ↔ value < 10 ^ count :=
  Nat.length_toDigits_le_iff (by decide) positive

theorem digitCount_mul_ten {value : Nat} (nonzero : value ≠ 0) :
    digitCount (value * 10) = digitCount value + 1 := by
  rw [digitCount, Nat.toDigits_of_base_le (by decide) (by omega)]
  simp [digitCount]

theorem digitCount_mul_pow {value : Nat} (nonzero : value ≠ 0) (zeros : Nat) :
    digitCount (value * 10 ^ zeros) = digitCount value + zeros := by
  induction zeros with
  | zero => simp
  | succ zeros ih =>
      have : value * 10 ^ zeros ≠ 0 := by positivity
      rw [Nat.pow_succ, ← Nat.mul_assoc, digitCount_mul_ten this, ih, Nat.add_assoc]

/-- Powers of ten as quotients are multiplied by adding their exponents. -/
theorem powerOfTen_add (exponent : Int) (zeros : Nat) :
    10 ^ zeros * (powerOfTen exponent).1 * (powerOfTen (exponent + zeros)).2 =
      (powerOfTen (exponent + zeros)).1 * (powerOfTen exponent).2 := by
  simp only [powerOfTen, Nat.pow_eq, ← Nat.pow_add]
  congr 1
  omega

theorem powerOfTen_pos (exponent : Int) : 0 < (powerOfTen exponent).2 := by
  simp [powerOfTen, Nat.pow_eq]

/-- Zeros at the end of a significand stand for a greater exponent. -/
theorem toBinary64_mul_pow (negative : Bool) (significand zeros : Nat) (exponent : Int) :
    toBinary64 negative ⟨significand * 10 ^ zeros, exponent⟩ =
      toBinary64 negative ⟨significand, exponent + zeros⟩ := by
  by_cases zero : significand = 0
  · simp [toBinary64, zero]
  have nonzero : significand * 10 ^ zeros ≠ 0 := by positivity
  have magnitude : exponent + (digitCount (significand * 10 ^ zeros) : Int) =
      exponent + zeros + digitCount significand := by
    rw [digitCount_mul_pow zero]
    push_cast
    ring
  have quotient : Binary64.ofQuotient negative
      (significand * 10 ^ zeros * (powerOfTen exponent).1 * unitsPerOne) (powerOfTen exponent).2 =
      Binary64.ofQuotient negative
        (significand * (powerOfTen (exponent + zeros)).1 * unitsPerOne)
        (powerOfTen (exponent + zeros)).2 := by
    apply Binary64.ofQuotient_congr negative (powerOfTen_pos _) (powerOfTen_pos _)
    calc significand * 10 ^ zeros * (powerOfTen exponent).1 * unitsPerOne *
            (powerOfTen (exponent + zeros)).2
        = significand * unitsPerOne * (10 ^ zeros * (powerOfTen exponent).1 *
            (powerOfTen (exponent + zeros)).2) := by ring
      _ = significand * (powerOfTen (exponent + zeros)).1 * unitsPerOne *
            (powerOfTen exponent).2 := by rw [powerOfTen_add]; ring
  simp only [toBinary64, zero, nonzero, if_false, magnitude, quotient]

/-- A sign does not take part in rounding. -/
theorem toBinary64_of_readsFrom {decimal : Decimal} {magnitude : Magnitude}
    (reads : magnitude.readsFrom decimal) (negative : Bool) :
    decimal.toBinary64 negative = .finite negative magnitude := by
  simp only [Magnitude.readsFrom, decide_eq_true_eq] at reads
  revert reads
  simp only [toBinary64, Binary64.ofQuotient, Binary64.signedZero]
  split_ifs <;> simp

theorem toBinary64_ne_undefined (negative : Bool) (decimal : Decimal) (object : Option Nat) :
    decimal.toBinary64 negative ≠ .undefined object := by
  simp only [toBinary64, Binary64.ofQuotient, Binary64.signedZero]
  split_ifs <;> simp

end Decimal

namespace Magnitude

theorem readsFrom_of_neighbour? {magnitude : Magnitude} {exponent : Int} {decimal : Decimal}
    (found : magnitude.neighbour? exponent = some decimal) : magnitude.readsFrom decimal := by
  simp only [neighbour?] at found
  split_ifs at found <;> cases found <;> assumption

/-- The number of digits of an exact value, for any number of bits after and before the point. -/
theorem digitCount_mul_five_pow {units scale bits least greatest : Nat} (nonzero : units ≠ 0)
    (bounded : units < 2 ^ (bits + scale)) (lower : 10 ^ least ≤ 5 ^ scale)
    (upper : 2 ^ bits ≤ 10 ^ greatest) (leastPositive : 0 < least)
    (greatestPositive : 0 < greatest) :
    least < Decimal.digitCount (units * 5 ^ scale) ∧
      Decimal.digitCount (units * 5 ^ scale) ≤ greatest + scale := by
  constructor
  · rw [← not_le, Decimal.digitCount_le_iff leastPositive, not_lt]
    exact lower.trans (Nat.le_mul_of_pos_left _ (Nat.pos_of_ne_zero nonzero))
  · rw [Decimal.digitCount_le_iff (by omega)]
    calc units * 5 ^ scale
        < 2 ^ (bits + scale) * 5 ^ scale := Nat.mul_lt_mul_of_pos_right bounded (by positivity)
      _ = 2 ^ bits * 10 ^ scale := by
          rw [Nat.pow_add, Nat.mul_assoc, ← Nat.mul_pow]
      _ ≤ 10 ^ (greatest + scale) := by
          rw [Nat.pow_add]
          exact Nat.mul_le_mul_right _ upper

theorem ten_pow_le_five_pow_fractionBits : 10 ^ 743 ≤ 5 ^ fractionBits := by
  have tens : 743 = 9 * 82 + 5 := rfl
  have fives : fractionBits = 13 * 82 + 8 := rfl
  rw [tens, fives, Nat.pow_add, Nat.pow_add, Nat.pow_mul, Nat.pow_mul]
  exact Nat.mul_le_mul (Nat.pow_le_pow_left (by norm_num) _) (by norm_num)

theorem two_pow_le_ten_pow_wholeBits : 2 ^ 1024 ≤ 10 ^ 309 := by
  have twos : 1024 = 256 * 4 := rfl
  have tens : 309 = 75 * 4 + 9 := rfl
  rw [twos, tens, Nat.pow_mul, Nat.pow_add, Nat.pow_mul]
  calc (2 ^ 256) ^ 4 ≤ (116 * 10 ^ 75) ^ 4 := Nat.pow_le_pow_left (by norm_num) _
    _ = (10 ^ 75) ^ 4 * 116 ^ 4 := by rw [Nat.mul_pow, Nat.mul_comm]
    _ ≤ (10 ^ 75) ^ 4 * 10 ^ 9 := Nat.mul_le_mul_left _ (by norm_num)

/-- The exact value lies within the exponents for which a power is computed. -/
theorem exactDecimal_digitCount {magnitude : Magnitude} (nonzero : magnitude.units ≠ 0) :
    743 < Decimal.digitCount magnitude.exactDecimal.significand ∧
      Decimal.digitCount magnitude.exactDecimal.significand ≤ 309 + fractionBits :=
  have bits : unitBits = 1024 + fractionBits := rfl
  have bounded : magnitude.units < 2 ^ (1024 + fractionBits) := bits ▸ magnitude.bounded
  digitCount_mul_five_pow nonzero bounded ten_pow_le_five_pow_fractionBits
    two_pow_le_ten_pow_wholeBits (by decide) (by decide)

/-- All units, fifths of tenths as they are, make up the quotient that is rounded. -/
theorem ofQuotient_exactDecimal (magnitude : Magnitude) :
    Binary64.ofQuotient false
        (magnitude.exactDecimal.significand *
          (Decimal.powerOfTen magnitude.exactDecimal.exponent).1 * unitsPerOne)
        (Decimal.powerOfTen magnitude.exactDecimal.exponent).2 = .finite false magnitude := by
  simp only [exactDecimal, unitsPerOne, Decimal.powerOfTen, Nat.pow_eq, Int.neg_neg]
  generalize fractionBits = scale
  rw [← Binary64.ofQuotient_units]
  apply Binary64.ofQuotient_congr false (by positivity) Nat.one_pos
  have whole : (-(scale : Int)).toNat = 0 := by omega
  rw [whole, Int.toNat_natCast, Nat.pow_zero, Nat.mul_one, Nat.mul_one, Nat.mul_assoc,
    ← Nat.mul_pow]

theorem readsFrom_exactDecimal {magnitude : Magnitude} (nonzero : magnitude.units ≠ 0) :
    magnitude.readsFrom magnitude.exactDecimal := by
  have count := exactDecimal_digitCount nonzero
  have exponent : magnitude.exactDecimal.exponent = -fractionBits := rfl
  have bits : fractionBits = 1074 := rfl
  have quotient := ofQuotient_exactDecimal magnitude
  revert count exponent quotient
  generalize magnitude.exactDecimal = decimal
  intro count exponent quotient
  have significand : decimal.significand ≠ 0 := by
    intro zero
    simp [zero, Decimal.digitCount] at count
  simp only [readsFrom, Decimal.toBinary64, significand, if_false, quotient]
  rw [if_neg (by simp only [Decimal.overflowExponent]; omega),
    if_neg (by simp only [Decimal.underflowExponent]; omega)]
  simp

/-- A double reads back from its shortest decimal. -/
theorem readsFrom_shortest {magnitude : Magnitude} (nonzero : magnitude.units ≠ 0) :
    magnitude.readsFrom magnitude.shortest := by
  have exact := readsFrom_exactDecimal nonzero
  unfold shortest
  revert exact
  generalize magnitude.exactDecimal = last
  intro exact
  cases found : magnitude.coarsest? with
  | none => exact exact
  | some decimal =>
      obtain ⟨digits, -, neighbour⟩ := List.exists_of_findSome?_eq_some found
      exact readsFrom_of_neighbour? neighbour

theorem shortest_significand_ne_zero {magnitude : Magnitude} (nonzero : magnitude.units ≠ 0) :
    magnitude.shortest.significand ≠ 0 := by
  have reads := readsFrom_shortest nonzero
  revert reads
  generalize magnitude.shortest = decimal
  intro reads zero
  simp only [readsFrom, Decimal.toBinary64, zero, if_true, Binary64.signedZero,
    decide_eq_true_eq, Binary64.finite.injEq, true_and] at reads
  exact nonzero (by rw [← reads])

end Magnitude

end TinyLisp
