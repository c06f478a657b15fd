/-!
# Binary64 numbers

Floating-point numbers of double precision as exact values. A finite one is a sign and a number
of units, a unit being two to the power of minus 1074, the smallest positive double. All
arithmetic is done on whole units and rounded once, to the nearest and on a tie to the even
neighbour.
-/

namespace TinyLisp

/-- The number of bits after the point that every finite double fits into. -/
def fractionBits : Nat := 1074

def unitsPerOne : Nat := Nat.pow 2 fractionBits

/-- The number of bits that the units of every finite double fit into. -/
def unitBits : Nat := 2098

/-- The least number of units that is beyond every finite double. -/
def unitBound : Nat := Nat.pow 2 unitBits

theorem unitBound_pos : 0 < unitBound := by
  unfold unitBound
  generalize unitBits = bits
  exact Nat.two_pow_pos bits

/-- A magnitude with at most 53 significant bits, below the bound. -/
structure Magnitude where
  units : Nat
  fits : units % Nat.pow 2 (units.log2 - 52) = 0
  bounded : units < unitBound
  deriving DecidableEq

/-- A double: an undefined result, the two infinities, and the finite numbers, among them two
zeros. An undefined result is told apart from others by the number that it gets when a run makes
it. -/
inductive Binary64 where
  | undefined (object : Option Nat)
  | infinite (negative : Bool)
  | finite (negative : Bool) (magnitude : Magnitude)
  deriving DecidableEq

/-- The quotient rounded to the nearest natural number, a half to the even one. -/
def roundDiv (numerator denominator : Nat) : Nat :=
  let quotient := numerator / denominator
  let twice := 2 * (numerator % denominator)
  if twice > denominator ∨ (twice = denominator ∧ quotient % 2 = 1) then quotient + 1
  else quotient

theorem roundDiv_le (numerator denominator : Nat) :
    roundDiv numerator denominator ≤ numerator / denominator + 1 := by
  simp only [roundDiv]
  split <;> omega

/-- The natural number with at most 53 significant bits that is nearest to a quotient. -/
def nearestUnits (numerator denominator : Nat) : Nat :=
  let shift := (numerator / denominator).log2 - 52
  roundDiv numerator (denominator * Nat.pow 2 shift) * Nat.pow 2 shift

theorem fits_of_le (count shift : Nat) (small : count ≤ Nat.pow 2 53) :
    count * Nat.pow 2 shift % Nat.pow 2 ((count * Nat.pow 2 shift).log2 - 52) = 0 := by
  simp only [Nat.pow_eq] at small ⊢
  rcases Nat.lt_or_eq_of_le small with below | full
  · have size : (count * 2 ^ shift).log2 - 52 ≤ shift := by
      by_cases nonzero : count * 2 ^ shift = 0
      · simp [nonzero]
      · have : count * 2 ^ shift < 2 ^ (53 + shift) := by
          rw [Nat.pow_add]
          exact Nat.mul_lt_mul_of_pos_right below (Nat.two_pow_pos shift)
        have := (Nat.log2_lt nonzero).mpr this
        omega
    exact Nat.mod_eq_zero_of_dvd (Nat.dvd_mul_left_of_dvd (Nat.pow_dvd_pow 2 size) count)
  · subst full
    rw [← Nat.pow_add, Nat.log2_two_pow]
    exact Nat.mod_eq_zero_of_dvd (Nat.pow_dvd_pow 2 (by omega))

theorem nearestUnits_fits (numerator denominator : Nat) :
    nearestUnits numerator denominator %
      Nat.pow 2 ((nearestUnits numerator denominator).log2 - 52) = 0 := by
  apply fits_of_le
  refine Nat.le_trans (roundDiv_le _ _) (Nat.succ_le_of_lt ?_)
  rw [← Nat.div_div_eq_div_mul]
  simp only [Nat.pow_eq]
  generalize numerator / denominator = quotient
  by_cases nonzero : quotient = 0
  · simp [nonzero]
  · rw [Nat.div_lt_iff_lt_mul (Nat.two_pow_pos _), ← Nat.pow_add]
    exact (Nat.log2_lt nonzero).mp (by omega)

namespace Binary64

/-- The double nearest to a signed quotient of units; an infinity if that is out of range. -/
def ofQuotient (negative : Bool) (numerator denominator : Nat) : Binary64 :=
  if bounded : nearestUnits numerator denominator < unitBound then
    .finite negative ⟨nearestUnits numerator denominator, nearestUnits_fits _ _, bounded⟩
  else .infinite negative

/-- The undefined result of an operation. -/
def nan : Binary64 := .undefined none

def signedZero (negative : Bool) : Binary64 :=
  .finite negative ⟨0, by simp, unitBound_pos⟩

def signedUnits (negative : Bool) (magnitude : Magnitude) : Int :=
  if negative then -magnitude.units else magnitude.units

def neg : Binary64 → Binary64
  | .undefined _ => .nan
  | .infinite negative => .infinite (!negative)
  | .finite negative magnitude => .finite (!negative) magnitude

/-- The sum, rounded. An exact sum of zero is negative only if both numbers are. -/
def add : Binary64 → Binary64 → Binary64
  | .undefined _, _ | _, .undefined _ => .nan
  | .infinite first, .infinite second => if first = second then .infinite first else .nan
  | .infinite negative, .finite _ _ | .finite _ _, .infinite negative => .infinite negative
  | .finite first left, .finite second right =>
      let sum := signedUnits first left + signedUnits second right
      if sum = 0 then signedZero (first && second)
      else ofQuotient (sum < 0) sum.natAbs 1

def sub (left right : Binary64) : Binary64 := add left (neg right)

/-- The double nearest to an integer, unless the integer is out of range. -/
def ofInt? (value : Int) : Option Binary64 :=
  match ofQuotient (value < 0) (value.natAbs * unitsPerOne) 1 with
  | .finite negative magnitude => some (.finite negative magnitude)
  | _ => none

/-- Equality of the numbers denoted: the two zeros are equal, and an undefined result differs from
everything. -/
def eq : Binary64 → Binary64 → Bool
  | .undefined _, _ | _, .undefined _ => false
  | .infinite first, .infinite second => first = second
  | .infinite _, .finite _ _ | .finite _ _, .infinite _ => false
  | .finite first left, .finite second right =>
      signedUnits first left = signedUnits second right

/-- Whether a double denotes an integer exactly. -/
def eqInt (number : Binary64) (value : Int) : Bool :=
  match number with
  | .undefined _ | .infinite _ => false
  | .finite negative magnitude => signedUnits negative magnitude = value * unitsPerOne

end Binary64

end TinyLisp
