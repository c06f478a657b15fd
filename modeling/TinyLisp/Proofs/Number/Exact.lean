import TinyLisp.Number
import Mathlib.Algebra.Order.Field.Rat
import Mathlib.Data.Rat.Cast.Defs

/-!
# What numbers denote

Every defined number denotes a rational number or an infinity. Comparison of integers
and doubles is comparison of what they denote, without any rounding; the two zeros denote the same.
-/

namespace TinyLisp

/-- A rational number or one of the two infinities. -/
inductive Exact where
  | infinite (negative : Bool)
  | finite (value : ℚ)
  deriving DecidableEq

namespace Binary64

def rational (negative : Bool) (magnitude : Magnitude) : ℚ :=
  (signedUnits negative magnitude : ℚ) / unitsPerOne

/-- What a double denotes, unless it is undefined. -/
def exactValue? : Binary64 → Option Exact
  | .undefined _ => none
  | .infinite negative => some (.infinite negative)
  | .finite negative magnitude => some (.finite (rational negative magnitude))

end Binary64

namespace Number

/-- What a number denotes, unless it is undefined. -/
def exactValue? : Number → Option Exact
  | .int value => some (.finite value)
  | .float value => value.exactValue?

theorem unitsPerOne_ne_zero : (unitsPerOne : ℚ) ≠ 0 := by
  unfold unitsPerOne
  generalize fractionBits = bits
  exact_mod_cast (Nat.two_pow_pos bits).ne'

/-- A finite double is an integer if it has as many units. -/
theorem rational_eq_intCast_iff (negative : Bool) (magnitude : Magnitude) (value : Int) :
    Binary64.rational negative magnitude = value ↔
      Binary64.signedUnits negative magnitude = value * unitsPerOne := by
  rw [Binary64.rational, div_eq_iff unitsPerOne_ne_zero]
  exact_mod_cast Iff.rfl

theorem rational_inj {negative otherNegative : Bool} {magnitude other : Magnitude} :
    Binary64.rational negative magnitude = Binary64.rational otherNegative other ↔
      Binary64.signedUnits negative magnitude = Binary64.signedUnits otherNegative other := by
  rw [Binary64.rational, Binary64.rational, div_left_inj' unitsPerOne_ne_zero, Int.cast_inj]

theorem eqInt_iff (number : Binary64) (value : Int) :
    number.eqInt value = true ↔ number.exactValue? = some (.finite value) := by
  cases number with
  | finite negative magnitude =>
      rw [Binary64.eqInt, decide_eq_true_eq, Binary64.exactValue?, Option.some.injEq,
        Exact.finite.injEq, rational_eq_intCast_iff]
  | _ => simp [Binary64.eqInt, Binary64.exactValue?]

theorem float_eq_iff (left right : Binary64) :
    left.eq right = true ↔
      ∃ value, left.exactValue? = some value ∧ right.exactValue? = some value := by
  cases left with
  | undefined object => simp [Binary64.eq, Binary64.exactValue?]
  | infinite negative => cases right <;> simp [Binary64.eq, Binary64.exactValue?, eq_comm]
  | finite negative magnitude =>
      cases right with
      | finite => simp [Binary64.eq, Binary64.exactValue?, rational_inj, eq_comm]
      | _ => simp [Binary64.eq, Binary64.exactValue?]

/-- The zeros of either sign denote the same. -/
theorem exactValue?_signedZero (negative : Bool) :
    (Number.float (.signedZero negative)).exactValue? = some (.finite 0) := by
  have none : Binary64.signedUnits negative ⟨0, by simp, unitBound_pos⟩ = 0 := by
    cases negative <;> rfl
  rw [exactValue?, Binary64.signedZero, Binary64.exactValue?, Binary64.rational, none,
    Int.cast_zero, zero_div]

def IsDefined : Number → Prop
  | .float (.undefined _) => False
  | _ => True

theorem exists_exact {value : Number} (defined : value.IsDefined) :
    ∃ exact, value.exactValue? = some exact := by
  match value, defined with
  | .int _, _ | .float (.infinite _), _ | .float (.finite _ _), _ => exact ⟨_, rfl⟩

/-- Numbers are equal if they denote the same. An undefined number is equal to none. -/
theorem eq_iff_exact (left right : Number) :
    left.eq right = true ↔
      ∃ value, left.exactValue? = some value ∧ right.exactValue? = some value := by
  cases left with
  | int first =>
      cases right with
      | int second => simp [Number.eq, exactValue?, eq_comm]
      | float second => simp [Number.eq, exactValue?, eqInt_iff]
  | float first =>
      cases right with
      | int second => simp [Number.eq, exactValue?, eqInt_iff]
      | float second => exact float_eq_iff first second

theorem eq_self {number : Number} (defined : number.IsDefined) : number.eq number = true := by
  obtain ⟨exact, value⟩ := exists_exact defined
  exact (eq_iff_exact number number).mpr ⟨exact, value, value⟩

end Number

end TinyLisp
