import TinyLisp.Number.Binary64

/-!
# Doubles in decimal

The double nearest to a decimal, and the shortest decimal that reads back as a given double.
The shortest one is found on the decimal grids from coarse to fine: a grid of some number of
digits is fine enough when one of the value's two neighbours on it reads back, and of two such
neighbours the nearer is taken, on a tie the even one.
-/

namespace TinyLisp

/-- The number `significand * 10 ^ exponent`. -/
structure Decimal where
  significand : Nat
  exponent : Int
  deriving DecidableEq

namespace Decimal

def digitCount (value : Nat) : Nat := (Nat.toDigits 10 value).length

/-- A power of ten with an integer exponent, as numerator and denominator. -/
def powerOfTen (exponent : Int) : Nat × Nat :=
  (Nat.pow 10 exponent.toNat, Nat.pow 10 (-exponent).toNat)

/-- Decimals from ten to this power on are infinite as doubles. -/
def overflowExponent : Int := 310

/-- Decimals below ten to this power vanish as doubles. -/
def underflowExponent : Int := -330

/-- The double nearest to a decimal with a sign. Exponents far out of range are decided before
any power is computed. -/
def toBinary64 (negative : Bool) (decimal : Decimal) : Binary64 :=
  if decimal.significand = 0 then Binary64.signedZero negative
  else
    let magnitude := decimal.exponent + digitCount decimal.significand
    if magnitude > overflowExponent then .infinite negative
    else if magnitude < underflowExponent then Binary64.signedZero negative
    else
      let (numerator, denominator) := powerOfTen decimal.exponent
      Binary64.ofQuotient negative (decimal.significand * numerator * unitsPerOne) denominator

end Decimal

namespace Magnitude

/-- Whether a decimal reads as this magnitude. -/
def readsFrom (magnitude : Magnitude) (decimal : Decimal) : Bool :=
  decimal.toBinary64 false = .finite false magnitude

/-- The power of ten of the leading decimal digit. The smallest unit stays above one when it is
scaled up by `10 ^ 330`. -/
def leadingExponent (magnitude : Magnitude) : Int :=
  (Decimal.digitCount (magnitude.units * Nat.pow 10 330 / unitsPerOne) : Int) - 331

/-- The nearer of the two neighbours among the multiples of a power of ten that reads back. -/
def neighbour? (magnitude : Magnitude) (exponent : Int) : Option Decimal :=
  let (numerator, denominator) := Decimal.powerOfTen (-exponent)
  let scaled := magnitude.units * numerator
  let scale := unitsPerOne * denominator
  let below := scaled / scale
  let nearer := roundDiv scaled scale
  let farther := if nearer = below then below + 1 else below
  if magnitude.readsFrom ⟨nearer, exponent⟩ then some ⟨nearer, exponent⟩
  else if magnitude.readsFrom ⟨farther, exponent⟩ then some ⟨farther, exponent⟩
  else none

/-- The value of a magnitude, digit for digit. -/
def exactDecimal (magnitude : Magnitude) : Decimal :=
  ⟨magnitude.units * Nat.pow 5 fractionBits, -fractionBits⟩

/-- The neighbour on the coarsest grid of at most seventeen digits that has one. -/
def coarsest? (magnitude : Magnitude) : Option Decimal :=
  let leading := magnitude.leadingExponent
  (List.range 17).findSome? fun (digits : Nat) => magnitude.neighbour? (leading - digits)

/-- The shortest decimal that reads back, the nearest of those. Seventeen digits always do. -/
def shortest (magnitude : Magnitude) : Decimal :=
  magnitude.coarsest?.getD magnitude.exactDecimal

end Magnitude

/-- How decimals are written: positionally while the leading digit's power of ten is at least one
number and below another, and otherwise with an exponent of at least some digits. -/
structure DecimalFormat where
  leastPositional : Int
  leastScientific : Int
  exponentWidth : Nat
  deriving DecidableEq

namespace Decimal

/-- The sign and the digits of an exponent, no fewer of them than a number. -/
def exponentText (width : Nat) (exponent : Int) : List Char :=
  let digits := Nat.toDigits 10 exponent.natAbs
  (if exponent < 0 then '-' else '+') :: (List.replicate (width - digits.length) '0' ++ digits)

/-- Digits with the point after the one of weight one; there is a digit on either side of it. -/
def positional (digits : List Char) (leading : Int) : List Char :=
  if leading < 0 then
    '0' :: '.' :: (List.replicate (-leading - 1).toNat '0' ++ digits)
  else
    let whole := leading.toNat + 1
    let padded := digits ++ List.replicate (whole - digits.length) '0'
    let fraction := digits.drop whole
    padded.take whole ++ '.' :: (if fraction.isEmpty then ['0'] else fraction)

/-- Digits with the point after the first one, if more follow, and the power of ten. -/
def scientific (width : Nat) (digits : List Char) (leading : Int) : List Char :=
  let fraction := digits.drop 1
  digits.take 1 ++ (if fraction.isEmpty then [] else '.' :: fraction) ++
    'e' :: exponentText width leading

/-- The text of a decimal that is not zero. -/
def text (format : DecimalFormat) (decimal : Decimal) : List Char :=
  let all := Nat.toDigits 10 decimal.significand
  let leading := decimal.exponent + all.length - 1
  let digits := (all.reverse.dropWhile (· = '0')).reverse
  if format.leastPositional ≤ leading ∧ leading < format.leastScientific then
    positional digits leading
  else scientific format.exponentWidth digits leading

end Decimal

/-- The text of a double: the fewest digits that read back as it. -/
def Binary64.text (format : DecimalFormat) (number : Binary64) : List Char :=
  let sign (negative : Bool) : List Char := if negative then ['-'] else []
  match number with
  | .undefined _ => ['n', 'a', 'n']
  | .infinite negative => sign negative ++ ['i', 'n', 'f']
  | .finite negative magnitude =>
      sign negative ++
        if magnitude.units = 0 then ['0', '.', '0'] else magnitude.shortest.text format

end TinyLisp
