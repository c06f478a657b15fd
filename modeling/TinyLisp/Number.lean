import TinyLisp.Number.Decimal
import TinyLisp.Number.Numeral

/-!
# Numbers

Integers of any size and doubles. Integers among themselves are exact; an integer that meets a
double in a sum or difference is first rounded to a double, which fails if it is out of range.
Comparison never rounds. Integers of more than `digitLimit` digits exist but have no text.
-/

namespace TinyLisp

/-- The largest number of decimal digits that an integer's text may have, the sign aside. -/
def digitLimit : Nat := 4300

/-- The least natural number with more digits than the limit. -/
def digitBound : Nat := Nat.pow 10 digitLimit

inductive Number where
  | int (value : Int)
  | float (value : Binary64)
  deriving DecidableEq

namespace Number

/-- The number as a double, unless it is an integer out of range. -/
def toBinary64? : Number → Option Binary64
  | .int value => Binary64.ofInt? value
  | .float value => some value

/-- Two numbers combined exactly if both are integers and as doubles otherwise; nothing if an
integer that has to become a double is out of range. -/
def combine? (exact : Int → Int → Int) (rounded : Binary64 → Binary64 → Binary64)
    (left right : Number) : Option Number :=
  match left, right with
  | .int first, .int second => some (.int (exact first second))
  | _, _ => do return .float (rounded (← left.toBinary64?) (← right.toBinary64?))

def add? : Number → Number → Option Number := combine? (· + ·) Binary64.add

def sub? : Number → Number → Option Number := combine? (· - ·) Binary64.sub

def neg : Number → Number
  | .int value => .int (-value)
  | .float value => .float value.neg

/-- Equality of the numbers denoted, across both kinds. -/
def eq : Number → Number → Bool
  | .int first, .int second => first = second
  | .int first, .float second => second.eqInt first
  | .float first, .int second => first.eqInt second
  | .float first, .float second => first.eq second

/-- The number that an undefined result has been given. -/
def object? : Number → Option Nat
  | .float (.undefined object) => object
  | _ => none

/-- Whether two numbers are known to be one undefined result. -/
def coincide (left right : Number) : Bool :=
  match left.object?, right.object? with
  | some first, some second => first = second
  | _, _ => false

/-- Whether the number is an integer with more digits than a text may have. -/
def exceedsDigitLimit : Number → Bool
  | .int value => digitBound ≤ value.natAbs
  | .float _ => false

def integerText (value : Int) : List Char :=
  (if value < 0 then ['-'] else []) ++ Nat.toDigits 10 value.natAbs

/-- Doubles are written positionally from a ten-thousandth up to ten to the sixteenth, and their
exponents have two digits or more. -/
def floatFormat : DecimalFormat := ⟨-4, 16, 2⟩

def text : Number → List Char
  | .int value => integerText value
  | .float value => value.text floatFormat

end Number

namespace Numeral

/-- The integer that the whole part denotes with the numeral's sign. -/
def integer (numeral : Numeral) : Int :=
  let magnitude : Int := Text.ofDigits numeral.whole
  if numeral.negative then -magnitude else magnitude

/-- The decimal that the numeral denotes, its sign aside. -/
def decimal (numeral : Numeral) : Decimal :=
  let fraction := numeral.fraction.getD []
  let exponent : Int :=
    match numeral.exponent with
    | none => 0
    | some (negative, digits) =>
        if negative then -(Text.ofDigits digits : Int) else Text.ofDigits digits
  ⟨Text.ofDigits (numeral.whole ++ fraction), exponent - fraction.length⟩

/-- The number that the numeral denotes; for an integer with too many digits, their count. -/
def value (numeral : Numeral) : Except Nat Number :=
  if numeral.isInteger then
    if numeral.whole.length > digitLimit then .error numeral.whole.length
    else .ok (.int numeral.integer)
  else .ok (.float (numeral.decimal.toBinary64 numeral.negative))

end Numeral

end TinyLisp
