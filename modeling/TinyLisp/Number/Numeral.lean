import TinyLisp.Text

/-!
# Numerals

The texts that denote numbers: an optional sign, decimal digits with at most one point and at
least one digit, and an optional exponent. The digits may be of any script. A numeral with
neither a point nor an exponent denotes an integer, every other one a double.
-/

namespace TinyLisp

/-- The parts of a numeral. A point without digits after it leaves an empty fraction. -/
structure Numeral where
  negative : Bool
  whole : List Nat
  fraction : Option (List Nat)
  exponent : Option (Bool × List Nat)
  deriving DecidableEq

namespace Numeral

/-- Whether a text starts with a minus, and the text after its sign if it has one. -/
def takeSign : List Char → Bool × List Char
  | '-' :: rest => (true, rest)
  | '+' :: rest => (false, rest)
  | text => (false, text)

/-- The digits after a point at the head of a text, and the text after them. -/
def takeFraction : List Char → Option (List Nat) × List Char
  | '.' :: rest =>
      let (digits, after) := Text.takeDigits rest
      (some digits, after)
  | text => (none, text)

/-- The exponent that makes up a whole text; nothing at all if the text is neither empty nor an
exponent. -/
def exponent? (text : List Char) : Option (Option (Bool × List Nat)) :=
  match text with
  | [] => some none
  | mark :: rest =>
      if mark = 'e' ∨ mark = 'E' then
        let (negative, unsigned) := takeSign rest
        match Text.takeDigits unsigned with
        | (digit :: digits, []) => some (some (negative, digit :: digits))
        | _ => none
      else none

def parse? (text : List Char) : Option Numeral :=
  let (negative, unsigned) := takeSign text
  let (whole, afterWhole) := Text.takeDigits unsigned
  let (fraction, afterFraction) := takeFraction afterWhole
  if whole.isEmpty && (fraction.getD []).isEmpty then none
  else (exponent? afterFraction).map (⟨negative, whole, fraction, ·⟩)

def isInteger (numeral : Numeral) : Bool :=
  numeral.fraction.isNone && numeral.exponent.isNone

end Numeral

end TinyLisp
