import TinyLisp.ErrorKind
import TinyLisp.Number

/-!
# Values

Programs and what they compute are the same kind of data: numbers, strings, symbols, keywords,
literals and sequences, and among the computed ones also procedures. Symbols and keywords are called
by names.
-/

namespace TinyLisp

/-- A name with the namespace that qualifies it; the empty one stands for none. -/
structure Name where
  base : String
  qualifier : String
  deriving DecidableEq, Inhabited

namespace Name

/-- A name without a namespace. -/
def plain (base : String) : Name := ⟨base, ""⟩

def qualifier? (name : Name) : Option String :=
  if name.qualifier.isEmpty then none else some name.qualifier

/-- A name as it is written, a slash between namespace and base. -/
def text (name : Name) : List Char :=
  match name.qualifier? with
  | none => name.base.toList
  | some qualifier => qualifier.toList ++ '/' :: name.base.toList

end Name

/-- The two kinds of brackets: round ones hold lists, square ones vectors. -/
inductive Bracket where
  | round
  | square
  deriving DecidableEq, Inhabited

namespace Bracket

def opening : Bracket → Char
  | round => '('
  | square => '['

def closing : Bracket → Char
  | round => ')'
  | square => ']'

end Bracket

/-- The procedures that come with the language. -/
inductive Builtin where
  | car
  | cdr
  | cons
  | isNil
  | isTrue
  | isFalse
  | add
  | sub
  | equal
  | println
  deriving DecidableEq, Inhabited

namespace Builtin

/-- All of them, in the order in which they are bound in the first frame. -/
def all : List Builtin :=
  [car, cdr, cons, isNil, isTrue, isFalse, add, sub, equal, println]

def name : Builtin → String
  | car => "car"
  | cdr => "cdr"
  | cons => "cons"
  | isNil => "nil?"
  | isTrue => "true?"
  | isFalse => "false?"
  | add => "+"
  | sub => "-"
  | equal => "="
  | println => "println"

def ofName? (text : String) : Option Builtin := all.find? (·.name = text)

end Builtin

/-- A procedure that is not written in the language: a builtin one, or one that the embedding
program supplies and that always raises the same error. Supplied ones are told apart by number. -/
inductive Primitive where
  | builtin (procedure : Builtin)
  | failing (id : Nat) (name : String) (kind : ErrorKind) (message : String)
  deriving DecidableEq, Inhabited

namespace Primitive

def name : Primitive → String
  | builtin procedure => procedure.name
  | failing _ name _ _ => name

end Primitive

/-- A value of the embedding program that the language has no use for. -/
inductive Foreign where
  | bool (value : Bool)
  | absent
  deriving DecidableEq, Inhabited

/-- What tells a sequence apart from others with the same items: the number that it was given
when its text was read, or when a run made it. -/
inductive Identity where
  | read (number : Nat)
  | made (number : Nat)
  deriving DecidableEq, Inhabited

/-- Whether two sequences with these identities are one and the same. -/
def Identity.coincide : Option Identity → Option Identity → Bool
  | some left, some right => left = right
  | _, _ => false

/-- A value. A closure holds its parameters, its body and the number of the frame that it was made
in, and is told apart from other closures by its own number alone. A sequence has an identity once
it has been given one. -/
inductive Value where
  | number (value : Number)
  | string (text : String)
  | symbol (name : Name)
  | keyword (name : Name)
  | literal (text : String)
  | sequence (identity : Option Identity) (bracket : Bracket) (items : List Value)
  | primitive (procedure : Primitive)
  | closure (id : Nat) (parameters body : List Value) (frame : Nat)
  | foreign (value : Foreign)
  deriving Inhabited

namespace Value

/-- A list that has no identity yet. -/
def list (items : List Value) : Value := .sequence none .round items

/-- A symbol without a namespace. -/
def named (base : String) : Value := .symbol (.plain base)

def nil : Value := .literal "nil"

def ofBool (flag : Bool) : Value := .literal (if flag then "true" else "false")

/-- Only the literals `false` and `nil` are false. -/
def isTruthy : Value → Bool
  | .literal text => text ≠ "false" ∧ text ≠ "nil"
  | _ => true

end Value

end TinyLisp
