import TinyLisp.Heap

/-!
# Primitive procedures

What the builtin procedures compute from their arguments. The number and the kinds of all
arguments are checked before anything is computed. Only `println` prints.
-/

namespace TinyLisp

/-- What a call of a primitive procedure yields, and what it prints. -/
structure PrimitiveResult where
  value : Value
  printed : String

namespace Builtin

def oneArgument (procedure : Builtin) : List Value → Except Fault Value
  | [argument] => .ok argument
  | arguments => .error (.argument (.count procedure 1 arguments.length))

def twoArguments (procedure : Builtin) : List Value → Except Fault (Value × Value)
  | [first, second] => .ok (first, second)
  | arguments => .error (.argument (.count procedure 2 arguments.length))

/-- The arguments as numbers; the first one that is none is the fault. -/
def numbers (depth : Nat) (procedure : Builtin) : List Value → Except Fault (List Number)
  | [] => .ok []
  | .number value :: rest => (numbers depth procedure rest).map (value :: ·)
  | argument :: _ =>
      .error (Fault.showing depth .readable argument (.argument ∘ .notNumber procedure))

/-- The items of a sequence, and none for nil. -/
def itemsOf (depth : Nat) (procedure : Builtin) (argument : Value) :
    Except Fault (List Value) :=
  match argument with
  | .sequence _ _ items => .ok items
  | .literal "nil" => .ok []
  | _ => .error (Fault.showing depth .readable argument (.argument ∘ .notSequence procedure))

/-- The result of an arithmetic operation, unless an integer in it is out of range. -/
def inRange : Option Number → Except Fault Number
  | some value => .ok value
  | none => .error .integerOutOfRange

/-- The sum of numbers, from the left. -/
def sum (values : List Number) : Except Fault Number :=
  values.foldlM (fun total value => inRange (total.add? value)) (.int 0)

/-- The first number less the others, from the left; one number alone changes its sign. -/
def difference : List Number → Except Fault Number
  | [] => .error (.argument .nothingToSubtract)
  | [value] => .ok value.neg
  | value :: rest => rest.foldlM (fun total next => inRange (total.sub? next)) value

/-- Whether the first two of the arguments are equal. -/
def compare (depth : Nat) : List Value → Except Fault Bool
  | first :: second :: _ =>
      match first.equalWithin depth second with
      | some outcome => .ok outcome
      | none => .error .depthExceeded
  | _ => .error (.argument .tooFewToCompare)

def isLiteral (procedure : Builtin) (word : String) (arguments : List Value) :
    Except Fault Value := do
  return .ofBool ((← procedure.oneArgument arguments).same (.literal word))

/-- What a procedure that prints nothing yields. -/
def compute (depth : Nat) (procedure : Builtin) (arguments : List Value) :
    Except Fault Value :=
  match procedure with
  | car => do
      let items ← procedure.itemsOf depth (← procedure.oneArgument arguments)
      return items.headD .nil
  | cdr => do
      let items ← procedure.itemsOf depth (← procedure.oneArgument arguments)
      return .list items.tail
  | cons => do
      let (first, rest) ← procedure.twoArguments arguments
      return .list (first :: (← procedure.itemsOf depth rest))
  | isNil => procedure.isLiteral "nil" arguments
  | isTrue => procedure.isLiteral "true" arguments
  | isFalse => procedure.isLiteral "false" arguments
  | add => do return .number (← sum (← procedure.numbers depth arguments))
  | sub => do return .number (← difference (← procedure.numbers depth arguments))
  | equal => do return .ofBool (← compare depth arguments)
  | println => procedure.oneArgument arguments

def call (depth : Nat) (procedure : Builtin) (arguments : List Value) :
    Except Fault PrimitiveResult := do
  let value ← procedure.compute depth arguments
  match procedure with
  | println => return ⟨value, (← value.textWithin depth .display) ++ "\n"⟩
  | _ => return ⟨value, ""⟩

end Builtin

def Primitive.call (depth : Nat) (procedure : Primitive) (arguments : List Value) :
    Except Fault PrimitiveResult :=
  match procedure with
  | builtin procedure => procedure.call depth arguments
  | failing _ _ kind message => .error (.raised kind message)

end TinyLisp
