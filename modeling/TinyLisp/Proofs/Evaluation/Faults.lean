import TinyLisp.Evaluation
import TinyLisp.Proofs.Heap.Operations
import TinyLisp.Proofs.Value.Founded

/-!
# What single steps fail with

The faults that the steps of evaluation end in, whatever the steps within them do. A fault that
shows a value is replaced by another one if the value cannot be written; the digits of code are
never in the way of that.
-/

namespace TinyLisp

/-- A set of faults with all in it that evaluation of code can end in, except for the fault of
writing a value with too many digits. -/
structure Fault.Admits (allowed : Fault → Prop) : Prop where
  depthExceeded : allowed .depthExceeded
  unbound (name : String) : allowed (.unbound name)
  unboundTarget (name : String) : allowed (.unboundTarget name)
  undefinable (inspected : String) : allowed (.undefinable inspected)
  arity (expected given : Int) (procedure : String) : allowed (.arity expected given procedure)
  shape (cause : ShapeFault) : allowed (.shape cause)
  clauses (cause : ClauseFault) : allowed (.clauses cause)
  argument (cause : ArgumentFault) : allowed (.argument cause)
  primitiveFailed (procedure text : String) : allowed (.primitiveFailed procedure text)
  notProcedure (inspected : String) : allowed (.notProcedure inspected)

theorem Fault.admits_all : Fault.Admits fun _ => True := by
  constructor <;> intros <;> trivial

variable {allowed : Fault → Prop} {depth : Nat} {fault : Fault}

theorem Fault.Admits.imp {weaker : Fault → Prop} (admits : Fault.Admits allowed)
    (weaken : ∀ fault, allowed fault → weaker fault) : Fault.Admits weaker where
  depthExceeded := weaken _ admits.depthExceeded
  unbound name := weaken _ (admits.unbound name)
  unboundTarget name := weaken _ (admits.unboundTarget name)
  undefinable inspected := weaken _ (admits.undefinable inspected)
  arity expected given procedure := weaken _ (admits.arity expected given procedure)
  shape cause := weaken _ (admits.shape cause)
  clauses cause := weaken _ (admits.clauses cause)
  argument cause := weaken _ (admits.argument cause)
  primitiveFailed procedure text := weaken _ (admits.primitiveFailed procedure text)
  notProcedure inspected := weaken _ (admits.notProcedure inspected)

theorem Fault.showing_holds (exhausted : allowed .depthExceeded) {style : Style} {value : Value}
    {shown : String → Fault} (holds : ∀ text, allowed (shown text))
    (digits : value.obstacle depth = some .digits → allowed .tooManyDigits) :
    allowed (showing depth style value shown) := by
  unfold showing Value.textWithin
  cases found : value.obstacle depth with
  | none => exact holds _
  | some obstacle =>
      cases obstacle with
      | depth => exact exhausted
      | digits => exact digits found

theorem Fault.showing_plain (exhausted : allowed .depthExceeded) {style : Style} {value : Value}
    {shown : String → Fault} (holds : ∀ text, allowed (shown text)) (plain : value.Plain) :
    allowed (showing depth style value shown) :=
  showing_holds exhausted holds fun long => absurd long (plain.obstacle_ne_digits depth)

namespace Builtin

/-- The faults that builtin procedures end in. -/
inductive Fails : Fault → Prop
  | argument (cause : ArgumentFault) : Fails (.argument cause)
  | depthExceeded : Fails .depthExceeded
  | tooManyDigits : Fails .tooManyDigits
  | integerOutOfRange : Fails .integerOutOfRange

/-- Builtin procedures fail on their arguments, for want of a budget, on the digits of a value that
is written, or on an integer that is out of range. -/
theorem fails_of_call {procedure : Builtin} {arguments : List Value}
    (failed : procedure.call depth arguments = .error fault) : Fails fault := by
  cases refuses_of_call failed with
  | count | tooFewToCompare | nothingToSubtract => exact .argument _
  | notNumber | notSequence =>
      exact Fault.showing_holds .depthExceeded (fun _ => .argument _) fun _ => .tooManyDigits
  | integerOutOfRange => exact .integerOutOfRange
  | incomparable => exact .depthExceeded
  | @unwritable _ _ obstacle =>
      cases obstacle with
      | depth => exact .depthExceeded
      | digits => exact .tooManyDigits

end Builtin

namespace Fault.Admits

variable (admits : Admits allowed)

include admits

/-- A fault of a builtin procedure is passed on if it is the language's own or an exhausted
budget. -/
theorem call {procedure : Builtin} {arguments : List Value}
    (failed : procedure.call depth arguments = .error fault)
    (passed : fault.isLanguage ∨ fault.kind = .recursion) : allowed fault := by
  cases Builtin.fails_of_call failed with
  | argument cause => exact admits.argument cause
  | depthExceeded => exact admits.depthExceeded
  | tooManyDigits => exact absurd passed (by decide)
  | integerOutOfRange => exact absurd passed (by decide)

/-- The shape of a special form that is code fails to be right with an admitted fault only. -/
theorem ofOperands {special : SpecialForm} {operands : List Value}
    (plain : ∀ operand ∈ operands, operand.Plain)
    (failed : ShapedForm.ofOperands depth special operands = .error fault) : allowed fault := by
  have shown {cause : String → ShapeFault} {style : Style} {value : Value} (plain : value.Plain) :
      allowed (showing depth style value (.shape ∘ cause)) :=
    showing_plain admits.depthExceeded (fun _ => admits.shape _) plain
  cases ShapedForm.refuses_of_ofOperands failed with
  | quote | assignment | definition | functionName | condition | noParameters | noBody =>
      exact admits.shape _
  | assignmentTarget | definitionName | functionParameters | parametersNotVector =>
      exact shown (plain _ List.mem_cons_self)
  | parameterNotSymbol identity body member =>
      exact shown ((plain _ List.mem_cons_self).items _ member)
  | clauses => exact admits.clauses _

theorem lookup {heap : Heap} {frame : Nat} {name : Name} {heapFault : HeapFault}
    (failed : heap.lookup frame (.symbol name) = .error heapFault) :
    allowed (.ofHeap depth heapFault) := by
  unfold Heap.lookup at failed
  split at failed
  · split at failed <;> cases failed
    change allowed (showing depth .shown (.symbol name) .unbound)
    exact showing_plain admits.depthExceeded admits.unbound (.symbol _)
  · next symbol => exact absurd rfl (symbol name)

theorem target {heap : Heap} {frame : Nat} {key : Value} {heapFault : HeapFault} (plain : key.Plain)
    (failed : heap.target frame key = .error heapFault) : allowed (.ofHeap depth heapFault) := by
  rw [Heap.target_eq] at failed
  split at failed <;> cases failed
  exact showing_plain admits.depthExceeded admits.unboundTarget plain

theorem definable {key : Value} {heapFault : HeapFault} (plain : key.Plain)
    (failed : Heap.definable key = .error heapFault) : allowed (.ofHeap depth heapFault) := by
  rw [Heap.definable_eq] at failed
  split at failed <;> cases failed
  exact showing_plain admits.depthExceeded admits.undefinable plain

/-- A closure fails to take arguments only if their count is not that of its parameters. -/
theorem pairUp {parameters arguments : List Value} {heapFault : HeapFault}
    (symbols : ∀ parameter ∈ parameters, ∃ name, parameter = .symbol name)
    (failed : Heap.pairUp parameters arguments = .error heapFault) :
    allowed (.ofHeap depth heapFault) := by
  rw [Heap.pairUp_symbols symbols] at failed
  split at failed <;> cases failed
  exact admits.arity _ _ _

end Fault.Admits

end TinyLisp
