import TinyLisp.Session
import TinyLisp.SpecialForm

/-!
# Evaluation

Numbers, strings, keywords, literals, vectors and the empty list evaluate to themselves, a symbol
to what it is bound to, and every other list is a special form or the application of a procedure.
The procedure and then its arguments are evaluated from left to right. A run has a budget of
nested activations; without one left it fails.
-/

namespace TinyLisp

/-- What a run can be in the middle of: evaluating a form, evaluating the form of an argument,
carrying out a special form, evaluating forms in turn, applying a procedure, or entering the body
of a closure. -/
inductive Activation where
  | form (form : Value) (frame : Nat)
  | argument (form : Value) (frame : Nat)
  | special (special : SpecialForm) (operands : List Value) (frame : Nat)
  | sequence (forms : List Value) (frame : Nat)
  | apply (procedure : Value) (arguments : List Value)
  | enter (parameters body arguments : List Value) (frame : Nat)

namespace Evaluation

def perform (depth : Nat) (run : Activation → Run Value) (shaped : ShapedForm) (frame : Nat) :
    Run Value :=
  match shaped with
  | .quote form => pure form
  | .assignment target form => do
      let value ← run (.form form frame)
      Run.assign depth frame target value
      return .named "ok"
  | .definition name form => do
      let value ← run (.form form frame)
      Run.define depth frame name value
      return .named "ok"
  | .condition test consequent alternative => do
      if (← run (.form test frame)).isTruthy then run (.form consequent frame)
      else
        match alternative with
        | some form => run (.form form frame)
        | none => return .ofBool false
  | .function parameters body => Run.makeClosure parameters body frame
  | .sequence forms => run (.sequence forms frame)
  | .expansion form => run (.form form frame)

/-- Evaluates forms in turn; the value is that of the last one. -/
def inTurn (run : Activation → Run Value) (frame : Nat) : List Value → Run Value
  | [] => throw (.shape .emptySequence)
  | [form] => run (.form form frame)
  | form :: rest => do
      let _ ← run (.form form frame)
      inTurn run frame rest

/-- Calls a primitive procedure. A failure of the machine becomes an error of the language, except
for a budget that has run out. -/
def callPrimitive (depth : Nat) (procedure : Primitive) (arguments : List Value) :
    Run Value :=
  match procedure.call depth arguments with
  | .ok result => do
      Run.print result.printed
      Run.makeResult result.value
  | .error fault => do
      if fault.isLanguage ∨ fault.kind = .recursion then throw fault
      else
        Run.note (.primitiveFailed procedure.name arguments)
        throw (.primitiveFailed procedure.name fault.message)

/-- Evaluates the forms of arguments, from left to right. -/
def evaluateArguments (run : Activation → Run Value) (frame : Nat) :
    List Value → Run (List Value)
  | [] => return []
  | form :: rest => do
      let value ← run (.argument form frame)
      return value :: (← evaluateArguments run frame rest)

/-- One activation, with a budget left for the activations within it. -/
def step (depth : Nat) (run : Activation → Run Value) : Activation → Run Value
  | .form form frame =>
      match form with
      | .number _ | .string _ | .keyword _ | .literal _ | .sequence _ .square _
      | .sequence _ .round [] => pure form
      | .symbol _ => Run.lookup depth frame form
      | .sequence _ .round (head :: operands) =>
          match SpecialForm.ofHead? head with
          | some special => run (.special special operands frame)
          | none => do
              let procedure ← run (.form head frame)
              let arguments ← evaluateArguments run frame operands
              run (.apply procedure arguments)
      | .primitive _ | .closure .. | .foreign _ =>
          throw (Fault.showing depth .inspected form .unknownExpression)
  | .argument form frame => run (.form form frame)
  | .special special operands frame => do
      perform depth run (← Run.ofExcept (ShapedForm.ofOperands depth special operands)) frame
  | .sequence forms frame => inTurn run frame forms
  | .apply procedure arguments =>
      match procedure with
      | .primitive primitive => callPrimitive depth primitive arguments
      | .closure _ parameters body frame => run (.enter parameters body arguments frame)
      | other => throw (Fault.showing depth .inspected other .notProcedure)
  | .enter parameters body arguments frame => do
      let inner ← Run.extend depth frame parameters arguments
      run (.sequence body inner)

/-- Carries out an activation within a budget of nested activations. -/
def run : Nat → Activation → Run Value
  | 0, _ => throw .depthExceeded
  | depth + 1, activation => step depth (run depth) activation

end Evaluation

def evaluate (depth : Nat) (form : Value) (frame : Nat) : Run Value :=
  Evaluation.run depth (.form form frame)

def applyProcedure (depth : Nat) (procedure : Value) (arguments : List Value) : Run Value :=
  Evaluation.run depth (.apply procedure arguments)

end TinyLisp
