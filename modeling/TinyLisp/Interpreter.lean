import TinyLisp.Evaluation
import TinyLisp.Reading

/-!
# The interpreter

Program text is read as a whole and then evaluated form by form in one global frame, which holds
the builtin procedures and lasts as long as the session. A chunk of text yields the value of its
last form; a line is evaluated as one sequence. How a form is evaluated is left to an evaluator.
-/

namespace TinyLisp

abbrev Evaluator := Value → Nat → Run Value

namespace Interpreter

/-- The frame that all text is evaluated in. -/
def globalFrame : Nat := 0

def builtinBindings : List (Name × Value) :=
  Builtin.all.map fun procedure => (.plain procedure.name, .primitive (.builtin procedure))

/-- The heap with nothing but the global frame. -/
def initialHeap : Heap := (Heap.empty.newFrame none builtinBindings).2

def initialSession : Session := ⟨initialHeap, 0, 0, "", []⟩

def readText (text : String) : Run (List Value) := do
  Run.identifyAll (← Run.ofExcept ((readForms text.toList).mapError .reading))

def readForm (text : String) : Run Value := do
  Run.identify (← Run.ofExcept ((readOne text.toList).mapError .reading))

/-- Evaluates forms one after the other; the value is that of the last one, or else the given
one. -/
def evaluateForms (evaluator : Evaluator) : Value → List Value → Run Value
  | result, [] => return result
  | _, form :: rest => do
      Run.note (.formRead form)
      let result ← evaluator form globalFrame
      Run.note (.formEvaluated result)
      evaluateForms evaluator result rest

/-- Evaluates a chunk of text; without forms its value is nil. -/
def evaluateText (evaluator : Evaluator) (text : String) : Run Value := do
  evaluateForms evaluator .nil (← readText text)

/-- Evaluates a line as one sequence; without forms its value is nil. -/
def evaluateLine (evaluator : Evaluator) (line : String) : Run Value := do
  let forms ← readText line
  if forms.isEmpty then return .nil
  else
    Run.note (.lineRead forms.length)
    evaluator (.list (.named "do" :: forms)) globalFrame

/-- Evaluates the text that a session begins with, if there is any. -/
def evaluatePrelude (evaluator : Evaluator) (prelude : String) : Run Unit := do
  if !prelude.isEmpty then
    let _ ← evaluateText evaluator prelude

/-- Evaluates nothing: every form is noted and has the value `ok`. -/
def observer : Evaluator := fun form _ => do
  Run.note (.formObserved form)
  return .named "ok"

end Interpreter

end TinyLisp
