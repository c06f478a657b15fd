import TinyLisp.Interpreter
import TinyLisp.Settings

/-!
# The console

The console answers line by line: the value of the line or the error it ended in, and then a
prompt for the next one. Errors of the language and an exhausted budget are reported; any other
fault ends the conversation. Blank lines are passed over.
-/

namespace TinyLisp

namespace Run

/-- What a computation ends in, as a value. -/
def attempt {α : Type} (computation : Run α) : Run (Except Fault α) :=
  ExceptT.mk (do return .ok (← computation.run))

def printLine (text : String) : Run Unit := print (text ++ "\n")

end Run

namespace Console

def banner : String := "Clojure interpreter written in Python"

def farewell : String := "REPL closing."

/-- Sets the limit of nested calls, if there is one to set. -/
def applyLimit (settings : Settings) : Run Unit :=
  match settings.recursionLimit with
  | none => pure ()
  | some limit => do
      if limit > Settings.greatestRecursionLimit then throw .frameLimitOutOfRange
      if limit ≤ Settings.ownDepth then throw .depthExceeded
      Run.note (.frameLimitSet limit)

def start (settings : Settings) : Run Unit := do
  applyLimit settings
  Run.printLine banner
  Run.printLine settings.prompt

/-- The readable text of a line's value. -/
def evaluateLine (settings : Settings) (line : String) : Run String := do
  let value ← Interpreter.evaluateLine (evaluate settings.depth) line
  Run.ofExcept (value.textWithin settings.depth .readable)

def faultReport (fault : Fault) : String := fault.kind.name ++ ": " ++ fault.message

/-- Reports what a line has ended in. -/
def report (settings : Settings) (outcome : Except Fault String) : Run Unit :=
  match outcome with
  | .ok text => Run.printLine (settings.outputPrompt ++ " " ++ text)
  | .error fault => do
      if fault.isLanguage then
        Run.note .lineFailed
        Run.printLine (faultReport fault)
      else if fault.kind = .recursion then
        Run.note .depthExhausted
        Run.printLine (faultReport .depthExceeded)
      else throw fault

def isBlankLine (line : String) : Bool := line.toList.all Text.isBlank

def answer (settings : Settings) (line : String) : Run Unit := do
  if !isBlankLine line then
    report settings (← Run.attempt (evaluateLine settings line))
    Run.printLine settings.prompt

def finish : Run Unit := Run.printLine farewell

/-- A whole conversation. -/
def converse (settings : Settings) (lines : List String) : Run Unit := do
  start settings
  lines.forM (answer settings)
  finish

/-- The records that a threshold keeps, in the order of their events. -/
def keptRecords (threshold depth : Nat) (events : List Event) : List Record :=
  events.reverse.filterMap (Event.record? threshold depth)

end Console

end TinyLisp
