import TinyLisp.Primitive
import TinyLisp.Value.Equality

/-!
# Sessions

What a run reads and changes besides the forms that it evaluates: the heap of frames, the next
numbers for what is told apart by number, the text printed so far and the events noted so far. A
run that fails keeps the changes it has made.
-/

namespace TinyLisp

/-- Something that a run notes. -/
inductive Event where
  | formRead (form : Value)
  | formEvaluated (result : Value)
  | lineRead (forms : Nat)
  | primitiveFailed (procedure : String) (arguments : List Value)
  | lineFailed
  | depthExhausted
  | frameLimitSet (limit : Nat)
  | formObserved (form : Value)

/-- How grave an event is. -/
inductive Level where
  | debug
  | info
  deriving DecidableEq, Inhabited

namespace Level

def name : Level → String
  | debug => "DEBUG"
  | info => "INFO"

/-- The rank of a level; a record is kept if its rank is at least the threshold. -/
def rank : Level → Nat
  | debug => 10
  | info => 20

end Level

/-- The record of an event: its level, the part of the program it comes from, and a message. -/
structure Record where
  level : Level
  origin : String
  message : String

namespace Record

def text (record : Record) : String :=
  record.level.name ++ ":" ++ record.origin ++ ":" ++ record.message

end Record

namespace Event

/-- Where records about reading and evaluating forms come from. -/
def interpreterOrigin : String := "clojette.interpreter"

/-- Where records about the application of procedures come from. -/
def applicationOrigin : String := "clojette.evaluation.apply"

/-- Where records about the console come from. -/
def consoleOrigin : String := "clojette.repl"

/-- The inspected text of a value, if it can be written within a number of nested calls. -/
def inspected? (depth : Nat) (value : Value) : Option String :=
  (value.textWithin depth .inspected).toOption

/-- The inspected texts of arguments, between brackets, if they can be written. -/
def inspectedArguments? (depth : Nat) (arguments : List Value) : Option String :=
  match Value.obstacleAmong depth arguments with
  | some _ => none
  | none =>
      some (String.ofList
        ('[' :: (Value.joined [',', ' '] (Value.renderAll .inspected arguments) ++ [']'])))

def level? : Event → Option Level
  | formRead _ | formEvaluated _ | lineRead _ | primitiveFailed .. | lineFailed
  | depthExhausted => some .debug
  | frameLimitSet _ => some .info
  | formObserved _ => none

def origin : Event → String
  | formRead _ | formEvaluated _ | lineRead _ | formObserved _ => interpreterOrigin
  | primitiveFailed .. => applicationOrigin
  | lineFailed | depthExhausted | frameLimitSet _ => consoleOrigin

def message? (depth : Nat) : Event → Option String
  | formRead form | formObserved form => do return "read " ++ (← inspected? depth form)
  | formEvaluated result => do return "evaluated to " ++ (← inspected? depth result)
  | lineRead forms => some ("read " ++ toString forms ++ " form(s) from line")
  | primitiveFailed procedure arguments => do
      return "primitive " ++ procedure ++ " failed on " ++
        (← inspectedArguments? depth arguments)
  | lineFailed => some "evaluation failed"
  | depthExhausted => some "evaluation exhausted the stack"
  | frameLimitSet limit => some ("recursion limit set to " ++ toString limit)

/-- The record of an event, if it leaves one that a threshold keeps. -/
def record? (threshold depth : Nat) (event : Event) : Option Record := do
  let level ← event.level?.filter (threshold ≤ ·.rank)
  return ⟨level, event.origin, ← event.message? depth⟩

end Event

/-- The state of a session. The sequences that are read are numbered in their order, and so are,
apart from them, the closures, sequences and undefined numbers that a run makes. Events stand with
the latest first. -/
structure Session where
  heap : Heap
  sequencesRead : Nat
  objectsMade : Nat
  printed : String
  events : List Event
  deriving Inhabited

/-- A computation in a session, which may fail. What it changed before a failure stays changed. -/
abbrev Run := ExceptT Fault (StateM Session)

namespace Run

def note (event : Event) : Run Unit :=
  modify fun session => { session with events := event :: session.events }

def print (text : String) : Run Unit :=
  modify fun session => { session with printed := session.printed ++ text }

def ofExcept {α : Type} (result : Except Fault α) : Run α :=
  match result with
  | .ok value => pure value
  | .error fault => throw fault

def ofHeap {α : Type} (depth : Nat) (result : Except HeapFault α) : Run α :=
  match result with
  | .ok value => pure value
  | .error fault => throw (Fault.ofHeap depth fault)

def lookup (depth : Nat) (frame : Nat) (key : Value) : Run Value := do
  ofHeap depth ((← get).heap.lookup frame key)

def write (frame : Nat) (name : Name) (value : Value) : Run Unit :=
  modify fun session => { session with heap := session.heap.write frame name value }

/-- Binds a key in a frame itself. -/
def define (depth : Nat) (frame : Nat) (key value : Value) : Run Unit := do
  let name ← ofHeap depth (Heap.definable key)
  write frame name value

/-- Changes the nearest binding of a key. -/
def assign (depth : Nat) (frame : Nat) (key value : Value) : Run Unit := do
  let (owner, name) ← ofHeap depth ((← get).heap.target frame key)
  write owner name value

/-- A new frame within another one that binds keys to values pairwise. -/
def extend (depth : Nat) (outer : Nat) (keys values : List Value) : Run Nat := do
  let bindings ← ofHeap depth (Heap.pairUp keys values)
  modifyGet fun session =>
    let (frame, heap) := session.heap.newFrame (some outer) bindings
    (frame, { session with heap })

/-- Numbers the sequences of a form that has been read. -/
def identify (form : Value) : Run Value :=
  modifyGet fun session =>
    let (form, sequencesRead) := form.identified session.sequencesRead
    (form, { session with sequencesRead })

def identifyAll (forms : List Value) : Run (List Value) :=
  modifyGet fun session =>
    let (forms, sequencesRead) := Value.identifiedAll session.sequencesRead forms
    (forms, { session with sequencesRead })

def newObject : Run Nat :=
  modifyGet fun session =>
    (session.objectsMade, { session with objectsMade := session.objectsMade + 1 })

def makeClosure (parameters body : List Value) (frame : Nat) : Run Value := do
  return .closure (← newObject) parameters body frame

/-- The result of a procedure, numbered if it is a new sequence or a new undefined number. -/
def makeResult : Value → Run Value
  | .sequence none bracket items => do
      return .sequence (some (.made (← newObject))) bracket items
  | .number (.float (.undefined none)) => do
      return .number (.float (.undefined (some (← newObject))))
  | result => pure result

end Run

end TinyLisp
