import TinyLisp.Value.Equality
import TinyLisp.Fault

/-!
# Frames and bindings

Frames are numbered in the order in which they are made. A frame binds names to values, in the
order in which they were first bound, and may lie within an outer frame that was made before it.
A name means its binding in the nearest frame that has one, going outward. Frames are shared:
whoever holds a frame's number sees every later change.
-/

namespace TinyLisp

/-- A frame with its bindings in the order of first definition. -/
structure Frame where
  bindings : List (Name × Value)
  outer : Option Nat

/-- The bindings with a name bound to a value, in its place if it is bound already. -/
def bindName (name : Name) (value : Value) : List (Name × Value) → List (Name × Value)
  | [] => [(name, value)]
  | (bound, old) :: rest =>
      if bound = name then (bound, value) :: rest else (bound, old) :: bindName name value rest

namespace Frame

def get? (frame : Frame) (name : Name) : Option Value := frame.bindings.lookup name

def set (frame : Frame) (name : Name) (value : Value) : Frame :=
  ⟨bindName name value frame.bindings, frame.outer⟩

def filled (outer : Option Nat) (bindings : List (Name × Value)) : Frame :=
  bindings.foldl (fun frame (name, value) => frame.set name value) ⟨[], outer⟩

theorem filled_outer (outer : Option Nat) (bindings : List (Name × Value)) :
    (filled outer bindings).outer = outer := by
  suffices ∀ frame : Frame,
      (bindings.foldl (fun frame (name, value) => frame.set name value) frame).outer =
        frame.outer from this _
  induction bindings with
  | nil => exact fun _ => rfl
  | cons binding rest ih => exact fun frame => ih (frame.set binding.1 binding.2)

end Frame

/-- What can be wrong with the use of a frame. Keys are values, and only symbols can be bound. -/
inductive HeapFault where
  | unbound (key : Value)
  | unboundTarget (key : Value)
  | undefinable (key : Value)
  | arity (expected given : Nat)

/-- All frames made so far. The outer frame of a frame is one made before it. -/
structure Heap where
  frames : Array Frame
  outer_lt : ∀ (id : Nat) (frame : Frame), frames[id]? = some frame →
    ∀ outer, frame.outer = some outer → outer < id

namespace Heap

def empty : Heap := ⟨#[], by simp⟩

instance : Inhabited Heap := ⟨empty⟩

/-- The heap with a new frame in it, with some bindings and within an outer frame if that exists,
and the new frame's number. -/
def newFrame (heap : Heap) (outer : Option Nat) (bindings : List (Name × Value)) :
    Nat × Heap :=
  (heap.frames.size,
    { frames := heap.frames.push (Frame.filled (outer.filter (· < heap.frames.size)) bindings)
      outer_lt := by
        intro id frame found outer within
        rw [Array.getElem?_push] at found
        split at found
        · next last =>
          cases found
          rw [Frame.filled_outer] at within
          simp only [Option.filter_eq_some_iff, decide_eq_true_eq] at within
          omega
        · exact heap.outer_lt id frame found outer within })

/-- The heap with a name bound in a frame, whatever the frames around it bind. -/
def write (heap : Heap) (id : Nat) (name : Name) (value : Value) : Heap where
  frames := heap.frames.modify id (·.set name value)
  outer_lt := by
    intro other frame found outer within
    rw [Array.getElem?_modify] at found
    split at found
    · obtain ⟨before, present, rfl⟩ := Option.map_eq_some_iff.mp found
      exact heap.outer_lt other before present outer within
    · exact heap.outer_lt other frame found outer within

/-- A frame and the frames around it, the innermost first, up to a number of them. -/
def chainWithin (heap : Heap) : Nat → Nat → List Nat
  | 0, _ => []
  | count + 1, id =>
      match heap.frames[id]? with
      | none => []
      | some frame =>
          id ::
            match frame.outer with
            | none => []
            | some outer => heap.chainWithin count outer

/-- A frame and the frames around it, the innermost first. As outer frames are older, there are
at most as many as the frame's number says. -/
def chain (heap : Heap) (id : Nat) : List Nat := heap.chainWithin (id + 1) id

def root (heap : Heap) (id : Nat) : Option Nat := (heap.chain id).getLast?

def get? (heap : Heap) (id : Nat) (name : Name) : Option Value :=
  heap.frames[id]?.bind (·.get? name)

/-- The nearest frame that binds a name. -/
def findName (heap : Heap) (id : Nat) (name : Name) : Option Nat :=
  (heap.chain id).find? fun frame => (heap.get? frame name).isSome

/-- The nearest frame that binds a key; none does if the key is not a symbol. -/
def find (heap : Heap) (id : Nat) : Value → Option Nat
  | .symbol name => heap.findName id name
  | _ => none

/-- The value of a key in the nearest frame that binds it. -/
def lookup (heap : Heap) (id : Nat) (key : Value) : Except HeapFault Value :=
  match key with
  | .symbol name =>
      match (heap.chain id).findSome? (heap.get? · name) with
      | some value => .ok value
      | none => .error (.unbound key)
  | _ => .error (.unbound key)

/-- The name that a key can be bound as. -/
def definable (key : Value) : Except HeapFault Name :=
  match key with
  | .symbol name => .ok name
  | _ => .error (.undefinable key)

/-- The heap with a key bound in a frame itself. -/
def define (heap : Heap) (id : Nat) (key value : Value) : Except HeapFault Heap := do
  return heap.write id (← definable key) value

/-- The nearest frame that binds a key, and the name it binds. -/
def target (heap : Heap) (id : Nat) (key : Value) : Except HeapFault (Nat × Name) :=
  match key with
  | .symbol name =>
      match heap.findName id name with
      | some owner => .ok (owner, name)
      | none => .error (.unboundTarget key)
  | _ => .error (.unboundTarget key)

/-- The heap with a key's nearest binding changed; a binding is never added. -/
def assign (heap : Heap) (id : Nat) (key value : Value) : Except HeapFault Heap := do
  let (owner, name) ← heap.target id key
  return heap.write owner name value

/-- Keys as names, each with its value. The counts must be equal and every key a symbol. -/
def pairUp (keys values : List Value) : Except HeapFault (List (Name × Value)) :=
  if keys.length = values.length then
    (keys.zip values).mapM fun (key, value) => do return (← definable key, value)
  else .error (.arity keys.length values.length)

/-- A new frame within another one that binds keys to values pairwise. Nothing happens if the
counts differ or a key is not a symbol. -/
def extend (heap : Heap) (outer : Nat) (keys values : List Value) :
    Except HeapFault (Nat × Heap) := do
  return heap.newFrame (some outer) (← pairUp keys values)

/-- The heap after pairs have been defined one after the other, up to the first one that cannot
be, and that one's fault. -/
def defineEach (heap : Heap) (id : Nat) : List (Value × Value) → Heap × Option HeapFault
  | [] => (heap, none)
  | (key, value) :: rest =>
      match definable key with
      | .ok name => (heap.write id name value).defineEach id rest
      | .error fault => (heap, some fault)

/-- Pairs with one more: a key that is there already keeps its place and takes the new value. -/
def mergePair (key value : Value) : List (Value × Value) → List (Value × Value)
  | [] => [(key, value)]
  | (present, old) :: rest =>
      if present.same key then (present, value) :: rest
      else (present, old) :: mergePair key value rest

/-- The heap after a mapping given by pairs has been defined in a frame, up to the first key that
cannot be, and that key's fault. -/
def update (heap : Heap) (id : Nat) (pairs : List (Value × Value)) :
    Heap × Option HeapFault :=
  heap.defineEach id (pairs.foldl (fun merged (key, value) => mergePair key value merged) [])

/-- The names that a frame itself binds, in the order of first definition. -/
def names (heap : Heap) (id : Nat) : List Name :=
  match heap.frames[id]? with
  | none => []
  | some frame => frame.bindings.map (·.1)

end Heap

namespace Value

def textWithin (depth : Nat) (style : Style) (value : Value) : Except Fault String :=
  match value.obstacle depth with
  | some obstacle => .error (Fault.ofObstacle obstacle)
  | none => .ok (String.ofList (value.render style))

end Value

namespace Fault

/-- A fault that shows a value, or the fault of showing it. -/
def showing (depth : Nat) (style : Style) (value : Value) (fault : String → Fault) : Fault :=
  match value.textWithin depth style with
  | .ok text => fault text
  | .error failure => failure

/-- The fault that a run ends in when the use of a frame fails. -/
def ofHeap (depth : Nat) : HeapFault → Fault
  | .unbound key => showing depth .shown key unbound
  | .unboundTarget key => showing depth .shown key unboundTarget
  | .undefinable key => showing depth .inspected key undefinable
  | .arity expected given => arity expected given ""

end Fault

namespace Heap

def bindingText (depth : Nat) (binding : Name × Value) : Except Fault (List Char) := do
  let value ← binding.2.textWithin depth .inspected
  return binding.1.text ++ ':' :: ' ' :: value.toList

def frameText (heap : Heap) (depth : Nat) (id : Nat) : Except Fault (List Char) := do
  let bindings := (heap.frames[id]?.map (·.bindings)).getD []
  let texts ← bindings.mapM (bindingText depth)
  return '\x7b' :: (Value.joined [',', ' '] texts ++ ['\x7d'])

/-- The text of a frame, with a mark if there are frames around it. -/
def summary (heap : Heap) (depth : Nat) (id : Nat) : Except Fault String := do
  let own ← heap.frameText depth id
  let more := if (heap.frames[id]?.bind (·.outer)).isSome then " -> ..." else ""
  return String.ofList own ++ more

/-- The texts of a frame and of all frames around it. -/
def chainSummary (heap : Heap) (depth : Nat) (id : Nat) : Except Fault String := do
  let texts ← (heap.chain id).mapM (heap.frameText depth)
  return "<Environment chain: " ++ String.ofList (Value.joined " -> ".toList texts) ++ ">"

end Heap

end TinyLisp
