import TinyLisp.Fault

/-!
# Items and slices of sequences

Positions count from zero, and negative ones from the end; they fit into a machine word. A slice
takes every so many items from a start up to a stop that is not part of it, forward or backward;
bounds that lie beyond an end are moved to it.
-/

namespace TinyLisp

/-- The bounds of a slice. Absent bounds stand for the ends in the direction of the step. -/
structure SliceBounds where
  start : Option Int
  stop : Option Int
  step : Int
  deriving DecidableEq

namespace SliceBounds

/-- A position counted from the start of a sequence with some length. -/
def fromStart (length : Nat) (position : Int) : Int :=
  if position < 0 then position + length else position

/-- A position moved between two others. -/
def clamp (least greatest position : Int) : Int := max least (min greatest position)

/-- The first position of a slice and the one that ends it. -/
def ends (bounds : SliceBounds) (length : Nat) : Int × Int :=
  let forward := bounds.step > 0
  let least : Int := if forward then 0 else -1
  let greatest : Int := if forward then length else length - 1
  let resolve (bound : Option Int) (absent : Int) : Int :=
    match bound with
    | none => absent
    | some position => clamp least greatest (fromStart length position)
  if forward then (resolve bounds.start least, resolve bounds.stop greatest)
  else (resolve bounds.start greatest, resolve bounds.stop least)

def positions (bounds : SliceBounds) (length : Nat) : List Nat :=
  let (first, last) := bounds.ends length
  let distance := if bounds.step > 0 then last - first else first - last
  let stride := bounds.step.natAbs
  let count := (distance.toNat + stride - 1) / stride
  (List.range count).map fun (taken : Nat) => (first + taken * bounds.step).toNat

end SliceBounds

namespace Value

/-- The width of a position in bits, with its sign. -/
def positionBits : Nat := 64

def isPosition (position : Int) : Bool :=
  let bound : Int := Nat.pow 2 (positionBits - 1)
  position < bound ∧ -bound ≤ position

def itemAt (items : List Value) (position : Int) : Except Fault Value :=
  let index := SliceBounds.fromStart items.length position
  if !isPosition position then .error .indexTooLarge
  else if index < 0 then .error .indexOutOfRange
  else
    match items[index.toNat]? with
    | some item => .ok item
    | none => .error .indexOutOfRange

def slice (items : List Value) (bounds : SliceBounds) : Except Fault (List Value) :=
  if bounds.step = 0 then .error .zeroStep
  else .ok ((bounds.positions items.length).filterMap (items[·]?))

end Value

end TinyLisp
