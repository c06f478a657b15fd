import TinyLisp.Proofs.Heap.Operations

/-!
# Steps outward

Frames stay within the frames that they were made in. So once some number of steps outward leads
from one frame to another it always does, whatever is written and whichever frames are made.
-/

namespace TinyLisp

namespace Heap

/-- A number of steps from a frame to the one around it lead from one frame to another. -/
inductive Outward (heap : Heap) : Nat → Nat → Nat → Prop
  | here (id : Nat) : Outward heap 0 id id
  | step {steps id outer last : Nat} {frame : Frame} (found : heap.frames[id]? = some frame)
      (around : frame.outer = some outer) (outward : Outward heap steps outer last) :
      Outward heap (steps + 1) id last

variable {heap after : Heap} {steps id last : Nat}

theorem Outward.imp (kept : ∀ {id : Nat} {frame : Frame}, heap.frames[id]? = some frame →
      after.frames[id]?.map Frame.outer = some frame.outer)
    (outward : heap.Outward steps id last) : after.Outward steps id last := by
  induction outward with
  | here id => exact .here id
  | step found around outward ih =>
      obtain ⟨other, present, same⟩ := Option.map_eq_some_iff.mp (kept found)
      exact .step present (same.trans around) ih

theorem Outward.write (outward : heap.Outward steps id last) (owner : Nat) (name : Name)
    (value : Value) : (heap.write owner name value).Outward steps id last := by
  apply outward.imp
  intro id frame found
  have same := @map_outer_write heap owner name value id
  rw [found] at same
  exact same

theorem Outward.newFrame (outward : heap.Outward steps id last) (outer : Option Nat)
    (bindings : List (Name × Value)) :
    (heap.newFrame outer bindings).2.Outward steps id last := by
  apply outward.imp
  intro id frame found
  rw [getElem?_newFrame_of_lt outer bindings (lt_of_getElem? found), found]
  rfl

theorem Outward.lt (outward : heap.Outward steps id last) (inside : last < heap.frames.size) :
    id < heap.frames.size := by
  cases outward with
  | here => exact inside
  | step found => exact lt_of_getElem? found

/-- A new frame is one step further in than the frame that it is made in. -/
theorem Outward.into (outward : heap.Outward steps id last) (inside : last < heap.frames.size)
    (bindings : List (Name × Value)) :
    (heap.newFrame (some id) bindings).2.Outward (steps + 1) heap.frames.size last := by
  have found := getElem?_newFrame heap (some id) bindings heap.frames.size
  rw [if_pos rfl] at found
  refine .step found ?_ (outward.newFrame (some id) bindings)
  rw [Frame.filled_outer]
  simp [outward.lt inside]

/-- The chain of a frame has as many frames besides it as there are steps to the outermost one. -/
theorem Outward.root (outward : heap.Outward steps id last) {frame : Frame}
    (found : heap.frames[last]? = some frame) (outermost : frame.outer = none) :
    heap.root id = some last ∧ (heap.chain id).length = steps + 1 := by
  induction outward with
  | here id => simp [Heap.root, chain_eq found, outermost]
  | @step steps id outer last within present around outward ih =>
      obtain ⟨ends, length⟩ := ih found
      have rest : heap.chain id = id :: heap.chain outer := by rw [chain_eq present, around]
      rw [Heap.root, rest, List.length_cons, length]
      refine ⟨?_, rfl⟩
      rw [Heap.root] at ends
      rw [List.getLast?_cons, ends]
      rfl

end Heap

end TinyLisp
