import TinyLisp.Session
import TinyLisp.Proofs.Heap.Names

/-!
# Changes of a session

A run changes its session step by step: it notes, prints, gives out numbers, makes frames, assigns
and defines. What single changes keep is kept by all of them together. No change removes a frame or
a name, and none reads a text.
-/

namespace TinyLisp

namespace Session

/-- The sessions that changes lead to, if names are defined in some frames only. Any other frame
changes only where an assignment finds the name that it is for. -/
inductive Evolves (own : Nat → Prop) (start : Session) : Session → Prop
  | refl : Evolves own start start
  | note {session : Session} (evolves : Evolves own start session) (event : Event) :
      Evolves own start { session with events := event :: session.events }
  | print {session : Session} (evolves : Evolves own start session) (text : String) :
      Evolves own start { session with printed := session.printed ++ text }
  | number {session : Session} (evolves : Evolves own start session) (count : Nat) :
      Evolves own start { session with objectsMade := session.objectsMade + count }
  | newFrame {session : Session} (evolves : Evolves own start session) (outer : Nat)
      (bindings : List (Name × Value)) :
      Evolves own start
        { session with heap := (session.heap.newFrame (some outer) bindings).2 }
  | assign {session : Session} (evolves : Evolves own start session) {frame owner : Nat}
      {key : Value} {name : Name} (found : session.heap.target frame key = .ok (owner, name))
      (value : Value) :
      Evolves own start { session with heap := session.heap.write owner name value }
  | define {session : Session} (evolves : Evolves own start session) {frame : Nat}
      (owned : own frame) (name : Name) (value : Value) :
      Evolves own start { session with heap := session.heap.write frame name value }

namespace Evolves

variable {own : Nat → Prop} {start after : Session}

theorem size_le (evolves : Evolves own start after) :
    start.heap.frames.size ≤ after.heap.frames.size := by
  induction evolves with
  | refl => exact Nat.le_refl _
  | note _ _ ih | print _ _ ih | number _ _ ih => exact ih
  | newFrame _ _ _ ih =>
      rw [Heap.size_newFrame]
      omega
  | assign _ _ _ ih | define _ _ _ _ ih =>
      rw [Heap.size_write]
      exact ih

theorem sequencesRead (evolves : Evolves own start after) :
    after.sequencesRead = start.sequencesRead := by
  induction evolves with
  | refl => rfl
  | note _ _ ih | print _ _ ih | number _ _ ih | newFrame _ _ _ ih | assign _ _ _ ih
  | define _ _ _ _ ih => exact ih

/-- Frames stay within the frames that they are in. -/
theorem map_outer (evolves : Evolves own start after) {id : Nat}
    (inside : id < start.heap.frames.size) :
    after.heap.frames[id]?.map (·.outer) = start.heap.frames[id]?.map (·.outer) := by
  induction evolves with
  | refl => rfl
  | note _ _ ih | print _ _ ih | number _ _ ih => exact ih
  | newFrame evolves outer bindings ih =>
      rw [Heap.getElem?_newFrame_of_lt _ _ (Nat.lt_of_lt_of_le inside evolves.size_le), ih]
  | assign _ _ _ ih | define _ _ _ _ ih => rw [Heap.map_outer_write, ih]

theorem names_newFrame_of_lt {session : Session} (evolves : Evolves own start session)
    (outer : Nat) (bindings : List (Name × Value)) {id : Nat}
    (inside : id < start.heap.frames.size) :
    (session.heap.newFrame (some outer) bindings).2.names id = session.heap.names id :=
  Heap.names_eq_of_getElem?_eq
    (Heap.getElem?_newFrame_of_lt _ _ (Nat.lt_of_lt_of_le inside evolves.size_le))

/-- No frame loses a name, and names keep their places. -/
theorem names_prefix (evolves : Evolves own start after) {id : Nat}
    (inside : id < start.heap.frames.size) :
    start.heap.names id <+: after.heap.names id := by
  induction evolves with
  | refl => exact List.prefix_rfl
  | note _ _ ih | print _ _ ih | number _ _ ih => exact ih
  | newFrame evolves outer bindings ih =>
      rw [evolves.names_newFrame_of_lt outer bindings inside]
      exact ih
  | assign evolves _ _ ih | define evolves _ _ _ ih =>
      exact ih.trans (Heap.names_prefix_write _ _ _ (Nat.lt_of_lt_of_le inside evolves.size_le))

/-- A frame that names are not defined in gains none. An assignment finds its name bound. -/
theorem names_eq (evolves : Evolves own start after) {id : Nat}
    (inside : id < start.heap.frames.size) (notOwn : ¬ own id) :
    after.heap.names id = start.heap.names id := by
  induction evolves with
  | refl => rfl
  | note _ _ ih | print _ _ ih | number _ _ ih => exact ih
  | newFrame evolves outer bindings ih =>
      rw [evolves.names_newFrame_of_lt outer bindings inside, ih]
  | assign _ found value ih =>
      rw [Heap.names_write_of_mem (Heap.mem_names_of_target found), ih]
  | @define session _ frame owned name value ih =>
      have ne : frame ≠ id := by
        rintro rfl
        exact notOwn owned
      rw [Heap.names_write_ne ne, ih]

end Evolves

end Session

end TinyLisp
