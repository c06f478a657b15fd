import TinyLisp.Proofs.Heap.Operations

/-!
# Heaps without a name

Taking the bindings of one name out of all frames leaves every other name with the meaning that it
has, and it makes no difference whether they are taken out before or after another name is written
or a frame is made. Two heaps differ in the bindings of a name only if they are the same without it.
-/

namespace TinyLisp

namespace Frame

def without (name : Name) (frame : Frame) : Frame :=
  ⟨frame.bindings.filter (·.1 ≠ name), frame.outer⟩

variable {name other : Name}

theorem lookup_filter_ne (ne : other ≠ name) (bindings : List (Name × Value)) :
    (bindings.filter (·.1 ≠ name)).lookup other = bindings.lookup other := by
  induction bindings with
  | nil => rfl
  | cons binding rest ih =>
      obtain ⟨bound, value⟩ := binding
      by_cases removed : bound = name
      · have differs : other ≠ bound := removed ▸ ne
        rw [List.filter_cons_of_neg (by simpa using removed), ih, List.lookup_cons,
          beq_false_of_ne differs]
      · rw [List.filter_cons_of_pos (by simpa using removed), List.lookup_cons,
          List.lookup_cons, ih]

theorem bindName_filter_ne (ne : other ≠ name) (value : Value) (bindings : List (Name × Value)) :
    (bindName other value bindings).filter (·.1 ≠ name) =
      bindName other value (bindings.filter (·.1 ≠ name)) := by
  induction bindings with
  | nil => simp [bindName, ne]
  | cons binding rest ih =>
      obtain ⟨bound, old⟩ := binding
      by_cases removed : bound = name
      · have differs : bound ≠ other := fun same => ne (same.symm.trans removed)
        rw [bindName, if_neg differs, List.filter_cons_of_neg (by simpa using removed),
          List.filter_cons_of_neg (by simpa using removed), ih]
      · rw [List.filter_cons_of_pos (by simpa using removed), bindName, bindName]
        split
        · rw [List.filter_cons_of_pos (by simpa using removed)]
        · rw [List.filter_cons_of_pos (by simpa using removed), ih]

theorem get?_without (ne : other ≠ name) (frame : Frame) :
    (frame.without name).get? other = frame.get? other :=
  lookup_filter_ne ne frame.bindings

theorem set_without (ne : other ≠ name) (value : Value) (frame : Frame) :
    (frame.set other value).without name = (frame.without name).set other value := by
  rw [without, set, bindName_filter_ne ne]
  rfl

theorem filled_without {outer : Option Nat} {bindings : List (Name × Value)}
    (others : ∀ binding ∈ bindings, binding.1 ≠ name) :
    (filled outer bindings).without name = filled outer bindings := by
  rw [without, List.filter_eq_self.mpr fun binding member => by
    simpa using others binding (mem_filled member)]

end Frame

namespace Heap

def without (name : Name) (heap : Heap) : Heap where
  frames := heap.frames.map (Frame.without name)
  outer_lt := by
    intro id frame found outer around
    rw [Array.getElem?_map] at found
    obtain ⟨before, present, rfl⟩ := Option.map_eq_some_iff.mp found
    exact heap.outer_lt id before present outer around

variable {heap : Heap} {name other : Name}

@[simp]
theorem size_without : (heap.without name).frames.size = heap.frames.size := by
  simp [without]

theorem getElem?_without (id : Nat) :
    (heap.without name).frames[id]? = heap.frames[id]?.map (Frame.without name) := by
  rw [without, Array.getElem?_map]

theorem chain_without (id : Nat) : (heap.without name).chain id = heap.chain id := by
  apply chain_congr
  intro earlier _
  rw [getElem?_without, Option.map_map]
  rfl

theorem get?_without (ne : other ≠ name) (id : Nat) :
    (heap.without name).get? id other = heap.get? id other := by
  rw [get?, get?, getElem?_without]
  cases heap.frames[id]? with
  | none => rfl
  | some frame => exact Frame.get?_without ne frame

theorem lookup_without (ne : other ≠ name) (id : Nat) :
    (heap.without name).lookup id (.symbol other) = heap.lookup id (.symbol other) := by
  simp only [lookup, chain_without, get?_without ne]

theorem target_without (ne : other ≠ name) (id : Nat) :
    (heap.without name).target id (.symbol other) = heap.target id (.symbol other) := by
  simp only [target, findName, chain_without, get?_without ne]

theorem write_without (ne : other ≠ name) (id : Nat) (value : Value) :
    (heap.write id other value).without name = (heap.without name).write id other value := by
  apply eq_of_frames
  apply Array.ext_getElem?
  intro place
  rw [getElem?_without, getElem?_write, getElem?_write, getElem?_without]
  split
  · rw [Option.map_map, Option.map_map]
    exact congrArg heap.frames[place]?.map (funext (Frame.set_without ne value))
  · rfl

theorem newFrame_without (outer : Option Nat) {bindings : List (Name × Value)}
    (others : ∀ binding ∈ bindings, binding.1 ≠ name) :
    (heap.newFrame outer bindings).2.without name =
      ((heap.without name).newFrame outer bindings).2 := by
  apply eq_of_frames
  apply Array.ext_getElem?
  intro id
  rw [getElem?_without, getElem?_newFrame, getElem?_newFrame, getElem?_without, size_without]
  split
  · rw [Option.map_some, Frame.filled_without others]
  · rfl

theorem get?_write_of_ne (ne : other ≠ name) (id : Nat) (value : Value) (place : Nat) :
    (heap.write id other value).get? place name = heap.get? place name := by
  rw [get?, get?, getElem?_write]
  split
  · cases heap.frames[place]? with
    | none => rfl
    | some frame =>
        change (frame.set other value).get? name = frame.get? name
        rw [Frame.get?, Frame.set, lookup_bindName, if_neg (Ne.symm ne), Frame.get?]
  · rfl

/-- A frame that is made without a name binds it no more than a frame that is not there. -/
theorem get?_newFrame_of_ne (outer : Option Nat) {bindings : List (Name × Value)}
    (others : ∀ binding ∈ bindings, binding.1 ≠ name) (place : Nat) :
    (heap.newFrame outer bindings).2.get? place name = heap.get? place name := by
  by_cases made : place = heap.frames.size
  · subst made
    have missing : heap.get? heap.frames.size name = none := by simp [get?]
    rw [missing, Option.eq_none_iff_forall_not_mem]
    intro value found
    obtain ⟨frame, present, member⟩ := mem_of_get? found
    rw [getElem?_newFrame, if_pos rfl] at present
    cases present
    exact others _ (Frame.mem_filled member) rfl
  · rw [get?, get?, getElem?_newFrame, if_neg made]

end Heap

end TinyLisp
