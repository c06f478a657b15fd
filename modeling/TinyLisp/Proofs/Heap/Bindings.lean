import TinyLisp.Heap
import TinyLisp.Proofs.Outcome

/-!
# What a heap holds

Writing a binding and making a frame add the values that they are given and no others. So a
property of all values that some heap holds, and of the added ones, is a property of all values that
the new heap holds.
-/

namespace TinyLisp

theorem mem_bindName {name : Name} {value : Value} {bindings : List (Name × Value)}
    {binding : Name × Value} (member : binding ∈ bindName name value bindings) :
    binding = (name, value) ∨ binding ∈ bindings := by
  induction bindings with
  | nil => exact .inl (List.mem_singleton.mp member)
  | cons first rest ih =>
      rw [bindName] at member
      split at member
      · next same =>
          rcases List.mem_cons.mp member with rfl | later
          · exact .inl (by rw [same])
          · exact .inr (List.mem_cons_of_mem _ later)
      · rcases List.mem_cons.mp member with rfl | later
        · exact .inr List.mem_cons_self
        · exact (ih later).imp_right (List.mem_cons_of_mem _)

theorem Frame.mem_filled {outer : Option Nat} {bindings : List (Name × Value)}
    {binding : Name × Value} (member : binding ∈ (Frame.filled outer bindings).bindings) :
    binding ∈ bindings := by
  suffices ∀ frame : Frame,
      binding ∈ (bindings.foldl (fun frame bound => frame.set bound.1 bound.2) frame).bindings →
        binding ∈ frame.bindings ∨ binding ∈ bindings by
    simpa using this _ member
  clear member
  induction bindings with
  | nil => exact fun frame member => .inl member
  | cons first rest ih =>
      intro frame member
      rcases ih (frame.set first.1 first.2) member with earlier | later
      · exact (mem_bindName earlier).symm.imp_right (List.mem_cons.mpr ∘ .inl)
      · exact .inr (List.mem_cons_of_mem _ later)

namespace Heap

@[simp]
theorem size_write (heap : Heap) (id : Nat) (name : Name) (value : Value) :
    (heap.write id name value).frames.size = heap.frames.size := by
  simp [write]

@[simp]
theorem size_newFrame (heap : Heap) (outer : Option Nat) (bindings : List (Name × Value)) :
    (heap.newFrame outer bindings).2.frames.size = heap.frames.size + 1 := by
  simp [newFrame]

theorem getElem?_write (heap : Heap) (id : Nat) (name : Name) (value : Value) (other : Nat) :
    (heap.write id name value).frames[other]? =
      if id = other then heap.frames[other]?.map (·.set name value) else heap.frames[other]? := by
  rw [write, Array.getElem?_modify]

theorem getElem?_newFrame (heap : Heap) (outer : Option Nat) (bindings : List (Name × Value))
    (id : Nat) :
    (heap.newFrame outer bindings).2.frames[id]? =
      if id = heap.frames.size then
        some (Frame.filled (outer.filter (· < heap.frames.size)) bindings)
      else heap.frames[id]? := by
  rw [newFrame, Array.getElem?_push]

theorem lt_of_getElem? {heap : Heap} {id : Nat} {frame : Frame}
    (found : heap.frames[id]? = some frame) : id < heap.frames.size :=
  (Array.getElem?_eq_some_iff.mp found).1

/-- Every value that some frame binds has a property. -/
def All (property : Value → Prop) (heap : Heap) : Prop :=
  ∀ (id : Nat) (frame : Frame), heap.frames[id]? = some frame →
    ∀ binding ∈ frame.bindings, property binding.2

variable {property : Value → Prop} {heap : Heap}

theorem All.imp {weaker : Value → Prop} (all : heap.All property)
    (weaken : ∀ value, property value → weaker value) : heap.All weaker :=
  fun id frame found binding member => weaken _ (all id frame found binding member)

theorem All.write (all : heap.All property) (id : Nat) (name : Name) {value : Value}
    (holds : property value) : (heap.write id name value).All property := by
  intro other frame found binding member
  rw [getElem?_write] at found
  split at found
  · obtain ⟨before, present, rfl⟩ := Option.map_eq_some_iff.mp found
    rcases mem_bindName member with rfl | earlier
    · exact holds
    · exact all other before present binding earlier
  · exact all other frame found binding member

theorem All.newFrame (all : heap.All property) (outer : Option Nat)
    {bindings : List (Name × Value)} (holds : ∀ binding ∈ bindings, property binding.2) :
    (heap.newFrame outer bindings).2.All property := by
  intro id frame found binding member
  rw [getElem?_newFrame] at found
  split at found
  · cases found
    exact holds binding (Frame.mem_filled member)
  · exact all id frame found binding member

theorem mem_of_get? {id : Nat} {name : Name} {value : Value}
    (found : heap.get? id name = some value) :
    ∃ frame, heap.frames[id]? = some frame ∧ (name, value) ∈ frame.bindings := by
  obtain ⟨frame, present, bound⟩ := Option.bind_eq_some_iff.mp found
  obtain ⟨before, after, split, -⟩ := List.lookup_eq_some_iff.mp bound
  exact ⟨frame, present, by simp [split]⟩

theorem lookup_eq_ok {id : Nat} {key value : Value} (found : heap.lookup id key = .ok value) :
    ∃ name owner, key = .symbol name ∧ owner ∈ heap.chain id ∧
      heap.get? owner name = some value := by
  unfold lookup at found
  split at found
  · next name =>
      split at found
      · next bound =>
          cases found
          obtain ⟨owner, member, bound⟩ := List.exists_of_findSome?_eq_some bound
          exact ⟨name, owner, rfl, member, bound⟩
      · cases found
  · cases found

theorem mem_chain_of_target {id owner : Nat} {key : Value} {name : Name}
    (found : heap.target id key = .ok (owner, name)) : owner ∈ heap.chain id := by
  unfold target at found
  split at found
  · split at found
    · next bound =>
        cases found
        exact List.mem_of_find?_eq_some bound
    · cases found
  · cases found

theorem All.lookup (all : heap.All property) {id : Nat} {key value : Value}
    (found : heap.lookup id key = .ok value) : property value := by
  obtain ⟨name, owner, -, -, bound⟩ := lookup_eq_ok found
  obtain ⟨frame, present, member⟩ := mem_of_get? bound
  exact all owner frame present _ member

theorem definable_eq_ok_iff {key : Value} {name : Name} :
    definable key = .ok name ↔ key = .symbol name := by
  cases key <;> simp [definable]

theorem pairUp_eq_ok {keys values : List Value} {bindings : List (Name × Value)}
    (paired : pairUp keys values = .ok bindings) :
    keys.length = values.length ∧
      ∃ names : List Name, keys = names.map .symbol ∧ bindings = names.zip values := by
  unfold pairUp at paired
  split at paired
  · next same =>
      refine ⟨same, ?_⟩
      induction keys generalizing values bindings with
      | nil =>
          cases paired
          exact ⟨[], rfl, rfl⟩
      | cons key keys ih =>
          cases values with
          | nil => cases same
          | cons value values =>
              rw [List.zip_cons_cons, List.mapM_cons] at paired
              obtain ⟨first, named, rest⟩ := bind_eq_ok_iff.mp paired
              obtain ⟨name, defined, bound⟩ := bind_eq_ok_iff.mp named
              obtain ⟨others, more, joined⟩ := bind_eq_ok_iff.mp rest
              obtain ⟨names, symbols, zipped⟩ := ih (Nat.succ.inj same) more
              cases bound
              cases joined
              exact ⟨name :: names, by rw [definable_eq_ok_iff.mp defined, symbols]; rfl,
                by rw [zipped]; rfl⟩
  · cases paired

theorem mem_of_pairUp {keys values : List Value} {bindings : List (Name × Value)}
    (paired : pairUp keys values = .ok bindings) :
    ∀ binding ∈ bindings, binding.2 ∈ values := by
  obtain ⟨-, names, -, rfl⟩ := pairUp_eq_ok paired
  exact fun binding member => (List.of_mem_zip member).2

theorem symbol_mem_of_pairUp {keys values : List Value} {bindings : List (Name × Value)}
    (paired : pairUp keys values = .ok bindings) :
    ∀ binding ∈ bindings, .symbol binding.1 ∈ keys := by
  obtain ⟨-, names, rfl, rfl⟩ := pairUp_eq_ok paired
  exact fun binding member => List.mem_map_of_mem (List.of_mem_zip member).1

theorem eq_of_target {heap : Heap} {id owner : Nat} {name bound : Name}
    (found : heap.target id (.symbol name) = .ok (owner, bound)) : bound = name := by
  simp only [target] at found
  split at found
  · cases found
    rfl
  · cases found

end Heap

end TinyLisp
