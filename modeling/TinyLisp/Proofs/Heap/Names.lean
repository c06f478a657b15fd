import TinyLisp.Proofs.Heap.Bindings

/-!
# The names of a frame

Writing a binding leaves all frames within the frames that they were in. It leaves the names that
frames bind as they were, in their order, but for the frame it writes to: that one binds the written
name as its last one unless it binds it already.
-/

namespace TinyLisp

theorem map_fst_bindName (name : Name) (value : Value) (bindings : List (Name × Value)) :
    (bindName name value bindings).map Prod.fst =
      if name ∈ bindings.map Prod.fst then bindings.map Prod.fst
      else bindings.map Prod.fst ++ [name] := by
  induction bindings with
  | nil => simp [bindName]
  | cons binding rest ih =>
      obtain ⟨bound, old⟩ := binding
      rw [bindName]
      split
      · next same => simp [same]
      · next other =>
          have ne : name ≠ bound := fun same => other same.symm
          simp only [List.map_cons, ih, List.mem_cons, ne, false_or]
          split <;> rfl

namespace Heap

variable {heap : Heap}

theorem names_eq_of_getElem?_eq {other : Heap} {id : Nat}
    (same : heap.frames[id]? = other.frames[id]?) : heap.names id = other.names id := by
  simp only [names, same]

theorem mem_names_of_get? {id : Nat} {name : Name} {value : Value}
    (found : heap.get? id name = some value) : name ∈ heap.names id := by
  obtain ⟨frame, present, member⟩ := mem_of_get? found
  simp only [names, present]
  exact List.mem_map_of_mem member

/-- An assignment goes to a frame that binds the name already. -/
theorem mem_names_of_target {id owner : Nat} {key : Value} {name : Name}
    (found : heap.target id key = .ok (owner, name)) : name ∈ heap.names owner := by
  unfold target at found
  split at found
  · split at found
    · next bound =>
        cases found
        have binds : (heap.get? owner name).isSome := by simpa using List.find?_some bound
        obtain ⟨value, present⟩ := Option.isSome_iff_exists.mp binds
        exact mem_names_of_get? present
    · cases found
  · cases found

theorem map_outer_write (id : Nat) (name : Name) (value : Value) (other : Nat) :
    (heap.write id name value).frames[other]?.map (·.outer) =
      heap.frames[other]?.map (·.outer) := by
  rw [getElem?_write]
  split
  · rw [Option.map_map]
    rfl
  · rfl

theorem names_write_self {id : Nat} (inside : id < heap.frames.size) (name : Name) (value : Value) :
    (heap.write id name value).names id =
      if name ∈ heap.names id then heap.names id else heap.names id ++ [name] := by
  simp only [names, getElem?_write, if_true, Array.getElem?_eq_getElem inside, Option.map_some]
  exact map_fst_bindName name value _

theorem names_write_ne {id other : Nat} (ne : id ≠ other) (name : Name) (value : Value) :
    (heap.write id name value).names other = heap.names other :=
  names_eq_of_getElem?_eq (by rw [getElem?_write, if_neg ne])

theorem names_write_of_mem {id : Nat} {name : Name} (bound : name ∈ heap.names id) (value : Value)
    (other : Nat) : (heap.write id name value).names other = heap.names other := by
  by_cases same : id = other
  · subst same
    rcases Nat.lt_or_ge id heap.frames.size with inside | outside
    · rw [names_write_self inside, if_pos bound]
    · simp [names, Array.getElem?_eq_none outside] at bound
  · exact names_write_ne same name value

theorem names_prefix_write (id : Nat) (name : Name) (value : Value) {other : Nat}
    (inside : other < heap.frames.size) :
    heap.names other <+: (heap.write id name value).names other := by
  by_cases same : id = other
  · subst same
    rw [names_write_self inside]
    split
    · exact List.prefix_rfl
    · exact List.prefix_append _ _
  · exact ⟨[], by rw [names_write_ne same, List.append_nil]⟩

theorem getElem?_newFrame_of_lt (outer : Option Nat) (bindings : List (Name × Value)) {id : Nat}
    (inside : id < heap.frames.size) :
    (heap.newFrame outer bindings).2.frames[id]? = heap.frames[id]? := by
  rw [getElem?_newFrame, if_neg (Nat.ne_of_lt inside)]

end Heap

end TinyLisp
