import TinyLisp.Proofs.Heap.Bindings
import TinyLisp.Proofs.Heap.Chain
import TinyLisp.Proofs.Value.Renumbering

/-!
# Heaps that correspond

Two heaps correspond on some frames if one of them has these frames under other numbers, and if
nothing in the frames refers to any other frame. Whoever starts from one of the frames then finds
the same in both heaps, and changes that are made to both leave them corresponding.
-/

namespace TinyLisp

namespace Frame

def renumber (renumbering : Renumbering) (frame : Frame) : Frame :=
  ⟨frame.bindings.map (Prod.map id (Value.renumber renumbering)),
    frame.outer.map renumbering.frames⟩

/-- The frame refers to nothing but what is allowed. -/
structure Within (allowed : Reference → Prop) (frame : Frame) : Prop where
  outer : ∀ outer, frame.outer = some outer → allowed (.frame outer)
  bindings : ∀ binding ∈ frame.bindings, binding.2.Within allowed

variable {renumbering : Renumbering} {allowed : Reference → Prop} {frame : Frame}

theorem Within.imp {weaker : Reference → Prop} (within : frame.Within allowed)
    (weaken : ∀ reference, allowed reference → weaker reference) : frame.Within weaker :=
  ⟨fun outer around => weaken _ (within.outer outer around),
    fun binding member => (within.bindings binding member).imp weaken⟩

theorem lookup_map (name : Name) (bindings : List (Name × Value)) :
    (bindings.map (Prod.map id (Value.renumber renumbering))).lookup name =
      (bindings.lookup name).map (Value.renumber renumbering) := by
  induction bindings with
  | nil => rfl
  | cons binding rest ih =>
      obtain ⟨bound, value⟩ := binding
      simp only [List.map_cons, Prod.map, id, List.lookup_cons, ih]
      split <;> rfl

theorem get?_renumber (name : Name) :
    (frame.renumber renumbering).get? name =
      (frame.get? name).map (Value.renumber renumbering) :=
  lookup_map name frame.bindings

theorem bindName_map (name : Name) (value : Value) (bindings : List (Name × Value)) :
    bindName name (value.renumber renumbering)
        (bindings.map (Prod.map id (Value.renumber renumbering))) =
      (bindName name value bindings).map (Prod.map id (Value.renumber renumbering)) := by
  induction bindings with
  | nil => rfl
  | cons binding rest ih =>
      simp only [List.map_cons, Prod.map, id, bindName]
      split
      · rfl
      · simp only [List.map_cons, Prod.map, id, ← ih]

theorem set_renumber (name : Name) (value : Value) :
    (frame.renumber renumbering).set name (value.renumber renumbering) =
      (frame.set name value).renumber renumbering := by
  simp only [set, renumber, bindName_map]

theorem Within.set (within : frame.Within allowed) (name : Name) {value : Value}
    (valueWithin : value.Within allowed) : (frame.set name value).Within allowed where
  outer := within.outer
  bindings := by
    intro binding member
    rcases mem_bindName member with rfl | earlier
    · exact valueWithin
    · exact within.bindings binding earlier

theorem filled_renumber (outer : Option Nat) (bindings : List (Name × Value)) :
    filled (outer.map renumbering.frames)
        (bindings.map (Prod.map id (Value.renumber renumbering))) =
      (filled outer bindings).renumber renumbering := by
  suffices ∀ frame : Frame,
      (bindings.map (Prod.map id (Value.renumber renumbering))).foldl
          (fun frame bound => frame.set bound.1 bound.2) (frame.renumber renumbering) =
        (bindings.foldl (fun frame bound => frame.set bound.1 bound.2) frame).renumber
          renumbering from this ⟨[], outer⟩
  induction bindings with
  | nil => exact fun _ => rfl
  | cons binding rest ih =>
      intro frame
      obtain ⟨name, value⟩ := binding
      rw [List.map_cons, List.foldl_cons, List.foldl_cons, ← ih (frame.set name value),
        ← set_renumber]
      rfl

theorem filled_within {outer : Option Nat} {bindings : List (Name × Value)}
    (around : ∀ id, outer = some id → allowed (.frame id))
    (within : ∀ binding ∈ bindings, binding.2.Within allowed) :
    (filled outer bindings).Within allowed where
  outer := by
    rw [filled_outer]
    exact around
  bindings := fun binding member => within binding (mem_filled member)

end Frame

namespace HeapFault

def renumber (renumbering : Renumbering) : HeapFault → HeapFault
  | unbound key => unbound (key.renumber renumbering)
  | unboundTarget key => unboundTarget (key.renumber renumbering)
  | undefinable key => undefinable (key.renumber renumbering)
  | arity expected given => arity expected given

end HeapFault

/-- Messages do not show the numbers. -/
theorem Fault.ofHeap_renumber {renumbering : Renumbering} (depth : Nat) (fault : HeapFault) :
    Fault.ofHeap depth (fault.renumber renumbering) = Fault.ofHeap depth fault := by
  cases fault with
  | arity => rfl
  | _ => exact Value.showing_renumber depth _ _ _

namespace Heap

section

variable {renumbering : Renumbering}

theorem definable_renumber (key : Value) :
    definable (key.renumber renumbering) =
      (definable key).mapError (HeapFault.renumber renumbering) := by
  cases key <;> rfl

theorem pairUp_map (keys values : List Value) :
    pairUp (keys.map (Value.renumber renumbering)) (values.map (Value.renumber renumbering)) =
      ((pairUp keys values).map (List.map (Prod.map id (Value.renumber renumbering)))).mapError
        (HeapFault.renumber renumbering) := by
  simp only [pairUp, List.length_map, List.zip_map]
  split
  · induction keys.zip values with
    | nil => rfl
    | cons pair rest ih =>
        obtain ⟨key, value⟩ := pair
        rw [List.map_cons, List.mapM_cons, List.mapM_cons, ih]
        generalize (List.mapM _ rest : Except HeapFault (List (Name × Value))) = others
        simp only [Prod.map, definable_renumber]
        cases definable key with
        | error fault => rfl
        | ok name =>
            simp only [mapError_ok, ok_bind, except_pure]
            cases others <;> rfl
  · rfl

end

/-- Every frame that is allowed exists, refers to nothing but what is allowed, and is in the other
heap under its other number. -/
structure Corresponds (renumbering : Renumbering) (allowed : Reference → Prop)
    (heap other : Heap) : Prop where
  present : ∀ id, allowed (.frame id) → ∃ frame, heap.frames[id]? = some frame
  within : ∀ id frame, allowed (.frame id) → heap.frames[id]? = some frame → frame.Within allowed
  other : ∀ id frame, allowed (.frame id) → heap.frames[id]? = some frame →
    other.frames[renumbering.frames id]? = some (frame.renumber renumbering)

namespace Corresponds

variable {renumbering : Renumbering} {allowed : Reference → Prop} {heap other : Heap}

/-- Nothing that starts from an allowed frame leads out of what is allowed. -/
theorem chain_allowed (corresponds : Corresponds renumbering allowed heap other) {id : Nat}
    (inside : allowed (.frame id)) : ∀ owner ∈ heap.chain id, allowed (.frame owner) :=
  forall_mem_chain (fun id frame inside found => (corresponds.within id frame inside found).outer)
    inside

theorem chain_map (corresponds : Corresponds renumbering allowed heap other) {id : Nat}
    (inside : allowed (.frame id)) :
    other.chain (renumbering.frames id) = (heap.chain id).map renumbering.frames := by
  induction id using Nat.strongRecOn with
  | ind id ih =>
      obtain ⟨frame, found⟩ := corresponds.present id inside
      rw [chain_eq found, chain_eq (corresponds.other id frame inside found), List.map_cons]
      cases around : frame.outer with
      | none => simp [Frame.renumber, around]
      | some outer =>
          have older := heap.outer_lt id frame found outer around
          have outerInside := (corresponds.within id frame inside found).outer outer around
          simp [Frame.renumber, around, ih outer older outerInside]

theorem get?_map (corresponds : Corresponds renumbering allowed heap other) {id : Nat}
    (inside : allowed (.frame id)) (name : Name) :
    other.get? (renumbering.frames id) name =
      (heap.get? id name).map (Value.renumber renumbering) := by
  obtain ⟨frame, found⟩ := corresponds.present id inside
  rw [get?, get?, found, corresponds.other id frame inside found]
  exact Frame.get?_renumber name

theorem lookup_map (corresponds : Corresponds renumbering allowed heap other) {id : Nat}
    (inside : allowed (.frame id)) (name : Name) :
    other.lookup (renumbering.frames id) (.symbol name) =
      (heap.lookup id (.symbol name)).map (Value.renumber renumbering) := by
  have found : ((heap.chain id).map renumbering.frames).findSome? (other.get? · name) =
      ((heap.chain id).findSome? (heap.get? · name)).map (Value.renumber renumbering) := by
    have allowedChain := corresponds.chain_allowed inside
    generalize heap.chain id = owners at allowedChain
    induction owners with
    | nil => rfl
    | cons owner rest ih =>
        rw [List.forall_mem_cons] at allowedChain
        rw [List.map_cons, List.findSome?_cons, List.findSome?_cons, ih allowedChain.2,
          corresponds.get?_map allowedChain.1]
        cases heap.get? owner name <;> rfl
  simp only [lookup, corresponds.chain_map inside, found]
  cases (heap.chain id).findSome? (heap.get? · name) <;> rfl

theorem findName_map (corresponds : Corresponds renumbering allowed heap other) {id : Nat}
    (inside : allowed (.frame id)) (name : Name) :
    other.findName (renumbering.frames id) name =
      (heap.findName id name).map renumbering.frames := by
  rw [findName, findName, corresponds.chain_map inside]
  have allowedChain := corresponds.chain_allowed inside
  generalize heap.chain id = owners at allowedChain
  induction owners with
  | nil => rfl
  | cons owner rest ih =>
      rw [List.forall_mem_cons] at allowedChain
      rw [List.map_cons, List.find?_cons, List.find?_cons, ih allowedChain.2,
        corresponds.get?_map allowedChain.1, Option.isSome_map]
      cases (heap.get? owner name).isSome <;> rfl

theorem findName_allowed (corresponds : Corresponds renumbering allowed heap other) {id : Nat}
    (inside : allowed (.frame id)) {name : Name} {owner : Nat}
    (found : heap.findName id name = some owner) : allowed (.frame owner) :=
  corresponds.chain_allowed inside owner (List.mem_of_find?_eq_some found)

theorem target_map (corresponds : Corresponds renumbering allowed heap other) {id : Nat}
    (inside : allowed (.frame id)) (key : Value) :
    other.target (renumbering.frames id) (key.renumber renumbering) =
      ((heap.target id key).map (fun (owner, name) => (renumbering.frames owner, name))).mapError
        (HeapFault.renumber renumbering) := by
  cases key with
  | symbol name =>
      simp only [Value.renumber_symbol, target, corresponds.findName_map inside]
      cases heap.findName id name <;> rfl
  | _ => rfl

theorem target_allowed (corresponds : Corresponds renumbering allowed heap other) {id : Nat}
    (inside : allowed (.frame id)) {key : Value} {owner : Nat} {name : Name}
    (found : heap.target id key = .ok (owner, name)) : allowed (.frame owner) := by
  unfold target at found
  split at found
  · split at found
    · next owner bound =>
        cases found
        exact corresponds.findName_allowed inside bound
    · cases found
  · cases found

theorem lookup_within (corresponds : Corresponds renumbering allowed heap other) {id : Nat}
    (inside : allowed (.frame id)) {key value : Value} (found : heap.lookup id key = .ok value) :
    value.Within allowed := by
  obtain ⟨name, owner, -, member, bound⟩ := lookup_eq_ok found
  obtain ⟨frame, present, held⟩ := mem_of_get? bound
  exact (corresponds.within owner frame (corresponds.chain_allowed inside owner member)
    present).bindings _ held

theorem write (corresponds : Corresponds renumbering allowed heap other)
    (separates : renumbering.Separates allowed) {owner : Nat} (inside : allowed (.frame owner))
    (name : Name) {value : Value} (valueWithin : value.Within allowed) :
    Corresponds renumbering allowed (heap.write owner name value)
      (other.write (renumbering.frames owner) name (value.renumber renumbering)) := by
  have same (id : Nat) (idInside : allowed (.frame id)) :
      renumbering.frames owner = renumbering.frames id ↔ owner = id :=
    ⟨separates.frames owner id inside idInside, congrArg renumbering.frames⟩
  constructor
  case present =>
      intro id idInside
      obtain ⟨frame, found⟩ := corresponds.present id idInside
      rw [getElem?_write, found]
      split <;> exact ⟨_, rfl⟩
  case within =>
      intro id frame idInside found
      rw [getElem?_write] at found
      split at found
      · obtain ⟨before, present, rfl⟩ := Option.map_eq_some_iff.mp found
        exact (corresponds.within id before idInside present).set name valueWithin
      · exact corresponds.within id frame idInside found
  case other =>
      intro id frame idInside found
      rw [getElem?_write] at found ⊢
      simp only [same id idInside]
      split at found
      · next owns =>
          obtain ⟨before, present, rfl⟩ := Option.map_eq_some_iff.mp found
          rw [if_pos owns, corresponds.other id before idInside present, Option.map_some,
            Frame.set_renumber]
      · next differs =>
          rw [if_neg differs, corresponds.other id frame idInside found]

theorem imp (corresponds : Corresponds renumbering allowed heap other) {more : Reference → Prop}
    (weaken : ∀ reference, allowed reference → more reference)
    (same : ∀ id, more (.frame id) → allowed (.frame id)) :
    Corresponds renumbering more heap other where
  present id inside := corresponds.present id (same id inside)
  within id frame inside found := (corresponds.within id frame (same id inside) found).imp weaken
  other id frame inside := corresponds.other id frame (same id inside)

/-- A frame that is made in both heaps gets the next number in each of them. -/
theorem newFrame (corresponds : Corresponds renumbering allowed heap other)
    {more : Reference → Prop} (weaken : ∀ reference, allowed reference → more reference)
    (added : ∀ id, more (.frame id) → allowed (.frame id) ∨ id = heap.frames.size)
    (next : renumbering.frames heap.frames.size = other.frames.size) {outer : Nat}
    (inside : allowed (.frame outer)) {bindings : List (Name × Value)}
    (within : ∀ binding ∈ bindings, binding.2.Within allowed) :
    Corresponds renumbering more (heap.newFrame (some outer) bindings).2
      (other.newFrame (some (renumbering.frames outer))
        (bindings.map (Prod.map id (Value.renumber renumbering)))).2 := by
  obtain ⟨around, found⟩ := corresponds.present outer inside
  have older : outer < heap.frames.size := lt_of_getElem? found
  have otherOlder : renumbering.frames outer < other.frames.size :=
    lt_of_getElem? (corresponds.other outer around inside found)
  have made : Option.filter (· < heap.frames.size) (some outer) = some outer := by
    simp [older]
  have otherMade : Option.filter (· < other.frames.size) (some (renumbering.frames outer)) =
      (some outer).map renumbering.frames := by
    simp [otherOlder]
  have earlier {id : Nat} (idMore : more (.frame id)) (ne : id ≠ heap.frames.size) :
      allowed (.frame id) :=
    (added id idMore).resolve_right ne
  constructor
  case present =>
      intro id idMore
      rw [getElem?_newFrame]
      split
      · exact ⟨_, rfl⟩
      · next ne => exact corresponds.present id (earlier idMore ne)
  case within =>
      intro id frame idMore present
      rw [getElem?_newFrame, made] at present
      split at present
      · cases present
        refine (Frame.filled_within ?_ within).imp weaken
        rintro _ ⟨⟩
        exact inside
      · next ne => exact (corresponds.within id frame (earlier idMore ne) present).imp weaken
  case other =>
      intro id frame idMore present
      rw [getElem?_newFrame, made] at present
      rw [getElem?_newFrame, otherMade]
      split at present
      · next last =>
          cases present
          rw [last, if_pos next, Frame.filled_renumber]
      · next ne =>
          have moved := corresponds.other id frame (earlier idMore ne) present
          have otherNe : renumbering.frames id ≠ other.frames.size :=
            (lt_of_getElem? moved).ne
          rw [if_neg otherNe, moved]

end Corresponds

end Heap

end TinyLisp
