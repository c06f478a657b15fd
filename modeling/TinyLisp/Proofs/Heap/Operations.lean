import TinyLisp.Proofs.Heap.Chain
import TinyLisp.Proofs.Heap.Names

/-!
# What is written where

What writing a binding and making a frame do to the values, names and chains of all frames, and when
keys can be bound at all: only symbols can, so that an update gets as far as the first key that is
no symbol, and keys are paired with values just if there are as many of them and all are symbols.
-/

namespace TinyLisp

theorem lookup_bindName (name : Name) (value : Value) (bindings : List (Name × Value))
    (other : Name) :
    (bindName name value bindings).lookup other =
      if other = name then some value else bindings.lookup other := by
  induction bindings with
  | nil =>
      by_cases same : other = name
      · simp [bindName, same]
      · simp [bindName, List.lookup_cons, same, beq_false_of_ne same]
  | cons binding rest ih =>
      obtain ⟨bound, old⟩ := binding
      rw [bindName]
      split
      · next hit =>
          subst hit
          by_cases same : other = bound
          · simp [same]
          · simp [List.lookup_cons, same, beq_false_of_ne same]
      · next miss =>
          by_cases same : other = bound
          · have ne : other ≠ name := fun hit => miss (same ▸ hit)
            simp [same, miss]
          · simp [List.lookup_cons, beq_false_of_ne same, ih]

/-- The name that a key can be bound as; only symbols have one. -/
def Value.name? : Value → Option Name
  | .symbol name => some name
  | _ => none

namespace Heap

variable {heap : Heap}

theorem eq_of_frames {heap other : Heap} (same : heap.frames = other.frames) : heap = other := by
  cases heap
  cases other
  cases same
  rfl

theorem get?_write {id : Nat} (inside : id < heap.frames.size) (name : Name) (value : Value)
    (other : Nat) (wanted : Name) :
    (heap.write id name value).get? other wanted =
      if other = id ∧ wanted = name then some value else heap.get? other wanted := by
  by_cases same : id = other
  · subst same
    simp only [get?, getElem?_write, if_true, Array.getElem?_eq_getElem inside, Option.map_some,
      Option.bind_some, Frame.get?, Frame.set, true_and, lookup_bindName]
  · simp only [get?, getElem?_write, if_neg same, Ne.symm same, false_and, if_false]

theorem mem_names_iff {id : Nat} {name : Name} :
    name ∈ heap.names id ↔ (heap.get? id name).isSome := by
  constructor
  · intro member
    unfold names at member
    split at member
    · cases member
    · next frame found =>
        obtain ⟨binding, bound, rfl⟩ := List.mem_map.mp member
        simp only [get?, found, Option.bind_some, Frame.get?]
        rw [List.lookup_isSome_iff]
        exact ⟨binding, bound, by simp⟩
  · intro bound
    obtain ⟨value, found⟩ := Option.isSome_iff_exists.mp bound
    exact mem_names_of_get? found

/-- The chain of a frame depends on nothing but the outer frames of the frames up to it. -/
theorem chain_congr {first second : Heap} {id : Nat}
    (same : ∀ earlier ≤ id,
      first.frames[earlier]?.map Frame.outer = second.frames[earlier]?.map Frame.outer) :
    first.chain id = second.chain id := by
  induction id using Nat.strongRecOn with
  | ind id ih =>
      have here := same id (Nat.le_refl id)
      cases found : second.frames[id]? with
      | none =>
          rw [found, Option.map_none, Option.map_eq_none_iff] at here
          rw [chain_eq_nil found, chain_eq_nil here]
      | some frame =>
          rw [found] at here
          obtain ⟨other, present, around⟩ := Option.map_eq_some_iff.mp here
          rw [chain_eq found, chain_eq present, around]
          cases further : frame.outer with
          | none => rfl
          | some outer =>
              have older := second.outer_lt id frame found outer further
              have rest : first.chain outer = second.chain outer :=
                ih outer older fun earlier within =>
                  same earlier (Nat.le_trans within (Nat.le_of_lt older))
              simp only [rest]

theorem chain_write (id : Nat) (name : Name) (value : Value) (other : Nat) :
    (heap.write id name value).chain other = heap.chain other :=
  chain_congr fun earlier _ => map_outer_write id name value earlier

theorem chain_newFrame_of_lt (outer : Option Nat) (bindings : List (Name × Value)) {id : Nat}
    (inside : id < heap.frames.size) :
    (heap.newFrame outer bindings).2.chain id = heap.chain id := by
  apply chain_congr
  intro earlier within
  rw [getElem?_newFrame_of_lt outer bindings (Nat.lt_of_le_of_lt within inside)]

theorem newFrame_concat (heap : Heap) (outer : Option Nat) (bindings : List (Name × Value))
    (name : Name) (value : Value) :
    (heap.newFrame outer (bindings ++ [(name, value)])).2 =
      (heap.newFrame outer bindings).2.write heap.frames.size name value := by
  apply eq_of_frames
  apply Array.ext_getElem?
  intro id
  rw [getElem?_write, getElem?_newFrame, getElem?_newFrame]
  by_cases last : id = heap.frames.size
  · simp [last, Frame.filled]
  · rw [if_neg last, if_neg (Ne.symm last), if_neg last]

theorem definable_eq (key : Value) :
    definable key =
      match key.name? with
      | some name => .ok name
      | none => .error (.undefinable key) := by
  cases key <;> rfl

/-- The pairs of a mapping before the first one that cannot be defined. -/
def definablePairs (mapping : List (Value × Value)) : List (Value × Value) :=
  mapping.takeWhile (·.1.name?.isSome)

theorem target_eq (frame : Nat) (key : Value) :
    heap.target frame key =
      match key.name?.bind fun name => (heap.findName frame name).map (·, name) with
      | some place => .ok place
      | none => .error (.unboundTarget key) := by
  cases key with
  | symbol name =>
      rw [target, Value.name?, Option.bind_some]
      cases heap.findName frame name <;> rfl
  | _ => rfl

theorem defineEach_fault (frame : Nat) (pairs : List (Value × Value)) :
    (heap.defineEach frame pairs).2 =
      (pairs.find? (·.1.name?.isNone)).map fun pair => .undefinable pair.1 := by
  induction pairs generalizing heap with
  | nil => rfl
  | cons pair rest ih =>
      obtain ⟨key, value⟩ := pair
      rw [defineEach, definable_eq]
      cases named : key.name? with
      | none => simp [named]
      | some name => simpa [named] using ih

theorem defineEach_definablePairs (frame : Nat) (pairs : List (Value × Value)) :
    heap.defineEach frame (definablePairs pairs) = ((heap.defineEach frame pairs).1, none) := by
  induction pairs generalizing heap with
  | nil => rfl
  | cons pair rest ih =>
      obtain ⟨key, value⟩ := pair
      rw [definablePairs]
      cases named : key.name? with
      | none => simp [named, defineEach, definable_eq]
      | some name => simpa [named, defineEach, definable_eq, definablePairs] using ih

theorem mergePair_of_forall {key value : Value} {pairs : List (Value × Value)}
    (differs : ∀ pair ∈ pairs, ¬ pair.1.same key) :
    mergePair key value pairs = pairs ++ [(key, value)] := by
  induction pairs with
  | nil => rfl
  | cons pair rest ih =>
      obtain ⟨differs, others⟩ := List.forall_mem_cons.mp differs
      rw [mergePair, if_neg differs, ih others]
      rfl

/-- The keys of a mapping differ, so that its pairs are defined as they stand. -/
theorem update_eq {mapping : List (Value × Value)}
    (distinct : mapping.Pairwise fun earlier later => ¬ earlier.1.same later.1) (frame : Nat) :
    heap.update frame mapping = heap.defineEach frame mapping := by
  suffices ∀ merged : List (Value × Value), (merged ++ mapping).Pairwise
      (fun earlier later => ¬ earlier.1.same later.1) →
      mapping.foldl (fun merged pair => mergePair pair.1 pair.2 merged) merged =
        merged ++ mapping by
    exact congrArg (heap.defineEach frame) (this [] distinct)
  clear distinct
  induction mapping with
  | nil => simp
  | cons pair rest ih =>
      intro merged distinct
      obtain ⟨key, value⟩ := pair
      have apart := (List.pairwise_append.mp distinct).2.2
      have merges : mergePair key value merged = merged ++ [(key, value)] :=
        mergePair_of_forall fun other member => apart other member _ List.mem_cons_self
      simp only [List.foldl_cons, merges]
      rw [ih _ (by simpa using distinct), List.append_assoc, List.singleton_append]

/-- Keys are paired with values just if the counts are equal and all keys are symbols. -/
theorem pairUp_eq (keys values : List Value) :
    pairUp keys values =
      if keys.length = values.length then
        match keys.find? (·.name?.isNone) with
        | some key => .error (.undefinable key)
        | none => .ok ((keys.zip values).filterMap fun pair => pair.1.name?.map (·, pair.2))
      else .error (.arity keys.length values.length) := by
  unfold pairUp
  split
  · next same =>
      induction keys generalizing values with
      | nil => rfl
      | cons key keys ih =>
          cases values with
          | nil => cases same
          | cons value values =>
              rw [List.zip_cons_cons, List.mapM_cons, ih values (Nat.succ.inj same)]
              simp only [definable_eq]
              cases named : key.name? with
              | none => simp [named]
              | some name =>
                  cases found : keys.find? (·.name?.isNone) with
                  | none => simp [named, found, -Option.isNone_iff_eq_none]
                  | some other => simp [named, found]
  · rfl

/-- Symbols are paired with values just if the counts are equal. -/
theorem pairUp_symbols {keys : List Value} (symbols : ∀ key ∈ keys, ∃ name, key = .symbol name)
    (values : List Value) :
    pairUp keys values =
      if keys.length = values.length then
        .ok ((keys.zip values).filterMap fun pair => pair.1.name?.map (·, pair.2))
      else .error (.arity keys.length values.length) := by
  have named : keys.find? (·.name?.isNone) = none := by
    rw [List.find?_eq_none]
    intro key member
    obtain ⟨name, rfl⟩ := symbols key member
    simp [Value.name?]
  rw [pairUp_eq, named]

end Heap

end TinyLisp
