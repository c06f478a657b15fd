import Mathlib.Data.List.Induction
import TinyLisp.Proofs.Heap.Operations

/-!
# Frames as a log of writes

Everything that can be asked of frames can be noted in a log: that a frame has been made, that a
name has been defined in a frame, that a name has been assigned to in the frame that was the nearest
one to define it. The log alone says which names are bound where and what they mean: the value that
was written last, in the nearest frame that the name has been defined in. Frames do just that,
however operations follow one another and whichever of them fail.
-/

namespace TinyLisp

/-- What can be asked of the frames that exist. A new frame may lie within another one or not, and
a mapping to update a frame from is given by its pairs. -/
inductive Operation where
  | newFrame (outer : Option Nat)
  | define (frame : Nat) (key value : Value)
  | assign (frame : Nat) (key value : Value)
  | update (frame : Nat) (mapping : List (Value × Value))
  | extend (outer : Nat) (keys values : List Value)

namespace Operation

/-- The operation refers to frames among the first ones only, and the keys of a mapping differ. -/
def Possible (frames : Nat) : Operation → Prop
  | newFrame outer => ∀ id ∈ outer, id < frames
  | define frame _ _ | assign frame _ _ | extend frame _ _ => frame < frames
  | update frame mapping =>
      frame < frames ∧ mapping.Pairwise fun earlier later => ¬ earlier.1.same later.1

instance (frames : Nat) : (operation : Operation) → Decidable (operation.Possible frames)
  | newFrame outer => inferInstanceAs (Decidable (∀ id ∈ outer, id < frames))
  | define frame _ _ | assign frame _ _ | extend frame _ _ =>
      inferInstanceAs (Decidable (frame < frames))
  | update frame mapping =>
      inferInstanceAs (Decidable (frame < frames ∧ mapping.Pairwise fun earlier later =>
        ¬ earlier.1.same later.1))

end Operation

namespace Heap

/-- The heap that a change leads to, or the heap itself if the change fails, and the fault. -/
def settle (heap : Heap) : Except HeapFault Heap → Heap × Option HeapFault
  | .ok changed => (changed, none)
  | .error fault => (heap, some fault)

@[simp]
theorem settle_ok (heap changed : Heap) : heap.settle (.ok changed) = (changed, none) := rfl

@[simp]
theorem settle_error (heap : Heap) (fault : HeapFault) :
    heap.settle (.error fault) = (heap, some fault) := rfl

/-- The heap that an operation leaves and the fault it has ended in, if any. -/
def perform (heap : Heap) : Operation → Heap × Option HeapFault
  | .newFrame outer => ((heap.newFrame outer []).2, none)
  | .define frame key value => heap.settle (heap.define frame key value)
  | .assign frame key value => heap.settle (heap.assign frame key value)
  | .update frame mapping => heap.update frame mapping
  | .extend outer keys values => heap.settle ((heap.extend outer keys values).map (·.2))

end Heap

/-- What can be noted of frames: that one more has been made, that a name has been defined in one,
or that a name bound in one has been assigned to. -/
inductive Entry where
  | made (outer : Option Nat)
  | defined (frame : Nat) (name : Name) (value : Value)
  | assigned (frame : Nat) (name : Name) (value : Value)

namespace Entry

/-- The name that an entry says to be defined in a frame. -/
def definedIn? (frame : Nat) : Entry → Option Name
  | defined owner name _ => if owner = frame then some name else none
  | _ => none

/-- The value that an entry says to be written to a name in a frame. -/
def written? (frame : Nat) (name : Name) : Entry → Option Value
  | made _ => none
  | defined owner bound value | assigned owner bound value =>
      if owner = frame ∧ bound = name then some value else none

end Entry

/-- Everything that has been noted, the latest entry first. -/
abbrev Log := List Entry

namespace Log

def frames : Log → Nat
  | [] => 0
  | .made _ :: older => frames older + 1
  | _ :: older => frames older

/-- A frame and the frames around it, the innermost first. -/
def chain : Log → Nat → List Nat
  | [], _ => []
  | .made outer :: older, frame =>
      if frame = frames older then
        frame ::
          match outer with
          | none => []
          | some around => chain older around
      else chain older frame
  | _ :: older, frame => chain older frame

/-- The names that have been defined in a frame, each once, in the order of first definition. -/
def names (log : Log) (frame : Nat) : List Name :=
  (log.reverse.filterMap (·.definedIn? frame)).eraseDups

/-- The value that has been written last to a name in a frame. -/
def last? (log : Log) (frame : Nat) (name : Name) : Option Value :=
  log.findSome? (·.written? frame name)

/-- The nearest frame that a name has been defined in. -/
def resolve? (log : Log) (frame : Nat) (name : Name) : Option Nat :=
  (log.chain frame).find? (name ∈ log.names ·)

def define (log : Log) (frame : Nat) (key value : Value) : Log :=
  match key.name? with
  | some name => .defined frame name value :: log
  | none => log

/-- The log with pairs defined in a frame one after the other. -/
def defineAll (log : Log) (frame : Nat) (pairs : List (Value × Value)) : Log :=
  pairs.foldl (fun log (key, value) => log.define frame key value) log

/-- The log with an operation noted. Only assigning looks at what has been noted before: it writes
to the frame that is the nearest to define the name at that moment. -/
def record (log : Log) : Operation → Log
  | .newFrame outer => .made outer :: log
  | .define frame key value => log.define frame key value
  | .assign frame key value =>
      match key.name? with
      | none => log
      | some name =>
          match log.resolve? frame name with
          | none => log
          | some owner => .assigned owner name value :: log
  | .update frame mapping => log.defineAll frame (Heap.definablePairs mapping)
  | .extend outer keys values =>
      if keys.length = values.length ∧ keys.all (·.name?.isSome) then
        defineAll (.made (some outer) :: log) log.frames (keys.zip values)
      else log

def fault? (log : Log) : Operation → Option HeapFault
  | .newFrame _ => none
  | .define _ key _ => if key.name?.isSome then none else some (.undefinable key)
  | .assign frame key _ =>
      if (key.name?.bind (log.resolve? frame ·)).isSome then none else some (.unboundTarget key)
  | .update _ mapping =>
      (mapping.find? (·.1.name?.isNone)).map fun pair => .undefinable pair.1
  | .extend _ keys values =>
      if keys.length = values.length then
        (keys.find? (·.name?.isNone)).map .undefinable
      else some (.arity keys.length values.length)

end Log

/-- A heap as a sequence of operations leaves it, starting from no frames, and the log of them. -/
inductive Heap.Recorded : Heap → Log → Prop
  | empty : Recorded .empty []
  | perform {heap : Heap} {log : Log} (recorded : Recorded heap log) (operation : Operation)
      (possible : operation.Possible heap.frames.size) :
      Recorded (heap.perform operation).1 (log.record operation)

namespace Log

variable {log : Log}

theorem chain_made (outer : Option Nat) (log : Log) (frame : Nat) :
    chain (.made outer :: log) frame =
      if frame = log.frames then
        frame ::
          match outer with
          | none => []
          | some around => log.chain around
      else log.chain frame := rfl

theorem defineAll_concat (log : Log) (frame : Nat) (pairs : List (Value × Value))
    (pair : Value × Value) :
    log.defineAll frame (pairs ++ [pair]) =
      (log.defineAll frame pairs).define frame pair.1 pair.2 := by
  simp [defineAll]

theorem names_cons (entry : Entry) (log : Log) (frame : Nat) :
    names (entry :: log) frame =
      match entry.definedIn? frame with
      | none => log.names frame
      | some name =>
          if name ∈ log.names frame then log.names frame else log.names frame ++ [name] := by
  unfold names
  rw [List.reverse_cons, List.filterMap_append]
  generalize log.reverse.filterMap (·.definedIn? frame) = earlier
  cases defined : entry.definedIn? frame with
  | none => simp [defined]
  | some name =>
      simp only [List.filterMap_cons, List.filterMap_nil, defined, List.eraseDups_append,
        List.mem_eraseDups]
      split
      · next present => simp [List.removeAll, present]
      · next absent => simp [List.removeAll, absent, List.eraseDups_cons]

end Log

/-- A heap holds what a log says. -/
structure Heap.Matches (heap : Heap) (log : Log) : Prop where
  size : heap.frames.size = log.frames
  chain (frame : Nat) : heap.chain frame = log.chain frame
  names (frame : Nat) : heap.names frame = log.names frame
  last (frame : Nat) (name : Name) : heap.get? frame name = log.last? frame name

namespace Heap

variable {heap : Heap} {log : Log}

namespace Matches

theorem findName_eq (holds : heap.Matches log) (frame : Nat) (name : Name) :
    heap.findName frame name = log.resolve? frame name := by
  rw [findName, Log.resolve?, holds.chain]
  congr 1
  funext owner
  rw [← holds.names, Bool.eq_iff_iff, decide_eq_true_iff, mem_names_iff]

theorem define (holds : heap.Matches log) {frame : Nat} (inside : frame < heap.frames.size)
    (name : Name) (value : Value) :
    (heap.write frame name value).Matches (.defined frame name value :: log) where
  size := (size_write ..).trans holds.size
  chain id := (chain_write ..).trans (holds.chain id)
  names id := by
    rw [Log.names_cons, Entry.definedIn?]
    by_cases same : frame = id
    · subst same
      rw [names_write_self inside, holds.names]
      simp only [if_true]
    · rw [names_write_ne same, holds.names]
      simp only [if_neg same]
  last id wanted := by
    rw [get?_write inside, Log.last?, List.findSome?_cons, Entry.written?]
    by_cases hit : frame = id ∧ name = wanted
    · obtain ⟨rfl, rfl⟩ := hit
      simp
    · rw [if_neg hit, if_neg fun same => hit ⟨same.1.symm, same.2.symm⟩]
      exact holds.last id wanted

theorem assign (holds : heap.Matches log) {owner : Nat} {name : Name}
    (bound : name ∈ heap.names owner) (value : Value) :
    (heap.write owner name value).Matches (.assigned owner name value :: log) where
  size := (size_write ..).trans holds.size
  chain id := (chain_write ..).trans (holds.chain id)
  names id := by
    rw [names_write_of_mem bound, holds.names, Log.names_cons]
    rfl
  last id wanted := by
    have inside : owner < heap.frames.size := by
      obtain ⟨value, found⟩ := Option.isSome_iff_exists.mp (mem_names_iff.mp bound)
      obtain ⟨frame, present, -⟩ := mem_of_get? found
      exact lt_of_getElem? present
    rw [get?_write inside, Log.last?, List.findSome?_cons, Entry.written?]
    by_cases hit : owner = id ∧ name = wanted
    · obtain ⟨rfl, rfl⟩ := hit
      simp
    · rw [if_neg hit, if_neg fun same => hit ⟨same.1.symm, same.2.symm⟩]
      exact holds.last id wanted

theorem newFrame (holds : heap.Matches log) {outer : Option Nat}
    (inside : ∀ id ∈ outer, id < heap.frames.size) :
    (heap.newFrame outer []).2.Matches (.made outer :: log) where
  size := by rw [size_newFrame, holds.size, Log.frames]
  chain id := by
    have kept : outer.filter (· < heap.frames.size) = outer := by
      cases outer with
      | none => rfl
      | some around => simp [inside around rfl]
    rw [Log.chain_made, ← holds.size]
    split
    · next last =>
        subst last
        have found := getElem?_newFrame heap outer [] heap.frames.size
        rw [if_pos rfl, kept] at found
        rw [chain_eq found, Frame.filled_outer]
        cases outer with
        | none => rfl
        | some around =>
            simp only [chain_newFrame_of_lt _ _ (inside around rfl), holds.chain]
    · next other =>
        rw [← holds.chain]
        rcases Nat.lt_or_gt_of_ne other with earlier | later
        · exact chain_newFrame_of_lt outer [] earlier
        · rw [chain_eq_nil (Array.getElem?_eq_none (Nat.le_of_lt later)), chain_eq_nil]
          rw [getElem?_newFrame, if_neg other, Array.getElem?_eq_none (Nat.le_of_lt later)]
  names id := by
    refine Eq.trans ?_ ((holds.names id).trans (Log.names_cons (.made outer) log id).symm)
    by_cases last : id = heap.frames.size
    · subst last
      simp only [Heap.names, getElem?_newFrame, if_true, Array.getElem?_size]
      rfl
    · simp only [Heap.names, getElem?_newFrame, if_neg last]
  last id name := by
    rw [Log.last?, List.findSome?_cons, Entry.written?, ← Log.last?, ← holds.last]
    by_cases last : id = heap.frames.size
    · subst last
      simp only [Heap.get?, getElem?_newFrame, if_true, Array.getElem?_size]
      rfl
    · simp only [Heap.get?, getElem?_newFrame, if_neg last]

theorem defineEach (holds : heap.Matches log) {frame : Nat} (inside : frame < heap.frames.size)
    (pairs : List (Value × Value)) :
    (heap.defineEach frame pairs).1.Matches (log.defineAll frame (definablePairs pairs)) := by
  induction pairs generalizing heap log with
  | nil => exact holds
  | cons pair rest ih =>
      obtain ⟨key, value⟩ := pair
      rw [Heap.defineEach, definable_eq, definablePairs]
      cases named : key.name? with
      | none => simpa [named, Log.defineAll] using holds
      | some name =>
          have further := ih (holds.define inside name value) (by simpa using inside)
          simpa [named, Log.defineAll, Log.define, definablePairs] using further

end Matches

namespace Matches

/-- A frame that is filled while it is made holds what it would hold if it was filled then. -/
theorem extend (holds : heap.Matches log) {outer : Nat} (inside : outer < heap.frames.size)
    (pairs : List (Value × Value)) :
    (heap.newFrame (some outer)
      (pairs.filterMap fun pair => pair.1.name?.map (·, pair.2))).2.Matches
      (Log.defineAll (.made (some outer) :: log) log.frames pairs) := by
  induction pairs using List.reverseRecOn with
  | nil => exact holds.newFrame fun id here => Option.some.inj here ▸ inside
  | append_singleton pairs pair ih =>
      rw [Log.defineAll_concat, List.filterMap_append]
      cases named : pair.1.name? with
      | none => simpa [named, Log.define] using ih
      | some name =>
          have inside : log.frames < (heap.newFrame (some outer)
              (pairs.filterMap fun pair => pair.1.name?.map (·, pair.2))).2.frames.size := by
            simp [holds.size]
          have last := ih.define inside name pair.2
          simpa [named, Log.define, newFrame_concat, holds.size] using last

/-- An operation leaves a heap that holds what the log says then. -/
theorem perform (holds : heap.Matches log) {operation : Operation}
    (possible : operation.Possible heap.frames.size) :
    (heap.perform operation).1.Matches (log.record operation) := by
  cases operation with
  | newFrame outer => exact holds.newFrame possible
  | define frame key value =>
      rw [Heap.perform, Heap.define, definable_eq, Log.record, Log.define]
      cases key.name? with
      | none => exact holds
      | some name => exact holds.define possible name value
  | assign frame key value =>
      simp only [Heap.perform, Heap.assign, target_eq, holds.findName_eq, Log.record]
      cases key.name? with
      | none => exact holds
      | some name =>
          cases found : log.resolve? frame name with
          | none => simpa [found] using holds
          | some owner =>
              have bound : name ∈ log.names owner := by simpa using List.find?_some found
              simpa [found] using holds.assign (holds.names owner ▸ bound) value
  | update frame mapping =>
      rw [Heap.perform, update_eq possible.2]
      exact holds.defineEach possible.1 mapping
  | extend outer keys values =>
      simp only [Heap.perform, Heap.extend, pairUp_eq, Log.record]
      by_cases same : keys.length = values.length
      · cases found : keys.find? (·.name?.isNone) with
        | none =>
            have named : keys.all (·.name?.isSome) := by
              simpa [Option.isSome_iff_ne_none] using found
            rw [if_pos same, if_pos ⟨same, named⟩]
            exact holds.extend possible _
        | some key =>
            have unnamed : ¬ keys.all (·.name?.isSome) := by
              have isUnnamed := List.find?_some found
              simpa using ⟨key, List.mem_of_find?_eq_some found, by simpa using isUnnamed⟩
            rw [if_pos same, if_neg fun both => unnamed both.2]
            exact holds
      · rw [if_neg same, if_neg fun both => same both.1]
        exact holds

/-- An operation ends in the fault that the log says. -/
theorem fault_eq (holds : heap.Matches log) {operation : Operation}
    (possible : operation.Possible heap.frames.size) :
    (heap.perform operation).2 = log.fault? operation := by
  cases operation with
  | newFrame outer => rfl
  | define frame key value =>
      rw [Heap.perform, Heap.define, definable_eq, Log.fault?]
      cases key.name? <;> rfl
  | assign frame key value =>
      simp only [Heap.perform, Heap.assign, target_eq, holds.findName_eq, Log.fault?]
      cases key.name? with
      | none => rfl
      | some name => cases found : log.resolve? frame name <;> simp [found]
  | update frame mapping =>
      rw [Heap.perform, update_eq possible.2, defineEach_fault, Log.fault?]
  | extend outer keys values =>
      simp only [Heap.perform, Heap.extend, pairUp_eq, Log.fault?]
      split
      · cases keys.find? (·.name?.isNone) <;> rfl
      · rfl

theorem lookup_eq (holds : heap.Matches log) (frame : Nat) (name : Name) :
    heap.lookup frame (.symbol name) =
      match (log.resolve? frame name).bind (log.last? · name) with
      | some value => .ok value
      | none => .error (.unbound (.symbol name)) := by
  have first (owners : List Nat) : owners.findSome? (heap.get? · name) =
      (owners.find? fun owner => (heap.get? owner name).isSome).bind (heap.get? · name) := by
    induction owners with
    | nil => rfl
    | cons owner owners ih =>
        rw [List.findSome?_cons, List.find?_cons]
        cases found : heap.get? owner name with
        | none => exact ih
        | some value => simp [found]
  have found : (heap.chain frame).findSome? (heap.get? · name) =
      (log.resolve? frame name).bind (log.last? · name) := by
    rw [first, ← Heap.findName, holds.findName_eq]
    simp only [holds.last]
  rw [← found]
  cases value : (heap.chain frame).findSome? (heap.get? · name) <;> simp only [Heap.lookup, value]

/-- Where a name resolves to the frame that is assigned to, it means the assigned value from then
on, and elsewhere what it meant. -/
theorem lookup_assign (holds : heap.Matches log) {frame owner : Nat} {name : Name}
    (nearest : log.resolve? frame name = some owner) (value : Value) (other : Nat) :
    (heap.perform (.assign frame (.symbol name) value)).1.lookup other (.symbol name) =
      if log.resolve? other name = some owner then .ok value
      else heap.lookup other (.symbol name) := by
  have bound : name ∈ log.names owner := by simpa using List.find?_some nearest
  have changed : (heap.perform (.assign frame (.symbol name) value)).1 =
      heap.write owner name value := by
    simp [Heap.perform, Heap.assign, target_eq, Value.name?, holds.findName_eq, nearest]
  have same : Log.resolve? (.assigned owner name value :: log) other name =
      log.resolve? other name := by
    simp only [Log.resolve?, Log.names_cons]
    rfl
  rw [changed, (holds.assign (holds.names owner ▸ bound) value).lookup_eq, same, holds.lookup_eq]
  cases log.resolve? other name with
  | none => rfl
  | some place =>
      simp only [Option.bind_some, Option.some.injEq, Log.last?, List.findSome?_cons,
        Entry.written?, and_true]
      by_cases hit : owner = place
      · simp [hit]
      · simp [hit, Ne.symm hit]

end Matches

theorem Recorded.matches (recorded : Recorded heap log) : heap.Matches log := by
  induction recorded with
  | empty =>
      refine ⟨rfl, fun frame => ?_, fun frame => rfl, fun frame name => rfl⟩
      exact chain_eq_nil rfl
  | perform recorded operation possible ih => exact ih.perform possible

end Heap

theorem Log.mem_names_iff {log : Log} {frame : Nat} {name : Name} :
    name ∈ log.names frame ↔ ∃ value, .defined frame name value ∈ log := by
  simp only [names, List.mem_eraseDups, List.mem_filterMap, List.mem_reverse]
  constructor
  · rintro ⟨entry, member, named⟩
    cases entry with
    | defined owner bound value =>
        simp only [Entry.definedIn?, Option.ite_none_right_eq_some, Option.some.injEq] at named
        obtain ⟨rfl, rfl⟩ := named
        exact ⟨value, member⟩
    | _ => cases named
  · rintro ⟨value, member⟩
    exact ⟨_, member, if_pos rfl⟩

/-- What can be seen of a heap is what a log of its changes says. -/
structure Heap.Refines (heap : Heap) (log : Log) : Prop where
  /-- A name is bound for a frame just if it was defined in some frame of its chain. -/
  bound (frame : Nat) (name : Name) :
    (∃ value, heap.lookup frame (.symbol name) = .ok value) ↔
      ∃ owner ∈ log.chain frame, ∃ value, .defined owner name value ∈ log
  /-- It means what was written last to the nearest such frame. -/
  value (frame : Nat) (name : Name) (owner : Nat) (nearest : log.resolve? frame name = some owner) :
    ∃ value, log.last? owner name = some value ∧ heap.lookup frame (.symbol name) = .ok value
  unbound (frame : Nat) (name : Name) (nowhere : log.resolve? frame name = none) :
    heap.lookup frame (.symbol name) = .error (.unbound (.symbol name)) ∧
      ∀ depth, (Fault.ofHeap depth (.unbound (.symbol name))).kind = .unboundVariable
  /-- An assignment is seen from just those frames that resolve the name to the same frame. -/
  seen (frame : Nat) (name : Name) (owner : Nat) (nearest : log.resolve? frame name = some owner)
    (value : Value) (other : Nat) :
    (heap.perform (.assign frame (.symbol name) value)).1.lookup other (.symbol name) =
      if log.resolve? other name = some owner then .ok value
      else heap.lookup other (.symbol name)
  names (frame : Nat) : heap.names frame = log.names frame
  fault (operation : Operation) (possible : operation.Possible heap.frames.size) :
    (heap.perform operation).2 = log.fault? operation
  /-- An operation that fails changes nothing, but for an update. -/
  unchanged (operation : Operation) (failed : (heap.perform operation).2 ≠ none)
    (single : ∀ frame mapping, operation ≠ .update frame mapping) :
    (heap.perform operation).1 = heap
  /-- An update that fails keeps the pairs before the first key that is not a symbol. -/
  partly (frame : Nat) (mapping : List (Value × Value))
    (possible : Operation.Possible heap.frames.size (.update frame mapping)) :
    heap.perform (.update frame (definablePairs mapping)) =
      ((heap.perform (.update frame mapping)).1, none)

namespace Heap

variable {heap : Heap} {log : Log}

theorem eq_of_settle_fault {result : Except HeapFault Heap}
    (failed : (heap.settle result).2 ≠ none) : (heap.settle result).1 = heap := by
  cases result with
  | error fault => rfl
  | ok changed => exact absurd rfl failed

theorem refines_of_recorded (recorded : Recorded heap log) : heap.Refines log := by
  have holds := recorded.matches
  have written (owner : Nat) (name : Name) (defined : name ∈ log.names owner) :
      ∃ value, log.last? owner name = some value := by
    rw [← holds.names, mem_names_iff, holds.last] at defined
    exact Option.isSome_iff_exists.mp defined
  have value (frame : Nat) (name : Name) (owner : Nat)
      (nearest : log.resolve? frame name = some owner) :
      ∃ value, log.last? owner name = some value ∧
        heap.lookup frame (.symbol name) = .ok value := by
    have defined : name ∈ log.names owner := by simpa using List.find?_some nearest
    obtain ⟨value, last⟩ := written owner name defined
    refine ⟨value, last, ?_⟩
    rw [holds.lookup_eq, nearest, Option.bind_some, last]
  have unbound (frame : Nat) (name : Name) (nowhere : log.resolve? frame name = none) :
      heap.lookup frame (.symbol name) = .error (.unbound (.symbol name)) := by
    rw [holds.lookup_eq, nowhere, Option.bind_none]
  refine ⟨?bound, value, ?unbound, fun _ _ _ => holds.lookup_assign, holds.names,
    fun _ => holds.fault_eq, ?unchanged, ?partly⟩
  case bound =>
    intro frame name
    simp only [← Log.mem_names_iff]
    cases nearest : log.resolve? frame name with
    | none =>
        have nowhere := List.find?_eq_none.mp nearest
        constructor
        · rintro ⟨value, found⟩
          rw [unbound frame name nearest] at found
          cases found
        · rintro ⟨owner, member, defined⟩
          exact absurd (by simpa using defined) (nowhere owner member)
    | some owner =>
        obtain ⟨found, -, bound⟩ := value frame name owner nearest
        constructor
        · intro _
          exact ⟨owner, List.mem_of_find?_eq_some nearest, by simpa using List.find?_some nearest⟩
        · intro _
          exact ⟨found, bound⟩
  case unbound => exact fun frame name nowhere => ⟨unbound frame name nowhere, fun _ => rfl⟩
  case unchanged =>
    intro operation failed single
    cases operation with
    | newFrame outer => exact absurd rfl failed
    | update frame mapping => exact absurd rfl (single frame mapping)
    | _ => exact eq_of_settle_fault failed
  case partly =>
    intro frame mapping possible
    have sublist : (definablePairs mapping).Sublist mapping := List.takeWhile_sublist _
    rw [perform, perform, update_eq possible.2, update_eq (possible.2.sublist sublist),
      defineEach_definablePairs]

theorem refines_of_recorded_shadowing :
    ∃ heap log, Recorded heap log ∧ heap.Refines log ∧ heap.names 0 = [.plain "x", .plain "z"] ∧
      heap.lookup 2 (.named "x") = .ok (.ofBool true) ∧ heap.lookup 0 (.named "x") = .ok .nil := by
  have recorded := Recorded.empty
    |>.perform (.newFrame none) (by decide)
    |>.perform (.define 0 (.named "x") .nil) (by decide)
    |>.perform (.extend 0 [.named "y"] [.nil]) (by decide)
    |>.perform (.extend 1 [.named "y", .named "y"] [.nil, .ofBool true]) (by decide)
    |>.perform (.define 1 (.named "x") (.ofBool false)) (by decide)
    |>.perform (.assign 2 (.named "x") (.ofBool true)) (by decide)
    |>.perform (.update 0 [(.named "z", .nil), (.nil, .nil)]) (by decide)
    |>.perform (.extend 2 [.named "y"] []) (by decide)
  exact ⟨_, _, recorded, refines_of_recorded recorded, rfl, rfl, rfl⟩

end Heap

end TinyLisp
