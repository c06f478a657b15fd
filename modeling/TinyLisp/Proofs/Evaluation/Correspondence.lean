import TinyLisp.Proofs.Evaluation.Renumbering
import TinyLisp.Proofs.Evaluation.Shapes
import TinyLisp.Proofs.Evaluation.Simulation
import TinyLisp.Proofs.Heap.Correspondence

/-!
# Runs in corresponding sessions

Two sessions may share some frames and differ in all others. As long as a run follows shared frames
and those that it makes, its steps are the same in both sessions, but for the numbers of what is
made: these follow the numbers given out before, and there may be more of them in one session than
in the other.
-/

namespace TinyLisp

/-- The numbers that a run in another session gives to what it makes: old numbers stay the same, and
new ones are counted from where the other session starts. -/
def Session.renumbering (session other : Session) : Renumbering where
  frames id :=
    if id < session.heap.frames.size then id
    else other.heap.frames.size + (id - session.heap.frames.size)
  objects number :=
    if number < session.objectsMade then number
    else other.objectsMade + (number - session.objectsMade)

namespace Evaluation

/-- Two sessions to start from, and the frames that a run may follow, which are in both of them. -/
structure Origin where
  first : Session
  second : Session
  Shared : Nat → Prop
  lt_first : ∀ id, Shared id → id < first.heap.frames.size
  lt_second : ∀ id, Shared id → id < second.heap.frames.size

namespace Origin

variable (origin : Origin)

/-- How what the second run makes is numbered, given what the first one makes. -/
def renumbering : Renumbering := origin.first.renumbering origin.second

/-- What a run may refer to when there are some numbers of frames and of objects: what it shares
with the other run, and what it has made. -/
def Allowed (frames objects : Nat) : Reference → Prop
  | .frame id => origin.Shared id ∨ (origin.first.heap.frames.size ≤ id ∧ id < frames)
  | .object number =>
      (number < origin.first.objectsMade ∧ number < origin.second.objectsMade) ∨
        (origin.first.objectsMade ≤ number ∧ number < objects)

/-- Two sessions that the two runs have got to side by side. -/
structure Beside (session other : Session) : Prop where
  frames_le : origin.first.heap.frames.size ≤ session.heap.frames.size
  frames_eq : other.heap.frames.size + origin.first.heap.frames.size =
    session.heap.frames.size + origin.second.heap.frames.size
  objects_le : origin.first.objectsMade ≤ session.objectsMade
  objects_eq : other.objectsMade + origin.first.objectsMade =
    session.objectsMade + origin.second.objectsMade
  printed : ∃ text, session.printed = origin.first.printed ++ text ∧
    other.printed = origin.second.printed ++ text
  untouched : ∀ id, id < origin.first.heap.frames.size → ¬ origin.Shared id →
    session.heap.frames[id]? = origin.first.heap.frames[id]?
  corresponds : Heap.Corresponds origin.renumbering
    (origin.Allowed session.heap.frames.size session.objectsMade) session.heap other.heap

variable {origin}

theorem Allowed.mono {frames objects moreFrames moreObjects : Nat} (framesLe : frames ≤ moreFrames)
    (objectsLe : objects ≤ moreObjects) (reference : Reference)
    (allowed : origin.Allowed frames objects reference) :
    origin.Allowed moreFrames moreObjects reference := by
  cases reference with
  | frame id => exact allowed.imp_right (And.imp_right fun below => below.trans_le framesLe)
  | object number => exact allowed.imp_right (And.imp_right fun below => below.trans_le objectsLe)

theorem separates (frames objects : Nat) :
    origin.renumbering.Separates (origin.Allowed frames objects) where
  frames := by
    intro first second firstAllowed secondAllowed same
    have old {id : Nat} (below : id < origin.first.heap.frames.size)
        (allowed : origin.Allowed frames objects (.frame id)) :
        id < origin.second.heap.frames.size :=
      origin.lt_second id (allowed.resolve_right fun new => not_le.mpr below new.1)
    simp only [renumbering, Session.renumbering] at same
    split at same
    · next below =>
        have firstOld := old below firstAllowed
        split at same <;> omega
    · split at same
      · next below =>
          have secondOld := old below secondAllowed
          omega
      · omega
  objects := by
    intro first second firstAllowed secondAllowed same
    simp only [renumbering, Session.renumbering] at same
    simp only [Allowed] at firstAllowed secondAllowed
    split at same <;> split at same <;> omega

namespace Beside

variable {session other : Session}

theorem next_frame (beside : origin.Beside session other) :
    origin.renumbering.frames session.heap.frames.size = other.heap.frames.size := by
  have le := beside.frames_le
  have eq := beside.frames_eq
  simp only [renumbering, Session.renumbering]
  split <;> omega

theorem next_object (beside : origin.Beside session other) :
    origin.renumbering.objects session.objectsMade = other.objectsMade := by
  have le := beside.objects_le
  have eq := beside.objects_eq
  simp only [renumbering, Session.renumbering]
  split <;> omega

/-- Events have no part in this. -/
theorem note (beside : origin.Beside session other) (events otherEvents : List Event) :
    origin.Beside { session with events } { other with events := otherEvents } :=
  ⟨beside.frames_le, beside.frames_eq, beside.objects_le, beside.objects_eq, beside.printed,
    beside.untouched, beside.corresponds⟩

theorem print (beside : origin.Beside session other) (text : String) :
    origin.Beside { session with printed := session.printed ++ text }
      { other with printed := other.printed ++ text } := by
  obtain ⟨before, printed, otherPrinted⟩ := beside.printed
  refine ⟨beside.frames_le, beside.frames_eq, beside.objects_le, beside.objects_eq,
    ⟨before ++ text, ?_, ?_⟩, beside.untouched, beside.corresponds⟩
  · rw [printed, String.append_assoc]
  · rw [otherPrinted, String.append_assoc]

theorem makeObjects (beside : origin.Beside session other) (count : Nat) :
    origin.Beside { session with objectsMade := session.objectsMade + count }
      { other with objectsMade := other.objectsMade + count } := by
  have le := beside.objects_le
  have eq := beside.objects_eq
  refine ⟨beside.frames_le, beside.frames_eq, ?_, ?_, beside.printed, beside.untouched, ?_⟩
  · exact le.trans (Nat.le_add_right _ count)
  · simp only
    omega
  · exact beside.corresponds.imp (Allowed.mono le_rfl (Nat.le_add_right _ count)) fun _ => id

theorem write (beside : origin.Beside session other) {owner : Nat}
    (inside : origin.Allowed session.heap.frames.size session.objectsMade (.frame owner))
    (name : Name) {value : Value}
    (within : value.Within (origin.Allowed session.heap.frames.size session.objectsMade)) :
    origin.Beside { session with heap := session.heap.write owner name value }
      { other with
        heap := other.heap.write (origin.renumbering.frames owner) name
          (value.renumber origin.renumbering) } := by
  constructor
  case frames_le => simpa using beside.frames_le
  case frames_eq => simpa using beside.frames_eq
  case objects_le => exact beside.objects_le
  case objects_eq => exact beside.objects_eq
  case printed => exact beside.printed
  case untouched =>
      intro id old notShared
      have ne : owner ≠ id := by
        rintro rfl
        rcases inside with shared | ⟨new, -⟩
        · exact notShared shared
        · omega
      simp only [Heap.getElem?_write, if_neg ne]
      exact beside.untouched id old notShared
  case corresponds =>
      simp only [Heap.size_write]
      exact beside.corresponds.write (separates _ _) inside name within

theorem newFrame (beside : origin.Beside session other) {outer : Nat}
    (inside : origin.Allowed session.heap.frames.size session.objectsMade (.frame outer))
    {bindings : List (Name × Value)}
    (within : ∀ binding ∈ bindings,
      binding.2.Within (origin.Allowed session.heap.frames.size session.objectsMade)) :
    origin.Beside { session with heap := (session.heap.newFrame (some outer) bindings).2 }
      { other with
        heap := (other.heap.newFrame (some (origin.renumbering.frames outer))
          (bindings.map (Prod.map id (Value.renumber origin.renumbering)))).2 } := by
  have le := beside.frames_le
  have eq := beside.frames_eq
  constructor
  case frames_le =>
      simp only [Heap.size_newFrame]
      omega
  case frames_eq =>
      simp only [Heap.size_newFrame]
      omega
  case objects_le => exact beside.objects_le
  case objects_eq => exact beside.objects_eq
  case printed => exact beside.printed
  case untouched =>
      intro id old notShared
      have ne : id ≠ session.heap.frames.size := by omega
      simp only [Heap.getElem?_newFrame, if_neg ne]
      exact beside.untouched id old notShared
  case corresponds =>
      simp only [Heap.size_newFrame]
      refine beside.corresponds.newFrame (Allowed.mono (Nat.le_succ _) le_rfl) ?_
        beside.next_frame inside within
      rintro id (shared | ⟨new, below⟩)
      · exact .inl (.inl shared)
      · rcases Nat.lt_succ_iff_lt_or_eq.mp below with earlier | last
        · exact .inl (.inr ⟨new, earlier⟩)
        · exact .inr last

end Beside

variable (origin)

def simulation : Simulation where
  World := { sessions : Session × Session // origin.Beside sessions.1 sessions.2 }
  left world := world.1.1
  right world := world.1.2
  Later world after := world.1.1.heap.frames.size ≤ after.1.1.heap.frames.size ∧
    world.1.1.objectsMade ≤ after.1.1.objectsMade
  Values world value other :=
    value.Within (origin.Allowed world.1.1.heap.frames.size world.1.1.objectsMade) ∧
      value.renumber origin.renumbering = other
  Forms world frame otherFrame form other :=
    (form.Within (origin.Allowed world.1.1.heap.frames.size world.1.1.objectsMade) ∧
        origin.Allowed world.1.1.heap.frames.size world.1.1.objectsMade (.frame frame)) ∧
      origin.renumbering.frames frame = otherFrame ∧ form.renumber origin.renumbering = other
  Faults fault other := fault = other
  later_refl _ := ⟨le_rfl, le_rfl⟩
  later_trans first second := ⟨first.1.trans second.1, first.2.trans second.2⟩
  values_later later := And.imp_left fun within =>
    within.imp (Allowed.mono later.1 later.2)
  forms_later later := And.imp_left (And.imp
    (fun within => within.imp (Allowed.mono later.1 later.2)) (Allowed.mono later.1 later.2 _))

open Simulation

variable {origin} {world : origin.simulation.World}

def allowed (world : origin.simulation.World) : Reference → Prop :=
  origin.Allowed world.1.1.heap.frames.size world.1.1.objectsMade

theorem allowed_later {after : origin.simulation.World}
    (later : origin.simulation.Later world after) (reference : Reference)
    (inside : allowed world reference) : allowed after reference :=
  Allowed.mono later.1 later.2 reference inside

theorem formLists_map {frame : Nat} {forms : List Value}
    (within : ∀ form ∈ forms, form.Within (allowed world)) (inside : allowed world (.frame frame)) :
    origin.simulation.FormLists world frame (origin.renumbering.frames frame) forms
      (forms.map (Value.renumber origin.renumbering)) :=
  List.forall₂_map_right_iff.mpr
    (List.forall₂_same.mpr fun form member => ⟨⟨within form member, inside⟩, rfl, rfl⟩)

theorem simulation_lookup (depth : Nat) {frame : Nat} (inside : allowed world (.frame frame))
    (name : Name) :
    origin.simulation.Computations world origin.simulation.Values
      (Run.lookup depth frame (.symbol name))
      (Run.lookup depth (origin.renumbering.frames frame) (.symbol name)) := by
  have corresponds := world.2.corresponds
  refine computations_of_outcome (origin.simulation.later_refl world)
    (Run.outcome_lookup depth frame (.symbol name) world.1.1)
    (Run.outcome_lookup depth (origin.renumbering.frames frame) (.symbol name) world.1.2) ?_
  rw [corresponds.lookup_map inside]
  cases found : world.1.1.heap.lookup frame (.symbol name) with
  | ok value => exact .ok ⟨corresponds.lookup_within inside found, rfl⟩
  | error fault =>
      exact .error rfl

theorem simulation_assign (depth : Nat) {frame : Nat} (inside : allowed world (.frame frame))
    (target : Value) {value : Value} (within : value.Within (allowed world)) :
    origin.simulation.Computations world (fun _ _ _ => True) (Run.assign depth frame target value)
      (Run.assign depth (origin.renumbering.frames frame) (target.renumber origin.renumbering)
        (value.renumber origin.renumbering)) := by
  have ends := Run.outcome_assign depth frame target value world.1.1
  have otherEnds := Run.outcome_assign depth (origin.renumbering.frames frame)
    (target.renumber origin.renumbering) (value.renumber origin.renumbering) world.1.2
  rw [world.2.corresponds.target_map inside] at otherEnds
  cases found : world.1.1.heap.target frame target with
  | ok owned =>
      obtain ⟨owner, name⟩ := owned
      rw [found] at ends otherEnds
      have ownerInside := world.2.corresponds.target_allowed inside found
      let after : origin.simulation.World := ⟨(_, _), world.2.write ownerInside name within⟩
      have later : origin.simulation.Later world after := ⟨by simp [after], le_rfl⟩
      exact computations_of_outcome later ends otherEnds (.ok trivial)
  | error fault =>
      rw [found] at ends otherEnds
      exact computations_of_outcome (origin.simulation.later_refl world) ends otherEnds
        (.error (Fault.ofHeap_renumber depth fault).symm)

theorem simulation_define (depth : Nat) {frame : Nat} (inside : allowed world (.frame frame))
    (key : Value) {value : Value} (within : value.Within (allowed world)) :
    origin.simulation.Computations world (fun _ _ _ => True) (Run.define depth frame key value)
      (Run.define depth (origin.renumbering.frames frame) (key.renumber origin.renumbering)
        (value.renumber origin.renumbering)) := by
  have ends := Run.outcome_define depth frame key value world.1.1
  have otherEnds := Run.outcome_define depth (origin.renumbering.frames frame)
    (key.renumber origin.renumbering) (value.renumber origin.renumbering) world.1.2
  rw [Heap.definable_renumber] at otherEnds
  cases found : Heap.definable key with
  | ok name =>
      rw [found] at ends otherEnds
      let after : origin.simulation.World := ⟨(_, _), world.2.write inside name within⟩
      have later : origin.simulation.Later world after := ⟨by simp [after], le_rfl⟩
      exact computations_of_outcome later ends otherEnds (.ok trivial)
  | error fault =>
      rw [found] at ends otherEnds
      exact computations_of_outcome (origin.simulation.later_refl world) ends otherEnds
        (.error (Fault.ofHeap_renumber depth fault).symm)

theorem simulation_makeClosure {parameters body : List Value} {frame : Nat}
    (parametersWithin : ∀ parameter ∈ parameters, parameter.Within (allowed world))
    (bodyWithin : ∀ form ∈ body, form.Within (allowed world))
    (inside : allowed world (.frame frame)) :
    origin.simulation.Computations world origin.simulation.Values
      (Run.makeClosure parameters body frame)
      (Run.makeClosure (parameters.map (Value.renumber origin.renumbering))
        (body.map (Value.renumber origin.renumbering)) (origin.renumbering.frames frame)) := by
  let after : origin.simulation.World := ⟨(_, _), world.2.makeObjects 1⟩
  have later : origin.simulation.Later world after := ⟨le_rfl, Nat.le_succ _⟩
  have made : (Value.closure world.1.1.objectsMade parameters body frame).Within
      (allowed after) := by
    refine Value.within_closure (.inr ⟨world.2.objects_le, Nat.lt_succ_self _⟩)
      (allowed_later later _ inside) ?_ ?_
    · exact fun parameter member => (parametersWithin parameter member).imp (allowed_later later)
    · exact fun form member => (bodyWithin form member).imp (allowed_later later)
  refine computations_of_outcome later (Run.outcome_makeClosure parameters body frame world.1.1)
    (Run.outcome_makeClosure _ _ _ world.1.2) (.ok ⟨made, ?_⟩)
  rw [Value.renumber_closure, world.2.next_object]

theorem simulation_extend (depth : Nat) {frame : Nat} (parameters : List Value)
    {body arguments : List Value} (bodyWithin : ∀ form ∈ body, form.Within (allowed world))
    (argumentsWithin : ∀ argument ∈ arguments, argument.Within (allowed world))
    (inside : allowed world (.frame frame)) :
    origin.simulation.Computations world
      (fun after inner otherInner => origin.simulation.FormLists after inner otherInner body
        (body.map (Value.renumber origin.renumbering)))
      (Run.extend depth frame parameters arguments)
      (Run.extend depth (origin.renumbering.frames frame)
        (parameters.map (Value.renumber origin.renumbering))
        (arguments.map (Value.renumber origin.renumbering))) := by
  have ends := Run.outcome_extend depth frame parameters arguments world.1.1
  have otherEnds := Run.outcome_extend depth (origin.renumbering.frames frame)
    (parameters.map (Value.renumber origin.renumbering))
    (arguments.map (Value.renumber origin.renumbering)) world.1.2
  rw [Heap.pairUp_map] at otherEnds
  cases paired : Heap.pairUp parameters arguments with
  | ok bindings =>
      rw [paired] at ends otherEnds
      have within (binding : Name × Value) (member : binding ∈ bindings) :
          binding.2.Within (allowed world) :=
        argumentsWithin _ (Heap.mem_of_pairUp paired binding member)
      let after : origin.simulation.World := ⟨(_, _), world.2.newFrame inside within⟩
      have later : origin.simulation.Later world after := ⟨by simp [after], le_rfl⟩
      have forms := @formLists_map origin after world.1.1.heap.frames.size body
        (fun form member => (bodyWithin form member).imp (allowed_later later))
        (.inr ⟨world.2.frames_le, by simp [after]⟩)
      rw [world.2.next_frame] at forms
      exact computations_of_outcome later ends otherEnds (.ok forms)
  | error fault =>
      rw [paired] at ends otherEnds
      exact computations_of_outcome (origin.simulation.later_refl world) ends otherEnds
        (.error (Fault.ofHeap_renumber depth fault).symm)

theorem within_dataClosed (allowed : Reference → Prop) :
    Value.DataClosed (Value.Within allowed) where
  number defined := Value.within_number (by simp [defined.object?_eq_none])
  literal word _ := Value.within_literal word
  items := Value.Within.item
  list := Value.within_list

/-- A new result takes the next number, if it takes one at all. -/
theorem simulation_makeResult {value : Value} (within : value.Within (allowed world)) :
    origin.simulation.Computations world origin.simulation.Values (Run.makeResult value)
      (Run.makeResult (value.renumber origin.renumbering)) := by
  have ends := Run.outcome_makeResult value world.1.1
  have otherEnds := Run.outcome_makeResult (value.renumber origin.renumbering) world.1.2
  rw [Value.numbersTaken_renumber] at otherEnds
  let after : origin.simulation.World :=
    ⟨(_, _), world.2.makeObjects (Run.numbersTaken value)⟩
  have later : origin.simulation.Later world after := ⟨le_rfl, Nat.le_add_right _ _⟩
  refine computations_of_outcome later ends otherEnds (.ok ⟨?_, ?_⟩)
  · refine (within.imp (allowed_later later)).numbered fun taken => ?_
    exact .inr ⟨world.2.objects_le, by simp [after, taken]⟩
  · rw [Value.numbered_renumber, world.2.next_object]

theorem simulation_callPrimitive (depth : Nat) (procedure : Primitive) {arguments : List Value}
    (within : ∀ argument ∈ arguments, argument.Within (allowed world)) :
    origin.simulation.Computations world origin.simulation.Values
      (callPrimitive depth procedure arguments)
      (callPrimitive depth procedure (arguments.map (Value.renumber origin.renumbering))) := by
  unfold callPrimitive
  rw [procedure.call_map (separates _ _) depth within]
  cases called : procedure.call depth arguments with
  | ok result =>
      have resultWithin : result.value.Within (allowed world) := by
        cases procedure with
        | builtin procedure =>
            exact Builtin.call_closed_of_nan (within_dataClosed _) (Value.within_number nofun)
              called within
        | failing => cases called
      have prints : origin.simulation.Computations world (fun _ _ _ => True)
          (Run.print result.printed) (Run.print result.printed) :=
        @computations_of_outcome _ _ _ _ _ _ _ ⟨(_, _), world.2.print result.printed⟩ _ _
          ⟨le_rfl, le_rfl⟩ (Run.outcome_print _ _) (Run.outcome_print _ _) (.ok trivial)
      refine prints.bind fun after later _ _ _ => ?_
      exact simulation_makeResult (resultWithin.imp (allowed_later later))
  | error fault =>
      simp only [map_error]
      split
      · exact computations_throw rfl
      · have notes (first second : Event) : origin.simulation.Computations world
            (fun _ _ _ => True) (Run.note first) (Run.note second) :=
          @computations_of_outcome _ _ _ _ _ _ _
            ⟨(_, _), world.2.note (first :: world.1.1.events) (second :: world.1.2.events)⟩ _ _
            ⟨le_rfl, le_rfl⟩ (Run.outcome_note first _) (Run.outcome_note second _) (.ok trivial)
        exact (notes _ _).bind fun after later _ _ _ => computations_throw rfl

theorem simulation_shapes {frame : Nat} (inside : allowed world (.frame frame))
    {special : SpecialForm} {operands : List Value}
    (within : ∀ operand ∈ operands, operand.Within (allowed world)) {shaped : ShapedForm}
    (reads : ShapedForm.Reads special operands shaped) :
    origin.simulation.Shapes world frame (origin.renumbering.frames frame) shaped
      (shaped.renumber origin.renumbering) := by
  have form {operand : Value} (operandWithin : operand.Within (allowed world)) :
      origin.simulation.Forms world frame (origin.renumbering.frames frame) operand
        (operand.renumber origin.renumbering) :=
    ⟨⟨operandWithin, inside⟩, rfl, rfl⟩
  have expansion {expanded : Value}
      (expands : ShapedForm.Reads special operands (.expansion expanded)) :
      expanded.Within (allowed world) :=
    expands.expansion_closed (fun _ _ => Value.within_named _) (Value.within_literal _)
      (fun _ => Value.within_list) within
  cases reads with
  | quote quoted => exact .quote ⟨within quoted (by simp), rfl⟩
  | assignment name value =>
      exact .assignment (form (within _ (by simp))) (form (within _ (by simp)))
  | definition name value =>
      exact .definition (form (within _ (by simp))) (form (within _ (by simp)))
  | shortCondition test consequent =>
      exact .condition (form (within _ (by simp))) (form (within _ (by simp))) .none
  | fullCondition test consequent alternative =>
      exact .condition (form (within _ (by simp))) (form (within _ (by simp)))
        (.some (form (within _ (by simp))))
  | function identity symbols filled =>
      refine .function (simulation_makeClosure ?_ ?_ inside)
      · exact (within _ List.mem_cons_self).item
      · exact fun operand member => within operand (List.mem_cons_of_mem _ member)
  | sequence forms => exact .sequence (formLists_map within inside)
  | functionDefinition described =>
      exact .expansion (form (expansion (.functionDefinition described)))
  | clauses expands => exact .expansion (form (expansion (.clauses expands)))

theorem simulation_steps {frame : Nat} (inside : allowed world (.frame frame)) {form : Value}
    (within : form.Within (allowed world)) :
    origin.simulation.Steps world frame (origin.renumbering.frames frame) form
      (form.renumber origin.renumbering) := by
  cases form with
  | number value => exact .constant rfl rfl ⟨within, rfl⟩
  | string text => exact .constant rfl rfl ⟨within, rfl⟩
  | keyword name => exact .constant rfl rfl ⟨within, rfl⟩
  | literal text => exact .constant rfl rfl ⟨within, rfl⟩
  | symbol name => exact .lookup fun depth => simulation_lookup depth inside name
  | primitive procedure => exact .stuck rfl rfl fun _ => rfl
  | foreign value => exact .stuck rfl rfl fun _ => rfl
  | closure id parameters body captured =>
      exact .stuck rfl rfl fun depth => (Value.showing_renumber depth _ _ _).symm
  | sequence identity bracket items =>
      cases bracket with
      | square => exact .constant rfl rfl ⟨within, rfl⟩
      | round =>
          cases items with
          | nil => exact .constant rfl rfl ⟨within, rfl⟩
          | cons head operands =>
              have parts := List.forall_mem_cons.mp within.item
              rw [Value.renumber_sequence, List.map_cons]
              cases heads : SpecialForm.ofHead? head with
              | none =>
                  exact .application heads (ofHead?_renumber head ▸ heads)
                    ⟨⟨parts.1, inside⟩, rfl, rfl⟩ (formLists_map parts.2 inside)
              | some special =>
                  refine .special heads (ofHead?_renumber head ▸ heads) fun depth => ?_
                  rw [ShapedForm.ofOperands_map]
                  cases shape : ShapedForm.ofOperands depth special operands with
                  | ok shaped =>
                      exact .ok (simulation_shapes inside parts.2
                        (ShapedForm.reads_of_ofOperands shape))
                  | error fault => exact .error rfl

theorem simulation_applications {procedure : Value} {arguments : List Value}
    (procedureWithin : procedure.Within (allowed world))
    (within : ∀ argument ∈ arguments, argument.Within (allowed world)) :
    origin.simulation.Applications world arguments
      (arguments.map (Value.renumber origin.renumbering)) procedure
      (procedure.renumber origin.renumbering) := by
  cases procedure with
  | primitive procedure =>
      exact .primitive fun depth => simulation_callPrimitive depth procedure within
  | closure id parameters body captured =>
      rw [Value.renumber_closure]
      refine .closure fun depth => simulation_extend depth parameters ?_ within
        (procedureWithin _ .frame)
      exact fun form member reference mentions => procedureWithin _ (.body member mentions)
  | number | sequence =>
      exact .stuck rfl rfl fun depth => (Value.showing_renumber depth _ _ _).symm
  | _ => exact .stuck rfl rfl fun _ => rfl

/-- The rules of evaluation do the same in both sessions. -/
theorem simulation_lawful : origin.simulation.Lawful where
  depthExceeded := rfl
  emptySequence := rfl
  ok := ⟨Value.within_named _, rfl⟩
  falsehood := ⟨Value.within_literal _, rfl⟩
  truthy := by
    rintro world value _ ⟨-, rfl⟩
    exact (Value.isTruthy_renumber value).symm
  steps := by
    rintro world frame _ form _ ⟨⟨within, inside⟩, rfl, rfl⟩
    exact simulation_steps inside within
  assign := by
    rintro world frame _ target _ value _ depth ⟨⟨-, inside⟩, rfl, ⟨⟩⟩ ⟨within, rfl⟩
    exact simulation_assign depth inside (.symbol target) within
  define := by
    rintro world frame _ name _ value _ depth ⟨⟨-, inside⟩, rfl, ⟨⟩⟩ ⟨within, rfl⟩
    exact simulation_define depth inside (.symbol name) within
  applications := by
    rintro world procedure _ arguments others ⟨procedureWithin, rfl⟩ related
    obtain ⟨within, same⟩ := (List.forall₂_and_left _ _).mp related
    obtain rfl : arguments.map (Value.renumber origin.renumbering) = others :=
      List.forall₂_eq_eq_eq ▸ List.forall₂_map_left_iff.mpr same
    exact simulation_applications procedureWithin within

end Origin

end Evaluation

end TinyLisp
