import TinyLisp.Proofs.Evaluation.Simulation

/-!
# Runs in lockstep

Two sessions with the same heap, in which as many objects have been made, go through every run side
by side: the run ends alike in both, and changes both alike. They may differ in what evaluation does
not look at, and a relation between them may say more about them, as long as each single change
keeps it. A property of one session is a relation of the session to itself.
-/

namespace TinyLisp

/-- The frame that an activation evaluates forms in. A procedure that is applied has its forms
evaluated in a frame that is not there yet. -/
def Activation.frame? : Activation → Option Nat
  | .form _ frame | .argument _ frame | .special _ _ frame | .sequence _ frame => some frame
  | .apply .. | .enter .. => none

namespace Evaluation

/-- A relation between sessions that every change in both of them keeps. Names are defined in some
frames only, and all frames that are made are among these. -/
structure Lockstep where
  Beside : Session → Session → Prop
  Own : Nat → Prop
  heap_eq : ∀ {session other}, Beside session other → session.heap = other.heap
  objects_eq : ∀ {session other}, Beside session other → session.objectsMade = other.objectsMade
  own_next : ∀ {session other}, Beside session other → Own session.heap.frames.size
  note : ∀ {session other} (event : Event), Beside session other →
    Beside { session with events := event :: session.events }
      { other with events := event :: other.events }
  print : ∀ {session other} (text : String), Beside session other →
    Beside { session with printed := session.printed ++ text }
      { other with printed := other.printed ++ text }
  number : ∀ {session other} (count : Nat), Beside session other →
    Beside { session with objectsMade := session.objectsMade + count }
      { other with objectsMade := other.objectsMade + count }
  assign : ∀ {session other frame key owner name} (value : Value), Beside session other →
    session.heap.target frame key = .ok (owner, name) →
      Beside { session with heap := session.heap.write owner name value }
        { other with heap := other.heap.write owner name value }
  define : ∀ {session other frame} (name : Name) (value : Value), Beside session other →
    Own frame → Beside { session with heap := session.heap.write frame name value }
      { other with heap := other.heap.write frame name value }
  newFrame : ∀ {session other} (outer : Nat) (bindings : List (Name × Value)),
    Beside session other →
      Beside { session with heap := (session.heap.newFrame (some outer) bindings).2 }
        { other with heap := (other.heap.newFrame (some outer) bindings).2 }

namespace Lockstep

/-- Runs of the same form in the same frame, in sessions beside each other. -/
def simulation (lockstep : Lockstep) : Simulation where
  World := { sessions : Session × Session // lockstep.Beside sessions.1 sessions.2 }
  left world := world.1.1
  right world := world.1.2
  Later _ _ := True
  Values _ value other := value = other
  Forms _ frame otherFrame form other := lockstep.Own frame ∧ frame = otherFrame ∧ form = other
  Faults fault other := fault = other
  later_refl _ := trivial
  later_trans _ _ := trivial
  values_later _ := id
  forms_later _ := id

variable {lockstep : Lockstep} {world : lockstep.simulation.World}

open Simulation

/-- An operation that ends alike in both sessions and leaves them beside each other. -/
theorem computations {α : Type} {Match : lockstep.simulation.World → α → α → Prop}
    {computation : Run α} {result : Except Fault α} {session other : Session}
    (ends : computation.outcome world.1.1 = (result, session))
    (otherEnds : computation.outcome world.1.2 = (result, other))
    (beside : lockstep.Beside session other)
    (related : ∀ value, result = .ok value → Match ⟨(session, other), beside⟩ value value) :
    lockstep.simulation.Computations world Match computation computation :=
  @computations_of_outcome _ _ _ _ _ _ _ ⟨(session, other), beside⟩ _ _ trivial ends otherEnds
    (results_self related fun _ _ => rfl)

theorem formLists {frame : Nat} (own : lockstep.Own frame) (forms : List Value) :
    lockstep.simulation.FormLists world frame frame forms forms :=
  formLists_self fun _ _ => ⟨own, rfl, rfl⟩

theorem simulation_lookup (depth frame : Nat) (key : Value) :
    lockstep.simulation.Computations world lockstep.simulation.Values
      (Run.lookup depth frame key) (Run.lookup depth frame key) := by
  have otherEnds := Run.outcome_lookup depth frame key world.1.2
  rw [← lockstep.heap_eq world.2] at otherEnds
  exact computations (Run.outcome_lookup depth frame key world.1.1) otherEnds world.2 fun _ _ => rfl

theorem simulation_assign (depth frame : Nat) (key value : Value) :
    lockstep.simulation.Computations world (fun _ _ _ => True)
      (Run.assign depth frame key value) (Run.assign depth frame key value) := by
  have ends := Run.outcome_assign depth frame key value world.1.1
  have otherEnds := Run.outcome_assign depth frame key value world.1.2
  rw [← lockstep.heap_eq world.2] at otherEnds
  cases found : world.1.1.heap.target frame key with
  | ok owned =>
      rw [found] at ends otherEnds
      have beside := lockstep.assign value world.2 found
      rw [← lockstep.heap_eq world.2] at beside
      exact computations ends otherEnds beside fun _ _ => trivial
  | error fault =>
      rw [found] at ends otherEnds
      exact computations ends otherEnds world.2 fun _ _ => trivial

theorem simulation_define (depth : Nat) {frame : Nat} (own : lockstep.Own frame)
    (key value : Value) :
    lockstep.simulation.Computations world (fun _ _ _ => True)
      (Run.define depth frame key value) (Run.define depth frame key value) := by
  have ends := Run.outcome_define depth frame key value world.1.1
  have otherEnds := Run.outcome_define depth frame key value world.1.2
  cases found : Heap.definable key with
  | ok name =>
      rw [found] at ends otherEnds
      exact computations ends otherEnds (lockstep.define name value world.2 own) fun _ _ => trivial
  | error fault =>
      rw [found] at ends otherEnds
      exact computations ends otherEnds world.2 fun _ _ => trivial

theorem simulation_makeClosure (parameters body : List Value) (frame : Nat) :
    lockstep.simulation.Computations world lockstep.simulation.Values
      (Run.makeClosure parameters body frame) (Run.makeClosure parameters body frame) := by
  have otherEnds := Run.outcome_makeClosure parameters body frame world.1.2
  have beside := lockstep.number 1 world.2
  rw [← lockstep.objects_eq world.2] at otherEnds beside
  exact computations (Run.outcome_makeClosure parameters body frame world.1.1) otherEnds beside
    fun _ _ => rfl

/-- The frame that is made has the same number in both sessions, and names may be defined in it. -/
theorem simulation_extend (depth frame : Nat) (parameters body arguments : List Value) :
    lockstep.simulation.Computations world
      (fun after inner otherInner =>
        lockstep.simulation.FormLists after inner otherInner body body)
      (Run.extend depth frame parameters arguments)
      (Run.extend depth frame parameters arguments) := by
  have ends := Run.outcome_extend depth frame parameters arguments world.1.1
  have otherEnds := Run.outcome_extend depth frame parameters arguments world.1.2
  cases paired : Heap.pairUp parameters arguments with
  | ok bindings =>
      rw [paired] at ends otherEnds
      have beside := lockstep.newFrame frame bindings world.2
      rw [← lockstep.heap_eq world.2] at otherEnds beside
      refine computations ends otherEnds beside ?_
      rintro inner ⟨⟩
      exact formLists (lockstep.own_next world.2) body
  | error fault =>
      rw [paired] at ends otherEnds
      refine computations ends otherEnds world.2 ?_
      rintro _ ⟨⟩

theorem simulation_callPrimitive (depth : Nat) (procedure : Primitive) (arguments : List Value) :
    lockstep.simulation.Computations world lockstep.simulation.Values
      (callPrimitive depth procedure arguments) (callPrimitive depth procedure arguments) := by
  unfold callPrimitive
  split
  · next result _ =>
      have prints : lockstep.simulation.Computations world (fun _ _ _ => True)
          (Run.print result.printed) (Run.print result.printed) :=
        computations (Run.outcome_print _ _) (Run.outcome_print _ _)
          (lockstep.print result.printed world.2) fun _ _ => trivial
      refine prints.bind fun after _ _ _ _ => ?_
      have otherEnds := Run.outcome_makeResult result.value after.1.2
      have beside := lockstep.number (Run.numbersTaken result.value) after.2
      rw [← lockstep.objects_eq after.2] at otherEnds beside
      exact computations (Run.outcome_makeResult result.value after.1.1) otherEnds beside
        fun _ _ => rfl
  · split
    · exact computations_throw rfl
    · next fault _ _ =>
        have notes : lockstep.simulation.Computations world (fun _ _ _ => True)
            (Run.note (.primitiveFailed procedure.name arguments))
            (Run.note (.primitiveFailed procedure.name arguments)) :=
          computations (Run.outcome_note _ _) (Run.outcome_note _ _) (lockstep.note _ world.2)
            fun _ _ => trivial
        exact notes.bind fun _ _ _ _ _ => computations_throw rfl

/-- Nothing is asked of a special form but that its frame is one to define names in. -/
theorem simulation_shapes {frame : Nat} (own : lockstep.Own frame) {special : SpecialForm}
    {operands : List Value} {shaped : ShapedForm}
    (reads : ShapedForm.Reads special operands shaped) :
    lockstep.simulation.Shapes world frame frame shaped shaped := by
  apply shapes_self reads
  case values => exact fun _ _ => rfl
  case forms => exact fun _ _ => ⟨own, rfl, rfl⟩
  case closures => exact fun _ _ _ _ => simulation_makeClosure _ _ frame
  case expansions => exact fun _ => ⟨own, rfl, rfl⟩

theorem simulation_results {frame : Nat} (own : lockstep.Own frame) (depth : Nat)
    (special : SpecialForm) (operands : List Value) :
    lockstep.simulation.Results (lockstep.simulation.Shapes world frame frame)
      (ShapedForm.ofOperands depth special operands)
      (ShapedForm.ofOperands depth special operands) :=
  results_self (fun _ shape => simulation_shapes own (ShapedForm.reads_of_ofOperands shape))
    fun _ _ => rfl

theorem simulation_steps {frame : Nat} (own : lockstep.Own frame) (form : Value) :
    lockstep.simulation.Steps world frame frame form form := by
  apply steps_self
  case constants => exact fun _ => rfl
  case lookups => exact fun _ depth => simulation_lookup depth frame _
  case faults => exact fun _ _ => rfl
  case applications => exact fun _ _ _ _ => ⟨own, rfl, rfl⟩
  case specials => exact fun _ _ depth => simulation_results own depth _ _

theorem simulation_applications (procedure : Value) (arguments : List Value) :
    lockstep.simulation.Applications world arguments arguments procedure procedure := by
  cases procedure with
  | primitive primitive =>
      exact .primitive fun depth => simulation_callPrimitive depth primitive arguments
  | closure id parameters body frame =>
      exact .closure fun depth => simulation_extend depth frame parameters body arguments
  | _ => exact .stuck rfl rfl fun _ => rfl

theorem simulation_lawful (lockstep : Lockstep) : lockstep.simulation.Lawful where
  depthExceeded := rfl
  emptySequence := rfl
  ok := rfl
  falsehood := rfl
  truthy := by
    rintro world value _ rfl
    rfl
  steps := by
    rintro world frame _ form _ ⟨own, rfl, rfl⟩
    exact simulation_steps own form
  assign := by
    rintro world frame _ target _ value _ depth ⟨own, rfl, ⟨⟩⟩ rfl
    exact simulation_assign depth frame (.symbol target) value
  define := by
    rintro world frame _ name _ value _ depth ⟨own, rfl, ⟨⟩⟩ rfl
    exact simulation_define depth own (.symbol name) value
  applications := by
    rintro world procedure _ arguments otherArguments rfl related
    obtain rfl : arguments = otherArguments := List.forall₂_eq_eq_eq ▸ related
    exact simulation_applications procedure arguments

theorem activations_self (activation : Activation)
    (own : ∀ frame ∈ activation.frame?, lockstep.Own frame) :
    lockstep.simulation.Activations world activation activation := by
  cases activation with
  | form form frame => exact .form ⟨own frame rfl, rfl, rfl⟩
  | argument form frame => exact .argument ⟨own frame rfl, rfl, rfl⟩
  | special special operands frame =>
      exact .special fun depth => simulation_results (own frame rfl) depth special operands
  | sequence forms frame => exact .sequence (formLists (own frame rfl) forms)
  | apply procedure arguments => exact .apply rfl (List.forall₂_same.mpr fun _ _ => rfl)
  | enter parameters body arguments frame =>
      exact .enter fun depth => simulation_extend depth frame parameters body arguments

/-- A run ends alike in sessions beside each other, and leaves them beside each other. -/
theorem outcome_run (lockstep : Lockstep) (depth : Nat) (activation : Activation)
    (own : ∀ frame ∈ activation.frame?, lockstep.Own frame) {session other : Session}
    (beside : lockstep.Beside session other) :
    ((run depth activation).outcome session).1 = ((run depth activation).outcome other).1 ∧
      lockstep.Beside ((run depth activation).outcome session).2
        ((run depth activation).outcome other).2 := by
  let start : lockstep.simulation.World := ⟨(session, other), beside⟩
  obtain ⟨⟨⟨after, otherAfter⟩, afterBeside⟩, -, left, right, results⟩ :=
    lockstep.simulation_lawful.computations_run depth (@activations_self _ start activation own)
  refine ⟨?_, left ▸ right ▸ afterBeside⟩
  change Results _ _ ((run depth activation).outcome session).1
    ((run depth activation).outcome other).1 at results
  generalize ((run depth activation).outcome session).1 = result at results
  generalize ((run depth activation).outcome other).1 = otherResult at results
  cases results with
  | ok related => exact congrArg Except.ok related
  | error related => exact congrArg Except.error related

end Lockstep

end Evaluation

end TinyLisp
