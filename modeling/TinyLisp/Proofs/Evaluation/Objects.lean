import TinyLisp.Proofs.Evaluation.Simulation
import TinyLisp.Proofs.Evaluation.Shapes
import TinyLisp.Proofs.Heap.Bindings
import TinyLisp.Proofs.Value.Objects

/-!
# Evaluation gives each identity once

A session is kept with a table of the sequences that identities have been given to. Evaluation may
enter new sequences in the table, and every value that it binds or returns is known to it. This is a
simulation of every run by itself, with the table beside the session.
-/

namespace TinyLisp

/-- A table knows all values that a session has bound, and has nothing for the numbers that the
session gives next. -/
structure Session.Keeps (session : Session) (objects : Objects) : Prop where
  fresh : objects.Fresh session.sequencesRead session.objectsMade
  bound : session.heap.All (Value.Known objects)

namespace Evaluation

open Simulation

/-- Every run beside itself, with a table that only grows. -/
def objects : Simulation where
  World := { world : Session × Objects // world.1.Keeps world.2 }
  left world := world.1.1
  right world := world.1.1
  Later world after := after.1.2.Extends world.1.2
  Values world value other := value.Known world.1.2 ∧ value = other
  Forms world frame otherFrame form other :=
    form.Known world.1.2 ∧ frame = otherFrame ∧ form = other
  Faults fault other := fault = other
  later_refl _ _ _ := id
  later_trans first later := later.trans first
  values_later later := And.imp_left (Value.Known.mono · later)
  forms_later later := And.imp_left (Value.Known.mono · later)

variable {world : objects.World}

/-- An operation that leaves a session for which there is a larger table. -/
theorem objects_computations {α : Type} {Match : objects.World → α → α → Prop}
    {computation : Run α} {result : Except Fault α} {session : Session} {more : Objects}
    (ends : computation.outcome world.1.1 = (result, session))
    (later : more.Extends world.1.2) (keeps : session.Keeps more)
    (related : ∀ value, result = .ok value → Match ⟨(session, more), keeps⟩ value value) :
    objects.Computations world Match computation computation :=
  @computations_of_outcome _ _ _ _ _ _ _ ⟨(session, more), keeps⟩ _ _ later ends ends
    (results_self related fun _ _ => rfl)

/-- An operation that needs no other table. -/
theorem objects_kept {α : Type} {Match : objects.World → α → α → Prop} {computation : Run α}
    {result : Except Fault α} {session : Session}
    (ends : computation.outcome world.1.1 = (result, session))
    (keeps : session.Keeps world.1.2)
    (related : ∀ value, result = .ok value → Match ⟨(session, world.1.2), keeps⟩ value value) :
    objects.Computations world Match computation computation :=
  objects_computations ends (fun _ _ => id) keeps related

theorem objects_failed {α : Type} {Match : objects.World → α → α → Prop} {computation : Run α}
    {fault : Fault} (ends : computation.outcome world.1.1 = (.error fault, world.1.1)) :
    objects.Computations world Match computation computation :=
  objects_kept ends world.2 nofun

theorem objects_formLists {frame : Nat} {forms : List Value}
    (known : ∀ form ∈ forms, form.Known world.1.2) :
    objects.FormLists world frame frame forms forms :=
  formLists_self fun form member => ⟨known form member, rfl, rfl⟩

theorem known_of_formLists {frame otherFrame : Nat} {forms others : List Value}
    (related : objects.FormLists world frame otherFrame forms others) :
    (∀ form ∈ forms, form.Known world.1.2) ∧ forms = others := by
  obtain ⟨known, rest⟩ := (List.forall₂_and_left _ _).mp related
  have same : List.Forall₂ Eq forms others := rest.imp fun _ _ forms => forms.2
  exact ⟨known, List.forall₂_eq_eq_eq ▸ same⟩

theorem known_of_values {values others : List Value}
    (related : List.Forall₂ (objects.Values world) values others) :
    (∀ value ∈ values, value.Known world.1.2) ∧ values = others := by
  obtain ⟨known, same⟩ := (List.forall₂_and_left _ _).mp related
  exact ⟨known, List.forall₂_eq_eq_eq ▸ same⟩

theorem objects_lookup (depth frame : Nat) (key : Value) :
    objects.Computations world objects.Values (Run.lookup depth frame key)
      (Run.lookup depth frame key) := by
  have ends := Run.outcome_lookup depth frame key world.1.1
  cases found : world.1.1.heap.lookup frame key with
  | ok value =>
      rw [found] at ends
      refine objects_kept ends world.2 ?_
      rintro _ ⟨⟩
      exact ⟨world.2.bound.lookup found, rfl⟩
  | error fault =>
      rw [found] at ends
      exact objects_failed ends

theorem objects_assign (depth frame : Nat) (target : Value) {value : Value}
    (known : value.Known world.1.2) :
    objects.Computations world (fun _ _ _ => True) (Run.assign depth frame target value)
      (Run.assign depth frame target value) := by
  have ends := Run.outcome_assign depth frame target value world.1.1
  split at ends
  · next owner name _ =>
      exact objects_kept ends ⟨world.2.fresh, world.2.bound.write owner name known⟩
        fun _ _ => trivial
  · exact objects_failed ends

theorem objects_define (depth frame : Nat) (key : Value) {value : Value}
    (known : value.Known world.1.2) :
    objects.Computations world (fun _ _ _ => True) (Run.define depth frame key value)
      (Run.define depth frame key value) := by
  have ends := Run.outcome_define depth frame key value world.1.1
  split at ends
  · next name _ =>
      exact objects_kept ends ⟨world.2.fresh, world.2.bound.write frame name known⟩
        fun _ _ => trivial
  · exact objects_failed ends

theorem objects_makeClosure {parameters body : List Value} (frame : Nat)
    (symbols : ∀ parameter ∈ parameters, ∃ name, parameter = .symbol name)
    (known : ∀ form ∈ body, form.Known world.1.2) :
    objects.Computations world objects.Values (Run.makeClosure parameters body frame)
      (Run.makeClosure parameters body frame) := by
  refine objects_kept (Run.outcome_makeClosure parameters body frame world.1.1)
    ⟨world.2.fresh.skip 1, world.2.bound⟩ ?_
  rintro _ ⟨⟩
  exact ⟨.closure _ frame symbols known, rfl⟩

theorem objects_extend (depth : Nat) {frame : Nat} {parameters body arguments : List Value}
    (code : ∀ form ∈ body, form.Known world.1.2)
    (known : ∀ argument ∈ arguments, argument.Known world.1.2) :
    objects.Computations world
      (fun after inner otherInner => objects.FormLists after inner otherInner body body)
      (Run.extend depth frame parameters arguments)
      (Run.extend depth frame parameters arguments) := by
  have ends := Run.outcome_extend depth frame parameters arguments world.1.1
  split at ends
  · next bindings paired =>
      have held := fun binding member => known _ (Heap.mem_of_pairUp paired binding member)
      refine objects_kept ends ⟨world.2.fresh, world.2.bound.newFrame (some frame) held⟩ ?_
      rintro inner ⟨⟩
      exact objects_formLists code
  · exact objects_failed ends

/-- A new list that a procedure makes is entered in the table. -/
theorem objects_callPrimitive (depth : Nat) (procedure : Builtin) {arguments : List Value}
    (known : ∀ argument ∈ arguments, argument.Known world.1.2) :
    objects.Computations world objects.Values
      (callPrimitive depth (.builtin procedure) arguments)
      (callPrimitive depth (.builtin procedure) arguments) := by
  unfold callPrimitive
  split
  · next result called =>
      have value := Builtin.call_closed (Value.known_dataClosed _) called known
      have ends := Run.outcome_bind_ok (Run.outcome_print result.printed world.1.1)
        fun _ => Run.makeResult result.value
      rw [Run.outcome_makeResult] at ends
      obtain ⟨more, later, fresh, numbered⟩ := Value.exists_numbered value world.2.fresh
      refine objects_computations ends later
        ⟨fresh, world.2.bound.imp fun _ known => known.mono later⟩ ?_
      rintro _ ⟨⟩
      exact ⟨numbered, rfl⟩
  · next fault _ =>
      split
      · exact computations_throw rfl
      · have ends := Run.outcome_bind_ok
          (Run.outcome_note (.primitiveFailed (Primitive.builtin procedure).name arguments)
            world.1.1)
          fun _ => (throw (.primitiveFailed (Primitive.builtin procedure).name fault.message) :
            Run Value)
        exact objects_kept ends ⟨world.2.fresh, world.2.bound⟩ nofun

theorem objects_shapes (frame : Nat) {special : SpecialForm} {operands : List Value}
    (known : ∀ operand ∈ operands, operand.Known world.1.2) {shaped : ShapedForm}
    (reads : ShapedForm.Reads special operands shaped) :
    objects.Shapes world frame frame shaped shaped := by
  apply shapes_self reads
  case values => exact fun operand member => ⟨known operand member, rfl⟩
  case forms => exact fun operand member => ⟨known operand member, rfl, rfl⟩
  case closures =>
      rintro identity parameters body - rfl symbols -
      exact objects_makeClosure frame symbols (List.forall_mem_cons.mp known).2
  case expansions =>
      intro form expansion
      have formKnown : form.Known world.1.2 :=
        expansion.expansion_closed (fun _ _ => .symbol _) (.literal _) (fun _ => .list) known
      exact ⟨formKnown, rfl, rfl⟩

theorem objects_steps {frame : Nat} {form : Value} (known : form.Known world.1.2) :
    objects.Steps world frame frame form form := by
  apply steps_self
  case constants => exact fun _ => ⟨known, rfl⟩
  case lookups => exact fun _ depth => objects_lookup depth frame _
  case faults => exact fun _ _ => rfl
  case applications =>
      rintro identity head operands rfl -
      exact fun item member => ⟨known.items item member, rfl, rfl⟩
  case specials =>
      rintro identity head operands special rfl - depth
      refine results_self (fun shaped shape => ?_) fun _ _ => rfl
      exact objects_shapes frame (List.forall_mem_cons.mp known.items).2
        (ShapedForm.reads_of_ofOperands shape)

/-- The rules of evaluation keep a table of all sequences that have an identity. -/
theorem objects_lawful : objects.Lawful where
  depthExceeded := rfl
  emptySequence := rfl
  ok := ⟨.symbol _, rfl⟩
  falsehood := ⟨.literal _, rfl⟩
  truthy := by
    rintro world value _ ⟨-, rfl⟩
    rfl
  steps := by
    rintro world frame _ form _ ⟨known, rfl, rfl⟩
    exact objects_steps known
  assign := by
    rintro world frame _ target _ value _ depth ⟨-, rfl, ⟨⟩⟩ ⟨known, rfl⟩
    exact objects_assign depth frame (.symbol target) known
  define := by
    rintro world frame _ name _ value _ depth ⟨-, rfl, ⟨⟩⟩ ⟨known, rfl⟩
    exact objects_define depth frame (.symbol name) known
  applications := by
    rintro world procedure _ arguments otherArguments ⟨known, rfl⟩ related
    obtain ⟨argumentsKnown, rfl⟩ := known_of_values related
    cases known with
    | builtin procedure =>
        exact .primitive fun depth => objects_callPrimitive depth procedure argumentsKnown
    | closure id frame symbols code =>
        exact .closure fun depth => objects_extend depth code argumentsKnown
    | _ => exact .stuck rfl rfl fun _ => rfl

end Evaluation

end TinyLisp
