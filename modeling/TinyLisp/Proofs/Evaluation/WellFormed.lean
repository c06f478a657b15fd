import TinyLisp.Proofs.Evaluation.Invariant
import TinyLisp.Proofs.Evaluation.Shapes
import TinyLisp.Proofs.Heap.Bindings
import TinyLisp.Proofs.Value.WellFormed

/-!
# Evaluation keeps sessions well-formed

A session is well-formed if all values that its frames bind are. Evaluating a form that the reader
made, in a frame that exists, leads to a well-formed session again and to a well-formed value, or to
a fault. This is a simulation of every run by itself.
-/

namespace TinyLisp

/-- There is a global frame, and all bound values are well-formed. -/
structure Session.WellFormed (session : Session) : Prop where
  global : 0 < session.heap.frames.size
  bound : session.heap.All (Value.WellFormed session.heap.frames.size)

namespace Evaluation

/-- Well-formed sessions, with forms made by the reader. -/
def wellFormed : Invariant where
  Sessions := Session.WellFormed
  Values session value := value.WellFormed session.heap.frames.size
  Forms session frame form := form.ReaderMade ∧ frame < session.heap.frames.size
  Later session after := session.heap.frames.size ≤ after.heap.frames.size
  later_refl _ := Nat.le_refl _
  later_trans := Nat.le_trans
  values_later later := Value.WellFormed.mono later
  forms_later later := And.imp_right fun inside => Nat.lt_of_lt_of_le inside later

open Invariant Simulation

variable {world : wellFormed.simulation.World}

theorem wellFormed_lookup (depth frame : Nat) (key : Value) :
    wellFormed.simulation.Computations world wellFormed.simulation.Values
      (Run.lookup depth frame key) (Run.lookup depth frame key) := by
  refine Invariant.computations (Run.outcome_lookup depth frame key world.1) world.2 le_rfl ?_
  intro value found
  cases looked : world.1.heap.lookup frame key with
  | ok bound =>
      rw [looked] at found
      cases found
      exact ⟨world.2.bound.lookup looked, rfl⟩
  | error fault =>
      rw [looked] at found
      cases found

theorem wellFormed_write {session : Session} (wellFormed : session.WellFormed) (frame : Nat)
    (name : Name) {value : Value} (valueWellFormed : value.WellFormed session.heap.frames.size) :
    { session with heap := session.heap.write frame name value }.WellFormed where
  global := by
    simpa using wellFormed.global
  bound := by
    simpa using wellFormed.bound.write frame name valueWellFormed

theorem wellFormed_assign (depth frame : Nat) (target : Value) {value : Value}
    (valueWellFormed : value.WellFormed world.1.heap.frames.size) :
    wellFormed.simulation.Computations world (fun _ _ _ => True)
      (Run.assign depth frame target value) (Run.assign depth frame target value) := by
  have ends := Run.outcome_assign depth frame target value world.1
  split at ends
  · next owner name _ =>
      exact Invariant.computations ends (wellFormed_write world.2 owner name valueWellFormed)
        (Heap.size_write ..).ge fun _ _ => trivial
  · exact Invariant.computations ends world.2 le_rfl fun _ _ => trivial

theorem wellFormed_define (depth frame : Nat) (key : Value) {value : Value}
    (valueWellFormed : value.WellFormed world.1.heap.frames.size) :
    wellFormed.simulation.Computations world (fun _ _ _ => True)
      (Run.define depth frame key value) (Run.define depth frame key value) := by
  have ends := Run.outcome_define depth frame key value world.1
  split at ends
  · next name _ =>
      exact Invariant.computations ends (wellFormed_write world.2 frame name valueWellFormed)
        (Heap.size_write ..).ge fun _ _ => trivial
  · exact Invariant.computations ends world.2 le_rfl fun _ _ => trivial

theorem wellFormed_makeClosure {parameters body : List Value} {frame : Nat}
    (symbols : ∀ parameter ∈ parameters, ∃ name, parameter = .symbol name) (filled : body ≠ [])
    (made : ∀ form ∈ body, form.ReaderMade) (inside : frame < world.1.heap.frames.size) :
    wellFormed.simulation.Computations world wellFormed.simulation.Values
      (Run.makeClosure parameters body frame) (Run.makeClosure parameters body frame) := by
  have ends := Run.outcome_makeClosure parameters body frame world.1
  refine Invariant.computations ends ⟨world.2.global, world.2.bound⟩ le_rfl ?_
  rintro _ ⟨⟩
  exact ⟨.closure _ symbols filled made inside, rfl⟩

/-- A closure is entered in a new frame, where its body is made by the reader. -/
theorem wellFormed_extend (depth : Nat) {frame : Nat} {parameters body arguments : List Value}
    (made : ∀ form ∈ body, form.ReaderMade)
    (argumentsWellFormed : ∀ argument ∈ arguments,
      argument.WellFormed world.1.heap.frames.size) :
    wellFormed.simulation.Computations world
      (fun after inner otherInner =>
        wellFormed.simulation.FormLists after inner otherInner body body)
      (Run.extend depth frame parameters arguments)
      (Run.extend depth frame parameters arguments) := by
  have ends := Run.outcome_extend depth frame parameters arguments world.1
  split at ends
  · next bindings paired =>
      have held (binding : Name × Value) (member : binding ∈ bindings) :
          binding.2.WellFormed world.1.heap.frames.size :=
        argumentsWellFormed _ (Heap.mem_of_pairUp paired binding member)
      have bound := (world.2.bound.newFrame (some frame) held).imp fun value =>
        Value.WellFormed.mono (Nat.le_succ _)
      have later : world.1.heap.frames.size ≤
          (world.1.heap.newFrame (some frame) bindings).2.frames.size := by
        simp
      refine Invariant.computations ends ⟨by simp, by simpa using bound⟩ later ?_
      rintro inner ⟨⟩
      refine formLists fun form member => ⟨made form member, ?_⟩
      simp [Heap.newFrame]
  · refine Invariant.computations ends world.2 le_rfl ?_
    rintro _ ⟨⟩

theorem wellFormed_callPrimitive (depth : Nat) (procedure : Builtin) {arguments : List Value}
    (argumentsWellFormed : ∀ argument ∈ arguments,
      argument.WellFormed world.1.heap.frames.size) :
    wellFormed.simulation.Computations world wellFormed.simulation.Values
      (callPrimitive depth (.builtin procedure) arguments)
      (callPrimitive depth (.builtin procedure) arguments) := by
  refine computations_callPrimitive ?_ ?_ (Value.wellFormed_dataClosed _) (.number _)
    (fun number wellFormed => wellFormed.numbered number) argumentsWellFormed
  · rintro ⟨_, _, _, _, _⟩ rfl
    exact ⟨world.2.global, world.2.bound⟩
  · rintro ⟨_, _, _, _, _⟩ rfl
    exact le_rfl

/-- The parts of a special form that the reader made are made by the reader. -/
theorem wellFormed_shapes {frame : Nat} {special : SpecialForm} {operands : List Value}
    (made : ∀ operand ∈ operands, operand.ReaderMade) (inside : frame < world.1.heap.frames.size)
    {shaped : ShapedForm} (reads : ShapedForm.Reads special operands shaped) :
    wellFormed.simulation.Shapes world frame frame shaped shaped := by
  apply shapes_self reads
  case values => exact fun operand member => ⟨(made operand member).wellFormed _, rfl⟩
  case forms => exact fun operand member => ⟨⟨made operand member, inside⟩, rfl, rfl⟩
  case closures =>
      rintro identity parameters body - rfl symbols filled
      refine wellFormed_makeClosure symbols filled (fun form member => ?_) inside
      exact made form (List.mem_cons_of_mem _ member)
  case expansions =>
      intro form expansion
      have formMade : form.ReaderMade :=
        expansion.expansion_closed (fun _ _ => .named _) (.literal (by decide))
          (fun _ => .list) made
      exact ⟨⟨formMade, inside⟩, rfl, rfl⟩

theorem wellFormed_steps {frame : Nat} {form : Value} (made : form.ReaderMade)
    (inside : frame < world.1.heap.frames.size) :
    wellFormed.simulation.Steps world frame frame form form := by
  apply steps_self
  case constants => exact fun _ => ⟨made.wellFormed _, rfl⟩
  case lookups => exact fun _ depth => wellFormed_lookup depth frame _
  case faults => exact fun _ _ => rfl
  case applications =>
      rintro identity head operands rfl -
      exact fun item member => ⟨⟨made.items item member, inside⟩, rfl, rfl⟩
  case specials =>
      rintro identity head operands special rfl - depth
      refine results_self (fun shaped shape => ?_) fun _ _ => rfl
      exact wellFormed_shapes (List.forall_mem_cons.mp made.items).2 inside
        (ShapedForm.reads_of_ofOperands shape)

/-- The rules of evaluation lead from well-formed sessions to well-formed sessions. -/
theorem wellFormed_lawful : wellFormed.simulation.Lawful where
  depthExceeded := rfl
  emptySequence := rfl
  ok := ⟨.symbol _, rfl⟩
  falsehood := ⟨.literal (by decide), rfl⟩
  truthy := by
    rintro world value _ ⟨-, rfl⟩
    rfl
  steps := by
    rintro world frame _ form _ ⟨⟨made, inside⟩, rfl, rfl⟩
    exact wellFormed_steps made inside
  assign := by
    rintro world frame _ target _ value _ depth ⟨-, rfl, ⟨⟩⟩ ⟨valueWellFormed, rfl⟩
    exact wellFormed_assign depth frame (.symbol target) valueWellFormed
  define := by
    rintro world frame _ name _ value _ depth ⟨-, rfl, ⟨⟩⟩ ⟨valueWellFormed, rfl⟩
    exact wellFormed_define depth frame (.symbol name) valueWellFormed
  applications := by
    rintro world procedure _ arguments otherArguments ⟨procedureWellFormed, rfl⟩ related
    obtain ⟨argumentsWellFormed, rfl⟩ := forall_of_values related
    cases procedureWellFormed with
    | builtin procedure =>
        exact .primitive fun depth => wellFormed_callPrimitive depth procedure argumentsWellFormed
    | closure id symbols filled made exists_frame =>
        exact .closure fun depth => wellFormed_extend depth made argumentsWellFormed
    | _ => exact .stuck rfl rfl fun _ => rfl

end Evaluation

end TinyLisp
