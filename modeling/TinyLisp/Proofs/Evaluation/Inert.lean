import TinyLisp.Proofs.Evaluation.Invariant
import TinyLisp.Proofs.Heap.Operations
import TinyLisp.Proofs.Heap.Reach
import TinyLisp.Proofs.Value.Inert

/-!
# Evaluation without closures

In a frame from which no closure can be reached, evaluating a form in which neither `fn` nor `defn`
heads a list makes none. So none can be reached from the frame afterwards, and none comes out. The
frames that can be reached are those around the frame, and no others are touched.
-/

namespace TinyLisp

/-- No value that can be reached from a frame holds a closure, or a procedure that is not
builtin. -/
def Heap.InertAround (heap : Heap) (frame : Nat) : Prop :=
  ∀ id reached, heap.Reach frame .nil id → heap.frames[id]? = some reached →
    ∀ binding ∈ reached.bindings, binding.2.Inert

/-- Some frames lie within each other only, and bind nothing but inert values. -/
structure Session.InertIn (own : Nat → Prop) (session : Session) : Prop where
  outer : ∀ id frame, own id → session.heap.frames[id]? = some frame →
    ∀ outer, frame.outer = some outer → own outer
  bound : ∀ id frame, own id → session.heap.frames[id]? = some frame →
    ∀ binding ∈ frame.bindings, binding.2.Inert

namespace Session

variable {own : Nat → Prop} {session : Session} {frame : Nat}

theorem inertIn_reach (inert : session.heap.InertAround frame) :
    session.InertIn (session.heap.Reach frame .nil) where
  outer _ _ reach found _ around := reach.outer found around
  bound := inert

/-- Nothing but the frames in question can be reached from one of them. -/
theorem InertIn.own_of_reach (inert : session.InertIn own) (inside : own frame) {id : Nat}
    (reach : session.heap.Reach frame .nil id) : own id := by
  induction reach with
  | start => exact inside
  | captured mentions => cases mentions
  | outer reach found around ih => exact inert.outer _ _ ih found _ around
  | bound reach found member mentions ih =>
      exact absurd mentions ((inert.bound _ _ ih found _ member).not_mentions_frame _)

theorem InertIn.inertAround (inert : session.InertIn own) (inside : own frame) :
    session.heap.InertAround frame :=
  fun _ reached reach => inert.bound _ reached (inert.own_of_reach inside reach)

theorem InertIn.write (inert : session.InertIn own) (owner : Nat) (name : Name) {value : Value}
    (valueInert : value.Inert) :
    { session with heap := session.heap.write owner name value }.InertIn own where
  outer id frame owned found outer around := by
    have same := @Heap.map_outer_write session.heap owner name value id
    rw [found, Option.map_some, around] at same
    obtain ⟨before, present, within⟩ := Option.map_eq_some_iff.mp same.symm
    exact inert.outer id before owned present outer within
  bound id frame owned found binding member := by
    rw [Heap.getElem?_write] at found
    split at found
    · obtain ⟨before, present, rfl⟩ := Option.map_eq_some_iff.mp found
      rcases mem_bindName member with rfl | earlier
      · exact valueInert
      · exact inert.bound id before owned present binding earlier
    · exact inert.bound id frame owned found binding member

theorem InertIn.mem_chain (inert : session.InertIn own) (inside : own frame) :
    ∀ owner ∈ session.heap.chain frame, own owner :=
  Heap.forall_mem_chain (fun id found owned present => inert.outer id found owned present) inside

end Session

namespace Evaluation

open Invariant Simulation Run

/-- Sessions in which some frames bind nothing but inert values, with functionless forms in one of
these frames. All other frames stay as they are. -/
def inertIn (own : Nat → Prop) : Invariant where
  Sessions := Session.InertIn own
  Values _ value := value.Inert
  Forms _ frame form := form.Functionless ∧ own frame
  Later session after := ∀ id, ¬ own id → after.heap.frames[id]? = session.heap.frames[id]?
  later_refl _ _ _ := rfl
  later_trans first second id other := (second id other).trans (first id other)
  values_later _ inert := inert
  forms_later _ forms := forms

variable {own : Nat → Prop} {world : (inertIn own).simulation.World} {frame : Nat}

theorem inertIn_lookup (depth : Nat) (inside : own frame) (key : Value) :
    (inertIn own).simulation.Computations world (inertIn own).simulation.Values
      (Run.lookup depth frame key) (Run.lookup depth frame key) := by
  refine Invariant.computations (outcome_lookup depth frame key world.1) world.2 (fun _ _ => rfl) ?_
  intro value found
  cases looked : world.1.heap.lookup frame key with
  | ok bound =>
      rw [looked] at found
      cases found
      obtain ⟨name, owner, -, member, holds⟩ := Heap.lookup_eq_ok looked
      obtain ⟨reached, present, among⟩ := Heap.mem_of_get? holds
      have ofChain := world.2.mem_chain inside owner member
      exact ⟨world.2.bound owner reached ofChain present _ among, rfl⟩
  | error fault =>
      rw [looked] at found
      cases found

/-- Writing in one of the frames leaves all others as they are. -/
theorem inertIn_write {owner : Nat} (owned : own owner) (name : Name) (value : Value) (id : Nat)
    (other : ¬ own id) :
    (world.1.heap.write owner name value).frames[id]? = world.1.heap.frames[id]? := by
  rw [Heap.getElem?_write, if_neg]
  rintro rfl
  exact other owned

theorem inertIn_assign (depth : Nat) (inside : own frame) (target : Value) {value : Value}
    (inert : value.Inert) :
    (inertIn own).simulation.Computations world (fun _ _ _ => True)
      (Run.assign depth frame target value) (Run.assign depth frame target value) := by
  have ends := outcome_assign depth frame target value world.1
  split at ends
  · next owner name found =>
      have owned := world.2.mem_chain inside owner (Heap.mem_chain_of_target found)
      exact Invariant.computations ends (world.2.write owner name inert)
        (inertIn_write owned name value) fun _ _ => trivial
  · exact Invariant.computations ends world.2 (fun _ _ => rfl) fun _ _ => trivial

theorem inertIn_define (depth : Nat) (inside : own frame) (key : Value) {value : Value}
    (inert : value.Inert) :
    (inertIn own).simulation.Computations world (fun _ _ _ => True)
      (Run.define depth frame key value) (Run.define depth frame key value) := by
  have ends := outcome_define depth frame key value world.1
  split at ends
  · next name _ =>
      exact Invariant.computations ends (world.2.write frame name inert)
        (inertIn_write inside name value) fun _ _ => trivial
  · exact Invariant.computations ends world.2 (fun _ _ => rfl) fun _ _ => trivial

theorem inertIn_callPrimitive (depth : Nat) (procedure : Builtin) {arguments : List Value}
    (argumentsInert : ∀ argument ∈ arguments, argument.Inert) :
    (inertIn own).simulation.Computations world (inertIn own).simulation.Values
      (callPrimitive depth (.builtin procedure) arguments)
      (callPrimitive depth (.builtin procedure) arguments) := by
  refine computations_callPrimitive ?_ ?_ Value.inert_dataClosed (.number _)
    (fun number inert => inert.numbered number) argumentsInert
  · rintro ⟨_, _, _, _, _⟩ rfl
    exact ⟨world.2.outer, world.2.bound⟩
  · rintro ⟨_, _, _, _, _⟩ rfl
    exact fun _ _ => rfl

/-- The parts of a special form that makes no function make none. -/
theorem inertIn_shapes {special : SpecialForm} {operands : List Value}
    (makes : special ≠ .function ∧ special ≠ .functionDefinition)
    (functionless : ∀ operand ∈ operands, operand.Functionless) (inside : own frame)
    {shaped : ShapedForm} (reads : ShapedForm.Reads special operands shaped) :
    (inertIn own).simulation.Shapes world frame frame shaped shaped := by
  apply shapes_self reads
  case values => exact fun operand member => ⟨(functionless operand member).made.inert, rfl⟩
  case forms => exact fun operand member => ⟨⟨functionless operand member, inside⟩, rfl, rfl⟩
  case closures => exact fun function => absurd function makes.1
  case expansions =>
      intro form expansion
      cases expansion with
      | functionDefinition => exact absurd rfl makes.2
      | clauses expands =>
          have formFunctionless : form.Functionless :=
            expandClauses_closed (.literal (by decide)) (fun _ _ _ => .choice) expands functionless
          exact ⟨⟨formFunctionless, inside⟩, rfl, rfl⟩

theorem inertIn_steps {form : Value} (functionless : form.Functionless) (inside : own frame) :
    (inertIn own).simulation.Steps world frame frame form form := by
  apply steps_self
  case constants => exact fun _ => ⟨functionless.made.inert, rfl⟩
  case lookups => exact fun _ depth => inertIn_lookup depth inside _
  case faults => exact fun _ _ => rfl
  case applications =>
      rintro identity head operands rfl -
      exact fun item member => ⟨⟨functionless.items item member, inside⟩, rfl, rfl⟩
  case specials =>
      rintro identity head operands special rfl heads depth
      refine results_self (fun shaped shape => ?_) fun _ _ => rfl
      exact inertIn_shapes (functionless.special heads)
        (List.forall_mem_cons.mp functionless.items).2 inside (ShapedForm.reads_of_ofOperands shape)

/-- The rules of evaluation lead from inert values to inert values only. -/
theorem inertIn_lawful (own : Nat → Prop) : (inertIn own).simulation.Lawful where
  depthExceeded := rfl
  emptySequence := rfl
  ok := ⟨.symbol _, rfl⟩
  falsehood := ⟨.literal _, rfl⟩
  truthy := by
    rintro world value _ ⟨-, rfl⟩
    rfl
  steps := by
    rintro world frame _ form _ ⟨⟨functionless, inside⟩, rfl, rfl⟩
    exact inertIn_steps functionless inside
  assign := by
    rintro world frame _ target _ value _ depth ⟨⟨-, inside⟩, rfl, ⟨⟩⟩ ⟨inert, rfl⟩
    exact inertIn_assign depth inside (.symbol target) inert
  define := by
    rintro world frame _ name _ value _ depth ⟨⟨-, inside⟩, rfl, ⟨⟩⟩ ⟨inert, rfl⟩
    exact inertIn_define depth inside (.symbol name) inert
  applications := by
    rintro world procedure _ arguments otherArguments ⟨inert, rfl⟩ related
    obtain ⟨argumentsInert, rfl⟩ := forall_of_values related
    cases inert with
    | builtin procedure =>
        exact .primitive fun depth => inertIn_callPrimitive depth procedure argumentsInert
    | _ => exact .stuck rfl rfl fun _ => rfl

/-- Evaluating a functionless form in one of the frames leads from inert values to inert values. -/
theorem inertIn_evaluate {form : Value} (functionless : form.Functionless) (inside : own frame)
    (depth : Nat) :
    (inertIn own).simulation.Computations world (inertIn own).simulation.Values
      (run depth (.form form frame)) (run depth (.form form frame)) :=
  (inertIn_lawful own).computations_run depth (.form ⟨⟨functionless, inside⟩, rfl, rfl⟩)

end Evaluation

end TinyLisp
