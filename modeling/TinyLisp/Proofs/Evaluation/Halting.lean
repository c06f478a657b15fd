import TinyLisp.Proofs.Evaluation.Budget
import TinyLisp.Proofs.Evaluation.Faults
import TinyLisp.Proofs.Evaluation.Invariant
import Mathlib.Order.Filter.AtTopBot.Basic
import Mathlib.Order.Filter.Finite

/-!
# Computations that end

A computation ends if it comes to the same with every budget that is large enough, and not to the
want of one. Writing and comparing values needs no more room than the values have levels, so the
operations on a session, the builtin procedures and the checks of special forms always end. One
computation after another ends if the second one does wherever the first one gets to.
-/

namespace TinyLisp

open Filter

/-- A result that is not due to an exhausted budget. -/
def Finished {α : Type} (result : Except Fault α) : Prop :=
  ∀ fault, result = .error fault → fault.kind ≠ .recursion

theorem finished_ok {α : Type} (value : α) : Finished (.ok value : Except Fault α) := by
  rintro _ ⟨⟩

theorem finished_error {α : Type} {fault : Fault} (kind : fault.kind ≠ .recursion) :
    Finished (.error fault : Except Fault α) := by
  rintro _ ⟨⟩
  exact kind

namespace Value

/-- There is room to write a value, if its digits are not in the way, with some number of nested
calls and with every greater one. -/
theorem eventually_room (value : Value) :
    ∀ᶠ depth in atTop, value.obstacle depth ≠ some .depth := by
  induction value with
  | number value =>
      refine .of_forall fun depth => ?_
      rw [obstacle]
      split <;> simp
  | sequence identity bracket items ih =>
      have each : ∀ᶠ depth in atTop, ∀ item ∈ items, item.obstacle depth ≠ some .depth :=
        (eventually_all_finite items.finite_toSet).mpr ih
      obtain ⟨enough, clear⟩ := eventually_atTop.mp each
      filter_upwards [eventually_ge_atTop (enough + callsPerLevel)] with depth le
      rw [obstacle, if_neg (by omega)]
      exact obstacleAmong_ne (clear _ (Nat.le_sub_of_add_le le))
  | closure id parameters body frame ihParameters ihBody =>
      filter_upwards [(eventually_all_finite parameters.finite_toSet).mpr ihParameters] with
        depth clear
      rw [obstacle]
      exact obstacleAmong_ne clear
  | _ => exact .of_forall fun depth => by simp [obstacle]

theorem equalItemsWithin_ne_none {depth : Nat} {items others : List Value}
    (each : ∀ item ∈ items, ∀ other ∈ others, item.equalWithin depth other ≠ none) :
    equalItemsWithin depth items others ≠ none := by
  induction items generalizing others with
  | nil => simp [equalItemsWithin]
  | cons item rest ih =>
      cases others with
      | nil => simp [equalItemsWithin]
      | cons other others =>
          rw [equalItemsWithin]
          split
          · exact ih fun item member other among =>
              each item (List.mem_cons_of_mem _ member) other (List.mem_cons_of_mem _ among)
          · exact each item List.mem_cons_self other List.mem_cons_self

/-- There is room to compare two values. -/
theorem eventually_comparable (value other : Value) :
    ∀ᶠ depth in atTop, value.equalWithin depth other ≠ none := by
  induction value generalizing other with
  | sequence identity bracket items ih =>
      cases other with
      | sequence otherIdentity otherBracket others =>
          have each : ∀ᶠ depth in atTop, ∀ item ∈ items, ∀ other ∈ others,
              item.equalWithin depth other ≠ none :=
            (eventually_all_finite items.finite_toSet).mpr fun item member =>
              (eventually_all_finite others.finite_toSet).mpr fun other _ => ih item member other
          obtain ⟨enough, clear⟩ := eventually_atTop.mp each
          filter_upwards [eventually_ge_atTop (enough + callsPerComparedLevel)] with depth le
          rw [equalWithin]
          split
          · simp
          · split
            · simp
            · rw [if_neg (by omega)]
              exact equalItemsWithin_ne_none (clear _ (Nat.le_sub_of_add_le le))
      | _ => exact .of_forall fun depth => by simp [equalWithin]
  | _ => exact .of_forall fun depth => by simp [equalWithin]

end Value

/-- With room to write the value, a fault that shows one is not due to a want of room. -/
theorem Fault.showing_kind {style : Style} {value : Value} {shown : String → Fault} {depth : Nat}
    (room : value.obstacle depth ≠ some .depth) (kind : ∀ text, (shown text).kind ≠ .recursion) :
    (showing depth style value shown).kind ≠ .recursion := by
  unfold showing Value.textWithin
  cases found : value.obstacle depth with
  | none => exact kind _
  | some obstacle =>
      cases obstacle with
      | depth => exact absurd found room
      | digits => simp [ofObstacle, Fault.kind]

theorem Fault.eventually_ofHeap (fault : HeapFault) :
    ∀ᶠ depth in atTop, (ofHeap depth fault).kind ≠ .recursion := by
  cases fault with
  | arity expected given => exact .of_forall fun depth => by simp [ofHeap, Fault.kind]
  | unbound key | unboundTarget key | undefinable key =>
      filter_upwards [key.eventually_room] with depth room
      exact showing_kind room fun text => by simp [Fault.kind]

namespace Builtin

/-- There is room to write some values, as far as their digits permit, and to compare them. -/
structure Room (depth : Nat) (values : List Value) : Prop where
  writable : ∀ value ∈ values, value.obstacle depth ≠ some .depth
  comparable : ∀ value ∈ values, ∀ other ∈ values, value.equalWithin depth other ≠ none

theorem eventually_room (values : List Value) : ∀ᶠ depth in atTop, Room depth values := by
  have writable : ∀ᶠ depth in atTop, ∀ value ∈ values, value.obstacle depth ≠ some .depth :=
    (eventually_all_finite values.finite_toSet).mpr fun value _ => value.eventually_room
  have comparable : ∀ᶠ depth in atTop, ∀ value ∈ values, ∀ other ∈ values,
      value.equalWithin depth other ≠ none :=
    (eventually_all_finite values.finite_toSet).mpr fun value _ =>
      (eventually_all_finite values.finite_toSet).mpr fun other _ =>
        value.eventually_comparable other
  filter_upwards [writable, comparable] with depth first second
  exact ⟨first, second⟩

theorem call_finished {depth : Nat} {procedure : Builtin} {arguments : List Value}
    (room : Room depth arguments) : Finished (procedure.call depth arguments) := by
  intro fault failed
  cases refuses_of_call failed with
  | count | tooFewToCompare | nothingToSubtract => simp [Fault.kind]
  | notNumber member | notSequence member =>
      exact Fault.showing_kind (room.writable _ member) fun _ => by simp [Fault.kind]
  | integerOutOfRange => simp [Fault.kind]
  | incomparable member otherMember unknown =>
      exact absurd unknown (room.comparable _ member _ otherMember)
  | @unwritable argument member obstacle found =>
      cases obstacle with
      | depth => exact absurd found (room.writable argument member)
      | digits => simp [Fault.ofObstacle, Fault.kind]

end Builtin

namespace ShapedForm

/-- With room to write the operands, their check does not end for want of it. A parameter that is no
symbol is not an operand itself. -/
theorem ofOperands_finished {depth : Nat} {special : SpecialForm} {operands : List Value}
    (other : special ≠ .function)
    (writable : ∀ operand ∈ operands, operand.obstacle depth ≠ some .depth) :
    Finished (ofOperands depth special operands) := by
  intro fault failed
  cases refuses_of_ofOperands failed with
  | quote | assignment | definition | functionName | condition | clauses => simp [Fault.kind]
  | assignmentTarget | definitionName | functionParameters =>
      exact Fault.showing_kind (writable _ List.mem_cons_self) fun _ => by simp [Fault.kind]
  | noParameters | noBody | parametersNotVector | parameterNotSymbol => exact absurd rfl other

end ShapedForm

namespace Run

variable {α β : Type} {computation : Nat → Run α} {next : Nat → α → Run β} {session : Session}

/-- With every budget that is large enough a computation comes to the same, and its budget has not
run out then. -/
def Halts (computation : Nat → Run α) (session : Session) : Prop :=
  ∃ result after, Finished result ∧
    ∀ᶠ depth in atTop, (computation depth).outcome session = (result, after)

theorem halts_pure (value : α) : Halts (fun _ => (pure value : Run α)) session :=
  ⟨.ok value, session, finished_ok value, .of_forall fun _ => rfl⟩

theorem halts_throw {fault : Fault} (kind : fault.kind ≠ .recursion) :
    Halts (fun _ => (throw fault : Run α)) session :=
  ⟨.error fault, session, finished_error kind, .of_forall fun _ => rfl⟩

/-- A computation halts if it does so with some budget, and does no more with a greater one. -/
theorem halts_of_stopsShortOf (depth : Nat)
    (mono : ∀ {less more}, less ≤ more → (computation less).StopsShortOf (computation more))
    (finished : Finished ((computation depth).outcome session).1) : Halts computation session := by
  refine ⟨_, ((computation depth).outcome session).2, finished, ?_⟩
  filter_upwards [eventually_ge_atTop depth] with more le
  refine (mono le session).outcome_eq fun exhausted => ?_
  exact finished _ exhausted rfl

/-- One computation after another halts if the first one does, and the second one wherever the first
one gets to. -/
theorem Halts.bind (first : Halts computation session)
    (rest : ∀ depth value after, (computation depth).outcome session = (.ok value, after) →
      Halts (next · value) after) :
    Halts (fun depth => computation depth >>= next depth) session := by
  obtain ⟨result, after, finished, ends⟩ := first
  cases result with
  | error fault =>
      refine ⟨.error fault, after, finished_error (finished fault rfl), ?_⟩
      filter_upwards [ends] with depth ended
      rw [outcome_bind, ended]
  | ok value =>
      obtain ⟨enough, ended⟩ := ends.exists
      obtain ⟨last, final, lastFinished, lastEnds⟩ := rest enough value after ended
      refine ⟨last, final, lastFinished, ?_⟩
      filter_upwards [ends, lastEnds] with depth ended lastEnded
      rw [outcome_bind, ended]
      exact lastEnded

/-- One more activation is one more unit of the budget. -/
theorem Halts.succ {computation later : Nat → Run α} (halts : Halts computation session)
    (steps : ∀ depth, later (depth + 1) = computation depth) : Halts later session := by
  obtain ⟨result, after, finished, ends⟩ := halts
  refine ⟨result, after, finished, ?_⟩
  obtain ⟨enough, ended⟩ := eventually_atTop.mp ends
  filter_upwards [eventually_ge_atTop (enough + 1)] with depth le
  obtain ⟨depth, rfl⟩ := Nat.exists_eq_add_of_le' (Nat.le_of_add_left_le le)
  rw [steps]
  exact ended depth (Nat.le_of_succ_le_succ le)

theorem halts_showing (style : Style) (value : Value) {shown : String → Fault}
    (kind : ∀ text, (shown text).kind ≠ .recursion) :
    Halts (fun depth => (throw (Fault.showing depth style value shown) : Run α)) session := by
  obtain ⟨depth, room⟩ := value.eventually_room.exists
  refine halts_of_stopsShortOf depth (fun le => ?_) ?_
  · exact stopsShortOf_throw (Fault.showing_mono le style value shown)
  · exact finished_error (Fault.showing_kind room kind)

theorem halts_lookup (frame : Nat) (key : Value) : Halts (Run.lookup · frame key) session := by
  cases found : session.heap.lookup frame key with
  | ok =>
      refine halts_of_stopsShortOf 0 (lookup_stopsShortOf · frame key) ?_
      rw [outcome_lookup, found]
      exact finished_ok _
  | error fault =>
      obtain ⟨depth, kind⟩ := (Fault.eventually_ofHeap fault).exists
      refine halts_of_stopsShortOf depth (lookup_stopsShortOf · frame key) ?_
      rw [outcome_lookup, found]
      exact finished_error kind

theorem halts_define (frame : Nat) (key value : Value) :
    Halts (Run.define · frame key value) session := by
  cases found : Heap.definable key with
  | ok =>
      refine halts_of_stopsShortOf 0 (define_stopsShortOf · frame key value) ?_
      rw [outcome_define, found]
      exact finished_ok _
  | error fault =>
      obtain ⟨depth, kind⟩ := (Fault.eventually_ofHeap fault).exists
      refine halts_of_stopsShortOf depth (define_stopsShortOf · frame key value) ?_
      rw [outcome_define, found]
      exact finished_error kind

theorem halts_assign (frame : Nat) (key value : Value) :
    Halts (Run.assign · frame key value) session := by
  cases found : session.heap.target frame key with
  | ok =>
      refine halts_of_stopsShortOf 0 (assign_stopsShortOf · frame key value) ?_
      rw [outcome_assign, found]
      exact finished_ok _
  | error fault =>
      obtain ⟨depth, kind⟩ := (Fault.eventually_ofHeap fault).exists
      refine halts_of_stopsShortOf depth (assign_stopsShortOf · frame key value) ?_
      rw [outcome_assign, found]
      exact finished_error kind

theorem halts_ofOperands {special : SpecialForm} (operands : List Value)
    (other : special ≠ .function) :
    Halts (fun depth => Run.ofExcept (ShapedForm.ofOperands depth special operands)) session := by
  obtain ⟨depth, writable⟩ := (Builtin.eventually_room operands).exists
  refine halts_of_stopsShortOf depth (fun le => ?_) ?_
  · exact stopsShortOf_ofExcept (ShapedForm.ofOperands_mono le special operands)
  · rw [outcome_ofExcept]
    exact ShapedForm.ofOperands_finished other writable.writable

end Run

open Run in
/-- Calls of builtin procedures end, with the result or with an error of the language. -/
theorem Evaluation.halts_callPrimitive (procedure : Builtin) (arguments : List Value)
    {session : Session} :
    Halts (callPrimitive · (.builtin procedure) arguments) session := by
  obtain ⟨depth, room⟩ := (Builtin.eventually_room arguments).exists
  have finished : Finished ((Primitive.builtin procedure).call depth arguments) :=
    Builtin.call_finished room
  refine halts_of_stopsShortOf depth (callPrimitive_stopsShortOf · _ arguments) ?_
  unfold callPrimitive
  split
  · next result _ =>
      rw [outcome_bind_ok (outcome_print result.printed session), outcome_makeResult]
      exact finished_ok _
  · next fault failed =>
      split
      · exact finished_error (finished fault failed)
      · exact finished_error (by simp [Fault.kind])

end TinyLisp
