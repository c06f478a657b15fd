import TinyLisp.Primitive
import TinyLisp.SpecialForm
import TinyLisp.Proofs.Outcome
import TinyLisp.Proofs.Value.Nesting

/-!
# More room for nested calls

What is computed within a number of nested calls is the same within a greater number, unless the
smaller number is not enough; and then that is what the computation says. This goes for the texts of
values, for comparison, for the builtin procedures and for the shapes of special forms.
-/

namespace TinyLisp

/-- The first result is the second one, unless there was no room left to get to it. -/
inductive CutShort {α : Type} : Except Fault α → Except Fault α → Prop
  | same (result : Except Fault α) : CutShort result result
  | exhausted (other : Except Fault α) : CutShort (.error .depthExceeded) other

namespace CutShort

variable {α β : Type}

theorem bind {result other : Except Fault α} {next otherNext : α → Except Fault β}
    (first : CutShort result other) (rest : ∀ value, CutShort (next value) (otherNext value)) :
    CutShort (result >>= next) (other >>= otherNext) := by
  cases first with
  | exhausted => exact .exhausted _
  | same =>
      cases result with
      | ok value => exact rest value
      | error fault => exact .same _

theorem map {result other : Except Fault α} (change : α → β) (first : CutShort result other) :
    CutShort (result.map change) (other.map change) := by
  cases first with
  | exhausted => exact .exhausted _
  | same => exact .same _

end CutShort

variable {less more : Nat}

namespace Value

theorem obstacleAmong_mono {items : List Value}
    (each : ∀ item ∈ items, obstacle less item = some .depth ∨
      obstacle less item = obstacle more item) :
    obstacleAmong less items = some .depth ∨
      obstacleAmong less items = obstacleAmong more items := by
  induction items with
  | nil => exact .inr rfl
  | cons item rest ih =>
      rw [List.forall_mem_cons] at each
      rw [obstacleAmong, obstacleAmong]
      rcases each.1 with deep | same
      · exact .inl (by rw [deep])
      · rw [same]
        cases obstacle more item with
        | some found => exact .inr rfl
        | none => exact ih each.2

/-- What stands in the way of writing a value still does so with more room, unless it was the lack
of room. -/
theorem obstacle_mono (le : less ≤ more) (value : Value) :
    value.obstacle less = some .depth ∨ value.obstacle less = value.obstacle more := by
  induction value generalizing less more with
  | sequence identity bracket items ih =>
      rw [obstacle, obstacle]
      by_cases room : less < callsPerLevel
      · exact .inl (if_pos room)
      · rw [if_neg room, if_neg (by omega)]
        exact obstacleAmong_mono fun item member => ih item member (Nat.sub_le_sub_right le _)
  | closure id parameters body frame ihParameters ihBody =>
      exact obstacleAmong_mono fun parameter member => ihParameters parameter member le
  | _ => exact .inr rfl

theorem textWithin_mono (le : less ≤ more) (style : Style) (value : Value) :
    CutShort (value.textWithin less style) (value.textWithin more style) := by
  simp only [textWithin]
  rcases value.obstacle_mono le with deep | same
  · rw [deep]
    exact .exhausted _
  · rw [same]
    exact .same _

theorem equalItemsWithin_mono {items : List Value} (others : List Value)
    (each : ∀ item ∈ items, ∀ other, equalWithin less item other = none ∨
      equalWithin less item other = equalWithin more item other) :
    equalItemsWithin less items others = none ∨
      equalItemsWithin less items others = equalItemsWithin more items others := by
  induction items generalizing others with
  | nil => exact .inr (by simp only [equalItemsWithin])
  | cons item rest ih =>
      rw [List.forall_mem_cons] at each
      cases others with
      | nil => exact .inr (by simp only [equalItemsWithin])
      | cons other others =>
          rw [equalItemsWithin, equalItemsWithin]
          rcases each.1 other with unknown | same
          · exact .inl (by rw [unknown])
          · rw [same]
            split
            · exact ih others each.2
            · exact .inr rfl

theorem equalWithin_mono (le : less ≤ more) (value other : Value) :
    equalWithin less value other = none ∨
      equalWithin less value other = equalWithin more value other := by
  induction value generalizing less more other with
  | sequence identity bracket items ih =>
      cases other with
      | sequence otherIdentity otherBracket others =>
          rw [equalWithin, equalWithin]
          split
          · exact .inr rfl
          · split
            · exact .inr rfl
            · by_cases room : less < callsPerComparedLevel
              · exact .inl (if_pos room)
              · rw [if_neg room, if_neg (by omega)]
                exact equalItemsWithin_mono others fun item member =>
                  ih item member (Nat.sub_le_sub_right le _)
      | _ => exact .inr rfl
  | _ => exact .inr rfl

end Value

namespace Fault

theorem showing_mono {α : Type} (le : less ≤ more) (style : Style) (value : Value)
    (fault : String → Fault) :
    CutShort (.error (showing less style value fault) : Except Fault α)
      (.error (showing more style value fault)) := by
  have text := value.textWithin_mono le style
  simp only [showing]
  generalize value.textWithin less style = result at text
  generalize value.textWithin more style = other at text
  cases text with
  | exhausted => exact .exhausted _
  | same => exact .same _

theorem ofHeap_mono {α : Type} (le : less ≤ more) (fault : HeapFault) :
    CutShort (.error (ofHeap less fault) : Except Fault α) (.error (ofHeap more fault)) := by
  cases fault with
  | arity expected given => exact .same _
  | unbound key | unboundTarget key | undefinable key => exact showing_mono le _ key _

end Fault

namespace Builtin

theorem numbers_mono (le : less ≤ more) (procedure : Builtin) (arguments : List Value) :
    CutShort (procedure.numbers less arguments) (procedure.numbers more arguments) := by
  induction arguments with
  | nil => exact .same _
  | cons argument rest ih =>
      cases argument with
      | number value => exact ih.map _
      | _ => exact Fault.showing_mono le _ _ _

theorem itemsOf_mono (le : less ≤ more) (procedure : Builtin) (argument : Value) :
    CutShort (procedure.itemsOf less argument) (procedure.itemsOf more argument) := by
  unfold itemsOf
  split
  · exact .same _
  · exact .same _
  · exact Fault.showing_mono le _ _ _

theorem compare_mono (le : less ≤ more) (arguments : List Value) :
    CutShort (compare less arguments) (compare more arguments) := by
  unfold compare
  split
  · next first second _ =>
      rcases first.equalWithin_mono le second with unknown | same
      · rw [unknown]
        exact .exhausted _
      · rw [same]
        exact .same _
  · exact .same _

theorem compute_mono (le : less ≤ more) (procedure : Builtin) (arguments : List Value) :
    CutShort (procedure.compute less arguments) (procedure.compute more arguments) := by
  cases procedure with
  | car | cdr =>
      refine CutShort.bind (.same _) fun argument => ?_
      exact (itemsOf_mono le _ argument).bind fun items => .same _
  | cons =>
      refine CutShort.bind (.same _) fun pair => ?_
      exact (itemsOf_mono le _ pair.2).bind fun items => .same _
  | isNil | isTrue | isFalse | println => exact .same _
  | add | sub => exact (numbers_mono le _ arguments).bind fun numbers => .same _
  | equal => exact (compare_mono le arguments).bind fun outcome => .same _

theorem call_mono (le : less ≤ more) (procedure : Builtin) (arguments : List Value) :
    CutShort (procedure.call less arguments) (procedure.call more arguments) := by
  refine (compute_mono le procedure arguments).bind fun value => ?_
  split
  · exact (value.textWithin_mono le .display).bind fun text => .same _
  · exact .same _

end Builtin

theorem Primitive.call_mono (le : less ≤ more) (procedure : Primitive) (arguments : List Value) :
    CutShort (procedure.call less arguments) (procedure.call more arguments) := by
  cases procedure with
  | builtin procedure => exact procedure.call_mono le arguments
  | failing => exact .same _

theorem expandFunction_mono (le : less ≤ more) (operands : List Value) :
    CutShort (expandFunction less operands) (expandFunction more operands) := by
  unfold expandFunction
  split
  · exact .same _
  · split
    · exact Fault.showing_mono le _ _ _
    · exact .same _

namespace ShapedForm

theorem ofNameAndForm_mono (le : less ≤ more) (make : Value → Value → ShapedForm)
    (count : ShapeFault) (notSymbol : String → ShapeFault) (operands : List Value) :
    CutShort (ofNameAndForm less make count notSymbol operands)
      (ofNameAndForm more make count notSymbol operands) := by
  unfold ofNameAndForm
  split
  · split
    · exact .same _
    · exact Fault.showing_mono le _ _ _
  · exact .same _

theorem ofFunction_mono (le : less ≤ more) (operands : List Value) :
    CutShort (ofFunction less operands) (ofFunction more operands) := by
  unfold ofFunction
  split
  · exact .same _
  · split
    · exact Fault.showing_mono le _ _ _
    · exact .same _
  · exact Fault.showing_mono le _ _ _

theorem ofOperands_mono (le : less ≤ more) (special : SpecialForm) (operands : List Value) :
    CutShort (ofOperands less special operands) (ofOperands more special operands) := by
  cases special with
  | quote | condition | sequence | clauses => exact .same _
  | assignment | definition => exact ofNameAndForm_mono le _ _ _ operands
  | functionDefinition => exact (expandFunction_mono le operands).map _
  | function => exact ofFunction_mono le operands

end ShapedForm

end TinyLisp
