import TinyLisp.Interpreter
import TinyLisp.Proofs.Evaluation.Primitives
import Mathlib.Algebra.BigOperators.Group.List.Basic
import Mathlib.Algebra.Ring.Int.Defs
import Mathlib.Order.Filter.AtTopBot.Basic
import Mathlib.Order.Filter.Finite

/-!
# Sums and differences

The arithmetic procedures first check all their arguments, and the first one that is no number is
the fault, whatever the numbers around it come to. Integers are then added and subtracted exactly,
so that neither the order of a sum nor the nesting of sums in it matters.
-/

namespace TinyLisp

open Filter

namespace Value

def integer (value : Int) : Value := .number (.int value)

/-- Whether a value is a number of the language. The truth values of the embedding program are
none. -/
def isNumber : Value → Bool
  | .number _ => true
  | _ => false

end Value

namespace Builtin

variable {depth : Nat} {procedure : Builtin} {arguments : List Value}

theorem numbers_map_number (depth : Nat) (procedure : Builtin) (values : List Number) :
    procedure.numbers depth (values.map .number) = .ok values := by
  induction values with
  | nil => rfl
  | cons value rest ih => rw [List.map_cons, numbers, ih, map_ok]

/-- Neither the numbers before the first argument that is none matter nor what follows it. -/
theorem numbers_eq_error {argument : Value}
    (first : arguments.find? (!·.isNumber) = some argument) :
    procedure.numbers depth arguments =
      .error (Fault.showing depth .readable argument (.argument ∘ .notNumber procedure)) := by
  induction arguments with
  | nil => cases first
  | cons head rest ih =>
      cases head with
      | number value => rw [numbers, ih first, map_error]
      | _ =>
          cases first
          rfl

/-- Integers are combined exactly, from the left. -/
theorem foldlM_integers (exact : Int → Int → Int) (rounded : Binary64 → Binary64 → Binary64)
    (start : Int) (integers : List Int) :
    (integers.map Number.int).foldlM
        (fun total value => inRange (Number.combine? exact rounded total value)) (.int start) =
      .ok (.int (integers.foldl exact start)) := by
  induction integers generalizing start with
  | nil => rfl
  | cons value rest ih => exact ih (exact start value)

theorem sum_integers (integers : List Int) :
    sum (integers.map .int) = .ok (.int integers.sum) := by
  rw [List.sum_eq_foldl]
  exact foldlM_integers (· + ·) Binary64.add 0 integers

theorem foldl_sub (start : Int) (integers : List Int) :
    integers.foldl (· - ·) start = start - integers.sum := by
  induction integers generalizing start with
  | nil => simp
  | cons value rest ih => rw [List.foldl_cons, ih, List.sum_cons, Int.sub_sub]

theorem difference_integers (first : Int) {others : List Int} (filled : others ≠ []) :
    difference ((first :: others).map .int) = .ok (.int (first - others.sum)) := by
  obtain ⟨second, rest, rfl⟩ := List.exists_cons_of_ne_nil filled
  rw [← foldl_sub]
  exact foldlM_integers (· - ·) Binary64.sub first (second :: rest)

theorem map_integer (integers : List Int) :
    integers.map Value.integer = (integers.map Number.int).map .number := by
  rw [List.map_map]
  rfl

theorem call_add (depth : Nat) (integers : List Int) :
    add.call depth (integers.map .integer) = .ok ⟨.integer integers.sum, ""⟩ := by
  rw [call, compute, map_integer, numbers_map_number, ok_bind, sum_integers]
  rfl

theorem call_sub (depth : Nat) (first : Int) {others : List Int} (filled : others ≠ []) :
    sub.call depth ((first :: others).map .integer) = .ok ⟨.integer (first - others.sum), ""⟩ := by
  rw [call, compute, map_integer, numbers_map_number, ok_bind, difference_integers first filled]
  rfl

theorem call_sub_one (depth : Nat) (value : Int) :
    sub.call depth [.integer value] = .ok ⟨.integer (-value), ""⟩ :=
  rfl

/-- Nothing is computed before all arguments have been checked. -/
theorem call_eq_error (arithmetic : procedure = add ∨ procedure = sub) {argument : Value}
    (first : arguments.find? (!·.isNumber) = some argument) :
    procedure.call depth arguments =
      .error (Fault.showing depth .readable argument (.argument ∘ .notNumber procedure)) := by
  rcases arithmetic with rfl | rfl <;>
    rw [call, compute, numbers_eq_error first, error_bind, error_bind]

end Builtin

/-- A form made of integers and of sums of such forms, with its integers from left to right. -/
inductive SumOf : Value → List Int → Prop
  | integer (value : Int) : SumOf (.integer value) [value]
  | sum (identity : Option Identity) {parts : List (Value × List Int)}
      (each : ∀ part ∈ parts, SumOf part.1 part.2) :
      SumOf (.sequence identity .round (.named "+" :: parts.map (·.1))) (parts.flatMap (·.2))

namespace Evaluation

variable {frame : Nat} {session : Session}

/-- Arguments that leave the session as it is are evaluated each on its own. -/
theorem outcome_evaluateArguments {α : Type} {run : Activation → Run Value} {parts : List α}
    {form result : α → Value}
    (each : ∀ part ∈ parts, (run (.argument (form part) frame)).outcome session =
      (.ok (result part), session)) :
    (evaluateArguments run frame (parts.map form)).outcome session =
      (.ok (parts.map result), session) := by
  induction parts with
  | nil => rfl
  | cons part rest ih =>
      obtain ⟨first, others⟩ := List.forall_mem_cons.mp each
      rw [List.map_cons, evaluateArguments, Run.outcome_bind_ok first,
        Run.outcome_bind_ok (ih others)]
      rfl

/-- A sum of forms that leave the session as it is adds up what they evaluate to. -/
theorem outcome_sum {depth : Nat} {identity : Option Identity} {parts : List (Value × List Int)}
    (bound : session.heap.lookup frame (.named "+") = .ok (.primitive (.builtin .add)))
    (each : ∀ part ∈ parts, (evaluate depth part.1 frame).outcome session =
      (.ok (.integer part.2.sum), session)) :
    (evaluate (depth + 2) (.sequence identity .round (.named "+" :: parts.map (·.1)))
        frame).outcome session =
      (.ok (.integer (parts.flatMap (·.2)).sum), session) := by
  have head : (run (depth + 1) (.form (.named "+") frame)).outcome session =
      (.ok (.primitive (.builtin .add)), session) := by
    change (Run.lookup depth frame (.named "+")).outcome session = _
    rw [Run.outcome_lookup, bound, mapError_ok]
  have arguments : (evaluateArguments (run (depth + 1)) frame (parts.map (·.1))).outcome session =
      (.ok (parts.map fun part => .integer part.2.sum), session) :=
    outcome_evaluateArguments each
  have values : (parts.map fun part => Value.integer part.2.sum) =
      (parts.map fun part => part.2.sum).map .integer := by
    rw [List.map_map]
    rfl
  have total : (parts.flatMap (·.2)).sum = (parts.map fun part => part.2.sum).sum := by
    rw [List.flatMap_def, List.sum_flatten, List.map_map]
    rfl
  change (run (depth + 1) (.form (.named "+") frame) >>= fun procedure =>
    evaluateArguments (run (depth + 1)) frame (parts.map (·.1)) >>= fun arguments =>
      run (depth + 1) (.apply procedure arguments)).outcome session = _
  rw [Run.outcome_bind_ok head, Run.outcome_bind_ok arguments, values, total]
  exact outcome_callPrimitive_ok (Builtin.call_add depth _) session

/-- A sum evaluates to the sum of its integers, however they are nested. -/
theorem eventually_outcome_sum {form : Value} {leaves : List Int} (sumOf : SumOf form leaves)
    (bound : session.heap.lookup frame (.named "+") = .ok (.primitive (.builtin .add))) :
    ∀ᶠ depth in atTop,
      (evaluate depth form frame).outcome session = (.ok (.integer leaves.sum), session) := by
  induction sumOf with
  | integer value =>
      filter_upwards [eventually_ge_atTop 1] with depth le
      obtain ⟨inner, rfl⟩ := Nat.exists_eq_add_of_le' le
      rw [List.sum_singleton]
      rfl
  | sum identity _ ih =>
      obtain ⟨enough, evaluates⟩ :=
        eventually_atTop.mp ((eventually_all_finite (List.finite_toSet _)).mpr ih)
      filter_upwards [eventually_ge_atTop (enough + 2)] with depth le
      obtain ⟨inner, rfl⟩ := Nat.exists_eq_add_of_le' le
      exact outcome_sum bound (evaluates (inner + enough) (Nat.le_add_left _ _))

end Evaluation

/-- Sums and differences of integers are exact, whatever the order of a sum and the nesting of sums
in it. An argument that is no number is the fault of a call, the first one if there are several, and
the call does nothing else. -/
theorem apply_arithmetic (session : Session) :
    (∀ depth (integers others : List Int), others.Perm integers →
      (applyProcedure (depth + 1) (.primitive (.builtin .add))
        (others.map .integer)).outcome session = (.ok (.integer integers.sum), session)) ∧
    (∀ frame form leaves (integers : List Int),
      session.heap.lookup frame (.named "+") = .ok (.primitive (.builtin .add)) →
      SumOf form leaves → leaves.Perm integers → ∀ᶠ depth in atTop,
        (evaluate depth form frame).outcome session = (.ok (.integer integers.sum), session)) ∧
    (∀ depth first (others : List Int), others ≠ [] →
      (applyProcedure (depth + 1) (.primitive (.builtin .sub))
        ((first :: others).map .integer)).outcome session =
        (.ok (.integer (first - others.sum)), session)) ∧
    (∀ depth value, (applyProcedure (depth + 1) (.primitive (.builtin .sub))
      [.integer value]).outcome session = (.ok (.integer (-value)), session)) ∧
    ∀ depth (procedure : Builtin) arguments argument text, procedure = .add ∨ procedure = .sub →
      arguments.find? (!·.isNumber) = some argument →
      argument.textWithin depth .readable = .ok text →
      (applyProcedure (depth + 1) (.primitive (.builtin procedure)) arguments).outcome session =
          (.error (.argument (.notNumber procedure text)), session) ∧
        (Fault.argument (.notNumber procedure text)).kind = .native ∧
        (Fault.argument (.notNumber procedure text)).message =
          "All arguments to " ++ procedure.name ++ " must be numbers, got " ++ text := by
  refine ⟨fun depth integers others same => ?_,
    fun frame form leaves integers bound sumOf same => ?_,
    fun depth first others filled => ?_, fun depth value => ?_,
    fun depth procedure arguments argument text arithmetic first written => ?_⟩
  · rw [← same.sum_eq]
    exact Evaluation.outcome_callPrimitive_ok (Builtin.call_add depth others) session
  · rw [← same.sum_eq]
    exact Evaluation.eventually_outcome_sum sumOf bound
  · exact Evaluation.outcome_callPrimitive_ok (Builtin.call_sub depth first filled) session
  · exact Evaluation.outcome_callPrimitive_ok (Builtin.call_sub_one depth value) session
  · have failed := @Builtin.call_eq_error depth procedure arguments arithmetic argument first
    rw [Fault.showing, written] at failed
    exact ⟨Evaluation.outcome_callPrimitive_native failed rfl session, rfl, rfl⟩

/-- A truth value of the embedding program is no number, and the numbers before it are not added. -/
theorem apply_arithmetic_foreign :
    (∀ᶠ depth in atTop, (evaluate depth (.list [.named "+", .integer 1,
      .list [.named "+", .integer 2, .integer 3]]) 0).outcome Interpreter.initialSession =
        (.ok (.integer 6), Interpreter.initialSession)) ∧
      (applyProcedure 1 (.primitive (.builtin .sub))
        [.integer 5, .integer 2, .integer 4]).outcome Interpreter.initialSession =
        (.ok (.integer (-1)), Interpreter.initialSession) ∧
      (applyProcedure 1 (.primitive (.builtin .add))
        [.integer (10 ^ 400), .number (.float (.infinite false)), .foreign (.bool true),
          .nil]).outcome Interpreter.initialSession =
        (.error (.argument (.notNumber .add "True")), Interpreter.initialSession) := by
  obtain ⟨-, sums, difference, -, checked⟩ := apply_arithmetic Interpreter.initialSession
  have inner : SumOf (.list [.named "+", .integer 2, .integer 3]) [2, 3] :=
    @SumOf.sum none [(.integer 2, [2]), (.integer 3, [3])] (List.forall_mem_cons.mpr
      ⟨.integer 2, List.forall_mem_singleton.mpr (.integer 3)⟩)
  have outer : SumOf (.list [.named "+", .integer 1,
      .list [.named "+", .integer 2, .integer 3]]) [1, 2, 3] :=
    @SumOf.sum none [(.integer 1, [1]), (.list [.named "+", .integer 2, .integer 3], [2, 3])]
      (List.forall_mem_cons.mpr ⟨.integer 1, List.forall_mem_singleton.mpr inner⟩)
  exact ⟨sums 0 _ _ [3, 1, 2] rfl outer (by decide),
    difference 0 5 [2, 4] (List.cons_ne_nil _ _),
    (checked 0 .add _ (.foreign (.bool true)) "True" (.inl rfl) rfl rfl).1⟩

end TinyLisp
