import TinyLisp.Proofs.Evaluation.Halting
import TinyLisp.Proofs.Evaluation.Inert
import TinyLisp.Proofs.Interpreter.Reached

/-!
# Evaluation ends where there are no closures

Without closures, evaluation goes into the parts of a form and never back to a form that it has come
from. A `cond` is evaluated as a form that is no part of it, but all there is to that form are the
parts of the `cond`, in nested `if` forms. So with a large enough budget every form ends in a value
or in an error other than an exhausted budget. No closure is made on the way, and the next form ends
as well.
-/

namespace TinyLisp

namespace Evaluation

open Filter Invariant Simulation Run

variable {own : Nat → Prop} {world : (inertIn own).simulation.World} {frame : Nat}

theorem halts_run {activation : Activation} {session : Session}
    (steps : Halts (fun depth => step depth (run depth) activation) session) :
    Halts (run · activation) session :=
  steps.succ fun _ => rfl

/-- One computation after another ends if the first one does, and the second one in every session
and for every value that the first one may lead to. -/
theorem halts_bind {α β : Type} {First : (inertIn own).simulation.World → α → α → Prop}
    {computation : Nat → Run α} {next : Nat → α → Run β}
    (kept : ∀ depth, (inertIn own).simulation.Computations world First (computation depth)
      (computation depth))
    (first : Halts computation world.1)
    (rest : ∀ after : (inertIn own).simulation.World, ∀ value, First after value value →
      Halts (next · value) after.1) :
    Halts (fun depth => computation depth >>= next depth) world.1 := by
  refine first.bind fun depth value session ends => ?_
  obtain ⟨holds, -, related⟩ := of_computations (kept depth) ends
  exact rest ⟨session, holds⟩ value (related value rfl)

/-- A form that makes no function, and that ends wherever it is evaluated in one of the frames. -/
structure Terminates (own : Nat → Prop) (form : Value) : Prop where
  functionless : form.Functionless
  halts : ∀ (world : (inertIn own).simulation.World) (frame : Nat), own frame →
    Halts (run · (.form form frame)) world.1

namespace Terminates

variable {form : Value} {forms : List Value}

theorem kept (terminates : Terminates own form) (inside : own frame) (depth : Nat) :
    (inertIn own).simulation.Computations world (inertIn own).simulation.Values
      (run depth (.form form frame)) (run depth (.form form frame)) :=
  inertIn_evaluate terminates.functionless inside depth

theorem constant (functionless : form.Functionless) (constant : isConstant form) :
    Terminates own form := by
  refine ⟨functionless, fun world frame _ => halts_run ?_⟩
  simp only [step_constant _ _ _ constant]
  exact halts_pure form

theorem symbol (name : Name) : Terminates own (.symbol name) :=
  ⟨.symbol name, fun _ frame _ => halts_run (halts_lookup frame (.symbol name))⟩

theorem halts_inTurn (inside : own frame) (each : ∀ form ∈ forms, Terminates own form) :
    Halts (fun depth => inTurn (run depth) frame forms) world.1 := by
  induction forms generalizing world with
  | nil => exact halts_throw (by simp [Fault.kind])
  | cons form rest ih =>
      obtain ⟨first, others⟩ := List.forall_mem_cons.mp each
      cases rest with
      | nil => exact first.halts world frame inside
      | cons next rest =>
          exact halts_bind (first.kept inside) (first.halts world frame inside)
            fun _ _ _ => ih others

theorem halts_evaluateArguments (inside : own frame) (each : ∀ form ∈ forms, Terminates own form) :
    Halts (fun depth => evaluateArguments (run depth) frame forms) world.1 := by
  induction forms generalizing world with
  | nil => exact halts_pure []
  | cons form rest ih =>
      obtain ⟨first, others⟩ := List.forall_mem_cons.mp each
      have argument (depth : Nat) : (inertIn own).simulation.Computations world
          (inertIn own).simulation.Values (run depth (.argument form frame))
          (run depth (.argument form frame)) :=
        (inertIn_lawful own).computations_run depth
          (.argument ⟨⟨first.functionless, inside⟩, rfl, rfl⟩)
      refine halts_bind argument (halts_run (first.halts world frame inside)) ?_
      intro after value _
      exact (ih others).bind fun _ values _ _ => halts_pure (value :: values)

/-- Applying a value that is not a closure calls a builtin procedure or is an error. -/
theorem halts_apply {procedure : Value} (inert : procedure.Inert) (arguments : List Value)
    {session : Session} : Halts (run · (.apply procedure arguments)) session := by
  refine halts_run ?_
  cases inert with
  | builtin procedure => exact halts_callPrimitive procedure arguments
  | _ => exact halts_showing .inspected _ fun text => by simp [Fault.kind]

theorem halts_perform {special : SpecialForm} {operands : List Value} {shaped : ShapedForm}
    (makes : special ≠ .function ∧ special ≠ .functionDefinition) (inside : own frame)
    (each : ∀ operand ∈ operands, Terminates own operand)
    (expansion : special = .clauses → ∀ form, expandClauses operands = .ok form →
      Terminates own form)
    (reads : ShapedForm.Reads special operands shaped) :
    Halts (fun depth => perform depth (run depth) shaped frame) world.1 := by
  cases reads with
  | quote form => exact halts_pure form
  | assignment name form =>
      have value := each form (by simp)
      refine halts_bind (value.kept inside) (value.halts world frame inside) fun after value _ => ?_
      exact (halts_assign frame (.symbol name) value).bind fun _ _ _ _ => halts_pure _
  | definition name form =>
      have value := each form (by simp)
      refine halts_bind (value.kept inside) (value.halts world frame inside) fun after value _ => ?_
      exact (halts_define frame (.symbol name) value).bind fun _ _ _ _ => halts_pure _
  | shortCondition test consequent =>
      have first := each test (by simp)
      refine halts_bind (first.kept inside) (first.halts world frame inside) fun after value _ => ?_
      cases value.isTruthy with
      | true => exact (each consequent (by simp)).halts after frame inside
      | false => exact halts_pure _
  | fullCondition test consequent alternative =>
      have first := each test (by simp)
      refine halts_bind (first.kept inside) (first.halts world frame inside) fun after value _ => ?_
      cases value.isTruthy with
      | true => exact (each consequent (by simp)).halts after frame inside
      | false => exact (each alternative (by simp)).halts after frame inside
  | sequence forms => exact halts_run (halts_inTurn inside each)
  | clauses expands => exact (expansion rfl _ expands).halts world frame inside
  | function => exact absurd rfl makes.1
  | functionDefinition => exact absurd rfl makes.2

/-- A list ends if all items do that are forms, and also what it expands to if it is a `cond`. -/
theorem list {identity : Option Identity} {head : Value} {operands : List Value}
    (functionless : (Value.sequence identity .round (head :: operands)).Functionless)
    (each : ∀ item ∈ head :: operands, Terminates own item)
    (expansion : SpecialForm.ofHead? head = some .clauses → ∀ form,
      expandClauses operands = .ok form → Terminates own form) :
    Terminates own (.sequence identity .round (head :: operands)) := by
  refine ⟨functionless, fun world frame inside => halts_run ?_⟩
  obtain ⟨first, others⟩ := List.forall_mem_cons.mp each
  cases heads : SpecialForm.ofHead? head with
  | none =>
      simp only [step, heads]
      refine halts_bind (first.kept inside) (first.halts world frame inside) ?_
      rintro after procedure ⟨inert, -⟩
      exact (halts_evaluateArguments inside others).bind fun _ arguments _ _ =>
        halts_apply inert arguments
  | some special =>
      simp only [step, heads]
      refine halts_run ((halts_ofOperands operands (functionless.special heads).1).bind ?_)
      intro depth shaped after ends
      rw [outcome_ofExcept] at ends
      obtain ⟨shape, rfl⟩ := Prod.mk.inj ends
      refine halts_perform (functionless.special heads) inside others ?_
        (ShapedForm.reads_of_ofOperands shape)
      rintro rfl
      exact expansion heads

theorem falsehood : Terminates own (.ofBool false) := .constant (.literal (by decide)) rfl

/-- The `if` forms that a `cond` expands to end if their parts do. -/
theorem choice {test consequent alternative : Value} (first : Terminates own test)
    (second : Terminates own consequent) (third : Terminates own alternative) :
    Terminates own (.list [.named "if", test, consequent, alternative]) := by
  refine .list (.choice first.functionless second.functionless third.functionless) ?_ ?_
  · simp [Value.named, symbol, first, second, third]
  · rintro ⟨⟩

end Terminates

/-- Every form that makes no function ends. What a `cond` expands to is no part of it, but is built
of parts that end. -/
theorem terminates_of_functionless {form : Value} (functionless : form.Functionless) :
    Terminates own form := by
  obtain ⟨made, free⟩ := functionless
  induction made with
  | number value => exact .constant ⟨.number value, free⟩ rfl
  | string text => exact .constant ⟨.string text, free⟩ rfl
  | symbol name => exact .symbol name
  | keyword name => exact .constant ⟨.keyword name, free⟩ rfl
  | literal literal => exact .constant ⟨.literal literal, free⟩ rfl
  | @sequence identity bracket items made ih =>
      have whole : (Value.sequence identity bracket items).Functionless :=
        ⟨.sequence identity bracket made, free⟩
      have each (item : Value) (member : item ∈ items) : Terminates own item :=
        ih item member (whole.items item member).free
      cases bracket with
      | square => exact .constant whole rfl
      | round =>
          cases items with
          | nil => exact .constant whole rfl
          | cons head operands =>
              refine .list whole each fun _ form expands => ?_
              refine expandClauses_closed .falsehood (fun _ _ _ => .choice) expands ?_
              exact fun operand member => each operand (List.mem_cons_of_mem _ member)

/-- What forms come to that are evaluated one after the other, each in the session that the one
before it has left, whether that one has failed or not. -/
def evaluateEach (depth frame : Nat) :
    List Value → Session → List (Except Fault Value) × Session
  | [], session => ([], session)
  | form :: rest, session =>
      let (result, after) := (evaluate depth form frame).outcome session
      let (results, last) := evaluateEach depth frame rest after
      (result :: results, last)

variable {session : Session} {forms : List Value}

/-- Whatever the budget is, forms that make no functions come to inert values, store no others, and
do so in the frames in question only. -/
theorem evaluateEach_inert (depth : Nat) (functionless : ∀ form ∈ forms, form.Functionless)
    (inside : own frame) (inert : session.InertIn own) {results : List (Except Fault Value)}
    {last : Session} (ends : evaluateEach depth frame forms session = (results, last)) :
    (∀ result ∈ results, ∀ value, result = .ok value → value.Inert) ∧ last.InertIn own ∧
      (inertIn own).Later session last := by
  induction forms generalizing session results with
  | nil =>
      cases ends
      exact ⟨by simp, inert, (inertIn own).later_refl _⟩
  | cons form rest ih =>
      obtain ⟨first, others⟩ := List.forall_mem_cons.mp functionless
      let world : (inertIn own).simulation.World := ⟨session, inert⟩
      have kept := @inertIn_evaluate own world frame form first inside depth
      obtain ⟨holds, later, value⟩ := of_computations kept Prod.mk.eta.symm
      cases ends
      obtain ⟨values, lastInert, lastLater⟩ := ih others holds Prod.mk.eta.symm
      refine ⟨List.forall_mem_cons.mpr ⟨?_, values⟩, lastInert, ?_⟩
      · exact fun returned ended => (value returned ended).1
      · exact (inertIn own).later_trans later lastLater

theorem evaluateEach_halts (functionless : ∀ form ∈ forms, form.Functionless) (inside : own frame)
    (inert : session.InertIn own) :
    ∃ results last, (∀ result ∈ results, Finished result) ∧
      ∀ᶠ depth in atTop, evaluateEach depth frame forms session = (results, last) := by
  induction forms generalizing session with
  | nil => exact ⟨[], session, by simp, .of_forall fun _ => rfl⟩
  | cons form rest ih =>
      obtain ⟨first, others⟩ := List.forall_mem_cons.mp functionless
      obtain ⟨result, after, finished, ends⟩ :=
        (terminates_of_functionless first).halts ⟨session, inert⟩ frame inside
      obtain ⟨depth, ended⟩ := ends.exists
      have alone : evaluateEach depth frame [form] session = ([result], after) := by
        simp only [evaluateEach, evaluate, ended]
      obtain ⟨-, holds, -⟩ :=
        evaluateEach_inert depth (List.forall_mem_singleton.mpr first) inside inert alone
      obtain ⟨results, last, restFinished, restEnds⟩ := ih others holds
      refine ⟨result :: results, last, List.forall_mem_cons.mpr ⟨finished, restFinished⟩, ?_⟩
      filter_upwards [ends, restEnds] with depth ended restEnded
      simp only [evaluateEach, evaluate, ended, restEnded]

/-- Where no closure can be reached, forms in which neither `fn` nor `defn` heads a list come to the
same values and errors with every budget that is large enough, and none of the errors is that the
budget has run out. With any budget, no value that comes out holds a closure, none that can be
reached afterwards does, and frames that could not be reached are as they were. -/
theorem evaluateEach_terminates {session : Session} {frame : Nat}
    (inert : session.heap.InertAround frame) {forms : List Value}
    (functionless : ∀ form ∈ forms, form.Functionless) :
    (∃ enough results last,
        (∀ result ∈ results, ∀ fault, result = .error fault → fault.kind ≠ .recursion) ∧
          ∀ depth, enough ≤ depth → evaluateEach depth frame forms session = (results, last)) ∧
      ∀ depth results last, evaluateEach depth frame forms session = (results, last) →
        (∀ result ∈ results, ∀ value, result = .ok value → value.Inert) ∧
          last.heap.InertAround frame ∧
          ∀ id, ¬ session.heap.Reach frame .nil id →
            last.heap.frames[id]? = session.heap.frames[id]? := by
  have holds := Session.inertIn_reach inert
  refine ⟨?_, fun depth results last ends => ?_⟩
  · obtain ⟨results, last, finished, ends⟩ := evaluateEach_halts functionless .start holds
    obtain ⟨enough, ended⟩ := Filter.eventually_atTop.mp ends
    exact ⟨enough, results, last, finished, ended⟩
  · obtain ⟨values, lastHolds, later⟩ := evaluateEach_inert depth functionless .start holds ends
    exact ⟨values, lastHolds.inertAround .start, later⟩

/-- With the builtin procedures bound, a list is bound and printed by the last clause of a
`cond`. -/
theorem evaluateEach_terminates_cond :
    let forms : List Value :=
      [.list [.named "def", .named "x", .list [.named "cons", .nil, .nil]],
        .list [.named "cond", .ofBool false, .named "x",
          .keyword (.plain "else"), .list [.named "println", .named "x"]]]
    let each (depth : Nat) := evaluateEach depth 0 forms Interpreter.initialSession
    (each 20).1 = [.ok (.named "ok"), .ok (.sequence (some (.made 0)) .round [.nil])] ∧
      (each 20).2.printed = "(nil)\n" ∧ (each 20).2.heap.InertAround 0 ∧
      ∃ enough, ∀ depth, enough ≤ depth → each depth = each enough := by
  intro forms each
  have inert : Interpreter.initialSession.heap.InertAround 0 := fun id reached _ found =>
    Interpreter.all_initialHeap .builtin id reached found
  have name (base : String) : (Value.named base).Functionless := .symbol _
  have constant : Value.nil.Functionless ∧ (Value.ofBool false).Functionless :=
    ⟨.literal (by decide), .literal (by decide)⟩
  have made : (Value.list [.named "cons", .nil, .nil]).Functionless :=
    .headed (by decide) (by simp [constant])
  have printing : (Value.list [.named "println", .named "x"]).Functionless :=
    .headed (by decide) (by simp [name])
  have functionless : ∀ form ∈ forms, form.Functionless := by
    refine List.forall_mem_cons.mpr ⟨.headed (by decide) (by simp [name, made]), ?_⟩
    refine List.forall_mem_singleton.mpr (.headed (by decide) ?_)
    simp [name, constant, printing, Value.Functionless.keyword]
  obtain ⟨⟨enough, results, last, -, ends⟩, kept⟩ := evaluateEach_terminates inert functionless
  refine ⟨rfl, rfl, (kept 20 _ _ rfl).2.1, enough, fun depth le => ?_⟩
  exact (ends depth le).trans (ends enough le_rfl).symm

end Evaluation

end TinyLisp
