import TinyLisp.Proofs.Evaluation.Watched
import TinyLisp.Proofs.Interpreter.Simulation

/-!
# What calls of an interpreter come to

A call comes to an activation of some kind if failing there would make a difference. In a simulation
of calls by themselves, calls never come to activations that do not match themselves.
-/

namespace TinyLisp

namespace Interpreter

open Evaluation Simulation

/-- Carries out a call as long as it does not come to an activation of a kind that is barred. -/
noncomputable def Command.runUnless (barred : Activation → Session → Prop) (fault : Fault)
    (command : Command) : Run Value :=
  command.runWith fun depth form frame => Evaluation.runUnless barred fault depth (.form form frame)

/-- From a session on, the call comes to an activation of some kind: with some fault, it would do
something else if it failed there. -/
def Command.ComesTo (kind : Activation → Session → Prop) (command : Command) (session : Session) :
    Prop :=
  ∃ fault, (command.runUnless kind fault).outcome session ≠ command.run.outcome session

/-- A text that cannot be read is not evaluated. -/
theorem Command.outcome_runWith_error {command : Command} {cause : ReadFault}
    (unread : readForms command.text.toList = .error cause) (evaluator : Nat → Evaluator)
    (session : Session) :
    (command.runWith evaluator).outcome session = (.error (.reading cause), session) := by
  cases command with
  | chunk depth text | line depth text =>
      have ends := outcome_readText_error unread session
      simp only [runWith, evaluateText, evaluateLine, Run.outcome_bind, Command.text] at ends ⊢
      rw [ends]

theorem evaluateForms_sameUnless {failing : Fault → Prop} {evaluator other : Evaluator}
    (same : ∀ form frame, (evaluator form frame).SameUnless failing (other form frame))
    (result : Value) (forms : List Value) :
    (evaluateForms evaluator result forms).SameUnless failing
      (evaluateForms other result forms) := by
  induction forms generalizing result with
  | nil => exact .refl _
  | cons form rest ih =>
      refine (Run.SameUnless.refl _).bind fun _ => (same form globalFrame).bind fun value => ?_
      exact (Run.SameUnless.refl _).bind fun _ => ih value

theorem Command.runWith_sameUnless {failing : Fault → Prop} {evaluator other : Nat → Evaluator}
    (same : ∀ depth form frame,
      (evaluator depth form frame).SameUnless failing (other depth form frame))
    (command : Command) :
    (command.runWith evaluator).SameUnless failing (command.runWith other) := by
  cases command with
  | chunk depth text =>
      exact (Run.SameUnless.refl _).bind fun forms =>
        evaluateForms_sameUnless (same depth) .nil forms
  | line depth text =>
      refine (Run.SameUnless.refl _).bind fun forms => ?_
      split
      · exact .refl _
      · exact (Run.SameUnless.refl _).bind fun _ => same depth _ globalFrame

/-- If activations of some kind fail in certain ways, a call that does not fail in one of them does
not come to such an activation. -/
theorem Command.not_comesTo {kind : Activation → Session → Prop} {failing : Fault → Prop}
    (fails : ∀ {activation session} (depth : Nat), kind activation session →
      ∃ fault, failing fault ∧
        ((Evaluation.run (depth + 1) activation).outcome session).1 = .error fault)
    {command : Command} {session : Session}
    (otherwise : ∀ fault, failing fault → (command.run.outcome session).1 ≠ .error fault) :
    ¬ command.ComesTo kind session := by
  rintro ⟨watcher, differs⟩
  have same := command.runWith_sameUnless
    (fun depth form frame => run_sameUnless fails watcher depth (.form form frame)) session
  rcases same with same | ⟨fault, fails, failed⟩
  · exact differs (by rw [Command.run_eq_runWith]; exact same.symm)
  · exact otherwise fault fails (by rw [Command.run_eq_runWith]; exact failed)

variable {invariant : Invariant} {allowed : Fault → Prop}
  {world : (invariant.guarded allowed).World}

/-- A call that matches itself keeps the invariant, and fails in allowed ways only. -/
theorem holds_of_guarded {command : Command} {evaluator : Nat → Evaluator}
    (calls : ∀ depth, Calls (invariant.guarded allowed) (evaluator depth) (evaluator depth))
    (reading : Readings (invariant.guarded allowed) world command.text) :
    let outcome := (command.runWith evaluator).outcome world.1
    invariant.Sessions outcome.2 ∧ invariant.Later world.1 outcome.2 ∧
      (∀ value, outcome.1 = .ok value → invariant.Values outcome.2 value) ∧
      ∀ fault, outcome.1 = .error fault → allowed fault := by
  intro outcome
  obtain ⟨⟨_, holds⟩, later, rfl, -, results⟩ := computations_runWith calls reading
  refine ⟨holds, later, fun value ended => ?_, fun fault failed => ?_⟩
  · change Results _ _ outcome.1 outcome.1 at results
    rw [ended] at results
    cases results with
    | ok related => exact related.1
  · change Results _ _ outcome.1 outcome.1 at results
    rw [failed] at results
    cases results with
    | error related => exact related.2

/-- Two calls that match end in the same way, and leave the same session. -/
theorem outcome_eq_of_guarded {command : Command} {evaluator other : Nat → Evaluator}
    (calls : ∀ depth, Calls (invariant.guarded allowed) (evaluator depth) (other depth))
    (reading : Readings (invariant.guarded allowed) world command.text) :
    (command.runWith evaluator).outcome world.1 = (command.runWith other).outcome world.1 := by
  obtain ⟨after, -, left, right, results⟩ := computations_runWith calls reading
  refine Prod.ext ?_ (left.trans right.symm)
  change Results _ _ ((command.runWith evaluator).outcome world.1).1
    ((command.runWith other).outcome world.1).1 at results
  generalize ((command.runWith evaluator).outcome world.1).1 = result at results
  generalize ((command.runWith other).outcome world.1).1 = otherResult at results
  cases results with
  | ok related => rw [related.2]
  | error related => rw [related.1]

end Interpreter

end TinyLisp
