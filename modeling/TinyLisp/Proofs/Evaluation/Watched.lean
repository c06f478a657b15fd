import TinyLisp.Proofs.Evaluation.Invariant

/-!
# Watched runs

A run can be watched for activations of some kind: it fails with a fault of the watcher's choice as
soon as it comes to one. Where this makes no difference, whatever the fault is, the run never comes
to such an activation. If activations of the kind never match any others, watched runs match runs
that are not watched. If activations of the kind always fail, no fault is caught that they fail
with, and a run that does not fail in this way has not come to one.
-/

namespace TinyLisp

namespace Run

variable {α β : Type} {failing : Fault → Prop}

/-- The computations do the same, unless the first one fails in one of certain ways. -/
def SameUnless (failing : Fault → Prop) (computation other : Run α) : Prop :=
  ∀ session, computation.outcome session = other.outcome session ∨
    ∃ fault, failing fault ∧ (computation.outcome session).1 = .error fault

theorem SameUnless.refl (computation : Run α) : computation.SameUnless failing computation :=
  fun _ => .inl rfl

theorem SameUnless.bind {computation other : Run α} {next otherNext : α → Run β}
    (first : computation.SameUnless failing other)
    (rest : ∀ value, (next value).SameUnless failing (otherNext value)) :
    (computation >>= next).SameUnless failing (other >>= otherNext) := by
  intro session
  rw [outcome_bind, outcome_bind]
  rcases first session with same | ⟨fault, fails, failed⟩
  · rw [← same]
    generalize computation.outcome session = ended
    obtain ⟨⟨fault⟩ | ⟨value⟩, middle⟩ := ended
    · exact .inl rfl
    · exact rest value middle
  · refine .inr ⟨fault, fails, ?_⟩
    generalize computation.outcome session = ended at failed
    obtain ⟨result, middle⟩ := ended
    cases failed
    rfl

end Run

namespace Evaluation

open Classical in
/-- Carries out an activation as long as no activation within it, nor itself, is of a kind that is
barred. The kind may depend on the session at that moment. -/
noncomputable def runUnless (barred : Activation → Session → Prop) (fault : Fault) :
    Nat → Activation → Run Value
  | 0, _ => throw .depthExceeded
  | depth + 1, activation => do
      if barred activation (← get) then throw fault
      else step depth (runUnless barred fault depth) activation

variable {barred otherBarred : Activation → Session → Prop} {fault otherFault : Fault} {depth : Nat}
  {activation : Activation} {session : Session}

theorem outcome_runUnless_of_barred (hit : barred activation session) :
    (runUnless barred fault (depth + 1) activation).outcome session = (.error fault, session) := by
  classical
  change (if barred activation session then (throw fault : Run Value)
    else step depth (runUnless barred fault depth) activation).outcome session = _
  rw [if_pos hit, Run.outcome_throw]

theorem outcome_runUnless_of_not_barred (spared : ¬ barred activation session) :
    (runUnless barred fault (depth + 1) activation).outcome session =
      (step depth (runUnless barred fault depth) activation).outcome session := by
  classical
  change (if barred activation session then (throw fault : Run Value)
    else step depth (runUnless barred fault depth) activation).outcome session = _
  rw [if_neg spared]

/-- A run is watched for nothing. -/
theorem run_eq_runUnless (fault : Fault) (depth : Nat) :
    run depth = runUnless (fun _ _ => False) fault depth := by
  induction depth with
  | zero => rfl
  | succ depth ih =>
      funext activation
      apply funext
      intro session
      have spared := @outcome_runUnless_of_not_barred (fun _ _ => False) fault depth activation
        session not_false
      rw [← ih] at spared
      exact spared.symm

namespace Simulation

variable {simulation : Simulation}

/-- Watched runs match if they are watched for activations that match, and if the rules that take
forms apart and apply procedures obey the simulation wherever they are not barred. -/
theorem Basic.computations_runUnless (basic : simulation.Basic)
    (bars : ∀ {world activation other}, simulation.Activations world activation other →
      (barred activation (simulation.left world) ↔ otherBarred other (simulation.right world)))
    (faults : ∀ {world activation other}, simulation.Activations world activation other →
      barred activation (simulation.left world) → simulation.Faults fault otherFault)
    (steps : ∀ {world frame otherFrame form other},
      ¬ barred (.form form frame) (simulation.left world) →
        simulation.Forms world frame otherFrame form other →
          simulation.Steps world frame otherFrame form other)
    (applications : ∀ {world procedure other arguments otherArguments},
      ¬ barred (.apply procedure arguments) (simulation.left world) →
        simulation.Values world procedure other →
          List.Forall₂ (simulation.Values world) arguments otherArguments →
            simulation.Applications world arguments otherArguments procedure other)
    (depth : Nat) {world : simulation.World} {activation other : Activation}
    (related : simulation.Activations world activation other) :
    simulation.Computations world simulation.Values (runUnless barred fault depth activation)
      (runUnless otherBarred otherFault depth other) := by
  induction depth generalizing world activation other with
  | zero => exact computations_throw basic.depthExceeded
  | succ depth ih =>
      by_cases hit : barred activation (simulation.left world)
      · have otherHit := (bars related).mp hit
        exact computations_of_outcome (simulation.later_refl world)
          (outcome_runUnless_of_barred hit) (outcome_runUnless_of_barred otherHit)
          (.error (faults related hit))
      · have spared := fun otherHit => hit ((bars related).mpr otherHit)
        have matched := computations_step basic ih depth related
          (fun same forms => steps (same ▸ hit) forms)
          (fun same values others => applications (same ▸ hit) values others)
        rw [Computations, outcome_runUnless_of_not_barred hit,
          outcome_runUnless_of_not_barred spared]
        exact matched

/-- Runs that never come to a barred activation are not changed by watching them. -/
theorem Lawful.computations_run_runUnless (lawful : simulation.Lawful)
    (spares : ∀ {world activation other}, simulation.Activations world activation other →
      ¬ barred other (simulation.right world)) (fault : Fault)
    (depth : Nat) {world : simulation.World} {activation other : Activation}
    (related : simulation.Activations world activation other) :
    simulation.Computations world simulation.Values (run depth activation)
      (runUnless barred fault depth other) := by
  rw [run_eq_runUnless fault]
  apply lawful.toBasic.computations_runUnless _ _ (fun _ => lawful.steps)
    (fun _ => lawful.applications) depth related
  · intro world activation other related
    exact iff_of_false not_false (spares related)
  · intro world activation other related hit
    exact absurd hit not_false

end Simulation

section

variable {failing : Fault → Prop} {first second : Activation → Run Value}
  (inner : ∀ activation, (first activation).SameUnless failing (second activation))

include inner

theorem perform_sameUnless (depth : Nat) (shaped : ShapedForm) (frame : Nat) :
    (perform depth first shaped frame).SameUnless failing
      (perform depth second shaped frame) := by
  cases shaped with
  | quote form => exact .refl _
  | assignment target form => exact (inner (.form form frame)).bind fun _ => .refl _
  | definition name form => exact (inner (.form form frame)).bind fun _ => .refl _
  | condition test consequent alternative =>
      refine (inner (.form test frame)).bind fun value => ?_
      split
      · exact inner (.form consequent frame)
      · cases alternative with
        | some form => exact inner (.form form frame)
        | none => exact .refl _
  | function parameters body => exact .refl _
  | sequence forms => exact inner (.sequence forms frame)
  | expansion form => exact inner (.form form frame)

theorem inTurn_sameUnless (frame : Nat) (forms : List Value) :
    (inTurn first frame forms).SameUnless failing (inTurn second frame forms) := by
  induction forms with
  | nil => exact .refl _
  | cons form rest ih =>
      cases rest with
      | nil => exact inner (.form form frame)
      | cons next rest => exact (inner (.form form frame)).bind fun _ => ih

theorem evaluateArguments_sameUnless (frame : Nat) (forms : List Value) :
    (evaluateArguments first frame forms).SameUnless failing
      (evaluateArguments second frame forms) := by
  induction forms with
  | nil => exact .refl _
  | cons form rest ih =>
      exact (inner (.argument form frame)).bind fun value => ih.bind fun _ => .refl _

/-- A step does the same if all that is done within it does, unless some of that fails in one of the
ways. -/
theorem step_sameUnless (depth : Nat) (activation : Activation) :
    (step depth first activation).SameUnless failing (step depth second activation) := by
  cases activation with
  | form form frame =>
      cases form with
      | sequence identity bracket items =>
          cases bracket with
          | square => exact .refl _
          | round =>
              cases items with
              | nil => exact .refl _
              | cons head operands =>
                  cases heads : SpecialForm.ofHead? head with
                  | some special =>
                      simp only [step, heads]
                      exact inner (.special special operands frame)
                  | none =>
                      simp only [step, heads]
                      refine (inner (.form head frame)).bind fun procedure => ?_
                      refine (evaluateArguments_sameUnless inner frame operands).bind ?_
                      exact fun arguments => inner (.apply procedure arguments)
      | _ => exact .refl _
  | argument form frame => exact inner (.form form frame)
  | special special operands frame =>
      exact (Run.SameUnless.refl _).bind fun shaped => perform_sameUnless inner depth shaped frame
  | sequence forms frame => exact inTurn_sameUnless inner frame forms
  | apply procedure arguments =>
      cases procedure with
      | closure id parameters body frame => exact inner (.enter parameters body arguments frame)
      | _ => exact .refl _
  | enter parameters body arguments frame =>
      exact (Run.SameUnless.refl _).bind fun inside => inner (.sequence body inside)

end

/-- If barred activations fail in certain ways, a run that does not fail in one of them is not
changed by watching it. -/
theorem run_sameUnless {failing : Fault → Prop}
    (fails : ∀ {activation session} (depth : Nat), barred activation session →
      ∃ fault, failing fault ∧ ((run (depth + 1) activation).outcome session).1 = .error fault)
    (watcher : Fault) (depth : Nat) (activation : Activation) :
    (run depth activation).SameUnless failing (runUnless barred watcher depth activation) := by
  induction depth generalizing activation with
  | zero => exact .refl _
  | succ depth ih =>
      intro session
      by_cases hit : barred activation session
      · exact .inr (fails depth hit)
      · rw [outcome_runUnless_of_not_barred hit]
        exact step_sameUnless ih depth activation session

end Evaluation

end TinyLisp
