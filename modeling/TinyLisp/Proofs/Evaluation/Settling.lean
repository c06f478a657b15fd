import TinyLisp.Proofs.Evaluation.Budget
import TinyLisp.Proofs.Evaluation.Watched
import TinyLisp.Proofs.Settling
import TinyLisp.Proofs.Value.Founded

/-!
# Runs that settle

Writing a value that reading has made comes to the same with every budget that is large enough. A
run that does so before it has changed anything settles if its first step does. The operands of
special forms are checked in this way.
-/

namespace TinyLisp

theorem Value.Plain.exists_room {form : Value} (plain : form.Plain) :
    ∃ depth, form.obstacle depth = none := by
  obtain ⟨made, brief⟩ := plain
  induction made with
  | @number value _ =>
      have short : ¬ value.exceedsDigitLimit := fun long => brief (.number long)
      exact ⟨0, by rw [obstacle, if_neg short]⟩
  | sequence identity bracket made ih =>
      obtain ⟨depth, clear⟩ := exists_room_among fun item member =>
        ih item member fun long => brief (.item member long)
      refine ⟨depth + callsPerLevel, ?_⟩
      rw [obstacle, if_neg (by omega), Nat.add_sub_cancel, clear]
  | _ => exact ⟨0, rfl⟩

/-- A fault that shows a form of the program text shows the same text whenever there is room. -/
theorem Value.Plain.settles_showing {form : Value} (plain : form.Plain) (style : Style)
    (shown : String → Fault) :
    ∃ text, Settles (fun depth => Fault.showing depth style form shown) .depthExceeded
      (shown text) := by
  have clear {depth : Nat} (room : form.obstacle depth = none) :
      Fault.showing depth style form shown = shown (String.ofList (form.render style)) := by
    rw [Fault.showing, textWithin, room]
  refine ⟨String.ofList (form.render style), fun depth => ?_, ?_⟩
  · cases found : form.obstacle depth with
    | none => exact .inl (clear found)
    | some obstacle =>
        cases obstacle with
        | depth => exact .inr (by rw [Fault.showing, textWithin, found]; rfl)
        | digits => exact absurd found (plain.obstacle_ne_digits depth)
  · obtain ⟨enough, room⟩ := plain.exists_room
    exact ⟨enough, fun depth le => clear (obstacle_eq_none_mono le room)⟩

namespace Evaluation

/-- A watched run, by its budget, ends in an outcome, or stops for want of a budget before it has
changed the session. -/
def EndsIn (barred : Activation → Session → Prop) (fault : Fault) (activation : Activation)
    (session : Session) (outcome : Except Fault Value × Session) : Prop :=
  Settles (fun depth => (runUnless barred fault depth activation).outcome session)
    (.error .depthExceeded, session) outcome

variable {barred : Activation → Session → Prop} {fault failure : Fault} {frame : Nat}
  {session : Session} {outcome : Except Fault Value × Session} {activation : Activation}
  {special : SpecialForm} {operands : List Value} {shaped : ShapedForm}

theorem ends_of_step (spared : ¬ barred activation session)
    (settles : Settles
      (fun depth => (step depth (runUnless barred fault depth) activation).outcome session)
      (.error .depthExceeded, session) outcome) : EndsIn barred fault activation session outcome :=
  settles.succ rfl fun _ => outcome_runUnless_of_not_barred spared

theorem EndsIn.form {identity : Option Identity} {head : Value}
    (ends : EndsIn barred fault (.special special operands frame) session outcome)
    (heads : SpecialForm.ofHead? head = some special)
    (spared : ¬ barred (.form (.sequence identity .round (head :: operands)) frame) session) :
    EndsIn barred fault (.form (.sequence identity .round (head :: operands)) frame) session
      outcome := by
  refine ends_of_step spared ?_
  simp only [step, heads]
  exact ends

/-- Operands without the right shape are an error before anything is carried out. -/
theorem ends_of_malformed (spared : ¬ barred (.special special operands frame) session)
    (failed : Settles (fun depth => ShapedForm.ofOperands depth special operands)
      (.error .depthExceeded) (.error failure)) :
    EndsIn barred fault (.special special operands frame) session (.error failure, session) := by
  have fails {depth : Nat} {found : Fault}
      (shape : ShapedForm.ofOperands depth special operands = .error found) :
      (step depth (runUnless barred fault depth) (.special special operands frame)).outcome
        session = (.error found, session) := by
    rw [step, shape, Run.outcome_bind, Run.outcome_ofExcept]
  refine ends_of_step spared ⟨fun depth => (failed.ends depth).imp fails fails, ?_⟩
  obtain ⟨enough, reached⟩ := failed.enough
  exact ⟨enough, fun depth le => fails (reached depth le)⟩

/-- Operands with the right shape are carried out. -/
theorem ends_of_shaped (spared : ¬ barred (.special special operands frame) session)
    (shape : ∀ depth, ShapedForm.ofOperands depth special operands = .ok shaped)
    (settles : Settles
      (fun depth => (perform depth (runUnless barred fault depth) shaped frame).outcome session)
      (.error .depthExceeded, session) outcome) :
    EndsIn barred fault (.special special operands frame) session outcome := by
  refine ends_of_step spared ?_
  simp only [step, shape]
  exact settles

/-- What a run ends in that is watched for nothing. -/
theorem EndsIn.settles {form : Value}
    (ends : EndsIn (fun _ _ => False) .depthExceeded (.form form frame) session outcome) :
    Settles (fun depth => (evaluate depth form frame).outcome session)
      (.error .depthExceeded, session) outcome := by
  simp only [evaluate, run_eq_runUnless .depthExceeded]
  exact ends

end Evaluation

end TinyLisp
