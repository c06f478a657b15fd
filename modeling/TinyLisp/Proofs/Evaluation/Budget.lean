import TinyLisp.Evaluation
import TinyLisp.Proofs.Evaluation.Room
import TinyLisp.Proofs.Session.Outcome

/-!
# A greater budget

A run with a greater budget does what the run with the smaller one does, and goes on where that one
has stopped because its budget ran out. No rule of evaluation makes anything else of a budget that
has run out within it.
-/

namespace TinyLisp

namespace Run

variable {α β : Type}

/-- From a session on, the first computation does what the second one does, or it stops earlier for
want of a budget, and has printed the first part of what the second one prints. -/
def StopsShortAt (session : Session) (computation other : Run α) : Prop :=
  ∃ text, (other.outcome session).2.printed = session.printed ++ text ∧
    (computation.outcome session = other.outcome session ∨
      (computation.outcome session).1 = .error .depthExceeded ∧
        ∃ before rest, (computation.outcome session).2.printed = session.printed ++ before ∧
          text = before ++ rest)

/-- The first computation does what the second one does, or stops earlier for want of a budget. -/
def StopsShortOf (computation other : Run α) : Prop :=
  ∀ session, StopsShortAt session computation other

theorem StopsShortAt.outcome_eq {session : Session} {computation other : Run α}
    (short : StopsShortAt session computation other)
    (enough : (computation.outcome session).1 ≠ .error .depthExceeded) :
    other.outcome session = computation.outcome session := by
  obtain ⟨-, -, same | ⟨exhausted, -⟩⟩ := short
  · exact same.symm
  · exact absurd exhausted enough

theorem stopsShortAt_of_cutShort {session : Session} {computation other : Run α}
    {result otherResult : Except Fault α} (ends : computation.outcome session = (result, session))
    (otherEnds : other.outcome session = (otherResult, session))
    (cut : CutShort result otherResult) : StopsShortAt session computation other := by
  refine ⟨"", by simp [otherEnds], ?_⟩
  cases cut with
  | same => exact .inl (ends.trans otherEnds.symm)
  | exhausted => exact .inr ⟨by rw [ends], "", "", by simp [ends], by simp⟩

/-- Two computations that do the same. -/
theorem stopsShortAt_of_eq (text : String) {session after : Session} {computation other : Run α}
    {result : Except Fault α} (ends : computation.outcome session = (result, after))
    (otherEnds : other.outcome session = (result, after))
    (printed : after.printed = session.printed ++ text) : StopsShortAt session computation other :=
  ⟨text, by rw [otherEnds, printed], .inl (ends.trans otherEnds.symm)⟩

theorem stopsShortOf_pure (value : α) : (pure value : Run α).StopsShortOf (pure value) :=
  fun session => stopsShortAt_of_cutShort (outcome_pure value session) (outcome_pure value session)
    (.same _)

theorem stopsShortOf_throw {fault other : Fault}
    (cut : CutShort (.error fault : Except Fault α) (.error other)) :
    (throw fault : Run α).StopsShortOf (throw other) :=
  fun session => stopsShortAt_of_cutShort (outcome_throw fault session)
    (outcome_throw other session) cut

theorem stopsShortOf_ofExcept {result other : Except Fault α} (cut : CutShort result other) :
    (ofExcept result).StopsShortOf (ofExcept other) :=
  fun session => stopsShortAt_of_cutShort (outcome_ofExcept result session)
    (outcome_ofExcept other session) cut

/-- A budget that has run out at once is short of everything. -/
theorem throw_stopsShortOf {computation other : Run α} (short : computation.StopsShortOf other) :
    (throw .depthExceeded : Run α).StopsShortOf other := by
  intro session
  obtain ⟨text, printed, -⟩ := short session
  exact ⟨text, printed, .inr ⟨rfl, "", text, by simp, by simp⟩⟩

theorem StopsShortOf.bind {computation other : Run α} {next otherNext : α → Run β}
    (first : computation.StopsShortOf other)
    (rest : ∀ value, (next value).StopsShortOf (otherNext value)) :
    (computation >>= next).StopsShortOf (other >>= otherNext) := by
  intro session
  obtain ⟨text, printed, ended⟩ := first session
  simp only [StopsShortAt, outcome_bind]
  generalize other.outcome session = otherOutcome at printed ended
  obtain ⟨⟨fault⟩ | ⟨value⟩, middle⟩ := otherOutcome
  · refine ⟨text, printed, ?_⟩
    rcases ended with same | ⟨exhausted, parts⟩
    · exact .inl (by rw [same])
    · generalize computation.outcome session = outcome at exhausted parts
      obtain ⟨result, after⟩ := outcome
      cases exhausted
      exact .inr ⟨rfl, parts⟩
  · obtain ⟨more, morePrinted, moreEnded⟩ := rest value middle
    have whole : ((otherNext value).outcome middle).2.printed =
        session.printed ++ (text ++ more) := by
      rw [morePrinted, printed, String.append_assoc]
    refine ⟨text ++ more, whole, ?_⟩
    rcases ended with same | ⟨exhausted, before, between, beforePrinted, split⟩
    · rw [same]
      rcases moreEnded with moreSame | ⟨exhausted, before, between, beforePrinted, split⟩
      · exact .inl moreSame
      · refine .inr ⟨exhausted, text ++ before, between, ?_, ?_⟩
        · rw [beforePrinted, printed, String.append_assoc]
        · rw [split, String.append_assoc]
    · generalize computation.outcome session = outcome at exhausted beforePrinted
      obtain ⟨result, after⟩ := outcome
      cases exhausted
      exact .inr ⟨rfl, before, between ++ more, beforePrinted, by rw [split, String.append_assoc]⟩

variable {less more : Nat}

theorem stopsShortOf_note (event : Event) : (note event).StopsShortOf (note event) :=
  fun session => stopsShortAt_of_eq "" (outcome_note event session)
    (outcome_note event session) (by simp)

theorem stopsShortOf_print (text : String) : (print text).StopsShortOf (print text) :=
  fun session => stopsShortAt_of_eq text (outcome_print text session)
    (outcome_print text session) rfl

theorem stopsShortOf_makeResult (result : Value) :
    (makeResult result).StopsShortOf (makeResult result) :=
  fun session => stopsShortAt_of_eq "" (outcome_makeResult result session)
    (outcome_makeResult result session) (by simp)

theorem stopsShortOf_makeClosure (parameters body : List Value) (frame : Nat) :
    (makeClosure parameters body frame).StopsShortOf (makeClosure parameters body frame) :=
  fun session => stopsShortAt_of_eq "" (outcome_makeClosure parameters body frame session)
    (outcome_makeClosure parameters body frame session) (by simp)

theorem lookup_stopsShortOf (le : less ≤ more) (frame : Nat) (key : Value) :
    (lookup less frame key).StopsShortOf (lookup more frame key) := by
  intro session
  refine stopsShortAt_of_cutShort (outcome_lookup less frame key session)
    (outcome_lookup more frame key session) ?_
  cases session.heap.lookup frame key with
  | ok value => exact .same _
  | error fault => exact Fault.ofHeap_mono le fault

theorem define_stopsShortOf (le : less ≤ more) (frame : Nat) (key value : Value) :
    (define less frame key value).StopsShortOf (define more frame key value) := by
  intro session
  have ends := outcome_define less frame key value session
  have otherEnds := outcome_define more frame key value session
  cases found : Heap.definable key with
  | ok name =>
      rw [found] at ends otherEnds
      exact stopsShortAt_of_eq "" ends otherEnds (by simp)
  | error fault =>
      rw [found] at ends otherEnds
      exact stopsShortAt_of_cutShort ends otherEnds (Fault.ofHeap_mono le fault)

theorem assign_stopsShortOf (le : less ≤ more) (frame : Nat) (key value : Value) :
    (assign less frame key value).StopsShortOf (assign more frame key value) := by
  intro session
  have ends := outcome_assign less frame key value session
  have otherEnds := outcome_assign more frame key value session
  cases found : session.heap.target frame key with
  | ok owned =>
      rw [found] at ends otherEnds
      exact stopsShortAt_of_eq "" ends otherEnds (by simp)
  | error fault =>
      rw [found] at ends otherEnds
      exact stopsShortAt_of_cutShort ends otherEnds (Fault.ofHeap_mono le fault)

theorem extend_stopsShortOf (le : less ≤ more) (outer : Nat) (keys values : List Value) :
    (extend less outer keys values).StopsShortOf (extend more outer keys values) := by
  intro session
  have ends := outcome_extend less outer keys values session
  have otherEnds := outcome_extend more outer keys values session
  cases paired : Heap.pairUp keys values with
  | ok bindings =>
      rw [paired] at ends otherEnds
      exact stopsShortAt_of_eq "" ends otherEnds (by simp)
  | error fault =>
      rw [paired] at ends otherEnds
      exact stopsShortAt_of_cutShort ends otherEnds (Fault.ofHeap_mono le fault)

end Run

namespace Evaluation

open Run

variable {less more : Nat}

theorem callPrimitive_stopsShortOf (le : less ≤ more) (procedure : Primitive)
    (arguments : List Value) :
    (callPrimitive less procedure arguments).StopsShortOf
      (callPrimitive more procedure arguments) := by
  have itself : (callPrimitive more procedure arguments).StopsShortOf
      (callPrimitive more procedure arguments) := by
    unfold callPrimitive
    split
    · exact (stopsShortOf_print _).bind fun _ => stopsShortOf_makeResult _
    · split
      · exact stopsShortOf_throw (.same _)
      · exact (stopsShortOf_note _).bind fun _ => stopsShortOf_throw (.same _)
  have calls := procedure.call_mono le arguments
  generalize callLess : procedure.call less arguments = result at calls
  generalize callMore : procedure.call more arguments = other at calls
  cases calls with
  | same =>
      have same : callPrimitive less procedure arguments =
          callPrimitive more procedure arguments := by
        simp only [callPrimitive, callLess, callMore]
      rw [same]
      exact itself
  | exhausted =>
      have exhausted : callPrimitive less procedure arguments = throw .depthExceeded := by
        simp only [callPrimitive, callLess]
        exact if_pos (.inr rfl)
      rw [exhausted]
      exact throw_stopsShortOf itself

section

variable {cut whole : Activation → Run Value}
  (inner : ∀ activation, (cut activation).StopsShortOf (whole activation))

include inner

theorem perform_stopsShortOf (le : less ≤ more) (shaped : ShapedForm) (frame : Nat) :
    (perform less cut shaped frame).StopsShortOf (perform more whole shaped frame) := by
  cases shaped with
  | quote form => exact stopsShortOf_pure form
  | assignment target form =>
      refine (inner (.form form frame)).bind fun value => ?_
      exact (assign_stopsShortOf le frame target value).bind fun _ => stopsShortOf_pure _
  | definition name form =>
      refine (inner (.form form frame)).bind fun value => ?_
      exact (define_stopsShortOf le frame name value).bind fun _ => stopsShortOf_pure _
  | condition test consequent alternative =>
      refine (inner (.form test frame)).bind fun value => ?_
      split
      · exact inner (.form consequent frame)
      · cases alternative with
        | some form => exact inner (.form form frame)
        | none => exact stopsShortOf_pure _
  | function parameters body => exact stopsShortOf_makeClosure parameters body frame
  | sequence forms => exact inner (.sequence forms frame)
  | expansion form => exact inner (.form form frame)

theorem inTurn_stopsShortOf (frame : Nat) (forms : List Value) :
    (inTurn cut frame forms).StopsShortOf (inTurn whole frame forms) := by
  induction forms with
  | nil => exact stopsShortOf_throw (.same _)
  | cons form rest ih =>
      cases rest with
      | nil => exact inner (.form form frame)
      | cons next rest => exact (inner (.form form frame)).bind fun _ => ih

theorem evaluateArguments_stopsShortOf (frame : Nat) (forms : List Value) :
    (evaluateArguments cut frame forms).StopsShortOf (evaluateArguments whole frame forms) := by
  induction forms with
  | nil => exact stopsShortOf_pure []
  | cons form rest ih =>
      refine (inner (.argument form frame)).bind fun value => ?_
      exact ih.bind fun values => stopsShortOf_pure (value :: values)

/-- If all that is done within a step does what it should or stops short of it, so does the step. -/
theorem step_stopsShortOf (le : less ≤ more) (activation : Activation) :
    (step less cut activation).StopsShortOf (step more whole activation) := by
  cases activation with
  | form form frame =>
      cases form with
      | number | string | keyword | literal => exact stopsShortOf_pure _
      | symbol name => exact lookup_stopsShortOf le frame (.symbol name)
      | primitive | closure | foreign => exact stopsShortOf_throw (Fault.showing_mono le _ _ _)
      | sequence identity bracket items =>
          cases bracket with
          | square => exact stopsShortOf_pure _
          | round =>
              cases items with
              | nil => exact stopsShortOf_pure _
              | cons head operands =>
                  cases heads : SpecialForm.ofHead? head with
                  | some special =>
                      simp only [step, heads]
                      exact inner (.special special operands frame)
                  | none =>
                      simp only [step, heads]
                      refine (inner (.form head frame)).bind fun procedure => ?_
                      refine (evaluateArguments_stopsShortOf inner frame operands).bind ?_
                      exact fun arguments => inner (.apply procedure arguments)
  | argument form frame => exact inner (.form form frame)
  | special special operands frame =>
      refine (stopsShortOf_ofExcept (ShapedForm.ofOperands_mono le special operands)).bind ?_
      exact fun shaped => perform_stopsShortOf inner le shaped frame
  | sequence forms frame => exact inTurn_stopsShortOf inner frame forms
  | apply procedure arguments =>
      cases procedure with
      | primitive primitive => exact callPrimitive_stopsShortOf le primitive arguments
      | closure id parameters body frame => exact inner (.enter parameters body arguments frame)
      | _ => exact stopsShortOf_throw (Fault.showing_mono le _ _ _)
  | enter parameters body arguments frame =>
      refine (extend_stopsShortOf le frame parameters arguments).bind ?_
      exact fun frame => inner (.sequence body frame)

end

/-- A run with some budget does what the run with a greater one does, or stops short of it. -/
theorem run_stopsShortOf (le : less ≤ more) (activation : Activation) :
    (run less activation).StopsShortOf (run more activation) := by
  induction more generalizing less activation with
  | zero =>
      obtain rfl : less = 0 := Nat.le_zero.mp le
      exact stopsShortOf_throw (.same _)
  | succ more ih =>
      cases less with
      | zero =>
          have itself := step_stopsShortOf (ih (Nat.le_refl more)) (Nat.le_refl more) activation
          exact throw_stopsShortOf itself
      | succ less =>
          have smaller := Nat.le_of_succ_le_succ le
          exact step_stopsShortOf (ih smaller) smaller activation

/-- A budget bounds how far a run gets and does nothing else. Unless it runs out, the run with a
greater one ends in the same way and leaves the same session, and in any case the run has printed
the first part of what that one prints. A step in which a budget runs out stops there as well,
whatever would have followed. -/
theorem run_budget (le : less ≤ more) (activation : Activation) (session : Session) :
    (((run less activation).outcome session).1 ≠ .error .depthExceeded →
        (run more activation).outcome session = (run less activation).outcome session) ∧
      (∃ before rest,
        ((run less activation).outcome session).2.printed = session.printed ++ before ∧
          ((run more activation).outcome session).2.printed =
            session.printed ++ (before ++ rest)) ∧
      ∀ cut whole : Activation → Run Value, (∀ inner, (cut inner).StopsShortOf (whole inner)) →
        (step less cut activation).StopsShortOf (step more whole activation) := by
  have short := run_stopsShortOf le activation session
  refine ⟨short.outcome_eq, ?_, fun cut whole inner => step_stopsShortOf inner le activation⟩
  · obtain ⟨text, printed, ended⟩ := short
    rcases ended with same | ⟨-, before, rest, beforePrinted, rfl⟩
    · exact ⟨text, "", by rw [same, printed], by rw [printed, String.append_empty]⟩
    · exact ⟨before, rest, beforePrinted, printed⟩

/-- With six activations a sequence prints once and no further, nine are enough for it, and with ten
the same happens as with nine. Without any, it is cut short at once. -/
theorem run_budget_println :
    let session : Session :=
      ⟨(Heap.empty.newFrame none [(.plain "println", .primitive (.builtin .println))]).2, 0, 0, "",
        []⟩
    let print : Value := .list [.named "println", .nil]
    let form : Value := .list [.named "do", print, .list [.named "do", print]]
    let printed (depth : Nat) := ((evaluate depth form 0).outcome session).2.printed
    (printed 6 = "nil\n" ∧ ∃ rest, printed 9 = printed 6 ++ rest) ∧
      (evaluate 10 form 0).outcome session = (evaluate 9 form 0).outcome session ∧
      (step 5 (fun _ => throw .depthExceeded) (.form form 0)).StopsShortOf
        (step 8 (run 8) (.form form 0)) := by
  intro session print form printed
  obtain ⟨-, ⟨before, rest, start, whole⟩, -⟩ :=
    run_budget (show 6 ≤ 9 by decide) (.form form 0) session
  have ends : ((run 9 (.form form 0)).outcome session).1 = .ok .nil := rfl
  refine ⟨⟨rfl, rest, ?_⟩, ?_, ?_⟩
  · exact whole.trans (by rw [← String.append_assoc, ← start]; rfl)
  · exact (run_budget (show 9 ≤ 10 by decide) (.form form 0) session).1 (by simp [ends])
  · refine (run_budget (show 5 ≤ 8 by decide) (.form form 0) session).2.2 _ _ fun inner => ?_
    exact throw_stopsShortOf (run_stopsShortOf (Nat.le_refl 8) inner)

end Evaluation

end TinyLisp
