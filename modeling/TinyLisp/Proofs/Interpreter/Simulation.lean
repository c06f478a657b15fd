import TinyLisp.Interpreter
import TinyLisp.Proofs.Evaluation.Invariant
import TinyLisp.Proofs.Value.WellFormed

/-!
# Simulation of interpreters

An interpreter reads text, notes what it does, and evaluates forms in the global frame. If all of
this is matched in another session, calls of the interpreter are matched as a whole.
-/

namespace TinyLisp

namespace Interpreter

/-- One call of an interpreter, with the budget that there is for it. -/
inductive Command where
  | chunk (depth : Nat) (text : String)
  | line (depth : Nat) (text : String)

namespace Command

def text : Command → String
  | chunk _ text | line _ text => text

/-- Carries out a call with evaluators for all budgets. -/
def runWith (evaluator : Nat → Evaluator) : Command → Run Value
  | chunk depth text => evaluateText (evaluator depth) text
  | line depth text => evaluateLine (evaluator depth) text

def run : Command → Run Value
  | chunk depth text => evaluateText (evaluate depth) text
  | line depth text => evaluateLine (evaluate depth) text

theorem run_eq_runWith (command : Command) : command.run = command.runWith evaluate := by
  cases command <;> rfl

end Command

theorem outcome_readText {text : String} {forms : List Value}
    (read : readForms text.toList = .ok forms) (session : Session) :
    (readText text).outcome session =
      (.ok (Value.identifiedAll session.sequencesRead forms).1,
        { session with
          sequencesRead := (Value.identifiedAll session.sequencesRead forms).2 }) := by
  rw [readText, Run.outcome_bind, Run.outcome_ofExcept, read]
  rfl

theorem outcome_readText_error {text : String} {fault : ReadFault}
    (read : readForms text.toList = .error fault) (session : Session) :
    (readText text).outcome session = (.error (.reading fault), session) := by
  rw [readText, Run.outcome_bind, Run.outcome_ofExcept, read]
  rfl

/-- Reading a text fails, or its forms are made by the reader and numbered. Nothing but the count of
sequences changes. -/
theorem outcome_readText_cases (text : String) (session : Session) :
    (∃ fault, (readText text).outcome session = (.error (.reading fault), session)) ∨
      ∃ forms : List Value, (∀ form ∈ forms, form.ReaderMade) ∧
        (readText text).outcome session =
          (.ok (Value.identifiedAll session.sequencesRead forms).1,
            { session with
              sequencesRead := (Value.identifiedAll session.sequencesRead forms).2 }) := by
  cases read : readForms text.toList with
  | ok forms =>
      exact .inr ⟨forms, Value.readerMade_of_readForms read, outcome_readText read session⟩
  | error fault => exact .inl ⟨fault, outcome_readText_error read session⟩

open Evaluation Simulation

/-- The rules that make what two interpreters do with forms match. -/
structure Calls (simulation : Simulation) (evaluator other : Evaluator) : Prop where
  evaluations : ∀ {world form otherForm},
    simulation.Forms world globalFrame globalFrame form otherForm →
      simulation.Computations world simulation.Values (evaluator form globalFrame)
        (other otherForm globalFrame)
  lines : ∀ {world forms others},
    simulation.FormLists world globalFrame globalFrame forms others →
      simulation.Forms world globalFrame globalFrame (.list (.named "do" :: forms))
        (.list (.named "do" :: others))
  nil : ∀ {world}, simulation.Values world .nil .nil
  formNotes : ∀ {world form other}, simulation.Forms world globalFrame globalFrame form other →
    simulation.Computations world (fun _ _ _ => True) (Run.note (.formRead form))
      (Run.note (.formRead other))
  valueNotes : ∀ {world value other}, simulation.Values world value other →
    simulation.Computations world (fun _ _ _ => True) (Run.note (.formEvaluated value))
      (Run.note (.formEvaluated other))
  lineNotes : ∀ {world} (count : Nat),
    simulation.Computations world (fun _ _ _ => True) (Run.note (.lineRead count))
      (Run.note (.lineRead count))

/-- A text is read into forms that match. -/
def Readings (simulation : Simulation) (world : simulation.World) (text : String) : Prop :=
  simulation.Computations world (fun after => simulation.FormLists after globalFrame globalFrame)
    (readText text) (readText text)

namespace Calls

variable {simulation : Simulation} {evaluator other : Evaluator}
  (calls : Calls simulation evaluator other) {world : simulation.World}

include calls

theorem computations_evaluateForms {forms others : List Value} {result otherResult : Value}
    (results : simulation.Values world result otherResult)
    (related : simulation.FormLists world globalFrame globalFrame forms others) :
    simulation.Computations world simulation.Values (evaluateForms evaluator result forms)
      (evaluateForms other otherResult others) := by
  induction forms generalizing world others result otherResult with
  | nil =>
      cases related
      exact computations_pure results
  | cons form rest ih =>
      cases related with
      | cons first more =>
          refine (calls.formNotes first).bind fun noted notedLater _ _ _ => ?_
          have firstNoted := simulation.forms_later notedLater first
          refine (calls.evaluations firstNoted).bind fun done doneLater _ _ values => ?_
          refine (calls.valueNotes values).bind fun last lastLater _ _ _ => ?_
          have evaluated := simulation.later_trans notedLater doneLater
          have later := simulation.later_trans evaluated lastLater
          exact ih (simulation.values_later lastLater values) (formLists_later later more)

theorem computations_evaluateText {text : String} (reading : Readings simulation world text) :
    simulation.Computations world simulation.Values (evaluateText evaluator text)
      (evaluateText other text) := by
  refine reading.bind fun after _ forms others related => ?_
  exact calls.computations_evaluateForms calls.nil related

theorem computations_evaluateLine {line : String} (reading : Readings simulation world line) :
    simulation.Computations world simulation.Values (evaluateLine evaluator line)
      (evaluateLine other line) := by
  refine reading.bind fun after _ forms others related => ?_
  have lengths : forms.length = others.length := related.length_eq
  have empty : forms.isEmpty = others.isEmpty := by
    cases related <;> rfl
  rw [empty, lengths]
  split
  · exact computations_pure calls.nil
  · refine (calls.lineNotes others.length).bind fun noted later _ _ _ => ?_
    exact calls.evaluations (calls.lines (formLists_later later related))

end Calls

/-- A call matches if it is given evaluators that do, and its text is read into forms that match. -/
theorem computations_runWith {simulation : Simulation} {evaluator other : Nat → Evaluator}
    (calls : ∀ depth, Calls simulation (evaluator depth) (other depth)) {world : simulation.World}
    {command : Command} (reading : Readings simulation world command.text) :
    simulation.Computations world simulation.Values (command.runWith evaluator)
      (command.runWith other) := by
  cases command with
  | chunk depth text => exact (calls depth).computations_evaluateText reading
  | line depth text => exact (calls depth).computations_evaluateLine reading

/-- The rules that make all calls of interpreters match. -/
structure Simulates (simulation : Simulation) : Prop where
  calls : ∀ depth, Calls simulation (evaluate depth) (evaluate depth)
  readings : ∀ {world} (text : String), Readings simulation world text

namespace Simulates

variable {simulation : Simulation} (simulates : Simulates simulation) {world : simulation.World}

include simulates

theorem computations_command (command : Command) :
    simulation.Computations world simulation.Values command.run command.run := by
  rw [command.run_eq_runWith]
  exact computations_runWith simulates.calls (simulates.readings command.text)

theorem computations_prelude (depth : Nat) (text : String) :
    simulation.Computations world (fun _ _ _ => True) (evaluatePrelude (evaluate depth) text)
      (evaluatePrelude (evaluate depth) text) := by
  unfold evaluatePrelude
  split
  · have evaluates := @Calls.computations_evaluateText simulation _ _ (simulates.calls depth) world
      text (simulates.readings text)
    exact evaluates.bind fun _ _ _ _ _ => computations_pure trivial
  · exact computations_pure trivial

end Simulates

section

variable {invariant : Invariant} {allowed : Fault → Prop}
  (unaffected : ∀ {session} (sequencesRead : Nat) (events : List Event),
    invariant.Sessions session →
      invariant.Sessions { session with sequencesRead, events } ∧
        invariant.Later session { session with sequencesRead, events })

include unaffected

/-- Calls keep an invariant if evaluation does, and if it does not depend on events. -/
theorem calls_of_guarded {evaluator other : Evaluator}
    (evaluations : ∀ {world form otherForm},
      (invariant.guarded allowed).Forms world globalFrame globalFrame form otherForm →
        (invariant.guarded allowed).Computations world (invariant.guarded allowed).Values
          (evaluator form globalFrame) (other otherForm globalFrame))
    (lines : ∀ {session} {forms : List Value}, invariant.Sessions session →
      (∀ form ∈ forms, invariant.Forms session globalFrame form) →
        invariant.Forms session globalFrame (.list (.named "do" :: forms)))
    (nil : ∀ session, invariant.Values session .nil) :
    Calls (invariant.guarded allowed) evaluator other := by
  have notes {world} (event : Event) :
      (invariant.guarded allowed).Computations world (fun _ _ _ => True) (Run.note event)
        (Run.note event) := by
    obtain ⟨holds, later⟩ := unaffected world.1.sequencesRead (event :: world.1.events) world.2
    exact Invariant.guarded_computations (Run.outcome_note event world.1) holds later
      (fun _ _ => trivial) nofun
  refine ⟨evaluations, ?lines, ⟨nil _, rfl⟩, ?formNotes, ?valueNotes, fun _ => notes _⟩
  case lines =>
      intro world forms others related
      obtain ⟨holds, rfl⟩ := Invariant.forall_of_formLists related
      exact ⟨lines world.2 holds, rfl, rfl⟩
  case formNotes =>
      rintro world form _ ⟨-, -, rfl⟩
      exact notes _
  case valueNotes =>
      rintro world value _ ⟨-, rfl⟩
      exact notes _

/-- Reading keeps an invariant if it holds of what is read. -/
theorem readings_of_guarded {world : (invariant.guarded allowed).World} {text : String}
    (readings : ∀ {session : Session} {forms : List Value} (next : Nat),
      invariant.Sessions session → readForms text.toList = .ok forms →
        ∀ form ∈ (Value.identifiedAll next forms).1, invariant.Forms session globalFrame form)
    (unread : ∀ cause, readForms text.toList = .error cause → allowed (.reading cause)) :
    Readings (invariant.guarded allowed) world text := by
  cases read : readForms text.toList with
  | error cause =>
      exact Invariant.guarded_failed (outcome_readText_error read _) (unread cause read)
  | ok forms =>
      obtain ⟨holds, later⟩ := unaffected
        (Value.identifiedAll world.1.sequencesRead forms).2 world.1.events world.2
      refine Invariant.guarded_computations (outcome_readText read world.1) holds later ?_ nofun
      rintro _ ⟨⟩
      exact formLists_self fun form member => ⟨readings _ holds read form member, rfl, rfl⟩

/-- An invariant of evaluation is one of interpreters if it holds of what is read and does not
depend on events or on how many sequences have been read. -/
theorem simulates_of_invariant
    (evaluations : ∀ {world form other} (depth : Nat),
      invariant.simulation.Forms world globalFrame globalFrame form other →
        invariant.simulation.Computations world invariant.simulation.Values
          (evaluate depth form globalFrame) (evaluate depth other globalFrame))
    (readings : ∀ {session} {form : Value} (next : Nat), invariant.Sessions session →
      form.ReaderMade → invariant.Forms session globalFrame (form.identified next).1)
    (lines : ∀ {session} {forms : List Value}, invariant.Sessions session →
      (∀ form ∈ forms, invariant.Forms session globalFrame form) →
        invariant.Forms session globalFrame (.list (.named "do" :: forms)))
    (nil : ∀ session, invariant.Values session .nil) :
    Simulates (invariant.guarded fun _ => True) := by
  constructor
  case calls =>
      intro depth
      refine calls_of_guarded unaffected (fun forms => ?_) lines nil
      exact Invariant.guarded_of_computations (fun _ => trivial) (evaluations depth forms)
  case readings =>
      intro world text
      refine readings_of_guarded unaffected (fun next holds read => ?_) fun _ _ => trivial
      have made := Value.readerMade_of_readForms read
      exact Value.identifiedAll_closed
        (fun form member next => readings next holds (made form member)) next

end

end Interpreter

end TinyLisp
