import TinyLisp.Proofs.Interpreter.Lexical

/-!
# What calls of an interpreter fail with

A text that cannot be read is not evaluated. Evaluation of a text that is read is evaluation of
code, and the faults of code are of a few kinds only. Two of them are the machine's: the budget is
exhausted, or an integer has too many digits, in a text or in a value that is shown because it is
applied but is no procedure.
-/

namespace TinyLisp

/-- The kinds of faults that evaluation of code ends in without writing too many digits. -/
def evaluationKinds : List ErrorKind :=
  [.unboundVariable, .arity, .malformedForm, .malformedCond, .native, .unknownProcedureType,
    .recursion]

/-- The kinds of faults that calls of an interpreter end in. -/
def failureKinds : List ErrorKind := .parse :: .value :: evaluationKinds

theorem Fault.admits_kinds : Fault.Admits fun fault => fault.kind ∈ evaluationKinds := by
  constructor <;> intros <;> simp [Fault.kind, evaluationKinds]

namespace Interpreter

open Evaluation Invariant Simulation

/-- A value is applied that is no procedure, and there is an integer with more digits in it than a
text may have. -/
inductive ShowsOverlong : Activation → Session → Prop
  | apply {procedure : Value} {arguments : List Value} {session : Session}
      (stuck : isProcedure procedure = false) (long : procedure.HoldsOverlong) :
      ShowsOverlong (.apply procedure arguments) session

/-- A closure is applied to as many arguments as it has parameters, but these cannot be bound, or
there is nothing to evaluate then. -/
inductive Misapplies : Activation → Session → Prop
  | binding {id frame : Nat} {parameters body arguments : List Value} {session : Session}
      {fault : HeapFault} (fits : parameters.length = arguments.length)
      (failed : Heap.pairUp parameters arguments = .error fault) :
      Misapplies (.apply (.closure id parameters body frame) arguments) session
  | body {id frame : Nat} {parameters arguments : List Value} {session : Session} :
      Misapplies (.apply (.closure id parameters [] frame) arguments) session

variable {texts : List (Nat × String)} {session : Session} {returned : List Value}

theorem not_comesTo_misapplies (holds : session.Scoped (SourceForm texts)) (command : Command) :
    ¬ command.ComesTo Misapplies session := by
  apply not_comesTo holds command
  rintro world activation other related misapplies
  have founds {id frame : Nat} {parameters body arguments : List Value}
      (related : Activations _ world activation
        (.apply (.closure id parameters body frame) arguments)) :
      world.1.Founds (SourceForm (command.given session texts)) parameters body frame := by
    cases related with
    | apply procedures =>
        obtain ⟨founded, rfl⟩ := procedures
        cases founded with
        | closure id founds => exact founds
  cases misapplies with
  | binding fits failed =>
      rw [Heap.pairUp_symbols (founds related).symbols, if_pos fits] at failed
      cases failed
  | body =>
      obtain ⟨level, function, -⟩ := founds related
      exact function.filled rfl

/-- A text that is read fails to be evaluated with one of a few kinds of faults, unless too many
digits are shown. -/
theorem kind_mem_of_spared (holds : session.Scoped (SourceForm texts)) {command : Command}
    {forms : List Value} (read : readForms command.text.toList = .ok forms)
    (spared : ¬ command.ComesTo ShowsOverlong session) {fault : Fault}
    (failed : (command.run.outcome session).1 = .error fault) : fault.kind ∈ evaluationKinds := by
  let world : ((lexical (SourceForm (command.given session texts))).guarded
      fun fault => fault.kind ∈ evaluationKinds).World := ⟨session, scoped_given holds command⟩
  have regular :=
    lexical_regular Fault.admits_kinds (SourceForm.plain (command.given session texts))
  have reading : Readings _ world command.text := lexical_readings rfl read
  have unchanged : (command.runUnless ShowsOverlong .depthExceeded).outcome session =
      command.run.outcome session := by
    by_contra differs
    exact spared ⟨_, differs⟩
  rw [← unchanged] at failed
  refine (holds_of_guarded (fun depth => lexical_calls fun code => ?_) reading).2.2.2 fault failed
  refine regular.computations_runUnless ?_ ?_ (fun _ => regular.steps) ?_ depth
    (.form ⟨code, rfl, rfl⟩)
  · intro world activation other related
    cases related with
    | apply procedures =>
        obtain ⟨-, rfl⟩ := procedures
        constructor <;> rintro ⟨stuck, long⟩ <;> exact .apply stuck long
    | _ => exact iff_of_false nofun nofun
  · exact fun _ _ => ⟨rfl, Fault.admits_kinds.depthExceeded⟩
  · intro world procedure other arguments otherArguments spared
    exact lexical_applications Fault.admits_kinds fun stuck long =>
      absurd (.apply stuck long) spared

/-- Evaluating a text that is read fails with one of a few kinds of faults, or with the fault of
writing too many digits. -/
theorem fault_of_read (holds : session.Scoped (SourceForm texts)) {command : Command}
    {forms : List Value} (read : readForms command.text.toList = .ok forms) {fault : Fault}
    (failed : (command.run.outcome session).1 = .error fault) :
    fault.kind ∈ evaluationKinds ∨ fault = .tooManyDigits := by
  have admits : Fault.Admits fun fault =>
      fault.kind ∈ evaluationKinds ∨ fault = .tooManyDigits :=
    Fault.admits_kinds.imp fun _ => .inl
  refine (lexical_outcome holds command admits (.inr rfl) fun cause unread => ?_).2.2.2 fault failed
  rw [read] at unread
  cases unread

/-- In every session that an interpreter gets to, calls fail with faults of a few kinds only. If a
text cannot be read nothing has changed. There are too many digits in an integer of the text, or of
a value that is applied and shown, if these are at fault. Closures with the right number of
arguments are always entered. -/
theorem failures_of_reached (reached : Reached session returned) (command : Command) :
    (∀ fault, (command.run.outcome session).1 = .error fault →
      fault.kind ∈ failureKinds ∧
      (fault.kind = .parse → ∃ cause, readForms command.text.toList = .error cause ∧
        command.run.outcome session = (.error (.reading cause), session)) ∧
      (fault.kind = .value →
        (∃ count, fault = .reading (.tooManyDigits count) ∧
          readForms command.text.toList = .error (.tooManyDigits count) ∧
          ∃ token ∈ (scan command.text.toList).tokens, ¬ token.WithinDigitLimit) ∨
        fault = .tooManyDigits ∧ command.ComesTo ShowsOverlong session)) ∧
      ¬ command.ComesTo Misapplies session := by
  obtain ⟨texts, history⟩ := reached.history
  obtain ⟨holds, -⟩ := history.scoped
  refine ⟨fun fault failed => ?_, not_comesTo_misapplies holds command⟩
  cases read : readForms command.text.toList with
  | error cause =>
      have ends : command.run.outcome session = (.error (.reading cause), session) := by
        rw [command.run_eq_runWith, Command.outcome_runWith_error read]
      rw [ends] at failed
      cases failed
      refine ⟨?_, fun _ => ⟨cause, rfl, ends⟩, fun value => .inl ?_⟩
      · cases cause <;> simp [Fault.kind, ReadFault.kind, failureKinds]
      · have overlong := exists_overlong_of_readForms read fun parse => by
          cases value.symm.trans parse
        cases cause with
        | tooManyDigits count => exact ⟨count, rfl, rfl, overlong⟩
        | _ => cases value
  | ok forms =>
      have kinds := fault_of_read holds read failed
      refine ⟨?_, fun parse => ?_, fun value => .inr ?_⟩
      · rcases kinds with among | rfl
        · exact List.mem_cons_of_mem _ (List.mem_cons_of_mem _ among)
        · simp [Fault.kind, failureKinds]
      · exfalso
        rcases kinds with among | rfl
        · rw [parse] at among
          exact absurd among (by decide)
        · cases parse
      · have unlisted : fault.kind ∉ evaluationKinds := by
          rw [value]
          decide
        refine ⟨kinds.resolve_left unlisted, ?_⟩
        by_contra spared
        exact unlisted (kind_mem_of_spared holds read spared failed)

/-- A closure that is applied to too few arguments fails for these. -/
theorem failures_of_reached_arity :
    ((Command.chunk 9 "((fn [x] x))").run.outcome initialSession).1 = .error (.arity 1 0 "") ∧
      (Fault.arity 1 0 "").kind ∈ failureKinds ∧
      ¬ (Command.chunk 9 "((fn [x] x))").ComesTo Misapplies initialSession := by
  have letters : "((fn [x] x))".toList =
      ['(', '(', 'f', 'n', ' ', '[', 'x', ']', ' ', 'x', ')', ')'] := by
    simp
  have failed : ((Command.chunk 9 "((fn [x] x))").run.outcome initialSession).1 =
      .error (.arity 1 0 "") := by
    unfold Command.run
    simp only [evaluateText, readText, letters]
    rfl
  obtain ⟨faults, entered⟩ := failures_of_reached .initial (.chunk 9 "((fn [x] x))")
  exact ⟨failed, (faults _ failed).1, entered⟩

end Interpreter

end TinyLisp
