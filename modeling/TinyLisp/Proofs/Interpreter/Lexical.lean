import TinyLisp.Proofs.Evaluation.Lexical
import TinyLisp.Proofs.Interpreter.Reached
import TinyLisp.Proofs.Interpreter.Watched

/-!
# Where the closures of a session come from

All text that an interpreter is given is evaluated in the global frame, where code within no
function belongs. So all that a session ever evaluates is code from the texts read so far, in frames
as deep as the code is, and every closure is a function that stands in one of these texts.
-/

namespace TinyLisp

namespace Interpreter

open Evaluation Invariant Simulation

section

variable {sources : Value → Prop} {allowed : Fault → Prop}

/-- Calls keep to lexical scope if the evaluations of code in the global frame do. -/
theorem lexical_calls {evaluator other : Evaluator}
    (evaluations : ∀ {world form}, (lexical sources).Forms world.1 globalFrame form →
      ((lexical sources).guarded allowed).Computations world
        ((lexical sources).guarded allowed).Values (evaluator form globalFrame)
        (other form globalFrame)) :
    Calls ((lexical sources).guarded allowed) evaluator other := by
  apply calls_of_guarded
  case unaffected => exact fun _ _ holds => ⟨holds.of_heap rfl, fun _ _ => id⟩
  case evaluations =>
      rintro world form _ ⟨code, -, rfl⟩
      exact evaluations code
  case lines =>
      intro session forms holds known
      refine ⟨0, .here _, .line fun form member => ?_⟩
      obtain ⟨level, outward, code⟩ := known form member
      obtain rfl := holds.steps_eq_zero outward
      exact code
  case nil => exact fun _ => .literal _

end

/-- The forms of some texts as they have been read. Each text stands with the count of sequences
that had been read before it. -/
def SourceForm (texts : List (Nat × String)) (form : Value) : Prop :=
  ∃ next text forms, (next, text) ∈ texts ∧ readForms text.toList = .ok forms ∧
    form ∈ (Value.identifiedAll next forms).1

variable {texts : List (Nat × String)} {session : Session} {returned : List Value}

theorem SourceForm.cons {form : Value} (source : SourceForm texts form) (given : Nat × String) :
    SourceForm (given :: texts) form := by
  obtain ⟨next, text, forms, member, read, among⟩ := source
  exact ⟨next, text, forms, List.mem_cons_of_mem given member, read, among⟩

theorem SourceForm.plain (texts : List (Nat × String)) :
    ∀ form, SourceForm texts form → form.Plain := by
  rintro form ⟨next, text, forms, -, read, among⟩
  exact Value.identifiedAll_closed
    (fun item member => (Value.plain_of_readForms read item member).identified) next form among

/-- The texts that have been given to an interpreter after one more call. -/
def Command.given (command : Command) (session : Session) (texts : List (Nat × String)) :
    List (Nat × String) :=
  (session.sequencesRead, command.text) :: texts

/-- What a session has bound keeps to the scope of the texts after one more call. -/
theorem scoped_given (holds : session.Scoped (SourceForm texts)) (command : Command) :
    session.Scoped (SourceForm (command.given session texts)) :=
  holds.mono fun _ source => source.cons _

/-- The forms of a text that is given are code in the global frame. -/
theorem lexical_readings {allowed : Fault → Prop} {command : Command}
    {world : ((lexical (SourceForm (command.given session texts))).guarded allowed).World}
    (same : world.1 = session) {forms : List Value}
    (read : readForms command.text.toList = .ok forms) :
    Readings ((lexical (SourceForm (command.given session texts))).guarded allowed) world
      command.text := by
  refine guarded_computations (outcome_readText read world.1) (world.2.of_heap rfl)
    (fun _ _ => id) ?_ nofun
  rintro _ ⟨⟩
  refine formLists_self fun form member => ⟨⟨0, .here _, .occurrence ?_ .here⟩, rfl, rfl⟩
  exact ⟨_, _, forms, List.mem_cons_self, read, same ▸ member⟩

/-- A call keeps to the scope of the texts given so far, and fails in allowed ways only. -/
theorem lexical_outcome (holds : session.Scoped (SourceForm texts)) (command : Command)
    {allowed : Fault → Prop} (admits : Fault.Admits allowed) (digits : allowed .tooManyDigits)
    (unread : ∀ cause, readForms command.text.toList = .error cause → allowed (.reading cause)) :
    let sources := SourceForm (command.given session texts)
    let outcome := command.run.outcome session
    outcome.2.Scoped sources ∧ (lexical sources).Later session outcome.2 ∧
      (∀ value, outcome.1 = .ok value → value.Founded (outcome.2.Founds sources)) ∧
      ∀ fault, outcome.1 = .error fault → allowed fault := by
  intro sources outcome
  have within : session.Scoped sources := scoped_given holds command
  cases read : readForms command.text.toList with
  | ok forms =>
      let world : ((lexical sources).guarded allowed).World := ⟨session, within⟩
      have lawful := lexical_lawful admits digits (SourceForm.plain (command.given session texts))
      have calls depth : Calls ((lexical sources).guarded allowed) (evaluate depth)
          (evaluate depth) :=
        lexical_calls fun code => lawful.computations_run depth (.form ⟨code, rfl, rfl⟩)
      have reading : Readings ((lexical sources).guarded allowed) world command.text :=
        lexical_readings rfl read
      rw [show outcome = _ from congrArg (Run.outcome · session) command.run_eq_runWith]
      exact holds_of_guarded calls reading
  | error cause =>
      have ends : outcome = (.error (.reading cause), session) := by
        rw [← Command.outcome_runWith_error read evaluate, ← command.run_eq_runWith]
      rw [ends]
      refine ⟨within, (lexical sources).later_refl session, nofun, ?_⟩
      rintro _ ⟨⟩
      exact unread cause read

/-- A call comes to no activations of a kind that matching activations are never of. -/
theorem not_comesTo (holds : session.Scoped (SourceForm texts)) (command : Command)
    {kind : Activation → Session → Prop}
    (spares : ∀ {world : ((lexical (SourceForm (command.given session texts))).guarded
        fun _ => True).World} {activation other : Activation},
      Activations _ world activation other → ¬ kind other world.1) :
    ¬ command.ComesTo kind session := by
  rintro ⟨fault, differs⟩
  apply differs
  rw [command.run_eq_runWith]
  cases read : readForms command.text.toList with
  | ok forms =>
      let world : ((lexical (SourceForm (command.given session texts))).guarded
        fun _ => True).World := ⟨session, scoped_given holds command⟩
      have lawful := lexical_lawful Fault.admits_all trivial
        (SourceForm.plain (command.given session texts))
      have reading : Readings _ world command.text := lexical_readings rfl read
      refine (outcome_eq_of_guarded (fun depth => lexical_calls fun code => ?_) reading).symm
      exact lawful.computations_run_runUnless spares fault depth (.form ⟨code, rfl, rfl⟩)
  | error cause =>
      rw [Command.outcome_runWith_error read, Command.runUnless, Command.outcome_runWith_error read]

/-- The sessions that an interpreter can get to, each with the texts that it has been given and the
values that its calls have returned, the latest first. -/
inductive History : List (Nat × String) → Session → List Value → Prop
  | initial : History [] initialSession []
  | prelude (depth : Nat) (text : String) :
      History [(initialSession.sequencesRead, text)]
        ((evaluatePrelude (evaluate depth) text).outcome initialSession).2 []
  | call {texts : List (Nat × String)} {session : Session} {returned : List Value}
      (history : History texts session returned) (command : Command) :
      History (command.given session texts) (command.run.outcome session).2
        ((command.run.outcome session).1.toOption.toList ++ returned)

theorem Reached.history (reached : Reached session returned) :
    ∃ texts, History texts session returned := by
  induction reached with
  | initial => exact ⟨_, .initial⟩
  | prelude depth text => exact ⟨_, .prelude depth text⟩
  | call reached command ih =>
      obtain ⟨texts, history⟩ := ih
      exact ⟨_, history.call command⟩

theorem scoped_initialSession (sources : Value → Prop) : initialSession.Scoped sources where
  outermost := by
    have first : globalFrame = Heap.empty.frames.size := rfl
    rw [initialSession, initialHeap, Heap.getElem?_newFrame, if_pos first]
    rfl
  rooted id inside := by
    rw [initialSession, initialHeap_size] at inside
    obtain rfl : id = globalFrame := Nat.lt_one_iff.mp inside
    exact ⟨0, .here _⟩
  bound := all_initialHeap .builtin

theorem outcome_evaluatePrelude (depth : Nat) (text : String) (session : Session) :
    ((evaluatePrelude (evaluate depth) text).outcome session).2 = session ∨
      ((evaluatePrelude (evaluate depth) text).outcome session).2 =
        ((Command.chunk depth text).run.outcome session).2 := by
  unfold evaluatePrelude
  split
  · rw [Run.outcome_bind]
    cases ends : (evaluateText (evaluate depth) text).outcome session with
    | mk result after =>
        right
        rw [Command.run, ends]
        cases result <;> rfl
  · exact .inl rfl

/-- Every call adds its text to the sources, and keeps to lexical scope. -/
theorem History.scoped (history : History texts session returned) :
    session.Scoped (SourceForm texts) ∧
      ∀ value ∈ returned, value.Founded (session.Founds (SourceForm texts)) := by
  induction history with
  | initial => exact ⟨scoped_initialSession _, by simp⟩
  | prelude depth text =>
      refine ⟨?_, by simp⟩
      rcases outcome_evaluatePrelude depth text initialSession with same | same <;> rw [same]
      · exact scoped_initialSession _
      · have nothing := scoped_initialSession (SourceForm [])
        exact (lexical_outcome nothing (.chunk depth text) Fault.admits_all trivial
          fun _ _ => trivial).1
  | @call texts session returned _ command ih =>
      obtain ⟨holds, before⟩ := ih
      obtain ⟨after, later, value, -⟩ := lexical_outcome holds command Fault.admits_all trivial
        fun _ _ => trivial
      refine ⟨after, fun result member => ?_⟩
      rcases List.mem_append.mp member with now | earlier
      · apply value
        cases ends : (command.run.outcome session).1 with
        | ok other =>
            rw [ends] at now
            rw [List.mem_singleton.mp now]
        | error => simp [ends, Except.toOption] at now
      · have founded := (before result earlier).imp fun _ _ _ =>
          Session.Founds.mono fun _ source => source.cons (session.sequencesRead, command.text)
        exact (lexical _).values_later later founded

/-- An activation goes astray if it begins where frames or closures do not keep to the scope of the
sources, if it evaluates what is not code or in a frame of another depth, or if a closure of another
origin is in the procedure that it applies or in the arguments. -/
inductive Strays (sources : Value → Prop) : Activation → Session → Prop
  | session {activation : Activation} {session : Session} (breaks : ¬ session.Scoped sources) :
      Strays sources activation session
  | form {form : Value} {frame : Nat} {session : Session}
      (foreign : ¬ ∃ level, session.heap.Outward level frame globalFrame ∧
        Code sources level form) : Strays sources (.form form frame) session
  | value {procedure value : Value} {arguments : List Value} {session : Session}
      (member : value ∈ procedure :: arguments)
      (foreign : ¬ value.Founded (session.Founds sources)) :
      Strays sources (.apply procedure arguments) session

/-- In every session that an interpreter gets to, each frame lies some number of steps within the
global frame, and each closure that is bound or has been returned is an `fn` or `defn` of the texts
given so far, with a frame as many steps within the global one as there are functions around it.
No call comes to evaluate anything but code of these texts, in frames of the right depth. -/
theorem lexical_of_history (history : History texts session returned) :
    session.Scoped (SourceForm texts) ∧
      (∀ id < session.heap.frames.size, ∃ steps, session.heap.Outward steps id globalFrame ∧
        session.heap.root id = some globalFrame ∧
        (session.heap.chain id).length = steps + 1) ∧
      (∀ value ∈ returned, value.Founded (session.Founds (SourceForm texts))) ∧
      ∀ command : Command,
        ¬ command.ComesTo (Strays (SourceForm (command.given session texts))) session := by
  obtain ⟨holds, values⟩ := history.scoped
  refine ⟨holds, fun id inside => ?_, values, fun command => not_comesTo holds command ?_⟩
  · obtain ⟨steps, outward⟩ := holds.rooted id inside
    obtain ⟨frame, found, outermost⟩ := Option.map_eq_some_iff.mp holds.outermost
    exact ⟨steps, outward, outward.root found outermost⟩
  · rintro world activation other related strays
    cases strays with
    | session breaks => exact breaks world.2
    | form foreign =>
        cases related with
        | form forms =>
            obtain ⟨code, rfl, rfl⟩ := forms
            exact foreign code
    | value member foreign =>
        cases related with
        | apply procedures values =>
            obtain ⟨founded, rfl⟩ := procedures
            obtain ⟨argumentsFounded, rfl⟩ := forall_of_values values
            rcases List.mem_cons.mp member with rfl | member
            · exact foreign founded
            · exact foreign (argumentsFounded _ member)

/-- A function within another one has captured a frame one step within the global frame. -/
theorem lexical_of_history_inner_function :
    ((Command.chunk 9 "((fn [x] (fn [y] x)) true)").run.outcome initialSession).2.Founds
      (SourceForm [(0, "((fn [x] (fn [y] x)) true)")]) [.named "y"] [.named "x"] 1 := by
  have letters : "((fn [x] (fn [y] x)) true)".toList =
      ['(', '(', 'f', 'n', ' ', '[', 'x', ']', ' ', '(', 'f', 'n', ' ', '[', 'y', ']', ' ', 'x',
        ')', ')', ' ', 't', 'r', 'u', 'e', ')'] := by
    simp
  have returned :
      ((Command.chunk 9 "((fn [x] (fn [y] x)) true)").run.outcome initialSession).1 =
        .ok (.closure 1 [.named "y"] [.named "x"] 1) := by
    unfold Command.run
    simp only [evaluateText, readText, letters]
    rfl
  obtain ⟨-, -, values, -⟩ := lexical_of_history
    (.call .initial (.chunk 9 "((fn [x] (fn [y] x)) true)"))
  rw [returned] at values
  cases values _ List.mem_cons_self with
  | closure id founds => exact founds

end Interpreter

end TinyLisp
