import TinyLisp.Console
import TinyLisp.Proofs.Evaluation.Lockstep
import TinyLisp.Proofs.Interpreter.Simulation

/-!
# What a conversation shows

A conversation is a fold of the interpreter over the lines that are not blank: every line is
evaluated in the state that the lines before it have left, whether those succeeded or failed. What
the line prints is shown first, then the report on it, then the prompt. What has been printed and
noted before makes no difference to evaluation, so each line may be looked at as if nothing had
been.
-/

namespace TinyLisp

namespace Session

/-- The session without what it has printed and noted. -/
def quiet (session : Session) : Session := { session with printed := "", events := [] }

/-- The session is in the same state as another one, but a text had been printed before. -/
structure Echoes (front : String) (session other : Session) : Prop where
  heap : session.heap = other.heap
  sequencesRead : session.sequencesRead = other.sequencesRead
  objectsMade : session.objectsMade = other.objectsMade
  printed : session.printed = front ++ other.printed

variable {front : String} {session other : Session}

/-- What the other session has printed may count as printed before. -/
theorem Echoes.quiet (echoes : session.Echoes front other) :
    session.Echoes (front ++ other.printed) other.quiet :=
  ⟨echoes.heap, echoes.sequencesRead, echoes.objectsMade,
    by simpa [Session.quiet] using echoes.printed⟩

/-- If the other session has printed and noted nothing, it is what the session is otherwise, and the
text is all that the session has printed. -/
theorem Echoes.quiet_eq (echoes : session.Echoes front other) (silent : other.quiet = other) :
    session.printed = front ∧ session.quiet = other := by
  have nothing : other.printed = "" := (congrArg Session.printed silent).symm
  refine ⟨by simp [echoes.printed, nothing], ?_⟩
  rw [← silent, Session.quiet, Session.quiet, echoes.heap, echoes.sequencesRead,
    echoes.objectsMade]

theorem Echoes.note (echoes : session.Echoes front other) (event : Event) :
    { session with events := event :: session.events }.Echoes front other :=
  ⟨echoes.heap, echoes.sequencesRead, echoes.objectsMade, echoes.printed⟩

theorem Echoes.print (echoes : session.Echoes front other) (silent : other.printed = "")
    (text : String) :
    { session with printed := session.printed ++ text }.Echoes (front ++ text) other :=
  ⟨echoes.heap, echoes.sequencesRead, echoes.objectsMade, by simp [echoes.printed, silent]⟩

end Session

theorem Run.outcome_attempt {α : Type} (computation : Run α) (session : Session) :
    (attempt computation).outcome session =
      (.ok (computation.outcome session).1, (computation.outcome session).2) :=
  rfl

namespace Evaluation

/-- Sessions that differ in a text printed before stay so. -/
def echoing (front : String) : Lockstep where
  Beside := Session.Echoes front
  Own _ := True
  heap_eq echoes := echoes.heap
  objects_eq echoes := echoes.objectsMade
  own_next _ := trivial
  note _ echoes := ⟨echoes.heap, echoes.sequencesRead, echoes.objectsMade, echoes.printed⟩
  print text echoes := ⟨echoes.heap, echoes.sequencesRead, echoes.objectsMade,
    (congrArg (· ++ text) echoes.printed).trans (String.append_assoc ..)⟩
  number count echoes :=
    ⟨echoes.heap, echoes.sequencesRead, congrArg (· + count) echoes.objectsMade, echoes.printed⟩
  assign _ echoes _ := ⟨congrArg (Heap.write · _ _ _) echoes.heap, echoes.sequencesRead,
    echoes.objectsMade, echoes.printed⟩
  define _ _ echoes _ := ⟨congrArg (Heap.write · _ _ _) echoes.heap, echoes.sequencesRead,
    echoes.objectsMade, echoes.printed⟩
  newFrame _ _ echoes := ⟨congrArg (fun heap => (Heap.newFrame heap _ _).2) echoes.heap,
    echoes.sequencesRead, echoes.objectsMade, echoes.printed⟩

end Evaluation

namespace Interpreter

theorem evaluateLine_echoes (depth : Nat) (line : String) {front : String}
    {session other : Session} (echoes : session.Echoes front other) :
    ((evaluateLine (evaluate depth) line).outcome session).1 =
        ((evaluateLine (evaluate depth) line).outcome other).1 ∧
      ((evaluateLine (evaluate depth) line).outcome session).2.Echoes front
        ((evaluateLine (evaluate depth) line).outcome other).2 := by
  cases read : readForms line.toList with
  | error fault =>
      simp only [evaluateLine, Run.outcome_bind, outcome_readText_error read]
      exact ⟨trivial, echoes⟩
  | ok forms =>
      rw [evaluateLine, Run.outcome_bind_ok (outcome_readText read session),
        Run.outcome_bind_ok (outcome_readText read other), echoes.sequencesRead]
      by_cases empty : (Value.identifiedAll other.sequencesRead forms).1.isEmpty
      · rw [if_pos empty]
        exact ⟨rfl, ⟨echoes.heap, rfl, echoes.objectsMade, echoes.printed⟩⟩
      · rw [if_neg empty, Run.outcome_bind_ok (Run.outcome_note ..),
          Run.outcome_bind_ok (Run.outcome_note ..)]
        exact (Evaluation.echoing front).outcome_run depth (.form _ globalFrame)
          (fun _ _ => trivial) ⟨echoes.heap, rfl, echoes.objectsMade, echoes.printed⟩

end Interpreter

namespace Console

open Interpreter

/-- What a line ends in and the session that it leaves. -/
def turn (settings : Settings) (state : Session) (line : String) : Except Fault Value × Session :=
  (Interpreter.evaluateLine (evaluate settings.depth) line).outcome state

/-- The text of what a line has ended in; that cannot be had if writing the value fails. -/
def shown (settings : Settings) (ended : Except Fault Value) : Except Fault String := do
  (← ended).textWithin settings.depth .readable

/-- The report on a line. -/
def reportText (settings : Settings) : Except Fault String → String
  | .ok text => settings.outputPrompt ++ " " ++ text
  | .error fault =>
      if fault.kind = .recursion then "RecursionError: maximum recursion depth exceeded"
      else fault.kind.name ++ ": " ++ fault.message

def next (settings : Settings) (state : Session) (line : String) : Session :=
  if isBlankLine line then state else (turn settings state line).2.quiet

/-- What is shown from a line on until the next one. -/
def exchange (settings : Settings) (state : Session) (line : String) : String :=
  if isBlankLine line then ""
  else
    (turn settings state line).2.printed ++
      (reportText settings (shown settings (turn settings state line).1) ++ "\n" ++
        (settings.prompt ++ "\n"))

def stateAfter (settings : Settings) (state : Session) (lines : List String) : Session :=
  lines.foldl (next settings) state

def exchanges (settings : Settings) : Session → List String → String
  | _, [] => ""
  | state, line :: rest =>
      exchange settings state line ++ exchanges settings (next settings state line) rest

/-- What is shown before the first line. -/
def opening (settings : Settings) : String := banner ++ "\n" ++ (settings.prompt ++ "\n")

/-- No line ends in a fault but errors of the language and an exhausted budget, neither in its
evaluation nor in writing its value. -/
def Reported (settings : Settings) : Session → List String → Prop
  | _, [] => True
  | state, line :: rest =>
      (isBlankLine line = false → ∀ fault,
        shown settings (turn settings state line).1 = .error fault →
          fault.isLanguage ∨ fault.kind = .recursion) ∧
        Reported settings (next settings state line) rest

variable {settings : Settings} {front : String} {session state : Session}

theorem outcome_evaluateLine (settings : Settings) (line : String)
    (echoes : session.Echoes front state) :
    ∃ after, (evaluateLine settings line).outcome session =
        (shown settings (turn settings state line).1, after) ∧
      after.Echoes front (turn settings state line).2 := by
  obtain ⟨results, after⟩ := evaluateLine_echoes settings.depth line echoes
  refine ⟨_, ?_, after⟩
  rw [evaluateLine, Run.outcome_bind, turn, ← results]
  rcases (Interpreter.evaluateLine (evaluate settings.depth) line).outcome session with
    ⟨⟨⟩ | ⟨⟩, left⟩
  · rfl
  · exact Run.outcome_ofExcept ..

theorem outcome_report (echoes : session.Echoes front state) (silent : state.printed = "")
    {ended : Except Fault String}
    (reported : ∀ fault, ended = .error fault → fault.isLanguage ∨ fault.kind = .recursion) :
    ∃ after, (report settings ended).outcome session = (.ok (), after) ∧
      after.Echoes (front ++ (reportText settings ended ++ "\n")) state := by
  cases ended with
  | ok text => exact ⟨_, rfl, echoes.print silent _⟩
  | error fault =>
      rw [report, reportText]
      by_cases language : fault.isLanguage
      · have other : fault.kind ≠ .recursion := by
          intro recursion
          rw [Fault.isLanguage, recursion] at language
          cases language
        rw [if_pos language, if_neg other]
        exact ⟨_, rfl, (echoes.note _).print silent _⟩
      · have recursion := (reported fault rfl).resolve_left language
        rw [if_neg language, if_pos recursion, if_pos recursion]
        exact ⟨_, rfl, (echoes.note _).print silent _⟩

/-- A line is answered as the fold says. -/
theorem outcome_answer (line : String) (echoes : session.Echoes front state)
    (reported : isBlankLine line = false → ∀ fault,
      shown settings (turn settings state line).1 = .error fault →
        fault.isLanguage ∨ fault.kind = .recursion) :
    ∃ after, (answer settings line).outcome session = (.ok (), after) ∧
      after.Echoes (front ++ exchange settings state line) (next settings state line) := by
  cases blank : isBlankLine line with
  | true =>
      refine ⟨session, ?_, ?_⟩
      · rw [answer, blank]
        rfl
      · simpa [exchange, next, blank] using echoes
  | false =>
      obtain ⟨evaluated, ends, ended⟩ := outcome_evaluateLine settings line echoes
      obtain ⟨after, reports, left⟩ := outcome_report ended.quiet rfl (reported blank)
      have attempts : (Run.attempt (evaluateLine settings line)).outcome session =
          (.ok (shown settings (turn settings state line).1), evaluated) := by
        rw [Run.outcome_attempt, ends]
      refine ⟨{ after with printed := after.printed ++ (settings.prompt ++ "\n") }, ?_, ?_⟩
      · rw [answer, blank]
        change (Run.attempt (evaluateLine settings line) >>= fun ended =>
          report settings ended >>= fun _ => Run.printLine settings.prompt).outcome session = _
        rw [Run.outcome_bind_ok attempts, Run.outcome_bind_ok reports]
        rfl
      · have prompted := left.print rfl (settings.prompt ++ "\n")
        simpa [exchange, next, blank, String.append_assoc] using prompted

theorem outcome_forM_answer (lines : List String) (echoes : session.Echoes front state)
    (reported : Reported settings state lines) :
    ∃ after, (lines.forM (answer settings)).outcome session = (.ok (), after) ∧
      after.Echoes (front ++ exchanges settings state lines)
        (stateAfter settings state lines) := by
  induction lines generalizing front session state with
  | nil => exact ⟨session, rfl, by simpa [exchanges, stateAfter] using echoes⟩
  | cons line rest ih =>
      obtain ⟨first, others⟩ := reported
      obtain ⟨answered, answers, left⟩ := outcome_answer line echoes first
      obtain ⟨after, ends, last⟩ := ih left others
      refine ⟨after, ?_, ?_⟩
      · change (answer settings line >>= fun _ => rest.forM (answer settings)).outcome session = _
        rw [Run.outcome_bind_ok answers, ends]
      · simpa [exchanges, stateAfter, String.append_assoc] using last

theorem outcome_start
    (accepted : ∀ limit ∈ settings.recursionLimit,
      Settings.ownDepth < limit ∧ limit ≤ Settings.greatestRecursionLimit) :
    ∃ after, (start settings).outcome initialSession = (.ok (), after) ∧
      after.Echoes (opening settings) initialSession := by
  have limits : ∃ after, (applyLimit settings).outcome initialSession = (.ok (), after) ∧
      after.Echoes "" initialSession := by
    rw [applyLimit]
    cases set : settings.recursionLimit with
    | none => exact ⟨_, rfl, ⟨rfl, rfl, rfl, rfl⟩⟩
    | some limit =>
        obtain ⟨above, within⟩ := accepted limit set
        simp only [if_neg (Nat.not_lt.mpr within), if_neg (Nat.not_le.mpr above)]
        exact ⟨_, rfl, ⟨rfl, rfl, rfl, rfl⟩⟩
  obtain ⟨limited, ends, left⟩ := limits
  have printed := (left.print rfl (banner ++ "\n")).print rfl (settings.prompt ++ "\n")
  refine ⟨_, ?_, by simpa [opening] using printed⟩
  rw [start, Run.outcome_bind_ok ends]
  rfl

theorem forM_answer_filter (settings : Settings) (lines : List String) :
    (lines.filter fun line => !isBlankLine line).forM (answer settings) =
      lines.forM (answer settings) := by
  induction lines with
  | nil => rfl
  | cons line rest ih =>
      cases blank : isBlankLine line with
      | true =>
          rw [List.filter_cons_of_neg (by simp [blank]), ih]
          change _ = (answer settings line >>= fun _ => rest.forM (answer settings))
          rw [answer, blank]
          rfl
      | false =>
          rw [List.filter_cons_of_pos (by simp [blank])]
          exact congrArg (answer settings line >>= fun _ => ·) ih

theorem quiet_stateAfter (silent : state.quiet = state) (lines : List String) :
    (stateAfter settings state lines).quiet = stateAfter settings state lines := by
  induction lines generalizing state with
  | nil => exact silent
  | cons line rest ih =>
      apply ih
      rw [next]
      split
      · exact silent
      · rfl

theorem Reported.of_append {before rest : List String}
    (reported : Reported settings state (before ++ rest)) : Reported settings state before := by
  induction before generalizing state with
  | nil => trivial
  | cons line before ih => exact ⟨reported.1, ih reported.2⟩

/-- What a conversation shows is the opening, what is shown for each line in turn, and the closing
line. Before every line the state is the one that the lines so far have left. Blank lines make no
difference at all. -/
theorem converse_transcript (settings : Settings) (lines : List String)
    (accepted : ∀ limit ∈ settings.recursionLimit,
      Settings.ownDepth < limit ∧ limit ≤ Settings.greatestRecursionLimit)
    (reported : Reported settings initialSession lines) :
    (∃ last, (converse settings lines).outcome initialSession = (.ok (), last) ∧
      last.printed =
        opening settings ++ exchanges settings initialSession lines ++ (farewell ++ "\n") ∧
      last.quiet = stateAfter settings initialSession lines) ∧
    (∀ before, before <+: lines → ∃ middle,
      (start settings >>= fun _ => before.forM (answer settings)).outcome initialSession =
        (.ok (), middle) ∧
      middle.printed = opening settings ++ exchanges settings initialSession before ∧
      middle.quiet = stateAfter settings initialSession before) ∧
    ∀ others : List String,
      (others.filter fun line => !isBlankLine line) = (lines.filter fun line => !isBlankLine line) →
        converse settings others = converse settings lines := by
  obtain ⟨started, starts, opened⟩ := outcome_start accepted
  refine ⟨?whole, ?part, ?blank⟩
  case whole =>
    obtain ⟨answered, answers, left⟩ := outcome_forM_answer lines opened reported
    obtain ⟨printed, state⟩ := left.quiet_eq (quiet_stateAfter rfl lines)
    refine ⟨{ answered with printed := answered.printed ++ (farewell ++ "\n") }, ?_, ?_, state⟩
    · rw [converse, Run.outcome_bind_ok starts, Run.outcome_bind_ok answers]
      rfl
    · exact congrArg (· ++ (farewell ++ "\n")) printed
  case part =>
    rintro before ⟨rest, rfl⟩
    obtain ⟨answered, answers, left⟩ := outcome_forM_answer before opened reported.of_append
    refine ⟨answered, ?_, left.quiet_eq (quiet_stateAfter rfl before)⟩
    rw [Run.outcome_bind_ok starts, answers]
  case blank =>
    intro others same
    rw [converse, converse, ← forM_answer_filter, same, forM_answer_filter]

/-- A line that prints and defines before it fails, a blank line, and a line that sees what the
first one has left. -/
theorem converse_transcript_failure :
    let settings : Settings := ⟨30, some 20, "?", "="⟩
    ∃ last, (converse settings ["(def x (println :a)) y", " ", "x"]).outcome initialSession =
        (.ok (), last) ∧
      last.printed = "Clojure interpreter written in Python\n?\n" ++
        (":a\nUnboundVariable: Unbound variable y\n?\n" ++ "= :a\n?\n") ++ "REPL closing.\n" := by
  intro settings
  have letters : "(def x (println :a)) y".toList = ['(', 'd', 'e', 'f', ' ', 'x', ' ', '(', 'p',
      'r', 'i', 'n', 't', 'l', 'n', ' ', ':', 'a', ')', ')', ' ', 'y'] := by
    simp
  have otherLetters : "x".toList = ['x'] := by simp
  have full : isBlankLine "(def x (println :a)) y" = false ∧ isBlankLine "x" = false := by
    rw [isBlankLine, isBlankLine, letters, otherLetters]
    exact ⟨rfl, rfl⟩
  have blank : isBlankLine " " = true := by
    simp [isBlankLine]
    rfl
  let state := next settings initialSession "(def x (println :a)) y"
  have unmoved : next settings state " " = state := by rw [next, if_pos blank]
  have first : (turn settings initialSession "(def x (println :a)) y").1 = .error (.unbound "y") ∧
      (turn settings initialSession "(def x (println :a)) y").2.printed = ":a\n" := by
    simp only [turn, Interpreter.evaluateLine, readText, letters]
    exact ⟨rfl, rfl⟩
  have second : (turn settings state "x").1 = .ok (.keyword (.plain "a")) ∧
      (turn settings state "x").2.printed = "" := by
    simp only [state, next, full.1, turn, Interpreter.evaluateLine, readText, letters,
      otherLetters]
    exact ⟨rfl, rfl⟩
  have reported : Reported settings initialSession ["(def x (println :a)) y", " ", "x"] := by
    refine ⟨fun _ fault => ?_, by simp [blank], fun _ fault => ?_, trivial⟩
    · rw [first.1]
      rintro ⟨⟩
      exact .inl rfl
    · rw [unmoved, second.1]
      rintro ⟨⟩
  have shownFirst : exchange settings initialSession "(def x (println :a)) y" =
      ":a\nUnboundVariable: Unbound variable y\n?\n" := by
    rw [exchange, full.1, first.1, first.2]
    rfl
  have shownSecond : exchange settings state "x" = "= :a\n?\n" := by
    rw [exchange, full.2, second.1, second.2]
    rfl
  obtain ⟨⟨last, ends, printed, -⟩, -⟩ :=
    converse_transcript settings _ (by rintro _ ⟨⟩; decide) reported
  refine ⟨last, ends, printed.trans ?_⟩
  simp only [exchanges, shownFirst]
  rw [exchange, if_pos blank]
  change _ ++ (_ ++ ("" ++ (exchange settings (next settings state " ") "x" ++ ""))) ++ _ = _
  rw [unmoved, shownSecond]
  rfl

end Console

end TinyLisp
