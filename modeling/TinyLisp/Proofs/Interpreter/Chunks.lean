import TinyLisp.Proofs.Evaluation.Agreement
import TinyLisp.Proofs.Evaluation.Budget
import TinyLisp.Proofs.Evaluation.Effects
import TinyLisp.Proofs.Interpreter.Simulation
import TinyLisp.Proofs.Reading.Joined

/-!
# Chunks and lines

A chunk of text is evaluated form by form, and a line as one sequence. A line takes three more
activations until its first form is evaluated, and otherwise there is no difference. Nor is there
one between a chunk and its parts, as long as the parts can be read.
-/

namespace TinyLisp

namespace Interpreter

open Run Evaluation

section

variable {evaluator other : Evaluator}
  (inner : ∀ form, (evaluator form globalFrame).StopsShortOf (other form globalFrame))

theorem readText_stopsShortOf (text : String) : (readText text).StopsShortOf (readText text) := by
  intro session
  rcases outcome_readText_cases text session with ⟨fault, ends⟩ | ⟨forms, -, ends⟩
  · exact stopsShortAt_of_eq "" ends ends (by simp)
  · exact stopsShortAt_of_eq "" ends ends (by simp)

include inner

theorem evaluateForms_stopsShortOf (result : Value) (forms : List Value) :
    (evaluateForms evaluator result forms).StopsShortOf (evaluateForms other result forms) := by
  induction forms generalizing result with
  | nil => exact stopsShortOf_pure result
  | cons form rest ih =>
      refine (stopsShortOf_note _).bind fun _ => (inner form).bind fun value => ?_
      exact (stopsShortOf_note _).bind fun _ => ih value

theorem evaluateText_stopsShortOf (text : String) :
    (evaluateText evaluator text).StopsShortOf (evaluateText other text) :=
  (readText_stopsShortOf text).bind fun forms => evaluateForms_stopsShortOf inner .nil forms

theorem evaluateLine_stopsShortOf (line : String) :
    (evaluateLine evaluator line).StopsShortOf (evaluateLine other line) := by
  refine (readText_stopsShortOf line).bind fun forms => ?_
  split
  · exact stopsShortOf_pure _
  · exact (stopsShortOf_note _).bind fun _ => inner _

end

theorem evaluateForms_agree_inTurn (depth : Nat) (result form : Value) (rest : List Value) :
    (evaluateForms (evaluate depth) result (form :: rest)).Agree
      (inTurn (Evaluation.run depth) globalFrame (form :: rest)) := by
  induction rest generalizing result form with
  | nil =>
      rw [inTurn, ← bind_pure (Evaluation.run depth _)]
      refine Agree.note_left ((run_agree depth (.form form globalFrame)).bind fun value => ?_) _
      exact (agree_pure value).note_left (.formEvaluated value)
  | cons next rest ih =>
      refine Agree.note_left ((run_agree depth (.form form globalFrame)).bind fun value => ?_) _
      exact (ih value next).note_left (.formEvaluated value)

theorem evaluate_do (depth : Nat) (form : Value) (rest : List Value) (frame : Nat) :
    evaluate (depth + 3) (.list (.named "do" :: form :: rest)) frame =
      inTurn (Evaluation.run depth) frame (form :: rest) :=
  rfl

theorem evaluateText_agree_evaluateLine (depth : Nat) (text : String) (session : Session) :
    AgreeAt session session (evaluateText (evaluate depth) text)
      (evaluateLine (evaluate (depth + 3)) text) := by
  have reads : AgreeAt session session (readText text) (readText text) := ⟨rfl, .refl _⟩
  refine reads.bind fun forms => ?_
  cases forms with
  | nil => exact agree_pure Value.nil _ _ (.refl _)
  | cons form rest =>
      refine Agree.note_right ?_ _ _ _ (.refl _)
      rw [evaluate_do]
      exact evaluateForms_agree_inTurn depth .nil form rest

theorem evaluateForms_append (evaluator : Evaluator) (result : Value) (front back : List Value) :
    evaluateForms evaluator result (front ++ back) =
      evaluateForms evaluator result front >>= fun value => evaluateForms evaluator value back := by
  induction front generalizing result with
  | nil => simp [evaluateForms]
  | cons form rest ih => simp [evaluateForms, ih]

theorem evaluateForms_agree (depth : Nat) (result : Value) (forms : List Value) :
    (evaluateForms (evaluate depth) result forms).Agree
      (evaluateForms (evaluate depth) result forms) := by
  induction forms generalizing result with
  | nil => exact agree_pure result
  | cons form rest ih =>
      refine Agree.note_left (Agree.note_right ?_ _) _
      refine (run_agree depth (.form form globalFrame)).bind fun value => ?_
      exact ((ih value).note_right _).note_left _

theorem sequencesRead_evaluateForms (depth : Nat) (result : Value) (forms : List Value)
    (session : Session) :
    ((evaluateForms (evaluate depth) result forms).outcome session).2.sequencesRead =
      session.sequencesRead := by
  induction forms generalizing result session with
  | nil => rfl
  | cons form rest ih =>
      let noted : Session := { session with events := .formRead form :: session.events }
      have kept : ((evaluate depth form globalFrame).outcome noted).2.sequencesRead =
          session.sequencesRead :=
        (evaluate_evolves depth form globalFrame noted).sequencesRead
      simp only [evaluateForms, outcome_bind, outcome_note]
      change ((evaluate depth form globalFrame).outcome noted).2.sequencesRead = _ at kept
      generalize (evaluate depth form globalFrame).outcome noted = outcome at kept ⊢
      obtain ⟨⟨fault⟩ | ⟨value⟩, after⟩ := outcome
      · exact kept
      · exact (ih value _).trans kept

/-- The forms of the second part have the same numbers whether or not they are read together with
the first part. -/
theorem evaluateForms_agree_evaluateText {text : String} {forms : List Value}
    (read : readForms text.toList = .ok forms) (depth : Nat) (value : Value)
    {session other : Session} (alike : session.Alike other) :
    AgreeAt session other
      (evaluateForms (evaluate depth) value (Value.identifiedAll other.sequencesRead forms).1)
      (do
        let last ← evaluateText (evaluate depth) text
        return if forms.isEmpty then value else last) := by
  have reads := outcome_readText read other
  have later : session.Alike { other with
      sequencesRead := (Value.identifiedAll other.sequencesRead forms).2 } :=
    ⟨alike.heap, alike.objectsMade, alike.printed⟩
  cases forms with
  | nil =>
      have ends : (evaluateText (evaluate depth) text).outcome other = (.ok .nil, _) :=
        outcome_bind_ok reads _
      rw [AgreeAt, outcome_bind_ok ends]
      exact ⟨rfl, later⟩
  | cons form rest =>
      have unchanged : (evaluateText (evaluate depth) text >>= fun last =>
          pure (if (form :: rest).isEmpty then value else last)) =
            evaluateText (evaluate depth) text := by
        simp
      rw [AgreeAt, unchanged, evaluateText, outcome_bind_ok reads]
      exact evaluateForms_agree depth value _ _ _ later

/-- A chunk does what its parts do one after the other, if each of them can be read. A run does not
look at how many sequences have been read, and the second part is numbered from where the first one
has ended either way. -/
theorem evaluateText_join {first second : String} {forms others : List Value}
    (firstRead : readForms first.toList = .ok forms)
    (secondRead : readForms second.toList = .ok others) (depth : Nat) (session : Session) :
    AgreeAt session session (evaluateText (evaluate depth) (first ++ "\n" ++ second))
      (do
        let value ← evaluateText (evaluate depth) first
        let last ← evaluateText (evaluate depth) second
        return if others.isEmpty then value else last) := by
  have letters : (first ++ "\n" ++ second).toList = first.toList ++ '\n' :: second.toList := by
    simp
  have joined : readForms (first ++ "\n" ++ second).toList = .ok (forms ++ others) := by
    rw [letters]
    exact readForms_join firstRead secondRead
  have whole := outcome_readText joined session
  have reads := outcome_readText firstRead session
  rw [Value.identifiedAll_append] at whole
  generalize found : Value.identifiedAll session.sequencesRead forms = numbered at whole reads
  let start : Session := { session with sequencesRead := numbered.2 }
  let together : Session :=
    { session with sequencesRead := (Value.identifiedAll numbered.2 others).2 }
  have parts (next : Value → Run Value) :
      (evaluateText (evaluate depth) first >>= next).outcome session =
        (evaluateForms (evaluate depth) .nil numbered.1 >>= next).outcome start := by
    rw [outcome_bind, outcome_bind, evaluateText, outcome_bind_ok reads]
  rw [AgreeAt, evaluateText, outcome_bind_ok whole, evaluateForms_append, parts]
  have ended := evaluateForms_agree depth .nil numbered.1 together start ⟨rfl, rfl, rfl⟩
  refine AgreeAt.bind ended fun value => ?_
  have kept := sequencesRead_evaluateForms depth .nil numbered.1 start
  have rest := evaluateForms_agree_evaluateText secondRead depth value ended.2
  rw [kept] at rest
  exact rest

/-- With any two budgets that are enough, a text does the same as a chunk and as a line, which takes
three activations more. -/
theorem evaluateText_agree_evaluateLine_of_enough {text : String} {depth lineDepth : Nat}
    {session : Session}
    (enough : ((evaluateText (evaluate depth) text).outcome session).1 ≠ .error .depthExceeded)
    (lineEnough :
      ((evaluateLine (evaluate lineDepth) text).outcome session).1 ≠ .error .depthExceeded) :
    AgreeAt session session (evaluateText (evaluate depth) text)
      (evaluateLine (evaluate lineDepth) text) := by
  have raised {less more : Nat} (le : less ≤ more) (form : Value) :
      (evaluate less form globalFrame).StopsShortOf (evaluate more form globalFrame) :=
    run_stopsShortOf le (.form form globalFrame)
  have lineLe : lineDepth ≤ max depth lineDepth + 3 := by omega
  have chunk := evaluateText_stopsShortOf (raised (Nat.le_max_left depth lineDepth)) text session
  have line := evaluateLine_stopsShortOf (raised lineLe) text session
  have agree := evaluateText_agree_evaluateLine (max depth lineDepth) text session
  rw [AgreeAt] at agree ⊢
  rw [← chunk.outcome_eq enough, ← line.outcome_eq lineEnough]
  exact agree

/-- A text does the same as a chunk and as a line, unless a budget runs out: it ends in the same
way, prints the same and leaves the same frames. Without a form it has the value nil, and if it
cannot be read it does nothing. A chunk of two parts that can be read does what the first part does
and then, unless that fails, what the second part does. -/
theorem evaluateText_chunks (session : Session) :
    (∀ text depth lineDepth,
      ((evaluateText (evaluate depth) text).outcome session).1 ≠ .error .depthExceeded →
      ((evaluateLine (evaluate lineDepth) text).outcome session).1 ≠ .error .depthExceeded →
        AgreeAt session session (evaluateText (evaluate depth) text)
          (evaluateLine (evaluate lineDepth) text)) ∧
      (∀ text evaluator, readForms text.toList = .ok [] →
        (evaluateText evaluator text).outcome session = (.ok .nil, session) ∧
          (evaluateLine evaluator text).outcome session = (.ok .nil, session)) ∧
      (∀ text evaluator fault, readForms text.toList = .error fault →
        (evaluateText evaluator text).outcome session = (.error (.reading fault), session) ∧
          (evaluateLine evaluator text).outcome session = (.error (.reading fault), session)) ∧
      ∀ first second forms others depth, readForms first.toList = .ok forms →
        readForms second.toList = .ok others →
          AgreeAt session session (evaluateText (evaluate depth) (first ++ "\n" ++ second))
            (do
              let value ← evaluateText (evaluate depth) first
              let last ← evaluateText (evaluate depth) second
              return if others.isEmpty then value else last) := by
  refine ⟨fun text depth lineDepth => evaluateText_agree_evaluateLine_of_enough,
    fun text evaluator read => ?_, fun text evaluator fault read => ?_,
    fun first second forms others depth firstRead secondRead =>
      evaluateText_join firstRead secondRead depth session⟩
  · have reads := outcome_readText read session
    rw [evaluateText, evaluateLine, outcome_bind_ok reads, outcome_bind_ok reads]
    exact ⟨rfl, rfl⟩
  · have unread := outcome_readText_error read session
    rw [evaluateText, evaluateLine, outcome_bind, outcome_bind, unread]
    exact ⟨rfl, rfl⟩

/-- A definition and a use of it do the same as a chunk, as a line and as two chunks. A comment has
the value nil, and a bracket that stays open does nothing. -/
theorem evaluateText_chunks_definition :
    let first := "(def a :b)"
    let second := "a"
    let both := first ++ "\n" ++ second
    let chunk := evaluateText (evaluate 4) both
    AgreeAt initialSession initialSession chunk (evaluateLine (evaluate 7) both) ∧
      AgreeAt initialSession initialSession chunk
        (do
          let value ← evaluateText (evaluate 4) first
          let last ← evaluateText (evaluate 4) second
          return if [Value.named "a"].isEmpty then value else last) ∧
      (evaluateText (evaluate 4) "; b").outcome initialSession = (.ok .nil, initialSession) ∧
      ((evaluateLine (evaluate 4) "(").outcome initialSession).2 = initialSession := by
  intro first second both chunk
  obtain ⟨line, empty, unread, join⟩ := evaluateText_chunks initialSession
  have firstLetters : first.toList = ['(', 'd', 'e', 'f', ' ', 'a', ' ', ':', 'b', ')'] := by
    simp [first]
  have secondLetters : second.toList = ['a'] := by simp [second]
  have letters : both.toList =
      ['(', 'd', 'e', 'f', ' ', 'a', ' ', ':', 'b', ')', '\n', 'a'] := by
    simp [both, first, second]
  have chunkEnds : (chunk.outcome initialSession).1 = .ok (.keyword (.plain "b")) := by
    simp only [chunk, evaluateText, readText, letters]
    rfl
  have lineEnds : ((evaluateLine (evaluate 7) both).outcome initialSession).1 =
      .ok (.keyword (.plain "b")) := by
    simp only [evaluateLine, readText, letters]
    rfl
  refine ⟨line both 4 7 (chunkEnds ▸ by simp) (by simp [lineEnds]), ?_, ?_, ?_⟩
  · refine join first second [.list [.named "def", .named "a", .keyword (.plain "b")]] _ 4 ?_ ?_
    · rw [firstLetters]
      rfl
    · rw [secondLetters]
      rfl
  · refine (empty "; b" (evaluate 4) ?_).1
    simp
    rfl
  · have found : readForms "(".toList = .error (.unclosed .round (some 0)) := by
      simp
      rfl
    rw [(unread "(" (evaluate 4) _ found).2]

end Interpreter

end TinyLisp
