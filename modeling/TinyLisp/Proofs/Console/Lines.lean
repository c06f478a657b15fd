import TinyLisp.Proofs.Console.Transcript
import TinyLisp.Proofs.Evaluation.Unbroken
import TinyLisp.Proofs.Interpreter.Reached
import TinyLisp.Proofs.Interpreter.Watched
import TinyLisp.Proofs.Reading.Viable

/-!
# Reports on one line

What the console reports on a line of a program is one line itself. The texts of values and the
messages of faults escape the line breaks in strings, so that what a program says in a string is
told apart from what the console says. There is one exception: if the line comes to evaluate a list
of `defn` and nothing but a string, the report shows the string as it is.
-/

namespace TinyLisp

/-- Messages show a part of the text inspected and with its offset. -/
theorem IsLine.mention {lead place : String} (line : IsLine lead) (placeLine : IsLine place)
    (text : String) (offset : Option Int) :
    IsLine (lead ++ inspectedText text ++ offsetText place offset) := by
  refine (line.append (.inspected text)).append ?_
  cases offset with
  | none => exact (by decide : IsLine "")
  | some offset => exact placeLine.append (.integer offset)

/-- A token as a scan finds them is rejected with a message that is one line. -/
theorem Grammar.FaultAt.isLine {taken : List Token} {token : Token} {fault : ReadFault}
    (faultAt : FaultAt taken token fault) (scanned : ∀ label, token.kind ≠ .other label) :
    IsLine fault.message := by
  have mention {lead : String} (line : IsLine lead) (text : String) (offset : Option Int) :
      IsLine (lead ++ inspectedText text ++ offsetText " at " offset) :=
    line.mention (by decide) text offset
  cases faultAt with
  | nothingOpen => exact .append (mention (by decide) _ _) (by decide)
  | otherBracket => exact mention (.append (mention (by decide) _ _) (by decide)) _ _
  | unknown other => exact absurd other (scanned _)
  | unreadable => exact mention (by decide) _ _

namespace Reading

/-- A text is found to be unreadable with a message that is one line. -/
theorem isLine_of_readForms {text : List Char} {cause : ReadFault}
    (failed : readForms text = .error cause) : IsLine cause.message := by
  rcases bind_eq_error_iff.mp failed with unaccepted | ⟨last, -, ended⟩
  · obtain ⟨front, token, rest, next, tokens, accepted, rejected⟩ := exists_rejected unaccepted
    have scanned (label : String) : token.kind ≠ .other label := by
      intro other
      obtain ⟨after, lexeme⟩ := (finds_scan text).lexeme token (by simp [tokens])
      rw [other] at lexeme
      cases lexeme
    rcases (represents_of_foldlM_accept accepted).faultAt rejected with faultAt | ⟨count, rfl⟩
    · exact faultAt.isLine scanned
    · have limit : IsLine ("Exceeds the limit (" ++ toString digitLimit ++
          " digits) for integer string conversion: value has ") :=
        .append (.append (by decide) (.natural _)) (by decide)
      exact .append (limit.append (.natural count)) (by decide)
  · split at ended
    · cases ended
      exact .append (by decide) (.natural _)
    · unfold finish at ended
      split at ended <;> cases ended
      refine .append ?_ (by decide)
      exact IsLine.mention (by decide) (by decide) _ _

end Reading

namespace Interpreter

open Evaluation Invariant Simulation

variable {session : Session} {returned : List Value}

/-- Calls keep line breaks out of names if evaluation does. -/
theorem unbroken_calls {allowed : Fault → Prop} {evaluator other : Evaluator}
    (evaluations : ∀ {world} {form : Value}, form.Unbroken →
      (unbroken.guarded allowed).Computations world (unbroken.guarded allowed).Values
        (evaluator form globalFrame) (other form globalFrame)) :
    Calls (unbroken.guarded allowed) evaluator other := by
  apply calls_of_guarded
  case unaffected => exact fun _ _ holds => ⟨holds, trivial⟩
  case evaluations =>
      rintro world form _ ⟨formUnbroken, -, rfl⟩
      exact evaluations formUnbroken
  case lines =>
      intro session forms _ formsUnbroken
      exact .sequence none .round
        (List.forall_mem_cons.mpr ⟨Value.unbroken_named (by decide), formsUnbroken⟩)
  case nil => exact fun _ => .literal (by decide)

theorem unbroken_readings {allowed : Fault → Prop} {world : (unbroken.guarded allowed).World}
    {text : String}
    (unread : ∀ cause, readForms text.toList = .error cause → allowed (.reading cause)) :
    Readings (unbroken.guarded allowed) world text := by
  refine readings_of_guarded (fun _ _ holds => ⟨holds, trivial⟩) (fun next _ read => ?_) unread
  exact Value.identifiedAll_closed
    (fun form member => (Value.unbroken_of_readForms read form member).identified) next

theorem simulates_unbroken : Simulates (unbroken.guarded fun _ => True) where
  calls depth := unbroken_calls fun formUnbroken =>
    unbroken_lawful.computations_run depth (.form ⟨formUnbroken, rfl, rfl⟩)
  readings _ := unbroken_readings fun _ _ => trivial

/-- In every session that an interpreter gets to, no line break is in a name that is in a value. -/
theorem unbroken_of_reached (reached : Reached session returned) :
    session.heap.All Value.Unbroken := by
  let start : (unbroken.guarded fun _ => True).World := ⟨initialSession, all_initialHeap .builtin⟩
  obtain ⟨⟨_, holds⟩, rfl, -⟩ := simulates_unbroken.reached start rfl reached
  exact holds

/-- A call that does not come to a `defn` with nothing but a string with line breaks leads to a
value without line breaks in names, or to a fault with a message that is one line. -/
theorem isLine_of_spared (holds : session.heap.All Value.Unbroken) {command : Command}
    (spared : ¬ command.ComesTo NamesLines session) :
    (∀ value, (command.run.outcome session).1 = .ok value → value.Unbroken) ∧
      ∀ fault, (command.run.outcome session).1 = .error fault → IsLine fault.message := by
  let world : (unbroken.guarded fun fault => IsLine fault.message).World := ⟨session, holds⟩
  have unchanged : (command.runUnless NamesLines .depthExceeded).outcome session =
      command.run.outcome session := by
    by_contra differs
    exact spared ⟨_, differs⟩
  have reading : Readings _ world command.text :=
    unbroken_readings fun cause failed => Reading.isLine_of_readForms failed
  rw [← unchanged]
  exact (holds_of_guarded (fun depth => unbroken_calls fun formUnbroken =>
    unbroken_runUnless .depthExceeded depth formUnbroken (by decide)) reading).2.2

/-- A call that comes to such a `defn` fails there, or because the budget is exhausted. -/
theorem fails_of_comesTo {command : Command} (names : command.ComesTo NamesLines session) :
    ∃ fault, (fault = .depthExceeded ∨
        ∃ text, fault = .shape (.functionParameters text) ∧ ¬ IsLine text) ∧
      (command.run.outcome session).1 = .error fault := by
  by_contra otherwise
  refine Command.not_comesTo (fun depth names => run_namesLines names depth) ?_ names
  exact fun fault failing failed => otherwise ⟨fault, failing, failed⟩

end Interpreter

namespace Console

open Interpreter Evaluation

variable {session : Session} {returned : List Value}

theorem isLine_faultReport {fault : Fault} (line : IsLine fault.message) :
    IsLine (faultReport fault) := by
  refine .append (.append ?_ (by decide)) line
  cases fault.kind <;> decide

theorem not_isLine_faultReport {text : String} (broken : ¬ IsLine text) :
    ¬ IsLine (faultReport (.shape (.functionParameters text))) := by
  intro line
  have message : IsLine ("defn " ++ text ++ " requires a parameter vector") :=
    (isLine_append.mp line).2
  exact broken (isLine_append.mp (isLine_append.mp message).1).2

/-- The text of a value without line breaks in names is one line, and so is the message if it cannot
be written. -/
theorem isLine_shown (settings : Settings) {ended : Except Fault Value}
    (values : ∀ value, ended = .ok value → value.Unbroken)
    (faults : ∀ fault, ended = .error fault → IsLine fault.message) :
    (∀ text, shown settings ended = .ok text → IsLine text) ∧
      ∀ fault, shown settings ended = .error fault → IsLine fault.message := by
  cases ended with
  | ok value =>
      change (∀ text, value.textWithin settings.depth .readable = .ok text → IsLine text) ∧
        ∀ fault, value.textWithin settings.depth .readable = .error fault → IsLine fault.message
      unfold Value.textWithin
      cases value.obstacle settings.depth with
      | none =>
          refine ⟨?_, nofun⟩
          rintro _ ⟨⟩
          exact .ofList ((values value rfl).newline_not_mem_render (.inl rfl))
      | some obstacle =>
          refine ⟨nofun, ?_⟩
          rintro _ ⟨⟩
          exact Fault.isLine_ofObstacle obstacle
  | error cause =>
      refine ⟨nofun, ?_⟩
      rintro _ ⟨⟩
      exact faults cause rfl

/-- In every state that an interpreter gets to, the console shows the value of a line in one line,
and also the fault that it ends in, unless that is the fault of a `defn` with nothing but a string
that has line breaks. Short of an exhausted budget this is so just if the line does not come to such
a `defn`. -/
theorem isLine_report (reached : Reached session returned) (settings : Settings) (line : String) :
    let ended := ((evaluateLine settings line).outcome session).1
    let names := (Command.line settings.depth line).ComesTo NamesLines session
    (∀ text, ended = .ok text → IsLine text ∧ ¬ names) ∧
      ∀ fault, ended = .error fault →
        (IsLine (faultReport fault) ↔
          ¬ ∃ text, fault = .shape (.functionParameters text) ∧ ¬ IsLine text) ∧
        (fault ≠ .depthExceeded → (IsLine (faultReport fault) ↔ ¬ names)) := by
  intro ended names
  have echoes : session.Echoes "" session := ⟨rfl, rfl, rfl, by simp⟩
  have shows : ended = shown settings (turn settings session line).1 := by
    obtain ⟨after, ends, -⟩ := outcome_evaluateLine settings line echoes
    exact congrArg Prod.fst ends
  have fails (comes : names) : ∃ fault, (fault = .depthExceeded ∨
      ∃ text, fault = .shape (.functionParameters text) ∧ ¬ IsLine text) ∧
      ended = .error fault := by
    obtain ⟨fault, failing, failed⟩ := fails_of_comesTo comes
    exact ⟨fault, failing, shows.trans (congrArg (shown settings) failed)⟩
  have lines (spared : ¬ names) : (∀ text, ended = .ok text → IsLine text) ∧
      ∀ fault, ended = .error fault → IsLine fault.message := by
    obtain ⟨values, faults⟩ := isLine_of_spared (unbroken_of_reached reached) spared
    rw [shows]
    exact isLine_shown settings values faults
  refine ⟨fun text succeeded => ?_, fun fault failed => ⟨⟨?_, ?_⟩, fun other => ⟨?_, ?_⟩⟩⟩
  · have spared : ¬ names := by
      intro comes
      obtain ⟨fault, -, failed⟩ := fails comes
      cases succeeded.symm.trans failed
    exact ⟨(lines spared).1 text succeeded, spared⟩
  · rintro line ⟨text, rfl, broken⟩
    exact not_isLine_faultReport broken line
  · intro absent
    by_cases comes : names
    · obtain ⟨cause, exhausted | broken, caused⟩ := fails comes
      · cases failed.symm.trans caused
        rw [exhausted]
        decide
      · cases failed.symm.trans caused
        exact absurd broken absent
    · exact isLine_faultReport ((lines comes).2 fault failed)
  · intro line comes
    obtain ⟨cause, exhausted | ⟨text, rfl, broken⟩, caused⟩ := fails comes
    · cases failed.symm.trans caused
      exact other exhausted
    · cases failed.symm.trans caused
      exact not_isLine_faultReport broken line
  · exact fun spared => isLine_faultReport ((lines spared).2 fault failed)

/-- A string with a line break in it is a value that is shown in one line. -/
theorem isLine_report_string :
    let settings := Settings.ofVariables fun _ => none
    ((evaluateLine settings "\"a\\nb\"").outcome initialSession).1 = .ok "\"a\\nb\"" ∧
      IsLine "\"a\\nb\"" ∧
      ¬ (Command.line settings.depth "\"a\\nb\"").ComesTo NamesLines initialSession := by
  intro settings
  have letters : "\"a\\nb\"".toList = ['"', 'a', '\\', 'n', 'b', '"'] := by simp
  have succeeded : ((evaluateLine settings "\"a\\nb\"").outcome initialSession).1 =
      .ok "\"a\\nb\"" := by
    simp only [evaluateLine, Interpreter.evaluateLine, readText, letters]
    rfl
  exact ⟨succeeded, (isLine_report .initial settings _).1 _ succeeded⟩

/-- The name of a `defn` with nothing but a string is shown as it is, line breaks and all. -/
theorem isLine_report_defn :
    let settings := Settings.ofVariables fun _ => none
    let fault := Fault.shape (.functionParameters "a\nb")
    ((evaluateLine settings "(defn \"a\\nb\")").outcome initialSession).1 = .error fault ∧
      fault.isLanguage ∧
      faultReport fault = "MalformedForm: defn a\nb requires a parameter vector" ∧
      ¬ IsLine (faultReport fault) := by
  intro settings fault
  have letters : "(defn \"a\\nb\")".toList =
      ['(', 'd', 'e', 'f', 'n', ' ', '"', 'a', '\\', 'n', 'b', '"', ')'] := by
    simp
  refine ⟨?_, rfl, rfl, not_isLine_faultReport (by decide)⟩
  simp only [evaluateLine, Interpreter.evaluateLine, readText, letters]
  rfl

end Console

end TinyLisp
