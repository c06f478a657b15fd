import TinyLisp.Proofs.Console.Transcript
import TinyLisp.Proofs.Interpreter.Failures

/-!
# How a conversation ends

Errors of the language and an exhausted budget are reported, and the conversation goes on. It ends
early in two ways only: the limit of nested calls that the settings ask for cannot be set, or an
integer with too many digits is read or has to be written. So there are settings and lines with
which it does.
-/

namespace TinyLisp

namespace Console

open Interpreter

/-- A line fails for the digits of an integer: one is read, one is in a value that is shown because
it is applied but is no procedure, or one is in the value of the line. -/
inductive Overlong (settings : Settings) (state : Session) (line : String) : Fault → Prop
  | read {count : Nat} {token : Token}
      (unread : readForms line.toList = .error (.tooManyDigits count))
      (member : token ∈ (scan line.toList).tokens) (long : ¬ token.WithinDigitLimit) :
      Overlong settings state line (.reading (.tooManyDigits count))
  | applied (failed : (turn settings state line).1 = .error .tooManyDigits)
      (shows : (Command.line settings.depth line).ComesTo ShowsOverlong state) :
      Overlong settings state line .tooManyDigits
  | written {value : Value} (returned : (turn settings state line).1 = .ok value)
      (unwritten : value.obstacle settings.depth = some .digits) (long : value.HoldsOverlong) :
      Overlong settings state line .tooManyDigits

/-- No line fails for the digits of an integer, each in the state that the lines before it leave. -/
def Spared (settings : Settings) (lines : List String) : Prop :=
  ∀ before line after fault, lines = before ++ line :: after → isBlankLine line = false →
    ¬ Overlong settings (stateAfter settings initialSession before) line fault

variable {settings : Settings} {state session : Session} {line : String} {lines : List String}
  {fault : Fault}

theorem turn_of_unread {cause : ReadFault} (unread : readForms line.toList = .error cause)
    (settings : Settings) (state : Session) :
    turn settings state line = (.error (.reading cause), state) := by
  rw [turn, Interpreter.evaluateLine, Run.outcome_bind, outcome_readText_error unread]

theorem Overlong.shown_eq (overlong : Overlong settings state line fault) :
    shown settings (turn settings state line).1 = .error fault := by
  cases overlong with
  | read unread =>
      rw [turn_of_unread unread]
      rfl
  | applied failed =>
      rw [failed]
      rfl
  | written returned unwritten =>
      rw [returned]
      simp only [shown, ok_bind, Value.textWithin, unwritten]
      rfl

/-- The console does not report such a fault. -/
theorem Overlong.unreported (overlong : Overlong settings state line fault) :
    ¬ (fault.isLanguage ∨ fault.kind = .recursion) := by
  have value : fault.kind = .value := by cases overlong <;> rfl
  rw [Fault.isLanguage, value]
  decide

theorem Reported.of_mem {before after : List String}
    (reported : Reported settings state (before ++ line :: after))
    (filled : isBlankLine line = false)
    (failed : shown settings (turn settings (stateAfter settings state before) line).1 =
      .error fault) : fault.isLanguage ∨ fault.kind = .recursion := by
  induction before generalizing state with
  | nil => exact reported.1 filled fault failed
  | cons first before ih => exact ih reported.2 failed

theorem Reported.spared (reported : Reported settings initialSession lines) :
    Spared settings lines := by
  rintro before line after fault rfl filled overlong
  exact overlong.unreported (reported.of_mem filled overlong.shown_eq)

end Console

end TinyLisp
