import TinyLisp.Proofs.Evaluation.Lockstep

/-!
# Computations that agree

Sessions are alike if what evaluation looks at and what it has printed are the same in both. What
has been noted and how many sequences have been read does not matter: evaluation goes on in the same
way.
-/

namespace TinyLisp

/-- The sessions have the same frames and the same output, and give out the same numbers. -/
structure Session.Alike (session other : Session) : Prop where
  heap : session.heap = other.heap
  objectsMade : session.objectsMade = other.objectsMade
  printed : session.printed = other.printed

theorem Session.Alike.refl (session : Session) : session.Alike session := ⟨rfl, rfl, rfl⟩

namespace Run

variable {α β : Type}

/-- Each in its session, both computations end in the same way, and the sessions that they leave are
alike. -/
def AgreeAt (session otherSession : Session) (computation other : Run α) : Prop :=
  (computation.outcome session).1 = (other.outcome otherSession).1 ∧
    (computation.outcome session).2.Alike (other.outcome otherSession).2

/-- The computations agree in all sessions that are alike. -/
def Agree (computation other : Run α) : Prop :=
  ∀ session otherSession : Session, session.Alike otherSession →
    AgreeAt session otherSession computation other

theorem agree_pure (value : α) : (pure value : Run α).Agree (pure value) :=
  fun _ _ alike => ⟨rfl, alike⟩

theorem AgreeAt.bind {session otherSession : Session} {computation other : Run α}
    {next otherNext : α → Run β} (first : AgreeAt session otherSession computation other)
    (rest : ∀ value, AgreeAt (computation.outcome session).2 (other.outcome otherSession).2
      (next value) (otherNext value)) :
    AgreeAt session otherSession (computation >>= next) (other >>= otherNext) := by
  obtain ⟨results, after⟩ := first
  rw [AgreeAt, outcome_bind, outcome_bind]
  generalize computation.outcome session = outcome at results after rest
  generalize other.outcome otherSession = otherOutcome at results after rest
  obtain ⟨result, middle⟩ := outcome
  obtain ⟨otherResult, otherMiddle⟩ := otherOutcome
  cases results
  cases result with
  | ok value => exact rest value
  | error fault => exact ⟨rfl, after⟩

theorem Agree.bind {computation other : Run α} {next otherNext : α → Run β}
    (first : computation.Agree other) (rest : ∀ value, (next value).Agree (otherNext value)) :
    (computation >>= next).Agree (other >>= otherNext) := by
  intro session otherSession alike
  have ended := first session otherSession alike
  exact ended.bind fun value => rest value _ _ ended.2

/-- What is noted makes no difference, nor whether anything is. -/
theorem Agree.note_left {computation other : Run α} (agree : computation.Agree other)
    (event : Event) : (note event >>= fun _ => computation).Agree other :=
  fun _ _ alike => agree _ _ ⟨alike.heap, alike.objectsMade, alike.printed⟩

theorem Agree.note_right {computation other : Run α} (agree : computation.Agree other)
    (event : Event) : computation.Agree (note event >>= fun _ => other) :=
  fun _ _ alike => agree _ _ ⟨alike.heap, alike.objectsMade, alike.printed⟩

end Run

namespace Evaluation

/-- Sessions that are alike stay so. -/
def alike : Lockstep where
  Beside := Session.Alike
  Own _ := True
  heap_eq alike := alike.heap
  objects_eq alike := alike.objectsMade
  own_next _ := trivial
  note _ alike := ⟨alike.heap, alike.objectsMade, alike.printed⟩
  print text alike := ⟨alike.heap, alike.objectsMade, congrArg (· ++ text) alike.printed⟩
  number count alike := ⟨alike.heap, congrArg (· + count) alike.objectsMade, alike.printed⟩
  assign _ alike _ := ⟨congrArg (Heap.write · _ _ _) alike.heap, alike.objectsMade, alike.printed⟩
  define _ _ alike _ := ⟨congrArg (Heap.write · _ _ _) alike.heap, alike.objectsMade, alike.printed⟩
  newFrame _ _ alike :=
    ⟨congrArg (fun heap => (Heap.newFrame heap _ _).2) alike.heap, alike.objectsMade, alike.printed⟩

theorem run_agree (depth : Nat) (activation : Activation) :
    (run depth activation).Agree (run depth activation) :=
  fun _ _ related => alike.outcome_run depth activation (fun _ _ => trivial) related

end Evaluation

end TinyLisp
