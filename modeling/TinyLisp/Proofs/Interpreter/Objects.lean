import TinyLisp.Proofs.Evaluation.Objects
import TinyLisp.Proofs.Interpreter.Reached

/-!
# Sequences of an interpreter are objects

In every session that an interpreter gets to, two sequences with one identity are the same, among
all values that are bound or have been returned. So these values can be compared, unless an
undefined number is in them. Even then each of them is equal to itself.
-/

namespace TinyLisp

namespace Interpreter

open Evaluation Simulation

theorem objects_note {world : objects.World} (event : Event) :
    objects.Computations world (fun _ _ _ => True) (Run.note event) (Run.note event) :=
  objects_kept (Run.outcome_note event world.1.1) ⟨world.2.fresh, world.2.bound⟩
    fun _ _ => trivial

/-- The sequences of a text are entered in the table as they are numbered. -/
theorem objects_readings {world : objects.World} (text : String) :
    Readings objects world text := by
  rcases outcome_readText_cases text world.1.1 with ⟨fault, ends⟩ | ⟨forms, made, ends⟩
  · exact objects_failed ends
  · obtain ⟨more, later, fresh, known⟩ := Value.exists_identifiedAll
      (fun form member _ _ => (made form member).exists_identified) world.2.fresh
    refine objects_computations ends later
      ⟨fresh, world.2.bound.imp fun _ known => known.mono later⟩ ?_
    rintro _ ⟨⟩
    exact objects_formLists known

theorem objects_calls (depth : Nat) : Calls objects (evaluate depth) (evaluate depth) where
  evaluations forms := by
    obtain ⟨known, -, rfl⟩ := forms
    exact objects_lawful.computations_run depth (.form ⟨known, rfl, rfl⟩)
  lines related := by
    obtain ⟨known, rfl⟩ := known_of_formLists related
    exact ⟨.list (List.forall_mem_cons.mpr ⟨.symbol _, known⟩), rfl, rfl⟩
  nil := ⟨.literal _, rfl⟩
  formNotes := by
    rintro world form _ ⟨-, -, rfl⟩
    exact objects_note _
  valueNotes := by
    rintro world value _ ⟨-, rfl⟩
    exact objects_note _
  lineNotes _ := objects_note _

theorem simulates_objects : Simulates objects := ⟨objects_calls, objects_readings⟩

theorem keeps_initialSession : initialSession.Keeps fun _ => none where
  fresh := ⟨fun _ _ => rfl, fun _ _ => rfl⟩
  bound := all_initialHeap .builtin

/-- One table knows all values that an interpreter has bound or returned. -/
theorem Reached.known {session : Session} {returned : List Value}
    (reached : Reached session returned) :
    ∃ objects : Objects, session.heap.All (Value.Known objects) ∧
      ∀ value ∈ returned, value.Known objects := by
  let start : objects.World := ⟨(initialSession, fun _ => none), keeps_initialSession⟩
  obtain ⟨⟨⟨_, objects⟩, keeps⟩, rfl, related⟩ := simulates_objects.reached start rfl reached
  refine ⟨objects, keeps.bound, fun value member => ?_⟩
  obtain ⟨_, known, -⟩ := related value member
  exact known

/-- Every value that an interpreter has bound or returned is equal to itself, whatever numbers it
holds. -/
theorem Reached.isEqual_self {session : Session} {returned : List Value}
    (reached : Reached session returned) :
    session.heap.All (fun value => value.IsEqual value) ∧
      ∀ value ∈ returned, value.IsEqual value := by
  obtain ⟨objects, bound, returns⟩ := reached.known
  have itself (value : Value) (known : value.Known objects) : value.IsEqual value :=
    Value.isEqual_iff_equal.mpr known.equal_self
  exact ⟨bound.imp itself, fun value member => itself value (returns value member)⟩

/-- All values that an interpreter has bound or returned, but for those that an undefined number is
in, can be compared with each other. -/
theorem Reached.comparable {session : Session} {returned : List Value}
    (reached : Reached session returned) :
    ∃ objects : Identity → Bracket × List Value,
      session.heap.All (fun value => ¬ value.HoldsNan → value.Comparable objects) ∧
        ∀ value ∈ returned, ¬ value.HoldsNan → value.Comparable objects := by
  obtain ⟨objects, bound, returns⟩ := reached.known
  exact ⟨_, bound.imp fun value known => known.comparable,
    fun value member => (returns value member).comparable⟩

end Interpreter

end TinyLisp
