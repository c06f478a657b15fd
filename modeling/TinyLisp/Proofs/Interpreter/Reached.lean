import TinyLisp.Proofs.Evaluation.WellFormed
import TinyLisp.Proofs.Interpreter.Simulation

/-!
# The sessions of an interpreter

An interpreter starts with the builtin procedures, perhaps evaluates a prelude, and is then asked to
evaluate chunks of text and lines in any order. Every call has a budget of nested activations of its
own, and may fail. All sessions that come about are well-formed, and so are all values that the
calls have returned so far.
-/

namespace TinyLisp

namespace Interpreter

/-- The sessions that an interpreter can get to, each with the values that its calls have returned,
the latest first. -/
inductive Reached : Session → List Value → Prop
  | initial : Reached initialSession []
  | prelude (depth : Nat) (text : String) :
      Reached ((evaluatePrelude (evaluate depth) text).outcome initialSession).2 []
  | call {session : Session} {returned : List Value} (reached : Reached session returned)
      (command : Command) :
      Reached (command.run.outcome session).2
        ((command.run.outcome session).1.toOption.toList ++ returned)

theorem initialHeap_size : initialHeap.frames.size = 1 := by
  simp [initialHeap, Heap.empty]

/-- At the start nothing but the builtin procedures is bound. -/
theorem all_initialHeap {property : Value → Prop}
    (builtins : ∀ procedure, property (.primitive (.builtin procedure))) :
    initialHeap.All property := by
  have nothing : Heap.empty.All property := by
    intro id frame found
    simp [Heap.empty] at found
  refine nothing.newFrame none fun binding member => ?_
  obtain ⟨procedure, -, rfl⟩ := List.mem_map.mp member
  exact builtins procedure

open Evaluation Simulation

/-- Every session that is reached is matched, and so is every value that has been returned, if the
initial session is matched. -/
theorem Simulates.reached {simulation : Simulation} (simulates : Simulates simulation)
    (start : simulation.World) (initial : simulation.left start = initialSession)
    {session : Session} {returned : List Value} (reached : Reached session returned) :
    ∃ world, simulation.left world = session ∧
      ∀ value ∈ returned, ∃ other, simulation.Values world value other := by
  induction reached with
  | initial => exact ⟨start, initial, by simp⟩
  | prelude depth text =>
      obtain ⟨after, -, ends, -⟩ := @computations_prelude _ simulates start depth text
      rw [initial] at ends
      exact ⟨after, ends.symm, by simp⟩
  | @call session returned _ command ih =>
      obtain ⟨world, rfl, before⟩ := ih
      obtain ⟨after, later, ends, -, results⟩ := @computations_command _ simulates world command
      refine ⟨after, ends.symm, fun value member => ?_⟩
      rcases List.mem_append.mp member with now | earlier
      · generalize (command.run.outcome (simulation.left world)).1 = result at results now
        generalize (command.run.outcome (simulation.right world)).1 = other at results
        cases results with
        | ok related =>
            obtain rfl : value = _ := List.mem_singleton.mp now
            exact ⟨_, related⟩
        | error => simp [Except.toOption] at now
      · obtain ⟨other, related⟩ := before value earlier
        exact ⟨other, simulation.values_later later related⟩

theorem simulates_wellFormed : Simulates (wellFormed.guarded fun _ => True) := by
  apply simulates_of_invariant
  case evaluations =>
      intro world form other depth forms
      exact wellFormed_lawful.computations_run depth (.form forms)
  case unaffected => exact fun _ _ holds => ⟨⟨holds.global, holds.bound⟩, le_rfl⟩
  case readings => exact fun next holds made => ⟨made.identified next, holds.global⟩
  case lines =>
      intro session forms holds known
      refine ⟨.list (List.forall_mem_cons.mpr ⟨.named _, ?_⟩), holds.global⟩
      exact fun form member => (known form member).1
  case nil => exact fun _ => .literal (by decide)

theorem wellFormed_initialSession : initialSession.WellFormed where
  global := initialHeap_size ▸ Nat.one_pos
  bound := all_initialHeap .builtin

/-- In every session that an interpreter gets to, all bound values and all values returned so far
are well-formed. -/
theorem wellFormed_of_reached {session : Session} {returned : List Value}
    (reached : Reached session returned) :
    session.WellFormed ∧ ∀ value ∈ returned, value.WellFormed session.heap.frames.size := by
  let start : wellFormed.simulation.World := ⟨initialSession, wellFormed_initialSession⟩
  obtain ⟨⟨_, sessionWellFormed⟩, rfl, related⟩ := simulates_wellFormed.reached start rfl reached
  refine ⟨sessionWellFormed, fun value member => ?_⟩
  obtain ⟨_, valueWellFormed, -⟩ := related value member
  exact valueWellFormed

/-- A chunk with a function in it returns a closure over the global frame. -/
theorem wellFormed_of_reached_function :
    ((Command.chunk 4 "(fn [x] x)").run.outcome initialSession).2.WellFormed ∧
      (Value.closure 0 [.named "x"] [.named "x"] globalFrame).WellFormed
        ((Command.chunk 4 "(fn [x] x)").run.outcome initialSession).2.heap.frames.size := by
  have letters : "(fn [x] x)".toList = ['(', 'f', 'n', ' ', '[', 'x', ']', ' ', 'x', ')'] := by
    simp
  have returned : ((Command.chunk 4 "(fn [x] x)").run.outcome initialSession).1 =
      .ok (.closure 0 [.named "x"] [.named "x"] globalFrame) := by
    unfold Command.run
    simp only [evaluateText, readText, letters]
    rfl
  obtain ⟨session, values⟩ := wellFormed_of_reached (.call .initial (.chunk 4 "(fn [x] x)"))
  refine ⟨session, values _ ?_⟩
  rw [returned]
  exact List.mem_singleton_self _

end Interpreter

end TinyLisp
