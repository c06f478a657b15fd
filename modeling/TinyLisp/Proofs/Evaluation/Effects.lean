import TinyLisp.Proofs.Evaluation.Lockstep
import TinyLisp.Proofs.Session.Changes

/-!
# Effects of evaluation

Every run changes its session by single changes only. Names are defined in the frame that forms are
evaluated in, and in frames that are made on the way; a closure that is called has a frame of its
own. So no definition gets into any other frame, and nothing is lost from any frame.
-/

namespace TinyLisp

/-- The frames in which evaluation in a frame may define names: this frame, and frames that are not
there yet. -/
def Session.DefinesIn (session : Session) (frame id : Nat) : Prop :=
  id = frame ∨ session.heap.frames.size ≤ id

namespace Evaluation

/-- Every session beside itself that changes have led to. -/
def evolving (start : Session) (own : Nat → Prop)
    (own_made : ∀ id, start.heap.frames.size ≤ id → own id) : Lockstep where
  Beside session other := start.Evolves own session ∧ session = other
  Own := own
  heap_eq := by
    rintro session _ ⟨-, rfl⟩
    rfl
  objects_eq := by
    rintro session _ ⟨-, rfl⟩
    rfl
  own_next beside := own_made _ beside.1.size_le
  note event := by
    rintro ⟨evolves, rfl⟩
    exact ⟨evolves.note event, rfl⟩
  print text := by
    rintro ⟨evolves, rfl⟩
    exact ⟨evolves.print text, rfl⟩
  number count := by
    rintro ⟨evolves, rfl⟩
    exact ⟨evolves.number count, rfl⟩
  assign value := by
    rintro ⟨evolves, rfl⟩ found
    exact ⟨evolves.assign found value, rfl⟩
  define name value := by
    rintro ⟨evolves, rfl⟩ owned
    exact ⟨evolves.define owned name value, rfl⟩
  newFrame outer bindings := by
    rintro ⟨evolves, rfl⟩
    exact ⟨evolves.newFrame outer bindings, rfl⟩

/-- A run defines names where its forms are evaluated and in frames that it makes. -/
theorem run_evolves (depth : Nat) (activation : Activation) (session : Session)
    {own : Nat → Prop} (own_made : ∀ id, session.heap.frames.size ≤ id → own id)
    (owned : ∀ frame ∈ activation.frame?, own frame) :
    session.Evolves own ((run depth activation).outcome session).2 :=
  ((evolving session own own_made).outcome_run depth activation owned ⟨.refl, rfl⟩).2.1

theorem evaluate_evolves (depth : Nat) (form : Value) (frame : Nat) (session : Session) :
    session.Evolves (session.DefinesIn frame) ((evaluate depth form frame).outcome session).2 := by
  refine run_evolves depth (.form form frame) session (fun _ => .inr) ?_
  rintro _ ⟨⟩
  exact .inl rfl

/-- However evaluation in a frame ends, every frame that was there before is still within the same
frame and binds what it has bound, in the same order, and only the one frame may bind more. -/
theorem evaluate_names (depth : Nat) (form : Value) (frame : Nat) (session : Session) :
    let after := ((evaluate depth form frame).outcome session).2
    session.Evolves (session.DefinesIn frame) after ∧
      ∀ id < session.heap.frames.size,
        after.heap.frames[id]?.map (·.outer) = session.heap.frames[id]?.map (·.outer) ∧
          session.heap.names id <+: after.heap.names id ∧
          (id ≠ frame → after.heap.names id = session.heap.names id) := by
  intro after
  have evolves : session.Evolves (session.DefinesIn frame) after :=
    evaluate_evolves depth form frame session
  refine ⟨evolves, fun id inside => ⟨evolves.map_outer inside, evolves.names_prefix inside, ?_⟩⟩
  intro other
  refine evolves.names_eq inside ?_
  rintro (same | outside)
  · exact other same
  · omega

/-- A closure over the inner of two frames assigns to a name of the outer one and defines a name.
Neither frame gains one. -/
theorem evaluate_names_closure :
    let session : Session :=
      ⟨((Heap.empty.newFrame none [(.plain "x", .nil)]).2.newFrame (some 0)
        [(.plain "w", .nil)]).2, 0, 0, "", []⟩
    let body : List Value :=
      [.list [.named "set!", .named "x", .ofBool true], .list [.named "def", .named "y", .nil]]
    let form : Value := .list [.list (.named "fn" :: .sequence none .square [] :: body)]
    let after := ((evaluate 9 form 1).outcome session).2
    after.heap.names 0 = [.plain "x"] ∧ after.heap.get? 0 (.plain "x") = some (.ofBool true) ∧
      [.plain "w"] <+: after.heap.names 1 ∧ after.heap.names 2 = [.plain "y"] := by
  intro session body form after
  obtain ⟨-, frames⟩ := evaluate_names 9 form 1 session
  exact ⟨(frames 0 (by decide)).2.2 (by decide), rfl, (frames 1 (by decide)).2.1, rfl⟩

end Evaluation

end TinyLisp
