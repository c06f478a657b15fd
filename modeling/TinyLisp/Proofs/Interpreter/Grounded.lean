import TinyLisp.Proofs.Evaluation.Locality
import TinyLisp.Proofs.Interpreter.Reached

/-!
# Sessions of an interpreter are grounded

In every session that an interpreter gets to, bound values and returned values refer to frames and
objects that have been made. So the forms of any text are supported there, in every frame.
-/

namespace TinyLisp

/-- Numbering a form that the reader has made leaves no reference to anything in it. -/
theorem Value.ReaderMade.identified_within {value : Value} (made : value.ReaderMade) (next : Nat)
    (allowed : Reference → Prop) : (value.identified next).1.Within allowed := by
  induction made generalizing next with
  | number defined => exact within_number (by simp [defined.object?_eq_none])
  | sequence identity bracket made ih =>
      exact within_sequence (by simp) (identifiedAll_closed ih (next + 1))
  | _ => rintro _ ⟨⟩

namespace Interpreter

open Evaluation Simulation

/-- Grounded sessions, with values and forms that refer to nothing but what has been made. -/
def grounded : Invariant where
  Sessions session := 0 < session.heap.frames.size ∧ session.Grounded
  Values session value := value.Within session.Made
  Forms session frame form := form.Within session.Made ∧ frame < session.heap.frames.size
  Later session after := session.heap.frames.size ≤ after.heap.frames.size ∧
    session.objectsMade ≤ after.objectsMade
  later_refl _ := ⟨le_rfl, le_rfl⟩
  later_trans first second := ⟨first.1.trans second.1, first.2.trans second.2⟩
  values_later later within := within.imp (Session.made_mono later.1 later.2)
  forms_later later := And.imp (fun within => within.imp (Session.made_mono later.1 later.2))
    fun inside => inside.trans_le later.1

theorem simulates_grounded : Simulates (grounded.guarded fun _ => True) := by
  apply simulates_of_invariant
  case evaluations =>
      rintro world form _ depth ⟨⟨within, inside⟩, -, rfl⟩
      obtain ⟨afterGrounded, frames, objects, values⟩ :=
        evaluate_grounded depth world.2.2 inside within Prod.mk.eta.symm
      exact Invariant.computations Prod.mk.eta.symm ⟨world.2.1.trans_le frames, afterGrounded⟩
        ⟨frames, objects⟩ fun value returned => ⟨values value returned, rfl⟩
  case unaffected => exact fun _ _ holds => ⟨holds, le_rfl, le_rfl⟩
  case readings => exact fun next holds made => ⟨made.identified_within next _, holds.1⟩
  case lines =>
      intro session forms holds known
      refine ⟨Value.within_list (List.forall_mem_cons.mpr ⟨Value.within_named _, ?_⟩), holds.1⟩
      exact fun form member => (known form member).1
  case nil => exact fun _ => Value.within_literal _

theorem grounded_initialSession : initialSession.Grounded := by
  apply all_initialHeap
  rintro procedure _ ⟨⟩

/-- Nothing that an interpreter has bound or returned refers to what does not exist. -/
theorem Reached.grounded {session : Session} {returned : List Value}
    (reached : Reached session returned) :
    session.Grounded ∧ ∀ value ∈ returned, value.Within session.Made := by
  have global : 0 < initialSession.heap.frames.size := initialHeap_size ▸ Nat.one_pos
  let start : Interpreter.grounded.simulation.World :=
    ⟨initialSession, global, grounded_initialSession⟩
  obtain ⟨⟨_, _, sessionGrounded⟩, rfl, related⟩ := simulates_grounded.reached start rfl reached
  refine ⟨sessionGrounded, fun value member => ?_⟩
  obtain ⟨_, valueWithin, -⟩ := related value member
  exact valueWithin

/-- Evaluation in a frame of a session that an interpreter gets to is local for every form that the
reader has made. -/
theorem Reached.supports {session : Session} {returned : List Value}
    (reached : Reached session returned) {frame : Nat} (inside : frame < session.heap.frames.size)
    {form : Value} (made : form.ReaderMade) (next : Nat) :
    session.Supports frame (form.identified next).1 :=
  reached.grounded.1.supports inside (made.identified_within next _)

end Interpreter

end TinyLisp
