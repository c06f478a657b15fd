import TinyLisp.Proofs.Heap.Bindings
import TinyLisp.Proofs.Value.Renumbering

/-!
# Frames that can be reached

From a form in a frame one can get to the frame itself, to frames that closures in the form have
captured, to the frames around such frames, and to frames that closures bound in such frames have
captured. In a grounded session nothing refers to a frame or an object that has not been made yet,
so whatever can be reached is there.
-/

namespace TinyLisp

/-- The frames that can be reached from a form in a frame. -/
inductive Heap.Reach (heap : Heap) (frame : Nat) (form : Value) : Nat → Prop
  | start : Reach heap frame form frame
  | captured {id : Nat} (mentions : form.Mentions (.frame id)) : Reach heap frame form id
  | outer {id outer : Nat} {reached : Frame} (reach : Reach heap frame form id)
      (found : heap.frames[id]? = some reached) (around : reached.outer = some outer) :
      Reach heap frame form outer
  | bound {id captured : Nat} {reached : Frame} {binding : Name × Value}
      (reach : Reach heap frame form id) (found : heap.frames[id]? = some reached)
      (member : binding ∈ reached.bindings) (mentions : binding.2.Mentions (.frame captured)) :
      Reach heap frame form captured

namespace Session

/-- All references that can be reached are to frames that exist and to objects that have been made.
Numbers of either kind are given out one after the other. -/
structure Supports (session : Session) (frame : Nat) (form : Value) : Prop where
  frames : ∀ id, session.heap.Reach frame form id → id < session.heap.frames.size
  formObjects : ∀ number, form.Mentions (.object number) → number < session.objectsMade
  boundObjects : ∀ id reached, session.heap.Reach frame form id →
    session.heap.frames[id]? = some reached → ∀ binding ∈ reached.bindings,
      ∀ number, binding.2.Mentions (.object number) → number < session.objectsMade

/-- Another session has the frames that can be reached, just as they are in this one. -/
def Agrees (session other : Session) (frame : Nat) (form : Value) : Prop :=
  ∀ id, session.heap.Reach frame form id → other.heap.frames[id]? = session.heap.frames[id]?

/-- A frame that could be reached before, or that has been made since then. -/
def ReachedOrMade (session after : Session) (frame : Nat) (form : Value) (id : Nat) : Prop :=
  session.heap.Reach frame form id ∨
    (session.heap.frames.size ≤ id ∧ id < after.heap.frames.size)

/-- What a session has made so far. -/
def Made (session : Session) : Reference → Prop
  | .frame id => id < session.heap.frames.size
  | .object number => number < session.objectsMade

/-- Bound values refer to nothing but what has been made. -/
def Grounded (session : Session) : Prop :=
  session.heap.All (Value.Within session.Made)

variable {session other : Session} {frame : Nat} {form : Value}

/-- Where sessions agree, the same frames can be reached. -/
theorem Agrees.reach (agrees : session.Agrees other frame form) {id : Nat}
    (reach : session.heap.Reach frame form id) : other.heap.Reach frame form id := by
  induction reach with
  | start => exact .start
  | captured mentions => exact .captured mentions
  | outer reach found around ih => exact .outer ih ((agrees _ reach).trans found) around
  | bound reach found member mentions ih =>
      exact .bound ih ((agrees _ reach).trans found) member mentions

theorem made_mono {after : Session} (frames : session.heap.frames.size ≤ after.heap.frames.size)
    (objects : session.objectsMade ≤ after.objectsMade) (reference : Reference)
    (made : session.Made reference) : after.Made reference := by
  cases reference with
  | frame id => exact Nat.lt_of_lt_of_le made frames
  | object number => exact Nat.lt_of_lt_of_le made objects

theorem Grounded.reach_lt (grounded : session.Grounded) (inside : frame < session.heap.frames.size)
    (within : form.Within session.Made) {id : Nat} (reach : session.heap.Reach frame form id) :
    id < session.heap.frames.size := by
  induction reach with
  | start => exact inside
  | captured mentions => exact within _ mentions
  | @outer id outer reached reach found around ih =>
      exact (session.heap.outer_lt id reached found outer around).trans ih
  | bound reach found member mentions ih => exact grounded _ _ found _ member _ mentions

/-- A grounded session supports every form that refers to nothing but what has been made. -/
theorem Grounded.supports (grounded : session.Grounded) (inside : frame < session.heap.frames.size)
    (within : form.Within session.Made) : session.Supports frame form where
  frames _ := grounded.reach_lt inside within
  formObjects _ := within _
  boundObjects _ _ _ found binding member _ := grounded _ _ found binding member _

end Session

end TinyLisp
