import TinyLisp.Proofs.Evaluation.Correspondence
import TinyLisp.Proofs.Heap.Reach

/-!
# Evaluation is local

Evaluating a form in a frame follows the frames that can be reached from there, and those that are
made on the way. All other frames stay as they are and have no effect. What comes out refers to
frames that could be reached, or to new ones.
-/

namespace TinyLisp

namespace Session

/-- No frame is gone, those that could not be reached are as they were, and all that could be
reached or have been made refer to such frames only. -/
structure Confines (session after : Session) (frame : Nat) (form : Value) : Prop where
  grows : session.heap.frames.size ≤ after.heap.frames.size
  untouched : ∀ id, id < session.heap.frames.size → ¬ session.heap.Reach frame form id →
    after.heap.frames[id]? = session.heap.frames[id]?
  outer : ∀ id reached, session.ReachedOrMade after frame form id →
    after.heap.frames[id]? = some reached →
      ∀ outer, reached.outer = some outer → session.ReachedOrMade after frame form outer
  bindings : ∀ id reached, session.ReachedOrMade after frame form id →
    after.heap.frames[id]? = some reached →
      ∀ binding ∈ reached.bindings, ∀ captured, binding.2.Mentions (.frame captured) →
        session.ReachedOrMade after frame form captured

/-- What has happened in a session has happened in another one too: the same text has been printed,
as many frames and objects have been made, and the frames that could be reached or have been made
are the same, but for the numbers of what has been made. -/
structure Repeats (session after other otherAfter : Session) (frame : Nat) (form : Value) :
    Prop where
  printed : ∃ text, after.printed = session.printed ++ text ∧
    otherAfter.printed = other.printed ++ text
  frames : otherAfter.heap.frames.size + session.heap.frames.size =
    after.heap.frames.size + other.heap.frames.size
  objects : otherAfter.objectsMade + session.objectsMade = after.objectsMade + other.objectsMade
  contents : ∀ id reached, session.ReachedOrMade after frame form id →
    after.heap.frames[id]? = some reached →
      otherAfter.heap.frames[(session.renumbering other).frames id]? =
        some (reached.renumber (session.renumbering other))

end Session

namespace Evaluation

variable {session other : Session} {frame : Nat} {form : Value}

/-- Runs in sessions that agree on what can be reached. -/
def Origin.ofAgreement (session other : Session) (frame : Nat) (form : Value)
    (supports : session.Supports frame form) (agrees : session.Agrees other frame form) :
    Origin where
  first := session
  second := other
  Shared := session.heap.Reach frame form
  lt_first := supports.frames
  lt_second := by
    intro id reach
    have found := Array.getElem?_eq_getElem (supports.frames id reach)
    exact Heap.lt_of_getElem? ((agrees id reach).trans found)

namespace Origin

/-- At the start everything that is allowed has the same number in both sessions. -/
theorem renumber_allowed {origin : Origin} {value : Value}
    (within : value.Within
      (origin.Allowed origin.first.heap.frames.size origin.first.objectsMade)) :
    value.renumber origin.renumbering = value := by
  refine Value.renumber_eq_self (within.imp fun reference allowed => ?_)
  cases reference with
  | frame id =>
      rcases allowed with shared | ⟨new, old⟩
      · exact if_pos (origin.lt_first id shared)
      · exact absurd old (not_lt.mpr new)
  | object number =>
      rcases allowed with ⟨old, -⟩ | ⟨new, old⟩
      · exact if_pos old
      · exact absurd old (not_lt.mpr new)

theorem frames_shared {origin : Origin} {id : Nat} (shared : origin.Shared id) :
    origin.renumbering.frames id = id :=
  if_pos (origin.lt_first id shared)

theorem form_within (supports : session.Supports frame form)
    (otherSupports : other.Supports frame form) (agrees : session.Agrees other frame form) :
    form.Within ((ofAgreement session other frame form supports agrees).Allowed
      session.heap.frames.size session.objectsMade) := by
  intro reference mentions
  cases reference with
  | frame id => exact .inl (.captured mentions)
  | object number =>
      exact .inl ⟨supports.formObjects number mentions, otherSupports.formObjects number mentions⟩

theorem reached_within (supports : session.Supports frame form)
    (otherSupports : other.Supports frame form) (agrees : session.Agrees other frame form)
    {id : Nat} {reached : Frame} (reach : session.heap.Reach frame form id)
    (found : session.heap.frames[id]? = some reached) :
    reached.Within ((ofAgreement session other frame form supports agrees).Allowed
      session.heap.frames.size session.objectsMade) where
  outer outer around := .inl (.outer reach found around)
  bindings := by
    intro binding member reference mentions
    cases reference with
    | frame captured => exact .inl (.bound reach found member mentions)
    | object number =>
        have otherFound := (agrees id reach).trans found
        exact .inl ⟨supports.boundObjects id reached reach found binding member number mentions,
          otherSupports.boundObjects id reached (agrees.reach reach) otherFound binding member
            number mentions⟩

theorem renumber_reached (supports : session.Supports frame form)
    (otherSupports : other.Supports frame form) (agrees : session.Agrees other frame form)
    {owner : Nat} {reached : Frame} (reach : session.heap.Reach frame form owner)
    (found : session.heap.frames[owner]? = some reached) :
    reached.renumber (session.renumbering other) = reached := by
  have within := reached_within supports otherSupports agrees reach found
  obtain ⟨bindings, outer⟩ := reached
  have sameBindings : bindings.map (Prod.map id (Value.renumber (session.renumbering other))) =
      bindings := by
    refine (List.map_congr_left fun binding member => ?_).trans (List.map_id bindings)
    exact Prod.ext rfl (renumber_allowed (within.bindings binding member))
  have sameOuter : outer.map (session.renumbering other).frames = outer := by
    cases outer with
    | none => rfl
    | some outer =>
        exact congrArg some (if_pos (supports.frames outer (.outer reach found rfl)))
  rw [Frame.renumber, sameBindings, sameOuter]

/-- Sessions that agree are beside each other at the start. -/
theorem beside_start (supports : session.Supports frame form)
    (otherSupports : other.Supports frame form) (agrees : session.Agrees other frame form) :
    (ofAgreement session other frame form supports agrees).Beside session other where
  frames_le := le_rfl
  frames_eq := Nat.add_comm _ _
  objects_le := le_rfl
  objects_eq := Nat.add_comm _ _
  printed := ⟨"", by simp [ofAgreement], by simp [ofAgreement]⟩
  untouched _ _ _ := rfl
  corresponds := by
    have shared {id : Nat} (allowed : (ofAgreement session other frame form supports agrees).Allowed
        session.heap.frames.size session.objectsMade (.frame id)) :
        session.heap.Reach frame form id :=
      allowed.resolve_right fun new => absurd new.2 (not_lt.mpr new.1)
    constructor
    case present =>
        intro id allowed
        exact ⟨_, Array.getElem?_eq_getElem (supports.frames id (shared allowed))⟩
    case within =>
        intro id reached allowed found
        exact reached_within supports otherSupports agrees (shared allowed) found
    case other =>
        intro id reached allowed found
        have reach := shared allowed
        have same := renumber_reached supports otherSupports agrees reach found
        have kept := @frames_shared (ofAgreement session other frame form supports agrees) id reach
        rw [kept]
        exact ((agrees id reach).trans found).trans (congrArg some same.symm)

variable {supports : session.Supports frame form} {agrees : session.Agrees other frame form}
  {after otherAfter : Session}

theorem Beside.confines
    (beside : (ofAgreement session other frame form supports agrees).Beside after otherAfter) :
    session.Confines after frame form where
  grows := beside.frames_le
  untouched := beside.untouched
  outer id reached allowed found := (beside.corresponds.within id reached allowed found).outer
  bindings id reached allowed found binding member _ :=
    (beside.corresponds.within id reached allowed found).bindings binding member _

theorem Beside.repeats
    (beside : (ofAgreement session other frame form supports agrees).Beside after otherAfter) :
    session.Repeats after other otherAfter frame form :=
  ⟨beside.printed, beside.frames_eq, beside.objects_eq, beside.corresponds.other⟩

/-- Sessions that agree on what can be reached stay beside each other, and both runs end alike. -/
theorem evaluate_beside (depth : Nat) (supports : session.Supports frame form)
    (otherSupports : other.Supports frame form) (agrees : session.Agrees other frame form)
    {result : Except Fault Value} {after : Session}
    (ends : (evaluate depth form frame).outcome session = (result, after)) :
    ∃ otherAfter,
      (ofAgreement session other frame form supports agrees).Beside after otherAfter ∧
      (evaluate depth form frame).outcome other =
        (result.map (Value.renumber (session.renumbering other)), otherAfter) ∧
      ∀ value, result = .ok value → value.Within
        ((ofAgreement session other frame form supports agrees).Allowed
          after.heap.frames.size after.objectsMade) := by
  let origin := ofAgreement session other frame form supports agrees
  let start : origin.simulation.World :=
    ⟨(session, other), beside_start supports otherSupports agrees⟩
  have within := form_within supports otherSupports agrees
  have forms : origin.simulation.Forms start frame frame form form :=
    ⟨⟨within, .inl .start⟩, frames_shared .start, renumber_allowed within⟩
  obtain ⟨last, -, left, right, results⟩ :=
    simulation_lawful.computations_run depth (Simulation.Activations.form forms)
  obtain ⟨⟨lastSession, otherAfter⟩, beside⟩ := last
  change ((evaluate depth form frame).outcome session).2 = lastSession at left
  change ((evaluate depth form frame).outcome other).2 = otherAfter at right
  change Simulation.Results _ _ ((evaluate depth form frame).outcome session).1
    ((evaluate depth form frame).outcome other).1 at results
  rw [ends] at left results
  cases left
  refine ⟨otherAfter, beside, Prod.ext ?_ right, ?_⟩
  · generalize ((evaluate depth form frame).outcome other).1 = otherResult at results
    cases results with
    | ok related => exact congrArg Except.ok related.2.symm
    | error related => exact congrArg Except.error related.symm
  · rintro value rfl
    generalize ((evaluate depth form frame).outcome other).1 = otherResult at results
    cases results with
    | ok related => exact related.1

theorem Beside.made_of_allowed {origin : Origin} {after otherAfter : Session}
    (beside : origin.Beside after otherAfter) (reference : Reference)
    (allowed : origin.Allowed after.heap.frames.size after.objectsMade reference) :
    after.Made reference := by
  cases reference with
  | frame id =>
      rcases allowed with shared | ⟨-, below⟩
      · exact (origin.lt_first id shared).trans_le beside.frames_le
      · exact below
  | object number =>
      rcases allowed with ⟨old, -⟩ | ⟨-, below⟩
      · exact old.trans_le beside.objects_le
      · exact below

end Origin

/-- Evaluation keeps sessions grounded, and what it returns is grounded as well. -/
theorem evaluate_grounded (depth : Nat) (grounded : session.Grounded)
    (inside : frame < session.heap.frames.size) (within : form.Within session.Made)
    {result : Except Fault Value} {after : Session}
    (ends : (evaluate depth form frame).outcome session = (result, after)) :
    after.Grounded ∧ session.heap.frames.size ≤ after.heap.frames.size ∧
      session.objectsMade ≤ after.objectsMade ∧
      ∀ value, result = .ok value → value.Within after.Made := by
  have supports := grounded.supports inside within
  obtain ⟨_, beside, -, valueWithin⟩ :=
    Origin.evaluate_beside depth supports supports (fun _ _ => rfl) ends
  refine ⟨?_, beside.frames_le, beside.objects_le, fun value returned =>
    (valueWithin value returned).imp beside.made_of_allowed⟩
  intro id reached found binding member
  by_cases old : id < session.heap.frames.size ∧ ¬ session.heap.Reach frame form id
  · have before := (beside.untouched id old.1 old.2).symm.trans found
    exact (grounded id reached before binding member).imp
      (Session.made_mono beside.frames_le beside.objects_le)
  · have allowed : session.heap.Reach frame form id ∨
        (session.heap.frames.size ≤ id ∧ id < after.heap.frames.size) := by
      by_cases reach : session.heap.Reach frame form id
      · exact .inl reach
      · exact .inr ⟨not_lt.mp fun below => old ⟨below, reach⟩, Heap.lt_of_getElem? found⟩
    have contents := beside.corresponds.within id reached allowed found
    exact (contents.bindings binding member).imp beside.made_of_allowed

/-- Evaluation stays within what can be reached: other frames are left as they are, the value and
all that it leads to refer to frames that could be reached or have been made, and in any other
session that has the same frames to reach, the same happens. -/
theorem evaluate_local (depth : Nat) (supports : session.Supports frame form)
    {result : Except Fault Value} {after : Session}
    (ends : (evaluate depth form frame).outcome session = (result, after)) :
    session.Confines after frame form ∧
      (∀ value, result = .ok value → ∀ id, value.Mentions (.frame id) →
        session.ReachedOrMade after frame form id) ∧
      ∀ other : Session, other.Supports frame form → session.Agrees other frame form →
        ∃ otherAfter,
          (evaluate depth form frame).outcome other =
            (result.map (Value.renumber (session.renumbering other)), otherAfter) ∧
          session.Repeats after other otherAfter frame form := by
  have itself : session.Agrees session frame form := fun _ _ => rfl
  obtain ⟨_, beside, -, valueWithin⟩ := Origin.evaluate_beside depth supports supports itself ends
  refine ⟨beside.confines, fun value returned id => valueWithin value returned (.frame id), ?_⟩
  intro other otherSupports agrees
  obtain ⟨otherAfter, besideOther, otherEnds, -⟩ :=
    Origin.evaluate_beside depth supports otherSupports agrees ends
  exact ⟨otherAfter, otherEnds, besideOther.repeats⟩

/-- A closure is made over a new frame, once in a session with a frame that nothing refers to, and
once in a session without that frame. The new frame has another number in each. -/
theorem evaluate_local_closure :
    let plain : Session := ⟨(Heap.empty.newFrame none []).2, 0, 0, "", []⟩
    let crowded : Session :=
      ⟨((Heap.empty.newFrame none []).2.newFrame none [(.plain "x", .nil)]).2, 0, 0, "", []⟩
    let inner : Value := .list [.named "fn", .sequence none .square [], .named "x"]
    let outer : Value := .list [.named "fn", .sequence none .square [.named "x"], inner]
    let form : Value := .list [outer, .nil]
    ∃ after otherAfter,
      (evaluate 9 form 0).outcome crowded = (.ok (.closure 1 [] [.named "x"] 2), after) ∧
        (evaluate 9 form 0).outcome plain = (.ok (.closure 1 [] [.named "x"] 1), otherAfter) ∧
        crowded.Confines after 0 form ∧ crowded.Repeats after plain otherAfter 0 form := by
  intro plain crowded inner outer form
  have formWithin (allowed : Reference → Prop) : form.Within allowed := by
    have innerWithin : inner.Within allowed :=
      Value.within_list (by simp [Value.within_named, Value.within_sequence])
    have outerWithin : outer.Within allowed :=
      Value.within_list (by simp [Value.within_named, Value.within_sequence, innerWithin])
    exact Value.within_list (by simp [outerWithin, Value.nil, Value.within_literal])
  have plainBound (allowed : Reference → Prop) : plain.heap.All (Value.Within allowed) := by
    refine Heap.All.newFrame ?_ none (by simp)
    intro id frame found
    simp [Heap.empty] at found
  have plainSupports : plain.Supports 0 form :=
    Session.Grounded.supports (plainBound _) Nat.one_pos (formWithin _)
  have crowdedSupports : crowded.Supports 0 form := by
    refine Session.Grounded.supports ?_ Nat.two_pos (formWithin _)
    exact (plainBound _).newFrame none (by simp [Value.nil, Value.within_literal])
  have alone (id : Nat) (reach : crowded.heap.Reach 0 form id) : id = 0 := by
    have empty : crowded.heap.frames[0]? = some ⟨[], none⟩ := rfl
    induction reach with
    | start => rfl
    | captured mentions => exact (formWithin (fun _ => False) _ mentions).elim
    | outer reach found around ih =>
        subst ih
        cases empty.symm.trans found
        cases around
    | bound reach found member mentions ih =>
        subst ih
        cases empty.symm.trans found
        cases member
  have agrees : crowded.Agrees plain 0 form := by
    intro id reach
    rw [alone id reach]
    rfl
  obtain ⟨confines, -, repeats⟩ := evaluate_local 9 crowdedSupports (Prod.mk.eta.symm)
  obtain ⟨otherAfter, otherEnds, happens⟩ := repeats plain plainSupports agrees
  exact ⟨_, otherAfter, Prod.ext rfl rfl, otherEnds, confines, happens⟩

end Evaluation

end TinyLisp
