import TinyLisp.Proofs.Evaluation.Primitives
import TinyLisp.Proofs.Evaluation.Simulation

/-!
# Invariants of evaluation

A property of sessions, with properties of the values and forms in them, is a simulation of every
run by itself: sessions, values and forms match themselves if they have the property. If the rules
of evaluation obey the simulation, they keep the property.
-/

namespace TinyLisp

namespace Evaluation

/-- A property of sessions, and what values and forms have to be like in them. Sessions may change
into later ones only, where values and forms are still as they have to be. -/
structure Invariant where
  Sessions : Session → Prop
  Values : Session → Value → Prop
  Forms : Session → Nat → Value → Prop
  Later : Session → Session → Prop
  later_refl : ∀ session, Later session session
  later_trans : ∀ {first second third}, Later first second → Later second third →
    Later first third
  values_later : ∀ {session after value}, Later session after → Values session value →
    Values after value
  forms_later : ∀ {session after frame form}, Later session after → Forms session frame form →
    Forms after frame form

namespace Invariant

/-- Every run beside itself, between sessions with the property. -/
def simulation (invariant : Invariant) : Simulation where
  World := { session : Session // invariant.Sessions session }
  left world := world.1
  right world := world.1
  Later world after := invariant.Later world.1 after.1
  Values world value other := invariant.Values world.1 value ∧ value = other
  Forms world frame otherFrame form other :=
    invariant.Forms world.1 frame form ∧ frame = otherFrame ∧ form = other
  Faults fault other := fault = other
  later_refl world := invariant.later_refl world.1
  later_trans := invariant.later_trans
  values_later later := And.imp_left (invariant.values_later later)
  forms_later later := And.imp_left (invariant.forms_later later)

variable {invariant : Invariant} {world : invariant.simulation.World}

open Simulation

/-- An operation that leaves a later session with the property. -/
theorem computations {α : Type} {Match : invariant.simulation.World → α → α → Prop}
    {computation : Run α} {result : Except Fault α} {session : Session}
    (ends : computation.outcome world.1 = (result, session)) (holds : invariant.Sessions session)
    (later : invariant.Later world.1 session)
    (related : ∀ value, result = .ok value → Match ⟨session, holds⟩ value value) :
    invariant.simulation.Computations world Match computation computation :=
  @computations_of_outcome _ _ _ _ _ _ _ ⟨session, holds⟩ _ _ later ends ends
    (results_self related fun _ _ => rfl)

/-- What a run that keeps the property leads to. -/
theorem of_computations {α : Type} {Match : invariant.simulation.World → α → α → Prop}
    {computation : Run α} {result : Except Fault α} {session : Session}
    (related : invariant.simulation.Computations world Match computation computation)
    (ends : computation.outcome world.1 = (result, session)) :
    ∃ holds : invariant.Sessions session, invariant.Later world.1 session ∧
      ∀ value, result = .ok value → Match ⟨session, holds⟩ value value := by
  obtain ⟨⟨_, holds⟩, later, left, -, results⟩ := related
  change (computation.outcome world.1).2 = _ at left
  change invariant.simulation.Results _ (computation.outcome world.1).1
    (computation.outcome world.1).1 at results
  rw [ends] at left results
  obtain rfl : session = _ := left
  refine ⟨holds, later, ?_⟩
  rintro value rfl
  cases results with
  | ok related => exact related

theorem formLists {frame : Nat} {forms : List Value}
    (holds : ∀ form ∈ forms, invariant.Forms world.1 frame form) :
    invariant.simulation.FormLists world frame frame forms forms :=
  formLists_self fun form member => ⟨holds form member, rfl, rfl⟩

theorem forall_of_formLists {frame otherFrame : Nat} {forms others : List Value}
    (related : invariant.simulation.FormLists world frame otherFrame forms others) :
    (∀ form ∈ forms, invariant.Forms world.1 frame form) ∧ forms = others := by
  obtain ⟨holds, rest⟩ := (List.forall₂_and_left _ _).mp related
  have same : List.Forall₂ Eq forms others := rest.imp fun _ _ forms => forms.2
  exact ⟨holds, List.forall₂_eq_eq_eq ▸ same⟩

theorem forall_of_values {values others : List Value}
    (related : List.Forall₂ (invariant.simulation.Values world) values others) :
    (∀ value ∈ values, invariant.Values world.1 value) ∧ values = others := by
  obtain ⟨holds, same⟩ := (List.forall₂_and_left _ _).mp related
  exact ⟨holds, List.forall₂_eq_eq_eq ▸ same⟩

/-- Every run beside itself, as long as it fails with such faults only as are allowed. -/
def guarded (invariant : Invariant) (allowed : Fault → Prop) : Simulation :=
  { invariant.simulation with Faults := fun fault other => fault = other ∧ allowed fault }

theorem guarded_computations {α : Type} {allowed : Fault → Prop}
    {world : (invariant.guarded allowed).World}
    {Match : (invariant.guarded allowed).World → α → α → Prop}
    {computation : Run α} {result : Except Fault α} {session : Session}
    (ends : computation.outcome world.1 = (result, session)) (holds : invariant.Sessions session)
    (later : invariant.Later world.1 session)
    (related : ∀ value, result = .ok value → Match ⟨session, holds⟩ value value)
    (faults : ∀ fault, result = .error fault → allowed fault) :
    (invariant.guarded allowed).Computations world Match computation computation :=
  @computations_of_outcome _ _ _ _ _ _ _ ⟨session, holds⟩ _ _ later ends ends
    (results_self related fun fault failed => ⟨rfl, faults fault failed⟩)

/-- An operation that fails in an allowed way and changes nothing. -/
theorem guarded_failed {α : Type} {allowed : Fault → Prop}
    {world : (invariant.guarded allowed).World}
    {Match : (invariant.guarded allowed).World → α → α → Prop} {computation : Run α} {fault : Fault}
    (ends : computation.outcome world.1 = (.error fault, world.1)) (admitted : allowed fault) :
    (invariant.guarded allowed).Computations world Match computation computation := by
  refine guarded_computations ends world.2 (invariant.later_refl world.1) nofun ?_
  rintro _ ⟨⟩
  exact admitted

theorem results_of_guarded {α β : Type} {allowed : Fault → Prop} {Match : α → β → Prop}
    {result : Except Fault α} {other : Except Fault β}
    (results : (invariant.guarded allowed).Results Match result other) :
    invariant.simulation.Results Match result other := by
  cases results with
  | ok related => exact .ok related
  | error related => exact .error related.1

/-- Whatever faults are allowed, a guarded run is a run. -/
theorem computations_of_guarded {α : Type} {allowed : Fault → Prop}
    {Match : invariant.simulation.World → α → α → Prop} {computation other : Run α}
    (related : (invariant.guarded allowed).Computations world Match computation other) :
    invariant.simulation.Computations world Match computation other := by
  obtain ⟨after, later, ends, otherEnds, results⟩ := related
  exact ⟨after, later, ends, otherEnds, results_of_guarded results⟩

theorem guarded_of_results {α β : Type} {allowed : Fault → Prop} (all : ∀ fault, allowed fault)
    {Match : α → β → Prop} {result : Except Fault α} {other : Except Fault β}
    (results : invariant.simulation.Results Match result other) :
    (invariant.guarded allowed).Results Match result other := by
  cases results with
  | ok related => exact .ok related
  | error related => exact .error ⟨related, all _⟩

/-- If all faults are allowed, a run is a guarded run. -/
theorem guarded_of_computations {α : Type} {allowed : Fault → Prop}
    (all : ∀ fault, allowed fault) {Match : invariant.simulation.World → α → α → Prop}
    {computation other : Run α}
    (related : invariant.simulation.Computations world Match computation other) :
    (invariant.guarded allowed).Computations world Match computation other := by
  obtain ⟨after, later, ends, otherEnds, results⟩ := related
  exact ⟨after, later, ends, otherEnds, guarded_of_results all results⟩

/-- A call of a builtin procedure keeps a property that is one of the heap alone, if the values with
the property are closed under what builtin procedures do. -/
theorem guarded_callPrimitive {allowed : Fault → Prop} {world : (invariant.guarded allowed).World}
    {depth : Nat} {procedure : Builtin} {arguments : List Value}
    (unaffected : ∀ after : Session, after.heap = world.1.heap → invariant.Sessions after)
    (later : ∀ after : Session, after.heap = world.1.heap → invariant.Later world.1 after)
    (closed : Value.DataClosed (invariant.Values world.1))
    (undefined : invariant.Values world.1 (.number (.float .nan)))
    (numbered : ∀ {value} number, invariant.Values world.1 value →
      invariant.Values world.1 (Run.numbered number value))
    (holds : ∀ argument ∈ arguments, invariant.Values world.1 argument)
    (passed : ∀ fault, procedure.call depth arguments = .error fault →
      fault.isLanguage ∨ fault.kind = .recursion → allowed fault)
    (wrapped : ∀ fault, procedure.call depth arguments = .error fault →
      allowed (.primitiveFailed procedure.name fault.message)) :
    (invariant.guarded allowed).Computations world (invariant.guarded allowed).Values
      (callPrimitive depth (.builtin procedure) arguments)
      (callPrimitive depth (.builtin procedure) arguments) := by
  unfold callPrimitive
  split
  · next result called =>
      have value := Builtin.call_closed_of_nan closed undefined called holds
      have ends := Run.outcome_bind_ok (Run.outcome_print result.printed world.1)
        fun _ => Run.makeResult result.value
      rw [Run.outcome_makeResult] at ends
      refine guarded_computations ends (unaffected _ rfl) (later _ rfl) ?_ nofun
      rintro _ ⟨⟩
      exact ⟨invariant.values_later (later _ rfl) (numbered _ value), rfl⟩
  · next fault failed =>
      split
      · next known => exact computations_throw ⟨rfl, passed fault failed known⟩
      · have ends := Run.outcome_bind_ok
          (Run.outcome_note (.primitiveFailed (Primitive.builtin procedure).name arguments) world.1)
          fun _ => (throw (.primitiveFailed (Primitive.builtin procedure).name fault.message) :
            Run Value)
        refine guarded_computations ends (unaffected _ rfl) (later _ rfl) nofun ?_
        rintro _ ⟨⟩
        exact wrapped fault failed

theorem computations_callPrimitive {depth : Nat} {procedure : Builtin} {arguments : List Value}
    (unaffected : ∀ after : Session, after.heap = world.1.heap → invariant.Sessions after)
    (later : ∀ after : Session, after.heap = world.1.heap → invariant.Later world.1 after)
    (closed : Value.DataClosed (invariant.Values world.1))
    (undefined : invariant.Values world.1 (.number (.float .nan)))
    (numbered : ∀ {value} number, invariant.Values world.1 value →
      invariant.Values world.1 (Run.numbered number value))
    (holds : ∀ argument ∈ arguments, invariant.Values world.1 argument) :
    invariant.simulation.Computations world invariant.simulation.Values
      (callPrimitive depth (.builtin procedure) arguments)
      (callPrimitive depth (.builtin procedure) arguments) := by
  have guarded : (invariant.guarded fun _ => True).Computations world invariant.simulation.Values
      (callPrimitive depth (.builtin procedure) arguments)
      (callPrimitive depth (.builtin procedure) arguments) :=
    guarded_callPrimitive unaffected later closed undefined numbered holds (fun _ _ _ => trivial)
      fun _ _ => trivial
  exact computations_of_guarded guarded

end Invariant

end Evaluation

end TinyLisp
