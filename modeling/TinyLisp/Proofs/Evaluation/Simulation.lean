import TinyLisp.Evaluation
import TinyLisp.Proofs.Evaluation.Shapes
import TinyLisp.Proofs.Session.Outcome
import Mathlib.Data.List.Forall2

/-!
# Simulation of evaluation

Two runs of the evaluator go alike if whatever one of them does is matched by what the other does.
A simulation says what it means for sessions, values, forms and faults to match. Worlds are the
pairs of sessions that match, and a later world is one that a run may lead to. Matching values and
forms still match in later worlds.

The rules that a simulation has to obey are local, one for every rule of evaluation. They are enough
for all runs to match, by induction on the budget. A property that every run of one session keeps is
a simulation of the run by itself.
-/

namespace TinyLisp

namespace Evaluation

/-- What it means for two sessions and the data in them to match. -/
structure Simulation where
  World : Type
  left : World → Session
  right : World → Session
  Later : World → World → Prop
  Values : World → Value → Value → Prop
  Forms : World → Nat → Nat → Value → Value → Prop
  Faults : Fault → Fault → Prop
  later_refl : ∀ world, Later world world
  later_trans : ∀ {first second third}, Later first second → Later second third →
    Later first third
  values_later : ∀ {world after value other}, Later world after → Values world value other →
    Values after value other
  forms_later : ∀ {world after frame otherFrame form other}, Later world after →
    Forms world frame otherFrame form other → Forms after frame otherFrame form other

/-- Forms that evaluate to themselves. -/
def isConstant : Value → Bool
  | .number _ | .string _ | .keyword _ | .literal _ | .sequence _ .square _
  | .sequence _ .round [] => true
  | _ => false

/-- Forms that have no value. -/
def isStuck : Value → Bool
  | .primitive _ | .closure .. | .foreign _ => true
  | _ => false

/-- Values that can be applied. -/
def isProcedure : Value → Bool
  | .primitive _ | .closure .. => true
  | _ => false

theorem step_constant (depth : Nat) (run : Activation → Run Value) (frame : Nat) {form : Value}
    (constant : isConstant form) : step depth run (.form form frame) = pure form := by
  unfold isConstant at constant
  split at constant <;> first | rfl | cases constant

theorem step_stuck (depth : Nat) (run : Activation → Run Value) (frame : Nat) {form : Value}
    (stuck : isStuck form) : step depth run (.form form frame) =
      throw (Fault.showing depth .inspected form .unknownExpression) := by
  unfold isStuck at stuck
  split at stuck <;> first | rfl | cases stuck

theorem step_apply_stuck (depth : Nat) (run : Activation → Run Value) {procedure : Value}
    (arguments : List Value) (stuck : isProcedure procedure = false) :
    step depth run (.apply procedure arguments) =
      throw (Fault.showing depth .inspected procedure .notProcedure) := by
  cases procedure <;> first | rfl | cases stuck

namespace Simulation

variable {α β γ δ : Type} (simulation : Simulation)

/-- Whether results match in a world: both are values that do, or both are faults that do. -/
inductive Results (Match : α → β → Prop) : Except Fault α → Except Fault β → Prop
  | ok {value : α} {other : β} (related : Match value other) : Results Match (.ok value) (.ok other)
  | error {fault other : Fault} (related : simulation.Faults fault other) :
      Results Match (.error fault) (.error other)

/-- Two computations match if they lead to a later world and to results that match there. -/
def Computations (world : simulation.World) (Match : simulation.World → α → β → Prop)
    (computation : Run α) (other : Run β) : Prop :=
  ∃ after, simulation.Later world after ∧
    (computation.outcome (simulation.left world)).2 = simulation.left after ∧
    (other.outcome (simulation.right world)).2 = simulation.right after ∧
    simulation.Results (Match after) (computation.outcome (simulation.left world)).1
      (other.outcome (simulation.right world)).1

variable {simulation} {world : simulation.World}

theorem results_self {Match : α → α → Prop} {result : Except Fault α}
    (matches_ok : ∀ value, result = .ok value → Match value value)
    (matches_error : ∀ fault, result = .error fault → simulation.Faults fault fault) :
    simulation.Results Match result result := by
  cases result with
  | ok value => exact .ok (matches_ok value rfl)
  | error fault => exact .error (matches_error fault rfl)

/-- Computations match if their outcomes are known and do. -/
theorem computations_of_outcome {Match : simulation.World → α → β → Prop} {computation : Run α}
    {other : Run β} {after : simulation.World} {result : Except Fault α}
    {otherResult : Except Fault β} (later : simulation.Later world after)
    (ends : computation.outcome (simulation.left world) = (result, simulation.left after))
    (otherEnds : other.outcome (simulation.right world) = (otherResult, simulation.right after))
    (results : simulation.Results (Match after) result otherResult) :
    simulation.Computations world Match computation other := by
  refine ⟨after, later, by rw [ends], by rw [otherEnds], ?_⟩
  rw [ends, otherEnds]
  exact results

theorem computations_pure {Match : simulation.World → α → β → Prop} {value : α} {other : β}
    (related : Match world value other) :
    simulation.Computations world Match (pure value) (pure other) :=
  ⟨world, simulation.later_refl world, rfl, rfl, .ok related⟩

theorem computations_throw {Match : simulation.World → α → β → Prop} {fault other : Fault}
    (related : simulation.Faults fault other) :
    simulation.Computations world Match (throw fault) (throw other) :=
  ⟨world, simulation.later_refl world, rfl, rfl, .error related⟩

/-- Computations match if their first parts do and, from there on, the rest of them. -/
theorem Computations.bind {First : simulation.World → α → β → Prop}
    {Match : simulation.World → γ → δ → Prop} {computation : Run α} {other : Run β}
    {next : α → Run γ} {otherNext : β → Run δ}
    (first : simulation.Computations world First computation other)
    (rest : ∀ after, simulation.Later world after → ∀ value otherValue,
      First after value otherValue →
        simulation.Computations after Match (next value) (otherNext otherValue)) :
    simulation.Computations world Match (computation >>= next) (other >>= otherNext) := by
  obtain ⟨after, later, left, right, results⟩ := first
  simp only [Computations, Run.outcome_bind]
  generalize computation.outcome (simulation.left world) = ended at left results
  generalize other.outcome (simulation.right world) = otherEnded at right results
  obtain ⟨result, session⟩ := ended
  obtain ⟨otherResult, otherSession⟩ := otherEnded
  cases left
  cases right
  cases results with
  | ok related =>
      obtain ⟨last, lastLater, lastLeft, lastRight, lastResults⟩ := rest after later _ _ related
      exact ⟨last, simulation.later_trans later lastLater, lastLeft, lastRight, lastResults⟩
  | error related => exact ⟨after, later, rfl, rfl, .error related⟩

/-- A check that changes nothing does not lead to another world. -/
theorem computations_ofExcept_bind {First : α → β → Prop} {Match : simulation.World → γ → δ → Prop}
    {result : Except Fault α} {other : Except Fault β} {next : α → Run γ} {otherNext : β → Run δ}
    (related : simulation.Results First result other)
    (rest : ∀ value otherValue, First value otherValue →
      simulation.Computations world Match (next value) (otherNext otherValue)) :
    simulation.Computations world Match (Run.ofExcept result >>= next)
      (Run.ofExcept other >>= otherNext) := by
  cases related with
  | ok related => exact rest _ _ related
  | error related => exact computations_throw related

variable (simulation)

def FormLists (world : simulation.World) (frame otherFrame : Nat) :
    List Value → List Value → Prop :=
  List.Forall₂ (simulation.Forms world frame otherFrame)

/-- Special forms of one shape whose parts match. -/
inductive Shapes (world : simulation.World) (frame otherFrame : Nat) :
    ShapedForm → ShapedForm → Prop
  | quote {form other : Value} (values : simulation.Values world form other) :
      Shapes world frame otherFrame (.quote form) (.quote other)
  | assignment {target otherTarget : Name} {form other : Value}
      (targets : simulation.Forms world frame otherFrame (.symbol target) (.symbol otherTarget))
      (forms : simulation.Forms world frame otherFrame form other) :
      Shapes world frame otherFrame (.assignment (.symbol target) form)
        (.assignment (.symbol otherTarget) other)
  | definition {name otherName : Name} {form other : Value}
      (names : simulation.Forms world frame otherFrame (.symbol name) (.symbol otherName))
      (forms : simulation.Forms world frame otherFrame form other) :
      Shapes world frame otherFrame (.definition (.symbol name) form)
        (.definition (.symbol otherName) other)
  | condition {test consequent otherTest otherConsequent : Value}
      {alternative otherAlternative : Option Value}
      (tests : simulation.Forms world frame otherFrame test otherTest)
      (consequents : simulation.Forms world frame otherFrame consequent otherConsequent)
      (alternatives : Option.Rel (simulation.Forms world frame otherFrame) alternative
        otherAlternative) :
      Shapes world frame otherFrame (.condition test consequent alternative)
        (.condition otherTest otherConsequent otherAlternative)
  | function {parameters body otherParameters otherBody : List Value}
      (closures : simulation.Computations world simulation.Values
        (Run.makeClosure parameters body frame)
        (Run.makeClosure otherParameters otherBody otherFrame)) :
      Shapes world frame otherFrame (.function parameters body)
        (.function otherParameters otherBody)
  | sequence {items others : List Value}
      (forms : simulation.FormLists world frame otherFrame items others) :
      Shapes world frame otherFrame (.sequence items) (.sequence others)
  | expansion {form other : Value} (forms : simulation.Forms world frame otherFrame form other) :
      Shapes world frame otherFrame (.expansion form) (.expansion other)

/-- Forms that one rule evaluates, the parts of which match. -/
inductive Steps (world : simulation.World) (frame otherFrame : Nat) : Value → Value → Prop
  | constant {form other : Value} (constant : isConstant form) (otherConstant : isConstant other)
      (values : simulation.Values world form other) : Steps world frame otherFrame form other
  | lookup {name otherName : Name}
      (lookups : ∀ depth, simulation.Computations world simulation.Values
        (Run.lookup depth frame (.symbol name)) (Run.lookup depth otherFrame (.symbol otherName))) :
      Steps world frame otherFrame (.symbol name) (.symbol otherName)
  | stuck {form other : Value} (stuck : isStuck form) (otherStuck : isStuck other)
      (faults : ∀ depth, simulation.Faults
        (Fault.showing depth .inspected form .unknownExpression)
        (Fault.showing depth .inspected other .unknownExpression)) :
      Steps world frame otherFrame form other
  | special {identity otherIdentity : Option Identity} {head otherHead : Value}
      {operands otherOperands : List Value} {special : SpecialForm}
      (heads : SpecialForm.ofHead? head = some special)
      (otherHeads : SpecialForm.ofHead? otherHead = some special)
      (shapes : ∀ depth, simulation.Results (simulation.Shapes world frame otherFrame)
        (ShapedForm.ofOperands depth special operands)
        (ShapedForm.ofOperands depth special otherOperands)) :
      Steps world frame otherFrame (.sequence identity .round (head :: operands))
        (.sequence otherIdentity .round (otherHead :: otherOperands))
  | application {identity otherIdentity : Option Identity} {head otherHead : Value}
      {operands otherOperands : List Value} (ordinary : SpecialForm.ofHead? head = none)
      (otherOrdinary : SpecialForm.ofHead? otherHead = none)
      (heads : simulation.Forms world frame otherFrame head otherHead)
      (forms : simulation.FormLists world frame otherFrame operands otherOperands) :
      Steps world frame otherFrame (.sequence identity .round (head :: operands))
        (.sequence otherIdentity .round (otherHead :: otherOperands))

/-- What applying procedures to arguments leads to: a call, a body in a new frame, or a fault. -/
inductive Applications (world : simulation.World) (arguments otherArguments : List Value) :
    Value → Value → Prop
  | primitive {primitive other : Primitive}
      (calls : ∀ depth, simulation.Computations world simulation.Values
        (callPrimitive depth primitive arguments) (callPrimitive depth other otherArguments)) :
      Applications world arguments otherArguments (.primitive primitive) (.primitive other)
  | closure {id otherId frame otherFrame : Nat}
      {parameters body otherParameters otherBody : List Value}
      (frames : ∀ depth, simulation.Computations world
        (fun after inner otherInner => simulation.FormLists after inner otherInner body otherBody)
        (Run.extend depth frame parameters arguments)
        (Run.extend depth otherFrame otherParameters otherArguments)) :
      Applications world arguments otherArguments (.closure id parameters body frame)
        (.closure otherId otherParameters otherBody otherFrame)
  | stuck {procedure other : Value} (stuck : isProcedure procedure = false)
      (otherStuck : isProcedure other = false)
      (faults : ∀ depth, simulation.Faults
        (Fault.showing depth .inspected procedure .notProcedure)
        (Fault.showing depth .inspected other .notProcedure)) :
      Applications world arguments otherArguments procedure other

/-- The rules that make all runs match, but for those that take forms apart and apply procedures. -/
structure Basic : Prop where
  depthExceeded : simulation.Faults .depthExceeded .depthExceeded
  emptySequence : simulation.Faults (.shape .emptySequence) (.shape .emptySequence)
  ok : ∀ {world}, simulation.Values world (.named "ok") (.named "ok")
  falsehood : ∀ {world}, simulation.Values world (.ofBool false) (.ofBool false)
  truthy : ∀ {world value other}, simulation.Values world value other →
    value.isTruthy = other.isTruthy
  assign : ∀ {world frame otherFrame target otherTarget value other} (depth : Nat),
    simulation.Forms world frame otherFrame (.symbol target) (.symbol otherTarget) →
      simulation.Values world value other →
        simulation.Computations world (fun _ _ _ => True)
          (Run.assign depth frame (.symbol target) value)
          (Run.assign depth otherFrame (.symbol otherTarget) other)
  define : ∀ {world frame otherFrame name otherName value other} (depth : Nat),
    simulation.Forms world frame otherFrame (.symbol name) (.symbol otherName) →
      simulation.Values world value other →
        simulation.Computations world (fun _ _ _ => True)
          (Run.define depth frame (.symbol name) value)
          (Run.define depth otherFrame (.symbol otherName) other)

/-- The rules that make all runs match, but for the one that applies procedures. -/
structure Regular : Prop extends simulation.Basic where
  steps : ∀ {world frame otherFrame form other},
    simulation.Forms world frame otherFrame form other →
      simulation.Steps world frame otherFrame form other

/-- The rules that make all runs match. -/
structure Lawful : Prop extends simulation.Regular where
  applications : ∀ {world procedure other arguments otherArguments},
    simulation.Values world procedure other →
      List.Forall₂ (simulation.Values world) arguments otherArguments →
        simulation.Applications world arguments otherArguments procedure other

inductive Activations (world : simulation.World) : Activation → Activation → Prop
  | form {frame otherFrame : Nat} {form other : Value}
      (forms : simulation.Forms world frame otherFrame form other) :
      Activations world (.form form frame) (.form other otherFrame)
  | argument {frame otherFrame : Nat} {form other : Value}
      (forms : simulation.Forms world frame otherFrame form other) :
      Activations world (.argument form frame) (.argument other otherFrame)
  | special {frame otherFrame : Nat} {operands otherOperands : List Value} {special : SpecialForm}
      (shapes : ∀ depth, simulation.Results (simulation.Shapes world frame otherFrame)
        (ShapedForm.ofOperands depth special operands)
        (ShapedForm.ofOperands depth special otherOperands)) :
      Activations world (.special special operands frame)
        (.special special otherOperands otherFrame)
  | sequence {frame otherFrame : Nat} {items others : List Value}
      (forms : simulation.FormLists world frame otherFrame items others) :
      Activations world (.sequence items frame) (.sequence others otherFrame)
  | apply {procedure other : Value} {arguments otherArguments : List Value}
      (procedures : simulation.Values world procedure other)
      (values : List.Forall₂ (simulation.Values world) arguments otherArguments) :
      Activations world (.apply procedure arguments) (.apply other otherArguments)
  | enter {frame otherFrame : Nat}
      {parameters body arguments otherParameters otherBody otherArguments : List Value}
      (frames : ∀ depth, simulation.Computations world
        (fun after inner otherInner => simulation.FormLists after inner otherInner body otherBody)
        (Run.extend depth frame parameters arguments)
        (Run.extend depth otherFrame otherParameters otherArguments)) :
      Activations world (.enter parameters body arguments frame)
        (.enter otherParameters otherBody otherArguments otherFrame)

section

variable {simulation}

theorem formLists_self {world : simulation.World} {frame : Nat}
    {forms : List Value}
    (matches_self : ∀ form ∈ forms, simulation.Forms world frame frame form form) :
    simulation.FormLists world frame frame forms forms :=
  List.forall₂_same.mpr matches_self

theorem formLists_later {world after : simulation.World} {frame otherFrame : Nat}
    {forms others : List Value} (later : simulation.Later world after)
    (related : simulation.FormLists world frame otherFrame forms others) :
    simulation.FormLists after frame otherFrame forms others :=
  related.imp fun _ _ => simulation.forms_later later

/-- The parts of a special form match themselves if its operands do, and if closures and expansions
that are made of them do. -/
theorem shapes_self {frame : Nat} {special : SpecialForm} {operands : List Value}
    {shaped : ShapedForm} (reads : ShapedForm.Reads special operands shaped)
    (values : ∀ operand ∈ operands, simulation.Values world operand operand)
    (forms : ∀ operand ∈ operands, simulation.Forms world frame frame operand operand)
    (closures : ∀ {identity parameters body}, special = .function →
      operands = .sequence identity .square parameters :: body →
        (∀ parameter ∈ parameters, ∃ name, parameter = .symbol name) → body ≠ [] →
          simulation.Computations world simulation.Values (Run.makeClosure parameters body frame)
            (Run.makeClosure parameters body frame))
    (expansions : ∀ {form}, ShapedForm.Reads special operands (.expansion form) →
      simulation.Forms world frame frame form form) :
    simulation.Shapes world frame frame shaped shaped := by
  cases reads with
  | quote form => exact .quote (values form (by simp))
  | assignment name form => exact .assignment (forms _ (by simp)) (forms form (by simp))
  | definition name form => exact .definition (forms _ (by simp)) (forms form (by simp))
  | shortCondition test consequent =>
      exact .condition (forms test (by simp)) (forms consequent (by simp)) .none
  | fullCondition test consequent alternative =>
      exact .condition (forms test (by simp)) (forms consequent (by simp))
        (.some (forms alternative (by simp)))
  | function identity symbols filled => exact .function (closures rfl rfl symbols filled)
  | sequence => exact .sequence (formLists_self forms)
  | functionDefinition described => exact .expansion (expansions (.functionDefinition described))
  | clauses expands => exact .expansion (expansions (.clauses expands))

/-- A form is matched by itself if constants are, if symbols are looked up alike, if it fails alike
where it has no value, and if a list's items or the special form that it is match themselves. -/
theorem steps_self {frame : Nat} {form : Value}
    (constants : isConstant form → simulation.Values world form form)
    (lookups : ∀ {name}, form = .symbol name → ∀ depth,
      simulation.Computations world simulation.Values (Run.lookup depth frame (.symbol name))
        (Run.lookup depth frame (.symbol name)))
    (faults : isStuck form → ∀ depth, simulation.Faults
      (Fault.showing depth .inspected form .unknownExpression)
      (Fault.showing depth .inspected form .unknownExpression))
    (applications : ∀ {identity head operands},
      form = .sequence identity .round (head :: operands) → SpecialForm.ofHead? head = none →
        ∀ item ∈ head :: operands, simulation.Forms world frame frame item item)
    (specials : ∀ {identity head operands special},
      form = .sequence identity .round (head :: operands) →
        SpecialForm.ofHead? head = some special → ∀ depth,
          simulation.Results (simulation.Shapes world frame frame)
            (ShapedForm.ofOperands depth special operands)
            (ShapedForm.ofOperands depth special operands)) :
    simulation.Steps world frame frame form form := by
  cases form with
  | number | string | keyword | literal => exact .constant rfl rfl (constants rfl)
  | symbol name => exact .lookup (lookups rfl)
  | primitive | closure | foreign => exact .stuck rfl rfl (faults rfl)
  | sequence identity bracket items =>
      cases bracket with
      | square => exact .constant rfl rfl (constants rfl)
      | round =>
          cases items with
          | nil => exact .constant rfl rfl (constants rfl)
          | cons head operands =>
              cases heads : SpecialForm.ofHead? head with
              | none =>
                  obtain ⟨first, rest⟩ := List.forall_mem_cons.mp (applications rfl heads)
                  exact .application heads heads first (formLists_self rest)
              | some special => exact .special heads heads (specials rfl heads)

variable (basic : simulation.Basic) {run otherRun : Activation → Run Value}
  (inner : ∀ {world activation other}, simulation.Activations world activation other →
    simulation.Computations world simulation.Values (run activation) (otherRun other))

include basic inner

theorem computations_perform (depth : Nat) {world : simulation.World} {frame otherFrame : Nat}
    {shaped other : ShapedForm} (shapes : simulation.Shapes world frame otherFrame shaped other) :
    simulation.Computations world simulation.Values (perform depth run shaped frame)
      (perform depth otherRun other otherFrame) := by
  cases shapes with
  | quote values => exact computations_pure values
  | assignment targets forms =>
      refine (inner (.form forms)).bind fun after later value otherValue values => ?_
      refine (basic.assign depth (simulation.forms_later later targets) values).bind ?_
      intro last _ _ _ _
      exact computations_pure basic.ok
  | definition names forms =>
      refine (inner (.form forms)).bind fun after later value otherValue values => ?_
      refine (basic.define depth (simulation.forms_later later names) values).bind ?_
      intro last _ _ _ _
      exact computations_pure basic.ok
  | condition tests consequents alternatives =>
      refine (inner (.form tests)).bind fun after later value otherValue values => ?_
      rw [basic.truthy values]
      split
      · exact inner (.form (simulation.forms_later later consequents))
      · cases alternatives with
        | some forms => exact inner (.form (simulation.forms_later later forms))
        | none => exact computations_pure basic.falsehood
  | function closures => exact closures
  | sequence forms => exact inner (.sequence forms)
  | expansion forms => exact inner (.form forms)

theorem computations_inTurn {world : simulation.World} {frame otherFrame : Nat}
    {forms others : List Value}
    (related : simulation.FormLists world frame otherFrame forms others) :
    simulation.Computations world simulation.Values (inTurn run frame forms)
      (inTurn otherRun otherFrame others) := by
  induction forms generalizing world others with
  | nil =>
      cases related
      exact computations_throw basic.emptySequence
  | cons form rest ih =>
      cases related with
      | cons first others =>
          cases others with
          | nil => exact inner (.form first)
          | cons second others =>
              refine (inner (.form first)).bind fun after later _ _ _ => ?_
              exact ih (formLists_later later (.cons second others))

omit basic in
theorem computations_evaluateArguments {world : simulation.World} {frame otherFrame : Nat}
    {forms others : List Value}
    (related : simulation.FormLists world frame otherFrame forms others) :
    simulation.Computations world (fun after => List.Forall₂ (simulation.Values after))
      (evaluateArguments run frame forms) (evaluateArguments otherRun otherFrame others) := by
  induction forms generalizing world others with
  | nil =>
      cases related
      exact computations_pure .nil
  | cons form rest ih =>
      cases related with
      | cons first others =>
          refine (inner (.argument first)).bind fun after later value otherValue values => ?_
          refine (ih (formLists_later later others)).bind fun last lastLater _ _ more => ?_
          exact computations_pure (.cons (simulation.values_later lastLater values) more)

/-- One activation matches if the activations within it do. What is asked of forms and applications
is asked only if it is one. -/
theorem computations_step (depth : Nat) {world : simulation.World} {activation other : Activation}
    (related : simulation.Activations world activation other)
    (steps : ∀ {frame otherFrame form otherForm}, activation = .form form frame →
      simulation.Forms world frame otherFrame form otherForm →
        simulation.Steps world frame otherFrame form otherForm)
    (applications : ∀ {procedure otherProcedure arguments otherArguments},
      activation = .apply procedure arguments →
        simulation.Values world procedure otherProcedure →
          List.Forall₂ (simulation.Values world) arguments otherArguments →
            simulation.Applications world arguments otherArguments procedure otherProcedure) :
    simulation.Computations world simulation.Values (step depth run activation)
      (step depth otherRun other) := by
  cases related with
  | form forms =>
      cases steps rfl forms with
      | constant constant otherConstant values =>
          rw [step_constant depth run _ constant, step_constant depth otherRun _ otherConstant]
          exact computations_pure values
      | lookup lookups => exact lookups depth
      | stuck stuck otherStuck faults =>
          rw [step_stuck depth run _ stuck, step_stuck depth otherRun _ otherStuck]
          exact computations_throw (faults depth)
      | special heads otherHeads shapes =>
          simp only [step, heads, otherHeads]
          exact inner (.special shapes)
      | application ordinary otherOrdinary heads operands =>
          simp only [step, ordinary, otherOrdinary]
          refine (inner (.form heads)).bind fun after later procedure _ procedures => ?_
          refine (computations_evaluateArguments inner (formLists_later later operands)).bind ?_
          intro last lastLater arguments otherArguments values
          exact inner (.apply (simulation.values_later lastLater procedures) values)
  | argument forms => exact inner (.form forms)
  | special shapes =>
      exact computations_ofExcept_bind (shapes depth) fun _ _ =>
        computations_perform basic inner depth
  | sequence forms => exact computations_inTurn basic inner forms
  | apply procedures values =>
      cases applications rfl procedures values with
      | primitive calls => exact calls depth
      | closure frames => exact inner (.enter frames)
      | stuck stuck otherStuck faults =>
          rw [step_apply_stuck depth run _ stuck, step_apply_stuck depth otherRun _ otherStuck]
          exact computations_throw (faults depth)
  | enter frames =>
      refine (frames depth).bind fun after later innerFrame _ forms => ?_
      exact inner (.sequence forms)

end

/-- Activations that match run alike, whatever the budget is. -/
theorem Lawful.computations_run {simulation : Simulation} (lawful : simulation.Lawful) (depth : Nat)
    {world : simulation.World} {activation other : Activation}
    (related : simulation.Activations world activation other) :
    simulation.Computations world simulation.Values (run depth activation) (run depth other) := by
  induction depth generalizing world activation other with
  | zero => exact computations_throw lawful.depthExceeded
  | succ depth ih =>
      exact computations_step lawful.toBasic ih depth related (fun _ => lawful.steps)
        fun _ => lawful.applications

end Simulation

end Evaluation

end TinyLisp
