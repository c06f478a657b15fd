import TinyLisp.Interpreter
import TinyLisp.Proofs.Evaluation.Code
import TinyLisp.Proofs.Evaluation.Faults
import TinyLisp.Proofs.Evaluation.Invariant
import TinyLisp.Proofs.Heap.Outward

/-!
# Lexical scope

Code within some number of functions is evaluated in frames that are as many steps away from the
global one, and a closure has captured such a frame just where its function stands. Evaluation keeps
this up, and it comes to nothing but code: entering a closure goes one step in, in the frames as in
the code.
-/

namespace TinyLisp

open Interpreter (globalFrame)

namespace Session

/-- A function of the sources has captured a frame that is as many steps away from the global one as
there are functions around it. -/
def Founds (session : Session) (sources : Value → Prop) (parameters body : List Value)
    (frame : Nat) : Prop :=
  ∃ level, FunctionAt sources level parameters body ∧ session.heap.Outward level frame globalFrame

/-- All frames lie within the global one, which lies within none, and all closures in bound values
are functions of the sources with frames of the right depth. -/
structure Scoped (sources : Value → Prop) (session : Session) : Prop where
  outermost : session.heap.frames[globalFrame]?.map Frame.outer = some none
  rooted : ∀ id < session.heap.frames.size, ∃ steps, session.heap.Outward steps id globalFrame
  bound : session.heap.All (Value.Founded (session.Founds sources))

variable {session after : Session} {sources : Value → Prop}

theorem Scoped.global (holds : session.Scoped sources) :
    globalFrame < session.heap.frames.size := by
  obtain ⟨frame, found, -⟩ := Option.map_eq_some_iff.mp holds.outermost
  exact Heap.lt_of_getElem? found

theorem Founds.symbols {parameters body : List Value} {frame : Nat}
    (founds : session.Founds sources parameters body frame) :
    ∀ parameter ∈ parameters, ∃ name, parameter = .symbol name := by
  obtain ⟨level, function, -⟩ := founds
  exact function.symbols

theorem Founds.mono {more : Value → Prop} (le : ∀ top, sources top → more top)
    {parameters body : List Value} {frame : Nat}
    (founds : session.Founds sources parameters body frame) :
    session.Founds more parameters body frame := by
  obtain ⟨level, function, outward⟩ := founds
  exact ⟨level, function.mono le, outward⟩

/-- What keeps to the scope of some sources keeps to that of more of them. -/
theorem Scoped.mono {more : Value → Prop} (le : ∀ top, sources top → more top)
    (holds : session.Scoped sources) : session.Scoped more where
  outermost := holds.outermost
  rooted := holds.rooted
  bound := holds.bound.imp fun _ founded => founded.imp fun _ _ _ => Founds.mono le

/-- No step leads out of the global frame. -/
theorem Scoped.steps_eq_zero (holds : session.Scoped sources) {steps : Nat}
    (outward : session.heap.Outward steps globalFrame globalFrame) : steps = 0 := by
  cases outward with
  | here => rfl
  | step found around outward =>
      have outermost := holds.outermost
      rw [found, Option.map_some, around] at outermost
      cases outermost

/-- Nothing but the heap matters. -/
theorem Scoped.of_heap (holds : session.Scoped sources) (same : after.heap = session.heap) :
    after.Scoped sources where
  outermost := same ▸ holds.outermost
  rooted := same ▸ holds.rooted
  bound := by
    rw [same]
    refine holds.bound.imp fun _ founded => founded.imp ?_
    rintro parameters body captured ⟨level, function, outward⟩
    exact ⟨level, function, same ▸ outward⟩

theorem Scoped.write (holds : session.Scoped sources) (frame : Nat) (name : Name) {value : Value}
    (founded : value.Founded (session.Founds sources)) :
    { session with heap := session.heap.write frame name value }.Scoped sources where
  outermost := (Heap.map_outer_write frame name value globalFrame).trans holds.outermost
  rooted id inside := by
    rw [Heap.size_write] at inside
    obtain ⟨steps, outward⟩ := holds.rooted id inside
    exact ⟨steps, outward.write frame name value⟩
  bound := by
    refine (holds.bound.write frame name founded).imp fun other founded => founded.imp ?_
    rintro parameters body captured ⟨level, function, outward⟩
    exact ⟨level, function, outward.write frame name value⟩

theorem Scoped.newFrame (holds : session.Scoped sources) {outer : Nat}
    (inside : outer < session.heap.frames.size) {bindings : List (Name × Value)}
    (founded : ∀ binding ∈ bindings, binding.2.Founded (session.Founds sources)) :
    { session with heap := (session.heap.newFrame (some outer) bindings).2 }.Scoped sources where
  outermost := by
    rw [Heap.getElem?_newFrame_of_lt _ _ holds.global]
    exact holds.outermost
  rooted id known := by
    rw [Heap.size_newFrame] at known
    rcases Nat.lt_succ_iff_lt_or_eq.mp known with earlier | rfl
    · obtain ⟨steps, outward⟩ := holds.rooted id earlier
      exact ⟨steps, outward.newFrame _ _⟩
    · obtain ⟨steps, outward⟩ := holds.rooted outer inside
      exact ⟨steps + 1, outward.into holds.global bindings⟩
  bound := by
    refine (holds.bound.newFrame (some outer) founded).imp fun other founded => founded.imp ?_
    rintro parameters body captured ⟨level, function, outward⟩
    exact ⟨level, function, outward.newFrame _ _⟩

end Session

namespace Evaluation

open Invariant Simulation

/-- Code of some sources in frames of the right depth, and what it makes. -/
def lexical (sources : Value → Prop) : Invariant where
  Sessions := Session.Scoped sources
  Values session value := value.Founded (session.Founds sources)
  Forms session frame form :=
    ∃ level, session.heap.Outward level frame globalFrame ∧ Code sources level form
  Later session after := ∀ steps id, session.heap.Outward steps id globalFrame →
    after.heap.Outward steps id globalFrame
  later_refl _ _ _ := id
  later_trans first second steps id outward := second steps id (first steps id outward)
  values_later later founded := founded.imp fun _ _ frame =>
    Exists.imp fun level => And.imp_right (later level frame)
  forms_later later := Exists.imp fun level => And.imp_left (later level _)

variable {sources : Value → Prop} {allowed : Fault → Prop}
  {world : ((lexical sources).guarded allowed).World}

theorem lexical_lookup (admits : Fault.Admits allowed) (depth frame : Nat) (name : Name) :
    ((lexical sources).guarded allowed).Computations world
      ((lexical sources).guarded allowed).Values (Run.lookup depth frame (.symbol name))
      (Run.lookup depth frame (.symbol name)) := by
  have ends := Run.outcome_lookup depth frame (.symbol name) world.1
  cases looked : world.1.heap.lookup frame (.symbol name) with
  | ok bound =>
      rw [looked] at ends
      refine guarded_computations ends world.2 (fun _ _ => id) ?_ nofun
      rintro _ ⟨⟩
      exact ⟨world.2.bound.lookup looked, rfl⟩
  | error fault =>
      rw [looked] at ends
      exact guarded_failed ends (admits.lookup looked)

theorem lexical_assign (admits : Fault.Admits allowed) (depth frame : Nat) {target value : Value}
    (plain : target.Plain) (founded : value.Founded (world.1.Founds sources)) :
    ((lexical sources).guarded allowed).Computations world (fun _ _ _ => True)
      (Run.assign depth frame target value) (Run.assign depth frame target value) := by
  have ends := Run.outcome_assign depth frame target value world.1
  split at ends
  · next owner name _ =>
      exact guarded_computations ends (world.2.write owner name founded)
        (fun _ _ outward => outward.write owner name value) (fun _ _ => trivial) nofun
  · next fault failed =>
      exact guarded_failed ends (admits.target plain failed)

theorem lexical_define (admits : Fault.Admits allowed) (depth frame : Nat) {key value : Value}
    (plain : key.Plain) (founded : value.Founded (world.1.Founds sources)) :
    ((lexical sources).guarded allowed).Computations world (fun _ _ _ => True)
      (Run.define depth frame key value) (Run.define depth frame key value) := by
  have ends := Run.outcome_define depth frame key value world.1
  split at ends
  · next name _ =>
      exact guarded_computations ends (world.2.write frame name founded)
        (fun _ _ outward => outward.write frame name value) (fun _ _ => trivial) nofun
  · next fault failed =>
      exact guarded_failed ends (admits.definable plain failed)

theorem lexical_makeClosure {parameters body : List Value} {frame : Nat}
    (founds : world.1.Founds sources parameters body frame) :
    ((lexical sources).guarded allowed).Computations world
      ((lexical sources).guarded allowed).Values (Run.makeClosure parameters body frame)
      (Run.makeClosure parameters body frame) := by
  have ends := Run.outcome_makeClosure parameters body frame world.1
  refine guarded_computations ends (world.2.of_heap rfl)
    (fun _ _ => id) ?_ nofun
  rintro _ ⟨⟩
  exact ⟨.closure _ founds, rfl⟩

/-- A closure is entered in a new frame, one step further in than the frame that it has captured,
and its body is code one level further in. -/
theorem lexical_extend (admits : Fault.Admits allowed) (depth : Nat) {frame : Nat}
    {parameters body arguments : List Value}
    (founds : world.1.Founds sources parameters body frame)
    (founded : ∀ argument ∈ arguments, argument.Founded (world.1.Founds sources)) :
    ((lexical sources).guarded allowed).Computations world
      (fun after inner otherInner =>
        ((lexical sources).guarded allowed).FormLists after inner otherInner body body)
      (Run.extend depth frame parameters arguments)
      (Run.extend depth frame parameters arguments) := by
  have ends := Run.outcome_extend depth frame parameters arguments world.1
  split at ends
  · next bindings paired =>
      obtain ⟨level, function, outward⟩ := founds
      have held := fun binding member => founded _ (Heap.mem_of_pairUp paired binding member)
      refine guarded_computations ends (world.2.newFrame (outward.lt world.2.global) held)
        (fun _ _ outward => outward.newFrame _ _) ?_ nofun
      rintro inner ⟨⟩
      apply formLists_self
      intro form member
      exact ⟨⟨level + 1, outward.into world.2.global bindings, function.body form member⟩, rfl, rfl⟩
  · next fault failed =>
      exact guarded_failed ends (admits.pairUp founds.symbols failed)

theorem lexical_callPrimitive (admits : Fault.Admits allowed) (depth : Nat) (procedure : Builtin)
    {arguments : List Value}
    (founded : ∀ argument ∈ arguments, argument.Founded (world.1.Founds sources)) :
    ((lexical sources).guarded allowed).Computations world
      ((lexical sources).guarded allowed).Values
      (callPrimitive depth (.builtin procedure) arguments)
      (callPrimitive depth (.builtin procedure) arguments) := by
  refine guarded_callPrimitive (fun after same => world.2.of_heap same) ?_
    (Value.founded_dataClosed _) (.number _) (fun number founded => founded.numbered number) founded
    (fun _ => admits.call) fun _ _ => admits.primitiveFailed _ _
  rintro ⟨_, _, _, _, _⟩ rfl
  exact fun _ _ => id

/-- The parts of a special form that is code are code in its frame, and a function has its frame
captured just where it stands. -/
theorem lexical_shapes {frame level : Nat} {identity : Option Identity} {head : Value}
    {special : SpecialForm} {operands : List Value}
    (plain : ∀ top, sources top → top.Plain)
    (outward : world.1.heap.Outward level frame globalFrame)
    (code : Code sources level (.sequence identity .round (head :: operands)))
    (heads : SpecialForm.ofHead? head = some special) {shaped : ShapedForm}
    (reads : ShapedForm.Reads special operands shaped) :
    ((lexical sources).guarded allowed).Shapes world frame frame shaped shaped := by
  have form {part : Value} (code : Code sources level part) :
      ((lexical sources).guarded allowed).Forms world frame frame part part :=
    ⟨⟨level, outward, code⟩, rfl, rfl⟩
  have parts := code.operands heads
  cases reads with
  | quote quoted =>
      exact .quote ⟨((code.plain plain).items quoted (by simp)).made.founded, rfl⟩
  | assignment name value =>
      exact .assignment (form (.symbol _ _)) (form (parts _ (by simp [SpecialForm.evaluated])))
  | definition name value =>
      exact .definition (form (.symbol _ _)) (form (parts _ (by simp [SpecialForm.evaluated])))
  | shortCondition test consequent =>
      exact .condition (form (parts _ (by simp [SpecialForm.evaluated])))
        (form (parts _ (by simp [SpecialForm.evaluated]))) .none
  | fullCondition test consequent alternative =>
      exact .condition (form (parts _ (by simp [SpecialForm.evaluated])))
        (form (parts _ (by simp [SpecialForm.evaluated])))
        (.some (form (parts _ (by simp [SpecialForm.evaluated]))))
  | function identity symbols filled =>
      exact .function (lexical_makeClosure ⟨level, code.functionAt heads symbols filled, outward⟩)
  | sequence forms => exact .sequence (formLists_self fun part member => form (parts part member))
  | functionDefinition described => exact .expansion (form (code.expandFunction heads described))
  | clauses expands => exact .expansion (form (code.expandClauses heads expands))

theorem lexical_steps (admits : Fault.Admits allowed) (plain : ∀ top, sources top → top.Plain)
    {frame level : Nat} {form : Value} (outward : world.1.heap.Outward level frame globalFrame)
    (code : Code sources level form) :
    ((lexical sources).guarded allowed).Steps world frame frame form form := by
  have whole := code.plain plain
  cases form with
  | number | string | keyword | literal => exact .constant rfl rfl ⟨whole.made.founded, rfl⟩
  | symbol name => exact .lookup fun depth => lexical_lookup admits depth frame name
  | primitive | closure | foreign => cases whole.made
  | sequence identity bracket items =>
      cases bracket with
      | square => exact .constant rfl rfl ⟨whole.made.founded, rfl⟩
      | round =>
          cases items with
          | nil => exact .constant rfl rfl ⟨whole.made.founded, rfl⟩
          | cons head operands =>
              cases heads : SpecialForm.ofHead? head with
              | none =>
                  have parts := code.evaluated
                  rw [Value.evaluated_ordinary heads, Value.innerLevel_ordinary heads,
                    List.forall_mem_cons] at parts
                  refine .application heads heads ⟨⟨level, outward, parts.1⟩, rfl, rfl⟩ ?_
                  exact formLists_self fun part member =>
                    ⟨⟨level, outward, parts.2 part member⟩, rfl, rfl⟩
              | some special =>
                  refine .special heads heads fun depth => results_self ?_ ?_
                  · intro shaped shape
                    exact lexical_shapes plain outward code heads
                      (ShapedForm.reads_of_ofOperands shape)
                  · intro fault failed
                    refine ⟨rfl, admits.ofOperands (fun operand member => ?_) failed⟩
                    exact whole.items operand (List.mem_cons_of_mem _ member)

/-- The rules of evaluation, but for the one that applies procedures, keep to lexical scope and fail
in admitted ways only. -/
theorem lexical_regular (admits : Fault.Admits allowed) (plain : ∀ top, sources top → top.Plain) :
    ((lexical sources).guarded allowed).Regular where
  depthExceeded := ⟨rfl, admits.depthExceeded⟩
  emptySequence := ⟨rfl, admits.shape _⟩
  ok := ⟨.symbol _, rfl⟩
  falsehood := ⟨.literal _, rfl⟩
  truthy := by
    rintro world value _ ⟨-, rfl⟩
    rfl
  steps := by
    rintro world frame _ form _ ⟨⟨level, outward, code⟩, rfl, rfl⟩
    exact lexical_steps admits plain outward code
  assign := by
    rintro world frame _ target _ value _ depth ⟨⟨level, -, code⟩, rfl, ⟨⟩⟩ ⟨founded, rfl⟩
    exact lexical_assign admits depth frame (code.plain plain) founded
  define := by
    rintro world frame _ name _ value _ depth ⟨⟨level, -, code⟩, rfl, ⟨⟩⟩ ⟨founded, rfl⟩
    exact lexical_define admits depth frame (code.plain plain) founded

/-- Applying a procedure does so too, unless it is no procedure and has too many digits in it. -/
theorem lexical_applications (admits : Fault.Admits allowed)
    {procedure other : Value} {arguments otherArguments : List Value}
    (digits : isProcedure procedure = false → procedure.HoldsOverlong → allowed .tooManyDigits)
    (values : ((lexical sources).guarded allowed).Values world procedure other)
    (related : List.Forall₂ (((lexical sources).guarded allowed).Values world) arguments
      otherArguments) :
    ((lexical sources).guarded allowed).Applications world arguments otherArguments procedure
      other := by
  obtain ⟨founded, rfl⟩ := values
  obtain ⟨argumentsFounded, rfl⟩ := forall_of_values related
  have stuck (stuck : isProcedure procedure = false) :
      ((lexical sources).guarded allowed).Applications world arguments arguments procedure
        procedure := by
    refine .stuck stuck stuck fun depth => ⟨rfl, ?_⟩
    refine Fault.showing_holds admits.depthExceeded admits.notProcedure fun long => ?_
    exact digits stuck (founded.holdsOverlong (fun _ _ _ founds => founds.symbols) long)
  cases founded with
  | builtin procedure =>
      exact .primitive fun depth => lexical_callPrimitive admits depth procedure argumentsFounded
  | closure id founds =>
      exact .closure fun depth => lexical_extend admits depth founds argumentsFounded
  | _ => exact stuck rfl

theorem lexical_lawful (admits : Fault.Admits allowed) (digits : allowed .tooManyDigits)
    (plain : ∀ top, sources top → top.Plain) : ((lexical sources).guarded allowed).Lawful where
  toRegular := lexical_regular admits plain
  applications := lexical_applications admits fun _ _ => digits

end Evaluation

end TinyLisp
