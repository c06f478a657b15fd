import TinyLisp.Proofs.Evaluation.Primitives
import TinyLisp.Proofs.Evaluation.Shapes
import TinyLisp.Proofs.Evaluation.Simulation
import TinyLisp.Proofs.Heap.Without

/-!
# Names that a program does not use

A form is evaluated as it would be if no frame bound a name that does not occur in it, nor in the
closures that it can get hold of. Special forms are told by their heads, which are never looked up.
So what a program binds to `if`, `def` or `fn` does not get into the forms that a `cond` or a `defn`
stands for.
-/

namespace TinyLisp

namespace Value

/-- A name occurs nowhere in a value, in the code of closures neither, but as the head of special
forms. -/
inductive Avoids (name : Name) : Value → Prop
  | number (value : Number) : Avoids name (.number value)
  | string (text : String) : Avoids name (.string text)
  | symbol {other : Name} (ne : other ≠ name) : Avoids name (.symbol other)
  | keyword (other : Name) : Avoids name (.keyword other)
  | literal (word : String) : Avoids name (.literal word)
  | sequence (identity : Option Identity) (bracket : Bracket) {items : List Value}
      (avoids : ∀ item ∈ items, Avoids name item) : Avoids name (.sequence identity bracket items)
  | special (identity : Option Identity) {head : Value} {operands : List Value}
      {special : SpecialForm} (heads : SpecialForm.ofHead? head = some special)
      (avoids : ∀ operand ∈ operands, Avoids name operand) :
      Avoids name (.sequence identity .round (head :: operands))
  | primitive (procedure : Primitive) : Avoids name (.primitive procedure)
  | closure (id frame : Nat) {parameters body : List Value}
      (parametersAvoid : ∀ parameter ∈ parameters, Avoids name parameter)
      (bodyAvoids : ∀ form ∈ body, Avoids name form) :
      Avoids name (.closure id parameters body frame)
  | foreign (value : Foreign) : Avoids name (.foreign value)

/-- The parameters and bodies of all closures in a value avoid a name. As data the name may well
occur in it. -/
inductive Sealed (name : Name) : Value → Prop
  | number (value : Number) : Sealed name (.number value)
  | string (text : String) : Sealed name (.string text)
  | symbol (other : Name) : Sealed name (.symbol other)
  | keyword (other : Name) : Sealed name (.keyword other)
  | literal (word : String) : Sealed name (.literal word)
  | sequence (identity : Option Identity) (bracket : Bracket) {items : List Value}
      (isSealed : ∀ item ∈ items, Sealed name item) : Sealed name (.sequence identity bracket items)
  | primitive (procedure : Primitive) : Sealed name (.primitive procedure)
  | closure (id frame : Nat) {parameters body : List Value}
      (parametersAvoid : ∀ parameter ∈ parameters, parameter.Avoids name)
      (bodyAvoids : ∀ form ∈ body, form.Avoids name) :
      Sealed name (.closure id parameters body frame)
  | foreign (value : Foreign) : Sealed name (.foreign value)

variable {name : Name}

theorem Avoids.ne {other : Name} (avoids : (Value.symbol other).Avoids name) : other ≠ name := by
  cases avoids with
  | symbol ne => exact ne

theorem Avoids.operands {identity : Option Identity} {head : Value} {operands : List Value}
    (avoids : (Value.sequence identity .round (head :: operands)).Avoids name) :
    ∀ operand ∈ operands, operand.Avoids name := by
  cases avoids with
  | sequence _ _ avoids => exact (List.forall_mem_cons.mp avoids).2
  | special _ _ avoids => exact avoids

theorem Avoids.head {identity : Option Identity} {head : Value} {operands : List Value}
    (avoids : (Value.sequence identity .round (head :: operands)).Avoids name)
    (ordinary : SpecialForm.ofHead? head = none) : head.Avoids name := by
  cases avoids with
  | sequence _ _ avoids => exact (List.forall_mem_cons.mp avoids).1
  | special _ heads => cases ordinary.symm.trans heads

theorem Avoids.vector {identity : Option Identity} {items : List Value}
    (avoids : (Value.sequence identity .square items).Avoids name) :
    ∀ item ∈ items, item.Avoids name := by
  cases avoids with
  | sequence _ _ avoids => exact avoids

/-- The heads of the forms that a `cond` stands for are symbols that its clauses need not avoid. -/
theorem Avoids.expandClauses {clauses : List Value} {form : Value}
    (expands : TinyLisp.expandClauses clauses = .ok form)
    (avoids : ∀ clause ∈ clauses, clause.Avoids name) : form.Avoids name := by
  refine expandClauses_closed (.literal _) ?_ expands avoids
  intro test consequent alternative first second third
  have heads : SpecialForm.ofHead? (named "if") = some .condition := rfl
  exact .special none heads (by simp [first, second, third])

theorem Avoids.expandFunction {function parameters : Value} {operands body : List Value}
    (described : dropDescription operands = parameters :: body)
    (avoids : ∀ operand ∈ function :: operands, operand.Avoids name) :
    (Value.list [.named "def", function,
      .list (.named "fn" :: parameters :: body)]).Avoids name := by
  have parts (operand : Value) (member : operand ∈ parameters :: body) : operand.Avoids name := by
    rw [← described] at member
    exact avoids operand (List.mem_cons_of_mem _ (mem_of_mem_dropDescription member))
  have functionHeads : SpecialForm.ofHead? (named "fn") = some .function := rfl
  have inner : (Value.list (.named "fn" :: parameters :: body)).Avoids name :=
    .special none functionHeads parts
  have heads : SpecialForm.ofHead? (named "def") = some .definition := rfl
  exact .special none heads (by simp [inner, avoids function])

theorem Avoids.isSealed {value : Value} (avoids : value.Avoids name) : value.Sealed name := by
  induction avoids with
  | number value => exact .number value
  | string text => exact .string text
  | symbol => exact .symbol _
  | keyword other => exact .keyword other
  | literal word => exact .literal word
  | sequence identity bracket _ ih => exact .sequence identity bracket ih
  | @special identity head operands special heads _ ih =>
      refine .sequence identity .round (List.forall_mem_cons.mpr ⟨?_, ih⟩)
      obtain ⟨base, rfl, -⟩ := SpecialForm.named_of_ofHead? heads
      exact .symbol _
  | primitive procedure => exact .primitive procedure
  | closure id frame parametersAvoid bodyAvoids =>
      exact .closure id frame parametersAvoid bodyAvoids
  | foreign value => exact .foreign value

theorem sealed_dataClosed (name : Name) : DataClosed (Sealed name) where
  number _ := .number _
  literal word _ := .literal word
  items isSealed := by
    cases isSealed with
    | sequence _ _ isSealed => exact isSealed
  list isSealed := .sequence none .round isSealed

theorem Sealed.numbered {value : Value} (isSealed : value.Sealed name) (number : Nat) :
    (Run.numbered number value).Sealed name :=
  (sealed_dataClosed name).numbered .number .sequence isSealed number

end Value

namespace Session

/-- The session with no binding of a name in any frame. -/
def without (name : Name) (session : Session) : Session :=
  { session with heap := session.heap.without name }

theorem without_write {name other : Name} (ne : other ≠ name) (frame : Nat) (value : Value)
    (session : Session) :
    ({ session with heap := session.heap.write frame other value } : Session).without name =
      { session.without name with
        heap := (session.without name).heap.write frame other value } := by
  rw [without, Heap.write_without ne]
  rfl

theorem without_newFrame {name : Name} (outer : Option Nat) {bindings : List (Name × Value)}
    (others : ∀ binding ∈ bindings, binding.1 ≠ name) (session : Session) :
    ({ session with heap := (session.heap.newFrame outer bindings).2 } : Session).without name =
      { session.without name with
        heap := ((session.without name).heap.newFrame outer bindings).2 } := by
  rw [without, Heap.newFrame_without outer others]
  rfl

/-- All closures that are bound to other names avoid a name, and what the name itself is bound to
has not changed since some start. -/
structure Hygienic (name : Name) (start session : Session) : Prop where
  bound : (session.heap.without name).All (Value.Sealed name)
  kept : ∀ id, session.heap.get? id name = start.heap.get? id name

variable {name : Name} {start session : Session}

/-- Nothing but the heap matters. -/
theorem Hygienic.of_heap (hygienic : start.Hygienic name session) {after : Session}
    (same : after.heap = session.heap) : start.Hygienic name after :=
  ⟨same ▸ hygienic.bound, same ▸ hygienic.kept⟩

theorem Hygienic.write (hygienic : start.Hygienic name session) {other : Name} (ne : other ≠ name)
    (frame : Nat) {value : Value} (isSealed : value.Sealed name) :
    start.Hygienic name { session with heap := session.heap.write frame other value } where
  bound := by
    rw [Heap.write_without ne]
    exact hygienic.bound.write frame other isSealed
  kept id := (Heap.get?_write_of_ne ne frame value id).trans (hygienic.kept id)

theorem Hygienic.newFrame (hygienic : start.Hygienic name session) (outer : Nat)
    {bindings : List (Name × Value)} (others : ∀ binding ∈ bindings, binding.1 ≠ name)
    (areSealed : ∀ binding ∈ bindings, binding.2.Sealed name) :
    start.Hygienic name
      { session with heap := (session.heap.newFrame (some outer) bindings).2 } where
  bound := by
    rw [Heap.newFrame_without (some outer) others]
    exact hygienic.bound.newFrame (some outer) areSealed
  kept id := (Heap.get?_newFrame_of_ne (some outer) others id).trans (hygienic.kept id)

end Session

namespace Evaluation

open Session

/-- Every run beside the same run in the session without a name. -/
def hygiene (name : Name) (start : Session) : Simulation where
  World := { session : Session // start.Hygienic name session }
  left world := world.1
  right world := world.1.without name
  Later _ _ := True
  Values _ value other := value.Sealed name ∧ value = other
  Forms _ frame otherFrame form other := form.Avoids name ∧ frame = otherFrame ∧ form = other
  Faults fault other := fault = other
  later_refl _ := trivial
  later_trans _ _ := trivial
  values_later _ := id
  forms_later _ := id

open Simulation

variable {name : Name} {start : Session} {world : (hygiene name start).World}

/-- An operation that ends alike with and without the name. -/
theorem hygiene_computations {α : Type} {Match : (hygiene name start).World → α → α → Prop}
    {computation : Run α} {result : Except Fault α} {session : Session}
    (ends : computation.outcome world.1 = (result, session))
    (otherEnds : computation.outcome (world.1.without name) = (result, session.without name))
    (hygienic : start.Hygienic name session)
    (related : ∀ value, result = .ok value → Match ⟨session, hygienic⟩ value value) :
    (hygiene name start).Computations world Match computation computation :=
  @computations_of_outcome _ _ _ _ _ _ _ ⟨session, hygienic⟩ _ _ trivial ends otherEnds
    (results_self related fun _ _ => rfl)

theorem hygiene_results {result otherResult : Except Fault Value}
    (results : (hygiene name start).Results ((hygiene name start).Values world) result
      otherResult) : result = otherResult := by
  cases results with
  | ok related => rw [related.2]
  | error same => rw [same]

theorem hygiene_formLists {frame : Nat} {forms : List Value}
    (avoid : ∀ form ∈ forms, form.Avoids name) :
    (hygiene name start).FormLists world frame frame forms forms :=
  formLists_self fun form member => ⟨avoid form member, rfl, rfl⟩

theorem hygiene_lookup (depth frame : Nat) {other : Name} (ne : other ≠ name) :
    (hygiene name start).Computations world (hygiene name start).Values
      (Run.lookup depth frame (.symbol other)) (Run.lookup depth frame (.symbol other)) := by
  have ends := Run.outcome_lookup depth frame (.symbol other) world.1
  have otherEnds := Run.outcome_lookup depth frame (.symbol other) (world.1.without name)
  rw [Session.without, Heap.lookup_without ne] at otherEnds
  refine hygiene_computations ends otherEnds world.2 fun value found => ⟨?_, rfl⟩
  cases looked : world.1.heap.lookup frame (.symbol other) with
  | ok bound =>
      rw [looked] at found
      cases found
      rw [← Heap.lookup_without ne] at looked
      exact world.2.bound.lookup looked
  | error fault =>
      rw [looked] at found
      cases found

theorem hygiene_assign (depth frame : Nat) {target value : Value} (avoids : target.Avoids name)
    (isSealed : value.Sealed name) :
    (hygiene name start).Computations world (fun _ _ _ => True)
      (Run.assign depth frame target value) (Run.assign depth frame target value) := by
  have ends := Run.outcome_assign depth frame target value world.1
  have otherEnds := Run.outcome_assign depth frame target value (world.1.without name)
  cases avoids with
  | @symbol other ne =>
      rw [Session.without, Heap.target_without ne] at otherEnds
      cases found : world.1.heap.target frame (.symbol other) with
      | ok owned =>
          obtain ⟨owner, bound⟩ := owned
          obtain rfl : bound = other := Heap.eq_of_target found
          rw [found] at ends otherEnds
          refine hygiene_computations ends ?_ (world.2.write ne owner isSealed) fun _ _ => trivial
          rw [without_write ne]
          exact otherEnds
      | error fault =>
          rw [found] at ends otherEnds
          exact hygiene_computations ends otherEnds world.2 fun _ _ => trivial
  | _ => exact hygiene_computations ends otherEnds world.2 fun _ _ => trivial

theorem hygiene_define (depth frame : Nat) {key value : Value} (avoids : key.Avoids name)
    (isSealed : value.Sealed name) :
    (hygiene name start).Computations world (fun _ _ _ => True)
      (Run.define depth frame key value) (Run.define depth frame key value) := by
  have ends := Run.outcome_define depth frame key value world.1
  have otherEnds := Run.outcome_define depth frame key value (world.1.without name)
  cases avoids with
  | symbol ne =>
      refine hygiene_computations ends ?_ (world.2.write ne frame isSealed) fun _ _ => trivial
      rw [without_write ne]
      exact otherEnds
  | _ => exact hygiene_computations ends otherEnds world.2 fun _ _ => trivial

theorem hygiene_makeClosure {parameters body : List Value} (frame : Nat)
    (parametersAvoid : ∀ parameter ∈ parameters, parameter.Avoids name)
    (bodyAvoids : ∀ form ∈ body, form.Avoids name) :
    (hygiene name start).Computations world (hygiene name start).Values
      (Run.makeClosure parameters body frame) (Run.makeClosure parameters body frame) := by
  refine hygiene_computations (Run.outcome_makeClosure parameters body frame world.1)
    (Run.outcome_makeClosure parameters body frame (world.1.without name)) (world.2.of_heap rfl) ?_
  rintro _ ⟨⟩
  exact ⟨.closure _ frame parametersAvoid bodyAvoids, rfl⟩

/-- The parameters of a closure avoid the name, so its new frame does not bind it. -/
theorem hygiene_extend (depth frame : Nat) {parameters body arguments : List Value}
    (parametersAvoid : ∀ parameter ∈ parameters, parameter.Avoids name)
    (bodyAvoids : ∀ form ∈ body, form.Avoids name)
    (areSealed : ∀ argument ∈ arguments, argument.Sealed name) :
    (hygiene name start).Computations world
      (fun after inner otherInner =>
        (hygiene name start).FormLists after inner otherInner body body)
      (Run.extend depth frame parameters arguments)
      (Run.extend depth frame parameters arguments) := by
  have ends := Run.outcome_extend depth frame parameters arguments world.1
  have otherEnds := Run.outcome_extend depth frame parameters arguments (world.1.without name)
  cases paired : Heap.pairUp parameters arguments with
  | ok bindings =>
      have others (binding : Name × Value) (member : binding ∈ bindings) : binding.1 ≠ name :=
        (parametersAvoid _ (Heap.symbol_mem_of_pairUp paired binding member)).ne
      have held (binding : Name × Value) (member : binding ∈ bindings) : binding.2.Sealed name :=
        areSealed _ (Heap.mem_of_pairUp paired binding member)
      rw [paired] at ends otherEnds
      refine hygiene_computations ends ?_ (world.2.newFrame frame others held) ?_
      · rw [without_newFrame (some frame) others]
        refine otherEnds.trans (congrArg (fun made => (Except.ok made, _)) ?_)
        exact Heap.size_without
      · exact fun _ _ => hygiene_formLists bodyAvoids
  | error fault =>
      rw [paired] at ends otherEnds
      refine hygiene_computations ends otherEnds world.2 ?_
      rintro _ ⟨⟩

theorem hygiene_callPrimitive (depth : Nat) (procedure : Primitive) {arguments : List Value}
    (areSealed : ∀ argument ∈ arguments, argument.Sealed name) :
    (hygiene name start).Computations world (hygiene name start).Values
      (callPrimitive depth procedure arguments) (callPrimitive depth procedure arguments) := by
  unfold callPrimitive
  split
  · next result called =>
      have value : result.value.Sealed name := by
        cases procedure with
        | builtin procedure =>
            exact Builtin.call_closed_of_nan (Value.sealed_dataClosed name) (.number _) called
              areSealed
        | failing => cases called
      have prints : (hygiene name start).Computations world (fun _ _ _ => True)
          (Run.print result.printed) (Run.print result.printed) :=
        hygiene_computations (Run.outcome_print _ _) (Run.outcome_print _ _)
          (world.2.of_heap rfl) fun _ _ => trivial
      refine prints.bind fun after _ _ _ _ => ?_
      refine hygiene_computations (Run.outcome_makeResult result.value after.1)
        (Run.outcome_makeResult result.value (after.1.without name)) (after.2.of_heap rfl) ?_
      rintro _ ⟨⟩
      exact ⟨value.numbered _, rfl⟩
  · split
    · exact computations_throw rfl
    · have notes (event : Event) : (hygiene name start).Computations world (fun _ _ _ => True)
          (Run.note event) (Run.note event) :=
        hygiene_computations (Run.outcome_note event _) (Run.outcome_note event _)
          (world.2.of_heap rfl) fun _ _ => trivial
      exact (notes _).bind fun _ _ _ _ _ => computations_throw rfl

/-- The parts of a special form avoid the name if its operands do. -/
theorem hygiene_shapes (frame : Nat) {special : SpecialForm} {operands : List Value}
    (avoid : ∀ operand ∈ operands, operand.Avoids name) {shaped : ShapedForm}
    (reads : ShapedForm.Reads special operands shaped) :
    (hygiene name start).Shapes world frame frame shaped shaped := by
  apply shapes_self reads
  case values => exact fun operand member => ⟨(avoid operand member).isSealed, rfl⟩
  case forms => exact fun operand member => ⟨avoid operand member, rfl, rfl⟩
  case closures =>
      rintro identity parameters body - rfl - -
      rw [List.forall_mem_cons] at avoid
      exact hygiene_makeClosure frame avoid.1.vector avoid.2
  case expansions =>
      intro form expansion
      cases expansion with
      | functionDefinition described =>
          exact ⟨Value.Avoids.expandFunction described avoid, rfl, rfl⟩
      | clauses expands => exact ⟨Value.Avoids.expandClauses expands avoid, rfl, rfl⟩

theorem hygiene_steps (frame : Nat) {form : Value} (avoids : form.Avoids name) :
    (hygiene name start).Steps world frame frame form form := by
  apply steps_self
  case constants => exact fun _ => ⟨avoids.isSealed, rfl⟩
  case lookups =>
      rintro other rfl depth
      exact hygiene_lookup depth frame avoids.ne
  case faults => exact fun _ _ => rfl
  case applications =>
      rintro identity head operands rfl ordinary
      exact List.forall_mem_cons.mpr ⟨⟨avoids.head ordinary, rfl, rfl⟩,
        fun operand member => ⟨avoids.operands operand member, rfl, rfl⟩⟩
  case specials =>
      rintro identity head operands special rfl - depth
      refine results_self (fun shaped shape => ?_) fun _ _ => rfl
      exact hygiene_shapes frame avoids.operands (ShapedForm.reads_of_ofOperands shape)

theorem hygiene_applications {procedure : Value} {arguments : List Value}
    (procedureSealed : procedure.Sealed name)
    (areSealed : ∀ argument ∈ arguments, argument.Sealed name) :
    (hygiene name start).Applications world arguments arguments procedure procedure := by
  cases procedureSealed with
  | primitive procedure =>
      exact .primitive fun depth => hygiene_callPrimitive depth procedure areSealed
  | closure id frame parametersAvoid bodyAvoids =>
      exact .closure fun depth => hygiene_extend depth frame parametersAvoid bodyAvoids areSealed
  | _ => exact .stuck rfl rfl fun _ => rfl

/-- The rules of evaluation do the same with and without the name. -/
theorem hygiene_lawful : (hygiene name start).Lawful where
  depthExceeded := rfl
  emptySequence := rfl
  ok := ⟨.symbol _, rfl⟩
  falsehood := ⟨.literal _, rfl⟩
  truthy := by
    rintro world value _ ⟨-, rfl⟩
    rfl
  steps := by
    rintro world frame _ form _ ⟨avoids, rfl, rfl⟩
    exact hygiene_steps frame avoids
  assign := by
    rintro world frame _ target _ value _ depth ⟨avoids, rfl, ⟨⟩⟩ ⟨isSealed, rfl⟩
    exact hygiene_assign depth frame avoids isSealed
  define := by
    rintro world frame _ key _ value _ depth ⟨avoids, rfl, ⟨⟩⟩ ⟨isSealed, rfl⟩
    exact hygiene_define depth frame avoids isSealed
  applications := by
    rintro world procedure _ arguments otherArguments ⟨procedureSealed, rfl⟩ related
    obtain ⟨areSealed, same⟩ := (List.forall₂_and_left _ _).mp related
    obtain rfl : arguments = otherArguments := List.forall₂_eq_eq_eq ▸ same
    exact hygiene_applications procedureSealed areSealed

/-- Taking out a name and evaluating a form that avoids it can be done in either order. -/
theorem evaluate_without (depth frame : Nat) {session : Session} {form : Value}
    (areSealed : (session.heap.without name).All (Value.Sealed name)) (avoids : form.Avoids name) :
    session.Hygienic name ((evaluate depth form frame).outcome session).2 ∧
      (evaluate depth form frame).outcome (session.without name) =
        (((evaluate depth form frame).outcome session).1,
          ((evaluate depth form frame).outcome session).2.without name) := by
  let world : (hygiene name session).World := ⟨session, areSealed, fun _ => rfl⟩
  have related : (hygiene name session).Activations world (.form form frame) (.form form frame) :=
    .form ⟨avoids, rfl, rfl⟩
  obtain ⟨⟨after, hygienic⟩, -, ends, otherEnds, results⟩ :=
    hygiene_lawful.computations_run depth related
  have agrees : (evaluate depth form frame).outcome (session.without name) =
      (((evaluate depth form frame).outcome session).1, after.without name) :=
    Prod.ext (hygiene_results results).symm otherEnds
  have left : ((evaluate depth form frame).outcome session).2 = after := ends
  rw [left]
  exact ⟨hygienic, agrees⟩

/-- What a name is bound to is irrelevant to forms and closures that avoid it. In sessions that
differ in nothing but the bindings of the name, such a form ends in the same value or fault, prints
the same, and leaves sessions that still differ in nothing else. The bindings of the name have not
changed, and the closures that other names are bound to avoid it as before. -/
theorem evaluate_avoiding (depth frame : Nat) {session other : Session} {form : Value}
    (same : session.without name = other.without name)
    (areSealed : (session.heap.without name).All (Value.Sealed name)) (avoids : form.Avoids name) :
    let (result, after) := (evaluate depth form frame).outcome session
    let (otherResult, otherAfter) := (evaluate depth form frame).outcome other
    result = otherResult ∧ after.printed = otherAfter.printed ∧
      after.without name = otherAfter.without name ∧
      (∀ id, after.heap.get? id name = session.heap.get? id name) ∧
      (∀ id, otherAfter.heap.get? id name = other.heap.get? id name) ∧
      (after.heap.without name).All (Value.Sealed name) := by
  have heaps : session.heap.without name = other.heap.without name := congrArg Session.heap same
  obtain ⟨hygienic, ends⟩ := evaluate_without depth frame areSealed avoids
  obtain ⟨otherHygienic, otherEnds⟩ := evaluate_without depth frame (heaps ▸ areSealed) avoids
  rw [same, otherEnds] at ends
  obtain ⟨results, sessions⟩ := Prod.mk.inj ends
  have prints := congrArg Session.printed sessions
  exact ⟨results.symm, prints.symm, sessions.symm, hygienic.kept, otherHygienic.kept,
    hygienic.bound⟩

/-- A function defined by `defn` chooses by `cond`, in a session that binds `if` to a procedure that
always fails, and in one that does not bind it at all. -/
theorem evaluate_avoiding_cond :
    let session (bindings : List (Name × Value)) : Session :=
      ⟨(Heap.empty.newFrame none bindings).2, 0, 0, "", []⟩
    let shadowed := session [(.plain "if", .primitive (.failing 0 "stop" .native "stopped"))]
    let plain := session []
    let choice : Value := .list [.named "cond", .named "x", .string "yes", .named "else", .nil]
    let definition : Value :=
      .list [.named "defn", .named "choose", .sequence none .square [.named "x"], choice]
    let form : Value := .list [.named "do", definition, .list [.named "choose", .ofBool true]]
    let (result, after) := (evaluate 20 form 0).outcome shadowed
    result = .ok (.string "yes") ∧ result = ((evaluate 20 form 0).outcome plain).1 ∧
      after.without (.plain "if") =
        ((evaluate 20 form 0).outcome plain).2.without (.plain "if") ∧
      after.heap.get? 0 (.plain "if") = some (.primitive (.failing 0 "stop" .native "stopped")) := by
  intro session shadowed plain choice definition form
  have heaps : shadowed.heap.without (.plain "if") = plain.heap :=
    Heap.eq_of_frames
      (by simp [shadowed, plain, session, Heap.without, Heap.newFrame, Heap.empty]; rfl)
  have itself : plain.heap.without (.plain "if") = plain.heap :=
    Heap.eq_of_frames (by simp [plain, session, Heap.without, Heap.newFrame, Heap.empty]; rfl)
  have same : shadowed.without (.plain "if") = plain.without (.plain "if") := by
    rw [Session.without, heaps, Session.without, itself]
  have areSealed : (shadowed.heap.without (.plain "if")).All (Value.Sealed (.plain "if")) := by
    rw [heaps]
    exact Heap.All.newFrame (fun id frame found => by simp [Heap.empty] at found) none (by simp)
  have named (base : String) (ne : base ≠ "if") : (Value.named base).Avoids (.plain "if") :=
    .symbol (by simpa [Name.plain] using ne)
  have choiceAvoids : choice.Avoids (.plain "if") :=
    .sequence none .round (by simp [named, Value.Avoids.string, Value.nil, Value.Avoids.literal])
  have parametersAvoid : (Value.sequence none .square [.named "x"]).Avoids (.plain "if") :=
    .sequence none .square (by simp [named])
  have definitionAvoids : definition.Avoids (.plain "if") :=
    .sequence none .round (by simp [named, choiceAvoids, parametersAvoid])
  have callAvoids : (Value.list [.named "choose", .ofBool true]).Avoids (.plain "if") :=
    .sequence none .round (by simp [named, Value.ofBool, Value.Avoids.literal])
  have avoids : form.Avoids (.plain "if") :=
    .sequence none .round (by simp [named, definitionAvoids, callAvoids])
  obtain ⟨results, -, sessions, kept, -⟩ := evaluate_avoiding 20 0 same areSealed avoids
  exact ⟨rfl, results, sessions, kept 0⟩

end Evaluation

end TinyLisp
