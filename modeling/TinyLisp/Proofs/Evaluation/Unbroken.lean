import TinyLisp.Proofs.Evaluation.Watched
import TinyLisp.Proofs.Heap.Operations
import TinyLisp.Proofs.Value.Unbroken

/-!
# Messages without line breaks

Names never have line breaks in them, so the values that evaluation makes of a program never have
any but in their strings. The messages of faults escape these, all except one: the name of a `defn`
without parameters is shown as it is, and it may be a string. Until a `defn` of that kind is
evaluated, every fault has a message that is one line.
-/

namespace TinyLisp

/-- A text without line breaks. -/
def IsLine (text : String) : Prop := '\n' ∉ text.toList

instance (text : String) : Decidable (IsLine text) := inferInstanceAs (Decidable (¬ _))

theorem isLine_append {first second : String} :
    IsLine (first ++ second) ↔ IsLine first ∧ IsLine second := by
  rw [IsLine, String.toList_append, List.mem_append, not_or]
  rfl

namespace IsLine

theorem append {first second : String} (left : IsLine first) (right : IsLine second) :
    IsLine (first ++ second) :=
  isLine_append.mpr ⟨left, right⟩

theorem ofList {text : List Char} (line : '\n' ∉ text) : IsLine (String.ofList text) := by
  rwa [IsLine, String.toList_ofList]

theorem natural (value : Nat) : IsLine (toString value) := by
  simp [IsLine]

theorem integer (value : Int) : IsLine (toString value) :=
  Text.newline_not_mem_repr_int value

theorem inspected (text : String) : IsLine (inspectedText text) :=
  ofList (Text.newline_not_mem_inspect text.toList)

theorem builtin (procedure : Builtin) : IsLine procedure.name := procedure.newline_not_mem_name

end IsLine

namespace Fault

variable {depth : Nat} {fault : Fault}

theorem isLine_ofObstacle (obstacle : Obstacle) : IsLine (ofObstacle obstacle).message := by
  cases obstacle with
  | depth => decide
  | digits => exact .append (.append (.append (by decide) (.natural _)) (by decide)) (by decide)

/-- A fault that shows a value has a one-line message if the text of the value is one line. -/
theorem isLine_showing {style : Style} {value : Value} {shown : String → Fault}
    (line : '\n' ∉ value.render style)
    (shows : ∀ text, IsLine text → IsLine (shown text).message) :
    IsLine (showing depth style value shown).message := by
  unfold showing Value.textWithin
  cases value.obstacle depth with
  | none => exact shows _ (.ofList line)
  | some obstacle => exact isLine_ofObstacle obstacle

/-- A string is shown as it is. -/
theorem showing_string (depth : Nat) (text : String) (shown : String → Fault) :
    showing depth .shown (.string text) shown = shown text := by
  simp [showing, Value.textWithin, Value.obstacle, Value.render, Value.stringText]

theorem isLine_arity (expected given : Nat) : IsLine (arity expected given "").message := by
  have word : IsLine (arityWord expected given) := by
    unfold arityWord
    split <;> decide
  have start : IsLine ("Given " ++ arityWord expected given ++ " arguments" ++ "") :=
    .append (.append (.append (by decide) word) (by decide)) (by decide)
  have expectation :=
    start.append (show IsLine ": expected " by decide) |>.append (.integer expected)
  exact .append (.append expectation (by decide)) (.integer _)

theorem isLine_of_lookup {heap : Heap} {frame : Nat} {name : Name} (line : '\n' ∉ name.text)
    {heapFault : HeapFault} (failed : heap.lookup frame (.symbol name) = .error heapFault) :
    IsLine (ofHeap depth heapFault).message := by
  have written : '\n' ∉ (Value.symbol name).render .shown := line
  simp only [Heap.lookup] at failed
  split at failed <;> cases failed
  change IsLine (showing depth .shown (.symbol name) unbound).message
  exact isLine_showing written fun text line => .append (by decide) line

theorem isLine_of_target {heap : Heap} {frame : Nat} {name : Name} (line : '\n' ∉ name.text)
    {heapFault : HeapFault} (failed : heap.target frame (.symbol name) = .error heapFault) :
    IsLine (ofHeap depth heapFault).message := by
  have written : '\n' ∉ (Value.symbol name).render .shown := line
  simp only [Heap.target] at failed
  split at failed <;> cases failed
  change IsLine (showing depth .shown (.symbol name) unboundTarget).message
  exact isLine_showing written fun text line => .append (by decide) line

theorem isLine_of_pairUp {parameters arguments : List Value}
    (symbols : ∀ parameter ∈ parameters, ∃ name, parameter = .symbol name)
    {heapFault : HeapFault} (failed : Heap.pairUp parameters arguments = .error heapFault) :
    IsLine (ofHeap depth heapFault).message := by
  rw [Heap.pairUp_symbols symbols] at failed
  split at failed <;> cases failed
  exact isLine_arity parameters.length arguments.length

end Fault

/-- What builtin procedures fail with is told in one line. -/
theorem Builtin.isLine_of_refuses {depth : Nat} {procedure : Builtin} {arguments : List Value}
    {fault : Fault} (unbroken : ∀ argument ∈ arguments, argument.Unbroken)
    (refuses : procedure.Refuses depth arguments fault) : IsLine fault.message := by
  have readable {argument : Value} (member : argument ∈ arguments) :
      '\n' ∉ argument.render .readable :=
    (unbroken argument member).newline_not_mem_render (.inl rfl)
  cases refuses with
  | count expected =>
      have start : IsLine (procedure.name ++ " requires exactly ") :=
        .append (.builtin procedure) (by decide)
      exact .append (.append (.append start (.natural _)) (by decide)) (.natural _)
  | notNumber member =>
      refine Fault.isLine_showing (readable member) fun text line => ?_
      exact .append (.append (.append (by decide) (.builtin procedure)) (by decide)) line
  | notSequence member =>
      refine Fault.isLine_showing (readable member) fun text line => ?_
      exact .append (.append (.builtin procedure) (by decide)) line
  | tooFewToCompare | nothingToSubtract | integerOutOfRange | incomparable => decide
  | unwritable => exact Fault.isLine_ofObstacle _

/-- What special forms fail with is told in one line, unless the name of a `defn` without parameters
is a string that has more. -/
theorem ShapedForm.isLine_of_refuses {depth : Nat} {special : SpecialForm} {operands : List Value}
    {fault : Fault} (unbroken : ∀ operand ∈ operands, operand.Unbroken)
    (refuses : ShapedForm.Refuses depth special operands fault) :
    IsLine fault.message ∨ ∃ text, special = .functionDefinition ∧ operands = [.string text] ∧
      ¬ IsLine text ∧ fault = .shape (.functionParameters text) := by
  have shown {cause : String → ShapeFault} {operand : Value} (operandUnbroken : operand.Unbroken)
      (shows : ∀ text, IsLine text → IsLine (cause text).message) :
      IsLine (Fault.showing depth .inspected operand (.shape ∘ cause)).message :=
    Fault.isLine_showing (operandUnbroken.newline_not_mem_render (.inr rfl)) shows
  cases refuses with
  | quote | assignment | definition | functionName | condition | noParameters | noBody =>
      exact .inl (by decide)
  | assignmentTarget | definitionName | parametersNotVector =>
      exact .inl (shown (unbroken _ List.mem_cons_self) fun text line => .append (by decide) line)
  | parameterNotSymbol identity body member =>
      have parameters := unbroken _ List.mem_cons_self
      have parameter := Value.unbroken_dataClosed.items parameters _ member
      exact .inl (shown parameter fun text line => .append (by decide) line)
  | @clauses _ cause =>
      cases cause with
      | oddCount => exact .inl (by decide)
      | elseNotLast => exact .inl (by decide)
  | functionParameters name =>
      by_cases line : '\n' ∈ name.render .shown
      · obtain ⟨text, rfl, broken⟩ := (unbroken name (by simp)).of_newline_mem_shown line
        exact .inr ⟨text, rfl, rfl, not_not_intro broken, Fault.showing_string depth text _⟩
      · refine .inl (Fault.isLine_showing line fun text line => ?_)
        exact .append (.append (by decide) line) (by decide)

namespace Evaluation

open Invariant Simulation

/-- A list is evaluated of `defn` and a string that has a line break in it, and nothing else. -/
inductive NamesLines : Activation → Session → Prop
  | form {identity : Option Identity} {text : String} {frame : Nat} {session : Session}
      (broken : ¬ IsLine text) :
      NamesLines (.form (.sequence identity .round [.named "defn", .string text]) frame) session

/-- Sessions, values and forms without line breaks in names. -/
def unbroken : Invariant where
  Sessions session := session.heap.All Value.Unbroken
  Values _ := Value.Unbroken
  Forms _ _ := Value.Unbroken
  Later _ _ := True
  later_refl _ := trivial
  later_trans _ _ := trivial
  values_later _ := id
  forms_later _ := id

section

variable {allowed : Fault → Prop} {world : (unbroken.guarded allowed).World}
  (lines : ∀ fault, IsLine fault.message → allowed fault)

include lines

theorem unbroken_lookup (depth frame : Nat) {name : Name} (line : '\n' ∉ name.text) :
    (unbroken.guarded allowed).Computations world (unbroken.guarded allowed).Values
      (Run.lookup depth frame (.symbol name)) (Run.lookup depth frame (.symbol name)) := by
  have ends := Run.outcome_lookup depth frame (.symbol name) world.1
  cases looked : world.1.heap.lookup frame (.symbol name) with
  | ok value =>
      rw [looked] at ends
      refine guarded_computations ends world.2 trivial ?_ nofun
      rintro _ ⟨⟩
      exact ⟨world.2.lookup looked, rfl⟩
  | error fault =>
      rw [looked] at ends
      exact guarded_failed ends (lines _ (Fault.isLine_of_lookup line looked))

theorem unbroken_assign (depth frame : Nat) {name : Name} (line : '\n' ∉ name.text)
    {value : Value} (valueUnbroken : value.Unbroken) :
    (unbroken.guarded allowed).Computations world (fun _ _ _ => True)
      (Run.assign depth frame (.symbol name) value)
      (Run.assign depth frame (.symbol name) value) := by
  have ends := Run.outcome_assign depth frame (.symbol name) value world.1
  split at ends
  · next owner name _ =>
      exact guarded_computations ends (world.2.write owner name valueUnbroken) trivial
        (fun _ _ => trivial) nofun
  · next fault failed =>
      exact guarded_failed ends (lines _ (Fault.isLine_of_target line failed))

omit lines in
theorem unbroken_define (depth frame : Nat) (name : Name) {value : Value}
    (valueUnbroken : value.Unbroken) :
    (unbroken.guarded allowed).Computations world (fun _ _ _ => True)
      (Run.define depth frame (.symbol name) value)
      (Run.define depth frame (.symbol name) value) := by
  have ends := Run.outcome_define depth frame (.symbol name) value world.1
  exact guarded_computations ends (world.2.write frame name valueUnbroken) trivial
    (fun _ _ => trivial) nofun

omit lines in
theorem unbroken_makeClosure {parameters body : List Value} (frame : Nat)
    (names : ∀ parameter ∈ parameters, ∃ name : Name, parameter = .symbol name ∧ '\n' ∉ name.text)
    (bodyUnbroken : ∀ form ∈ body, form.Unbroken) :
    (unbroken.guarded allowed).Computations world (unbroken.guarded allowed).Values
      (Run.makeClosure parameters body frame) (Run.makeClosure parameters body frame) := by
  have ends := Run.outcome_makeClosure parameters body frame world.1
  refine guarded_computations ends world.2 trivial ?_ nofun
  rintro _ ⟨⟩
  exact ⟨.closure _ frame names bodyUnbroken, rfl⟩

/-- A closure is entered in a new frame that binds its parameters, and no line break is in any of
them. -/
theorem unbroken_extend (depth : Nat) {frame : Nat} {parameters body arguments : List Value}
    (symbols : ∀ parameter ∈ parameters, ∃ name, parameter = .symbol name)
    (bodyUnbroken : ∀ form ∈ body, form.Unbroken)
    (argumentsUnbroken : ∀ argument ∈ arguments, argument.Unbroken) :
    (unbroken.guarded allowed).Computations world
      (fun after inner otherInner =>
        (unbroken.guarded allowed).FormLists after inner otherInner body body)
      (Run.extend depth frame parameters arguments)
      (Run.extend depth frame parameters arguments) := by
  have ends := Run.outcome_extend depth frame parameters arguments world.1
  split at ends
  · next bindings paired =>
      have held (binding : Name × Value) (member : binding ∈ bindings) : binding.2.Unbroken :=
        argumentsUnbroken _ (Heap.mem_of_pairUp paired binding member)
      refine guarded_computations ends (world.2.newFrame (some frame) held) trivial ?_ nofun
      rintro inner ⟨⟩
      exact formLists_self fun form member => ⟨bodyUnbroken form member, rfl, rfl⟩
  · next fault failed =>
      exact guarded_failed ends (lines _ (Fault.isLine_of_pairUp symbols failed))

theorem unbroken_callPrimitive (depth : Nat) (procedure : Builtin) {arguments : List Value}
    (argumentsUnbroken : ∀ argument ∈ arguments, argument.Unbroken) :
    (unbroken.guarded allowed).Computations world (unbroken.guarded allowed).Values
      (callPrimitive depth (.builtin procedure) arguments)
      (callPrimitive depth (.builtin procedure) arguments) := by
  have line {fault : Fault} (failed : procedure.call depth arguments = .error fault) :
      IsLine fault.message :=
    Builtin.isLine_of_refuses argumentsUnbroken (Builtin.refuses_of_call failed)
  refine guarded_callPrimitive ?_ (fun _ _ => trivial) Value.unbroken_dataClosed (.number _)
    (fun number unbroken => unbroken.numbered number) argumentsUnbroken
    (fun fault failed _ => lines fault (line failed)) fun fault failed => lines _ ?_
  · intro after same
    change after.heap.All Value.Unbroken
    rw [same]
    exact world.2
  · exact .append (.append (.builtin procedure) (by decide)) (line failed)

omit lines in
/-- The parts of a special form have no line breaks in names if its operands have none. -/
theorem unbroken_shapes (frame : Nat) {special : SpecialForm} {operands : List Value}
    (operandsUnbroken : ∀ operand ∈ operands, operand.Unbroken) {shaped : ShapedForm}
    (reads : ShapedForm.Reads special operands shaped) :
    (unbroken.guarded allowed).Shapes world frame frame shaped shaped := by
  apply shapes_self reads
  case values => exact fun operand member => ⟨operandsUnbroken operand member, rfl⟩
  case forms => exact fun operand member => ⟨operandsUnbroken operand member, rfl, rfl⟩
  case closures =>
      rintro identity parameters body - rfl symbols -
      obtain ⟨vectorUnbroken, bodyUnbroken⟩ := List.forall_mem_cons.mp operandsUnbroken
      refine unbroken_makeClosure frame (fun parameter member => ?_) bodyUnbroken
      obtain ⟨name, rfl⟩ := symbols parameter member
      exact ⟨name, rfl, (Value.unbroken_dataClosed.items vectorUnbroken _ member).line⟩
  case expansions =>
      intro form expansion
      have words : ∀ base ∈ ["def", "fn", "if"], '\n' ∉ base.toList := by decide
      have formUnbroken : form.Unbroken :=
        expansion.expansion_closed (fun base member => Value.unbroken_named (words base member))
          (.literal (by decide)) (fun _ => .sequence none .round) operandsUnbroken
      exact ⟨formUnbroken, rfl, rfl⟩

/-- A form keeps line breaks out of names, and out of messages unless it is a `defn` with nothing
but a string that has some. -/
theorem unbroken_steps {frame : Nat} {form : Value} (formUnbroken : form.Unbroken)
    (exempt : NamesLines (.form form frame) world.1 →
      ∀ text, allowed (.shape (.functionParameters text))) :
    (unbroken.guarded allowed).Steps world frame frame form form := by
  apply steps_self
  case constants => exact fun _ => ⟨formUnbroken, rfl⟩
  case lookups =>
      rintro name rfl depth
      exact unbroken_lookup lines depth frame formUnbroken.line
  case faults =>
      intro _ depth
      have inspected := formUnbroken.newline_not_mem_render (.inr rfl)
      refine ⟨rfl, lines _ (Fault.isLine_showing inspected ?_)⟩
      exact fun text line => .append (by decide) line
  case applications =>
      rintro identity head operands rfl -
      exact fun item member => ⟨Value.unbroken_dataClosed.items formUnbroken item member, rfl, rfl⟩
  case specials =>
      rintro identity head operands special rfl heads depth
      have operandsUnbroken :=
        (List.forall_mem_cons.mp (Value.unbroken_dataClosed.items formUnbroken)).2
      refine results_self (fun shaped shape => ?_) fun fault failed => ⟨rfl, ?_⟩
      · exact unbroken_shapes frame operandsUnbroken (ShapedForm.reads_of_ofOperands shape)
      · have refuses := ShapedForm.refuses_of_ofOperands failed
        rcases ShapedForm.isLine_of_refuses operandsUnbroken refuses with
          line | ⟨text, rfl, rfl, broken, rfl⟩
        · exact lines _ line
        · obtain rfl := SpecialForm.eq_defn_of_ofHead? heads
          exact exempt (.form broken) text

/-- The rules of evaluation that take neither forms apart nor procedures. -/
theorem unbroken_basic : (unbroken.guarded allowed).Basic where
  depthExceeded := ⟨rfl, lines _ (by decide)⟩
  emptySequence := ⟨rfl, lines _ (by decide)⟩
  ok := ⟨Value.unbroken_named (by decide), rfl⟩
  falsehood := ⟨.literal (by decide), rfl⟩
  truthy := by
    rintro world value _ ⟨-, rfl⟩
    rfl
  assign := by
    rintro world frame _ target _ value _ depth ⟨targetUnbroken, rfl, ⟨⟩⟩ ⟨valueUnbroken, rfl⟩
    exact unbroken_assign lines depth frame targetUnbroken.line valueUnbroken
  define := by
    rintro world frame _ name _ value _ depth ⟨-, rfl, ⟨⟩⟩ ⟨valueUnbroken, rfl⟩
    exact unbroken_define depth frame name valueUnbroken

theorem unbroken_applications {procedure other : Value} {arguments otherArguments : List Value}
    (values : (unbroken.guarded allowed).Values world procedure other)
    (related : List.Forall₂ ((unbroken.guarded allowed).Values world) arguments otherArguments) :
    (unbroken.guarded allowed).Applications world arguments otherArguments procedure other := by
  obtain ⟨procedureUnbroken, rfl⟩ := values
  obtain ⟨argumentsUnbroken, rfl⟩ := @forall_of_values unbroken _ _ _ related
  have whole := procedureUnbroken
  cases procedureUnbroken with
  | builtin procedure =>
      exact .primitive fun depth => unbroken_callPrimitive lines depth procedure argumentsUnbroken
  | closure id frame names bodyUnbroken =>
      refine .closure fun depth => unbroken_extend lines depth ?_ bodyUnbroken argumentsUnbroken
      intro parameter member
      obtain ⟨name, same, -⟩ := names parameter member
      exact ⟨name, same⟩
  | _ =>
      refine .stuck rfl rfl fun depth => ⟨rfl, lines _ ?_⟩
      refine Fault.isLine_showing (whole.newline_not_mem_render (.inr rfl)) fun text line => ?_
      exact .append (by decide) line

end

/-- Whatever runs fail with, no line break gets into a name. -/
theorem unbroken_lawful : (unbroken.guarded fun _ => True).Lawful where
  toBasic := unbroken_basic fun _ _ => trivial
  steps := by
    rintro world frame _ form _ ⟨formUnbroken, rfl, rfl⟩
    exact unbroken_steps (fun _ _ => trivial) formUnbroken fun _ _ => trivial
  applications := unbroken_applications fun _ _ => trivial

/-- As long as no `defn` is evaluated that has nothing but a string with line breaks, all messages
are one line. -/
theorem unbroken_runUnless (fault : Fault) (depth : Nat)
    {world : (unbroken.guarded fun fault => IsLine fault.message).World} {form : Value}
    {frame : Nat} (formUnbroken : form.Unbroken) (watched : IsLine fault.message) :
    (unbroken.guarded fun fault => IsLine fault.message).Computations world
      (unbroken.guarded fun fault => IsLine fault.message).Values
      (runUnless NamesLines fault depth (.form form frame))
      (runUnless NamesLines fault depth (.form form frame)) := by
  refine (unbroken_basic fun _ => id).computations_runUnless ?_ (fun _ _ => ⟨rfl, watched⟩) ?_
    (fun _ => unbroken_applications fun _ => id) depth (.form ⟨formUnbroken, rfl, rfl⟩)
  · intro world activation other related
    cases related with
    | form forms =>
        obtain ⟨-, rfl, rfl⟩ := forms
        exact .rfl
    | _ => constructor <;> rintro ⟨⟩
  · rintro world frame _ form _ spared ⟨formUnbroken, rfl, rfl⟩
    exact unbroken_steps (fun _ => id) formUnbroken fun barred => absurd barred spared

/-- A `defn` with nothing but a string fails with a message that holds the string, unless the budget
is exhausted. -/
theorem run_namesLines {activation : Activation} {session : Session}
    (names : NamesLines activation session) (depth : Nat) :
    ∃ fault, (fault = .depthExceeded ∨
        ∃ text, fault = .shape (.functionParameters text) ∧ ¬ IsLine text) ∧
      ((run (depth + 1) activation).outcome session).1 = .error fault := by
  cases names with
  | @form identity text frame _ broken =>
      cases depth with
      | zero => exact ⟨_, .inl rfl, rfl⟩
      | succ depth =>
          refine ⟨_, .inr ⟨text, rfl, broken⟩, ?_⟩
          have shown := Fault.showing_string depth text (.shape ∘ .functionParameters)
          exact congrArg Except.error shown

end Evaluation

end TinyLisp
