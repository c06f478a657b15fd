import TinyLisp.Primitive
import TinyLisp.SpecialForm
import TinyLisp.Proofs.Evaluation.Primitives
import TinyLisp.Proofs.Value.Renumbering

/-!
# Rules that do not look at numbers

Reading the shape of a special form and calling a primitive procedure do the same to values that
have been given other numbers for frames and objects, and fail with the same fault.
-/

namespace TinyLisp

variable {renumbering : Renumbering}

theorem ofHead?_renumber (head : Value) :
    SpecialForm.ofHead? (head.renumber renumbering) = SpecialForm.ofHead? head := by
  cases head <;> rfl

theorem isElse_renumber (predicate : Value) :
    isElse (predicate.renumber renumbering) = isElse predicate := by
  cases predicate <;> rfl

theorem expandClauses_map (clauses : List Value) :
    expandClauses (clauses.map (Value.renumber renumbering)) =
      (expandClauses clauses).map (Value.renumber renumbering) := by
  induction clauses using expandClauses.induct with
  | case1 => rfl
  | case2 => rfl
  | case3 predicate action rest ih =>
      simp only [List.map_cons, expandClauses, ih, isElse_renumber, List.isEmpty_map]
      cases expandClauses rest with
      | error fault => rfl
      | ok alternative =>
          simp only [map_ok, ok_bind]
          split
          · split <;> rfl
          · simp only [except_pure, map_ok, Value.renumber_list]
            rfl

theorem dropDescription_map (operands : List Value) :
    dropDescription (operands.map (Value.renumber renumbering)) =
      (dropDescription operands).map (Value.renumber renumbering) := by
  match operands with
  | [] => rfl
  | [first] => cases first <;> rfl
  | first :: second :: rest =>
      cases first with
      | string text =>
          cases second with
          | sequence identity bracket items => cases bracket <;> simp [dropDescription]
          | _ => rfl
      | _ => rfl

namespace ShapedForm

def renumber (renumbering : Renumbering) : ShapedForm → ShapedForm
  | quote form => quote (form.renumber renumbering)
  | assignment target form => assignment (target.renumber renumbering) (form.renumber renumbering)
  | definition name form => definition (name.renumber renumbering) (form.renumber renumbering)
  | condition test consequent alternative =>
      condition (test.renumber renumbering) (consequent.renumber renumbering)
        (alternative.map (Value.renumber renumbering))
  | function parameters body =>
      function (parameters.map (Value.renumber renumbering))
        (body.map (Value.renumber renumbering))
  | sequence forms => sequence (forms.map (Value.renumber renumbering))
  | expansion form => expansion (form.renumber renumbering)

theorem isSymbol_renumber (value : Value) :
    isSymbol (value.renumber renumbering) = isSymbol value := by
  cases value <;> rfl

theorem ofNameAndForm_map {depth : Nat} {make : Value → Value → ShapedForm} {count : ShapeFault}
    {notSymbol : String → ShapeFault} (operands : List Value)
    (parts : ∀ name form, (make name form).renumber renumbering =
      make (name.renumber renumbering) (form.renumber renumbering)) :
    ofNameAndForm depth make count notSymbol (operands.map (Value.renumber renumbering)) =
      (ofNameAndForm depth make count notSymbol operands).map (renumber renumbering) := by
  match operands with
  | [] | [_] | _ :: _ :: _ :: _ => rfl
  | [name, form] =>
      cases name with
      | symbol name => exact congrArg Except.ok (parts (.symbol name) form).symm
      | _ => exact congrArg Except.error (Value.showing_renumber depth .inspected _ _)

theorem ofCondition_map (operands : List Value) :
    ofCondition (operands.map (Value.renumber renumbering)) =
      (ofCondition operands).map (renumber renumbering) := by
  match operands with
  | [] | [_] | [_, _] | [_, _, _] | _ :: _ :: _ :: _ :: _ => rfl

theorem ofFunction_map (depth : Nat) (operands : List Value) :
    ofFunction depth (operands.map (Value.renumber renumbering)) =
      (ofFunction depth operands).map (renumber renumbering) := by
  match operands with
  | [] => rfl
  | parameters :: body =>
      cases parameters with
      | sequence identity bracket parameters =>
          cases bracket with
          | square =>
              have find : (parameters.map (Value.renumber renumbering)).find? (!isSymbol ·) =
                  (parameters.find? (!isSymbol ·)).map (Value.renumber renumbering) := by
                rw [List.find?_map]
                congr 2
                funext value
                simp [isSymbol_renumber]
              simp only [List.map_cons, Value.renumber_sequence, ofFunction, find, List.isEmpty_map]
              cases parameters.find? (!isSymbol ·) with
              | some parameter =>
                  exact congrArg Except.error (Value.showing_renumber depth .inspected _ _)
              | none =>
                  simp only [Option.map_none]
                  split <;> rfl
          | round =>
              have shown := @Value.showing_renumber renumbering depth .inspected
                (.sequence identity .round parameters) (.shape ∘ .parametersNotVector)
              exact congrArg Except.error shown
      | _ => exact congrArg Except.error (Value.showing_renumber depth .inspected _ _)

theorem expandFunction_map (depth : Nat) (operands : List Value) :
    expandFunction depth (operands.map (Value.renumber renumbering)) =
      (expandFunction depth operands).map (Value.renumber renumbering) := by
  match operands with
  | [] => rfl
  | name :: operands =>
      simp only [List.map_cons, expandFunction, dropDescription_map]
      cases dropDescription operands with
      | nil => exact congrArg Except.error (Value.showing_renumber depth .shown _ _)
      | cons parameters body =>
          simp only [map_ok, List.map_cons, Value.renumber_list, List.map_nil]
          rfl

/-- Operands with other numbers have the shape that they had, with these numbers. -/
theorem ofOperands_map (depth : Nat) (special : SpecialForm) (operands : List Value) :
    ofOperands depth special (operands.map (Value.renumber renumbering)) =
      (ofOperands depth special operands).map (renumber renumbering) := by
  cases special with
  | quote =>
      match operands with
      | [] | [_] | _ :: _ :: _ => rfl
  | assignment => exact ofNameAndForm_map operands fun _ _ => rfl
  | definition => exact ofNameAndForm_map operands fun _ _ => rfl
  | functionDefinition =>
      simp only [ofOperands, expandFunction_map]
      cases expandFunction depth operands <;> rfl
  | condition => exact ofCondition_map operands
  | function => exact ofFunction_map depth operands
  | sequence => rfl
  | clauses =>
      simp only [ofOperands, expandClauses_map]
      cases expandClauses operands <;> rfl

end ShapedForm

def PrimitiveResult.renumber (renumbering : Renumbering) (result : PrimitiveResult) :
    PrimitiveResult :=
  ⟨result.value.renumber renumbering, result.printed⟩

namespace Builtin

theorem oneArgument_map (procedure : Builtin) (arguments : List Value) :
    procedure.oneArgument (arguments.map (Value.renumber renumbering)) =
      (procedure.oneArgument arguments).map (Value.renumber renumbering) := by
  match arguments with
  | [] | [_] => rfl
  | _ :: _ :: _ => simp [oneArgument]

theorem twoArguments_map (procedure : Builtin) (arguments : List Value) :
    procedure.twoArguments (arguments.map (Value.renumber renumbering)) =
      (procedure.twoArguments arguments).map
        (Prod.map (Value.renumber renumbering) (Value.renumber renumbering)) := by
  match arguments with
  | [] | [_] | [_, _] => rfl
  | _ :: _ :: _ :: _ => simp [twoArguments]

theorem numbers_map (depth : Nat) (procedure : Builtin) (arguments : List Value) :
    procedure.numbers depth (arguments.map (Value.renumber renumbering)) =
      (procedure.numbers depth arguments).map (List.map (Number.renumber renumbering.objects)) := by
  induction arguments with
  | nil => rfl
  | cons argument rest ih =>
      cases argument with
      | number value =>
          simp only [List.map_cons, Value.renumber_number, numbers, ih]
          cases procedure.numbers depth rest <;> rfl
      | _ => exact congrArg Except.error (Value.showing_renumber depth .readable _ _)

theorem foldlM_map {combine : Number → Number → Option Number}
    (same : ∀ left right : Number,
      combine (left.renumber renumbering.objects) (right.renumber renumbering.objects) =
        combine left right)
    (new : ∀ {left right total}, combine left right = some total → total.object? = none)
    (total : Number) (values : List Number) :
    (values.map (Number.renumber renumbering.objects)).foldlM
        (fun total value => inRange (combine total value)) (total.renumber renumbering.objects) =
      (values.foldlM (fun total value => inRange (combine total value)) total).map
        (Number.renumber renumbering.objects) := by
  induction values generalizing total with
  | nil => rfl
  | cons value rest ih =>
      rw [List.map_cons, List.foldlM_cons, List.foldlM_cons, same]
      cases combined : combine total value with
      | none => rfl
      | some next =>
          have unchanged : next.renumber renumbering.objects = next :=
            Number.renumber_eq_self (by simp [new combined])
          have later := ih next
          rwa [unchanged] at later

theorem sum_map (values : List Number) :
    sum (values.map (Number.renumber renumbering.objects)) =
      (sum values).map (Number.renumber renumbering.objects) :=
  foldlM_map Number.add?_renumber Number.object?_of_add? (.int 0) values

theorem difference_map (values : List Number) :
    difference (values.map (Number.renumber renumbering.objects)) =
      (difference values).map (Number.renumber renumbering.objects) := by
  match values with
  | [] => rfl
  | [value] =>
      have unchanged : value.neg.renumber renumbering.objects = value.neg :=
        Number.renumber_eq_self (by simp [Number.object?_neg])
      simp only [List.map_cons, List.map_nil, difference, Number.neg_renumber, map_ok, unchanged]
  | value :: next :: rest =>
      exact foldlM_map Number.sub?_renumber Number.object?_of_sub? value (next :: rest)

theorem itemsOf_renumber (depth : Nat) (procedure : Builtin) (argument : Value) :
    procedure.itemsOf depth (argument.renumber renumbering) =
      (procedure.itemsOf depth argument).map (List.map (Value.renumber renumbering)) := by
  cases argument with
  | sequence identity bracket items => simp [itemsOf]
  | literal text =>
      rw [Value.renumber_literal]
      unfold itemsOf
      split <;> first | rfl | simp_all
  | _ => exact congrArg Except.error (Value.showing_renumber depth .readable _ _)

theorem isLiteral_map (procedure : Builtin) (word : String) (arguments : List Value) :
    procedure.isLiteral word (arguments.map (Value.renumber renumbering)) =
      (procedure.isLiteral word arguments).map (Value.renumber renumbering) := by
  simp only [isLiteral, oneArgument_map]
  cases procedure.oneArgument arguments with
  | error fault => rfl
  | ok argument =>
      simp only [map_ok, ok_bind, Value.same_literal_renumber]
      rfl

/-- Comparing looks at the objects of its arguments, but only at whether they are the same. -/
theorem compare_map {allowed : Reference → Prop} (separates : renumbering.Separates allowed)
    (depth : Nat) {arguments : List Value}
    (within : ∀ argument ∈ arguments, argument.Within allowed) :
    compare depth (arguments.map (Value.renumber renumbering)) = compare depth arguments := by
  match arguments with
  | [] | [_] => rfl
  | first :: second :: rest =>
      have same := Value.equalWithin_renumber separates depth (within first (by simp))
        (within second (by simp))
      simp only [List.map_cons, compare, same]

theorem compute_map {allowed : Reference → Prop} (separates : renumbering.Separates allowed)
    (depth : Nat) (procedure : Builtin) {arguments : List Value}
    (within : ∀ argument ∈ arguments, argument.Within allowed) :
    procedure.compute depth (arguments.map (Value.renumber renumbering)) =
      (procedure.compute depth arguments).map (Value.renumber renumbering) := by
  cases procedure with
  | car =>
      simp only [compute, oneArgument_map]
      cases car.oneArgument arguments with
      | error fault => rfl
      | ok argument =>
          simp only [map_ok, ok_bind, itemsOf_renumber]
          cases car.itemsOf depth argument with
          | error fault => rfl
          | ok items => cases items <;> rfl
  | cdr =>
      simp only [compute, oneArgument_map]
      cases cdr.oneArgument arguments with
      | error fault => rfl
      | ok argument =>
          simp only [map_ok, ok_bind, itemsOf_renumber]
          cases cdr.itemsOf depth argument with
          | error fault => rfl
          | ok items => simp [List.map_tail]
  | cons =>
      simp only [compute, twoArguments_map]
      cases cons.twoArguments arguments with
      | error fault => rfl
      | ok pair =>
          simp only [map_ok, ok_bind, Prod.map_fst, Prod.map_snd, itemsOf_renumber]
          cases cons.itemsOf depth pair.2 with
          | error fault => rfl
          | ok items => simp
  | isNil | isTrue | isFalse => exact isLiteral_map _ _ arguments
  | add =>
      simp only [compute, numbers_map]
      cases add.numbers depth arguments with
      | error fault => rfl
      | ok values =>
          simp only [map_ok, ok_bind, sum_map]
          cases sum values <;> rfl
  | sub =>
      simp only [compute, numbers_map]
      cases sub.numbers depth arguments with
      | error fault => rfl
      | ok values =>
          simp only [map_ok, ok_bind, difference_map]
          cases difference values <;> rfl
  | equal =>
      simp only [compute, compare_map separates depth within]
      cases compare depth arguments <;> rfl
  | println => exact oneArgument_map _ arguments

theorem call_map {allowed : Reference → Prop} (separates : renumbering.Separates allowed)
    (depth : Nat) (procedure : Builtin) {arguments : List Value}
    (within : ∀ argument ∈ arguments, argument.Within allowed) :
    procedure.call depth (arguments.map (Value.renumber renumbering)) =
      (procedure.call depth arguments).map (PrimitiveResult.renumber renumbering) := by
  simp only [call, compute_map separates depth procedure within]
  cases procedure.compute depth arguments with
  | error fault => rfl
  | ok value =>
      simp only [map_ok, ok_bind, Value.textWithin_renumber]
      cases procedure with
      | println => cases value.textWithin depth .display <;> rfl
      | _ => rfl

end Builtin

/-- A primitive procedure does the same to values with other numbers. -/
theorem Primitive.call_map {allowed : Reference → Prop} (separates : renumbering.Separates allowed)
    (depth : Nat) (procedure : Primitive) {arguments : List Value}
    (within : ∀ argument ∈ arguments, argument.Within allowed) :
    procedure.call depth (arguments.map (Value.renumber renumbering)) =
      (procedure.call depth arguments).map (PrimitiveResult.renumber renumbering) := by
  cases procedure with
  | builtin procedure => exact procedure.call_map separates depth within
  | failing => rfl

end TinyLisp
