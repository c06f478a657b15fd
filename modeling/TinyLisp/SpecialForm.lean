import TinyLisp.Heap

/-!
# Special forms

Lists headed by one of nine symbols have rules of their own. Reading the operands of such a form
either finds the form's shape or fails, before anything is evaluated. A `defn` stands for a `def`
of an `fn`, and a `cond` for nested `if` forms.
-/

namespace TinyLisp

/-- The special forms; a sequence has two names. -/
inductive SpecialForm where
  | quote
  | assignment
  | definition
  | functionDefinition
  | condition
  | function
  | sequence
  | clauses
  deriving DecidableEq, Inhabited

namespace SpecialForm

/-- The special form that a symbol's base name heads. -/
def ofBase? (base : String) : Option SpecialForm :=
  match base with
  | "quote" => some quote
  | "set!" => some assignment
  | "def" => some definition
  | "defn" => some functionDefinition
  | "if" => some condition
  | "fn" => some function
  | "do" | "begin" => some sequence
  | "cond" => some clauses
  | _ => none

/-- The special form that a list with this head is. Only symbols without a namespace head one. -/
def ofHead? : Value → Option SpecialForm
  | .symbol name => if name.qualifier.isEmpty then ofBase? name.base else none
  | _ => none

end SpecialForm

/-- Whether a predicate is the mark that selects the last clause of a `cond`. -/
def isElse (predicate : Value) : Bool :=
  match predicate with
  | .symbol name | .keyword name => name = .plain "else"
  | _ => false

/-- The clauses of a `cond` as nested `if` forms. The `else` mark may only be the last predicate;
without clauses the result is false. -/
def expandClauses : List Value → Except ClauseFault Value
  | [] => .ok (Value.ofBool false)
  | [_] => .error .oddCount
  | predicate :: action :: rest => do
      let alternative ← expandClauses rest
      if isElse predicate then
        if rest.isEmpty then return action else throw .elseNotLast
      else return .list [.named "if", predicate, action, alternative]

/-- The operands of a `defn` after its name, without the string that describes the function. Such
a string is one in front of a vector. -/
def dropDescription : List Value → List Value
  | .string _ :: .sequence identity .square parameters :: body =>
      .sequence identity .square parameters :: body
  | operands => operands

/-- A `defn` as the `def` of an `fn`. -/
def expandFunction (depth : Nat) : List Value → Except Fault Value
  | [] => .error (.shape .functionName)
  | name :: operands =>
      match dropDescription operands with
      | [] => .error (Fault.showing depth .shown name (.shape ∘ .functionParameters))
      | parameters :: body =>
          .ok (.list [.named "def", name, .list (.named "fn" :: parameters :: body)])

/-- A special form with operands of the right shape. -/
inductive ShapedForm where
  | quote (form : Value)
  | assignment (target form : Value)
  | definition (name form : Value)
  | condition (test consequent : Value) (alternative : Option Value)
  | function (parameters body : List Value)
  | sequence (forms : List Value)
  | expansion (form : Value)

namespace ShapedForm

/-- The shape of `(set! name form)` and `(def name form)`: a symbol and a form. -/
def ofNameAndForm (depth : Nat) (make : Value → Value → ShapedForm) (count : ShapeFault)
    (notSymbol : String → ShapeFault) : List Value → Except Fault ShapedForm
  | [name, form] =>
      match name with
      | .symbol _ => .ok (make name form)
      | _ => .error (Fault.showing depth .inspected name (.shape ∘ notSymbol))
  | _ => .error (.shape count)

/-- The shape of `(if test consequent alternative?)`. -/
def ofCondition : List Value → Except Fault ShapedForm
  | [test, consequent] => .ok (.condition test consequent none)
  | [test, consequent, alternative] => .ok (.condition test consequent (some alternative))
  | _ => .error (.shape .conditionOperands)

def isSymbol : Value → Bool
  | .symbol _ => true
  | _ => false

/-- The shape of `(fn [parameters] body)`: a vector of symbols and at least one form. -/
def ofFunction (depth : Nat) : List Value → Except Fault ShapedForm
  | [] => .error (.shape .noParameters)
  | .sequence _ .square parameters :: body =>
      match parameters.find? (!isSymbol ·) with
      | some parameter =>
          .error (Fault.showing depth .inspected parameter (.shape ∘ .parameterNotSymbol))
      | none =>
          if body.isEmpty then .error (.shape .noBody) else .ok (.function parameters body)
  | parameters :: _ =>
      .error (Fault.showing depth .inspected parameters (.shape ∘ .parametersNotVector))

def ofOperands (depth : Nat) (form : SpecialForm) (operands : List Value) :
    Except Fault ShapedForm :=
  match form with
  | .quote =>
      match operands with
      | [quoted] => .ok (.quote quoted)
      | _ => .error (.shape .quoteOperands)
  | .assignment =>
      ofNameAndForm depth .assignment .assignmentOperands .assignmentTarget operands
  | .definition => ofNameAndForm depth .definition .definitionOperands .definitionName operands
  | .functionDefinition => (expandFunction depth operands).map .expansion
  | .condition => ofCondition operands
  | .function => ofFunction depth operands
  | .sequence => .ok (.sequence operands)
  | .clauses => ((expandClauses operands).mapError .clauses).map .expansion

end ShapedForm

end TinyLisp
