import TinyLisp.SpecialForm
import TinyLisp.Proofs.Outcome

/-!
# Shapes of special forms

The operands of a special form have one of a few shapes, and nothing else is accepted. The message
that others are refused with shows one of them, or none. What a form expands to is made of its
operands and of a few symbols and literals.
-/

namespace TinyLisp

/-- Special forms are headed by symbols without a namespace. -/
theorem SpecialForm.named_of_ofHead? {head : Value} {special : SpecialForm}
    (heads : ofHead? head = some special) :
    ∃ base, head = .named base ∧ ofBase? base = some special := by
  unfold ofHead? at heads
  split at heads
  · next name =>
      obtain ⟨unqualified, known⟩ := Option.ite_none_right_eq_some.mp heads
      obtain ⟨base, qualifier⟩ := name
      obtain rfl : qualifier = "" := by simpa using unqualified
      exact ⟨base, rfl, known⟩
  · cases heads

theorem SpecialForm.eq_defn_of_ofHead? {head : Value}
    (heads : ofHead? head = some .functionDefinition) : head = .named "defn" := by
  obtain ⟨base, rfl, known⟩ := named_of_ofHead? heads
  unfold ofBase? at known
  split at known <;> cases known
  rfl

namespace ShapedForm

/-- The operands that have a shape, and what they are then taken for. -/
inductive Reads : SpecialForm → List Value → ShapedForm → Prop
  | quote (form : Value) : Reads .quote [form] (.quote form)
  | assignment (name : Name) (form : Value) :
      Reads .assignment [.symbol name, form] (.assignment (.symbol name) form)
  | definition (name : Name) (form : Value) :
      Reads .definition [.symbol name, form] (.definition (.symbol name) form)
  | shortCondition (test consequent : Value) :
      Reads .condition [test, consequent] (.condition test consequent none)
  | fullCondition (test consequent alternative : Value) :
      Reads .condition [test, consequent, alternative]
        (.condition test consequent (some alternative))
  | function (identity : Option Identity) {parameters body : List Value}
      (symbols : ∀ parameter ∈ parameters, ∃ name, parameter = .symbol name) (filled : body ≠ []) :
      Reads .function (.sequence identity .square parameters :: body) (.function parameters body)
  | sequence (forms : List Value) : Reads .sequence forms (.sequence forms)
  | functionDefinition {name parameters : Value} {operands body : List Value}
      (described : dropDescription operands = parameters :: body) :
      Reads .functionDefinition (name :: operands)
        (.expansion (.list [.named "def", name, .list (.named "fn" :: parameters :: body)]))
  | clauses {operands : List Value} {form : Value} (expands : expandClauses operands = .ok form) :
      Reads .clauses operands (.expansion form)

theorem eq_symbol_of_isSymbol {value : Value} (symbol : isSymbol value) :
    ∃ name, value = .symbol name := by
  cases value <;> first | exact ⟨_, rfl⟩ | cases symbol

theorem reads_function {depth : Nat} {operands : List Value} {shaped : ShapedForm}
    (shape : ofFunction depth operands = .ok shaped) : Reads .function operands shaped := by
  unfold ofFunction at shape
  split at shape
  · cases shape
  · next identity parameters body =>
      split at shape
      · cases shape
      · next symbols =>
          split at shape
          · cases shape
          · next filled =>
              cases shape
              refine .function identity (fun parameter member => ?_) (by simpa using filled)
              have symbol := List.find?_eq_none.mp symbols parameter member
              exact eq_symbol_of_isSymbol (by simpa using symbol)
  · cases shape

theorem ofNameAndForm_eq_ok {depth : Nat} {make : Value → Value → ShapedForm} {count : ShapeFault}
    {notSymbol : String → ShapeFault} {operands : List Value} {shaped : ShapedForm}
    (shape : ofNameAndForm depth make count notSymbol operands = .ok shaped) :
    ∃ name form, operands = [.symbol name, form] ∧ shaped = make (.symbol name) form := by
  unfold ofNameAndForm at shape
  split at shape
  · split at shape
    · cases shape
      exact ⟨_, _, rfl, rfl⟩
    · cases shape
  · cases shape

/-- Operands that are accepted have one of the shapes. -/
theorem reads_of_ofOperands {depth : Nat} {special : SpecialForm} {operands : List Value}
    {shaped : ShapedForm} (shape : ofOperands depth special operands = .ok shaped) :
    Reads special operands shaped := by
  cases special with
  | quote =>
      simp only [ofOperands] at shape
      split at shape <;> cases shape
      exact .quote _
  | assignment =>
      obtain ⟨name, form, rfl, rfl⟩ := ofNameAndForm_eq_ok shape
      exact .assignment name form
  | definition =>
      obtain ⟨name, form, rfl, rfl⟩ := ofNameAndForm_eq_ok shape
      exact .definition name form
  | functionDefinition =>
      simp only [ofOperands, expandFunction] at shape
      split at shape
      · cases shape
      · split at shape
        · cases shape
        · next described =>
            cases shape
            exact .functionDefinition described
  | condition =>
      simp only [ofOperands, ofCondition] at shape
      split at shape <;> cases shape
      · exact .shortCondition _ _
      · exact .fullCondition _ _ _
  | function => exact reads_function shape
  | sequence =>
      cases shape
      exact .sequence operands
  | clauses =>
      simp only [ofOperands] at shape
      cases expands : expandClauses operands with
      | ok form =>
          rw [expands] at shape
          cases shape
          exact .clauses expands
      | error fault =>
          rw [expands] at shape
          cases shape

/-- The faults that operands without the right shape are refused with, and which of them a message
shows. -/
inductive Refuses (depth : Nat) : SpecialForm → List Value → Fault → Prop
  | quote (operands : List Value) : Refuses depth .quote operands (.shape .quoteOperands)
  | assignment (operands : List Value) :
      Refuses depth .assignment operands (.shape .assignmentOperands)
  | assignmentTarget (target form : Value) :
      Refuses depth .assignment [target, form]
        (Fault.showing depth .inspected target (.shape ∘ .assignmentTarget))
  | definition (operands : List Value) :
      Refuses depth .definition operands (.shape .definitionOperands)
  | definitionName (name form : Value) :
      Refuses depth .definition [name, form]
        (Fault.showing depth .inspected name (.shape ∘ .definitionName))
  | functionName : Refuses depth .functionDefinition [] (.shape .functionName)
  | functionParameters (name : Value) :
      Refuses depth .functionDefinition [name]
        (Fault.showing depth .shown name (.shape ∘ .functionParameters))
  | condition (operands : List Value) :
      Refuses depth .condition operands (.shape .conditionOperands)
  | noParameters : Refuses depth .function [] (.shape .noParameters)
  | parametersNotVector (parameters : Value) (body : List Value) :
      Refuses depth .function (parameters :: body)
        (Fault.showing depth .inspected parameters (.shape ∘ .parametersNotVector))
  | parameterNotSymbol (identity : Option Identity) {parameters : List Value} (body : List Value)
      {parameter : Value} (member : parameter ∈ parameters) :
      Refuses depth .function (.sequence identity .square parameters :: body)
        (Fault.showing depth .inspected parameter (.shape ∘ .parameterNotSymbol))
  | noBody (operands : List Value) : Refuses depth .function operands (.shape .noBody)
  | clauses {operands : List Value} {cause : ClauseFault}
      (failed : expandClauses operands = .error cause) :
      Refuses depth .clauses operands (.clauses cause)

theorem dropDescription_eq_nil {operands : List Value} (nothing : dropDescription operands = []) :
    operands = [] := by
  unfold dropDescription at nothing
  split at nothing
  · cases nothing
  · exact nothing

theorem refuses_function {depth : Nat} {operands : List Value} {fault : Fault}
    (failed : ofFunction depth operands = .error fault) :
    Refuses depth .function operands fault := by
  unfold ofFunction at failed
  split at failed
  · cases failed
    exact .noParameters
  · split at failed
    · next found =>
        cases failed
        exact .parameterNotSymbol _ _ (List.mem_of_find?_eq_some found)
    · split at failed <;> cases failed
      exact .noBody _
  · cases failed
    exact .parametersNotVector _ _

/-- Operands that are not accepted are refused with one of these faults. -/
theorem refuses_of_ofOperands {depth : Nat} {special : SpecialForm} {operands : List Value}
    {fault : Fault} (failed : ofOperands depth special operands = .error fault) :
    Refuses depth special operands fault := by
  cases special with
  | quote =>
      simp only [ofOperands] at failed
      split at failed <;> cases failed
      exact .quote operands
  | assignment =>
      simp only [ofOperands, ofNameAndForm] at failed
      split at failed
      · split at failed <;> cases failed
        exact .assignmentTarget _ _
      · cases failed
        exact .assignment operands
  | definition =>
      simp only [ofOperands, ofNameAndForm] at failed
      split at failed
      · split at failed <;> cases failed
        exact .definitionName _ _
      · cases failed
        exact .definition operands
  | functionDefinition =>
      simp only [ofOperands, expandFunction] at failed
      split at failed
      · cases failed
        exact .functionName
      · split at failed
        · next nothing =>
            cases failed
            obtain rfl := dropDescription_eq_nil nothing
            exact .functionParameters _
        · cases failed
  | condition =>
      simp only [ofOperands, ofCondition] at failed
      split at failed <;> cases failed
      exact .condition operands
  | function => exact refuses_function failed
  | sequence => cases failed
  | clauses =>
      simp only [ofOperands] at failed
      cases expands : expandClauses operands with
      | ok form =>
          rw [expands] at failed
          cases failed
      | error cause =>
          rw [expands] at failed
          cases failed
          exact .clauses expands

end ShapedForm

/-- What is left of operands without the description is still among them. -/
theorem mem_of_mem_dropDescription {operands : List Value} {form : Value}
    (member : form ∈ dropDescription operands) : form ∈ operands := by
  unfold dropDescription at member
  split at member
  · exact List.mem_cons_of_mem _ member
  · exact member

/-- A property of clauses is one of what they expand to if lists, literals and symbols that are made
on the way have it. -/
theorem expandClauses_closed {property : Value → Prop} (literal : property (Value.ofBool false))
    (choice : ∀ test consequent alternative, property test → property consequent →
      property alternative → property (.list [.named "if", test, consequent, alternative]))
    {clauses : List Value} {form : Value} (expands : expandClauses clauses = .ok form)
    (holds : ∀ clause ∈ clauses, property clause) : property form := by
  induction clauses using expandClauses.induct generalizing form with
  | case1 =>
      cases expands
      exact literal
  | case2 => cases expands
  | case3 predicate action rest ih =>
      rw [expandClauses] at expands
      obtain ⟨alternative, others, chosen⟩ := bind_eq_ok_iff.mp expands
      have left := ih others fun clause member => holds clause (by simp [member])
      split at chosen
      · split at chosen
        · cases chosen
          exact holds action (by simp)
        · cases chosen
      · cases chosen
        exact choice predicate action alternative (holds predicate (by simp))
          (holds action (by simp)) left

/-- A property of operands is one of what a special form expands to if new lists have it, and the
symbols and the literal that are made on the way. -/
theorem ShapedForm.Reads.expansion_closed {property : Value → Prop}
    (symbol : ∀ base ∈ ["def", "fn", "if"], property (.named base))
    (falsehood : property (Value.ofBool false))
    (list : ∀ items : List Value, (∀ item ∈ items, property item) → property (.list items))
    {special : SpecialForm} {operands : List Value} {form : Value}
    (reads : Reads special operands (.expansion form))
    (holds : ∀ operand ∈ operands, property operand) : property form := by
  cases reads with
  | @functionDefinition name parameters rest body described =>
      have parts (operand : Value) (member : operand ∈ parameters :: body) : property operand := by
        rw [← described] at member
        exact holds operand (List.mem_cons_of_mem _ (mem_of_mem_dropDescription member))
      have function : property (.list (.named "fn" :: parameters :: body)) :=
        list _ (List.forall_mem_cons.mpr ⟨symbol "fn" (by decide), parts⟩)
      refine list _ ?_
      simp [symbol "def" (by decide), holds name, function]
  | clauses expands =>
      refine expandClauses_closed falsehood ?_ expands holds
      intro test consequent alternative first second third
      refine list _ ?_
      simp [symbol "if" (by decide), first, second, third]

end TinyLisp
