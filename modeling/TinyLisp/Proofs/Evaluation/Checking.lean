import TinyLisp.Proofs.Evaluation.Arity
import TinyLisp.Proofs.Evaluation.Shapes

/-!
# Checks before evaluation

The operands of a special form are checked before any of them is evaluated. A form with operands of
the right shape fails only if evaluating one of them does, or if `set!` finds nothing to assign to
once it has the value. The check of a `defn` is spread over the `def` and the `fn` it stands for.
-/

namespace TinyLisp

namespace SpecialForm

/-- The operands have the shape that a special form asks for. A string describes a function only in
front of its parameters. A `cond` has clauses of its own kind and is left out here. -/
inductive Fits : SpecialForm → List Value → Prop
  | quote (form : Value) : Fits .quote [form]
  | assignment (name : Name) (form : Value) : Fits .assignment [.symbol name, form]
  | definition (name : Name) (form : Value) : Fits .definition [.symbol name, form]
  | shortCondition (test consequent : Value) : Fits .condition [test, consequent]
  | fullCondition (test consequent alternative : Value) :
      Fits .condition [test, consequent, alternative]
  | function (identity : Option Identity) {parameters body : List Value}
      (symbols : ∀ parameter ∈ parameters, ∃ name, parameter = .symbol name) (filled : body ≠ []) :
      Fits .function (.sequence identity .square parameters :: body)
  | functionDefinition (name : Name) {function : List Value} (fits : Fits .function function) :
      Fits .functionDefinition (.symbol name :: function)
  | describedDefinition (name : Name) (description : String) {function : List Value}
      (fits : Fits .function function) :
      Fits .functionDefinition (.symbol name :: .string description :: function)
  | sequence (form : Value) (rest : List Value) : Fits .sequence (form :: rest)

end SpecialForm

namespace ShapedForm

open SpecialForm

variable {depth : Nat} {operands : List Value}

/-- The check of operands fails on their shape, unless the budget is too small to say so. -/
def Rejects (special : SpecialForm) (operands : List Value) : Prop :=
  ∃ cause : ShapeFault, Settles (fun depth => ofOperands depth special operands)
    (.error .depthExceeded) (.error (.shape cause))

theorem settles_ofNameAndForm (make : Value → Value → ShapedForm) (count : ShapeFault)
    (notSymbol : String → ShapeFault) (plain : ∀ operand ∈ operands, operand.Plain)
    (unfit : ∀ name form, operands ≠ [.symbol name, form]) :
    ∃ cause : ShapeFault,
      Settles (fun depth => ofNameAndForm depth make count notSymbol operands)
        (.error .depthExceeded) (.error (.shape cause)) := by
  match operands with
  | [name, form] =>
      cases name with
      | symbol name => exact absurd rfl (unfit name form)
      | _ =>
          obtain ⟨text, settles⟩ :=
            (plain _ List.mem_cons_self).settles_showing .inspected (.shape ∘ notSymbol)
          exact ⟨notSymbol text, settles.map Except.error⟩
  | [] | [_] | _ :: _ :: _ :: _ => exact ⟨count, .const _ _⟩

theorem rejects_function (plain : ∀ operand ∈ operands, operand.Plain)
    (unfit : ¬ Fits .function operands) : Rejects .function operands := by
  cases operands with
  | nil => exact ⟨.noParameters, .const _ _⟩
  | cons head body =>
      have head_plain := plain head List.mem_cons_self
      have notVector (settles : ∀ depth, ofOperands depth .function (head :: body) =
          .error (Fault.showing depth .inspected head (.shape ∘ .parametersNotVector))) :
          Rejects .function (head :: body) := by
        obtain ⟨text, shows⟩ :=
          head_plain.settles_showing .inspected (.shape ∘ .parametersNotVector)
        refine ⟨.parametersNotVector text, ?_⟩
        simp only [settles]
        exact shows.map Except.error
      cases head with
      | sequence identity bracket parameters =>
          cases bracket with
          | round => exact notVector fun _ => rfl
          | square =>
              cases found : parameters.find? (!isSymbol ·) with
              | some parameter =>
                  have member := List.mem_of_find?_eq_some found
                  obtain ⟨text, shows⟩ := (head_plain.items parameter member).settles_showing
                    .inspected (.shape ∘ .parameterNotSymbol)
                  refine ⟨.parameterNotSymbol text, ?_⟩
                  simp only [ofOperands, ofFunction, found]
                  exact shows.map Except.error
              | none =>
                  have symbols (parameter : Value) (member : parameter ∈ parameters) :
                      ∃ name, parameter = .symbol name := by
                    have symbol := List.find?_eq_none.mp found parameter member
                    exact eq_symbol_of_isSymbol (by simpa using symbol)
                  cases body with
                  | nil =>
                      refine ⟨.noBody, ?_⟩
                      simp only [ofOperands, ofFunction, found]
                      exact .const _ _
                  | cons form rest =>
                      exact absurd (.function identity symbols (List.cons_ne_nil _ _)) unfit
      | _ => exact notVector fun _ => rfl

/-- Of the forms that stand for themselves, each rejects operands that do not fit. -/
theorem rejects_of_not_fits {special : SpecialForm} (plain : ∀ operand ∈ operands, operand.Plain)
    (unfit : ¬ special.Fits operands) (direct : special ≠ .functionDefinition)
    (ordinary : special ≠ .clauses) (unordered : special ≠ .sequence) :
    Rejects special operands := by
  cases special with
  | quote =>
      match operands with
      | [form] => exact absurd (.quote form) unfit
      | [] | _ :: _ :: _ => exact ⟨.quoteOperands, .const _ _⟩
  | assignment =>
      refine settles_ofNameAndForm _ _ _ plain ?_
      rintro name form rfl
      exact unfit (.assignment name form)
  | definition =>
      refine settles_ofNameAndForm _ _ _ plain ?_
      rintro name form rfl
      exact unfit (.definition name form)
  | condition =>
      match operands with
      | [test, consequent] => exact absurd (.shortCondition test consequent) unfit
      | [test, consequent, alternative] =>
          exact absurd (.fullCondition test consequent alternative) unfit
      | [] | [_] | _ :: _ :: _ :: _ :: _ => exact ⟨.conditionOperands, .const _ _⟩
  | function => exact rejects_function plain unfit
  | functionDefinition => exact absurd rfl direct
  | clauses => exact absurd rfl ordinary
  | sequence => exact absurd rfl unordered

theorem ofFunction_of_symbols (identity : Option Identity) {parameters body : List Value}
    (symbols : ∀ parameter ∈ parameters, ∃ name, parameter = .symbol name) (filled : body ≠ [])
    (depth : Nat) :
    ofOperands depth .function (.sequence identity .square parameters :: body) =
      .ok (.function parameters body) := by
  have none : parameters.find? (!isSymbol ·) = none := by
    rw [List.find?_eq_none]
    intro parameter member
    obtain ⟨name, rfl⟩ := symbols parameter member
    simp [isSymbol]
  cases body with
  | nil => exact absurd rfl filled
  | cons form rest =>
      simp only [ofOperands, ofFunction, none]
      rfl

end ShapedForm

namespace Evaluation

open SpecialForm

/-- The activation evaluates one of some forms. -/
def Evaluates (forms : List Value) (activation : Activation) : Prop :=
  ∃ form ∈ forms, ∃ frame, activation = .form form frame

/-- The outcome of a definition, given that of the form that it evaluates. -/
def afterDefinition (frame : Nat) (name : Name) :
    Except Fault Value × Session → Except Fault Value × Session
  | (.ok value, after) =>
      (.ok (.named "ok"), { after with heap := after.heap.write frame name value })
  | (.error fault, after) => (.error fault, after)

variable {barred : Activation → Session → Prop} {fault : Fault} {frame : Nat} {session : Session}
  {outcome : Except Fault Value × Session} {identity : Option Identity} {head : Value}
  {operands : List Value} {special : SpecialForm}

theorem outcome_definition (depth : Nat) (run : Activation → Run Value) (name : Name)
    (form : Value) (frame : Nat) (session : Session) :
    (perform depth run (.definition (.symbol name) form) frame).outcome session =
      afterDefinition frame name ((run (.form form frame)).outcome session) := by
  rw [perform, Run.outcome_bind]
  generalize (run (.form form frame)).outcome session = ended
  obtain ⟨result, after⟩ := ended
  cases result <;> rfl

theorem EndsIn.definition {name : Name} {form : Value}
    (ends : EndsIn barred fault (.form form frame) session outcome)
    (heads : ofHead? head = some .definition)
    (spared : ¬ barred (.form (.sequence identity .round [head, .symbol name, form]) frame) session)
    (spared' : ¬ barred (.special .definition [.symbol name, form] frame) session) :
    EndsIn barred fault (.form (.sequence identity .round [head, .symbol name, form]) frame)
      session (afterDefinition frame name outcome) := by
  refine EndsIn.form (ends_of_shaped spared' (fun _ => rfl) ?_) heads spared
  simp only [outcome_definition]
  exact ends.map (afterDefinition frame name)

theorem endsIn_function (heads : ofHead? head = some .function) (fits : Fits .function operands)
    (frame : Nat) (session : Session) :
    ∃ closure after, EndsIn (fun _ _ => False) .depthExceeded
      (.form (.sequence identity .round (head :: operands)) frame) session (.ok closure, after) := by
  cases fits with
  | @function _ parameters body symbols filled =>
      have shape := ShapedForm.ofFunction_of_symbols
      refine ⟨.closure session.objectsMade parameters body frame,
        { session with objectsMade := session.objectsMade + 1 }, ?_⟩
      exact (ends_of_shaped not_false (shape _ symbols filled) (.const _ _)).form heads not_false

theorem endsIn_rejected (rejects : ShapedForm.Rejects special operands)
    (heads : ofHead? head = some special) (frame : Nat) (session : Session) :
    ∃ cause : ShapeFault, ∀ barred fault,
      ¬ barred (.form (.sequence identity .round (head :: operands)) frame) session →
        ¬ barred (.special special operands frame) session →
          EndsIn barred fault (.form (.sequence identity .round (head :: operands)) frame) session
            (.error (.shape cause), session) := by
  obtain ⟨cause, settles⟩ := rejects
  exact ⟨cause, fun _ _ spared spared' => (ends_of_malformed spared' settles).form heads spared⟩

/-- The `fn` that a `defn` stands for, without the name. -/
def functionForm (function : List Value) : Value := .list (.named "fn" :: function)

/-- The `def` that a `defn` stands for. -/
def definitionForm (name : Value) (function : List Value) : Value :=
  .list [.named "def", name, functionForm function]

theorem fits_functionDefinition_iff {name : Value} :
    Fits .functionDefinition (name :: operands) ↔
      (∃ symbol, name = .symbol symbol) ∧ Fits .function (dropDescription operands) := by
  constructor
  · intro fits
    cases fits with
    | functionDefinition symbol fits =>
        have itself : dropDescription operands = operands := by cases fits; rfl
        exact ⟨⟨symbol, rfl⟩, itself.symm ▸ fits⟩
    | @describedDefinition symbol description function fits =>
        have dropped : dropDescription (.string description :: function) = function := by
          cases fits
          rfl
        exact ⟨⟨symbol, rfl⟩, dropped.symm ▸ fits⟩
  · rintro ⟨⟨symbol, rfl⟩, fits⟩
    unfold dropDescription at fits
    split at fits
    · exact .describedDefinition symbol _ fits
    · exact .functionDefinition symbol fits

theorem mem_dropDescription {form : Value} (member : form ∈ operands) :
    (∃ text, form = .string text) ∨ form ∈ dropDescription operands := by
  unfold dropDescription
  split
  · rcases List.mem_cons.mp member with rfl | rest
    · exact .inl ⟨_, rfl⟩
    · exact .inr rest
  · exact .inr member

theorem sizeOf_lt_functionForm {function : List Value} {form : Value} (member : form ∈ function) :
    sizeOf form < sizeOf (functionForm function) := by
  have within := List.sizeOf_lt_of_mem member
  simp only [functionForm, Value.list, Value.sequence.sizeOf_spec, List.cons.sizeOf_spec]
  omega

/-- The forms that a `defn` stands for are not among its operands, which they contain. -/
theorem functionForm_notMem {name : Name} :
    functionForm (dropDescription operands) ∉ Value.symbol name :: operands := by
  intro member
  rcases List.mem_cons.mp member with same | among
  · cases same
  · rcases mem_dropDescription among with ⟨text, same⟩ | left
    · cases same
    · exact absurd (sizeOf_lt_functionForm left) (Nat.lt_irrefl _)

theorem definitionForm_notMem {name : Value} :
    definitionForm name (dropDescription operands) ∉ name :: operands := by
  have inner : sizeOf name + sizeOf (functionForm (dropDescription operands)) <
      sizeOf (definitionForm name (dropDescription operands)) := by
    simp only [definitionForm, Value.list, Value.sequence.sizeOf_spec, List.cons.sizeOf_spec]
    omega
  intro member
  rcases List.mem_cons.mp member with same | among
  · rw [same] at inner
    omega
  · rcases mem_dropDescription among with ⟨text, same⟩ | left
    · cases same
    · have outer := sizeOf_lt_functionForm left
      omega

theorem form_notMem : Value.sequence identity .round (head :: operands) ∉ operands := by
  intro member
  have within := List.sizeOf_lt_of_mem member
  simp only [Value.sequence.sizeOf_spec, List.cons.sizeOf_spec] at within
  omega

theorem functionForm_plain (plain : ∀ operand ∈ operands, operand.Plain) :
    (functionForm operands).Plain :=
  .sequence none .round (List.forall_mem_cons.mpr ⟨.symbol _, plain⟩)

/-- Nothing is watched for but the evaluation of operands. -/
def Spares (barred : Activation → Session → Prop) (operands : List Value) (session : Session) :
    Prop :=
  ∀ activation, barred activation session → Evaluates operands activation

theorem Spares.form (spares : Spares barred operands session) {form : Value}
    (outside : form ∉ operands) : ¬ barred (.form form frame) session := by
  intro hit
  obtain ⟨operand, member, inner, same⟩ := spares _ hit
  cases same
  exact outside member

theorem Spares.check (spares : Spares barred operands session) {forms : List Value} :
    ¬ barred (.special special forms frame) session := by
  intro hit
  obtain ⟨operand, -, inner, same⟩ := spares _ hit
  cases same

theorem Spares.sequence (spares : Spares barred operands session) {forms : List Value} :
    ¬ barred (.sequence forms frame) session := by
  intro hit
  obtain ⟨operand, -, inner, same⟩ := spares _ hit
  cases same

theorem endsIn_expansion (heads : ofHead? head = some .functionDefinition) {name : Value}
    {function : List Value} (described : dropDescription operands = function)
    (filled : function ≠ []) (spares : Spares barred (name :: operands) session)
    (ends : EndsIn barred fault (.form (definitionForm name function) frame) session outcome) :
    EndsIn barred fault (.form (.sequence identity .round (head :: name :: operands)) frame) session
      outcome := by
  cases function with
  | nil => exact absurd rfl filled
  | cons parameters body =>
      have shape (depth : Nat) : ShapedForm.ofOperands depth .functionDefinition
          (name :: operands) = .ok (.expansion (definitionForm name (parameters :: body))) := by
        simp only [ShapedForm.ofOperands, expandFunction, described]
        rfl
      exact EndsIn.form (ends_of_shaped spares.check shape ends) heads (spares.form form_notMem)

theorem endsIn_malformed_function (heads : ofHead? head = some .functionDefinition)
    (plain : ∀ operand ∈ operands, operand.Plain) (unfit : ¬ Fits .functionDefinition operands)
    (frame : Nat) (session : Session) :
    ∃ cause : ShapeFault, ∀ barred fault, Spares barred operands session →
      EndsIn barred fault (.form (.sequence identity .round (head :: operands)) frame) session
        (.error (.shape cause), session) := by
  have rejected (rejects : ShapedForm.Rejects .functionDefinition operands) :
      ∃ cause : ShapeFault, ∀ barred fault, Spares barred operands session →
        EndsIn barred fault (.form (.sequence identity .round (head :: operands)) frame) session
          (.error (.shape cause), session) := by
    obtain ⟨cause, ends⟩ := @endsIn_rejected identity head operands _ rejects heads frame session
    exact ⟨cause, fun barred fault spares =>
      ends barred fault (spares.form form_notMem) spares.check⟩
  cases operands with
  | nil => exact rejected ⟨.functionName, .const _ _⟩
  | cons name operands =>
      rw [List.forall_mem_cons] at plain
      cases described : dropDescription operands with
      | nil =>
          obtain ⟨text, shows⟩ := plain.1.settles_showing .shown (.shape ∘ .functionParameters)
          refine rejected ⟨.functionParameters text, ?_⟩
          simp only [ShapedForm.ofOperands, expandFunction, described]
          exact shows.map Except.error
      | cons parameters body =>
          have parts (form : Value) (member : form ∈ parameters :: body) : form.Plain :=
            plain.2 form (mem_of_mem_dropDescription (described ▸ member))
          have filled : parameters :: body ≠ [] := List.cons_ne_nil _ _
          have defHeads : ofHead? (.named "def") = some .definition := rfl
          have fnHeads : ofHead? (.named "fn") = some .function := rfl
          rw [fits_functionDefinition_iff, described] at unfit
          by_cases symbol : ∃ symbol, name = .symbol symbol
          · -- The `def` has a name, so it gets to the `fn`, which is malformed.
            obtain ⟨symbol, rfl⟩ := symbol
            have rejects := ShapedForm.rejects_function parts fun fits => unfit ⟨⟨_, rfl⟩, fits⟩
            obtain ⟨cause, ends⟩ := @endsIn_rejected none _ _ _ rejects fnHeads frame session
            refine ⟨cause, fun barred fault spares => ?_⟩
            have inner := ends barred fault
              (spares.form (described ▸ functionForm_notMem)) spares.check
            have outer := EndsIn.definition inner defHeads
              (spares.form (described ▸ definitionForm_notMem)) spares.check
            exact endsIn_expansion heads described filled spares outer
          · -- The `def` has no name and fails before it gets to the `fn`.
            have operandsPlain (form : Value)
                (member : form ∈ [name, functionForm (parameters :: body)]) : form.Plain := by
              rcases List.mem_cons.mp member with rfl | last
              · exact plain.1
              · exact List.mem_singleton.mp last ▸ functionForm_plain parts
            have unfit : ¬ Fits .definition [name, functionForm (parameters :: body)] := by
              rintro ⟨⟩
              exact symbol ⟨_, rfl⟩
            have rejects := ShapedForm.rejects_of_not_fits operandsPlain unfit (by decide)
              (by decide) (by decide)
            obtain ⟨cause, ends⟩ := @endsIn_rejected none _ _ _ rejects defHeads frame session
            refine ⟨cause, fun barred fault spares => ?_⟩
            have inner := ends barred fault
              (spares.form (described ▸ definitionForm_notMem)) spares.check
            exact endsIn_expansion heads described filled spares inner

/-- A special form whose operands do not fit is an error of its shape. Nothing has changed by then,
and no operand has been evaluated. -/
theorem endsIn_malformed (heads : ofHead? head = some special) (ordinary : special ≠ .clauses)
    (plain : ∀ operand ∈ operands, operand.Plain) (unfit : ¬ special.Fits operands) (frame : Nat)
    (session : Session) :
    ∃ cause : ShapeFault, ∀ barred fault, Spares barred operands session →
      EndsIn barred fault (.form (.sequence identity .round (head :: operands)) frame) session
        (.error (.shape cause), session) := by
  by_cases defn : special = .functionDefinition
  · subst defn
    exact endsIn_malformed_function heads plain unfit frame session
  by_cases ordered : special = .sequence
  · subst ordered
    cases operands with
    | nil =>
        refine ⟨.emptySequence, fun barred fault spares => ?_⟩
        have empty : EndsIn barred fault (.sequence [] frame) session
            (.error (.shape .emptySequence), session) :=
          ends_of_step spares.sequence (.const _ _)
        have shape (depth : Nat) :
            ShapedForm.ofOperands depth .sequence [] = .ok (.sequence []) := rfl
        exact EndsIn.form (ends_of_shaped spares.check shape empty) heads (spares.form form_notMem)
    | cons form rest => exact absurd (.sequence form rest) unfit
  · have rejects := ShapedForm.rejects_of_not_fits plain unfit defn ordinary ordered
    obtain ⟨cause, ends⟩ := @endsIn_rejected identity head operands _ rejects heads frame session
    exact ⟨cause, fun barred fault spares =>
      ends barred fault (spares.form form_notMem) spares.check⟩

theorem endsIn_functionDefinition (heads : ofHead? head = some .functionDefinition) {name : Value}
    (fits : Fits .functionDefinition (name :: operands)) (frame : Nat) (session : Session) :
    ∃ value after, EndsIn (fun _ _ => False) .depthExceeded
      (.form (.sequence identity .round (head :: name :: operands)) frame) session
      (.ok value, after) := by
  obtain ⟨⟨symbol, rfl⟩, functionFits⟩ := fits_functionDefinition_iff.mp fits
  have filled : dropDescription operands ≠ [] := by
    intro nothing
    rw [nothing] at functionFits
    cases functionFits
  have fnHeads : ofHead? (.named "fn") = some .function := rfl
  have defHeads : ofHead? (.named "def") = some .definition := rfl
  obtain ⟨closure, after, made⟩ := @endsIn_function none _ _ fnHeads functionFits frame session
  refine ⟨.named "ok", { after with heap := after.heap.write frame symbol closure }, ?_⟩
  refine endsIn_expansion heads rfl filled nofun ?_
  exact EndsIn.definition made defHeads not_false not_false

/-- Forms that evaluate no operand of theirs do not fail if their operands fit. -/
theorem endsIn_succeeds (heads : ofHead? head = some special) (fits : special.Fits operands)
    (unevaluated : special ∈ [.quote, .function, .functionDefinition]) (frame : Nat)
    (session : Session) :
    ∃ value after, EndsIn (fun _ _ => False) .depthExceeded
      (.form (.sequence identity .round (head :: operands)) frame) session (.ok value, after) := by
  cases fits with
  | quote form =>
      have shape (depth : Nat) :
          ShapedForm.ofOperands depth .quote [form] = .ok (.quote form) := rfl
      refine ⟨form, session, EndsIn.form ?_ heads not_false⟩
      exact ends_of_shaped not_false shape (.const _ _)
  | function identity symbols filled =>
      exact endsIn_function heads (.function identity symbols filled) frame session
  | functionDefinition name fits =>
      exact endsIn_functionDefinition heads (.functionDefinition name fits) frame session
  | describedDefinition name description fits =>
      exact endsIn_functionDefinition heads (.describedDefinition name description fits) frame
        session
  | _ => simp at unevaluated

end Evaluation

end TinyLisp
