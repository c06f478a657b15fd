import TinyLisp.Proofs.Value.Founded

/-!
# Code

Which forms can evaluation come to, starting from some source forms? Those parts of them that are
evaluated, and what special forms expand to. A part that is within a function is evaluated only in a
frame of that function, so every part has a level: the number of functions around it. Functions too
have the level of the place where they stand. Quoted data is not among the parts.
-/

namespace TinyLisp

/-- The operands of a special form that may be evaluated, with the body of a function. -/
def SpecialForm.evaluated (operands : List Value) : SpecialForm → List Value
  | quote => []
  | assignment | definition | function => operands.drop 1
  | functionDefinition => (dropDescription (operands.drop 1)).drop 1
  | condition | sequence | clauses => operands

theorem SpecialForm.evaluated_described {name parameters : Value} {operands body : List Value}
    (described : dropDescription operands = parameters :: body) :
    functionDefinition.evaluated (name :: operands) = body := by
  simp [evaluated, described]

namespace Value

/-- The parts of a form that may be evaluated, with the body of a function. -/
def evaluated : Value → List Value
  | .sequence _ .round (head :: operands) =>
      match SpecialForm.ofHead? head with
      | some special => special.evaluated operands
      | none => head :: operands
  | _ => []

/-- Whether a form makes a function of its parts. -/
def makesFunction : Value → Bool
  | .sequence _ .round (head :: _) =>
      SpecialForm.ofHead? head = some .function ∨
        SpecialForm.ofHead? head = some .functionDefinition
  | _ => false

/-- The level of the parts of a form that is at some level itself. -/
def innerLevel (form : Value) (level : Nat) : Nat :=
  if form.makesFunction then level + 1 else level

/-- A form occurs in another one where it may be evaluated, within a number of functions. -/
inductive Occurs (top : Value) : Nat → Value → Prop
  | here : Occurs top 0 top
  | part {level : Nat} {whole form : Value} (occurs : Occurs top level whole)
      (member : form ∈ whole.evaluated) : Occurs top (whole.innerLevel level) form

/-- A form that makes a function of some parameters and a body: an `fn`, or a `defn` that may
describe the function. -/
inductive MakesFunction (parameters body : List Value) : Value → Prop
  | function {identity vector : Option Identity} {head : Value}
      (heads : SpecialForm.ofHead? head = some .function) :
      MakesFunction parameters body
        (.sequence identity .round (head :: .sequence vector .square parameters :: body))
  | definition {identity vector : Option Identity} {head name : Value} {operands : List Value}
      (heads : SpecialForm.ofHead? head = some .functionDefinition)
      (described : dropDescription operands = .sequence vector .square parameters :: body) :
      MakesFunction parameters body (.sequence identity .round (head :: name :: operands))

end Value

open Value

/-- Some source form has an `fn` or `defn` with these parameters and this body in it, within a
number of functions. The parameters are symbols and there is a body. -/
structure FunctionAt (sources : Value → Prop) (level : Nat) (parameters body : List Value) :
    Prop where
  occurs : ∃ top form, sources top ∧ top.Occurs level form ∧ form.MakesFunction parameters body
  symbols : ∀ parameter ∈ parameters, ∃ name, parameter = .symbol name
  filled : body ≠ []

/-- Code from some source forms, within a number of functions: parts of them that may be evaluated,
and what is evaluated in place of a `cond`, a `defn` or a whole line. -/
inductive Code (sources : Value → Prop) : Nat → Value → Prop
  | occurrence {top form : Value} {level : Nat} (source : sources top)
      (occurs : top.Occurs level form) : Code sources level form
  | symbol (level : Nat) (name : Name) : Code sources level (.symbol name)
  | falsehood (level : Nat) : Code sources level (.ofBool false)
  | choice {level : Nat} {test consequent alternative : Value} (first : Code sources level test)
      (second : Code sources level consequent) (third : Code sources level alternative) :
      Code sources level (.list [.named "if", test, consequent, alternative])
  | line {level : Nat} {forms : List Value} (codes : ∀ form ∈ forms, Code sources level form) :
      Code sources level (.list (.named "do" :: forms))
  | function {top head name parameters : Value} {operands body : List Value} {level : Nat}
      {identity : Option Identity} (source : sources top)
      (occurs : top.Occurs level (.sequence identity .round (head :: name :: operands)))
      (heads : SpecialForm.ofHead? head = some .functionDefinition)
      (described : dropDescription operands = parameters :: body) :
      Code sources level (.list (.named "fn" :: parameters :: body))
  | definition {top head name parameters : Value} {operands body : List Value} {level : Nat}
      {identity : Option Identity} (source : sources top)
      (occurs : top.Occurs level (.sequence identity .round (head :: name :: operands)))
      (heads : SpecialForm.ofHead? head = some .functionDefinition)
      (described : dropDescription operands = parameters :: body) :
      Code sources level
        (.list [.named "def", name, .list (.named "fn" :: parameters :: body)])

namespace Value

theorem evaluated_special {identity : Option Identity} {head : Value} {operands : List Value}
    {special : SpecialForm} (heads : SpecialForm.ofHead? head = some special) :
    (Value.sequence identity .round (head :: operands)).evaluated = special.evaluated operands := by
  simp only [evaluated, heads]

theorem evaluated_ordinary {identity : Option Identity} {head : Value} {operands : List Value}
    (ordinary : SpecialForm.ofHead? head = none) :
    (Value.sequence identity .round (head :: operands)).evaluated = head :: operands := by
  simp only [evaluated, ordinary]

theorem innerLevel_special {identity : Option Identity} {head : Value} {operands : List Value}
    {special : SpecialForm} (heads : SpecialForm.ofHead? head = some special) (level : Nat) :
    (Value.sequence identity .round (head :: operands)).innerLevel level =
      if special = .function ∨ special = .functionDefinition then level + 1 else level := by
  simp only [innerLevel, makesFunction, heads, Option.some.injEq, decide_eq_true_eq]

theorem innerLevel_ordinary {identity : Option Identity} {head : Value} {operands : List Value}
    (ordinary : SpecialForm.ofHead? head = none) (level : Nat) :
    (Value.sequence identity .round (head :: operands)).innerLevel level = level := by
  simp [innerLevel, makesFunction, ordinary]

theorem mem_items_of_mem_evaluated {identity : Option Identity} {bracket : Bracket}
    {items : List Value} {form : Value}
    (member : form ∈ (Value.sequence identity bracket items).evaluated) : form ∈ items := by
  unfold evaluated at member
  split at member
  · next head operands same =>
      cases same
      split at member
      · next special heads =>
          apply List.mem_cons_of_mem
          cases special with
          | quote => cases member
          | assignment | definition | function => exact List.mem_of_mem_drop member
          | functionDefinition =>
              exact List.mem_of_mem_drop
                (mem_of_mem_dropDescription (List.mem_of_mem_drop member))
          | condition | sequence | clauses => exact member
      · exact member
  · cases member

/-- A property that sequences pass on to their items is one of everything that occurs in a form. -/
theorem Occurs.closed {property : Value → Prop}
    (items : ∀ {identity bracket items}, property (.sequence identity bracket items) →
      ∀ item ∈ items, property item)
    {top form : Value} {level : Nat} (occurs : top.Occurs level form) (holds : property top) :
    property form := by
  induction occurs with
  | here => exact holds
  | @part level whole form occurs member ih =>
      cases whole with
      | sequence identity bracket parts =>
          exact items ih form (mem_items_of_mem_evaluated member)
      | _ => cases member

end Value

variable {sources : Value → Prop} {level : Nat}

namespace Code

/-- The parts of code are code, one level up in a function. -/
theorem evaluated {form : Value} (code : Code sources level form) :
    ∀ part ∈ form.evaluated, Code sources (form.innerLevel level) part := by
  intro part member
  cases code with
  | occurrence source occurs => exact .occurrence source (occurs.part member)
  | symbol | falsehood => cases member
  | choice first second third =>
      have heads : SpecialForm.ofHead? (.named "if") = some .condition := rfl
      rw [Value.list, evaluated_special heads] at member
      rw [Value.list, innerLevel_special heads, if_neg (by decide)]
      simp only [SpecialForm.evaluated, List.mem_cons, List.not_mem_nil, or_false] at member
      rcases member with rfl | rfl | rfl
      · exact first
      · exact second
      · exact third
  | line codes =>
      have heads : SpecialForm.ofHead? (.named "do") = some .sequence := rfl
      rw [Value.list, evaluated_special heads] at member
      rw [Value.list, innerLevel_special heads, if_neg (by decide)]
      exact codes part member
  | function source occurs definitionHeads described =>
      have heads : SpecialForm.ofHead? (.named "fn") = some .function := rfl
      rw [Value.list, evaluated_special heads] at member
      rw [Value.list, innerLevel_special heads, if_pos (.inl rfl)]
      have within := occurs.part (evaluated_special definitionHeads ▸
        (SpecialForm.evaluated_described described).symm ▸ member)
      rw [innerLevel_special definitionHeads, if_pos (.inr rfl)] at within
      exact .occurrence source within
  | definition source occurs definitionHeads described =>
      have heads : SpecialForm.ofHead? (.named "def") = some .definition := rfl
      rw [Value.list, evaluated_special heads] at member
      rw [Value.list, innerLevel_special heads, if_neg (by decide)]
      obtain rfl := List.mem_singleton.mp member
      exact .function source occurs definitionHeads described

/-- The operands of a special form that are evaluated are code, one level up in a function. -/
theorem operands {identity : Option Identity} {head : Value} {operands : List Value}
    {special : SpecialForm}
    (code : Code sources level (.sequence identity .round (head :: operands)))
    (heads : SpecialForm.ofHead? head = some special) :
    ∀ part ∈ special.evaluated operands,
      Code sources
        (if special = .function ∨ special = .functionDefinition then level + 1 else level)
        part := by
  have parts := code.evaluated
  rwa [evaluated_special heads, innerLevel_special heads] at parts

/-- Code that is made when a special form is expanded is headed by a special form of four kinds;
other special forms occur in source forms. -/
theorem occurs_of_heads {identity : Option Identity} {head : Value} {operands : List Value}
    {special : SpecialForm}
    (code : Code sources level (.sequence identity .round (head :: operands)))
    (heads : SpecialForm.ofHead? head = some special)
    (other : special ≠ .condition ∧ special ≠ .sequence ∧ special ≠ .function ∧
      special ≠ .definition) :
    ∃ top, sources top ∧ top.Occurs level (.sequence identity .round (head :: operands)) := by
  obtain ⟨condition, sequence, function, definition⟩ := other
  cases code with
  | occurrence source occurs => exact ⟨_, source, occurs⟩
  | choice => exact absurd (Option.some.inj heads).symm condition
  | line => exact absurd (Option.some.inj heads).symm sequence
  | function => exact absurd (Option.some.inj heads).symm function
  | definition => exact absurd (Option.some.inj heads).symm definition

/-- An `fn` with a vector of symbols and a body makes a function of the sources. -/
theorem functionAt {identity vector : Option Identity} {head : Value} {parameters body : List Value}
    (code : Code sources level
      (.sequence identity .round (head :: .sequence vector .square parameters :: body)))
    (heads : SpecialForm.ofHead? head = some .function)
    (symbols : ∀ parameter ∈ parameters, ∃ name, parameter = .symbol name) (filled : body ≠ []) :
    FunctionAt sources level parameters body := by
  refine ⟨?_, symbols, filled⟩
  cases code with
  | occurrence source occurs => exact ⟨_, _, source, occurs, .function heads⟩
  | choice | line | definition => cases heads
  | function source occurs definitionHeads described =>
      exact ⟨_, _, source, occurs, .definition definitionHeads described⟩

/-- A `defn` is replaced by code. -/
theorem expandFunction {identity : Option Identity} {head name parameters : Value}
    {operands body : List Value}
    (code : Code sources level (.sequence identity .round (head :: name :: operands)))
    (heads : SpecialForm.ofHead? head = some .functionDefinition)
    (described : dropDescription operands = parameters :: body) :
    Code sources level
      (.list [.named "def", name, .list (.named "fn" :: parameters :: body)]) := by
  obtain ⟨top, source, occurs⟩ := code.occurs_of_heads heads (by decide)
  exact .definition source occurs heads described

/-- A `cond` is replaced by code. -/
theorem expandClauses {identity : Option Identity} {head form : Value} {operands : List Value}
    (code : Code sources level (.sequence identity .round (head :: operands)))
    (heads : SpecialForm.ofHead? head = some .clauses)
    (expands : TinyLisp.expandClauses operands = .ok form) : Code sources level form := by
  have parts := code.operands heads
  rw [if_neg (by decide)] at parts
  exact expandClauses_closed (.falsehood level) (fun _ _ _ => .choice) expands parts

/-- A property of the sources is one of all code from them if items of sequences have it, symbols
and literals have it, and lists have it if their items do. -/
theorem closed {property : Value → Prop} (symbol : ∀ name, property (.symbol name))
    (falsehood : property (.ofBool false))
    (items : ∀ {identity bracket items}, property (.sequence identity bracket items) →
      ∀ item ∈ items, property item)
    (list : ∀ {items : List Value}, (∀ item ∈ items, property item) → property (.list items))
    (holds : ∀ top, sources top → property top) {form : Value} (code : Code sources level form) :
    property form := by
  have function {top head name parameters : Value} {operands body : List Value} {level : Nat}
      {identity : Option Identity} (source : sources top)
      (occurs : top.Occurs level (.sequence identity .round (head :: name :: operands)))
      (described : dropDescription operands = parameters :: body) :
      property name ∧ property (.list (.named "fn" :: parameters :: body)) := by
    have parts := items (occurs.closed items (holds top source))
    refine ⟨parts name (by simp), list (List.forall_mem_cons.mpr ⟨symbol _, fun part member => ?_⟩)⟩
    rw [← described] at member
    exact parts part (by simp [mem_of_mem_dropDescription member])
  induction code with
  | occurrence source occurs => exact occurs.closed items (holds _ source)
  | symbol => exact symbol _
  | falsehood => exact falsehood
  | choice first second third one two three =>
      exact list (by simp [symbol, Value.named, one, two, three])
  | line codes ih => exact list (List.forall_mem_cons.mpr ⟨symbol _, ih⟩)
  | function source occurs heads described => exact (function source occurs described).2
  | definition source occurs heads described =>
      obtain ⟨name, made⟩ := function source occurs described
      refine list fun item member => ?_
      simp only [List.mem_cons, List.not_mem_nil, or_false] at member
      rcases member with rfl | rfl | rfl
      · exact symbol _
      · exact name
      · exact made

/-- Code from forms as reading makes them is like these. -/
theorem plain (plain : ∀ top, sources top → top.Plain) {form : Value}
    (code : Code sources level form) : form.Plain :=
  code.closed .symbol .falsehood Plain.items (fun holds => .sequence none .round holds) plain

end Code

theorem FunctionAt.mono {more : Value → Prop} (le : ∀ top, sources top → more top)
    {parameters body : List Value} (function : FunctionAt sources level parameters body) :
    FunctionAt more level parameters body := by
  obtain ⟨⟨top, form, source, found⟩, symbols, filled⟩ := function
  exact ⟨⟨top, form, le top source, found⟩, symbols, filled⟩

/-- The body of a function is code one level up. -/
theorem FunctionAt.body {parameters body : List Value}
    (function : FunctionAt sources level parameters body) :
    ∀ form ∈ body, Code sources (level + 1) form := by
  intro form member
  obtain ⟨⟨top, whole, source, occurs, makes⟩, -, -⟩ := function
  have part : form ∈ whole.evaluated ∧ whole.innerLevel level = level + 1 := by
    cases makes with
    | function heads =>
        rw [evaluated_special heads, innerLevel_special heads, if_pos (.inl rfl)]
        exact ⟨member, rfl⟩
    | definition heads described =>
        rw [evaluated_special heads, innerLevel_special heads, if_pos (.inr rfl),
          SpecialForm.evaluated_described described]
        exact ⟨member, rfl⟩
  exact .occurrence source (part.2 ▸ occurs.part part.1)

end TinyLisp
