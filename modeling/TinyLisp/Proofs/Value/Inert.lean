import TinyLisp.Proofs.Value.Renumbering
import TinyLisp.Proofs.Value.WellFormed

/-!
# Values without closures

Closures are made by `fn` and by `defn` and by nothing else. A form in which neither of them heads a
list makes none, and if the values in it hold none and no procedures but the builtin ones, nothing
that is made of them does.
-/

namespace TinyLisp

namespace Value

/-- A value that holds no closure and no procedures but builtin ones. -/
inductive Inert : Value → Prop
  | number (value : Number) : Inert (.number value)
  | string (text : String) : Inert (.string text)
  | symbol (name : Name) : Inert (.symbol name)
  | keyword (name : Name) : Inert (.keyword name)
  | literal (word : String) : Inert (.literal word)
  | sequence (identity : Option Identity) (bracket : Bracket) {items : List Value}
      (inert : ∀ item ∈ items, Inert item) : Inert (.sequence identity bracket items)
  | builtin (procedure : Builtin) : Inert (.primitive (.builtin procedure))
  | foreign (value : Foreign) : Inert (.foreign value)

/-- Some list in a form is headed by `fn` or `defn`. -/
inductive HoldsFunction : Value → Prop
  | headed {identity : Option Identity} {base : String} {operands : List Value}
      (makes : base = "fn" ∨ base = "defn") :
      HoldsFunction (.sequence identity .round (.named base :: operands))
  | item {identity : Option Identity} {bracket : Bracket} {items : List Value} {item : Value}
      (member : item ∈ items) (holds : HoldsFunction item) :
      HoldsFunction (.sequence identity bracket items)

/-- A form as reading makes it that no list in it makes a function of. -/
structure Functionless (form : Value) : Prop where
  made : form.ReaderMade
  free : ¬ form.HoldsFunction

theorem inert_dataClosed : DataClosed Inert where
  number _ := .number _
  literal word _ := .literal word
  items inert := by
    cases inert with
    | sequence _ _ inert => exact inert
  list inert := .sequence none .round inert

theorem Inert.numbered {value : Value} (inert : value.Inert) (number : Nat) :
    (Run.numbered number value).Inert :=
  inert_dataClosed.numbered .number .sequence inert number

theorem ReaderMade.inert {value : Value} (made : value.ReaderMade) : value.Inert := by
  induction made with
  | number => exact .number _
  | string text => exact .string text
  | symbol name => exact .symbol name
  | keyword name => exact .keyword name
  | literal => exact .literal _
  | sequence identity bracket _ ih => exact .sequence identity bracket ih

/-- Only closures refer to frames. -/
theorem Inert.not_mentions_frame {value : Value} (inert : value.Inert) (id : Nat) :
    ¬ value.Mentions (.frame id) := by
  induction inert with
  | sequence identity bracket _ ih =>
      intro mentions
      cases mentions with
      | item member mentions => exact ih _ member mentions
  | _ => rintro ⟨⟩

theorem holdsFunction_of_head {identity : Option Identity} {head : Value} {operands : List Value}
    {special : SpecialForm} (heads : SpecialForm.ofHead? head = some special)
    (makes : special = .function ∨ special = .functionDefinition) :
    HoldsFunction (.sequence identity .round (head :: operands)) := by
  obtain ⟨base, rfl, known⟩ := SpecialForm.named_of_ofHead? heads
  unfold SpecialForm.ofBase? at known
  split at known <;> cases known <;> simp_all [HoldsFunction.headed]

namespace Functionless

theorem symbol (name : Name) : (Value.symbol name).Functionless :=
  ⟨.symbol name, by rintro ⟨⟩⟩

theorem keyword (name : Name) : (Value.keyword name).Functionless :=
  ⟨.keyword name, by rintro ⟨⟩⟩

theorem literal {word : String} (literal : word ∈ literalWords) :
    (Value.literal word).Functionless :=
  ⟨.literal literal, by rintro ⟨⟩⟩

theorem items {identity : Option Identity} {bracket : Bracket} {items : List Value}
    (functionless : (Value.sequence identity bracket items).Functionless) :
    ∀ item ∈ items, item.Functionless :=
  fun item member =>
    ⟨functionless.made.items item member, fun holds => functionless.free (.item member holds)⟩

/-- The special forms that a functionless form is made of make no functions. -/
theorem special {identity : Option Identity} {head : Value} {operands : List Value}
    {special : SpecialForm}
    (functionless : (Value.sequence identity .round (head :: operands)).Functionless)
    (heads : SpecialForm.ofHead? head = some special) :
    special ≠ .function ∧ special ≠ .functionDefinition :=
  ⟨fun same => functionless.free (holdsFunction_of_head heads (.inl same)),
    fun same => functionless.free (holdsFunction_of_head heads (.inr same))⟩

/-- A list headed by another name is functionless if its operands are. -/
theorem headed {base : String} {operands : List Value} (other : ¬ (base = "fn" ∨ base = "defn"))
    (each : ∀ operand ∈ operands, operand.Functionless) :
    (Value.list (.named base :: operands)).Functionless := by
  have parts : ∀ item ∈ .named base :: operands, item.Functionless :=
    List.forall_mem_cons.mpr ⟨symbol _, each⟩
  refine ⟨.list fun item member => (parts item member).made, fun holds => ?_⟩
  rcases holds with makes | ⟨member, holds⟩
  · exact other makes
  · exact (parts _ member).free holds

theorem choice {test consequent alternative : Value} (first : test.Functionless)
    (second : consequent.Functionless) (third : alternative.Functionless) :
    (Value.list [.named "if", test, consequent, alternative]).Functionless :=
  headed (by decide) (by simp [first, second, third])

end Functionless

end Value

end TinyLisp
