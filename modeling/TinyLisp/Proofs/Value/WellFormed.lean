import TinyLisp.Proofs.Evaluation.Primitives
import TinyLisp.Proofs.Evaluation.Shapes
import TinyLisp.Proofs.Reading.RoundTrip
import TinyLisp.Proofs.Session.Outcome

/-!
# Well-formed values

What the reader makes has no procedures in it, no undefined numbers and no values of the embedding
program. Evaluation
adds the builtin procedures and closures. The parameters of a closure are symbols, its body is made
by the reader, and its frame exists.
-/

namespace TinyLisp

namespace Value

/-- The kinds of values that reading makes. -/
inductive ReaderMade : Value → Prop
  | number {value : Number} (defined : value.IsDefined) : ReaderMade (.number value)
  | string (text : String) : ReaderMade (.string text)
  | symbol (name : Name) : ReaderMade (.symbol name)
  | keyword (name : Name) : ReaderMade (.keyword name)
  | literal {word : String} (literal : word ∈ literalWords) : ReaderMade (.literal word)
  | sequence (identity : Option Identity) (bracket : Bracket) {items : List Value}
      (made : ∀ item ∈ items, ReaderMade item) : ReaderMade (.sequence identity bracket items)

/-- The kinds of values that evaluation makes when there are some number of frames. -/
inductive WellFormed (frames : Nat) : Value → Prop
  | number (value : Number) : WellFormed frames (.number value)
  | string (text : String) : WellFormed frames (.string text)
  | symbol (name : Name) : WellFormed frames (.symbol name)
  | keyword (name : Name) : WellFormed frames (.keyword name)
  | literal {word : String} (literal : word ∈ literalWords) : WellFormed frames (.literal word)
  | sequence (identity : Option Identity) (bracket : Bracket) {items : List Value}
      (wellFormed : ∀ item ∈ items, WellFormed frames item) :
      WellFormed frames (.sequence identity bracket items)
  | builtin (procedure : Builtin) : WellFormed frames (.primitive (.builtin procedure))
  | closure (id : Nat) {parameters body : List Value} {frame : Nat}
      (symbols : ∀ parameter ∈ parameters, ∃ name, parameter = .symbol name) (filled : body ≠ [])
      (made : ∀ form ∈ body, form.ReaderMade) (exists_frame : frame < frames) :
      WellFormed frames (.closure id parameters body frame)

theorem ReaderMade.items {identity : Option Identity} {bracket : Bracket} {items : List Value}
    (made : (Value.sequence identity bracket items).ReaderMade) :
    ∀ item ∈ items, item.ReaderMade := by
  cases made with
  | sequence _ _ made => exact made

theorem ReaderMade.list {items : List Value} (made : ∀ item ∈ items, item.ReaderMade) :
    (Value.list items).ReaderMade :=
  .sequence none .round made

theorem ReaderMade.named (base : String) : (Value.named base).ReaderMade :=
  .symbol _

theorem ReaderMade.wellFormed {value : Value} (made : value.ReaderMade) (frames : Nat) :
    value.WellFormed frames := by
  induction made with
  | number => exact .number _
  | string text => exact .string text
  | symbol name => exact .symbol name
  | keyword name => exact .keyword name
  | literal literal => exact .literal literal
  | sequence identity bracket made ih => exact .sequence identity bracket ih

theorem readerMade_of_readAtom {offset : Option Int} {text : List Char} {value : Value}
    (reads : readAtom offset text = .ok value) : value.ReaderMade := by
  cases atomValue_of_readAtom reads with
  | readable readable => exact .number readable.isDefined
  | infinite => exact .number trivial
  | literal literal => exact .literal literal
  | symbol => exact .symbol _
  | keyword => exact .keyword _

theorem readerMade_of_readForms {text : List Char} {forms : List Value}
    (read : readForms text = .ok forms) : ∀ form ∈ forms, form.ReaderMade :=
  forall_of_readForms
    ⟨.string, fun _ => readerMade_of_readAtom, fun bracket _ => .sequence none bracket⟩ read

theorem identifiedAll_closed {property : Value → Prop} {items : List Value}
    (closed : ∀ item ∈ items, ∀ next, property (item.identified next).1) (next : Nat) :
    ∀ item ∈ (identifiedAll next items).1, property item := by
  induction items generalizing next with
  | nil => simp [identifiedAll]
  | cons item rest ih =>
      rw [List.forall_mem_cons] at closed
      exact List.forall_mem_cons.mpr ⟨closed.1 next, ih closed.2 _⟩

theorem ReaderMade.identified {value : Value} (made : value.ReaderMade) (next : Nat) :
    (value.identified next).1.ReaderMade := by
  induction made generalizing next with
  | number defined => exact .number defined
  | string text => exact .string text
  | symbol name => exact .symbol name
  | keyword name => exact .keyword name
  | literal literal => exact .literal literal
  | sequence identity bracket made ih =>
      exact .sequence _ bracket (identifiedAll_closed ih (next + 1))

theorem WellFormed.mono {frames more : Nat} {value : Value} (le : frames ≤ more)
    (wellFormed : value.WellFormed frames) : value.WellFormed more := by
  induction wellFormed with
  | number value => exact .number value
  | string text => exact .string text
  | symbol name => exact .symbol name
  | keyword name => exact .keyword name
  | literal literal => exact .literal literal
  | sequence identity bracket _ ih => exact .sequence identity bracket ih
  | builtin procedure => exact .builtin procedure
  | closure id symbols filled made exists_frame =>
      exact .closure id symbols filled made (exists_frame.trans_le le)

theorem wellFormed_dataClosed (frames : Nat) : DataClosed (WellFormed frames) where
  number _ := .number _
  literal _ := .literal
  items wellFormed := by
    cases wellFormed with
    | sequence _ _ wellFormed => exact wellFormed
  list wellFormed := .sequence none .round wellFormed

theorem WellFormed.numbered {frames : Nat} {value : Value} (wellFormed : value.WellFormed frames)
    (number : Nat) : (Run.numbered number value).WellFormed frames :=
  (wellFormed_dataClosed frames).numbered .number .sequence wellFormed number

end Value

end TinyLisp
