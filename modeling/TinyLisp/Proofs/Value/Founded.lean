import TinyLisp.Proofs.Value.WellFormed

/-!
# Closures and long integers in values

What evaluation makes of forms that have been read is built from the atoms of the language, the
builtin procedures and closures; so all closures in a value may be asked to have some property.
Reading never makes an integer with more digits than a text may have, but adding integers does, and
only in such an integer can the digits of a value be too many to write it.
-/

namespace TinyLisp

namespace Value

/-- A value in which all closures have a property. It has no procedures in it but these and builtin
ones, and nothing of the embedding program. -/
inductive Founded (closures : List Value → List Value → Nat → Prop) : Value → Prop
  | number (value : Number) : Founded closures (.number value)
  | string (text : String) : Founded closures (.string text)
  | symbol (name : Name) : Founded closures (.symbol name)
  | keyword (name : Name) : Founded closures (.keyword name)
  | literal (word : String) : Founded closures (.literal word)
  | sequence (identity : Option Identity) (bracket : Bracket) {items : List Value}
      (founded : ∀ item ∈ items, Founded closures item) :
      Founded closures (.sequence identity bracket items)
  | builtin (procedure : Builtin) : Founded closures (.primitive (.builtin procedure))
  | closure (id : Nat) {parameters body : List Value} {frame : Nat}
      (holds : closures parameters body frame) :
      Founded closures (.closure id parameters body frame)

/-- There is an integer with more digits than a text may have in the value. -/
inductive HoldsOverlong : Value → Prop
  | number {number : Number} (long : number.exceedsDigitLimit) : HoldsOverlong (.number number)
  | item {identity : Option Identity} {bracket : Bracket} {items : List Value} {item : Value}
      (member : item ∈ items) (holds : HoldsOverlong item) :
      HoldsOverlong (.sequence identity bracket items)

/-- A form as reading makes it: without procedures and without long integers. -/
structure Plain (form : Value) : Prop where
  made : form.ReaderMade
  brief : ¬ form.HoldsOverlong

variable {closures : List Value → List Value → Nat → Prop}

theorem Founded.imp {weaker : List Value → List Value → Nat → Prop} {value : Value}
    (founded : value.Founded closures)
    (weaken : ∀ parameters body frame, closures parameters body frame →
      weaker parameters body frame) : value.Founded weaker := by
  induction founded with
  | number value => exact .number value
  | string text => exact .string text
  | symbol name => exact .symbol name
  | keyword name => exact .keyword name
  | literal word => exact .literal word
  | sequence identity bracket _ ih => exact .sequence identity bracket ih
  | builtin procedure => exact .builtin procedure
  | closure id holds => exact .closure id (weaken _ _ _ holds)

theorem founded_dataClosed (closures : List Value → List Value → Nat → Prop) :
    DataClosed (Founded closures) where
  number _ := .number _
  literal word _ := .literal word
  items founded := by
    cases founded with
    | sequence _ _ founded => exact founded
  list founded := .sequence none .round founded

theorem Founded.numbered {value : Value} (founded : value.Founded closures) (number : Nat) :
    (Run.numbered number value).Founded closures :=
  (founded_dataClosed closures).numbered .number .sequence founded number

theorem ReaderMade.founded {value : Value} (made : value.ReaderMade) : value.Founded closures := by
  induction made with
  | number => exact .number _
  | string text => exact .string text
  | symbol name => exact .symbol name
  | keyword name => exact .keyword name
  | literal => exact .literal _
  | sequence identity bracket _ ih => exact .sequence identity bracket ih

/-- If its digits keep a value from being written, there is a long integer in it. The parameters of
a closure are symbols and have no digits in them. -/
theorem Founded.holdsOverlong {value : Value} (founded : value.Founded closures)
    (symbols : ∀ parameters body frame, closures parameters body frame →
      ∀ parameter ∈ parameters, ∃ name, parameter = .symbol name) {depth : Nat}
    (long : value.obstacle depth = some .digits) : value.HoldsOverlong := by
  induction founded generalizing depth with
  | number value =>
      rw [obstacle] at long
      split at long
      · next exceeds => exact .number exceeds
      · cases long
  | @sequence identity bracket items _ ih =>
      rw [obstacle] at long
      split at long
      · cases long
      · by_contra brief
        refine obstacleAmong_ne (fun item member found => ?_) long
        exact brief (.item member (ih item member found))
  | closure id holds =>
      rw [obstacle] at long
      refine absurd long (obstacleAmong_ne fun parameter member => ?_)
      obtain ⟨name, rfl⟩ := symbols _ _ _ holds parameter member
      simp [obstacle]
  | _ => cases long

theorem Plain.obstacle_ne_digits {form : Value} (plain : form.Plain) (depth : Nat) :
    form.obstacle depth ≠ some .digits := by
  intro long
  have founded : form.Founded fun _ _ _ => False := plain.made.founded
  exact plain.brief (founded.holdsOverlong (fun _ _ _ => False.elim) long)

theorem Plain.symbol (name : Name) : (Value.symbol name).Plain := ⟨.symbol name, nofun⟩

theorem Plain.falsehood : (Value.ofBool false).Plain := ⟨.literal (by decide), nofun⟩

theorem Plain.items {identity : Option Identity} {bracket : Bracket} {items : List Value}
    (plain : (Value.sequence identity bracket items).Plain) : ∀ item ∈ items, item.Plain :=
  fun item member => ⟨plain.made.items item member, fun long => plain.brief (.item member long)⟩

theorem Plain.sequence (identity : Option Identity) (bracket : Bracket) {items : List Value}
    (plain : ∀ item ∈ items, item.Plain) : (Value.sequence identity bracket items).Plain := by
  refine ⟨.sequence identity bracket fun item member => (plain item member).made, ?_⟩
  rintro (_ | ⟨member, long⟩)
  exact (plain _ member).brief long

theorem Plain.identified {form : Value} (plain : form.Plain) (next : Nat) :
    (form.identified next).1.Plain := by
  obtain ⟨made, brief⟩ := plain
  induction made generalizing next with
  | sequence identity bracket made ih =>
      refine .sequence _ bracket (identifiedAll_closed (fun item member next => ?_) (next + 1))
      exact ih item member next fun long => brief (.item member long)
  | number value => exact ⟨.number value, brief⟩
  | string text => exact ⟨.string text, brief⟩
  | symbol name => exact ⟨.symbol name, brief⟩
  | keyword name => exact ⟨.keyword name, brief⟩
  | literal literal => exact ⟨.literal literal, brief⟩

/-- An atom denotes an integer only if it does not have too many digits. -/
theorem plain_of_readAtom {offset : Option Int} {text : List Char} {value : Value}
    (reads : readAtom offset text = .ok value) : value.Plain := by
  refine ⟨readerMade_of_readAtom reads, fun long => ?_⟩
  cases atomValue_of_readAtom reads with
  | readable readable =>
      cases long with
      | number long => simp [readable.exceedsDigitLimit] at long
  | infinite =>
      cases long with
      | number long => cases long
  | _ => cases long

theorem plain_of_readForms {text : List Char} {forms : List Value}
    (read : readForms text = .ok forms) : ∀ form ∈ forms, form.Plain :=
  forall_of_readForms
    ⟨fun text => ⟨.string text, nofun⟩, fun _ => plain_of_readAtom,
      fun bracket _ => .sequence none bracket⟩ read

end Value

end TinyLisp
