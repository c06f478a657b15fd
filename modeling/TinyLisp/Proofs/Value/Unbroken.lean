import TinyLisp.Proofs.Value.WellFormed

/-!
# Texts without line breaks

A line break in a program stands between its tokens or within a string, and never in a name. The
readable text of a value escapes what its strings hold, and so does the inspected one. These texts
are one line each, and so is the shown text of everything but a string.
-/

namespace TinyLisp

namespace Text

@[simp]
theorem newline_not_mem_toDigits {base : Nat} (positional : 1 < base) (value : Nat) :
    '\n' ∉ Nat.toDigits base value := by
  have digit (place : Nat) : '\n' ≠ Nat.digitChar place := (Nat.digitChar_ne '\n' rfl).symm
  induction value using Nat.strongRecOn with
  | ind value ih =>
      rw [Nat.toDigits_eq_if positional]
      split
      · simp [digit]
      · next large =>
          have above := ih (value / base) (Nat.div_lt_self (by omega) positional)
          simp [above, digit]

@[simp]
theorem newline_not_mem_repr_int (value : Int) : '\n' ∉ value.repr.toList := by
  rw [Int.repr_eq_if]
  split <;> simp

theorem newline_not_mem_hexadecimal (width value : Nat) : '\n' ∉ hexadecimal width value := by
  simp [hexadecimal]

theorem newline_not_mem_escape (c : Char) : '\n' ∉ escape c := by
  unfold escape
  split <;> simp_all [eq_comm]

/-- A quoted string is one line, whatever it holds. -/
theorem newline_not_mem_quote (text : List Char) : '\n' ∉ quote text := by
  simp [quote, newline_not_mem_escape]

theorem newline_not_mem_inspectChar {delimiter : Char} (visible : delimiter ≠ '\n') (c : Char) :
    '\n' ∉ inspectChar delimiter c := by
  have digits := newline_not_mem_hexadecimal
  unfold inspectChar
  split
  · next special =>
      have other : '\n' ≠ c := by
        rintro rfl
        rcases special with same | same
        · exact visible same.symm
        · cases same
      simp [other]
  · split
    · decide
    · next other =>
        have other : '\n' ≠ c := Ne.symm other
        repeat' split
        all_goals simp [other, digits]

/-- An inspected string is one line, whatever it holds. -/
theorem newline_not_mem_inspect (text : List Char) : '\n' ∉ inspect text := by
  have visible : delimiterFor text ≠ '\n' := by
    unfold delimiterFor
    split <;> decide
  simp [inspect, visible.symm, newline_not_mem_inspectChar visible]

theorem IsAtom.newline_not_mem {text : List Char} (isAtom : IsAtom text) : '\n' ∉ text :=
  fun member => absurd (isAtom.all '\n' member) (by decide)

end Text

theorem Number.newline_not_mem_text (number : Number) : '\n' ∉ number.text := by
  cases number with
  | int value =>
      simp only [text, integerText]
      split <;> simp
  | float value =>
      cases value with
      | undefined object => simp [text, Binary64.text]
      | infinite negative => cases negative <;> decide
      | finite negative magnitude =>
          obtain ⟨spelling, proper, same, -⟩ :=
            Numeral.exists_spelling_finite negative magnitude
          rw [← same]
          exact proper.isAtom.newline_not_mem

theorem Builtin.newline_not_mem_name (procedure : Builtin) : '\n' ∉ procedure.name.toList := by
  cases procedure <;> simp [name]

namespace Value

/-- A value in which no name has a line break, as evaluation makes them: procedures in it are
builtin, or have symbols for parameters. -/
inductive Unbroken : Value → Prop
  | number (value : Number) : Unbroken (.number value)
  | string (text : String) : Unbroken (.string text)
  | symbol {name : Name} (line : '\n' ∉ name.text) : Unbroken (.symbol name)
  | keyword {name : Name} (line : '\n' ∉ name.text) : Unbroken (.keyword name)
  | literal {word : String} (literal : word ∈ literalWords) : Unbroken (.literal word)
  | sequence (identity : Option Identity) (bracket : Bracket) {items : List Value}
      (unbroken : ∀ item ∈ items, Unbroken item) : Unbroken (.sequence identity bracket items)
  | builtin (procedure : Builtin) : Unbroken (.primitive (.builtin procedure))
  | closure (id : Nat) {parameters body : List Value} (frame : Nat)
      (names : ∀ parameter ∈ parameters, ∃ name : Name, parameter = .symbol name ∧ '\n' ∉ name.text)
      (unbroken : ∀ form ∈ body, Unbroken form) : Unbroken (.closure id parameters body frame)

theorem newline_not_mem_joined {separator : List Char} (line : '\n' ∉ separator)
    {texts : List (List Char)} (lines : ∀ text ∈ texts, '\n' ∉ text) :
    '\n' ∉ joined separator texts := by
  induction texts using joined.induct with
  | case1 => simp [joined]
  | case2 text => simpa [joined] using lines
  | case3 text rest _ ih =>
      obtain ⟨first, others⟩ := List.forall_mem_cons.mp lines
      simp [joined, first, line, ih others]

theorem newline_not_mem_keywordText {name : Name} :
    '\n' ∉ keywordText name ↔ '\n' ∉ name.text := by
  simp [keywordText]

theorem newline_not_mem_nameInspect (kind : String) (line : '\n' ∉ kind.toList) (name : Name) :
    '\n' ∉ name.inspect kind := by
  have strings := Text.newline_not_mem_inspect
  simp only [Name.inspect]
  split <;> simp [line, strings]

theorem newline_not_mem_sequenceText (style : Style) (bracket : Bracket)
    {items : List (List Char)} (lines : ∀ item ∈ items, '\n' ∉ item) :
    '\n' ∉ sequenceText style bracket items := by
  have space : '\n' ∉ joined [' '] items := newline_not_mem_joined (by decide) lines
  have comma : '\n' ∉ joined [',', ' '] items := newline_not_mem_joined (by decide) lines
  cases style <;> cases bracket <;>
    simp [sequenceText, sequenceWord, Bracket.opening, Bracket.closing, space, comma]

theorem newline_not_mem_primitiveText (procedure : Builtin) :
    '\n' ∉ primitiveText (.builtin procedure) := by
  change '\n' ∉ "#<primitive ".toList ++ procedure.name.toList ++ ['>']
  simp [procedure.newline_not_mem_name]

theorem newline_not_mem_closureText {parameters : List Value}
    (names : ∀ parameter ∈ parameters, ∃ name : Name, parameter = .symbol name ∧ '\n' ∉ name.text) :
    '\n' ∉ closureText (renderAll .shown parameters) := by
  have lines : '\n' ∉ joined [' '] (renderAll .shown parameters) := by
    refine newline_not_mem_joined (by decide) ?_
    rw [renderAll_eq_map, List.forall_mem_map]
    intro parameter member
    obtain ⟨name, rfl, line⟩ := names parameter member
    exact line
  change '\n' ∉ "#<fn [".toList ++ joined [' '] (renderAll .shown parameters) ++ "]>".toList
  simp [lines]

theorem ofItems_eq {style : Style} (escapes : style = .readable ∨ style = .inspected) :
    style.ofItems = style := by
  rcases escapes with rfl | rfl <;> rfl

/-- The readable text of a value and the inspected one are one line each. -/
theorem Unbroken.newline_not_mem_render {value : Value} (unbroken : value.Unbroken) {style : Style}
    (escapes : style = .readable ∨ style = .inspected) : '\n' ∉ value.render style := by
  induction unbroken with
  | number value => exact value.newline_not_mem_text
  | string text =>
      rcases escapes with rfl | rfl
      · exact Text.newline_not_mem_quote text.toList
      · exact Text.newline_not_mem_inspect text.toList
  | @symbol name line =>
      rcases escapes with rfl | rfl
      · exact line
      · exact newline_not_mem_nameInspect "Symbol" (by simp) name
  | @keyword name line =>
      rcases escapes with rfl | rfl
      · exact newline_not_mem_keywordText.mpr line
      · exact newline_not_mem_nameInspect "Keyword" (by simp) name
  | @literal word literal =>
      simp only [literalWords, List.mem_cons, List.not_mem_nil, or_false] at literal
      rcases literal with rfl | rfl | rfl <;> simp [render]
  | sequence identity bracket _ ih =>
      refine newline_not_mem_sequenceText style bracket ?_
      rw [ofItems_eq escapes, renderAll_eq_map, List.forall_mem_map]
      exact ih
  | builtin procedure =>
      exact newline_not_mem_primitiveText procedure
  | closure id frame names _ => exact newline_not_mem_closureText names

/-- The shown text of a value is one line, unless the value is a string with a line break. -/
theorem Unbroken.of_newline_mem_shown {value : Value} (unbroken : value.Unbroken)
    (broken : '\n' ∈ value.render .shown) : ∃ text, value = .string text ∧ '\n' ∈ text.toList := by
  have inspected := unbroken.newline_not_mem_render (.inr rfl)
  cases unbroken with
  | string text => exact ⟨text, rfl, broken⟩
  | symbol line => exact absurd broken line
  | keyword line => exact absurd broken (newline_not_mem_keywordText.mpr line)
  | number | literal | sequence | builtin | closure => exact absurd broken inspected

theorem unbroken_dataClosed : DataClosed Unbroken where
  number _ := .number _
  literal _ := .literal
  items unbroken := by
    cases unbroken with
    | sequence _ _ unbroken => exact unbroken
  list := .sequence none .round

theorem Unbroken.numbered {value : Value} (unbroken : value.Unbroken) (number : Nat) :
    (Run.numbered number value).Unbroken :=
  unbroken_dataClosed.numbered .number .sequence unbroken number

theorem unbroken_named {base : String} (line : '\n' ∉ base.toList) : (named base).Unbroken :=
  .symbol (by simpa [Name.text, Name.plain, Name.qualifier?] using line)

theorem Unbroken.line {name : Name} (unbroken : (Value.symbol name).Unbroken) :
    '\n' ∉ name.text := by
  cases unbroken with
  | symbol line => exact line

theorem Unbroken.identified {value : Value} (unbroken : value.Unbroken) (next : Nat) :
    (value.identified next).1.Unbroken := by
  induction unbroken generalizing next with
  | number value => exact .number value
  | string text => exact .string text
  | symbol line => exact .symbol line
  | keyword line => exact .keyword line
  | literal literal => exact .literal literal
  | sequence identity bracket _ ih =>
      exact .sequence _ bracket (identifiedAll_closed ih (next + 1))
  | builtin procedure => exact .builtin procedure
  | closure id frame names unbroken => exact .closure id frame names unbroken

theorem unbroken_of_readAtom {offset : Option Int} {text : List Char} {value : Value}
    (isAtom : Text.IsAtom text) (reads : readAtom offset text = .ok value) : value.Unbroken := by
  have line := isAtom.newline_not_mem
  cases atomValue_of_readAtom reads with
  | readable => exact .number _
  | infinite => exact .number _
  | literal literal => exact .literal literal
  | symbol written => exact .symbol (written ▸ line)
  | @keyword name written =>
      subst written
      exact .keyword (newline_not_mem_keywordText.mp line)

/-- No name in a text that is read has a line break. -/
theorem unbroken_of_readForms {text : List Char} {forms : List Value}
    (read : readForms text = .ok forms) : ∀ form ∈ forms, form.Unbroken :=
  forall_of_readForms
    ⟨.string, unbroken_of_readAtom, fun bracket _ => .sequence none bracket⟩ read

end Value

end TinyLisp
