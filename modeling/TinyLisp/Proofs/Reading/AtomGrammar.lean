import TinyLisp.Heap
import TinyLisp.Proofs.Number.Spelling
import TinyLisp.Proofs.Reading.Names

/-!
# The grammar of atoms

A text spells a number, or else a literal, or else a symbol, or else a keyword, or nothing. Reading
it as an atom gives a value of this kind, or a fault of the text in the last case. The kinds are
tried in this order, but only numbers and literals are symbols as well. No symbol or keyword is read
from two texts: it is written as the text that it was read from.
-/

namespace TinyLisp

namespace Text

def IsNumber (text : List Char) : Prop := ∃ numeral, Numeral.Spells text numeral

def IsLiteral (text : List Char) : Prop := String.ofList text ∈ literalWords

def IsSymbol (text : List Char) : Prop := ∃ name, Name.SpellsSymbol text name

def IsKeyword (text : List Char) : Prop := ∃ name, Name.SpellsKeyword text name

theorem isNumber_iff {text : List Char} :
    IsNumber text ↔ (Numeral.parse? text).isSome = true := by
  simp only [IsNumber, ← Numeral.parse?_eq_some_iff, Option.isSome_iff_exists]

theorem isSymbol_iff {text : List Char} :
    IsSymbol text ↔ (Name.ofSymbolText? text).isSome = true := by
  simp only [IsSymbol, ← Name.ofSymbolText?_eq_some_iff, Option.isSome_iff_exists]

theorem isKeyword_iff {text : List Char} :
    IsKeyword text ↔ (Name.ofKeywordText? text).isSome = true := by
  simp only [IsKeyword, ← Name.ofKeywordText?_eq_some_iff, Option.isSome_iff_exists]

instance (text : List Char) : Decidable (IsNumber text) := decidable_of_iff' _ isNumber_iff

instance (text : List Char) : Decidable (IsLiteral text) :=
  inferInstanceAs (Decidable (String.ofList text ∈ literalWords))

instance (text : List Char) : Decidable (IsSymbol text) := decidable_of_iff' _ isSymbol_iff

instance (text : List Char) : Decidable (IsKeyword text) := decidable_of_iff' _ isKeyword_iff

theorem not_isNumber_iff {text : List Char} : ¬ IsNumber text ↔ Numeral.parse? text = none := by
  rw [isNumber_iff, Option.not_isSome_iff_eq_none]

theorem not_isSymbol_iff {text : List Char} : ¬ IsSymbol text ↔ Name.ofSymbolText? text = none := by
  rw [isSymbol_iff, Option.not_isSome_iff_eq_none]

theorem not_isKeyword_iff {text : List Char} :
    ¬ IsKeyword text ↔ Name.ofKeywordText? text = none := by
  rw [isKeyword_iff, Option.not_isSome_iff_eq_none]

/-- No part of a symbol has a colon in it. -/
theorem IsSymbol.not_isKeyword {text : List Char} (isSymbol : IsSymbol text) :
    ¬ IsKeyword text := by
  have noColon {part : List Char} (isPart : Name.IsPart part) : ':' ∉ part :=
    fun colon => (isPart.plain ':' colon).2 rfl
  obtain ⟨name, spells⟩ := isSymbol
  have absent : ':' ∉ text := by
    rcases spells with word | ⟨prefixed, based⟩
    · rcases word with word | rfl
      · exact noColon word.toIsPart
      · decide
    · rcases based with word | rfl
      · simp [noColon prefixed.toIsPart, noColon word.toIsPart]
      · simp [noColon prefixed.toIsPart]
  rintro ⟨keyword, _ | _⟩ <;> exact absent List.mem_cons_self

end Text

variable {offset : Option Int} {text : List Char} {name : Name}

/-- What a text reads as, by the kinds of atoms in their order. -/
inductive AtomReading (offset : Option Int) (text : List Char) : Except ReadFault Value → Prop
  | number {numeral : Numeral} {number : Number} (spells : Numeral.Spells text numeral)
      (denotes : numeral.value = .ok number) : AtomReading offset text (.ok (.number number))
  | overlong {numeral : Numeral} {count : Nat} (spells : Numeral.Spells text numeral)
      (exceeds : numeral.value = .error count) :
      AtomReading offset text (.error (.tooManyDigits count))
  | literal (noNumber : ¬ Text.IsNumber text) (isLiteral : Text.IsLiteral text) :
      AtomReading offset text (.ok (.literal (String.ofList text)))
  | symbol {name : Name} (noNumber : ¬ Text.IsNumber text) (noLiteral : ¬ Text.IsLiteral text)
      (spells : Name.SpellsSymbol text name) : AtomReading offset text (.ok (.symbol name))
  | keyword {name : Name} (noNumber : ¬ Text.IsNumber text) (noLiteral : ¬ Text.IsLiteral text)
      (noSymbol : ¬ Text.IsSymbol text) (spells : Name.SpellsKeyword text name) :
      AtomReading offset text (.ok (.keyword name))
  | unreadable (noNumber : ¬ Text.IsNumber text) (noLiteral : ¬ Text.IsLiteral text)
      (noSymbol : ¬ Text.IsSymbol text) (noKeyword : ¬ Text.IsKeyword text) :
      AtomReading offset text (.error (.unreadableAtom (String.ofList text) offset))

theorem AtomReading.readAtom_eq {result : Except ReadFault Value}
    (reading : AtomReading offset text result) : readAtom offset text = result := by
  cases reading with
  | number spells denotes => simp only [readAtom, spells.parse?, denotes]
  | overlong spells exceeds => simp only [readAtom, spells.parse?, exceeds]
  | literal noNumber isLiteral =>
      simp only [readAtom, Text.not_isNumber_iff.mp noNumber]
      exact if_pos isLiteral
  | symbol noNumber noLiteral spells =>
      simp only [readAtom, Text.not_isNumber_iff.mp noNumber,
        Name.ofSymbolText?_eq_some_iff.mpr spells]
      exact if_neg noLiteral
  | keyword noNumber noLiteral noSymbol spells =>
      simp only [readAtom, Text.not_isNumber_iff.mp noNumber, Text.not_isSymbol_iff.mp noSymbol,
        Name.ofKeywordText?_eq_some_iff.mpr spells]
      exact if_neg noLiteral
  | unreadable noNumber noLiteral noSymbol noKeyword =>
      simp only [readAtom, Text.not_isNumber_iff.mp noNumber, Text.not_isSymbol_iff.mp noSymbol,
        Text.not_isKeyword_iff.mp noKeyword]
      exact if_neg noLiteral

theorem exists_atomReading (offset : Option Int) (text : List Char) :
    ∃ result, AtomReading offset text result := by
  by_cases isNumber : Text.IsNumber text
  · obtain ⟨numeral, spells⟩ := isNumber
    cases value : numeral.value with
    | ok number => exact ⟨_, .number spells value⟩
    | error count => exact ⟨_, .overlong spells value⟩
  by_cases isLiteral : Text.IsLiteral text
  · exact ⟨_, .literal isNumber isLiteral⟩
  by_cases isSymbol : Text.IsSymbol text
  · exact ⟨_, .symbol isNumber isLiteral isSymbol.choose_spec⟩
  by_cases isKeyword : Text.IsKeyword text
  · exact ⟨_, .keyword isNumber isLiteral isSymbol isKeyword.choose_spec⟩
  · exact ⟨_, .unreadable isNumber isLiteral isSymbol isKeyword⟩

/-- Reading gives the only result that the grammar has for a text. -/
theorem readAtom_eq_iff {result : Except ReadFault Value} :
    readAtom offset text = result ↔ AtomReading offset text result := by
  refine ⟨?_, AtomReading.readAtom_eq⟩
  rintro rfl
  obtain ⟨result, reading⟩ := exists_atomReading offset text
  rwa [reading.readAtom_eq]

theorem readAtom_eq_literal_iff {word : String} :
    readAtom offset text = .ok (.literal word) ↔
      ¬ Text.IsNumber text ∧ Text.IsLiteral text ∧ word = String.ofList text := by
  constructor
  · intro reads
    cases readAtom_eq_iff.mp reads with
    | literal noNumber isLiteral => exact ⟨noNumber, isLiteral, rfl⟩
  · rintro ⟨noNumber, isLiteral, rfl⟩
    exact (AtomReading.literal noNumber isLiteral).readAtom_eq

theorem readAtom_eq_symbol_iff :
    readAtom offset text = .ok (.symbol name) ↔
      ¬ Text.IsNumber text ∧ ¬ Text.IsLiteral text ∧ Name.SpellsSymbol text name := by
  constructor
  · intro reads
    cases readAtom_eq_iff.mp reads with
    | symbol noNumber noLiteral spells => exact ⟨noNumber, noLiteral, spells⟩
  · rintro ⟨noNumber, noLiteral, spells⟩
    exact (AtomReading.symbol noNumber noLiteral spells).readAtom_eq

theorem readAtom_eq_keyword_iff :
    readAtom offset text = .ok (.keyword name) ↔
      ¬ Text.IsNumber text ∧ ¬ Text.IsLiteral text ∧ ¬ Text.IsSymbol text ∧
        Name.SpellsKeyword text name := by
  constructor
  · intro reads
    cases readAtom_eq_iff.mp reads with
    | keyword noNumber noLiteral noSymbol spells => exact ⟨noNumber, noLiteral, noSymbol, spells⟩
  · rintro ⟨noNumber, noLiteral, noSymbol, spells⟩
    exact (AtomReading.keyword noNumber noLiteral noSymbol spells).readAtom_eq

/-- The text is not an integer with too many digits. -/
def Text.WithinDigitLimit (text : List Char) : Prop :=
  ∀ negative digits, Numeral.Spells text ⟨negative, digits, none, none⟩ →
    digits.length ≤ digitLimit

theorem Text.WithinDigitLimit.value_ne_error (within : Text.WithinDigitLimit text)
    {numeral : Numeral} {count : Nat} (spells : Numeral.Spells text numeral) :
    numeral.value ≠ .error count := by
  intro exceeds
  obtain ⟨integer, long⟩ := Numeral.long_of_value_eq_error exceeds
  obtain ⟨negative, whole, fraction, exponent⟩ := numeral
  simp only [Numeral.isInteger, Bool.and_eq_true, Option.isNone_iff_eq_none] at integer
  obtain ⟨rfl, rfl⟩ := integer
  exact absurd long (not_lt.mpr (within negative whole spells))

theorem exists_readAtom_eq_number_iff (within : Text.WithinDigitLimit text) :
    (∃ number, readAtom offset text = .ok (.number number)) ↔ Text.IsNumber text := by
  constructor
  · rintro ⟨number, reads⟩
    cases readAtom_eq_iff.mp reads with
    | number spells => exact ⟨_, spells⟩
  · rintro ⟨numeral, spells⟩
    cases value : numeral.value with
    | ok number => exact ⟨number, (AtomReading.number spells value).readAtom_eq⟩
    | error count => exact absurd value (within.value_ne_error spells)

theorem readAtom_eq_error_iff (within : Text.WithinDigitLimit text) {fault : ReadFault} :
    readAtom offset text = .error fault ↔
      ¬ Text.IsNumber text ∧ ¬ Text.IsLiteral text ∧ ¬ Text.IsSymbol text ∧
        ¬ Text.IsKeyword text ∧ fault = .unreadableAtom (String.ofList text) offset := by
  constructor
  · intro fails
    cases readAtom_eq_iff.mp fails with
    | overlong spells exceeds => exact absurd exceeds (within.value_ne_error spells)
    | unreadable noNumber noLiteral noSymbol noKeyword =>
        exact ⟨noNumber, noLiteral, noSymbol, noKeyword, rfl⟩
  · rintro ⟨noNumber, noLiteral, noSymbol, noKeyword, rfl⟩
    exact (AtomReading.unreadable noNumber noLiteral noSymbol noKeyword).readAtom_eq

theorem nameText_of_ne {style : Style} (plain : style ≠ .inspected) (kind : String) (name : Name)
    (written : List Char) : Value.nameText style kind name written = written := by
  cases style with
  | inspected => exact absurd rfl plain
  | _ => rfl

/-- A symbol or a keyword is written as the text that it was read from. -/
theorem textWithin_of_readAtom {value : Value} (reads : readAtom offset text = .ok value)
    (named : ∃ name, value = .symbol name ∨ value = .keyword name) (depth : Nat) {style : Style}
    (plain : style ≠ .inspected) : value.textWithin depth style = .ok (String.ofList text) := by
  obtain ⟨name, rfl | rfl⟩ := named
  · cases readAtom_eq_iff.mp reads with
    | symbol noNumber noLiteral spells =>
        change Except.ok (String.ofList (Value.nameText style "Symbol" name name.text)) = _
        rw [nameText_of_ne plain, spells.text]
  · cases readAtom_eq_iff.mp reads with
    | keyword noNumber noLiteral noSymbol spells =>
        change Except.ok (String.ofList
          (Value.nameText style "Keyword" name (Value.keywordText name))) = _
        rw [nameText_of_ne plain, spells.text]

/-- No symbol and no keyword is read from two texts. -/
theorem eq_of_readAtom {otherOffset : Option Int} {other : List Char} {value : Value}
    (reads : readAtom offset text = .ok value) (same : readAtom otherOffset other = .ok value)
    (named : ∃ name, value = .symbol name ∨ value = .keyword name) : other = text := by
  have plain : Style.shown ≠ .inspected := by decide
  have written := textWithin_of_readAtom reads named 0 plain
  rw [textWithin_of_readAtom same named 0 plain] at written
  exact String.ofList_injective (Except.ok.inj written)

/-- A text that is not an integer with too many digits reads as a number just if it spells one, else
as a literal just if it is one, else as a symbol or else as a keyword just if it spells the name,
and is a fault of the text in all other cases. A symbol or a keyword is written as the text that it
was read from, and is read from no other; a symbol's text reads as nothing else. -/
theorem readAtom_classes (offset : Option Int) (text : List Char)
    (within : ∀ negative digits, Numeral.Spells text ⟨negative, digits, none, none⟩ →
      digits.length ≤ digitLimit) :
    ((∃ number, readAtom offset text = .ok (.number number)) ↔ Text.IsNumber text) ∧
    (∀ word, readAtom offset text = .ok (.literal word) ↔
      ¬ Text.IsNumber text ∧ Text.IsLiteral text ∧ word = String.ofList text) ∧
    (∀ name, readAtom offset text = .ok (.symbol name) ↔
      ¬ Text.IsNumber text ∧ ¬ Text.IsLiteral text ∧ Name.SpellsSymbol text name) ∧
    (∀ name, readAtom offset text = .ok (.keyword name) ↔
      ¬ Text.IsNumber text ∧ ¬ Text.IsLiteral text ∧ ¬ Text.IsSymbol text ∧
        Name.SpellsKeyword text name) ∧
    (∀ fault, readAtom offset text = .error fault ↔
      ¬ Text.IsNumber text ∧ ¬ Text.IsLiteral text ∧ ¬ Text.IsSymbol text ∧
        ¬ Text.IsKeyword text ∧ fault = .unreadableAtom (String.ofList text) offset) ∧
    (∀ fault, readAtom offset text = .error fault → fault.kind = .parse) ∧
    (∀ value, readAtom offset text = .ok value →
      (∃ name, value = .symbol name ∨ value = .keyword name) →
        (∀ depth style, style ≠ .inspected →
          value.textWithin depth style = .ok (String.ofList text)) ∧
        ∀ otherOffset other, readAtom otherOffset other = .ok value → other = text) ∧
    ∀ name, readAtom offset text = .ok (.symbol name) →
      ¬ Text.IsNumber name.text ∧ ¬ Text.IsLiteral name.text ∧ ¬ Text.IsKeyword name.text := by
  refine ⟨exists_readAtom_eq_number_iff within, fun word => readAtom_eq_literal_iff,
    fun name => readAtom_eq_symbol_iff, fun name => readAtom_eq_keyword_iff,
    fun fault => readAtom_eq_error_iff within, ?_, ?_, ?_⟩
  · intro fault fails
    obtain ⟨-, -, -, -, rfl⟩ := (readAtom_eq_error_iff within).mp fails
    rfl
  · intro value reads named
    exact ⟨fun depth style plain => textWithin_of_readAtom reads named depth plain,
      fun otherOffset other same => eq_of_readAtom reads same named⟩
  · intro name reads
    obtain ⟨noNumber, noLiteral, spells⟩ := readAtom_eq_symbol_iff.mp reads
    have isSymbol : Text.IsSymbol text := ⟨name, spells⟩
    rw [spells.text]
    exact ⟨noNumber, noLiteral, isSymbol.not_isKeyword⟩

/-- The base of a symbol can be the slash, but it does not follow another slash directly. -/
theorem readAtom_classes_slashes :
    readAtom none ['a', '/', '/'] = .ok (.symbol ⟨"/", "a"⟩) ∧
      readAtom none ['/', '/'] = .error (.unreadableAtom "//" none) ∧
      (ReadFault.unreadableAtom "//" none).kind = .parse ∧
      (Value.symbol ⟨"/", "a"⟩).textWithin 0 .shown = .ok "a//" := by
  have word : Name.IsWord ['a'] := Name.isSymbolPart_iff.mp (by decide)
  have spells : Name.SpellsSymbol ['a', '/', '/'] ⟨"/", "a"⟩ := .qualified word (.inr rfl)
  obtain ⟨-, -, symbol, -, -, -, names, -⟩ := readAtom_classes none ['a', '/', '/'] (by
    intro negative digits integer
    cases integer.parse?)
  obtain ⟨-, -, -, -, unreadable, faults, -, -⟩ := readAtom_classes none ['/', '/'] (by
    intro negative digits integer
    cases integer.parse?)
  have reads := (symbol _).mpr ⟨by decide, by decide, spells⟩
  have fails := (unreadable _).mpr ⟨by decide, by decide, by decide, by decide, rfl⟩
  exact ⟨reads, fails, faults _ fails, (names _ reads ⟨_, .inl rfl⟩).1 0 .shown (by decide)⟩

end TinyLisp
