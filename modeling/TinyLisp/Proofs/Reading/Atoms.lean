import TinyLisp.Token
import TinyLisp.Proofs.Outcome
import TinyLisp.Proofs.Reading.AtomGrammar

/-!
# Atoms read back

A text is an atom if a scan takes it as one token: it is not empty, and none of its characters
means anything else. The texts of readable numbers, of literals and of the names that atoms spell
are atoms, and they read as the values that they are the texts of.
-/

namespace TinyLisp

namespace Text

/-- A scan can take the text as one atom. -/
structure IsAtom (text : List Char) : Prop where
  ne_nil : text ≠ []
  all : ∀ c ∈ text, isAtomChar c

theorem isAtom_iff {text : List Char} :
    IsAtom text ↔ text.isEmpty = false ∧ text.all isAtomChar = true := by
  rw [List.isEmpty_eq_false_iff, List.all_eq_true]
  exact ⟨fun atom => ⟨atom.ne_nil, atom.all⟩, fun ⟨filled, all⟩ => ⟨filled, all⟩⟩

instance (text : List Char) : Decidable (IsAtom text) :=
  decidable_of_iff' _ isAtom_iff

theorem isAtomChar_of_isDigit {c : Char} (digit : c.isDigit) : isAtomChar c := by
  have bounds : 48 ≤ c.toNat ∧ c.toNat ≤ 57 := Char.isDigit_iff_toNat.mp digit
  have differs (other : Char) (outside : ¬ (48 ≤ other.toNat ∧ other.toNat ≤ 57)) :
      c ≠ other := by
    rintro rfl
    exact outside bounds
  have filled : isBlank c = false := by
    simp only [isBlank, Bool.or_eq_false_iff, Bool.and_eq_false_iff, decide_eq_false_iff_not,
      beq_eq_false_iff_ne]
    omega
  simp [isAtomChar, isSeparator, opens?, closes?, filled, differs ',' (by decide),
    differs '(' (by decide), differs '[' (by decide), differs ')' (by decide),
    differs ']' (by decide), differs '"' (by decide), differs ';' (by decide)]

end Text

theorem Numeral.Spelling.Proper.isAtom {spelling : Numeral.Spelling} (proper : spelling.Proper) :
    Text.IsAtom spelling.text := by
  obtain ⟨negative, whole, fraction, exponent⟩ := spelling
  have digits {text : List Char} (ascii : ∀ c ∈ text, c.isDigit) :
      ∀ c ∈ text, Text.isAtomChar c :=
    fun c member => Text.isAtomChar_of_isDigit (ascii c member)
  constructor
  case ne_nil => simp [text, proper.whole_ne_nil]
  case all =>
      intro c member
      simp only [text, List.mem_append] at member
      rcases member with sign | member | member | member
      · cases negative with
        | false => simp [signText] at sign
        | true =>
            rw [List.mem_singleton.mp sign]
            decide
      · exact digits proper.whole_digits c member
      · cases fraction with
        | none => simp [fractionText] at member
        | some fraction =>
            rcases List.mem_cons.mp member with rfl | member
            · decide
            · exact digits (proper.fraction_digits _ rfl) c member
      · cases exponent with
        | none => simp [exponentText] at member
        | some exponent =>
            obtain ⟨negative, exponent⟩ := exponent
            rcases List.mem_cons.mp member with rfl | member
            · decide
            rcases List.mem_cons.mp member with rfl | member
            · cases negative <;> decide
            · exact digits (proper.exponent_digits _ _ rfl) c member

/-- The text of a readable number is an atom that reads as the number. -/
theorem Number.Readable.readAtom_text {number : Number} (readable : number.Readable) :
    Text.IsAtom number.text ∧ ∀ offset, readAtom offset number.text = .ok (.number number) := by
  obtain ⟨spelling, proper, written, denotes⟩ := readable.exists_spelling
  rw [← written]
  exact ⟨proper.isAtom, fun offset => (AtomReading.number proper.spells denotes).readAtom_eq⟩

/-- A literal is an atom that reads as itself. -/
theorem readAtom_literal {word : String} (literal : word ∈ literalWords) :
    Text.IsAtom word.toList ∧ ∀ offset, readAtom offset word.toList = .ok (.literal word) := by
  simp only [literalWords, List.mem_cons, List.not_mem_nil, or_false] at literal
  rcases literal with rfl | rfl | rfl <;>
    exact ⟨by decide, fun offset => rfl⟩

/-- What an atom can denote. Names are written as the atoms that spell them. -/
inductive AtomValue (text : List Char) : Value → Prop
  | readable {number : Number} (readable : number.Readable) : AtomValue text (.number number)
  | infinite (negative : Bool) : AtomValue text (.number (.float (.infinite negative)))
  | literal {word : String} (literal : word ∈ literalWords) : AtomValue text (.literal word)
  | symbol {name : Name} (written : name.text = text) : AtomValue text (.symbol name)
  | keyword {name : Name} (written : Value.keywordText name = text) :
      AtomValue text (.keyword name)

theorem atomValue_of_readAtom {offset : Option Int} {text : List Char} {value : Value}
    (reads : readAtom offset text = .ok value) : AtomValue text value := by
  cases readAtom_eq_iff.mp reads with
  | number spells denotes =>
      rcases Numeral.readable_of_value spells.parse? denotes with readable | ⟨negative, rfl⟩
      · exact .readable readable
      · exact .infinite negative
  | literal noNumber isLiteral => exact .literal isLiteral
  | symbol noNumber noLiteral spells => exact .symbol spells.text
  | keyword noNumber noLiteral noSymbol spells => exact .keyword spells.text

/-- The offset of an atom takes part in nothing but its fault. -/
theorem readAtom_mapError {change : ReadFault → ReadFault} {offset other : Option Int}
    {text : List Char} (digits : ∀ count, change (.tooManyDigits count) = .tooManyDigits count)
    (place : change (.unreadableAtom (String.ofList text) offset) =
      .unreadableAtom (String.ofList text) other) :
    readAtom other text = (readAtom offset text).mapError change := by
  obtain ⟨result, reading⟩ := exists_atomReading offset text
  rw [reading.readAtom_eq]
  apply AtomReading.readAtom_eq
  cases reading with
  | number spells denotes => exact .number spells denotes
  | overlong spells exceeds =>
      rw [mapError_error, digits]
      exact .overlong spells exceeds
  | literal noNumber isLiteral => exact .literal noNumber isLiteral
  | symbol noNumber noLiteral spells => exact .symbol noNumber noLiteral spells
  | keyword noNumber noLiteral noSymbol spells =>
      exact .keyword noNumber noLiteral noSymbol spells
  | unreadable noNumber noLiteral noSymbol noKeyword =>
      rw [mapError_error, place]
      exact .unreadable noNumber noLiteral noSymbol noKeyword

theorem readAtom_offset {offset : Option Int} {text : List Char} {value : Value}
    (reads : readAtom offset text = .ok value) (other : Option Int) :
    readAtom other text = .ok value := by
  cases readAtom_eq_iff.mp reads with
  | number spells denotes => exact (AtomReading.number spells denotes).readAtom_eq
  | literal noNumber isLiteral => exact (AtomReading.literal noNumber isLiteral).readAtom_eq
  | symbol noNumber noLiteral spells =>
      exact (AtomReading.symbol noNumber noLiteral spells).readAtom_eq
  | keyword noNumber noLiteral noSymbol spells =>
      exact (AtomReading.keyword noNumber noLiteral noSymbol spells).readAtom_eq

end TinyLisp
