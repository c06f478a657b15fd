import TinyLisp.Proofs.Number.Digits

/-!
# The grammar of numerals

A numeral is spelled by an optional sign, digits with at most one point and at least one digit, and
an optional exponent with a sign of its own or none. A text reads as a numeral just if it spells
one, and then as the numeral with these parts.
-/

namespace TinyLisp

namespace Numeral

/-- The texts of an optional sign, and whether it is a minus. -/
inductive SpellsSign : List Char → Bool → Prop
  | none : SpellsSign [] false
  | plus : SpellsSign ['+'] false
  | minus : SpellsSign ['-'] true

/-- The texts of an optional point with digits after it, or without any. -/
inductive SpellsFraction : List Char → Option (List Nat) → Prop
  | none : SpellsFraction [] none
  | point {digits : List Char} {values : List Nat}
      (denote : List.Forall₂ Text.Denotes digits values) :
      SpellsFraction ('.' :: digits) (some values)

/-- The texts of an optional exponent. -/
inductive SpellsExponent : List Char → Option (Bool × List Nat) → Prop
  | none : SpellsExponent [] none
  | power {mark : Char} {sign digits : List Char} {negative : Bool} {values : List Nat}
      (marked : mark = 'e' ∨ mark = 'E') (signed : SpellsSign sign negative)
      (denote : List.Forall₂ Text.Denotes digits values) (filled : values ≠ []) :
      SpellsExponent (mark :: (sign ++ digits)) (some (negative, values))

/-- The texts of a numeral. There is a digit before the exponent, on either side of the point. -/
inductive Spells : List Char → Numeral → Prop
  | parts {sign whole fraction exponent : List Char} {numeral : Numeral}
      (signed : SpellsSign sign numeral.negative)
      (denote : List.Forall₂ Text.Denotes whole numeral.whole)
      (pointed : SpellsFraction fraction numeral.fraction)
      (scaled : SpellsExponent exponent numeral.exponent)
      (filled : numeral.whole ≠ [] ∨ numeral.fraction.getD [] ≠ []) :
      Spells (sign ++ (whole ++ (fraction ++ exponent))) numeral

/-- A sign and digits spell an integer. -/
theorem spells_integer {sign digits : List Char} {negative : Bool} {values : List Nat}
    (signed : SpellsSign sign negative)
    (denote : List.Forall₂ Text.Denotes digits values) (filled : digits ≠ []) :
    Spells (sign ++ digits) ⟨negative, values, none, none⟩ := by
  have valued : values ≠ [] := by
    rintro rfl
    cases denote
    exact filled rfl
  simpa using @Spells.parts _ _ _ _ ⟨negative, values, none, none⟩ signed denote .none .none
    (.inl valued)

theorem takeSign_append {sign : List Char} {negative : Bool} (signed : SpellsSign sign negative)
    {rest : List Char} (unsigned : ∀ c ∈ rest.head?, c ≠ '-' ∧ c ≠ '+') :
    takeSign (sign ++ rest) = (negative, rest) := by
  cases signed with
  | plus | minus => rfl
  | none =>
      change takeSign rest = (false, rest)
      unfold takeSign
      split
      · exact absurd rfl (unsigned '-' rfl).1
      · exact absurd rfl (unsigned '+' rfl).2
      · rfl

theorem exists_sign_of_takeSign (text : List Char) :
    ∃ sign, sign ++ (takeSign text).2 = text ∧ SpellsSign sign (takeSign text).1 := by
  unfold takeSign
  split
  · exact ⟨['-'], rfl, .minus⟩
  · exact ⟨['+'], rfl, .plus⟩
  · exact ⟨[], rfl, .none⟩

theorem takeFraction_append {fraction : List Char} {values : Option (List Nat)}
    (pointed : SpellsFraction fraction values) {rest : List Char}
    (stops : ∀ c ∈ rest.head?, Text.digitValue? c = none ∧ c ≠ '.') :
    takeFraction (fraction ++ rest) = (values, rest) := by
  cases pointed with
  | none =>
      change takeFraction rest = (none, rest)
      unfold takeFraction
      split
      · exact absurd rfl (stops '.' rfl).2
      · rfl
  | point denote =>
      have taken := Text.takeDigits_append denote fun c head => (stops c head).1
      simp [takeFraction, taken]

theorem exists_fraction_of_takeFraction (text : List Char) :
    ∃ fraction, fraction ++ (takeFraction text).2 = text ∧
      SpellsFraction fraction (takeFraction text).1 := by
  unfold takeFraction
  split
  · next rest =>
      obtain ⟨digits, joined, denote⟩ := Text.exists_digits_of_takeDigits rest
      exact ⟨'.' :: digits, congrArg ('.' :: ·) joined, .point denote⟩
  · exact ⟨[], rfl, .none⟩

/-- Digits and what follows them do not start with a sign. -/
theorem head_digits_ne_sign {digits : List Char} {values : List Nat}
    (denote : List.Forall₂ Text.Denotes digits values) {rest : List Char}
    (unsigned : ∀ c ∈ rest.head?, c ≠ '-' ∧ c ≠ '+') :
    ∀ c ∈ (digits ++ rest).head?, c ≠ '-' ∧ c ≠ '+' := by
  cases denote with
  | nil => exact unsigned
  | cons denotes _ =>
      rintro c ⟨⟩
      have value := Text.digitValue?_eq_some_iff.mpr denotes
      have minus : Text.digitValue? '-' = none := by decide
      have plus : Text.digitValue? '+' = none := by decide
      constructor <;> rintro rfl
      · cases minus.symm.trans value
      · cases plus.symm.trans value

/-- The exponent makes up the whole text, so that its digits must end with it. -/
theorem exponent?_eq_some_iff {text : List Char} {exponent : Option (Bool × List Nat)} :
    exponent? text = some exponent ↔ SpellsExponent text exponent := by
  constructor
  · intro found
    unfold exponent? at found
    split at found
    · cases found
      exact .none
    · next mark rest =>
        split at found
        · next marked =>
            obtain ⟨sign, joined, signed⟩ := exists_sign_of_takeSign rest
            obtain ⟨digits, run, denote⟩ := Text.exists_digits_of_takeDigits (takeSign rest).2
            simp only at found
            split at found
            · next digit values whole =>
                cases found
                rw [whole] at run denote
                have spells := SpellsExponent.power marked signed denote (List.cons_ne_nil _ _)
                rwa [← List.append_nil digits, run, joined] at spells
            · cases found
        · cases found
  · rintro (_ | ⟨marked, signed, denote, filled⟩)
    · rfl
    · next mark sign digits negative values =>
        have unsigned : ∀ c ∈ digits.head?, c ≠ '-' ∧ c ≠ '+' := by
          simpa using @head_digits_ne_sign _ _ denote [] (by simp)
        obtain ⟨digit, others, rfl⟩ := List.exists_cons_of_ne_nil filled
        simp [exponent?, marked, takeSign_append signed unsigned, Text.takeDigits_digits denote]

/-- No digit and no point starts an exponent. -/
theorem head_exponent {text : List Char} {exponent : Option (Bool × List Nat)}
    (scaled : SpellsExponent text exponent) :
    ∀ c ∈ text.head?, Text.digitValue? c = none ∧ c ≠ '.' ∧ c ≠ '-' ∧ c ≠ '+' := by
  cases scaled with
  | none => nofun
  | power marked =>
      rintro c ⟨⟩
      rcases marked with rfl | rfl <;> decide

/-- No digit starts a fraction or the exponent after it. -/
theorem head_fraction {fraction exponent : List Char} {values : Option (List Nat)}
    {power : Option (Bool × List Nat)} (pointed : SpellsFraction fraction values)
    (scaled : SpellsExponent exponent power) :
    ∀ c ∈ (fraction ++ exponent).head?, Text.digitValue? c = none ∧ c ≠ '-' ∧ c ≠ '+' := by
  cases pointed with
  | none =>
      intro c head
      obtain ⟨noDigit, -, unsigned⟩ := head_exponent scaled c head
      exact ⟨noDigit, unsigned⟩
  | point denote =>
      rintro c ⟨⟩
      decide

theorem spells_of_parse? {text : List Char} {numeral : Numeral}
    (parsed : parse? text = some numeral) : Spells text numeral := by
  obtain ⟨sign, signJoined, signed⟩ := exists_sign_of_takeSign text
  obtain ⟨whole, wholeJoined, denote⟩ := Text.exists_digits_of_takeDigits (takeSign text).2
  obtain ⟨fraction, fractionJoined, pointed⟩ :=
    exists_fraction_of_takeFraction (Text.takeDigits (takeSign text).2).2
  simp only [Numeral.parse?] at parsed
  split at parsed
  · cases parsed
  · next digits =>
      obtain ⟨exponent, found, rfl⟩ := Option.map_eq_some_iff.mp parsed
      have scaled := exponent?_eq_some_iff.mp found
      have filled : (Text.takeDigits (takeSign text).2).1 ≠ [] ∨
          (takeFraction (Text.takeDigits (takeSign text).2).2).1.getD [] ≠ [] := by
        rwa [Bool.not_eq_true, Bool.and_eq_false_iff, List.isEmpty_eq_false_iff,
          List.isEmpty_eq_false_iff] at digits
      have spells :=
        @Spells.parts _ _ _ _ ⟨_, _, _, exponent⟩ signed denote pointed scaled filled
      rwa [fractionJoined, wholeJoined, signJoined] at spells

theorem Spells.parse? {text : List Char} {numeral : Numeral} (spells : Spells text numeral) :
    Numeral.parse? text = some numeral := by
  obtain ⟨signed, denote, pointed, scaled, filled⟩ := spells
  next sign whole fraction exponent =>
    have after := head_fraction pointed scaled
    have unsigned := head_digits_ne_sign denote fun c head => (after c head).2
    have digits := Text.takeDigits_append denote fun c head => (after c head).1
    have point := takeFraction_append pointed fun c head =>
      ⟨(head_exponent scaled c head).1, (head_exponent scaled c head).2.1⟩
    have present : (numeral.whole.isEmpty && (numeral.fraction.getD []).isEmpty) = false := by
      rwa [Bool.and_eq_false_iff, List.isEmpty_eq_false_iff, List.isEmpty_eq_false_iff]
    simp only [Numeral.parse?, takeSign_append signed unsigned, digits, point, present,
      exponent?_eq_some_iff.mpr scaled]
    rfl

/-- A text reads as a numeral just if it spells the numeral. -/
theorem parse?_eq_some_iff {text : List Char} {numeral : Numeral} :
    parse? text = some numeral ↔ Spells text numeral :=
  ⟨spells_of_parse?, Spells.parse?⟩

end Numeral

end TinyLisp
