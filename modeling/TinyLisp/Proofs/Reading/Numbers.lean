import TinyLisp.Proofs.Number.Overflow
import TinyLisp.Proofs.Reading.Atoms

/-!
# Atoms that are numbers

A sign and digits read as the integer that the digits denote, up to the limit on their number. A
number that was read is written as a text that reads as the same number, unless it is a double out
of range: an infinity is written as a word, and a word is a symbol.
-/

namespace TinyLisp

namespace Value

/-- A number within the digit limit is written alike in every style, and needs no room. -/
theorem textWithin_number {number : Number} (short : number.exceedsDigitLimit = false)
    (depth : Nat) (style : Style) :
    (Value.number number).textWithin depth style = .ok (String.ofList number.text) := by
  simp [textWithin, obstacle, short, render]

end Value

/-- The integers within the digit limit can be read. -/
theorem Number.readable_int_iff {value : Int} :
    (Number.int value).Readable ↔ (Nat.digits 10 value.natAbs).length ≤ digitLimit := by
  rw [Nat.digits_length_le_iff (by decide)]
  exact Decimal.digitCount_le_iff (by decide)

/-- A sign and digits of any scripts read as the integer that the digits denote in base ten, and
more digits than the limit are a fault of the value. Every integer within the limit is written as a
text that reads as the integer. -/
theorem readAtom_integer (offset : Option Int) :
    (∀ (sign digits : List Char) (negative : Bool) (values : List Nat),
      Numeral.SpellsSign sign negative → List.Forall₂ Text.Denotes digits values → digits ≠ [] →
        (digits.length ≤ digitLimit → readAtom offset (sign ++ digits) =
          .ok (.number (.int (if negative then -Nat.ofDigits 10 values.reverse
            else Nat.ofDigits 10 values.reverse)))) ∧
        (digitLimit < digits.length →
          readAtom offset (sign ++ digits) = .error (.tooManyDigits digits.length) ∧
          (ReadFault.tooManyDigits digits.length).kind = .value)) ∧
    ∀ value : Int, (Nat.digits 10 value.natAbs).length ≤ digitLimit →
      ∃ text, (∀ depth style,
        (Value.number (.int value)).textWithin depth style = .ok (String.ofList text)) ∧
        readAtom offset text = .ok (.number (.int value)) := by
  refine ⟨fun sign digits negative values signed denote filled => ?_, fun value short => ?_⟩
  · have spells := Numeral.spells_integer signed denote filled
    have count : digits.length = values.length := denote.length_eq
    rw [count]
    refine ⟨fun short => ?_, fun long => ⟨?_, rfl⟩⟩
    · exact (AtomReading.number spells (Numeral.value_integer negative short)).readAtom_eq
    · exact (AtomReading.overlong spells (Numeral.value_overlong negative long)).readAtom_eq
  · have readable := Number.readable_int_iff.mpr short
    exact ⟨_, Value.textWithin_number readable.exceedsDigitLimit,
      readable.readAtom_text.2 offset⟩

/-- Digits of three scripts with a zero in front of them, and one digit too many. -/
theorem readAtom_integer_scripts :
    readAtom none ['-', '०', '٤', '2'] = .ok (.number (.int (-42))) ∧
      readAtom none (List.replicate 4301 '7') = .error (.tooManyDigits 4301) ∧
      (ReadFault.tooManyDigits 4301).kind = .value ∧
      ∃ text, (∀ depth style,
        (Value.number (.int (-42))).textWithin depth style = .ok (String.ofList text)) ∧
        readAtom none text = .ok (.number (.int (-42))) := by
  obtain ⟨integers, written⟩ := readAtom_integer none
  have mixed : List.Forall₂ Text.Denotes ['०', '٤', '2'] [0, 4, 2] :=
    .cons (Text.digitValue?_eq_some_iff.mp rfl) (.cons (Text.digitValue?_eq_some_iff.mp rfl)
      (.cons (Text.digitValue?_eq_some_iff.mp rfl) .nil))
  have sevens (count : Nat) : ∀ c ∈ List.replicate count '7', c.isDigit := by
    intro c member
    rw [List.eq_of_mem_replicate member]
    rfl
  have count : (List.replicate 4301 '7').length = 4301 := List.length_replicate
  have filled : List.replicate 4301 '7' ≠ [] := List.cons_ne_nil _ _
  have long : digitLimit < (List.replicate 4301 '7').length := by rw [count]; decide
  have short := (integers ['-'] _ _ _ .minus mixed (List.cons_ne_nil _ _)).1 (by decide)
  have overlong := (integers [] _ _ _ .none (Text.denote_asciiDigits (sevens 4301)) filled).2 long
  rw [count] at overlong
  exact ⟨short, overlong.1, overlong.2, written (-42) (by simp [digitLimit])⟩

/-- An infinity is written as a word, which reads as a symbol. -/
theorem readAtom_infinite (offset : Option Int) (negative : Bool) :
    readAtom offset (Number.float (.infinite negative)).text =
      .ok (.symbol (.plain (if negative then "-inf" else "inf"))) := by
  cases negative <;> rfl

/-- A number that was read is written as a text that reads as the same number, just if it is not a
double out of range. The text of a double out of range reads as a symbol. -/
theorem readAtom_text_iff {offset : Option Int} {text : List Char} {number : Number}
    (reads : readAtom offset text = .ok (.number number)) :
    ∃ numeral, Numeral.Spells text numeral ∧
      (∀ depth style,
        (Value.number number).textWithin depth style = .ok (String.ofList number.text)) ∧
      number.eq number = true ∧
      ((∀ other, readAtom other number.text = .ok (.number number)) ↔ ¬ numeral.Overflows) ∧
      (numeral.Overflows → number = .float (.infinite numeral.negative) ∧
        ∀ other, readAtom other number.text =
          .ok (.symbol (.plain (if numeral.negative then "-inf" else "inf")))) := by
  cases readAtom_eq_iff.mp reads with
  | number spells denotes =>
      next numeral =>
        refine ⟨numeral, spells, ?_⟩
        by_cases overflows : numeral.Overflows
        · obtain rfl : number = .float (.infinite numeral.negative) :=
            Except.ok.inj (denotes.symm.trans
              (Numeral.value_eq_infinite_iff.mpr ⟨rfl, overflows⟩))
          have word (other : Option Int) := readAtom_infinite other numeral.negative
          refine ⟨Value.textWithin_number rfl, Number.eq_self trivial, ?_, fun _ => ⟨rfl, word⟩⟩
          refine iff_of_false (fun back => ?_) (not_not_intro overflows)
          cases (word none).symm.trans (back none)
        · have readable : number.Readable := by
            refine (Numeral.readable_of_value spells.parse? denotes).resolve_right ?_
            rintro ⟨negative, rfl⟩
            exact overflows (Numeral.value_eq_infinite_iff.mp denotes).2
          exact ⟨Value.textWithin_number readable.exceedsDigitLimit,
            Number.eq_self readable.isDefined, iff_of_true readable.readAtom_text.2 overflows,
            fun large => absurd large overflows⟩

/-- Negative zero, written without a digit before the point and in another script. -/
theorem readAtom_text_negative_zero :
    readAtom none ['-', '.', '٠'] = .ok (.number (.float (.signedZero true))) ∧
      (∀ depth style,
        (Value.number (.float (.signedZero true))).textWithin depth style = .ok "-0.0") ∧
      ∀ other, readAtom other ['-', '0', '.', '0'] = .ok (.number (.float (.signedZero true))) := by
  have reads : readAtom none ['-', '.', '٠'] = .ok (.number (.float (.signedZero true))) := rfl
  obtain ⟨numeral, -, written, -, back, infinite⟩ := readAtom_text_iff reads
  refine ⟨reads, written, back.mpr fun overflows => ?_⟩
  cases (infinite overflows).1

/-- A double out of range is written as a word that does not read as a number. -/
theorem readAtom_text_infinity :
    readAtom none ['1', 'e', '9', '9', '9'] = .ok (.number (.float (.infinite false))) ∧
      (∀ depth style, (Value.number (.float (.infinite false))).textWithin depth style =
        .ok (String.ofList ['i', 'n', 'f'])) ∧
      ¬ ∃ number, readAtom none ['i', 'n', 'f'] = .ok (.number number) := by
  refine ⟨rfl, Value.textWithin_number rfl, ?_⟩
  rintro ⟨number, back⟩
  cases (readAtom_infinite none false).symm.trans back

end TinyLisp
