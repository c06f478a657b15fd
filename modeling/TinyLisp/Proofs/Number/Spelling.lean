import TinyLisp.Proofs.Number.Exact
import TinyLisp.Proofs.Number.Numerals
import TinyLisp.Proofs.Number.Rounding
import Mathlib.Data.List.TakeWhile

/-!
# Number texts read back

Every number text that is written is a spelling: a sign, whole digits, perhaps a point with digits
after it, and perhaps an exponent, all of them in ASCII. A spelling reads as the numeral with these
parts. Integers within the digit limit and all finite doubles read back as themselves.
-/

namespace TinyLisp

namespace Numeral

/-- The parts of a numeral that is written in ASCII digits. -/
structure Spelling where
  negative : Bool
  whole : List Char
  fraction : Option (List Char)
  exponent : Option (Bool × List Char)

namespace Spelling

def signText (negative : Bool) : List Char := if negative then ['-'] else []

def fractionText : Option (List Char) → List Char
  | none => []
  | some digits => '.' :: digits

/-- The mark of the exponent, its sign and its digits. -/
def exponentText : Option (Bool × List Char) → List Char
  | none => []
  | some (negative, digits) => 'e' :: (if negative then '-' else '+') :: digits

def text (spelling : Spelling) : List Char :=
  signText spelling.negative ++ (spelling.whole ++ (fractionText spelling.fraction ++
    exponentText spelling.exponent))

def numeral (spelling : Spelling) : Numeral where
  negative := spelling.negative
  whole := spelling.whole.map Text.asciiDigit
  fraction := spelling.fraction.map (·.map Text.asciiDigit)
  exponent := spelling.exponent.map fun (negative, digits) =>
    (negative, digits.map Text.asciiDigit)

/-- All digits are ASCII digits, and there is one wherever there must be one. -/
structure Proper (spelling : Spelling) : Prop where
  whole_ne_nil : spelling.whole ≠ []
  whole_digits : ∀ c ∈ spelling.whole, c.isDigit
  fraction_digits : ∀ digits, spelling.fraction = some digits → ∀ c ∈ digits, c.isDigit
  exponent_ne_nil : ∀ negative digits, spelling.exponent = some (negative, digits) → digits ≠ []
  exponent_digits : ∀ negative digits, spelling.exponent = some (negative, digits) →
    ∀ c ∈ digits, c.isDigit

end Spelling

theorem spellsSign_signText (negative : Bool) :
    SpellsSign (Spelling.signText negative) negative := by
  cases negative with
  | false => exact .none
  | true => exact .minus

/-- A spelling in ASCII digits spells the numeral with its parts. -/
theorem Spelling.Proper.spells {spelling : Spelling} (proper : spelling.Proper) :
    Spells spelling.text spelling.numeral := by
  obtain ⟨negative, whole, fraction, exponent⟩ := spelling
  refine .parts (spellsSign_signText negative) (Text.denote_asciiDigits proper.whole_digits)
    ?_ ?_ (.inl (by simpa [Spelling.numeral] using proper.whole_ne_nil))
  · cases fraction with
    | none => exact .none
    | some digits => exact .point (Text.denote_asciiDigits (proper.fraction_digits digits rfl))
  · cases exponent with
    | none => exact .none
    | some exponent =>
        obtain ⟨negative, digits⟩ := exponent
        have denote := Text.denote_asciiDigits (proper.exponent_digits negative digits rfl)
        have filled : digits.map Text.asciiDigit ≠ [] := by
          simpa using proper.exponent_ne_nil negative digits rfl
        cases negative with
        | false => exact .power (.inl rfl) .plus denote filled
        | true => exact .power (.inl rfl) .minus denote filled

theorem value_integer (negative : Bool) {values : List Nat} (short : values.length ≤ digitLimit) :
    (⟨negative, values, none, none⟩ : Numeral).value =
      .ok (.int (if negative then -Nat.ofDigits 10 values.reverse
        else Nat.ofDigits 10 values.reverse)) := by
  have positional : (Text.ofDigits values : Int) = Nat.ofDigits 10 values.reverse := by
    rw [Text.ofDigits_eq, Nat.coe_ofDigits, Nat.cast_ofNat]
  rw [← positional]
  exact if_neg (not_lt.mpr short)

theorem value_overlong (negative : Bool) {values : List Nat} (long : digitLimit < values.length) :
    (⟨negative, values, none, none⟩ : Numeral).value = .error values.length :=
  if_pos long

theorem long_of_value_eq_error {numeral : Numeral} {count : Nat}
    (failed : numeral.value = .error count) :
    numeral.isInteger ∧ digitLimit < numeral.whole.length := by
  unfold Numeral.value at failed
  split at failed
  · next integer =>
      split at failed
      · next long => exact ⟨integer, long⟩
      · cases failed
  · cases failed

/-- A spelling writes a text, its sign aside, that denotes a decimal and no integer. -/
structure Spelling.Writes (spelling : Spelling) (negative : Bool) (text : List Char)
    (decimal : Decimal) : Prop where
  proper : spelling.Proper
  sign : spelling.negative = negative
  text_eq : spelling.text = Spelling.signText negative ++ text
  noInteger : spelling.numeral.isInteger = false
  rounds : spelling.numeral.decimal.toBinary64 negative = decimal.toBinary64 negative

theorem mem_replicate_zero_isDigit {count : Nat} {c : Char}
    (member : c ∈ List.replicate count '0') : c.isDigit := by
  rw [List.eq_of_mem_replicate member]
  rfl

theorem writes_positional_below_one (negative : Bool) {digits : List Char} {leading : Int}
    (ascii : ∀ c ∈ digits, c.isDigit) (below : leading < 0) :
    ∃ spelling : Spelling, spelling.Writes negative (Decimal.positional digits leading)
      ⟨Text.ofDigits (digits.map Text.asciiDigit), leading - digits.length + 1⟩ := by
  refine ⟨⟨negative, ['0'],
    some (List.replicate (-leading - 1).toNat '0' ++ digits), none⟩, ?_, rfl, ?_, rfl, ?_⟩
  · constructor
    case whole_ne_nil => simp
    case whole_digits => simp
    case fraction_digits =>
        rintro _ ⟨⟩ c member
        rcases List.mem_append.mp member with zero | digit
        · exact mem_replicate_zero_isDigit zero
        · exact ascii c digit
    case exponent_ne_nil => simp
    case exponent_digits => simp
  · simp [Spelling.text, Decimal.positional, below, Spelling.fractionText, Spelling.exponentText]
  · congr 1
    simp only [Spelling.numeral, Numeral.decimal, Option.map_some, Option.getD_some,
      List.map_append, List.map_replicate, Option.map_none, Decimal.mk.injEq]
    constructor
    · have zeros : Text.ofDigits (['0'].map Text.asciiDigit) = 0 := rfl
      have more : Text.asciiDigit '0' = 0 := rfl
      rw [Text.ofDigits_append, Text.ofDigits_append, zeros, more, Text.ofDigits_replicate_zero]
      simp
    · simp only [List.length_append, List.length_replicate, List.length_map]
      omega

theorem writes_positional_whole (negative : Bool) {digits : List Char} {leading : Int}
    (ascii : ∀ c ∈ digits, c.isDigit) (above : 0 ≤ leading)
    (short : digits.length ≤ leading.toNat + 1) :
    ∃ spelling : Spelling, spelling.Writes negative (Decimal.positional digits leading)
      ⟨Text.ofDigits (digits.map Text.asciiDigit), leading - digits.length + 1⟩ := by
  obtain ⟨zeros, total⟩ : ∃ zeros, digits.length + zeros = leading.toNat + 1 :=
    ⟨_, Nat.add_sub_of_le short⟩
  refine ⟨⟨negative, digits ++ List.replicate zeros '0', some ['0'], none⟩, ?_, rfl, ?_, rfl, ?_⟩
  · constructor
    case whole_ne_nil => exact List.ne_nil_of_length_pos (by simp; omega)
    case whole_digits =>
        intro c member
        rcases List.mem_append.mp member with digit | zero
        · exact ascii c digit
        · exact mem_replicate_zero_isDigit zero
    case fraction_digits => simp
    case exponent_ne_nil => simp
    case exponent_digits => simp
  · have noFraction : digits.drop (leading.toNat + 1) = [] := List.drop_eq_nil_of_le short
    have padding : leading.toNat + 1 - digits.length = zeros := by omega
    have taken : (digits ++ List.replicate zeros '0').take (leading.toNat + 1) =
        digits ++ List.replicate zeros '0' :=
      List.take_of_length_le (by simp; omega)
    simp [Spelling.text, Decimal.positional, not_lt.mpr above, noFraction, padding, taken,
      Spelling.fractionText, Spelling.exponentText]
  · have value : Text.ofDigits ((digits ++ List.replicate zeros '0').map Text.asciiDigit ++
        ['0'].map Text.asciiDigit) =
        Text.ofDigits (digits.map Text.asciiDigit) * 10 ^ (zeros + 1) := by
      have zero : Text.asciiDigit '0' = 0 := rfl
      rw [List.map_append, List.map_replicate, zero, List.append_assoc, List.map_singleton, zero,
        ← List.replicate_succ', Text.ofDigits_append, Text.ofDigits_replicate_zero]
      simp
    simp only [Spelling.numeral, Numeral.decimal, Option.map_some, Option.getD_some,
      Option.map_none, value, Decimal.toBinary64_mul_pow]
    congr 2
    simp only [List.map_singleton, List.length_singleton]
    omega

theorem writes_positional_mixed (negative : Bool) {digits : List Char} {leading : Int}
    (ascii : ∀ c ∈ digits, c.isDigit) (above : 0 ≤ leading)
    (long : leading.toNat + 1 < digits.length) :
    ∃ spelling : Spelling, spelling.Writes negative (Decimal.positional digits leading)
      ⟨Text.ofDigits (digits.map Text.asciiDigit), leading - digits.length + 1⟩ := by
  refine ⟨⟨negative, digits.take (leading.toNat + 1), some (digits.drop (leading.toNat + 1)),
    none⟩, ?_, rfl, ?_, rfl, ?_⟩
  · constructor
    case whole_ne_nil => exact List.ne_nil_of_length_pos (by simp; omega)
    case whole_digits => exact fun c member => ascii c (List.mem_of_mem_take member)
    case fraction_digits =>
        rintro _ ⟨⟩ c member
        exact ascii c (List.mem_of_mem_drop member)
    case exponent_ne_nil => simp
    case exponent_digits => simp
  · have noZeros : leading.toNat + 1 - digits.length = 0 := by omega
    simp [Spelling.text, Decimal.positional, not_lt.mpr above, noZeros, long,
      Spelling.fractionText, Spelling.exponentText]
  · congr 1
    simp only [Spelling.numeral, Numeral.decimal, Option.map_some, Option.getD_some,
      Option.map_none, ← List.map_append, List.take_append_drop, Decimal.mk.injEq, true_and,
      List.length_map, List.length_drop]
    omega

theorem writes_positional (negative : Bool) {digits : List Char} (leading : Int)
    (ascii : ∀ c ∈ digits, c.isDigit) :
    ∃ spelling : Spelling, spelling.Writes negative (Decimal.positional digits leading)
      ⟨Text.ofDigits (digits.map Text.asciiDigit), leading - digits.length + 1⟩ := by
  rcases lt_or_ge leading 0 with below | above
  · exact writes_positional_below_one negative ascii below
  · rcases le_or_gt digits.length (leading.toNat + 1) with short | long
    · exact writes_positional_whole negative ascii above short
    · exact writes_positional_mixed negative ascii above long

theorem writes_scientific (negative : Bool) (width : Nat) {digits : List Char} (leading : Int)
    (nonempty : digits ≠ []) (ascii : ∀ c ∈ digits, c.isDigit) :
    ∃ spelling : Spelling, spelling.Writes negative (Decimal.scientific width digits leading)
      ⟨Text.ofDigits (digits.map Text.asciiDigit), leading - digits.length + 1⟩ := by
  obtain ⟨first, fraction, rfl⟩ := List.exists_cons_of_ne_nil nonempty
  let exponent := List.replicate (width - (Nat.toDigits 10 leading.natAbs).length) '0' ++
    Nat.toDigits 10 leading.natAbs
  refine ⟨⟨negative, [first], if fraction.isEmpty then none else some fraction,
    some (leading < 0, exponent)⟩, ?_, rfl, ?_, ?_, ?_⟩
  · constructor
    case whole_ne_nil => simp
    case whole_digits => simpa using ascii first (by simp)
    case fraction_digits =>
        intro _ found c member
        split at found <;> cases found
        exact ascii c (by simp [member])
    case exponent_ne_nil =>
        rintro _ _ ⟨⟩
        simp [exponent]
    case exponent_digits =>
        rintro _ _ ⟨⟩ c member
        rcases List.mem_append.mp member with zero | digit
        · exact mem_replicate_zero_isDigit zero
        · exact Text.isDigit_of_mem_toDigits digit
  · cases fraction <;>
      simp [Spelling.text, Decimal.scientific, Decimal.exponentText, Spelling.fractionText,
        Spelling.exponentText, exponent]
  · simp [Spelling.numeral, Numeral.isInteger]
  · have value : Text.ofDigits (exponent.map Text.asciiDigit) = leading.natAbs := by
      have zero : Text.asciiDigit '0' = 0 := rfl
      rw [List.map_append, List.map_replicate, zero, Text.ofDigits_append,
        Text.ofDigits_replicate_zero, Text.ofDigits_toDigits]
      simp
    have sign : (if leading < 0 then -|leading| else |leading|) = leading := by
      split
      · next below => rw [abs_of_neg below, neg_neg]
      · next above => exact abs_of_nonneg (not_lt.mp above)
    congr 1
    cases fraction with
    | nil => simp [Spelling.numeral, Numeral.decimal, value, sign]
    | cons second rest =>
        simp [Spelling.numeral, Numeral.decimal, value, sign]
        omega

/-- A text is what is left of it without the zeros at its end, followed by those zeros. -/
theorem exists_append_zeros (text : List Char) :
    ∃ zeros, (text.reverse.dropWhile (· = '0')).reverse ++ List.replicate zeros '0' = text := by
  let dropped := text.reverse.takeWhile (· = '0')
  have allZeros : dropped.reverse = List.replicate dropped.length '0' := by
    refine List.eq_replicate_iff.mpr ⟨List.length_reverse, fun c member => ?_⟩
    simpa using List.mem_takeWhile_imp (List.mem_reverse.mp member)
  refine ⟨dropped.length, ?_⟩
  rw [← allZeros, ← List.reverse_append, List.takeWhile_append_dropWhile, List.reverse_reverse]

theorem toDigits_eq_append_zeros {significand : Nat} (nonzero : significand ≠ 0) :
    ∃ digits zeros, digits ≠ [] ∧ (∀ c ∈ digits, c.isDigit) ∧
      ((Nat.toDigits 10 significand).reverse.dropWhile (· = '0')).reverse = digits ∧
      (Nat.toDigits 10 significand).length = digits.length + zeros ∧
      significand = Text.ofDigits (digits.map Text.asciiDigit) * 10 ^ zeros := by
  obtain ⟨zeros, all⟩ := exists_append_zeros (Nat.toDigits 10 significand)
  generalize ((Nat.toDigits 10 significand).reverse.dropWhile (· = '0')).reverse = digits at all
  have value : significand = Text.ofDigits (digits.map Text.asciiDigit) * 10 ^ zeros := by
    have zero : Text.asciiDigit '0' = 0 := rfl
    have read := Text.ofDigits_toDigits significand
    rw [← all, List.map_append, List.map_replicate, zero, Text.ofDigits_append,
      Text.ofDigits_replicate_zero, List.length_replicate] at read
    omega
  refine ⟨digits, zeros, ?_, ?_, rfl, ?_, value⟩
  · rintro rfl
    exact nonzero (by simpa [Text.ofDigits] using value)
  · intro c member
    exact @Text.isDigit_of_mem_toDigits significand c (all ▸ List.mem_append_left _ member)
  · rw [← all, List.length_append, List.length_replicate]

/-- Whatever its layout, the text of a decimal denotes the decimal. -/
theorem writes_decimal (format : DecimalFormat) (negative : Bool) {decimal : Decimal}
    (nonzero : decimal.significand ≠ 0) :
    ∃ spelling : Spelling, spelling.Writes negative (decimal.text format) decimal := by
  obtain ⟨digits, zeros, nonempty, ascii, stripped, length, value⟩ :=
    toDigits_eq_append_zeros nonzero
  let leading := decimal.exponent + (Nat.toDigits 10 decimal.significand).length - 1
  have same : decimal.toBinary64 negative =
      (⟨Text.ofDigits (digits.map Text.asciiDigit), leading - digits.length + 1⟩ :
        Decimal).toBinary64 negative := by
    have exponent : leading - digits.length + 1 = decimal.exponent + zeros := by
      simp only [leading, length]
      push_cast
      ring
    rw [exponent, ← Decimal.toBinary64_mul_pow, ← value]
  have written : ∃ spelling : Spelling, spelling.Writes negative (decimal.text format)
      ⟨Text.ofDigits (digits.map Text.asciiDigit), leading - digits.length + 1⟩ := by
    simp only [Decimal.text, stripped]
    split
    · exact writes_positional negative leading ascii
    · exact writes_scientific negative format.exponentWidth leading nonempty ascii
  obtain ⟨spelling, writes⟩ := written
  exact ⟨spelling, { writes with rounds := writes.rounds.trans same.symm }⟩

theorem exists_spelling_zero (negative : Bool) {magnitude : Magnitude}
    (zero : magnitude.units = 0) :
    ∃ spelling : Spelling, spelling.Proper ∧
      spelling.text = Spelling.signText negative ++ ['0', '.', '0'] ∧
      spelling.numeral.value = .ok (.float (.finite negative magnitude)) := by
  refine ⟨⟨negative, ['0'], some ['0'], none⟩, ?_, rfl, ?_⟩
  · constructor <;> simp
  · obtain ⟨units, _, _⟩ := magnitude
    cases zero
    rfl

theorem exists_spelling_finite (negative : Bool) (magnitude : Magnitude) :
    ∃ spelling : Spelling, spelling.Proper ∧
      spelling.text = (Number.float (.finite negative magnitude)).text ∧
      spelling.numeral.value = .ok (.float (.finite negative magnitude)) := by
  by_cases zero : magnitude.units = 0
  · simpa [Number.text, Binary64.text, zero, Spelling.signText] using
      exists_spelling_zero negative zero
  · obtain ⟨spelling, writes⟩ := writes_decimal Number.floatFormat negative
      (Magnitude.shortest_significand_ne_zero zero)
    refine ⟨spelling, writes.proper, ?_, ?_⟩
    · simpa [Number.text, Binary64.text, zero, Spelling.signText] using writes.text_eq
    · have rounds : spelling.numeral.decimal.toBinary64 spelling.numeral.negative =
          .finite negative magnitude := by
        rw [show spelling.numeral.negative = negative from writes.sign, writes.rounds,
          Decimal.toBinary64_of_readsFrom (Magnitude.readsFrom_shortest zero)]
      simp [Numeral.value, writes.noInteger, rounds]

theorem exists_spelling_int {value : Int}
    (short : Decimal.digitCount value.natAbs ≤ digitLimit) :
    ∃ spelling : Spelling, spelling.Proper ∧ spelling.text = (Number.int value).text ∧
      spelling.numeral.value = .ok (.int value) := by
  refine ⟨⟨value < 0, Nat.toDigits 10 value.natAbs, none, none⟩, ?_, ?_, ?_⟩
  · constructor
    case whole_ne_nil => simp
    case whole_digits => exact fun c member => Text.isDigit_of_mem_toDigits member
    case fraction_digits => simp
    case exponent_ne_nil => simp
    case exponent_digits => simp
  · simp [Spelling.text, Spelling.signText, Spelling.fractionText, Spelling.exponentText,
      Number.text, Number.integerText]
  · have short : ¬ ((Nat.toDigits 10 value.natAbs).map Text.asciiDigit).length > digitLimit := by
      simpa [Decimal.digitCount] using short
    simp only [Numeral.value, isInteger, Spelling.numeral, Numeral.integer, Option.map_none,
      Option.isNone_none, Bool.and_self, if_true, if_neg short, Text.ofDigits_toDigits]
    congr 2
    simp only [decide_eq_true_eq]
    omega

end Numeral

namespace Number

/-- Whether a text can denote the number: an integer within the digit limit, or a finite double. -/
def Readable : Number → Prop
  | .int value => Decimal.digitCount value.natAbs ≤ digitLimit
  | .float (.finite _ _) => True
  | .float _ => False

theorem Readable.exceedsDigitLimit {number : Number} (readable : number.Readable) :
    number.exceedsDigitLimit = false := by
  cases number with
  | int value =>
      have below := (Decimal.digitCount_le_iff (by decide)).mp readable
      unfold Number.exceedsDigitLimit digitBound
      generalize digitLimit = limit at below ⊢
      exact decide_eq_false (not_le.mpr below)
  | float value => rfl

theorem Readable.isDefined {number : Number} (readable : number.Readable) : number.IsDefined := by
  match number, readable with
  | .int _, _ | .float (.finite _ _), _ => trivial

/-- The text of a readable number spells the number. -/
theorem Readable.exists_spelling {number : Number} (readable : number.Readable) :
    ∃ spelling : Numeral.Spelling, spelling.Proper ∧ spelling.text = number.text ∧
      spelling.numeral.value = .ok number := by
  match number, readable with
  | .int _, short => exact Numeral.exists_spelling_int short
  | .float (.finite negative magnitude), _ =>
      exact Numeral.exists_spelling_finite negative magnitude

end Number

namespace Numeral

theorem lt_ten_of_mem_whole {text : List Char} {numeral : Numeral} (spells : Spells text numeral) :
    ∀ digit ∈ numeral.whole, digit < 10 := by
  obtain ⟨-, denote, -, -, -⟩ := spells
  exact Text.lt_ten_of_denote denote

/-- What a numeral denotes is readable, unless the decimal is out of range. -/
theorem readable_of_value {text : List Char} {numeral : Numeral} {number : Number}
    (spelled : parse? text = some numeral) (denotes : numeral.value = .ok number) :
    number.Readable ∨ ∃ negative, number = .float (.infinite negative) := by
  unfold value at denotes
  split at denotes
  · split at denotes
    · cases denotes
    · next short =>
        cases denotes
        refine .inl ?_
        have size : Text.ofDigits numeral.whole < 10 ^ digitLimit :=
          (Text.ofDigits_lt_pow_length (lt_ten_of_mem_whole (spells_of_parse? spelled))).trans_le
            (Nat.pow_le_pow_right (by decide) (by omega))
        have magnitude : numeral.integer.natAbs = Text.ofDigits numeral.whole := by
          simp only [integer]
          split <;> simp
        rw [← magnitude] at size
        exact (Decimal.digitCount_le_iff (by decide)).mpr size
  · cases denotes
    cases rounded : numeral.decimal.toBinary64 numeral.negative with
    | undefined object => exact absurd rounded (Decimal.toBinary64_ne_undefined _ _ object)
    | infinite negative => exact .inr ⟨negative, rfl⟩
    | finite negative magnitude => exact .inl trivial

end Numeral

end TinyLisp
