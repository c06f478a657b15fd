import TinyLisp.Number.Numeral
import Mathlib.Data.List.Forall2
import Mathlib.Data.Nat.Digits.Lemmas

/-!
# Runs of decimal digits

A digit is a character that stands at the place of its value in one of the runs of ten, which do
not overlap. Reading a run of digits gives their values and stops at the first character that is no
digit; a list of such values denotes its positional value in base ten. ASCII digits are the only
ones that are ever written.
-/

namespace TinyLisp

namespace Text

/-- The character is the digit of a value in one of the scripts. -/
def Denotes (c : Char) (digit : Nat) : Prop :=
  ∃ first ∈ digitZeros, digit < 10 ∧ c.toNat = first + digit

theorem digitZeros_apart : digitZeros.Pairwise fun first second => first + 10 ≤ second := by
  decide

/-- The runs are searched from the first one on, and no earlier one reaches as far. -/
theorem digitValue?_eq_some_iff {c : Char} {digit : Nat} :
    digitValue? c = some digit ↔ Denotes c digit := by
  constructor
  · intro value
    obtain ⟨first, found, rfl⟩ := Option.map_eq_some_iff.mp value
    have within := List.find?_some found
    simp only [Bool.and_eq_true, decide_eq_true_eq] at within
    exact ⟨first, List.mem_of_find?_eq_some found, by omega, by omega⟩
  · rintro ⟨first, member, small, place⟩
    obtain ⟨earlier, later, runs⟩ := List.append_of_mem member
    have apart := digitZeros_apart
    rw [runs, List.pairwise_append] at apart
    have found : digitZeros.find? (fun first => first ≤ c.toNat && c.toNat < first + 10) =
        some first := by
      refine List.find?_eq_some_iff_append.mpr ⟨?_, earlier, later, runs, fun other among => ?_⟩
      · simp only [Bool.and_eq_true, decide_eq_true_eq]
        omega
      · have before := apart.2.2 other among first List.mem_cons_self
        simp only [Bool.not_eq_true', Bool.and_eq_false_iff, decide_eq_false_iff_not]
        omega
    rw [digitValue?, found, Option.map_some, place, Nat.add_sub_cancel_left]

def asciiDigit (c : Char) : Nat := c.toNat - '0'.toNat

theorem denotes_asciiDigit {c : Char} (ascii : c.isDigit) : Denotes c (asciiDigit c) := by
  have bounds : '0'.toNat ≤ c.toNat ∧ c.toNat ≤ '9'.toNat := Char.isDigit_iff_toNat.mp ascii
  refine ⟨'0'.toNat, List.mem_cons_self, ?_, ?_⟩
  · have last : '9'.toNat = '0'.toNat + 9 := rfl
    unfold asciiDigit
    omega
  · exact (Nat.add_sub_of_le bounds.1).symm

theorem denote_asciiDigits {digits : List Char} (ascii : ∀ c ∈ digits, c.isDigit) :
    List.Forall₂ Denotes digits (digits.map asciiDigit) :=
  List.forall₂_map_right_iff.mpr (List.forall₂_same.mpr fun c member =>
    denotes_asciiDigit (ascii c member))

/-- What is taken from a text are digits at its head. -/
theorem exists_digits_of_takeDigits (text : List Char) :
    ∃ digits, digits ++ (takeDigits text).2 = text ∧
      List.Forall₂ Denotes digits (takeDigits text).1 := by
  induction text with
  | nil => exact ⟨[], rfl, .nil⟩
  | cons c rest ih =>
      rw [takeDigits]
      split
      · exact ⟨[], rfl, .nil⟩
      · next digit value =>
          obtain ⟨digits, joined, denote⟩ := ih
          exact ⟨c :: digits, congrArg (c :: ·) joined,
            .cons (digitValue?_eq_some_iff.mp value) denote⟩

/-- Digits are taken as far as they go. -/
theorem takeDigits_append {digits : List Char} {values : List Nat}
    (denote : List.Forall₂ Denotes digits values) {rest : List Char}
    (stops : ∀ c ∈ rest.head?, digitValue? c = none) :
    takeDigits (digits ++ rest) = (values, rest) := by
  induction denote with
  | nil =>
      cases rest with
      | nil => rfl
      | cons c rest => simp [takeDigits, stops c (by simp)]
  | cons denotes _ ih =>
      simp [takeDigits, digitValue?_eq_some_iff.mpr denotes, ih]

theorem takeDigits_digits {digits : List Char} {values : List Nat}
    (denote : List.Forall₂ Denotes digits values) : takeDigits digits = (values, []) := by
  simpa using @takeDigits_append _ _ denote [] (by simp)

theorem lt_ten_of_denote {digits : List Char} {values : List Nat}
    (denote : List.Forall₂ Denotes digits values) : ∀ digit ∈ values, digit < 10 := by
  induction denote with
  | nil => simp
  | cons denotes _ ih =>
      obtain ⟨first, -, small, -⟩ := denotes
      exact List.forall_mem_cons.mpr ⟨small, ih⟩

/-- A run denotes its positional value in base ten. -/
theorem ofDigits_eq (digits : List Nat) : ofDigits digits = Nat.ofDigits 10 digits.reverse := by
  have step : (fun value digit : Nat => 10 * value + digit) =
      fun value digit => digit + 10 * value := by
    funext value digit
    exact Nat.add_comm _ _
  rw [Nat.ofDigits_eq_foldr, List.foldr_reverse, ofDigits, step]
  rfl

theorem ofDigits_append (left right : List Nat) :
    ofDigits (left ++ right) = ofDigits left * 10 ^ right.length + ofDigits right := by
  rw [ofDigits_eq, List.reverse_append, Nat.ofDigits_append, List.length_reverse, ← ofDigits_eq,
    ← ofDigits_eq, Nat.mul_comm, Nat.add_comm]

theorem ofDigits_replicate_zero (count : Nat) : ofDigits (List.replicate count 0) = 0 := by
  rw [ofDigits_eq, List.reverse_replicate, Nat.ofDigits_replicate_zero]

theorem ofDigits_lt_pow_length {digits : List Nat} (small : ∀ digit ∈ digits, digit < 10) :
    ofDigits digits < 10 ^ digits.length := by
  rw [ofDigits_eq, ← List.length_reverse]
  exact Nat.ofDigits_lt_base_pow_length (by decide) fun digit member =>
    small digit (List.mem_reverse.mp member)

/-- ASCII digits are read as the library's own reading of digit characters has it. -/
theorem ofDigits_map_asciiDigit (digits : List Char) :
    ofDigits (digits.map asciiDigit) = Nat.ofDigitChars 10 digits 0 := by
  rw [Nat.ofDigitChars_eq_foldl, ofDigits, List.foldl_map]
  rfl

theorem ofDigits_toDigits (value : Nat) :
    ofDigits ((Nat.toDigits 10 value).map asciiDigit) = value := by
  rw [ofDigits_map_asciiDigit, Nat.ofDigitChars_ten_toDigits]

theorem isDigit_of_mem_toDigits {value : Nat} {c : Char} (member : c ∈ Nat.toDigits 10 value) :
    c.isDigit :=
  Nat.isDigit_of_mem_toDigits (by decide) (by decide) member

end Text

end TinyLisp
