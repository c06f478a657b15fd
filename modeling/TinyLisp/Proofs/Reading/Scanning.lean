import TinyLisp.Proofs.Reading.Coverage
import TinyLisp.Proofs.Reading.Grammar

/-!
# Scanning what was written

A scan that has taken a text has some tokens, and may still be in the last one if that is an atom:
`Rests` says so. A text scans as forms if, wherever a token may begin, it leaves the tokens of these
forms. Atoms and quoted strings do, and so do sequences of texts that do.
-/

namespace TinyLisp

open Grammar

namespace Text

@[simp]
theorem unescape_escape_append (c : Char) (rest : List Char) :
    unescape (escape c ++ rest) = c :: unescape rest := by
  unfold escape
  split
  case h_6 backslash _ _ _ _ => exact unescape.eq_2 c rest fun _ _ same _ => backslash same
  all_goals rfl

/-- What is written between the quotes means the string that was written. -/
theorem unescape_flatMap_escape (text : List Char) : unescape (text.flatMap escape) = text := by
  induction text with
  | nil => rfl
  | cons c rest ih => rw [List.flatMap_cons, unescape_escape_append, ih]

theorem enclosed_flatMap_escape (text : List Char) : Enclosed (text.flatMap escape) := by
  induction text with
  | nil => exact .nil
  | cons c rest ih =>
      rw [List.flatMap_cons]
      refine Enclosed.append ?_ ih
      unfold escape
      split
      case h_6 backslash quote _ _ _ => exact .plain backslash quote .nil
      all_goals exact .escaped _ .nil

theorem stringContents_quote (text : List Char) :
    Reading.stringContents (quote text) = String.ofList text := by
  simp [Reading.stringContents, quote, unescape_flatMap_escape]

end Text

namespace Scanner

/-- The state of a scan that has some tokens, the latest first, and nothing else but perhaps
layout. -/
inductive Rests : Scanner → List Token → Prop
  | between {offset : Nat} {tokens : List Token} : Rests ⟨.between, offset, tokens⟩ tokens
  | atom {begun offset : Nat} {seen : List Char} {tokens : List Token} :
      Rests ⟨.atom begun seen, offset, tokens⟩ (finishToken tokens .atom begun seen)

variable {scanner : Scanner} {tokens : List Token}

/-- A character that is not part of an atom ends one. -/
theorem Rests.settled {rest : List Char} (rests : scanner.Rests tokens)
    (outside : ∀ c ∈ rest.head?, Text.isAtomChar c = false) : Settled rest scanner tokens := by
  cases rests with
  | between => exact .between
  | atom => exact .atom outside

theorem Rests.advance (rests : scanner.Rests tokens) {c : Char}
    (outside : Text.isAtomChar c = false) :
    scanner.advance c = advanceBetween scanner.offset tokens c := by
  have settled : Settled [c] scanner tokens := rests.settled (by simpa using outside)
  exact settled.advance

theorem Rests.finish (rests : scanner.Rests tokens) :
    scanner.finish = ⟨tokens.reverse, none⟩ := by
  have settled : Settled [] scanner tokens := rests.settled (by simp)
  exact settled.finish

/-- Wherever a token may begin, the text scans as tokens of the forms. -/
def Yields (text : List Char) (forms : List Value) : Prop :=
  ∀ (offset : Nat) (tokens : List Token), ∃ added, Forms added forms ∧
    Rests (text.foldl advance ⟨.between, offset, tokens⟩) (added.reverse ++ tokens)

theorem yields_atom {text : List Char} {value : Value} (isAtom : Text.IsAtom text)
    (reads : ∀ offset, readAtom offset text = .ok value) : Yields text [value] := by
  intro offset tokens
  obtain ⟨c, rest, rfl⟩ := List.exists_cons_of_ne_nil isAtom.ne_nil
  refine ⟨[⟨.atom, c :: rest, some offset⟩], (Form.atom rfl (reads _)).forms, ?_⟩
  have first : advance ⟨.between, offset, tokens⟩ c = ⟨.atom offset [c], offset + 1, tokens⟩ :=
    advanceBetween_atomChar offset tokens (isAtom.all c (by simp))
  rw [List.foldl_cons, first,
    foldl_advance_atom offset tokens fun other member => isAtom.all other (by simp [member])]
  have rests := @Rests.atom offset (offset + 1 + rest.length) (rest.reverse ++ [c]) tokens
  simpa [finishToken] using rests

theorem yields_quote (text : List Char) :
    Yields (Text.quote text) [.string (String.ofList text)] := by
  intro offset tokens
  let token : Token := ⟨.string, Text.quote text, some offset⟩
  have form : Form [token] (.string (String.ofList text)) := by
    rw [← Text.stringContents_quote]
    exact .string rfl
  refine ⟨[token], form.forms, ?_⟩
  have opens : advance ⟨.between, offset, tokens⟩ '"' =
      ⟨.string offset ['"'] false, offset + 1, tokens⟩ := rfl
  rw [Text.quote, List.foldl_cons, opens, List.foldl_append,
    foldl_advance_enclosed _ _ (Text.enclosed_flatMap_escape text)]
  simpa [advance, finishToken, token, Text.quote] using Rests.between

/-- A space ends whatever stands before it. -/
theorem yields_space {left right : List Char} {front back : List Value} (first : Yields left front)
    (second : Yields right back) : Yields (left ++ [' '] ++ right) (front ++ back) := by
  intro offset tokens
  obtain ⟨added, forms, rests⟩ := first offset tokens
  rw [List.foldl_append, List.foldl_append, List.foldl_cons, List.foldl_nil,
    rests.advance (by decide)]
  obtain ⟨more, others, last⟩ := second _ (added.reverse ++ tokens)
  refine ⟨added ++ more, forms.append others, ?_⟩
  rw [List.reverse_append, List.append_assoc]
  exact last

theorem yields_joined {items : List Value} {text : Value → List Char} {value : Value → Value}
    (yields : ∀ item ∈ items, Yields (text item) [value item]) :
    Yields (Value.joined [' '] (items.map text)) (items.map value) := by
  induction items with
  | nil => exact fun offset tokens => ⟨[], .nil, .between⟩
  | cons item rest ih =>
      have first := yields item (by simp)
      have others := ih fun other member => yields other (by simp [member])
      cases rest with
      | nil => exact first
      | cons next rest => exact yields_space first others

/-- Brackets around the texts of some items make up a sequence of them. -/
theorem yields_sequence (bracket : Bracket) {inner : List Char} {items : List Value}
    (yields : Yields inner items) :
    Yields (bracket.opening :: (inner ++ [bracket.closing])) [.sequence none bracket items] := by
  intro offset tokens
  let opener : Token := ⟨.opening bracket, [bracket.opening], some offset⟩
  have opens : advance ⟨.between, offset, tokens⟩ bracket.opening =
      ⟨.between, offset + 1, opener :: tokens⟩ := advanceBetween_opening offset tokens bracket
  obtain ⟨added, forms, rests⟩ := yields (offset + 1) (opener :: tokens)
  have outside : Text.isAtomChar bracket.closing = false := by cases bracket <;> rfl
  rw [List.foldl_cons, opens, List.foldl_append, List.foldl_cons, List.foldl_nil,
    rests.advance outside, advanceBetween_closing]
  generalize (List.foldl advance ⟨.between, offset + 1, opener :: tokens⟩ inner).offset = place
  have form : Form (opener :: (added ++ [⟨.closing bracket, [bracket.closing], some place⟩]))
      (.sequence none bracket items) := .sequence rfl forms rfl
  refine ⟨_, form.forms, ?_⟩
  simpa [finishToken] using Rests.between

theorem scan_eq_of_yields {text : List Char} {forms : List Value} (yields : Yields text forms) :
    ∃ tokens, scan text = ⟨tokens, none⟩ ∧ Forms tokens forms := by
  obtain ⟨tokens, derivation, rests⟩ := yields 0 []
  refine ⟨tokens, ?_, derivation⟩
  rw [scan, initial, rests.finish]
  simp

end Scanner

end TinyLisp
