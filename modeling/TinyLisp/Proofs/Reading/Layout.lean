import TinyLisp.Proofs.Reading.Joined
import Mathlib.Data.List.Chain

/-!
# Layout

Layout is made of separators and of comments that end with their line. Tokens may be written out
with any layout around them, as long as there is some between two atoms: the text has these tokens
again, wherever they stand in it now. Reading needs places for its faults only, so the text reads as
any other text with these tokens does, faults included, but for the places.
-/

namespace TinyLisp

namespace Text

/-- What may stand between tokens: separators, and comments with the ends of their lines. -/
inductive Layout : List Char → Prop
  | nil : Layout []
  | separator {c : Char} {rest : List Char} (separates : isSeparator c) (layout : Layout rest) :
      Layout (c :: rest)
  | comment {body rest : List Char} (inLine : '\n' ∉ body) (layout : Layout rest) :
      Layout (';' :: (body ++ '\n' :: rest))

theorem Layout.head_ends_atom {gap : List Char} (layout : Layout gap) (filled : gap ≠ [])
    (rest : List Char) : ∀ c ∈ (gap ++ rest).head?, isAtomChar c = false := by
  cases layout with
  | nil => exact absurd rfl filled
  | separator separates =>
      rintro _ ⟨⟩
      simp [isAtomChar, separates]
  | comment =>
      rintro _ ⟨⟩
      rfl

end Text

theorem Lexeme.head_ends_atom {kind : TokenKind} {text after : List Char}
    (lexeme : Lexeme kind text after) (other : kind ≠ .atom) (rest : List Char) :
    ∀ c ∈ (text ++ rest).head?, Text.isAtomChar c = false := by
  cases lexeme with
  | opening bracket | closing bracket =>
      rintro _ ⟨⟩
      cases bracket <;> rfl
  | string =>
      rintro _ ⟨⟩
      rfl
  | atom => exact absurd rfl other

theorem Covers.layout {gap : List Char} (layout : Text.Layout gap) {taken rest : List Char}
    {tokens : List Token} (covers : Covers taken tokens (gap ++ rest)) :
    Covers (taken ++ gap) tokens rest := by
  induction layout generalizing taken with
  | nil => simpa using covers
  | separator separates _ ih => simpa using ih (covers.separator separates)
  | @comment body gap inLine _ ih =>
      have commented : Covers taken tokens (';' :: (body ++ '\n' :: (gap ++ rest))) := by
        simpa using covers
      have ended := (commented.comment inLine (by simp)).separator (by decide)
      simpa using ih ended

/-- A token with the text that is written in front of it. -/
structure LaidToken where
  gap : List Char
  token : Token

def Token.unplaced (token : Token) : Token := { token with offset := none }

namespace LaidToken

/-- Two tokens, one after the other, are kept apart if both are atoms. -/
def Apart (first second : LaidToken) : Prop :=
  first.token.kind = .atom → second.token.kind = .atom → second.gap ≠ []

/-- Tokens written out one after the other, and the text at the end. -/
def write : List LaidToken → List Char → List Char
  | [], last => last
  | laid :: rest, last => laid.gap ++ (laid.token.text ++ write rest last)

/-- There is layout in front of each token and at the end, and atoms are kept apart. -/
structure Proper (laid : List LaidToken) (last : List Char) : Prop where
  gaps : ∀ piece ∈ laid, Text.Layout piece.gap
  last : Text.Layout last
  apart : laid.IsChain Apart

variable {laid : List LaidToken} {piece : LaidToken} {last : List Char}

theorem Proper.tail (proper : Proper (piece :: laid) last) : Proper laid last where
  gaps _ member := proper.gaps _ (List.mem_cons_of_mem _ member)
  last := proper.last
  apart := (List.isChain_cons.mp proper.apart).2

/-- What comes after an atom ends it. -/
theorem Proper.ends_atom (proper : Proper (piece :: laid) last)
    (lexemes : ∀ other ∈ laid, ∃ after, Lexeme other.token.kind other.token.text after)
    (isAtom : piece.token.kind = .atom) :
    ∀ c ∈ (write laid last).head?, Text.isAtomChar c = false := by
  cases laid with
  | nil =>
      rw [write]
      by_cases filled : last = []
      · simp [filled]
      · simpa using proper.last.head_ends_atom filled []
  | cons next rest =>
      rw [write]
      by_cases filled : next.gap = []
      · have other : next.token.kind ≠ .atom := fun same =>
          (List.isChain_cons.mp proper.apart).1 next rfl isAtom same filled
        obtain ⟨after, lexeme⟩ := lexemes next List.mem_cons_self
        rw [filled]
        exact lexeme.head_ends_atom other _
      · exact (proper.gaps next (by simp)).head_ends_atom filled _

/-- Tokens that are properly written out take up the text. -/
theorem Proper.covers (proper : Proper laid last)
    (lexemes : ∀ piece ∈ laid, ∃ after, Lexeme piece.token.kind piece.token.text after)
    {taken : List Char} {tokens : List Token} (covers : Covers taken tokens (write laid last)) :
    ∃ placed, placed.map Token.unplaced = laid.map (·.token.unplaced) ∧
      Covers (taken ++ write laid last) (tokens ++ placed) [] := by
  induction laid generalizing taken tokens with
  | nil =>
      have whole : Covers taken tokens (last ++ []) := by simpa [write] using covers
      exact ⟨[], rfl, by simpa [write] using whole.layout proper.last⟩
  | cons piece rest ih =>
      rw [List.forall_mem_cons] at lexemes
      obtain ⟨⟨after, lexeme⟩, others⟩ := lexemes
      rw [write] at covers
      have next := (covers.layout (proper.gaps piece List.mem_cons_self)).token
        (lexeme.before (proper.ends_atom others))
      obtain ⟨placed, same, whole⟩ := ih proper.tail others next
      let found : Token :=
        ⟨piece.token.kind, piece.token.text, some ((taken ++ piece.gap).length : Int)⟩
      refine ⟨found :: placed, congrArg₂ List.cons rfl same, ?_⟩
      simpa [write, found] using whole

end LaidToken

/-- The fault without the places that it tells. -/
def ReadFault.unplaced : ReadFault → ReadFault
  | unterminatedString _ => unterminatedString 0
  | unexpectedCloser text _ => unexpectedCloser text none
  | mismatchedCloser text _ opened _ => mismatchedCloser text none opened none
  | unknownToken label text _ => unknownToken label text none
  | unreadableAtom text _ => unreadableAtom text none
  | tooManyDigits count => tooManyDigits count
  | unclosed opened _ => unclosed opened none
  | formCount found => formCount found

theorem ReadFault.kind_unplaced (fault : ReadFault) : fault.unplaced.kind = fault.kind := by
  cases fault <;> rfl

namespace Reading

def unplaced (reading : Reading) : Reading :=
  ⟨reading.items, reading.opened.map fun bracket => { bracket with offset := none }⟩

theorem readAtom_unplaced (offset : Option Int) (text : List Char) :
    readAtom none text = (readAtom offset text).mapError ReadFault.unplaced :=
  readAtom_mapError (fun _ => rfl) rfl

theorem accept_unplaced (reading : Reading) (token : Token) :
    reading.unplaced.accept token.unplaced =
      ((reading.accept token).map unplaced).mapError ReadFault.unplaced := by
  obtain ⟨items, opened⟩ := reading
  obtain ⟨kind, text, offset⟩ := token
  cases kind with
  | opening bracket | string | other => rfl
  | closing bracket =>
      cases opened with
      | nil => rfl
      | cons innermost enclosing =>
          simp only [accept, Token.unplaced, unplaced, close, List.map_cons]
          split <;> rfl
  | atom =>
      simp only [accept, Token.unplaced, readAtom_unplaced offset]
      cases readAtom offset text <;> rfl

theorem foldlM_accept_unplaced (tokens : List Token) (reading : Reading) :
    (tokens.map Token.unplaced).foldlM accept reading.unplaced =
      ((tokens.foldlM accept reading).map unplaced).mapError ReadFault.unplaced := by
  induction tokens generalizing reading with
  | nil => rfl
  | cons token rest ih =>
      rw [List.map_cons, List.foldlM_cons, List.foldlM_cons, accept_unplaced]
      cases reading.accept token with
      | ok next => exact ih next
      | error fault => rfl

/-- The places of tokens matter for the places in faults only. -/
theorem readTokens_unplaced (tokens : List Token) :
    readTokens (tokens.map Token.unplaced) = (readTokens tokens).mapError ReadFault.unplaced := by
  have start : initial = initial.unplaced := rfl
  rw [readTokens, start, foldlM_accept_unplaced, readTokens]
  cases tokens.foldlM accept initial with
  | error fault => rfl
  | ok reading =>
      obtain ⟨items, _ | ⟨innermost, enclosing⟩⟩ := reading <;> rfl

end Reading

theorem readForms_of_scan {text : List Char} {tokens : List Token}
    (whole : scan text = ⟨tokens, none⟩) : readForms text = readTokens tokens := by
  rw [readForms, whole, readTokens]

/-- The tokens of a text without an unfinished string may be written out with any layout, as long as
there is some between two atoms. The new text has the same tokens and no unfinished string either,
and it reads as the same forms, or fails for the same reason and with the same kind of error. -/
theorem scan_write {source : List Char} {laid : List LaidToken} {last : List Char}
    (whole : scan source = ⟨laid.map (·.token), none⟩) (proper : LaidToken.Proper laid last) :
    (∃ placed, scan (LaidToken.write laid last) = ⟨placed, none⟩ ∧
        placed.map Token.unplaced = laid.map (·.token.unplaced)) ∧
      (readForms (LaidToken.write laid last)).mapError ReadFault.unplaced =
        (readForms source).mapError ReadFault.unplaced ∧
      (readForms (LaidToken.write laid last)).mapError ReadFault.kind =
        (readForms source).mapError ReadFault.kind := by
  have lexemes (piece : LaidToken) (member : piece ∈ laid) :
      ∃ after, Lexeme piece.token.kind piece.token.text after := by
    have found := (finds_scan source).lexeme piece.token
    rw [whole] at found
    exact found (List.mem_map_of_mem member)
  obtain ⟨placed, same, covers⟩ := proper.covers lexemes (.start _)
  have written : scan (LaidToken.write laid last) = ⟨placed, none⟩ :=
    scan_eq_iff.mpr (.whole covers)
  have alike : (readForms (LaidToken.write laid last)).mapError ReadFault.unplaced =
      (readForms source).mapError ReadFault.unplaced := by
    rw [readForms_of_scan written, readForms_of_scan whole, ← Reading.readTokens_unplaced,
      ← Reading.readTokens_unplaced, same, List.map_map]
    rfl
  have kinds (result : Except ReadFault (List Value)) :
      result.mapError ReadFault.kind =
        (result.mapError ReadFault.unplaced).mapError ReadFault.kind := by
    cases result with
    | ok forms => rfl
    | error fault => exact congrArg Except.error fault.kind_unplaced.symm
  exact ⟨⟨placed, written, same⟩, alike, by rw [kinds, alike, ← kinds]⟩

/-- A comment with a quote in it stands between two atoms, and nothing between an atom and a string
with a bracket in it. -/
theorem scan_write_comment :
    let text := [',', 'a', ';', '"', '\n', 'b', '"', '(', '"', ' ']
    (∃ placed, scan text = ⟨placed, none⟩ ∧ placed.map Token.unplaced =
      [⟨.atom, ['a'], none⟩, ⟨.atom, ['b'], none⟩, ⟨.string, ['"', '(', '"'], none⟩]) ∧
      (readForms text).mapError ReadFault.kind =
        .ok [.named "a", .named "b", .string "("] := by
  intro text
  let laid : List LaidToken :=
    [⟨[','], ⟨.atom, ['a'], some 0⟩⟩, ⟨[';', '"', '\n'], ⟨.atom, ['b'], some 2⟩⟩,
      ⟨[], ⟨.string, ['"', '(', '"'], some 3⟩⟩]
  have whole : scan ['a', ' ', 'b', '"', '(', '"'] = ⟨laid.map (·.token), none⟩ := rfl
  have proper : LaidToken.Proper laid [' '] := by
    refine ⟨?_, .separator rfl .nil, by simp [laid, LaidToken.Apart]⟩
    have comment : Text.Layout [';', '"', '\n'] := @Text.Layout.comment ['"'] [] (by decide) .nil
    simpa [laid] using ⟨.separator rfl .nil, comment, .nil⟩
  obtain ⟨found, -, kinds⟩ := scan_write whole proper
  exact ⟨found, kinds⟩

end TinyLisp
