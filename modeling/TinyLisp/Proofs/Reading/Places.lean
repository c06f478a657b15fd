import TinyLisp.Proofs.Outcome
import TinyLisp.Proofs.Reading.Coverage
import TinyLisp.Reading

/-!
# The places of a text

A scan accounts for every place of a text: the place is in one of the tokens, or a separator stands
there, or it is in a comment that no token has a part in. The tokens stand apart from each other,
each where its offset says, and an atom goes on to either side as far as there are characters for
it.

All of this is read off from how the tokens take up the text, one piece at a time.
-/

namespace TinyLisp

/-- The place is one of those that the token is written at. -/
def Token.Spans (token : Token) (place : Nat) : Prop :=
  ∃ begun : Nat, token.offset = some (begun : Int) ∧ begun ≤ place ∧
    place < begun + token.text.length

/-- The token is written in the text, between what stands before it and what comes after it. -/
structure Token.Stands (token : Token) (text before after : List Char) : Prop where
  split : text = before ++ (token.text ++ after)
  offset : token.offset = some (before.length : Int)
  lexeme : Lexeme token.kind token.text after
  maximal : token.kind = .atom → ∀ c ∈ before.getLast?, Text.isAtomChar c = false

/-- A comment runs from a semicolon to the end of its line. -/
structure Text.IsComment (text : List Char) (mark finish : Nat) : Prop where
  begins : text[mark]? = some ';'
  inLine : ∀ place, mark ≤ place → place < finish → text[place]? ≠ some '\n'
  ends : text[finish]? = some '\n' ∨ finish = text.length

/-- The place is outside the tokens: a separator is written there, or it is part of a comment that
ends in time and that no token has a part in. -/
def Text.IsLayout (text : List Char) (tokens : List Token) (stop place : Nat) : Prop :=
  (∃ c ∈ text[place]?, isSeparator c) ∨
    ∃ mark finish, IsComment text mark finish ∧ mark ≤ place ∧ place < finish ∧ finish ≤ stop ∧
      ∀ token ∈ tokens, ∀ within, mark ≤ within → within < finish → ¬ token.Spans within

/-- The tokens and the layout between them are all that there is in front of a place. -/
structure Accounts (text : List Char) (tokens : List Token) (stop : Nat) : Prop where
  stands : ∀ token ∈ tokens, ∃ before after, token.Stands text before after ∧
    before.length + token.text.length ≤ stop
  apart : tokens.Pairwise fun first second => ∃ begun next : Nat,
    first.offset = some (begun : Int) ∧ second.offset = some (next : Int) ∧ begun < next ∧
      begun + first.text.length ≤ next
  filled : ∀ place < stop, (∃ token ∈ tokens, token.Spans place) ∨
    Text.IsLayout text tokens stop place

variable {text before after : List Char} {tokens : List Token} {token : Token} {stop finish : Nat}

theorem Token.Stands.spans_iff (stands : token.Stands text before after) {place : Nat} :
    token.Spans place ↔ before.length ≤ place ∧ place < before.length + token.text.length := by
  constructor
  · rintro ⟨begun, offset, inside⟩
    have same : (before.length : Int) = begun := Option.some.inj (stands.offset.symm.trans offset)
    rwa [Int.ofNat_inj.mp same]
  · exact fun inside => ⟨before.length, stands.offset, inside⟩

/-- Layout stays layout if only tokens from there on are added. -/
theorem Text.IsLayout.mono {others : List Token} {place : Nat}
    (layout : Text.IsLayout text tokens stop place) (later : stop ≤ finish)
    (added : ∀ token ∈ others, token ∈ tokens ∨ ∀ within < stop, ¬ token.Spans within) :
    Text.IsLayout text others finish place := by
  rcases layout with separates | ⟨mark, last, comment, begins, ends, inTime, free⟩
  · exact .inl separates
  · refine .inr ⟨mark, last, comment, begins, ends, inTime.trans later, ?_⟩
    intro token member within lower upper
    rcases added token member with earlier | new
    · exact free token earlier within lower upper
    · exact new within (Nat.lt_of_lt_of_le upper inTime)

theorem Lexeme.ne_nil {kind : TokenKind} (lexeme : Lexeme kind text after) : text ≠ [] := by
  cases lexeme with
  | atom isAtom _ => exact isAtom.ne_nil
  | _ => simp

namespace Accounts

theorem start (text : List Char) : Accounts text [] 0 :=
  ⟨by simp, .nil, by simp⟩

theorem not_spans (accounts : Accounts text tokens stop) (member : token ∈ tokens) {place : Nat}
    (later : stop ≤ place) : ¬ token.Spans place := by
  obtain ⟨before, after, stands, inTime⟩ := accounts.stands token member
  rw [stands.spans_iff]
  omega

/-- The next places are layout. -/
theorem addLayout (accounts : Accounts text tokens stop) (later : stop ≤ finish)
    (layout : ∀ place, stop ≤ place → place < finish → Text.IsLayout text tokens finish place) :
    Accounts text tokens finish := by
  refine ⟨fun token member => ?_, accounts.apart, fun place inTime => ?_⟩
  · obtain ⟨before, after, stands, inTime⟩ := accounts.stands token member
    exact ⟨before, after, stands, inTime.trans later⟩
  · by_cases earlier : place < stop
    · rcases accounts.filled place earlier with spanned | before
      · exact .inl spanned
      · exact .inr (before.mono later fun _ => .inl)
    · exact .inr (layout place (not_lt.mp earlier) inTime)

theorem addSeparator (accounts : Accounts text tokens stop)
    (separates : ∃ c ∈ text[stop]?, Text.isSeparator c) : Accounts text tokens (stop + 1) := by
  refine accounts.addLayout (Nat.le_succ stop) fun place lower upper => .inl ?_
  obtain rfl : place = stop := by omega
  exact separates

theorem addComment (accounts : Accounts text tokens stop)
    (comment : Text.IsComment text stop finish) (later : stop ≤ finish) :
    Accounts text tokens finish := by
  refine accounts.addLayout later fun place lower upper => .inr ?_
  refine ⟨stop, finish, comment, lower, upper, le_rfl, fun token member within begins _ => ?_⟩
  exact accounts.not_spans member begins

theorem addToken (accounts : Accounts text tokens stop) (stands : token.Stands text before after)
    (next : stop = before.length) :
    Accounts text (tokens ++ [token]) (stop + token.text.length) := by
  subst next
  refine ⟨fun other member => ?_, ?_, fun place inTime => ?_⟩
  · rcases List.mem_append.mp member with earlier | last
    · obtain ⟨first, rest, found, inTime⟩ := accounts.stands other earlier
      exact ⟨first, rest, found, Nat.le_add_right_of_le inTime⟩
    · obtain rfl := List.mem_singleton.mp last
      exact ⟨before, after, stands, le_rfl⟩
  · -- Every earlier token ends in front of the new one, and none is empty.
    refine List.pairwise_append.mpr ⟨accounts.apart, List.pairwise_singleton _ _, ?_⟩
    intro first member last same
    obtain rfl := List.mem_singleton.mp same
    obtain ⟨earlier, rest, found, inTime⟩ := accounts.stands first member
    have filled : 0 < first.text.length := List.length_pos_iff.mpr found.lexeme.ne_nil
    exact ⟨earlier.length, before.length, found.offset, stands.offset, by omega, inTime⟩
  · by_cases earlier : place < before.length
    · rcases accounts.filled place earlier with ⟨other, member, spans⟩ | layout
      · exact .inl ⟨other, List.mem_append_left _ member, spans⟩
      · refine .inr (layout.mono (Nat.le_add_right _ _) fun other member => ?_)
        rcases List.mem_append.mp member with earlier | added
        · exact .inl earlier
        · obtain rfl := List.mem_singleton.mp added
          refine .inr fun within inFront => ?_
          rw [stands.spans_iff]
          omega
    · exact .inl ⟨token, by simp, stands.spans_iff.mpr ⟨not_lt.mp earlier, inTime⟩⟩

end Accounts

namespace Covers

variable {taken rest : List Char}

/-- An atom that begins now has no character for it to the left. -/
theorem edge (covers : Covers taken tokens rest) :
    ∀ c ∈ rest.head?, Text.isAtomChar c → ∀ d ∈ taken.getLast?, Text.isAtomChar d = false := by
  intro c first inside d last
  cases covers with
  | start => simp at last
  | separator _ separates =>
      obtain rfl : _ = d := by simpa using last
      simp [Text.isAtomChar, separates]
  | comment _ _ ends =>
      obtain rfl := ends c first
      cases inside
  | token _ lexeme =>
      cases lexeme with
      | opening bracket =>
          obtain rfl : bracket.opening = d := by simpa using last
          cases bracket <;> rfl
      | closing bracket =>
          obtain rfl : bracket.closing = d := by simpa using last
          cases bracket <;> rfl
      | @string inside enclosed =>
          rw [← List.cons_append, ← List.append_assoc, List.getLast?_concat] at last
          obtain rfl : '"' = d := Option.some.inj last
          rfl
      | atom _ ends => simp [ends c first] at inside

theorem stands {kind : TokenKind} {piece : List Char}
    (covers : Covers taken tokens (piece ++ rest)) (lexeme : Lexeme kind piece rest) :
    Token.Stands ⟨kind, piece, some (taken.length : Int)⟩ (taken ++ (piece ++ rest)) taken
      rest := by
  refine ⟨rfl, rfl, lexeme, fun isAtom => ?_⟩
  cases lexeme with
  | atom isAtom _ =>
      obtain ⟨c, others, rfl⟩ := List.exists_cons_of_ne_nil isAtom.ne_nil
      exact covers.edge c rfl (isAtom.all c (by simp))
  | _ => cases isAtom

theorem isComment {body : List Char} (taken : List Char) (inLine : '\n' ∉ body)
    (ends : ∀ c ∈ rest.head?, c = '\n') :
    Text.IsComment (taken ++ ';' :: (body ++ rest)) taken.length
      (taken.length + (body.length + 1)) := by
  refine ⟨by simp, fun place lower upper newline => ?_, ?_⟩
  · rw [List.getElem?_append_right lower, ← List.cons_append,
      List.getElem?_append_left (by rw [List.length_cons]; omega)] at newline
    rcases List.mem_cons.mp (List.mem_of_getElem? newline) with semicolon | inBody
    · cases semicolon
    · exact inLine inBody
  · have next : (taken ++ ';' :: (body ++ rest))[taken.length + (body.length + 1)]? =
        rest.head? := by
      simp [List.getElem?_append_right, List.head?_eq_getElem?]
    rw [next]
    cases rest with
    | nil => simp
    | cons c others => simp [ends c rfl]

/-- What takes up the first part of a text accounts for its places. -/
theorem accounts (covers : Covers taken tokens rest) :
    Accounts (taken ++ rest) tokens taken.length := by
  induction covers with
  | start => exact .start _
  | @separator taken tokens c rest _ separates ih =>
      have next := ih.addSeparator ⟨c, by simp, separates⟩
      simpa using next
  | @comment taken tokens body rest _ inLine ends ih =>
      have next := ih.addComment (isComment taken inLine ends) (by omega)
      simpa using next
  | @token taken tokens kind piece rest covers lexeme ih =>
      have next := ih.addToken (covers.stands lexeme) rfl
      simpa using next

end Covers

theorem accounts_of_finds {found : Scan} (finds : Finds text found) :
    Accounts text found.tokens (found.unterminated.getD text.length) := by
  cases finds with
  | whole covers => simpa using covers.accounts
  | unclosed covers _ => exact covers.accounts

/-- A string without an end is what reading fails with, unless some token before it is at fault. -/
theorem readForms_of_unterminated {offset : Nat} {reading : Reading}
    (unclosed : (scan text).unterminated = some offset)
    (accepted : (scan text).tokens.foldlM Reading.accept Reading.initial = .ok reading) :
    readForms text = .error (.unterminatedString offset) := by
  simp only [readForms, accepted, ok_bind, unclosed]
  rfl

/-- A scan of any text accounts for every place, up to the end or up to a string that has no end.
It finds the tokens that take up the whole text, or those in front of a quote, if nothing after
that quote ends the string. -/
theorem scan_accounts (text : List Char) :
    Accounts text (scan text).tokens ((scan text).unterminated.getD text.length) ∧
      (∀ tokens, scan text = ⟨tokens, none⟩ ↔ Covers text tokens []) ∧
      (∀ tokens offset, scan text = ⟨tokens, some offset⟩ ↔
        ∃ before rest, text = before ++ '"' :: rest ∧ before.length = offset ∧
          Covers before tokens ('"' :: rest) ∧ ¬ Text.Closes rest) ∧
      ∀ offset, (scan text).unterminated = some offset →
        (ReadFault.unterminatedString offset).kind = .parse ∧
        (ReadFault.unterminatedString offset).message =
          "Unterminated string literal at " ++ toString offset ∧
        ∀ reading, (scan text).tokens.foldlM Reading.accept Reading.initial = .ok reading →
          readForms text = .error (.unterminatedString offset) := by
  refine ⟨accounts_of_finds (finds_scan text), fun tokens => ?_, fun tokens offset => ?_,
    fun offset unclosed => ⟨rfl, rfl, fun reading => readForms_of_unterminated unclosed⟩⟩
  · rw [scan_eq_iff]
    constructor
    · rintro ⟨covers⟩
      exact covers
    · exact .whole
  · rw [scan_eq_iff]
    constructor
    · rintro (_ | ⟨covers, unclosed⟩)
      exact ⟨_, _, rfl, rfl, covers, unclosed⟩
    · rintro ⟨before, rest, rfl, rfl, covers, unclosed⟩
      exact .unclosed covers unclosed

/-- The quote after an atom and a blank begins a string that has no end. -/
theorem scan_accounts_unclosed :
    (scan ['a', ' ', '"', 'b']).unterminated = some 2 ∧
      readForms ['a', ' ', '"', 'b'] = .error (.unterminatedString 2) :=
  ⟨rfl, ((scan_accounts ['a', ' ', '"', 'b']).2.2.2 2 rfl).2.2 _ rfl⟩

end TinyLisp
