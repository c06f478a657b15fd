import TinyLisp.Proofs.Reading.Atoms

/-!
# What a scan takes up

A text is taken up by tokens with layout between them. Blanks, commas and comments are layout; a
comment ends with its line. A string goes on to the first quote that no backslash takes along, and
an atom as far as there are characters for it. Nothing in this depends on how a text is scanned.

A scan finds the tokens that take up the whole text. If there are none, some string has no end, and
it finds the ones in front of that string.
-/

namespace TinyLisp

/-- What can stand between the quotes of a string. A backslash takes the next character along, and
no other character is a quote. -/
inductive Text.Enclosed : List Char → Prop
  | nil : Enclosed []
  | escaped (c : Char) {rest : List Char} (enclosed : Enclosed rest) : Enclosed ('\\' :: c :: rest)
  | plain {c : Char} {rest : List Char} (noBackslash : c ≠ '\\') (noQuote : c ≠ '"')
      (enclosed : Enclosed rest) : Enclosed (c :: rest)

/-- Somewhere in the text is a quote that ends a string. -/
def Text.Closes (text : List Char) : Prop :=
  ∃ inside rest, Enclosed inside ∧ text = inside ++ '"' :: rest

/-- The text of a token of some kind, given what follows it. -/
inductive Lexeme : TokenKind → List Char → List Char → Prop
  | opening (bracket : Bracket) (rest : List Char) :
      Lexeme (.opening bracket) [bracket.opening] rest
  | closing (bracket : Bracket) (rest : List Char) :
      Lexeme (.closing bracket) [bracket.closing] rest
  | string {inside : List Char} (enclosed : Text.Enclosed inside) (rest : List Char) :
      Lexeme .string ('"' :: (inside ++ ['"'])) rest
  | atom {text rest : List Char} (isAtom : Text.IsAtom text)
      (ends : ∀ c ∈ rest.head?, Text.isAtomChar c = false) : Lexeme .atom text rest

/-- The first part of a text is taken up by layout and some tokens, each with the offset of its
first character, and the rest of the text begins where a token may begin. -/
inductive Covers : List Char → List Token → List Char → Prop
  | start (text : List Char) : Covers [] [] text
  | separator {taken : List Char} {tokens : List Token} {c : Char} {rest : List Char}
      (covers : Covers taken tokens (c :: rest)) (separates : Text.isSeparator c) :
      Covers (taken ++ [c]) tokens rest
  | comment {taken : List Char} {tokens : List Token} {body rest : List Char}
      (covers : Covers taken tokens (';' :: (body ++ rest))) (inLine : '\n' ∉ body)
      (ends : ∀ c ∈ rest.head?, c = '\n') : Covers (taken ++ ';' :: body) tokens rest
  | token {taken : List Char} {tokens : List Token} {kind : TokenKind} {text rest : List Char}
      (covers : Covers taken tokens (text ++ rest)) (lexeme : Lexeme kind text rest) :
      Covers (taken ++ text) (tokens ++ [⟨kind, text, some (taken.length : Int)⟩]) rest

namespace Text

theorem Enclosed.append {first second : List Char} (left : Enclosed first)
    (right : Enclosed second) : Enclosed (first ++ second) := by
  induction left with
  | nil => exact right
  | escaped c _ ih => exact .escaped c ih
  | plain noBackslash noQuote _ ih => exact .plain noBackslash noQuote ih

theorem not_closes_nil : ¬ Closes [] := by
  rintro ⟨inside, rest, -, whole⟩
  simp at whole

theorem not_closes_backslash : ¬ Closes ['\\'] := by
  rintro ⟨inside, rest, enclosed, whole⟩
  cases enclosed with
  | nil => cases whole
  | escaped => simp at whole
  | plain noBackslash => exact noBackslash (List.cons.inj whole).1.symm

theorem closes_quote (rest : List Char) : Closes ('"' :: rest) :=
  ⟨[], rest, .nil, rfl⟩

theorem closes_escaped (c : Char) (rest : List Char) :
    Closes ('\\' :: c :: rest) ↔ Closes rest := by
  constructor
  · rintro ⟨inside, after, enclosed, whole⟩
    cases enclosed with
    | nil => cases whole
    | escaped _ enclosed =>
        simp only [List.cons_append, List.cons.injEq] at whole
        exact ⟨_, after, enclosed, whole.2.2⟩
    | plain noBackslash => exact absurd (List.cons.inj whole).1.symm noBackslash
  · rintro ⟨inside, after, enclosed, rfl⟩
    exact ⟨'\\' :: c :: inside, after, .escaped c enclosed, rfl⟩

theorem closes_plain {c : Char} (noBackslash : c ≠ '\\') (noQuote : c ≠ '"') (rest : List Char) :
    Closes (c :: rest) ↔ Closes rest := by
  constructor
  · rintro ⟨inside, after, enclosed, whole⟩
    cases enclosed with
    | nil => exact absurd (List.cons.inj whole).1 noQuote
    | escaped => exact absurd (List.cons.inj whole).1 noBackslash
    | plain _ _ enclosed => exact ⟨_, after, enclosed, (List.cons.inj whole).2⟩
  · rintro ⟨inside, after, enclosed, rfl⟩
    exact ⟨c :: inside, after, .plain noBackslash noQuote enclosed, rfl⟩

/-- No quote among enclosed characters ends a string, and a text that is all enclosed ends it no
more than what comes after. -/
theorem Enclosed.closes_append {inside : List Char} (enclosed : Enclosed inside)
    (rest : List Char) : Closes (inside ++ rest) ↔ Closes rest := by
  induction enclosed with
  | nil => rfl
  | escaped c _ ih => exact (closes_escaped c _).trans ih
  | plain noBackslash noQuote _ ih => exact (closes_plain noBackslash noQuote _).trans ih

/-- If no quote ends the string, all of the text is enclosed, but for a backslash that has nothing
to take along. -/
theorem enclosed_of_not_closes {text : List Char} (unclosed : ¬ Closes text) :
    ∃ inside, Enclosed inside ∧ (text = inside ∨ text = inside ++ ['\\']) := by
  induction text using unescape.induct with
  | case1 c rest ih =>
      obtain ⟨inside, enclosed, whole⟩ := ih ((closes_escaped c rest).not.mp unclosed)
      exact ⟨'\\' :: c :: inside, .escaped c enclosed, by simpa using whole⟩
  | case2 c rest alone ih =>
      have noQuote : c ≠ '"' := by
        rintro rfl
        exact unclosed (closes_quote rest)
      by_cases backslash : c = '\\'
      · cases rest with
        | nil => exact ⟨[], .nil, .inr (by simp [backslash])⟩
        | cons next rest => exact absurd rfl (alone next rest backslash)
      · have others : ¬ Closes rest := (closes_plain backslash noQuote rest).not.mp unclosed
        obtain ⟨inside, enclosed, whole⟩ := ih others
        exact ⟨c :: inside, .plain backslash noQuote enclosed, by simpa using whole⟩
  | case3 => exact ⟨[], .nil, .inl rfl⟩

theorem IsAtom.concat {text : List Char} {c : Char} (isAtom : IsAtom text)
    (inside : isAtomChar c) : IsAtom (text ++ [c]) := by
  refine ⟨by simp, fun other member => ?_⟩
  rcases List.mem_append.mp member with earlier | last
  · exact isAtom.all other earlier
  · rwa [List.mem_singleton.mp last]

theorem eq_opening_of_opens? {c : Char} {bracket : Bracket} (opens : opens? c = some bracket) :
    c = bracket.opening := by
  unfold opens? at opens
  grind [Bracket.opening]

theorem eq_closing_of_closes? {c : Char} {bracket : Bracket} (closes : closes? c = some bracket) :
    c = bracket.closing := by
  unfold closes? at closes
  grind [Bracket.closing]

end Text

/-- What a scan can find: tokens that take up the text, or those in front of a string that has no
end. -/
inductive Finds : List Char → Scan → Prop
  | whole {text : List Char} {tokens : List Token} (covers : Covers text tokens []) :
      Finds text ⟨tokens, none⟩
  | unclosed {before rest : List Char} {tokens : List Token}
      (covers : Covers before tokens ('"' :: rest)) (unclosed : ¬ Text.Closes rest) :
      Finds (before ++ '"' :: rest) ⟨tokens, some before.length⟩

namespace Scanner

/-- A scan has got somewhere: what it has taken so far is taken up by the tokens that it has, and by
a token or a comment that may go on. -/
inductive Tracks (rest : List Char) : List Char → Scanner → Prop
  | between {taken : List Char} {tokens : List Token} (covers : Covers taken tokens.reverse rest) :
      Tracks rest taken ⟨.between, taken.length, tokens⟩
  | comment {before body : List Char} {tokens : List Token}
      (covers : Covers before tokens.reverse (';' :: (body ++ rest))) (inLine : '\n' ∉ body) :
      Tracks rest (before ++ ';' :: body) ⟨.comment, (before ++ ';' :: body).length, tokens⟩
  | atom {before seen : List Char} {tokens : List Token}
      (covers : Covers before tokens.reverse (seen.reverse ++ rest))
      (isAtom : Text.IsAtom seen.reverse) :
      Tracks rest (before ++ seen.reverse)
        ⟨.atom before.length seen, (before ++ seen.reverse).length, tokens⟩
  | string {before inside seen : List Char} {escaping : Bool} {tokens : List Token}
      (covers : Covers before tokens.reverse (seen.reverse ++ rest))
      (enclosed : Text.Enclosed inside)
      (begins : seen.reverse = '"' :: (inside ++ if escaping then ['\\'] else [])) :
      Tracks rest (before ++ seen.reverse)
        ⟨.string before.length seen escaping, (before ++ seen.reverse).length, tokens⟩

variable {taken before rest : List Char} {tokens : List Token} {c : Char}

theorem covers_finishToken {kind : TokenKind} {seen : List Char}
    (covers : Covers taken tokens.reverse (seen.reverse ++ rest))
    (lexeme : Lexeme kind seen.reverse rest) :
    Covers (taken ++ seen.reverse) (finishToken tokens kind taken.length seen).reverse rest := by
  rw [finishToken, List.reverse_cons]
  exact covers.token lexeme

theorem tracks_advanceBetween (covers : Covers taken tokens.reverse (c :: rest)) :
    Tracks rest (taken ++ [c]) (advanceBetween taken.length tokens c) := by
  have next : taken.length + 1 = (taken ++ [c]).length := by simp
  unfold advanceBetween
  rw [next]
  split
  · next separates => exact .between (covers.separator separates)
  split
  · next semicolon =>
      subst semicolon
      exact @Tracks.comment rest taken [] tokens covers (by simp)
  split
  · next quote =>
      subst quote
      exact @Tracks.string rest taken [] ['"'] false tokens covers .nil rfl
  split
  · next opens =>
      obtain rfl := Text.eq_opening_of_opens? opens
      exact .between (@covers_finishToken taken rest tokens _ [_] covers (.opening _ rest))
  · next closes =>
      obtain rfl := Text.eq_closing_of_closes? closes
      exact .between (@covers_finishToken taken rest tokens _ [_] covers (.closing _ rest))
  · next separator semicolon quote _ _ opens closes =>
      have inside : Text.isAtomChar c := by
        simp [Text.isAtomChar, separator, semicolon, quote, opens, closes]
      exact @Tracks.atom rest taken [c] tokens covers ⟨by simp, by simpa using inside⟩

/-- Within a string, everything but a quote that no backslash takes along goes on with it. -/
theorem tracks_advanceString {inside seen : List Char} {escaping : Bool}
    (covers : Covers before tokens.reverse (seen.reverse ++ c :: rest))
    (enclosed : Text.Enclosed inside)
    (begins : seen.reverse = '"' :: (inside ++ if escaping then ['\\'] else [])) :
    Tracks rest (before ++ (c :: seen).reverse)
      (advance ⟨.string before.length seen escaping, (before ++ seen.reverse).length, tokens⟩
        c) := by
  have longer : Covers before tokens.reverse ((c :: seen).reverse ++ rest) := by
    simpa using covers
  have next : (before ++ seen.reverse).length + 1 = (before ++ (c :: seen).reverse).length := by
    simp [Nat.add_assoc]
  simp only [Scanner.advance, next]
  cases escaping with
  | true =>
      have goesOn : Text.Enclosed (inside ++ ['\\', c]) := enclosed.append (.escaped c .nil)
      exact .string longer goesOn (by simp [begins])
  | false =>
      by_cases quote : c = '"'
      · subst quote
        have whole : ('"' :: seen).reverse = '"' :: (inside ++ ['"']) := by simp [begins]
        exact .between (covers_finishToken longer (whole ▸ .string enclosed rest))
      by_cases backslash : c = '\\'
      · subst backslash
        exact .string longer enclosed (by simp [begins])
      · have goesOn : Text.Enclosed (inside ++ [c]) :=
          enclosed.append (.plain backslash quote .nil)
        simpa [quote, backslash] using Tracks.string longer goesOn (by simp [begins])

theorem Tracks.advance {scanner : Scanner} (tracks : Tracks (c :: rest) taken scanner) :
    Tracks rest (taken ++ [c]) (scanner.advance c) := by
  cases tracks with
  | between covers => exact tracks_advanceBetween covers
  | @comment before body tokens covers inLine =>
      by_cases newline : c = '\n'
      · -- The end of the line is not part of the comment, but a separator after it.
        subst newline
        have ended := covers.comment inLine (by simp)
        simpa [Scanner.advance, Nat.add_assoc] using Tracks.between (ended.separator (by decide))
      · have goesOn := @Tracks.comment rest before (body ++ [c]) tokens (by simpa using covers)
          (by simpa using ⟨inLine, Ne.symm newline⟩)
        simpa [Scanner.advance, newline, Nat.add_assoc] using goesOn
  | @atom before seen tokens covers isAtom =>
      by_cases inside : Text.isAtomChar c
      · have longer : Text.IsAtom (c :: seen).reverse := by
          rw [List.reverse_cons]
          exact isAtom.concat inside
        have goesOn := @Tracks.atom rest before (c :: seen) tokens (by simpa using covers) longer
        simpa [Scanner.advance, inside, Nat.add_assoc] using goesOn
      · -- The character ends the atom, and then it is what follows a finished token.
        have ended := covers_finishToken covers (.atom isAtom (by simpa using inside))
        simpa [Scanner.advance, inside] using tracks_advanceBetween ended
  | string covers enclosed begins =>
      simpa using tracks_advanceString covers enclosed begins

theorem Tracks.foldl_advance {scanner : Scanner} (text : List Char)
    (tracks : Tracks (text ++ rest) taken scanner) :
    Tracks rest (taken ++ text) (text.foldl Scanner.advance scanner) := by
  induction text generalizing taken scanner with
  | nil => simpa using tracks
  | cons c text ih => simpa using ih tracks.advance

theorem Tracks.finish {scanner : Scanner} (tracks : Tracks [] taken scanner) :
    Finds taken scanner.finish := by
  cases tracks with
  | between covers => exact .whole covers
  | comment covers inLine => exact .whole (covers.comment inLine (by simp))
  | atom covers isAtom => exact .whole (covers_finishToken covers (.atom isAtom (by simp)))
  | @string before inside seen escaping tokens covers enclosed begins =>
      rw [begins] at covers ⊢
      refine .unclosed (by simpa using covers) ?_
      rw [enclosed.closes_append]
      cases escaping with
      | true => exact Text.not_closes_backslash
      | false => exact Text.not_closes_nil

/-- A scan has some tokens, the latest first, and the next character is the first of something. -/
inductive Settled (rest : List Char) : Scanner → List Token → Prop
  | between {offset : Nat} {tokens : List Token} : Settled rest ⟨.between, offset, tokens⟩ tokens
  | comment {offset : Nat} {tokens : List Token} (ends : ∀ c ∈ rest.head?, c = '\n') :
      Settled rest ⟨.comment, offset, tokens⟩ tokens
  | atom {begun offset : Nat} {seen : List Char} {tokens : List Token}
      (ends : ∀ c ∈ rest.head?, Text.isAtomChar c = false) :
      Settled rest ⟨.atom begun seen, offset, tokens⟩ (finishToken tokens .atom begun seen)

theorem Settled.advance {scanner : Scanner} (settled : Settled (c :: rest) scanner tokens) :
    scanner.advance c = advanceBetween scanner.offset tokens c := by
  cases settled with
  | between => rfl
  | comment ends =>
      obtain rfl := ends c rfl
      rfl
  | atom ends => simp [Scanner.advance, ends c rfl]

theorem Settled.finish {scanner : Scanner} (settled : Settled [] scanner tokens) :
    scanner.finish = ⟨tokens.reverse, none⟩ := by
  cases settled <;> rfl

theorem offset_advanceBetween (offset : Nat) (tokens : List Token) (c : Char) :
    (advanceBetween offset tokens c).offset = offset + 1 := by
  unfold advanceBetween
  repeat' split
  all_goals rfl

theorem offset_advance (scanner : Scanner) (c : Char) :
    (scanner.advance c).offset = scanner.offset + 1 := by
  obtain ⟨mode, offset, tokens⟩ := scanner
  cases mode with
  | between => exact offset_advanceBetween offset tokens c
  | comment => rfl
  | atom begun seen =>
      simp only [Scanner.advance]
      split
      · rfl
      · exact offset_advanceBetween offset _ c
  | string begun seen escaping =>
      simp only [Scanner.advance]
      split_ifs <;> rfl

theorem offset_foldl_advance (text : List Char) (scanner : Scanner) :
    (text.foldl advance scanner).offset = scanner.offset + text.length := by
  induction text generalizing scanner with
  | nil => rfl
  | cons c rest ih =>
      rw [List.foldl_cons, ih, offset_advance, List.length_cons]
      omega

theorem foldl_advance_comment (offset : Nat) (tokens : List Token) {body : List Char}
    (inLine : '\n' ∉ body) :
    body.foldl advance ⟨.comment, offset, tokens⟩ = ⟨.comment, offset + body.length, tokens⟩ := by
  induction body generalizing offset with
  | nil => rfl
  | cons c rest ih =>
      obtain ⟨newline, others⟩ := not_or.mp (List.mem_cons.not.mp inLine)
      have first : advance ⟨.comment, offset, tokens⟩ c = ⟨.comment, offset + 1, tokens⟩ := by
        simp [advance, Ne.symm newline]
      rw [List.foldl_cons, first, ih (offset + 1) others, List.length_cons]
      simp [Nat.add_comm, Nat.add_left_comm]

theorem foldl_advance_atom (begun : Nat) (tokens : List Token) {text : List Char}
    (inside : ∀ c ∈ text, Text.isAtomChar c) (seen : List Char) (offset : Nat) :
    text.foldl advance ⟨.atom begun seen, offset, tokens⟩ =
      ⟨.atom begun (text.reverse ++ seen), offset + text.length, tokens⟩ := by
  induction text generalizing seen offset with
  | nil => rfl
  | cons c rest ih =>
      have first : advance ⟨.atom begun seen, offset, tokens⟩ c =
          ⟨.atom begun (c :: seen), offset + 1, tokens⟩ := by
        simp [advance, inside c (by simp)]
      rw [List.foldl_cons, first, ih fun other member => inside other (by simp [member])]
      simp [Nat.add_comm, Nat.add_left_comm]

/-- Between the quotes the scan goes on whatever the characters are. -/
theorem foldl_advance_enclosed (begun : Nat) (tokens : List Token) {text : List Char}
    (enclosed : Text.Enclosed text) (seen : List Char) (offset : Nat) :
    text.foldl advance ⟨.string begun seen false, offset, tokens⟩ =
      ⟨.string begun (text.reverse ++ seen) false, offset + text.length, tokens⟩ := by
  induction enclosed generalizing seen offset with
  | nil => rfl
  | escaped c _ ih =>
      have first : [c].foldl advance (advance ⟨.string begun seen false, offset, tokens⟩ '\\') =
          ⟨.string begun (c :: '\\' :: seen) false, offset + 1 + 1, tokens⟩ := rfl
      rw [List.foldl_cons, ← List.singleton_append, List.foldl_append, first, ih]
      simp [Nat.add_comm, Nat.add_left_comm]
  | @plain c rest noBackslash noQuote _ ih =>
      have first : advance ⟨.string begun seen false, offset, tokens⟩ c =
          ⟨.string begun (c :: seen) false, offset + 1, tokens⟩ := by
        simp [advance, noBackslash, noQuote]
      rw [List.foldl_cons, first, ih]
      simp [Nat.add_comm, Nat.add_left_comm]

theorem advanceBetween_separator (offset : Nat) (tokens : List Token)
    (separates : Text.isSeparator c) :
    advanceBetween offset tokens c = ⟨.between, offset + 1, tokens⟩ := by
  simp [advanceBetween, separates]

theorem advanceBetween_opening (offset : Nat) (tokens : List Token) (bracket : Bracket) :
    advanceBetween offset tokens bracket.opening = ⟨.between, offset + 1,
      finishToken tokens (.opening bracket) offset [bracket.opening]⟩ := by
  cases bracket <;> rfl

theorem advanceBetween_closing (offset : Nat) (tokens : List Token) (bracket : Bracket) :
    advanceBetween offset tokens bracket.closing = ⟨.between, offset + 1,
      finishToken tokens (.closing bracket) offset [bracket.closing]⟩ := by
  cases bracket <;> rfl

theorem advanceBetween_atomChar (offset : Nat) (tokens : List Token) (inside : Text.isAtomChar c) :
    advanceBetween offset tokens c = ⟨.atom offset [c], offset + 1, tokens⟩ := by
  simp only [Text.isAtomChar, Bool.and_eq_true, Bool.not_eq_true', Option.isNone_iff_eq_none,
    decide_eq_true_eq] at inside
  obtain ⟨⟨⟨⟨separator, opens⟩, closes⟩, quote⟩, semicolon⟩ := inside
  simp [advanceBetween, separator, opens, closes, quote, semicolon]

theorem Settled.lexeme {scanner : Scanner} {kind : TokenKind} {text : List Char}
    (settled : Settled (text ++ rest) scanner tokens) (lexeme : Lexeme kind text rest) :
    Settled rest (text.foldl Scanner.advance scanner)
      (⟨kind, text, some (scanner.offset : Int)⟩ :: tokens) := by
  cases lexeme with
  | opening bracket =>
      rw [List.foldl_cons, settled.advance, advanceBetween_opening]
      exact .between
  | closing bracket =>
      rw [List.foldl_cons, settled.advance, advanceBetween_closing]
      exact .between
  | @string inside enclosed =>
      have opens (offset : Nat) : advanceBetween offset tokens '"' =
          ⟨.string offset ['"'] false, offset + 1, tokens⟩ := rfl
      rw [List.foldl_cons, settled.advance, opens, List.foldl_append,
        foldl_advance_enclosed _ _ enclosed]
      simpa [Scanner.advance, finishToken] using @Settled.between rest _ _
  | atom isAtom ends =>
      obtain ⟨c, others, rfl⟩ := List.exists_cons_of_ne_nil isAtom.ne_nil
      rw [List.foldl_cons, settled.advance, advanceBetween_atomChar _ _ (isAtom.all c (by simp)),
        foldl_advance_atom _ _ fun other member => isAtom.all other (by simp [member])]
      have ended (offset : Nat) :=
        @Settled.atom rest scanner.offset offset (others.reverse ++ [c]) tokens ends
      simpa [finishToken] using ended _

theorem Settled.unclosed {scanner : Scanner} (settled : Settled ('"' :: rest) scanner tokens)
    (unclosed : ¬ Text.Closes rest) :
    (('"' :: rest).foldl Scanner.advance scanner).finish =
      ⟨tokens.reverse, some scanner.offset⟩ := by
  have opens (offset : Nat) : advanceBetween offset tokens '"' =
      ⟨.string offset ['"'] false, offset + 1, tokens⟩ := rfl
  obtain ⟨inside, enclosed, rfl | rfl⟩ := Text.enclosed_of_not_closes unclosed
  · rw [List.foldl_cons, settled.advance, opens, foldl_advance_enclosed _ _ enclosed]
    rfl
  · rw [List.foldl_cons, settled.advance, opens, List.foldl_append,
      foldl_advance_enclosed _ _ enclosed]
    rfl

end Scanner

theorem Covers.settled {taken rest : List Char} {tokens : List Token}
    (covers : Covers taken tokens rest) :
    Scanner.Settled rest (taken.foldl Scanner.advance Scanner.initial) tokens.reverse := by
  have reached (text : List Char) :
      (text.foldl Scanner.advance Scanner.initial).offset = text.length := by
    rw [Scanner.offset_foldl_advance]
    exact Nat.zero_add _
  induction covers with
  | start => exact .between
  | separator _ separates ih =>
      rw [List.foldl_append, List.foldl_cons, ih.advance,
        Scanner.advanceBetween_separator _ _ separates]
      exact .between
  | comment _ inLine ends ih =>
      have begins (offset : Nat) (tokens : List Token) :
          Scanner.advanceBetween offset tokens ';' = ⟨.comment, offset + 1, tokens⟩ := rfl
      rw [List.foldl_append, List.foldl_cons, ih.advance, begins,
        Scanner.foldl_advance_comment _ _ inLine]
      exact .comment ends
  | token _ lexeme ih =>
      rw [List.foldl_append, List.reverse_append]
      simpa [reached] using ih.lexeme lexeme

theorem Finds.scan {text : List Char} {found : Scan} (finds : Finds text found) :
    scan text = found := by
  cases finds with
  | whole covers =>
      rw [TinyLisp.scan, covers.settled.finish, List.reverse_reverse]
  | unclosed covers unclosed =>
      rw [TinyLisp.scan, List.foldl_append, covers.settled.unclosed unclosed,
        Scanner.offset_foldl_advance, List.reverse_reverse]
      simp [Scanner.initial]

theorem finds_scan (text : List Char) : Finds text (scan text) := by
  have nothing : Scanner.Tracks (text ++ []) [] Scanner.initial := .between (.start _)
  exact (nothing.foldl_advance text).finish

/-- Only an atom needs something after it that ends it. -/
theorem Lexeme.before {kind : TokenKind} {text after rest : List Char}
    (lexeme : Lexeme kind text after)
    (ends : kind = .atom → ∀ c ∈ rest.head?, Text.isAtomChar c = false) :
    Lexeme kind text rest := by
  cases lexeme with
  | opening bracket => exact .opening bracket rest
  | closing bracket => exact .closing bracket rest
  | string enclosed => exact .string enclosed rest
  | atom isAtom => exact .atom isAtom (ends rfl)

theorem Covers.lexeme {taken rest : List Char} {tokens : List Token}
    (covers : Covers taken tokens rest) :
    ∀ token ∈ tokens, ∃ after, Lexeme token.kind token.text after := by
  induction covers with
  | start => simp
  | separator _ _ ih => exact ih
  | comment _ _ _ ih => exact ih
  | @token _ _ _ _ after _ lexeme ih =>
      intro token member
      rcases List.mem_append.mp member with earlier | last
      · exact ih token earlier
      · obtain rfl := List.mem_singleton.mp last
        exact ⟨after, lexeme⟩

theorem Finds.lexeme {text : List Char} {found : Scan} (finds : Finds text found) :
    ∀ token ∈ found.tokens, ∃ after, Lexeme token.kind token.text after := by
  cases finds with
  | whole covers => exact covers.lexeme
  | unclosed covers _ => exact covers.lexeme

theorem Scanner.isAtom_of_mem_scan {text : List Char} {token : Token}
    (member : token ∈ (scan text).tokens) (isAtom : token.kind = .atom) :
    Text.IsAtom token.text := by
  obtain ⟨after, lexeme⟩ := (finds_scan text).lexeme token member
  rw [isAtom] at lexeme
  cases lexeme with
  | atom isAtom _ => exact isAtom

/-- The tokens that take up a text are the ones that a scan finds. -/
theorem scan_eq_iff {text : List Char} {found : Scan} : scan text = found ↔ Finds text found := by
  refine ⟨?_, Finds.scan⟩
  rintro rfl
  exact finds_scan text

end TinyLisp
