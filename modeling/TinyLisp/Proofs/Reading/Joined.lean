import TinyLisp.Proofs.Reading.RoundTrip

/-!
# Texts that are joined

The end of a line ends whatever a text leaves open, strings apart. So two texts with a line break
between them have the tokens of the one and then those of the other, which have moved on. If the
first text can be read, they read as its forms and then those of the second text, or they fail as
the second text does, with every offset moved on as well.
-/

namespace TinyLisp

open Grammar

/-- An offset, if there is one, in a text with so many characters put in front. -/
def offsetMovedBy (count : Nat) (offset : Option Int) : Option Int := offset.map (· + (count : Int))

/-- The token as it stands in a text with so many characters put in front. -/
def Token.movedBy (count : Nat) (token : Token) : Token :=
  { token with offset := offsetMovedBy count token.offset }

namespace Covers

variable {taken rest front : List Char} {tokens found : List Token}

/-- A line break may follow, and anything after it. -/
theorem extend (covers : Covers taken tokens rest) (more : List Char) :
    Covers taken tokens (rest ++ '\n' :: more) := by
  induction covers with
  | start => exact .start _
  | separator _ separates ih => exact ih.separator separates
  | @comment taken tokens body rest _ inLine ends ih =>
      rw [List.cons_append, List.append_assoc] at ih
      refine ih.comment inLine ?_
      cases rest with
      | nil => simp
      | cons c rest => exact ends
  | @token taken tokens kind text rest _ lexeme ih =>
      rw [List.append_assoc] at ih
      refine ih.token (lexeme.before ?_)
      rintro rfl
      cases lexeme with
      | atom isAtom ends =>
          cases rest with
          | nil => simp [Text.isAtomChar, show Text.isSeparator '\n' from rfl]
          | cons c rest => exact ends

/-- What takes up the next part of a text takes it up after the first part. -/
theorem append (first : Covers front found (taken ++ rest)) (covers : Covers taken tokens rest) :
    Covers (front ++ taken) (found ++ tokens.map (Token.movedBy front.length)) rest := by
  induction covers with
  | start => simpa using first
  | separator _ separates ih =>
      rw [← List.append_assoc]
      exact (ih (by simpa using first)).separator separates
  | comment _ inLine ends ih =>
      rw [← List.append_assoc]
      exact (ih (by simpa using first)).comment inLine ends
  | @token taken tokens kind text rest _ lexeme ih =>
      have next := (ih (by simpa using first)).token lexeme
      simpa [Token.movedBy, offsetMovedBy, Int.add_comm] using next

end Covers

/-- A text whose tokens are the same whatever follows has them in front of those of another text,
which have moved on. -/
theorem scan_append {front : List Char} {found : List Token}
    (covers : ∀ rest, Covers front found rest) (second : List Char) :
    scan (front ++ second) =
      ⟨found ++ (scan second).tokens.map (Token.movedBy front.length),
        (scan second).unterminated.map (· + front.length)⟩ := by
  have finds := finds_scan second
  generalize scan second = others at finds
  rw [scan_eq_iff]
  cases finds with
  | whole others => exact .whole ((covers _).append others)
  | unclosed others unclosed =>
      have both := Finds.unclosed ((covers _).append others) unclosed
      simpa [Nat.add_comm] using both

/-- After a text without an unfinished string and a line break, anything may follow. -/
theorem covers_line {first : List Char} {found : List Token} (whole : scan first = ⟨found, none⟩)
    (rest : List Char) : Covers (first ++ ['\n']) found rest := by
  obtain ⟨covers⟩ := scan_eq_iff.mp whole
  exact (covers.extend rest).separator (by decide)

/-- The fault as it is reported in a text with so many characters put in front. -/
def ReadFault.movedBy (count : Nat) : ReadFault → ReadFault
  | unterminatedString offset => unterminatedString (offset + count)
  | unexpectedCloser text offset => unexpectedCloser text (offsetMovedBy count offset)
  | mismatchedCloser text offset opened openedAt =>
      mismatchedCloser text (offsetMovedBy count offset) opened (offsetMovedBy count openedAt)
  | unknownToken label text offset => unknownToken label text (offsetMovedBy count offset)
  | unreadableAtom text offset => unreadableAtom text (offsetMovedBy count offset)
  | tooManyDigits found => tooManyDigits found
  | unclosed opened openedAt => unclosed opened (offsetMovedBy count openedAt)
  | formCount found => formCount found

namespace Reading

/-- The open brackets as they are if some items stand before the outermost one, the latest first,
and so many characters before all of them. -/
def openedAfter (front : List Value) (count : Nat) : List OpenBracket → List OpenBracket
  | [] => []
  | [outermost] =>
      [⟨outermost.bracket, offsetMovedBy count outermost.offset, outermost.before ++ front⟩]
  | innermost :: next :: enclosing =>
      ⟨innermost.bracket, offsetMovedBy count innermost.offset, innermost.before⟩ ::
        openedAfter front count (next :: enclosing)

/-- What has been read, if some items had been read before, the latest first, and so many
characters had been passed. -/
def after (front : List Value) (count : Nat) (reading : Reading) : Reading :=
  ⟨if reading.opened.isEmpty then reading.items ++ front else reading.items,
    openedAfter front count reading.opened⟩

variable (front : List Value) (count : Nat)

/-- A result of reading as it is if something has been read before. -/
def resultAfter (result : Except ReadFault Reading) : Except ReadFault Reading :=
  (result.map (after front count)).mapError (ReadFault.movedBy count)

theorem readAtom_movedBy (offset : Option Int) (text : List Char) :
    readAtom (offsetMovedBy count offset) text =
      (readAtom offset text).mapError (ReadFault.movedBy count) :=
  readAtom_mapError (fun _ => rfl) rfl

theorem close_after (reading : Reading) (bracket : Bracket) (token : Token) :
    (reading.after front count).close bracket (token.movedBy count) =
      resultAfter front count (reading.close bracket token) := by
  obtain ⟨items, opened⟩ := reading
  match opened with
  | [] => rfl
  | [outermost] =>
      simp only [after, openedAfter, close]
      split <;> rfl
  | innermost :: next :: enclosing =>
      simp only [after, openedAfter, close]
      split <;> rfl

theorem push_after (reading : Reading) (item : Value) :
    (reading.push item).after front count = (reading.after front count).push item := by
  obtain ⟨items, _ | ⟨innermost, enclosing⟩⟩ := reading <;> rfl

theorem accept_after (reading : Reading) (token : Token) :
    (reading.after front count).accept (token.movedBy count) =
      resultAfter front count (reading.accept token) := by
  obtain ⟨kind, text, offset⟩ := token
  cases kind with
  | opening bracket =>
      obtain ⟨items, _ | ⟨innermost, enclosing⟩⟩ := reading <;> rfl
  | closing bracket => exact close_after front count reading bracket _
  | string => exact congrArg Except.ok (push_after front count reading _).symm
  | atom =>
      simp only [accept, Token.movedBy, readAtom_movedBy]
      cases readAtom offset text with
      | ok value => exact congrArg Except.ok (push_after front count reading value).symm
      | error fault => rfl
  | other label => rfl

/-- The second of two texts is taken as it would be by itself. -/
theorem foldlM_accept_after (tokens : List Token) (reading : Reading) :
    (tokens.map (Token.movedBy count)).foldlM accept (reading.after front count) =
      resultAfter front count (tokens.foldlM accept reading) := by
  induction tokens generalizing reading with
  | nil => rfl
  | cons token rest ih =>
      rw [List.map_cons, List.foldlM_cons, List.foldlM_cons, accept_after]
      cases reading.accept token with
      | ok next => exact ih next
      | error fault => rfl

theorem finish_after (reading : Reading) :
    (reading.after front count).finish =
      (reading.finish.map (front.reverse ++ ·)).mapError (ReadFault.movedBy count) := by
  obtain ⟨items, opened⟩ := reading
  match opened with
  | [] => exact congrArg Except.ok (List.reverse_append ..)
  | [outermost] => rfl
  | innermost :: next :: enclosing => rfl

end Reading

/-- A text after one whose tokens are forms whatever follows yields the forms of both, or fails as
it does by itself, only further on. -/
theorem readForms_append {front : List Char} {found : List Token} {forms : List Value}
    (covers : ∀ rest, Covers front found rest) (derivation : Forms found forms)
    (second : List Char) :
    readForms (front ++ second) =
      ((readForms second).map (forms ++ ·)).mapError (ReadFault.movedBy front.length) := by
  have before : found.foldlM Reading.accept Reading.initial =
      .ok (Reading.initial.after forms.reverse front.length) := by
    rw [Reading.foldlM_accept_forms derivation]
    simp [Reading.after, Reading.initial, Reading.openedAfter]
  simp only [readForms, scan_append covers second, List.foldlM_append, before, ok_bind,
    Reading.foldlM_accept_after]
  cases (scan second).tokens.foldlM Reading.accept Reading.initial with
  | error fault => rfl
  | ok reading =>
      cases (scan second).unterminated with
      | some offset => rfl
      | none =>
          have finished := Reading.finish_after forms.reverse front.length reading
          rw [List.reverse_reverse] at finished
          exact finished

theorem readForms_join_eq {first : List Char} {forms : List Value}
    (read : readForms first = .ok forms) (second : List Char) :
    readForms (first ++ '\n' :: second) =
      ((readForms second).map (forms ++ ·)).mapError (ReadFault.movedBy (first.length + 1)) := by
  obtain ⟨found, whole, derivation⟩ := readForms_eq_ok_iff.mp read
  simpa using readForms_append (covers_line whole) derivation second

/-- If each of two texts can be read, they can be read as lines one after the other, and have the
forms of both. -/
theorem readForms_join {first second : List Char} {forms others : List Value}
    (firstRead : readForms first = .ok forms) (secondRead : readForms second = .ok others) :
    readForms (first ++ '\n' :: second) = .ok (forms ++ others) := by
  rw [readForms_join_eq firstRead, secondRead]
  rfl

theorem ReadFault.kind_movedBy (count : Nat) (fault : ReadFault) :
    (fault.movedBy count).kind = fault.kind := by
  cases fault <;> rfl

/-- However the first of two lines ends, if it can be read it has no part in how the second one is
read. If that one can be read, they have the forms of both, those of the first line first; if it
cannot, they fail with its fault, in which every offset counts the first line and its end. -/
theorem readForms_distributes (first second : List Char) (forms : List Value)
    (read : readForms first = .ok forms) :
    (∀ others, readForms second = .ok others →
        readForms (first ++ '\n' :: second) = .ok (forms ++ others)) ∧
      ∀ fault, readForms second = .error fault →
        readForms (first ++ '\n' :: second) = .error (fault.movedBy (first.length + 1)) ∧
          (fault.movedBy (first.length + 1)).kind = fault.kind := by
  refine ⟨fun others => readForms_join read, fun fault failed => ?_⟩
  refine ⟨?_, fault.kind_movedBy _⟩
  rw [readForms_join_eq read, failed]
  rfl

/-- After an atom and a comment there are two forms, or a bracket that closes nothing. -/
theorem readForms_distributes_comment :
    readForms ['a', ';', '('] = .ok [.named "a"] ∧
      readForms ['a', ';', '(', '\n', 'b'] = .ok [.named "a", .named "b"] ∧
      readForms ['a', ';', '(', '\n', 'b', ')'] = .error (.unexpectedCloser ")" (some 5)) := by
  have read : readForms ['a', ';', '('] = .ok [.named "a"] := rfl
  exact ⟨read, (readForms_distributes _ ['b'] _ read).1 [.named "b"] rfl,
    ((readForms_distributes _ ['b', ')'] _ read).2 (.unexpectedCloser ")" (some 1)) rfl).1⟩

end TinyLisp
