import TinyLisp.Proofs.Reading.Atoms
import TinyLisp.Proofs.Reading.Grammar

/-!
# Where reading fails

Tokens are viable if more tokens can make forms of them. Reading goes on for just as long as the
tokens so far are viable, since the brackets that are open can always be closed. So a fault is found
at the first token that leaves no way to go on, whatever comes after it, or at the end of viable
tokens with an open bracket.
-/

namespace TinyLisp

namespace Grammar

/-- The tokens are the first ones of tokens that make up forms. -/
def Viable (tokens : List Token) : Prop := ∃ more forms, Forms (tokens ++ more) forms

/-- The tokens end within a bracket that a token opens: after that token there are whole forms. -/
inductive EndsWithin (opener : Token) (bracket : Bracket) : List Token → Prop
  | intro {outer inner : List Token} {forms : List Value} (opens : opener.kind = .opening bracket)
      (contents : Forms inner forms) : EndsWithin opener bracket (outer ++ opener :: inner)

/-- What is wrong with a token that cannot follow some others. A closing token closes nothing, or
not the innermost bracket; otherwise the token has no reading by itself. -/
inductive FaultAt (taken : List Token) (token : Token) : ReadFault → Prop
  | nothingOpen {bracket : Bracket} {forms : List Value} (closes : token.kind = .closing bracket)
      (whole : Forms taken forms) :
      FaultAt taken token (.unexpectedCloser (String.ofList token.text) token.offset)
  | otherBracket {opener : Token} {opened bracket : Bracket}
      (closes : token.kind = .closing bracket) (within : EndsWithin opener opened taken)
      (differs : opened ≠ bracket) :
      FaultAt taken token
        (.mismatchedCloser (String.ofList token.text) token.offset opened opener.offset)
  | unknown {label : String} (other : token.kind = .other label) :
      FaultAt taken token (.unknownToken label (String.ofList token.text) token.offset)
  | unreadable (isAtom : token.kind = .atom)
      (unread : ∀ offset value, readAtom offset token.text ≠ .ok value) :
      FaultAt taken token (.unreadableAtom (String.ofList token.text) token.offset)

theorem Viable.of_prefix {tokens shorter : List Token} (viable : Viable tokens)
    (front : shorter <+: tokens) : Viable shorter := by
  obtain ⟨rest, rfl⟩ := front
  obtain ⟨more, forms, derivation⟩ := viable
  exact ⟨rest ++ more, forms, by simpa using derivation⟩

/-- Such a fault is reported with the offset of the token, if it has one. -/
theorem FaultAt.message {taken : List Token} {token : Token} {fault : ReadFault}
    (faultAt : FaultAt taken token fault) :
    ∃ before after, fault.message = before ++ offsetText " at " token.offset ++ after := by
  let text := inspectedText (String.ofList token.text)
  cases faultAt with
  | nothingOpen => exact ⟨"Unexpected " ++ text, " with nothing open", rfl⟩
  | @otherBracket opener opened =>
      let closing := " closing " ++ inspectedText opened.opening.toString
      refine ⟨"Mismatched " ++ text, closing ++ offsetText " at " opener.offset, ?_⟩
      rw [← String.append_assoc, ← String.append_assoc]
      rfl
  | @unknown label =>
      exact ⟨"Unknown token: " ++ label ++ " " ++ String.ofList token.text, "",
        (String.append_empty).symm⟩
  | unreadable => exact ⟨"Cannot read token " ++ text, "", (String.append_empty).symm⟩

end Grammar

namespace Reading

open Grammar

variable {tokens taken : List Token} {reading : Reading} {fault : ReadFault}

/-- The brackets that are open can be closed from the inside out. -/
theorem Represents.viable {items : List Value} {opened : List OpenBracket}
    (represents : Represents tokens ⟨items, opened⟩) : Viable tokens := by
  induction opened generalizing tokens items with
  | nil =>
      cases represents with
      | outermost forms => exact ⟨[], _, by simpa using forms⟩
  | cons innermost enclosing ih =>
      cases represents with
      | @inside outer inner opener bracket _ _ _ around opens forms =>
          let closer : Token := ⟨.closing bracket, [], none⟩
          have closed : Represents (outer ++ opener :: (inner ++ [closer])) _ :=
            around.push (.sequence opens forms rfl)
          obtain ⟨more, all, derivation⟩ := ih closed
          exact ⟨closer :: more, all, by simpa using derivation⟩

/-- Exactly the viable tokens are taken. -/
theorem viable_iff : Viable tokens ↔ ∃ reading, tokens.foldlM accept initial = .ok reading := by
  constructor
  · rintro ⟨more, forms, derivation⟩
    have whole := foldlM_accept_forms derivation initial
    rw [List.foldlM_append] at whole
    obtain ⟨reading, accepted, -⟩ := bind_eq_ok_iff.mp whole
    exact ⟨reading, accepted⟩
  · rintro ⟨reading, accepted⟩
    exact (represents_of_foldlM_accept accepted).viable

/-- A list of tokens that is not taken holds a first token that is not. -/
theorem exists_rejected (failed : tokens.foldlM accept reading = .error fault) :
    ∃ front token rest next, tokens = front ++ token :: rest ∧
      front.foldlM accept reading = .ok next ∧ next.accept token = .error fault := by
  induction tokens generalizing reading with
  | nil => cases failed
  | cons token rest ih =>
      rw [List.foldlM_cons] at failed
      rcases bind_eq_error_iff.mp failed with first | ⟨middle, taken, others⟩
      · exact ⟨[], token, rest, reading, rfl, rfl, first⟩
      · obtain ⟨front, rejected, after, next, rfl, accepted, last⟩ := ih others
        refine ⟨token :: front, rejected, after, next, rfl, ?_, last⟩
        rw [List.foldlM_cons, taken, ok_bind, accepted]

/-- What follows a rejected token is not looked at. -/
theorem readTokens_of_rejected {token : Token}
    (accepted : taken.foldlM accept initial = .ok reading)
    (rejected : reading.accept token = .error fault) (others : List Token) :
    readTokens (taken ++ token :: others) = .error fault := by
  simp [readTokens, List.foldlM_append, accepted, rejected]

theorem Represents.within {items before : List Value} {bracket : Bracket} {offset : Option Int}
    {enclosing : List OpenBracket}
    (represents : Represents tokens ⟨items, ⟨bracket, offset, before⟩ :: enclosing⟩) :
    ∃ opener, EndsWithin opener bracket tokens ∧ opener.offset = offset := by
  cases represents with
  | inside around opens forms => exact ⟨_, .intro opens forms, rfl⟩

theorem Represents.faultAt_close {token : Token} {bracket : Bracket}
    (represents : Represents taken reading) (closes : token.kind = .closing bracket)
    (failed : Reading.close reading bracket token = .error fault) : FaultAt taken token fault := by
  obtain ⟨items, opened⟩ := reading
  cases opened with
  | nil =>
      cases failed
      cases represents with
      | outermost forms => exact .nothingOpen closes forms
  | cons innermost enclosing =>
      simp only [Reading.close] at failed
      split at failed
      · cases failed
      · next differs =>
          cases failed
          obtain ⟨opener, within, offset⟩ := represents.within
          rw [← offset]
          exact .otherBracket closes within differs

theorem faultAt_of_readAtom {token : Token} (isAtom : token.kind = .atom)
    (failed : readAtom token.offset token.text = .error fault) :
    FaultAt taken token fault ∨ ∃ count, fault = .tooManyDigits count := by
  have unread (offset : Option Int) (value : Value) : readAtom offset token.text ≠ .ok value := by
    intro read
    rw [readAtom_offset read] at failed
    cases failed
  cases readAtom_eq_iff.mp failed with
  | overlong => exact .inr ⟨_, rfl⟩
  | unreadable => exact .inl (.unreadable isAtom unread)

theorem Represents.faultAt {token : Token} (represents : Represents taken reading)
    (failed : reading.accept token = .error fault) :
    FaultAt taken token fault ∨ ∃ count, fault = .tooManyDigits count := by
  rw [Reading.accept] at failed
  split at failed
  case h_1 => cases failed
  case h_2 bracket closes => exact .inl (represents.faultAt_close closes failed)
  case h_3 => cases failed
  case h_4 isAtom =>
      rcases bind_eq_error_iff.mp failed with unread | ⟨value, -, pushed⟩
      · exact faultAt_of_readAtom isAtom unread
      · cases pushed
  case h_5 label other =>
      cases failed
      exact .inl (.unknown other)

/-- Viable tokens that are not forms end within a bracket. -/
theorem within_of_readTokens (viable : Viable tokens)
    (failed : readTokens tokens = .error fault) :
    ∃ opener bracket,
      EndsWithin opener bracket tokens ∧ fault = .unclosed bracket opener.offset := by
  obtain ⟨⟨items, opened⟩, accepted⟩ := viable_iff.mp viable
  simp only [readTokens, accepted, ok_bind] at failed
  cases opened with
  | nil => cases failed
  | cons innermost enclosing =>
      cases failed
      obtain ⟨opener, within, offset⟩ := (represents_of_foldlM_accept accepted).within
      exact ⟨opener, innermost.bracket, within, by rw [offset]⟩

/-- A string without an end is reported if the tokens before it could go on. -/
theorem readForms_eq_unterminated_iff {text : List Char} {offset : Nat} :
    readForms text = .error (.unterminatedString offset) ↔
      (scan text).unterminated = some offset ∧ Viable (scan text).tokens := by
  rw [viable_iff]
  constructor
  · intro failed
    rcases bind_eq_error_iff.mp failed with rejected | ⟨last, accepted, ended⟩
    · obtain ⟨front, token, rest, next, -, accepted, last⟩ := exists_rejected rejected
      rcases (represents_of_foldlM_accept accepted).faultAt last with faultAt | ⟨count, other⟩
      · cases faultAt
      · cases other
    · refine ⟨?_, last, accepted⟩
      split at ended
      · next found =>
          cases ended
          exact found
      · unfold finish at ended
        split at ended <;> cases ended
  · rintro ⟨unclosed, last, accepted⟩
    simp only [readForms, accepted, ok_bind, unclosed]
    rfl

/-- Reading fails as early as it can. Either the tokens could go on, and the fault is the innermost
bracket that is open when they end. Or there is a first token that leaves no way to go on, while
those before it do; the fault is the one at that token, is reported with its offset, and is the
same whatever comes after it. A string that has no end is reported just if the tokens before it
could go on. -/
theorem readTokens_fault_earliest :
    (∀ (tokens : List Token) (fault : ReadFault),
      (∀ token ∈ tokens, token.WithinDigitLimit) → readTokens tokens = .error fault →
        (Viable tokens ∧ ∃ opener bracket, EndsWithin opener bracket tokens ∧
          fault = .unclosed bracket opener.offset) ∨
        ∃ front token rest, tokens = front ++ token :: rest ∧
          (∀ shorter, shorter <+: front → Viable shorter) ∧ ¬ Viable (front ++ [token]) ∧
          FaultAt front token fault ∧
          (∃ before after, fault.message = before ++ offsetText " at " token.offset ++ after) ∧
          ∀ others, readTokens (front ++ token :: others) = .error fault) ∧
      ∀ (text : List Char) (offset : Nat),
        readForms text = .error (.unterminatedString offset) ↔
          (scan text).unterminated = some offset ∧ Viable (scan text).tokens := by
  refine ⟨fun tokens fault limits failed => ?_, fun _ _ => readForms_eq_unterminated_iff⟩
  by_cases viable : Viable tokens
  · exact .inl ⟨viable, within_of_readTokens viable failed⟩
  rcases bind_eq_error_iff.mp failed with unaccepted | ⟨last, accepted, -⟩
  · right
    obtain ⟨front, token, rest, next, rfl, accepted, rejected⟩ := exists_rejected unaccepted
    have faultAt : FaultAt front token fault := by
      rcases (represents_of_foldlM_accept accepted).faultAt rejected with faultAt | ⟨count, rfl⟩
      · exact faultAt
      · cases kind_of_accept_eq_error (limits token (by simp)) rejected
    have before : Viable front := viable_iff.mpr ⟨next, accepted⟩
    have stuck : ¬ Viable (front ++ [token]) := by
      intro longer
      obtain ⟨reading, taken⟩ := viable_iff.mp longer
      simp [List.foldlM_append, accepted, rejected] at taken
    exact ⟨front, token, rest, rfl, fun shorter => before.of_prefix, stuck, faultAt,
      faultAt.message, readTokens_of_rejected accepted rejected⟩
  · exact absurd (viable_iff.mpr ⟨last, accepted⟩) viable

/-- A square bracket cannot close a round one, whatever comes after it. A quote after a round
bracket begins a string that has no end. -/
theorem readTokens_fault_earliest_brackets :
    let opener : Token := ⟨.opening .round, ['('], some 0⟩
    let closer : Token := ⟨.closing .square, [']'], some 1⟩
    (¬ Viable [opener, closer] ∧
      readTokens [opener, closer] = .error (.mismatchedCloser "]" (some 1) .round (some 0))) ∧
      readForms ['(', '"'] = .error (.unterminatedString 1) := by
  intro opener closer
  obtain ⟨earliest, unterminated⟩ := readTokens_fault_earliest
  have failed : readTokens [opener, closer] =
      .error (.mismatchedCloser "]" (some 1) .round (some 0)) := rfl
  refine ⟨⟨fun viable => ?_, failed⟩, ?_⟩
  · rcases earliest _ _ (by simp [Token.WithinDigitLimit, opener, closer]) failed with
      ⟨-, _, _, -, fault⟩ | ⟨front, token, rest, whole, -, stuck, -⟩
    · cases fault
    · exact stuck (viable.of_prefix ⟨rest, by simp [whole]⟩)
  · exact (unterminated _ _).mpr ⟨rfl, viable_iff.mpr ⟨_, rfl⟩⟩

end Reading

end TinyLisp
