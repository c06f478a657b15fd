import TinyLisp.Proofs.Outcome
import TinyLisp.Proofs.Reading.Atoms
import TinyLisp.Reading

/-!
# The bracket grammar

A form is a string token, an atom token that has a reading, or a pair of matching brackets with
forms between them. `Form` and `Forms` derive token lists together with the values that they
denote; nothing in them mentions a stack.

Reading with a stack of open brackets agrees with the grammar. The stack stands for the tokens
that have been taken: `Represents` relates the two, and every accepted token keeps the relation.
-/

namespace TinyLisp

namespace Grammar

mutual

/-- The tokens of one form, and its value. -/
inductive Form : List Token → Value → Prop
  | string {token : Token} (isString : token.kind = .string) :
      Form [token] (.string (Reading.stringContents token.text))
  | atom {token : Token} {value : Value} (isAtom : token.kind = .atom)
      (reads : readAtom token.offset token.text = .ok value) :
      Form [token] value
  | sequence {opener closer : Token} {bracket : Bracket} {inner : List Token}
      {items : List Value} (opens : opener.kind = .opening bracket) (contents : Forms inner items)
      (closes : closer.kind = .closing bracket) :
      Form (opener :: (inner ++ [closer])) (.sequence none bracket items)

/-- The tokens of some forms one after the other, and their values in that order. -/
inductive Forms : List Token → List Value → Prop
  | nil : Forms [] []
  | cons {first rest : List Token} {form : Value} {forms : List Value}
      (head : Form first form) (tail : Forms rest forms) :
      Forms (first ++ rest) (form :: forms)

end

theorem Forms.append {first second : List Token} {front back : List Value}
    (left : Forms first front) (right : Forms second back) :
    Forms (first ++ second) (front ++ back) := by
  induction front generalizing first with
  | nil =>
      cases left
      exact right
  | cons form forms ih =>
      cases left with
      | cons head tail =>
          rw [List.append_assoc]
          exact .cons head (ih tail)

theorem Form.forms {tokens : List Token} {form : Value} (derivation : Form tokens form) :
    Forms tokens [form] := by
  simpa using Forms.cons derivation .nil

theorem Forms.concat {first second : List Token} {forms : List Value} {form : Value}
    (derivation : Forms first forms) (last : Form second form) :
    Forms (first ++ second) (forms ++ [form]) :=
  derivation.append last.forms

/-- A property of strings, of what atoms denote, and of sequences of values that have it. -/
structure Closed (property : Value → Prop) : Prop where
  string : ∀ text, property (.string text)
  atom : ∀ {offset text value}, Text.IsAtom text → readAtom offset text = .ok value →
    property value
  sequence : ∀ bracket {items : List Value}, (∀ item ∈ items, property item) →
    property (.sequence none bracket items)

mutual

theorem Form.holds {property : Value → Prop} (closed : Closed property) {tokens : List Token}
    {form : Value} (atoms : ∀ token ∈ tokens, token.kind = .atom → Text.IsAtom token.text) :
    Form tokens form → property form
  | .string _ => closed.string _
  | .atom isAtom reads => closed.atom (atoms _ (by simp) isAtom) reads
  | .sequence _ contents _ =>
      closed.sequence _ (contents.holds closed fun token member => atoms token (by simp [member]))

/-- A closed property is one of everything that is derived from tokens with atoms as a scan finds
them. -/
theorem Forms.holds {property : Value → Prop} (closed : Closed property) {tokens : List Token}
    {forms : List Value} (atoms : ∀ token ∈ tokens, token.kind = .atom → Text.IsAtom token.text) :
    Forms tokens forms → ∀ form ∈ forms, property form
  | .nil => by simp
  | .cons head tail =>
      List.forall_mem_cons.mpr
        ⟨head.holds closed fun token member => atoms token (by simp [member]),
          tail.holds closed fun token member => atoms token (by simp [member])⟩

end

end Grammar

/-- The token is no integer with more digits than an integer may have. -/
def Token.WithinDigitLimit (token : Token) : Prop :=
  token.kind = .atom → ∀ numeral, Numeral.parse? token.text = some numeral →
    numeral.isInteger → numeral.whole.length ≤ digitLimit

namespace Reading

open Grammar

mutual

/-- Taking the tokens of a form adds its value to the items of the innermost open bracket. -/
theorem foldlM_accept_form {tokens : List Token} {form : Value} :
    Form tokens form → ∀ reading : Reading,
      tokens.foldlM accept reading = .ok (reading.push form)
  | .string isString, reading => by
      simp [accept, isString]
  | .atom isAtom reads, reading => by
      simp [accept, isAtom, reads]
  | @Form.sequence opener _ bracket _ _ opens contents closes, reading => by
      have inside := foldlM_accept_forms contents
        ⟨[], ⟨bracket, opener.offset, reading.items⟩ :: reading.opened⟩
      simp [accept, opens, closes, close, inside, push]

/-- Taking the tokens of some forms adds their values, and leaves the open brackets as they are. -/
theorem foldlM_accept_forms {tokens : List Token} {forms : List Value} :
    Forms tokens forms → ∀ reading : Reading,
      tokens.foldlM accept reading = .ok ⟨forms.reverse ++ reading.items, reading.opened⟩
  | .nil, reading => rfl
  | .cons head tail, reading => by
      rw [List.foldlM_append, foldlM_accept_form head, ok_bind, foldlM_accept_forms tail]
      simp [push]

end

theorem readTokens_of_forms {tokens : List Token} {forms : List Value}
    (derivation : Forms tokens forms) : readTokens tokens = .ok forms := by
  simp [readTokens, foldlM_accept_forms derivation, initial, finish]

/-- What a state of reading stands for: the tokens taken so far are forms, or they are what stands
before an open bracket, the bracket, and forms after it. -/
inductive Represents : List Token → Reading → Prop
  | outermost {tokens : List Token} {items : List Value} (forms : Forms tokens items.reverse) :
      Represents tokens ⟨items, []⟩
  | inside {outer inner : List Token} {opener : Token} {bracket : Bracket}
      {before items : List Value} {opened : List OpenBracket}
      (enclosing : Represents outer ⟨before, opened⟩) (opens : opener.kind = .opening bracket)
      (forms : Forms inner items.reverse) :
      Represents (outer ++ opener :: inner)
        ⟨items, ⟨bracket, opener.offset, before⟩ :: opened⟩

/-- A finished form goes to the innermost open bracket. -/
theorem Represents.push {tokens added : List Token} {reading : Reading} {form : Value}
    (represents : Represents tokens reading) (derivation : Form added form) :
    Represents (tokens ++ added) (reading.push form) := by
  cases represents with
  | outermost forms =>
      exact .outermost (by simpa using forms.concat derivation)
  | inside enclosing opens forms =>
      rw [List.append_assoc, List.cons_append]
      exact .inside enclosing opens (by simpa using forms.concat derivation)

/-- The one step that takes a bracket from the stack. -/
theorem Represents.close {tokens : List Token} {reading next : Reading} {bracket : Bracket}
    {token : Token} (represents : Represents tokens reading)
    (closes : token.kind = .closing bracket) (closed : reading.close bracket token = .ok next) :
    Represents (tokens ++ [token]) next := by
  cases represents with
  | outermost forms => simp [Reading.close] at closed
  | inside enclosing opens forms =>
      simp only [Reading.close] at closed
      split at closed
      · next same =>
          cases closed
          subst same
          rw [List.append_assoc, List.cons_append]
          exact enclosing.push (.sequence opens forms closes)
      · cases closed

theorem Represents.accept {tokens : List Token} {reading next : Reading} {token : Token}
    (represents : Represents tokens reading) (accepted : reading.accept token = .ok next) :
    Represents (tokens ++ [token]) next := by
  rw [Reading.accept] at accepted
  split at accepted
  case h_1 bracket opens =>
      cases accepted
      exact .inside represents opens .nil
  case h_2 bracket closes => exact represents.close closes accepted
  case h_3 isString =>
      cases accepted
      exact represents.push (.string isString)
  case h_4 isAtom =>
      obtain ⟨value, reads, pushed⟩ := bind_eq_ok_iff.mp accepted
      cases pushed
      exact represents.push (.atom isAtom reads)
  case h_5 => cases accepted

theorem Represents.foldlM_accept {taken tokens : List Token} {reading last : Reading}
    (represents : Represents taken reading)
    (accepted : tokens.foldlM Reading.accept reading = .ok last) :
    Represents (taken ++ tokens) last := by
  induction tokens generalizing taken reading with
  | nil =>
      cases accepted
      simpa using represents
  | cons token rest ih =>
      rw [List.foldlM_cons] at accepted
      obtain ⟨next, first, others⟩ := bind_eq_ok_iff.mp accepted
      simpa using ih (represents.accept first) others

theorem represents_of_foldlM_accept {tokens : List Token} {last : Reading}
    (accepted : tokens.foldlM accept initial = .ok last) : Represents tokens last := by
  have nothing : Represents [] initial := .outermost .nil
  exact nothing.foldlM_accept accepted

theorem forms_of_readTokens {tokens : List Token} {forms : List Value}
    (read : readTokens tokens = .ok forms) : Forms tokens forms := by
  obtain ⟨last, accepted, finished⟩ := bind_eq_ok_iff.mp read
  have represents := represents_of_foldlM_accept accepted
  cases represents with
  | outermost derivation =>
      cases finished
      exact derivation
  | inside => cases finished

/-- An atom within the digit limit that has no reading is a fault of the text. -/
theorem kind_of_readAtom_eq_error {token : Token} {fault : ReadFault}
    (isAtom : token.kind = .atom) (within : token.WithinDigitLimit)
    (failed : readAtom token.offset token.text = .error fault) : fault.kind = .parse := by
  cases readAtom_eq_iff.mp failed with
  | overlong spells exceeds =>
      obtain ⟨integer, long⟩ := Numeral.long_of_value_eq_error exceeds
      exact absurd (within isAtom _ spells.parse? integer) (not_le.mpr long)
  | unreadable => rfl

theorem kind_of_accept_eq_error {token : Token} {reading : Reading} {fault : ReadFault}
    (within : token.WithinDigitLimit) (failed : reading.accept token = .error fault) :
    fault.kind = .parse := by
  rw [accept] at failed
  split at failed
  case h_1 => cases failed
  case h_2 bracket closes =>
      unfold close at failed
      split at failed
      · cases failed
        rfl
      · split at failed <;> cases failed
        rfl
  case h_3 => cases failed
  case h_4 isAtom =>
      rcases bind_eq_error_iff.mp failed with unread | ⟨value, -, pushed⟩
      · exact kind_of_readAtom_eq_error isAtom within unread
      · cases pushed
  case h_5 =>
      cases failed
      rfl

theorem kind_of_foldlM_accept_eq_error {tokens : List Token} {reading : Reading}
    {fault : ReadFault} (within : ∀ token ∈ tokens, token.WithinDigitLimit)
    (failed : tokens.foldlM accept reading = .error fault) : fault.kind = .parse := by
  induction tokens generalizing reading with
  | nil => cases failed
  | cons token rest ih =>
      rw [List.foldlM_cons] at failed
      rcases bind_eq_error_iff.mp failed with first | ⟨next, -, others⟩
      · exact kind_of_accept_eq_error (within token (by simp)) first
      · exact ih (fun other member => within other (by simp [member])) others

end Reading

/-- A text that is not at fault itself is unread for a token with too many digits. -/
theorem exists_overlong_of_readForms {text : List Char} {fault : ReadFault}
    (failed : readForms text = .error fault) (other : fault.kind ≠ .parse) :
    ∃ token ∈ (scan text).tokens, ¬ token.WithinDigitLimit := by
  refine Classical.byContradiction fun absent => other ?_
  have within : ∀ token ∈ (scan text).tokens, token.WithinDigitLimit := fun token member =>
    Classical.byContradiction fun long => absent ⟨token, member, long⟩
  rcases bind_eq_error_iff.mp failed with unaccepted | ⟨last, -, unfinished⟩
  · exact Reading.kind_of_foldlM_accept_eq_error within unaccepted
  · split at unfinished
    · cases unfinished
      rfl
    · unfold Reading.finish at unfinished
      split at unfinished <;> cases unfinished
      rfl

/-- A text reads as the forms that its tokens are, if all its strings end. -/
theorem readForms_eq_ok_iff {text : List Char} {forms : List Value} :
    readForms text = .ok forms ↔
      ∃ tokens, scan text = ⟨tokens, none⟩ ∧ Grammar.Forms tokens forms := by
  constructor
  · intro read
    obtain ⟨reading, accepted, finished⟩ := bind_eq_ok_iff.mp read
    split at finished
    · cases finished
    · next whole =>
        refine ⟨(scan text).tokens, by rw [← whole], ?_⟩
        exact Reading.forms_of_readTokens (bind_eq_ok_iff.mpr ⟨reading, accepted, finished⟩)
  · rintro ⟨tokens, scanned, derivation⟩
    rw [← Reading.readTokens_of_forms derivation]
    simp only [readForms, scanned]
    rfl

end TinyLisp
