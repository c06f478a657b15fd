import TinyLisp.Proofs.Reading.Scanning
import TinyLisp.Proofs.Value.Nesting

/-!
# Values read back from their texts

A value is readable if it is built from what a text can denote: numbers within their limits,
strings, literals, and names that some atom spells. The readable text of such a value reads as the
value, and reading gives no other values than these, but for infinite doubles.
-/

namespace TinyLisp

open Grammar

namespace Value

/-- The values that programs can denote. -/
inductive Readable : Value → Prop
  | number {number : Number} (readable : number.Readable) : Readable (.number number)
  | string (text : String) : Readable (.string text)
  | literal {word : String} (literal : word ∈ literalWords) : Readable (.literal word)
  | symbol {text : List Char} {name : Name} (isAtom : Text.IsAtom text)
      (reads : readAtom none text = .ok (.symbol name)) : Readable (.symbol name)
  | keyword {text : List Char} {name : Name} (isAtom : Text.IsAtom text)
      (reads : readAtom none text = .ok (.keyword name)) : Readable (.keyword name)
  | sequence (identity : Option Identity) (bracket : Bracket) {items : List Value}
      (readable : ∀ item ∈ items, Readable item) : Readable (.sequence identity bracket items)

/-- The values that have an infinite double in them. -/
inductive HasInfinity : Value → Prop
  | number (negative : Bool) : HasInfinity (.number (.float (.infinite negative)))
  | item {identity : Option Identity} {bracket : Bracket} {items : List Value} {item : Value}
      (member : item ∈ items) (infinite : HasInfinity item) :
      HasInfinity (.sequence identity bracket items)

/-- The readable text of a readable value scans as the tokens of the value. -/
theorem Readable.yields {value : Value} (readable : value.Readable) :
    Scanner.Yields (value.render .readable) [value.erased] := by
  induction readable with
  | number readable => exact Scanner.yields_atom readable.readAtom_text.1 readable.readAtom_text.2
  | string text =>
      have quoted := Scanner.yields_quote text.toList
      rw [String.ofList_toList] at quoted
      exact quoted
  | literal literal =>
      exact Scanner.yields_atom (readAtom_literal literal).1 (readAtom_literal literal).2
  | symbol isAtom reads =>
      cases atomValue_of_readAtom reads with
      | symbol written =>
          subst written
          exact Scanner.yields_atom isAtom (readAtom_offset reads)
  | keyword isAtom reads =>
      cases atomValue_of_readAtom reads with
      | keyword written =>
          subst written
          exact Scanner.yields_atom isAtom (readAtom_offset reads)
  | sequence identity bracket readable ih =>
      simp only [render, renderAll_eq_map, erased, erasedAll_eq_map]
      exact Scanner.yields_sequence bracket (Scanner.yields_joined ih)

theorem readForms_of_yields {text : List Char} {forms : List Value}
    (yields : Scanner.Yields text forms) : readForms text = .ok forms :=
  readForms_eq_ok_iff.mpr (Scanner.scan_eq_of_yields yields)

theorem Readable.readOne_render {value : Value} (readable : value.Readable) :
    readOne (value.render .readable) = .ok value.erased := by
  simp [readOne, readForms_of_yields readable.yields]

theorem Readable.obstacle_ne_digits {value : Value} (readable : value.Readable) (depth : Nat) :
    value.obstacle depth ≠ some .digits := by
  induction readable generalizing depth with
  | number readable => simp [obstacle, readable.exceedsDigitLimit]
  | sequence identity bracket readable ih =>
      simp only [obstacle]
      split
      · simp
      · exact obstacleAmong_ne fun item member => ih item member _
  | _ => simp [obstacle]

theorem Readable.exists_room {value : Value} (readable : value.Readable) :
    ∃ depth, value.obstacle depth = none := by
  induction readable with
  | number readable => exact ⟨0, by simp [obstacle, readable.exceedsDigitLimit]⟩
  | sequence identity bracket readable ih =>
      obtain ⟨depth, room⟩ := exists_room_among ih
      refine ⟨depth + callsPerLevel, ?_⟩
      simp [obstacle, room]
  | _ => exact ⟨0, rfl⟩

/-- Writing a readable value fails for want of room only, and not from some room on. -/
theorem Readable.exists_textWithin {value : Value} (readable : value.Readable) (style : Style) :
    ∃ room, ∀ depth, value.textWithin depth style =
      if room ≤ depth then .ok (String.ofList (value.render style)) else .error .depthExceeded := by
  classical
  have enough := readable.exists_room
  refine ⟨Nat.find enough, fun depth => ?_⟩
  split
  · next le => simp [textWithin, obstacle_eq_none_mono le (Nat.find_spec enough)]
  · next less =>
      have blocked : value.obstacle depth ≠ none := Nat.find_min enough (not_le.mp less)
      unfold textWithin
      split
      · next obstacle found =>
          cases obstacle with
          | depth => rfl
          | digits => exact absurd found (readable.obstacle_ne_digits depth)
      · next clear => exact absurd clear blocked

/-- A value that reading can return: finite ones are readable and have no identities. -/
def IsRead (value : Value) : Prop := (value.Readable ∧ value.erased = value) ∨ value.HasInfinity

theorem isRead_of_readAtom {offset : Option Int} {text : List Char} {value : Value}
    (isAtom : Text.IsAtom text) (reads : readAtom offset text = .ok value) : value.IsRead := by
  cases atomValue_of_readAtom reads with
  | readable readable => exact .inl ⟨.number readable, rfl⟩
  | infinite negative => exact .inr (.number negative)
  | literal literal => exact .inl ⟨.literal literal, rfl⟩
  | symbol => exact .inl ⟨.symbol isAtom (readAtom_offset reads none), rfl⟩
  | keyword => exact .inl ⟨.keyword isAtom (readAtom_offset reads none), rfl⟩

theorem isRead_sequence (bracket : Bracket) {items : List Value}
    (read : ∀ item ∈ items, item.IsRead) : (sequence none bracket items).IsRead := by
  by_cases infinite : ∃ item ∈ items, item.HasInfinity
  · obtain ⟨item, member, infinite⟩ := infinite
    exact .inr (.item member infinite)
  · have finite (item : Value) (member : item ∈ items) : item.Readable ∧ item.erased = item :=
      (read item member).resolve_right fun found => infinite ⟨item, member, found⟩
    refine .inl ⟨.sequence none bracket fun item member => (finite item member).1, ?_⟩
    have same : items.map erased = items :=
      (List.map_congr_left fun item member => (finite item member).2).trans (List.map_id items)
    simp only [erased, erasedAll_eq_map, same]

theorem forms_of_readForms {text : List Char} {forms : List Value}
    (read : readForms text = .ok forms) : Forms (scan text).tokens forms := by
  obtain ⟨tokens, scanned, derivation⟩ := readForms_eq_ok_iff.mp read
  rw [scanned]
  exact derivation

/-- A closed property is one of all forms of a text. -/
theorem forall_of_readForms {property : Value → Prop} (closed : Closed property)
    {text : List Char} {forms : List Value} (read : readForms text = .ok forms) :
    ∀ form ∈ forms, property form :=
  (forms_of_readForms read).holds closed fun _ => Scanner.isAtom_of_mem_scan

/-- Every form of a text is readable unless there is an infinite double in it. -/
theorem isRead_of_readForms {text : List Char} {forms : List Value}
    (read : readForms text = .ok forms) : ∀ form ∈ forms, form.IsRead :=
  forall_of_readForms ⟨fun text => .inl ⟨.string text, rfl⟩, isRead_of_readAtom, isRead_sequence⟩
    read

theorem Readable.not_hasInfinity {value : Value} (readable : value.Readable) :
    ¬ value.HasInfinity := by
  induction readable with
  | number readable =>
      rintro ⟨⟩
      exact readable
  | sequence identity bracket readable ih =>
      rintro (_ | ⟨member, infinite⟩)
      exact ih _ member infinite
  | _ => rintro ⟨⟩

/-- A readable value is written as a text that reads as the value, given room enough, and the
forms of any text are readable unless there is an infinite double in them. So what reading returns,
as long as it is finite, is what reading its text returns. -/
theorem readOne_textWithin_readable :
    (∀ value : Value, value.Readable → ∃ room text,
      (∀ depth, value.textWithin depth .readable =
        if room ≤ depth then .ok text else .error .depthExceeded) ∧
      readOne text.toList = .ok value.erased) ∧
    (∀ text forms, readForms text = .ok forms → ∀ form ∈ forms,
      (form.Readable ↔ ¬ form.HasInfinity) ∧
      (form.Readable → ∃ room text,
        (∀ depth, form.textWithin depth .readable =
          if room ≤ depth then .ok text else .error .depthExceeded) ∧
        readOne text.toList = .ok form)) := by
  have written (value : Value) (readable : value.Readable) : ∃ room text,
      (∀ depth, value.textWithin depth .readable =
        if room ≤ depth then .ok text else .error .depthExceeded) ∧
      readOne text.toList = .ok value.erased := by
    obtain ⟨room, within⟩ := readable.exists_textWithin .readable
    exact ⟨room, _, within, by rw [String.toList_ofList, readable.readOne_render]⟩
  refine ⟨written, fun text forms read form member => ?_⟩
  rcases isRead_of_readForms read form member with ⟨readable, same⟩ | infinite
  · have finite := readable.not_hasInfinity
    have back := written form readable
    rw [same] at back
    exact ⟨⟨fun _ => finite, fun _ => readable⟩, fun _ => back⟩
  · have unreadable : ¬ form.Readable := fun readable => readable.not_hasInfinity infinite
    exact ⟨⟨fun readable => absurd readable unreadable, fun finite => absurd infinite finite⟩,
      fun readable => absurd readable unreadable⟩

/-- A list with a string that needs escapes and a vector with a symbol in a namespace is read back;
so is what reading a vector returns. -/
theorem readOne_textWithin_readable_nested :
    (∃ room text,
      (∀ depth, (list [.string "a\"\n", .sequence none .square [.symbol ⟨"b", "a"⟩]]).textWithin
        depth .readable = if room ≤ depth then .ok text else .error .depthExceeded) ∧
      readOne text.toList =
        .ok (list [.string "a\"\n", .sequence none .square [.symbol ⟨"b", "a"⟩]])) ∧
    readForms ['[', 'x', ']'] = .ok [.sequence none .square [.named "x"]] ∧
    ((sequence none .square [.named "x"]).Readable ↔
      ¬ (sequence none .square [.named "x"]).HasInfinity) := by
  have vectorRead : readForms ['[', 'x', ']'] = .ok [.sequence none .square [.named "x"]] := rfl
  refine ⟨readOne_textWithin_readable.1 _ ?_, vectorRead,
    (readOne_textWithin_readable.2 _ _ vectorRead _ (List.mem_singleton_self _)).1⟩
  have symbol : (symbol ⟨"b", "a"⟩).Readable :=
    @Readable.symbol ['a', '/', 'b'] _ (by decide) rfl
  have vector : (sequence none .square [.symbol ⟨"b", "a"⟩]).Readable :=
    .sequence _ _ (List.forall_mem_singleton.mpr symbol)
  exact .sequence _ _ (List.forall_mem_cons.mpr ⟨.string _, List.forall_mem_singleton.mpr vector⟩)

end Value

end TinyLisp
