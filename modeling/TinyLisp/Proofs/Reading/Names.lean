import TinyLisp.Atom
import TinyLisp.Proofs.Number.Digits

/-!
# The grammar of names

A name is spelled by its base, or by its namespace and its base with a slash between them. No part
is empty or holds a slash or a colon. The parts of a symbol do not start with a digit, but the slash
alone can be its base; a keyword has a colon in front. A text reads as a name just if it spells the
name, and the name is written as this text.
-/

namespace TinyLisp

namespace Name

structure IsPart (text : List Char) : Prop where
  filled : text ≠ []
  plain : ∀ c ∈ text, c ≠ '/' ∧ c ≠ ':'

/-- The text can be a part of a name and does not look like a number. -/
structure IsWord (text : List Char) : Prop extends IsPart text where
  undigited : ∀ c ∈ text.head?, ∀ digit, ¬ Text.Denotes c digit

/-- The texts of symbols, and their names. -/
inductive SpellsSymbol : List Char → Name → Prop
  | plain {base : List Char} (based : IsWord base ∨ base = ['/']) :
      SpellsSymbol base ⟨String.ofList base, ""⟩
  | qualified {qualifier base : List Char} (prefixed : IsWord qualifier)
      (based : IsWord base ∨ base = ['/']) :
      SpellsSymbol (qualifier ++ '/' :: base) ⟨String.ofList base, String.ofList qualifier⟩

/-- The texts of keywords, and their names. -/
inductive SpellsKeyword : List Char → Name → Prop
  | plain {base : List Char} (based : IsPart base) :
      SpellsKeyword (':' :: base) ⟨String.ofList base, ""⟩
  | qualified {qualifier base : List Char} (prefixed : IsPart qualifier) (based : IsPart base) :
      SpellsKeyword (':' :: (qualifier ++ '/' :: base))
        ⟨String.ofList base, String.ofList qualifier⟩

theorem text_plain (base : List Char) : Name.text ⟨String.ofList base, ""⟩ = base := by
  simp [Name.text, qualifier?]

theorem text_qualified {qualifier : List Char} (filled : qualifier ≠ []) (base : List Char) :
    Name.text ⟨String.ofList base, String.ofList qualifier⟩ = qualifier ++ '/' :: base := by
  simp [Name.text, qualifier?, filled]

theorem SpellsSymbol.text {text : List Char} {name : Name} (spells : SpellsSymbol text name) :
    name.text = text := by
  cases spells with
  | plain based => exact text_plain _
  | qualified prefixed based => exact text_qualified prefixed.filled _

theorem SpellsKeyword.text {text : List Char} {name : Name} (spells : SpellsKeyword text name) :
    Value.keywordText name = text := by
  cases spells with
  | plain based => exact congrArg (':' :: ·) (text_plain _)
  | qualified prefixed based => exact congrArg (':' :: ·) (text_qualified prefixed.filled _)

theorem IsPart.slash_notMem {text : List Char} (isPart : IsPart text) : '/' ∉ text :=
  fun slash => (isPart.plain '/' slash).1 rfl

theorem isKeywordPart_iff {text : List Char} : isKeywordPart text = true ↔ IsPart text := by
  simp only [isKeywordPart, isNameChar, Bool.and_eq_true, Bool.not_eq_true',
    List.isEmpty_eq_false_iff, List.all_eq_true, decide_eq_true_eq]
  exact ⟨fun ⟨filled, plain⟩ => ⟨filled, plain⟩, fun ⟨filled, plain⟩ => ⟨filled, plain⟩⟩

theorem isDigit_eq_false_iff {c : Char} :
    Text.isDigit c = false ↔ ∀ digit, ¬ Text.Denotes c digit := by
  simp only [Text.isDigit, Option.isSome_eq_false_iff, Option.isNone_iff_eq_none,
    Option.eq_none_iff_forall_ne_some, ne_eq, Text.digitValue?_eq_some_iff]

theorem isSymbolPart_iff {text : List Char} : isSymbolPart text = true ↔ IsWord text := by
  simp only [isSymbolPart, Bool.and_eq_true, isKeywordPart_iff, Bool.not_eq_true',
    Option.any_eq_false, isDigit_eq_false_iff]
  exact ⟨fun ⟨isPart, undigited⟩ => ⟨isPart, undigited⟩,
    fun ⟨isPart, undigited⟩ => ⟨isPart, undigited⟩⟩

theorem forall_ne_slash {text : List Char} (whole : '/' ∉ text) :
    ∀ c ∈ text, decide (c ≠ '/') = true := by
  intro c member
  refine decide_eq_true ?_
  rintro rfl
  exact whole member

theorem splitSlash_of_notMem {text : List Char} (whole : '/' ∉ text) :
    splitSlash text = (text, none) := by
  have rest : text.dropWhile (· ≠ '/') = [] := by
    simpa only [List.append_nil, List.dropWhile_nil] using
      @List.dropWhile_append_of_pos _ _ text [] (forall_ne_slash whole)
  rw [splitSlash, rest]

/-- A text is split at its first slash. -/
theorem splitSlash_append {qualifier : List Char} (whole : '/' ∉ qualifier) (base : List Char) :
    splitSlash (qualifier ++ '/' :: base) = (qualifier, some base) := by
  have front : (qualifier ++ '/' :: base).takeWhile (· ≠ '/') = qualifier := by
    rw [List.takeWhile_append_of_pos (forall_ne_slash whole)]
    simp
  have rest : (qualifier ++ '/' :: base).dropWhile (· ≠ '/') = '/' :: base := by
    rw [List.dropWhile_append_of_pos (forall_ne_slash whole)]
    simp
  rw [splitSlash, rest, front]

variable {isNamespace isBase : List Char → Bool} {text : List Char} {name : Name}

/-- With namespaces that hold no slash, the first slash of a text is the only place to split it. -/
theorem qualified?_eq_some_iff (whole : ∀ part, isNamespace part = true → '/' ∉ part) :
    qualified? isNamespace isBase text = some name ↔
      ('/' ∉ text ∧ isBase text = true ∧ name = ⟨String.ofList text, ""⟩) ∨
        ∃ qualifier base, text = qualifier ++ '/' :: base ∧ isNamespace qualifier = true ∧
          isBase base = true ∧ name = ⟨String.ofList base, String.ofList qualifier⟩ := by
  constructor
  · intro found
    by_cases slash : '/' ∈ text
    · obtain ⟨qualifier, base, rfl, first⟩ := List.eq_append_cons_of_mem slash
      rw [qualified?, splitSlash_append first] at found
      obtain ⟨accepted, ⟨⟩⟩ := Option.ite_none_right_eq_some.mp found
      obtain ⟨prefixed, based⟩ := Bool.and_eq_true_iff.mp accepted
      exact .inr ⟨qualifier, base, rfl, prefixed, based, rfl⟩
    · rw [qualified?, splitSlash_of_notMem slash] at found
      obtain ⟨based, ⟨⟩⟩ := Option.ite_none_right_eq_some.mp found
      exact .inl ⟨slash, based, rfl⟩
  · rintro (⟨slash, based, rfl⟩ | ⟨qualifier, base, rfl, prefixed, based, rfl⟩)
    · simp only [qualified?, splitSlash_of_notMem slash, based, if_true]
    · simp only [qualified?, splitSlash_append (whole _ prefixed), prefixed, based, Bool.and_self,
        if_true]

theorem ofSymbolText?_eq_some_iff : ofSymbolText? text = some name ↔ SpellsSymbol text name := by
  have whole (part : List Char) (accepted : isSymbolPart part = true) : '/' ∉ part :=
    (isSymbolPart_iff.mp accepted).slash_notMem
  have based (base : List Char) : (isSymbolPart base || decide (base = ['/'])) = true ↔
      IsWord base ∨ base = ['/'] := by
    rw [Bool.or_eq_true, isSymbolPart_iff, decide_eq_true_eq]
  constructor
  · intro found
    unfold ofSymbolText? at found
    split at found
    · next slash =>
        cases found
        rw [slash]
        exact .plain (.inr rfl)
    · rcases (qualified?_eq_some_iff whole).mp found with
        ⟨-, accepted, rfl⟩ | ⟨qualifier, base, rfl, prefixed, accepted, rfl⟩
      · exact .plain ((based _).mp accepted)
      · exact .qualified (isSymbolPart_iff.mp prefixed) ((based _).mp accepted)
  · rintro (⟨word | rfl⟩ | ⟨prefixed, accepted⟩)
    · have other : text ≠ ['/'] := by
        rintro rfl
        exact word.slash_notMem (List.mem_singleton_self '/')
      rw [ofSymbolText?, if_neg other]
      exact (qualified?_eq_some_iff whole).mpr
        (.inl ⟨word.slash_notMem, (based _).mpr (.inl word), rfl⟩)
    · rfl
    · next qualifier base =>
        have other : qualifier ++ '/' :: base ≠ ['/'] := by
          obtain ⟨c, rest, rfl⟩ := List.exists_cons_of_ne_nil prefixed.filled
          simp
        rw [ofSymbolText?, if_neg other]
        exact (qualified?_eq_some_iff whole).mpr
          (.inr ⟨_, _, rfl, isSymbolPart_iff.mpr prefixed, (based _).mpr accepted, rfl⟩)

theorem ofKeywordText?_eq_some_iff : ofKeywordText? text = some name ↔ SpellsKeyword text name := by
  have whole (part : List Char) (accepted : isKeywordPart part = true) : '/' ∉ part :=
    (isKeywordPart_iff.mp accepted).slash_notMem
  unfold ofKeywordText?
  split
  · next rest =>
      rw [qualified?_eq_some_iff whole]
      simp only [isKeywordPart_iff]
      constructor
      · rintro (⟨-, based, rfl⟩ | ⟨qualifier, base, rfl, prefixed, based, rfl⟩)
        · exact .plain based
        · exact .qualified prefixed based
      · rintro (based | ⟨prefixed, based⟩)
        · exact .inl ⟨based.slash_notMem, based, rfl⟩
        · exact .inr ⟨_, _, rfl, prefixed, based, rfl⟩
  · next other =>
      constructor
      · nofun
      · rintro (_ | _)
        all_goals exact absurd rfl (other _)

end Name

end TinyLisp
