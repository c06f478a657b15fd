import TinyLisp.Proofs.Number.Undefined
import TinyLisp.Proofs.Settling
import TinyLisp.Proofs.Value.Nesting

/-!
# What comparison tells

Values are equal if they denote the same: a number what it is exactly, a sequence what its items
denote, a procedure itself. Comparison comes to this with every budget that is large enough, as long
as it takes two sequences for one only if they are. The embedding program's own equality comes to
the same, unless a truth value of its own is involved.
-/

namespace TinyLisp

/-- What a value denotes: for numbers the exact value, for closures what tells them apart, and no
identities of sequences. -/
inductive Meaning where
  | number (value : Option Exact)
  | string (text : String)
  | symbol (name : Name)
  | keyword (name : Name)
  | literal (word : String)
  | sequence (bracket : Bracket) (items : List Meaning)
  | primitive (procedure : Primitive)
  | closure (id : Nat)
  | foreign (value : Foreign)

namespace Value

mutual

def meaning : Value → Meaning
  | .number value => .number value.exactValue?
  | .string text => .string text
  | .symbol name => .symbol name
  | .keyword name => .keyword name
  | .literal word => .literal word
  | .sequence _ bracket items => .sequence bracket (meanings items)
  | .primitive procedure => .primitive procedure
  | .closure id _ _ _ => .closure id
  | .foreign value => .foreign value

def meanings : List Value → List Meaning
  | [] => []
  | value :: rest => value.meaning :: meanings rest

end

theorem meanings_eq_map (items : List Value) : meanings items = items.map meaning := by
  induction items with
  | nil => rfl
  | cons item rest ih => rw [meanings, ih, List.map_cons]

/-- A value of the language with no undefined number in it. The sequences that have an identity are
objects: two of them with one identity are the same. That is so for all values that an interpreter
has bound or returned in one session, by `Interpreter.Reached.comparable`. -/
inductive Comparable (objects : Identity → Bracket × List Value) : Value → Prop
  | number {value : Number} (defined : value.IsDefined) : Comparable objects (.number value)
  | string (text : String) : Comparable objects (.string text)
  | symbol (name : Name) : Comparable objects (.symbol name)
  | keyword (name : Name) : Comparable objects (.keyword name)
  | literal (word : String) : Comparable objects (.literal word)
  | sequence {identity : Option Identity} {bracket : Bracket} {items : List Value}
      (known : ∀ object, identity = some object → objects object = (bracket, items))
      (comparable : ∀ item ∈ items, Comparable objects item) :
      Comparable objects (.sequence identity bracket items)
  | primitive (procedure : Primitive) : Comparable objects (.primitive procedure)
  | closure (id frame : Nat) {parameters : List Value} (body : List Value)
      (symbols : ∀ parameter ∈ parameters, ∃ name, parameter = .symbol name) :
      Comparable objects (.closure id parameters body frame)

variable {objects : Identity → Bracket × List Value}

theorem Comparable.items {identity : Option Identity} {bracket : Bracket} {items : List Value}
    (comparable : (Value.sequence identity bracket items).Comparable objects) :
    ∀ item ∈ items, item.Comparable objects := by
  cases comparable with
  | sequence known comparable => exact comparable

variable {value other : Value} {items others : List Value}

/-- Sequences that pass for one and the same are. -/
theorem Comparable.eq_of_coincide {identity otherIdentity : Option Identity}
    {bracket otherBracket : Bracket}
    (comparable : (Value.sequence identity bracket items).Comparable objects)
    (otherComparable : (Value.sequence otherIdentity otherBracket others).Comparable objects)
    (coincide : Identity.coincide identity otherIdentity) :
    bracket = otherBracket ∧ items = others := by
  cases comparable with
  | sequence known _ =>
      cases otherComparable with
      | sequence otherKnown _ =>
          unfold Identity.coincide at coincide
          split at coincide
          · next left right =>
              obtain rfl : left = right := by simpa using coincide
              exact Prod.mk.inj ((known left rfl).symm.trans (otherKnown left rfl))
          · cases coincide

theorem equalItems_iff
    (each : ∀ item ∈ items, ∀ other ∈ others,
      (item.equal other = true ↔ item.meaning = other.meaning)) :
    equalItems items others = true ↔ items.map meaning = others.map meaning := by
  induction items generalizing others with
  | nil => cases others <;> simp [equalItems]
  | cons item rest ih =>
      cases others with
      | nil => simp [equalItems]
      | cons other others =>
          have first := each item List.mem_cons_self other List.mem_cons_self
          have later := ih fun item member other among =>
            each item (List.mem_cons_of_mem _ member) other (List.mem_cons_of_mem _ among)
          rw [equalItems, Bool.and_eq_true, first, later, List.map_cons, List.map_cons,
            List.cons.injEq]

/-- Values of the language are equal if they denote the same. -/
theorem equal_iff_meaning (comparable : value.Comparable objects)
    (otherComparable : other.Comparable objects) :
    value.equal other = true ↔ value.meaning = other.meaning := by
  induction value generalizing other with
  | number value =>
      cases other with
      | number otherValue =>
          cases comparable with
          | number defined =>
              obtain ⟨exact, denotes⟩ := Number.exists_exact defined
              rw [equal, Number.coincide_eq_false defined, Bool.false_or, Number.eq_iff_exact,
                meaning, meaning, Meaning.number.injEq, denotes]
              refine ⟨?_, fun same => ⟨exact, rfl, same.symm⟩⟩
              rintro ⟨_, ⟨⟩, same⟩
              exact same.symm
      | _ => simp [equal, meaning]
  | sequence identity bracket items ih =>
      cases other with
      | sequence otherIdentity otherBracket others =>
          have each := equalItems_iff fun item member other among =>
            ih item member (comparable.items item member) (otherComparable.items other among)
          rw [equal, Bool.or_eq_true, Bool.and_eq_true, decide_eq_true_eq, each, meaning, meaning,
            meanings_eq_map, meanings_eq_map, Meaning.sequence.injEq, or_iff_right_iff_imp]
          intro coincide
          obtain ⟨rfl, rfl⟩ := comparable.eq_of_coincide otherComparable coincide
          exact ⟨rfl, rfl⟩
      | _ => simp [equal, meaning]
  | _ => cases other <;> simp [equal, meaning]

/-- An undefined number is equal to itself and to nothing else. -/
theorem undefined_equal_iff (object : Nat) :
    (Value.number (.float (.undefined (some object)))).equal other = true ↔
      other = .number (.float (.undefined (some object))) := by
  cases other with
  | number value =>
      have unequal : (Number.float (.undefined (some object))).eq value = false := by
        cases value <;> rfl
      rw [equal, unequal, Bool.or_false, Number.coincide_undefined_iff, Value.number.injEq]
  | _ => simp [equal]

theorem equal_number_self {value : Number} (told : value ≠ .float .nan) :
    (Value.number value).equal (.number value) = true := by
  cases given : value.object? with
  | none =>
      have defined := (Number.isDefined_or_eq_nan given).resolve_right told
      rw [equal, Number.eq_self defined, Bool.or_true]
  | some object => simp [equal, Number.coincide, given]

theorem equalItems_self (each : ∀ item ∈ items, item.equal item = true) :
    equalItems items items = true := by
  induction items with
  | nil => rfl
  | cons item rest ih =>
      obtain ⟨first, later⟩ := List.forall_mem_cons.mp each
      rw [equalItems, first, ih later, Bool.and_self]

/-- What two comparisons one after the other tell. -/
theorem settles_and {first later : Nat → Option Bool} {flag laterFlag : Bool}
    (settles : Settles first none (some flag))
    (laterSettles : Settles later none (some laterFlag)) :
    Settles
      (fun depth =>
        match first depth with
        | some true => later depth
        | outcome => outcome)
      none (some (flag && laterFlag)) where
  ends depth := by
    rcases settles.ends depth with found | spent
    · cases flag with
      | false => simp [found]
      | true => simpa [found] using laterSettles.ends depth
    · simp [spent]
  enough := by
    obtain ⟨enough, reached⟩ := settles.enough
    obtain ⟨laterEnough, laterReached⟩ := laterSettles.enough
    refine ⟨max enough laterEnough, fun depth le => ?_⟩
    rw [reached depth (by omega), laterReached depth (by omega)]
    cases flag <;> rfl

theorem settles_equalItemsWithin (same : items.length = others.length)
    (each : ∀ item ∈ items, ∀ other ∈ others,
      Settles (fun depth => item.equalWithin depth other) none (some (item.equal other))) :
    Settles (fun depth => equalItemsWithin depth items others) none
      (some (equalItems items others)) := by
  induction items generalizing others with
  | nil =>
      cases others with
      | nil => exact .const _ _
      | cons other others => cases same
  | cons item rest ih =>
      cases others with
      | nil => cases same
      | cons other others =>
          have first := each item List.mem_cons_self other List.mem_cons_self
          have later := ih (Nat.succ.inj same) fun item member other among =>
            each item (List.mem_cons_of_mem _ member) other (List.mem_cons_of_mem _ among)
          simp only [equalItemsWithin, equalItems]
          exact settles_and first later

theorem equalItems_length (equal : equalItems items others = true) :
    items.length = others.length := by
  induction items generalizing others with
  | nil => cases others <;> simp_all [equalItems]
  | cons item rest ih =>
      cases others with
      | nil => simp [equalItems] at equal
      | cons other others =>
          rw [equalItems, Bool.and_eq_true] at equal
          simp [ih equal.2]

/-- Sequences that are not known to be one and the same are compared by their items. -/
theorem settles_equalWithin_sequence {identity otherIdentity : Option Identity}
    (bracket otherBracket : Bracket)
    (each : ∀ item ∈ items, ∀ other ∈ others,
      Settles (fun depth => item.equalWithin depth other) none (some (item.equal other))) :
    Settles
      (fun depth => (Value.sequence identity bracket items).equalWithin depth
        (.sequence otherIdentity otherBracket others))
      none (some ((Value.sequence identity bracket items).equal
        (.sequence otherIdentity otherBracket others))) := by
  simp only [equalWithin, equal]
  cases Identity.coincide identity otherIdentity with
  | true => exact .const _ _
  | false =>
      simp only [Bool.false_eq_true, if_false, Bool.false_or]
      by_cases unlike : bracket ≠ otherBracket ∨ items.length ≠ others.length
      · have differ : (decide (bracket = otherBracket) && equalItems items others) = false := by
          rw [Bool.and_eq_false_imp, decide_eq_true_eq]
          intro same
          exact Bool.eq_false_iff.mpr fun equal =>
            unlike.elim (absurd same) (absurd (equalItems_length equal))
        simp only [if_pos unlike, differ]
        exact .const _ _
      · obtain ⟨rfl, same⟩ := not_or.mp unlike |>.imp not_not.mp not_not.mp
        simp only [if_neg unlike, decide_true, Bool.true_and]
        have compared := settles_equalItemsWithin same each
        exact (compared.succ rfl fun _ => rfl).succ rfl fun _ => rfl

/-- Comparison of two values tells whether they are equal, unless the budget is too small for that.
-/
theorem settles_equalWithin (value other : Value) :
    Settles (fun depth => value.equalWithin depth other) none (some (value.equal other)) := by
  induction value generalizing other with
  | sequence identity bracket items ih =>
      cases other with
      | sequence otherIdentity otherBracket others =>
          exact settles_equalWithin_sequence bracket otherBracket fun item member other _ =>
            ih item member other
      | _ => exact .const _ _
  | _ => cases other <;> exact .const _ _

/-- Comparison tells that two values are equal, if the budget is large enough. -/
def IsEqual (value other : Value) : Prop :=
  Settles (fun depth => value.equalWithin depth other) none (some true)

theorem isEqual_iff_equal : value.IsEqual other ↔ value.equal other = true := by
  have settles := settles_equalWithin value other
  constructor
  · intro equal
    exact (Option.some.inj (equal.unique settles)).symm
  · intro equal
    rwa [equal] at settles

theorem isEqual_iff_meaning (comparable : value.Comparable objects)
    (otherComparable : other.Comparable objects) :
    value.IsEqual other ↔ value.meaning = other.meaning := by
  rw [isEqual_iff_equal, equal_iff_meaning comparable otherComparable]

theorem equal_of_coincide (one : value.coincide other = true) : value.equal other = true := by
  unfold coincide at one
  split at one
  · simp [equal, one]
  · simp [equal, one]
  · cases one

theorem sameItems_eq
    (each : ∀ item ∈ items, ∀ other ∈ others, item.same other = item.equal other) :
    sameItems items others = equalItems items others := by
  induction items generalizing others with
  | nil => cases others <;> rfl
  | cons item rest ih =>
      cases others with
      | nil => rfl
      | cons other others =>
          have first := each item List.mem_cons_self other List.mem_cons_self
          have later := ih fun item member other among =>
            each item (List.mem_cons_of_mem _ member) other (List.mem_cons_of_mem _ among)
          have itself : (item.coincide other || item.equal other) = item.equal other :=
            Bool.or_eq_right_iff_imp.mpr equal_of_coincide
          rw [sameItems, equalItems, first, later, itself]

/-- Without truth values of the embedding program, its equality is that of the language. -/
theorem same_eq_equal (comparable : value.Comparable objects)
    (otherComparable : other.Comparable objects) : value.same other = value.equal other := by
  induction value generalizing other with
  | sequence identity bracket items ih =>
      cases other with
      | sequence otherIdentity otherBracket others =>
          have inside := sameItems_eq fun item member other among =>
            ih item member (comparable.items item member) (otherComparable.items other among)
          rw [same, equal, inside]
          symm
          apply Bool.or_eq_right_iff_imp.mpr
          intro coincide
          obtain ⟨rfl, rfl⟩ := comparable.eq_of_coincide otherComparable coincide
          have itself := equalItems_iff fun item member other among =>
            equal_iff_meaning (comparable.items item member) (comparable.items other among)
          simpa using itself.mpr rfl
      | _ => rfl
  | number value =>
      cases comparable with
      | number defined =>
          cases otherComparable with
          | number =>
              rw [same, equal, Number.coincide_eq_false defined, Bool.false_or]
          | _ => rfl
  | foreign value => cases comparable
  | _ => cases other <;> rfl

/-- For values of the language without the undefined number, the language's equality is that of the
embedding program, whatever the values are and however deep they are nested: comparison with a large
enough budget tells the one just if the other holds, and a smaller budget tells nothing else. -/
theorem settles_equalWithin_same (objects : Identity → Bracket × List Value) {value other : Value}
    (comparable : value.Comparable objects) (otherComparable : other.Comparable objects) :
    Settles (fun depth => value.equalWithin depth other) none (some (value.same other)) ∧
      (value.IsEqual other ↔ value.same other = true) := by
  rw [same_eq_equal comparable otherComparable]
  exact ⟨settles_equalWithin value other, isEqual_iff_equal⟩

/-- Two vectors of one list each, with a zero of either kind in it, are the same. -/
theorem settles_equalWithin_same_zeros :
    let vector (number : Nat) (zero : Number) : Value :=
      .sequence (some (.made number)) .square [.sequence none .round [.number zero]]
    (vector 0 (.int 0)).same (vector 1 (.float (.signedZero true))) = true ∧
      (vector 0 (.int 0)).IsEqual (vector 1 (.float (.signedZero true))) := by
  intro vector
  let zero (number : Nat) : Number := if number = 0 then .int 0 else .float (.signedZero true)
  let objects (identity : Identity) : Bracket × List Value :=
    match identity with
    | .made index => (.square, [.sequence none .round [.number (zero index)]])
    | .read _ => (.round, [])
  have comparable (number : Nat) : (vector number (zero number)).Comparable objects := by
    have defined : (zero number).IsDefined := by
      simp only [zero]
      split <;> trivial
    refine .sequence ?_ (List.forall_mem_singleton.mpr ?_)
    · rintro _ ⟨⟩
      rfl
    · exact .sequence nofun (List.forall_mem_singleton.mpr (.number defined))
  have zeros : (Number.int 0).eq (.float (.signedZero true)) = true := by
    rw [Number.eq_iff_exact, Number.exactValue?_signedZero]
    exact ⟨.finite 0, by rw [Number.exactValue?, Int.cast_zero], rfl⟩
  have same : (vector 0 (.int 0)).same (vector 1 (.float (.signedZero true))) = true := by
    simp only [vector, Value.same, sameItems, zeros, decide_true, Bool.and_self, Bool.or_true]
  exact ⟨same, (settles_equalWithin_same objects (comparable 0) (comparable 1)).2.mpr same⟩

end Value

end TinyLisp
