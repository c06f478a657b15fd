import TinyLisp.Proofs.Value.Equality
import TinyLisp.Proofs.Value.WellFormed

/-!
# One sequence for each identity

Identities are given to sequences one after the other, and are not given again. So a table that
tells which sequence each of them was given to only ever grows. Every sequence with an identity in a
value is the one that the table has for it, and every undefined number in a value has been numbered.
So a value is equal to itself, whatever is in it.
-/

namespace TinyLisp

/-- The sequences that identities have been given to. -/
abbrev Objects := Identity → Option (Bracket × List Value)

namespace Objects

def Extends (more objects : Objects) : Prop :=
  ∀ identity object, objects identity = some object → more identity = some object

theorem Extends.trans {last more objects : Objects} (later : last.Extends more)
    (first : more.Extends objects) : last.Extends objects :=
  fun identity object found => later identity object (first identity object found)

/-- A table has nothing for the numbers that are yet to be given. -/
structure Fresh (objects : Objects) (sequencesRead objectsMade : Nat) : Prop where
  read : ∀ number, sequencesRead ≤ number → objects (.read number) = none
  made : ∀ number, objectsMade ≤ number → objects (.made number) = none

def add (objects : Objects) (identity : Identity) (bracket : Bracket) (items : List Value) :
    Objects :=
  Function.update objects identity (some (bracket, items))

variable {objects : Objects} {sequencesRead objectsMade : Nat}

theorem extends_add {identity : Identity} (free : objects identity = none) (bracket : Bracket)
    (items : List Value) : (objects.add identity bracket items).Extends objects := by
  intro other object found
  have different : other ≠ identity := by
    rintro rfl
    rw [free] at found
    cases found
  rwa [add, Function.update_of_ne different]

theorem Fresh.add_read (fresh : objects.Fresh sequencesRead objectsMade) (bracket : Bracket)
    (items : List Value) :
    (objects.add (.read sequencesRead) bracket items).Fresh (sequencesRead + 1) objectsMade where
  read number le := by
    rw [add, Function.update_of_ne (by simp; omega)]
    exact fresh.read number (by omega)
  made number le := by
    rw [add, Function.update_of_ne (by simp)]
    exact fresh.made number le

theorem Fresh.add_made (fresh : objects.Fresh sequencesRead objectsMade) (bracket : Bracket)
    (items : List Value) :
    (objects.add (.made objectsMade) bracket items).Fresh sequencesRead (objectsMade + 1) where
  read number le := by
    rw [add, Function.update_of_ne (by simp)]
    exact fresh.read number le
  made number le := by
    rw [add, Function.update_of_ne (by simp; omega)]
    exact fresh.made number (by omega)

theorem Fresh.skip (fresh : objects.Fresh sequencesRead objectsMade) (count : Nat) :
    objects.Fresh sequencesRead (objectsMade + count) where
  read := fresh.read
  made number le := fresh.made number (by omega)

end Objects

namespace Value

/-- A value of the language in which all sequences with an identity are those of a table and all
undefined numbers are numbered, also in the code of closures. -/
inductive Known (objects : Objects) : Value → Prop
  | number {value : Number} (told : value ≠ .float .nan) : Known objects (.number value)
  | string (text : String) : Known objects (.string text)
  | symbol (name : Name) : Known objects (.symbol name)
  | keyword (name : Name) : Known objects (.keyword name)
  | literal (word : String) : Known objects (.literal word)
  | sequence {identity : Option Identity} {bracket : Bracket} {items : List Value}
      (object : ∀ given, identity = some given → objects given = some (bracket, items))
      (known : ∀ item ∈ items, Known objects item) :
      Known objects (.sequence identity bracket items)
  | builtin (procedure : Builtin) : Known objects (.primitive (.builtin procedure))
  | closure (id frame : Nat) {parameters body : List Value}
      (symbols : ∀ parameter ∈ parameters, ∃ name, parameter = .symbol name)
      (known : ∀ form ∈ body, Known objects form) :
      Known objects (.closure id parameters body frame)

variable {objects more : Objects} {sequencesRead objectsMade : Nat} {value : Value}

theorem Known.mono (known : value.Known objects) (extends_objects : more.Extends objects) :
    value.Known more := by
  induction known with
  | number told => exact .number told
  | string text => exact .string text
  | symbol name => exact .symbol name
  | keyword name => exact .keyword name
  | literal word => exact .literal word
  | sequence object _ ih =>
      exact .sequence (fun given same => extends_objects given _ (object given same)) ih
  | builtin procedure => exact .builtin procedure
  | closure id frame symbols _ ih => exact .closure id frame symbols ih

theorem Known.items {identity : Option Identity} {bracket : Bracket} {items : List Value}
    (known : (Value.sequence identity bracket items).Known objects) :
    ∀ item ∈ items, item.Known objects := by
  cases known with
  | sequence object known => exact known

theorem Known.list {items : List Value} (known : ∀ item ∈ items, item.Known objects) :
    (Value.list items).Known objects :=
  .sequence nofun known

theorem known_dataClosed (objects : Objects) : DataClosed (Known objects) where
  number defined := .number defined.ne_nan
  literal word _ := .literal word
  items := Known.items
  list := Known.list

/-- A new sequence is entered under the number that it is given. -/
theorem exists_numbered (made : value.Known objects ∨ value = .number (.float .nan))
    (fresh : objects.Fresh sequencesRead objectsMade) :
    ∃ more : Objects, more.Extends objects ∧
      more.Fresh sequencesRead (objectsMade + Run.numbersTaken value) ∧
      (Run.numbered objectsMade value).Known more := by
  unfold Run.numbered Run.numbersTaken
  split
  · next bracket items =>
      have known := made.resolve_right nofun
      have wider := Objects.extends_add (fresh.made objectsMade le_rfl) bracket items
      refine ⟨_, wider, fresh.add_made bracket items, .sequence ?_ ?_⟩
      · rintro _ ⟨⟩
        exact Function.update_self ..
      · exact fun item member => (known.items item member).mono wider
  · exact ⟨objects, fun _ _ => id, fresh.skip _, .number nofun⟩
  · next numbered => exact ⟨objects, fun _ _ => id, fresh.skip _, made.resolve_right numbered⟩

theorem exists_identifiedAll {items : List Value}
    (each : ∀ item ∈ items, ∀ (sequencesRead : Nat) (objects : Objects),
      objects.Fresh sequencesRead objectsMade → ∃ more : Objects, more.Extends objects ∧
        more.Fresh (item.identified sequencesRead).2 objectsMade ∧
        (item.identified sequencesRead).1.Known more)
    (fresh : objects.Fresh sequencesRead objectsMade) :
    ∃ more : Objects, more.Extends objects ∧
      more.Fresh (identifiedAll sequencesRead items).2 objectsMade ∧
      ∀ item ∈ (identifiedAll sequencesRead items).1, item.Known more := by
  induction items generalizing sequencesRead objects with
  | nil => exact ⟨objects, fun _ _ => id, fresh, nofun⟩
  | cons item rest ih =>
      rw [List.forall_mem_cons] at each
      obtain ⟨more, wider, freshMore, known⟩ := each.1 sequencesRead objects fresh
      obtain ⟨last, wide, freshLast, knownRest⟩ := ih each.2 freshMore
      exact ⟨last, wide.trans wider, freshLast,
        List.forall_mem_cons.mpr ⟨known.mono wide, knownRest⟩⟩

/-- The sequences of a form that has been read are entered under the numbers that they are given,
each before the ones in it. -/
theorem ReaderMade.exists_identified (made : value.ReaderMade)
    (fresh : objects.Fresh sequencesRead objectsMade) :
    ∃ more : Objects, more.Extends objects ∧
      more.Fresh (value.identified sequencesRead).2 objectsMade ∧
      (value.identified sequencesRead).1.Known more := by
  induction made generalizing sequencesRead objects with
  | number defined => exact ⟨objects, fun _ _ => id, fresh, .number defined.ne_nan⟩
  | string text => exact ⟨objects, fun _ _ => id, fresh, .string text⟩
  | symbol name => exact ⟨objects, fun _ _ => id, fresh, .symbol name⟩
  | keyword name => exact ⟨objects, fun _ _ => id, fresh, .keyword name⟩
  | literal => exact ⟨objects, fun _ _ => id, fresh, .literal _⟩
  | @sequence identity bracket items made ih =>
      let identified := (Value.identifiedAll (sequencesRead + 1) items).1
      have wider := Objects.extends_add (fresh.read sequencesRead le_rfl) bracket identified
      obtain ⟨more, wide, freshMore, known⟩ := exists_identifiedAll
        (fun item member _ _ => ih item member) (fresh.add_read bracket identified)
      refine ⟨more, wide.trans wider, freshMore, .sequence ?_ known⟩
      rintro _ ⟨⟩
      exact wide _ _ (Function.update_self ..)

theorem Known.equal_self (known : value.Known objects) : value.equal value = true := by
  induction known with
  | number told => exact equal_number_self told
  | sequence _ _ ih => simp [equal, equalItems_self ih]
  | _ => simp [equal]

/-- An undefined number is in the value. -/
inductive HoldsNan : Value → Prop
  | number (object : Option Nat) : HoldsNan (.number (.float (.undefined object)))
  | item {identity : Option Identity} {bracket : Bracket} {items : List Value} {item : Value}
      (member : item ∈ items) (holds : HoldsNan item) :
      HoldsNan (.sequence identity bracket items)

/-- Known values can be compared if no undefined number is in them. -/
theorem Known.comparable (known : value.Known objects) (defined : ¬ value.HoldsNan) :
    value.Comparable fun identity => (objects identity).getD (.round, []) := by
  induction known with
  | @number value =>
      refine .number ?_
      match value with
      | .int _ | .float (.infinite _) | .float (.finite _ _) => trivial
      | .float (.undefined object) => exact absurd (.number object) defined
  | string text => exact .string text
  | symbol name => exact .symbol name
  | keyword name => exact .keyword name
  | literal word => exact .literal word
  | sequence object _ ih =>
      refine .sequence (fun given same => ?_) fun item member => ?_
      · rw [object given same, Option.getD_some]
      · exact ih item member fun holds => defined (.item member holds)
  | builtin procedure => exact .primitive (.builtin procedure)
  | closure id frame symbols => exact .closure id frame _ symbols

end Value

end TinyLisp
