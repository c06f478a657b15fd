import TinyLisp.Proofs.Evaluation.Primitives
import TinyLisp.Proofs.Value.Equality

/-!
# Equality as a congruence

Equality is an equivalence of the values of the language, and the procedures on sequences respect
it: applied to equal arguments they have equal results, or they fail on the arguments of both.
-/

namespace TinyLisp

namespace Value

variable {objects : Identity → Bracket × List Value} {value other : Value}
  {items others : List Value}

/-- Sequences are equal if their items are, whatever their own identities are. -/
theorem isEqual_sequence (identity otherIdentity : Option Identity) (bracket : Bracket)
    (comparable : ∀ item ∈ items, item.Comparable objects)
    (otherComparable : ∀ other ∈ others, other.Comparable objects)
    (same : items.map meaning = others.map meaning) :
    (Value.sequence identity bracket items).IsEqual
      (.sequence otherIdentity bracket others) := by
  have equal : equalItems items others = true := by
    refine (equalItems_iff fun item member other among => ?_).mpr same
    exact equal_iff_meaning (comparable item member) (otherComparable other among)
  simp [isEqual_iff_equal, Value.equal, equal]

theorem eq_sequence_of_meaning {bracket : Bracket} {meanings : List Meaning}
    (same : value.meaning = .sequence bracket meanings) :
    ∃ identity items, value = .sequence identity bracket items ∧
      items.map meaning = meanings := by
  cases value with
  | sequence identity other items =>
      simp only [meaning, meanings_eq_map, Meaning.sequence.injEq] at same
      obtain ⟨rfl, same⟩ := same
      exact ⟨identity, items, rfl, same⟩
  | _ => cases same

theorem Comparable.numbered_eq_self (comparable : value.Comparable objects)
    (single : ∀ bracket items, value.meaning ≠ .sequence bracket items) (number : Nat) :
    Run.numbered number value = value := by
  cases comparable with
  | @number value defined =>
      match value, defined with
      | .int _, _ | .float (.infinite _), _ | .float (.finite _ _), _ => rfl
  | sequence => exact absurd rfl (single _ _)
  | _ => rfl

/-- Equal values are still equal once they have been numbered. -/
theorem isEqual_numbered (comparable : value.Comparable objects)
    (otherComparable : other.Comparable objects) (same : value.meaning = other.meaning)
    (number otherNumber : Nat) :
    (Run.numbered number value).IsEqual (Run.numbered otherNumber other) := by
  by_cases sequence : ∃ bracket meanings, value.meaning = .sequence bracket meanings
  · obtain ⟨bracket, meanings, denotes⟩ := sequence
    obtain ⟨identity, items, rfl, first⟩ := eq_sequence_of_meaning denotes
    obtain ⟨otherIdentity, others, rfl, second⟩ := eq_sequence_of_meaning (same ▸ denotes)
    cases identity <;> cases otherIdentity <;>
      exact isEqual_sequence _ _ bracket comparable.items otherComparable.items
        (first.trans second.symm)
  · have single (bracket : Bracket) (items : List Meaning) :
        value.meaning ≠ .sequence bracket items :=
      fun denotes => sequence ⟨bracket, items, denotes⟩
    rw [comparable.numbered_eq_self single, otherComparable.numbered_eq_self (same ▸ single)]
    exact (isEqual_iff_meaning comparable otherComparable).mpr same

theorem eq_nil_of_meaning (same : value.meaning = nil.meaning) : value = .nil := by
  cases value with
  | literal word =>
      cases same
      rfl
  | _ => cases same

/-- What is not a sequence can be written with any room, but for the digits in it. -/
theorem Comparable.obstacle_ne_depth (comparable : value.Comparable objects)
    (single : ∀ bracket items, value.meaning ≠ .sequence bracket items) (depth : Nat) :
    value.obstacle depth ≠ some .depth := by
  cases comparable with
  | number defined =>
      rw [obstacle]
      split <;> rintro ⟨⟩
  | sequence => exact absurd rfl (single _ _)
  | closure id frame body symbols =>
      rw [obstacle]
      refine obstacleAmong_ne fun parameter member => ?_
      obtain ⟨name, rfl⟩ := symbols parameter member
      rintro ⟨⟩
  | _ => rintro ⟨⟩

end Value

namespace Evaluation

open Value

variable {objects : Identity → Bracket × List Value} {depth : Nat} {procedure : Builtin}
  {argument other value : Value} {arguments otherArguments : List Value} {fault : Fault}

/-- Two results are equal values, or both are failures of a primitive procedure. -/
inductive Agrees : Except Fault Value → Except Fault Value → Prop
  | equal {value other : Value} (equal : value.IsEqual other) : Agrees (.ok value) (.ok other)
  | native {fault other : Fault} (kind : fault.kind = .native) (otherKind : other.kind = .native) :
      Agrees (.error fault) (.error other)

/-- Failures on the arguments and the digits of a value are both reported as the procedure's. -/
theorem outcome_callPrimitive_error (failed : procedure.call depth arguments = .error fault)
    (kind : fault.kind = .native ∨ fault = .tooManyDigits) (session : Session) :
    ∃ other, other.kind = .native ∧
      ((callPrimitive depth (.builtin procedure) arguments).outcome session).1 = .error other := by
  rcases kind with native | rfl
  · exact ⟨fault, native, by rw [outcome_callPrimitive_native failed native]⟩
  · have call : (Primitive.builtin procedure).call depth arguments = .error .tooManyDigits :=
      failed
    exact ⟨.primitiveFailed (Primitive.builtin procedure).name Fault.tooManyDigits.message, rfl,
      by rw [callPrimitive, call]; rfl⟩

/-- What is neither a sequence nor nil has no items. -/
theorem itemsOf_eq_error (comparable : argument.Comparable objects)
    (single : ∀ bracket items, argument.meaning ≠ .sequence bracket items)
    (present : argument ≠ .nil) (depth : Nat) :
    ∃ fault, procedure.itemsOf depth argument = .error fault ∧
      (fault.kind = .native ∨ fault = .tooManyDigits) := by
  have shown : ∃ fault, Fault.showing depth .readable argument
      (.argument ∘ .notSequence procedure) = fault ∧
        (fault.kind = .native ∨ fault = .tooManyDigits) := by
    refine ⟨_, rfl, ?_⟩
    rw [Fault.showing, textWithin]
    cases found : argument.obstacle depth with
    | none => exact .inl rfl
    | some obstacle =>
        cases obstacle with
        | depth => exact absurd found (comparable.obstacle_ne_depth single depth)
        | digits => exact .inr rfl
  obtain ⟨fault, shows, kind⟩ := shown
  refine ⟨fault, ?_, kind⟩
  unfold Builtin.itemsOf
  split
  · exact absurd rfl (single _ _)
  · exact absurd rfl present
  · rw [shows]

/-- A procedure that makes its result of the items of an argument fails on equal arguments only
together, and otherwise has equal results if they are made alike. -/
theorem agrees_of_itemsOf (comparable : argument.Comparable objects)
    (otherComparable : other.Comparable objects) (same : argument.meaning = other.meaning)
    {result otherResult : List Value → Value}
    (calls : ∀ depth, procedure.call depth arguments =
      (procedure.itemsOf depth argument).map fun items => ⟨result items, ""⟩)
    (otherCalls : ∀ depth, procedure.call depth otherArguments =
      (procedure.itemsOf depth other).map fun items => ⟨otherResult items, ""⟩)
    (results : ∀ items others, (∀ item ∈ items, item.Comparable objects) →
      (∀ other ∈ others, other.Comparable objects) →
      items.map meaning = others.map meaning → ∀ number otherNumber,
        (Run.numbered number (result items)).IsEqual
          (Run.numbered otherNumber (otherResult others)))
    (depth : Nat) (session otherSession : Session) :
    Agrees ((callPrimitive depth (.builtin procedure) arguments).outcome session).1
      ((callPrimitive depth (.builtin procedure) otherArguments).outcome otherSession).1 := by
  have succeeds {items others : List Value} (found : procedure.itemsOf depth argument = .ok items)
      (otherFound : procedure.itemsOf depth other = .ok others)
      (each : ∀ item ∈ items, item.Comparable objects)
      (otherEach : ∀ other ∈ others, other.Comparable objects)
      (alike : items.map meaning = others.map meaning) :
      Agrees ((callPrimitive depth (.builtin procedure) arguments).outcome session).1
        ((callPrimitive depth (.builtin procedure) otherArguments).outcome otherSession).1 := by
    rw [outcome_callPrimitive_ok (by rw [calls, found]; rfl),
      outcome_callPrimitive_ok (by rw [otherCalls, otherFound]; rfl)]
    exact .equal (results items others each otherEach alike _ _)
  by_cases sequence : ∃ bracket meanings, argument.meaning = .sequence bracket meanings
  · obtain ⟨bracket, meanings, denotes⟩ := sequence
    obtain ⟨identity, items, rfl, first⟩ := eq_sequence_of_meaning denotes
    obtain ⟨otherIdentity, others, rfl, second⟩ := eq_sequence_of_meaning (same ▸ denotes)
    exact succeeds rfl rfl comparable.items otherComparable.items (first.trans second.symm)
  · have single (bracket : Bracket) (items : List Meaning) :
        argument.meaning ≠ .sequence bracket items :=
      fun denotes => sequence ⟨bracket, items, denotes⟩
    by_cases absent : argument = .nil
    · subst absent
      obtain rfl := eq_nil_of_meaning same.symm
      exact succeeds rfl rfl nofun nofun rfl
    · have otherPresent : other ≠ .nil := by
        rintro rfl
        exact absent (eq_nil_of_meaning same)
      obtain ⟨fault, fails, kind⟩ := itemsOf_eq_error comparable single absent depth
      obtain ⟨otherFault, otherFails, otherKind⟩ :=
        itemsOf_eq_error otherComparable (same ▸ single) otherPresent depth
      obtain ⟨failure, native, ends⟩ := outcome_callPrimitive_error
        (by rw [calls, fails]; rfl) kind session
      obtain ⟨otherFailure, otherNative, otherEnds⟩ := outcome_callPrimitive_error
        (by rw [otherCalls, otherFails]; rfl) otherKind otherSession
      rw [ends, otherEnds]
      exact .native native otherNative

theorem call_car (depth : Nat) (argument : Value) :
    Builtin.car.call depth [argument] =
      (Builtin.car.itemsOf depth argument).map fun items => ⟨items.headD .nil, ""⟩ := by
  simp only [Builtin.call, Builtin.compute, Builtin.oneArgument, ok_bind]
  cases Builtin.car.itemsOf depth argument <;> rfl

theorem call_cdr (depth : Nat) (argument : Value) :
    Builtin.cdr.call depth [argument] =
      (Builtin.cdr.itemsOf depth argument).map fun items => ⟨.list items.tail, ""⟩ := by
  simp only [Builtin.call, Builtin.compute, Builtin.oneArgument, ok_bind]
  cases Builtin.cdr.itemsOf depth argument <;> rfl

theorem call_cons (depth : Nat) (value argument : Value) :
    Builtin.cons.call depth [value, argument] =
      (Builtin.cons.itemsOf depth argument).map fun items => ⟨.list (value :: items), ""⟩ := by
  simp only [Builtin.call, Builtin.compute, Builtin.twoArguments, ok_bind]
  cases Builtin.cons.itemsOf depth argument <;> rfl

theorem agrees_car (comparable : argument.Comparable objects)
    (otherComparable : other.Comparable objects) (same : argument.meaning = other.meaning)
    (depth : Nat) (session otherSession : Session) :
    Agrees ((callPrimitive depth (.builtin .car) [argument]).outcome session).1
      ((callPrimitive depth (.builtin .car) [other]).outcome otherSession).1 := by
  refine agrees_of_itemsOf comparable otherComparable same (call_car · argument) (call_car · other)
    (fun items others each otherEach alike number otherNumber => ?_) depth session otherSession
  cases items with
  | nil =>
      obtain rfl := List.map_eq_nil_iff.mp alike.symm
      exact .const _ _
  | cons item rest =>
      cases others with
      | nil => cases alike
      | cons other others =>
          exact isEqual_numbered (each item List.mem_cons_self)
            (otherEach other List.mem_cons_self) (List.cons.inj alike).1 number otherNumber

theorem agrees_cdr (comparable : argument.Comparable objects)
    (otherComparable : other.Comparable objects) (same : argument.meaning = other.meaning)
    (depth : Nat) (session otherSession : Session) :
    Agrees ((callPrimitive depth (.builtin .cdr) [argument]).outcome session).1
      ((callPrimitive depth (.builtin .cdr) [other]).outcome otherSession).1 := by
  refine agrees_of_itemsOf comparable otherComparable same (call_cdr · argument) (call_cdr · other)
    (fun items others each otherEach alike number otherNumber => ?_) depth session otherSession
  refine isEqual_sequence _ _ .round (fun item member => each item (List.mem_of_mem_tail member))
    (fun other among => otherEach other (List.mem_of_mem_tail among)) ?_
  rw [List.map_tail, List.map_tail, alike]

theorem agrees_cons {otherValue : Value} (comparable : argument.Comparable objects)
    (otherComparable : other.Comparable objects) (same : argument.meaning = other.meaning)
    (first : value.Comparable objects) (otherFirst : otherValue.Comparable objects)
    (alike : value.meaning = otherValue.meaning) (depth : Nat)
    (session otherSession : Session) :
    Agrees ((callPrimitive depth (.builtin .cons) [value, argument]).outcome session).1
      ((callPrimitive depth (.builtin .cons) [otherValue, other]).outcome otherSession).1 := by
  refine agrees_of_itemsOf comparable otherComparable same (call_cons · value argument)
    (call_cons · otherValue other)
    (fun items others each otherEach rest number otherNumber => ?_) depth session otherSession
  refine isEqual_sequence _ _ .round (List.forall_mem_cons.mpr ⟨first, each⟩)
    (List.forall_mem_cons.mpr ⟨otherFirst, otherEach⟩) ?_
  rw [List.map_cons, List.map_cons, alike, rest]

/-- On the values of the language without undefined numbers, comparison is decided by a large enough
budget; it is an equivalence, and numbers of either kind are equal just if their exact values are.
The procedures on sequences respect it: of equal arguments they make equal results, or they fail on
both. -/
theorem isEqual_congruence (objects : Identity → Bracket × List Value) :
    (∀ value other, Comparable objects value → Comparable objects other →
      IsEqual value other ∨
        Settles (fun depth => value.equalWithin depth other) none (some false)) ∧
    (∀ value, Comparable objects value → IsEqual value value) ∧
    (∀ value other, Comparable objects value → Comparable objects other →
      IsEqual value other → IsEqual other value) ∧
    (∀ first second third, Comparable objects first → Comparable objects second →
      Comparable objects third → IsEqual first second → IsEqual second third →
        IsEqual first third) ∧
    (∀ left right : Number, left.IsDefined → right.IsDefined →
      (IsEqual (.number left) (.number right) ↔
        ∃ exact, left.exactValue? = some exact ∧ right.exactValue? = some exact)) ∧
    ∀ argument other, Comparable objects argument → Comparable objects other →
      IsEqual argument other → ∀ depth session otherSession,
        let result (procedure : Builtin) (arguments : List Value) :=
          ((applyProcedure (depth + 1) (.primitive (.builtin procedure)) arguments).outcome
            session).1
        let otherResult (procedure : Builtin) (arguments : List Value) :=
          ((applyProcedure (depth + 1) (.primitive (.builtin procedure)) arguments).outcome
            otherSession).1
        Agrees (result .car [argument]) (otherResult .car [other]) ∧
          Agrees (result .cdr [argument]) (otherResult .cdr [other]) ∧
          ∀ value otherValue, Comparable objects value → Comparable objects otherValue →
            IsEqual value otherValue →
              Agrees (result .cons [value, argument]) (otherResult .cons [otherValue, other]) := by
  refine ⟨?_, ?_, ?_, ?_, ?_, ?_⟩
  · intro value other comparable otherComparable
    have settles := settles_equalWithin value other
    generalize value.equal other = flag at settles
    cases flag with
    | true => exact .inl settles
    | false => exact .inr settles
  · intro value comparable
    exact (isEqual_iff_meaning comparable comparable).mpr rfl
  · intro value other comparable otherComparable equal
    have same := (isEqual_iff_meaning comparable otherComparable).mp equal
    exact (isEqual_iff_meaning otherComparable comparable).mpr same.symm
  · intro first second third firstOf secondOf thirdOf equal later
    have same := (isEqual_iff_meaning firstOf secondOf).mp equal
    have sameLater := (isEqual_iff_meaning secondOf thirdOf).mp later
    exact (isEqual_iff_meaning firstOf thirdOf).mpr (same.trans sameLater)
  · intro left right defined _
    rw [isEqual_iff_equal, Value.equal, Number.coincide_eq_false defined, Bool.false_or,
      Number.eq_iff_exact]
  · intro argument other comparable otherComparable equal depth session otherSession
    have same := (isEqual_iff_meaning comparable otherComparable).mp equal
    refine ⟨agrees_car comparable otherComparable same depth session otherSession,
      agrees_cdr comparable otherComparable same depth session otherSession, ?_⟩
    intro value otherValue first otherFirst equalFirst
    have alike := (isEqual_iff_meaning first otherFirst).mp equalFirst
    exact agrees_cons comparable otherComparable same first otherFirst alike depth session
      otherSession

/-- A zero of either kind alone in a list: the lists are equal, so are what they begin with and what
is made by putting the other zero in front of each, and all of it is equal both ways. -/
theorem isEqual_congruence_zeros :
    let zero : Value := .number (.int 0)
    let floatZero : Value := .number (.float (.signedZero true))
    let session : Session := ⟨Heap.empty, 0, 0, "", []⟩
    let result (procedure : Builtin) (arguments : List Value) :=
      ((applyProcedure 1 (.primitive (.builtin procedure)) arguments).outcome session).1
    zero.IsEqual floatZero ∧ floatZero.IsEqual zero ∧ zero.IsEqual zero ∧
      Agrees (result .car [.list [zero]]) (result .car [.list [floatZero]]) ∧
      Agrees (result .cons [zero, .list [zero]])
        (result .cons [floatZero, .list [floatZero]]) := by
  intro zero floatZero session result
  let objects (_ : Identity) : Bracket × List Value := (.round, [])
  have comparable : zero.Comparable objects := .number trivial
  have floatComparable : floatZero.Comparable objects := .number trivial
  have list {item : Value} (known : item.Comparable objects) :
      (Value.list [item]).Comparable objects :=
    .sequence nofun (List.forall_mem_singleton.mpr known)
  obtain ⟨-, reflexive, symmetric, transitive, numbers, respects⟩ := isEqual_congruence objects
  have equal : zero.IsEqual floatZero :=
    (numbers (.int 0) (.float (.signedZero true)) trivial trivial).mpr
      ⟨.finite 0, by rw [Number.exactValue?, Int.cast_zero], Number.exactValue?_signedZero true⟩
  have back := symmetric zero floatZero comparable floatComparable equal
  have round := transitive zero floatZero zero comparable floatComparable comparable equal back
  have lists : (Value.list [zero]).IsEqual (.list [floatZero]) := by
    refine (isEqual_iff_meaning (list comparable) (list floatComparable)).mpr ?_
    have same := (isEqual_iff_meaning comparable floatComparable).mp equal
    simp only [Value.list, meaning, meanings_eq_map, List.map_cons, List.map_nil, same]
  obtain ⟨first, -, joined⟩ :=
    respects _ _ (list comparable) (list floatComparable) lists 0 session session
  exact ⟨equal, back, round, first, joined zero floatZero comparable floatComparable equal⟩

end Evaluation

end TinyLisp
