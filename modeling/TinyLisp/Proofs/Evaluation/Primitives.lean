import TinyLisp.Atom
import TinyLisp.Evaluation
import TinyLisp.Proofs.Number.Undefined
import TinyLisp.Proofs.Outcome
import TinyLisp.Proofs.Session.Outcome

/-!
# What primitive procedures compute from

The results of builtin procedures are numbers, literals, and lists of what the arguments hold. An
undefined number that they compute is a new one, which has no number of its own yet. Their failures
show one of the arguments, or none.
-/

namespace TinyLisp

/-- A property that defined numbers and literals have, that a sequence passes on to its items, and
that a new list has if its items do. -/
structure Value.DataClosed (property : Value → Prop) : Prop where
  number : ∀ {value : Number}, value.IsDefined → property (.number value)
  literal : ∀ word ∈ literalWords, property (.literal word)
  items : ∀ {identity bracket items}, property (.sequence identity bracket items) →
    ∀ item ∈ items, property item
  list : ∀ {items : List Value}, (∀ item ∈ items, property item) → property (.list items)

/-- A result still has such a property once it has been numbered, if no identity matters to it. -/
theorem Value.DataClosed.numbered {property : Value → Prop} (closed : DataClosed property)
    (number : ∀ value, property (.number value))
    (sequence : ∀ identity bracket {items : List Value}, (∀ item ∈ items, property item) →
      property (.sequence identity bracket items))
    {value : Value} (holds : property value) (object : Nat) :
    property (Run.numbered object value) := by
  unfold Run.numbered
  split
  · exact sequence _ _ (closed.items holds)
  · exact number _
  · exact holds

namespace Builtin

variable {property : Value → Prop}

theorem oneArgument_eq_ok {procedure : Builtin} {arguments : List Value} {argument : Value}
    (one : procedure.oneArgument arguments = .ok argument) : arguments = [argument] := by
  unfold oneArgument at one
  split at one <;> cases one
  rfl

theorem twoArguments_eq_ok {procedure : Builtin} {arguments : List Value} {first second : Value}
    (two : procedure.twoArguments arguments = .ok (first, second)) :
    arguments = [first, second] := by
  unfold twoArguments at two
  split at two <;> cases two
  rfl

theorem mem_itemsOf (closed : Value.DataClosed property) {depth : Nat} {procedure : Builtin}
    {argument : Value} {items : List Value} (taken : procedure.itemsOf depth argument = .ok items)
    (holds : property argument) : ∀ item ∈ items, property item := by
  unfold itemsOf at taken
  split at taken <;> cases taken
  · exact closed.items holds
  · simp

theorem ofBool_closed (closed : Value.DataClosed property) (flag : Bool) :
    property (.ofBool flag) := by
  cases flag <;> exact closed.literal _ (by decide)

theorem isLiteral_closed (closed : Value.DataClosed property) {procedure : Builtin} {word : String}
    {arguments : List Value} {value : Value}
    (computed : procedure.isLiteral word arguments = .ok value) : property value := by
  obtain ⟨argument, -, result⟩ := bind_eq_ok_iff.mp computed
  cases result
  exact ofBool_closed closed _

theorem inRange_eq_ok {result : Option Number} {total : Number}
    (inside : inRange result = .ok total) : result = some total := by
  unfold inRange at inside
  split at inside <;> cases inside
  rfl

theorem object?_of_foldlM {combine : Number → Number → Option Number}
    (new : ∀ {left right total}, combine left right = some total → total.object? = none)
    {values : List Number} {start total : Number} (alone : values = [] → start.object? = none)
    (folded : values.foldlM (fun total value => inRange (combine total value)) start = .ok total) :
    total.object? = none := by
  induction values generalizing start with
  | nil =>
      cases folded
      exact alone rfl
  | cons value rest ih =>
      rw [List.foldlM_cons] at folded
      obtain ⟨next, first, later⟩ := bind_eq_ok_iff.mp folded
      exact ih (fun _ => new (inRange_eq_ok first)) later

theorem object?_of_sum {values : List Number} {total : Number} (summed : sum values = .ok total) :
    total.object? = none :=
  object?_of_foldlM Number.object?_of_add? (fun _ => rfl) summed

theorem object?_of_difference {values : List Number} {total : Number}
    (taken : difference values = .ok total) : total.object? = none := by
  match values with
  | [] => cases taken
  | [value] =>
      cases taken
      exact value.object?_neg
  | value :: next :: rest =>
      have filled : next :: rest = [] → value.object? = none := nofun
      exact @object?_of_foldlM Number.sub? Number.object?_of_sub? _ _ _ filled taken

theorem number_closed (closed : Value.DataClosed property) {value : Number}
    (new : value.object? = none) :
    property (.number value) ∨ Value.number value = .number (.float .nan) := by
  rcases Number.isDefined_or_eq_nan new with defined | rfl
  · exact .inl (closed.number defined)
  · exact .inr rfl

/-- What builtin procedures compute has every such property that their arguments have, unless it is
a new undefined number. -/
theorem compute_closed (closed : Value.DataClosed property) {depth : Nat} {procedure : Builtin}
    {arguments : List Value} {value : Value}
    (computed : procedure.compute depth arguments = .ok value)
    (holds : ∀ argument ∈ arguments, property argument) :
    property value ∨ value = .number (.float .nan) := by
  cases procedure with
  | car =>
      obtain ⟨argument, one, rest⟩ := bind_eq_ok_iff.mp computed
      obtain ⟨items, taken, result⟩ := bind_eq_ok_iff.mp rest
      have held := mem_itemsOf closed taken (holds argument (by simp [oneArgument_eq_ok one]))
      cases result
      cases items with
      | nil => exact .inl (closed.literal _ (by decide))
      | cons item items => exact .inl (held item (by simp))
  | cdr =>
      obtain ⟨argument, one, rest⟩ := bind_eq_ok_iff.mp computed
      obtain ⟨items, taken, result⟩ := bind_eq_ok_iff.mp rest
      have held := mem_itemsOf closed taken (holds argument (by simp [oneArgument_eq_ok one]))
      cases result
      exact .inl (closed.list fun item member => held item (List.mem_of_mem_tail member))
  | cons =>
      obtain ⟨⟨first, others⟩, two, rest⟩ := bind_eq_ok_iff.mp computed
      obtain ⟨items, taken, result⟩ := bind_eq_ok_iff.mp rest
      have both := twoArguments_eq_ok two
      have held := mem_itemsOf closed taken (holds others (by simp [both]))
      cases result
      exact .inl (closed.list (List.forall_mem_cons.mpr ⟨holds first (by simp [both]), held⟩))
  | isNil | isTrue | isFalse => exact .inl (isLiteral_closed closed computed)
  | add =>
      obtain ⟨numbers, -, rest⟩ := bind_eq_ok_iff.mp computed
      obtain ⟨total, summed, result⟩ := bind_eq_ok_iff.mp rest
      cases result
      exact number_closed closed (object?_of_sum summed)
  | sub =>
      obtain ⟨numbers, -, rest⟩ := bind_eq_ok_iff.mp computed
      obtain ⟨total, taken, result⟩ := bind_eq_ok_iff.mp rest
      cases result
      exact number_closed closed (object?_of_difference taken)
  | equal =>
      obtain ⟨flag, -, result⟩ := bind_eq_ok_iff.mp computed
      cases result
      exact .inl (ofBool_closed closed flag)
  | println => exact .inl (holds value (by simp [oneArgument_eq_ok computed]))

theorem call_closed (closed : Value.DataClosed property) {depth : Nat} {procedure : Builtin}
    {arguments : List Value} {result : PrimitiveResult}
    (called : procedure.call depth arguments = .ok result)
    (holds : ∀ argument ∈ arguments, property argument) :
    property result.value ∨ result.value = .number (.float .nan) := by
  obtain ⟨value, computed, rest⟩ := bind_eq_ok_iff.mp called
  have held := compute_closed closed computed holds
  split at rest
  · obtain ⟨text, -, last⟩ := bind_eq_ok_iff.mp rest
    cases last
    exact held
  · cases rest
    exact held

theorem call_closed_of_nan (closed : Value.DataClosed property)
    (undefined : property (.number (.float .nan))) {depth : Nat} {procedure : Builtin}
    {arguments : List Value} {result : PrimitiveResult}
    (called : procedure.call depth arguments = .ok result)
    (holds : ∀ argument ∈ arguments, property argument) : property result.value := by
  rcases call_closed closed called holds with held | new
  · exact held
  · rwa [new]

/-- The faults that a call of a builtin procedure ends in, and which of the arguments a message
shows. -/
inductive Refuses (depth : Nat) (procedure : Builtin) (arguments : List Value) : Fault → Prop
  | count (expected : Nat) :
      Refuses depth procedure arguments (.argument (.count procedure expected arguments.length))
  | notNumber {argument : Value} (member : argument ∈ arguments) :
      Refuses depth procedure arguments
        (Fault.showing depth .readable argument (.argument ∘ .notNumber procedure))
  | notSequence {argument : Value} (member : argument ∈ arguments) :
      Refuses depth procedure arguments
        (Fault.showing depth .readable argument (.argument ∘ .notSequence procedure))
  | tooFewToCompare : Refuses depth procedure arguments (.argument .tooFewToCompare)
  | nothingToSubtract : Refuses depth procedure arguments (.argument .nothingToSubtract)
  | integerOutOfRange : Refuses depth procedure arguments .integerOutOfRange
  | incomparable {first second : Value} (member : first ∈ arguments)
      (otherMember : second ∈ arguments) (unknown : first.equalWithin depth second = none) :
      Refuses depth procedure arguments .depthExceeded
  | unwritable {argument : Value} (member : argument ∈ arguments) {obstacle : Obstacle}
      (found : argument.obstacle depth = some obstacle) :
      Refuses depth procedure arguments (.ofObstacle obstacle)

variable {depth : Nat} {procedure : Builtin} {arguments : List Value} {fault : Fault}

theorem refuses_of_oneArgument (failed : procedure.oneArgument arguments = .error fault) :
    Refuses depth procedure arguments fault := by
  unfold oneArgument at failed
  split at failed <;> cases failed
  exact .count 1

theorem refuses_of_twoArguments (failed : procedure.twoArguments arguments = .error fault) :
    Refuses depth procedure arguments fault := by
  unfold twoArguments at failed
  split at failed <;> cases failed
  exact .count 2

theorem refuses_of_numbers {numbers : List Value}
    (among : ∀ argument ∈ numbers, argument ∈ arguments)
    (failed : procedure.numbers depth numbers = .error fault) :
    Refuses depth procedure arguments fault := by
  induction numbers with
  | nil => cases failed
  | cons argument rest ih =>
      obtain ⟨member, restAmong⟩ := List.forall_mem_cons.mp among
      unfold Builtin.numbers at failed
      split at failed
      · next same => cases same
      · next value others same =>
          cases same
          cases found : procedure.numbers depth rest with
          | ok values =>
              rw [found] at failed
              cases failed
          | error other =>
              rw [found] at failed
              cases failed
              exact ih restAmong found
      · next same =>
          cases same
          cases failed
          exact .notNumber member

theorem refuses_of_itemsOf {argument : Value} (member : argument ∈ arguments)
    (failed : procedure.itemsOf depth argument = .error fault) :
    Refuses depth procedure arguments fault := by
  unfold itemsOf at failed
  split at failed <;> cases failed
  exact .notSequence member

theorem refuses_of_foldlM {combine : Number → Number → Option Number} {values : List Number}
    {total : Number}
    (failed : values.foldlM (fun total value => inRange (combine total value)) total =
      .error fault) : Refuses depth procedure arguments fault := by
  induction values generalizing total with
  | nil => cases failed
  | cons value rest ih =>
      rw [List.foldlM_cons] at failed
      rcases bind_eq_error_iff.mp failed with first | ⟨next, -, later⟩
      · cases combined : combine total value with
        | none =>
            rw [combined] at first
            cases first
            exact .integerOutOfRange
        | some next =>
            rw [combined] at first
            cases first
      · exact ih later

theorem refuses_of_difference {values : List Number} (failed : difference values = .error fault) :
    Refuses depth procedure arguments fault := by
  unfold difference at failed
  split at failed
  · cases failed
    exact .nothingToSubtract
  · cases failed
  · exact refuses_of_foldlM failed

theorem refuses_of_compare (failed : compare depth arguments = .error fault) :
    Refuses depth procedure arguments fault := by
  unfold compare at failed
  split at failed
  · next first second rest =>
      split at failed <;> cases failed
      next unknown => exact .incomparable (by simp) (by simp) unknown
  · cases failed
    exact .tooFewToCompare

theorem refuses_of_isLiteral {word : String}
    (failed : procedure.isLiteral word arguments = .error fault) :
    Refuses depth procedure arguments fault := by
  rcases bind_eq_error_iff.mp failed with one | ⟨argument, -, result⟩
  · exact refuses_of_oneArgument one
  · cases result

theorem refuses_of_compute (failed : procedure.compute depth arguments = .error fault) :
    Refuses depth procedure arguments fault := by
  cases procedure with
  | car | cdr =>
      rcases bind_eq_error_iff.mp failed with one | ⟨argument, one, rest⟩
      · exact refuses_of_oneArgument one
      · rcases bind_eq_error_iff.mp rest with taken | ⟨items, -, result⟩
        · exact refuses_of_itemsOf (by simp [oneArgument_eq_ok one]) taken
        · cases result
  | cons =>
      rcases bind_eq_error_iff.mp failed with two | ⟨⟨first, others⟩, two, rest⟩
      · exact refuses_of_twoArguments two
      · rcases bind_eq_error_iff.mp rest with taken | ⟨items, -, result⟩
        · exact refuses_of_itemsOf (by simp [twoArguments_eq_ok two]) taken
        · cases result
  | isNil | isTrue | isFalse => exact refuses_of_isLiteral failed
  | add =>
      rcases bind_eq_error_iff.mp failed with unread | ⟨numbers, -, rest⟩
      · exact refuses_of_numbers (fun _ => id) unread
      · rcases bind_eq_error_iff.mp rest with summed | ⟨total, -, result⟩
        · exact refuses_of_foldlM summed
        · cases result
  | sub =>
      rcases bind_eq_error_iff.mp failed with unread | ⟨numbers, -, rest⟩
      · exact refuses_of_numbers (fun _ => id) unread
      · rcases bind_eq_error_iff.mp rest with taken | ⟨total, -, result⟩
        · exact refuses_of_difference taken
        · cases result
  | equal =>
      rcases bind_eq_error_iff.mp failed with compared | ⟨flag, -, result⟩
      · exact refuses_of_compare compared
      · cases result
  | println => exact refuses_of_oneArgument failed

/-- Builtin procedures fail on their arguments, for want of a budget, on the digits of a value that
is written, or on an integer that is out of range. -/
theorem refuses_of_call (failed : procedure.call depth arguments = .error fault) :
    Refuses depth procedure arguments fault := by
  rcases bind_eq_error_iff.mp failed with computed | ⟨value, computed, rest⟩
  · exact refuses_of_compute computed
  · split at rest
    · rcases bind_eq_error_iff.mp rest with written | ⟨text, -, result⟩
      · unfold Value.textWithin at written
        split at written <;> cases written
        next found => exact .unwritable (by simp [oneArgument_eq_ok computed]) found
      · cases result
    · cases rest

end Builtin

namespace Evaluation

variable {depth : Nat} {procedure : Builtin} {arguments : List Value}

/-- A result without a text leaves everything as it was, but for the number of a new sequence. -/
theorem outcome_callPrimitive_ok {value : Value}
    (called : procedure.call depth arguments = .ok ⟨value, ""⟩) (session : Session) :
    (callPrimitive depth (.builtin procedure) arguments).outcome session =
      (.ok (Run.numbered session.objectsMade value),
        { session with objectsMade := session.objectsMade + Run.numbersTaken value }) := by
  have call : (Primitive.builtin procedure).call depth arguments = .ok ⟨value, ""⟩ := called
  simp only [callPrimitive, call, Run.outcome_bind_ok (Run.outcome_print "" session),
    Run.outcome_makeResult, String.append_empty]

/-- A failure of the procedure itself is not noted. -/
theorem outcome_callPrimitive_native {fault : Fault}
    (failed : procedure.call depth arguments = .error fault) (native : fault.kind = .native)
    (session : Session) :
    (callPrimitive depth (.builtin procedure) arguments).outcome session =
      (.error fault, session) := by
  have call : (Primitive.builtin procedure).call depth arguments = .error fault := failed
  have language : fault.isLanguage ∨ fault.kind = .recursion := by
    left
    rw [Fault.isLanguage, native]
    rfl
  simp only [callPrimitive, call, if_pos language]
  rfl

end Evaluation

end TinyLisp
