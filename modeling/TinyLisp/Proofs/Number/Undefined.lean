import TinyLisp.Proofs.Number.Exact

/-!
# Undefined numbers

Undefined numbers are told apart as objects, by a number, and are equal only to themselves. For
arithmetic they are all the same: whatever undefined operand it is given, its result is a new
undefined number. So what it does to numbers of other objects is what it does to these.
-/

namespace TinyLisp

/-- With an undefined operand the result is a new undefined one, and so is every other undefined
result. -/
structure Binary64.PassesUndefined (operation : Binary64 → Binary64 → Binary64) : Prop where
  left : ∀ object value, operation (.undefined object) value = .nan
  right : ∀ value object, operation value (.undefined object) = .nan
  new : ∀ {left right object}, operation left right = .undefined object → object = none

theorem Binary64.ofQuotient_ne_undefined (negative : Bool) (numerator denominator : Nat)
    (object : Option Nat) : ofQuotient negative numerator denominator ≠ .undefined object := by
  unfold ofQuotient
  split <;> nofun

theorem Binary64.add_passesUndefined : PassesUndefined add where
  left _ value := by cases value <;> rfl
  right value _ := by cases value <;> rfl
  new {left right object} undefined := by
    unfold add at undefined
    split at undefined
    · exact (Binary64.undefined.inj undefined).symm
    · exact (Binary64.undefined.inj undefined).symm
    · split at undefined <;> cases undefined
      rfl
    · cases undefined
    · cases undefined
    · simp only at undefined
      split at undefined
      · cases undefined
      · exact absurd undefined (ofQuotient_ne_undefined _ _ _ object)

theorem Binary64.sub_passesUndefined : PassesUndefined sub where
  left object value := add_passesUndefined.left object value.neg
  right value _ := add_passesUndefined.right value none
  new := add_passesUndefined.new

namespace Number

theorem IsDefined.object?_eq_none {value : Number} (defined : value.IsDefined) :
    value.object? = none := by
  match value, defined with
  | .int _, _ | .float (.infinite _), _ | .float (.finite _ _), _ => rfl

theorem isDefined_or_eq_nan {value : Number} (new : value.object? = none) :
    value.IsDefined ∨ value = .float .nan := by
  match value with
  | .int _ | .float (.infinite _) | .float (.finite _ _) => exact .inl trivial
  | .float (.undefined none) => exact .inr rfl

theorem IsDefined.ne_nan {value : Number} (defined : value.IsDefined) : value ≠ .float .nan := by
  rintro rfl
  exact defined

theorem coincide_undefined_iff {object : Nat} {right : Number} :
    (Number.float (.undefined (some object))).coincide right = true ↔
      right = .float (.undefined (some object)) := by
  match right with
  | .int _ | .float (.undefined none) | .float (.infinite _) | .float (.finite _ _) =>
      simp [coincide, object?]
  | .float (.undefined (some other)) => simp [coincide, object?, eq_comm]

theorem coincide_eq_false {left : Number} (defined : left.IsDefined) (right : Number) :
    left.coincide right = false := by
  rw [coincide, defined.object?_eq_none]

variable {exact : Int → Int → Int} {rounded : Binary64 → Binary64 → Binary64}

theorem combine?_float_left (left : Binary64) (right : Number) :
    combine? exact rounded (.float left) right =
      right.toBinary64?.bind fun value => some (.float (rounded left value)) := by
  unfold combine?
  split
  · contradiction
  · rfl

theorem combine?_float_right (left : Number) (right : Binary64) :
    combine? exact rounded left (.float right) =
      left.toBinary64?.bind fun value => some (.float (rounded value right)) := by
  unfold combine?
  split
  · contradiction
  · rfl

theorem object?_neg (value : Number) : value.neg.object? = none := by
  match value with
  | .int _ | .float (.undefined _) | .float (.infinite _) | .float (.finite _ _) => rfl

theorem object?_float_of_passes (passes : Binary64.PassesUndefined rounded)
    (left right : Binary64) : (Number.float (rounded left right)).object? = none := by
  cases result : rounded left right with
  | undefined object => exact passes.new result
  | _ => rfl

/-- Every undefined result is a new one. -/
theorem object?_of_combine? (passes : Binary64.PassesUndefined rounded) {left right total : Number}
    (combined : combine? exact rounded left right = some total) : total.object? = none := by
  match left, right with
  | .int first, .int second =>
      cases combined
      rfl
  | .float left, right =>
      rw [combine?_float_left] at combined
      obtain ⟨value, -, result⟩ := Option.bind_eq_some_iff.mp combined
      cases result
      exact object?_float_of_passes passes _ _
  | left, .float right =>
      rw [combine?_float_right] at combined
      obtain ⟨value, -, result⟩ := Option.bind_eq_some_iff.mp combined
      cases result
      exact object?_float_of_passes passes _ _

theorem object?_of_add? {left right total : Number} (added : left.add? right = some total) :
    total.object? = none :=
  object?_of_combine? Binary64.add_passesUndefined added

theorem object?_of_sub? {left right total : Number} (taken : left.sub? right = some total) :
    total.object? = none :=
  object?_of_combine? Binary64.sub_passesUndefined taken

/-- The number with another number for the object that it is. -/
def renumber (objects : Nat → Nat) : Number → Number
  | .float (.undefined object) => .float (.undefined (object.map objects))
  | value => value

variable {objects : Nat → Nat}

theorem renumber_eq_self {value : Number}
    (fixed : ∀ object, value.object? = some object → objects object = object) :
    value.renumber objects = value := by
  match value with
  | .int _ | .float (.undefined none) | .float (.infinite _) | .float (.finite _ _) => rfl
  | .float (.undefined (some object)) => rw [renumber, Option.map_some, fixed object rfl]

theorem object?_renumber (value : Number) :
    (value.renumber objects).object? = value.object?.map objects := by
  match value with
  | .int _ | .float (.undefined _) | .float (.infinite _) | .float (.finite _ _) => rfl

theorem exceedsDigitLimit_renumber (value : Number) :
    (value.renumber objects).exceedsDigitLimit = value.exceedsDigitLimit := by
  match value with
  | .int _ | .float (.undefined _) | .float (.infinite _) | .float (.finite _ _) => rfl

theorem text_renumber (value : Number) : (value.renumber objects).text = value.text := by
  match value with
  | .int _ | .float (.undefined _) | .float (.infinite _) | .float (.finite _ _) => rfl

theorem exactValue?_renumber (value : Number) :
    (value.renumber objects).exactValue? = value.exactValue? := by
  match value with
  | .int _ | .float (.undefined _) | .float (.infinite _) | .float (.finite _ _) => rfl

theorem eq_renumber (left right : Number) :
    (left.renumber objects).eq (right.renumber objects) = left.eq right := by
  rw [Bool.eq_iff_iff, eq_iff_exact, eq_iff_exact, exactValue?_renumber, exactValue?_renumber]

theorem coincide_renumber {left right : Number}
    (injective : ∀ first second, left.object? = some first → right.object? = some second →
      objects first = objects second → first = second) :
    (left.renumber objects).coincide (right.renumber objects) = left.coincide right := by
  simp only [coincide, object?_renumber]
  cases given : left.object? with
  | none => rfl
  | some first =>
      cases otherGiven : right.object? with
      | none => rfl
      | some second =>
          have same := injective first second given otherGiven
          exact decide_eq_decide.mpr ⟨same, congrArg objects⟩

theorem neg_renumber (value : Number) : (value.renumber objects).neg = value.neg := by
  match value with
  | .int _ | .float (.undefined _) | .float (.infinite _) | .float (.finite _ _) => rfl

/-- Operands that are one undefined number or another are all the same to arithmetic. -/
theorem combine?_renumber (passes : Binary64.PassesUndefined rounded) (left right : Number) :
    combine? exact rounded (left.renumber objects) (right.renumber objects) =
      combine? exact rounded left right := by
  have right_renumber (left : Number) :
      combine? exact rounded left (right.renumber objects) = combine? exact rounded left right := by
    match right with
    | .int _ | .float (.infinite _) | .float (.finite _ _) => rfl
    | .float (.undefined object) => simp only [renumber, combine?_float_right, passes.right]
  rw [right_renumber]
  match left with
  | .int _ | .float (.infinite _) | .float (.finite _ _) => rfl
  | .float (.undefined object) => simp only [renumber, combine?_float_left, passes.left]

theorem add?_renumber (left right : Number) :
    (left.renumber objects).add? (right.renumber objects) = left.add? right :=
  combine?_renumber Binary64.add_passesUndefined left right

theorem sub?_renumber (left right : Number) :
    (left.renumber objects).sub? (right.renumber objects) = left.sub? right :=
  combine?_renumber Binary64.sub_passesUndefined left right

end Number

end TinyLisp
