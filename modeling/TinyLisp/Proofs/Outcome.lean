/-!
# Outcomes

A computation that may fail ends in a value or in an error. These equations carry out its steps.
-/

namespace TinyLisp

section

variable {ε α β : Type}

@[simp]
theorem ok_bind (value : α) (next : α → Except ε β) : (Except.ok value >>= next) = next value :=
  rfl

@[simp]
theorem error_bind (error : ε) (next : α → Except ε β) :
    ((Except.error error : Except ε α) >>= next) = .error error :=
  rfl

@[simp]
theorem except_pure (value : α) : (pure value : Except ε α) = .ok value :=
  rfl

@[simp]
theorem map_ok (change : α → β) (value : α) :
    (Except.ok value : Except ε α).map change = .ok (change value) :=
  rfl

@[simp]
theorem map_error (change : α → β) (error : ε) :
    (Except.error error : Except ε α).map change = .error error :=
  rfl

@[simp]
theorem mapError_ok {δ : Type} (change : ε → δ) (value : α) :
    (Except.ok value : Except ε α).mapError change = .ok value :=
  rfl

@[simp]
theorem mapError_error {δ : Type} (change : ε → δ) (error : ε) :
    (Except.error error : Except ε α).mapError change = .error (change error) :=
  rfl

theorem bind_eq_ok_iff {computation : Except ε α} {next : α → Except ε β} {result : β} :
    (computation >>= next) = .ok result ↔
      ∃ value, computation = .ok value ∧ next value = .ok result := by
  cases computation <;> simp

theorem bind_eq_error_iff {computation : Except ε α} {next : α → Except ε β} {error : ε} :
    (computation >>= next) = .error error ↔
      computation = .error error ∨
        ∃ value, computation = .ok value ∧ next value = .error error := by
  cases computation <;> simp

end

end TinyLisp
