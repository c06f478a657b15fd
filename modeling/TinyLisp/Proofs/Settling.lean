/-!
# Budgets that are large enough

Some computations come to the same with every budget that is large enough, and with a smaller one
to nothing but the want of a budget. What is made of their results does so, too.
-/

namespace TinyLisp

/-- Every result is a certain outcome or that of an exhausted budget, and the outcome if the budget
is large enough. -/
structure Settles {α : Type} (results : Nat → α) (exhausted outcome : α) : Prop where
  ends : ∀ depth, results depth = outcome ∨ results depth = exhausted
  enough : ∃ enough, ∀ depth, enough ≤ depth → results depth = outcome

namespace Settles

variable {α β : Type} {results : Nat → α} {exhausted outcome : α}

theorem const (exhausted outcome : α) : Settles (fun _ => outcome) exhausted outcome :=
  ⟨fun _ => .inl rfl, 0, fun _ _ => rfl⟩

theorem map (change : α → β) (settles : Settles results exhausted outcome) :
    Settles (fun depth => change (results depth)) (change exhausted) (change outcome) where
  ends depth := (settles.ends depth).imp (congrArg change) (congrArg change)
  enough := by
    obtain ⟨enough, reached⟩ := settles.enough
    exact ⟨enough, fun depth le => congrArg change (reached depth le)⟩

theorem unique {other : α} (settles : Settles results exhausted outcome)
    (otherSettles : Settles results exhausted other) : outcome = other := by
  obtain ⟨enough, reached⟩ := settles.enough
  obtain ⟨otherEnough, otherReached⟩ := otherSettles.enough
  rw [← reached (max enough otherEnough) (Nat.le_max_left _ _),
    ← otherReached (max enough otherEnough) (Nat.le_max_right _ _)]

/-- One more unit of the budget is used. -/
theorem succ {later : Nat → α} (settles : Settles results exhausted outcome)
    (start : later 0 = exhausted) (steps : ∀ depth, later (depth + 1) = results depth) :
    Settles later exhausted outcome where
  ends depth := by
    cases depth with
    | zero => exact .inr start
    | succ depth => simpa only [steps] using settles.ends depth
  enough := by
    obtain ⟨enough, reached⟩ := settles.enough
    refine ⟨enough + 1, fun depth le => ?_⟩
    cases depth with
    | zero => omega
    | succ depth => exact (steps depth).trans (reached depth (Nat.le_of_succ_le_succ le))

end Settles

end TinyLisp
