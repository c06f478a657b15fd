import TinyLisp.Heap

/-!
# Nested values

Sequences and closures hold values again. What holds of a value if it holds of the values that it
holds is true of all values; functions on values go through lists of them item by item.
-/

namespace TinyLisp

namespace Value

/-- Induction over nested values, with a hypothesis for everything that a value holds. -/
@[induction_eliminator]
theorem nestedInduction {motive : Value → Prop}
    (number : ∀ value, motive (.number value))
    (string : ∀ text, motive (.string text))
    (symbol : ∀ name, motive (.symbol name))
    (keyword : ∀ name, motive (.keyword name))
    (literal : ∀ text, motive (.literal text))
    (sequence : ∀ identity bracket items, (∀ item ∈ items, motive item) →
      motive (.sequence identity bracket items))
    (primitive : ∀ procedure, motive (.primitive procedure))
    (closure : ∀ id parameters body frame, (∀ parameter ∈ parameters, motive parameter) →
      (∀ form ∈ body, motive form) → motive (.closure id parameters body frame))
    (foreign : ∀ value, motive (.foreign value)) : ∀ value, motive value :=
  @Value.rec motive (fun items => ∀ item ∈ items, motive item) number string symbol keyword
    literal sequence primitive closure foreign (by simp)
    fun _ _ head tail => by simpa using ⟨head, tail⟩

theorem renderAll_eq_map (style : Style) (items : List Value) :
    renderAll style items = items.map (render style) := by
  induction items with
  | nil => rfl
  | cons item rest ih => rw [renderAll, ih, List.map_cons]

mutual

/-- The value with no identity on the sequences in it. -/
def erased : Value → Value
  | .sequence _ bracket items => .sequence none bracket (erasedAll items)
  | value => value

def erasedAll : List Value → List Value
  | [] => []
  | value :: rest => value.erased :: erasedAll rest

end

@[simp]
theorem erasedAll_eq_map (items : List Value) : erasedAll items = items.map erased := by
  induction items with
  | nil => rfl
  | cons item rest ih => rw [erasedAll, ih, List.map_cons]

theorem obstacleAmong_eq_none_iff {depth : Nat} {items : List Value} :
    obstacleAmong depth items = none ↔ ∀ item ∈ items, obstacle depth item = none := by
  induction items with
  | nil => simp [obstacleAmong]
  | cons item rest ih =>
      rw [obstacleAmong, List.forall_mem_cons, ← ih]
      cases obstacle depth item <;> simp

/-- More room never stands in the way of writing a value. -/
theorem obstacle_eq_none_mono {depth more : Nat} {value : Value} (le : depth ≤ more)
    (clear : value.obstacle depth = none) : value.obstacle more = none := by
  induction value generalizing depth more with
  | sequence identity bracket items ih =>
      simp only [obstacle] at clear ⊢
      split at clear
      · cases clear
      · next room =>
          rw [if_neg (by omega)]
          rw [obstacleAmong_eq_none_iff] at clear ⊢
          exact fun item member =>
            ih item member (Nat.sub_le_sub_right le callsPerLevel) (clear item member)
  | closure id parameters body frame ihParameters ihBody =>
      simp only [obstacle, obstacleAmong_eq_none_iff] at clear ⊢
      exact fun parameter member => ihParameters parameter member le (clear parameter member)
  | _ => exact clear

theorem obstacleAmong_ne {depth : Nat} {items : List Value} {found : Obstacle}
    (ne : ∀ item ∈ items, obstacle depth item ≠ some found) :
    obstacleAmong depth items ≠ some found := by
  induction items with
  | nil => simp [obstacleAmong]
  | cons item rest ih =>
      rw [List.forall_mem_cons] at ne
      rw [obstacleAmong]
      split
      · next other present => exact present ▸ ne.1
      · exact ih ne.2

/-- If each of some values can be written with some room, there is room enough for all of them. -/
theorem exists_room_among {items : List Value}
    (room : ∀ item ∈ items, ∃ depth, obstacle depth item = none) :
    ∃ depth, obstacleAmong depth items = none := by
  simp only [obstacleAmong_eq_none_iff]
  induction items with
  | nil => exact ⟨0, by simp⟩
  | cons item rest ih =>
      rw [List.forall_mem_cons] at room
      obtain ⟨first, clear⟩ := room.1
      obtain ⟨others, allClear⟩ := ih room.2
      refine ⟨max first others, List.forall_mem_cons.mpr ⟨?_, fun other member => ?_⟩⟩
      · exact obstacle_eq_none_mono (Nat.le_max_left _ _) clear
      · exact obstacle_eq_none_mono (Nat.le_max_right _ _) (allClear other member)

end Value

end TinyLisp
