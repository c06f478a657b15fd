import TinyLisp.Value

/-!
# Identity and equality

The sequences of a text are numbered when they are read, each before the ones in it, so that two of
them are told apart even if their items are equal. Texts that are read together are numbered as they
are one after the other.

The language compares values with `equal`: numbers by what they denote, sequences item by item
within one kind of bracket, procedures by identity. One object is equal to itself even if it is an
undefined number. The embedding program compares values with `same`, for which its own truth values
pass for the numbers one and zero, and an undefined number is the same as itself only in sequences.
Comparing nested sequences takes room for nested calls; `equalWithin` takes it into account, and
knows that a sequence is equal to itself without looking at its items.
-/

namespace TinyLisp

namespace Value

mutual

/-- A form with its sequences numbered from a number on, and the number after theirs. -/
def identified (next : Nat) : Value → Value × Nat
  | .sequence _ bracket items =>
      let (items, after) := identifiedAll (next + 1) items
      (.sequence (some (.read next)) bracket items, after)
  | value => (value, next)

def identifiedAll (next : Nat) : List Value → List Value × Nat
  | [] => ([], next)
  | value :: rest =>
      let (value, between) := identified next value
      let (rest, after) := identifiedAll between rest
      (value :: rest, after)

end

theorem identifiedAll_append (next : Nat) (left right : List Value) :
    identifiedAll next (left ++ right) =
      ((identifiedAll next left).1 ++ (identifiedAll (identifiedAll next left).2 right).1,
        (identifiedAll (identifiedAll next left).2 right).2) := by
  induction left generalizing next with
  | nil => rfl
  | cons value rest ih => simp only [List.cons_append, identifiedAll, ih]

/-- Whether two values are known to be one object. -/
def coincide : Value → Value → Bool
  | .number left, .number right => left.coincide right
  | .sequence left _ _, .sequence right _ _ => Identity.coincide left right
  | _, _ => false

mutual

/-- The language's own equality. -/
def equal : Value → Value → Bool
  | .number left, .number right => left.coincide right || left.eq right
  | .string left, .string right => left = right
  | .symbol left, .symbol right => left = right
  | .keyword left, .keyword right => left = right
  | .literal left, .literal right => left = right
  | .sequence identity left items, .sequence other right others =>
      Identity.coincide identity other || (left = right && equalItems items others)
  | .primitive left, .primitive right => left = right
  | .closure left _ _ _, .closure right _ _ _ => left = right
  | .foreign left, .foreign right => left = right
  | _, _ => false

def equalItems : List Value → List Value → Bool
  | [], [] => true
  | left :: items, right :: others => equal left right && equalItems items others
  | _, _ => false

end

/-- The number that a truth value of the embedding program passes for. -/
def ofTruth (flag : Bool) : Number := .int (if flag then 1 else 0)

mutual

/-- The embedding program's equality. -/
def same : Value → Value → Bool
  | .number left, .number right => left.eq right
  | .number left, .foreign (.bool right) => left.eq (ofTruth right)
  | .foreign (.bool left), .number right => (ofTruth left).eq right
  | .foreign left, .foreign right => left = right
  | .string left, .string right => left = right
  | .symbol left, .symbol right => left = right
  | .keyword left, .keyword right => left = right
  | .literal left, .literal right => left = right
  | .sequence _ left items, .sequence _ right others => left = right && sameItems items others
  | .primitive left, .primitive right => left = right
  | .closure left _ _ _, .closure right _ _ _ => left = right
  | _, _ => false

/-- Whether two lists are the same item by item, an item being the same as itself. -/
def sameItems : List Value → List Value → Bool
  | [], [] => true
  | left :: items, right :: others =>
      (coincide left right || same left right) && sameItems items others
  | _, _ => false

end

/-- The nested calls that comparing one more level of two sequences takes. -/
def callsPerComparedLevel : Nat := 2

mutual

/-- Whether two values are equal, if a number of nested calls is enough to find out. Sequences
that are not one and the same are compared item by item, up to the first pair that differs. -/
def equalWithin (depth : Nat) : Value → Value → Option Bool
  | .sequence identity left items, .sequence other right others =>
      if Identity.coincide identity other then some true
      else if left ≠ right ∨ items.length ≠ others.length then some false
      else if depth < callsPerComparedLevel then none
      else equalItemsWithin (depth - callsPerComparedLevel) items others
  | left, right => some (equal left right)

/-- Whether two lists of one length are equal item by item, if a number of nested calls is enough
to find out. -/
def equalItemsWithin (depth : Nat) : List Value → List Value → Option Bool
  | left :: items, right :: others =>
      match equalWithin depth left right with
      | some true => equalItemsWithin depth items others
      | outcome => outcome
  | _, _ => some true

end

end Value

end TinyLisp
