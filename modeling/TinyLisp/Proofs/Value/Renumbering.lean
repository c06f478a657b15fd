import TinyLisp.Proofs.Number.Undefined
import TinyLisp.Proofs.Session.Outcome
import TinyLisp.Proofs.Value.Nesting
import Mathlib.Data.Set.Function

/-!
# Values with other numbers

Frames and objects are known by number only. A renumbering gives others to them; the value that
results has the same text, the same truth and the same shape. Whether two values are equal does not
change either, provided that different objects get different numbers.
-/

namespace TinyLisp

/-- New numbers for frames and for the objects that a run makes. -/
structure Renumbering where
  frames : Nat → Nat
  objects : Nat → Nat

/-- What a value can refer to by number. -/
inductive Reference where
  | frame (id : Nat)
  | object (number : Nat)

namespace Renumbering

/-- An identity that was read stays the same. -/
def identity (renumbering : Renumbering) : Identity → Identity
  | .read number => .read number
  | .made number => .made (renumbering.objects number)

/-- Different frames and objects that are allowed get different numbers. -/
structure Separates (renumbering : Renumbering) (allowed : Reference → Prop) : Prop where
  frames : ∀ first second, allowed (.frame first) → allowed (.frame second) →
    renumbering.frames first = renumbering.frames second → first = second
  objects : ∀ first second, allowed (.object first) → allowed (.object second) →
    renumbering.objects first = renumbering.objects second → first = second

end Renumbering

namespace Value

mutual

/-- The value with other numbers for frames and objects. -/
def renumber (renumbering : Renumbering) : Value → Value
  | .number value => .number (value.renumber renumbering.objects)
  | .sequence identity bracket items =>
      .sequence (identity.map renumbering.identity) bracket (renumberAll renumbering items)
  | .closure id parameters body frame =>
      .closure (renumbering.objects id) (renumberAll renumbering parameters)
        (renumberAll renumbering body) (renumbering.frames frame)
  | value => value

def renumberAll (renumbering : Renumbering) : List Value → List Value
  | [] => []
  | value :: rest => value.renumber renumbering :: renumberAll renumbering rest

end

/-- A value refers to the frames that closures in it have captured, and to the closures and to the
sequences and undefined numbers in it that a run has made. -/
inductive Mentions : Value → Reference → Prop
  | number {value : Number} {object : Nat} (made : value.object? = some object) :
      Mentions (.number value) (.object object)
  | identity {number : Nat} {bracket : Bracket} {items : List Value} :
      Mentions (.sequence (some (.made number)) bracket items) (.object number)
  | item {identity : Option Identity} {bracket : Bracket} {items : List Value} {item : Value}
      {reference : Reference} (member : item ∈ items) (mentions : Mentions item reference) :
      Mentions (.sequence identity bracket items) reference
  | closure {id frame : Nat} {parameters body : List Value} :
      Mentions (.closure id parameters body frame) (.object id)
  | frame {id frame : Nat} {parameters body : List Value} :
      Mentions (.closure id parameters body frame) (.frame frame)
  | parameter {id frame : Nat} {parameters body : List Value} {parameter : Value}
      {reference : Reference} (member : parameter ∈ parameters)
      (mentions : Mentions parameter reference) :
      Mentions (.closure id parameters body frame) reference
  | body {id frame : Nat} {parameters body : List Value} {form : Value} {reference : Reference}
      (member : form ∈ body) (mentions : Mentions form reference) :
      Mentions (.closure id parameters body frame) reference

def Within (allowed : Reference → Prop) (value : Value) : Prop :=
  ∀ reference, value.Mentions reference → allowed reference

section

variable {renumbering : Renumbering} {allowed : Reference → Prop}

theorem Within.imp {weaker : Reference → Prop} {value : Value} (within : value.Within allowed)
    (weaken : ∀ reference, allowed reference → weaker reference) : value.Within weaker :=
  fun reference mentions => weaken reference (within reference mentions)

theorem Within.item {identity : Option Identity} {bracket : Bracket} {items : List Value}
    (within : (sequence identity bracket items).Within allowed) :
    ∀ item ∈ items, item.Within allowed :=
  fun _ member reference mentions => within reference (.item member mentions)

theorem within_number {value : Number}
    (made : ∀ object, value.object? = some object → allowed (.object object)) :
    (Value.number value).Within allowed := by
  rintro _ ⟨object⟩
  exact made _ object

theorem within_literal (word : String) : (Value.literal word).Within allowed := by
  rintro _ ⟨⟩

theorem within_named (base : String) : (named base).Within allowed := by
  rintro _ ⟨⟩

theorem within_sequence {identity : Option Identity} {bracket : Bracket} {items : List Value}
    (made : ∀ number, identity = some (.made number) → allowed (.object number))
    (within : ∀ item ∈ items, item.Within allowed) :
    (sequence identity bracket items).Within allowed := by
  intro reference mentions
  cases mentions with
  | identity => exact made _ rfl
  | item member mentions => exact within _ member reference mentions

theorem within_list {items : List Value} (within : ∀ item ∈ items, item.Within allowed) :
    (list items).Within allowed :=
  within_sequence (by simp) within

theorem within_closure {id frame : Nat} {parameters body : List Value}
    (object : allowed (.object id)) (captured : allowed (.frame frame))
    (parametersWithin : ∀ parameter ∈ parameters, parameter.Within allowed)
    (bodyWithin : ∀ form ∈ body, form.Within allowed) :
    (closure id parameters body frame).Within allowed := by
  intro reference mentions
  cases mentions with
  | closure => exact object
  | frame => exact captured
  | parameter member mentions => exact parametersWithin _ member reference mentions
  | body member mentions => exact bodyWithin _ member reference mentions

@[simp]
theorem renumberAll_eq_map (items : List Value) :
    renumberAll renumbering items = items.map (renumber renumbering) := by
  induction items with
  | nil => rfl
  | cons item rest ih => rw [renumberAll, ih, List.map_cons]

@[simp]
theorem renumber_number (value : Number) :
    (Value.number value).renumber renumbering = .number (value.renumber renumbering.objects) :=
  rfl

@[simp]
theorem renumber_string (text : String) :
    (Value.string text).renumber renumbering = .string text :=
  rfl

@[simp]
theorem renumber_symbol (name : Name) :
    (Value.symbol name).renumber renumbering = .symbol name :=
  rfl

@[simp]
theorem renumber_keyword (name : Name) :
    (Value.keyword name).renumber renumbering = .keyword name :=
  rfl

@[simp]
theorem renumber_literal (text : String) :
    (Value.literal text).renumber renumbering = .literal text :=
  rfl

@[simp]
theorem renumber_primitive (procedure : Primitive) :
    (Value.primitive procedure).renumber renumbering = .primitive procedure :=
  rfl

@[simp]
theorem renumber_foreign (value : Foreign) :
    (Value.foreign value).renumber renumbering = .foreign value :=
  rfl

@[simp]
theorem renumber_sequence (identity : Option Identity) (bracket : Bracket) (items : List Value) :
    (sequence identity bracket items).renumber renumbering =
      .sequence (identity.map renumbering.identity) bracket (items.map (renumber renumbering)) := by
  rw [renumber, renumberAll_eq_map]

@[simp]
theorem renumber_closure (id : Nat) (parameters body : List Value) (frame : Nat) :
    (closure id parameters body frame).renumber renumbering =
      .closure (renumbering.objects id) (parameters.map (renumber renumbering))
        (body.map (renumber renumbering)) (renumbering.frames frame) := by
  rw [renumber, renumberAll_eq_map, renumberAll_eq_map]

@[simp]
theorem renumber_list (items : List Value) :
    (list items).renumber renumbering = list (items.map (renumber renumbering)) :=
  renumber_sequence none .round items

theorem numbered_renumber (number : Nat) (value : Value) :
    (Run.numbered number value).renumber renumbering =
      Run.numbered (renumbering.objects number) (value.renumber renumbering) := by
  cases value with
  | sequence identity bracket items =>
      cases identity with
      | none => rfl
      | some identity => cases identity <;> rfl
  | number value =>
      match value with
      | .int _ | .float (.undefined none) | .float (.undefined (some _)) | .float (.infinite _)
      | .float (.finite _ _) => rfl
  | _ => rfl

theorem numbersTaken_renumber (value : Value) :
    Run.numbersTaken (value.renumber renumbering) = Run.numbersTaken value := by
  cases value with
  | sequence identity bracket items => cases identity <;> rfl
  | number value =>
      match value with
      | .int _ | .float (.undefined none) | .float (.undefined (some _)) | .float (.infinite _)
      | .float (.finite _ _) => rfl
  | _ => rfl

/-- A new result refers to its number. -/
theorem Within.numbered {value : Value} {number : Nat} (within : value.Within allowed)
    (new : Run.numbersTaken value = 1 → allowed (.object number)) :
    (Run.numbered number value).Within allowed := by
  unfold Run.numbered
  split
  · refine within_sequence ?_ within.item
    rintro _ ⟨⟩
    exact new rfl
  · refine within_number ?_
    rintro _ ⟨⟩
    exact new rfl
  · exact within

/-- Nothing changes if the numbers that occur do not. -/
theorem renumber_eq_self {value : Value}
    (fixed : value.Within fun reference =>
      match reference with
      | .frame id => renumbering.frames id = id
      | .object id => renumbering.objects id = id) :
    value.renumber renumbering = value := by
  induction value with
  | number value =>
      rw [renumber_number, Number.renumber_eq_self]
      exact fun object made => fixed (.object object) (.number made)
  | sequence identity bracket items ih =>
      have same : items.map (renumber renumbering) = items :=
        (List.map_congr_left fun item member => ih item member (fixed.item item member)).trans
          (List.map_id items)
      rw [renumber_sequence, same]
      match identity with
      | none => rfl
      | some (.read _) => rfl
      | some (.made id) =>
          rw [Option.map_some, Renumbering.identity, fixed (.object id) .identity]
  | closure id parameters body frame ihParameters ihBody =>
      have sameParameters : parameters.map (renumber renumbering) = parameters :=
        (List.map_congr_left fun parameter member => ihParameters parameter member
          fun reference mentions => fixed reference (.parameter member mentions)).trans
          (List.map_id parameters)
      have sameBody : body.map (renumber renumbering) = body :=
        (List.map_congr_left fun form member => ihBody form member
          fun reference mentions => fixed reference (.body member mentions)).trans
          (List.map_id body)
      rw [renumber_closure, sameParameters, sameBody, fixed (.object id) .closure,
        fixed (.frame frame) .frame]
  | _ => rfl

theorem isTruthy_renumber (value : Value) :
    (value.renumber renumbering).isTruthy = value.isTruthy := by
  cases value <;> rfl

theorem render_renumber (style : Style) (value : Value) :
    (value.renumber renumbering).render style = value.render style := by
  induction value generalizing style with
  | number value => exact value.text_renumber
  | sequence identity bracket items ih =>
      have same : (items.map (renumber renumbering)).map (render style.ofItems) =
          items.map (render style.ofItems) := by
        rw [List.map_map]
        exact List.map_congr_left fun item member => ih item member _
      rw [renumber_sequence, render, render, renderAll_eq_map, renderAll_eq_map, same]
  | closure id parameters body frame ihParameters ihBody =>
      have same : (parameters.map (renumber renumbering)).map (render .shown) =
          parameters.map (render .shown) := by
        rw [List.map_map]
        exact List.map_congr_left fun parameter member => ihParameters parameter member _
      rw [renumber_closure, render, render, renderAll_eq_map, renderAll_eq_map, same]
  | _ => rfl

theorem obstacleAmong_map {depth : Nat} {items : List Value} {change : Value → Value}
    (same : ∀ item ∈ items, obstacle depth (change item) = obstacle depth item) :
    obstacleAmong depth (items.map change) = obstacleAmong depth items := by
  induction items with
  | nil => rfl
  | cons item rest ih =>
      rw [List.forall_mem_cons] at same
      rw [List.map_cons, obstacleAmong, obstacleAmong, same.1, ih same.2]

theorem obstacle_renumber (depth : Nat) (value : Value) :
    (value.renumber renumbering).obstacle depth = value.obstacle depth := by
  induction value generalizing depth with
  | number value => rw [renumber_number, obstacle, obstacle, value.exceedsDigitLimit_renumber]
  | sequence identity bracket items ih =>
      rw [renumber_sequence, obstacle, obstacle,
        obstacleAmong_map fun item member => ih item member _]
  | closure id parameters body frame ihParameters ihBody =>
      rw [renumber_closure, obstacle, obstacle,
        obstacleAmong_map fun parameter member => ihParameters parameter member _]
  | _ => rfl

theorem textWithin_renumber (depth : Nat) (style : Style) (value : Value) :
    (value.renumber renumbering).textWithin depth style = value.textWithin depth style := by
  rw [textWithin, textWithin, obstacle_renumber, render_renumber]

theorem showing_renumber (depth : Nat) (style : Style) (value : Value) (fault : String → Fault) :
    Fault.showing depth style (value.renumber renumbering) fault =
      Fault.showing depth style value fault := by
  rw [Fault.showing, Fault.showing, textWithin_renumber]

theorem same_literal_renumber (value : Value) (word : String) :
    (value.renumber renumbering).same (.literal word) = value.same (.literal word) := by
  cases value <;> rfl

theorem coincide_renumber {left right : Option Identity}
    (injective : ∀ first second, left = some (.made first) → right = some (.made second) →
      renumbering.objects first = renumbering.objects second → first = second) :
    Identity.coincide (left.map renumbering.identity) (right.map renumbering.identity) =
      Identity.coincide left right := by
  match left, right with
  | none, _ => rfl
  | some _, none => rfl
  | some (.read _), some (.read _) => rfl
  | some (.read _), some (.made _) => rfl
  | some (.made _), some (.read _) => rfl
  | some (.made first), some (.made second) =>
      have injective := injective first second rfl rfl
      simp only [Identity.coincide, Option.map_some, Renumbering.identity, Identity.made.injEq]
      exact decide_eq_decide.mpr ⟨injective, congrArg renumbering.objects⟩

theorem equalItemsWithin_map {depth : Nat} {items others : List Value} {change : Value → Value}
    (same : ∀ item ∈ items, ∀ other ∈ others,
      equalWithin depth (change item) (change other) = equalWithin depth item other) :
    equalItemsWithin depth (items.map change) (others.map change) =
      equalItemsWithin depth items others := by
  induction items generalizing others with
  | nil => rfl
  | cons item items ih =>
      cases others with
      | nil => rfl
      | cons other others =>
          have first := same item (by simp) other (by simp)
          have rest := @ih others fun item member other otherMember =>
            same item (by simp [member]) other (by simp [otherMember])
          simp only [List.map_cons, equalItemsWithin, first, rest]

/-- Comparing values that have been given other numbers comes out as before. -/
theorem equalWithin_renumber (separates : renumbering.Separates allowed) (depth : Nat)
    {left right : Value} (leftWithin : left.Within allowed) (rightWithin : right.Within allowed) :
    equalWithin depth (left.renumber renumbering) (right.renumber renumbering) =
      equalWithin depth left right := by
  induction left generalizing depth right with
  | number left =>
      cases right with
      | number right =>
          have one := Number.coincide_renumber fun first second made other =>
            separates.objects first second (leftWithin _ (.number made))
              (rightWithin _ (.number other))
          simp only [renumber_number, equalWithin, equal, one, Number.eq_renumber]
      | _ => rfl
  | sequence identity bracket items ih =>
      cases right with
      | sequence otherIdentity otherBracket others =>
          have coincide := @coincide_renumber renumbering identity otherIdentity ?_
          have inside (room : Nat) := @equalItemsWithin_map room items others (renumber renumbering)
            fun item member other otherMember => ih item member room (leftWithin.item item member)
              (rightWithin.item other otherMember)
          · simp only [renumber_sequence, equalWithin, coincide, inside, List.length_map]
          · rintro first second rfl rfl
            exact separates.objects first second (leftWithin _ .identity) (rightWithin _ .identity)
      | _ => rfl
  | closure id parameters body frame =>
      cases right with
      | closure otherId otherParameters otherBody otherFrame =>
          have same : renumbering.objects id = renumbering.objects otherId ↔ id = otherId :=
            ⟨separates.objects id otherId (leftWithin _ .closure) (rightWithin _ .closure),
              congrArg renumbering.objects⟩
          simp only [renumber_closure, equalWithin, equal, same]
      | _ => rfl
  | _ => cases right <;> rfl

end

end Value

end TinyLisp
