import TinyLisp.Proofs.Evaluation.Budget

/-!
# What a `cond` means

The clauses of a `cond` are tried from left to right: the action of the first clause whose predicate
is true is evaluated, and nothing after it. A `cond` is evaluated as nested `if` forms; these do the
same, whatever is bound to the names in them. Every nested form takes two more activations, so the
two agree as long as the budget lasts.
-/

namespace TinyLisp

/-- A predicate and the action that it selects. -/
structure Clause where
  predicate : Value
  action : Value

namespace Clause

def operands : List Clause → List Value
  | [] => []
  | clause :: rest => clause.predicate :: clause.action :: operands rest

/-- The `else` mark is the predicate of no clause but the last. -/
def ElseLast (clauses : List Clause) : Prop :=
  ∀ clause ∈ clauses.dropLast, isElse clause.predicate = false

/-- Tries clauses one after the other. A predicate that is the `else` mark is not evaluated. -/
def select (evaluator : Value → Run Value) : List Clause → Run Value
  | [] => return .ofBool false
  | clause :: rest => do
      if isElse clause.predicate then evaluator clause.action
      else if (← evaluator clause.predicate).isTruthy then evaluator clause.action
      else select evaluator rest

/-- Clauses as nested `if` forms. -/
def nested : List Clause → Value
  | [] => .ofBool false
  | clause :: rest =>
      if isElse clause.predicate then clause.action
      else .list [.named "if", clause.predicate, clause.action, nested rest]

theorem length_operands (clauses : List Clause) :
    (operands clauses).length = 2 * clauses.length := by
  induction clauses with
  | nil => rfl
  | cons clause rest ih =>
      simp only [operands, List.length_cons, ih]
      omega

theorem exists_operands {forms : List Value} (even : forms.length % 2 = 0) :
    ∃ clauses, forms = operands clauses := by
  induction forms using expandClauses.induct with
  | case1 => exact ⟨[], rfl⟩
  | case2 form => cases even
  | case3 predicate action rest ih =>
      simp only [List.length_cons] at even
      obtain ⟨clauses, rfl⟩ := ih (by omega)
      exact ⟨⟨predicate, action⟩ :: clauses, rfl⟩

theorem elseLast_cons_cons {clause next : Clause} {rest : List Clause} :
    ElseLast (clause :: next :: rest) ↔
      isElse clause.predicate = false ∧ ElseLast (next :: rest) := by
  simp [ElseLast]

theorem expandClauses_of_elseLast {clauses : List Clause} (last : ElseLast clauses) :
    expandClauses (operands clauses) = .ok (nested clauses) := by
  induction clauses with
  | nil => rfl
  | cons clause rest ih =>
      cases rest with
      | nil =>
          simp only [operands, expandClauses, nested]
          split <;> rfl
      | cons next rest =>
          obtain ⟨unmarked, others⟩ := elseLast_cons_cons.mp last
          have outermost : nested (clause :: next :: rest) = .list
              [.named "if", clause.predicate, clause.action, nested (next :: rest)] := by
            rw [nested, if_neg (by simp [unmarked])]
          rw [operands, expandClauses, ih others, unmarked, outermost]
          rfl

theorem expandClauses_of_not_elseLast {clauses : List Clause} (misplaced : ¬ ElseLast clauses) :
    expandClauses (operands clauses) = .error .elseNotLast := by
  induction clauses with
  | nil => exact absurd (by simp [ElseLast]) misplaced
  | cons clause rest ih =>
      cases rest with
      | nil => exact absurd (by simp [ElseLast]) misplaced
      | cons next rest =>
          rw [operands, expandClauses]
          by_cases last : ElseLast (next :: rest)
          · have marked : isElse clause.predicate = true := by
              simpa [elseLast_cons_cons, last] using misplaced
            rw [expandClauses_of_elseLast last, marked]
            rfl
          · rw [ih last]
            rfl

theorem expandClauses_odd {forms : List Value} (odd : forms.length % 2 = 1) :
    expandClauses forms = .error .oddCount := by
  induction forms using expandClauses.induct with
  | case1 => cases odd
  | case2 form => rfl
  | case3 predicate action rest ih =>
      simp only [List.length_cons] at odd
      rw [expandClauses, ih (by omega)]
      rfl

end Clause

namespace Evaluation

open Run

variable {less more : Nat} {frame : Nat} {clauses : List Clause}

theorem run_cond {form : Value} (depth : Nat) (identity : Option Identity)
    {operands : List Value} (expands : expandClauses operands = .ok form) (frame : Nat) :
    run (depth + 2) (.form (.sequence identity .round (.named "cond" :: operands)) frame) =
      run depth (.form form frame) := by
  change (ofExcept (ShapedForm.ofOperands depth .clauses operands) >>= fun shaped =>
    perform depth (run depth) shaped frame) = _
  rw [ShapedForm.ofOperands, expands]
  rfl

theorem run_cond_error {fault : ClauseFault} (depth : Nat) (identity : Option Identity)
    {operands : List Value} (failed : expandClauses operands = .error fault) (frame : Nat) :
    run (depth + 2) (.form (.sequence identity .round (.named "cond" :: operands)) frame) =
      throw (.clauses fault) := by
  change (ofExcept (ShapedForm.ofOperands depth .clauses operands) >>= fun shaped =>
    perform depth (run depth) shaped frame) = _
  rw [ShapedForm.ofOperands, failed]
  rfl

theorem run_if (depth : Nat) (test consequent alternative : Value) (frame : Nat) :
    run (depth + 2) (.form (.list [.named "if", test, consequent, alternative]) frame) =
      (do
        if (← run depth (.form test frame)).isTruthy then run depth (.form consequent frame)
        else run depth (.form alternative frame)) :=
  rfl

theorem select_stopsShortOf {cut whole : Value → Run Value}
    (inner : ∀ form, (cut form).StopsShortOf (whole form)) (clauses : List Clause) :
    (Clause.select cut clauses).StopsShortOf (Clause.select whole clauses) := by
  induction clauses with
  | nil => exact stopsShortOf_pure _
  | cons clause rest ih =>
      rw [Clause.select, Clause.select]
      split
      · exact inner clause.action
      · refine (inner clause.predicate).bind fun value => ?_
        split
        · exact inner clause.action
        · exact ih

/-- The nested forms do what trying the clauses does with no smaller budget, or stop short of it. -/
theorem nested_stopsShortOf_select (le : less ≤ more) (clauses : List Clause) :
    (run less (.form (Clause.nested clauses) frame)).StopsShortOf
      (Clause.select (evaluate more · frame) clauses) := by
  induction clauses generalizing less with
  | nil =>
      cases less with
      | zero => exact throw_stopsShortOf (stopsShortOf_pure _)
      | succ less => exact stopsShortOf_pure _
  | cons clause rest ih =>
      have itself := select_stopsShortOf
        (fun form => run_stopsShortOf (Nat.le_refl more) (.form form frame)) (clause :: rest)
      by_cases marked : isElse clause.predicate
      · rw [Clause.nested, Clause.select, if_pos marked, if_pos marked]
        exact run_stopsShortOf le (.form clause.action frame)
      · rw [Clause.nested, if_neg marked]
        match less with
        | 0 | 1 => exact throw_stopsShortOf itself
        | less + 2 =>
            have smaller : less ≤ more := by omega
            rw [run_if, Clause.select, if_neg marked]
            refine (run_stopsShortOf smaller _).bind fun value => ?_
            split
            · exact run_stopsShortOf smaller (.form clause.action frame)
            · exact ih smaller

/-- Trying the clauses does what the nested forms do with two more activations for each of them, or
stops short of it. -/
theorem select_stopsShortOf_nested (le : less ≤ more) (clauses : List Clause) :
    (Clause.select (evaluate less · frame) clauses).StopsShortOf
      (run (more + 2 * clauses.length + 1) (.form (Clause.nested clauses) frame)) := by
  induction clauses with
  | nil => exact stopsShortOf_pure _
  | cons clause rest ih =>
      by_cases marked : isElse clause.predicate
      · rw [Clause.nested, Clause.select, if_pos marked, if_pos marked]
        exact run_stopsShortOf (by omega) (.form clause.action frame)
      · have inner : less ≤ more + 2 * rest.length + 1 := by omega
        rw [Clause.nested, Clause.select, if_neg marked, if_neg marked, List.length_cons,
          show more + 2 * (rest.length + 1) + 1 = more + 2 * rest.length + 1 + 2 by omega, run_if]
        refine (run_stopsShortOf inner _).bind fun value => ?_
        split
        · exact run_stopsShortOf inner (.form clause.action frame)
        · exact ih

/-- What a `cond` does is to try its clauses, as long as the budget lasts. -/
theorem cond_stopsShortOf_select (depth : Nat) (identity : Option Identity)
    (last : Clause.ElseLast clauses) :
    (evaluate depth (.sequence identity .round (.named "cond" :: Clause.operands clauses))
      frame).StopsShortOf (Clause.select (evaluate depth · frame) clauses) := by
  have itself := select_stopsShortOf
    (fun form => run_stopsShortOf (Nat.le_refl depth) (.form form frame)) clauses
  match depth with
  | 0 | 1 => exact throw_stopsShortOf itself
  | depth + 2 =>
      rw [evaluate, run_cond depth identity (Clause.expandClauses_of_elseLast last)]
      exact nested_stopsShortOf_select (by omega) clauses

theorem select_stopsShortOf_cond {depth enough : Nat} (identity : Option Identity)
    (last : Clause.ElseLast clauses) (le : depth + 2 * clauses.length + 3 ≤ enough) :
    (Clause.select (evaluate depth · frame) clauses).StopsShortOf
      (evaluate enough (.sequence identity .round (.named "cond" :: Clause.operands clauses))
        frame) := by
  obtain ⟨room, rfl⟩ := Nat.exists_eq_add_of_le le
  rw [evaluate, show depth + 2 * clauses.length + 3 + room =
    depth + room + 2 * clauses.length + 1 + 2 by omega,
    run_cond _ identity (Clause.expandClauses_of_elseLast last)]
  exact select_stopsShortOf_nested (Nat.le_add_right depth room) clauses

/-- A `cond` whose operands are clauses with no `else` mark but in the last one does what trying the
clauses from left to right does, as long as the budget lasts: if one of them has enough, the other
ends in the same way and leaves the same session, when it has enough for the rewriting as well. With
any other operands it fails before anything happens. None of this depends on what is bound. -/
theorem evaluate_cond (identity : Option Identity) (forms : List Value) (frame : Nat)
    (session : Session) :
    let cond (depth : Nat) :=
      (evaluate depth (.sequence identity .round (.named "cond" :: forms)) frame).outcome session
    (∀ clauses, forms = Clause.operands clauses → Clause.ElseLast clauses →
      let select (depth : Nat) :=
        (Clause.select (evaluate depth · frame) clauses).outcome session
      (∀ depth, (cond depth).1 ≠ .error .depthExceeded → select depth = cond depth) ∧
        ∀ depth enough, (select depth).1 ≠ .error .depthExceeded →
          depth + 2 * clauses.length + 3 ≤ enough → cond enough = select depth) ∧
      ((∀ clauses, forms = Clause.operands clauses → ¬ Clause.ElseLast clauses) →
        ∃ fault, (Fault.clauses fault).kind = .malformedCond ∧
          (fault = .oddCount ↔ forms.length % 2 = 1) ∧
          ∀ depth, cond (depth + 2) = (.error (.clauses fault), session)) := by
  intro cond
  refine ⟨?_, fun malformed => ?_⟩
  · rintro clauses rfl last select
    refine ⟨fun depth => ?_, fun depth enough ends le => ?_⟩
    · exact (cond_stopsShortOf_select depth identity last session).outcome_eq
    · exact (select_stopsShortOf_cond identity last le session).outcome_eq ends
  · have failing {fault : ClauseFault} (failed : expandClauses forms = .error fault) (depth : Nat) :
        cond (depth + 2) = (.error (.clauses fault), session) := by
      simp only [cond, evaluate, run_cond_error depth identity failed, outcome_throw]
    rcases Nat.mod_two_eq_zero_or_one forms.length with even | odd
    · obtain ⟨clauses, rfl⟩ := Clause.exists_operands even
      have failed := Clause.expandClauses_of_not_elseLast (malformed clauses rfl)
      exact ⟨.elseNotLast, rfl, by simp [even], failing failed⟩
    · exact ⟨.oddCount, rfl, by simp [odd], failing (Clause.expandClauses_odd odd)⟩

/-- With other values bound to `if` and `else`, a predicate prints and is not true, its action is
not evaluated, and the last clause is selected. A single operand is an error at once. -/
theorem evaluate_cond_shadowed :
    let session : Session :=
      ⟨(Heap.empty.newFrame none [(.plain "if", .nil), (.plain "else", .nil),
        (.plain "println", .primitive (.builtin .println))]).2, 0, 0, "", []⟩
    let print : Value := .list [.named "println", .nil]
    let clauses : List Clause := [⟨print, .named "x"⟩, ⟨.named "else", .ofBool true⟩]
    let cond (depth : Nat) (forms : List Value) :=
      (evaluate depth (.list (.named "cond" :: forms)) 0).outcome session
    (cond 20 (Clause.operands clauses)).1 = .ok (.ofBool true) ∧
      (cond 20 (Clause.operands clauses)).2.printed = "nil\n" ∧
      (Clause.select (evaluate 20 · 0) clauses).outcome session =
        cond 20 (Clause.operands clauses) ∧
      cond 2 [print] = (.error (.clauses .oddCount), session) := by
  intro session print clauses cond
  have ends : (cond 20 (Clause.operands clauses)).1 = .ok (.ofBool true) := rfl
  have last : Clause.ElseLast clauses := by
    intro clause member
    obtain rfl := List.mem_singleton.mp member
    rfl
  refine ⟨ends, rfl, ?_, ?_⟩
  · have agree := (evaluate_cond none (Clause.operands clauses) 0 session).1 clauses rfl last
    exact agree.1 20 fun exhausted => by cases ends.symm.trans exhausted
  · have single (clauses : List Clause) (same : [print] = Clause.operands clauses) : False := by
      have lengths := congrArg List.length same
      rw [Clause.length_operands, List.length_singleton] at lengths
      omega
    obtain ⟨fault, -, odd, failed⟩ := (evaluate_cond none [print] 0 session).2
      fun clauses same => (single clauses same).elim
    rw [odd.mpr rfl] at failed
    exact failed 0

end Evaluation

end TinyLisp
