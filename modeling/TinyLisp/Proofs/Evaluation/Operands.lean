import TinyLisp.Proofs.Evaluation.Checking

/-!
# Where the errors of special forms come from

A special form evaluates some of its operands, one after the other, and stops with the first error.
If the operands fit, there is no other error but one: `set!` needs a binding for its name. Forms
that evaluate no operand have none at all.
-/

namespace TinyLisp

namespace Evaluation

open SpecialForm

/-- Evaluating forms one after the other succeeds and leads from a session to another. -/
inductive Succeeds (depth frame : Nat) : List Value → Session → Session → Prop
  | nil (session : Session) : Succeeds depth frame [] session session
  | cons {form value : Value} {rest : List Value} {session middle after : Session}
      (ends : (evaluate depth form frame).outcome session = (.ok value, middle))
      (others : Succeeds depth frame rest middle after) :
      Succeeds depth frame (form :: rest) session after

/-- Evaluating one of some operands fails, after others in front of it have been evaluated. -/
structure FailsWithin (depth frame : Nat) (operands : List Value) (session : Session)
    (fault : Fault) (after : Session) : Prop where
  fails : ∃ earlier operand middle, (earlier ++ [operand]).Sublist operands ∧
    Succeeds depth frame earlier session middle ∧
    (evaluate depth operand frame).outcome middle = (.error fault, after)

/-- The value of an assignment has been evaluated, but nothing binds the name. -/
structure LacksBinding (depth frame : Nat) (operands : List Value) (session : Session)
    (fault : Fault) (after : Session) : Prop where
  kind : fault.kind = .unboundVariable
  lacks : ∃ name form value, operands = [.symbol name, form] ∧
    (evaluate depth form frame).outcome session = (.ok value, after) ∧
    after.heap.findName frame name = none

variable {less depth frame : Nat} {operands forms : List Value} {form value : Value}
  {session middle after : Session} {fault : Fault} {special : SpecialForm} {head : Value}
  {identity : Option Identity} {result : Except Fault Value}

theorem FailsWithin.first (member : form ∈ operands)
    (ends : (evaluate depth form frame).outcome session = (.error fault, after)) :
    FailsWithin depth frame operands session fault after :=
  ⟨[], form, session, List.singleton_sublist.mpr member, .nil session, ends⟩

theorem FailsWithin.later (ends : (evaluate depth form frame).outcome session = (.ok value, middle))
    (fails : FailsWithin depth frame forms middle fault after) :
    FailsWithin depth frame (form :: forms) session fault after := by
  obtain ⟨earlier, operand, last, among, succeeds, failed⟩ := fails
  exact ⟨form :: earlier, operand, last, among.cons_cons form, .cons ends succeeds, failed⟩

theorem evaluate_of_run (le : less ≤ depth)
    (ends : (run less (.form form frame)).outcome session = (result, after))
    (spent : result ≠ .error .depthExceeded) :
    (evaluate depth form frame).outcome session = (result, after) := by
  have same := (run_stopsShortOf le (.form form frame) session).outcome_eq (by rwa [ends])
  rw [evaluate, same, ends]

theorem run_special {shaped : ShapedForm} (heads : ofHead? head = some special)
    (shape : ∀ depth, ShapedForm.ofOperands depth special operands = .ok shaped) (depth : Nat) :
    run (depth + 2) (.form (.sequence identity .round (head :: operands)) frame) =
      perform depth (run depth) shaped frame := by
  simp only [run, step, heads, shape]
  rfl

theorem run_application (ordinary : ofHead? head = none) (depth : Nat) :
    run (depth + 1) (.form (.sequence identity .round (head :: operands)) frame) = (do
      let procedure ← run depth (.form head frame)
      let arguments ← evaluateArguments (run depth) frame operands
      run depth (.apply procedure arguments)) := by
  simp only [run, step, ordinary]

/-- A computation that starts with evaluating an operand fails there or later. -/
theorem failsWithin_or_later (le : less ≤ depth) (member : form ∈ operands)
    {next : Value → Run Value}
    (failed : (run less (.form form frame) >>= next).outcome session = (.error fault, after))
    (spent : fault ≠ .depthExceeded) :
    FailsWithin depth frame operands session fault after ∨
      ∃ value middle, (evaluate depth form frame).outcome session = (.ok value, middle) ∧
        (next value).outcome middle = (.error fault, after) := by
  rw [Run.outcome_bind] at failed
  cases ends : (run less (.form form frame)).outcome session with
  | mk result middle =>
      rw [ends] at failed
      cases result with
      | ok value => exact .inr ⟨value, middle, evaluate_of_run le ends nofun, failed⟩
      | error other =>
          cases failed
          exact .inl (.first member (evaluate_of_run le ends (by simpa using spent)))

theorem failsWithin_of_run (le : less ≤ depth) (member : form ∈ operands)
    (failed : (run less (.form form frame)).outcome session = (.error fault, after))
    (spent : fault ≠ .depthExceeded) : FailsWithin depth frame operands session fault after :=
  .first member (evaluate_of_run le failed (by simpa using spent))

theorem failsWithin_of_inTurn (le : less ≤ depth) (filled : forms ≠ [])
    (failed : (inTurn (run less) frame forms).outcome session = (.error fault, after))
    (spent : fault ≠ .depthExceeded) : FailsWithin depth frame forms session fault after := by
  induction forms generalizing session with
  | nil => exact absurd rfl filled
  | cons form rest ih =>
      cases rest with
      | nil => exact failsWithin_of_run le List.mem_cons_self failed spent
      | cons next rest =>
          rcases failsWithin_or_later le List.mem_cons_self failed spent with
            first | ⟨value, middle, ends, later⟩
          · exact first
          · exact .later ends (ih nofun later)

theorem lacks_of_assign {name : Name}
    (failed : (do
      Run.assign less frame (.symbol name) value
      return .named "ok" : Run Value).outcome middle = (.error fault, after)) :
    after = middle ∧ fault.kind = .unboundVariable ∧ middle.heap.findName frame name = none := by
  rw [Run.outcome_bind, Run.outcome_assign, Heap.target] at failed
  cases found : middle.heap.findName frame name with
  | some owner =>
      rw [found] at failed
      cases failed
  | none =>
      rw [found] at failed
      cases failed
      exact ⟨rfl, rfl, rfl⟩

theorem failsWithin_of_condition (le : less ≤ depth) {test consequent : Value}
    {alternative : Option Value}
    (failed : (perform less (run less) (.condition test consequent alternative) frame).outcome
      session = (.error fault, after)) (spent : fault ≠ .depthExceeded) :
    FailsWithin depth frame (test :: consequent :: alternative.toList) session fault after := by
  rcases failsWithin_or_later le List.mem_cons_self failed spent with
    first | ⟨value, middle, ends, later⟩
  · exact first
  · refine .later ends ?_
    split at later
    · exact failsWithin_of_run le List.mem_cons_self later spent
    · cases alternative with
      | some form => exact failsWithin_of_run le (by simp) later spent
      | none => cases later

/-- If the operands fit, a form fails only if evaluating one of them does, or if it is an assignment
to a name without a binding. -/
theorem fails_of_fits (heads : ofHead? head = some special) (fits : special.Fits operands)
    (failed : (evaluate depth (.sequence identity .round (head :: operands)) frame).outcome session =
      (.error fault, after)) (spent : fault ≠ .depthExceeded) :
    FailsWithin depth frame operands session fault after ∨
      special = .assignment ∧ LacksBinding depth frame operands session fault after := by
  by_cases unevaluated : special ∈ [.quote, .function, .functionDefinition]
  · obtain ⟨value, last, ends⟩ :=
      @endsIn_succeeds identity _ _ _ heads fits unevaluated frame session
    rcases ends.settles.ends depth with succeeds | exhausted
    · cases failed.symm.trans succeeds
    · cases failed.symm.trans exhausted
      exact absurd rfl spent
  match depth with
  | 0 =>
      cases failed
      exact absurd rfl spent
  | 1 =>
      simp only [evaluate, run, step, heads] at failed
      cases failed
      exact absurd rfl spent
  | depth + 2 =>
      have le : depth ≤ depth + 2 := Nat.le_add_right depth 2
      rw [evaluate] at failed
      cases fits with
      | quote | function | functionDefinition | describedDefinition => simp at unevaluated
      | assignment name form =>
          rw [run_special heads fun _ => rfl] at failed
          have member : form ∈ [.symbol name, form] :=
            List.mem_cons_of_mem _ List.mem_cons_self
          rcases failsWithin_or_later le member failed spent with
            first | ⟨value, middle, ends, later⟩
          · exact .inl first
          · obtain ⟨rfl, kind, lacks⟩ := lacks_of_assign later
            exact .inr ⟨rfl, kind, name, form, value, rfl, ends, lacks⟩
      | definition name form =>
          rw [run_special heads fun _ => rfl] at failed
          have member : form ∈ [.symbol name, form] :=
            List.mem_cons_of_mem _ List.mem_cons_self
          rcases failsWithin_or_later le member failed spent with
            first | ⟨value, middle, ends, later⟩
          · exact .inl first
          · cases later
      | shortCondition test consequent =>
          rw [run_special heads fun _ => rfl] at failed
          exact .inl (failsWithin_of_condition le failed spent)
      | fullCondition test consequent alternative =>
          rw [run_special heads fun _ => rfl] at failed
          exact .inl (failsWithin_of_condition le failed spent)
      | sequence form rest =>
          rw [run_special heads fun _ => rfl] at failed
          cases depth with
          | zero =>
              cases failed
              exact absurd rfl spent
          | succ depth =>
              have filled : form :: rest ≠ [] := List.cons_ne_nil form rest
              exact .inl (failsWithin_of_inTurn (by omega) filled failed spent)

/-- The activation evaluates some form. -/
def EvaluatesAny (activation : Activation) : Prop :=
  ∃ form frame, activation = .form form frame

/-- The operands of a special form of the program text are checked first. If they do not fit, the
form is malformed, nothing has changed, and no operand has been evaluated: a run that is watched for
that ends in the same way. If they fit, then `quote`, `fn` and `defn` succeed, and the other forms
fail only if evaluating an operand does, or if an assignment finds no binding when it has its value.
A small budget may run out before.

A closure is given the arguments first as well. If their count is not that of its parameters, the
call fails in the session that evaluating the operands has left, without evaluating any form; and
never with these counts otherwise. -/
theorem evaluate_checked (frame : Nat) (session : Session) :
    (∀ identity head operands special, ofHead? head = some special → special ≠ .clauses →
      (∀ operand ∈ operands, operand.Plain) →
      let form : Value := .sequence identity .round (head :: operands)
      let outcome (depth : Nat) := (evaluate depth form frame).outcome session
      (¬ special.Fits operands → ∃ cause : ShapeFault,
        (Fault.shape cause).kind = .malformedForm ∧
          Settles outcome (.error .depthExceeded, session) (.error (.shape cause), session) ∧
          ∀ fault, EndsIn (fun activation _ => Evaluates operands activation) fault
            (.form form frame) session (.error (.shape cause), session)) ∧
      (special.Fits operands →
        (special ∈ [.quote, .function, .functionDefinition] → ∃ value after,
          Settles outcome (.error .depthExceeded, session) (.ok value, after)) ∧
        ∀ depth fault after, outcome depth = (.error fault, after) → fault ≠ .depthExceeded →
          FailsWithin depth frame operands session fault after ∨
            special = .assignment ∧ LacksBinding depth frame operands session fault after)) ∧
    ∀ identity head operands id parameters body outer arguments depth middle last,
      ofHead? head = none →
      (run (depth + 2) (.form head frame)).outcome session =
        (.ok (.closure id parameters body outer), middle) →
      (evaluateArguments (run (depth + 2)) frame operands).outcome middle = (.ok arguments, last) →
      let outcome :=
        (evaluate (depth + 3) (.sequence identity .round (head :: operands)) frame).outcome session
      (outcome.1 = .error (.arity parameters.length arguments.length "") ↔
          parameters.length ≠ arguments.length) ∧
        (parameters.length ≠ arguments.length → outcome.2 = last ∧
          ∀ fault, (runUnless (fun activation _ => EvaluatesAny activation) fault (depth + 2)
            (.apply (.closure id parameters body outer) arguments)).outcome last = outcome) := by
  refine ⟨?_, ?_⟩
  · intro identity head operands special heads ordinary plain form outcome
    refine ⟨fun unfit => ?_, fun fits => ⟨fun unevaluated => ?_, fun depth fault after => ?_⟩⟩
    · obtain ⟨cause, ends⟩ := endsIn_malformed heads ordinary plain unfit frame session
      have alone := ends (fun _ _ => False) .depthExceeded fun _ => False.elim
      exact ⟨cause, rfl, alone.settles, fun fault => ends _ fault fun _ => id⟩
    · obtain ⟨value, after, ends⟩ := endsIn_succeeds heads fits unevaluated frame session
      exact ⟨value, after, ends.settles⟩
    · exact fails_of_fits heads fits
  · intro identity head operands id parameters body outer arguments depth middle last ordinary
      procedure values outcome
    have applies : outcome =
        (run (depth + 2) (.apply (.closure id parameters body outer) arguments)).outcome last := by
      simp only [outcome, evaluate, run_application ordinary]
      rw [Run.outcome_bind_ok procedure, Run.outcome_bind_ok values]
    have fails (differ : parameters.length ≠ arguments.length) :
        outcome = (.error (.arity parameters.length arguments.length ""), last) := by
      rw [applies, run_eq_runUnless .depthExceeded]
      exact outcome_apply_of_ne id outer differ not_false not_false depth
    refine ⟨⟨fun failed same => ?_, fun differ => by rw [fails differ]⟩, fun differ => ?_⟩
    · have counts := run_differs (depth + 3) _ session _ failed
      exact counts _ _ _ rfl (congrArg Int.ofNat same)
    · refine ⟨by rw [fails differ], fun fault => ?_⟩
      rw [fails differ]
      refine outcome_apply_of_ne id outer differ ?_ ?_ depth <;> rintro ⟨_, _, ⟨⟩⟩

/-- An assignment to a literal does not print. A sequence stops at a name without a binding. A
closure with one parameter is called without arguments. -/
theorem evaluate_checked_println :
    let session : Session :=
      ⟨(Heap.empty.newFrame none [(.plain "println", .primitive (.builtin .println))]).2, 0, 0, "",
        []⟩
    let print : Value := .list [.named "println", .nil]
    let closure : Value := .list [.named "fn", .sequence none .square [.named "x"], print]
    (∃ cause : ShapeFault, Settles
      (fun depth => (evaluate depth (.list [.named "set!", .nil, print]) 0).outcome
        session)
      (.error .depthExceeded, session) (.error (.shape cause), session)) ∧
    FailsWithin 9 0 [.nil, .named "y", print] session (.unbound "y") session ∧
    ((evaluate 9 (.list [closure]) 0).outcome session).1 = .error (.arity 1 0 "") := by
  intro session print closure
  obtain ⟨special, call⟩ := evaluate_checked 0 session
  have nilPlain : Value.nil.Plain := ⟨.literal (by decide), nofun⟩
  have printPlain : print.Plain :=
    .sequence none .round (by simp [nilPlain, Value.named, Value.Plain.symbol])
  refine ⟨?_, ?_, ?_⟩
  · have rejected := (special none (.named "set!") [.nil, print] .assignment rfl nofun
      (by simp [nilPlain, printPlain])).1 nofun
    obtain ⟨cause, -, settles, -⟩ := rejected
    exact ⟨cause, settles⟩
  · have accepted := (special none (.named "do") [.nil, .named "y", print] .sequence rfl nofun
      (by simp [nilPlain, printPlain, Value.named, Value.Plain.symbol])).2 (.sequence _ _)
    rcases accepted.2 9 (.unbound "y") session rfl nofun with fails | ⟨assigns, -⟩
    · exact fails
    · cases assigns
  · have ends := call none closure [] 0 [.named "x"] [print] 0 [] 6
      { session with objectsMade := 1 } { session with objectsMade := 1 } rfl rfl rfl
    exact ends.1.mpr nofun

end Evaluation

end TinyLisp
