import TinyLisp.Proofs.Evaluation.Faults
import TinyLisp.Proofs.Evaluation.Settling

/-!
# Counts of arguments

A closure takes as many arguments as it has parameters. With any other count the call fails before
the body is entered. No run fails in this way with counts that are the same.
-/

namespace TinyLisp

namespace Run

variable {α β : Type} {allowed : Fault → Prop}

/-- The computation fails in allowed ways only, whatever the session is. -/
def FailsOnly (allowed : Fault → Prop) (computation : Run α) : Prop :=
  ∀ session fault, (computation.outcome session).1 = .error fault → allowed fault

theorem failsOnly_pure (value : α) : (pure value : Run α).FailsOnly allowed := by
  rintro session fault ⟨⟩

theorem failsOnly_throw {fault : Fault} (holds : allowed fault) :
    (throw fault : Run α).FailsOnly allowed := by
  rintro session _ ⟨⟩
  exact holds

theorem failsOnly_ofExcept {result : Except Fault α}
    (holds : ∀ fault, result = .error fault → allowed fault) :
    (ofExcept result).FailsOnly allowed := by
  intro session fault failed
  rw [outcome_ofExcept] at failed
  exact holds fault failed

theorem FailsOnly.bind {computation : Run α} {next : α → Run β}
    (first : computation.FailsOnly allowed) (rest : ∀ value, (next value).FailsOnly allowed) :
    (computation >>= next).FailsOnly allowed := by
  intro session fault failed
  have fails := first session
  rw [outcome_bind] at failed
  generalize computation.outcome session = ended at failed fails
  obtain ⟨result, middle⟩ := ended
  cases result with
  | ok value => exact rest value middle fault failed
  | error other =>
      cases failed
      exact fails _ rfl

end Run

namespace ShapedForm

variable {depth : Nat} {operands : List Value} {fault : Fault}

/-- The faults that the check of operands ends in. -/
inductive Fails : Fault → Prop
  | shape (cause : ShapeFault) : Fails (.shape cause)
  | clauses (cause : ClauseFault) : Fails (.clauses cause)
  | depthExceeded : Fails .depthExceeded
  | tooManyDigits : Fails .tooManyDigits

theorem fails_showing (style : Style) (value : Value) (cause : String → ShapeFault) :
    Fails (Fault.showing depth style value (.shape ∘ cause)) :=
  Fault.showing_holds .depthExceeded (fun _ => .shape _) fun _ => .tooManyDigits

/-- The check of operands fails on their shape, or on the text of the message. -/
theorem fails_of_ofOperands {special : SpecialForm}
    (failed : ofOperands depth special operands = .error fault) : Fails fault := by
  cases refuses_of_ofOperands failed with
  | quote | assignment | definition | functionName | condition | noParameters | noBody =>
      exact .shape _
  | assignmentTarget | definitionName | functionParameters | parametersNotVector
  | parameterNotSymbol => exact fails_showing _ _ _
  | clauses => exact .clauses _

end ShapedForm

namespace Fault

/-- If the fault is one of the count of arguments, the counts differ. -/
def Differs (fault : Fault) : Prop :=
  ∀ expected given procedure, fault = .arity expected given procedure → expected ≠ given

variable {depth : Nat}

theorem differs_showing (style : Style) (value : Value) {shown : String → Fault}
    (differs : ∀ text, (shown text).Differs) : (showing depth style value shown).Differs :=
  @showing_holds Differs depth nofun style value shown differs fun _ => nofun

theorem differs_ofHeap {heapFault : HeapFault}
    (differs : ∀ expected given, heapFault = .arity expected given → expected ≠ given) :
    (ofHeap depth heapFault).Differs := by
  cases heapFault with
  | unbound key => exact differs_showing _ key fun _ => nofun
  | unboundTarget key => exact differs_showing _ key fun _ => nofun
  | undefinable key => exact differs_showing _ key fun _ => nofun
  | arity expected given =>
      rintro _ _ _ ⟨⟩
      exact fun same => differs expected given rfl (Int.ofNat.inj same)

theorem differs_of_ofOperands {special : SpecialForm} {operands : List Value} {fault : Fault}
    (failed : ShapedForm.ofOperands depth special operands = .error fault) : fault.Differs := by
  cases ShapedForm.fails_of_ofOperands failed <;> nofun

theorem differs_of_call {procedure : Primitive} {arguments : List Value} {fault : Fault}
    (failed : procedure.call depth arguments = .error fault) : fault.Differs := by
  cases procedure with
  | builtin procedure => cases Builtin.fails_of_call failed <;> nofun
  | failing id name kind message =>
      cases failed
      nofun

end Fault

namespace Evaluation

open Run Fault

variable {depth : Nat}

theorem lookup_differs (frame : Nat) (key : Value) :
    (Run.lookup depth frame key).FailsOnly Differs := by
  intro session fault failed
  rw [outcome_lookup] at failed
  cases found : session.heap.lookup frame key with
  | ok value =>
      rw [found] at failed
      cases failed
  | error heapFault =>
      rw [found] at failed
      cases failed
      refine differs_ofHeap ?_
      rintro expected given rfl
      unfold Heap.lookup at found
      split at found
      · split at found <;> cases found
      · cases found

theorem assign_differs (frame : Nat) (key value : Value) :
    (Run.assign depth frame key value).FailsOnly Differs := by
  intro session fault failed
  rw [outcome_assign, Heap.target_eq] at failed
  split at failed
  · cases failed
  · next found =>
      cases failed
      split at found <;> cases found
      exact differs_ofHeap nofun

theorem define_differs (frame : Nat) (key value : Value) :
    (Run.define depth frame key value).FailsOnly Differs := by
  intro session fault failed
  rw [outcome_define, Heap.definable_eq] at failed
  split at failed
  · cases failed
  · next found =>
      cases failed
      split at found <;> cases found
      exact differs_ofHeap nofun

/-- A new frame fails to be made for want of an argument or of a parameter for it. -/
theorem extend_differs (outer : Nat) (keys values : List Value) :
    (Run.extend depth outer keys values).FailsOnly Differs := by
  intro session fault failed
  rw [outcome_extend, Heap.pairUp_eq] at failed
  split at failed
  · cases failed
  · next found =>
      cases failed
      split at found
      · split at found <;> cases found
        exact differs_ofHeap nofun
      · next apart =>
          cases found
          refine differs_ofHeap ?_
          rintro expected given ⟨⟩
          exact apart

theorem callPrimitive_differs (procedure : Primitive) (arguments : List Value) :
    (callPrimitive depth procedure arguments).FailsOnly Differs := by
  unfold callPrimitive
  split
  · refine FailsOnly.bind (fun session fault failed => by cases failed) fun _ => ?_
    intro session fault failed
    rw [outcome_makeResult] at failed
    cases failed
  · next failed =>
      split
      · exact failsOnly_throw (differs_of_call failed)
      · exact FailsOnly.bind (fun session fault failed => by cases failed) fun _ =>
          failsOnly_throw nofun

section

variable {run : Activation → Run Value} (inner : ∀ activation, (run activation).FailsOnly Differs)

include inner

theorem perform_differs (shaped : ShapedForm) (frame : Nat) :
    (perform depth run shaped frame).FailsOnly Differs := by
  cases shaped with
  | quote form => exact failsOnly_pure form
  | assignment target form =>
      refine (inner (.form form frame)).bind fun value => ?_
      exact (assign_differs frame target value).bind fun _ => failsOnly_pure _
  | definition name form =>
      refine (inner (.form form frame)).bind fun value => ?_
      exact (define_differs frame name value).bind fun _ => failsOnly_pure _
  | condition test consequent alternative =>
      refine (inner (.form test frame)).bind fun value => ?_
      split
      · exact inner (.form consequent frame)
      · cases alternative with
        | some form => exact inner (.form form frame)
        | none => exact failsOnly_pure _
  | function parameters body => rintro session fault ⟨⟩
  | sequence forms => exact inner (.sequence forms frame)
  | expansion form => exact inner (.form form frame)

theorem inTurn_differs (frame : Nat) (forms : List Value) :
    (inTurn run frame forms).FailsOnly Differs := by
  induction forms with
  | nil => exact failsOnly_throw nofun
  | cons form rest ih =>
      cases rest with
      | nil => exact inner (.form form frame)
      | cons next rest => exact (inner (.form form frame)).bind fun _ => ih

theorem evaluateArguments_differs (frame : Nat) (forms : List Value) :
    (evaluateArguments run frame forms).FailsOnly Differs := by
  induction forms with
  | nil => exact failsOnly_pure []
  | cons form rest ih =>
      refine (inner (.argument form frame)).bind fun value => ?_
      exact ih.bind fun values => failsOnly_pure (value :: values)

theorem step_differs (activation : Activation) :
    (step depth run activation).FailsOnly Differs := by
  cases activation with
  | form form frame =>
      cases form with
      | number | string | keyword | literal => exact failsOnly_pure _
      | symbol name => exact lookup_differs frame (.symbol name)
      | primitive | closure | foreign =>
          exact failsOnly_throw (differs_showing _ _ fun _ => by rintro _ _ _ ⟨⟩)
      | sequence identity bracket items =>
          cases bracket with
          | square => exact failsOnly_pure _
          | round =>
              cases items with
              | nil => exact failsOnly_pure _
              | cons head operands =>
                  cases heads : SpecialForm.ofHead? head with
                  | some special =>
                      simp only [step, heads]
                      exact inner (.special special operands frame)
                  | none =>
                      simp only [step, heads]
                      refine (inner (.form head frame)).bind fun procedure => ?_
                      refine (evaluateArguments_differs inner frame operands).bind ?_
                      exact fun arguments => inner (.apply procedure arguments)
  | argument form frame => exact inner (.form form frame)
  | special special operands frame =>
      refine (failsOnly_ofExcept fun fault failed => differs_of_ofOperands failed).bind ?_
      exact fun shaped => perform_differs inner shaped frame
  | sequence forms frame => exact inTurn_differs inner frame forms
  | apply procedure arguments =>
      cases procedure with
      | primitive primitive => exact callPrimitive_differs primitive arguments
      | closure id parameters body frame => exact inner (.enter parameters body arguments frame)
      | _ => exact failsOnly_throw (differs_showing _ _ fun _ => by rintro _ _ _ ⟨⟩)
  | enter parameters body arguments frame =>
      refine (extend_differs frame parameters arguments).bind ?_
      exact fun frame => inner (.sequence body frame)

end

/-- If a run fails on the count of arguments, the counts differ. -/
theorem run_differs (depth : Nat) (activation : Activation) :
    (run depth activation).FailsOnly Differs := by
  induction depth generalizing activation with
  | zero => exact failsOnly_throw nofun
  | succ depth ih => exact step_differs ih activation

variable {barred : Activation → Session → Prop} {fault : Fault} {session : Session}
  {parameters body arguments : List Value}

/-- A closure given another count of arguments than it has parameters fails at once. -/
theorem outcome_apply_of_ne (id outer : Nat) (differ : parameters.length ≠ arguments.length)
    (spared : ¬ barred (.apply (.closure id parameters body outer) arguments) session)
    (spared' : ¬ barred (.enter parameters body arguments outer) session) (depth : Nat) :
    (runUnless barred fault (depth + 2)
        (.apply (.closure id parameters body outer) arguments)).outcome session =
      (.error (.arity parameters.length arguments.length ""), session) := by
  rw [outcome_runUnless_of_not_barred spared]
  simp only [step]
  rw [outcome_runUnless_of_not_barred spared']
  simp only [step]
  rw [outcome_bind, outcome_extend, Heap.pairUp_eq, if_neg differ]
  rfl

end Evaluation

end TinyLisp
