import TinyLisp.Session

/-!
# What operations on a session do

A computation in a session ends in a value or a fault, and leaves the session in some state. The
equations below say so for every operation that evaluation is made of.
-/

namespace TinyLisp

namespace Run

variable {α β : Type}

/-- What a computation ends in, and the session that it leaves. -/
def outcome (computation : Run α) (session : Session) : Except Fault α × Session :=
  computation.run.run session

@[simp]
theorem outcome_pure (value : α) (session : Session) :
    (pure value : Run α).outcome session = (.ok value, session) :=
  rfl

@[simp]
theorem outcome_throw (fault : Fault) (session : Session) :
    (throw fault : Run α).outcome session = (.error fault, session) :=
  rfl

theorem outcome_bind (computation : Run α) (next : α → Run β) (session : Session) :
    (computation >>= next).outcome session =
      match computation.outcome session with
      | (.ok value, after) => (next value).outcome after
      | (.error fault, after) => (.error fault, after) := by
  simp only [outcome, ExceptT.run_bind, StateT.run_bind]
  rcases computation.run.run session with ⟨⟨⟩ | ⟨⟩, after⟩ <;> rfl

theorem outcome_bind_ok {computation : Run α} {session after : Session} {value : α}
    (ends : computation.outcome session = (.ok value, after)) (next : α → Run β) :
    (computation >>= next).outcome session = (next value).outcome after := by
  rw [outcome_bind, ends]

@[simp]
theorem outcome_note (event : Event) (session : Session) :
    (note event).outcome session = (.ok (), { session with events := event :: session.events }) :=
  rfl

@[simp]
theorem outcome_print (text : String) (session : Session) :
    (print text).outcome session =
      (.ok (), { session with printed := session.printed ++ text }) :=
  rfl

@[simp]
theorem outcome_ofExcept (result : Except Fault α) (session : Session) :
    (ofExcept result).outcome session = (result, session) := by
  cases result <;> rfl

@[simp]
theorem outcome_ofHeap (depth : Nat) (result : Except HeapFault α) (session : Session) :
    (ofHeap depth result).outcome session = (result.mapError (Fault.ofHeap depth), session) := by
  cases result <;> rfl

@[simp]
theorem outcome_lookup (depth frame : Nat) (key : Value) (session : Session) :
    (lookup depth frame key).outcome session =
      ((session.heap.lookup frame key).mapError (Fault.ofHeap depth), session) :=
  outcome_ofHeap depth (session.heap.lookup frame key) session

@[simp]
theorem outcome_write (frame : Nat) (name : Name) (value : Value) (session : Session) :
    (write frame name value).outcome session =
      (.ok (), { session with heap := session.heap.write frame name value }) :=
  rfl

theorem outcome_define (depth frame : Nat) (key value : Value) (session : Session) :
    (define depth frame key value).outcome session =
      match Heap.definable key with
      | .ok name => (.ok (), { session with heap := session.heap.write frame name value })
      | .error fault => (.error (Fault.ofHeap depth fault), session) := by
  rw [define, outcome_bind, outcome_ofHeap]
  cases Heap.definable key <;> rfl

theorem outcome_assign (depth frame : Nat) (key value : Value) (session : Session) :
    (assign depth frame key value).outcome session =
      match session.heap.target frame key with
      | .ok (owner, name) =>
          (.ok (), { session with heap := session.heap.write owner name value })
      | .error fault => (.error (Fault.ofHeap depth fault), session) := by
  change (ofHeap depth (session.heap.target frame key) >>=
    fun found => write found.1 found.2 value).outcome session = _
  rw [outcome_bind, outcome_ofHeap]
  cases session.heap.target frame key <;> rfl

theorem outcome_extend (depth outer : Nat) (keys values : List Value) (session : Session) :
    (extend depth outer keys values).outcome session =
      match Heap.pairUp keys values with
      | .ok bindings =>
          (.ok (session.heap.newFrame (some outer) bindings).1,
            { session with heap := (session.heap.newFrame (some outer) bindings).2 })
      | .error fault => (.error (Fault.ofHeap depth fault), session) := by
  rw [extend, outcome_bind, outcome_ofHeap]
  cases Heap.pairUp keys values <;> rfl

@[simp]
theorem outcome_identifyAll (forms : List Value) (session : Session) :
    (identifyAll forms).outcome session =
      (.ok (Value.identifiedAll session.sequencesRead forms).1,
        { session with
          sequencesRead := (Value.identifiedAll session.sequencesRead forms).2 }) :=
  rfl

@[simp]
theorem outcome_makeClosure (parameters body : List Value) (frame : Nat) (session : Session) :
    (makeClosure parameters body frame).outcome session =
      (.ok (.closure session.objectsMade parameters body frame),
        { session with objectsMade := session.objectsMade + 1 }) :=
  rfl

/-- The value that a new result becomes if the next number is some number. -/
def numbered (number : Nat) : Value → Value
  | .sequence none bracket items => .sequence (some (.made number)) bracket items
  | .number (.float (.undefined none)) => .number (.float (.undefined (some number)))
  | result => result

/-- How many numbers a new result takes. -/
def numbersTaken : Value → Nat
  | .sequence none _ _ | .number (.float (.undefined none)) => 1
  | _ => 0

theorem outcome_makeResult (result : Value) (session : Session) :
    (makeResult result).outcome session =
      (.ok (numbered session.objectsMade result),
        { session with objectsMade := session.objectsMade + numbersTaken result }) := by
  cases result with
  | sequence identity bracket items => cases identity <;> rfl
  | number value =>
      match value with
      | .int _ | .float (.undefined none) | .float (.undefined (some _)) | .float (.infinite _)
      | .float (.finite _ _) => rfl
  | _ => rfl

end Run

end TinyLisp
