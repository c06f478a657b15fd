import TinyLisp.Heap

/-!
# Frames around a frame

The chain of a frame is computed with a bound on its length. As outer frames are older than the
frames in them, the bound never matters: the chain is the frame itself and the chain of its outer
frame.
-/

namespace TinyLisp

namespace Heap

variable {heap : Heap}

/-- Two bounds that are large enough give the same chain. -/
theorem chainWithin_congr {first second id : Nat} (enough : id < first)
    (otherEnough : id < second) :
    heap.chainWithin first id = heap.chainWithin second id := by
  induction first generalizing second id with
  | zero => omega
  | succ first ih =>
      cases second with
      | zero => omega
      | succ second =>
          simp only [chainWithin]
          cases found : heap.frames[id]? with
          | none => rfl
          | some frame =>
              cases around : frame.outer with
              | none => simp only [around]
              | some outer =>
                  have older := heap.outer_lt id frame found outer around
                  have same : heap.chainWithin first outer = heap.chainWithin second outer :=
                    ih (by omega) (by omega)
                  simp only [around, same]

theorem chain_eq {id : Nat} {frame : Frame} (found : heap.frames[id]? = some frame) :
    heap.chain id = id ::
      match frame.outer with
      | none => []
      | some outer => heap.chain outer := by
  rw [chain, chainWithin]
  simp only [found]
  cases around : frame.outer with
  | none => rfl
  | some outer =>
      have older := heap.outer_lt id frame found outer around
      have same : heap.chainWithin id outer = heap.chain outer :=
        chainWithin_congr older (Nat.lt_succ_self outer)
      simp only [same]

theorem chain_eq_nil {id : Nat} (missing : heap.frames[id]? = none) : heap.chain id = [] := by
  simp only [chain, chainWithin, missing]

/-- What holds of a frame, and of the outer frame of every frame that it holds of, holds of the
whole chain. -/
theorem forall_mem_chain {property : Nat → Prop}
    (outward : ∀ id frame, property id → heap.frames[id]? = some frame →
      ∀ outer, frame.outer = some outer → property outer)
    {id : Nat} (holds : property id) : ∀ owner ∈ heap.chain id, property owner := by
  induction id using Nat.strongRecOn with
  | ind id ih =>
      intro owner member
      cases found : heap.frames[id]? with
      | none => simp [chain_eq_nil found] at member
      | some frame =>
          rw [chain_eq found] at member
          rcases List.mem_cons.mp member with rfl | further
          · exact holds
          · cases around : frame.outer with
            | none => simp only [around, List.not_mem_nil] at further
            | some outer =>
                simp only [around] at further
                exact ih outer (heap.outer_lt id frame found outer around)
                  (outward id frame holds found outer around) owner further

end Heap

end TinyLisp
