import UniKernel.Pmm.Runs
import UniKernel.Vmm.Frames

/-!
Owns the frame allocator as an interrupt finds and leaves it: some frames are
popped, some are freed, and the interrupted `pmm_alloc_frame` may still have to
count its frame. The last two statements of `pmm_alloc_frame` commute with the
handler as long as it does not touch that frame.
-/

namespace UniKernel.Net

open UniKernel.Lib
open UniKernel.Pmm (Consistent InFrame indexToPhys pmmAllocFrame pmmFreeFrame pushFrame)
open UniKernel.Vmm (allocFrames)

/-- `used_frames++;` -/
def countUsed (pmm : Pmm.State) : Pmm.State := { pmm with usedFrames := u32 (pmm.usedFrames + 1) }

/-- `ref_counts[idx] = value;` -/
def setCount (idx value : Nat) (pmm : Pmm.State) : Pmm.State :=
  { pmm with refCounts := Function.update pmm.refCounts idx value }

/-- Frames given back in order. -/
def freeAll (frames : List Nat) (pmm : Pmm.State) : Pmm.State :=
  frames.foldl (fun pmm idx => pmmFreeFrame (indexToPhys idx) pmm) pmm

/-- Distinct frames that are held once. -/
structure HeldOnce (pmm : Pmm.State) (frames : List Nat) : Prop where
  distinct : frames.Nodup
  held : ∀ idx ∈ frames, idx < pmm.totalFrames ∧ pmm.refCounts idx = 1

section Batch

variable {pmm pmm' : Pmm.State} {frames : List Nat} {idx frame count : Nat}

theorem freeAll_cons (idx : Nat) (frames : List Nat) (pmm : Pmm.State) :
    freeAll (idx :: frames) pmm = freeAll frames (pmmFreeFrame (indexToPhys idx) pmm) := by
  unfold freeAll
  rw [List.foldl_cons]

/-! ### Pops -/

theorem consistent_allocFrames (consistent : Consistent pmm) (count : Nat) :
    Consistent (allocFrames count pmm) := by
  induction count generalizing pmm with
  | zero => exact consistent
  | succ count inductionHypothesis => exact inductionHypothesis consistent.pmmAllocFrame

/-- A pop leaves the count of a frame in use alone. -/
theorem refCounts_pmmAllocFrame_of_used (consistent : Consistent pmm)
    (used : pmm.refCounts idx ≠ 0) : (pmmAllocFrame pmm).2.refCounts idx = pmm.refCounts idx := by
  cases nonempty : pmm.stackTop with
  | zero => rw [Pmm.pmmAllocFrame_of_empty nonempty]
  | succ top =>
      have isFree := (consistent.top_free nonempty).2
      rw [Pmm.pmmAllocFrame_of_nonempty nonempty]
      dsimp only
      rw [Function.update_of_ne]
      rintro rfl
      exact used isFree

theorem refCounts_allocFrames_of_used (consistent : Consistent pmm)
    (used : pmm.refCounts idx ≠ 0) (count : Nat) :
    (allocFrames count pmm).refCounts idx = pmm.refCounts idx := by
  induction count generalizing pmm with
  | zero => rfl
  | succ count inductionHypothesis =>
      have first := refCounts_pmmAllocFrame_of_used consistent used
      rw [← first] at used
      rw [allocFrames, inductionHypothesis consistent.pmmAllocFrame used, first]

theorem totalFrames_pmmAllocFrame (pmm : Pmm.State) :
    (pmmAllocFrame pmm).2.totalFrames = pmm.totalFrames := by
  unfold pmmAllocFrame
  split <;> rfl

theorem totalFrames_allocFrames (count : Nat) (pmm : Pmm.State) :
    (allocFrames count pmm).totalFrames = pmm.totalFrames := by
  induction count generalizing pmm with
  | zero => rfl
  | succ count inductionHypothesis =>
      rw [allocFrames, inductionHypothesis, totalFrames_pmmAllocFrame]

/-- A popped frame has one holder. -/
theorem refCounts_allocFrames_of_popped (consistent : Consistent pmm) {position : Nat}
    (inStack : position < pmm.stackTop) (popped : pmm.stackTop ≤ position + count) :
    (allocFrames count pmm).refCounts (pmm.frameStack position) = 1 := by
  induction count generalizing pmm with
  | zero => omega
  | succ count inductionHypothesis =>
      cases nonempty : pmm.stackTop with
      | zero => omega
      | succ top =>
          rcases Vmm.pmmAllocFrame_stack pmm with ⟨stack, lowered, -⟩
          rcases Nat.lt_or_ge position top with below | above
          · have later := inductionHypothesis consistent.pmmAllocFrame
              (show position < (pmmAllocFrame pmm).2.stackTop by omega) (by omega)
            rw [stack] at later
            exact later
          · have isTop : position = top := by omega
            have once : (pmmAllocFrame pmm).2.refCounts (pmm.frameStack position) = 1 := by
              rw [isTop, Pmm.pmmAllocFrame_of_nonempty nonempty]
              exact Function.update_self _ _ _
            have kept := refCounts_allocFrames_of_used consistent.pmmAllocFrame
              (by rw [once]; decide) count
            exact kept.trans once

/-- Popping does not disturb frames that are held. -/
theorem HeldOnce.allocFrames (held : HeldOnce pmm frames) (consistent : Consistent pmm)
    (count : Nat) : HeldOnce (Vmm.allocFrames count pmm) frames where
  distinct := held.distinct
  held := by
    intro idx member
    rcases held.held idx member with ⟨below, once⟩
    rw [totalFrames_allocFrames, refCounts_allocFrames_of_used consistent (by rw [once]; decide)]
    exact ⟨below, once⟩

/-! ### Frees -/

/-- What giving back frames does. -/
structure Freed (pmm pmm' : Pmm.State) (frames : List Nat) : Prop where
  consistent : Consistent pmm'
  top : pmm'.stackTop = pmm.stackTop + frames.length
  other : ∀ idx, idx ∉ frames → pmm'.refCounts idx = pmm.refCounts idx
  above : ∀ position, pmm'.stackTop ≤ position →
    pmm'.frameStack position = pmm.frameStack position
  total : pmm'.totalFrames = pmm.totalFrames

/-- Giving back one frame. -/
structure FreedOne (pmm pmm' : Pmm.State) (idx : Nat) (frames : List Nat) : Prop where
  consistent : Consistent pmm'
  held : HeldOnce pmm' frames
  top : pmm'.stackTop = pmm.stackTop + 1
  counts : pmm'.refCounts = Function.update pmm.refCounts idx 0
  above : ∀ position, pmm'.stackTop ≤ position →
    pmm'.frameStack position = pmm.frameStack position

/-- The first of several frames. -/
theorem HeldOnce.free (held : HeldOnce pmm (idx :: frames)) (consistent : Consistent pmm) :
    FreedOne pmm (pmmFreeFrame (indexToPhys idx) pmm) idx frames := by
  rcases held.held idx List.mem_cons_self with ⟨below, once⟩
  rcases List.nodup_cons.mp held.distinct with ⟨outside, distinct⟩
  have inside := Pmm.inFrame_indexToPhys (Nat.lt_trans below consistent.small)
  have used : pmm.refCounts idx ≠ 0 := by
    rw [once]
    decide
  have room := consistent.stackTop_lt below used
  have total := consistent.small
  have isPush := consistent.pmmFreeFrame_of_last below inside once
  have counts : (pmmFreeFrame (indexToPhys idx) pmm).refCounts =
      Function.update pmm.refCounts idx 0 := by
    rw [consistent.refCounts_pmmFreeFrame below inside used, once]
  have top : (pmmFreeFrame (indexToPhys idx) pmm).stackTop = pmm.stackTop + 1 := by
    rw [isPush]
    change u32 (pmm.stackTop + 1) = pmm.stackTop + 1
    exact u32_of_lt (by omega)
  refine ⟨consistent.pmmFreeFrame below inside used, ⟨distinct, ?_⟩, top, counts, ?_⟩
  · intro other member
    have differ : other ≠ idx := by
      rintro rfl
      exact outside member
    rw [counts, Pmm.totalFrames_pmmFreeFrame, Function.update_of_ne differ]
    exact held.held other (List.mem_cons_of_mem _ member)
  · intro position high
    rw [top] at high
    rw [isPush]
    exact Function.update_of_ne (show position ≠ pmm.stackTop by omega) _ _

theorem freeAll_freed (consistent : Consistent pmm) (held : HeldOnce pmm frames) :
    Freed pmm (freeAll frames pmm) frames := by
  induction frames generalizing pmm with
  | nil => exact ⟨consistent, rfl, fun _ _ => rfl, fun _ _ => rfl, rfl⟩
  | cons idx rest inductionHypothesis =>
      have first := held.free consistent
      have others := inductionHypothesis first.consistent first.held
      have top := others.top
      rw [freeAll_cons]
      refine ⟨others.consistent, ?_, ?_, ?_, ?_⟩
      · rw [others.top, first.top, List.length_cons]
        omega
      · intro other outside
        rw [others.other other (fun member => outside (List.mem_cons_of_mem _ member)), first.counts]
        exact Function.update_of_ne (List.ne_of_not_mem_cons outside) _ _
      · intro position high
        rw [others.above position high, first.above position (by omega)]
      · rw [others.total, Pmm.totalFrames_pmmFreeFrame]

/-! ### The interrupted `pmm_alloc_frame` -/

theorem pmmAllocFrame_countUsed (pmm : Pmm.State) :
    (pmmAllocFrame (countUsed pmm)).2 = countUsed (pmmAllocFrame pmm).2 := by
  cases nonempty : pmm.stackTop with
  | zero =>
      have sameTop : (countUsed pmm).stackTop = 0 := nonempty
      rw [Pmm.pmmAllocFrame_of_empty nonempty, Pmm.pmmAllocFrame_of_empty sameTop]
  | succ top =>
      have sameTop : (countUsed pmm).stackTop = top + 1 := nonempty
      rw [Pmm.pmmAllocFrame_of_nonempty nonempty, Pmm.pmmAllocFrame_of_nonempty sameTop]
      rfl

theorem allocFrames_countUsed (count : Nat) (pmm : Pmm.State) :
    allocFrames count (countUsed pmm) = countUsed (allocFrames count pmm) := by
  induction count generalizing pmm with
  | zero => rfl
  | succ count inductionHypothesis =>
      rw [allocFrames, allocFrames, pmmAllocFrame_countUsed, inductionHypothesis]

theorem pushFrame_countUsed (idx : Nat) (pmm : Pmm.State) :
    pushFrame idx (countUsed pmm) = countUsed (pushFrame idx pmm) := by
  have counter : pred32 (u32 (pmm.usedFrames + 1)) = u32 (pred32 pmm.usedFrames + 1) := by
    unfold pred32 u32
    omega
  unfold pushFrame countUsed
  rw [counter]

/-- `ref_counts[idx]--;` -/
def dropRef (idx : Nat) (pmm : Pmm.State) : Pmm.State :=
  { pmm with refCounts := Function.update pmm.refCounts idx (pmm.refCounts idx - 1) }

theorem pmmFreeFrame_eq (addr : Nat) (pmm : Pmm.State) :
    pmmFreeFrame addr pmm =
      if Pmm.physToIndex pmm addr = Pmm.noIndex ∨ Pmm.physToIndex pmm addr ≥ pmm.totalFrames then
        pmm
      else if pmm.refCounts (Pmm.physToIndex pmm addr) > 0 then
        if pmm.refCounts (Pmm.physToIndex pmm addr) - 1 = 0 then
          pushFrame (Pmm.physToIndex pmm addr) (dropRef (Pmm.physToIndex pmm addr) pmm)
        else dropRef (Pmm.physToIndex pmm addr) pmm
      else if pmm.stackTop ≥ pmm.stackCapacity then pmm
      else pushFrame (Pmm.physToIndex pmm addr) pmm := by
  unfold pmmFreeFrame dropRef
  simp only [Function.update_self]

theorem pmmFreeFrame_countUsed (addr : Nat) (pmm : Pmm.State) :
    pmmFreeFrame addr (countUsed pmm) = countUsed (pmmFreeFrame addr pmm) := by
  have sameIndex : Pmm.physToIndex (countUsed pmm) addr = Pmm.physToIndex pmm addr := rfl
  have sameCounts : (countUsed pmm).refCounts = pmm.refCounts := rfl
  have sameTotal : (countUsed pmm).totalFrames = pmm.totalFrames := rfl
  have sameTop : (countUsed pmm).stackTop = pmm.stackTop := rfl
  have sameCapacity : (countUsed pmm).stackCapacity = pmm.stackCapacity := rfl
  rw [pmmFreeFrame_eq, pmmFreeFrame_eq, sameIndex, sameCounts, sameTotal, sameTop,
    sameCapacity]
  split
  · rfl
  · split
    · split
      · exact pushFrame_countUsed _ (dropRef _ pmm)
      · rfl
    · split
      · rfl
      · exact pushFrame_countUsed _ pmm

theorem freeAll_countUsed (frames : List Nat) (pmm : Pmm.State) :
    freeAll frames (countUsed pmm) = countUsed (freeAll frames pmm) := by
  induction frames generalizing pmm with
  | nil => rfl
  | cons idx rest inductionHypothesis =>
      rw [freeAll_cons, freeAll_cons, pmmFreeFrame_countUsed, inductionHypothesis]

theorem setCount_of_eq {value : Nat} (same : pmm.refCounts idx = value) :
    setCount idx value pmm = pmm := by
  unfold setCount
  rw [← same, Function.update_eq_self]

/-- A pop leaves another frame's count alone. -/
theorem pmmAllocFrame_setCount (other : ∀ position < pmm.stackTop, pmm.frameStack position ≠ idx)
    (value : Nat) :
    (pmmAllocFrame (setCount idx value pmm)).2 = setCount idx value (pmmAllocFrame pmm).2 := by
  cases nonempty : pmm.stackTop with
  | zero =>
      have sameTop : (setCount idx value pmm).stackTop = 0 := nonempty
      rw [Pmm.pmmAllocFrame_of_empty nonempty, Pmm.pmmAllocFrame_of_empty sameTop]
  | succ top =>
      have sameTop : (setCount idx value pmm).stackTop = top + 1 := nonempty
      have differ : idx ≠ pmm.frameStack top := (other top (by omega)).symm
      rw [Pmm.pmmAllocFrame_of_nonempty nonempty, Pmm.pmmAllocFrame_of_nonempty sameTop]
      unfold setCount
      dsimp only
      rw [Function.update_comm differ]

theorem allocFrames_setCount (other : ∀ position < pmm.stackTop, pmm.frameStack position ≠ idx)
    (value count : Nat) :
    allocFrames count (setCount idx value pmm) = setCount idx value (allocFrames count pmm) := by
  induction count generalizing pmm with
  | zero => rfl
  | succ count inductionHypothesis =>
      rcases Vmm.pmmAllocFrame_stack pmm with ⟨stack, lowered, -⟩
      have otherLater : ∀ position < (pmmAllocFrame pmm).2.stackTop,
          (pmmAllocFrame pmm).2.frameStack position ≠ idx := by
        intro position below
        rw [stack]
        exact other position (by omega)
      rw [allocFrames, allocFrames, pmmAllocFrame_setCount other value,
        inductionHypothesis otherLater]

theorem pmmFreeFrame_setCount {addr : Nat} (other : Pmm.physToIndex pmm addr ≠ idx)
    (value : Nat) :
    pmmFreeFrame addr (setCount idx value pmm) = setCount idx value (pmmFreeFrame addr pmm) := by
  have sameIndex : Pmm.physToIndex (setCount idx value pmm) addr = Pmm.physToIndex pmm addr := rfl
  have sameCount : (setCount idx value pmm).refCounts (Pmm.physToIndex pmm addr) =
      pmm.refCounts (Pmm.physToIndex pmm addr) := Function.update_of_ne other _ _
  have sameTotal : (setCount idx value pmm).totalFrames = pmm.totalFrames := rfl
  have sameTop : (setCount idx value pmm).stackTop = pmm.stackTop := rfl
  have sameCapacity : (setCount idx value pmm).stackCapacity = pmm.stackCapacity := rfl
  have drops : dropRef (Pmm.physToIndex pmm addr) (setCount idx value pmm) =
      setCount idx value (dropRef (Pmm.physToIndex pmm addr) pmm) := by
    unfold dropRef
    rw [sameCount]
    unfold setCount
    dsimp only
    rw [Function.update_comm other]
  rw [pmmFreeFrame_eq, pmmFreeFrame_eq, sameIndex, sameCount, sameTotal, sameTop, sameCapacity,
    drops]
  split
  · rfl
  · split
    · split <;> rfl
    · split <;> rfl

/-- The frames of a consistent allocator have their own indices. -/
theorem freeAll_setCount (consistent : Consistent (setCount idx 1 pmm))
    (held : HeldOnce (setCount idx 1 pmm) frames) (outside : idx ∉ frames)
    (value : Nat) :
    freeAll frames (setCount idx value pmm) = setCount idx value (freeAll frames pmm) := by
  induction frames generalizing pmm with
  | nil => rfl
  | cons frame rest inductionHypothesis =>
      rcases held.held frame List.mem_cons_self with ⟨below, once⟩
      have inside := Pmm.inFrame_indexToPhys (Nat.lt_trans below consistent.small)
      have isIndex : Pmm.physToIndex pmm (indexToPhys frame) = frame :=
        consistent.physToIndex_of_inFrame below inside
      have differ : Pmm.physToIndex pmm (indexToPhys frame) ≠ idx := by
        rw [isIndex]
        rintro rfl
        exact outside List.mem_cons_self
      have step := pmmFreeFrame_setCount differ
      have first := held.free consistent
      rw [step 1] at first
      rw [freeAll_cons, freeAll_cons, step value]
      exact inductionHypothesis first.consistent first.held
        fun member => outside (List.mem_cons_of_mem _ member)

end Batch

end UniKernel.Net
