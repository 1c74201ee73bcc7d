import Mathlib.Algebra.Ring.Nat
import Mathlib.Data.List.Nodup
import Mathlib.Data.List.Perm.Subperm
import UniKernel.Pmm.Model

/-!
Owns the consistency of the three records `pmm.c` keeps of which frames are
free: the stack, the reference counts and the used counter. `pmmInit`
establishes it and every operation on a frame keeps it; each operation has one
lemma that says everything it does to a consistent state.

Callers never unfold `pmmAllocFrame`, `pmmFreeFrame` or `pmmIncRef`.
-/

namespace UniKernel.Pmm

open UniKernel.Lib

/-- The indices on the free stack, bottom first. -/
def State.freeStack (s : State) : List Nat := (List.range s.stackTop).map s.frameStack

/-- The stack, the counts and the counter describe one set of free frames. -/
structure Consistent (s : State) : Prop where
  distinct : s.freeStack.Nodup
  free_iff : ∀ idx, idx ∈ s.freeStack ↔ idx < s.totalFrames ∧ s.refCounts idx = 0
  accounted : s.stackTop + s.usedFrames = s.totalFrames
  capacity : s.stackCapacity = s.totalFrames
  ramEnd : s.phyRamEnd = phyRamBase + s.totalFrames * pageSize
  small : s.totalFrames < 2 ^ 31
  tables : s.refCountsAddr ≠ 0

/-! ### Addresses and indices -/

theorem indexToPhys_of_lt {idx : Nat} (small : idx < 2 ^ 31) :
    indexToPhys idx = phyRamBase + idx * pageSize := by
  unfold indexToPhys
  simp only [phyRamBase, pageShift, pageSize, Nat.shiftLeft_eq]
  rw [u64_of_lt]
  omega

/-- `addr` is one of the bytes of frame `idx`. -/
def InFrame (idx addr : Nat) : Prop :=
  phyRamBase + idx * pageSize ≤ addr ∧ addr < phyRamBase + (idx + 1) * pageSize

theorem inFrame_indexToPhys {idx : Nat} (small : idx < 2 ^ 31) :
    InFrame idx (indexToPhys idx) := by
  rw [indexToPhys_of_lt small]
  simp only [InFrame, phyRamBase, pageSize]
  omega

theorem Consistent.physToIndex_of_inFrame {s : State} (consistent : Consistent s)
    {idx addr : Nat} (below : idx < s.totalFrames) (inside : InFrame idx addr) :
    physToIndex s addr = idx := by
  have ramEnd := consistent.ramEnd
  have small := consistent.small
  simp only [InFrame, phyRamBase, pageSize] at inside ramEnd
  unfold physToIndex
  rw [if_neg (by simp only [phyRamBase]; omega), u32_of_lt] <;>
    simp only [phyRamBase, pageShift, Nat.shiftRight_eq_div_pow] <;> omega

theorem Consistent.index_ne_noIndex {s : State} (consistent : Consistent s) {idx : Nat}
    (below : idx < s.totalFrames) : idx ≠ noIndex := by
  have small := consistent.small
  simp only [noIndex]
  omega

/-! ### The free stack as a list -/

theorem length_freeStack (s : State) : s.freeStack.length = s.stackTop := by
  simp [State.freeStack]

/-- Popping splits off the last index of the stack. -/
theorem freeStack_succ (s : State) {top : Nat} (nonempty : s.stackTop = top + 1) :
    s.freeStack = { s with stackTop := top }.freeStack ++ [s.frameStack top] := by
  simp [State.freeStack, nonempty, List.range_succ]

/-- Writing at or above the top does not change what is on the stack. -/
theorem map_range_update_of_le (stack : Nat → Nat) {top slot : Nat} (above : top ≤ slot)
    (value : Nat) :
    (List.range top).map (Function.update stack slot value) = (List.range top).map stack := by
  apply List.map_congr_left
  intro position member
  have below : position < top := List.mem_range.mp member
  exact Function.update_of_ne (by omega) _ _

theorem freeStack_pushFrame (s : State) (idx : Nat) (room : s.stackTop + 1 < 2 ^ 32) :
    (pushFrame idx s).freeStack = s.freeStack ++ [idx] := by
  simp only [State.freeStack, pushFrame, u32_of_lt room, List.range_succ, List.map_append,
    List.map_cons, List.map_nil, Function.update_self]
  rw [map_range_update_of_le _ (Nat.le_refl _)]

/-- A frame that is in use leaves room on the stack for itself. -/
theorem Consistent.stackTop_lt {s : State} (consistent : Consistent s) {idx : Nat}
    (below : idx < s.totalFrames) (used : s.refCounts idx ≠ 0) :
    s.stackTop < s.totalFrames := by
  have fresh : idx ∉ s.freeStack := fun member =>
    used ((consistent.free_iff idx).mp member).2
  have distinct : (idx :: s.freeStack).Nodup := List.nodup_cons.mpr ⟨fresh, consistent.distinct⟩
  have inside : idx :: s.freeStack ⊆ List.range s.totalFrames := by
    intro other member
    rcases List.mem_cons.mp member with rfl | onStack
    · exact List.mem_range.mpr below
    · exact List.mem_range.mpr ((consistent.free_iff other).mp onStack).1
  have counted := (distinct.subperm inside).length_le
  rw [List.length_cons, length_freeStack, List.length_range] at counted
  omega

/-! ### `pmm_alloc_frame` -/

theorem pmmAllocFrame_of_empty {s : State} (empty : s.stackTop = 0) :
    pmmAllocFrame s = (0, s) := by
  simp [pmmAllocFrame, empty]

/-- What a successful `pmm_alloc_frame` does: it takes the index on top. -/
theorem pmmAllocFrame_of_nonempty {s : State} {top : Nat} (nonempty : s.stackTop = top + 1) :
    pmmAllocFrame s =
      (indexToPhys (s.frameStack top),
        { s with
          stackTop := top
          usedFrames := u32 (s.usedFrames + 1)
          refCounts := Function.update s.refCounts (s.frameStack top) 1 }) := by
  simp [pmmAllocFrame, nonempty]

theorem Consistent.top_free {s : State} (consistent : Consistent s) {top : Nat}
    (nonempty : s.stackTop = top + 1) :
    s.frameStack top < s.totalFrames ∧ s.refCounts (s.frameStack top) = 0 := by
  apply (consistent.free_iff _).mp
  rw [freeStack_succ s nonempty]
  simp

theorem Consistent.pmmAllocFrame {s : State} (consistent : Consistent s) :
    Consistent (pmmAllocFrame s).2 := by
  cases nonempty : s.stackTop with
  | zero => rwa [pmmAllocFrame_of_empty nonempty]
  | succ top =>
      have popped := freeStack_succ s nonempty
      have distinct := consistent.distinct
      rw [popped] at distinct
      have fresh : s.frameStack top ∉ { s with stackTop := top }.freeStack := by
        intro member
        exact (List.nodup_append.mp distinct).2.2 _ member _ (by simp) rfl
      have accounted := consistent.accounted
      have small := consistent.small
      rw [pmmAllocFrame_of_nonempty nonempty]
      refine
        { distinct := (List.nodup_append.mp distinct).1
          free_iff := ?_
          accounted := by simp only; rw [u32_of_lt] <;> omega
          capacity := consistent.capacity
          ramEnd := consistent.ramEnd
          small := small
          tables := consistent.tables }
      intro idx
      have before := consistent.free_iff idx
      rw [popped, List.mem_append, List.mem_singleton] at before
      change idx ∈ { s with stackTop := top }.freeStack ↔
        idx < s.totalFrames ∧ Function.update s.refCounts (s.frameStack top) 1 idx = 0
      by_cases isTop : idx = s.frameStack top
      · subst isTop
        simp [fresh]
      · rw [Function.update_of_ne isTop]
        simpa [isTop] using before

/-! ### `pmm_free_frame` and `pmm_inc_ref` -/

/-- Dropping one of several references only lowers the count. -/
theorem Consistent.pmmFreeFrame_of_shared {s : State} (consistent : Consistent s)
    {idx addr : Nat} (below : idx < s.totalFrames) (inside : InFrame idx addr)
    (shared : 1 < s.refCounts idx) :
    pmmFreeFrame addr s =
      { s with refCounts := Function.update s.refCounts idx (s.refCounts idx - 1) } := by
  have notLast : ¬ s.refCounts idx - 1 = 0 := by omega
  have index := consistent.index_ne_noIndex below
  simp only [noIndex, Nat.reducePow, Nat.reduceSub] at index
  simp [pmmFreeFrame, consistent.physToIndex_of_inFrame below inside, index,
    Nat.not_le.mpr below, notLast, show 0 < s.refCounts idx by omega]

/-- Dropping the last reference also pushes the frame. -/
theorem Consistent.pmmFreeFrame_of_last {s : State} (consistent : Consistent s)
    {idx addr : Nat} (below : idx < s.totalFrames) (inside : InFrame idx addr)
    (last : s.refCounts idx = 1) :
    pmmFreeFrame addr s =
      pushFrame idx { s with refCounts := Function.update s.refCounts idx 0 } := by
  have index := consistent.index_ne_noIndex below
  simp only [noIndex, Nat.reducePow, Nat.reduceSub] at index
  simp [pmmFreeFrame, consistent.physToIndex_of_inFrame below inside, index,
    Nat.not_le.mpr below, last]

theorem Consistent.pmmIncRef_of_room {s : State} (consistent : Consistent s)
    {idx addr : Nat} (below : idx < s.totalFrames) (inside : InFrame idx addr)
    (room : s.refCounts idx < 255) :
    pmmIncRef addr s =
      { s with refCounts := Function.update s.refCounts idx (s.refCounts idx + 1) } := by
  have index := consistent.index_ne_noIndex below
  simp only [noIndex, Nat.reducePow, Nat.reduceSub] at index
  simp [pmmIncRef, consistent.physToIndex_of_inFrame below inside, index, consistent.tables,
    room]

/-- Changing the count of a frame that stays in use keeps the records in step. -/
theorem Consistent.setCount {s : State} (consistent : Consistent s) {idx count : Nat}
    (used : s.refCounts idx ≠ 0) (stillUsed : count ≠ 0) :
    Consistent { s with refCounts := Function.update s.refCounts idx count } where
  distinct := consistent.distinct
  free_iff := by
    intro other
    have before := consistent.free_iff other
    by_cases same : other = idx
    · subst same
      simp only [Function.update_self]
      exact before.trans (by simp [used, stillUsed])
    · simp only [Function.update_of_ne same]
      exact before
  accounted := consistent.accounted
  capacity := consistent.capacity
  ramEnd := consistent.ramEnd
  small := consistent.small
  tables := consistent.tables

theorem Consistent.pushFrame {s : State} (consistent : Consistent s) {idx : Nat}
    (below : idx < s.totalFrames) (used : s.refCounts idx ≠ 0) :
    Consistent (pushFrame idx { s with refCounts := Function.update s.refCounts idx 0 }) := by
  have room := consistent.stackTop_lt below used
  have accounted := consistent.accounted
  have small := consistent.small
  have pushed := freeStack_pushFrame
    { s with refCounts := Function.update s.refCounts idx 0 } idx (show s.stackTop + 1 < _ by omega)
  have fresh : idx ∉ s.freeStack := fun member =>
    used ((consistent.free_iff idx).mp member).2
  refine
    { distinct := ?_
      free_iff := ?_
      accounted := ?_
      capacity := consistent.capacity
      ramEnd := consistent.ramEnd
      small := small
      tables := consistent.tables }
  · rw [pushed]
    exact consistent.distinct.append (List.nodup_singleton idx) (by simpa using fresh)
  · intro other
    rw [pushed, List.mem_append, List.mem_singleton]
    have before := consistent.free_iff other
    change other ∈ s.freeStack ∨ other = idx ↔
      other < s.totalFrames ∧ Function.update s.refCounts idx 0 other = 0
    by_cases same : other = idx
    · subst same
      simp [below]
    · simp [same, before]
  · change u32 (s.stackTop + 1) + pred32 s.usedFrames = s.totalFrames
    rw [u32_of_lt (by omega), pred32_of_pos (by omega) (by omega)]
    omega

/-- Giving back one reference of a frame in use keeps the records in step. -/
theorem Consistent.pmmFreeFrame {s : State} (consistent : Consistent s) {idx addr : Nat}
    (below : idx < s.totalFrames) (inside : InFrame idx addr) (used : s.refCounts idx ≠ 0) :
    Consistent (pmmFreeFrame addr s) := by
  by_cases last : s.refCounts idx = 1
  · rw [consistent.pmmFreeFrame_of_last below inside last]
    exact consistent.pushFrame below used
  · rw [consistent.pmmFreeFrame_of_shared below inside (by omega)]
    exact consistent.setCount used (by omega)

/-- Giving back one reference lowers exactly that frame's count. -/
theorem Consistent.refCounts_pmmFreeFrame {s : State} (consistent : Consistent s)
    {idx addr : Nat} (below : idx < s.totalFrames) (inside : InFrame idx addr)
    (used : s.refCounts idx ≠ 0) :
    (Pmm.pmmFreeFrame addr s).refCounts =
      Function.update s.refCounts idx (s.refCounts idx - 1) := by
  by_cases last : s.refCounts idx = 1
  · rw [consistent.pmmFreeFrame_of_last below inside last, last]
    rfl
  · rw [consistent.pmmFreeFrame_of_shared below inside (by omega)]

/-! ### `pmm_init` -/

/-- The loop of `pmm_init` after `count` frames: the first `reserved` frames
are in use and the others are stacked in increasing order. -/
structure InitProgress (start : State) (reserved count : Nat) (s : State) : Prop where
  top : s.stackTop = count - reserved
  used : s.stackTop + s.usedFrames = start.usedFrames + count
  stack : ∀ position, position < count - reserved → s.frameStack position = reserved + position
  counts : ∀ idx, idx < count → s.refCounts idx = if idx < reserved then 1 else 0
  capacity : s.stackCapacity = start.stackCapacity
  ramEnd : s.phyRamEnd = start.phyRamEnd
  total : s.totalFrames = start.totalFrames
  tables : s.refCountsAddr = start.refCountsAddr
  ramSize : s.phyRamSize = start.phyRamSize

/-- How many frames start below `reservedEnd`. -/
def reservedFrames (reservedEnd : Nat) : Nat := (reservedEnd - phyRamBase + (pageSize - 1)) / pageSize

theorem lt_reservedFrames_iff (reservedEnd : Nat) {idx : Nat} (small : idx < 2 ^ 31) :
    idx < reservedFrames reservedEnd ↔
      indexToPhys idx ≥ phyRamBase ∧ indexToPhys idx < reservedEnd := by
  rw [indexToPhys_of_lt small]
  simp only [reservedFrames, phyRamBase, pageSize]
  omega

theorem initFrame_of_reserved {reservedEnd idx : Nat} (small : idx < 2 ^ 31)
    (reserved : idx < reservedFrames reservedEnd) (s : State) :
    initFrame reservedEnd idx s =
      { s with
        usedFrames := u32 (s.usedFrames + 1)
        refCounts := Function.update s.refCounts idx 1 } := by
  unfold initFrame
  rw [if_pos ((lt_reservedFrames_iff reservedEnd small).mp reserved)]
  simp

theorem initFrame_of_free {reservedEnd idx : Nat} (small : idx < 2 ^ 31)
    (free : reservedFrames reservedEnd ≤ idx) {s : State} (room : s.stackTop < s.stackCapacity) :
    initFrame reservedEnd idx s =
      { s with
        frameStack := Function.update s.frameStack s.stackTop idx
        stackTop := u32 (s.stackTop + 1)
        refCounts := Function.update s.refCounts idx 0 } := by
  have notReserved := mt (lt_reservedFrames_iff reservedEnd small).mpr (Nat.not_lt.mpr free)
  unfold initFrame
  rw [if_neg notReserved, if_pos room]

theorem initFrames_progress {start : State} {reservedEnd count : Nat}
    (top : start.stackTop = 0) (room : count ≤ start.stackCapacity) (small : count < 2 ^ 31)
    (used : start.usedFrames < 2 ^ 31) :
    InitProgress start (reservedFrames reservedEnd) count (initFrames reservedEnd count start) := by
  induction count with
  | zero => constructor <;> simp [initFrames, top]
  | succ count inductionHypothesis =>
      have before := inductionHypothesis (by omega) (by omega)
      have beforeTop := before.top
      have beforeUsed := before.used
      have beforeCapacity := before.capacity
      rw [initFrames]
      by_cases isReserved : count < reservedFrames reservedEnd
      · rw [initFrame_of_reserved (by omega) isReserved]
        refine ⟨?_, ?_, ?_, ?_, beforeCapacity, before.ramEnd, before.total, before.tables,
          before.ramSize⟩
        · simp only [beforeTop]
          omega
        · simp only
          rw [u32_of_lt (by omega)]
          omega
        · intro position below
          exact absurd below (by omega)
        · intro idx below
          by_cases same : idx = count
          · simp [same, isReserved]
          · simp only [Function.update_of_ne same]
            exact before.counts idx (by omega)
      · rw [initFrame_of_free (by omega) (by omega) (by omega)]
        refine ⟨?_, ?_, ?_, ?_, beforeCapacity, before.ramEnd, before.total, before.tables,
          before.ramSize⟩
        · simp only [beforeTop]
          rw [u32_of_lt (by omega)]
          omega
        · simp only
          rw [u32_of_lt (by omega)]
          omega
        · intro position below
          simp only [beforeTop]
          by_cases same : position = count - reservedFrames reservedEnd
          · rw [same, Function.update_self]
            omega
          · simp only [Function.update_of_ne same]
            exact before.stack position (by omega)
        · intro idx below
          by_cases same : idx = count
          · simp [same, isReserved]
          · simp only [Function.update_of_ne same]
            exact before.counts idx (by omega)

/-- `kernel_end` lies in RAM, RAM is a whole number of pages below `2 ^ 43`
bytes, and the tables `pmm_init` places behind the kernel fit into it. -/
structure BootLayout (kernelEnd ramSize : Nat) : Prop where
  aboveBase : phyRamBase ≤ kernelEnd
  belowEnd : kernelEnd ≤ phyRamBase + ramSize
  pages : ramSize % pageSize = 0
  small : ramSize < 2 ^ 43
  fits : pmmReservedEnd kernelEnd ramSize ≤ phyRamBase + ramSize

namespace BootLayout

variable {kernelEnd ramSize : Nat} (layout : BootLayout kernelEnd ramSize)
include layout

theorem totalFrames_eq : u32 (ramSize / pageSize) = ramSize / pageSize := by
  have small := layout.small
  simp only [pageSize]
  exact u32_of_lt (by omega)

theorem frames_small : ramSize / pageSize < 2 ^ 31 := by
  have small := layout.small
  simp only [pageSize]
  omega

theorem stackStart_bounds :
    kernelEnd ≤ stackStart kernelEnd ∧ stackStart kernelEnd < kernelEnd + pageSize := by
  have belowEnd := layout.belowEnd
  have small := layout.small
  simp only [phyRamBase] at belowEnd
  simp only [stackStart, pageSize, alignDown]
  rw [u64_of_lt (by omega)]
  omega

theorem refCountsStart_ne_zero : refCountsStart kernelEnd ramSize ≠ 0 := by
  have belowEnd := layout.belowEnd
  have aboveBase := layout.aboveBase
  have small := layout.small
  have bounds := layout.stackStart_bounds
  have frames := layout.frames_small
  simp only [phyRamBase, pageSize] at belowEnd aboveBase bounds frames
  unfold refCountsStart
  rw [layout.totalFrames_eq, u64_of_lt] <;> simp only [pageSize] <;> omega

end BootLayout

/-- The state `pmm_init` leaves: the reserved frames in use, the others stacked. -/
theorem pmmInit_progress {kernelEnd ramSize : Nat} (layout : BootLayout kernelEnd ramSize) :
    InitProgress
      { State.zero with
        phyRamSize := ramSize
        phyRamEnd := phyRamBase + ramSize
        totalFrames := ramSize / pageSize
        stackCapacity := ramSize / pageSize
        refCountsAddr := refCountsStart kernelEnd ramSize }
      (reservedFrames (pmmReservedEnd kernelEnd ramSize)) (ramSize / pageSize)
      (pmmInit kernelEnd ramSize State.zero) := by
  have small := layout.small
  have ramEnd : u64 (phyRamBase + ramSize) = phyRamBase + ramSize := by
    simp only [phyRamBase]
    exact u64_of_lt (by omega)
  simp only [pmmInit, layout.totalFrames_eq, ramEnd]
  exact initFrames_progress rfl (Nat.le_refl _) layout.frames_small (show 0 < 2 ^ 31 by decide)

/-- `pmm_init` leaves the three records in step. -/
theorem pmmInit_consistent {kernelEnd ramSize : Nat} (layout : BootLayout kernelEnd ramSize) :
    Consistent (pmmInit kernelEnd ramSize State.zero) := by
  have progress := pmmInit_progress layout
  have frames := layout.frames_small
  have pages := layout.pages
  have stack : (pmmInit kernelEnd ramSize State.zero).freeStack =
      (List.range (ramSize / pageSize - reservedFrames (pmmReservedEnd kernelEnd ramSize))).map
        fun position => reservedFrames (pmmReservedEnd kernelEnd ramSize) + position := by
    unfold State.freeStack
    rw [progress.top]
    exact List.map_congr_left fun position member =>
      progress.stack position (List.mem_range.mp member)
  refine
    { distinct := ?_
      free_iff := ?_
      accounted := ?_
      capacity := by rw [progress.capacity, progress.total]
      ramEnd := ?_
      small := by rw [progress.total]; exact frames
      tables := by rw [progress.tables]; exact layout.refCountsStart_ne_zero }
  · rw [stack]
    exact (List.nodup_range).map fun first second same => Nat.add_left_cancel same
  · intro idx
    rw [stack, progress.total]
    constructor
    · intro member
      obtain ⟨position, inRange, rfl⟩ := List.mem_map.mp member
      have below := List.mem_range.mp inRange
      refine ⟨by simp only; omega, ?_⟩
      rw [progress.counts _ (by omega), if_neg (by omega)]
    · rintro ⟨below, free⟩
      simp only at below
      rw [progress.counts idx below] at free
      have notReserved : ¬ idx < reservedFrames (pmmReservedEnd kernelEnd ramSize) := by
        intro reserved
        simp [reserved] at free
      exact List.mem_map.mpr ⟨idx - reservedFrames (pmmReservedEnd kernelEnd ramSize),
        List.mem_range.mpr (by omega), by omega⟩
  · rw [progress.used, progress.total]
    simp [State.zero]
  · rw [progress.ramEnd, progress.total]
    simp only [pageSize] at pages ⊢
    omega

end UniKernel.Pmm
