import UniKernel.Pmm.Invariant

/-!
Owns what a caller gets who only allocates: the frames popped since some state
of the allocator are the stack entries between the two tops. They are distinct
pages of RAM, and none of them is on the stack any more.
-/

namespace UniKernel.Pmm

open UniKernel.Lib

variable {start now : State} {frame addr : Nat}

/-- `now` is `start` with some frames popped. -/
structure Drawn (start now : State) : Prop where
  stack : now.frameStack = start.frameStack
  top : now.stackTop ≤ start.stackTop

/-- The frame was popped between `start` and `now`. -/
def Popped (start now : State) (frame : Nat) : Prop :=
  ∃ position, now.stackTop ≤ position ∧ position < start.stackTop ∧
    frame = indexToPhys (start.frameStack position)

/-- `addr` is one of the bytes of a page. -/
def InPage (page addr : Nat) : Prop := page ≤ addr ∧ addr < page + pageSize

theorem Drawn.refl (start : State) : Drawn start start := ⟨rfl, Nat.le_refl _⟩

theorem Drawn.trans {later : State} (first : Drawn start now) (second : Drawn now later) :
    Drawn start later :=
  ⟨second.stack.trans first.stack, Nat.le_trans second.top first.top⟩

theorem Consistent.frame_lt (consistent : Consistent start) {position : Nat}
    (inStack : position < start.stackTop) : start.frameStack position < 2 ^ 31 := by
  have member : start.frameStack position ∈ start.freeStack := by
    simp only [State.freeStack, List.mem_map, List.mem_range]
    exact ⟨position, inStack, rfl⟩
  exact Nat.lt_trans ((consistent.free_iff _).mp member).1 consistent.small

theorem Consistent.frame_inj (consistent : Consistent start) {position other : Nat}
    (inStack : position < start.stackTop) (otherInStack : other < start.stackTop)
    (same : indexToPhys (start.frameStack position) = indexToPhys (start.frameStack other)) :
    position = other := by
  rw [indexToPhys_of_lt (consistent.frame_lt inStack),
    indexToPhys_of_lt (consistent.frame_lt otherInStack)] at same
  have distinct := consistent.distinct
  unfold State.freeStack at distinct
  apply List.inj_on_of_nodup_map distinct (List.mem_range.mpr inStack)
    (List.mem_range.mpr otherInStack)
  simp only [phyRamBase, pageSize] at same
  omega

/-- A stack that is not empty has a frame. -/
theorem Drawn.allocates (drawn : Drawn start now) (consistent : Consistent start)
    (nonempty : now.stackTop ≠ 0) : (pmmAllocFrame now).1 ≠ 0 := by
  obtain ⟨top, isTop⟩ := Nat.exists_eq_succ_of_ne_zero nonempty
  have below : top < start.stackTop := by
    have bound := drawn.top
    omega
  rw [pmmAllocFrame_of_nonempty isTop]
  dsimp only
  rw [drawn.stack, indexToPhys_of_lt (consistent.frame_lt below)]
  simp only [phyRamBase]
  omega

namespace Popped

/-- A popped frame is a page of RAM. -/
theorem page (popped : Popped start now frame) (consistent : Consistent start) :
    frame % pageSize = 0 ∧ phyRamBase ≤ frame ∧ frame < 2 ^ 44 := by
  rcases popped with ⟨position, -, inStack, rfl⟩
  have small := consistent.frame_lt inStack
  rw [indexToPhys_of_lt small]
  simp only [phyRamBase, pageSize]
  omega

theorem mono (popped : Popped start now frame) {later : State} (drawn : Drawn now later) :
    Popped start later frame := by
  rcases popped with ⟨position, above, inStack, isFrame⟩
  exact ⟨position, Nat.le_trans drawn.top above, inStack, isFrame⟩

end Popped

/-- A successful `pmm_alloc_frame` pops a frame that was not popped before. -/
structure Pops (start now later : State) (frame : Nat) : Prop where
  drawn : Drawn start later
  after : Drawn now later
  popped : Popped start later frame
  fresh : ¬ Popped start now frame

theorem Drawn.pmmAllocFrame (drawn : Drawn start now) (consistent : Consistent start)
    (succeeds : (pmmAllocFrame now).1 ≠ 0) :
    Pops start now (pmmAllocFrame now).2 (pmmAllocFrame now).1 := by
  cases nonempty : now.stackTop with
  | zero =>
      rw [pmmAllocFrame_of_empty nonempty] at succeeds
      exact absurd rfl succeeds
  | succ top =>
      have below : top < start.stackTop := by
        have bound := drawn.top
        omega
      rw [pmmAllocFrame_of_nonempty nonempty]
      refine ⟨⟨drawn.stack, Nat.le_of_lt below⟩, ⟨rfl, ?_⟩, ⟨top, Nat.le_refl _, below, ?_⟩, ?_⟩
      · rw [nonempty]
        exact Nat.le_succ top
      · rw [drawn.stack]
      · rintro ⟨position, above, inStack, same⟩
        rw [drawn.stack] at same
        have isTop := consistent.frame_inj below inStack same
        omega

end UniKernel.Pmm
