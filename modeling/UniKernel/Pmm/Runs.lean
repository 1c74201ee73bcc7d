import UniKernel.Lib.Transition
import UniKernel.Pmm.Invariant

/-!
Owns the runs of the page-frame allocator: any sequence of `pmm_alloc_frame`,
`pmm_inc_ref` on held frames and `pmm_free_frame` once per held reference,
after `pmm_init`. `held` records the references the callers own; the invariant
ties it to `ref_counts` and to the frames `pmm_init` reserves.
-/

namespace UniKernel.Pmm

open UniKernel.Lib

/-- The allocator together with the references its callers hold, per frame. -/
structure Holders where
  pmm : State
  held : Nat → Nat

inductive Call where
  | alloc
  | incRef (addr : Nat)
  | free (addr : Nat)

/-- The frame an address belongs to. -/
def frameOf (addr : Nat) : Nat := (addr - phyRamBase) / pageSize

/-- One call of a caller that respects its references: it takes references to
frames it holds, at most 255 at a time, and gives each back once. -/
inductive CallStep : Holders → Call → Holders → Prop where
  | allocFails {m : Holders} (failed : (pmmAllocFrame m.pmm).1 = 0) :
      CallStep m .alloc { m with pmm := (pmmAllocFrame m.pmm).2 }
  | alloc {m : Holders} (returned : (pmmAllocFrame m.pmm).1 ≠ 0) :
      CallStep m .alloc
        ⟨(pmmAllocFrame m.pmm).2,
          Function.update m.held (frameOf (pmmAllocFrame m.pmm).1)
            (m.held (frameOf (pmmAllocFrame m.pmm).1) + 1)⟩
  | incRef {m : Holders} {idx addr : Nat} (inside : InFrame idx addr)
      (holds : 0 < m.held idx) (room : m.held idx < 255) :
      CallStep m (.incRef addr)
        ⟨pmmIncRef addr m.pmm, Function.update m.held idx (m.held idx + 1)⟩
  | free {m : Holders} {idx addr : Nat} (inside : InFrame idx addr) (holds : 0 < m.held idx) :
      CallStep m (.free addr)
        ⟨pmmFreeFrame addr m.pmm, Function.update m.held idx (m.held idx - 1)⟩

/-- After `pmm_init` nobody holds a frame. -/
def booted (kernelEnd ramSize : Nat) : Holders :=
  ⟨pmmInit kernelEnd ramSize State.zero, fun _ => 0⟩

/-- The invariant of every run: the records agree, and a count is the number
of references held plus the one `pmm_init` keeps on each reserved frame. -/
structure HoldersInvariant (kernelEnd ramSize : Nat) (m : Holders) : Prop where
  consistent : Consistent m.pmm
  total : m.pmm.totalFrames = ramSize / pageSize
  counts : ∀ idx, idx < m.pmm.totalFrames → m.pmm.refCounts idx =
    m.held idx + if idx < reservedFrames (pmmReservedEnd kernelEnd ramSize) then 1 else 0
  heldFrames : ∀ idx, 0 < m.held idx →
    idx < m.pmm.totalFrames ∧ reservedFrames (pmmReservedEnd kernelEnd ramSize) ≤ idx

section Invariant

variable {kernelEnd ramSize : Nat} {m : Holders}

theorem booted_invariant (layout : BootLayout kernelEnd ramSize) :
    HoldersInvariant kernelEnd ramSize (booted kernelEnd ramSize) where
  consistent := pmmInit_consistent layout
  total := (pmmInit_progress layout).total
  counts := by
    have progress := pmmInit_progress layout
    intro idx below
    change idx < (pmmInit kernelEnd ramSize State.zero).totalFrames at below
    rw [progress.total] at below
    change (pmmInit kernelEnd ramSize State.zero).refCounts idx = _
    rw [progress.counts idx below]
    exact (Nat.zero_add _).symm
  heldFrames := by
    intro idx positive
    exact absurd positive (Nat.lt_irrefl 0)

/-- A held frame is in use and its count is the number of its holders. -/
theorem HoldersInvariant.refCounts_of_held (inv : HoldersInvariant kernelEnd ramSize m)
    {idx : Nat} (holds : 0 < m.held idx) :
    idx < m.pmm.totalFrames ∧ m.pmm.refCounts idx = m.held idx := by
  obtain ⟨below, notReserved⟩ := inv.heldFrames idx holds
  refine ⟨below, ?_⟩
  rw [inv.counts idx below, if_neg (Nat.not_lt.mpr notReserved), Nat.add_zero]

/-- A free frame is neither held nor reserved. -/
theorem HoldersInvariant.free_iff (inv : HoldersInvariant kernelEnd ramSize m) {idx : Nat}
    (below : idx < m.pmm.totalFrames) :
    m.pmm.refCounts idx = 0 ↔
      m.held idx = 0 ∧ reservedFrames (pmmReservedEnd kernelEnd ramSize) ≤ idx := by
  rw [inv.counts idx below]
  split <;> omega

theorem frameOf_indexToPhys {idx : Nat} (small : idx < 2 ^ 31) :
    frameOf (indexToPhys idx) = idx := by
  rw [indexToPhys_of_lt small]
  simp only [frameOf, phyRamBase, pageSize]
  omega

theorem indexToPhys_ne_zero {idx : Nat} (small : idx < 2 ^ 31) : indexToPhys idx ≠ 0 := by
  rw [indexToPhys_of_lt small]
  simp only [phyRamBase]
  omega

/-- The counts after an update of one frame's holders. -/
theorem HoldersInvariant.update (inv : HoldersInvariant kernelEnd ramSize m) {next : State}
    {idx holders : Nat} (below : idx < m.pmm.totalFrames)
    (notReserved : reservedFrames (pmmReservedEnd kernelEnd ramSize) ≤ idx)
    (consistent : Consistent next) (total : next.totalFrames = m.pmm.totalFrames)
    (counts : next.refCounts = Function.update m.pmm.refCounts idx holders) :
    HoldersInvariant kernelEnd ramSize ⟨next, Function.update m.held idx holders⟩ where
  consistent := consistent
  total := total.trans inv.total
  counts := by
    intro other otherBelow
    simp only [counts]
    simp only [total] at otherBelow
    by_cases same : other = idx
    · subst same
      simp [Nat.not_lt.mpr notReserved]
    · simp only [Function.update_of_ne same]
      exact inv.counts other otherBelow
  heldFrames := by
    intro other positive
    simp only [total]
    by_cases same : other = idx
    · subst same
      exact ⟨below, notReserved⟩
    · simp only [Function.update_of_ne same] at positive
      exact inv.heldFrames other positive

theorem totalFrames_pmmFreeFrame (addr : Nat) (s : State) :
    (pmmFreeFrame addr s).totalFrames = s.totalFrames := by
  simp only [pmmFreeFrame, pushFrame]
  repeat' split
  all_goals rfl

/-- One call keeps the invariant. -/
theorem HoldersInvariant.step {call : Call} {next : Holders}
    (inv : HoldersInvariant kernelEnd ramSize m) (taken : CallStep m call next) :
    HoldersInvariant kernelEnd ramSize next := by
  have small := inv.consistent.small
  cases taken with
  | allocFails failed =>
      cases nonempty : m.pmm.stackTop with
      | zero =>
          rw [pmmAllocFrame_of_empty nonempty]
          exact inv
      | succ top =>
          obtain ⟨below, -⟩ := inv.consistent.top_free nonempty
          rw [pmmAllocFrame_of_nonempty nonempty] at failed
          exact absurd failed (indexToPhys_ne_zero (by omega))
  | alloc returned =>
      cases nonempty : m.pmm.stackTop with
      | zero =>
          rw [pmmAllocFrame_of_empty nonempty] at returned
          exact absurd rfl returned
      | succ top =>
          obtain ⟨below, free⟩ := inv.consistent.top_free nonempty
          obtain ⟨notHeld, notReserved⟩ := (inv.free_iff below).mp free
          have consistent := inv.consistent.pmmAllocFrame
          rw [pmmAllocFrame_of_nonempty nonempty] at consistent ⊢
          rw [frameOf_indexToPhys (by omega), notHeld]
          exact inv.update below notReserved consistent rfl rfl
  | @incRef idx addr inside holds room =>
      obtain ⟨below, count⟩ := inv.refCounts_of_held holds
      rw [inv.consistent.pmmIncRef_of_room below inside (by omega), count]
      exact inv.update below (inv.heldFrames idx holds).2
        (inv.consistent.setCount (by omega) (by omega)) rfl rfl
  | @free idx addr inside holds =>
      obtain ⟨below, count⟩ := inv.refCounts_of_held holds
      have used : m.pmm.refCounts idx ≠ 0 := by omega
      refine inv.update below (inv.heldFrames idx holds).2
        (inv.consistent.pmmFreeFrame below inside used) (totalFrames_pmmFreeFrame addr m.pmm) ?_
      rw [inv.consistent.refCounts_pmmFreeFrame below inside used, count]

end Invariant

/-! ### What callers rely on -/

/-- The stack entries are distinct frame indices, exactly those with count
zero, and stack and used counter add up to all frames. -/
structure StackAgrees (s : State) : Prop where
  distinct : ∀ lower upper, lower < upper → upper < s.stackTop →
    s.frameStack lower ≠ s.frameStack upper
  below : ∀ position, position < s.stackTop → s.frameStack position < s.totalFrames
  onStack_iff : ∀ idx, idx < s.totalFrames →
    ((∃ position, position < s.stackTop ∧ s.frameStack position = idx) ↔ s.refCounts idx = 0)
  accounted : s.stackTop + s.usedFrames = s.totalFrames
  room : s.stackTop ≤ s.stackCapacity

theorem mem_freeStack {s : State} {idx : Nat} :
    idx ∈ s.freeStack ↔ ∃ position, position < s.stackTop ∧ s.frameStack position = idx := by
  simp [State.freeStack]

theorem Consistent.stackAgrees {s : State} (consistent : Consistent s) : StackAgrees s where
  distinct := by
    intro lower upper ordered inStack same
    have distinct := consistent.distinct
    unfold State.freeStack at distinct
    have equal := List.inj_on_of_nodup_map distinct (List.mem_range.mpr (by omega))
      (List.mem_range.mpr inStack) same
    omega
  below := by
    intro position inStack
    exact ((consistent.free_iff _).mp (mem_freeStack.mpr ⟨position, inStack, rfl⟩)).1
  onStack_iff := by
    intro idx below
    rw [← mem_freeStack, consistent.free_iff]
    simp [below]
  accounted := consistent.accounted
  room := by
    have accounted := consistent.accounted
    have capacity := consistent.capacity
    omega

/-- A frame some caller may be given: not held and behind the PMM's tables. -/
def Available (kernelEnd ramSize : Nat) (m : Holders) (idx : Nat) : Prop :=
  idx < m.pmm.totalFrames ∧ pmmReservedEnd kernelEnd ramSize ≤ indexToPhys idx ∧ m.held idx = 0

/-- `pmm_alloc_frame` fails exactly when no frame is available, and otherwise
returns the first byte of an available frame inside RAM. -/
def AllocAnswers (kernelEnd ramSize : Nat) (m : Holders) : Prop :=
  ((pmmAllocFrame m.pmm).1 = 0 ↔ ∀ idx, ¬ Available kernelEnd ramSize m idx) ∧
    ((pmmAllocFrame m.pmm).1 ≠ 0 →
      ∃ idx, Available kernelEnd ramSize m idx ∧ (pmmAllocFrame m.pmm).1 = indexToPhys idx ∧
        indexToPhys idx + pageSize ≤ phyRamBase + ramSize)

section Answers

variable {kernelEnd ramSize : Nat} {m : Holders}

theorem HoldersInvariant.available_iff (inv : HoldersInvariant kernelEnd ramSize m) {idx : Nat} :
    Available kernelEnd ramSize m idx ↔ idx < m.pmm.totalFrames ∧ m.pmm.refCounts idx = 0 := by
  have small := inv.consistent.small
  unfold Available
  constructor
  · rintro ⟨below, behind, notHeld⟩
    refine ⟨below, (inv.free_iff below).mpr ⟨notHeld, ?_⟩⟩
    have notReserved := mt (lt_reservedFrames_iff (pmmReservedEnd kernelEnd ramSize)
      (show idx < 2 ^ 31 by omega)).mp
    omega
  · rintro ⟨below, free⟩
    obtain ⟨notHeld, notReserved⟩ := (inv.free_iff below).mp free
    refine ⟨below, ?_, notHeld⟩
    have base : indexToPhys idx ≥ phyRamBase := by
      rw [indexToPhys_of_lt (by omega)]
      omega
    have behind := mt (lt_reservedFrames_iff (pmmReservedEnd kernelEnd ramSize)
      (show idx < 2 ^ 31 by omega)).mpr (Nat.not_lt.mpr notReserved)
    omega

theorem HoldersInvariant.allocAnswers (inv : HoldersInvariant kernelEnd ramSize m) :
    AllocAnswers kernelEnd ramSize m := by
  have small := inv.consistent.small
  cases nonempty : m.pmm.stackTop with
  | zero =>
      have emptyStack : m.pmm.freeStack = [] := by simp [State.freeStack, nonempty]
      unfold AllocAnswers
      rw [pmmAllocFrame_of_empty nonempty]
      refine ⟨⟨fun _ idx available => ?_, fun _ => rfl⟩, fun nonzero => absurd rfl nonzero⟩
      have onStack := (inv.consistent.free_iff idx).mpr (inv.available_iff.mp available)
      rw [emptyStack] at onStack
      cases onStack
  | succ top =>
      obtain ⟨below, free⟩ := inv.consistent.top_free nonempty
      have available := inv.available_iff.mpr ⟨below, free⟩
      have total := inv.total
      simp only [AllocAnswers, pmmAllocFrame_of_nonempty nonempty]
      refine ⟨⟨fun zero => absurd zero (indexToPhys_ne_zero (by omega)), fun none =>
        absurd available (none _)⟩, fun _ => ⟨_, available, rfl, ?_⟩⟩
      rw [indexToPhys_of_lt (by omega)]
      simp only [phyRamBase, pageSize] at *
      omega

/-- A step that pushes an index finds room for it. -/
theorem HoldersInvariant.push_room {call : Call} {next : Holders}
    (inv : HoldersInvariant kernelEnd ramSize m) (taken : CallStep m call next)
    (pushes : m.pmm.stackTop < next.pmm.stackTop) :
    m.pmm.stackTop < m.pmm.stackCapacity := by
  have after := (inv.step taken).consistent.stackAgrees.accounted
  have totalAfter := (inv.step taken).total
  have totalBefore := inv.total
  have capacity := inv.consistent.capacity
  omega

end Answers

/-- In every run after `pmm_init` the free stack, the counts and the used
counter agree, every push stays inside the stack, and `pmm_alloc_frame`
answers with an available frame exactly when there is one. -/
theorem frame_records_agree {kernelEnd ramSize : Nat} (layout : BootLayout kernelEnd ramSize)
    {path : List (Transition Holders Call)} {last : Holders}
    (run : Execution CallStep (booted kernelEnd ramSize) path last) :
    StackAgrees last.pmm ∧ AllocAnswers kernelEnd ramSize last ∧
      ∀ transition ∈ path, transition.source.pmm.stackTop < transition.target.pmm.stackTop →
        transition.source.pmm.stackTop < transition.source.pmm.stackCapacity := by
  have start := booted_invariant layout
  have keeps : ∀ source label target, HoldersInvariant kernelEnd ramSize source →
      CallStep source label target → HoldersInvariant kernelEnd ramSize target :=
    fun _ _ _ inv taken => inv.step taken
  have final := run.invariant start keeps
  refine ⟨final.consistent.stackAgrees, final.allocAnswers, fun transition member pushes => ?_⟩
  exact (run.invariant_transitions start keeps transition member).1.push_room
    (run.step_of_mem member) pushes

/-- Eight pages of RAM with the kernel in the first: one frame is allocated,
referenced a second time and given back once. -/
theorem frame_records_agree_eight_pages :
    ∃ path last, Execution CallStep (booted 0x40001000 0x8000) path last ∧
      path.length = 3 ∧ last.held 7 = 1 ∧ StackAgrees last.pmm ∧
      AllocAnswers 0x40001000 0x8000 last := by
  have layout : BootLayout 0x40001000 0x8000 := by constructor <;> decide
  have inside : InFrame 7 0x40007000 := by unfold InFrame; decide
  have run := ((Execution.single (CallStep.alloc (m := booted 0x40001000 0x8000) (by decide))).snoc
    (CallStep.incRef inside (by decide) (by decide))).snoc (CallStep.free inside (by decide))
  have agrees := frame_records_agree layout run
  exact ⟨_, _, run, rfl, by decide, agrees.1, agrees.2.1⟩

end UniKernel.Pmm
