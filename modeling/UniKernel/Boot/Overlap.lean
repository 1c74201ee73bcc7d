import UniKernel.Boot.Model

/-!
Owns when the two allocators stay apart. The frames of the heap region are
never marked used, so they sit at the bottom of the free stack; they are handed
out once everything above them is. The invariant says that this bottom part of
the stack is still as `pmm_init` left it.
-/

namespace UniKernel.Boot

open UniKernel.Lib
open UniKernel.Pmm (Holders HoldersInvariant Call CallStep Consistent pmmAllocFrame phyRamBase
  pageSize)
open UniKernel.Vmm (allocFrames allocFrames_stack pmmAllocFrame_stack)

/-- The first frame behind the heap region. -/
@[simp] def heapEndFrame : Nat := 0x10800

section Allocations

variable {kernelEnd ramSize : Nat}

/-- One more allocation, with the references of its caller. -/
theorem exists_held_pmmAllocFrame {m : Holders} (inv : HoldersInvariant kernelEnd ramSize m) :
    ∃ held, HoldersInvariant kernelEnd ramSize ⟨(pmmAllocFrame m.pmm).2, held⟩ ∧
      ∀ idx, held idx + m.pmm.refCounts idx =
        m.held idx + (pmmAllocFrame m.pmm).2.refCounts idx := by
  cases nonempty : m.pmm.stackTop with
  | zero =>
      rw [Pmm.pmmAllocFrame_of_empty nonempty]
      exact ⟨m.held, inv, fun _ => rfl⟩
  | succ top =>
      obtain ⟨below, free⟩ := inv.consistent.top_free nonempty
      obtain ⟨notHeld, notReserved⟩ := (inv.free_iff below).mp free
      have consistent := inv.consistent.pmmAllocFrame
      rw [Pmm.pmmAllocFrame_of_nonempty nonempty] at consistent ⊢
      refine ⟨_, inv.update below notReserved consistent rfl rfl, fun idx => ?_⟩
      by_cases same : idx = m.pmm.frameStack top
      · subst same
        simp [free, notHeld]
      · simp [Function.update_of_ne same]

theorem exists_held_allocFrames (count : Nat) {m : Holders}
    (inv : HoldersInvariant kernelEnd ramSize m) :
    ∃ held, HoldersInvariant kernelEnd ramSize ⟨allocFrames count m.pmm, held⟩ ∧
      ∀ idx, held idx + m.pmm.refCounts idx =
        m.held idx + (allocFrames count m.pmm).refCounts idx := by
  induction count generalizing m with
  | zero => exact ⟨m.held, inv, fun _ => rfl⟩
  | succ count inductionHypothesis =>
      obtain ⟨first, firstInv, firstCounts⟩ := exists_held_pmmAllocFrame inv
      obtain ⟨held, heldInv, counts⟩ := inductionHypothesis firstInv
      refine ⟨held, heldInv, fun idx => ?_⟩
      have early := firstCounts idx
      have late := counts idx
      simp only [allocFrames] at late ⊢
      omega

end Allocations

/-! ### The invariant -/

/-- The frames `pmm_init` reserves for the kernel image and its own tables. -/
def bootReserved (kernelEnd : Nat) : Nat :=
  Pmm.reservedFrames (Pmm.pmmReservedEnd kernelEnd bootRamSize)

/-- The entries for frames below the end of the heap are where `pmm_init` put
them, and none of them has been popped. -/
structure BottomOfStack (kernelEnd : Nat) (s : Pmm.State) : Prop where
  bottom : ∀ position, bootReserved kernelEnd + position < heapEndFrame →
    s.frameStack position = bootReserved kernelEnd + position
  room : heapEndFrame ≤ bootReserved kernelEnd + s.stackTop

/-- The invariant of a run in which the two allocators stay apart. -/
structure Intact (kernelEnd : Nat) (m : Machine) : Prop where
  holders : HoldersInvariant kernelEnd bootRamSize m.frames
  stack : BottomOfStack kernelEnd m.frames.pmm
  heapStart : m.heap.heapStartAddr = 0x50000000
  heapEnd : m.heap.heapEndAddr = 0x50800000

theorem boot_region (ram : Ram) :
    (Heap.heapInit bootHeapStart bootHeapSize ram.heap).heapStartAddr = 0x50000000 ∧
      (Heap.heapInit bootHeapStart bootHeapSize ram.heap).heapEndAddr = 0x50800000 := by
  have region := Heap.heapInit_region bootHeapStart bootHeapSize 0x50000000 0 2048 (by decide)
    (by decide) (by decide) (by decide) (by decide) ram.heap
  exact ⟨region.1, region.2.1⟩

section Boot

variable {kernelEnd : Nat}

theorem KernelFits.layout (fits : KernelFits kernelEnd) :
    Pmm.BootLayout kernelEnd bootRamSize where
  aboveBase := fits.aboveBase
  belowEnd := by
    have belowHeap := fits.belowHeap
    simp only [bootHeapStart] at belowHeap
    simp only [phyRamBase, bootRamSize]
    omega
  pages := by decide
  small := by decide
  fits := Nat.le_trans fits.tablesBelowHeap (by decide)

theorem KernelFits.reserved_le (fits : KernelFits kernelEnd) :
    bootReserved kernelEnd ≤ 0x10000 := by
  have tables := fits.tablesBelowHeap
  simp only [bootHeapStart] at tables
  simp only [bootReserved, Pmm.reservedFrames, phyRamBase, pageSize]
  omega

/-- `init_vmm` pops at most `initVmmFrames` frames. -/
theorem initVmm_pops {pmm : Pmm.State} (ram : Ram) (aboveBase : phyRamBase ≤ kernelEnd)
    (belowHeap : kernelEnd < 0x50000000) (ramSize : pmm.phyRamSize = bootRamSize) :
    Vmm.Pops Vmm.initVmmFrames pmm (Vmm.initVmm kernelEnd (ram.vmm pmm)).pmm := by
  have twoGiB : bootRamSize = 0x80000000 := rfl
  have known : (pmmAllocFrame (ram.vmm pmm).pmm).2.phyRamSize = 0x80000000 :=
    ((pmmAllocFrame_stack pmm).2.2.trans ramSize).trans twoGiB
  exact Vmm.initVmm_pops aboveBase belowHeap known

theorem BottomOfStack.of_pops {before after : Pmm.State} (fits : KernelFits kernelEnd)
    (pops : Vmm.Pops Vmm.initVmmFrames before after)
    (entries : ∀ position, position < 0x80000 - bootReserved kernelEnd →
      before.frameStack position = bootReserved kernelEnd + position)
    (top : before.stackTop = 0x80000 - bootReserved kernelEnd) :
    BottomOfStack kernelEnd after := by
  have reserved := fits.reserved_le
  obtain ⟨count, few, rfl⟩ := pops
  obtain ⟨sameEntries, lowered⟩ := allocFrames_stack count before
  simp only [Vmm.initVmmFrames] at few
  constructor
  · intro position below
    simp only [heapEndFrame] at below
    rw [sameEntries]
    exact entries position (by omega)
  · rw [lowered, top]
    simp only [heapEndFrame]
    omega

/-- The references `init_vmm` takes are those of the frames it pops. -/
theorem holders_vmmHolders {ramSize : Nat} {before : Pmm.State} {after : Vmm.State}
    (inv : HoldersInvariant kernelEnd ramSize ⟨before, fun _ => 0⟩)
    (pops : Vmm.Pops Vmm.initVmmFrames before after.pmm) :
    HoldersInvariant kernelEnd ramSize (vmmHolders before after) := by
  obtain ⟨count, -, popped⟩ := pops
  obtain ⟨held, heldInv, counts⟩ := exists_held_allocFrames count inv
  have sameHeld : held = fun idx => after.pmm.refCounts idx - before.refCounts idx := by
    funext idx
    have count := counts idx
    rw [popped]
    simp only at count ⊢
    omega
  unfold vmmHolders
  rw [← sameHeld, popped]
  exact heldInv

theorem bootMachine_intact (fits : KernelFits kernelEnd) (ram : Ram) {before : Pmm.State}
    {after : Vmm.State} (pops : Vmm.Pops Vmm.initVmmFrames before after.pmm)
    (inv : HoldersInvariant kernelEnd bootRamSize ⟨before, fun _ => 0⟩)
    (entries : ∀ position, position < 0x80000 - bootReserved kernelEnd →
      before.frameStack position = bootReserved kernelEnd + position)
    (top : before.stackTop = 0x80000 - bootReserved kernelEnd) :
    Intact kernelEnd (bootMachine before after ram) where
  holders := holders_vmmHolders inv pops
  stack := BottomOfStack.of_pops fits pops entries top
  heapStart := (boot_region ram).1
  heapEnd := (boot_region ram).2

/-- After boot the allocators are apart. -/
theorem boot_intact (fits : KernelFits kernelEnd) (ram : Ram) :
    Intact kernelEnd (boot kernelEnd ram) := by
  have progress := Pmm.pmmInit_progress fits.layout
  have pages : bootRamSize / pageSize = 0x80000 := by decide
  have pops := initVmm_pops ram fits.aboveBase fits.belowHeap progress.ramSize
  have top := progress.top
  have entries := progress.stack
  rw [pages] at top entries
  exact bootMachine_intact fits ram pops (Pmm.booted_invariant fits.layout) entries top

end Boot

/-! ### Which frames overlap -/

theorem outsideHeap_iff {heap : Heap.State} (heapStart : heap.heapStartAddr = 0x50000000)
    (heapEnd : heap.heapEndAddr = 0x50800000) (idx : Nat) :
    OutsideHeap heap idx ↔ idx < 0x10000 ∨ heapEndFrame ≤ idx := by
  unfold OutsideHeap
  rw [heapStart, heapEnd]
  simp only [Pmm.InFrame, phyRamBase, pageSize, heapEndFrame]
  constructor
  · intro outside
    have first := outside (0x40000000 + idx * 4096) ⟨by omega, by omega⟩
    omega
  · intro apart addr inside
    omega

section Steps

variable {kernelEnd : Nat} {m next : Machine} {event : Event}

/-- Above the bottom of the stack lie no frames of the heap region. -/
theorem Intact.top_outsideHeap (intact : Intact kernelEnd m) (fits : KernelFits kernelEnd)
    {top : Nat} (nonempty : m.frames.pmm.stackTop = top + 1)
    (above : heapEndFrame ≤ bootReserved kernelEnd + top) :
    OutsideHeap m.heap (m.frames.pmm.frameStack top) := by
  rw [outsideHeap_iff intact.heapStart intact.heapEnd]
  by_contra inside
  have reserved := fits.reserved_le
  simp only [heapEndFrame, not_or, Nat.not_lt, Nat.not_le] at inside above
  have bottom := intact.stack.bottom (m.frames.pmm.frameStack top - bootReserved kernelEnd)
    (by simp only [heapEndFrame]; omega)
  have distinct := intact.holders.consistent.stackAgrees.distinct
    (m.frames.pmm.frameStack top - bootReserved kernelEnd) top (by omega) (by omega)
  exact distinct (bottom.trans (by omega))

/-- The entry right below the end of the heap is the heap's last frame. -/
theorem Intact.bottom_overlaps (intact : Intact kernelEnd m) {top : Nat}
    (atEnd : heapEndFrame = bootReserved kernelEnd + top + 1) :
    ¬ OutsideHeap m.heap (m.frames.pmm.frameStack top) := by
  rw [outsideHeap_iff intact.heapStart intact.heapEnd]
  have bottom := intact.stack.bottom top (by omega)
  simp only [heapEndFrame] at atEnd ⊢
  omega

/-- Under the invariant an allocation misses the heap exactly when it finds few
frames used. -/
theorem Intact.returnsOutsideHeap_iff (intact : Intact kernelEnd m) (fits : KernelFits kernelEnd) :
    ReturnsOutsideHeap ⟨m, event, next⟩ ↔ FindsFewFramesUsed kernelEnd ⟨m, event, next⟩ := by
  apply forall_congr'
  rintro -
  have reserved := fits.reserved_le
  have room := intact.stack.room
  have accounted := intact.holders.consistent.accounted
  have total := intact.holders.total
  have pages : bootRamSize / pageSize = 0x80000 := by decide
  cases nonempty : m.frames.pmm.stackTop with
  | zero =>
      simp only [nonempty, heapEndFrame] at room
      omega
  | succ top =>
      obtain ⟨below, -⟩ := intact.holders.consistent.top_free nonempty
      have small : m.frames.pmm.frameStack top < 2 ^ 31 := by omega
      simp only [Pmm.pmmAllocFrame_of_nonempty nonempty, Pmm.frameOf_indexToPhys small,
        Pmm.indexToPhys_ne_zero small, ne_eq, not_false_eq_true, forall_const]
      change _ ↔ _ < bootReserved kernelEnd + framesAboveHeap
      simp only [heapEndFrame, framesAboveHeap, nonempty] at room accounted ⊢
      constructor
      · intro outside
        by_contra few
        exact intact.bottom_overlaps (by simp only [heapEndFrame]; omega) outside
      · intro few
        exact intact.top_outsideHeap fits nonempty (by simp only [heapEndFrame]; omega)

/-! ### What each call keeps -/

theorem pmmIncRef_stack (addr : Nat) (s : Pmm.State) :
    (Pmm.pmmIncRef addr s).frameStack = s.frameStack ∧
      (Pmm.pmmIncRef addr s).stackTop = s.stackTop := by
  unfold Pmm.pmmIncRef
  simp only
  repeat' split
  all_goals exact ⟨rfl, rfl⟩

theorem BottomOfStack.congr {before after : Pmm.State} (stack : BottomOfStack kernelEnd before)
    (entries : after.frameStack = before.frameStack) (top : after.stackTop = before.stackTop) :
    BottomOfStack kernelEnd after where
  bottom := by rw [entries]; exact stack.bottom
  room := by rw [top]; exact stack.room

/-- A pushed index lands above the bottom of the stack. -/
theorem BottomOfStack.pushFrame {s : Pmm.State} (stack : BottomOfStack kernelEnd s)
    (small : s.stackTop + 1 < 2 ^ 32) (idx : Nat) :
    BottomOfStack kernelEnd (Pmm.pushFrame idx s) where
  bottom := by
    intro position below
    have room := stack.room
    have notTop : position ≠ s.stackTop := by omega
    exact (Function.update_of_ne notTop _ _).trans (stack.bottom position below)
  room := by
    have room := stack.room
    change heapEndFrame ≤ bootReserved kernelEnd + u32 (s.stackTop + 1)
    rw [u32_of_lt small]
    omega

theorem BottomOfStack.pmmFreeFrame {s : Pmm.State} (stack : BottomOfStack kernelEnd s)
    (consistent : Consistent s) {idx addr : Nat} (below : idx < s.totalFrames)
    (inside : Pmm.InFrame idx addr) (used : s.refCounts idx ≠ 0) :
    BottomOfStack kernelEnd (Pmm.pmmFreeFrame addr s) := by
  have small := consistent.small
  have accounted := consistent.accounted
  by_cases last : s.refCounts idx = 1
  · rw [consistent.pmmFreeFrame_of_last below inside last]
    apply BottomOfStack.pushFrame
    · exact stack.congr rfl rfl
    · simp only
      omega
  · rw [consistent.pmmFreeFrame_of_shared below inside (by omega)]
    exact stack.congr rfl rfl

/-- While frames above the heap remain, an allocation leaves the bottom alone. -/
theorem Intact.pmmAllocFrame_stack (intact : Intact kernelEnd m)
    (few : m.frames.pmm.usedFrames < bootReserved kernelEnd + framesAboveHeap) :
    BottomOfStack kernelEnd (pmmAllocFrame m.frames.pmm).2 := by
  obtain ⟨entries, top, -⟩ := Vmm.pmmAllocFrame_stack m.frames.pmm
  have accounted := intact.holders.consistent.accounted
  have total := intact.holders.total
  have pages : bootRamSize / pageSize = 0x80000 := by decide
  constructor
  · rw [entries]
    exact intact.stack.bottom
  · rw [top]
    simp only [heapEndFrame, framesAboveHeap] at few ⊢
    omega

theorem Intact.frame {call : Call} {frames : Holders} (intact : Intact kernelEnd m)
    (taken : CallStep m.frames call frames)
    (few : FindsFewFramesUsed kernelEnd ⟨m, .frame call, { m with frames := frames }⟩) :
    BottomOfStack kernelEnd frames.pmm := by
  cases taken with
  | allocFails => exact intact.pmmAllocFrame_stack (few rfl)
  | alloc => exact intact.pmmAllocFrame_stack (few rfl)
  | incRef =>
      obtain ⟨entries, top⟩ := pmmIncRef_stack _ m.frames.pmm
      exact intact.stack.congr entries top
  | free inside holds =>
      obtain ⟨below, count⟩ := intact.holders.refCounts_of_held holds
      exact intact.stack.pmmFreeFrame intact.holders.consistent below inside (by omega)

/-- A call that finds few frames used keeps the allocators apart. -/
theorem Intact.step (intact : Intact kernelEnd m) (taken : Step m event next)
    (few : FindsFewFramesUsed kernelEnd ⟨m, event, next⟩) : Intact kernelEnd next := by
  have region : ∀ {heap : Heap.State} {blocks : List Nat}, Heap.SameStatics m.heap heap →
      Intact kernelEnd { m with heap := heap, blocks := blocks } := fun statics =>
    { holders := intact.holders
      stack := intact.stack
      heapStart := statics.heapStart.trans intact.heapStart
      heapEnd := statics.heapEnd.trans intact.heapEnd }
  cases taken with
  | frame call =>
      exact
        { holders := intact.holders.step call
          stack := intact.frame call few
          heapStart := intact.heapStart
          heapEnd := intact.heapEnd }
  | mallocFails size => exact region (Heap.malloc_statics size m.heap)
  | malloc size => exact region (Heap.malloc_statics size m.heap)
  | free => exact region (Heap.free_statics _ m.heap)

/-- No frame of the heap region is held. -/
theorem Intact.held_outsideHeap (intact : Intact kernelEnd m) (fits : KernelFits kernelEnd)
    {idx : Nat} (held : 0 < m.frames.held idx) : OutsideHeap m.heap idx := by
  rw [outsideHeap_iff intact.heapStart intact.heapEnd]
  by_contra inside
  have reserved := fits.reserved_le
  have room := intact.stack.room
  obtain ⟨below, count⟩ := intact.holders.refCounts_of_held held
  simp only [heapEndFrame, not_or, Nat.not_lt, Nat.not_le] at inside room
  have bottom := intact.stack.bottom (idx - bootReserved kernelEnd)
    (by simp only [heapEndFrame]; omega)
  have onStack := (intact.holders.consistent.stackAgrees.onStack_iff idx below).mp
    ⟨idx - bootReserved kernelEnd, by omega, bottom.trans (by omega)⟩
  omega

/-- The bottom of the stack is never empty, so an allocation succeeds. -/
theorem Intact.exists_alloc (intact : Intact kernelEnd m) (fits : KernelFits kernelEnd) :
    ∃ next, Step m (.frame .alloc) next ∧ next.frames.pmm = (pmmAllocFrame m.frames.pmm).2 := by
  have reserved := fits.reserved_le
  have room := intact.stack.room
  have small := intact.holders.consistent.small
  cases nonempty : m.frames.pmm.stackTop with
  | zero =>
      simp only [heapEndFrame] at room
      omega
  | succ top =>
      obtain ⟨below, -⟩ := intact.holders.consistent.top_free nonempty
      have returned : (pmmAllocFrame m.frames.pmm).1 ≠ 0 := by
        rw [Pmm.pmmAllocFrame_of_nonempty nonempty]
        exact Pmm.indexToPhys_ne_zero (by omega)
      exact ⟨_, Step.frame (CallStep.alloc returned), rfl⟩

/-- Repeated allocation reaches the heap region. -/
theorem exists_overlap (fits : KernelFits kernelEnd) (count : Nat) {m : Machine}
    (intact : Intact kernelEnd m)
    (distance : bootReserved kernelEnd + m.frames.pmm.stackTop = heapEndFrame + count) :
    ∃ path last, Execution Step m path last ∧
      ∃ transition ∈ path, ¬ ReturnsOutsideHeap transition := by
  have pages : bootRamSize / pageSize = 0x80000 := by decide
  induction count generalizing m with
  | zero =>
      have accounted := intact.holders.consistent.accounted
      have total := intact.holders.total
      obtain ⟨next, taken, -⟩ := intact.exists_alloc fits
      refine ⟨_, _, Execution.single taken, _, List.mem_singleton_self _, ?_⟩
      rw [intact.returnsOutsideHeap_iff fits]
      intro few
      have used : m.frames.pmm.usedFrames < bootReserved kernelEnd + framesAboveHeap := few rfl
      simp only [framesAboveHeap, heapEndFrame] at used distance
      omega
  | succ count inductionHypothesis =>
      have accounted := intact.holders.consistent.accounted
      have total := intact.holders.total
      obtain ⟨next, taken, popped⟩ := intact.exists_alloc fits
      have few : FindsFewFramesUsed kernelEnd ⟨m, .frame .alloc, next⟩ := by
        intro
        change m.frames.pmm.usedFrames < bootReserved kernelEnd + framesAboveHeap
        simp only [framesAboveHeap, heapEndFrame] at distance ⊢
        omega
      have lowered := (pmmAllocFrame_stack m.frames.pmm).2.1
      rw [← popped] at lowered
      have closer : bootReserved kernelEnd + next.frames.pmm.stackTop = heapEndFrame + count := by
        have reserved := fits.reserved_le
        simp only [heapEndFrame] at distance ⊢
        omega
      obtain ⟨path, last, run, transition, member, overlaps⟩ :=
        inductionHypothesis (intact.step taken few) closer
      exact ⟨_, last, (Execution.single taken).append run, transition,
        List.mem_append_right _ member, overlaps⟩

end Steps

/-! ### When the allocators stay apart -/

/-- In a run after boot no frame overlaps the heap region if and only if every
call of `pmm_alloc_frame` finds fewer than `framesAboveHeap` frames in use
beyond the reserved ones. -/
theorem frames_avoid_heap_iff {kernelEnd : Nat} (fits : KernelFits kernelEnd) (ram : Ram)
    {path : List (Transition Machine Event)} {last : Machine}
    (run : Execution Step (boot kernelEnd ram) path last) :
    FramesAvoidHeap (boot kernelEnd ram) path ↔
      ∀ transition ∈ path, FindsFewFramesUsed kernelEnd transition := by
  have start := boot_intact fits ram
  have returned := run.forall_good_iff start
    (fun _ _ _ intact _ => intact.returnsOutsideHeap_iff fits)
    (fun _ _ _ intact taken few => intact.step taken few)
  unfold FramesAvoidHeap
  rw [returned]
  exact and_iff_right fun idx held => start.held_outsideHeap fits held

/-- RAM that reads zero everywhere. -/
def Ram.zero : Ram where
  words := fun _ => 0
  bytes := fun _ => 0
  cachesAddr := 0x40100000

theorem kernelFits_two_mebibytes : KernelFits 0x40200000 := by constructor <;> decide

/-- With a kernel of 2 MiB, one allocation and one `malloc` of 64 bytes. -/
theorem frames_avoid_heap_iff_two_calls :
    ∃ path last, Execution Step (boot 0x40200000 Ram.zero) path last ∧ path.length = 2 ∧
      (FramesAvoidHeap (boot 0x40200000 Ram.zero) path ↔
        ∀ transition ∈ path, FindsFewFramesUsed 0x40200000 transition) := by
  obtain ⟨next, taken, -⟩ := (boot_intact kernelFits_two_mebibytes Ram.zero).exists_alloc
    kernelFits_two_mebibytes
  obtain ⟨last, called⟩ : ∃ last, Step next (.malloc 64) last := by
    rcases eq_or_ne (Heap.malloc 64 next.heap).1 0 with failed | returned
    · exact ⟨_, Step.mallocFails 64 failed⟩
    · exact ⟨_, Step.malloc 64 returned⟩
  have run := (Execution.single taken).snoc called
  exact ⟨_, last, run, rfl, frames_avoid_heap_iff kernelFits_two_mebibytes Ram.zero run⟩

/-- With a kernel of 2 MiB some sequence of allocations returns a frame of the
heap region. -/
theorem exists_frame_in_heap :
    ∃ path last, Execution Step (boot 0x40200000 Ram.zero) path last ∧
      ¬ FramesAvoidHeap (boot 0x40200000 Ram.zero) path := by
  have start := boot_intact kernelFits_two_mebibytes Ram.zero
  have room := start.stack.room
  obtain ⟨path, last, run, transition, member, overlaps⟩ :=
    exists_overlap kernelFits_two_mebibytes _ start (Nat.add_sub_cancel' room).symm
  exact ⟨path, last, run, fun avoids => overlaps (avoids.2 transition member)⟩

end UniKernel.Boot
