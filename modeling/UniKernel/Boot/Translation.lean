import UniKernel.Boot.Overlap
import UniKernel.Vmm.BootMap

/-!
Owns that the address space of `init_vmm` lasts. The builder keeps its
references to the frames of the page tables, so the allocator hands none of them
out again, and they lie above the heap region: nobody who writes where they may
writes to a table.
-/

namespace UniKernel.Boot

open UniKernel.Lib
open UniKernel.Pmm (Holders HoldersInvariant Call CallStep Consistent InFrame InPage Popped
  pmmAllocFrame indexToPhys phyRamBase pageSize)
open UniKernel.Vmm (HasTables BootMapOk InHeapWindow InRam initVmm)

/-! ### The references of others -/

/-- The allocator with the references of its callers and of `others`. -/
def joined (m : Holders) (others : Nat → Nat) : Holders :=
  ⟨m.pmm, fun idx => m.held idx + others idx⟩

section Joined

variable {kernelEnd ramSize : Nat} {m m' : Holders} {call : Call} {others : Nat → Nat}

theorem joined_update (pmm : Pmm.State) (held others : Nat → Nat) (idx count : Nat) :
    joined ⟨pmm, Function.update held idx count⟩ others =
      ⟨pmm, Function.update (fun idx => held idx + others idx) idx (count + others idx)⟩ := by
  unfold joined
  congr 1
  funext other
  by_cases same : other = idx
  · subst same
    simp
  · simp [Function.update_of_ne same]

/-- A frame that `pmm_alloc_frame` returns is nobody's. -/
theorem HoldersInvariant.allocated_unheld (inv : HoldersInvariant kernelEnd ramSize m)
    (returned : (pmmAllocFrame m.pmm).1 ≠ 0) : m.held (Pmm.frameOf (pmmAllocFrame m.pmm).1) = 0 := by
  have small := inv.consistent.small
  cases nonempty : m.pmm.stackTop with
  | zero =>
      rw [Pmm.pmmAllocFrame_of_empty nonempty] at returned
      exact absurd rfl returned
  | succ top =>
      obtain ⟨below, free⟩ := inv.consistent.top_free nonempty
      rw [Pmm.pmmAllocFrame_of_nonempty nonempty, Pmm.frameOf_indexToPhys (by omega)]
      exact ((inv.free_iff below).mp free).1

/-- The frame rule: a call of the callers is one beside the references of
others, and leaves them theirs. -/
theorem CallStep.joined (inv : HoldersInvariant kernelEnd ramSize (joined m others))
    (apart : ∀ idx, 0 < others idx → m.held idx = 0) (taken : CallStep m call m') :
    CallStep (Boot.joined m others) call (Boot.joined m' others) ∧
      ∀ idx, 0 < others idx → m'.held idx = 0 := by
  cases taken with
  | allocFails failed => exact ⟨.allocFails failed, apart⟩
  | alloc returned =>
      have unheld := HoldersInvariant.allocated_unheld inv returned
      simp only [Boot.joined] at unheld
      constructor
      · rw [joined_update, Nat.add_right_comm]
        exact .alloc returned
      · intro idx others
        dsimp only
        rw [Function.update_of_ne]
        · exact apart idx others
        · intro same
          rw [same] at others
          omega
  | @incRef idx addr inside holds room =>
      have alone : others idx = 0 := by
        by_contra shared
        have unheld := apart idx (Nat.pos_of_ne_zero shared)
        omega
      constructor
      · rw [joined_update, Nat.add_right_comm]
        apply CallStep.incRef inside
        · exact Nat.add_pos_left holds _
        · simp only [Boot.joined]
          omega
      · intro other shared
        dsimp only
        rw [Function.update_of_ne]
        · exact apart other shared
        · intro same
          rw [same] at shared
          omega
  | @free idx addr inside holds =>
      have alone : others idx = 0 := by
        by_contra shared
        have unheld := apart idx (Nat.pos_of_ne_zero shared)
        omega
      constructor
      · rw [joined_update]
        have count : m.held idx - 1 + others idx = m.held idx + others idx - 1 := by omega
        rw [count]
        exact .free inside (Nat.add_pos_left holds _)
      · intro other shared
        dsimp only
        rw [Function.update_of_ne]
        · exact apart other shared
        · intro same
          rw [same] at shared
          omega

end Joined

/-! ### The kernel behind `init_vmm` -/

/-- The tables with the frame allocator, and the references to frames that all
others than the builder of the tables hold. -/
structure Kernel where
  vmm : Vmm.State
  held : Nat → Nat

def Kernel.frames (k : Kernel) : Holders := ⟨k.vmm.pmm, k.held⟩

/-- The image of the kernel, the heap region, what is not RAM, and the frames
that are held. -/
def Kernel.MayWrite (kernelEnd : Nat) (k : Kernel) (addr : Nat) : Prop :=
  addr < kernelEnd ∨ InHeapWindow addr ∨ ¬ InRam bootRamSize addr ∨
    ∃ idx, InFrame idx addr ∧ 0 < k.held idx

inductive KernelEvent where
  | frame (call : Call)
  | store (addr value : Nat)

/-- Calls of the frame allocator, and stores: each changes the word it lies in. -/
inductive KernelStep (kernelEnd : Nat) : Kernel → KernelEvent → Kernel → Prop where
  | frame {k : Kernel} {call : Call} {frames : Holders} (taken : CallStep k.frames call frames) :
      KernelStep kernelEnd k (.frame call) ⟨{ k.vmm with pmm := frames.pmm }, frames.held⟩
  | store {k : Kernel} {addr value : Nat} (isWord : addr % 8 = 0)
      (may : k.MayWrite kernelEnd addr) :
      KernelStep kernelEnd k (.store addr value)
        { k with vmm := { k.vmm with mem := Function.update k.vmm.mem addr value } }

/-- `main` up to and including `init_vmm`. -/
def kernelStart (kernelEnd : Nat) (ram : Ram) : Kernel where
  vmm := initVmm kernelEnd (ram.vmm (Pmm.pmmInit kernelEnd bootRamSize Pmm.State.zero))
  held := fun _ => 0

/-! ### The invariant -/

section Invariant

variable {kernelEnd : Nat} {ram : Ram} {before : Pmm.State} {built : Vmm.State}

/-- The frame allocator as `pmm_init` leaves it. -/
structure Booted (kernelEnd : Nat) (pmm : Pmm.State) : Prop where
  consistent : Consistent pmm
  unheld : HoldersInvariant kernelEnd bootRamSize ⟨pmm, fun _ => 0⟩
  ramSize : pmm.phyRamSize = bootRamSize
  entries : ∀ position, position < 0x80000 - bootReserved kernelEnd →
    pmm.frameStack position = bootReserved kernelEnd + position
  top : pmm.stackTop = 0x80000 - bootReserved kernelEnd

/-- What `init_vmm` leaves when it starts with the frames of `before`. -/
structure Built (kernelEnd : Nat) (before : Pmm.State) (built : Vmm.State) : Prop where
  fits : KernelFits kernelEnd
  booted : Booted kernelEnd before
  tables : HasTables before built
  pops : Vmm.Pops Vmm.initVmmFrames before built.pmm

/-- The frame of a table: above the heap region, and the builder holds it. -/
structure TableFrame (before : Pmm.State) (built : Vmm.State) (frame idx : Nat) : Prop where
  isFrame : frame = phyRamBase + idx * pageSize
  aboveHeap : heapEndFrame ≤ idx
  inRam : idx < 0x80000
  held : 0 < (vmmHolders before built).held idx

theorem Built.tableFrame (isBuilt : Built kernelEnd before built) {frame : Nat}
    (popped : Popped before built.pmm frame) : ∃ idx, TableFrame before built frame idx := by
  have reserved := isBuilt.fits.reserved_le
  have top := isBuilt.booted.top
  have holders := holders_vmmHolders isBuilt.booted.unheld isBuilt.pops
  have drawn := isBuilt.pops.drawn
  obtain ⟨count, few, pops⟩ := isBuilt.pops
  have lowered := (Vmm.allocFrames_stack count before).2
  rw [← pops] at lowered
  simp only [Vmm.initVmmFrames] at few
  obtain ⟨position, above, inStack, rfl⟩ := popped
  have entry := isBuilt.booted.entries position (by omega)
  have onStack : before.frameStack position ∈ before.freeStack :=
    Pmm.mem_freeStack.mpr ⟨position, inStack, rfl⟩
  obtain ⟨below, noCount⟩ := (isBuilt.booted.consistent.free_iff _).mp onStack
  have small := isBuilt.booted.consistent.small
  -- it was popped, so it is not on the stack any more
  have offStack : before.frameStack position ∉ built.pmm.freeStack := by
    intro member
    obtain ⟨other, otherBelow, same⟩ := Pmm.mem_freeStack.mp member
    rw [drawn.stack] at same
    have distinct := isBuilt.booted.consistent.stackAgrees.distinct other position (by omega) inStack
    exact distinct same
  have total : built.pmm.totalFrames = before.totalFrames := by
    have first := isBuilt.booted.unheld.total
    exact holders.total.trans first.symm
  have counted : built.pmm.refCounts (before.frameStack position) ≠ 0 := by
    intro noCount
    apply offStack
    exact (holders.consistent.free_iff _).mpr ⟨total ▸ below, noCount⟩
  refine ⟨before.frameStack position, Pmm.indexToPhys_of_lt (by omega), ?_, by omega, ?_⟩
  · simp only [heapEndFrame]
    omega
  · simp only [vmmHolders]
    omega

/-- The tables are as `init_vmm` left them, and the builder still holds their
frames, alone. -/
structure TablesKept (kernelEnd : Nat) (before : Pmm.State) (built : Vmm.State) (k : Kernel) :
    Prop where
  holders : HoldersInvariant kernelEnd bootRamSize
    (joined k.frames (vmmHolders before built).held)
  apart : ∀ idx, 0 < (vmmHolders before built).held idx → k.held idx = 0
  root : k.vmm.rootTable = built.rootTable
  base : k.vmm.ttbr0 = built.ttbr0
  words : ∀ frame addr, Popped before built.pmm frame → InPage frame addr →
    k.vmm.mem addr = built.mem addr

theorem Built.tablesKept (isBuilt : Built kernelEnd before built) :
    TablesKept kernelEnd before built ⟨built, fun _ => 0⟩ where
  holders := by
    have holders := holders_vmmHolders isBuilt.booted.unheld isBuilt.pops
    have same : joined (Kernel.frames ⟨built, fun _ => 0⟩) (vmmHolders before built).held =
        vmmHolders before built := by
      unfold joined Kernel.frames
      simp only [Nat.zero_add]
      rfl
    rw [same]
    exact holders
  apart := fun _ _ => rfl
  root := rfl
  base := rfl
  words := fun _ _ _ _ => rfl

variable {k next : Kernel} {event : KernelEvent}

/-- No table lies where others may write. -/
theorem TablesKept.notWritten (kept : TablesKept kernelEnd before built k)
    (isBuilt : Built kernelEnd before built) {frame addr : Nat}
    (popped : Popped before built.pmm frame) (inside : InPage frame addr) :
    ¬ k.MayWrite kernelEnd addr := by
  obtain ⟨idx, isFrame, aboveHeap, inRam, tableHeld⟩ := isBuilt.tableFrame popped
  have belowHeap := isBuilt.fits.belowHeap
  simp only [heapEndFrame] at aboveHeap
  simp only [InPage, isFrame, phyRamBase, pageSize] at inside
  simp only [bootHeapStart] at belowHeap
  intro may
  obtain image | heap | notRam | ⟨other, here, holds⟩ := may
  · omega
  · simp only [InHeapWindow] at heap
    omega
  · apply notRam
    simp only [InRam, phyRamBase, bootRamSize]
    omega
  · simp only [InFrame, phyRamBase, pageSize] at here
    have same : other = idx := by omega
    have unheld := kept.apart idx tableHeld
    rw [same] at holds
    omega

theorem TablesKept.step (kept : TablesKept kernelEnd before built k)
    (isBuilt : Built kernelEnd before built) (taken : KernelStep kernelEnd k event next) :
    TablesKept kernelEnd before built next := by
  cases taken with
  | frame called =>
      have beside := CallStep.joined kept.holders kept.apart called
      exact {
        holders := kept.holders.step beside.1
        apart := beside.2
        root := kept.root
        base := kept.base
        words := kept.words }
  | store _ may =>
      exact {
        holders := kept.holders
        apart := kept.apart
        root := kept.root
        base := kept.base
        words := by
          intro frame addr popped inside
          rw [← kept.words frame addr popped inside]
          apply Function.update_of_ne
          intro same
          rw [← same] at may
          exact kept.notWritten isBuilt popped inside may }

theorem TablesKept.translate (kept : TablesKept kernelEnd before built k)
    (isBuilt : Built kernelEnd before built) : k.vmm.translate = built.translate := by
  funext address
  unfold Vmm.State.translate
  rw [isBuilt.tables.leaf_congr isBuilt.booted.consistent kept.root kept.words]

end Invariant

/-! ### Boot -/

section Boot

variable {kernelEnd : Nat}

theorem KernelFits.ramLayout (fits : KernelFits kernelEnd) (aligned : kernelEnd % pageSize = 0)
    (image : phyRamBase < kernelEnd) : Vmm.RamLayout kernelEnd bootRamSize where
  kernelAligned := aligned
  aboveBase := image
  inRam := by
    have belowHeap := fits.belowHeap
    simp only [bootHeapStart] at belowHeap
    simp only [phyRamBase, bootRamSize]
    omega
  ramAligned := by decide
  small := by decide

theorem pmmInit_booted (fits : KernelFits kernelEnd) :
    Booted kernelEnd (Pmm.pmmInit kernelEnd bootRamSize Pmm.State.zero) := by
  have progress := Pmm.pmmInit_progress fits.layout
  have pages : bootRamSize / pageSize = 0x80000 := by decide
  have top := progress.top
  have entries := progress.stack
  rw [pages] at top entries
  exact ⟨Pmm.pmmInit_consistent fits.layout, Pmm.booted_invariant fits.layout, progress.ramSize,
    entries, top⟩

variable {pmm : Pmm.State}

/-- `init_vmm` finds the frames it needs. -/
theorem Booted.allocates (booted : Booted kernelEnd pmm) (fits : KernelFits kernelEnd) (ram : Ram) :
    (pmmAllocFrame pmm).1 ≠ 0 ∧
      Vmm.RegionsAllocate (Vmm.bootRegions kernelEnd bootRamSize) (Vmm.setupRoot (ram.vmm pmm)) := by
  have reserved := fits.reserved_le
  have top := booted.top
  constructor
  · apply (Pmm.Drawn.refl pmm).allocates booted.consistent
    omega
  · have frames := Vmm.regionFrames_bootRegions fits.aboveBase fits.belowHeap
    have left : (Vmm.setupRoot (ram.vmm pmm)).pmm.stackTop = pmm.stackTop - 1 :=
      (Vmm.pmmAllocFrame_stack pmm).2.1
    simp only [Vmm.initVmmFrames] at frames
    apply Vmm.regionsAllocate_of_frames (Vmm.bootRegions_noWrap fits.aboveBase fits.belowHeap)
      (Vmm.bootRegions_aligned _ _) booted.consistent
      (s := Vmm.setupRoot (ram.vmm pmm)) (Vmm.Pops.one pmm).drawn
    rw [left]
    omega

theorem Booted.built (booted : Booted kernelEnd pmm) (fits : KernelFits kernelEnd)
    (layout : Vmm.RamLayout kernelEnd bootRamSize) (ram : Ram) :
    Built kernelEnd pmm (initVmm kernelEnd (ram.vmm pmm)) := by
  have allocates := booted.allocates fits ram
  exact ⟨fits, booted, Vmm.initVmm_tables layout booted.consistent booted.ramSize allocates.1
    allocates.2, initVmm_pops ram fits.aboveBase fits.belowHeap booted.ramSize⟩

theorem Booted.maps (booted : Booted kernelEnd pmm) (fits : KernelFits kernelEnd)
    (layout : Vmm.RamLayout kernelEnd bootRamSize) (ram : Ram) :
    BootMapOk bootRamSize (initVmm kernelEnd (ram.vmm pmm)) := by
  have allocates := booted.allocates fits ram
  exact Vmm.initVmm_maps layout booted.consistent booted.ramSize allocates.1 allocates.2

/-- However the frames are allocated, shared and freed after `init_vmm`, and
whatever is written to the kernel's image, the heap region, devices and the frames
that are held: RAM and the devices stay mapped as they should be, every address
keeps its translation, nobody writes to a frame of a table, and nobody gets one. -/
theorem translation_kept (fits : KernelFits kernelEnd) (aligned : kernelEnd % pageSize = 0)
    (image : phyRamBase < kernelEnd) {ram : Ram}
    {path : List (Transition Kernel KernelEvent)} {last : Kernel}
    (run : Execution (KernelStep kernelEnd) (kernelStart kernelEnd ram) path last) :
    BootMapOk bootRamSize last.vmm ∧
      last.vmm.translate = (kernelStart kernelEnd ram).vmm.translate ∧
      (∀ table addr, Popped (Pmm.pmmInit kernelEnd bootRamSize Pmm.State.zero)
          (kernelStart kernelEnd ram).vmm.pmm table → InPage table addr →
        last.vmm.mem addr = (kernelStart kernelEnd ram).vmm.mem addr) ∧
      ∀ idx addr, 0 < last.held idx → InFrame idx addr → ∀ table,
        Popped (Pmm.pmmInit kernelEnd bootRamSize Pmm.State.zero)
          (kernelStart kernelEnd ram).vmm.pmm table → ¬ InPage table addr := by
  have layout := fits.ramLayout aligned image
  have isBuilt := (pmmInit_booted fits).built fits layout ram
  have kept := run.invariant isBuilt.tablesKept fun _ _ _ kept taken => kept.step isBuilt taken
  have translate := kept.translate isBuilt
  have booted := (pmmInit_booted fits).maps fits layout ram
  refine ⟨?_, translate, kept.words, ?_⟩
  · exact {
      root := by
        rw [kept.base, kept.root]
        exact booted.root
      memory := by
        rw [translate]
        exact booted.memory
      device := by
        rw [translate]
        exact booted.device
      nothingElse := by
        rw [translate]
        exact booted.nothingElse }
  · intro idx addr holds here table popped inside
    exact kept.notWritten isBuilt popped inside (.inr (.inr (.inr ⟨idx, here, holds⟩)))

/-- After `init_vmm` there are frames left. -/
theorem Built.exists_alloc {before : Pmm.State} {built : Vmm.State}
    (isBuilt : Built kernelEnd before built) :
    ∃ next idx addr, KernelStep kernelEnd ⟨built, fun _ => 0⟩ (.frame .alloc) next ∧
      addr % 8 = 0 ∧ InFrame idx addr ∧ 0 < next.held idx := by
  have reserved := isBuilt.fits.reserved_le
  have top := isBuilt.booted.top
  obtain ⟨count, few, pops⟩ := isBuilt.pops
  have lowered := (Vmm.allocFrames_stack count before).2
  rw [← pops] at lowered
  simp only [Vmm.initVmmFrames] at few
  obtain ⟨position, nonempty⟩ := Nat.exists_eq_succ_of_ne_zero
    (show built.pmm.stackTop ≠ 0 by omega)
  have consistent := isBuilt.tablesKept.holders.consistent
  obtain ⟨below, -⟩ := consistent.top_free nonempty
  have small : built.pmm.frameStack position < 2 ^ 31 := Nat.lt_trans below consistent.small
  have returned : (pmmAllocFrame built.pmm).1 = indexToPhys (built.pmm.frameStack position) := by
    rw [Pmm.pmmAllocFrame_of_nonempty nonempty]
  have isFrame : Pmm.frameOf (pmmAllocFrame built.pmm).1 = built.pmm.frameStack position := by
    rw [returned, Pmm.frameOf_indexToPhys small]
  have nonzero : (pmmAllocFrame built.pmm).1 ≠ 0 := by
    rw [returned]
    exact Pmm.indexToPhys_ne_zero small
  refine ⟨_, _, _, .frame (.alloc nonzero), ?_, Pmm.inFrame_indexToPhys small, ?_⟩
  · rw [Pmm.indexToPhys_of_lt small]
    simp only [phyRamBase, pageSize]
    omega
  · rw [← isFrame]
    simp [Kernel.frames]

/-- A kernel of one page; one frame is allocated and written to. -/
theorem translation_kept_one_frame :
    ∃ path last, Execution (KernelStep 0x40001000) (kernelStart 0x40001000 Ram.zero) path last ∧
      path.length = 2 ∧ BootMapOk bootRamSize last.vmm := by
  have fits : KernelFits 0x40001000 := ⟨by decide, by decide, by decide⟩
  have layout := fits.ramLayout (by decide) (by decide)
  have isBuilt := (pmmInit_booted fits).built fits layout Ram.zero
  obtain ⟨next, idx, addr, taken, isWord, inside, holds⟩ := isBuilt.exists_alloc
  have run := (Execution.single taken).snoc
    (KernelStep.store isWord (.inr (.inr (.inr ⟨idx, inside, holds⟩))) : KernelStep _ _
      (.store addr 1) _)
  have kept := translation_kept fits (by decide) (by decide) run
  exact ⟨_, _, run, rfl, kept.1⟩

end Boot

end UniKernel.Boot
