import UniKernel.Heap.Statics
import UniKernel.Pmm.Runs
import UniKernel.Vmm.Frames

/-!
Owns the boot sequence of `src/main.c` and the runs of the two allocators
behind it: `pmm_init` with 2 GiB, `init_vmm`, `heap_init(0x50000000, 8 MiB)`,
then any order of frame and heap calls.

The tables of the frame allocator and the bytes of the heap are separate parts
of the state, which is the kernel's memory as long as the tables end below the
heap region (`KernelFits`).
-/

namespace UniKernel.Boot

open UniKernel.Lib
open UniKernel.Pmm (Holders Call CallStep phyRamBase pageSize)

/-- `(uint64_t)2 * 1024 * 1024 * 1024` -/
@[simp] def bootRamSize : Nat := 2 * 1024 * 1024 * 1024

/-- The first argument of `heap_init`. -/
@[simp] def bootHeapStart : Nat := 0x50000000

/-- The second argument of `heap_init`. -/
@[simp] def bootHeapSize : Nat := 8 * 1024 * 1024

/-- What the run is about: the frame allocator with the references its callers
hold, the heap, and the blocks `malloc` returned that are not yet freed. -/
structure Machine where
  frames : Holders
  heap : Heap.State
  blocks : List Nat

/-- Memory before `main`: the words of the page-table builder, the bytes of
the heap and the address the linker gave `caches`. -/
structure Ram where
  words : Nat → Nat
  bytes : Memory
  cachesAddr : Nat

def Ram.heap (ram : Ram) : Heap.State where
  mem := ram.bytes
  heapStartAddr := 0
  heapEndAddr := 0
  pageMetadata := 0
  totalPages := 0
  caches := fun _ => ⟨0, 0, 0, 0⟩
  cachesAddr := ram.cachesAddr

def Ram.vmm (ram : Ram) (pmm : Pmm.State) : Vmm.State where
  mem := ram.words
  pmm := pmm
  rootTable := 0
  rootPhys := 0
  pagingEnabled := false
  mair := 0
  tcr := 0
  ttbr0 := 0
  ttbr1 := 0
  sctlr := 0

/-- The frame allocator and its users after `init_vmm`, which holds on to the
references it takes: those by which the counts grew. -/
def vmmHolders (before : Pmm.State) (after : Vmm.State) : Holders where
  pmm := after.pmm
  held := fun idx => after.pmm.refCounts idx - before.refCounts idx

/-- The machine when `heap_init` returns, from what `pmm_init` and `init_vmm`
left. -/
def bootMachine (before : Pmm.State) (after : Vmm.State) (ram : Ram) : Machine where
  frames := vmmHolders before after
  heap := Heap.heapInit bootHeapStart bootHeapSize ram.heap
  blocks := []

/-- `main` up to and including `heap_init`. -/
def boot (kernelEnd : Nat) (ram : Ram) : Machine :=
  let pmm := Pmm.pmmInit kernelEnd bootRamSize Pmm.State.zero
  bootMachine pmm (Vmm.initVmm kernelEnd (ram.vmm pmm)) ram

inductive Event where
  | frame (call : Call)
  | malloc (size : Nat)
  | free (ptr : Nat)

/-- One call after boot. `free` is given a block that is still allocated. -/
inductive Step : Machine → Event → Machine → Prop where
  | frame {m : Machine} {call : Call} {frames : Holders} (taken : CallStep m.frames call frames) :
      Step m (.frame call) { m with frames := frames }
  | mallocFails {m : Machine} (size : Nat) (failed : (Heap.malloc size m.heap).1 = 0) :
      Step m (.malloc size) { m with heap := (Heap.malloc size m.heap).2 }
  | malloc {m : Machine} (size : Nat) (returned : (Heap.malloc size m.heap).1 ≠ 0) :
      Step m (.malloc size)
        { m with
          heap := (Heap.malloc size m.heap).2
          blocks := (Heap.malloc size m.heap).1 :: m.blocks }
  | free {m : Machine} {ptr : Nat} (allocated : ptr ∈ m.blocks) :
      Step m (.free ptr)
        { m with heap := Heap.free ptr m.heap, blocks := m.blocks.erase ptr }

/-- No byte of frame `idx` lies in `[heap_start_addr, heap_end_addr)`. -/
def OutsideHeap (heap : Heap.State) (idx : Nat) : Prop :=
  ∀ addr, Pmm.InFrame idx addr → addr < heap.heapStartAddr ∨ heap.heapEndAddr ≤ addr

/-- The frame a call of `pmm_alloc_frame` returns, if it returns one, does not
overlap the heap region. -/
def ReturnsOutsideHeap (transition : Transition Machine Event) : Prop :=
  transition.label = .frame .alloc →
    (Pmm.pmmAllocFrame transition.source.frames.pmm).1 ≠ 0 →
      OutsideHeap transition.source.heap
        (Pmm.frameOf (Pmm.pmmAllocFrame transition.source.frames.pmm).1)

/-- Neither a frame handed out before `first` nor one returned in the run from
it overlaps the heap region. -/
def FramesAvoidHeap (first : Machine) (path : List (Transition Machine Event)) : Prop :=
  (∀ idx, 0 < first.frames.held idx → OutsideHeap first.heap idx) ∧
    ∀ transition ∈ path, ReturnsOutsideHeap transition

/-- The frames between the top of RAM and the end of the heap region. -/
@[simp] def framesAboveHeap : Nat := 456704

/-- A call of `pmm_alloc_frame` finds fewer than `framesAboveHeap` frames in use
beyond those `pmm_init` reserved. -/
def FindsFewFramesUsed (kernelEnd : Nat) (transition : Transition Machine Event) : Prop :=
  transition.label = .frame .alloc →
    transition.source.frames.pmm.usedFrames <
      Pmm.reservedFrames (Pmm.pmmReservedEnd kernelEnd bootRamSize) + framesAboveHeap

/-- The kernel starts in RAM and the frame allocator's tables behind it end
below the heap region. -/
structure KernelFits (kernelEnd : Nat) : Prop where
  aboveBase : phyRamBase ≤ kernelEnd
  belowHeap : kernelEnd < bootHeapStart
  tablesBelowHeap : Pmm.pmmReservedEnd kernelEnd bootRamSize ≤ bootHeapStart

end UniKernel.Boot
