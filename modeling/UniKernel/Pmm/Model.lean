import Mathlib.Algebra.Ring.Nat
import Mathlib.Logic.Function.Basic
import UniKernel.Lib.Words

/-!
Owns the page-frame allocator of `src/pmm.c`: the statics as one record, and
`pmm_init`, `pmm_mark_used_region`, `pmm_alloc_frame`, `pmm_inc_ref` and
`pmm_free_frame` as functions on it. `frame_stack` and `ref_counts` are functions from an index to the
stored value; the loop of `pmm_init` recurses on the number of frames done.
-/

namespace UniKernel.Pmm

open UniKernel.Lib

/-- `PHY_RAM_BASE` -/
@[simp] def phyRamBase : Nat := 0x40000000

/-- `PAGE_SIZE` -/
@[simp] def pageSize : Nat := 4096

/-- `PAGE_SHIFT` -/
@[simp] def pageShift : Nat := 12

/-- `(u32)-1`, the index of an address outside RAM. -/
@[simp] def noIndex : Nat := 2 ^ 32 - 1

/-- The file-scope variables of `pmm.c`. `refCountsAddr` is the pointer value
of `ref_counts`, which `pmm_inc_ref` compares with NULL. -/
structure State where
  frameStack : Nat → Nat
  stackTop : Nat
  stackCapacity : Nat
  usedFrames : Nat
  phyRamSize : Nat
  phyRamEnd : Nat
  totalFrames : Nat
  refCounts : Nat → Nat
  refCountsAddr : Nat

/-- The zeroed statics before `pmm_init`. -/
def State.zero : State where
  frameStack := fun _ => 0
  stackTop := 0
  stackCapacity := 0
  usedFrames := 0
  phyRamSize := 0
  phyRamEnd := 0
  totalFrames := 0
  refCounts := fun _ => 0
  refCountsAddr := 0

def physToIndex (s : State) (addr : Nat) : Nat :=
  if addr < phyRamBase ∨ addr ≥ s.phyRamEnd then noIndex
  else u32 ((addr - phyRamBase) >>> pageShift)

def indexToPhys (idx : Nat) : Nat := u64 (phyRamBase + idx <<< pageShift)

def pmmIncRef (phys : Nat) (s : State) : State :=
  let idx := physToIndex s phys
  if idx ≠ noIndex ∧ s.refCountsAddr ≠ 0 then
    if s.refCounts idx < 255 then
      { s with refCounts := Function.update s.refCounts idx (s.refCounts idx + 1) }
    else s
  else s

/-- Where `pmm_init` places `frame_stack`. -/
def stackStart (kernelEnd : Nat) : Nat := alignDown (u64 (kernelEnd + pageSize - 1)) pageSize

/-- Where `pmm_init` places `ref_counts`, right behind `frame_stack`. -/
def refCountsStart (kernelEnd ramSize : Nat) : Nat :=
  u64 (stackStart kernelEnd + u32 (ramSize / pageSize) * 4)

/-- `pmm_reserved_end`: the first byte behind `ref_counts`. -/
def pmmReservedEnd (kernelEnd ramSize : Nat) : Nat :=
  u64 (stackStart kernelEnd + u32 (ramSize / pageSize) * 4 + u32 (ramSize / pageSize))

/-- The body of the loop of `pmm_init` for frame `i`. -/
def initFrame (reservedEnd i : Nat) (s : State) : State :=
  let addr := indexToPhys i
  let s := { s with refCounts := Function.update s.refCounts i 0 }
  if addr ≥ phyRamBase ∧ addr < reservedEnd then
    { s with
      usedFrames := u32 (s.usedFrames + 1)
      refCounts := Function.update s.refCounts i 1 }
  else if s.stackTop < s.stackCapacity then
    { s with
      frameStack := Function.update s.frameStack s.stackTop i
      stackTop := u32 (s.stackTop + 1) }
  else s

/-- The loop of `pmm_init` after its first `count` iterations. -/
def initFrames (reservedEnd : Nat) : Nat → State → State
  | 0, s => s
  | count + 1, s => initFrame reservedEnd count (initFrames reservedEnd count s)

def pmmInit (kernelEnd ramSize : Nat) (s : State) : State :=
  let totalFrames := u32 (ramSize / pageSize)
  initFrames (pmmReservedEnd kernelEnd ramSize) totalFrames
    { s with
      phyRamSize := ramSize
      phyRamEnd := u64 (phyRamBase + ramSize)
      totalFrames := totalFrames
      stackCapacity := totalFrames
      stackTop := 0
      refCountsAddr := refCountsStart kernelEnd ramSize }

/-! ### `pmm_mark_used_region` -/

/-- The inner loop over the last `remaining` slots: the first one with `target`. -/
def findSlot (s : State) (target : Nat) : (remaining i : Nat) → Option Nat
  | 0, _ => none
  | remaining + 1, i =>
      if s.frameStack i = target then some i else findSlot s target remaining (i + 1)

/-- The body of the outer loop: the slot of `target` gets the top of the stack. -/
def markFrame (target : Nat) (s : State) : State :=
  match findSlot s target s.stackTop 0 with
  | some i =>
      let top := s.stackTop - 1
      { s with
        stackTop := top
        frameStack := Function.update s.frameStack i (s.frameStack top)
        usedFrames := u32 (s.usedFrames + 1) }
  | none => s

/-- The outer loop after its first `count` iterations. -/
def markFrames (startIdx : Nat) : Nat → State → State
  | 0, s => s
  | count + 1, s => markFrame (startIdx + count) (markFrames startIdx count s)

def pmmMarkUsedRegion (base size : Nat) (s : State) : State :=
  let startIdx := physToIndex s base
  let endIdx := physToIndex s (u64 (base + size + pageSize - 1))
  if startIdx = noIndex then s else markFrames startIdx (endIdx - startIdx) s

/-! ### Frames -/

/-- Pop a frame. The returned address is `0` when the stack is empty. -/
def pmmAllocFrame (s : State) : Nat × State :=
  if s.stackTop = 0 then (0, s)
  else
    let top := s.stackTop - 1
    let idx := s.frameStack top
    (indexToPhys idx,
      { s with
        stackTop := top
        usedFrames := u32 (s.usedFrames + 1)
        refCounts := Function.update s.refCounts idx 1 })

/-- `frame_stack[stack_top++] = idx; used_frames--;` -/
def pushFrame (idx : Nat) (s : State) : State :=
  { s with
    frameStack := Function.update s.frameStack s.stackTop idx
    stackTop := u32 (s.stackTop + 1)
    usedFrames := pred32 s.usedFrames }

def pmmFreeFrame (addr : Nat) (s : State) : State :=
  let idx := physToIndex s addr
  if idx = noIndex ∨ idx ≥ s.totalFrames then s
  else if s.refCounts idx > 0 then
    let s := { s with refCounts := Function.update s.refCounts idx (s.refCounts idx - 1) }
    if s.refCounts idx = 0 then pushFrame idx s else s
  else if s.stackTop ≥ s.stackCapacity then s
  else pushFrame idx s

end UniKernel.Pmm
