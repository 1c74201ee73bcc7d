import UniKernel.CString.Model
import UniKernel.Pmm.Runs

/-!
Owns the memory of the two virtqueues. `virtio_init_queue` takes eight frames
one by one and uses them as four, one and three pages in a row. That is sound
because until then frames have only been popped: the stack still ascends as
`pmm_init` filled it, and each pop returns the page below the last one.
-/

namespace UniKernel.Net

open UniKernel.Lib
open UniKernel.Pmm (Holders HoldersInvariant Call CallStep InFrame booted indexToPhys
  pmmAllocFrame phyRamBase pageSize)

/-! ### `virtio_init_queue` -/

/-- The pointers and counters of a `virtq`. -/
structure QueueBase where
  desc : Nat
  avail : Nat
  used : Nat
  qsize : Nat
  lastUsedIdx : Nat
deriving DecidableEq, Repr

/-- Memory, the frame allocator with the references its callers hold, and the
register writes so far as offset and value. -/
structure InitState where
  mem : Memory
  frames : Holders
  written : List (Nat × Nat)

abbrev InitM := StateM InitState

/-- `VIRTIO_REG_QUEUE_SEL` -/
@[simp] def regQueueSel : Nat := 0x030

/-- `VIRTIO_REG_QUEUE_NUM` -/
@[simp] def regQueueNum : Nat := 0x038

/-- `VIRTIO_REG_QUEUE_RDY` -/
@[simp] def regQueueRdy : Nat := 0x044

/-- `VIRTIO_REG_Q_DESC_LOW` and, 4 bytes on, `VIRTIO_REG_Q_DESC_HIGH` -/
@[simp] def regQDesc : Nat := 0x080

/-- `VIRTIO_REG_Q_AVAIL_LOW` and, 4 bytes on, `VIRTIO_REG_Q_AVAIL_HIGH` -/
@[simp] def regQAvail : Nat := 0x090

/-- `VIRTIO_REG_Q_USED_LOW` and, 4 bytes on, `VIRTIO_REG_Q_USED_HIGH` -/
@[simp] def regQUsed : Nat := 0x0A0

/-- `pmm_alloc_frame` by a caller that holds on to what it gets. -/
def allocHeld (m : Holders) : Holders :=
  if (pmmAllocFrame m.pmm).1 = 0 then { m with pmm := (pmmAllocFrame m.pmm).2 }
  else
    ⟨(pmmAllocFrame m.pmm).2,
      Function.update m.held (Pmm.frameOf (pmmAllocFrame m.pmm).1)
        (m.held (Pmm.frameOf (pmmAllocFrame m.pmm).1) + 1)⟩

theorem allocHeld_pmm (m : Holders) : (allocHeld m).pmm = (pmmAllocFrame m.pmm).2 := by
  unfold allocHeld
  split <;> rfl

def allocFrame : InitM Nat := fun s =>
  ((pmmAllocFrame s.frames.pmm).1, { s with frames := allocHeld s.frames })

def write32 (offset value : Nat) : InitM Unit :=
  modify fun s => { s with written := s.written ++ [(offset, value)] }

/-- `memset(phys, 0, size)` -/
def clear (phys size : Nat) : InitM Unit :=
  modify fun s => { s with mem := CString.memset phys 0 size s.mem }

/-- A 64-bit address in two registers. -/
def writeAddress (offset phys : Nat) : InitM Unit := do
  write32 offset (u32 phys)
  write32 (offset + 4) (u32 (phys >>> 32))

/-- `queueMax` is what the device answers to `VIRTIO_REG_QUEUE_MAX`. -/
def virtioInitQueue (queueIndex queueMax : Nat) (queue : QueueBase) : InitM QueueBase := do
  write32 regQueueSel queueIndex
  let qsize := queueMax
  if qsize = 0 then return queue
  let _ ← allocFrame
  let _ ← allocFrame
  let _ ← allocFrame
  let descPhys ← allocFrame
  let availPhys ← allocFrame
  let _ ← allocFrame
  let _ ← allocFrame
  let usedPhys ← allocFrame
  clear descPhys (4 * 4096)
  clear availPhys (1 * 4096)
  clear usedPhys (3 * 4096)
  writeAddress regQDesc descPhys
  writeAddress regQAvail availPhys
  writeAddress regQUsed usedPhys
  write32 regQueueNum qsize
  write32 regQueueRdy 1
  return ⟨descPhys, availPhys, usedPhys, qsize, 0⟩

/-- The two calls of `net_init`. -/
def initQueues (rxMax txMax : Nat) (rxq txq : QueueBase) : InitM (QueueBase × QueueBase) := do
  let rxq ← virtioInitQueue 0 rxMax rxq
  let txq ← virtioInitQueue 1 txMax txq
  return (rxq, txq)

/-! ### Regions -/

/-- `size` bytes from `start` on. -/
structure Region where
  start : Nat
  size : Nat

def Region.Contains (region : Region) (addr : Nat) : Prop :=
  region.start ≤ addr ∧ addr < region.start + region.size

/-- `count` bytes at `addr` lie in the region. -/
def Region.Holds (region : Region) (addr count : Nat) : Prop :=
  region.start ≤ addr ∧ addr + count ≤ region.start + region.size

def Region.Apart (region other : Region) : Prop :=
  ∀ addr, region.Contains addr → ¬ other.Contains addr

namespace QueueBase

def descRegion (queue : QueueBase) : Region := ⟨queue.desc, 4 * pageSize⟩

def availRegion (queue : QueueBase) : Region := ⟨queue.avail, 1 * pageSize⟩

def usedRegion (queue : QueueBase) : Region := ⟨queue.used, 3 * pageSize⟩

def regions (queue : QueueBase) : List Region :=
  [queue.descRegion, queue.availRegion, queue.usedRegion]

/-- `desc[i]`, `avail->ring[i]` and `used->ring[i]` lie in their regions for
every index below `qsize`, and so do the fields before the rings. -/
structure Fits (queue : QueueBase) : Prop where
  desc : ∀ i < queue.qsize, queue.descRegion.Holds (queue.desc + 16 * i) 16
  avail : ∀ i < queue.qsize, queue.availRegion.Holds (queue.avail + 4 + 2 * i) 2
  used : ∀ i < queue.qsize, queue.usedRegion.Holds (queue.used + 4 + 8 * i) 8
  headers : queue.availRegion.Holds queue.avail 4 ∧ queue.usedRegion.Holds queue.used 4

end QueueBase

/-- A later run in which nobody gives back a frame of the rings. -/
def KeepsRings (rings : List Region) (path : List (Transition Holders Call)) : Prop :=
  ∀ transition ∈ path, ∀ addr, transition.label = .free addr →
    ∀ region ∈ rings, ¬ region.Contains addr

/-- The frame that a call of `pmm_alloc_frame` returns, if it returns one, has no
byte in the rings. -/
def ReturnsOutside (rings : List Region) (transition : Transition Holders Call) : Prop :=
  transition.label = .alloc → (pmmAllocFrame transition.source.pmm).1 ≠ 0 →
    ∀ region ∈ rings,
      region.Apart ⟨(pmmAllocFrame transition.source.pmm).1, pageSize⟩

/-- What the driver relies on: its rings lie in frames that the calls between
`before` and `after` popped, apart from each other and from every frame handed
out to anyone else. -/
structure RingMemory (before after : Holders) (rxq txq : QueueBase) : Prop where
  popped : ∀ region ∈ rxq.regions ++ txq.regions, ∀ addr, region.Contains addr →
    ∃ idx, before.held idx = 0 ∧ 0 < after.held idx ∧ InFrame idx addr
  apart : (rxq.regions ++ txq.regions).Pairwise Region.Apart
  earlier : ∀ idx, 0 < before.held idx → ∀ addr, InFrame idx addr →
    ∀ region ∈ rxq.regions ++ txq.regions, ¬ region.Contains addr
  later : ∀ path last, Execution CallStep after path last →
    KeepsRings (rxq.regions ++ txq.regions) path →
      ∀ transition ∈ path, ReturnsOutside (rxq.regions ++ txq.regions) transition
  fits : rxq.Fits ∧ txq.Fits

/-! ### Pops from a stack that ascends -/

/-- The allocator with its holders, and every entry of the stack where `pmm_init`
put it. -/
structure Ascending (kernelEnd ramSize : Nat) (m : Holders) : Prop where
  inv : HoldersInvariant kernelEnd ramSize m
  stack : ∀ position < m.pmm.stackTop,
    m.pmm.frameStack position =
      Pmm.reservedFrames (Pmm.pmmReservedEnd kernelEnd ramSize) + position

section Pops

variable {kernelEnd ramSize : Nat} {m next : Holders}

theorem callStep_alloc (m : Holders) : CallStep m .alloc (allocHeld m) := by
  unfold allocHeld
  by_cases failed : (pmmAllocFrame m.pmm).1 = 0
  · rw [if_pos failed]
    exact CallStep.allocFails failed
  · rw [if_neg failed]
    exact CallStep.alloc failed

theorem eq_allocHeld (taken : CallStep m .alloc next) : next = allocHeld m := by
  unfold allocHeld
  cases taken with
  | allocFails failed => rw [if_pos failed]
  | alloc returned => rw [if_neg returned]

theorem booted_ascending (layout : Pmm.BootLayout kernelEnd ramSize) :
    Ascending kernelEnd ramSize (booted kernelEnd ramSize) where
  inv := Pmm.booted_invariant layout
  stack := by
    have progress := Pmm.pmmInit_progress layout
    intro position below
    change position < (Pmm.pmmInit kernelEnd ramSize Pmm.State.zero).stackTop at below
    rw [progress.top] at below
    exact progress.stack position below

/-- What a pop from an ascending stack does. -/
structure PopsFrame (kernelEnd ramSize : Nat) (m : Holders) (idx : Nat) : Prop where
  returns : (pmmAllocFrame m.pmm).1 = indexToPhys idx
  small : idx < 2 ^ 31
  fresh : m.held idx = 0
  held : (allocHeld m).held = Function.update m.held idx 1
  ascending : Ascending kernelEnd ramSize (allocHeld m)
  top : (allocHeld m).pmm.stackTop = m.pmm.stackTop - 1

theorem Ascending.pop (ascending : Ascending kernelEnd ramSize m) (top : Nat)
    (nonempty : m.pmm.stackTop = top + 1) :
    PopsFrame kernelEnd ramSize m
      (Pmm.reservedFrames (Pmm.pmmReservedEnd kernelEnd ramSize) + top) := by
  have inv := ascending.inv
  rcases inv.consistent.top_free nonempty with ⟨below, free⟩
  have isFrame := ascending.stack top (by omega)
  rw [isFrame] at below free
  have small := inv.consistent.small
  have fresh := ((inv.free_iff below).mp free).1
  have pops := Pmm.pmmAllocFrame_of_nonempty nonempty
  rw [isFrame] at pops
  have returned : (pmmAllocFrame m.pmm).1 ≠ 0 := by
    rw [pops]
    exact Pmm.indexToPhys_ne_zero (by omega)
  have after : allocHeld m = ⟨(pmmAllocFrame m.pmm).2, Function.update m.held
      (Pmm.reservedFrames (Pmm.pmmReservedEnd kernelEnd ramSize) + top) 1⟩ := by
    unfold allocHeld
    rw [if_neg returned, pops]
    dsimp only
    rw [Pmm.frameOf_indexToPhys (by omega), fresh]
  refine ⟨by rw [pops], by omega, fresh, by rw [after], ?_, by rw [after, pops, nonempty]; rfl⟩
  refine ⟨inv.step (callStep_alloc m), ?_⟩
  rw [after, pops]
  intro position inStack
  exact ascending.stack position (by rw [nonempty]; exact Nat.lt_succ_of_lt inStack)

/-- What is on the stack is held by nobody. -/
theorem Ascending.fresh (ascending : Ascending kernelEnd ramSize m) {idx : Nat}
    (above : Pmm.reservedFrames (Pmm.pmmReservedEnd kernelEnd ramSize) ≤ idx)
    (below : idx < Pmm.reservedFrames (Pmm.pmmReservedEnd kernelEnd ramSize) + m.pmm.stackTop) :
    m.held idx = 0 := by
  rcases Nat.exists_eq_add_of_le above with ⟨position, rfl⟩
  have onStack := Pmm.mem_freeStack.mpr
    ⟨position, by omega, ascending.stack position (by omega)⟩
  have free := (ascending.inv.consistent.free_iff _).mp onStack
  exact ((ascending.inv.free_iff free.1).mp free.2).1

theorem ascending_of_run (layout : Pmm.BootLayout kernelEnd ramSize)
    {path : List (Transition Holders Call)}
    (run : Execution CallStep (booted kernelEnd ramSize) path m)
    (allocsOnly : ∀ transition ∈ path, transition.label = .alloc) :
    Ascending kernelEnd ramSize m := by
  refine run.invariant_of_allowed (fun transition => transition.label = .alloc)
    (booted_ascending layout) ?_ allocsOnly
  intro source label target ascending taken isAlloc
  subst isAlloc
  rw [eq_allocHeld taken]
  cases nonempty : source.pmm.stackTop with
  | zero =>
      have same : allocHeld source = source := by
        unfold allocHeld
        rw [Pmm.pmmAllocFrame_of_empty nonempty, if_pos rfl]
      rw [same]
      exact ascending
  | succ top => exact (ascending.pop top nonempty).ascending

/-- The frames that `count` pops return, from the last one on. -/
theorem Ascending.pops (ascending : Ascending kernelEnd ramSize m) (count top : Nat)
    (enough : m.pmm.stackTop = top + count) :
    Ascending kernelEnd ramSize (allocHeld^[count] m) ∧
      (allocHeld^[count] m).pmm.stackTop = top ∧
      ∀ idx, (allocHeld^[count] m).held idx =
        if Pmm.reservedFrames (Pmm.pmmReservedEnd kernelEnd ramSize) + top ≤ idx ∧
          idx < Pmm.reservedFrames (Pmm.pmmReservedEnd kernelEnd ramSize) + top + count then 1
        else m.held idx := by
  induction count generalizing m with
  | zero =>
      refine ⟨ascending, enough, ?_⟩
      intro idx
      rw [if_neg (by omega)]
      rfl
  | succ count inductionHypothesis =>
      have first := ascending.pop (top + count) (by omega)
      have others := inductionHypothesis first.ascending (by rw [first.top]; omega)
      refine ⟨others.1, others.2.1, ?_⟩
      intro idx
      rw [Function.iterate_succ_apply, others.2.2 idx, first.held]
      by_cases isFirst :
          idx = Pmm.reservedFrames (Pmm.pmmReservedEnd kernelEnd ramSize) + (top + count)
      · rw [isFirst, if_neg (by omega), if_pos (by omega), Function.update_self]
      · rw [Function.update_of_ne isFirst]
        by_cases inside : Pmm.reservedFrames (Pmm.pmmReservedEnd kernelEnd ramSize) + top ≤ idx ∧
            idx < Pmm.reservedFrames (Pmm.pmmReservedEnd kernelEnd ramSize) + top + count
        · rw [if_pos inside, if_pos (by omega)]
        · rw [if_neg inside, if_neg (by omega)]

/-- The address that the pop after `count` others returns. -/
theorem Ascending.returns (ascending : Ascending kernelEnd ramSize m) (count top : Nat)
    (enough : m.pmm.stackTop = top + count + 1) :
    (pmmAllocFrame (allocHeld^[count] m).pmm).1 =
      indexToPhys (Pmm.reservedFrames (Pmm.pmmReservedEnd kernelEnd ramSize) + top) := by
  have before := ascending.pops count (top + 1) (by omega)
  exact (before.1.pop top before.2.1).returns

theorem allocFrame_bind {α : Type} (rest : Nat → InitM α) (s : InitState) :
    (allocFrame >>= rest) s =
      rest (pmmAllocFrame s.frames.pmm).1 { s with frames := allocHeld s.frames } := rfl

theorem write32_bind {α : Type} (offset value : Nat) (rest : Unit → InitM α) (s : InitState) :
    (write32 offset value >>= rest) s =
      rest () { s with written := s.written ++ [(offset, value)] } := rfl

theorem clear_bind {α : Type} (phys size : Nat) (rest : Unit → InitM α) (s : InitState) :
    (clear phys size >>= rest) s =
      rest () { s with mem := CString.memset phys 0 size s.mem } := rfl

theorem writeAddress_bind {α : Type} (offset phys : Nat) (rest : Unit → InitM α) (s : InitState) :
    (writeAddress offset phys >>= rest) s =
      rest () { s with written :=
        s.written ++ [(offset, u32 phys)] ++ [(offset + 4, u32 (phys >>> 32))] } := rfl

theorem pure_apply {α : Type} (value : α) (s : InitState) :
    (pure value : InitM α) s = (value, s) := rfl

/-- Which of the eight pops `virtio_init_queue` uses. -/
theorem virtioInitQueue_frames {queueMax : Nat} (queueIndex : Nat) (available : queueMax ≠ 0)
    (queue : QueueBase) (s : InitState) :
    (virtioInitQueue queueIndex queueMax queue s).1 =
        ⟨(pmmAllocFrame (allocHeld^[3] s.frames).pmm).1,
          (pmmAllocFrame (allocHeld^[4] s.frames).pmm).1,
          (pmmAllocFrame (allocHeld^[7] s.frames).pmm).1, queueMax, 0⟩ ∧
      (virtioInitQueue queueIndex queueMax queue s).2.frames = allocHeld^[8] s.frames := by
  unfold virtioInitQueue
  simp only [if_neg available, allocFrame_bind, write32_bind, clear_bind, writeAddress_bind,
    pure_apply, Function.iterate_succ_apply', Function.iterate_zero, id, and_self]

end Pops

/-! ### Where the rings are -/

/-- The rings of a queue fill eight frames from `first` on: the used ring, the
available ring and the descriptors, in this order. -/
structure QueueAt (first : Nat) (queue : QueueBase) : Prop where
  desc : queue.desc = phyRamBase + (first + 4) * pageSize
  avail : queue.avail = phyRamBase + (first + 3) * pageSize
  used : queue.used = phyRamBase + first * pageSize

section Rings

variable {kernelEnd ramSize first idx addr : Nat} {m : Holders} {queue rxq txq : QueueBase}

theorem Ascending.initQueue (ascending : Ascending kernelEnd ramSize m) {top queueMax : Nat}
    (enough : m.pmm.stackTop = top + 8) (queueIndex : Nat) (available : queueMax ≠ 0)
    (queue : QueueBase) {s : InitState} (isFrames : s.frames = m) :
    QueueAt (Pmm.reservedFrames (Pmm.pmmReservedEnd kernelEnd ramSize) + top)
        (virtioInitQueue queueIndex queueMax queue s).1 ∧
      (virtioInitQueue queueIndex queueMax queue s).1.qsize = queueMax ∧
      (virtioInitQueue queueIndex queueMax queue s).2.frames = allocHeld^[8] m := by
  rcases virtioInitQueue_frames queueIndex available queue s with ⟨isQueue, frames⟩
  rw [isFrames] at isQueue frames
  have small : Pmm.reservedFrames (Pmm.pmmReservedEnd kernelEnd ramSize) + (top + 7) < 2 ^ 31 :=
    (ascending.pop (top + 7) (by omega)).small
  have desc := ascending.returns 3 (top + 4) (by omega)
  have avail := ascending.returns 4 (top + 3) (by omega)
  have used := ascending.returns 7 top (by omega)
  rw [Pmm.indexToPhys_of_lt (by omega)] at desc avail used
  rw [← Nat.add_assoc] at desc avail
  have located : QueueAt (Pmm.reservedFrames (Pmm.pmmReservedEnd kernelEnd ramSize) + top)
      (virtioInitQueue queueIndex queueMax queue s).1 := by
    rw [isQueue]
    exact {
      desc := by dsimp only; exact desc
      avail := by dsimp only; exact avail
      used := by dsimp only; exact used }
  refine ⟨located, ?_, frames⟩
  rw [isQueue]

/-- Which addresses the rings of a queue take up. -/
theorem QueueAt.contains_iff (located : QueueAt first queue) (addr : Nat) :
    (∃ region ∈ queue.regions, region.Contains addr) ↔
      phyRamBase + first * pageSize ≤ addr ∧ addr < phyRamBase + (first + 8) * pageSize := by
  have desc := located.desc
  have avail := located.avail
  have used := located.used
  simp only [QueueBase.regions, List.mem_cons, List.not_mem_nil, or_false, exists_eq_or_imp,
    exists_eq_left, Region.Contains, QueueBase.descRegion, QueueBase.availRegion,
    QueueBase.usedRegion, phyRamBase, pageSize] at *
  omega

theorem QueueAt.apart (located : QueueAt first queue) :
    queue.regions.Pairwise Region.Apart := by
  have desc := located.desc
  have avail := located.avail
  have used := located.used
  simp only [QueueBase.regions, List.pairwise_cons, List.mem_cons, List.not_mem_nil, or_false,
    forall_eq_or_imp, forall_eq, Region.Apart, Region.Contains, QueueBase.descRegion,
    QueueBase.availRegion, QueueBase.usedRegion, List.Pairwise.nil, and_true, false_implies,
    implies_true, phyRamBase, pageSize] at *
  refine ⟨⟨?_, ?_⟩, ?_⟩ <;> intro addr inside outside <;> omega

/-- Rings of at most 1024 entries fit into their pages. -/
theorem QueueBase.fits_of_le (queue : QueueBase) (small : queue.qsize ≤ 1024) : queue.Fits := by
  constructor <;>
    simp only [Region.Holds, descRegion, availRegion, usedRegion, pageSize] <;> omega

/-- The rings of both queues fill sixteen frames. -/
theorem contains_rings_iff (rx : QueueAt (first + 8) rxq) (tx : QueueAt first txq) :
    (∃ region ∈ rxq.regions ++ txq.regions, region.Contains addr) ↔
      ∃ idx, first ≤ idx ∧ idx < first + 16 ∧ InFrame idx addr := by
  have rxIff := rx.contains_iff addr
  have txIff := tx.contains_iff addr
  have split : (∃ region ∈ rxq.regions ++ txq.regions, region.Contains addr) ↔
      (∃ region ∈ rxq.regions, region.Contains addr) ∨
        ∃ region ∈ txq.regions, region.Contains addr := by
    simp only [List.mem_append, or_and_right, exists_or]
  rw [split, rxIff, txIff]
  simp only [InFrame, phyRamBase, pageSize]
  constructor
  · intro inside
    exact ⟨(addr - 0x40000000) / 4096, by omega, by omega, by omega, by omega⟩
  · rintro ⟨idx, above, below, inside⟩
    omega

theorem apart_rings (rx : QueueAt (first + 8) rxq) (tx : QueueAt first txq) :
    (rxq.regions ++ txq.regions).Pairwise Region.Apart := by
  refine List.pairwise_append.mpr ⟨rx.apart, tx.apart, ?_⟩
  intro region isRx other isTx addr inside outside
  have high := (rx.contains_iff _).mp ⟨region, isRx, inside⟩
  have low := (tx.contains_iff _).mp ⟨other, isTx, outside⟩
  omega

/-- Two frames with a byte in common are one. -/
theorem inFrame_inj {other : Nat} (inside : InFrame idx addr) (alsoInside : InFrame other addr) :
    idx = other := by
  simp only [InFrame, phyRamBase, pageSize] at inside alsoInside
  omega

/-- A run that keeps the rings keeps hold of their frames. -/
structure HoldsRings (kernelEnd ramSize first : Nat) (m : Holders) : Prop where
  inv : HoldersInvariant kernelEnd ramSize m
  held : ∀ idx, first ≤ idx → idx < first + 16 → 0 < m.held idx

theorem HoldsRings.step {call : Call} {next : Holders}
    (holds : HoldsRings kernelEnd ramSize first m) (taken : CallStep m call next)
    (keeps : ∀ addr, call = .free addr →
      ∀ idx, first ≤ idx → idx < first + 16 → ¬ InFrame idx addr) :
    HoldsRings kernelEnd ramSize first next := by
  refine ⟨holds.inv.step taken, ?_⟩
  intro idx above below
  have before := holds.held idx above below
  have grows : ∀ other, 0 < Function.update m.held other (m.held other + 1) idx := by
    intro other
    by_cases same : idx = other
    · rw [same, Function.update_self]
      exact Nat.succ_pos _
    · rw [Function.update_of_ne same]
      exact before
  cases taken with
  | allocFails failed => exact before
  | alloc returned => exact grows _
  | incRef inside holdsRef room => exact grows _
  | @free freed addr inside holdsRef =>
      by_cases same : idx = freed
      · rw [same] at above below
        exact absurd inside (keeps addr rfl freed above below)
      · dsimp only
        rw [Function.update_of_ne same]
        exact before

/-- A frame that is returned is not one of the rings'. -/
theorem HoldsRings.returns (holds : HoldsRings kernelEnd ramSize first m)
    (returned : (pmmAllocFrame m.pmm).1 ≠ 0) :
    ∃ idx, ¬ (first ≤ idx ∧ idx < first + 16) ∧
      ∀ addr, Region.Contains ⟨(pmmAllocFrame m.pmm).1, pageSize⟩ addr → InFrame idx addr := by
  rcases holds.inv.allocAnswers.2 returned with ⟨idx, available, isFrame, -⟩
  have small := holds.inv.consistent.small
  refine ⟨idx, ?_, ?_⟩
  · rintro ⟨above, below⟩
    have held := holds.held idx above below
    have notHeld := available.2.2
    omega
  · intro addr inside
    rw [isFrame, Pmm.indexToPhys_of_lt (Nat.lt_trans available.1 small)] at inside
    simp only [Region.Contains, InFrame, phyRamBase, pageSize] at *
    omega

end Rings

/-! ### Both queues -/

section Both

variable {kernelEnd ramSize first : Nat} {m after : Holders} {rxq txq : QueueBase}

/-- Sixteen frames that the driver popped and holds are good ring memory. -/
theorem ringMemory_of_frames (rx : QueueAt (first + 8) rxq) (tx : QueueAt first txq)
    (holds : HoldsRings kernelEnd ramSize first after)
    (fresh : ∀ idx, first ≤ idx → idx < first + 16 → m.held idx = 0)
    (small : rxq.qsize ≤ 1024 ∧ txq.qsize ≤ 1024) : RingMemory m after rxq txq where
  popped := by
    intro region isRing addr inside
    rcases (contains_rings_iff rx tx).mp ⟨region, isRing, inside⟩ with ⟨idx, above, below, inFrame⟩
    exact ⟨idx, fresh idx above below, holds.held idx above below, inFrame⟩
  apart := apart_rings rx tx
  earlier := by
    intro idx held addr inFrame region isRing inside
    rcases (contains_rings_iff rx tx).mp ⟨region, isRing, inside⟩ with ⟨other, above, below, also⟩
    rw [inFrame_inj inFrame also, fresh other above below] at held
    exact Nat.lt_irrefl 0 held
  later := by
    intro path last run keepsRings transition member isAlloc returned region isRing addr inside also
    have misses : ∀ t ∈ path, ∀ addr, t.label = .free addr →
        ∀ idx, first ≤ idx → idx < first + 16 → ¬ InFrame idx addr := by
      intro t isStep addr isFree idx above below inFrame
      rcases (contains_rings_iff rx tx).mpr ⟨idx, above, below, inFrame⟩ with ⟨ring, isRing, has⟩
      exact keepsRings t isStep addr isFree ring isRing has
    have keeps : ∀ source label target, HoldsRings kernelEnd ramSize first source →
        CallStep source label target →
        (∀ addr, label = .free addr →
          ∀ idx, first ≤ idx → idx < first + 16 → ¬ InFrame idx addr) →
        HoldsRings kernelEnd ramSize first target :=
      fun _ _ _ before taken misses => before.step taken misses
    have source := (run.invariant_at_transition
      (fun t => ∀ addr, t.label = .free addr →
        ∀ idx, first ≤ idx → idx < first + 16 → ¬ InFrame idx addr)
      holds keeps misses transition member).1
    rcases source.returns returned with ⟨idx, outside, inFrame⟩
    rcases (contains_rings_iff rx tx).mp ⟨region, isRing, inside⟩ with ⟨other, above, below, ring⟩
    rw [inFrame_inj (inFrame addr also) ring] at outside
    exact outside ⟨above, below⟩
  fits := ⟨rxq.fits_of_le small.1, txq.fits_of_le small.2⟩

/-- In every state that `pmm_init` and any number of `pmm_alloc_frame` calls
reach with 16 frames left, the rings that `net_init` sets up lie in frames of
their own, and every index below the queue size lies in its ring. -/
theorem initQueues_ringMemory {rxMax txMax : Nat} {path : List (Transition Holders Call)}
    (layout : Pmm.BootLayout kernelEnd ramSize)
    (run : Execution CallStep (booted kernelEnd ramSize) path m)
    (allocsOnly : ∀ transition ∈ path, transition.label = .alloc)
    (enough : 16 ≤ m.pmm.stackTop) (rxSize : 1 ≤ rxMax ∧ rxMax ≤ 1024)
    (txSize : 1 ≤ txMax ∧ txMax ≤ 1024) (rxq txq : QueueBase) (mem : Memory)
    (written : List (Nat × Nat)) :
    RingMemory m (initQueues rxMax txMax rxq txq ⟨mem, m, written⟩).2.frames
      (initQueues rxMax txMax rxq txq ⟨mem, m, written⟩).1.1
      (initQueues rxMax txMax rxq txq ⟨mem, m, written⟩).1.2 := by
  have ascending := ascending_of_run layout run allocsOnly
  rcases Nat.exists_eq_add_of_le' enough with ⟨top, isTop⟩
  have rx := ascending.initQueue (s := ⟨mem, m, written⟩) (show m.pmm.stackTop = top + 8 + 8 from isTop)
    0 (show rxMax ≠ 0 by omega) rxq rfl
  have middle := ascending.pops 8 (top + 8) isTop
  have tx := middle.1.initQueue middle.2.1 1 (show txMax ≠ 0 by omega) txq rx.2.2
  have whole := ascending.pops 16 top isTop
  have isBoth : initQueues rxMax txMax rxq txq ⟨mem, m, written⟩ =
      (((virtioInitQueue 0 rxMax rxq ⟨mem, m, written⟩).1,
        (virtioInitQueue 1 txMax txq (virtioInitQueue 0 rxMax rxq ⟨mem, m, written⟩).2).1),
        (virtioInitQueue 1 txMax txq (virtioInitQueue 0 rxMax rxq ⟨mem, m, written⟩).2).2) := rfl
  have isAfter : allocHeld^[8] (allocHeld^[8] m) = allocHeld^[16] m :=
    (Function.iterate_add_apply allocHeld 8 8 m).symm
  rw [isBoth]
  dsimp only
  rw [tx.2.2, isAfter]
  have holds : HoldsRings kernelEnd ramSize
      (Pmm.reservedFrames (Pmm.pmmReservedEnd kernelEnd ramSize) + top) (allocHeld^[16] m) := by
    refine ⟨whole.1.inv, ?_⟩
    intro idx above below
    rw [whole.2.2 idx, if_pos ⟨above, below⟩]
    exact Nat.one_pos
  have small : (virtioInitQueue 0 rxMax rxq ⟨mem, m, written⟩).1.qsize ≤ 1024 ∧
      (virtioInitQueue 1 txMax txq (virtioInitQueue 0 rxMax rxq ⟨mem, m, written⟩).2).1.qsize ≤
        1024 := by
    rw [rx.2.1, tx.2.1]
    exact ⟨rxSize.2, txSize.2⟩
  have fresh : ∀ idx, Pmm.reservedFrames (Pmm.pmmReservedEnd kernelEnd ramSize) + top ≤ idx →
      idx < Pmm.reservedFrames (Pmm.pmmReservedEnd kernelEnd ramSize) + top + 16 →
        m.held idx = 0 := by
    intro idx above below
    exact ascending.fresh (by omega) (by omega)
  exact ringMemory_of_frames rx.1 tx.1 holds fresh small

/-- 32 pages of RAM with the kernel in the first: one frame is taken, then both
queues are set up, with 256 and 1024 entries. -/
theorem initQueues_ringMemory_32_pages :
    let m := allocHeld (booted 0x40001000 0x20000)
    let done := initQueues 256 1024 ⟨0, 0, 0, 0, 0⟩ ⟨0, 0, 0, 0, 0⟩ ⟨fun _ => 0, m, []⟩
    RingMemory m done.2.frames done.1.1 done.1.2 := by
  have layout : Pmm.BootLayout 0x40001000 0x20000 :=
    ⟨by decide, by decide, by decide, by decide, by decide⟩
  have progress := Pmm.pmmInit_progress layout
  have reserved : Pmm.reservedFrames (Pmm.pmmReservedEnd 0x40001000 0x20000) = 2 := by decide
  have top : (booted 0x40001000 0x20000).pmm.stackTop = 29 + 1 := by
    change (Pmm.pmmInit 0x40001000 0x20000 Pmm.State.zero).stackTop = 29 + 1
    rw [progress.top, reserved]
    decide
  have enough : 16 ≤ (allocHeld (booted 0x40001000 0x20000)).pmm.stackTop := by
    rw [((booted_ascending layout).pop 29 top).top, top]
    decide
  exact initQueues_ringMemory layout (Execution.single (callStep_alloc _)) (by simp) enough
    (by decide) (by decide) _ _ _ _

end Both

end UniKernel.Net
