import UniKernel.Net.QueueMemory
import UniKernel.Net.Receive

/-!
Owns the descriptor table and the rings of a virtqueue as bytes, at the addresses that
`virtio_init_queue` chose: the loads and stores of their entries, and what each store does
to a queue that is in memory. A queue of up to 1024 entries fits into its pages, and there
a store changes the one entry it is for.
-/

namespace UniKernel.Net

open UniKernel.Lib
open UniKernel.Pmm (pageSize)

/-! ### Entries -/

namespace QueueBase

variable (queue : QueueBase)

/-- `&desc[i]` -/
def descAt (i : Nat) : Nat := queue.desc + 16 * i

/-- `&avail->idx` -/
def availIdxAt : Nat := queue.avail + 2

/-- `&avail->ring[i]` -/
def availAt (i : Nat) : Nat := queue.avail + 4 + 2 * i

/-- `&used->idx` -/
def usedIdxAt : Nat := queue.used + 2

/-- `&used->ring[i]` -/
def usedAt (i : Nat) : Nat := queue.used + 4 + 8 * i

/-- The used ring, the available ring and the descriptors, page behind page. -/
structure Adjacent : Prop where
  avail : queue.avail = queue.used + 3 * pageSize
  desc : queue.desc = queue.avail + 1 * pageSize

end QueueBase

def loadDesc (mem : Memory) (addr : Nat) : Desc :=
  ⟨mem.load addr 8, mem.load (addr + 8) 4, mem.load (addr + 12) 2, mem.load (addr + 14) 2⟩

def storeDesc (addr : Nat) (desc : Desc) (mem : Memory) : Memory :=
  (((mem.store addr 8 desc.addr).store (addr + 8) 4 desc.len).store (addr + 12) 2 desc.flags).store
    (addr + 14) 2 desc.next

def loadUsed (mem : Memory) (addr : Nat) : UsedElem := ⟨mem.load addr 4, mem.load (addr + 4) 4⟩

def storeUsed (addr : Nat) (elem : UsedElem) (mem : Memory) : Memory :=
  (mem.store addr 4 elem.id).store (addr + 4) 4 elem.len

/-- The values of a descriptor fit into its fields. -/
structure Desc.Fits (desc : Desc) : Prop where
  addr : desc.addr < 2 ^ 64
  len : desc.len < 2 ^ 32
  flags : desc.flags < 2 ^ 16
  next : desc.next < 2 ^ 16

/-- The values of a used element fit into its fields. -/
structure UsedElem.Fits (elem : UsedElem) : Prop where
  id : elem.id < 2 ^ 32
  len : elem.len < 2 ^ 32

section Entries

variable {mem mem' : Memory} {addr other width value : Nat} {desc : Desc} {elem : UsedElem}

theorem load_store_of_lt (small : value < 256 ^ width) :
    (mem.store addr width value).load addr width = value := by
  rw [Memory.load_store_same, Nat.mod_eq_of_lt small]

theorem storeDesc_outside (outside : other < addr ∨ addr + 16 ≤ other) :
    storeDesc addr desc mem other = mem other := by
  unfold storeDesc
  rw [Memory.store_outside _ (by omega), Memory.store_outside _ (by omega),
    Memory.store_outside _ (by omega), Memory.store_outside _ (by omega)]

theorem storeUsed_outside (outside : other < addr ∨ addr + 8 ≤ other) :
    storeUsed addr elem mem other = mem other := by
  unfold storeUsed
  rw [Memory.store_outside _ (by omega), Memory.store_outside _ (by omega)]

theorem load_storeDesc_apart (apart : other + width ≤ addr ∨ addr + 16 ≤ other) :
    (storeDesc addr desc mem).load other width = mem.load other width :=
  Memory.load_congr fun _ below => storeDesc_outside (by omega)

theorem load_storeUsed_apart (apart : other + width ≤ addr ∨ addr + 8 ≤ other) :
    (storeUsed addr elem mem).load other width = mem.load other width :=
  Memory.load_congr fun _ below => storeUsed_outside (by omega)

theorem loadDesc_congr (same : ∀ byte, addr ≤ byte → byte < addr + 16 → mem byte = mem' byte) :
    loadDesc mem addr = loadDesc mem' addr := by
  unfold loadDesc
  rw [Memory.load_congr fun offset below => same (addr + offset) (by omega) (by omega),
    Memory.load_congr fun offset below => same (addr + 8 + offset) (by omega) (by omega),
    Memory.load_congr fun offset below => same (addr + 12 + offset) (by omega) (by omega),
    Memory.load_congr fun offset below => same (addr + 14 + offset) (by omega) (by omega)]

theorem loadUsed_congr (same : ∀ byte, addr ≤ byte → byte < addr + 8 → mem byte = mem' byte) :
    loadUsed mem addr = loadUsed mem' addr := by
  unfold loadUsed
  rw [Memory.load_congr fun offset below => same (addr + offset) (by omega) (by omega),
    Memory.load_congr fun offset below => same (addr + 4 + offset) (by omega) (by omega)]

theorem loadDesc_store_apart (apart : other + width ≤ addr ∨ addr + 16 ≤ other) :
    loadDesc (mem.store other width value) addr = loadDesc mem addr :=
  loadDesc_congr fun _ above below => Memory.store_outside _ (by omega)

theorem loadDesc_storeDesc_apart (apart : other + 16 ≤ addr ∨ addr + 16 ≤ other) :
    loadDesc (storeDesc other desc mem) addr = loadDesc mem addr :=
  loadDesc_congr fun _ above below => storeDesc_outside (by omega)

theorem loadUsed_store_apart (apart : other + width ≤ addr ∨ addr + 8 ≤ other) :
    loadUsed (mem.store other width value) addr = loadUsed mem addr :=
  loadUsed_congr fun _ above below => Memory.store_outside _ (by omega)

theorem loadUsed_storeDesc_apart (apart : other + 16 ≤ addr ∨ addr + 8 ≤ other) :
    loadUsed (storeDesc other desc mem) addr = loadUsed mem addr :=
  loadUsed_congr fun _ above below => storeDesc_outside (by omega)

theorem loadUsed_storeUsed_apart (apart : other + 8 ≤ addr ∨ addr + 8 ≤ other) :
    loadUsed (storeUsed other elem mem) addr = loadUsed mem addr :=
  loadUsed_congr fun _ above below => storeUsed_outside (by omega)

theorem loadDesc_storeDesc (fits : desc.Fits) : loadDesc (storeDesc addr desc mem) addr = desc := by
  unfold loadDesc storeDesc
  rw [Memory.load_store_disjoint _ (by omega), Memory.load_store_disjoint _ (by omega),
    Memory.load_store_disjoint _ (by omega), load_store_of_lt fits.addr,
    Memory.load_store_disjoint _ (by omega), Memory.load_store_disjoint _ (by omega),
    load_store_of_lt fits.len, Memory.load_store_disjoint _ (by omega),
    load_store_of_lt fits.flags, load_store_of_lt fits.next]

theorem loadUsed_storeUsed (fits : elem.Fits) : loadUsed (storeUsed addr elem mem) addr = elem := by
  unfold loadUsed storeUsed
  rw [Memory.load_store_disjoint _ (by omega), load_store_of_lt fits.id,
    load_store_of_lt fits.len]

end Entries

theorem pmmAllocFrame_lt (pmm : Pmm.State) : (Pmm.pmmAllocFrame pmm).1 < 2 ^ 64 := by
  cases top : pmm.stackTop with
  | zero =>
      rw [Pmm.pmmAllocFrame_of_empty top]
      exact Nat.two_pow_pos 64
  | succ top =>
      rw [Pmm.pmmAllocFrame_of_nonempty ‹_›]
      exact Nat.mod_lt _ (by decide)

/-! ### Loads -/

namespace QueueBase

variable (queue : QueueBase) (mem : Memory)

/-- `avail->idx` -/
def published : Nat := mem.load queue.availIdxAt 2

/-- `avail->ring[i]` -/
def entry (i : Nat) : Nat := mem.load (queue.availAt i) 2

/-- `desc[id]` -/
def descOf (id : Nat) : Desc := loadDesc mem (queue.descAt id)

/-- `used->idx` -/
def usedCount : Nat := mem.load queue.usedIdxAt 2

/-- `used->ring[i]` -/
def usedElem (i : Nat) : UsedElem := loadUsed mem (queue.usedAt i)

end QueueBase

/-! ### A queue in memory -/

/-- The pages of `queue` hold the entries of `q`, as far as there is room: 1024 of each kind. -/
structure InMemory (mem : Memory) (queue : QueueBase) (q : Virtq) : Prop where
  qsize : q.qsize = queue.qsize
  desc : ∀ i < 1024, loadDesc mem (queue.descAt i) = q.desc i
  availIdx : mem.load queue.availIdxAt 2 = q.availIdx
  availRing : ∀ i < 1024, mem.load (queue.availAt i) 2 = q.availRing i
  usedIdx : mem.load queue.usedIdxAt 2 = q.usedIdx
  usedRing : ∀ i < 1024, loadUsed mem (queue.usedAt i) = q.usedRing i

section Stores

variable {mem : Memory} {queue : QueueBase} {q : Virtq} {i : Nat}

/-- The counter of the driver is not in the rings. -/
theorem InMemory.advance (inMemory : InMemory mem queue q) (lastUsedIdx : Nat) :
    InMemory mem queue { q with lastUsedIdx := lastUsedIdx } := { inMemory with }

/-- Where the parts of a queue end. -/
theorem QueueBase.Adjacent.bounds (adjacent : queue.Adjacent) :
    queue.avail = queue.used + 12288 ∧ queue.desc = queue.avail + 4096 :=
  ⟨adjacent.avail, adjacent.desc⟩

theorem InMemory.storeDesc (inMemory : InMemory mem queue q) (adjacent : queue.Adjacent)
    (inside : i < 1024) (desc : Desc) (fits : desc.Fits) :
    InMemory (storeDesc (queue.descAt i) desc mem) queue
      { q with desc := Function.update q.desc i desc } := by
  obtain ⟨avail, table⟩ := adjacent.bounds
  refine ⟨inMemory.qsize, ?_, ?_, ?_, ?_, ?_⟩
  · intro j below
    change _ = Function.update q.desc i desc j
    by_cases same : j = i
    · rw [same, loadDesc_storeDesc fits, Function.update_self]
    · rw [Function.update_of_ne same, loadDesc_storeDesc_apart, inMemory.desc j below]
      unfold QueueBase.descAt
      omega
  · rw [load_storeDesc_apart, inMemory.availIdx]
    unfold QueueBase.availIdxAt QueueBase.descAt
    omega
  · intro j below
    rw [load_storeDesc_apart, inMemory.availRing j below]
    unfold QueueBase.availAt QueueBase.descAt
    omega
  · rw [load_storeDesc_apart, inMemory.usedIdx]
    unfold QueueBase.usedIdxAt QueueBase.descAt
    omega
  · intro j below
    rw [loadUsed_storeDesc_apart, inMemory.usedRing j below]
    unfold QueueBase.usedAt QueueBase.descAt
    omega

/-- A store of two bytes into the page of the available ring leaves the descriptors and
the used ring alone. -/
theorem InMemory.storeInAvail (inMemory : InMemory mem queue q) (adjacent : queue.Adjacent)
    (value : Nat) {addr : Nat} (above : queue.avail ≤ addr) (below : addr + 2 ≤ queue.desc) :
    (∀ i < 1024, loadDesc (mem.store addr 2 value) (queue.descAt i) = q.desc i) ∧
      (mem.store addr 2 value).load queue.usedIdxAt 2 = q.usedIdx ∧
      ∀ i < 1024, loadUsed (mem.store addr 2 value) (queue.usedAt i) = q.usedRing i := by
  obtain ⟨avail, table⟩ := adjacent.bounds
  refine ⟨?_, ?_, ?_⟩
  · intro i inside
    rw [loadDesc_store_apart, inMemory.desc i inside]
    unfold QueueBase.descAt
    omega
  · rw [Memory.load_store_disjoint, inMemory.usedIdx]
    unfold QueueBase.usedIdxAt
    omega
  · intro i inside
    rw [loadUsed_store_apart, inMemory.usedRing i inside]
    unfold QueueBase.usedAt
    omega

theorem InMemory.storeAvail (inMemory : InMemory mem queue q) (adjacent : queue.Adjacent)
    (inside : i < 1024) (value : Nat) (fits : value < 2 ^ 16) :
    InMemory (mem.store (queue.availAt i) 2 value) queue
      { q with availRing := Function.update q.availRing i value } := by
  have bounds := adjacent.bounds
  have others := inMemory.storeInAvail adjacent value
    (show queue.avail ≤ queue.availAt i by unfold QueueBase.availAt; omega)
    (by unfold QueueBase.availAt; omega)
  refine ⟨inMemory.qsize, others.1, ?_, ?_, others.2.1, others.2.2⟩
  · rw [Memory.load_store_disjoint, inMemory.availIdx]
    unfold QueueBase.availIdxAt QueueBase.availAt
    omega
  · intro j below
    change _ = Function.update q.availRing i value j
    by_cases same : j = i
    · rw [same, load_store_of_lt fits, Function.update_self]
    · rw [Function.update_of_ne same, Memory.load_store_disjoint, inMemory.availRing j below]
      unfold QueueBase.availAt
      omega

theorem InMemory.storeAvailIdx (inMemory : InMemory mem queue q) (adjacent : queue.Adjacent)
    (value : Nat) (fits : value < 2 ^ 16) :
    InMemory (mem.store queue.availIdxAt 2 value) queue { q with availIdx := value } := by
  have bounds := adjacent.bounds
  have others := inMemory.storeInAvail adjacent value
    (show queue.avail ≤ queue.availIdxAt by unfold QueueBase.availIdxAt; omega)
    (by unfold QueueBase.availIdxAt; omega)
  refine ⟨inMemory.qsize, others.1, load_store_of_lt fits, ?_, others.2.1, others.2.2⟩
  intro j below
  rw [Memory.load_store_disjoint, inMemory.availRing j below]
  unfold QueueBase.availIdxAt QueueBase.availAt
  omega

/-- Bytes that change in the pages of the used ring only. -/
theorem InMemory.changeUsed (inMemory : InMemory mem queue q) (adjacent : queue.Adjacent)
    {changed : Memory} (same : ∀ byte, queue.avail ≤ byte → changed byte = mem byte) :
    (∀ i < 1024, loadDesc changed (queue.descAt i) = q.desc i) ∧
      changed.load queue.availIdxAt 2 = q.availIdx ∧
      ∀ i < 1024, changed.load (queue.availAt i) 2 = q.availRing i := by
  obtain ⟨avail, table⟩ := adjacent.bounds
  refine ⟨?_, ?_, ?_⟩
  · intro i inside
    rw [← inMemory.desc i inside]
    refine loadDesc_congr fun byte first last => same byte ?_
    unfold QueueBase.descAt at first
    omega
  · rw [← inMemory.availIdx]
    refine Memory.load_congr fun offset below => same _ ?_
    unfold QueueBase.availIdxAt
    omega
  · intro i inside
    rw [← inMemory.availRing i inside]
    refine Memory.load_congr fun offset below => same _ ?_
    unfold QueueBase.availAt
    omega

theorem InMemory.storeUsed (inMemory : InMemory mem queue q) (adjacent : queue.Adjacent)
    (inside : i < 1024) (elem : UsedElem) (fits : elem.Fits) :
    InMemory (storeUsed (queue.usedAt i) elem mem) queue
      { q with usedRing := Function.update q.usedRing i elem } := by
  have bounds := adjacent.bounds
  have outside : ∀ byte, queue.avail ≤ byte →
      Net.storeUsed (queue.usedAt i) elem mem byte = mem byte :=
    fun byte above => storeUsed_outside (by unfold QueueBase.usedAt; omega)
  obtain ⟨desc, availIdx, availRing⟩ := inMemory.changeUsed adjacent outside
  refine ⟨inMemory.qsize, desc, availIdx, availRing, ?_, ?_⟩
  · rw [load_storeUsed_apart, inMemory.usedIdx]
    unfold QueueBase.usedIdxAt QueueBase.usedAt
    omega
  · intro j below
    change _ = Function.update q.usedRing i elem j
    by_cases same : j = i
    · rw [same, loadUsed_storeUsed fits, Function.update_self]
    · rw [Function.update_of_ne same, loadUsed_storeUsed_apart, inMemory.usedRing j below]
      unfold QueueBase.usedAt
      omega

theorem InMemory.storeUsedIdx (inMemory : InMemory mem queue q) (adjacent : queue.Adjacent)
    (value : Nat) (fits : value < 2 ^ 16) :
    InMemory (mem.store queue.usedIdxAt 2 value) queue { q with usedIdx := value } := by
  have bounds := adjacent.bounds
  have outside : ∀ byte, queue.avail ≤ byte → mem.store queue.usedIdxAt 2 value byte = mem byte :=
    fun byte above => Memory.store_outside _ (by unfold QueueBase.usedIdxAt; omega)
  obtain ⟨desc, availIdx, availRing⟩ := inMemory.changeUsed adjacent outside
  refine ⟨inMemory.qsize, desc, availIdx, availRing, load_store_of_lt fits, ?_⟩
  intro j below
  rw [loadUsed_store_apart, inMemory.usedRing j below]
  unfold QueueBase.usedIdxAt QueueBase.usedAt
  omega

/-- A queue whose pages are zero. -/
theorem inMemory_fresh (mem : Memory) (adjacent : queue.Adjacent)
    (zero : ∀ byte, queue.used ≤ byte → byte < queue.used + 8 * pageSize → mem byte = 0) :
    InMemory mem queue (Virtq.fresh queue.qsize) := by
  have bounds := adjacent.bounds
  have loads : ∀ addr width, queue.used ≤ addr → addr + width ≤ queue.used + 32768 →
      mem.load addr width = 0 := fun addr width above below =>
    Memory.load_eq_zero fun offset inside =>
      zero _ (by omega) (by simp only [pageSize]; omega)
  refine ⟨rfl, ?_, ?_, ?_, ?_, ?_⟩
  · intro i below
    unfold loadDesc QueueBase.descAt
    rw [loads _ _ (by omega) (by omega), loads _ _ (by omega) (by omega),
      loads _ _ (by omega) (by omega), loads _ _ (by omega) (by omega)]
    rfl
  · unfold QueueBase.availIdxAt
    exact loads _ _ (by omega) (by omega)
  · intro i below
    unfold QueueBase.availAt
    exact loads _ _ (by omega) (by omega)
  · unfold QueueBase.usedIdxAt
    exact loads _ _ (by omega) (by omega)
  · intro i below
    unfold loadUsed QueueBase.usedAt
    rw [loads _ _ (by omega) (by omega), loads _ _ (by omega) (by omega)]
    rfl

end Stores

/-! ### What `virtio_init_queue` leaves -/

section Init

variable {kernelEnd ramSize first top queueMax : Nat} {m : Pmm.Holders} {queue : QueueBase}

theorem QueueAt.adjacent (located : QueueAt first queue) : queue.Adjacent where
  avail := by
    rw [located.avail, located.used]
    simp only [Pmm.phyRamBase, pageSize]
    omega
  desc := by
    rw [located.desc, located.avail]
    simp only [Pmm.phyRamBase, pageSize]
    omega

theorem virtioInitQueue_mem (queueIndex : Nat) (available : queueMax ≠ 0) (queue : QueueBase)
    (s : InitState) :
    (virtioInitQueue queueIndex queueMax queue s).2.mem =
      CString.memset (virtioInitQueue queueIndex queueMax queue s).1.used 0 (3 * 4096)
        (CString.memset (virtioInitQueue queueIndex queueMax queue s).1.avail 0 (1 * 4096)
          (CString.memset (virtioInitQueue queueIndex queueMax queue s).1.desc 0 (4 * 4096)
            s.mem)) := by
  unfold virtioInitQueue
  simp only [if_neg available, allocFrame_bind, write32_bind, clear_bind, writeAddress_bind,
    pure_apply]

/-- Once a queue is set up its entries are in memory. -/
theorem Ascending.initQueue_inMemory (ascending : Ascending kernelEnd ramSize m)
    (enough : m.pmm.stackTop = top + 8) (queueIndex : Nat) (available : queueMax ≠ 0)
    (queue : QueueBase) {s : InitState} (isFrames : s.frames = m) :
    InMemory (virtioInitQueue queueIndex queueMax queue s).2.mem
      (virtioInitQueue queueIndex queueMax queue s).1 (Virtq.fresh queueMax) := by
  obtain ⟨located, qsize, -⟩ := ascending.initQueue enough queueIndex available queue isFrames
  have bounds := located.adjacent.bounds
  have isFresh := inMemory_fresh (virtioInitQueue queueIndex queueMax queue s).2.mem
    located.adjacent
  rw [qsize] at isFresh
  refine isFresh fun byte above below => ?_
  rw [virtioInitQueue_mem queueIndex available, CString.memset_apply, CString.memset_apply,
    CString.memset_apply]
  simp only [pageSize] at below
  split
  · rfl
  · split
    · rfl
    · exact if_pos (by omega)

/-- Both queues are set up with frames of their own, and the rest of the frames are left. -/
theorem Ascending.initQueues (ascending : Ascending kernelEnd ramSize m)
    (enough : m.pmm.stackTop = top + 16) {rxMax txMax : Nat} (rxAvailable : rxMax ≠ 0)
    (txAvailable : txMax ≠ 0) (rxq txq : QueueBase) {s : InitState} (isFrames : s.frames = m) :
    (Net.initQueues rxMax txMax rxq txq s).1.1.Adjacent ∧
      (Net.initQueues rxMax txMax rxq txq s).1.1.qsize = rxMax ∧
      Pmm.Consistent (Net.initQueues rxMax txMax rxq txq s).2.frames.pmm ∧
      (Net.initQueues rxMax txMax rxq txq s).2.frames.pmm.stackTop = top := by
  obtain ⟨rx, rxSize, rxFrames⟩ :=
    ascending.initQueue (show m.pmm.stackTop = top + 8 + 8 from enough) 0 rxAvailable rxq isFrames
  obtain ⟨middle, middleTop, -⟩ := ascending.pops 8 (top + 8) enough
  obtain ⟨-, -, txFrames⟩ := middle.initQueue middleTop 1 txAvailable txq rxFrames
  obtain ⟨last, lastTop, -⟩ := middle.pops 8 top middleTop
  rw [← txFrames] at last lastTop
  exact ⟨rx.adjacent, rxSize, last.inv.consistent, lastTop⟩

end Init

/-- Behind 2046 entries the available ring runs into the descriptor table. -/
theorem QueueBase.Adjacent.availAt_overlap {queue : QueueBase} (adjacent : queue.Adjacent) :
    queue.availAt 2046 = queue.descAt 0 := by
  have bounds := adjacent.bounds
  unfold QueueBase.availAt QueueBase.descAt
  omega

end UniKernel.Net
