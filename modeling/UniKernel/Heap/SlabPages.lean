import UniKernel.Heap.Runs

/-!
Owns the shape of the slabs in memory, for every heap that `heap_init` sets up and every
run from there: each page of type SLAB is on one list of one cache, the lists are linked
both ways, and the free list of a slab together with `in_use` accounts for its objects.
-/

namespace UniKernel.Heap

open UniKernel.Lib

/-- `slab` is the address of a page of type SLAB. -/
def State.IsSlab (s : State) (slab : Nat) : Prop :=
  ∃ i, i < s.totalPages ∧ s.pageType i = pageTypeSlab ∧ slab = pageIdxToVirt s i

/-- The free list of a slab of cache `c` leads through `nodes` to NULL; these are
different objects of the page, and `in_use` counts the others. -/
structure FreeListOk (s : State) (c slab : Nat) (nodes : List Nat) : Prop where
  chain : Chain s.load64 (s.slabFreeList slab) nodes
  nodup : nodes.Nodup
  slot : ∀ obj ∈ nodes, ∃ k, obj = slab + slabHeaderSize + k * (s.caches c).objSize ∧
    obj + (s.caches c).objSize ≤ slab + pageSize
  counted : s.slabInUse slab + nodes.length = (pageSize - slabHeaderSize) / (s.caches c).objSize
  used : 0 < s.slabInUse slab

/-- The slab belongs to cache `c` and is on its list `which`, and on no other list. -/
structure OnOneList (s : State) (lists : Nat → SlabList → List Nat) (slab c : Nat)
    (which : SlabList) : Prop where
  known : c < numCacheSizes
  cache : s.slabCache slab = s.cachePtr c
  member : ∀ other, other < numCacheSizes → ∀ list, slab ∈ lists other list ↔ other = c ∧ list = which
  full_iff : which = .full ↔ s.slabFreeList slab = 0

/-- The slabs of a heap, when `lists` are the slab lists of the caches and `free` the
free lists of the slabs. -/
structure SlabsOk (s : State) (lists : Nat → SlabList → List Nat) (free : Nat → List Nat) :
    Prop where
  linked : ∀ c, c < numCacheSizes → ∀ which,
    Linked s.slabNext s.slabPrev (s.head c which) ((lists c which).getLastD 0) (lists c which)
  noFreeSlabs : ∀ c, c < numCacheSizes → (s.caches c).slabsFree = 0
  objSize : ∀ c, c < numCacheSizes → (s.caches c).objSize = slabSizes.getD c 0
  isSlab : ∀ c, c < numCacheSizes → ∀ which, ∀ slab ∈ lists c which, s.IsSlab slab
  slab : ∀ slab, s.IsSlab slab → ∃ c which, OnOneList s lists slab c which ∧
    FreeListOk s c slab (free slab)

section Layouts

variable {r : Region} {lay : Layout} {s : State} {m : Machine} {slab i c : Nat}

/-- The pages of type SLAB are the slabs of the layout. -/
theorem isSlab_iff (rep : Represents r lay s) (wellFormed : lay.WellFormed r) :
    s.IsSlab slab ↔ ∃ i c, slab = r.page i ∧ lay.use i = .slab c := by
  have total := rep.statics.total
  constructor
  · rintro ⟨i, inside, isType, rfl⟩
    rw [total] at inside
    have typeIs : s.pageType i = (lay.use i).type := rep.pageType i inside
    rcases (pageType_slab_iff _).mp (typeIs.symm.trans isType) with ⟨c, use⟩
    exact ⟨i, c, pageIdxToVirt_eq rep.statics inside, use⟩
  · rintro ⟨i, c, rfl, use⟩
    have inside := (wellFormed.slab_bounds use).2
    have typeIs : s.pageType i = (lay.use i).type := rep.pageType i inside
    refine ⟨i, total ▸ inside, ?_, (pageIdxToVirt_eq rep.statics inside).symm⟩
    rw [typeIs, use]
    rfl

theorem freeListOk (rep : Represents r lay s) (wellFormed : lay.WellFormed r) (used : lay.Used r)
    (use : lay.use i = .slab c) : FreeListOk s c (r.page i) (lay.freeObjects (r.page i)) := by
  have inside := (wellFormed.slab_bounds use).2
  have known := wellFormed.known i c use
  have objSize := rep.statics.objSize c known
  have header := rep.header i c inside use
  have counted : s.slabInUse (r.page i) + (lay.freeObjects (r.page i)).length = capacity c :=
    header.inUse
  exact {
    chain := header.chain
    nodup := wellFormed.nodupFree i c use
    slot := by
      intro obj member
      have isObject := wellFormed.isObject i c use obj member
      rcases mem_objects_iff.mp isObject with ⟨k, -, isSlot⟩
      rw [objSize]
      exact ⟨k, isSlot, (object_bounds known isObject).2.1⟩
    counted := by
      rw [counted, objSize]
      rfl
    used := by
      have less := used i c use
      omega }

theorem onOneList (rep : Represents r lay s) (wellFormed : lay.WellFormed r)
    (use : lay.use i = .slab c) :
    OnOneList s lay.slabs (r.page i) c (Layout.listOf (lay.freeObjects (r.page i))) := by
  have header := rep.header i c (wellFormed.slab_bounds use).2 use
  have chain : Chain s.load64 (s.slabFreeList (r.page i)) (lay.freeObjects (r.page i)) :=
    header.chain
  exact {
    known := wellFormed.known i c use
    cache := header.cache
    member := by
      intro other _ list
      rw [wellFormed.page_listed, use, PageUse.slab.injEq, eq_comm (a := c)]
    full_iff := by
      rw [chain.eq_zero_iff, Layout.listOf]
      split
      · next empty => exact iff_of_true rfl empty
      · next nonempty => exact iff_of_false (by simp) nonempty }

theorem Valid.slabsOk (valid : Valid r lay m) : SlabsOk m.heap lay.slabs lay.freeObjects where
  linked := fun c known which => valid.rep.lists c which known
  noFreeSlabs := valid.rep.noFreeSlabs
  objSize := valid.rep.statics.objSize
  isSlab := by
    intro c _ which slab member
    rcases (valid.wellFormed.listed c which slab).mp member with ⟨i, isPage, use, -⟩
    exact (isSlab_iff valid.rep valid.wellFormed).mpr ⟨i, c, isPage, use⟩
  slab := by
    intro slab isSlab
    rcases (isSlab_iff valid.rep valid.wellFormed).mp isSlab with ⟨i, c, rfl, use⟩
    exact ⟨c, _, onOneList valid.rep valid.wellFormed use,
      freeListOk valid.rep valid.wellFormed valid.used use⟩

end Layouts

variable {start size : Nat} {path : List (Transition Machine Event)} {last : Machine}

/-- The slabs have their shape in every state of every run from `heap_init`. -/
theorem slabs_ok (accepted : AcceptedRegion start size) (s : State) (cachesNonzero : 0 < s.cachesAddr)
    (cachesFit : s.cachesAddr + numCacheSizes * cacheStructSize ≤ 2 ^ 64)
    (run : Execution HeapStep ⟨heapInit start size s, []⟩ path last) :
    ∃ lists free, SlabsOk last.heap lists free := by
  rcases reachable_valid accepted cachesNonzero cachesFit run with ⟨lay, valid⟩
  exact ⟨lay.slabs, lay.freeObjects, valid.slabsOk⟩

/-- In a heap of two pages whose one slab has been allocated from. -/
theorem slabs_ok_two_pages : ∃ path last,
    Execution HeapStep ⟨heapInit 4096 8192 noHeap, []⟩ path last ∧
      path.map (·.label) = [⟨.malloc 2048, 8232⟩] ∧
      ∃ lists free, SlabsOk last.heap lists free := by
  have allocate : HeapStep ⟨heapInit 4096 8192 noHeap, []⟩ ⟨.malloc 2048, 8232⟩ _ :=
    malloc_step (by decide) malloc_twoPages (by decide)
  exact ⟨_, _, Execution.single allocate, rfl,
    slabs_ok ⟨by decide, by decide⟩ noHeap (by decide) (by decide) (Execution.single allocate)⟩

end UniKernel.Heap
