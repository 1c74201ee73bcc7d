import UniKernel.Heap.LargeBlocks

/-!
Owns what a request gets: `malloc` never returns a block smaller than it was asked
for, and `calloc`, whose product is computed in 64 bits, gets too small a block
exactly when the product wraps around to a request that can be served.
-/

namespace UniKernel.Heap

open UniKernel.Lib

/-- The `bytes` bytes at `ptr` are the caller's: they lie behind the page table in
the heap, apart from every other block, and hold no metadata. -/
structure Provided (live : List Block) (s : State) (ptr bytes : Nat) : Prop where
  behindTable : s.heapStartAddr + (s.totalPages * pageInfoSize + (pageSize - 1)) / pageSize * pageSize ≤ ptr
  inside : ptr + bytes ≤ s.heapStartAddr + s.totalPages * pageSize
  apart : ∀ block ∈ live, ptr + bytes ≤ block.addr ∨ block.addr + block.size ≤ ptr
  noMetadata : ∀ addr, MetadataByte s addr → ¬ (ptr ≤ addr ∧ addr < ptr + bytes)

/-- `calloc(num, size)` returns NULL, or `num * size` zero bytes. -/
def CallocLaw (live : List Block) (s : State) (num size : Nat) : Prop :=
  (calloc num size s).1 ≠ 0 →
    Provided live (calloc num size s).2 (calloc num size s).1 (num * size) ∧
      ∀ offset, offset < num * size → (calloc num size s).2.mem ((calloc num size s).1 + offset) = 0

/-- The heap has room for a request of `size` bytes. -/
def Available (s : State) (size : Nat) : Prop :=
  if size ≤ 2048 then
    ∃ c, cacheFor s size numCacheSizes 0 = some c ∧
      ((s.caches c).slabsPartial ≠ 0 ∨ ∃ i, FreeRun s 1 i)
  else size + 4095 < 2 ^ 64 ∧ ∃ i, FreeRun s (pagesFor size) i

section Layouts

variable {r : Region} {lay : Layout} {s : State} {m : Machine} {num size count : Nat}

theorem findPages_eq_none_iff (rep : Represents r lay s) (positive : count ≠ 0) :
    lay.findPages r count = none ↔ ∀ i, ¬ FreeRun s count i := by
  rw [Layout.findPages, firstFit_eq_none_iff positive]
  exact forall_congr' fun i => not_congr (freeRun_iff rep).symm

/-- `malloc` succeeds exactly when the heap has room. -/
theorem malloc_ne_zero_iff (rep : Represents r lay s) (wellFormed : lay.WellFormed r)
    (used : lay.Used r) (small : size < 2 ^ 64) :
    (malloc size s).1 ≠ 0 ↔ size ≠ 0 ∧ Available s size := by
  by_cases isZero : size = 0
  · exact iff_of_false (not_not.mpr (by rw [malloc, if_pos isZero])) fun both => both.1 isZero
  · by_cases inClass : size ≤ 2048
    · rcases Layout.classFor_spec inClass with ⟨c, found, known, -⟩
      have class' := cacheFor_classFor rep.statics size
      rw [found] at class'
      have result : (malloc size s).1 = (lay.cacheAlloc r c).1 := by
        rw [(malloc_refines rep wellFormed size).1, Layout.malloc, if_neg isZero, if_pos inClass, found]
      have partlyUsed : (s.caches c).slabsPartial = 0 ↔ lay.slabs c .partlyUsed = [] :=
        (rep.lists c .partlyUsed known).head_eq_zero_iff
      have noPage : lay.findPages r 1 = none ↔ ∀ i, ¬ FreeRun s 1 i :=
        findPages_eq_none_iff rep Nat.one_ne_zero
      rw [result, Available, if_pos inClass, class']
      constructor
      · intro some
        refine ⟨isZero, c, rfl, ?_⟩
        by_contra nothing
        rw [not_or, not_not, not_exists, partlyUsed] at nothing
        apply some
        rw [Layout.cacheAlloc, nothing.1, noPage.mpr nothing.2]
      · rintro ⟨-, c', sameClass, room⟩ isNull
        rcases (Layout.cacheAlloc_allocates wellFormed used known).2 isNull with ⟨noSlab, noRun⟩
        cases sameClass
        rcases room with slab | ⟨i, isFree⟩
        · exact slab (partlyUsed.mpr noSlab)
        · exact noPage.mp noRun i isFree
    · rw [malloc_large_ne_zero_iff rep wellFormed (by omega) small, Available, if_neg inClass]
      exact ⟨fun room => ⟨isZero, room⟩, fun both => both.2⟩

/-- The bytes of a new block are the caller's, as many as the block has. -/
theorem Valid.provided {block : Block} {live : List Block} {bytes : Nat}
    (valid : Valid r lay ⟨s, block :: live⟩) (within : bytes ≤ block.size) :
    Provided live s block.addr bytes := by
  have occupied := valid.occupied block List.mem_cons_self
  have inside := occupied.inside valid.wellFormed
  have statics := valid.rep.statics
  refine ⟨?_, ?_, ?_, ?_⟩
  · rw [statics.heapStart, statics.total]
    exact inside.1
  · rw [statics.heapStart, statics.total]
    unfold Region.page at inside
    simp only [pageSize]
    omega
  · intro other member
    have apart := (List.pairwise_cons.mp valid.apart).1 other member
    unfold Block.Apart at apart
    omega
  · intro addr isMetadata contains
    exact not_guarded_metadata valid.rep valid.wellFormed isMetadata
      (valid.guarded List.mem_cons_self ⟨contains.1, by omega⟩)

theorem malloc_provides (valid : Valid r lay m) (small : size < 2 ^ 64) (some : (malloc size m.heap).1 ≠ 0) :
    Valid r (lay.malloc r size).2
      ⟨(malloc size m.heap).2, Block.new (malloc size m.heap).1 size :: m.live⟩ := by
  rcases valid_malloc valid small with ⟨-, after, -⟩
  rwa [addBlock, if_neg some] at after

/-- `memset` on a new block. -/
theorem Valid.clear {block : Block} {live : List Block} (valid : Valid r lay ⟨s, block :: live⟩)
    (bytes : Nat) (within : bytes ≤ block.size) :
    Valid r lay ⟨{ s with mem := CString.memset block.addr 0 bytes s.mem }, block :: live⟩ := by
  refine ⟨?_, valid.wellFormed, valid.used, valid.occupied, valid.owned, valid.nodup, valid.enough⟩
  apply valid.rep.write valid.wellFormed
  intro addr unguarded
  rw [CString.memset_apply, if_neg]
  intro inBlock
  exact unguarded (valid.guarded List.mem_cons_self ⟨inBlock.1, by omega⟩)

theorem calloc_of_some (some : (malloc (u64 (num * size)) s).1 ≠ 0) :
    calloc num size s = ((malloc (u64 (num * size)) s).1,
      { (malloc (u64 (num * size)) s).2 with
        mem := CString.memset (malloc (u64 (num * size)) s).1 0 (u64 (num * size))
          (malloc (u64 (num * size)) s).2.mem }) := by
  unfold calloc
  exact if_pos some

theorem calloc_fst : (calloc num size s).1 = (malloc (u64 (num * size)) s).1 := by
  unfold calloc
  dsimp only
  split <;> rfl

/-- `calloc` keeps its promise exactly when the product does not wrap around, or the
wrapped request gets nothing. -/
theorem callocLaw_iff (valid : Valid r lay m) :
    CallocLaw m.live m.heap num size ↔ num * size < 2 ^ 64 ∨ u64 (num * size) = 0 ∨
      ¬ Available m.heap (u64 (num * size)) := by
  have small : u64 (num * size) < 2 ^ 64 := Nat.mod_lt _ (by decide)
  have served := malloc_ne_zero_iff valid.rep valid.wellFormed valid.used small
  by_cases some : (malloc (u64 (num * size)) m.heap).1 ≠ 0
  · have grown := malloc_provides valid small some
    have cleared := grown.clear (u64 (num * size)) (grown.enough _ List.mem_cons_self)
    unfold CallocLaw
    rw [calloc_of_some some]
    dsimp only
    constructor
    · -- a block of 2^64 bytes does not lie in a heap below 2^44 bytes
      intro law
      have inside := (law some).1.inside
      rw [cleared.rep.statics.heapStart, cleared.rep.statics.total] at inside
      have atMost := r.atMost
      simp only [pageSize] at inside
      left
      by_contra wraps
      have above : r.page r.metaPages ≤ (malloc (u64 (num * size)) m.heap).1 :=
        ((cleared.occupied _ List.mem_cons_self).inside cleared.wellFormed).1
      unfold Region.page at above
      omega
    · intro condition
      have exact' : u64 (num * size) = num * size := by
        rcases condition with fits | isZero | noRoom
        · exact u64_of_lt fits
        · exact absurd isZero (served.mp some).1
        · exact absurd (served.mp some).2 noRoom
      rw [exact'] at cleared ⊢
      intro _
      refine ⟨cleared.provided (cleared.enough _ List.mem_cons_self), ?_⟩
      intro offset below
      rw [CString.memset_apply, if_pos (by omega)]
      rfl
  · constructor
    · intro _
      rw [served, not_and_or, not_not] at some
      exact Or.inr some
    · intro _ nonzero
      rw [calloc_fst] at nonzero
      exact absurd nonzero some

end Layouts

/-! ### Runs -/

variable {start size : Nat} {path : List (Transition Machine Event)} {last : Machine}

/-- In every reachable heap `malloc` gets as many bytes as it asks for, and `calloc`
does unless the wrapped product is a request the heap has room for. -/
theorem requests_provided (accepted : AcceptedRegion start size) (s : State)
    (cachesNonzero : 0 < s.cachesAddr)
    (cachesFit : s.cachesAddr + numCacheSizes * cacheStructSize ≤ 2 ^ 64)
    (run : Execution HeapStep ⟨heapInit start size s, []⟩ path last) :
    (∀ bytes, bytes < 2 ^ 64 → (malloc bytes last.heap).1 ≠ 0 →
      Provided last.live (malloc bytes last.heap).2 (malloc bytes last.heap).1 bytes) ∧
    ∀ num each, num < 2 ^ 64 → each < 2 ^ 64 →
      (CallocLaw last.live last.heap num each ↔ num * each < 2 ^ 64 ∨ u64 (num * each) = 0 ∨
        ¬ Available last.heap (u64 (num * each))) := by
  rcases reachable_valid accepted cachesNonzero cachesFit run with ⟨lay, valid⟩
  constructor
  · intro bytes small some
    have grown := malloc_provides valid small some
    exact grown.provided (grown.enough _ List.mem_cons_self)
  · exact fun num each _ _ => callocLaw_iff valid

/-- In a heap of two pages. -/
theorem requests_provided_two_pages :
    (∀ bytes, bytes < 2 ^ 64 → (malloc bytes (heapInit 4096 8192 noHeap)).1 ≠ 0 →
      Provided [] (malloc bytes (heapInit 4096 8192 noHeap)).2
        (malloc bytes (heapInit 4096 8192 noHeap)).1 bytes) ∧
    ∀ num each, num < 2 ^ 64 → each < 2 ^ 64 →
      (CallocLaw [] (heapInit 4096 8192 noHeap) num each ↔ num * each < 2 ^ 64 ∨
        u64 (num * each) = 0 ∨ ¬ Available (heapInit 4096 8192 noHeap) (u64 (num * each))) := by
  have accepted : AcceptedRegion 4096 8192 := ⟨by decide, by decide⟩
  have noCalls : Execution HeapStep ⟨heapInit 4096 8192 noHeap, []⟩ [] ⟨heapInit 4096 8192 noHeap, []⟩ :=
    .nil
  exact requests_provided accepted noHeap (by decide) (by decide) noCalls

/-- `calloc(2^60 + 1, 16)` asks for 16 bytes and returns them. -/
theorem exists_calloc_too_small :
    (calloc (2 ^ 60 + 1) 16 (heapInit 4096 8192 noHeap)).1 ≠ 0 ∧
      ¬ CallocLaw [] (heapInit 4096 8192 noHeap) (2 ^ 60 + 1) 16 := by
  have some : (calloc (2 ^ 60 + 1) 16 (heapInit 4096 8192 noHeap)).1 ≠ 0 := by decide +kernel
  have accepted : AcceptedRegion 4096 8192 := ⟨by decide, by decide⟩
  have valid := valid_init accepted noHeap (by decide) (by decide)
  refine ⟨some, ?_⟩
  rw [callocLaw_iff (m := ⟨heapInit 4096 8192 noHeap, []⟩) valid]
  rw [calloc_fst] at some
  have served := (malloc_ne_zero_iff valid.rep valid.wellFormed valid.used (by decide)).mp some
  rintro (fits | isZero | noRoom)
  · exact absurd fits (by decide)
  · exact served.1 isZero
  · exact noRoom served.2

end UniKernel.Heap
