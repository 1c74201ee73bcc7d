import UniKernel.Heap.Allocated

/-!
Owns the page arithmetic of large blocks over every region that `heap_init`
accepts: what `malloc` marks, what `realloc` reads back and what `free` clears.
The two agree exactly when the block's page count fits in the table's 16 bits and
the block starts below `heap_end_addr`, whose offset is computed in 32 bits.
-/

namespace UniKernel.Heap

open UniKernel.Lib

/-- `ceil(size / 4096)` -/
def pagesFor (size : Nat) : Nat := (size + 4095) / 4096

/-- `malloc` marks exactly the pages that `size` bytes need, `realloc` finds at
least that size, and `free` puts the page table back. -/
structure LargeRoundTrip (s : State) (size first : Nat) : Prop where
  address : (malloc size s).1 = pageIdxToVirt s first
  wasFree : FreeRun s (pagesFor size) first
  marked : ∀ i, i < s.totalPages → InRun first (pagesFor size) i →
    (malloc size s).2.pageType i = pageTypeLarge
  others : ∀ i, i < s.totalPages → ¬ InRun first (pagesFor size) i →
    (malloc size s).2.pageType i = s.pageType i ∧ (malloc size s).2.pageCount i = s.pageCount i
  sized : size ≤ oldSize (malloc size s).1 (malloc size s).2
  cleared : ∀ i, i < s.totalPages → InRun first (pagesFor size) i →
    (free (malloc size s).1 (malloc size s).2).pageType i = pageTypeFree
  restored : ∀ i, i < s.totalPages →
    (free (malloc size s).1 (malloc size s).2).pageType i = s.pageType i ∧
      (free (malloc size s).1 (malloc size s).2).pageCount i = s.pageCount i

section Layouts

variable {r : Region} {lay : Layout} {s : State} {size first count i j : Nat}

theorem freeRun_iff (rep : Represents r lay s) :
    FreeRun s count i ↔ Fits (fun j => lay.use j = .free) r.total count i := by
  have typeIs : ∀ j, j < r.total → (s.pageType j = pageTypeFree ↔ lay.use j = .free) := by
    intro j inside
    have entry : s.pageType j = (lay.use j).type := rep.pageType j inside
    rw [entry]
    exact type_eq_free_iff _
  unfold FreeRun
  rw [rep.statics.total]
  exact fits_congr typeIs count i

/-- A page is below `heap_end_addr` if its index is below the reach. -/
theorem page_lt_end (statics : Statics r s) (inside : j < r.total) :
    pageIdxToVirt s j < s.heapEndAddr ↔ j < r.reach := by
  rw [pageIdxToVirt_eq statics inside, statics.heapEnd]
  rcases r.endAddr_cases with ⟨reached, -⟩ | ⟨wrapped, none⟩
  · rw [reached]
    unfold Region.page
    omega
  · rw [wrapped, none]
    exact iff_of_false (Nat.not_lt_zero _) (Nat.not_lt_zero _)

/-- A large block in the layout: where `malloc` puts it. -/
theorem malloc_large (rep : Represents r lay s) (wellFormed : lay.WellFormed r) (large : 2048 < size)
    (small : size < 2 ^ 64) (some : (malloc size s).1 ≠ 0) :
    ∃ first, lay.findPages r (pagesFor size) = .some first ∧ (malloc size s).1 = r.page first ∧
      lay.malloc r size = (r.page first,
        lay.setUse first (pagesFor size) (.large first (pagesFor size))) := by
  rcases malloc_refines rep wellFormed size with ⟨result, -, -⟩
  rw [result] at some
  have pages : u64 (size + 4095) / 4096 = pagesFor size := by
    rw [u64_of_lt (Layout.noWrap large small some)]
    rfl
  have isLarge : lay.malloc r size = lay.allocLarge r (pagesFor size) := by
    rw [Layout.malloc, if_neg (by omega), if_neg (by omega), pages]
  rw [isLarge, Layout.allocLarge] at result some
  rw [isLarge, Layout.allocLarge]
  cases found : lay.findPages r (pagesFor size) with
  | none =>
      rw [found] at some
      exact absurd rfl some
  | some first =>
      rw [found] at result
      exact ⟨first, rfl, result, rfl⟩

/-- `malloc` of a large block succeeds if the rounded size does not wrap around and
there are as many free pages in a row. -/
theorem malloc_large_ne_zero_iff (rep : Represents r lay s) (wellFormed : lay.WellFormed r)
    (large : 2048 < size) (small : size < 2 ^ 64) :
    (malloc size s).1 ≠ 0 ↔ size + 4095 < 2 ^ 64 ∧ ∃ j, FreeRun s (pagesFor size) j := by
  rcases malloc_refines rep wellFormed size with ⟨result, -, -⟩
  constructor
  · intro some
    rcases malloc_large rep wellFormed large small some with ⟨first, found, -, -⟩
    rw [result] at some
    exact ⟨Layout.noWrap large small some, first, (freeRun_iff rep).mpr (fits_of_firstFit found).2⟩
  · rintro ⟨noWrap, j, isFree⟩
    rw [freeRun_iff rep] at isFree
    have pages : u64 (size + 4095) / 4096 = pagesFor size := by
      rw [u64_of_lt noWrap]
      rfl
    have positive : pagesFor size ≠ 0 := by
      unfold pagesFor
      omega
    rw [result, Layout.malloc, if_neg (by omega), if_neg (by omega), pages, Layout.allocLarge]
    cases found : lay.findPages r (pagesFor size) with
    | none => exact absurd isFree ((firstFit_eq_none_iff positive).mp found j)
    | some first =>
        rcases fits_of_firstFit found with ⟨-, bound, isFree⟩
        have behindTable := wellFormed.free_bounds (isFree 0 (Nat.pos_of_ne_zero positive))
        have inTable := r.metaPages_pos
        show r.page first ≠ 0
        unfold Region.page
        omega

/-- The lowest run of free pages starts below `heap_end_addr` if any does. -/
theorem exists_below_end (rep : Represents r lay s) (found : lay.findPages r count = some first) :
    (∃ j, FreeRun s count j ∧ pageIdxToVirt s j < s.heapEndAddr) ↔ first < r.reach := by
  rcases fits_of_firstFit found with ⟨positive, fits⟩
  have lowest := ((firstFit_eq_some_iff positive).mp found).2
  constructor
  · rintro ⟨j, isFree, below⟩
    rw [freeRun_iff rep] at isFree
    have bound := isFree.1
    rw [page_lt_end rep.statics (by omega)] at below
    by_contra behind
    exact lowest j (by omega) isFree
  · intro inReach
    refine ⟨first, (freeRun_iff rep).mpr fits, ?_⟩
    have bound := fits.1
    exact (page_lt_end rep.statics (by omega)).mpr inReach

/-- The 16-bit count loses pages of a block exactly when it has more than 65535. -/
theorem counted_iff (large : 2048 < size) :
    size ≤ u16 (pagesFor size) * 4096 ↔ pagesFor size ≤ 65535 := by
  unfold pagesFor u16
  constructor
  · intro enough
    by_contra many
    omega
  · intro few
    omega

/-- A block of at most 65535 pages that is within reach is freed as a whole. -/
theorem free_setUse {r : Region} {lay : Layout} (first : Nat) (positive : 0 < count) (few : count ≤ 65535)
    (inReach : first < r.reach) (nonzero : r.page first ≠ 0)
    (isFree : ∀ i, InRun first count i → lay.use i = .free) (i : Nat) :
    ((lay.setUse first count (.large first count)).free r (r.page first)).use i = lay.use i := by
  have useIs : (lay.setUse first count (.large first count)).use first = .large first count := by
    rw [Layout.setUse_use, if_pos (by omega)]
  rw [Layout.free, if_neg nonzero, Region.index_page, if_neg (by omega), useIs]
  dsimp only
  rw [Layout.freeLarge, u16_of_lt (by omega)]
  simp only [Layout.setUse_use]
  by_cases inRun : first ≤ i ∧ i < first + count
  · rw [if_pos inRun, isFree i inRun]
  · rw [if_neg inRun, if_neg inRun, if_neg inRun]

theorem largeRoundTrip_iff (rep : Represents r lay s) (wellFormed : lay.WellFormed r)
    (used : lay.Used r) (large : 2048 < size) (small : size < 2 ^ 64) (some : (malloc size s).1 ≠ 0) :
    (∃ first, LargeRoundTrip s size first) ↔ pagesFor size ≤ 65535 ∧
      ∃ j, FreeRun s (pagesFor size) j ∧ pageIdxToVirt s j < s.heapEndAddr := by
  rcases malloc_large rep wellFormed large small some with ⟨first, found, address, layoutIs⟩
  rcases malloc_refines rep wellFormed size with ⟨-, after, -⟩
  have allocates := Layout.malloc_allocates wellFormed used size
  have wellFormed' := allocates.wellFormed
  have used' := allocates.used
  rcases fits_of_firstFit found with ⟨positive, fits⟩
  have bound := fits.1
  have isFree : ∀ i, InRun first (pagesFor size) i → lay.use i = .free := by
    intro i inRun
    have offset := fits.2 (i - first) (by unfold InRun at inRun; omega)
    rwa [Nat.add_sub_cancel' inRun.1] at offset
  rw [layoutIs] at after wellFormed' used'
  have useIs : (lay.setUse first (pagesFor size) (.large first (pagesFor size))).use first =
      .large first (pagesFor size) := by
    rw [Layout.setUse_use, if_pos (by omega)]
  have occupied : (lay.setUse first (pagesFor size) (.large first (pagesFor size))).Occupied r
      (r.page first) (pagesFor size * 4096) := .pages useIs
  have sizeIs := oldSize_eq after wellFormed' occupied
  rw [exists_below_end rep found]
  constructor
  · rintro ⟨_, trip⟩
    have sized := trip.sized
    rw [address, sizeIs, Layout.sizeAt, Region.index_page, useIs] at sized
    by_cases behind : r.reach ≤ first
    · rw [if_pos behind] at sized
      omega
    · rw [if_neg behind] at sized
      exact ⟨(counted_iff large).mp sized, Nat.not_le.mp behind⟩
  · rintro ⟨few, inReach⟩
    have nonzero : r.page first ≠ 0 := occupied.ne_zero wellFormed'
    have freed := (free_refines after wellFormed' used' occupied).1
    have restored : ∀ i, i < s.totalPages →
        (free (r.page first) (malloc size s).2).pageType i = s.pageType i ∧
          (free (r.page first) (malloc size s).2).pageCount i = s.pageCount i := by
      intro i inside
      rw [rep.statics.total] at inside
      have useAgain := free_setUse first (Nat.pos_of_ne_zero positive) few inReach nonzero isFree i
      have typeIs := freed.pageType i inside
      have countIs := freed.pageCount i inside
      rw [useAgain] at typeIs countIs
      exact ⟨typeIs.trans (rep.pageType i inside).symm, countIs.trans (rep.pageCount i inside).symm⟩
    refine ⟨first, ?_, (freeRun_iff rep).mpr fits, ?_, ?_, ?_, ?_, ?_⟩
    · rw [address, pageIdxToVirt_eq rep.statics (by omega)]
    · intro i inside inRun
      rw [rep.statics.total] at inside
      have typeIs := after.pageType i inside
      rw [Layout.setUse_use, if_pos (show _ ∧ _ from inRun)] at typeIs
      exact typeIs
    · intro i inside notInRun
      rw [rep.statics.total] at inside
      have typeIs := after.pageType i inside
      have countIs := after.pageCount i inside
      rw [Layout.setUse_use, if_neg (show ¬ (_ ∧ _) from notInRun)] at typeIs countIs
      exact ⟨typeIs.trans (rep.pageType i inside).symm, countIs.trans (rep.pageCount i inside).symm⟩
    · rw [address, sizeIs, Layout.sizeAt, Region.index_page, useIs, if_neg (Nat.not_le.mpr inReach)]
      exact (counted_iff large).mpr few
    · intro i inside inRun
      have typeIs := (restored i inside).1
      rw [rep.statics.total] at inside
      rw [address, typeIs]
      exact (rep.pageType i inside).trans (congrArg PageUse.type (isFree i inRun))
    · rw [address]
      exact restored

end Layouts

/-! ### Runs -/

variable {start size : Nat} {path : List (Transition Machine Event)} {last : Machine}

/-- In every reachable heap over every accepted region, a large block is marked,
measured and freed as `size` bytes need it exactly when its pages can be counted
in 16 bits and found below `heap_end_addr`. -/
theorem large_blocks_round_trip (accepted : AcceptedRegion start size) (s : State)
    (cachesNonzero : 0 < s.cachesAddr)
    (cachesFit : s.cachesAddr + numCacheSizes * cacheStructSize ≤ 2 ^ 64)
    (run : Execution HeapStep ⟨heapInit start size s, []⟩ path last) (bytes : Nat)
    (large : 2048 < bytes) (small : bytes < 2 ^ 64) (some : (malloc bytes last.heap).1 ≠ 0) :
    (∃ first, LargeRoundTrip last.heap bytes first) ↔ pagesFor bytes ≤ 65535 ∧
      ∃ j, FreeRun last.heap (pagesFor bytes) j ∧
        pageIdxToVirt last.heap j < last.heap.heapEndAddr := by
  rcases reachable_valid accepted cachesNonzero cachesFit run with ⟨lay, valid⟩
  exact largeRoundTrip_iff valid.rep valid.wellFormed valid.used large small some

/-- Two pages for 5000 bytes in a heap of three. -/
theorem large_blocks_round_trip_three_pages :
    ∃ first, LargeRoundTrip (heapInit 4096 12288 noHeap) 5000 first := by
  have accepted : AcceptedRegion 4096 12288 := ⟨by decide, by decide⟩
  have some : (malloc 5000 (heapInit 4096 12288 noHeap)).1 ≠ 0 := by decide +kernel
  have noCalls : Execution HeapStep ⟨heapInit 4096 12288 noHeap, []⟩ [] ⟨heapInit 4096 12288 noHeap, []⟩ :=
    .nil
  apply (large_blocks_round_trip accepted noHeap (by decide) (by decide) noCalls 5000 (by omega)
    (by omega) some).mpr
  refine ⟨by decide, 1, ?_⟩
  unfold FreeRun
  decide +kernel

/-- In a heap with 65536 free pages a block of 256 MiB can be had, but the count of
its pages is stored as 0. -/
theorem exists_block_not_freed :
    AcceptedRegion 0x50000000 (65601 * 4096) ∧
      (malloc (2 ^ 28) (heapInit 0x50000000 (65601 * 4096) noHeap)).1 ≠ 0 ∧
      ¬ ∃ first, LargeRoundTrip (heapInit 0x50000000 (65601 * 4096) noHeap) (2 ^ 28) first := by
  have accepted : AcceptedRegion 0x50000000 (65601 * 4096) := ⟨by decide, by decide⟩
  have valid := valid_init accepted noHeap (by decide) (by decide)
  have some : (malloc (2 ^ 28) (heapInit 0x50000000 (65601 * 4096) noHeap)).1 ≠ 0 := by
    have total : accepted.region.total = 65601 := by
      show u32 (wholePages 0x50000000 (65601 * 4096)) = 65601
      decide
    have table : accepted.region.metaPages = 65 := by
      rw [Region.metaPages, total]
    have pages : 65 + pagesFor (2 ^ 28) ≤ accepted.region.total := by
      rw [total]
      decide
    refine (malloc_large_ne_zero_iff valid.rep valid.wellFormed (by decide) (by decide)).mpr
      ⟨by decide, 65, (freeRun_iff valid.rep).mpr ⟨pages, ?_⟩⟩
    intro offset _
    have behind : ¬ 65 + offset < accepted.region.metaPages := by omega
    exact if_neg behind
  refine ⟨accepted, some, ?_⟩
  rw [largeRoundTrip_iff valid.rep valid.wellFormed valid.used (by decide) (by decide) some]
  rintro ⟨few, -⟩
  exact absurd few (by decide)

end UniKernel.Heap
