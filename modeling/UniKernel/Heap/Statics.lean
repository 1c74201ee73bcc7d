import UniKernel.Heap.Model

/-!
Owns the frame condition of the heap: after `heap_init` no operation changes
where the region and the page table lie or the object size of a cache. It holds
in every state, well formed or not.
-/

namespace UniKernel.Heap

open UniKernel.Lib

/-- Only memory and the slab list heads differ. -/
structure SameStatics (before after : State) : Prop where
  heapStart : after.heapStartAddr = before.heapStartAddr
  heapEnd : after.heapEndAddr = before.heapEndAddr
  metadata : after.pageMetadata = before.pageMetadata
  total : after.totalPages = before.totalPages
  cachesAt : after.cachesAddr = before.cachesAddr
  objSizes : ∀ c, (after.caches c).objSize = (before.caches c).objSize

namespace SameStatics

variable {before middle after : State}

theorem refl (s : State) : SameStatics s s :=
  ⟨rfl, rfl, rfl, rfl, rfl, fun _ => rfl⟩

theorem trans (first : SameStatics before middle) (second : SameStatics middle after) :
    SameStatics before after where
  heapStart := second.heapStart.trans first.heapStart
  heapEnd := second.heapEnd.trans first.heapEnd
  metadata := second.metadata.trans first.metadata
  total := second.total.trans first.total
  cachesAt := second.cachesAt.trans first.cachesAt
  objSizes c := (second.objSizes c).trans (first.objSizes c)

/-- Whatever is written to memory. -/
theorem write (s : State) (mem : Memory) : SameStatics s { s with mem := mem } :=
  ⟨rfl, rfl, rfl, rfl, rfl, fun _ => rfl⟩

theorem setCache (s : State) (c : Nat) (cache : KmemCache)
    (sameSize : cache.objSize = (s.caches c).objSize) :
    SameStatics s { s with caches := Function.update s.caches c cache } where
  heapStart := rfl
  heapEnd := rfl
  metadata := rfl
  total := rfl
  cachesAt := rfl
  objSizes other := by
    by_cases same : other = c
    · subst same
      simpa using sameSize
    · simp only [Function.update_of_ne same]

theorem setHead (s : State) (c : Nat) (which : SlabList) (slab : Nat) :
    SameStatics s (s.setHead c which slab) :=
  setCache s c _ (by cases which <;> rfl)

end SameStatics

/-! ### Entries of the page table -/

theorem pageType_setPage (s : State) (i j type count : Nat) :
    (s.setPage i type count).pageType j = if j = i then type % 256 else s.pageType j := by
  unfold State.setPage State.pageType
  dsimp only
  rw [Memory.load_store_disjoint _ (by simp only [pageInfoSize]; omega)]
  split
  · next same => rw [same, Memory.load_store_same, pow_one]
  · next different => rw [Memory.load_store_disjoint _ (by simp only [pageInfoSize]; omega)]

theorem pageCount_setPage (s : State) (i j type count : Nat) :
    (s.setPage i type count).pageCount j = if j = i then u16 count else s.pageCount j := by
  unfold State.setPage State.pageCount
  dsimp only
  split
  · next same =>
      rw [same, Memory.load_store_same]
      rfl
  · next different =>
      rw [Memory.load_store_disjoint _ (by simp only [pageInfoSize]; omega),
        Memory.load_store_disjoint _ (by simp only [pageInfoSize]; omega)]

/-! ### Pages -/

theorem markRun_statics (startIdx numPages type count : Nat) (s : State) :
    SameStatics s (markRun startIdx numPages type count s) := by
  induction count with
  | zero => exact .refl s
  | succ count inductionHypothesis => exact inductionHypothesis.trans (.write _ _)

theorem allocPagesBackend_statics (numPages type : Nat) (s : State) :
    SameStatics s (allocPagesBackend numPages type s).2 := by
  unfold allocPagesBackend
  split
  · exact markRun_statics _ _ _ _ s
  · exact .refl s

theorem clearRun_statics (idx count : Nat) (s : State) :
    SameStatics s (clearRun idx count s) := by
  induction count with
  | zero => exact .refl s
  | succ count inductionHypothesis =>
      rw [clearRun]
      split
      · exact inductionHypothesis.trans (.write _ _)
      · exact inductionHypothesis

theorem freePagesBackend_statics (ptr : Nat) (s : State) :
    SameStatics s (freePagesBackend ptr s) := by
  unfold freePagesBackend
  simp only
  split
  · exact .refl s
  · split
    · exact .refl s
    · exact clearRun_statics _ _ s

/-! ### Slabs -/

theorem linkObjects_statics (objSize curr count : Nat) (s : State) :
    SameStatics s (linkObjects objSize curr count s) := by
  induction count generalizing curr s with
  | zero => exact .refl s
  | succ count inductionHypothesis =>
      exact (SameStatics.write s _).trans (inductionHypothesis (curr + objSize) _)

theorem slabInitPage_statics (slab c : Nat) (s : State) :
    SameStatics s (slabInitPage slab c s) := by
  refine SameStatics.trans ?_ (.write _ _)
  refine SameStatics.trans ?_ (linkObjects_statics _ _ _ _)
  exact ⟨rfl, rfl, rfl, rfl, rfl, fun _ => rfl⟩

theorem unlinkSlab_statics (c : Nat) (which : SlabList) (slab : Nat) (s : State) :
    SameStatics s (unlinkSlab c which slab s) := by
  unfold unlinkSlab
  simp only
  have first : SameStatics s
      (if s.slabPrev slab ≠ 0 then s.setSlabNext (s.slabPrev slab) (s.slabNext slab)
        else s.setHead c which (s.slabNext slab)) := by
    split
    · exact .write s _
    · exact .setHead s c which _
  generalize (if s.slabPrev slab ≠ 0 then s.setSlabNext (s.slabPrev slab) (s.slabNext slab)
    else s.setHead c which (s.slabNext slab)) = bypassed at first ⊢
  split
  · exact first.trans (.write bypassed _)
  · exact first

theorem pushSlab_statics (c : Nat) (which : SlabList) (slab : Nat) (s : State) :
    SameStatics s (pushSlab c which slab s) := by
  refine SameStatics.trans ?_ (.setHead _ _ _ _)
  split
  · exact ⟨rfl, rfl, rfl, rfl, rfl, fun _ => rfl⟩
  · exact ⟨rfl, rfl, rfl, rfl, rfl, fun _ => rfl⟩

theorem takeSlab_statics (c : Nat) (s : State) : SameStatics s (takeSlab c s).2 := by
  unfold takeSlab
  split
  · have head := SameStatics.setCache s c
      { s.caches c with slabsFree := s.slabNext (s.caches c).slabsFree } rfl
    simp only
    split
    · exact head.trans (.write _ _)
    · exact head
  · have pages := allocPagesBackend_statics 1 pageTypeSlab s
    simp only
    split
    · exact pages
    · exact pages.trans (slabInitPage_statics _ _ _)

theorem takeObject_statics (c slab : Nat) (s : State) :
    SameStatics s (takeObject c slab s).2 := by
  unfold takeObject
  simp only
  split
  · refine SameStatics.trans (.trans ?_ (unlinkSlab_statics _ _ _ _)) (pushSlab_statics _ _ _ _)
    exact ⟨rfl, rfl, rfl, rfl, rfl, fun _ => rfl⟩
  · exact ⟨rfl, rfl, rfl, rfl, rfl, fun _ => rfl⟩

theorem cacheAlloc_statics (c : Nat) (s : State) : SameStatics s (cacheAlloc c s).2 := by
  unfold cacheAlloc
  simp only
  split
  · split
    · exact takeSlab_statics c s
    · refine (takeSlab_statics c s).trans ?_
      exact (pushSlab_statics _ _ _ _).trans (takeObject_statics _ _ _)
  · exact takeObject_statics _ _ s

theorem cacheFree_statics (c ptr : Nat) (s : State) : SameStatics s (cacheFree c ptr s) := by
  unfold cacheFree
  simp only
  split
  · exact .refl s
  · split
    · split
      · refine SameStatics.trans (.trans ?_ (unlinkSlab_statics _ _ _ _))
          (freePagesBackend_statics _ _)
        exact ⟨rfl, rfl, rfl, rfl, rfl, fun _ => rfl⟩
      · refine SameStatics.trans (.trans ?_ (unlinkSlab_statics _ _ _ _))
          (freePagesBackend_statics _ _)
        exact ⟨rfl, rfl, rfl, rfl, rfl, fun _ => rfl⟩
    · split
      · refine SameStatics.trans (.trans ?_ (unlinkSlab_statics _ _ _ _)) (pushSlab_statics _ _ _ _)
        exact ⟨rfl, rfl, rfl, rfl, rfl, fun _ => rfl⟩
      · exact ⟨rfl, rfl, rfl, rfl, rfl, fun _ => rfl⟩

/-! ### The entry points -/

theorem reserveMetadata_statics (count : Nat) (s : State) :
    SameStatics s (reserveMetadata count s) := by
  induction count with
  | zero => exact .refl s
  | succ count inductionHypothesis => exact inductionHypothesis.trans (.write _ _)

/-- The region `heap_init` keeps of `[start, start + size)`. -/
theorem heapInit_region (start size aligned diff pages : Nat)
    (alignedStart : alignDown (u64 (start + pageSize - 1)) pageSize = aligned)
    (lost : u64 (aligned + (2 ^ 64 - start)) = diff) (enough : diff ≤ size)
    (whole : u32 ((size - diff) / pageSize) = pages) (nonempty : pages ≠ 0) (s : State) :
    (heapInit start size s).heapStartAddr = aligned ∧
      (heapInit start size s).heapEndAddr = u64 (aligned + u32 (pages * pageSize)) ∧
      (heapInit start size s).totalPages = pages := by
  unfold heapInit
  simp only [alignedStart, lost, whole]
  rw [if_neg (Nat.not_lt.mpr enough), if_neg nonempty]
  split
  · exact ⟨rfl, rfl, rfl⟩
  · have reserved := reserveMetadata_statics ((pages * pageInfoSize + pageSize - 1) / pageSize)
      { s with
        totalPages := pages
        heapStartAddr := aligned
        heapEndAddr := u64 (aligned + u32 (pages * pageSize))
        pageMetadata := aligned
        mem := CString.memset aligned 0 (pages * pageInfoSize) s.mem }
    exact ⟨reserved.heapStart, reserved.heapEnd, reserved.total⟩

theorem malloc_statics (size : Nat) (s : State) : SameStatics s (malloc size s).2 := by
  unfold malloc
  split
  · exact .refl s
  · split
    · split
      · exact cacheAlloc_statics _ s
      · exact .refl s
    · exact allocPagesBackend_statics _ _ s

theorem free_statics (ptr : Nat) (s : State) : SameStatics s (free ptr s) := by
  unfold free
  simp only
  repeat' split
  all_goals first
    | exact .refl s
    | exact cacheFree_statics _ _ s
    | exact freePagesBackend_statics _ s

end UniKernel.Heap
