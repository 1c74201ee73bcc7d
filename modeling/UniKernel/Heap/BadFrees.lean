import UniKernel.Heap.Calloc

/-!
Owns calls of `free` with a pointer into the heap that is not the start of a live
block. The allocator ignores such a call exactly when the page of the pointer is
free, is in a large block behind its first page, or lies behind `heap_end_addr`;
every other one damages it.
-/

namespace UniKernel.Heap

open UniKernel.Lib

/-- `ptr` points into the heap, the page table included. -/
def InHeap (s : State) (ptr : Nat) : Prop :=
  s.heapStartAddr ≤ ptr ∧ ptr < s.heapStartAddr + s.totalPages * pageSize

/-- The allocator's own data is the same: the caches, the page table, the slab
headers and the links of free objects. -/
structure AllocatorSame (s s' : State) : Prop where
  caches : s'.caches = s.caches
  metadata : ∀ addr, MetadataByte s addr → s'.mem addr = s.mem addr

/-- The page table has no block to free at `ptr`. -/
def Harmless (s : State) (ptr : Nat) : Prop :=
  ptr = 0 ∨ s.totalPages ≤ virtToPageIdx s ptr ∨ s.pageType (virtToPageIdx s ptr) = pageTypeFree ∨
    (s.pageType (virtToPageIdx s ptr) = pageTypeLarge ∧ s.pageCount (virtToPageIdx s ptr) = 0)

instance (s : State) : DecidablePred (Harmless s) :=
  fun _ => inferInstanceAs (Decidable (_ ∨ _ ∨ _ ∨ (_ ∧ _)))

theorem free_of_harmless {s : State} {ptr : Nat} (harmless : Harmless s ptr) : free ptr s = s := by
  have freeNotSlab : pageTypeFree ≠ pageTypeSlab := by decide
  have freeNotLarge : pageTypeFree ≠ pageTypeLarge := by decide
  have largeNotSlab : pageTypeLarge ≠ pageTypeSlab := by decide
  unfold free
  dsimp only
  rcases harmless with isNull | behind | isFree | ⟨isLarge, noCount⟩
  · rw [if_pos isNull]
  · rw [if_neg (Nat.not_lt.mpr behind), ite_self]
  · rw [isFree, if_neg freeNotSlab, if_neg freeNotLarge, ite_self, ite_self]
  · have nothing : freePagesBackend ptr s = s := by
      unfold freePagesBackend
      dsimp only
      rw [if_pos noCount, ite_self]
    rw [isLarge, if_neg largeNotSlab, if_pos rfl, nothing, ite_self, ite_self]

/-! ### Frees that do damage -/

section Layouts

variable {r : Region} {lay : Layout} {s s' : State} {ptr i c idx count : Nat}

/-- Unchanged metadata has unchanged table entries. -/
theorem AllocatorSame.entry (same : AllocatorSame s s') (table : s'.pageMetadata = s.pageMetadata)
    (inside : i < s.totalPages) :
    s'.pageType i = s.pageType i ∧ s'.pageCount i = s.pageCount i := by
  have bytes : ∀ addr, s.pageMetadata + i * pageInfoSize ≤ addr →
      addr < s.pageMetadata + (i + 1) * pageInfoSize → s'.mem addr = s.mem addr := by
    intro addr above below
    apply same.metadata
    apply MetadataByte.table
    · omega
    · simp only [pageInfoSize] at below ⊢
      omega
  constructor
  · unfold State.pageType
    rw [table]
    apply Memory.load_congr
    intro offset below
    apply bytes
    · omega
    · simp only [pageInfoSize]
      omega
  · unfold State.pageCount
    rw [table]
    apply Memory.load_congr
    intro offset below
    apply bytes
    · omega
    · simp only [pageInfoSize]
      omega

/-- Unchanged metadata has unchanged slab headers. -/
theorem AllocatorSame.header (same : AllocatorSame s s') (inside : i < s.totalPages)
    (isSlab : s.pageType i = pageTypeSlab) (offset width : Nat) (bound : offset + width ≤ slabHeaderSize) :
    s'.mem.load (pageIdxToVirt s i + offset) width = s.mem.load (pageIdxToVirt s i + offset) width := by
  apply Memory.load_congr
  intro byte below
  apply same.metadata
  apply MetadataByte.header inside isSlab
  · omega
  · omega

/-- `free_pages_backend` clears the entry it starts with. -/
theorem pageType_clearRun (positive : 0 < count) (inside : idx < s.totalPages) :
    (clearRun idx count s).pageType idx = pageTypeFree := by
  induction count with
  | zero => exact absurd positive (Nat.lt_irrefl 0)
  | succ count inductionHypothesis =>
      have total : (clearRun idx count s).totalPages = s.totalPages :=
        (clearRun_statics idx count s).total
      rw [clearRun]
      by_cases isFirst : count = 0
      · rw [if_pos (by omega), pageType_setPage, if_pos (by omega)]
        rfl
      · have before := inductionHypothesis (Nat.pos_of_ne_zero isFirst)
        split
        · rw [pageType_setPage, if_neg (by omega)]
          exact before
        · exact before

/-- `free_pages_backend` at a page of the heap leaves no counted entry. -/
theorem freePagesBackend_entry (index : virtToPageIdx s ptr = idx) (inside : idx < s.totalPages) :
    (freePagesBackend ptr s).pageType idx = pageTypeFree ∨
      (freePagesBackend ptr s).pageCount idx = 0 := by
  unfold freePagesBackend
  dsimp only
  rw [index, if_neg (Nat.not_le.mpr inside)]
  by_cases noCount : s.pageCount idx = 0
  · rw [if_pos noCount]
    exact Or.inr noCount
  · rw [if_neg noCount]
    exact Or.inl (pageType_clearRun (Nat.pos_of_ne_zero noCount) inside)

/-- So it changes the page table where the entry was neither free nor without a count. -/
theorem not_same_of_freePages {before : State} (same : SameStatics before s)
    (index : virtToPageIdx before ptr = idx) (inside : idx < before.totalPages)
    (notFree : before.pageType idx ≠ pageTypeFree) (counted : before.pageCount idx ≠ 0) :
    ¬ AllocatorSame before (freePagesBackend ptr s) := by
  intro unchanged
  have statics := same.trans (freePagesBackend_statics ptr s)
  have indexHere : virtToPageIdx s ptr = idx := by
    unfold virtToPageIdx at index ⊢
    rw [same.heapStart, same.heapEnd]
    exact index
  have entry := unchanged.entry statics.metadata inside
  rcases freePagesBackend_entry indexHere (same.total.symm ▸ inside) with isFree | noCount
  · exact notFree (entry.1.symm.trans isFree)
  · exact counted (entry.2.symm.trans noCount)

/-- `cache_free` up to the count of objects in use. -/
def putObject (slab ptr : Nat) (s : State) : State :=
  let s := s.store64 ptr (s.slabFreeList slab)
  let s := s.setSlabFreeList slab ptr
  s.setSlabInUse slab (pred32 (s.slabInUse slab))

theorem putObject_statics (slab ptr : Nat) (s : State) : SameStatics s (putObject slab ptr s) :=
  ⟨rfl, rfl, rfl, rfl, rfl, fun _ => rfl⟩

theorem cacheFree_putObject (magic : s.slabMagicOf (alignDown ptr pageSize) = slabMagic) :
    cacheFree c ptr s =
      if (putObject (alignDown ptr pageSize) ptr s).slabInUse (alignDown ptr pageSize) = 0 then
        if s.slabFreeList (alignDown ptr pageSize) = 0 then
          freePagesBackend (alignDown ptr pageSize) (unlinkSlab c .full (alignDown ptr pageSize)
            (putObject (alignDown ptr pageSize) ptr s))
        else freePagesBackend (alignDown ptr pageSize) (unlinkSlab c .partlyUsed (alignDown ptr pageSize)
          (putObject (alignDown ptr pageSize) ptr s))
      else if s.slabFreeList (alignDown ptr pageSize) = 0 then
        pushSlab c .partlyUsed (alignDown ptr pageSize)
          (unlinkSlab c .full (alignDown ptr pageSize) (putObject (alignDown ptr pageSize) ptr s))
      else putObject (alignDown ptr pageSize) ptr s := by
  unfold cacheFree
  dsimp only
  rw [if_neg (not_not.mpr magic)]
  rfl

/-- The head of the free list after it. -/
theorem putObject_freeList {slab : Nat} (fits : ptr < 2 ^ 64) :
    (putObject slab ptr s).mem.load (slab + 24) 8 = ptr := by
  unfold putObject State.setSlabInUse State.store32 State.setSlabFreeList State.store64
  dsimp only
  rw [Memory.load_store_disjoint _ (by omega), Memory.load_store_same]
  exact Nat.mod_eq_of_lt (Nat.lt_of_lt_of_eq fits (by decide))

/-- The count of objects in use after it, when the object is not in the header. -/
theorem putObject_inUse {slab : Nat} (behindHeader : slab + 40 ≤ ptr) :
    (putObject slab ptr s).mem.load (slab + 32) 4 = pred32 (s.mem.load (slab + 32) 4) := by
  unfold putObject State.setSlabInUse State.store32 State.setSlabFreeList State.store64 State.slabInUse
  dsimp only
  rw [Memory.load_store_same, Memory.load_store_disjoint _ (by omega),
    Memory.load_store_disjoint _ (by omega)]
  exact Nat.mod_eq_of_lt (Nat.lt_of_lt_of_eq (Nat.mod_lt _ (by decide)) (by decide))

theorem pushSlab_head (s : State) (c : Nat) (which : SlabList) (slab : Nat) :
    (pushSlab c which slab s).head c which = slab := by
  unfold pushSlab
  dsimp only
  rw [setHead_head, if_pos ⟨rfl, rfl⟩]

/-- A free in a slab page changes the allocator's data, whatever it hits. -/
theorem not_same_of_slab (rep : Represents r lay s) (wellFormed : lay.WellFormed r)
    (inReach : i < r.reach) (isSlab : lay.use i = .slab c) (inPage : alignDown ptr pageSize = r.page i)
    (fits : ptr < 2 ^ 64) : ¬ AllocatorSame s (cacheFree c ptr s) := by
  intro same
  have inside := Nat.lt_of_lt_of_le inReach r.reach_le
  have known := wellFormed.known i c isSlab
  have header := rep.header i c inside isSlab
  have inTable : i < s.totalPages := rep.statics.total.symm ▸ inside
  have typeIs : s.pageType i = pageTypeSlab := (rep.pageType i inside).trans (congrArg PageUse.type isSlab)
  have countIs : s.pageCount i = 1 := by
    have field := rep.pageCount i inside
    rwa [isSlab] at field
  have page := pageIdxToVirt_eq rep.statics inside
  have pageIndex : virtToPageIdx s (r.page i) = i := by
    rw [virtToPageIdx_eq rep.statics, Region.index_page]
    · exact Nat.le_add_right _ _
    · unfold Region.page
      omega
  rw [cacheFree_putObject (inPage ▸ header.magic), inPage] at same
  have put := putObject_statics (r.page i) ptr s
  have notFree : s.pageType i ≠ pageTypeFree := by
    rw [typeIs]
    decide
  have counted : s.pageCount i ≠ 0 := by omega
  split at same
  · -- the page is freed, or its entry was overwritten
    split at same
    · exact not_same_of_freePages (put.trans (unlinkSlab_statics _ _ _ _)) pageIndex inTable notFree
        counted same
    · exact not_same_of_freePages (put.trans (unlinkSlab_statics _ _ _ _)) pageIndex inTable notFree
        counted same
  · split at same
    · next wasFull =>
        -- a slab that was full is now the first partly used one
        have first : s.head c .partlyUsed = r.page i := by
          have after := pushSlab_head (unlinkSlab c .full (r.page i) (putObject (r.page i) ptr s)) c
            .partlyUsed (r.page i)
          unfold State.head at after ⊢
          rwa [same.caches] at after
        have member := (rep.lists c .partlyUsed known).head_mem (by
          rw [first]
          exact (wellFormed.isPage isSlab).ne_zero)
        rw [first] at member
        rcases (wellFormed.listed c _ _).mp member with ⟨-, -, -, isPartly⟩
        rw [header.chain.eq_zero_iff.mp wasFull] at isPartly
        cases isPartly
    · next someFree =>
        -- the head of the free list is `ptr` now; if it was before, the count differs
        have freeList := same.header inTable typeIs 24 8 (by decide)
        have inUse := same.header inTable typeIs 32 4 (by decide)
        rw [page] at freeList inUse
        rw [putObject_freeList fits] at freeList
        have isFirst : s.field (.freeList (r.page i)) = ptr := freeList.symm
        have member := header.chain.head_mem someFree
        rw [isFirst] at member
        have bounds := object_bounds known (wellFormed.isObject i c isSlab ptr member)
        rw [putObject_inUse bounds.1] at inUse
        have small := Memory.load_lt s.mem (r.page i + 32) 4
        unfold pred32 u32 at inUse
        omega

/-- A pointer that `virt_to_page_idx` has a page for lies in that page. -/
theorem inPage_of_index (statics : Statics r s) (inside : virtToPageIdx s ptr < r.total) :
    virtToPageIdx s ptr = r.index ptr ∧ r.index ptr < r.reach ∧
      alignDown ptr pageSize = r.page (r.index ptr) := by
  have atMost := r.atMost
  have aligned := r.aligned
  have above : r.base ≤ ptr := by
    by_contra below
    rw [virtToPageIdx, statics.heapStart, if_pos (Or.inl (Nat.not_le.mp below)), noIndex] at inside
    omega
  have below : ptr < r.page r.reach := by
    by_contra behind
    rw [virtToPageIdx_behind statics (Nat.not_lt.mp behind), noIndex] at inside
    omega
  refine ⟨virtToPageIdx_eq statics above below, ?_, ?_⟩
  · unfold Region.page at below
    unfold Region.index
    omega
  · unfold alignDown pageSize Region.page Region.index
    omega

/-- Every other free does damage. -/
theorem allocatorSame_free_iff (rep : Represents r lay s) (wellFormed : lay.WellFormed r)
    (inHeap : InHeap s ptr) : AllocatorSame s (free ptr s) ↔ Harmless s ptr := by
  constructor
  · intro same
    by_contra harmful
    unfold Harmless at harmful
    simp only [not_or, not_and] at harmful
    rcases harmful with ⟨nonzero, inTable, notFree, counted⟩
    have inTotal := Nat.not_le.mp inTable
    have unfolded : free ptr s =
        if s.pageType (virtToPageIdx s ptr) = pageTypeSlab then
          if s.slabCache (alignDown ptr pageSize) ≠ 0 then
            cacheFree (s.cacheIndex (s.slabCache (alignDown ptr pageSize))) ptr s
          else s
        else if s.pageType (virtToPageIdx s ptr) = pageTypeLarge then freePagesBackend ptr s else s := by
      unfold free
      rw [if_neg nonzero]
      exact if_pos inTotal
    rw [unfolded] at same
    have inside : virtToPageIdx s ptr < r.total := rep.statics.total ▸ inTotal
    rcases inPage_of_index rep.statics inside with ⟨index, inReach, inPage⟩
    have typeIs := rep.pageType _ inside
    rw [index] at inside typeIs
    by_cases isSlab : ∃ c, lay.use (r.index ptr) = .slab c
    · rcases isSlab with ⟨c, isSlab⟩
      have header := rep.header _ c inside isSlab
      have isType : s.pageType (r.index ptr) = pageTypeSlab :=
        typeIs.trans ((pageType_slab_iff _).mpr ⟨c, isSlab⟩)
      have cache : s.slabCache (r.page (r.index ptr)) = s.cachePtr c := header.cache
      have fits : ptr < 2 ^ 64 := by
        have bound := inHeap.2
        rw [rep.statics.heapStart, rep.statics.total] at bound
        exact Nat.lt_of_lt_of_le bound r.fits
      rw [index, if_pos isType, inPage, cache, if_pos (cachePtr_ne_zero rep.statics c),
        cacheIndex_cachePtr] at same
      exact not_same_of_slab rep wellFormed inReach isSlab inPage fits same
    · have notSlab : s.pageType (virtToPageIdx s ptr) ≠ pageTypeSlab := by
        intro isType
        rw [index] at isType
        exact isSlab ((pageType_slab_iff _).mp (typeIs.symm.trans isType))
      have isLarge : s.pageType (virtToPageIdx s ptr) = pageTypeLarge := by
        rw [index] at notFree notSlab ⊢
        have entry : s.pageType (r.index ptr) = (lay.use (r.index ptr)).type := typeIs
        rw [entry] at notFree notSlab ⊢
        cases use : lay.use (r.index ptr) with
        | free => exact absurd (congrArg PageUse.type use) notFree
        | slab c => exact absurd ⟨c, use⟩ isSlab
        | metadata => rfl
        | large first count => rfl
      rw [if_neg notSlab, if_pos isLarge] at same
      exact not_same_of_freePages (.refl s) rfl inTotal notFree (counted isLarge) same
  · intro harmless
    rw [free_of_harmless harmless]
    exact ⟨rfl, fun _ _ => rfl⟩

end Layouts

/-! ### Runs -/

/-- What a user who does not keep to its blocks may do. -/
inductive Action where
  | call (event : Event)
  | badFree (ptr : Nat)

/-- An allowed call, or a free of a pointer into the heap that is not the start of a
live block. -/
inductive ActionStep : Machine → Action → Machine → Prop where
  | call {m m' : Machine} {event : Event} (step : HeapStep m event m') : ActionStep m (.call event) m'
  | badFree {m : Machine} {ptr : Nat} (inHeap : InHeap m.heap ptr)
      (notLive : ∀ block ∈ m.live, block.addr ≠ ptr) :
      ActionStep m (.badFree ptr) ⟨free ptr m.heap, m.live⟩

/-- A bad free leaves the allocator as it was. -/
def BadFreeIgnored (transition : Transition Machine Action) : Prop :=
  ∀ ptr, transition.label = .badFree ptr → AllocatorSame transition.source.heap transition.target.heap

def BadFreeHarmless (transition : Transition Machine Action) : Prop :=
  ∀ ptr, transition.label = .badFree ptr → Harmless transition.source.heap ptr

section Runs

variable {r : Region} {source target : Machine} {action : Action}

theorem badFree_ignored_iff (valid : ∃ lay, Valid r lay source) (step : ActionStep source action target) :
    BadFreeIgnored ⟨source, action, target⟩ ↔ BadFreeHarmless ⟨source, action, target⟩ := by
  rcases valid with ⟨lay, valid⟩
  unfold BadFreeIgnored BadFreeHarmless
  apply forall_congr'
  intro ptr
  apply imp_congr_right
  rintro rfl
  cases step with
  | badFree inHeap notLive => exact allocatorSame_free_iff valid.rep valid.wellFormed inHeap

theorem action_valid (valid : ∃ lay, Valid r lay source) (step : ActionStep source action target)
    (harmless : BadFreeHarmless ⟨source, action, target⟩) : ∃ lay, Valid r lay target := by
  cases step with
  | call step =>
      rcases valid with ⟨lay, valid⟩
      cases step with
      | call allowed => exact ⟨_, (step_valid valid allowed).2.1⟩
  | badFree inHeap notLive =>
      rw [free_of_harmless (harmless _ rfl)]
      exact valid

end Runs

variable {start size : Nat} {path : List (Transition Machine Action)} {last : Machine}

/-- The bad frees of a run leave the allocator as it was exactly when all of them are
harmless; then live blocks never overlap. -/
theorem bad_frees_ignored_iff (accepted : AcceptedRegion start size) (s : State)
    (cachesNonzero : 0 < s.cachesAddr)
    (cachesFit : s.cachesAddr + numCacheSizes * cacheStructSize ≤ 2 ^ 64)
    (run : Execution ActionStep ⟨heapInit start size s, []⟩ path last) :
    ((∀ transition ∈ path, BadFreeIgnored transition) ↔
      ∀ transition ∈ path, BadFreeHarmless transition) ∧
    ((∀ transition ∈ path, BadFreeHarmless transition) →
      ∀ transition ∈ path, transition.target.live.Pairwise Block.Apart) := by
  have init : ∃ lay, Valid accepted.region lay ⟨heapInit start size s, []⟩ :=
    ⟨_, valid_init accepted s cachesNonzero cachesFit⟩
  constructor
  · exact run.forall_good_iff init (fun _ _ _ valid step => badFree_ignored_iff valid step)
      fun _ _ _ valid step harmless => action_valid valid step harmless
  · intro harmless transition member
    have reached := run.invariant_at_transition BadFreeHarmless init
      (fun _ _ _ valid step harmless => action_valid valid step harmless) harmless
    rcases (reached transition member).2 with ⟨lay, valid⟩
    exact valid.apart

/-- The only object of a slab is freed twice: its page is free the second time. -/
theorem bad_frees_ignored_iff_double_free :
    ∃ path last, Execution ActionStep ⟨heapInit 4096 8192 noHeap, []⟩ path last ∧
      path.map (·.label) = [.call ⟨.malloc 2048, 8232⟩, .call ⟨.free 8232, 0⟩, .badFree 8232] ∧
      (∀ transition ∈ path, BadFreeIgnored transition) ∧
      ∀ transition ∈ path, transition.target.live.Pairwise Block.Apart := by
  let heap := (malloc 2048 (heapInit 4096 8192 noHeap)).2
  have allocate := ActionStep.call (@malloc_step _ [] 2048 8232 (by decide) malloc_twoPages (by decide))
  have release : ActionStep ⟨heap, [Block.new 8232 2048]⟩ (.call ⟨.free 8232, 0⟩) ⟨free 8232 heap, []⟩ :=
    .call (free_step (List.mem_singleton_self (Block.new 8232 2048)))
  have inHeap : InHeap (free 8232 heap) 8232 := by
    unfold InHeap
    decide +kernel
  have again : ActionStep ⟨free 8232 heap, []⟩ (.badFree 8232) ⟨free 8232 (free 8232 heap), []⟩ :=
    .badFree inHeap (by simp)
  have harmless : Harmless (free 8232 heap) 8232 := by decide +kernel
  have run := ((Execution.single allocate).snoc release).snoc again
  have accepted : AcceptedRegion 4096 8192 := ⟨by decide, by decide⟩
  have law := bad_frees_ignored_iff accepted noHeap (by decide) (by decide) run
  refine ⟨_, _, run, rfl, law.1.mpr ?_, law.2 ?_⟩ <;>
  · intro transition member ptr isBad
    simp only [List.cons_append, List.nil_append, List.mem_cons, List.not_mem_nil,
      or_false] at member
    rcases member with rfl | rfl | rfl <;> cases isBad
    exact harmless

/-- The second of two frees of the object at 8232, with another object in its slab. -/
theorem exists_run_of_overlap {s : State} (first : (malloc 1024 s).1 = 8232)
    (second : (malloc 1024 (malloc 1024 s).2).1 = 9256)
    (inHeap : InHeap (free 8232 (malloc 1024 (malloc 1024 s).2).2) 8232)
    (third : (malloc 4096 (free 8232 (free 8232 (malloc 1024 (malloc 1024 s).2).2))).1 = 8192)
    (inside : 1 < (free 8232 (malloc 1024 (malloc 1024 s).2).2).totalPages)
    (changed : (free 8232 (free 8232 (malloc 1024 (malloc 1024 s).2).2)).pageType 1 ≠
      (free 8232 (malloc 1024 (malloc 1024 s).2).2).pageType 1) :
    ∃ path last, Execution ActionStep ⟨s, []⟩ path last ∧
      path.map (·.label) = [.call ⟨.malloc 1024, 8232⟩, .call ⟨.malloc 1024, 9256⟩,
        .call ⟨.free 8232, 0⟩, .badFree 8232, .call ⟨.malloc 4096, 8192⟩] ∧
      (¬ ∀ transition ∈ path, BadFreeIgnored transition) ∧ ¬ last.live.Pairwise Block.Apart := by
  let left := Block.new 8232 1024
  let right := Block.new 9256 1024
  have takeLeft := ActionStep.call (@malloc_step s [] 1024 8232 (by decide) first (by decide))
  generalize (malloc 1024 s).2 = one at *
  have takeRight := ActionStep.call (@malloc_step one [left] 1024 9256 (by decide) second (by decide))
  generalize (malloc 1024 one).2 = two at *
  have isLive : left ∈ [right, left] := List.mem_cons_of_mem _ (List.mem_singleton_self left)
  have release := ActionStep.call (@free_step two [right, left] left isLive)
  have onlyRight : dropBlock left.addr [right, left] = [right] := by decide
  have leftAddr : left.addr = 8232 := rfl
  rw [onlyRight, leftAddr] at release
  generalize free 8232 two = three at *
  have notLive : ∀ block ∈ [right], block.addr ≠ 8232 := by decide
  have again := @ActionStep.badFree ⟨three, [right]⟩ 8232 inHeap notLive
  have cover := ActionStep.call (@malloc_step (free 8232 three) [right] 4096 8192 (by decide) third
    (by decide))
  have run := ((((Execution.single takeLeft).snoc takeRight).snoc release).snoc again).snoc cover
  refine ⟨_, _, run, rfl, ?_, ?_⟩
  · intro ignored
    have same : AllocatorSame three (free 8232 three) :=
      ignored ⟨⟨three, [right]⟩, .badFree 8232, ⟨free 8232 three, [right]⟩⟩ (by simp) 8232 rfl
    exact changed (same.entry (free_statics 8232 three).metadata inside).1
  · intro apart
    have covered : ¬ (Block.new 8192 4096).Apart right := by
      unfold Block.Apart
      decide
    exact covered ((List.pairwise_cons.mp apart).1 right (List.mem_singleton_self right))

/-- One of two objects of a slab is freed twice: the slab's page is free while the
other object is live, and the next block covers it. -/
theorem exists_overlap :
    ∃ path last, Execution ActionStep ⟨heapInit 4096 8192 noHeap, []⟩ path last ∧
      path.map (·.label) = [.call ⟨.malloc 1024, 8232⟩, .call ⟨.malloc 1024, 9256⟩,
        .call ⟨.free 8232, 0⟩, .badFree 8232, .call ⟨.malloc 4096, 8192⟩] ∧
      (¬ ∀ transition ∈ path, BadFreeIgnored transition) ∧ ¬ last.live.Pairwise Block.Apart := by
  apply exists_run_of_overlap
  · decide +kernel
  · decide +kernel
  · unfold InHeap
    decide +kernel
  · decide +kernel
  · decide +kernel
  · decide +kernel

end UniKernel.Heap
