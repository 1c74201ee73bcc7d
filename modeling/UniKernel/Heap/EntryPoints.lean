import UniKernel.Heap.Caches

/-!
Owns `heap_init`, `malloc` and `free` over memory: the state after `heap_init`
stands for the initial layout, and each call returns and leaves what the
layout's function does.
-/

namespace UniKernel.Heap

open UniKernel.Lib

variable {r : Region} {lay : Layout} {s : State} {ptr size : Nat}

/-! ### Allocation -/

theorem cacheFor_eq (statics : Statics r s) (size : Nat) {remaining i : Nat}
    (bound : i + remaining ≤ numCacheSizes) :
    cacheFor s size remaining i = (List.range' i remaining).find? fun c => size ≤ classSize c := by
  induction remaining generalizing i with
  | zero => rfl
  | succ remaining inductionHypothesis =>
      rw [cacheFor, statics.objSize i (by omega), List.range'_succ, List.find?_cons]
      by_cases fits : size ≤ classSize i
      · rw [if_pos fits]
        simp [fits]
      · rw [if_neg fits, inductionHypothesis (by omega)]
        simp [fits]

theorem cacheFor_classFor (statics : Statics r s) (size : Nat) :
    cacheFor s size numCacheSizes 0 = Layout.classFor size := by
  rw [cacheFor_eq statics size (by simp), Layout.classFor, List.range_eq_range']

theorem allocLarge_refines (rep : Represents r lay s) (wellFormed : lay.WellFormed r) (count : Nat) :
    (allocPagesBackend count pageTypeLarge s).1 = (lay.allocLarge r count).1 ∧
      Represents r (lay.allocLarge r count).2 (allocPagesBackend count pageTypeLarge s).2 ∧
      Keeps r lay s (allocPagesBackend count pageTypeLarge s).2 := by
  unfold Layout.allocLarge
  cases found : lay.findPages r count with
  | none =>
      rw [allocPagesBackend_none rep found]
      exact ⟨rfl, rep, .refl s⟩
  | some first =>
      have typeIs : (PageUse.large first count).type = pageTypeLarge := rfl
      rcases allocPagesBackend_some rep wellFormed found typeIs (fun _ _ _ => rfl) with ⟨address, set⟩
      exact ⟨address, rep.tableSet wellFormed.inRegion set (by simp), set.keeps lay wellFormed⟩

theorem malloc_refines (rep : Represents r lay s) (wellFormed : lay.WellFormed r) (size : Nat) :
    (malloc size s).1 = (lay.malloc r size).1 ∧
      Represents r (lay.malloc r size).2 (malloc size s).2 ∧ Keeps r lay s (malloc size s).2 := by
  unfold malloc Layout.malloc
  by_cases isZero : size = 0
  · rw [if_pos isZero, if_pos isZero]
    exact ⟨rfl, rep, .refl s⟩
  · rw [if_neg isZero, if_neg isZero]
    by_cases small : size ≤ 2048
    · rcases Layout.classFor_spec small with ⟨c, found, known, -⟩
      rw [if_pos small, if_pos small, cacheFor_classFor rep.statics, found]
      exact cacheAlloc_refines rep wellFormed known
    · rw [if_neg small, if_neg small]
      exact allocLarge_refines rep wellFormed _

/-! ### Freeing -/

theorem pageType_slab_iff (use : PageUse) : use.type = pageTypeSlab ↔ ∃ c, use = .slab c := by
  cases use <;> simp [PageUse.type]

/-- The entry of the page table that `free` and `realloc` look up for a block. -/
theorem blockEntry (rep : Represents r lay s) (wellFormed : lay.WellFormed r)
    (occupied : lay.Occupied r ptr size) (inReach : r.index ptr < r.reach) :
    virtToPageIdx s ptr = r.index ptr ∧ s.pageType (r.index ptr) = (lay.use (r.index ptr)).type := by
  have inside := (occupied.inside wellFormed).1
  have fromBase : r.base ≤ ptr := by
    unfold Region.page at inside
    omega
  have below : ptr < r.page r.reach := by
    unfold Region.index at inReach
    unfold Region.page
    omega
  exact ⟨virtToPageIdx_eq rep.statics fromBase below,
    rep.pageType _ (Nat.lt_of_lt_of_le inReach r.reach_le)⟩

/-- Blocks behind `heap_end_addr` have no entry. -/
theorem noEntry (rep : Represents r lay s) (behind : r.reach ≤ r.index ptr) (nonzero : r.index ptr ≠ 0) :
    ¬ virtToPageIdx s ptr < s.totalPages := by
  have atMost := r.atMost
  have address : r.page r.reach ≤ ptr := by
    unfold Region.index at behind nonzero
    unfold Region.page
    omega
  rw [virtToPageIdx_behind rep.statics address, rep.statics.total, noIndex]
  omega

theorem index_ne_zero (wellFormed : lay.WellFormed r) (occupied : lay.Occupied r ptr size) :
    r.index ptr ≠ 0 := by
  have inside := (occupied.inside wellFormed).1
  have positive := r.metaPages_pos
  unfold Region.page at inside
  unfold Region.index
  omega

/-- The cache that the header of an object's slab names. -/
theorem slabCache_object {c i : Nat} (rep : Represents r lay s) (wellFormed : lay.WellFormed r)
    (isSlab : lay.use i = .slab c) (member : ptr ∈ objects c (r.page i)) :
    s.slabCache (alignDown ptr pageSize) = s.cachePtr c := by
  have isPage := wellFormed.isPage isSlab
  rw [alignDown_object (wellFormed.known i c isSlab) isPage member]
  exact (rep.header i c (Region.isPage_page_iff.mp isPage).2 isSlab).cache

/-- Pages get another use that the table does not tell from theirs. -/
theorem Represents.relabel {first count : Nat} {use : PageUse} (rep : Represents r lay s)
    (notSlab : ∀ c, use ≠ .slab c)
    (same : ∀ i, first ≤ i → i < first + count → use.type = (lay.use i).type ∧
      use.count i = (lay.use i).count i) : Represents r (lay.setUse first count use) s := by
  refine ⟨rep.statics, rep.noFreeSlabs, ?_, ?_, ?_, rep.lists⟩
  · intro i inside
    rw [Layout.setUse_use]
    split
    · next inRun => exact (rep.pageType i inside).trans (same i inRun.1 inRun.2).1.symm
    · exact rep.pageType i inside
  · intro i inside
    rw [Layout.setUse_use]
    split
    · next inRun => exact (rep.pageCount i inside).trans (same i inRun.1 inRun.2).2.symm
    · exact rep.pageCount i inside
  · intro i c inside isSlab
    rw [Layout.setUse_use] at isSlab
    split at isSlab
    · exact absurd isSlab (notSlab c)
    · exact rep.header i c inside isSlab

theorem freeLarge_eq (lay : Layout) (first count : Nat) :
    lay.freeLarge first count =
      (lay.setUse first (u16 count) .free).setUse (first + u16 count) (count - u16 count)
        (.large (first + u16 count) (count - u16 count)) := by
  have le := u16_le count
  unfold Layout.freeLarge Layout.setUse
  congr 1
  funext i
  dsimp only
  by_cases freed : first ≤ i ∧ i < first + u16 count
  · rw [if_pos freed, if_neg (by omega), if_pos freed]
  · rw [if_neg freed, if_neg freed]
    by_cases rest : first ≤ i ∧ i < first + count
    · rw [if_pos rest, if_pos (by omega)]
    · rw [if_neg rest, if_neg (by omega)]

/-- `free_pages_backend` frees as many pages of a block as its count says. -/
theorem freeLarge_refines {first count : Nat} (rep : Represents r lay s) (wellFormed : lay.WellFormed r)
    (isLarge : lay.use first = .large first count) (inReach : first < r.reach) :
    Represents r (lay.freeLarge first count) (freePagesBackend (r.page first) s) ∧
      Keeps r (lay.freeLarge first count) s (freePagesBackend (r.page first) s) := by
  have run := wellFormed.large first first count isLarge
  have bounds := wellFormed.large_bounds isLarge
  have reachLe := r.reach_le
  have le := u16_le count
  have rest : u16 (count - u16 count) = 0 := by
    unfold u16
    omega
  have countIs : s.field (.pageCount first) = u16 count := by
    rw [rep.pageCount first (by omega), isLarge]
    exact if_pos rfl
  have freed : Represents r (lay.setUse first (u16 count) .free) (freePagesBackend (r.page first) s) ∧
      Keeps r (lay.freeLarge first count) s (freePagesBackend (r.page first) s) := by
    by_cases none : u16 count = 0
    · have index : virtToPageIdx s (r.page first) = first := by
        rw [virtToPageIdx_eq rep.statics, Region.index_page]
        · unfold Region.page
          omega
        · unfold Region.page
          omega
      have noCount : s.pageCount first = 0 := countIs.trans none
      have nothing : freePagesBackend (r.page first) s = s := by
        unfold freePagesBackend
        simp only [index, noCount, rep.statics.total, if_true]
        rw [if_neg (by omega)]
      have sameLayout : lay.setUse first (u16 count) .free = lay := by
        unfold Layout.setUse
        rw [none]
        cases lay
        congr 1
        funext i
        exact if_neg (by omega)
      rw [nothing, sameLayout]
      exact ⟨rep, .refl s⟩
    · have set := freePagesBackend_tableSet rep.statics inReach countIs none (by omega)
      exact ⟨rep.tableSet wellFormed.inRegion set (by simp),
        set.keeps _ (Layout.wellFormed_freeLarge wellFormed isLarge)⟩
  refine ⟨?_, freed.2⟩
  rw [freeLarge_eq]
  apply freed.1.relabel (by simp)
  intro i above below
  have useIs : lay.use i = .large first count := run.2.2 i (by omega) (by omega)
  have elsewhere : (PageUse.large first count).count i = 0 := by
    by_cases isFirst : i = first
    · have none : u16 count = 0 := by omega
      exact (if_pos isFirst).trans none
    · exact if_neg isFirst
  have restCount : (PageUse.large (first + u16 count) (count - u16 count)).count i = 0 := by
    unfold PageUse.count
    dsimp only
    rw [rest, ite_self]
  rw [Layout.setUse_use, if_neg (by omega), useIs, restCount, elsewhere]
  exact ⟨rfl, rfl⟩

theorem free_refines (rep : Represents r lay s) (wellFormed : lay.WellFormed r)
    (used : lay.Used r) (occupied : lay.Occupied r ptr size) :
    Represents r (lay.free r ptr) (free ptr s) ∧ Keeps r (lay.free r ptr) s (free ptr s) := by
  have after := (Layout.free_spec wellFormed used occupied).1
  have nonzero := occupied.ne_zero wellFormed
  unfold Layout.free at after ⊢
  rw [if_neg nonzero] at after ⊢
  by_cases behind : r.reach ≤ r.index ptr
  · have nothing : free ptr s = s := by
      unfold free
      rw [if_neg nonzero]
      exact if_neg (noEntry rep behind (index_ne_zero wellFormed occupied))
    rw [if_pos behind, nothing]
    exact ⟨rep, .refl s⟩
  · have inReach := Nat.not_le.mp behind
    have indexLt := Nat.lt_of_lt_of_le inReach r.reach_le
    rcases blockEntry rep wellFormed occupied inReach with ⟨index, typeIs⟩
    have unfolded : free ptr s =
        if s.pageType (r.index ptr) = pageTypeSlab then
          if s.slabCache (alignDown ptr pageSize) ≠ 0 then
            cacheFree (s.cacheIndex (s.slabCache (alignDown ptr pageSize))) ptr s
          else s
        else if s.pageType (r.index ptr) = pageTypeLarge then freePagesBackend ptr s else s := by
      unfold free
      rw [if_neg nonzero]
      simp only [index, rep.statics.total, if_pos indexLt]
    rw [unfolded, typeIs, if_neg behind]
    rw [if_neg behind] at after
    cases occupied with
    | @object i c _ isSlab member taken =>
        rw [Layout.index_of_mem (wellFormed.known i c isSlab) member] at inReach
        rw [Layout.index_of_mem (wellFormed.known i c isSlab) member, isSlab] at after ⊢
        rw [if_pos ((pageType_slab_iff _).mpr ⟨c, rfl⟩), slabCache_object rep wellFormed isSlab member,
          if_pos (cachePtr_ne_zero rep.statics c), cacheIndex_cachePtr]
        exact cacheFree_refines rep wellFormed isSlab member taken inReach after
    | @pages first count isLarge =>
        rw [Region.index_page] at inReach
        rw [Region.index_page, isLarge]
        rw [if_neg (show ¬ (PageUse.large first count).type = pageTypeSlab by simp [PageUse.type]),
          if_pos (show (PageUse.large first count).type = pageTypeLarge from rfl)]
        exact freeLarge_refines rep wellFormed isLarge inReach

/-- The size that `realloc` finds is the layout's. -/
theorem oldSize_eq (rep : Represents r lay s) (wellFormed : lay.WellFormed r)
    (occupied : lay.Occupied r ptr size) : oldSize ptr s = lay.sizeAt r ptr := by
  unfold Layout.sizeAt
  by_cases behind : r.reach ≤ r.index ptr
  · rw [if_pos behind]
    exact if_neg (noEntry rep behind (index_ne_zero wellFormed occupied))
  · have inReach := Nat.not_le.mp behind
    have indexLt := Nat.lt_of_lt_of_le inReach r.reach_le
    rcases blockEntry rep wellFormed occupied inReach with ⟨index, typeIs⟩
    rw [if_neg behind]
    unfold oldSize
    simp only [index, rep.statics.total, if_pos indexLt, typeIs]
    cases occupied with
    | @object i c _ isSlab member taken =>
        have known := wellFormed.known i c isSlab
        rw [Layout.index_of_mem known member, isSlab, if_pos ((pageType_slab_iff _).mpr ⟨c, rfl⟩),
          slabCache_object rep wellFormed isSlab member,
          if_pos (cachePtr_ne_zero rep.statics c), cacheIndex_cachePtr, rep.statics.objSize c known]
    | @pages first count isLarge =>
        rw [Region.index_page] at indexLt
        have countIs : s.pageCount first = u16 count := by
          have field := rep.pageCount first indexLt
          rw [isLarge] at field
          exact field.trans (if_pos rfl)
        rw [Region.index_page, isLarge,
          if_neg (show ¬ (PageUse.large first count).type = pageTypeSlab by simp [PageUse.type]),
          if_pos (show (PageUse.large first count).type = pageTypeLarge from rfl), countIs, pageSize]

end UniKernel.Heap
