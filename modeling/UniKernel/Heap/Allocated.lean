import UniKernel.Heap.Runs

/-!
Owns the blocks that the allocator's own data call allocated: read off the page
table, the slab headers and the free lists they are exactly the user's blocks.
-/

namespace UniKernel.Heap

open UniKernel.Lib

/-- The cache a slab page belongs to. -/
def State.cacheOfPage (s : State) (i : Nat) : Nat := s.cacheIndex (s.slabCache (pageIdxToVirt s i))

/-- A block of `size` bytes at `addr`: an object of a slab that is not in its free
list, or a run of pages behind the page table. -/
inductive Allocated (s : State) : (addr size : Nat) → Prop where
  | object {i obj : Nat} (inside : i < s.totalPages) (isSlab : s.pageType i = pageTypeSlab)
      (member : obj ∈ objects (s.cacheOfPage i) (pageIdxToVirt s i))
      (taken : ¬ FreeObject s (pageIdxToVirt s i) obj) :
      Allocated s obj (s.caches (s.cacheOfPage i)).objSize
  | pages {i : Nat} (behind : (s.totalPages * pageInfoSize + (pageSize - 1)) / pageSize ≤ i)
      (inside : i < s.totalPages) (isLarge : s.pageType i = pageTypeLarge)
      (counted : s.pageCount i ≠ 0) : Allocated s (pageIdxToVirt s i) (s.pageCount i * pageSize)

section Layouts

variable {r : Region} {lay : Layout} {s : State} {m : Machine} {i c addr size : Nat}

theorem cacheOfPage_eq (rep : Represents r lay s) (inside : i < r.total) (isSlab : lay.use i = .slab c) :
    s.cacheOfPage i = c := by
  have cache : s.slabCache (r.page i) = s.cachePtr c := (rep.header i c inside isSlab).cache
  rw [State.cacheOfPage, pageIdxToVirt_eq rep.statics inside, cache, cacheIndex_cachePtr]

theorem pageType_large_iff (use : PageUse) :
    use.type = pageTypeLarge ↔ use = .metadata ∨ ∃ first count, use = .large first count := by
  cases use <;> simp [PageUse.type]

/-- The memory and the layout it stands for name the same blocks. -/
theorem allocated_iff (small : r.Small) (rep : Represents r lay s) (wellFormed : lay.WellFormed r) :
    Allocated s addr size ↔ lay.Occupied r addr size := by
  have total := rep.statics.total
  constructor
  · intro allocated
    cases allocated with
    | @object i _ inside isSlab member taken =>
        rw [total] at inside
        have typeIs : s.pageType i = (lay.use i).type := rep.pageType i inside
        rcases (pageType_slab_iff _).mp (typeIs.symm.trans isSlab) with ⟨c, use⟩
        have page := pageIdxToVirt_eq rep.statics inside
        rw [cacheOfPage_eq rep inside use, page] at member
        rw [page, freeObject_iff rep inside use] at taken
        rw [cacheOfPage_eq rep inside use, rep.statics.objSize c (wellFormed.known i c use)]
        exact .object use member taken
    | @pages i behind inside isLarge counted =>
        rw [total] at behind inside
        have typeIs : s.pageType i = (lay.use i).type := rep.pageType i inside
        have countIs : s.pageCount i = (lay.use i).count i := rep.pageCount i inside
        rcases (pageType_large_iff _).mp (typeIs.symm.trans isLarge) with isMetadata | ⟨first, count, use⟩
        · have inTable : i < r.metaPages := (wellFormed.metadata i).mp isMetadata
          exact absurd inTable (Nat.not_lt.mpr behind)
        · have isFirst : i = first := by
            by_contra different
            rw [use] at countIs
            exact counted (countIs.trans (if_neg different))
          subst isFirst
          have bounds := wellFormed.large_bounds use
          have pages := small.1
          have fits : u16 count = count := u16_of_lt (by omega)
          rw [use] at countIs
          rw [countIs.trans (if_pos rfl), fits, pageIdxToVirt_eq rep.statics inside]
          exact .pages use
  · intro occupied
    cases occupied with
    | @object i c _ use member taken =>
        have inside := (Region.isPage_page_iff.mp (wellFormed.isPage use)).2
        have typeIs : s.pageType i = pageTypeSlab :=
          (rep.pageType i inside).trans (congrArg PageUse.type use)
        have page := pageIdxToVirt_eq rep.statics inside
        have cache := cacheOfPage_eq rep inside use
        rw [← rep.statics.objSize c (wellFormed.known i c use), ← cache]
        apply Allocated.object (total ▸ inside) typeIs
        · rw [cache, page]
          exact member
        · rw [page, freeObject_iff rep inside use]
          exact taken
    | @pages first count use =>
        have bounds := wellFormed.large_bounds use
        have positive := (wellFormed.large first first count use).2.1
        have inside : first < r.total := by omega
        have pages := small.1
        have typeIs : s.pageType first = pageTypeLarge :=
          (rep.pageType first inside).trans (congrArg PageUse.type use)
        have countIs : s.pageCount first = count := by
          have field := rep.pageCount first inside
          rw [use] at field
          exact field.trans ((if_pos rfl).trans (u16_of_lt (by omega)))
        rw [← pageIdxToVirt_eq rep.statics inside, ← countIs]
        apply Allocated.pages (total.symm ▸ bounds.1) (total ▸ inside) typeIs
        omega

/-- In a region whose counts fit the table, the allocated blocks are the user's. -/
theorem Valid.allocated_iff (small : r.Small) (valid : Valid r lay m) :
    Allocated m.heap addr size ↔ ∃ block ∈ m.live, block.addr = addr ∧ block.size = size := by
  rw [Heap.allocated_iff small valid.rep valid.wellFormed]
  constructor
  · exact valid.owned small addr size
  · rintro ⟨block, member, rfl, rfl⟩
    exact valid.occupied block member

end Layouts

end UniKernel.Heap
