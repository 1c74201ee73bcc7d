import UniKernel.Heap.Allocated

/-!
Owns what `realloc` does to the user's blocks in every reachable heap: the block
keeps its contents wherever it goes, the other blocks keep theirs and stay apart
from it, and on failure nothing changes.
-/

namespace UniKernel.Heap

open UniKernel.Lib

/-- The bytes of a block are the same in both states. -/
def SameBytes (s s' : State) (addr size : Nat) : Prop :=
  ∀ offset, offset < size → s'.mem (addr + offset) = s.mem (addr + offset)

/-- The block at `ptr` is freed and no other. -/
structure Freed (s : State) (ptr : Nat) (s' : State) : Prop where
  blocks : ∀ addr size, Allocated s' addr size ↔ Allocated s addr size ∧ addr ≠ ptr
  kept : ∀ addr size, Allocated s addr size → addr ≠ ptr → SameBytes s s' addr size

/-- Nothing is allocated or freed, and no block changes. -/
structure Untouched (s s' : State) : Prop where
  blocks : ∀ addr size, Allocated s' addr size ↔ Allocated s addr size
  kept : ∀ addr size, Allocated s addr size → SameBytes s s' addr size

/-- The block of `size` bytes at `ptr` is now the one of `usable` bytes at `result`. -/
structure Moved (s : State) (ptr size newSize result usable : Nat) (s' : State) : Prop where
  enough : newSize ≤ usable
  blocks : ∀ addr bytes, Allocated s' addr bytes ↔
    (Allocated s addr bytes ∧ addr ≠ ptr) ∨ (addr = result ∧ bytes = usable)
  notOld : result ≠ ptr → ∀ bytes, ¬ Allocated s' ptr bytes
  copied : ∀ offset, offset < min size newSize → s'.mem (result + offset) = s.mem (ptr + offset)
  kept : ∀ addr bytes, Allocated s addr bytes → addr ≠ ptr → SameBytes s s' addr bytes
  apart : ∀ addr bytes, Allocated s addr bytes → addr ≠ ptr →
    addr + bytes ≤ result ∨ result + usable ≤ addr

section Steps

variable {r : Region} {lay lay' : Layout} {m m' : Machine} {block : Block} {live : List Block}
  {ptr newSize addr size : Nat}

theorem exists_dropBlock :
    (∃ block ∈ dropBlock ptr live, block.addr = addr ∧ block.size = size) ↔
      (∃ block ∈ live, block.addr = addr ∧ block.size = size) ∧ addr ≠ ptr := by
  constructor
  · rintro ⟨block, member, rfl, rfl⟩
    rcases List.mem_filter.mp member with ⟨isLive, different⟩
    exact ⟨⟨block, isLive, rfl, rfl⟩, of_decide_eq_true different⟩
  · rintro ⟨⟨block, isLive, rfl, rfl⟩, different⟩
    exact ⟨block, List.mem_filter.mpr ⟨isLive, decide_eq_true different⟩, rfl, rfl⟩

theorem exists_resizeBlock :
    (∃ block ∈ resizeBlock ptr newSize live, block.addr = addr ∧ block.size = size) ↔
      ∃ block ∈ live, block.addr = addr ∧ block.size = size := by
  constructor
  · rintro ⟨resized, member, rfl, rfl⟩
    rcases List.mem_map.mp member with ⟨block, isLive, rfl⟩
    refine ⟨block, isLive, ?_, ?_⟩
    · split <;> rfl
    · split <;> rfl
  · rintro ⟨block, isLive, rfl, rfl⟩
    refine ⟨_, List.mem_map_of_mem isLive, ?_, ?_⟩
    · split <;> rfl
    · split <;> rfl

/-- A block allocated before and after keeps its bytes. -/
theorem KeepsCommon.sameBytes {s s' : State} (keeps : KeepsCommon r lay lay' s s')
    (before : lay.Occupied r addr size) (after : lay'.Occupied r addr size) :
    SameBytes s s' addr size :=
  fun _ below => keeps _ ⟨addr, size, before, Nat.le_add_right _ _, Nat.add_lt_add_left below _⟩
    ⟨addr, size, after, Nat.le_add_right _ _, Nat.add_lt_add_left below _⟩

/-- `realloc(ptr, 0)` -/
theorem freed_of_live (small : r.Small) (valid : Valid r lay m) (member : block ∈ m.live) :
    Freed m.heap block.addr (free block.addr m.heap) := by
  rcases valid_free valid member with ⟨after, keeps⟩
  have blocks : ∀ addr size, Allocated (free block.addr m.heap) addr size ↔
      Allocated m.heap addr size ∧ addr ≠ block.addr := by
    intro addr size
    rw [after.allocated_iff small, exists_dropBlock, ← valid.allocated_iff small]
  refine ⟨blocks, ?_⟩
  intro addr size allocated different offset below
  have stays := (blocks addr size).mpr ⟨allocated, different⟩
  rw [allocated_iff small after.rep after.wellFormed] at stays
  exact keeps _ ⟨addr, size, stays, Nat.le_add_right _ _, Nat.add_lt_add_left below _⟩

/-- The block that `realloc` leaves, given the blocks afterwards. -/
theorem moved_of_blocks {result usable : Nat} (small : r.Small) (valid : Valid r lay m)
    (after : Valid r lay' m') (keeps : KeepsCommon r lay lay' m.heap m'.heap)
    (enough : newSize ≤ usable)
    (blocks : ∀ addr bytes, Allocated m'.heap addr bytes ↔
      (Allocated m.heap addr bytes ∧ addr ≠ ptr) ∨ (addr = result ∧ bytes = usable))
    (fresh : result ≠ ptr → ∀ bytes, ¬ Allocated m.heap result bytes)
    (copied : ∀ offset, offset < min size newSize →
      m'.heap.mem (result + offset) = m.heap.mem (ptr + offset)) :
    Moved m.heap ptr size newSize result usable m'.heap := by
  have before : ∀ {addr bytes}, Allocated m.heap addr bytes → lay.Occupied r addr bytes :=
    fun allocated => (allocated_iff small valid.rep valid.wellFormed).mp allocated
  have stays : ∀ {addr bytes}, Allocated m'.heap addr bytes → lay'.Occupied r addr bytes :=
    fun allocated => (allocated_iff small after.rep after.wellFormed).mp allocated
  refine ⟨enough, blocks, ?_, copied, ?_, ?_⟩
  · intro moved bytes allocated
    rcases (blocks ptr bytes).mp allocated with ⟨-, different⟩ | ⟨same, -⟩
    · exact different rfl
    · exact moved same.symm
  · intro addr bytes allocated different
    exact keeps.sameBytes (before allocated)
      (stays ((blocks addr bytes).mpr (Or.inl ⟨allocated, different⟩)))
  · intro addr bytes allocated different
    apply (stays ((blocks addr bytes).mpr (Or.inl ⟨allocated, different⟩))).apart after.wellFormed
      (stays ((blocks result usable).mpr (Or.inr ⟨rfl, rfl⟩)))
    rintro rfl
    exact fresh different bytes allocated

theorem realloc_live (small : r.Small) (valid : Valid r lay m) (member : block ∈ m.live)
    (fits : newSize < 2 ^ 64) (positive : newSize ≠ 0) :
    ((realloc block.addr newSize m.heap).1 = 0 ∧
        Untouched m.heap (realloc block.addr newSize m.heap).2) ∨
      ((realloc block.addr newSize m.heap).1 ≠ 0 ∧
        ∃ usable, Moved m.heap block.addr block.size newSize (realloc block.addr newSize m.heap).1 usable
          (realloc block.addr newSize m.heap).2) := by
  have occupied := valid.occupied block member
  rcases valid_realloc valid member fits with ⟨-, after, keeps, copied⟩
  rw [oldSize_eq valid.rep valid.wellFormed occupied, Layout.sizeAt_eq small valid.wellFormed occupied]
    at copied
  rw [live_realloc _ _ (occupied.ne_zero valid.wellFormed), if_neg positive] at after
  generalize (lay.realloc r block.addr newSize).2 = lay' at *
  generalize realloc block.addr newSize m.heap = returned at *
  rcases returned with ⟨result, s'⟩
  dsimp only at *
  by_cases isNull : result = 0
  · rw [if_pos isNull] at after
    have blocks : ∀ addr size, Allocated s' addr size ↔ Allocated m.heap addr size := by
      intro addr size
      rw [after.allocated_iff small, valid.allocated_iff small]
    refine Or.inl ⟨isNull, blocks, ?_⟩
    intro addr size allocated
    exact keeps.sameBytes ((allocated_iff small valid.rep valid.wellFormed).mp allocated)
      ((allocated_iff small after.rep after.wellFormed).mp ((blocks addr size).mpr allocated))
  · rw [if_neg isNull] at after
    have copied' : ∀ offset, offset < min block.size newSize →
        s'.mem (result + offset) = m.heap.mem (block.addr + offset) :=
      fun offset below => copied isNull offset (Nat.lt_of_lt_of_le below (Nat.min_le_left _ _))
    refine Or.inr ⟨isNull, ?_⟩
    by_cases inPlace : result = block.addr
    · rw [if_pos inPlace] at after
      have same : ∀ addr size, Allocated s' addr size ↔ Allocated m.heap addr size := by
        intro addr size
        rw [after.allocated_iff small, exists_resizeBlock, valid.allocated_iff small]
      have mine : Allocated m.heap block.addr block.size :=
        (valid.allocated_iff small).mpr ⟨block, member, rfl, rfl⟩
      have enough : newSize ≤ block.size := by
        have resized := List.mem_map_of_mem
          (f := fun other : Block => if other.addr = block.addr then { other with requested := newSize }
            else other) member
        rw [if_pos rfl] at resized
        exact after.enough _ resized
      refine ⟨block.size, moved_of_blocks small valid after keeps enough ?_ ?_ copied'⟩
      · intro addr bytes
        rw [same]
        constructor
        · intro allocated
          by_cases isBlock : addr = block.addr
          · rw [isBlock, allocated_iff small valid.rep valid.wellFormed] at allocated
            exact Or.inr ⟨isBlock.trans inPlace.symm, allocated.size_unique valid.wellFormed occupied⟩
          · exact Or.inl ⟨allocated, isBlock⟩
        · rintro (⟨allocated, -⟩ | ⟨rfl, rfl⟩)
          · exact allocated
          · exact inPlace ▸ mine
      · exact fun moved => absurd inPlace moved
    · rw [if_neg inPlace] at after
      have blocks : ∀ addr bytes, Allocated s' addr bytes ↔ (Allocated m.heap addr bytes ∧
          addr ≠ block.addr) ∨ (addr = result ∧ bytes = Layout.blockSize newSize) := by
        intro addr bytes
        rw [after.allocated_iff small, valid.allocated_iff small, ← exists_dropBlock,
          List.exists_mem_cons_iff, or_comm]
        exact or_congr Iff.rfl ⟨fun is => ⟨is.1.symm, is.2.symm⟩, fun is => ⟨is.1.symm, is.2.symm⟩⟩
      refine ⟨_, moved_of_blocks small valid after keeps (after.enough _ List.mem_cons_self) blocks ?_
        copied'⟩
      -- an old block at `result` would be one of the blocks listed twice
      intro _ bytes allocated
      rcases (valid.allocated_iff small).mp allocated with ⟨old, isLive, sameAddr, -⟩
      have nodup := after.nodup
      rw [List.map_cons, List.nodup_cons] at nodup
      apply nodup.1
      rw [List.mem_map]
      refine ⟨old, mem_dropBlock.mpr ⟨isLive, ?_⟩, sameAddr⟩
      exact fun isBlock => inPlace (sameAddr.symm.trans isBlock)

end Steps

/-! ### Runs -/

variable {start size : Nat} {path : List (Transition Machine Event)} {last : Machine}

/-- In every reachable heap `realloc` keeps the contents of the block it is given
and of every other block. -/
theorem realloc_keeps_contents (given : GivenRegion start size) (s : State)
    (cachesNonzero : 0 < s.cachesAddr)
    (cachesFit : s.cachesAddr + numCacheSizes * cacheStructSize ≤ 2 ^ 64)
    (run : Execution HeapStep ⟨heapInit start size s, []⟩ path last) :
    (∀ addr bytes, Allocated last.heap addr bytes ↔
      ∃ block ∈ last.live, block.addr = addr ∧ block.size = bytes) ∧
    ∀ block ∈ last.live,
      (∀ newSize, newSize ≠ 0 → newSize < 2 ^ 64 →
        ((realloc block.addr newSize last.heap).1 = 0 ∧
            Untouched last.heap (realloc block.addr newSize last.heap).2) ∨
          ((realloc block.addr newSize last.heap).1 ≠ 0 ∧
            ∃ usable, Moved last.heap block.addr block.size newSize
              (realloc block.addr newSize last.heap).1 usable
              (realloc block.addr newSize last.heap).2)) ∧
      (realloc block.addr 0 last.heap).1 = 0 ∧
        Freed last.heap block.addr (realloc block.addr 0 last.heap).2 := by
  rcases reachable_valid given.accepted cachesNonzero cachesFit run with ⟨lay, valid⟩
  refine ⟨fun addr bytes => valid.allocated_iff given.small, ?_⟩
  intro block member
  have nonzero := (valid.occupied block member).ne_zero valid.wellFormed
  have freed : realloc block.addr 0 last.heap = (0, free block.addr last.heap) := by
    unfold realloc
    rw [if_neg nonzero, if_pos rfl]
  rw [freed]
  exact ⟨fun newSize positive fits => realloc_live given.small valid member fits positive, rfl,
    freed_of_live given.small valid member⟩

/-- The only block of a heap of two pages, reallocated to any size or freed. -/
theorem realloc_keeps_contents_two_pages :
    ∃ path last, Execution HeapStep ⟨heapInit 4096 8192 noHeap, []⟩ path last ∧
      path.map (·.label) = [⟨.malloc 2048, 8232⟩] ∧ last.live = [Block.new 8232 2048] ∧
      (∀ newSize, newSize ≠ 0 → newSize < 2 ^ 64 →
        ((realloc 8232 newSize last.heap).1 = 0 ∧
            Untouched last.heap (realloc 8232 newSize last.heap).2) ∨
          ((realloc 8232 newSize last.heap).1 ≠ 0 ∧
            ∃ usable, Moved last.heap 8232 2048 newSize (realloc 8232 newSize last.heap).1 usable
              (realloc 8232 newSize last.heap).2)) ∧
      Freed last.heap 8232 (realloc 8232 0 last.heap).2 := by
  have run := Execution.single (@malloc_step _ [] 2048 8232 (by decide) malloc_twoPages (by decide))
  have everyBlock := (realloc_keeps_contents ⟨by decide, by decide, by decide⟩ noHeap (by decide)
    (by decide) run).2
  rcases everyBlock _ (List.mem_singleton_self _) with ⟨sized, -, freed⟩
  exact ⟨_, _, run, rfl, rfl, sized, freed⟩

end UniKernel.Heap
