import UniKernel.Heap.Init

/-!
Owns the user's side of the heap: the blocks that were returned and not yet
freed, which calls the user may make with them, and the invariant that ties
them to a layout the memory stands for. Every allowed call keeps it.
-/

namespace UniKernel.Heap

open UniKernel.Lib

/-! ### Calls -/

/-- A block the user holds: where it starts, how much was asked for and how much
is reserved for it. -/
structure Block where
  addr : Nat
  requested : Nat
  size : Nat
deriving DecidableEq

def Block.Contains (block : Block) (addr : Nat) : Prop :=
  block.addr ≤ addr ∧ addr < block.addr + block.size

instance (block : Block) : DecidablePred block.Contains :=
  fun _ => inferInstanceAs (Decidable (_ ∧ _))

/-- The block for a request, in a size class or in whole pages. -/
def Block.new (addr requested : Nat) : Block := ⟨addr, requested, Layout.blockSize requested⟩

/-- The allocator's functions, and a store of the user's own. -/
inductive Call where
  | malloc (size : Nat)
  | free (ptr : Nat)
  | realloc (ptr newSize : Nat)
  | write (addr : Nat) (value : UInt8)

/-- What a user who keeps to its blocks may do. -/
def Call.Allowed (live : List Block) : Call → Prop
  | .malloc size => size < 2 ^ 64
  | .free ptr => ptr = 0 ∨ ∃ block ∈ live, block.addr = ptr
  | .realloc ptr newSize => (ptr = 0 ∨ ∃ block ∈ live, block.addr = ptr) ∧ newSize < 2 ^ 64
  | .write addr _ => ∃ block ∈ live, block.Contains addr

instance Call.decidableAllowed (live : List Block) : DecidablePred (Call.Allowed live)
  | .malloc _ => inferInstanceAs (Decidable (_ < _))
  | .free ptr => inferInstanceAs (Decidable (ptr = 0 ∨ ∃ block ∈ live, block.addr = ptr))
  | .realloc ptr newSize =>
      inferInstanceAs (Decidable ((ptr = 0 ∨ ∃ block ∈ live, block.addr = ptr) ∧ newSize < 2 ^ 64))
  | .write addr _ => inferInstanceAs (Decidable (∃ block ∈ live, block.Contains addr))

def Call.perform : Call → State → Nat × State
  | .malloc size, s => Heap.malloc size s
  | .free ptr, s => (0, Heap.free ptr s)
  | .realloc ptr newSize, s => Heap.realloc ptr newSize s
  | .write addr value, s => (0, { s with mem := Function.update s.mem addr value })

/-- The blocks without the one at `ptr`. -/
def dropBlock (ptr : Nat) (live : List Block) : List Block := live.filter fun block => block.addr ≠ ptr

/-- The blocks with the one at `ptr` used for another request. -/
def resizeBlock (ptr newSize : Nat) (live : List Block) : List Block :=
  live.map fun block => if block.addr = ptr then { block with requested := newSize } else block

def addBlock (addr requested : Nat) (live : List Block) : List Block :=
  if addr = 0 then live else Block.new addr requested :: live

/-- The user's blocks after a call that returned `result`. -/
def Call.live (result : Nat) (live : List Block) : Call → List Block
  | .malloc size => addBlock result size live
  | .free ptr => dropBlock ptr live
  | .realloc ptr newSize =>
      if ptr = 0 then addBlock result newSize live
      else if newSize = 0 then dropBlock ptr live
      else if result = 0 then live
      else if result = ptr then resizeBlock ptr newSize live
      else Block.new result newSize :: dropBlock ptr live
  | .write _ _ => live

def Call.onLayout (r : Region) : Call → Layout → Nat × Layout
  | .malloc size, lay => lay.malloc r size
  | .free ptr, lay => (0, lay.free r ptr)
  | .realloc ptr newSize, lay => lay.realloc r ptr newSize
  | .write _ _, lay => (0, lay)

structure Machine where
  heap : State
  live : List Block

structure Event where
  call : Call
  result : Nat

inductive HeapStep : Machine → Event → Machine → Prop where
  | call {m : Machine} {call : Call} (allowed : call.Allowed m.live) :
      HeapStep m ⟨call, (call.perform m.heap).1⟩
        ⟨(call.perform m.heap).2, call.live (call.perform m.heap).1 m.live⟩

/-! ### The invariant -/

/-- The memory stands for `lay`, in which the user's blocks are allocated. Others
are only where a block was too large for `free`. -/
structure Valid (r : Region) (lay : Layout) (m : Machine) : Prop where
  rep : Represents r lay m.heap
  wellFormed : lay.WellFormed r
  used : lay.Used r
  occupied : ∀ block ∈ m.live, lay.Occupied r block.addr block.size
  owned : r.Small → ∀ addr size, lay.Occupied r addr size →
    ∃ block ∈ m.live, block.addr = addr ∧ block.size = size
  nodup : (m.live.map Block.addr).Nodup
  enough : ∀ block ∈ m.live, block.requested ≤ block.size

section Steps

variable {r : Region} {lay lay' : Layout} {m : Machine} {s : State} {block : Block}
  {ptr size newSize addr : Nat} {mem : Memory}

theorem Valid.guarded (valid : Valid r lay m) (member : block ∈ m.live) (inside : block.Contains addr) :
    lay.Guarded r addr :=
  ⟨_, _, valid.occupied block member, inside.1, inside.2⟩

/-- Stores inside blocks leave what the allocator keeps in memory. -/
theorem Represents.write (rep : Represents r lay s) (wellFormed : lay.WellFormed r)
    (same : ∀ addr, ¬ lay.Guarded r addr → mem addr = s.mem addr) :
    Represents r lay { s with mem := mem } := by
  have cachesAddr : { s with mem := mem }.cachesAddr = s.cachesAddr := rfl
  have heads : ∀ c which, { s with mem := mem }.head c which = s.head c which := fun _ _ => rfl
  have field : ∀ field : Field, Unguarded r lay field →
      { s with mem := mem }.field field = s.field field := by
    intro field unguarded
    apply Memory.load_congr
    intro offset below
    apply same
    apply unguarded
    rw [rep.statics.table]
    exact ⟨Nat.le_add_right _ _, Nat.add_lt_add_left below _⟩
  refine ⟨rep.statics.of_same (.write s mem), rep.noFreeSlabs, ?_, ?_, ?_, ?_⟩
  · intro i inside
    rw [field _ (unguarded_pageType wellFormed inside)]
    exact rep.pageType i inside
  · intro i inside
    rw [field _ (unguarded_pageCount wellFormed inside)]
    exact rep.pageCount i inside
  · intro i c inside isSlab
    have header : ∀ field : Field, field.headerOf = some (r.page i) → Unguarded r lay field :=
      fun field ofSlab => unguarded_header wellFormed isSlab ofSlab
    apply (rep.header i c inside isSlab).congr cachesAddr
    · exact field (.cache (r.page i)) (header _ rfl)
    · exact field (.magic (r.page i)) (header _ rfl)
    · exact field (.inUse (r.page i)) (header _ rfl)
    · exact field (.freeList (r.page i)) (header _ rfl)
    · exact fun obj member => field (.link obj) (unguarded_link wellFormed isSlab member)
  · intro c which known
    have listed := wellFormed.listedUnguarded
    apply (rep.lists c which known).congr (heads c which)
    · exact fun slab member => field (.next slab) (listed c which slab member _ rfl)
    · exact fun slab member => field (.prev slab) (listed c which slab member _ rfl)

theorem mem_dropBlock : block ∈ dropBlock ptr m.live ↔ block ∈ m.live ∧ block.addr ≠ ptr := by
  simp [dropBlock]

theorem nodup_dropBlock (nodup : (m.live.map Block.addr).Nodup) :
    ((dropBlock ptr m.live).map Block.addr).Nodup :=
  nodup.sublist (List.filter_sublist.map _)

/-- A new block that the layout has and the user had not. -/
theorem Valid.add (valid : Valid r lay m) (rep : Represents r lay' s) (nonzero : ptr ≠ 0)
    (wellFormed : lay'.WellFormed r) (used : lay'.Used r)
    (fresh : ∀ before, ¬ lay.Occupied r ptr before)
    (occupied : ∀ addr bytes, lay'.Occupied r addr bytes ↔
      lay.Occupied r addr bytes ∨ (addr = ptr ∧ bytes = Layout.blockSize size))
    (enough : size ≤ Layout.blockSize size) : Valid r lay' ⟨s, addBlock ptr size m.live⟩ := by
  have added : addBlock ptr size m.live = Block.new ptr size :: m.live := if_neg nonzero
  rw [added]
  refine ⟨rep, wellFormed, used, ?_, ?_, ?_, ?_⟩
  · intro block member
    rcases List.mem_cons.mp member with rfl | earlier
    · exact (occupied _ _).mpr (Or.inr ⟨rfl, rfl⟩)
    · exact (occupied _ _).mpr (Or.inl (valid.occupied block earlier))
  · intro small addr bytes isOccupied
    rcases (occupied addr bytes).mp isOccupied with before | ⟨rfl, rfl⟩
    · rcases valid.owned small addr bytes before with ⟨block, member, is⟩
      exact ⟨block, List.mem_cons_of_mem _ member, is⟩
    · exact ⟨_, List.mem_cons_self, rfl, rfl⟩
  · rw [List.map_cons, List.nodup_cons]
    refine ⟨?_, valid.nodup⟩
    intro already
    rcases List.mem_map.mp already with ⟨block, member, same⟩
    have isOccupied := valid.occupied block member
    rw [same] at isOccupied
    exact fresh _ isOccupied
  · intro block member
    rcases List.mem_cons.mp member with rfl | earlier
    · exact enough
    · exact valid.enough block earlier

theorem valid_malloc (valid : Valid r lay m) (small : size < 2 ^ 64) :
    (malloc size m.heap).1 = (lay.malloc r size).1 ∧
      Valid r (lay.malloc r size).2
        ⟨(malloc size m.heap).2, addBlock (malloc size m.heap).1 size m.live⟩ ∧
      Keeps r lay m.heap (malloc size m.heap).2 := by
  rcases malloc_refines valid.rep valid.wellFormed size with ⟨result, rep, keeps⟩
  have allocates := Layout.malloc_allocates valid.wellFormed valid.used size
  refine ⟨result, ?_, keeps⟩
  rw [result]
  by_cases isNull : (lay.malloc r size).1 = 0
  · have same := allocates.fails isNull
    rw [same] at rep ⊢
    rw [addBlock, if_pos isNull]
    exact ⟨rep, valid.wellFormed, valid.used, valid.occupied, valid.owned, valid.nodup, valid.enough⟩
  · exact valid.add rep isNull allocates.wellFormed allocates.used allocates.fresh
      (allocates.occupied isNull) (Layout.le_blockSize small isNull)

theorem valid_free (valid : Valid r lay m) (member : block ∈ m.live) :
    Valid r (lay.free r block.addr) ⟨free block.addr m.heap, dropBlock block.addr m.live⟩ ∧
      Keeps r (lay.free r block.addr) m.heap (free block.addr m.heap) := by
  have occupied := valid.occupied block member
  rcases free_refines valid.rep valid.wellFormed valid.used occupied with ⟨rep, keeps⟩
  rcases Layout.free_spec valid.wellFormed valid.used occupied with ⟨wellFormed, used, stays⟩
  refine ⟨⟨rep, wellFormed, used, ?_, ?_, nodup_dropBlock valid.nodup, ?_⟩, keeps⟩
  · intro other isLive
    rcases mem_dropBlock.mp isLive with ⟨isLive, different⟩
    exact stays _ _ (valid.occupied other isLive) different
  · intro small addr size remaining
    rcases Layout.of_occupied_free small valid.wellFormed valid.used occupied remaining with
      ⟨before, different⟩
    rcases valid.owned small addr size before with ⟨other, isLive, rfl, rfl⟩
    exact ⟨other, mem_dropBlock.mpr ⟨isLive, different⟩, rfl, rfl⟩
  · intro other isLive
    exact valid.enough other (mem_dropBlock.mp isLive).1

/-- A block is used for another request that it is large enough for. -/
theorem valid_resize (valid : Valid r lay m) (member : block ∈ m.live) (fits : newSize ≤ block.size) :
    Valid r lay ⟨m.heap, resizeBlock block.addr newSize m.live⟩ := by
  refine ⟨valid.rep, valid.wellFormed, valid.used, ?_, ?_, ?_, ?_⟩
  · intro resized isResized
    rcases List.mem_map.mp isResized with ⟨other, isLive, rfl⟩
    have before := valid.occupied other isLive
    split
    · exact before
    · exact before
  · intro small addr size isOccupied
    rcases valid.owned small addr size isOccupied with ⟨other, isLive, rfl, rfl⟩
    refine ⟨_, List.mem_map_of_mem isLive, ?_, ?_⟩
    · split <;> rfl
    · split <;> rfl
  · have sameAddrs : (resizeBlock block.addr newSize m.live).map Block.addr = m.live.map Block.addr := by
      rw [resizeBlock, List.map_map]
      apply List.map_congr_left
      intro other _
      simp only [Function.comp_apply]
      split <;> rfl
    rw [sameAddrs]
    exact valid.nodup
  · intro resized isResized
    rcases List.mem_map.mp isResized with ⟨other, isLive, rfl⟩
    split
    · next sameAddr =>
        have sizes : other.size = block.size := by
          have isOccupied := valid.occupied other isLive
          rw [sameAddr] at isOccupied
          exact isOccupied.size_unique valid.wellFormed (valid.occupied block member)
        exact sizes ▸ fits
    · exact valid.enough other isLive

/-- The copy of `realloc`: bytes of the old block into the new block. -/
theorem valid_copy {source : Block} {count : Nat} (valid : Valid r lay m) (member : block ∈ m.live)
    (sourceMember : source ∈ m.live) (different : source.addr ≠ block.addr)
    (within : count ≤ source.size) (fits : count ≤ block.size) :
    Valid r lay ⟨{ m.heap with mem := CString.memcpy block.addr source.addr count m.heap.mem }, m.live⟩ ∧
      (∀ addr, ¬ block.Contains addr →
        CString.memcpy block.addr source.addr count m.heap.mem addr = m.heap.mem addr) ∧
      ∀ offset, offset < count →
        CString.memcpy block.addr source.addr count m.heap.mem (block.addr + offset) =
          m.heap.mem (source.addr + offset) := by
  have apart := (valid.occupied source sourceMember).apart valid.wellFormed
    (valid.occupied block member) different
  have outside : ∀ addr, ¬ block.Contains addr →
      CString.memcpy block.addr source.addr count m.heap.mem addr = m.heap.mem addr := by
    intro addr notIn
    rw [CString.memcpy_apply (by omega), if_neg]
    intro inRange
    exact notIn ⟨inRange.1, by omega⟩
  refine ⟨⟨?_, valid.wellFormed, valid.used, valid.occupied, valid.owned, valid.nodup, valid.enough⟩,
    outside, ?_⟩
  · apply valid.rep.write valid.wellFormed
    intro addr unguarded
    exact outside addr fun inside => unguarded (valid.guarded member inside)
  · intro offset below
    rw [CString.memcpy_apply (by omega), if_pos (by omega), Nat.add_sub_cancel_left]

/-- A byte in a block both before and after an allocator call keeps its value. -/
def KeepsCommon (r : Region) (before after : Layout) (s s' : State) : Prop :=
  ∀ addr, before.Guarded r addr → after.Guarded r addr → s'.mem addr = s.mem addr

/-- The blocks after `realloc` of a block. -/
theorem live_realloc (result : Nat) (live : List Block) (nonzero : ptr ≠ 0) :
    (Call.realloc ptr newSize).live result live =
      if newSize = 0 then dropBlock ptr live
      else if result = 0 then live
      else if result = ptr then resizeBlock ptr newSize live
      else Block.new result newSize :: dropBlock ptr live :=
  if_neg nonzero

theorem realloc_of_grow (nonzero : ptr ≠ 0) (positive : newSize ≠ 0) (grows : ¬ oldSize ptr s ≥ newSize) :
    realloc ptr newSize s =
      if (malloc newSize s).1 ≠ 0 then
        ((malloc newSize s).1,
          free ptr { (malloc newSize s).2 with
            mem := CString.memcpy (malloc newSize s).1 ptr (oldSize ptr s) (malloc newSize s).2.mem })
      else malloc newSize s := by
  unfold realloc
  rw [if_neg nonzero, if_neg positive]
  exact if_neg grows

theorem Layout.realloc_of_grow (nonzero : ptr ≠ 0) (positive : newSize ≠ 0)
    (grows : ¬ lay.sizeAt r ptr ≥ newSize) :
    lay.realloc r ptr newSize =
      if (lay.malloc r newSize).1 ≠ 0 then
        ((lay.malloc r newSize).1, (lay.malloc r newSize).2.free r ptr)
      else lay.malloc r newSize := by
  unfold Layout.realloc
  rw [if_neg nonzero, if_neg positive]
  exact if_neg grows

/-- `realloc` that moves the block: a new block, the copy, and the old block freed. -/
theorem valid_move {old : Nat} (valid : Valid r lay m) (member : block ∈ m.live)
    (small : newSize < 2 ^ 64) (within : old ≤ block.size) (grows : old < newSize)
    (some : (malloc newSize m.heap).1 ≠ 0) :
    (malloc newSize m.heap).1 ≠ block.addr ∧
      Valid r ((lay.malloc r newSize).2.free r block.addr)
        ⟨free block.addr { (malloc newSize m.heap).2 with
            mem := CString.memcpy (malloc newSize m.heap).1 block.addr old (malloc newSize m.heap).2.mem },
          Block.new (malloc newSize m.heap).1 newSize :: dropBlock block.addr m.live⟩ ∧
      KeepsCommon r lay ((lay.malloc r newSize).2.free r block.addr) m.heap
        (free block.addr { (malloc newSize m.heap).2 with
          mem := CString.memcpy (malloc newSize m.heap).1 block.addr old (malloc newSize m.heap).2.mem }) ∧
      ∀ offset, offset < old →
        (free block.addr { (malloc newSize m.heap).2 with
          mem := CString.memcpy (malloc newSize m.heap).1 block.addr old
            (malloc newSize m.heap).2.mem }).mem ((malloc newSize m.heap).1 + offset) =
          m.heap.mem (block.addr + offset) := by
  rcases valid_malloc valid small with ⟨result, grown, keeps⟩
  have allocates := Layout.malloc_allocates valid.wellFormed valid.used newSize
  have enough : newSize ≤ Layout.blockSize newSize := Layout.le_blockSize small (result ▸ some)
  have fresh : ∀ before, ¬ lay.Occupied r (malloc newSize m.heap).1 before := by
    rw [result]
    exact allocates.fresh
  have stays : ∀ start size, lay.Occupied r start size →
      (lay.malloc r newSize).2.Occupied r start size := fun start size occupied =>
    (allocates.occupied (result ▸ some) start size).mpr (Or.inl occupied)
  clear allocates result
  generalize (lay.malloc r newSize).2 = lay₁ at *
  generalize malloc newSize m.heap = returned at *
  rcases returned with ⟨newPtr, s₁⟩
  dsimp only at *
  have different : newPtr ≠ block.addr := by
    rintro rfl
    exact fresh _ (valid.occupied block member)
  have added : addBlock newPtr newSize m.live = Block.new newPtr newSize :: m.live := if_neg some
  rw [added] at grown
  have newMember : Block.new newPtr newSize ∈ Block.new newPtr newSize :: m.live := List.mem_cons_self
  have oldMember : block ∈ Block.new newPtr newSize :: m.live := List.mem_cons_of_mem _ member
  have newSizeIs : (Block.new newPtr newSize).size = Layout.blockSize newSize := rfl
  rcases valid_copy grown newMember oldMember different.symm within (by omega) with
    ⟨copied, outside, inside⟩
  rcases valid_free copied oldMember with ⟨freed, freeKeeps⟩
  have dropped : dropBlock block.addr (Block.new newPtr newSize :: m.live) =
      Block.new newPtr newSize :: dropBlock block.addr m.live := by
    rw [dropBlock, List.filter_cons, if_pos]
    · rfl
    · exact decide_eq_true different
  rw [dropped] at freed
  refine ⟨different, freed, ?_, ?_⟩
  · intro addr before after
    refine (freeKeeps addr after).trans ((outside addr ?_).trans (keeps addr before))
    -- a byte of an old block is none of the new one
    intro inNew
    rcases before with ⟨start, size, occupied, above, below⟩
    have same := (stays _ _ occupied).eq_of_common grown.wellFormed (grown.occupied _ newMember) above
      below inNew.1 inNew.2
    rw [same.1] at occupied
    exact fresh _ occupied
  · intro offset below
    have inOld : lay.Guarded r (block.addr + offset) :=
      valid.guarded member ⟨Nat.le_add_right _ _, by omega⟩
    have contains : (Block.new newPtr newSize).Contains (newPtr + offset) :=
      ⟨Nat.le_add_right _ _, Nat.add_lt_add_left (by omega) newPtr⟩
    have inNew := freed.guarded List.mem_cons_self contains
    exact (freeKeeps _ inNew).trans ((inside offset below).trans (keeps _ inOld))

/-- `realloc` of a live block. -/
theorem valid_realloc (valid : Valid r lay m) (member : block ∈ m.live) (small : newSize < 2 ^ 64) :
    (realloc block.addr newSize m.heap).1 = (lay.realloc r block.addr newSize).1 ∧
      Valid r (lay.realloc r block.addr newSize).2
        ⟨(realloc block.addr newSize m.heap).2,
          (Call.realloc block.addr newSize).live (realloc block.addr newSize m.heap).1 m.live⟩ ∧
      KeepsCommon r lay (lay.realloc r block.addr newSize).2 m.heap
        (realloc block.addr newSize m.heap).2 ∧
      ((realloc block.addr newSize m.heap).1 ≠ 0 → ∀ offset, offset < oldSize block.addr m.heap →
        (realloc block.addr newSize m.heap).2.mem ((realloc block.addr newSize m.heap).1 + offset) =
          m.heap.mem (block.addr + offset)) := by
  have occupied := valid.occupied block member
  have nonzero := occupied.ne_zero valid.wellFormed
  have oldIs := oldSize_eq valid.rep valid.wellFormed occupied
  have oldLe := Layout.sizeAt_le valid.wellFormed occupied
  rw [← oldIs] at oldLe
  rw [live_realloc _ _ nonzero]
  by_cases isFree : newSize = 0
  · rcases valid_free valid member with ⟨after, keeps⟩
    have freed : realloc block.addr newSize m.heap = (0, free block.addr m.heap) := by
      unfold realloc
      rw [if_neg nonzero, if_pos isFree]
    have layFreed : lay.realloc r block.addr newSize = (0, lay.free r block.addr) := by
      unfold Layout.realloc
      rw [if_neg nonzero, if_pos isFree]
    rw [freed, layFreed, if_pos isFree]
    exact ⟨rfl, after, fun addr _ guarded => keeps addr guarded, fun some => absurd rfl some⟩
  · rw [if_neg isFree]
    by_cases inPlace : oldSize block.addr m.heap ≥ newSize
    · have stays : realloc block.addr newSize m.heap = (block.addr, m.heap) := by
        unfold realloc
        rw [if_neg nonzero, if_neg isFree]
        exact if_pos inPlace
      have layStays : lay.realloc r block.addr newSize = (block.addr, lay) := by
        unfold Layout.realloc
        rw [if_neg nonzero, if_neg isFree]
        exact if_pos (oldIs ▸ inPlace)
      rw [stays, layStays, if_neg nonzero, if_pos rfl]
      exact ⟨rfl, valid_resize valid member (Nat.le_trans inPlace oldLe), fun _ _ _ => rfl,
        fun _ _ _ => rfl⟩
    · rcases valid_malloc valid small with ⟨result, grown, keeps⟩
      rw [realloc_of_grow nonzero isFree inPlace,
        Layout.realloc_of_grow nonzero isFree (oldIs ▸ inPlace), ← result]
      by_cases isNull : (malloc newSize m.heap).1 = 0
      · rw [if_neg (not_not.mpr isNull), if_neg (not_not.mpr isNull), if_pos isNull]
        rw [addBlock, if_pos isNull] at grown
        exact ⟨result, grown, fun addr guarded _ => keeps addr guarded, fun some => absurd isNull some⟩
      · rcases valid_move valid member small oldLe (by omega) isNull with
          ⟨different, moved, moveKeeps, copied⟩
        rw [if_pos isNull, if_pos isNull, if_neg isNull, if_neg different]
        exact ⟨rfl, moved, moveKeeps, fun _ => copied⟩

end Steps

end UniKernel.Heap
