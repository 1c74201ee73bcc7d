import UniKernel.Heap.Blocks
import UniKernel.Lib.Transition

/-!
Owns runs of the heap: from `heap_init` on, as long as the user keeps to its
blocks, every block is aligned, large enough, inside the region and apart from
the other blocks and from all metadata, and neither side changes the other's
bytes.
-/

namespace UniKernel.Heap

open UniKernel.Lib

/-! ### Metadata in memory -/

/-- The objects the free list of a slab leads to. -/
inductive FreeObject (s : State) (slab : Nat) : Nat → Prop where
  | first (nonzero : s.slabFreeList slab ≠ 0) : FreeObject s slab (s.slabFreeList slab)
  | next {obj : Nat} (free : FreeObject s slab obj) (nonzero : s.load64 obj ≠ 0) :
      FreeObject s slab (s.load64 obj)

/-- A byte of `page_metadata`, of a slab header or of the link in a free object. -/
inductive MetadataByte (s : State) (addr : Nat) : Prop where
  | table (above : s.pageMetadata ≤ addr) (below : addr < s.pageMetadata + s.totalPages * pageInfoSize)
  | header {i : Nat} (inside : i < s.totalPages) (isSlab : s.pageType i = pageTypeSlab)
      (above : pageIdxToVirt s i ≤ addr) (below : addr < pageIdxToVirt s i + slabHeaderSize)
  | link {i obj : Nat} (inside : i < s.totalPages) (isSlab : s.pageType i = pageTypeSlab)
      (free : FreeObject s (pageIdxToVirt s i) obj) (above : obj ≤ addr) (below : addr < obj + 8)

def Block.Apart (block other : Block) : Prop :=
  block.addr + block.size ≤ other.addr ∨ other.addr + other.size ≤ block.addr

/-- The block is inside the region behind the page table, aligned, large enough
and free of metadata. -/
structure BlockSafe (s : State) (block : Block) : Prop where
  behindTable : s.heapStartAddr + (s.totalPages * pageInfoSize + (pageSize - 1)) / pageSize * pageSize ≤
    block.addr
  inside : block.addr + block.size ≤ s.heapEndAddr
  aligned : block.addr % heapAlign = 0
  enough : block.requested ≤ block.size
  noMetadata : ∀ addr, MetadataByte s addr → ¬ block.Contains addr

/-- The size a call asks for. -/
def Call.requested : Call → Option Nat
  | .malloc size => some size
  | .realloc _ newSize => some newSize
  | _ => none

def Call.isWrite : Call → Prop
  | .write _ _ => True
  | _ => False

/-- A step that leaves safe blocks, with a user that changes no metadata and an
allocator that changes no block. -/
structure StepSafe (transition : Transition Machine Event) : Prop where
  returned : ∀ size, transition.label.call.requested = some size → transition.label.result ≠ 0 →
    ∃ block ∈ transition.target.live, block.addr = transition.label.result ∧ block.requested = size
  blocks : ∀ block ∈ transition.target.live, BlockSafe transition.target.heap block
  apart : transition.target.live.Pairwise Block.Apart
  metadataKept : transition.label.call.isWrite → ∀ addr, MetadataByte transition.source.heap addr →
    transition.target.heap.mem addr = transition.source.heap.mem addr
  blocksKept : ¬ transition.label.call.isWrite → ∀ block ∈ transition.source.live,
    ∀ still ∈ transition.target.live, ∀ addr, block.Contains addr → still.Contains addr →
      transition.target.heap.mem addr = transition.source.heap.mem addr

/-! ### One step -/

section Steps

variable {r : Region} {lay : Layout} {m : Machine} {call : Call} {s : State} {block : Block}
  {addr i obj : Nat}

/-- A pointer the user may pass is NULL or the start of a block. -/
theorem step_valid (valid : Valid r lay m) (allowed : call.Allowed m.live) :
    (call.perform m.heap).1 = (call.onLayout r lay).1 ∧
      Valid r (call.onLayout r lay).2
        ⟨(call.perform m.heap).2, call.live (call.perform m.heap).1 m.live⟩ ∧
      (¬ call.isWrite →
        KeepsCommon r lay (call.onLayout r lay).2 m.heap (call.perform m.heap).2) := by
  cases call with
  | malloc size =>
      rcases valid_malloc valid allowed with ⟨result, after, keeps⟩
      exact ⟨result, after, fun _ addr guarded _ => keeps addr guarded⟩
  | free ptr =>
      rcases allowed with isNull | ⟨block, member, rfl⟩
      · have nothing : dropBlock ptr m.live = m.live := by
          apply List.filter_eq_self.mpr
          intro block member
          have nonzero := (valid.occupied block member).ne_zero valid.wellFormed
          exact decide_eq_true (isNull ▸ nonzero)
        have sameHeap : free ptr m.heap = m.heap := if_pos isNull
        have sameLayout : lay.free r ptr = lay := if_pos isNull
        simp only [Call.perform, Call.onLayout, Call.live, nothing, sameHeap, sameLayout]
        exact ⟨trivial, valid, fun _ _ _ _ => rfl⟩
      · rcases valid_free valid member with ⟨after, keeps⟩
        exact ⟨rfl, after, fun _ addr _ guarded => keeps addr guarded⟩
  | realloc ptr newSize =>
      rcases allowed with ⟨isNull | ⟨block, member, rfl⟩, small⟩
      · rcases valid_malloc valid small with ⟨result, after, keeps⟩
        have isMalloc : realloc ptr newSize m.heap = malloc newSize m.heap := if_pos isNull
        have layMalloc : lay.realloc r ptr newSize = lay.malloc r newSize := if_pos isNull
        have added : (Call.realloc ptr newSize).live (malloc newSize m.heap).1 m.live =
            addBlock (malloc newSize m.heap).1 newSize m.live := if_pos isNull
        simp only [Call.perform, Call.onLayout, isMalloc, layMalloc, added]
        exact ⟨result, after, fun _ addr guarded _ => keeps addr guarded⟩
      · rcases valid_realloc valid member small with ⟨result, after, keeps, -⟩
        exact ⟨result, after, fun _ => keeps⟩
  | write addr value =>
      rcases allowed with ⟨block, member, inside⟩
      refine ⟨rfl, ?_, fun notWrite => absurd trivial notWrite⟩
      refine ⟨?_, valid.wellFormed, valid.used, valid.occupied, valid.owned, valid.nodup, valid.enough⟩
      apply valid.rep.write valid.wellFormed
      intro other unguarded
      apply Function.update_of_ne
      rintro rfl
      exact unguarded (valid.guarded member inside)

/-- The free list of a slab leads to the free objects of the layout. -/
theorem freeObject_iff {c : Nat} (rep : Represents r lay s) (inside : i < r.total)
    (isSlab : lay.use i = .slab c) :
    FreeObject s (r.page i) obj ↔ obj ∈ lay.freeObjects (r.page i) := by
  have chain := (rep.header i c inside isSlab).chain
  constructor
  · intro free
    induction free with
    | first nonzero => exact chain.head_mem nonzero
    | next free nonzero inductionHypothesis => exact chain.next_mem inductionHypothesis nonzero
  · exact chain.forall_mem FreeObject.first (fun _ free nonzero => free.next nonzero) obj

/-- Metadata in memory is outside the blocks of the layout. -/
theorem not_guarded_metadata (rep : Represents r lay s) (wellFormed : lay.WellFormed r)
    (isMetadata : MetadataByte s addr) : ¬ lay.Guarded r addr := by
  have slabOf : ∀ {i : Nat}, i < s.totalPages → s.pageType i = pageTypeSlab →
      i < r.total ∧ pageIdxToVirt s i = r.page i ∧ ∃ c, lay.use i = .slab c := by
    intro i inside isSlab
    rw [rep.statics.total] at inside
    refine ⟨inside, pageIdxToVirt_eq rep.statics inside, ?_⟩
    have typeIs : s.pageType i = (lay.use i).type := rep.pageType i inside
    exact (pageType_slab_iff _).mp (typeIs.symm.trans isSlab)
  cases isMetadata with
  | table above below =>
      rw [rep.statics.table, rep.statics.total] at below
      exact Layout.not_guarded_table wellFormed (Nat.lt_of_lt_of_le below r.table_le)
  | header inside isSlab above below =>
      rcases slabOf inside isSlab with ⟨-, pageIs, c, use⟩
      rw [pageIs] at above below
      exact Layout.not_guarded_header wellFormed use above below
  | @link i obj inside isSlab free above below =>
      rcases slabOf inside isSlab with ⟨inside, pageIs, c, use⟩
      rw [pageIs] at free
      have member := (freeObject_iff rep inside use).mp free
      have large := (class_facts c (wellFormed.known i c use)).2.1
      exact Layout.not_guarded_freeObject wellFormed use member above (by omega)

theorem Valid.blockSafe (small : r.Small) (valid : Valid r lay m) (member : block ∈ m.live) :
    BlockSafe m.heap block := by
  have occupied := valid.occupied block member
  have inside := occupied.inside valid.wellFormed
  have statics := valid.rep.statics
  refine ⟨?_, ?_, occupied.aligned valid.wellFormed, valid.enough block member, ?_⟩
  · rw [statics.heapStart, statics.total]
    exact inside.1
  · rw [statics.heapEnd, Region.endAddr_of_small small]
    exact inside.2
  · intro addr isMetadata contains
    exact not_guarded_metadata valid.rep valid.wellFormed isMetadata (valid.guarded member contains)

theorem Valid.apart (valid : Valid r lay m) : m.live.Pairwise Block.Apart := by
  have nodup := List.pairwise_map.mp valid.nodup
  refine nodup.imp_of_mem ?_
  intro block other member otherMember different
  exact (valid.occupied _ member).apart valid.wellFormed (valid.occupied _ otherMember) different

/-- A call that returns a block makes it one of the user's. -/
theorem mem_live_of_returned {requested result : Nat} {live : List Block}
    (allowed : call.Allowed live) (asks : call.requested = some requested) (some : result ≠ 0)
    (positive : requested ≠ 0) :
    ∃ block ∈ call.live result live, block.addr = result ∧ block.requested = requested := by
  have new : ∃ block ∈ addBlock result requested live, block.addr = result ∧
      block.requested = requested := by
    rw [addBlock, if_neg some]
    exact ⟨_, List.mem_cons_self, rfl, rfl⟩
  cases call with
  | malloc size =>
      cases asks
      exact new
  | free ptr => cases asks
  | realloc ptr newSize =>
      have newSizeIs : newSize = requested := Option.some.inj asks
      subst newSizeIs
      by_cases isNull : ptr = 0
      · have added : (Call.realloc ptr newSize).live result live = addBlock result newSize live :=
          if_pos isNull
        rw [added]
        exact new
      · rw [live_realloc _ _ isNull, if_neg positive, if_neg some]
        split
        · next same =>
            rcases allowed.1 with wasNull | ⟨block, member, addrIs⟩
            · exact absurd wasNull isNull
            · refine ⟨_, List.mem_map_of_mem member, ?_, ?_⟩
              · rw [if_pos addrIs]
                exact addrIs.trans same.symm
              · rw [if_pos addrIs]
        · exact ⟨_, List.mem_cons_self, rfl, rfl⟩
  | write addr value => cases asks

/-- Nothing is returned for a request of 0 bytes. -/
theorem perform_zero (asks : call.requested = some 0) : (call.perform s).1 = 0 := by
  cases call with
  | malloc size =>
      cases asks
      rfl
  | free ptr => cases asks
  | realloc ptr newSize =>
      cases asks
      have isNull : (realloc ptr 0 s).1 = 0 := by
        unfold realloc
        split
        · rfl
        · rfl
      exact isNull
  | write addr value => cases asks

end Steps

/-! ### Runs -/

theorem step_safe {r : Region} {source target : Machine} {event : Event} (small : r.Small)
    (valid : ∃ lay, Valid r lay source) (step : HeapStep source event target) :
    (∃ lay, Valid r lay target) ∧ StepSafe ⟨source, event, target⟩ := by
  rcases valid with ⟨lay, valid⟩
  cases step with
  | @call call allowed =>
      rcases step_valid valid allowed with ⟨-, after, keeps⟩
      refine ⟨⟨_, after⟩, ?_, fun block member => after.blockSafe small member, after.apart, ?_, ?_⟩
      · intro size asks some
        apply mem_live_of_returned allowed asks some
        rintro rfl
        exact some (perform_zero asks)
      · intro isWrite addr isMetadata
        cases call with
        | write ptr value =>
            rcases allowed with ⟨block, member, inside⟩
            apply Function.update_of_ne
            rintro rfl
            exact not_guarded_metadata valid.rep valid.wellFormed isMetadata (valid.guarded member inside)
        | malloc size => cases isWrite
        | free ptr => cases isWrite
        | realloc ptr newSize => cases isWrite
      · intro notWrite block member still stillMember addr contains stillContains
        exact keeps notWrite addr (valid.guarded member contains) (after.guarded stillMember stillContains)

variable {start size : Nat} {path : List (Transition Machine Event)} {last : Machine}

theorem valid_init (accepted : AcceptedRegion start size) (s : State)
    (cachesNonzero : 0 < s.cachesAddr)
    (cachesFit : s.cachesAddr + numCacheSizes * cacheStructSize ≤ 2 ^ 64) :
    Valid accepted.region (Layout.initial accepted.region) ⟨heapInit start size s, []⟩ where
  rep := heapInit_represents accepted s cachesNonzero cachesFit
  wellFormed := Layout.wellFormed_initial _
  used i c isSlab := by
    simp only [Layout.initial] at isSlab
    split at isSlab <;> cases isSlab
  occupied _ member := by cases member
  owned _ addr size occupied := by
    cases occupied with
    | object use =>
        simp only [Layout.initial] at use
        split at use <;> cases use
    | pages use =>
        simp only [Layout.initial] at use
        split at use <;> cases use
  nodup := List.nodup_nil
  enough _ member := by cases member

theorem reachable_valid (accepted : AcceptedRegion start size) {s : State}
    (cachesNonzero : 0 < s.cachesAddr)
    (cachesFit : s.cachesAddr + numCacheSizes * cacheStructSize ≤ 2 ^ 64)
    (run : Execution HeapStep ⟨heapInit start size s, []⟩ path last) :
    ∃ lay, Valid accepted.region lay last := by
  apply run.invariant ⟨_, valid_init accepted s cachesNonzero cachesFit⟩
  rintro source event target ⟨lay, valid⟩ ⟨allowed⟩
  exact ⟨_, (step_valid valid allowed).2.1⟩

/-- The statics before `heap_init`, with the caches at 1 MiB. -/
def noHeap : State where
  mem _ := 0
  heapStartAddr := 0
  heapEndAddr := 0
  pageMetadata := 0
  totalPages := 0
  caches _ := ⟨0, 0, 0, 0⟩
  cachesAddr := 2 ^ 20

theorem malloc_step {s : State} {live : List Block} {size ptr : Nat} (small : size < 2 ^ 64)
    (result : (malloc size s).1 = ptr) (some : ptr ≠ 0) :
    HeapStep ⟨s, live⟩ ⟨.malloc size, ptr⟩ ⟨(malloc size s).2, Block.new ptr size :: live⟩ := by
  have step := @HeapStep.call ⟨s, live⟩ (.malloc size) small
  simp only [Call.perform, Call.live, result, addBlock, if_neg some] at step
  exact step

theorem free_step {s : State} {live : List Block} {block : Block} (member : block ∈ live) :
    HeapStep ⟨s, live⟩ ⟨.free block.addr, 0⟩ ⟨free block.addr s, dropBlock block.addr live⟩ :=
  @HeapStep.call ⟨s, live⟩ (.free block.addr) (Or.inr ⟨block, member, rfl⟩)

/-- A block is allocated, written and freed. -/
theorem exists_run_of_allocated {s : State} (result : (malloc 2048 s).1 = 8232) :
    ∃ path last, Execution HeapStep ⟨s, []⟩ path last ∧
      path.map (·.label) = [⟨.malloc 2048, 8232⟩, ⟨.write 8240 7, 0⟩, ⟨.free 8232, 0⟩] ∧
      last.live = [] := by
  let block := Block.new 8232 2048
  have allocate : HeapStep ⟨s, []⟩ ⟨.malloc 2048, 8232⟩ ⟨(malloc 2048 s).2, [block]⟩ :=
    malloc_step (by decide) result (by decide)
  generalize (malloc 2048 s).2 = allocated at allocate
  have inBlock : block.Contains 8240 := by decide
  have write := @HeapStep.call ⟨allocated, [block]⟩ (.write 8240 7)
    ⟨block, List.mem_singleton_self _, inBlock⟩
  have release : HeapStep ⟨{ allocated with mem := Function.update allocated.mem 8240 7 }, [block]⟩
      ⟨.free 8232, 0⟩ ⟨_, dropBlock 8232 [block]⟩ := free_step (List.mem_singleton_self block)
  have nothingLeft : dropBlock 8232 [block] = [] := by decide
  exact ⟨_, _, ((Execution.single allocate).snoc write).snoc release, rfl, nothingLeft⟩

/-- The first block in a heap of two pages, one for the page table and one for a
slab with a single object. -/
theorem malloc_twoPages : (malloc 2048 (heapInit 4096 8192 noHeap)).1 = 8232 := by
  decide +kernel

/-- Every step of every run from `heap_init` is safe. -/
theorem heap_steps_safe (given : GivenRegion start size) (s : State)
    (cachesNonzero : 0 < s.cachesAddr)
    (cachesFit : s.cachesAddr + numCacheSizes * cacheStructSize ≤ 2 ^ 64)
    (run : Execution HeapStep ⟨heapInit start size s, []⟩ path last) :
    ∀ transition ∈ path, StepSafe transition := by
  have startValid : ∃ lay, Valid given.accepted.region lay ⟨heapInit start size s, []⟩ :=
    ⟨_, valid_init given.accepted s cachesNonzero cachesFit⟩
  have reached := run.invariant_transitions startValid fun _ _ _ valid step =>
    (step_safe given.small valid step).1
  intro transition member
  exact (step_safe given.small (reached transition member).1 (run.step_of_mem member)).2

/-- In a heap of two pages a block of 2048 bytes is allocated, written and freed. -/
theorem heap_steps_safe_two_pages :
    ∃ path last, Execution HeapStep ⟨heapInit 4096 8192 noHeap, []⟩ path last ∧
      path.map (·.label) = [⟨.malloc 2048, 8232⟩, ⟨.write 8240 7, 0⟩, ⟨.free 8232, 0⟩] ∧
      ∀ transition ∈ path, StepSafe transition := by
  rcases exists_run_of_allocated malloc_twoPages with ⟨path, last, run, labels, -⟩
  exact ⟨path, last, run, labels,
    heap_steps_safe ⟨by decide, by decide, by decide⟩ noHeap (by decide) (by decide) run⟩

end UniKernel.Heap
