import UniKernel.Heap.SharedCalls
import UniKernel.Kernel.Model

/-!
Owns what the scheduler and the program know of the heap: the addresses of the task structs
and of the other blocks, which are those of the live blocks. Each call of `malloc` and
`free` keeps this, and what `malloc` returns is no memory in use.
-/

namespace UniKernel.Kernel

open UniKernel.Lib (Execution)
open UniKernel.Context (taskSize)
open UniKernel.Heap (Block Region Valid HeapStep)
open UniKernel.Pthread hiding Machine Step Valid

/-- The live blocks of the heap are the task structs and the blocks. -/
structure Tracks (r : Region) (structs : Nat → Bool) (blocks : Nat → Option Nat)
    (m : Heap.Machine) : Prop where
  valid : ∃ lay, Valid r lay m
  starts_iff : ∀ a, (∃ block ∈ m.live, block.addr = a) ↔ structs a = true ∨ blocks a ≠ none
  apart : ∀ a, structs a = true → blocks a = none
  room : ∀ a size, blocks a = some size → ∃ block ∈ m.live, block.addr = a ∧ size ≤ block.size

/-- A block of the heap region in which nothing else lies. -/
structure Fresh (r : Region) (structs : Nat → Bool) (blocks : Nat → Option Nat) (ptr size : Nat) :
    Prop where
  nonzero : ptr ≠ 0
  nonempty : 0 < size
  inHeap : r.base ≤ ptr ∧ ptr < r.endAddr
  unused : ∀ addr, ptr ≤ addr → addr < ptr + size → structs addr = false ∧ blocks addr = none
  outside : ∀ a n, blocks a = some n → ¬ (a ≤ ptr ∧ ptr < a + n)

/-- `m` becomes `m'` by calls that a user of the heap may make. -/
def Reaches (m m' : Heap.Machine) : Prop := ∃ path, Execution HeapStep m path m'

theorem Reaches.refl (m : Heap.Machine) : Reaches m m := ⟨[], .nil⟩

theorem Reaches.trans {m₁ m₂ m₃ : Heap.Machine} (first : Reaches m₁ m₂) (second : Reaches m₂ m₃) :
    Reaches m₁ m₃ := by
  obtain ⟨path, run⟩ := first
  obtain ⟨later, laterRun⟩ := second
  exact ⟨path ++ later, run.append laterRun⟩

theorem Reaches.step {m m' : Heap.Machine} {event : Heap.Event} (taken : HeapStep m event m') :
    Reaches m m' :=
  ⟨_, .single taken⟩

variable {r : Region} {structs : Nat → Bool} {blocks : Nat → Option Nat} {m m' : Heap.Machine}
  {ptr size t : Nat}

namespace Fresh

theorem self (fresh : Fresh r structs blocks ptr size) :
    structs ptr = false ∧ blocks ptr = none :=
  fresh.unused ptr (Nat.le_refl _) (Nat.lt_add_of_pos_right fresh.nonempty)

/-- What is fresh next to one block more. -/
theorem of_update {block n : Nat} (fresh : Fresh r structs (Function.update blocks block (some n)) ptr size)
    (wasFree : blocks block = none) : Fresh r structs blocks ptr size := by
  have kept : ∀ a, blocks a ≠ none → Function.update blocks block (some n) a = blocks a := by
    intro a isBlock
    apply Function.update_of_ne
    intro same
    exact isBlock (same ▸ wasFree)
  refine ⟨fresh.nonzero, fresh.nonempty, fresh.inHeap, ?_, ?_⟩
  · intro addr above below
    obtain ⟨isFree, noBlock⟩ := fresh.unused addr above below
    refine ⟨isFree, ?_⟩
    by_contra isBlock
    rw [kept addr isBlock] at noBlock
    exact isBlock noBlock
  · intro a k isBlock
    apply fresh.outside
    rw [kept a (by simp [isBlock])]
    exact isBlock

/-- What is fresh next to one struct more. -/
theorem of_update_struct (fresh : Fresh r (Function.update structs t true) blocks ptr size) :
    Fresh r structs blocks ptr size := by
  refine ⟨fresh.nonzero, fresh.nonempty, fresh.inHeap, ?_, fresh.outside⟩
  intro addr above below
  obtain ⟨isFree, noBlock⟩ := fresh.unused addr above below
  refine ⟨?_, noBlock⟩
  by_cases same : addr = t
  · rw [same, Function.update_self] at isFree
    cases isFree
  · rw [Function.update_of_ne same] at isFree
    exact isFree

end Fresh

/-- A live block starts in the heap region. -/
theorem start_inHeap (small : r.Small) {lay : Heap.Layout} {block : Block} (valid : Valid r lay m)
    (member : block ∈ m.live) : r.base ≤ block.addr ∧ block.addr < r.endAddr := by
  have occupied := valid.occupied block member
  have inside := occupied.inside valid.wellFormed
  have positive := occupied.positive valid.wellFormed
  have base : r.base ≤ r.page r.metaPages := Nat.le_add_right _ _
  rw [Region.endAddr_of_small small]
  omega

/-! ### Calls -/

namespace Tracks

theorem inHeap (small : r.Small) (tracks : Tracks r structs blocks m) {a : Nat}
    (starts : structs a = true ∨ blocks a ≠ none) : r.base ≤ a ∧ a < r.endAddr := by
  obtain ⟨lay, valid⟩ := tracks.valid
  obtain ⟨block, member, rfl⟩ := (tracks.starts_iff a).mpr starts
  exact start_inHeap small valid member

/-- The block of a `malloc` that succeeds. -/
structure Returned (r : Region) (structs : Nat → Bool) (blocks : Nat → Option Nat)
    (m m' : Heap.Machine) (size ptr : Nat) : Prop where
  fresh : Fresh r structs blocks ptr size
  valid : ∃ lay, Valid r lay m'
  live : m'.live = Block.new ptr size :: m.live
  room : size ≤ (Block.new ptr size).size

theorem malloc (small : r.Small) (tracks : Tracks r structs blocks m) (fits : size < 2 ^ 64)
    (returned : Kernel.malloc size m = (ptr, m')) :
    Reaches m m' ∧ (ptr = 0 → Tracks r structs blocks m') ∧
      (ptr ≠ 0 → Returned r structs blocks m m' size ptr) := by
  obtain ⟨lay, valid⟩ := tracks.valid
  have isPtr : (Heap.malloc size m.heap).1 = ptr := congrArg Prod.fst returned
  have isAfter : ⟨(Heap.malloc size m.heap).2, Heap.addBlock ptr size m.live⟩ = m' := by
    rw [← isPtr]
    exact congrArg Prod.snd returned
  have step : HeapStep m ⟨.malloc size, ptr⟩ m' := by
    rw [← isAfter, ← isPtr]
    exact @HeapStep.call m (.malloc size) fits
  have after := (Heap.valid_malloc valid fits).2.1
  rw [isPtr, isAfter] at after
  have isLive : m'.live = Heap.addBlock ptr size m.live := by rw [← isAfter]
  refine ⟨.step step, ?_, ?_⟩
  · intro failed
    rw [Heap.addBlock, if_pos failed] at isLive
    refine ⟨⟨_, after⟩, ?_, tracks.apart, ?_⟩
    · rw [isLive]
      exact tracks.starts_iff
    · rw [isLive]
      exact tracks.room
  · intro nonzero
    have live : m'.live = Block.new ptr size :: m.live := by rw [isLive, Heap.addBlock, if_neg nonzero]
    have isNew : Block.new ptr size ∈ m'.live := by
      rw [live]
      exact List.mem_cons_self
    have room : size ≤ (Block.new ptr size).size := after.enough _ isNew
    have positive : 0 < size := by
      apply Nat.pos_of_ne_zero
      intro nothing
      subst nothing
      exact nonzero isPtr.symm
    have wide := Nat.lt_of_lt_of_le positive room
    -- the new block is another one, so that the two share no address
    have apart : ∀ block ∈ m.live, ∀ addr, (Block.new ptr size).Contains addr → ¬ block.Contains addr := by
      intro block member addr
      have isOld : block ∈ m'.live := by
        rw [live]
        exact List.mem_cons_of_mem _ member
      apply after.not_contains isNew isOld
      intro same
      have nodup := after.nodup
      rw [live, List.map_cons, List.nodup_cons] at nodup
      exact nodup.1 (List.mem_map.mpr ⟨block, member, congrArg Block.addr same.symm⟩)
    refine ⟨⟨nonzero, positive, start_inHeap small after isNew, ?_, ?_⟩, ⟨_, after⟩, live, room⟩
    · intro addr above below
      have inNew : (Block.new ptr size).Contains addr := ⟨above, by
        change addr < ptr + (Block.new ptr size).size
        omega⟩
      by_contra isUsed
      have starts : structs addr = true ∨ blocks addr ≠ none := by
        by_contra neither
        rw [not_or, Bool.not_eq_true, not_not] at neither
        exact isUsed neither
      obtain ⟨block, member, rfl⟩ := (tracks.starts_iff addr).mpr starts
      have filled := (valid.occupied block member).positive valid.wellFormed
      exact apart block member _ inNew (Nat.add_zero block.addr ▸ block.contains_add (by omega))
    · intro a n isBlock inBlock
      obtain ⟨block, member, rfl, enough⟩ := tracks.room a n isBlock
      apply apart block member ptr (Nat.add_zero ptr ▸ (Block.new ptr size).contains_add wide)
      exact ⟨inBlock.1, by omega⟩

/-- A new block starts where none did. -/
theorem starts_cons (tracks : Tracks r structs blocks m)
    (returned : Returned r structs blocks m m' size ptr) (a : Nat) :
    (∃ block ∈ m'.live, block.addr = a) ↔ a = ptr ∨ structs a = true ∨ blocks a ≠ none := by
  rw [returned.live, ← tracks.starts_iff]
  simp only [List.mem_cons, exists_eq_or_imp]
  exact or_congr_left eq_comm

theorem room_cons (tracks : Tracks r structs blocks m)
    (returned : Returned r structs blocks m m' size ptr) {a n : Nat} (isBlock : blocks a = some n) :
    ∃ block ∈ m'.live, block.addr = a ∧ n ≤ block.size := by
  obtain ⟨block, member, isAddr, enough⟩ := tracks.room a n isBlock
  rw [returned.live]
  exact ⟨block, List.mem_cons_of_mem _ member, isAddr, enough⟩

theorem addStruct (tracks : Tracks r structs blocks m)
    (returned : Returned r structs blocks m m' size ptr) :
    Tracks r (Function.update structs ptr true) blocks m' where
  valid := returned.valid
  starts_iff a := by
    rw [tracks.starts_cons returned, Function.update_apply]
    by_cases same : a = ptr
    · simp [same]
    · simp [same]
  apart a isStruct := by
    by_cases same : a = ptr
    · rw [same]
      exact returned.fresh.self.2
    · rw [Function.update_of_ne same] at isStruct
      exact tracks.apart a isStruct
  room _ _ isBlock := tracks.room_cons returned isBlock

theorem addBlock (tracks : Tracks r structs blocks m)
    (returned : Returned r structs blocks m m' size ptr) :
    Tracks r structs (Function.update blocks ptr (some size)) m' where
  valid := returned.valid
  starts_iff a := by
    rw [tracks.starts_cons returned, Function.update_apply]
    by_cases same : a = ptr
    · simp [same]
    · simp [same]
  apart a isStruct := by
    have other : a ≠ ptr := by
      intro same
      rw [same, returned.fresh.self.1] at isStruct
      cases isStruct
    rw [Function.update_of_ne other]
    exact tracks.apart a isStruct
  room a n isBlock := by
    by_cases same : a = ptr
    · rw [same, Function.update_self] at isBlock
      cases isBlock
      rw [returned.live]
      exact ⟨_, List.mem_cons_self, same.symm, returned.room⟩
    · rw [Function.update_of_ne same] at isBlock
      exact tracks.room_cons returned isBlock

/-- What is freed is a live block. -/
theorem free (tracks : Tracks r structs blocks m) (starts : structs ptr = true ∨ blocks ptr ≠ none) :
    Reaches m (Kernel.free ptr m) ∧ (∃ lay, Valid r lay (Kernel.free ptr m)) ∧
      (Kernel.free ptr m).live = Heap.dropBlock ptr m.live := by
  obtain ⟨lay, valid⟩ := tracks.valid
  obtain ⟨block, member, rfl⟩ := (tracks.starts_iff ptr).mpr starts
  exact ⟨.step (Heap.free_step member), ⟨_, (Heap.valid_free valid member).1⟩, rfl⟩

theorem starts_drop (tracks : Tracks r structs blocks m) (a : Nat) :
    (∃ block ∈ Heap.dropBlock ptr m.live, block.addr = a) ↔
      a ≠ ptr ∧ (structs a = true ∨ blocks a ≠ none) := by
  rw [← tracks.starts_iff]
  constructor
  · intro ⟨block, member, isAddr⟩
    obtain ⟨isLive, other⟩ := Heap.mem_dropBlock.mp member
    exact ⟨isAddr ▸ other, block, isLive, isAddr⟩
  · intro ⟨other, block, isLive, isAddr⟩
    exact ⟨block, Heap.mem_dropBlock.mpr ⟨isLive, isAddr.symm ▸ other⟩, isAddr⟩

theorem room_drop (tracks : Tracks r structs blocks m) {a n : Nat} (other : a ≠ ptr)
    (isBlock : blocks a = some n) :
    ∃ block ∈ Heap.dropBlock ptr m.live, block.addr = a ∧ n ≤ block.size := by
  obtain ⟨block, member, isAddr, enough⟩ := tracks.room a n isBlock
  exact ⟨block, Heap.mem_dropBlock.mpr ⟨member, isAddr.symm ▸ other⟩, isAddr, enough⟩

theorem freeStruct (tracks : Tracks r structs blocks m) (isStruct : structs t = true) :
    Reaches m (Kernel.free t m) ∧
      Tracks r (Function.update structs t false) blocks (Kernel.free t m) := by
  obtain ⟨reaches, valid, isLive⟩ := tracks.free (Or.inl isStruct)
  have noBlock := tracks.apart t isStruct
  refine ⟨reaches, valid, ?_, ?_, ?_⟩
  · intro a
    rw [isLive, tracks.starts_drop, Function.update_apply]
    by_cases same : a = t
    · simp [same, noBlock]
    · simp [same]
  · intro a isOther
    by_cases same : a = t
    · rw [same, Function.update_self] at isOther
      cases isOther
    · rw [Function.update_of_ne same] at isOther
      exact tracks.apart a isOther
  · intro a n isBlock
    rw [isLive]
    apply tracks.room_drop _ isBlock
    intro same
    rw [same, noBlock] at isBlock
    cases isBlock

theorem freeBlock (tracks : Tracks r structs blocks m) (isBlock : blocks ptr ≠ none) :
    Reaches m (Kernel.free ptr m) ∧
      Tracks r structs (Function.update blocks ptr none) (Kernel.free ptr m) := by
  obtain ⟨reaches, valid, isLive⟩ := tracks.free (Or.inr isBlock)
  have noStruct : structs ptr = false := by
    by_contra isStruct
    exact isBlock (tracks.apart ptr (Bool.not_eq_false _ ▸ isStruct))
  refine ⟨reaches, valid, ?_, ?_, ?_⟩
  · intro a
    rw [isLive, tracks.starts_drop, Function.update_apply]
    by_cases same : a = ptr
    · simp [same, noStruct]
    · simp [same]
  · intro a isStruct
    by_cases same : a = ptr
    · rw [same, Function.update_self]
    · rw [Function.update_of_ne same]
      exact tracks.apart a isStruct
  · intro a n isOther
    have other : a ≠ ptr := by
      intro same
      rw [same, Function.update_self] at isOther
      cases isOther
    rw [Function.update_of_ne other] at isOther
    rw [isLive]
    exact tracks.room_drop other isOther

theorem free_null (tracks : Tracks r structs blocks m) : Kernel.free 0 m = m ∧ blocks 0 = none := by
  obtain ⟨lay, valid⟩ := tracks.valid
  have noBlock : ∀ block ∈ m.live, block.addr ≠ 0 :=
    fun block member => (valid.occupied block member).ne_zero valid.wellFormed
  constructor
  · have nothing : Heap.dropBlock 0 m.live = m.live := by
      apply List.filter_eq_self.mpr
      intro block member
      exact decide_eq_true (noBlock block member)
    change (⟨Heap.free 0 m.heap, Heap.dropBlock 0 m.live⟩ : Heap.Machine) = m
    rw [nothing]
    rfl
  · by_contra isBlock
    obtain ⟨block, member, isNull⟩ := (tracks.starts_iff 0).mpr (Or.inr isBlock)
    exact noBlock block member isNull

/-- A store to a live block. -/
theorem store (tracks : Tracks r structs blocks m) {block : Block} {addr : Nat} (value : UInt8)
    (live : block ∈ m.live) (inside : block.Contains addr) :
    Reaches m (callHeap (.write addr value) m).2 ∧
      Tracks r structs blocks (callHeap (.write addr value) m).2 := by
  obtain ⟨lay, valid⟩ := tracks.valid
  have allowed : (Heap.Call.write addr value).Allowed m.live := ⟨block, live, inside⟩
  exact ⟨.step (.call allowed), ⟨_, (Heap.step_valid valid allowed).2.1⟩, tracks.starts_iff,
    tracks.apart, tracks.room⟩

end Tracks

/-! ### Allocations -/

/-- What the `malloc`s of one `pthread_create` return is no memory in use. -/
structure FreshBlocks (r : Region) (structs : Nat → Bool) (blocks : Nat → Option Nat)
    (attr : Option Attr) (alloc : Allocation) : Prop where
  task : alloc.task ≠ 0 → Fresh r structs blocks alloc.task taskSize
  firstStack : alloc.firstStack ≠ 0 →
    Fresh r structs blocks alloc.firstStack (Machine.stackSize attr)
  stack : alloc.stack ≠ 0 → Fresh r structs blocks alloc.stack (Machine.stackSize attr) ∧
    alloc.stack ≠ alloc.firstStack

/-- The structs after a call of `pthread_create`. -/
def structsAfter (attr : Option Attr) (alloc : Allocation) (structs : Nat → Bool) : Nat → Bool :=
  if alloc.task = 0 then structs
  else Function.update structs alloc.task (decide (Succeeds attr alloc))

/-- The blocks after it. -/
def blocksAfter (attr : Option Attr) (alloc : Allocation) (blocks : Nat → Option Nat) :
    Nat → Option Nat :=
  if alloc.task = 0 then blocks else takenBlocks attr alloc blocks

variable {attr : Option Attr} {alloc : Allocation}

theorem Tracks.freeNew (tracks : Tracks r (Function.update structs t true) blocks m) :
    Reaches m (Kernel.free t m) ∧
      Tracks r (Function.update structs t false) blocks (Kernel.free t m) := by
  have freed := tracks.freeStruct (Function.update_self ..)
  rw [Function.update_idem] at freed
  exact freed

theorem taskSize_eq : taskSize = 304 := by decide +kernel

theorem taskSize_lt : taskSize < 2 ^ 64 := by
  rw [taskSize_eq]
  decide

theorem Tracks.allocate (small : r.Small) (tracks : Tracks r structs blocks m)
    (fits : Machine.stackSize attr < 2 ^ 64) (allocated : Kernel.allocate attr m = (alloc, m')) :
    Reaches m m' ∧ FreshBlocks r structs blocks attr alloc ∧
      Tracks r (structsAfter attr alloc structs) (blocksAfter attr alloc blocks) m' := by
  rcases isTask : Kernel.malloc taskSize m with ⟨task, m₁⟩
  obtain ⟨reachesTask, failedTask, someTask⟩ := tracks.malloc small taskSize_lt isTask
  have null : ∀ {p : Prop}, (0 : Nat) ≠ 0 → p := fun nonzero => absurd rfl nonzero
  unfold Kernel.allocate at allocated
  rw [isTask] at allocated
  dsimp only at allocated
  by_cases noTask : task = 0
  · rw [if_pos noTask] at allocated
    obtain ⟨rfl, rfl⟩ := Prod.mk.inj allocated
    exact ⟨reachesTask, ⟨null, null, null⟩, failedTask noTask⟩
  rw [if_neg noTask] at allocated
  have returnedTask := someTask noTask
  have withTask := tracks.addStruct returnedTask
  have freshTask := returnedTask.fresh
  by_cases supplied : SuppliesStack attr
  · rw [if_pos supplied] at allocated
    obtain ⟨rfl, rfl⟩ := Prod.mk.inj allocated
    refine ⟨reachesTask, ⟨fun _ => freshTask, null, null⟩, ?_⟩
    have succeeds : Succeeds attr ⟨task, 0, 0⟩ := ⟨noTask, Or.inl supplied⟩
    rw [structsAfter, if_neg noTask, decide_eq_true succeeds, blocksAfter, if_neg noTask, takenBlocks,
      if_pos (Or.inl supplied)]
    exact withTask
  rw [if_neg supplied] at allocated
  rcases isFirst : Kernel.malloc (Machine.stackSize attr) m₁ with ⟨first, m₂⟩
  obtain ⟨reachesFirst, failedFirst, someFirst⟩ := withTask.malloc small fits isFirst
  rw [isFirst] at allocated
  dsimp only at allocated
  by_cases noFirst : first = 0
  · rw [if_pos noFirst] at allocated
    obtain ⟨rfl, rfl⟩ := Prod.mk.inj allocated
    obtain ⟨reachesFree, freed⟩ := (failedFirst noFirst).freeNew
    refine ⟨(reachesTask.trans reachesFirst).trans reachesFree, ⟨fun _ => freshTask, null, null⟩, ?_⟩
    have fails : ¬ Succeeds attr ⟨task, 0, 0⟩ := fun succeeds =>
      succeeds.2.elim supplied fun both => both.1 rfl
    rw [structsAfter, if_neg noTask, decide_eq_false fails, blocksAfter, if_neg noTask, takenBlocks,
      if_pos (Or.inr rfl)]
    exact freed
  rw [if_neg noFirst] at allocated
  have returnedFirst := someFirst noFirst
  have withFirst := withTask.addBlock returnedFirst
  have freshFirst := returnedFirst.fresh.of_update_struct
  rcases isStack : Kernel.malloc (Machine.stackSize attr) m₂ with ⟨stack, m₃⟩
  obtain ⟨reachesStack, failedStack, someStack⟩ := withFirst.malloc small fits isStack
  have reaches := (reachesTask.trans reachesFirst).trans reachesStack
  rw [isStack] at allocated
  dsimp only at allocated
  have notEither : ¬ (SuppliesStack attr ∨ first = 0) := not_or.mpr ⟨supplied, noFirst⟩
  by_cases noStack : stack = 0
  · rw [if_pos noStack] at allocated
    obtain ⟨rfl, rfl⟩ := Prod.mk.inj allocated
    obtain ⟨reachesFree, freed⟩ := (failedStack noStack).freeNew
    refine ⟨reaches.trans reachesFree, ⟨fun _ => freshTask, fun _ => freshFirst, null⟩, ?_⟩
    have fails : ¬ Succeeds attr ⟨task, first, 0⟩ := fun succeeds =>
      succeeds.2.elim supplied fun both => both.2 rfl
    rw [structsAfter, if_neg noTask, decide_eq_false fails, blocksAfter, if_neg noTask, takenBlocks,
      if_neg notEither, if_pos rfl]
    exact freed
  · rw [if_neg noStack] at allocated
    obtain ⟨rfl, rfl⟩ := Prod.mk.inj allocated
    have returnedStack := someStack noStack
    have succeeds : Succeeds attr ⟨task, first, stack⟩ := ⟨noTask, Or.inr ⟨noFirst, noStack⟩⟩
    have different : stack ≠ first := by
      intro same
      have noBlock := returnedStack.fresh.self.2
      rw [same, Function.update_self] at noBlock
      cases noBlock
    have freshStack :=
      (returnedStack.fresh.of_update returnedFirst.fresh.self.2).of_update_struct
    refine ⟨reaches, ⟨fun _ => freshTask, fun _ => freshFirst, fun _ => ⟨freshStack, different⟩⟩, ?_⟩
    rw [structsAfter, if_neg noTask, decide_eq_true succeeds, blocksAfter, if_neg noTask, takenBlocks,
      if_neg notEither, if_neg noStack]
    exact withFirst.addBlock returnedStack

/-- The allocations of an initialisation that has enough. -/
theorem Tracks.allocateInit (small : r.Small) (tracks : Tracks r structs blocks m) {own : Nat}
    (allocated : Kernel.allocateInit m = (alloc, own, m')) (enough : Enough alloc own) :
    Reaches m m' ∧ FreshBlocks r structs blocks none alloc ∧ Fresh r structs blocks own taskSize ∧
      own ≠ alloc.task ∧ Tracks r (Function.update (Function.update structs alloc.task true) own true)
        (takenBlocks none alloc blocks) m' := by
  rcases isIdle : Kernel.allocate none m with ⟨idle, m₁⟩
  rcases isOwn : Kernel.malloc taskSize m₁ with ⟨own', m₂⟩
  unfold Kernel.allocateInit at allocated
  rw [isIdle] at allocated
  dsimp only at allocated
  rw [isOwn] at allocated
  obtain ⟨rfl, pair⟩ := Prod.mk.inj allocated
  obtain ⟨rfl, rfl⟩ := Prod.mk.inj pair
  obtain ⟨reachesIdle, fresh, withIdle⟩ := tracks.allocate small (by decide) isIdle
  have succeeds : Succeeds none idle := ⟨enough.task, Or.inr ⟨enough.firstStack, enough.stack⟩⟩
  rw [structsAfter, if_neg enough.task, decide_eq_true succeeds, blocksAfter, if_neg enough.task]
    at withIdle
  obtain ⟨reachesOwn, -, someOwn⟩ := withIdle.malloc small taskSize_lt isOwn
  have returned := someOwn enough.own
  have isFree := returned.fresh.self.1
  have different : own' ≠ idle.task := by
    intro same
    rw [same, Function.update_self] at isFree
    cases isFree
  have notSupplied : ¬ SuppliesStack none := by
    intro ⟨used, isUsed, _⟩
    cases isUsed
  have bothStacks : takenBlocks none idle blocks =
      Function.update (Function.update blocks idle.firstStack (some (Machine.stackSize none)))
        idle.stack (some (Machine.stackSize none)) := by
    rw [takenBlocks, if_neg (not_or.mpr ⟨notSupplied, enough.firstStack⟩), if_neg enough.stack]
  have freshOwn : Fresh r structs blocks own' taskSize := by
    have freshBehind := returned.fresh.of_update_struct
    obtain ⟨freshStack, apart⟩ := fresh.stack enough.stack
    rw [bothStacks] at freshBehind
    apply (freshBehind.of_update _).of_update (fresh.firstStack enough.firstStack).self.2
    rw [Function.update_of_ne apart]
    exact freshStack.self.2
  exact ⟨reachesIdle.trans reachesOwn, fresh, freshOwn, different, withIdle.addStruct returned⟩

end UniKernel.Kernel
