import UniKernel.Heap.Runs

/-!
Owns the first call of `heap_init` with any arguments: it sets the heap up, or
leaves one that serves nothing and never looks at the page table. The exit for a
heap too small for its metadata comes after `total_pages` is set, so one page is
enough to miss both.
-/

namespace UniKernel.Heap

open UniKernel.Lib

/-- The file-scope variables before the first call. -/
structure Zeroed (s : State) : Prop where
  heapStart : s.heapStartAddr = 0
  heapEnd : s.heapEndAddr = 0
  table : s.pageMetadata = 0
  total : s.totalPages = 0
  caches : ∀ c, s.caches c = ⟨0, 0, 0, 0⟩

/-- The page table lies in `[start, start + size)`, counted from `start`, and has an
entry for every page; the caches have their sizes and no slabs. -/
structure Initialised (start size : Nat) (s : State) : Prop where
  table : s.pageMetadata = s.heapStartAddr
  inside : u64 (s.pageMetadata + (2 ^ 64 - start)) + s.totalPages * pageInfoSize ≤ size
  nonempty : s.totalPages ≠ 0
  entries : ∀ i, i < s.totalPages →
    if i < (s.totalPages * pageInfoSize + pageSize - 1) / pageSize then
      s.pageType i = pageTypeLarge ∧ s.pageCount i = 1
    else s.pageType i = pageTypeFree ∧ s.pageCount i = 0
  caches : ∀ c, c < numCacheSizes → s.caches c = ⟨0, 0, 0, slabSizes.getD c 0⟩

/-- Any call with any arguments, and any store to memory. -/
inductive LaterStep : State → Event → State → Prop where
  | call {s : State} (call : Call) : LaterStep s ⟨call, (call.perform s).1⟩ (call.perform s).2

/-- Whatever memory holds, the call returns NULL and stores nothing. -/
def IgnoresMemory (s : State) (call : Call) : Prop :=
  ∀ mem, call.perform { s with mem := mem } = (0, { s with mem := mem })

/-- Every later call of the allocator ignores memory, and so the page table. -/
def Inert (s : State) : Prop :=
  ∀ path last, Execution LaterStep s path last → ∀ transition ∈ path,
    ¬ transition.label.call.isWrite → IgnoresMemory transition.source transition.label.call

/-- The bytes `heap_init` loses in front of the first whole page. -/
def padding (start : Nat) : Nat := (4096 - start % 4096) % 4096

section Calls

variable {s : State} {call : Call} {start size count i : Nat}

/-! ### A heap without pages -/

/-- No pages and no caches. -/
structure Dead (s : State) : Prop where
  total : s.totalPages = 0
  objSize : ∀ c, (s.caches c).objSize = 0

theorem cacheFor_of_dead (dead : Dead s) (positive : size ≠ 0) {remaining : Nat} :
    cacheFor s size remaining i = none := by
  induction remaining generalizing i with
  | zero => rfl
  | succ remaining inductionHypothesis =>
      rw [cacheFor, dead.objSize, if_neg (by omega)]
      exact inductionHypothesis

theorem malloc_of_dead (dead : Dead s) (size : Nat) : malloc size s = (0, s) := by
  unfold malloc
  split
  · rfl
  · next positive =>
      split
      · rw [cacheFor_of_dead dead positive]
      · unfold allocPagesBackend
        rw [dead.total, findRun]

theorem free_of_dead (dead : Dead s) (ptr : Nat) : free ptr s = s := by
  unfold free
  rw [dead.total]
  split
  · rfl
  · exact if_neg (Nat.not_lt_zero _)

theorem realloc_of_dead (dead : Dead s) (ptr newSize : Nat) : realloc ptr newSize s = (0, s) := by
  have noSize : oldSize ptr s = 0 := by
    unfold oldSize
    rw [dead.total]
    exact if_neg (Nat.not_lt_zero _)
  by_cases isNull : ptr = 0
  · rw [realloc, if_pos isNull]
    exact malloc_of_dead dead newSize
  · by_cases isFree : newSize = 0
    · rw [realloc, if_neg isNull, if_pos isFree, free_of_dead dead]
    · rw [realloc_of_grow isNull isFree (by omega), malloc_of_dead dead, if_neg (not_not.mpr rfl)]

theorem ignoresMemory_of_dead (dead : Dead s) (notWrite : ¬ call.isWrite) : IgnoresMemory s call := by
  intro mem
  have dead' : Dead { s with mem := mem } := ⟨dead.total, dead.objSize⟩
  cases call with
  | malloc size => exact malloc_of_dead dead' size
  | free ptr => exact congrArg (Prod.mk 0) (free_of_dead dead' ptr)
  | realloc ptr newSize => exact realloc_of_dead dead' ptr newSize
  | write addr value => exact absurd trivial notWrite

theorem dead_perform (dead : Dead s) (call : Call) : Dead (call.perform s).2 := by
  cases call with
  | malloc size =>
      show Dead (malloc size s).2
      rwa [malloc_of_dead dead]
  | free ptr =>
      show Dead (free ptr s)
      rwa [free_of_dead dead]
  | realloc ptr newSize =>
      show Dead (realloc ptr newSize s).2
      rwa [realloc_of_dead dead]
  | write addr value => exact ⟨dead.total, dead.objSize⟩

theorem inert_of_dead (dead : Dead s) : Inert s := by
  intro path last run transition member notWrite
  have reached := run.invariant_transitions dead fun _ _ _ dead step => by
    cases step with
    | call call => exact dead_perform dead call
  exact ignoresMemory_of_dead (reached transition member).1 notWrite

/-! ### A heap of one page -/

/-- One page without a page table: a request of a page reads and writes the entry at
NULL. -/
theorem not_inert_of_one (single : s.totalPages = 1) : ¬ Inert s := by
  intro inert
  let zero : State := { s with mem := fun _ => 0 }
  have ignored : malloc 4096 zero = (0, zero) :=
    inert _ _ (.single (.call (.malloc 4096))) _ (List.mem_singleton_self _) id _
  have wasFree : zero.pageType 0 = pageTypeFree := Memory.load_eq_zero fun _ _ => rfl
  have found : findRun zero 1 zero.totalPages 0 0 noIndex = some 0 := by
    rw [show zero.totalPages = 1 from single, findRun, if_pos wasFree]
    rfl
  have marked : (malloc 4096 zero).2 = zero.setPage 0 pageTypeLarge 1 := by
    show (allocPagesBackend 1 pageTypeLarge zero).2 = _
    unfold allocPagesBackend
    rw [found]
    rfl
  have entry := pageType_setPage zero 0 0 pageTypeLarge 1
  rw [← marked, ignored, wasFree, if_pos rfl] at entry
  exact absurd entry (by decide)

/-! ### The page table -/

theorem entries_reserveMetadata (count i : Nat) (s : State) :
    (reserveMetadata count s).pageType i = (if i < count then pageTypeLarge else s.pageType i) ∧
      (reserveMetadata count s).pageCount i = if i < count then 1 else s.pageCount i := by
  induction count with
  | zero => exact ⟨(if_neg (Nat.not_lt_zero i)).symm, (if_neg (Nat.not_lt_zero i)).symm⟩
  | succ count inductionHypothesis =>
      rw [reserveMetadata, pageType_setPage, pageCount_setPage, inductionHypothesis.1,
        inductionHypothesis.2]
      by_cases last : i = count
      · rw [if_pos last, if_pos last, if_pos (by omega), if_pos (by omega)]
        exact ⟨rfl, rfl⟩
      · rw [if_neg last, if_neg last]
        by_cases below : i < count
        · rw [if_pos below, if_pos below, if_pos (by omega), if_pos (by omega)]
          exact ⟨rfl, rfl⟩
        · rw [if_neg below, if_neg below, if_neg (by omega), if_neg (by omega)]
          exact ⟨rfl, rfl⟩

/-- The table after `memset`. -/
theorem entries_memset (inside : i < count) (s : State) :
    { s with mem := CString.memset s.pageMetadata 0 (count * pageInfoSize) s.mem }.pageType i = 0 ∧
      { s with mem := CString.memset s.pageMetadata 0 (count * pageInfoSize) s.mem }.pageCount i = 0 := by
  constructor
  · apply Memory.load_eq_zero
    intro offset below
    dsimp only
    rw [CString.memset_apply, if_pos (by simp only [pageInfoSize]; omega)]
    rfl
  · apply Memory.load_eq_zero
    intro offset below
    dsimp only
    rw [CString.memset_apply, if_pos (by simp only [pageInfoSize]; omega)]
    rfl

/-! ### The first call -/

/-- What `heap_init` loses by rounding `start` up, in 64 bits. -/
theorem padding_eq (small : start < 2 ^ 64) :
    u64 (alignDown (u64 (start + pageSize - 1)) pageSize + (2 ^ 64 - start)) = padding start := by
  unfold padding alignDown u64 pageSize
  omega

/-- Whole pages of the given size, as `heap_init` counts them. -/
def wholePagesAt (start size : Nat) : Nat := u32 ((size - padding start) / 4096)

/-- The last part of `heap_init`: the table, its own pages and the caches. -/
theorem initialised_of_table {aligned pages : Nat} (table : s.pageMetadata = aligned)
    (base : s.heapStartAddr = aligned) (total : s.totalPages = pages) (some : pages ≠ 0)
    (inside : u64 (aligned + (2 ^ 64 - start)) + pages * pageInfoSize ≤ size) :
    Initialised start size
      { reserveMetadata ((pages * pageInfoSize + pageSize - 1) / pageSize)
          { s with mem := CString.memset s.pageMetadata 0 (pages * pageInfoSize) s.mem } with
        caches := initCaches
          (reserveMetadata ((pages * pageInfoSize + pageSize - 1) / pageSize)
            { s with mem := CString.memset s.pageMetadata 0 (pages * pageInfoSize) s.mem }).caches } := by
  subst total
  have statics := reserveMetadata_statics ((s.totalPages * pageInfoSize + pageSize - 1) / pageSize)
    { s with mem := CString.memset s.pageMetadata 0 (s.totalPages * pageInfoSize) s.mem }
  refine ⟨?_, ?_, ?_, ?_, ?_⟩
  · exact statics.metadata.trans (table.trans (base.symm.trans statics.heapStart.symm))
  · rw [statics.metadata, statics.total]
    dsimp only
    rwa [table]
  · exact fun isZero => some (statics.total.symm.trans isZero)
  · intro i below
    rw [statics.total] at below ⊢
    have entries := entries_reserveMetadata ((s.totalPages * pageInfoSize + pageSize - 1) / pageSize) i
      { s with mem := CString.memset s.pageMetadata 0 (s.totalPages * pageInfoSize) s.mem }
    rw [(entries_memset below s).1, (entries_memset below s).2] at entries
    split
    · next inTable =>
        rw [if_pos inTable, if_pos inTable] at entries
        exact entries
    · next behind =>
        rw [if_neg behind, if_neg behind] at entries
        exact entries
  · exact fun c known => if_pos known

theorem heapInit_cases (zeroed : Zeroed s) (small : start < 2 ^ 64) :
    (size < padding start ∨ wholePagesAt start size = 0) ∧ Dead (heapInit start size s) ∨
      padding start ≤ size ∧ wholePagesAt start size = 1 ∧ (heapInit start size s).totalPages = 1 ∧
        (heapInit start size s).caches = s.caches ∨
      padding start ≤ size ∧ 2 ≤ wholePagesAt start size ∧
        Initialised start size (heapInit start size s) := by
  have lost := padding_eq small
  have whole : u32 ((size - padding start) / pageSize) = wholePagesAt start size := rfl
  have atMost : wholePagesAt start size ≤ (size - padding start) / 4096 := Nat.mod_le _ _
  unfold heapInit
  simp only [lost, whole]
  generalize alignDown (u64 (start + pageSize - 1)) pageSize = aligned at *
  generalize wholePagesAt start size = pages at *
  by_cases tooSmall : size < padding start
  · left
    rw [if_pos tooSmall]
    exact ⟨Or.inl tooSmall, zeroed.total, fun c => by rw [zeroed.caches c]⟩
  · have enough := Nat.not_lt.mp tooSmall
    rw [if_neg tooSmall]
    by_cases none : pages = 0
    · left
      rw [if_pos none]
      exact ⟨Or.inr none, none, fun c => by rw [zeroed.caches c]⟩
    · right
      rw [if_neg none]
      by_cases single : pages = 1
      · left
        subst single
        exact ⟨enough, rfl, rfl, rfl⟩
      · right
        refine ⟨enough, by omega, ?_⟩
        rw [if_neg (by simp only [pageInfoSize, pageSize]; omega)]
        let placed : State :=
          { s with
            totalPages := pages
            heapStartAddr := aligned
            heapEndAddr := u64 (aligned + u32 (pages * pageSize))
            pageMetadata := aligned }
        have inside : u64 (aligned + (2 ^ 64 - start)) + pages * pageInfoSize ≤ size := by
          rw [lost]
          simp only [pageInfoSize]
          omega
        exact @initialised_of_table placed start size aligned pages rfl rfl rfl none inside

theorem not_initialised_of_one (zeroed : Zeroed s) {s' : State} (caches : s'.caches = s.caches) :
    ¬ Initialised start size s' := by
  intro initialised
  have first := initialised.caches 0 (by decide)
  rw [caches, zeroed.caches] at first
  exact absurd (congrArg KmemCache.objSize first) (by decide)

/-- The first `heap_init` sets the heap up or leaves one that never looks at the page
table, except where the region has exactly one whole page (modulo 2^32). -/
theorem heapInit_complete_or_inert_iff (zeroed : Zeroed s) (small : start < 2 ^ 64) :
    Initialised start size (heapInit start size s) ∨ Inert (heapInit start size s) ↔
      ¬ (padding start ≤ size ∧ wholePagesAt start size = 1) := by
  rcases heapInit_cases zeroed small with ⟨rejected, dead⟩ | ⟨enough, single, total, caches⟩ |
    ⟨enough, several, initialised⟩
  · refine iff_of_true (Or.inr (inert_of_dead dead)) ?_
    rintro ⟨enough, single⟩
    omega
  · refine iff_of_false ?_ (not_not.mpr ⟨enough, single⟩)
    rintro (initialised | inert)
    · exact not_initialised_of_one zeroed caches initialised
    · exact not_inert_of_one total inert
  · refine iff_of_true (Or.inl initialised) ?_
    rintro ⟨-, single⟩
    omega

theorem zeroed_noHeap : Zeroed noHeap := ⟨rfl, rfl, rfl, rfl, fun _ => rfl⟩

theorem heapInit_complete_or_inert_iff_two_pages :
    Initialised 4096 8192 (heapInit 4096 8192 noHeap) ∨ Inert (heapInit 4096 8192 noHeap) ↔
      ¬ (padding 4096 ≤ 8192 ∧ wholePagesAt 4096 8192 = 1) :=
  heapInit_complete_or_inert_iff zeroed_noHeap (by decide)

/-- A region of one page: the page table stays NULL and `total_pages` is 1. -/
theorem exists_heap_without_table :
    ¬ (Initialised 4096 4096 (heapInit 4096 4096 noHeap) ∨ Inert (heapInit 4096 4096 noHeap)) := by
  rintro (initialised | inert)
  · have caches : (heapInit 4096 4096 noHeap).caches = noHeap.caches := rfl
    exact not_initialised_of_one zeroed_noHeap caches initialised
  · exact not_inert_of_one rfl inert

end Calls

end UniKernel.Heap
