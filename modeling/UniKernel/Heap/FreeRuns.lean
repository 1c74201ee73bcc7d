import UniKernel.Heap.Statics
import UniKernel.Lib.FirstFit

/-!
Owns `alloc_pages_backend` over any page table, whatever its entries are: the search
finds the lowest run of free pages, and the marking loop changes the entries of that
run and no other byte.
-/

namespace UniKernel.Heap

open UniKernel.Lib

/-- `count` free pages from page `i` on. -/
def FreeRun (s : State) (count i : Nat) : Prop :=
  Fits (fun j => s.pageType j = pageTypeFree) s.totalPages count i

/-- Page `i` is one of `count` pages from `first` on. -/
def InRun (first count i : Nat) : Prop := first ≤ i ∧ i < first + count

instance (first count : Nat) : DecidablePred (InRun first count) :=
  fun _ => inferInstanceAs (Decidable (_ ∧ _))

/-- The lowest run of `count` free pages begins at page `i`. -/
def LowestRun (s : State) (count i : Nat) : Prop :=
  FreeRun s count i ∧ ∀ earlier, earlier < i → ¬ FreeRun s count earlier

/-- The table entries of `numPages` pages from `start` on are marked as `type`; no
other entry, no other byte and no static differs. -/
structure MarkedRun (start numPages type : Nat) (s s' : State) : Prop where
  statics : s' = { s with mem := s'.mem }
  marked : ∀ i, InRun start numPages i → s'.pageType i = type
  others : ∀ i, ¬ InRun start numPages i →
    s'.pageType i = s.pageType i ∧ s'.pageCount i = s.pageCount i
  outside : ∀ addr, addr < s.pageMetadata + start * pageInfoSize ∨
    s.pageMetadata + (start + numPages) * pageInfoSize ≤ addr → s'.mem addr = s.mem addr

variable {s : State} {numPages type start : Nat}

/-! ### The search -/

/-- The loop continues the pass: its counters are below 2^32, as the page count is. -/
theorem findRun_of_scanned (bounded : s.totalPages < 2 ^ 32) {remaining i freeRun startIdx : Nat}
    (rest : i + remaining = s.totalPages)
    (scan : Scanned (fun j => s.pageType j = pageTypeFree) s.totalPages numPages i freeRun startIdx) :
    findRun s numPages remaining i freeRun startIdx =
      firstFit (fun j => s.pageType j = pageTypeFree) s.totalPages numPages := by
  induction remaining generalizing i freeRun startIdx with
  | zero =>
      rw [Nat.add_zero] at rest
      subst rest
      rw [findRun, scan.exhausted]
  | succ remaining inductionHypothesis =>
      have le := scan.le
      rw [findRun]
      by_cases isFree : s.pageType i = pageTypeFree
      · rw [if_pos isFree]
        simp only [u32_of_lt (show freeRun + 1 < 2 ^ 32 by omega)]
        by_cases complete : freeRun + 1 = numPages
        · rw [if_pos complete, scan.complete isFree (by omega) complete]
        · rw [if_neg complete]
          exact inductionHypothesis (by omega) (scan.extend isFree complete)
      · rw [if_neg isFree]
        exact inductionHypothesis (by omega) (scan.reset isFree startIdx)

/-- No run of 0 pages is found: the counter is positive when it is compared. -/
theorem findRun_zero (s : State) {remaining i freeRun startIdx : Nat} (le : freeRun ≤ i)
    (bound : i + remaining < 2 ^ 32) : findRun s 0 remaining i freeRun startIdx = none := by
  induction remaining generalizing i freeRun startIdx with
  | zero => rfl
  | succ remaining inductionHypothesis =>
      have small : freeRun + 1 < 2 ^ 32 := by omega
      rw [findRun]
      simp only [u32_of_lt small]
      split
      · rw [if_neg (Nat.succ_ne_zero freeRun)]
        exact inductionHypothesis (by omega) (by omega)
      · exact inductionHypothesis (by omega) (by omega)

theorem findRun_eq_firstFit (bounded : s.totalPages < 2 ^ 32) (numPages : Nat) :
    findRun s numPages s.totalPages 0 0 noIndex =
      firstFit (fun i => s.pageType i = pageTypeFree) s.totalPages numPages := by
  by_cases isZero : numPages = 0
  · rw [isZero, findRun_zero s (Nat.le_refl 0) (by omega), firstFit, if_pos rfl]
  · exact findRun_of_scanned bounded (Nat.zero_add _) (.zero isZero noIndex)

/-! ### The marking loop -/

theorem setPage_outside (s : State) {i count addr : Nat}
    (outside : addr < s.pageMetadata + i * pageInfoSize ∨
      s.pageMetadata + (i + 1) * pageInfoSize ≤ addr) :
    (s.setPage i type count).mem addr = s.mem addr := by
  simp only [pageInfoSize] at outside
  unfold State.setPage
  dsimp only
  rw [Memory.store_outside _ (by simp only [pageInfoSize]; omega),
    Memory.store_outside _ (by simp only [pageInfoSize]; omega)]

/-- The loop after `done` entries. -/
theorem markRun_markedRun (start numPages : Nat) (typeFits : type < 256) (s : State) (done : Nat) :
    MarkedRun start done type s (markRun start numPages type done s) := by
  induction done with
  | zero =>
      refine ⟨rfl, ?_, fun i _ => ⟨rfl, rfl⟩, fun addr _ => rfl⟩
      intro i inRun
      unfold InRun at inRun
      omega
  | succ done inductionHypothesis =>
      have table : (markRun start numPages type done s).pageMetadata = s.pageMetadata :=
        (markRun_statics start numPages type done s).metadata
      refine ⟨?_, ?_, ?_, ?_⟩
      · rw [markRun, State.setPage, inductionHypothesis.statics]
      · intro i inRun
        rw [markRun, pageType_setPage]
        by_cases last : i = start + done
        · rw [if_pos last, Nat.mod_eq_of_lt typeFits]
        · rw [if_neg last]
          apply inductionHypothesis.marked
          unfold InRun at inRun ⊢
          omega
      · intro i notInRun
        unfold InRun at notInRun
        rw [markRun, pageType_setPage, pageCount_setPage, if_neg (by omega), if_neg (by omega)]
        apply inductionHypothesis.others
        unfold InRun
        omega
      · intro addr outside
        simp only [pageInfoSize] at outside
        rw [markRun, setPage_outside]
        · apply inductionHypothesis.outside
          simp only [pageInfoSize]
          omega
        · rw [table]
          simp only [pageInfoSize]
          omega

/-! ### The function -/

theorem allocPagesBackend_of_fit (bounded : s.totalPages < 2 ^ 32) (type : Nat)
    (found : firstFit (fun i => s.pageType i = pageTypeFree) s.totalPages numPages = some start) :
    allocPagesBackend numPages type s =
      (pageIdxToVirt s start, markRun start numPages type numPages s) := by
  rw [allocPagesBackend, findRun_eq_firstFit bounded, found]

theorem allocPagesBackend_of_none (bounded : s.totalPages < 2 ^ 32) (type : Nat)
    (none : firstFit (fun i => s.pageType i = pageTypeFree) s.totalPages numPages = none) :
    allocPagesBackend numPages type s = (0, s) := by
  rw [allocPagesBackend, findRun_eq_firstFit bounded, none]

/-- A size that wraps around when it is rounded up is a request for no page. -/
theorem pages_of_wrap {size : Nat} (small : size < 2 ^ 64) (wraps : 2 ^ 64 ≤ size + 4095) :
    u64 (size + pageSize - 1) / pageSize = 0 := by
  unfold u64
  simp only [pageSize]
  omega

theorem malloc_of_wrap (bounded : s.totalPages < 2 ^ 32) {size : Nat} (small : size < 2 ^ 64)
    (wraps : 2 ^ 64 ≤ size + 4095) : malloc size s = (0, s) := by
  rw [malloc, if_neg (by omega), if_neg (by omega), pages_of_wrap small wraps]
  exact allocPagesBackend_of_none bounded _ (if_pos rfl)

/-- Over every table, `alloc_pages_backend` takes the lowest run of as many free pages
as it is asked for, or returns NULL and writes nothing; `malloc` asks it for no page
where the rounded size wraps around. -/
theorem allocPagesBackend_lowest_run (s : State) (bounded : s.totalPages < 2 ^ 32)
    (numPages : Nat) (typeFits : type < 256) :
    (numPages ≠ 0 → (∃ i, FreeRun s numPages i) →
      ∃ start, LowestRun s numPages start ∧
        (allocPagesBackend numPages type s).1 = pageIdxToVirt s start ∧
        MarkedRun start numPages type s (allocPagesBackend numPages type s).2) ∧
    (numPages = 0 ∨ (∀ i, ¬ FreeRun s numPages i) →
      allocPagesBackend numPages type s = (0, s)) ∧
    ∀ size, size < 2 ^ 64 → 2 ^ 64 ≤ size + 4095 →
      u64 (size + pageSize - 1) / pageSize = 0 ∧ malloc size s = (0, s) := by
  refine ⟨?_, ?_, ?_⟩
  · rintro positive ⟨i, isRun⟩
    cases found : firstFit (fun i => s.pageType i = pageTypeFree) s.totalPages numPages with
    | none => exact absurd isRun ((firstFit_eq_none_iff positive).mp found i)
    | some start =>
        have lowest : LowestRun s numPages start := (firstFit_eq_some_iff positive).mp found
        rw [allocPagesBackend_of_fit bounded type found]
        exact ⟨start, lowest, rfl, markRun_markedRun start numPages typeFits s numPages⟩
  · intro noRun
    apply allocPagesBackend_of_none bounded
    by_cases isZero : numPages = 0
    · rw [firstFit, if_pos isZero]
    · exact (firstFit_eq_none_iff isZero).mpr (noRun.resolve_left isZero)
  · intro size small wraps
    exact ⟨pages_of_wrap small wraps, malloc_of_wrap bounded small wraps⟩

/-- Three pages, the first of them in use. -/
def threePages : State where
  mem := fun addr => if addr = 4096 then 2 else 0
  heapStartAddr := 4096
  heapEndAddr := 16384
  pageMetadata := 4096
  totalPages := 3
  caches := fun _ => ⟨0, 0, 0, 0⟩
  cachesAddr := 0

theorem allocPagesBackend_lowest_run_two :
    ∃ start, LowestRun threePages 2 start ∧
      (allocPagesBackend 2 pageTypeLarge threePages).1 = pageIdxToVirt threePages start ∧
      MarkedRun start 2 pageTypeLarge threePages (allocPagesBackend 2 pageTypeLarge threePages).2 :=
  (allocPagesBackend_lowest_run threePages (by decide) 2 (by decide)).1 (by decide)
    ⟨1, by decide, by decide⟩

end UniKernel.Heap
