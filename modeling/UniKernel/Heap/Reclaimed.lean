import UniKernel.Heap.Runs

/-!
Owns the heap of a user who has freed everything: it is the one `heap_init`
left, so what was done with it can be done again, with the same results.
-/

namespace UniKernel.Heap

open UniKernel.Lib

/-! ### The allocator's data -/

/-- The region, the page table and the caches are the same. -/
structure SameAllocator (s s' : State) : Prop where
  heapStart : s'.heapStartAddr = s.heapStartAddr
  heapEnd : s'.heapEndAddr = s.heapEndAddr
  table : s'.pageMetadata = s.pageMetadata
  total : s'.totalPages = s.totalPages
  pageType : ∀ i < s.totalPages, s'.pageType i = s.pageType i
  pageCount : ∀ i < s.totalPages, s'.pageCount i = s.pageCount i
  caches : ∀ c < numCacheSizes, s'.caches c = s.caches c

/-- Every page behind the page table is free and no cache has a slab. -/
structure AllFree (s : State) : Prop where
  pages : ∀ i, (s.totalPages * pageInfoSize + (pageSize - 1)) / pageSize ≤ i → i < s.totalPages →
    s.pageType i = pageTypeFree ∧ s.pageCount i = 0
  caches : ∀ c < numCacheSizes, (s.caches c).slabsPartial = 0 ∧ (s.caches c).slabsFull = 0 ∧
    (s.caches c).slabsFree = 0

section Layouts

variable {r : Region} {lay : Layout} {s s' : State} {m again : Machine}

/-- The layout determines the allocator's data. -/
theorem Represents.sameAllocator (rep : Represents r lay s) (rep' : Represents r lay s') :
    SameAllocator s s' where
  heapStart := rep'.statics.heapStart.trans rep.statics.heapStart.symm
  heapEnd := rep'.statics.heapEnd.trans rep.statics.heapEnd.symm
  table := rep'.statics.table.trans rep.statics.table.symm
  total := rep'.statics.total.trans rep.statics.total.symm
  pageType i inside := by
    rw [rep.statics.total] at inside
    exact (rep'.pageType i inside).trans (rep.pageType i inside).symm
  pageCount i inside := by
    rw [rep.statics.total] at inside
    exact (rep'.pageCount i inside).trans (rep.pageCount i inside).symm
  caches c known := by
    have heads : ∀ which, s'.head c which = s.head c which := fun which =>
      (rep'.lists c which known).head_eq.trans (rep.lists c which known).head_eq.symm
    have onPartial : (s'.caches c).slabsPartial = (s.caches c).slabsPartial := heads .partlyUsed
    have onFull : (s'.caches c).slabsFull = (s.caches c).slabsFull := heads .full
    have onFree := (rep'.noFreeSlabs c known).trans (rep.noFreeSlabs c known).symm
    have objSize := (rep'.statics.objSize c known).trans (rep.statics.objSize c known).symm
    generalize s'.caches c = cache' at *
    generalize s.caches c = cache at *
    cases cache
    cases cache'
    simp_all

theorem Represents.allFree (rep : Represents r (Layout.initial r) s) : AllFree s where
  pages i behind inside := by
    rw [rep.statics.total] at behind inside
    have isFree : (Layout.initial r).use i = .free := if_neg (Nat.not_lt.mpr behind)
    have typeIs := rep.pageType i inside
    have countIs := rep.pageCount i inside
    rw [isFree] at typeIs countIs
    exact ⟨typeIs, countIs⟩
  caches c known :=
    ⟨(rep.lists c .partlyUsed known).head_eq, (rep.lists c .full known).head_eq, rep.noFreeSlabs c known⟩

/-- Without blocks the layout is the initial one. -/
theorem Valid.eq_initial (small : r.Small) (valid : Valid r lay m) (nothingLive : m.live = []) :
    lay = Layout.initial r := by
  apply Layout.eq_initial valid.wellFormed valid.used
  intro addr size occupied
  rcases valid.owned small addr size occupied with ⟨block, member, -⟩
  rw [nothingLive] at member
  cases member

/-! ### The same calls again -/

/-- Two machines the user cannot tell apart. -/
def Alike (r : Region) (m again : Machine) : Prop :=
  again.live = m.live ∧ ∃ lay, Valid r lay m ∧ Valid r lay again

/-- A call has the same result in both. -/
theorem Alike.step (source target image : Machine) (event : Event) (alike : Alike r source image)
    (step : HeapStep source event target) :
    ∃ imageTarget, HeapStep image event imageTarget ∧ Alike r target imageTarget := by
  rcases alike with ⟨sameLive, lay, valid, imageValid⟩
  cases step with
  | @call call allowed =>
      have imageAllowed : call.Allowed image.live := by
        rw [sameLive]
        exact allowed
      rcases step_valid valid allowed with ⟨result, after, -⟩
      rcases step_valid imageValid imageAllowed with ⟨imageResult, imageAfter, -⟩
      have same : (call.perform image.heap).1 = (call.perform source.heap).1 :=
        imageResult.trans result.symm
      have imageStep := HeapStep.call imageAllowed
      rw [same, sameLive] at imageStep
      rw [same, sameLive] at imageAfter
      exact ⟨_, imageStep, rfl, _, after, imageAfter⟩

end Layouts

/-! ### Runs -/

variable {start size : Nat} {path : List (Transition Machine Event)} {last : Machine}

/-- A run that ends without blocks ends with the allocator as `heap_init` left
it, and can be repeated any number of times. -/
theorem reclaimed (given : GivenRegion start size) (s : State) (cachesNonzero : 0 < s.cachesAddr)
    (cachesFit : s.cachesAddr + numCacheSizes * cacheStructSize ≤ 2 ^ 64)
    (run : Execution HeapStep ⟨heapInit start size s, []⟩ path last) (nothingLive : last.live = []) :
    SameAllocator (heapInit start size s) last.heap ∧ AllFree last.heap ∧
      ∀ rounds, ∃ again final, Execution HeapStep last again final ∧
        again.map Transition.label = (List.replicate rounds (path.map Transition.label)).flatten ∧
        final.live = [] ∧ AllFree final.heap := by
  have init := valid_init given.accepted s cachesNonzero cachesFit
  have lastValid : Valid given.accepted.region (Layout.initial given.accepted.region) last := by
    have reached : ∃ lay, Valid given.accepted.region lay last :=
      run.invariant ⟨_, init⟩ fun _ _ _ valid step => (step_safe given.small valid step).1
    rcases reached with ⟨lay, valid⟩
    have isInitial := valid.eq_initial given.small nothingLive
    exact isInitial ▸ valid
  refine ⟨init.rep.sameAllocator lastValid.rep, lastValid.rep.allFree, ?_⟩
  intro rounds
  have once : ∀ m, m.live = [] ∧ Valid given.accepted.region (Layout.initial given.accepted.region) m →
      ∃ again final, Execution HeapStep m again final ∧
        again.map Transition.label = path.map Transition.label ∧
        final.live = [] ∧ Valid given.accepted.region (Layout.initial given.accepted.region) final := by
    rintro m ⟨nothing, valid⟩
    have alike : Alike given.accepted.region ⟨heapInit start size s, []⟩ m := ⟨nothing, _, init, valid⟩
    rcases run.matched alike fun source label target image => Alike.step source target image label with
      ⟨again, final, againRun, sameLabels, sameLive, lay, -, finalValid⟩
    rw [nothingLive] at sameLive
    have isInitial := finalValid.eq_initial given.small sameLive
    exact ⟨again, final, againRun, sameLabels, sameLive, isInitial ▸ finalValid⟩
  rcases Execution.repeated once ⟨nothingLive, lastValid⟩ rounds with
    ⟨again, final, againRun, labels, finalLive, finalValid⟩
  exact ⟨again, final, againRun, labels, finalLive, finalValid.rep.allFree⟩

/-- A block allocated, written and freed leaves two pages as they were. -/
theorem reclaimed_two_pages :
    ∃ path last, Execution HeapStep ⟨heapInit 4096 8192 noHeap, []⟩ path last ∧
      path.map (·.label) = [⟨.malloc 2048, 8232⟩, ⟨.write 8240 7, 0⟩, ⟨.free 8232, 0⟩] ∧
      SameAllocator (heapInit 4096 8192 noHeap) last.heap ∧ AllFree last.heap ∧
      ∀ rounds, ∃ again final, Execution HeapStep last again final ∧
        again.map Transition.label = (List.replicate rounds (path.map Transition.label)).flatten ∧
        final.live = [] ∧ AllFree final.heap := by
  rcases exists_run_of_allocated malloc_twoPages with ⟨path, last, run, labels, nothingLive⟩
  exact ⟨path, last, run, labels,
    reclaimed ⟨by decide, by decide, by decide⟩ noHeap (by decide) (by decide) run nothingLive⟩

end UniKernel.Heap
