import UniKernel.Pmm.Popped
import UniKernel.Vmm.Model

/-!
Owns what the page-table builder does to the frame allocator: every function
of `vmm.c` pops some frames and does nothing else to it, and how many frames
each can pop. `init_vmm` stays below `initVmmFrames` frames for any kernel end
below the heap.
-/

namespace UniKernel.Vmm

open UniKernel.Lib
open UniKernel.Pmm (pageSize phyRamBase pmmAllocFrame)

/-- The allocator after `count` calls of `pmm_alloc_frame`. -/
def allocFrames : Nat → Pmm.State → Pmm.State
  | 0, s => s
  | count + 1, s => allocFrames count (pmmAllocFrame s).2

theorem allocFrames_add (first second : Nat) (s : Pmm.State) :
    allocFrames (first + second) s = allocFrames second (allocFrames first s) := by
  induction first generalizing s with
  | zero => rw [Nat.zero_add]; rfl
  | succ first inductionHypothesis =>
      rw [Nat.succ_add]
      exact inductionHypothesis (pmmAllocFrame s).2

theorem pmmAllocFrame_stack (s : Pmm.State) :
    (pmmAllocFrame s).2.frameStack = s.frameStack ∧
      (pmmAllocFrame s).2.stackTop = s.stackTop - 1 ∧
      (pmmAllocFrame s).2.phyRamSize = s.phyRamSize := by
  cases nonempty : s.stackTop with
  | zero =>
      rw [Pmm.pmmAllocFrame_of_empty nonempty]
      exact ⟨rfl, nonempty, rfl⟩
  | succ top =>
      rw [Pmm.pmmAllocFrame_of_nonempty nonempty]
      exact ⟨rfl, rfl, rfl⟩

/-- Popping leaves the entries in place and only lowers the top. -/
theorem allocFrames_stack (count : Nat) (s : Pmm.State) :
    (allocFrames count s).frameStack = s.frameStack ∧
      (allocFrames count s).stackTop = s.stackTop - count := by
  induction count generalizing s with
  | zero => exact ⟨rfl, rfl⟩
  | succ count inductionHypothesis =>
      obtain ⟨entries, top⟩ := inductionHypothesis (pmmAllocFrame s).2
      obtain ⟨firstEntries, firstTop, -⟩ := pmmAllocFrame_stack s
      refine ⟨entries.trans firstEntries, ?_⟩
      rw [allocFrames, top, firstTop]
      omega

/-- `after` is `before` with at most `limit` frames popped. -/
def Pops (limit : Nat) (before after : Pmm.State) : Prop :=
  ∃ count, count ≤ limit ∧ after = allocFrames count before

namespace Pops

variable {limit first second : Nat} {before middle after : Pmm.State}

theorem none (s : Pmm.State) : Pops 0 s s := ⟨0, Nat.le_refl 0, rfl⟩

theorem one (s : Pmm.State) : Pops 1 s (pmmAllocFrame s).2 := ⟨1, Nat.le_refl 1, rfl⟩

theorem mono (pops : Pops first before after) (within : first ≤ limit) :
    Pops limit before after := by
  obtain ⟨count, bound, rfl⟩ := pops
  exact ⟨count, by omega, rfl⟩

theorem trans (early : Pops first before middle) (late : Pops second middle after) :
    Pops (first + second) before after := by
  obtain ⟨count, bound, rfl⟩ := early
  obtain ⟨more, moreBound, rfl⟩ := late
  exact ⟨count + more, by omega, (allocFrames_add count more before).symm⟩

end Pops

/-- Popping only lowers the stack. -/
theorem Pops.drawn {limit : Nat} {before after : Pmm.State} (pops : Pops limit before after) :
    Pmm.Drawn before after := by
  obtain ⟨count, -, rfl⟩ := pops
  have stack := allocFrames_stack count before
  exact ⟨stack.1, by rw [stack.2]; exact Nat.sub_le _ _⟩

theorem getNextTable_pops (table idx : Nat) (s : State) :
    Pops 1 s.pmm (getNextTable table idx s).2.pmm := by
  unfold getNextTable
  split
  · exact (Pops.none s.pmm).mono (by decide)
  · simp only
    split <;> exact Pops.one s.pmm

theorem vmmMapPage_pops (virt phys flags : Nat) (s : State) :
    Pops 2 s.pmm (vmmMapPage virt phys flags s).pmm := by
  have first := getNextTable_pops s.rootTable (l1Index virt) s
  unfold vmmMapPage
  simp only
  split
  · exact first.mono (by decide)
  · have second := getNextTable_pops (getNextTable s.rootTable (l1Index virt) s).1 (l2Index virt)
      (getNextTable s.rootTable (l1Index virt) s).2
    split <;> exact first.trans second

theorem vmmMapBlock_pops (virt phys flags : Nat) (s : State) :
    Pops 1 s.pmm (vmmMapBlock virt phys flags s).pmm := by
  have first := getNextTable_pops s.rootTable (l1Index virt) s
  unfold vmmMapBlock
  simp only
  split <;> exact first

/-- Less than a block is mapped page by page, two frames at most for each. -/
theorem mapFrom_pops_pages {virt phys size flags mapped : Nat}
    (small : size - mapped < blockSize) (s : State) :
    Pops (2 * ((size - mapped + (pageSize - 1)) / pageSize)) s.pmm
      (mapFrom virt phys size flags mapped s).pmm := by
  induction mapped, s using mapFrom.induct virt phys size flags with
  | case1 mapped s more aligned => exact absurd aligned.2.2 (by omega)
  | case2 mapped s more notBlock inductionHypothesis =>
      rw [mapFrom, if_pos more, if_neg notBlock]
      have page := vmmMapPage_pops (u64 (virt + mapped)) (u64 (phys + mapped)) flags s
      have rest := inductionHypothesis (by simp only [pageSize] at *; omega)
      refine (page.trans rest).mono ?_
      simp only [pageSize]
      omega
  | case3 mapped s done =>
      rw [mapFrom, if_neg done]
      exact (Pops.none s.pmm).mono (Nat.zero_le _)

/-- A block-aligned start is mapped block by block as long as a block remains. -/
theorem mapFrom_pops_blocks {start size flags mapped : Nat} (noWrap : start + size < 2 ^ 64)
    (aligned : (start + mapped) % blockSize = 0) (s : State) :
    Pops (1024 + (size - mapped) / blockSize) s.pmm
      (mapFrom start start size flags mapped s).pmm := by
  induction mapped, s using mapFrom.induct start start size flags with
  | case1 mapped s more isBlock inductionHypothesis =>
      rw [mapFrom, if_pos more, if_pos isBlock]
      have block := vmmMapBlock_pops (u64 (start + mapped)) (u64 (start + mapped)) flags s
      have room := isBlock.2.2
      simp only [blockSize] at aligned room
      have next : (start + (mapped + blockSize)) % blockSize = 0 := by
        simp only [blockSize]
        omega
      have blocks : 1 + (1024 + (size - (mapped + blockSize)) / blockSize) ≤
          1024 + (size - mapped) / blockSize := by
        simp only [blockSize] at *
        omega
      exact Pops.mono (Pops.trans block (inductionHypothesis next)) blocks
  | case2 mapped s more notBlock inductionHypothesis =>
      have small : size - mapped < blockSize := by
        by_contra large
        rw [u64_of_lt (by omega)] at notBlock
        exact notBlock ⟨aligned, aligned, Nat.not_lt.mp large⟩
      refine (mapFrom_pops_pages small s).mono ?_
      have pages : 2 * ((size - mapped + (pageSize - 1)) / pageSize) ≤ 1024 := by
        simp only [blockSize] at small
        simp only [pageSize]
        omega
      exact Nat.le_trans pages (Nat.le_add_right _ _)
  | case3 mapped s done =>
      rw [mapFrom, if_neg done]
      exact (Pops.none s.pmm).mono (Nat.zero_le _)

/-- More frames than `init_vmm` can pop for its six regions and the root table. -/
def initVmmFrames : Nat := 8192

theorem vmmMapRegion_pops {start size : Nat} (flags : Nat) (noWrap : start + size < 2 ^ 64)
    (aligned : start % blockSize = 0) (s : State) :
    Pops (1024 + size / blockSize) s.pmm (vmmMapRegion start start size flags s).pmm :=
  mapFrom_pops_blocks noWrap (by rwa [Nat.add_zero]) s

/-- The frames that mapping `regions` may pop. -/
def regionFrames (regions : List (Nat × Nat × Nat)) : Nat :=
  (regions.map fun region => 1024 + region.2.1 / blockSize).sum

theorem mapRegions_pops {regions : List (Nat × Nat × Nat)}
    (noWrap : ∀ region ∈ regions, region.1 + region.2.1 < 2 ^ 64)
    (aligned : ∀ region ∈ regions, region.1 % blockSize = 0) (s : State) :
    Pops (regionFrames regions) s.pmm (mapRegions regions s).pmm := by
  induction regions generalizing s with
  | nil => exact Pops.none s.pmm
  | cons region rest inductionHypothesis =>
      have first := vmmMapRegion_pops region.2.2 (noWrap region (by simp))
        (aligned region (by simp)) s
      have others := inductionHypothesis
        (fun other member => noWrap other (List.mem_cons_of_mem _ member))
        (fun other member => aligned other (List.mem_cons_of_mem _ member))
        (vmmMapRegion region.1 region.1 region.2.1 region.2.2 s)
      exact first.trans others

theorem bootRegions_aligned (kernelEnd phyRamSize : Nat) :
    ∀ region ∈ bootRegions kernelEnd phyRamSize, region.1 % blockSize = 0 := by
  intro region member
  simp only [bootRegions, List.mem_cons, List.not_mem_nil, or_false] at member
  rcases member with rfl | rfl | rfl | rfl | rfl | rfl <;> simp

/-- The regions of `init_vmm` lie below the end of RAM. -/
theorem bootRegions_noWrap {kernelEnd : Nat} (aboveBase : phyRamBase ≤ kernelEnd)
    (belowHeap : kernelEnd < 0x50000000) :
    ∀ region ∈ bootRegions kernelEnd 0x80000000, region.1 + region.2.1 < 2 ^ 64 := by
  intro region member
  simp only [phyRamBase] at aboveBase
  simp only [bootRegions, List.mem_cons, List.not_mem_nil, or_false, u64] at member
  rcases member with rfl | rfl | rfl | rfl | rfl | rfl <;> simp only [phyRamBase] <;> omega

theorem regionFrames_bootRegions {kernelEnd : Nat} (aboveBase : phyRamBase ≤ kernelEnd)
    (belowHeap : kernelEnd < 0x50000000) :
    1 + regionFrames (bootRegions kernelEnd 0x80000000) ≤ initVmmFrames := by
  have kernelSize : u64 (2 ^ 64 - 0x40000000 + kernelEnd) / blockSize ≤ 128 := by
    simp only [phyRamBase] at aboveBase
    simp only [u64, blockSize]
    omega
  simp only [regionFrames, bootRegions, List.map_cons, List.map_nil, List.sum_cons, List.sum_nil,
    blockSize, initVmmFrames] at kernelSize ⊢
  omega

theorem pmm_setupRoot (s : State) : (setupRoot s).pmm = (pmmAllocFrame s.pmm).2 := rfl

theorem pmm_enablePaging (s : State) : (enablePaging s).pmm = s.pmm := rfl

theorem pmm_initVmm (kernelEnd : Nat) (s : State) :
    (initVmm kernelEnd s).pmm =
      (mapRegions (bootRegions kernelEnd (setupRoot s).pmm.phyRamSize) (setupRoot s)).pmm := by
  rw [initVmm, pmm_enablePaging]

/-- `init_vmm` pops at most `initVmmFrames` frames and does nothing else to the
frame allocator. -/
theorem initVmm_pops {kernelEnd : Nat} {s : State} (aboveBase : phyRamBase ≤ kernelEnd)
    (belowHeap : kernelEnd < 0x50000000)
    (ramSize : (pmmAllocFrame s.pmm).2.phyRamSize = 0x80000000) :
    Pops initVmmFrames s.pmm (initVmm kernelEnd s).pmm := by
  have root : Pops 1 s.pmm (setupRoot s).pmm := Pops.one s.pmm
  have regions := mapRegions_pops (bootRegions_noWrap aboveBase belowHeap)
    (bootRegions_aligned kernelEnd 0x80000000) (setupRoot s)
  have frames := regionFrames_bootRegions aboveBase belowHeap
  rw [← pmm_setupRoot] at ramSize
  rw [pmm_initVmm, ramSize]
  exact (root.trans regions).mono frames

end UniKernel.Vmm
