import UniKernel.Vmm.BootMap

/-!
Owns the comparison of `vmm_map_region` with `vmm_map_page`. On empty tables
the region mapper, with its 2 MiB blocks, builds the address space that mapping
the region page by page builds.
-/

namespace UniKernel.Vmm

open UniKernel.Lib
open UniKernel.Pmm (Drawn pageSize pmmAllocFrame)

/-- `vmm_map_page` for each of `count` pages in turn. -/
def vmmMapPages (virt phys flags : Nat) : (count : Nat) → State → State
  | 0, s => s
  | count + 1, s =>
      vmmMapPages (virt + pageSize) (phys + pageSize) flags count (vmmMapPage virt phys flags s)

/-- The calls that `vmmMapPages` makes. -/
def pageChunks (virt phys : Nat) : (count : Nat) → List Chunk
  | 0 => []
  | count + 1 => .page virt phys :: pageChunks (virt + pageSize) (phys + pageSize) count

section Pages

variable {start : Pmm.State} {s : State} {virt phys flags count : Nat}

theorem vmmMapPages_eq (virt phys flags count : Nat) (s : State) :
    vmmMapPages virt phys flags count s = mapChunks flags (pageChunks virt phys count) s := by
  induction count generalizing virt phys s with
  | zero => rfl
  | succ count inductionHypothesis =>
      rw [vmmMapPages, pageChunks, mapChunks_cons, inductionHypothesis]
      rfl

theorem length_pageChunks (virt phys count : Nat) : (pageChunks virt phys count).length = count := by
  induction count generalizing virt phys with
  | zero => rfl
  | succ count inductionHypothesis => rw [pageChunks, List.length_cons, inductionHypothesis]

theorem mapChunks_pops (flags : Nat) (chunks : List Chunk) (s : State) :
    Pops (2 * chunks.length) s.pmm (mapChunks flags chunks s).pmm := by
  induction chunks generalizing s with
  | nil => exact Pops.none s.pmm
  | cons chunk rest inductionHypothesis =>
      have first : Pops 2 s.pmm (chunk.map flags s).pmm := by
        cases chunk with
        | page v p => exact vmmMapPage_pops v p flags s
        | block v p => exact (vmmMapBlock_pops v p flags s).mono (by decide)
      rw [mapChunks_cons, List.length_cons, Nat.mul_succ, Nat.add_comm]
      exact first.trans (inductionHypothesis _)

/-- Two frames for each call are enough. -/
theorem allAllocate_of_frames {chunks : List Chunk} (consistent : Pmm.Consistent start)
    (drawn : Drawn start s.pmm) (enough : 2 * chunks.length < s.pmm.stackTop) :
    AllAllocate flags chunks s := by
  apply allAllocate_of_left consistent drawn
  rcases mapChunks_pops flags chunks s with ⟨count, few, popped⟩
  rw [popped, (allocFrames_stack count s.pmm).2]
  omega

/-- A range smaller than a block makes no block. -/
theorem MapsRange.noBlock {s' : State} {size : Nat} (maps : MapsRange start s s' virt phys size flags)
    (small : size < blockSize) (noBlock : ∀ address < 2 ^ 39, ¬ s.HoldsBlock address) :
    ∀ address < 2 ^ 39, ¬ s'.HoldsBlock address := by
  intro address below isBlock
  rcases maps.blocks address below isBlock with before | ⟨above, inside⟩
  · exact noBlock address below before
  · omega

/-- Mapping page by page maps the range. -/
theorem vmmMapPages_range (consistent : Pmm.Consistent start) (tables : HasTables start s)
    (noBlock : ∀ address < 2 ^ 39, ¬ s.HoldsBlock address)
    (virtAligned : virt % pageSize = 0) (physAligned : phys % pageSize = 0)
    (virtSmall : virt + count * pageSize ≤ 2 ^ 39) (physSmall : phys + count * pageSize ≤ 2 ^ 48)
    (allocates : AllAllocate flags (pageChunks virt phys count) s) :
    MapsRange start s (vmmMapPages virt phys flags count s) virt phys (count * pageSize) flags := by
  induction count generalizing virt phys s with
  | zero =>
      rw [Nat.zero_mul]
      exact MapsRange.nothing tables
  | succ count inductionHypothesis =>
      rcases allocates with ⟨allocatesNow, allocatesLater⟩
      rw [Nat.succ_mul] at virtSmall physSmall
      have positive : 0 < pageSize := by decide
      have page : PageAddress phys := ⟨physAligned, by omega⟩
      have first : MapsRange start s (vmmMapPage virt phys flags s) virt phys pageSize flags :=
        mapPage_range consistent tables page virtAligned (by omega) (noBlock virt (by omega))
          allocatesNow
      have rest := inductionHypothesis first.tables (first.noBlock (by decide) noBlock)
        (by rw [Nat.add_mod_right, virtAligned]) (by rw [Nat.add_mod_right, physAligned])
        (by omega) (by omega) allocatesLater
      have both := first.append rest
      rwa [Nat.add_comm pageSize, ← Nat.succ_mul] at both

/-- With its blocks, `vmm_map_region` builds the address space that
`vmm_map_page` builds page by page. -/
theorem region_translates_like_pages {boot : State} {call : MapCall} (valid : call.Valid)
    (consistent : Pmm.Consistent boot.pmm) (rooted : (pmmAllocFrame boot.pmm).1 ≠ 0)
    (allocates : call.Allocates (setupRoot boot))
    (pagesAllocate : AllAllocate call.flags
      (pageChunks call.virt call.phys (call.size / pageSize)) (setupRoot boot)) :
    ∀ address < 2 ^ 39,
      (vmmMapRegion call.virt call.phys call.size call.flags (setupRoot boot)).translate address =
        (vmmMapPages call.virt call.phys call.flags (call.size / pageSize)
          (setupRoot boot)).translate address := by
  have tables : HasTables boot.pmm (setupRoot boot) := ⟨_, setupRoot_tables consistent rooted⟩
  have noBlock : ∀ address < 2 ^ 39, ¬ (setupRoot boot).HoldsBlock address := by
    intro address _ isBlock
    rw [State.HoldsBlock, setupRoot_leaf consistent rooted] at isBlock
    cases isBlock
  have chunkMisses : PagesMissBlocks call.chunks (setupRoot boot) := by
    intro virt phys isPage
    exact noBlock virt (by
      have bounds := chunk_bounds valid.virtSmall rfl isPage
      have virtSmall := valid.virtSmall
      omega)
  have whole : call.size / pageSize * pageSize = call.size :=
    Nat.div_mul_cancel (Nat.dvd_of_mod_eq_zero valid.sizeAligned)
  have byRegion := valid.maps consistent tables chunkMisses allocates
  have byPage := vmmMapPages_range consistent tables noBlock valid.virtAligned valid.physAligned
    (by rw [whole]; exact valid.virtSmall) (by rw [whole]; exact valid.physSmall) pagesAllocate
  rw [whole] at byPage
  intro address small
  exact (byRegion.translate address small).trans (byPage.translate address small).symm

end Pages

/-- 2 MiB of RAM, as one block and as 512 pages. -/
theorem region_translates_like_pages_block :
    (vmmMapRegion 0x40000000 0x40000000 blockSize vmWritable (setupRoot twoGiBBoot)).translate
        0x401ff008 =
      (vmmMapPages 0x40000000 0x40000000 vmWritable (blockSize / pageSize)
        (setupRoot twoGiBBoot)).translate 0x401ff008 := by
  refine region_translates_like_pages blockCall_valid twoGiBBoot_consistent twoGiBBoot_rooted
    ?_ ?_ 0x401ff008 (by decide)
  · apply allAllocate_of_frames twoGiBBoot_consistent twoGiBBoot_drawn
    rw [twoGiBBoot_left, blockCall_chunks]
    decide
  · apply allAllocate_of_frames twoGiBBoot_consistent twoGiBBoot_drawn
    rw [twoGiBBoot_left, length_pageChunks]
    decide

end UniKernel.Vmm
