import UniKernel.Vmm.Frames
import UniKernel.Vmm.Regions

/-!
Owns the address space that `init_vmm` builds. The six regions start at 2 MiB
boundaries and are mapped to themselves, so pages occur in the last slot of a
region only, and no earlier region covers all of that slot: the rule for
sequences of calls applies to each.
-/

namespace UniKernel.Vmm

open UniKernel.Lib
open UniKernel.Pmm (Drawn pageSize phyRamBase pmmAllocFrame)

variable {start : Pmm.State} {s : State} {base size flags mapped address : Nat}

/-! ### Identity regions -/

/-- A region that is mapped to itself, as `bootRegions` lists them. -/
def identityCall (region : Nat × Nat × Nat) : MapCall :=
  ⟨region.1, region.1, region.2.1, region.2.2⟩

/-- The pages of a region that starts at a block boundary lie behind its blocks. -/
theorem page_in_tail {v p : Nat} (noWrap : base + size ≤ 2 ^ 39) (aligned : base % blockSize = 0)
    (progress : mapped % blockSize = 0 ∨ size / blockSize * blockSize ≤ mapped)
    (member : Chunk.page v p ∈ chunksFrom base base size mapped) :
    base + size / blockSize * blockSize ≤ v := by
  induction mapped using chunksFrom.induct base base size with
  | case1 mapped more isBlock inductionHypothesis =>
      rw [chunksFrom, if_pos more, if_pos isBlock] at member
      rcases List.mem_cons.mp member with same | later
      · cases same
      · have room := isBlock.2.2
        apply inductionHypothesis _ later
        simp only [blockSize] at *
        omega
  | case2 mapped more notBlock inductionHypothesis =>
      rw [chunksFrom, if_pos more, if_neg notBlock] at member
      have inTail : size / blockSize * blockSize ≤ mapped := by
        rcases progress with mappedAligned | inTail
        · by_contra before
          apply notBlock
          rw [u64_of_lt (by omega)]
          simp only [blockSize] at *
          omega
        · exact inTail
      rcases List.mem_cons.mp member with same | later
      · rw [(Chunk.page.inj same).1, u64_of_lt (by omega)]
        omega
      · exact inductionHypothesis (Or.inr (Nat.le_add_right_of_le inTail)) later
  | case3 mapped done =>
      rw [chunksFrom, if_neg done] at member
      cases member

/-- A region `later` has its pages in slots that `earlier` does not cover. -/
def Apart (earlier later : Nat × Nat × Nat) : Prop :=
  ∀ address, later.1 + later.2.1 / blockSize * blockSize ≤ address →
    address < later.1 + later.2.1 → ¬ SlotInside earlier.1 earlier.2.1 address

/-- No call of `pmm_alloc_frame` fails while the regions are mapped in turn. -/
def RegionsAllocate : List (Nat × Nat × Nat) → State → Prop
  | [], _ => True
  | region :: rest, s =>
      (identityCall region).Allocates s ∧ RegionsAllocate rest ((identityCall region).run s)

/-- The address space with the regions mapped in turn. -/
def mapAll (regions : List (Nat × Nat × Nat)) (space : AddressSpace Attributes) :
    AddressSpace Attributes :=
  regions.foldl (fun space region =>
    space.map region.1 region.1 region.2.1 (requested region.2.2)) space

theorem mapAll_congr {regions : List (Nat × Nat × Nat)} {space other : AddressSpace Attributes}
    {bound : Nat} (same : ∀ address < bound, space address = other address) :
    ∀ address < bound, mapAll regions space address = mapAll regions other address := by
  induction regions generalizing space other with
  | nil => exact same
  | cons region rest inductionHypothesis =>
      exact inductionHypothesis (AddressSpace.map_congr same)

/-- Regions whose pages and blocks lie apart are all mapped, in their order, and
the tables stay a tree. -/
theorem mapRegions_tables {done regions : List (Nat × Nat × Nat)}
    (consistent : Pmm.Consistent start) (tables : HasTables start s)
    (valid : ∀ region ∈ regions, (identityCall region).Valid ∧ region.1 % blockSize = 0)
    (covered : ∀ address < 2 ^ 39, s.HoldsBlock address →
      ∃ region ∈ done, SlotInside region.1 region.2.1 address)
    (apart : ∀ earlier ∈ done, ∀ later ∈ regions, Apart earlier later)
    (apartAmong : regions.Pairwise Apart) (allocates : RegionsAllocate regions s) :
    HasTables start (mapRegions regions s) ∧ (mapRegions regions s).rootTable = s.rootTable ∧
      ∀ address < 2 ^ 39,
        (mapRegions regions s).translate address = mapAll regions s.translate address := by
  induction regions generalizing s done with
  | nil => exact ⟨tables, rfl, fun _ _ => rfl⟩
  | cons region rest inductionHypothesis =>
      rcases allocates with ⟨allocatesNow, allocatesLater⟩
      rcases valid region List.mem_cons_self with ⟨regionValid, aligned⟩
      have virtSmall : region.1 + region.2.1 ≤ 2 ^ 39 := regionValid.virtSmall
      have misses : PagesMissBlocks (identityCall region).chunks s := by
        intro v p isPage isBlock
        have behind := page_in_tail virtSmall aligned (Or.inl rfl) isPage
        have bounds := chunk_bounds virtSmall rfl isPage
        rcases covered v (by omega) isBlock with ⟨earlier, isDone, inside⟩
        exact apart earlier isDone region List.mem_cons_self v behind bounds.2 inside
      have maps := regionValid.maps consistent tables misses allocatesNow
      have coveredNow : ∀ address < 2 ^ 39, ((identityCall region).run s).HoldsBlock address →
          ∃ other ∈ region :: done, SlotInside other.1 other.2.1 address := by
        intro address small isBlock
        rcases maps.blocks address small isBlock with before | inside
        · rcases covered address small before with ⟨other, isDone, inside⟩
          exact ⟨other, List.mem_cons_of_mem _ isDone, inside⟩
        · exact ⟨region, List.mem_cons_self, inside⟩
      have apartNow : ∀ earlier ∈ region :: done, ∀ later ∈ rest, Apart earlier later := by
        intro earlier isDone later isRest
        rcases List.mem_cons.mp isDone with isRegion | isDone
        · rw [isRegion]
          exact (List.pairwise_cons.mp apartAmong).1 later isRest
        · exact apart earlier isDone later (List.mem_cons_of_mem _ isRest)
      have others := inductionHypothesis maps.tables
        (fun other isRest => valid other (List.mem_cons_of_mem _ isRest)) coveredNow apartNow
        (List.pairwise_cons.mp apartAmong).2 allocatesLater
      refine ⟨others.1, others.2.1.trans maps.rootTable, ?_⟩
      intro address small
      exact (others.2.2 address small).trans (mapAll_congr maps.translate address small)

theorem mapRegions_maps {done regions : List (Nat × Nat × Nat)}
    (consistent : Pmm.Consistent start) (tables : HasTables start s)
    (valid : ∀ region ∈ regions, (identityCall region).Valid ∧ region.1 % blockSize = 0)
    (covered : ∀ address < 2 ^ 39, s.HoldsBlock address →
      ∃ region ∈ done, SlotInside region.1 region.2.1 address)
    (apart : ∀ earlier ∈ done, ∀ later ∈ regions, Apart earlier later)
    (apartAmong : regions.Pairwise Apart) (allocates : RegionsAllocate regions s) :
    (mapRegions regions s).rootTable = s.rootTable ∧
      ∀ address < 2 ^ 39,
        (mapRegions regions s).translate address = mapAll regions s.translate address :=
  (mapRegions_tables consistent tables valid covered apart apartAmong allocates).2

/-! ### `init_vmm` -/

namespace Attributes

/-- Normal memory that EL1 may write. -/
def IsWritableMemory (attributes : Attributes) : Prop :=
  attributes.attrIndx = mtNormal ∧ attributes.accessPermissions = 0

/-- Device memory that is not executed at any level. -/
def IsDeviceMemory (attributes : Attributes) : Prop :=
  attributes.attrIndx = mtDeviceNGnRnE ∧ attributes.privilegedExecuteNever = true ∧
    attributes.unprivilegedExecuteNever = true

end Attributes

def InRam (ramSize address : Nat) : Prop := phyRamBase ≤ address ∧ address < phyRamBase + ramSize

def InHeapWindow (address : Nat) : Prop := 0x50000000 ≤ address ∧ address < 0x50800000

/-- The windows of the GIC, the UART and virtio, 1 MiB each. -/
def InDeviceWindow (address : Nat) : Prop :=
  (0x08000000 ≤ address ∧ address < 0x08100000) ∨ (0x09000000 ≤ address ∧ address < 0x09100000) ∨
    (0x0a000000 ≤ address ∧ address < 0x0a100000)

instance (attributes : Attributes) : Decidable attributes.IsWritableMemory :=
  inferInstanceAs (Decidable (_ ∧ _))

instance (attributes : Attributes) : Decidable attributes.IsDeviceMemory :=
  inferInstanceAs (Decidable (_ ∧ _))

instance (ramSize address : Nat) : Decidable (InRam ramSize address) :=
  inferInstanceAs (Decidable (_ ∧ _))

instance (address : Nat) : Decidable (InHeapWindow address) :=
  inferInstanceAs (Decidable (_ ∧ _))

instance (address : Nat) : Decidable (InDeviceWindow address) :=
  inferInstanceAs (Decidable (_ ∨ _))

/-- RAM, the heap window and the device windows are mapped to themselves, and no
other address is mapped. -/
structure BootMapOk (ramSize : Nat) (s : State) : Prop where
  root : s.ttbr0 = s.rootTable
  memory : ∀ address, InRam ramSize address ∨ InHeapWindow address →
    ∃ attributes, s.translate address = some (address, attributes) ∧ attributes.IsWritableMemory
  device : ∀ address, InDeviceWindow address →
    ∃ attributes, s.translate address = some (address, attributes) ∧ attributes.IsDeviceMemory
  nothingElse : ∀ address < 2 ^ 39, ¬ InRam ramSize address → ¬ InHeapWindow address →
    ¬ InDeviceWindow address → s.translate address = none

/-- The kernel ends at a page boundary in RAM, which has 39-bit addresses. -/
structure RamLayout (kernelEnd ramSize : Nat) : Prop where
  kernelAligned : kernelEnd % pageSize = 0
  aboveBase : phyRamBase < kernelEnd
  inRam : kernelEnd ≤ phyRamBase + ramSize
  ramAligned : ramSize % pageSize = 0
  small : phyRamBase + ramSize ≤ 2 ^ 39

section Boot

variable {boot : State} {kernelEnd ramSize : Nat}

theorem RamLayout.kernelSize (layout : RamLayout kernelEnd ramSize) :
    u64 (2 ^ 64 - 0x40000000 + kernelEnd) = kernelEnd - phyRamBase := by
  have above := layout.aboveBase
  have inRam := layout.inRam
  have small := layout.small
  simp only [phyRamBase] at *
  unfold u64
  omega

/-- The regions of `init_vmm` with the size of the kernel written out. -/
theorem RamLayout.bootRegions_eq (layout : RamLayout kernelEnd ramSize) :
    bootRegions kernelEnd ramSize =
      [ (0x40000000, kernelEnd - 0x40000000, vmWritable),
        (0x40000000, ramSize, vmWritable),
        (0x50000000, 0x800000, vmWritable),
        (0x09000000, 0x100000, vmWritable ||| vmDevice),
        (0x0a000000, 0x100000, vmWritable ||| vmDevice),
        (0x08000000, 0x100000, vmWritable ||| vmDevice) ] := by
  unfold bootRegions
  rw [layout.kernelSize]
  rfl

theorem RamLayout.regions_valid (layout : RamLayout kernelEnd ramSize) :
    ∀ region ∈ bootRegions kernelEnd ramSize,
      (identityCall region).Valid ∧ region.1 % blockSize = 0 := by
  have kernelAligned := layout.kernelAligned
  have above := layout.aboveBase
  have inRam := layout.inRam
  have ramAligned := layout.ramAligned
  have small := layout.small
  rw [layout.bootRegions_eq]
  simp only [phyRamBase, pageSize] at *
  intro region member
  simp only [List.mem_cons, List.not_mem_nil, or_false] at member
  have basePage : 0x40000000 % pageSize = 0 := by decide
  have baseBlock : 0x40000000 % blockSize = 0 := by decide
  rcases member with rfl | rfl | rfl | rfl | rfl | rfl
  · exact ⟨⟨basePage, basePage, by simp only [identityCall, pageSize]; omega,
      by simp only [identityCall]; omega, by simp only [identityCall]; omega⟩, baseBlock⟩
  · exact ⟨⟨basePage, basePage, ramAligned, small, by simp only [identityCall]; omega⟩, baseBlock⟩
  all_goals exact ⟨⟨rfl, rfl, rfl, by decide, by decide⟩, by decide⟩

theorem RamLayout.regions_apart (layout : RamLayout kernelEnd ramSize) :
    (bootRegions kernelEnd ramSize).Pairwise Apart := by
  have above := layout.aboveBase
  have inRam := layout.inRam
  rw [layout.bootRegions_eq]
  simp only [phyRamBase] at *
  simp only [List.pairwise_cons, List.mem_cons, List.not_mem_nil, or_false, forall_eq_or_imp,
    forall_eq, Apart, SlotInside, blockSize, List.Pairwise.nil, and_true, false_implies,
    implies_true]
  refine ⟨⟨?_, ?_, ?_, ?_, ?_⟩, ⟨?_, ?_, ?_, ?_⟩, ⟨?_, ?_, ?_⟩, ⟨?_, ?_⟩, ?_⟩ <;>
    intro address behind before inside <;> omega

theorem rootPhys_getNextTable (table idx : Nat) (s : State) :
    (getNextTable table idx s).2.rootPhys = s.rootPhys := by
  unfold getNextTable
  split
  · rfl
  · dsimp only
    split <;> rfl

theorem rootPhys_map (chunk : Chunk) (s : State) : (chunk.map flags s).rootPhys = s.rootPhys := by
  have first := fun virt => rootPhys_getNextTable s.rootTable (l1Index virt) s
  cases chunk with
  | page virt phys =>
      unfold Chunk.map vmmMapPage
      dsimp only
      split
      · exact first virt
      · split
        · exact (rootPhys_getNextTable _ _ _).trans (first virt)
        · exact (rootPhys_getNextTable _ _ _).trans (first virt)
  | block virt phys =>
      unfold Chunk.map vmmMapBlock
      dsimp only
      split <;> exact first virt

theorem rootPhys_mapChunks (chunks : List Chunk) (s : State) :
    (mapChunks flags chunks s).rootPhys = s.rootPhys := by
  induction chunks generalizing s with
  | nil => rfl
  | cons chunk rest inductionHypothesis =>
      rw [mapChunks_cons, inductionHypothesis, rootPhys_map]

theorem rootPhys_mapRegions (regions : List (Nat × Nat × Nat)) (s : State) :
    (mapRegions regions s).rootPhys = s.rootPhys := by
  induction regions generalizing s with
  | nil => rfl
  | cons region rest inductionHypothesis =>
      have first : (vmmMapRegion region.1 region.1 region.2.1 region.2.2 s).rootPhys = s.rootPhys := by
        rw [vmmMapRegion, mapFrom_eq, rootPhys_mapChunks]
      exact (inductionHypothesis _).trans first

/-- Turning on paging leaves the tables alone and installs their root. -/
theorem enablePaging_tables (s : State) :
    (enablePaging s).translate = s.translate ∧ (enablePaging s).rootTable = s.rootTable ∧
      (enablePaging s).ttbr0 = s.rootPhys :=
  ⟨rfl, rfl, rfl⟩

theorem HasTables.enablePaging (tables : HasTables start s) : HasTables start (enablePaging s) := by
  obtain ⟨frames, ok⟩ := tables
  exact ⟨frames, ok.drawn, ok.root, ok.popped, ok.distinct, ok.nested, ok.l1Table, ok.l1Empty,
    ok.l2Table, ok.l2Block⟩

theorem phyRamSize_setupRoot (boot : State) :
    (setupRoot boot).pmm.phyRamSize = boot.pmm.phyRamSize := by
  change (pmmAllocFrame boot.pmm).2.phyRamSize = boot.pmm.phyRamSize
  unfold pmmAllocFrame
  split <;> rfl

/-- What the six regions make of an empty address space. -/
theorem RamLayout.mapAll_boot (layout : RamLayout kernelEnd ramSize) (address : Nat) :
    mapAll (bootRegions kernelEnd ramSize) AddressSpace.empty address =
      if InDeviceWindow address then some (address, requested (vmWritable ||| vmDevice))
      else if InRam ramSize address ∨ InHeapWindow address then
        some (address, requested vmWritable)
      else none := by
  have above := layout.aboveBase
  have inRam := layout.inRam
  have identity : ∀ base, base ≤ address → base + (address - base) = address := by
    intro base below
    omega
  rw [layout.bootRegions_eq]
  simp only [phyRamBase] at above inRam
  by_cases device : InDeviceWindow address
  · rw [if_pos device]
    unfold InDeviceWindow at device
    simp only [mapAll, List.foldl_cons, List.foldl_nil, AddressSpace.map, AddressSpace.empty]
    split_ifs <;> first | omega | rw [identity _ (by omega)]
  · rw [if_neg device]
    unfold InDeviceWindow at device
    by_cases memory : InRam ramSize address ∨ InHeapWindow address
    · rw [if_pos memory]
      simp only [InRam, InHeapWindow, phyRamBase] at memory
      simp only [mapAll, List.foldl_cons, List.foldl_nil, AddressSpace.map, AddressSpace.empty]
      split_ifs <;> first | omega | rw [identity _ (by omega)]
    · rw [if_neg memory]
      simp only [InRam, InHeapWindow, phyRamBase] at memory
      simp only [mapAll, List.foldl_cons, List.foldl_nil, AddressSpace.map, AddressSpace.empty]
      split_ifs <;> first | omega | rfl

/-- After `init_vmm`, RAM, the heap window and the device windows are mapped to
themselves as they should be, and nothing else is. -/
theorem initVmm_maps (layout : RamLayout kernelEnd ramSize)
    (consistent : Pmm.Consistent boot.pmm) (isRamSize : boot.pmm.phyRamSize = ramSize)
    (rooted : (pmmAllocFrame boot.pmm).1 ≠ 0)
    (allocates : RegionsAllocate (bootRegions kernelEnd ramSize) (setupRoot boot)) :
    BootMapOk ramSize (initVmm kernelEnd boot) := by
  have noLeaf := setupRoot_leaf consistent rooted
  have tables : HasTables boot.pmm (setupRoot boot) := ⟨_, setupRoot_tables consistent rooted⟩
  have noBlock : ∀ address, ¬ (setupRoot boot).HoldsBlock address := by
    intro address isBlock
    rw [State.HoldsBlock, noLeaf] at isBlock
    cases isBlock
  have covered : ∀ address < 2 ^ 39, (setupRoot boot).HoldsBlock address →
      ∃ region ∈ ([] : List (Nat × Nat × Nat)), SlotInside region.1 region.2.1 address :=
    fun address _ isBlock => absurd isBlock (noBlock address)
  have maps := mapRegions_maps consistent tables layout.regions_valid covered (by simp)
    layout.regions_apart allocates
  have isEmpty : (setupRoot boot).translate = AddressSpace.empty := by
    funext address
    rw [State.translate, noLeaf]
    rfl
  have translate : ∀ address < 2 ^ 39, (initVmm kernelEnd boot).translate address =
      if InDeviceWindow address then some (address, requested (vmWritable ||| vmDevice))
      else if InRam ramSize address ∨ InHeapWindow address then
        some (address, requested vmWritable)
      else none := by
    intro address small
    rw [initVmm, phyRamSize_setupRoot, isRamSize, (enablePaging_tables _).1, maps.2 address small,
      isEmpty, layout.mapAll_boot]
  have inRam := layout.inRam
  have ramSmall := layout.small
  simp only [phyRamBase] at inRam ramSmall
  exact {
    root := by
      have sameRoot : (setupRoot boot).rootPhys = (setupRoot boot).rootTable := rfl
      rw [initVmm, phyRamSize_setupRoot, isRamSize, (enablePaging_tables _).2.2,
        (enablePaging_tables _).2.1, rootPhys_mapRegions, maps.1, sameRoot]
    memory := by
      intro address inside
      have small : address < 2 ^ 39 := by
        simp only [InRam, InHeapWindow, phyRamBase] at inside
        omega
      have noDevice : ¬ InDeviceWindow address := by
        simp only [InRam, InHeapWindow, InDeviceWindow, phyRamBase] at inside ⊢
        omega
      refine ⟨requested vmWritable, ?_, by decide⟩
      rw [translate address small, if_neg noDevice, if_pos inside]
    device := by
      intro address inside
      have small : address < 2 ^ 39 := by
        simp only [InDeviceWindow] at inside
        omega
      refine ⟨requested (vmWritable ||| vmDevice), ?_, by decide⟩
      rw [translate address small, if_pos inside]
    nothingElse := by
      intro address small notRam notHeap notDevice
      rw [translate address small, if_neg notDevice, if_neg (by tauto)] }

/-- After `init_vmm` the tables lie in the frames that it popped. -/
theorem initVmm_tables (layout : RamLayout kernelEnd ramSize)
    (consistent : Pmm.Consistent boot.pmm) (isRamSize : boot.pmm.phyRamSize = ramSize)
    (rooted : (pmmAllocFrame boot.pmm).1 ≠ 0)
    (allocates : RegionsAllocate (bootRegions kernelEnd ramSize) (setupRoot boot)) :
    HasTables boot.pmm (initVmm kernelEnd boot) := by
  have covered : ∀ address < 2 ^ 39, (setupRoot boot).HoldsBlock address →
      ∃ region ∈ ([] : List (Nat × Nat × Nat)), SlotInside region.1 region.2.1 address := by
    intro address _ isBlock
    rw [State.HoldsBlock, setupRoot_leaf consistent rooted] at isBlock
    cases isBlock
  have tables : HasTables boot.pmm (setupRoot boot) := ⟨_, setupRoot_tables consistent rooted⟩
  have maps := mapRegions_tables consistent tables layout.regions_valid covered (by simp)
    layout.regions_apart allocates
  rw [initVmm, phyRamSize_setupRoot, isRamSize]
  exact maps.1.enablePaging

end Boot

/-! ### Enough frames -/

theorem Chunk.drawn (chunk : Chunk) (flags : Nat) (s : State) :
    Drawn s.pmm (chunk.map flags s).pmm := by
  cases chunk with
  | page v p => exact (vmmMapPage_pops v p flags s).drawn
  | block v p => exact (vmmMapBlock_pops v p flags s).drawn

theorem drawn_mapChunks (flags : Nat) (chunks : List Chunk) (s : State) :
    Drawn s.pmm (mapChunks flags chunks s).pmm := by
  induction chunks generalizing s with
  | nil => exact Drawn.refl s.pmm
  | cons chunk rest inductionHypothesis =>
      rw [mapChunks_cons]
      exact (chunk.drawn flags s).trans (inductionHypothesis (chunk.map flags s))

theorem drawn_mapRegions (regions : List (Nat × Nat × Nat)) (s : State) :
    Drawn s.pmm (mapRegions regions s).pmm := by
  induction regions generalizing s with
  | nil => exact Drawn.refl s.pmm
  | cons region rest inductionHypothesis =>
      have first : Drawn s.pmm ((identityCall region).run s).pmm := by
        rw [MapCall.run_eq]
        exact drawn_mapChunks _ _ s
      exact first.trans (inductionHypothesis _)

theorem nextAllocates_of_nonempty {table idx : Nat} (consistent : Pmm.Consistent start)
    (drawn : Drawn start s.pmm) (nonempty : s.pmm.stackTop ≠ 0) : NextAllocates table idx s :=
  fun _ => drawn.allocates consistent nonempty

/-- A stack that is not empty afterwards never was. -/
theorem Chunk.allocates_of_left {chunk : Chunk} (consistent : Pmm.Consistent start)
    (drawn : Drawn start s.pmm) (left : (chunk.map flags s).pmm.stackTop ≠ 0) :
    chunk.Allocates s := by
  have whole := chunk.drawn flags s
  have nonempty : s.pmm.stackTop ≠ 0 := by
    have bound := whole.top
    omega
  cases chunk with
  | page v p =>
      change (vmmMapPage v p flags s).pmm.stackTop ≠ 0 at left
      have first := (getNextTable_pops s.rootTable (l1Index v) s).drawn
      have next := (getNextTable_pops (getNextTable s.rootTable (l1Index v) s).1 (l2Index v)
        (getNextTable s.rootTable (l1Index v) s).2).drawn
      have second : Drawn (getNextTable s.rootTable (l1Index v) s).2.pmm
          (vmmMapPage v p flags s).pmm := by
        unfold vmmMapPage
        dsimp only
        split
        · exact Drawn.refl _
        · split <;> exact next
      have between : (getNextTable s.rootTable (l1Index v) s).2.pmm.stackTop ≠ 0 := by
        have bound := second.top
        omega
      exact ⟨nextAllocates_of_nonempty consistent drawn nonempty,
        nextAllocates_of_nonempty consistent (drawn.trans first) between⟩
  | block v p => exact nextAllocates_of_nonempty consistent drawn nonempty

theorem allAllocate_of_left {chunks : List Chunk} (consistent : Pmm.Consistent start)
    (drawn : Drawn start s.pmm) (left : (mapChunks flags chunks s).pmm.stackTop ≠ 0) :
    AllAllocate flags chunks s := by
  induction chunks generalizing s with
  | nil => trivial
  | cons chunk rest inductionHypothesis =>
      rw [mapChunks_cons] at left
      have after := drawn.trans (chunk.drawn flags s)
      have leftNow : (chunk.map flags s).pmm.stackTop ≠ 0 := by
        have bound := (drawn_mapChunks flags rest (chunk.map flags s)).top
        omega
      exact ⟨chunk.allocates_of_left consistent drawn leftNow, inductionHypothesis after left⟩

theorem regionsAllocate_of_left {regions : List (Nat × Nat × Nat)}
    (consistent : Pmm.Consistent start) (drawn : Drawn start s.pmm)
    (left : (mapRegions regions s).pmm.stackTop ≠ 0) : RegionsAllocate regions s := by
  induction regions generalizing s with
  | nil => trivial
  | cons region rest inductionHypothesis =>
      change (mapRegions rest ((identityCall region).run s)).pmm.stackTop ≠ 0 at left
      have leftNow : ((identityCall region).run s).pmm.stackTop ≠ 0 := by
        have bound := (drawn_mapRegions rest ((identityCall region).run s)).top
        omega
      have after : Drawn start ((identityCall region).run s).pmm := by
        rw [MapCall.run_eq]
        exact drawn.trans (drawn_mapChunks _ _ s)
      refine ⟨?_, inductionHypothesis after left⟩
      rw [MapCall.run_eq] at leftNow
      exact allAllocate_of_left consistent drawn leftNow

/-- With as many free frames as `regionFrames` says, every table gets one. -/
theorem regionsAllocate_of_frames {regions : List (Nat × Nat × Nat)}
    (noWrap : ∀ region ∈ regions, region.1 + region.2.1 < 2 ^ 64)
    (aligned : ∀ region ∈ regions, region.1 % blockSize = 0) (consistent : Pmm.Consistent start)
    (drawn : Drawn start s.pmm) (enough : regionFrames regions < s.pmm.stackTop) :
    RegionsAllocate regions s := by
  apply regionsAllocate_of_left consistent drawn
  obtain ⟨count, few, popped⟩ := mapRegions_pops noWrap aligned s
  rw [popped, (allocFrames_stack count s.pmm).2]
  omega

/-- The machine of the emulator: 2 GiB of RAM, and a kernel of one page. -/
def twoGiBBoot : State := State.zero (Pmm.pmmInit 0x40001000 0x80000000 Pmm.State.zero)

theorem twoGiBBoot_layout : Pmm.BootLayout 0x40001000 0x80000000 :=
  ⟨by decide, by decide, by decide, by decide, by decide⟩

theorem pmm_twoGiBBoot :
    twoGiBBoot.pmm = Pmm.pmmInit 0x40001000 0x80000000 Pmm.State.zero := by
  rw [twoGiBBoot, State.zero]

theorem twoGiBBoot_consistent : Pmm.Consistent twoGiBBoot.pmm := by
  rw [pmm_twoGiBBoot]
  exact Pmm.pmmInit_consistent twoGiBBoot_layout

theorem twoGiBBoot_stackTop : twoGiBBoot.pmm.stackTop = 523647 := by
  have progress := Pmm.pmmInit_progress twoGiBBoot_layout
  have reserved : Pmm.reservedFrames (Pmm.pmmReservedEnd 0x40001000 0x80000000) = 641 := by
    decide
  rw [pmm_twoGiBBoot, progress.top, reserved]
  decide

theorem twoGiBBoot_rooted : (pmmAllocFrame twoGiBBoot.pmm).1 ≠ 0 := by
  apply (Drawn.refl _).allocates twoGiBBoot_consistent
  rw [twoGiBBoot_stackTop]
  decide

theorem twoGiBBoot_drawn : Drawn twoGiBBoot.pmm (setupRoot twoGiBBoot).pmm := by
  rw [pmm_setupRoot]
  exact (Pops.one _).drawn

theorem twoGiBBoot_left : (setupRoot twoGiBBoot).pmm.stackTop = 523646 := by
  rw [pmm_setupRoot, (pmmAllocFrame_stack _).2.1, twoGiBBoot_stackTop]

theorem initVmm_maps_twoGiB : BootMapOk 0x80000000 (initVmm 0x40001000 twoGiBBoot) := by
  have isRamSize : twoGiBBoot.pmm.phyRamSize = 0x80000000 := by
    rw [pmm_twoGiBBoot]
    exact (Pmm.pmmInit_progress twoGiBBoot_layout).ramSize
  have enough : regionFrames (bootRegions 0x40001000 0x80000000) <
      (setupRoot twoGiBBoot).pmm.stackTop := by
    have frames := regionFrames_bootRegions twoGiBBoot_layout.aboveBase (by decide)
    rw [twoGiBBoot_left]
    simp only [initVmmFrames] at frames
    omega
  have allocates := regionsAllocate_of_frames
    (bootRegions_noWrap (by decide) (by decide)) (bootRegions_aligned _ _) twoGiBBoot_consistent
    twoGiBBoot_drawn enough
  exact initVmm_maps ⟨by decide, by decide, by decide, by decide, by decide⟩ twoGiBBoot_consistent
    isRamSize twoGiBBoot_rooted allocates

end UniKernel.Vmm
