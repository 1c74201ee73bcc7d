import UniKernel.Lib.Transition
import UniKernel.Vmm.Tables

/-!
Owns `vmm_map_region` over runs. A region is cut into pages and 2 MiB blocks by
its start and size alone, and each piece changes the address space by its own
range. The one thing that can go wrong is a page in a slot that holds a block:
`get_next_table` takes the block for a table.
-/

namespace UniKernel.Vmm

open UniKernel.Lib
open UniKernel.Pmm (pageSize pmmAllocFrame Popped Drawn)

variable {start : Pmm.State} {s s' : State} {virt phys size flags mapped address : Nat}

/-! ### Pieces of a region -/

/-- A call that the loop of `vmm_map_region` makes. -/
inductive Chunk where
  | page (virt phys : Nat)
  | block (virt phys : Nat)
deriving DecidableEq, Repr

/-- The calls of the loop from `mapped` on. -/
def chunksFrom (virt phys size mapped : Nat) : List Chunk :=
  if mapped < size then
    if u64 (virt + mapped) % blockSize = 0 ∧ u64 (phys + mapped) % blockSize = 0 ∧
        size - mapped ≥ blockSize then
      .block (u64 (virt + mapped)) (u64 (phys + mapped)) ::
        chunksFrom virt phys size (mapped + blockSize)
    else
      .page (u64 (virt + mapped)) (u64 (phys + mapped)) ::
        chunksFrom virt phys size (mapped + pageSize)
  else []
termination_by size - mapped
decreasing_by
  all_goals simp only [blockSize, pageSize] at *; omega

def Chunk.map (flags : Nat) (s : State) : Chunk → State
  | .page virt phys => vmmMapPage virt phys flags s
  | .block virt phys => vmmMapBlock virt phys flags s

/-- The calls of `pmm_alloc_frame` for a chunk do not fail. -/
def Chunk.Allocates (s : State) : Chunk → Prop
  | .page virt _ => PageAllocates virt s
  | .block virt _ => BlockAllocates virt s

def mapChunks (flags : Nat) (chunks : List Chunk) (s : State) : State :=
  chunks.foldl (Chunk.map flags) s

/-- No call of `pmm_alloc_frame` fails while the chunks are mapped in turn. -/
def AllAllocate (flags : Nat) : List Chunk → State → Prop
  | [], _ => True
  | chunk :: rest, s => chunk.Allocates s ∧ AllAllocate flags rest (chunk.map flags s)

theorem mapChunks_cons (chunk : Chunk) (rest : List Chunk) (s : State) :
    mapChunks flags (chunk :: rest) s = mapChunks flags rest (chunk.map flags s) := rfl

theorem allAllocate_cons {chunk : Chunk} {rest : List Chunk} :
    AllAllocate flags (chunk :: rest) s ↔
      chunk.Allocates s ∧ AllAllocate flags rest (chunk.map flags s) := Iff.rfl

theorem mapFrom_eq (virt phys size flags mapped : Nat) (s : State) :
    mapFrom virt phys size flags mapped s =
      mapChunks flags (chunksFrom virt phys size mapped) s := by
  induction mapped, s using mapFrom.induct virt phys size flags with
  | case1 mapped s more isBlock inductionHypothesis =>
      rw [mapFrom, if_pos more, if_pos isBlock, chunksFrom, if_pos more, if_pos isBlock,
        mapChunks_cons, inductionHypothesis]
      rfl
  | case2 mapped s more notBlock inductionHypothesis =>
      rw [mapFrom, if_pos more, if_neg notBlock, chunksFrom, if_pos more, if_neg notBlock,
        mapChunks_cons, inductionHypothesis]
      rfl
  | case3 mapped s done =>
      rw [mapFrom, if_neg done, chunksFrom, if_neg done]
      rfl

/-! ### Mapping a range -/

/-- The 2 MiB slot of `address` lies in a range. -/
def SlotInside (virt size address : Nat) : Prop :=
  virt ≤ address / blockSize * blockSize ∧
    address / blockSize * blockSize + blockSize ≤ virt + size

/-- `size` addresses from `virt` on are mapped, and nothing else changes. -/
structure MapsRange (start : Pmm.State) (s s' : State) (virt phys size flags : Nat) : Prop where
  tables : HasTables start s'
  after : Drawn s.pmm s'.pmm
  rootTable : s'.rootTable = s.rootTable
  translate : ∀ address < 2 ^ 39,
    s'.translate address = s.translate.map virt phys size (requested flags) address
  blocks : ∀ address < 2 ^ 39, s'.HoldsBlock address →
    s.HoldsBlock address ∨ SlotInside virt size address
  memory : KeepsMemory start s s'

/-- Ranges one after the other. -/
theorem MapsRange.append {middle : State} {first second : Nat}
    (before : MapsRange start s middle virt phys first flags)
    (behind : MapsRange start middle s' (virt + first) (phys + first) second flags) :
    MapsRange start s s' virt phys (first + second) flags where
  tables := behind.tables
  after := before.after.trans behind.after
  rootTable := behind.rootTable.trans before.rootTable
  translate := by
    intro address small
    rw [behind.translate address small, ← AddressSpace.map_map]
    exact AddressSpace.map_congr before.translate address small
  blocks := by
    intro address small isBlock
    unfold SlotInside
    rcases behind.blocks address small isBlock with earlier | ⟨above, below⟩
    · rcases before.blocks address small earlier with original | ⟨above, below⟩
      · exact Or.inl original
      · exact Or.inr ⟨above, by omega⟩
    · exact Or.inr ⟨by omega, by omega⟩
  memory := before.memory.trans behind.memory behind.after

theorem MapsRange.nothing (tables : HasTables start s) :
    MapsRange start s s virt phys 0 flags where
  tables := tables
  after := Drawn.refl s.pmm
  rootTable := rfl
  translate := by
    intro address _
    rw [AddressSpace.map_zero]
  blocks := fun _ _ => Or.inl
  memory := fun _ _ => rfl

/-- The addresses with the indices of a page are those of the page. -/
theorem samePage_iff (aligned : virt % pageSize = 0) (virtSmall : virt < 2 ^ 39)
    (small : address < 2 ^ 39) :
    l1Index address = l1Index virt ∧ l2Index address = l2Index virt ∧
      l3Index address = l3Index virt ↔ virt ≤ address ∧ address < virt + pageSize := by
  simp only [l1Index_eq, l2Index_eq, l3Index_eq, pageSize] at *
  omega

theorem sameBlock_iff (aligned : virt % blockSize = 0) (virtSmall : virt < 2 ^ 39)
    (small : address < 2 ^ 39) :
    l1Index address = l1Index virt ∧ l2Index address = l2Index virt ↔
      virt ≤ address ∧ address < virt + blockSize := by
  simp only [l1Index_eq, l2Index_eq, blockSize] at *
  omega

/-- A leaf of `vmm.c` translates an address of its range. -/
theorem translate_leaf {kind shift : Nat} (isKind : kind = ptPage ∨ kind = ptBlock)
    (isShift : shift = 12 ∨ shift = 21) (page : PageAddress phys)
    (physAligned : phys % 2 ^ shift = 0) (virtAligned : virt % 2 ^ shift = 0)
    (inside : virt ≤ address ∧ address < virt + 2 ^ shift)
    (isLeaf : s.leaf address = some ⟨shift, leafEntry kind phys flags⟩) :
    s.translate address = some (phys + (address - virt), requested flags) := by
  have offset : address % 2 ^ shift = address - virt := by
    rcases isShift with rfl | rfl <;> omega
  unfold State.translate
  rw [isLeaf, Option.map_some, attributes_leafEntry flags page isKind]
  unfold Leaf.address
  dsimp only
  rw [outputAddress_leafEntry flags page isKind isShift physAligned, offset]

theorem mapPage_range (consistent : Pmm.Consistent start)
    (tables : HasTables start s) (page : PageAddress phys)
    (virtAligned : virt % pageSize = 0) (virtSmall : virt < 2 ^ 39)
    (noBlock : ¬ s.HoldsBlock virt) (allocates : PageAllocates virt s) :
    MapsRange start s (vmmMapPage virt phys flags s) virt phys pageSize flags := by
  have maps : Maps start s (vmmMapPage virt phys flags s) _ :=
    vmmMapPage_maps consistent tables page noBlock allocates
  refine ⟨maps.tables, maps.after, maps.rootTable, ?_, ?_, maps.memory⟩
  · intro address small
    have leaf := maps.leaf address
    have isInside := samePage_iff virtAligned virtSmall small
    by_cases inside : virt ≤ address ∧ address < virt + pageSize
    · rw [if_pos (isInside.mpr inside)] at leaf
      rw [AddressSpace.map_inside _ inside.1 inside.2]
      exact translate_leaf (Or.inl rfl) (Or.inl rfl) page page.aligned virtAligned inside leaf
    · rw [if_neg fun same => inside (isInside.mp same)] at leaf
      unfold AddressSpace.map
      rw [if_neg inside, State.translate, leaf]
      rfl
  · intro address small isBlock
    left
    unfold State.HoldsBlock at isBlock ⊢
    rw [maps.leaf] at isBlock
    split at isBlock
    · cases isBlock
    · exact isBlock

theorem mapBlock_range (consistent : Pmm.Consistent start)
    (tables : HasTables start s) (page : PageAddress phys)
    (virtAligned : virt % blockSize = 0) (physAligned : phys % blockSize = 0)
    (virtSmall : virt < 2 ^ 39) (allocates : BlockAllocates virt s) :
    MapsRange start s (vmmMapBlock virt phys flags s) virt phys blockSize flags := by
  have maps : Maps start s (vmmMapBlock virt phys flags s) _ :=
    vmmMapBlock_maps consistent tables page allocates
  refine ⟨maps.tables, maps.after, maps.rootTable, ?_, ?_, maps.memory⟩
  · intro address small
    have leaf := maps.leaf address
    have isInside := sameBlock_iff virtAligned virtSmall small
    by_cases inside : virt ≤ address ∧ address < virt + blockSize
    · rw [if_pos (isInside.mpr inside)] at leaf
      rw [AddressSpace.map_inside _ inside.1 inside.2]
      exact translate_leaf (Or.inr rfl) (Or.inr rfl) page physAligned virtAligned inside leaf
    · rw [if_neg fun same => inside (isInside.mp same)] at leaf
      unfold AddressSpace.map
      rw [if_neg inside, State.translate, leaf]
      rfl
  · intro address small isBlock
    unfold State.HoldsBlock at isBlock ⊢
    rw [maps.leaf] at isBlock
    split at isBlock
    · next same =>
        have inside := (sameBlock_iff virtAligned virtSmall small).mp same
        right
        unfold SlotInside
        simp only [blockSize] at *
        omega
    · exact Or.inl isBlock

/-! ### Mapping a region -/

/-- A call of `vmm_map_region`. -/
structure MapCall where
  virt : Nat
  phys : Nat
  size : Nat
  flags : Nat
deriving DecidableEq, Repr

namespace MapCall

/-- The arguments are page aligned, and the addresses have 39 and 48 bits. -/
structure Valid (call : MapCall) : Prop where
  virtAligned : call.virt % pageSize = 0
  physAligned : call.phys % pageSize = 0
  sizeAligned : call.size % pageSize = 0
  virtSmall : call.virt + call.size ≤ 2 ^ 39
  physSmall : call.phys + call.size ≤ 2 ^ 48

def chunks (call : MapCall) : List Chunk := chunksFrom call.virt call.phys call.size 0

/-- No call of `pmm_alloc_frame` fails. -/
def Allocates (call : MapCall) (s : State) : Prop := AllAllocate call.flags call.chunks s

/-- What the call does. -/
def run (call : MapCall) (s : State) : State :=
  vmmMapRegion call.virt call.phys call.size call.flags s

end MapCall

/-- No page of the list lies in a slot that holds a block. -/
def PagesMissBlocks (chunks : List Chunk) (s : State) : Prop :=
  ∀ virt phys, .page virt phys ∈ chunks → ¬ s.HoldsBlock virt

theorem chunk_bounds {v p : Nat} (noWrap : virt + size ≤ 2 ^ 39)
    (mappedAligned : mapped % pageSize = 0)
    (member : Chunk.page v p ∈ chunksFrom virt phys size mapped) :
    virt + mapped ≤ v ∧ v < virt + size := by
  induction mapped using chunksFrom.induct virt phys size with
  | case1 mapped more isBlock inductionHypothesis =>
      rw [chunksFrom, if_pos more, if_pos isBlock] at member
      rcases List.mem_cons.mp member with same | later
      · cases same
      · have bounds := inductionHypothesis (by simp only [blockSize, pageSize] at *; omega) later
        simp only [blockSize] at bounds
        omega
  | case2 mapped more notBlock inductionHypothesis =>
      rw [chunksFrom, if_pos more, if_neg notBlock] at member
      rcases List.mem_cons.mp member with same | later
      · rw [(Chunk.page.inj same).1, u64_of_lt (by omega)]
        omega
      · have bounds := inductionHypothesis (by simp only [pageSize] at *; omega) later
        simp only [pageSize] at bounds
        omega
  | case3 mapped done =>
      rw [chunksFrom, if_neg done] at member
      cases member

/-- The loop maps the rest of the region, if no page of it lies in the slot of a
block. -/
theorem mapFrom_range {call : MapCall} (valid : call.Valid) (consistent : Pmm.Consistent start)
    (tables : HasTables start s) (mappedAligned : mapped % pageSize = 0)
    (inside : mapped ≤ call.size)
    (missBlocks : PagesMissBlocks (chunksFrom call.virt call.phys call.size mapped) s)
    (allocates : AllAllocate call.flags (chunksFrom call.virt call.phys call.size mapped) s) :
    MapsRange start s (mapFrom call.virt call.phys call.size call.flags mapped s)
      (call.virt + mapped) (call.phys + mapped) (call.size - mapped) call.flags := by
  have virtAligned := valid.virtAligned
  have physAligned := valid.physAligned
  have sizeAligned := valid.sizeAligned
  have virtSmall := valid.virtSmall
  have physSmall := valid.physSmall
  induction mapped, s using mapFrom.induct call.virt call.phys call.size call.flags with
  | case1 mapped s more isBlock inductionHypothesis =>
      rw [chunksFrom, if_pos more, if_pos isBlock] at missBlocks allocates
      rw [mapFrom, if_pos more, if_pos isBlock]
      have virtExact : u64 (call.virt + mapped) = call.virt + mapped := u64_of_lt (by omega)
      have physExact : u64 (call.phys + mapped) = call.phys + mapped := u64_of_lt (by omega)
      rw [virtExact, physExact] at missBlocks allocates isBlock inductionHypothesis ⊢
      rcases isBlock with ⟨virtBlock, physBlock, room⟩
      rcases allAllocate_cons.mp allocates with ⟨allocatesNow, allocatesLater⟩
      have page : PageAddress (call.phys + mapped) :=
        ⟨by simp only [pageSize] at *; omega, by omega⟩
      have first : MapsRange start s (vmmMapBlock _ _ call.flags s) _ _ blockSize call.flags :=
        mapBlock_range consistent tables page virtBlock physBlock (by omega) allocatesNow
      have nextAligned : (mapped + blockSize) % pageSize = 0 := by
        simp only [blockSize, pageSize] at *
        omega
      have rest := inductionHypothesis first.tables nextAligned
        (by simp only [blockSize] at *; omega) (by
          intro v p member isBlock
          have bounds := chunk_bounds virtSmall nextAligned member
          rcases first.blocks v (by omega) isBlock with before | ⟨above, below⟩
          · exact missBlocks v p (List.mem_cons_of_mem _ member) before
          · simp only [blockSize] at *
            omega) allocatesLater
      rw [← Nat.add_assoc, ← Nat.add_assoc] at rest
      have both := first.append rest
      rw [show blockSize + (call.size - (mapped + blockSize)) = call.size - mapped by
        simp only [blockSize] at *; omega] at both
      exact both
  | case2 mapped s more notBlock inductionHypothesis =>
      rw [chunksFrom, if_pos more, if_neg notBlock] at missBlocks allocates
      rw [mapFrom, if_pos more, if_neg notBlock]
      have virtExact : u64 (call.virt + mapped) = call.virt + mapped := u64_of_lt (by omega)
      have physExact : u64 (call.phys + mapped) = call.phys + mapped := u64_of_lt (by omega)
      rw [virtExact, physExact] at missBlocks allocates inductionHypothesis ⊢
      rcases allAllocate_cons.mp allocates with ⟨allocatesNow, allocatesLater⟩
      have room : mapped + pageSize ≤ call.size := by
        simp only [pageSize] at *
        omega
      have page : PageAddress (call.phys + mapped) :=
        ⟨by simp only [pageSize] at *; omega, by omega⟩
      have first : MapsRange start s (vmmMapPage _ _ call.flags s) _ _ pageSize call.flags :=
        mapPage_range consistent tables page (by simp only [pageSize] at *; omega) (by omega)
          (missBlocks _ _ List.mem_cons_self) allocatesNow
      have nextAligned : (mapped + pageSize) % pageSize = 0 := by
        simp only [pageSize] at *
        omega
      have rest := inductionHypothesis first.tables nextAligned room (by
        intro v p member isBlock
        have bounds := chunk_bounds virtSmall nextAligned member
        rcases first.blocks v (by omega) isBlock with before | ⟨above, below⟩
        · exact missBlocks v p (List.mem_cons_of_mem _ member) before
        · simp only [blockSize, pageSize] at *
          omega) allocatesLater
      rw [← Nat.add_assoc, ← Nat.add_assoc] at rest
      have both := first.append rest
      rw [show pageSize + (call.size - (mapped + pageSize)) = call.size - mapped by
        omega] at both
      exact both
  | case3 mapped s done =>
      rw [mapFrom, if_neg done, show call.size - mapped = 0 by omega]
      exact MapsRange.nothing tables

/-- `vmm_map_region` maps its region, if no page of it lies in the slot of a block. -/
theorem MapCall.Valid.maps {call : MapCall} (valid : call.Valid) (consistent : Pmm.Consistent start)
    (tables : HasTables start s) (missBlocks : PagesMissBlocks call.chunks s)
    (allocates : call.Allocates s) :
    MapsRange start s (call.run s) call.virt call.phys call.size call.flags :=
  mapFrom_range valid consistent tables rfl (Nat.zero_le _) missBlocks allocates

/-! ### The empty tables -/

/-- The tree of `init_vmm` before its first region. -/
def rootOnly (rootTable : Nat) (id : TableId) : Option Nat :=
  if id = .root then some rootTable else none

theorem setupRoot_tables {boot : State} (consistent : Pmm.Consistent boot.pmm)
    (rooted : (pmmAllocFrame boot.pmm).1 ≠ 0) :
    TablesOk boot.pmm (setupRoot boot) (rootOnly (setupRoot boot).rootTable) := by
  have pops := (Drawn.refl boot.pmm).pmmAllocFrame consistent rooted
  have page := pageAddress_of_popped consistent pops.popped
  have isRoot : ∀ {id frame}, rootOnly (setupRoot boot).rootTable id = some frame →
      id = .root ∧ frame = (setupRoot boot).rootTable := by
    intro id frame isTable
    unfold rootOnly at isTable
    split at isTable
    · next same => exact ⟨same, (Option.some.inj isTable).symm⟩
    · cases isTable
  exact {
    drawn := pops.drawn
    root := if_pos rfl
    popped := by
      intro id frame isTable
      rw [(isRoot isTable).2]
      exact pops.popped
    distinct := fun id id' frame first second => (isRoot first).1.trans (isRoot second).1.symm
    nested := fun _ _ _ => rfl
    l1Table := nofun
    l1Empty := by
      intro i small _
      exact (entry_zeroPage page.aligned page.aligned small).trans (if_pos rfl)
    l2Table := nofun
    l2Block := nofun }

/-- Nothing is mapped at first. -/
theorem setupRoot_leaf {boot : State} (consistent : Pmm.Consistent boot.pmm)
    (rooted : (pmmAllocFrame boot.pmm).1 ≠ 0) (virt : Nat) : (setupRoot boot).leaf virt = none :=
  (setupRoot_tables consistent rooted).leaf_eq consistent virt

/-! ### Runs of calls -/

/-- A call of `vmm_map_region` with arguments as asked for, in which
`pmm_alloc_frame` does not fail. -/
inductive MapStep : State → MapCall → State → Prop where
  | call {s : State} {call : MapCall} (valid : call.Valid) (allocates : call.Allocates s) :
      MapStep s call (call.run s)

/-- A call maps its region as asked for, changes no other translation below
2^39, and no memory other than the page-table frames popped since `start`. -/
structure RegionOk (start : Pmm.State) (transition : Transition State MapCall) : Prop where
  inside : ∀ address, transition.label.virt ≤ address →
    address < transition.label.virt + transition.label.size →
    transition.target.translate address =
      some (transition.label.phys + (address - transition.label.virt),
        requested transition.label.flags)
  outside : ∀ address < 2 ^ 39, address < transition.label.virt ∨
    transition.label.virt + transition.label.size ≤ address →
    transition.target.translate address = transition.source.translate address
  memory : KeepsMemory start transition.source transition.target

theorem MapsRange.regionOk {call : MapCall} (valid : call.Valid)
    (maps : MapsRange start s s' call.virt call.phys call.size call.flags) :
    RegionOk start ⟨s, call, s'⟩ where
  inside := by
    intro address above below
    have virtSmall := valid.virtSmall
    dsimp only at above below ⊢
    rw [maps.translate address (by omega), AddressSpace.map_inside _ above below]
  outside := by
    intro address small outside
    dsimp only at outside ⊢
    rw [maps.translate address small, AddressSpace.map_outside _ outside]
  memory := maps.memory

/-- In every sequence of calls in which no page is mapped into a slot that holds
a block, each call maps its region and changes nothing else. -/
theorem regions_mapped {boot last : State} {path : List (Transition State MapCall)}
    (consistent : Pmm.Consistent boot.pmm) (rooted : (pmmAllocFrame boot.pmm).1 ≠ 0)
    (run : Execution MapStep (setupRoot boot) path last)
    (missBlocks : ∀ transition ∈ path,
      PagesMissBlocks transition.label.chunks transition.source) :
    ∀ transition ∈ path, RegionOk boot.pmm transition := by
  have keeps : ∀ source label target, HasTables boot.pmm source → MapStep source label target →
      PagesMissBlocks label.chunks source → HasTables boot.pmm target := by
    intro source label target tables taken misses
    cases taken with
    | call valid allocates => exact (valid.maps consistent tables misses allocates).tables
  have first : HasTables boot.pmm (setupRoot boot) := ⟨_, setupRoot_tables consistent rooted⟩
  have tables := run.invariant_at_transition
    (fun transition => PagesMissBlocks transition.label.chunks transition.source) first keeps
    missBlocks
  intro transition member
  have taken := run.step_of_mem member
  have misses := missBlocks transition member
  have before := (tables transition member).1
  rcases transition with ⟨source, label, target⟩
  dsimp only at taken misses before
  cases taken with
  | call valid allocates =>
      exact (valid.maps consistent before misses allocates).regionOk valid

/-! ### Concrete calls -/

instance (table idx : Nat) (s : State) : Decidable (NextAllocates table idx s) :=
  inferInstanceAs (Decidable (_ → _))

instance (virt : Nat) (s : State) : Decidable (PageAllocates virt s) :=
  inferInstanceAs (Decidable (_ ∧ _))

instance (virt : Nat) (s : State) : Decidable (BlockAllocates virt s) :=
  inferInstanceAs (Decidable (NextAllocates _ _ s))

instance (s : State) : (chunk : Chunk) → Decidable (chunk.Allocates s)
  | .page virt _ => inferInstanceAs (Decidable (PageAllocates virt s))
  | .block virt _ => inferInstanceAs (Decidable (BlockAllocates virt s))

instance AllAllocate.decidable (flags : Nat) :
    (chunks : List Chunk) → (s : State) → Decidable (AllAllocate flags chunks s)
  | [], _ => isTrue trivial
  | chunk :: rest, s =>
      have := AllAllocate.decidable flags rest (chunk.map flags s)
      inferInstanceAs (Decidable (chunk.Allocates s ∧ AllAllocate flags rest (chunk.map flags s)))

theorem MapCall.run_eq (call : MapCall) (s : State) :
    call.run s = mapChunks call.flags call.chunks s :=
  mapFrom_eq ..

/-- A call for one page. -/
theorem MapCall.chunks_page {call : MapCall} (valid : call.Valid) (isPage : call.size = pageSize) :
    call.chunks = [.page call.virt call.phys] := by
  have virtSmall := valid.virtSmall
  have physSmall := valid.physSmall
  simp only [pageSize] at isPage
  rw [MapCall.chunks, chunksFrom, if_pos (by omega), if_neg (by simp only [blockSize]; omega),
    u64_of_lt (by omega), u64_of_lt (by omega), chunksFrom, if_neg (by simp only [pageSize]; omega)]
  rfl

/-- A call for one block. -/
theorem MapCall.chunks_block {call : MapCall} (valid : call.Valid) (isBlock : call.size = blockSize)
    (virtAligned : call.virt % blockSize = 0) (physAligned : call.phys % blockSize = 0) :
    call.chunks = [.block call.virt call.phys] := by
  have virtSmall := valid.virtSmall
  have physSmall := valid.physSmall
  have virtExact : u64 (call.virt + 0) = call.virt := u64_of_lt (by omega)
  have physExact : u64 (call.phys + 0) = call.phys := u64_of_lt (by omega)
  have more : 0 < call.size := by
    rw [isBlock]
    decide
  rw [MapCall.chunks, chunksFrom, if_pos more, virtExact, physExact,
    if_pos ⟨virtAligned, physAligned, Nat.le_of_eq isBlock.symm⟩, chunksFrom, if_neg]
  rw [isBlock]
  decide

/-- Memory and registers of zeros. -/
def State.zero (pmm : Pmm.State) : State := ⟨fun _ => 0, pmm, 0, 0, false, 0, 0, 0, 0, 0⟩

/-- Sixteen pages of RAM, with the kernel in the first. -/
def smallBoot : State := State.zero (Pmm.pmmInit 0x40001000 0x10000 Pmm.State.zero)

theorem smallBoot_consistent : Pmm.Consistent smallBoot.pmm :=
  Pmm.pmmInit_consistent ⟨by decide, by decide, by decide, by decide, by decide⟩

/-- 2 MiB of RAM are mapped as a block. -/
def blockCall : MapCall := ⟨0x40000000, 0x40000000, blockSize, vmWritable⟩

/-- The page of the UART. -/
def uartCall : MapCall := ⟨0x09000000, 0x09000000, pageSize, vmWritable ||| vmDevice⟩

/-- A page inside the block, to be mapped elsewhere. -/
def insideCall : MapCall := ⟨0x40001000, 0x40300000, pageSize, vmWritable⟩

theorem blockCall_valid : blockCall.Valid := by constructor <;> decide

theorem uartCall_valid : uartCall.Valid := by constructor <;> decide

theorem insideCall_valid : insideCall.Valid := by constructor <;> decide

theorem blockCall_chunks : blockCall.chunks = [.block 0x40000000 0x40000000] :=
  MapCall.chunks_block blockCall_valid rfl (by decide) (by decide)

theorem uartCall_chunks : uartCall.chunks = [.page 0x09000000 0x09000000] :=
  MapCall.chunks_page uartCall_valid rfl

theorem insideCall_chunks : insideCall.chunks = [.page 0x40001000 0x40300000] :=
  MapCall.chunks_page insideCall_valid rfl

theorem blockCall_taken : MapStep (setupRoot smallBoot) blockCall (blockCall.run (setupRoot smallBoot)) := by
  apply MapStep.call blockCall_valid
  rw [MapCall.Allocates, blockCall_chunks]
  decide +kernel

/-- A block of RAM and then a page of device memory. -/
theorem regions_mapped_block_and_page : ∃ path last,
    Execution MapStep (setupRoot smallBoot) path last ∧ path.length = 2 ∧
      last.translate 0x40001234 = some (0x40001234, requested vmWritable) ∧
      ∀ transition ∈ path, RegionOk smallBoot.pmm transition := by
  have second : MapStep (blockCall.run (setupRoot smallBoot)) uartCall
      (uartCall.run (blockCall.run (setupRoot smallBoot))) := by
    apply MapStep.call uartCall_valid
    rw [MapCall.Allocates, MapCall.run_eq, uartCall_chunks, blockCall_chunks]
    decide +kernel
  have run := (Execution.single blockCall_taken).snoc second
  refine ⟨_, _, run, rfl, ?_, regions_mapped smallBoot_consistent (by decide +kernel) run ?_⟩
  · rw [MapCall.run_eq, MapCall.run_eq, uartCall_chunks, blockCall_chunks]
    decide +kernel
  · intro transition member virt phys isPage
    rcases List.mem_append.mp member with isFirst | isSecond
    · rw [List.mem_singleton.mp isFirst] at isPage
      dsimp only at isPage
      rw [blockCall_chunks] at isPage
      cases List.mem_singleton.mp isPage
    · rw [List.mem_singleton.mp isSecond] at isPage ⊢
      dsimp only at isPage ⊢
      rw [uartCall_chunks] at isPage
      rw [(Chunk.page.inj (List.mem_singleton.mp isPage)).1, MapCall.run_eq, blockCall_chunks]
      decide +kernel

/-- A page mapped into the block: its address is still translated by the block,
and the page's descriptor is written into the RAM that the block maps. -/
theorem exists_page_in_block : ∃ path last,
    Execution MapStep (setupRoot smallBoot) path last ∧
    ∃ transition ∈ path, transition.label = insideCall ∧
      transition.target.translate 0x40001000 = some (0x40001000, requested vmWritable) ∧
      transition.source.mem 0x40000008 ≠ transition.target.mem 0x40000008 ∧
      (∀ frame, Popped smallBoot.pmm transition.target.pmm frame → ¬ Pmm.InPage frame 0x40000008) ∧
      ¬ RegionOk smallBoot.pmm transition := by
  have second : MapStep (blockCall.run (setupRoot smallBoot)) insideCall
      (insideCall.run (blockCall.run (setupRoot smallBoot))) := by
    apply MapStep.call insideCall_valid
    rw [MapCall.Allocates, MapCall.run_eq, insideCall_chunks, blockCall_chunks]
    decide +kernel
  have stays : (insideCall.run (blockCall.run (setupRoot smallBoot))).translate 0x40001000 =
      some (0x40001000, requested vmWritable) := by
    rw [MapCall.run_eq, MapCall.run_eq, insideCall_chunks, blockCall_chunks]
    decide +kernel
  have written : (blockCall.run (setupRoot smallBoot)).mem 0x40000008 ≠
      (insideCall.run (blockCall.run (setupRoot smallBoot))).mem 0x40000008 := by
    rw [MapCall.run_eq, MapCall.run_eq, insideCall_chunks, blockCall_chunks]
    decide +kernel
  have notTable : ∀ position < smallBoot.pmm.stackTop,
      ¬ (Pmm.indexToPhys (smallBoot.pmm.frameStack position) ≤ 0x40000008 ∧
        0x40000008 < Pmm.indexToPhys (smallBoot.pmm.frameStack position) + pageSize) := by
    decide +kernel
  refine ⟨_, _, (Execution.single blockCall_taken).snoc second, _,
    List.mem_append_right _ (List.mem_singleton_self _), rfl, stays, written, ?_, ?_⟩
  · rintro frame ⟨position, -, inStack, rfl⟩
    exact notTable position inStack
  · intro ok
    have inside := ok.inside 0x40001000 (by decide) (by decide)
    rw [stays] at inside
    exact absurd inside (by decide)

end UniKernel.Vmm
