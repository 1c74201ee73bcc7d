import UniKernel.Pmm.Model

/-!
Owns the page-table builder of `src/vmm.c` and the constants of
`include/vmm.h`: the walk that allocates missing tables, the 4 KiB page and
2 MiB block mappers, the region mapper and `init_vmm`.

Page tables are 64-bit words of physical memory, addressed by the byte address
of the word; before paging is on and afterwards (identity mapping) a table's
physical address is its pointer. The system registers `init_vmm` writes are
fields of the state.
-/

namespace UniKernel.Vmm

open UniKernel.Lib
open UniKernel.Pmm (pageSize phyRamBase pmmAllocFrame)

@[simp] def ptValid : Nat := 1 <<< 0
@[simp] def ptTable : Nat := 1 <<< 1
@[simp] def ptPage : Nat := 1 <<< 1
@[simp] def ptBlock : Nat := 0 <<< 1
@[simp] def ptAf : Nat := 1 <<< 10
@[simp] def ptShInner : Nat := 3 <<< 8
@[simp] def ptApRwEl1 : Nat := 0 <<< 6
@[simp] def ptApRoEl1 : Nat := 2 <<< 6
@[simp] def ptPxn : Nat := 1 <<< 53
@[simp] def ptUxn : Nat := 1 <<< 54
@[simp] def mtDeviceNGnRnE : Nat := 0
@[simp] def mtNormal : Nat := 1
@[simp] def vmWritable : Nat := 1 <<< 0
@[simp] def vmNoExec : Nat := 1 <<< 2
@[simp] def vmDevice : Nat := 1 <<< 3

/-- `BLOCK_SIZE`, `1 << 21` -/
@[simp] def blockSize : Nat := 0x200000

/-- Physical memory as 64-bit words, the frame allocator, the variables of
`vmm.c` and the registers `init_vmm` writes. -/
structure State where
  mem : Nat → Nat
  pmm : Pmm.State
  rootTable : Nat
  rootPhys : Nat
  pagingEnabled : Bool
  mair : Nat
  tcr : Nat
  ttbr0 : Nat
  ttbr1 : Nat
  sctlr : Nat

/-- `table[idx]` -/
def State.entry (s : State) (table idx : Nat) : Nat := s.mem (table + 8 * idx)

/-- `table[idx] = value;` -/
def State.setEntry (s : State) (table idx value : Nat) : State :=
  { s with mem := Function.update s.mem (table + 8 * idx) value }

/-- `memset(page, 0, PAGE_SIZE)` -/
def State.zeroPage (s : State) (page : Nat) : State :=
  { s with mem := fun addr => if page ≤ addr ∧ addr < page + pageSize then 0 else s.mem addr }

/-- The next table, or 0 (NULL) when no frame is left. -/
def getNextTable (table idx : Nat) (s : State) : Nat × State :=
  if s.entry table idx &&& ptValid ≠ 0 then
    (s.entry table idx &&& 0x0000FFFFFFFFF000, s)
  else
    let (newTablePhys, pmm) := pmmAllocFrame s.pmm
    let s := { s with pmm := pmm }
    if newTablePhys = 0 then (0, s)
    else
      let s := s.zeroPage newTablePhys
      (newTablePhys, s.setEntry table idx (newTablePhys ||| ptTable ||| ptValid))

/-- The descriptor both mappers build; `kind` is `PT_PAGE` or `PT_BLOCK`. -/
def leafEntry (kind phys flags : Nat) : Nat :=
  let entry := phys ||| kind ||| ptValid ||| ptAf ||| ptShInner
  let entry :=
    if flags &&& vmDevice ≠ 0 then entry ||| (ptPxn ||| ptUxn) else entry ||| (mtNormal <<< 2)
  let entry := entry ||| ptUxn
  let entry := if flags &&& vmWritable ≠ 0 then entry ||| ptApRwEl1 else entry ||| ptApRoEl1
  if flags &&& vmNoExec ≠ 0 then entry ||| ptPxn else entry

def l1Index (virt : Nat) : Nat := (virt >>> 30) &&& 0x1FF

def l2Index (virt : Nat) : Nat := (virt >>> 21) &&& 0x1FF

def l3Index (virt : Nat) : Nat := (virt >>> 12) &&& 0x1FF

def vmmMapPage (virt phys flags : Nat) (s : State) : State :=
  let (l2Table, s) := getNextTable s.rootTable (l1Index virt) s
  if l2Table = 0 then s
  else
    let (l3Table, s) := getNextTable l2Table (l2Index virt) s
    if l3Table = 0 then s
    else s.setEntry l3Table (l3Index virt) (leafEntry ptPage phys flags)

def vmmMapBlock (virt phys flags : Nat) (s : State) : State :=
  let (l2Table, s) := getNextTable s.rootTable (l1Index virt) s
  if l2Table = 0 then s
  else s.setEntry l2Table (l2Index virt) (leafEntry ptBlock phys flags)

/-- The loop of `vmm_map_region` from `mapped` on. -/
def mapFrom (virt phys size flags mapped : Nat) (s : State) : State :=
  if mapped < size then
    if u64 (virt + mapped) % blockSize = 0 ∧ u64 (phys + mapped) % blockSize = 0 ∧
        size - mapped ≥ blockSize then
      mapFrom virt phys size flags (mapped + blockSize)
        (vmmMapBlock (u64 (virt + mapped)) (u64 (phys + mapped)) flags s)
    else
      mapFrom virt phys size flags (mapped + pageSize)
        (vmmMapPage (u64 (virt + mapped)) (u64 (phys + mapped)) flags s)
  else s
termination_by size - mapped
decreasing_by
  all_goals simp only [blockSize, pageSize] at *; omega

def vmmMapRegion (virt phys size flags : Nat) (s : State) : State :=
  mapFrom virt phys size flags 0 s

/-- The six regions of `init_vmm` as (start, size, flags), in order; each is
mapped to itself. -/
def bootRegions (kernelEnd phyRamSize : Nat) : List (Nat × Nat × Nat) :=
  [ (0x40000000, u64 (2 ^ 64 - 0x40000000 + kernelEnd), vmWritable),
    (phyRamBase, phyRamSize, vmWritable),
    (0x50000000, 8 * 1024 * 1024, vmWritable),
    (0x09000000, 1024 * 1024, vmWritable ||| vmDevice),
    (0x0a000000, 1024 * 1024, vmWritable ||| vmDevice),
    (0x08000000, 1024 * 1024, vmWritable ||| vmDevice) ]

def mapRegions (regions : List (Nat × Nat × Nat)) (s : State) : State :=
  regions.foldl (fun s region => vmmMapRegion region.1 region.1 region.2.1 region.2.2 s) s

/-- The first half of `init_vmm`: allocate and clear the root table, set the
memory attribute and translation control registers. -/
def setupRoot (s : State) : State :=
  let (rootPhys, pmm) := pmmAllocFrame s.pmm
  let s := { s with pmm := pmm, rootPhys := rootPhys }
  let s := s.zeroPage rootPhys
  { s with
    rootTable := rootPhys
    mair := (0x00 <<< (8 * mtDeviceNGnRnE)) ||| (0xFF <<< (8 * mtNormal))
    tcr := (25 <<< 0) ||| (0 <<< 14) ||| (2 <<< 32) ||| (25 <<< 16) ||| (2 <<< 30) }

/-- The end of `init_vmm`: install the root table and turn on the MMU. -/
def enablePaging (s : State) : State :=
  { s with
    ttbr0 := s.rootPhys
    ttbr1 := s.rootPhys
    sctlr := s.sctlr ||| (1 <<< 0) ||| (1 <<< 2) ||| (1 <<< 12)
    pagingEnabled := true }

def initVmm (kernelEnd : Nat) (s : State) : State :=
  let s := setupRoot s
  enablePaging (mapRegions (bootRegions kernelEnd s.pmm.phyRamSize) s)

end UniKernel.Vmm
