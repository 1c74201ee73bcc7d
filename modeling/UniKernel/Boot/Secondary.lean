import UniKernel.Lib.SystemCode

/-!
Owns the start of the second core: what `main` writes to `struct secondary_boot_data`, and
`secondary_entry` in `src/boot.S`, which takes the translation of the first core from there.
-/

namespace UniKernel.Boot

open UniKernel.Lib
open Processor (Loaded fetchFrom steps_block steps_one steps_trans loaded_append)

/-! ### `main.c` -/

/-- The fields of `struct secondary_boot_data`. -/
inductive BootField where
  | stackPointer | ttbr | tcr | mair | entryPoint
deriving DecidableEq, Repr

/-- The fields in the order of the declaration. -/
def secondaryBootData : List BootField := [.stackPointer, .ttbr, .tcr, .mair, .entryPoint]

/-- All are `uint64_t`. -/
def BootField.size (_ : BootField) : Nat := 8

/-- `offsetof(struct secondary_boot_data, field)` -/
def BootField.offset (field : BootField) : Nat := fieldOffset BootField.size field 0 secondaryBootData

/-- What `main` writes on the first core: the end of the stack it allocated at `core1Stack`,
its own translation, and the address of `core_entry`. -/
def BootField.value (core0 : SystemCore) (core1Stack coreEntry : BitVec 64) : BootField → BitVec 64
  | .stackPointer => core1Stack + .ofNat 64 (4096 * 4)
  | .ttbr => core0.sys .ttbr1El1
  | .tcr => core0.sys .tcrEl1
  | .mair => core0.sys .mairEl1
  | .entryPoint => coreEntry

/-- The stores of `main`, in the order of the declaration. -/
def bootDataSlots (core0 : SystemCore) (core1Stack coreEntry : BitVec 64) : List Slot :=
  secondaryBootData.map fun field =>
    ⟨field.offset, field.size, (field.value core0 core1Stack coreEntry).toNat⟩

/-! ### `boot.S` -/

/-- `secondary_entry` up to its branch, with the address of the boot data in x0. -/
def secondarySetUp : List SystemInstr :=
  [.cpu (.ldr 1 0 0), .cpu (.movToSp 1),
    .mrs 1 .cpacrEl1, .orr 1 1 (3 <<< 20), .msr .cpacrEl1 1, .isb,
    .cpu (.ldr 1 0 8), .msr .ttbr0El1 1, .msr .ttbr1El1 1,
    .cpu (.ldr 1 0 24), .msr .mairEl1 1,
    .cpu (.ldr 1 0 16), .msr .tcrEl1 1, .isb,
    .mrs 1 .sctlrEl1, .orr 1 1 1, .orr 1 1 (1 <<< 2), .orr 1 1 (1 <<< 12), .msr .sctlrEl1 1, .isb,
    .cpu (.ldr 1 0 32)]

def secondaryEntry : List SystemInstr := secondarySetUp ++ [.br 1]

/-- `core'` enters `core_entry` on its own stack with the translation of `core0`. The MMU,
the caches and floating point are on; the vectors and the interrupt masks are as the
firmware left them. -/
structure SecondaryStarted (core0 core core' : SystemCore) (core1Stack coreEntry : BitVec 64) :
    Prop where
  pc : core'.pc = coreEntry
  sp : core'.sp = core1Stack + .ofNat 64 (4096 * 4)
  ttbr0 : core'.sys .ttbr0El1 = core0.sys .ttbr1El1
  ttbr1 : core'.sys .ttbr1El1 = core0.sys .ttbr1El1
  tcr : core'.sys .tcrEl1 = core0.sys .tcrEl1
  mair : core'.sys .mairEl1 = core0.sys .mairEl1
  mmuOn : core'.sys .sctlrEl1 = core.sys .sctlrEl1 ||| 1 ||| 1 <<< 2 ||| 1 <<< 12
  floatingPoint : core'.sys .cpacrEl1 = core.sys .cpacrEl1 ||| 3 <<< 20
  vectors : core'.sys .vbarEl1 = core.sys .vbarEl1
  interrupts : core'.pstate = core.pstate
  mem : core'.mem = core.mem

/-! ### The run -/

variable {fetch : BitVec 64 → Option SystemInstr} {core core0 : SystemCore}
  {core1Stack coreEntry : BitVec 64} {bootData : Nat} {mem : Memory}

theorem bootDataSlots_apart : (bootDataSlots core0 core1Stack coreEntry).Pairwise Slot.Apart :=
  List.pairwise_map.mpr (by decide : secondaryBootData.Pairwise fun first second =>
    first.offset + first.size ≤ second.offset ∨ second.offset + second.size ≤ first.offset)

/-- The second core loads each field as the first core stored it. -/
theorem load_bootData (written : core.mem =
      Memory.storeSlots bootData (bootDataSlots core0 core1Stack coreEntry) mem)
    (arg : core.x 0 = .ofNat 64 bootData) (room : bootData + 40 ≤ 2 ^ 64) (field : BootField) :
    BitVec.ofNat 64 (core.mem.load (core.address 0 field.offset) 8) =
      field.value core0 core1Stack coreEntry := by
  have offset : field.offset + 8 ≤ 40 := by cases field <;> decide
  have place : core.address 0 field.offset = bootData + field.offset := by
    rw [Cpu.address, arg, ← BitVec.ofNat_add, BitVec.toNat_ofNat, Nat.mod_eq_of_lt (by omega)]
  have member : ⟨field.offset, field.size, (field.value core0 core1Stack coreEntry).toNat⟩ ∈
      bootDataSlots core0 core1Stack coreEntry :=
    List.mem_map.mpr ⟨field, by cases field <;> decide, rfl⟩
  have whole : core.mem.load (bootData + field.offset) 8 =
      (field.value core0 core1Stack coreEntry).toNat := by
    rw [written]
    exact (Memory.load_storeSlots bootDataSlots_apart member).trans
      (Nat.mod_eq_of_lt (BitVec.isLt _))
  rw [place, whole, BitVec.ofNat_toNat, BitVec.setWidth_eq]

/-- The second core comes to `core_entry` with the translation that the first core had when
it wrote the boot data. -/
theorem secondary_shares_translation
    (loaded : Loaded fetch core.pc secondaryEntry) (arg : core.x 0 = .ofNat 64 bootData)
    (room : bootData + 40 ≤ 2 ^ 64)
    (written : core.mem =
      Memory.storeSlots bootData (bootDataSlots core0 core1Stack coreEntry) mem) :
    ∃ core', SystemCore.processor.steps fetch secondaryEntry.length core = some core' ∧
      SecondaryStarted core0 core core' core1Stack coreEntry := by
  have load := load_bootData written arg room
  rw [secondaryEntry, loaded_append] at loaded
  obtain ⟨runs, ends⟩ :=
    steps_block (SystemInstr.straight_of_all (by decide)) loaded.1
  have isBranch : fetch (SystemCore.processor.pc
      (SystemCore.processor.execAll core secondarySetUp)) = some (.br 1) := by
    rw [ends]
    exact loaded.2.1
  exact ⟨_, steps_trans runs (steps_one isBranch), load .entryPoint, load .stackPointer,
    load .ttbr, load .ttbr, load .tcr, load .mair, rfl, rfl, rfl, rfl, rfl⟩

/-- A first core whose system registers all differ. -/
def smallFirst : SystemCore where
  x := fun _ => 0
  sp := 0x40100000
  q := fun _ => 0
  pc := 0x40001000
  mem := fun _ => 0
  pstate := 0x345
  sys := fun register => if register = .ttbr1El1 then 0x40300000
    else if register = .tcrEl1 then 0x80193519 else if register = .mairEl1 then 0xff else 0

/-- The second core at 0x40080400, handed the boot data at 0x40200000 by the firmware. -/
def smallSecond : SystemCore where
  x := fun _ => 0x40200000
  sp := 0
  q := fun _ => 0
  pc := 0x40080400
  mem := Memory.storeSlots 0x40200000 (bootDataSlots smallFirst 0x40204000 0x40081000) fun _ => 1
  pstate := 0x3c5
  sys := fun _ => 0x30d00800

theorem secondary_shares_translation_small : ∃ core',
    SystemCore.processor.steps (fetchFrom 0x40080400 secondaryEntry) secondaryEntry.length
        smallSecond = some core' ∧
      SecondaryStarted smallFirst smallSecond core' 0x40204000 0x40081000 :=
  secondary_shares_translation (by decide +kernel) rfl (by decide) rfl

end UniKernel.Boot
