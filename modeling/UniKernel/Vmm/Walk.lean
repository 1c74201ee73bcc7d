import UniKernel.Lib.AddressSpace
import UniKernel.Vmm.Model

/-!
Owns the table walk of the MMU for a 4 KiB granule and 39-bit addresses, as far
as `vmm.c` relies on it, and what the descriptors of `vmm.c` mean to it. A leaf
is a descriptor with the size of what it maps: a page, a 2 MiB block or a 1 GiB
block.
-/

namespace UniKernel.Vmm

open UniKernel.Lib
open UniKernel.Pmm (pageSize)

/-- `width` bits of a descriptor from `low` on. -/
def bitField (descriptor low width : Nat) : Nat := descriptor / 2 ^ low % 2 ^ width

/-- The output address of a descriptor that maps `2 ^ shift` bytes, or of a
table descriptor when `shift` is 12: its bits from `shift` to 47. -/
def outputAddress (shift descriptor : Nat) : Nat := descriptor % 2 ^ 48 / 2 ^ shift * 2 ^ shift

/-- The attribute fields of a leaf descriptor. -/
structure Attributes where
  attrIndx : Nat
  accessPermissions : Nat
  shareability : Nat
  accessFlag : Bool
  privilegedExecuteNever : Bool
  unprivilegedExecuteNever : Bool
deriving DecidableEq, Repr

def attributes (descriptor : Nat) : Attributes where
  attrIndx := bitField descriptor 2 3
  accessPermissions := bitField descriptor 6 2
  shareability := bitField descriptor 8 2
  accessFlag := bitField descriptor 10 1 = 1
  privilegedExecuteNever := bitField descriptor 53 1 = 1
  unprivilegedExecuteNever := bitField descriptor 54 1 = 1

structure Leaf where
  shift : Nat
  descriptor : Nat
deriving DecidableEq, Repr

/-- The address a leaf translates `virt` to. -/
def Leaf.address (leaf : Leaf) (virt : Nat) : Nat :=
  outputAddress leaf.shift leaf.descriptor + virt % 2 ^ leaf.shift

/-- The bit pattern of a descriptor's two lowest bits: a table, or a page at the
last level. -/
def descriptorKind (descriptor : Nat) : Nat := descriptor % 4

def walkL3 (mem : Nat → Nat) (table virt : Nat) : Option Leaf :=
  let descriptor := mem (table + 8 * l3Index virt)
  if descriptorKind descriptor = 3 then some ⟨12, descriptor⟩ else none

def walkL2 (mem : Nat → Nat) (table virt : Nat) : Option Leaf :=
  let descriptor := mem (table + 8 * l2Index virt)
  if descriptorKind descriptor = 3 then walkL3 mem (outputAddress 12 descriptor) virt
  else if descriptorKind descriptor = 1 then some ⟨21, descriptor⟩
  else none

/-- The walk of a 39-bit address, which starts at level 1. -/
def walk (mem : Nat → Nat) (root virt : Nat) : Option Leaf :=
  let descriptor := mem (root + 8 * l1Index virt)
  if descriptorKind descriptor = 3 then walkL2 mem (outputAddress 12 descriptor) virt
  else if descriptorKind descriptor = 1 then some ⟨30, descriptor⟩
  else none

namespace State

/-- The leaf the walk from `root_table` ends in. -/
def leaf (s : State) (virt : Nat) : Option Leaf := walk s.mem s.rootTable virt

/-- The address space the tables describe. -/
def translate (s : State) : AddressSpace Attributes := fun virt =>
  (s.leaf virt).map fun leaf => (leaf.address virt, attributes leaf.descriptor)

/-- The 2 MiB slot of `virt` holds a block. -/
def HoldsBlock (s : State) (virt : Nat) : Prop := (s.leaf virt).map Leaf.shift = some 21

instance (s : State) (virt : Nat) : Decidable (s.HoldsBlock virt) :=
  inferInstanceAs (Decidable (_ = _))

end State

/-- The attributes that the flags of `vmm_map_region` ask for. -/
def requested (flags : Nat) : Attributes where
  attrIndx := if flags &&& vmDevice ≠ 0 then mtDeviceNGnRnE else mtNormal
  accessPermissions := if flags &&& vmWritable ≠ 0 then 0 else 2
  shareability := 3
  accessFlag := true
  privilegedExecuteNever := flags &&& vmDevice ≠ 0 ∨ flags &&& vmNoExec ≠ 0
  unprivilegedExecuteNever := true

/-! ### The descriptors of `vmm.c` -/

/-- A page of memory that a descriptor can name. -/
structure PageAddress (phys : Nat) : Prop where
  aligned : phys % pageSize = 0
  small : phys < 2 ^ 48

/-- The low twelve bits of a descriptor, and those above bit 47, do not meet the
bits of a page address. -/
theorem PageAddress.or_eq {phys low high : Nat} (page : PageAddress phys) (isLow : low < 2 ^ 12) :
    phys ||| (2 ^ 48 * high ||| low) = phys + (2 ^ 48 * high + low) := by
  have phys_eq : phys = 2 ^ 12 * (phys / 2 ^ 12) := by
    have aligned := page.aligned
    simp only [pageSize] at aligned
    omega
  have withLow : phys ||| low = phys + low := by
    rw [phys_eq, ← Nat.two_pow_add_eq_or_of_lt isLow]
  have below : phys + low < 2 ^ 48 := by
    have small := page.small
    omega
  rw [← Nat.or_assoc, Nat.or_comm phys, Nat.or_assoc, withLow,
    ← Nat.two_pow_add_eq_or_of_lt below]
  omega

/-- The bits of a leaf descriptor of `vmm.c` other than the address. -/
structure LeafBits where
  device : Bool
  writable : Bool
  noExec : Bool

def LeafBits.low (bits : LeafBits) (kind : Nat) : Nat :=
  0x701 + kind + (if bits.device then 0 else 4) + (if bits.writable then 0 else 0x80)

def LeafBits.high (bits : LeafBits) : Nat := if bits.device || bits.noExec then 0x60 else 0x40

def leafBits (flags : Nat) : LeafBits where
  device := flags &&& vmDevice ≠ 0
  writable := flags &&& vmWritable ≠ 0
  noExec := flags &&& vmNoExec ≠ 0

theorem LeafBits.low_lt (bits : LeafBits) {kind : Nat} (isKind : kind = ptPage ∨ kind = ptBlock) :
    bits.low kind < 2 ^ 12 := by
  unfold LeafBits.low
  rcases isKind with rfl | rfl <;> split <;> split <;> decide

theorem LeafBits.high_eq (bits : LeafBits) : bits.high = 0x40 ∨ bits.high = 0x60 := by
  unfold LeafBits.high
  split
  · exact Or.inr rfl
  · exact Or.inl rfl

theorem leafEntry_eq {kind phys : Nat} (flags : Nat) (isKind : kind = ptPage ∨ kind = ptBlock)
    (page : PageAddress phys) :
    leafEntry kind phys flags =
      phys + (2 ^ 48 * (leafBits flags).high + (leafBits flags).low kind) := by
  rw [← page.or_eq ((leafBits flags).low_lt isKind)]
  unfold leafEntry leafBits LeafBits.high LeafBits.low
  rcases isKind with rfl | rfl <;>
    by_cases device : flags &&& vmDevice = 0 <;> by_cases writable : flags &&& vmWritable = 0 <;>
    by_cases noExec : flags &&& vmNoExec = 0 <;>
    simp only [device, writable, noExec, ne_eq, not_true_eq_false, not_false_eq_true, if_true,
      if_false, Nat.or_assoc, decide_true, decide_false, Bool.or_true, Bool.or_false] <;>
    exact congrArg (phys ||| ·) (by decide)

section Leaves

variable {phys : Nat} (flags : Nat) (page : PageAddress phys)

include page

theorem descriptorKind_leafEntry {kind : Nat} (isKind : kind = ptPage ∨ kind = ptBlock) :
    descriptorKind (leafEntry kind phys flags) = 1 + kind := by
  have aligned := page.aligned
  simp only [pageSize] at aligned
  rw [leafEntry_eq flags isKind page, descriptorKind, LeafBits.low]
  rcases isKind with rfl | rfl
  · simp only [ptPage]
    split <;> split <;> omega
  · simp only [ptBlock]
    split <;> split <;> omega

theorem outputAddress_leafEntry {kind shift : Nat} (isKind : kind = ptPage ∨ kind = ptBlock)
    (isShift : shift = 12 ∨ shift = 21) (alignedTo : phys % 2 ^ shift = 0) :
    outputAddress shift (leafEntry kind phys flags) = phys := by
  have small := page.small
  have isLow : (leafBits flags).low kind < 2 ^ 12 := LeafBits.low_lt _ isKind
  have isSum : (phys + (2 ^ 48 * (leafBits flags).high + (leafBits flags).low kind)) % 2 ^ 48 =
      phys + (leafBits flags).low kind := by
    rcases isShift with rfl | rfl <;> omega
  rw [leafEntry_eq flags isKind page, outputAddress, isSum]
  rcases isShift with rfl | rfl <;> omega

theorem attributes_leafEntry {kind : Nat} (isKind : kind = ptPage ∨ kind = ptBlock) :
    attributes (leafEntry kind phys flags) = requested flags := by
  have aligned := page.aligned
  have small := page.small
  simp only [pageSize] at aligned
  have isLow : (leafBits flags).low kind < 2 ^ 12 := LeafBits.low_lt _ isKind
  have isHigh := (leafBits flags).high_eq
  rw [leafEntry_eq flags isKind page, attributes]
  -- a field lies below the address, or above it
  have below : ∀ low width, (low, width) = (2, 3) ∨ (low, width) = (6, 2) ∨ (low, width) = (8, 2) ∨
      (low, width) = (10, 1) → bitField
        (phys + (2 ^ 48 * (leafBits flags).high + (leafBits flags).low kind)) low width =
          bitField ((leafBits flags).low kind) low width := by
    intro low width isField
    unfold bitField
    rcases isField with isField | isField | isField | isField <;> injection isField with isLow isWidth <;>
      rw [isLow, isWidth] <;> omega
  have above : ∀ low, low = 53 ∨ low = 54 → bitField
      (phys + (2 ^ 48 * (leafBits flags).high + (leafBits flags).low kind)) low 1 =
        bitField (2 ^ 48 * (leafBits flags).high) low 1 := by
    intro low isField
    unfold bitField
    rcases isField with rfl | rfl <;> rcases isHigh with isHigh | isHigh <;> rw [isHigh] <;> omega
  rw [below 2 3 (by decide), below 6 2 (by decide), below 8 2 (by decide), below 10 1 (by decide),
    above 53 (by decide), above 54 (by decide)]
  unfold requested leafBits LeafBits.low LeafBits.high
  rcases isKind with rfl | rfl <;>
    by_cases device : flags &&& vmDevice = 0 <;> by_cases writable : flags &&& vmWritable = 0 <;>
    by_cases noExec : flags &&& vmNoExec = 0 <;>
    simp only [device, writable, noExec, ne_eq, not_true_eq_false, not_false_eq_true, if_true,
      if_false, decide_true, decide_false, Bool.or_true, Bool.or_false, or_true, or_false] <;>
    decide

end Leaves

/-! ### Tables -/

theorem and_ptValid (descriptor : Nat) : descriptor &&& ptValid ≠ 0 ↔ descriptor % 2 = 1 := by
  rw [show ptValid = 1 from rfl, Nat.and_one_is_mod]
  omega

/-- The mask of `get_next_table` takes the output address. -/
theorem and_tableMask (descriptor : Nat) :
    descriptor &&& 0x0000FFFFFFFFF000 = outputAddress 12 descriptor := by
  rw [show 0x0000FFFFFFFFF000 = (2 ^ 36 - 1) * 2 ^ 12 from rfl, outputAddress]
  apply Nat.eq_of_testBit_eq
  intro position
  rw [Nat.testBit_and, Nat.testBit_mul_two_pow, Nat.testBit_mul_two_pow,
    Nat.testBit_two_pow_sub_one, Nat.testBit_div_two_pow, Nat.testBit_mod_two_pow]
  by_cases behind : position ≥ 12
  · rw [show position - 12 + 12 = position by omega]
    by_cases below : position < 48
    · simp [behind, below, show position - 12 < 36 by omega]
    · simp [below, show ¬ position - 12 < 36 by omega]
  · simp [behind]

theorem PageAddress.table_eq {table : Nat} (page : PageAddress table) :
    table ||| ptTable ||| ptValid = table + 3 := by
  have bits : table ||| (2 ^ 48 * 0 ||| 3) = table + (2 ^ 48 * 0 + 3) := page.or_eq (by decide)
  rw [Nat.or_assoc]
  exact bits

theorem PageAddress.outputAddress_table {table : Nat} (page : PageAddress table) :
    outputAddress 12 (table + 3) = table := by
  have aligned := page.aligned
  have small := page.small
  simp only [pageSize] at aligned
  unfold outputAddress
  omega

theorem l1Index_eq (virt : Nat) : l1Index virt = virt / 2 ^ 30 % 512 := by
  rw [l1Index, Nat.shiftRight_eq_div_pow]
  exact Nat.and_two_pow_sub_one_eq_mod _ 9

theorem l2Index_eq (virt : Nat) : l2Index virt = virt / 2 ^ 21 % 512 := by
  rw [l2Index, Nat.shiftRight_eq_div_pow]
  exact Nat.and_two_pow_sub_one_eq_mod _ 9

theorem l3Index_eq (virt : Nat) : l3Index virt = virt / 2 ^ 12 % 512 := by
  rw [l3Index, Nat.shiftRight_eq_div_pow]
  exact Nat.and_two_pow_sub_one_eq_mod _ 9

end UniKernel.Vmm
