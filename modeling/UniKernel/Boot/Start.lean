import UniKernel.Lib.SystemCode

/-!
Owns the start of the first core in `src/boot.S`, from `entry_point` to the call of `main`,
and the places that `linker.ld` gives to what it uses.
-/

namespace UniKernel.Boot

open UniKernel.Lib

/-- The symbols that the code uses. -/
structure Symbols where
  entryPoint : Nat
  el1VectorTable : Nat
  main : Nat
  dtbPhysAddr : Nat
  bssStart : Nat
  bssEnd : Nat
  stackTop : Nat
deriving DecidableEq, Repr

/-! ### `boot.S` -/

namespace Symbols

variable (y : Symbols)

/-- The address of the instruction with this number behind `entry_point`. -/
def line (number : Nat) : BitVec 64 := .ofNat 64 y.entryPoint + .ofNat 64 (4 * number)

/-- From `entry_point` to the size of the BSS: the device tree pointer, the stack, the
vectors, floating point, the MMU and the interrupt mask. -/
def setUp : List SystemInstr :=
  [.ldrSymbol 1 (.ofNat 64 y.dtbPhysAddr), .cpu (.str 0 1 0),
    .ldrSymbol 0 (.ofNat 64 y.stackTop), .cpu (.movToSp 0),
    .ldrSymbol 0 (.ofNat 64 y.el1VectorTable), .msr .vbarEl1 0, .isb,
    .mrs 0 .cpacrEl1, .orr 0 0 (3 <<< 20), .msr .cpacrEl1 0, .isb,
    .mrs 0 .sctlrEl1, .bic 0 0 (1 <<< 0), .msr .sctlrEl1 0, .isb,
    .daifclr 2,
    .ldrSymbol 1 (.ofNat 64 y.bssStart), .ldrSymbol 2 (.ofNat 64 y.bssEnd), .sub 2 2 1]

/-- The test for an empty BSS. -/
def enterClear : List SystemInstr := [.cbz 2 (y.line 24), .mov 3 0]

/-- One round of the loop. -/
def clear : List SystemInstr := [.strPost 3 1 8, .subImmediate 2 2 8, .cbnz 2 (y.line 21)]

def callMain : List SystemInstr := [.cpu (.bl (.ofNat 64 y.main))]

def startCode : List SystemInstr := y.setUp ++ (y.enterClear ++ (y.clear ++ y.callMain))

end Symbols

/-! ### `linker.ld` -/

/-- The sizes of the sections, and what lies where in them. -/
structure Sections where
  text : Nat
  rodata : Nat
  data : Nat
  bss : Nat
  el1VectorTable : Nat
  main : Nat
  dtbPhysAddr : Nat

namespace Sections

variable (sections : Sections)

def textStart : Nat := alignUp 0x40100000 4096

def rodataStart : Nat := alignUp (alignUp (textStart + sections.text) 4096) 4096

def dataStart : Nat := alignUp (alignUp (sections.rodataStart + sections.rodata) 4096) 4096

def bssStart : Nat := alignUp (sections.dataStart + sections.data) 16

def bssEnd : Nat := alignUp (sections.bssStart + sections.bss) 16

def dataEnd : Nat := alignUp sections.bssEnd 4096

/-- `_stack_top`, which is `_kernel_end`. -/
def stackTop : Nat := alignUp sections.dataEnd 16 + 0x4000

/-- The header of the boot protocol has 64 bytes. -/
def link : Symbols where
  entryPoint := textStart + 64
  el1VectorTable := textStart + sections.el1VectorTable
  main := textStart + sections.main
  dtbPhysAddr := sections.dataStart + sections.dtbPhysAddr
  bssStart := sections.bssStart
  bssEnd := sections.bssEnd
  stackTop := sections.stackTop

/-- `main` lies behind the code of `boot.S`, `dtb_phys_addr` is in `.data`, and the kernel
fits into the address space. -/
structure Fit : Prop where
  main : 64 + 4 * 25 ≤ sections.main ∧ sections.main + 4 ≤ sections.text
  dtbPhysAddr : sections.dtbPhysAddr + 8 ≤ sections.data
  inMemory : sections.stackTop < 2 ^ 64

end Sections

/-! ### The start -/

/-- `core'` calls `main` as `core` was handed over. -/
structure Started (y : Symbols) (core core' : SystemCore) : Prop where
  pc : core'.pc = .ofNat 64 y.main
  sp : core'.sp = .ofNat 64 y.stackTop
  vectors : core'.sys .vbarEl1 = .ofNat 64 y.el1VectorTable
  floatingPoint : core'.sys .cpacrEl1 = core.sys .cpacrEl1 ||| 3 <<< 20
  mmuOff : core'.sys .sctlrEl1 = core.sys .sctlrEl1 &&& ~~~1
  interrupts : core'.pstate = core.pstate &&& ~~~0x80
  otherSystem : ∀ register, register ≠ .vbarEl1 → register ≠ .cpacrEl1 → register ≠ .sctlrEl1 →
    core'.sys register = core.sys register
  deviceTree : core'.mem.load y.dtbPhysAddr 8 = (core.x 0).toNat
  bss : ∀ addr, y.bssStart ≤ addr → addr < y.bssEnd → core'.mem addr = 0
  kept : ∀ addr, (addr < y.bssStart ∨ y.bssEnd ≤ addr) →
    (addr < y.dtbPhysAddr ∨ y.dtbPhysAddr + 8 ≤ addr) → core'.mem addr = core.mem addr

end UniKernel.Boot
