import Mathlib.Algebra.Ring.Nat
import Mathlib.Logic.Function.Basic
import UniKernel.Lib.Memory

/-!
Owns the part of a 64-bit Arm core that hand-written switch code uses: the
general registers, the stack pointer, the vector registers, byte memory, and
loads, stores, moves, calls and returns between them. A core runs the code that
`fetch` finds at its program counter.

Also here: a block of stores as one list of slots, and the layout rule for the
fields of a C struct, so that offsets written by hand can be compared with it.
-/

namespace UniKernel.Lib

/-! ### Layout -/

/-- The next multiple of `align` from `offset` on. -/
def alignUp (offset align : Nat) : Nat := (offset + align - 1) / align * align

theorem le_alignUp (offset : Nat) {align : Nat} (positive : 0 < align) :
    offset ≤ alignUp offset align := by
  have parts := Nat.div_add_mod (offset + align - 1) align
  have rest := Nat.mod_lt (offset + align - 1) positive
  rw [alignUp, Nat.mul_comm]
  omega

/-- The offset of `field` in a struct whose remaining fields are `fields` and
are placed from `offset` on, each aligned to its own size. -/
def fieldOffset {Field : Type} [DecidableEq Field] (size : Field → Nat) (field : Field) :
    (offset : Nat) → List Field → Nat
  | offset, [] => offset
  | offset, first :: rest =>
      if field = first then alignUp offset (size first)
      else fieldOffset size field (alignUp offset (size first) + size first) rest

/-- The end of a struct whose remaining fields are placed from `offset` on. -/
def fieldsEnd {Field : Type} (size : Field → Nat) : (offset : Nat) → List Field → Nat
  | offset, [] => offset
  | offset, first :: rest => fieldsEnd size (alignUp offset (size first) + size first) rest

/-! ### Slots -/

/-- A value stored at an offset from some base. -/
structure Slot where
  offset : Nat
  width : Nat
  value : Nat
deriving DecidableEq, Repr

namespace Slot

/-- The slots share no byte. -/
def Apart (left right : Slot) : Prop :=
  left.offset + left.width ≤ right.offset ∨ right.offset + right.width ≤ left.offset

end Slot

namespace Memory

variable {mem : Memory} {base size addr : Nat} {slot : Slot} {slots : List Slot}

/-- Store the slots one after the other. -/
def storeSlots (base : Nat) : List Slot → Memory → Memory
  | [], mem => mem
  | slot :: rest, mem =>
      storeSlots base rest (mem.store (base + slot.offset) slot.width slot.value)

/-- Slots below `size` change nothing outside the `size` bytes from the base. -/
theorem storeSlots_outside (below : ∀ slot ∈ slots, slot.offset + slot.width ≤ size)
    (outside : addr < base ∨ base + size ≤ addr) : storeSlots base slots mem addr = mem addr := by
  induction slots generalizing mem with
  | nil => rfl
  | cons first rest inductionHypothesis =>
      rw [List.forall_mem_cons] at below
      rw [storeSlots, inductionHypothesis below.2, store_outside]
      have room := below.1
      omega

/-- Slots leave a load that shares no byte with them alone. -/
theorem load_storeSlots_apart {offset width : Nat}
    (apart : ∀ slot ∈ slots, offset + width ≤ slot.offset ∨ slot.offset + slot.width ≤ offset) :
    load (storeSlots base slots mem) (base + offset) width = load mem (base + offset) width := by
  induction slots generalizing mem with
  | nil => rfl
  | cons first rest inductionHypothesis =>
      rw [List.forall_mem_cons] at apart
      rw [storeSlots, inductionHypothesis apart.2, load_store_disjoint]
      have room := apart.1
      omega

/-- Of slots that share no byte, each is read back. -/
theorem load_storeSlots (apart : slots.Pairwise Slot.Apart) (member : slot ∈ slots) :
    load (storeSlots base slots mem) (base + slot.offset) slot.width =
      slot.value % 256 ^ slot.width := by
  induction slots generalizing mem with
  | nil => cases member
  | cons first rest inductionHypothesis =>
      rw [List.pairwise_cons] at apart
      rw [storeSlots]
      rcases List.mem_cons.mp member with rfl | later
      · rw [load_storeSlots_apart apart.1, load_store_same]
      · exact inductionHypothesis apart.2 later

end Memory

/-! ### The core -/

/-- The registers x0 to x30 and q0 to q31 by their numbers. -/
structure Cpu where
  x : Nat → BitVec 64
  sp : BitVec 64
  q : Nat → BitVec 128
  pc : BitVec 64
  mem : Memory

/-- The instructions, under their mnemonics; `Q` marks the vector registers. -/
inductive Instr where
  | stp (first second base offset : Nat)
  | ldp (first second base offset : Nat)
  | stpQ (first second base offset : Nat)
  | ldpQ (first second base offset : Nat)
  | str (source base offset : Nat)
  | ldr (target base offset : Nat)
  | mov (target source : Nat)
  | movFromSp (target : Nat)
  | movToSp (source : Nat)
  | b (target : BitVec 64)
  | bl (target : BitVec 64)
  | blr (target : Nat)
  | ret
deriving DecidableEq, Repr

/-- The instruction goes on with the next one. -/
def Instr.straight : Instr → Bool
  | .b _ | .bl _ | .blr _ | .ret => false
  | _ => true

namespace Cpu

def next (cpu : Cpu) : Cpu := { cpu with pc := cpu.pc + 4 }

def setX (cpu : Cpu) (register : Nat) (value : BitVec 64) : Cpu :=
  { cpu with x := Function.update cpu.x register value }

def setQ (cpu : Cpu) (register : Nat) (value : BitVec 128) : Cpu :=
  { cpu with q := Function.update cpu.q register value }

/-- The address `[base, #offset]`. -/
def address (cpu : Cpu) (base offset : Nat) : Nat :=
  (cpu.x base + BitVec.ofNat 64 offset).toNat

def exec (cpu : Cpu) : Instr → Cpu
  | .stp first second base offset =>
      { cpu.next with
        mem := (cpu.mem.store (cpu.address base offset) 8 (cpu.x first).toNat).store
          (cpu.address base (offset + 8)) 8 (cpu.x second).toNat }
  | .ldp first second base offset =>
      (cpu.next.setX first (.ofNat 64 (cpu.mem.load (cpu.address base offset) 8))).setX second
        (.ofNat 64 (cpu.mem.load (cpu.address base (offset + 8)) 8))
  | .stpQ first second base offset =>
      { cpu.next with
        mem := (cpu.mem.store (cpu.address base offset) 16 (cpu.q first).toNat).store
          (cpu.address base (offset + 16)) 16 (cpu.q second).toNat }
  | .ldpQ first second base offset =>
      (cpu.next.setQ first (.ofNat 128 (cpu.mem.load (cpu.address base offset) 16))).setQ second
        (.ofNat 128 (cpu.mem.load (cpu.address base (offset + 16)) 16))
  | .str source base offset =>
      { cpu.next with mem := cpu.mem.store (cpu.address base offset) 8 (cpu.x source).toNat }
  | .ldr target base offset =>
      cpu.next.setX target (.ofNat 64 (cpu.mem.load (cpu.address base offset) 8))
  | .mov target source => cpu.next.setX target (cpu.x source)
  | .movFromSp target => cpu.next.setX target cpu.sp
  | .movToSp source => { cpu.next with sp := cpu.x source }
  | .b target => { cpu with pc := target }
  | .bl target => { cpu.setX 30 (cpu.pc + 4) with pc := target }
  | .blr target => { cpu.setX 30 (cpu.pc + 4) with pc := cpu.x target }
  | .ret => { cpu with pc := cpu.x 30 }

/-- One instruction after the other. -/
def execAll (cpu : Cpu) (code : List Instr) : Cpu := code.foldl exec cpu

/-- `count` instructions of the code that `fetch` finds. -/
def steps (fetch : BitVec 64 → Option Instr) : Nat → Cpu → Option Cpu
  | 0, cpu => some cpu
  | count + 1, cpu => (fetch cpu.pc).bind fun instr => steps fetch count (cpu.exec instr)

end Cpu

/-- The instructions `code` are in memory from `start` on. -/
def LoadedAt (fetch : BitVec 64 → Option Instr) : (start : BitVec 64) → List Instr → Prop
  | _, [] => True
  | start, instr :: rest => fetch start = some instr ∧ LoadedAt fetch (start + 4) rest

instance LoadedAt.decidable (fetch : BitVec 64 → Option Instr) :
    ∀ (start : BitVec 64) (code : List Instr), Decidable (LoadedAt fetch start code)
  | _, [] => isTrue trivial
  | start, instr :: rest =>
      have := LoadedAt.decidable fetch (start + 4) rest
      inferInstanceAs (Decidable (fetch start = some instr ∧ LoadedAt fetch (start + 4) rest))

variable {fetch : BitVec 64 → Option Instr} {cpu : Cpu} {code : List Instr} {final : Instr}

theorem Cpu.exec_pc {instr : Instr} (straight : instr.straight = true) :
    (cpu.exec instr).pc = cpu.pc + 4 := by
  cases instr with
  | b => cases straight
  | bl => cases straight
  | blr => cases straight
  | ret => cases straight
  | _ => rfl

theorem Cpu.steps_succ {instr : Instr} (found : fetch cpu.pc = some instr) (count : Nat) :
    cpu.steps fetch (count + 1) = (cpu.exec instr).steps fetch count := by
  rw [steps, found, Option.bind_some]

/-- A core at the start of a block runs the block and the instruction behind it. -/
theorem Cpu.steps_block (straight : ∀ instr ∈ code, instr.straight = true)
    (loaded : LoadedAt fetch cpu.pc (code ++ [final])) :
    cpu.steps fetch (code.length + 1) = some (cpu.execAll (code ++ [final])) := by
  induction code generalizing cpu with
  | nil =>
      rw [List.nil_append] at loaded
      exact steps_succ loaded.1 0
  | cons first rest inductionHypothesis =>
      rw [List.forall_mem_cons] at straight
      rw [List.cons_append] at loaded
      have later : LoadedAt fetch (cpu.exec first).pc (rest ++ [final]) := by
        rw [exec_pc straight.1]
        exact loaded.2
      rw [List.length_cons, steps_succ loaded.1, inductionHypothesis straight.2 later]
      rfl

/-! ### Calls -/

/-- What the procedure call standard promises the caller when a call returns:
control is at the link, and the stack pointer and x19 to x29 are as before. -/
structure AfterCall (called returned : Cpu) : Prop where
  pc : returned.pc = called.x 30
  sp : returned.sp = called.sp
  kept : ∀ register, 19 ≤ register → register < 30 → returned.x register = called.x register

end UniKernel.Lib
