import Mathlib.Data.List.Nodup
import UniKernel.Lib.Aarch64

/-!
Owns exceptions of a 64-bit Arm core at EL1 on its own stack pointer: the
registers an exception saves, entry and return, the instructions that entry code
uses, and the effect of a block of stores to the stack and of a block of loads
from it.

Also here: when two cores look the same to a program, and the rule by which a
program that is interrupted between its instructions simulates itself without
interrupts.
-/

namespace UniKernel.Lib

/-! ### The core -/

/-- The registers read with `mrs` and written with `msr`. -/
inductive SysReg where
  | fpsr | fpcr | spEl0 | elrEl1 | spsrEl1
deriving DecidableEq, Repr

/-- A core with its condition flags and interrupt masks, the floating-point
status and control, and the registers that exceptions use. -/
structure Core extends Cpu where
  pstate : BitVec 64
  fpsr : BitVec 32
  fpcr : BitVec 32
  spEl0 : BitVec 64
  elrEl1 : BitVec 64
  spsrEl1 : BitVec 64
  vbarEl1 : BitVec 64

/-- The instructions, under their mnemonics; `Sp` marks an address `[sp, #offset]`,
`Q` the vector registers and `W` the lower half of a register. -/
inductive CoreInstr where
  | cpu (instr : Instr)
  | stpSp (first second offset : Nat)
  | ldpSp (first second offset : Nat)
  | stpQSp (first second offset : Nat)
  | ldpQSp (first second offset : Nat)
  | strSp (source offset : Nat)
  | ldrSp (target offset : Nat)
  | strWSp (source offset : Nat)
  | ldrWSp (target offset : Nat)
  | subSp (amount : Nat)
  | addSp (amount : Nat)
  | mrs (target : Nat) (register : SysReg)
  | msr (register : SysReg) (source : Nat)
  | eret
deriving DecidableEq, Repr

/-- The instruction goes on with the next one. -/
def CoreInstr.straight : CoreInstr → Bool
  | .cpu instr => instr.straight
  | .eret => false
  | _ => true

namespace Core

def next (core : Core) : Core := { core with pc := core.pc + 4 }

def setX (core : Core) (register : Nat) (value : BitVec 64) : Core :=
  { core with x := Function.update core.x register value }

def setQ (core : Core) (register : Nat) (value : BitVec 128) : Core :=
  { core with q := Function.update core.q register value }

/-- The address `[sp, #offset]`. -/
def address (core : Core) (offset : Nat) : Nat := (core.sp + BitVec.ofNat 64 offset).toNat

def readSys (core : Core) : SysReg → BitVec 64
  | .fpsr => core.fpsr.setWidth 64
  | .fpcr => core.fpcr.setWidth 64
  | .spEl0 => core.spEl0
  | .elrEl1 => core.elrEl1
  | .spsrEl1 => core.spsrEl1

def writeSys (core : Core) (value : BitVec 64) : SysReg → Core
  | .fpsr => { core with fpsr := value.setWidth 32 }
  | .fpcr => { core with fpcr := value.setWidth 32 }
  | .spEl0 => { core with spEl0 := value }
  | .elrEl1 => { core with elrEl1 := value }
  | .spsrEl1 => { core with spsrEl1 := value }

def exec (core : Core) : CoreInstr → Core
  | .cpu instr => { core with toCpu := core.toCpu.exec instr }
  | .stpSp first second offset =>
      { core.next with
        mem := (core.mem.store (core.address offset) 8 (core.x first).toNat).store
          (core.address (offset + 8)) 8 (core.x second).toNat }
  | .ldpSp first second offset =>
      (core.next.setX first (.ofNat 64 (core.mem.load (core.address offset) 8))).setX second
        (.ofNat 64 (core.mem.load (core.address (offset + 8)) 8))
  | .stpQSp first second offset =>
      { core.next with
        mem := (core.mem.store (core.address offset) 16 (core.q first).toNat).store
          (core.address (offset + 16)) 16 (core.q second).toNat }
  | .ldpQSp first second offset =>
      (core.next.setQ first (.ofNat 128 (core.mem.load (core.address offset) 16))).setQ second
        (.ofNat 128 (core.mem.load (core.address (offset + 16)) 16))
  | .strSp source offset =>
      { core.next with mem := core.mem.store (core.address offset) 8 (core.x source).toNat }
  | .ldrSp target offset =>
      core.next.setX target (.ofNat 64 (core.mem.load (core.address offset) 8))
  | .strWSp source offset =>
      { core.next with mem := core.mem.store (core.address offset) 4 (core.x source).toNat }
  | .ldrWSp target offset =>
      core.next.setX target (.ofNat 64 (core.mem.load (core.address offset) 4))
  | .subSp amount => { core.next with sp := core.sp - BitVec.ofNat 64 amount }
  | .addSp amount => { core.next with sp := core.sp + BitVec.ofNat 64 amount }
  | .mrs target register => core.next.setX target (core.readSys register)
  | .msr register source => core.next.writeSys (core.x source) register
  | .eret => { core with pc := core.elrEl1, pstate := core.spsrEl1 }

/-- One instruction after the other. -/
def execAll (core : Core) (code : List CoreInstr) : Core := code.foldl exec core

/-- `count` instructions of the code that `fetch` finds. -/
def steps (fetch : BitVec 64 → Option CoreInstr) : Nat → Core → Option Core
  | 0, core => some core
  | count + 1, core => (fetch core.pc).bind fun instr => steps fetch count (core.exec instr)

/-! ### Exceptions -/

/-- The masks D, A, I and F of `pstate`. -/
def daif : BitVec 64 := 0x3C0

/-- Interrupts are not masked. -/
def Unmasked (core : Core) : Prop := core.pstate &&& 0x80 = 0

instance (core : Core) : Decidable core.Unmasked := inferInstanceAs (Decidable (_ = _))

/-- An exception that is taken to the vector at `offset`, with the address to go
back to. -/
def takeException (core : Core) (offset : Nat) (link : BitVec 64) : Core :=
  { core with
    elrEl1 := link
    spsrEl1 := core.pstate
    pstate := core.pstate ||| daif
    pc := core.vbarEl1 + BitVec.ofNat 64 offset }

end Core

/-- The instructions `code` are in memory from `start` on. -/
def CodeAt (fetch : BitVec 64 → Option CoreInstr) : (start : BitVec 64) → List CoreInstr → Prop
  | _, [] => True
  | start, instr :: rest => fetch start = some instr ∧ CodeAt fetch (start + 4) rest

instance CodeAt.decidable (fetch : BitVec 64 → Option CoreInstr) :
    ∀ (start : BitVec 64) (code : List CoreInstr), Decidable (CodeAt fetch start code)
  | _, [] => isTrue trivial
  | start, instr :: rest =>
      have := CodeAt.decidable fetch (start + 4) rest
      inferInstanceAs (Decidable (fetch start = some instr ∧ CodeAt fetch (start + 4) rest))

variable {fetch : BitVec 64 → Option CoreInstr} {core : Core} {code front back : List CoreInstr}
  {instr final : CoreInstr} {size : Nat}

namespace Core

theorem exec_pc (straight : instr.straight = true) : (core.exec instr).pc = core.pc + 4 := by
  cases instr with
  | cpu instr => exact Cpu.exec_pc straight
  | eret => cases straight
  | msr register source => cases register <;> rfl
  | _ => rfl

theorem execAll_cons : core.execAll (instr :: code) = (core.exec instr).execAll code :=
  List.foldl_cons ..

theorem execAll_append : core.execAll (front ++ back) = (core.execAll front).execAll back :=
  List.foldl_append

theorem steps_succ (found : fetch core.pc = some instr) (count : Nat) :
    core.steps fetch (count + 1) = (core.exec instr).steps fetch count := by
  rw [steps, found, Option.bind_some]

/-- The address behind a block of straight code. -/
theorem execAll_pc (straight : ∀ instr ∈ code, instr.straight = true) :
    (core.execAll code).pc = core.pc + .ofNat 64 (4 * code.length) := by
  induction code generalizing core with
  | nil => exact (BitVec.add_zero _).symm
  | cons first rest inductionHypothesis =>
      have four : (4 : BitVec 64) = .ofNat 64 4 := rfl
      rw [List.forall_mem_cons] at straight
      rw [execAll_cons, inductionHypothesis straight.2, exec_pc straight.1, List.length_cons,
        Nat.mul_succ, Nat.add_comm, BitVec.ofNat_add, BitVec.add_assoc, four]

/-- A core at the start of a block runs the block and the instruction behind it. -/
theorem steps_block (straight : ∀ instr ∈ code, instr.straight = true)
    (loaded : CodeAt fetch core.pc (code ++ [final])) :
    core.steps fetch (code.length + 1) = some (core.execAll (code ++ [final])) := by
  induction code generalizing core with
  | nil =>
      rw [List.nil_append] at loaded
      exact steps_succ loaded.1 0
  | cons first rest inductionHypothesis =>
      rw [List.forall_mem_cons] at straight
      rw [List.cons_append] at loaded
      have later : CodeAt fetch (core.exec first).pc (rest ++ [final]) := by
        rw [exec_pc straight.1]
        exact loaded.2
      rw [List.length_cons, steps_succ loaded.1, inductionHypothesis straight.2 later]
      rfl

end Core

/-! ### Blocks of stores and loads -/

/-- A store to the stack. -/
def CoreInstr.isStore : CoreInstr → Bool
  | .stpSp .. | .stpQSp .. | .strSp .. | .strWSp .. => true
  | _ => false

/-- What it writes, at offsets from the stack pointer. -/
def CoreInstr.slots (core : Core) : CoreInstr → List Slot
  | .stpSp first second offset =>
      [⟨offset, 8, (core.x first).toNat⟩, ⟨offset + 8, 8, (core.x second).toNat⟩]
  | .stpQSp first second offset =>
      [⟨offset, 16, (core.q first).toNat⟩, ⟨offset + 16, 16, (core.q second).toNat⟩]
  | .strSp source offset => [⟨offset, 8, (core.x source).toNat⟩]
  | .strWSp source offset => [⟨offset, 4, (core.x source).toNat⟩]
  | _ => []

/-- A load from the stack of whole registers. -/
def CoreInstr.isLoad : CoreInstr → Bool
  | .ldpSp .. | .ldpQSp .. | .ldrSp .. => true
  | _ => false

/-- The general registers it loads, each with its offset from the stack pointer. -/
def CoreInstr.targets : CoreInstr → List (Nat × Nat)
  | .ldpSp first second offset => [(first, offset), (second, offset + 8)]
  | .ldrSp target offset => [(target, offset)]
  | _ => []

/-- The vector registers it loads. -/
def CoreInstr.targetsQ : CoreInstr → List (Nat × Nat)
  | .ldpQSp first second offset => [(first, offset), (second, offset + 16)]
  | _ => []

/-- The end of what a store or load uses, from the stack pointer. -/
def CoreInstr.reach : CoreInstr → Nat
  | .stpSp _ _ offset | .ldpSp _ _ offset => offset + 16
  | .stpQSp _ _ offset | .ldpQSp _ _ offset => offset + 32
  | .strSp _ offset | .ldrSp _ offset => offset + 8
  | .strWSp _ offset | .ldrWSp _ offset => offset + 4
  | _ => 0

theorem Memory.storeSlots_append {base : Nat} {first second : List Slot} {mem : Memory} :
    mem.storeSlots base (first ++ second) = (mem.storeSlots base first).storeSlots base second := by
  induction first generalizing mem with
  | nil => rfl
  | cons slot rest inductionHypothesis => exact inductionHypothesis

/-- Load registers of `width` bits one after the other. -/
def loadAll {width : Nat} (mem : Memory) (base : Nat) :
    List (Nat × Nat) → (Nat → BitVec width) → Nat → BitVec width
  | [], file => file
  | (register, offset) :: rest, file =>
      loadAll mem base rest
        (Function.update file register (.ofNat width (mem.load (base + offset) (width / 8))))

section LoadAll

variable {width base register offset : Nat} {mem : Memory} {targets : List (Nat × Nat)}
  {file : Nat → BitVec width}

theorem loadAll_append {more : List (Nat × Nat)} :
    loadAll mem base (targets ++ more) file = loadAll mem base more (loadAll mem base targets file) := by
  induction targets generalizing file with
  | nil => rfl
  | cons first rest inductionHypothesis => exact inductionHypothesis

theorem loadAll_of_notMem (other : register ∉ targets.map Prod.fst) :
    loadAll mem base targets file register = file register := by
  induction targets generalizing file with
  | nil => rfl
  | cons first rest inductionHypothesis =>
      rw [List.map_cons, List.mem_cons, not_or] at other
      rw [loadAll, inductionHypothesis other.2, Function.update_of_ne other.1]

/-- A register that is loaded once holds what was at its offset. -/
theorem loadAll_of_mem (once : (targets.map Prod.fst).Nodup)
    (member : (register, offset) ∈ targets) :
    loadAll mem base targets file register =
      .ofNat width (mem.load (base + offset) (width / 8)) := by
  induction targets generalizing file with
  | nil => cases member
  | cons first rest inductionHypothesis =>
      rw [List.map_cons, List.nodup_cons] at once
      rcases List.mem_cons.mp member with rfl | later
      · rw [loadAll, loadAll_of_notMem once.1, Function.update_self]
      · exact inductionHypothesis once.2 later

end LoadAll

namespace Core

/-- Addresses on the stack do not wrap around. -/
theorem address_of_room (room : core.sp.toNat + size ≤ 2 ^ 64) {offset : Nat}
    (inside : offset < size) : core.address offset = core.sp.toNat + offset := by
  rw [address, BitVec.toNat_add, BitVec.toNat_ofNat]
  omega

theorem exec_store (isStore : instr.isStore = true) (room : core.sp.toNat + size ≤ 2 ^ 64)
    (inside : instr.reach ≤ size) :
    core.exec instr =
      { core.next with mem := core.mem.storeSlots core.sp.toNat (instr.slots core) } := by
  cases instr with
  | stpSp first second offset =>
      rw [CoreInstr.reach] at inside
      rw [exec, address_of_room room (by omega), address_of_room room (by omega)]
      rfl
  | stpQSp first second offset =>
      rw [CoreInstr.reach] at inside
      rw [exec, address_of_room room (by omega), address_of_room room (by omega)]
      rfl
  | strSp source offset =>
      rw [CoreInstr.reach] at inside
      rw [exec, address_of_room room (by omega)]
      rfl
  | strWSp source offset =>
      rw [CoreInstr.reach] at inside
      rw [exec, address_of_room room (by omega)]
      rfl
  | _ => cases isStore

/-- A block of stores to the stack writes its slots and changes no register. -/
theorem execAll_stores (stores : ∀ instr ∈ code, instr.isStore = true)
    (room : core.sp.toNat + size ≤ 2 ^ 64) (inside : ∀ instr ∈ code, instr.reach ≤ size) :
    ∃ pc, core.execAll code =
      { core with
        pc := pc
        mem := core.mem.storeSlots core.sp.toNat (code.flatMap (CoreInstr.slots core)) } := by
  induction code generalizing core with
  | nil => exact ⟨core.pc, rfl⟩
  | cons first rest inductionHypothesis =>
      rw [List.forall_mem_cons] at stores inside
      have one := exec_store stores.1 room inside.1
      have sameSp : (core.exec first).sp = core.sp := by rw [one]; rfl
      have sameSlots : CoreInstr.slots (core.exec first) = CoreInstr.slots core := by
        funext instr
        rw [one]
        cases instr <;> rfl
      rw [← sameSp] at room
      obtain ⟨pc, later⟩ := inductionHypothesis stores.2 room inside.2
      rw [sameSp, sameSlots] at later
      refine ⟨pc, ?_⟩
      rw [List.flatMap_cons, Memory.storeSlots_append]
      change (core.exec first).execAll rest = _
      rw [later, one]
      rfl

theorem exec_load (isLoad : instr.isLoad = true) (room : core.sp.toNat + size ≤ 2 ^ 64)
    (inside : instr.reach ≤ size) :
    core.exec instr =
      { core.next with
        x := loadAll core.mem core.sp.toNat instr.targets core.x
        q := loadAll core.mem core.sp.toNat instr.targetsQ core.q } := by
  cases instr with
  | ldpSp first second offset =>
      rw [CoreInstr.reach] at inside
      rw [exec, address_of_room room (by omega), address_of_room room (by omega)]
      rfl
  | ldpQSp first second offset =>
      rw [CoreInstr.reach] at inside
      rw [exec, address_of_room room (by omega), address_of_room room (by omega)]
      rfl
  | ldrSp target offset =>
      rw [CoreInstr.reach] at inside
      rw [exec, address_of_room room (by omega)]
      rfl
  | _ => cases isLoad

/-- A block of loads from the stack changes the registers it names. -/
theorem execAll_loads (loads : ∀ instr ∈ code, instr.isLoad = true)
    (room : core.sp.toNat + size ≤ 2 ^ 64) (inside : ∀ instr ∈ code, instr.reach ≤ size) :
    ∃ pc, core.execAll code =
      { core with
        pc := pc
        x := loadAll core.mem core.sp.toNat (code.flatMap CoreInstr.targets) core.x
        q := loadAll core.mem core.sp.toNat (code.flatMap CoreInstr.targetsQ) core.q } := by
  induction code generalizing core with
  | nil => exact ⟨core.pc, rfl⟩
  | cons first rest inductionHypothesis =>
      rw [List.forall_mem_cons] at loads inside
      have one := exec_load loads.1 room inside.1
      have sameSp : (core.exec first).sp = core.sp := by rw [one]; rfl
      have sameMem : (core.exec first).mem = core.mem := by rw [one]; rfl
      rw [← sameSp] at room
      obtain ⟨pc, later⟩ := inductionHypothesis loads.2 room inside.2
      rw [sameSp, sameMem] at later
      refine ⟨pc, ?_⟩
      rw [List.flatMap_cons, List.flatMap_cons, loadAll_append, loadAll_append]
      change (core.exec first).execAll rest = _
      rw [later, one]
      rfl

end Core

/-! ### Interrupted programs -/

/-- The cores look the same to a program that reads the bytes of `own`. -/
structure Core.Agree (own : Nat → Prop) (left right : Core) : Prop where
  x : ∀ number, number < 31 → left.x number = right.x number
  q : ∀ number, number < 32 → left.q number = right.q number
  sp : left.sp = right.sp
  pc : left.pc = right.pc
  pstate : left.pstate = right.pstate
  fpsr : left.fpsr = right.fpsr
  fpcr : left.fpcr = right.fpcr
  spEl0 : left.spEl0 = right.spEl0
  vbarEl1 : left.vbarEl1 = right.vbarEl1
  mem : Memory.AgreeOn own left.mem right.mem

/-- `count` steps of a program from `first`, with foreign steps between them.
Which foreign steps can come may depend on how far the program is. -/
inductive Interleaved {σ : Type} (program : σ → σ → Prop) (foreign : Nat → σ → σ → Prop)
    (first : σ) : Nat → σ → Prop where
  | start : Interleaved program foreign first 0 first
  | program {count : Nat} {s s' : σ} (before : Interleaved program foreign first count s)
      (taken : program s s') : Interleaved program foreign first (count + 1) s'
  | foreign {count : Nat} {s s' : σ} (before : Interleaved program foreign first count s)
      (taken : foreign count s s') : Interleaved program foreign first count s'

/-- The rule for foreign steps that a program does not notice: what holds behind
`count` steps of the program is kept by foreign steps, and its next step moves on. -/
theorem Interleaved.holds {σ : Type} {program : σ → σ → Prop} {foreign : Nat → σ → σ → Prop}
    {first last : σ} {count limit : Nat} (Holds : Nat → σ → Prop)
    (run : Interleaved program foreign first count last) (below : count ≤ limit)
    (start : Holds 0 first)
    (moves : ∀ count, count < limit → ∀ s s', Holds count s → program s s' → Holds (count + 1) s')
    (keeps : ∀ count, count ≤ limit → ∀ s s', Holds count s → foreign count s s' →
      Holds count s') :
    Holds count last := by
  induction run with
  | start => exact start
  | program before taken inductionHypothesis =>
      have held := inductionHypothesis (by omega)
      exact moves _ (by omega) _ _ held taken
  | foreign before taken inductionHypothesis =>
      have held := inductionHypothesis below
      exact keeps _ below _ _ held taken

/-- The same stores keep two memories alike. -/
theorem Memory.AgreeOn.store {region : Nat → Prop} {left right : Memory} {addr width value : Nat}
    (agree : AgreeOn region left right) :
    AgreeOn region (left.store addr width value) (right.store addr width value) := by
  induction width generalizing left right addr value with
  | zero => exact agree
  | succ width inductionHypothesis =>
      apply inductionHypothesis
      intro other inside
      rw [Function.update_apply, Function.update_apply, agree other inside]

theorem Memory.AgreeOn.load {region : Nat → Prop} {left right : Memory} {addr width : Nat}
    (agree : AgreeOn region left right)
    (inside : ∀ other, addr ≤ other → other < addr + width → region other) :
    left.load addr width = right.load addr width := by
  apply load_congr
  intro offset below
  exact agree _ (inside _ (by omega) (by omega))

/-- The general registers an instruction reads. -/
def Instr.sources : Instr → List Nat
  | .stp first second base _ => [first, second, base]
  | .ldp _ _ base _ | .stpQ _ _ base _ | .ldpQ _ _ base _ | .ldr _ base _ => [base]
  | .str source base _ => [source, base]
  | .mov _ source | .movToSp source | .blr source => [source]
  | .movFromSp _ | .b _ | .bl _ => []
  | .ret => [30]

/-- The vector registers it reads. -/
def Instr.sourcesQ : Instr → List Nat
  | .stpQ first second _ _ => [first, second]
  | _ => []

/-- The general registers it writes. -/
def Instr.writes : Instr → List Nat
  | .ldp first second _ _ => [first, second]
  | .ldr target _ _ | .mov target _ | .movFromSp target => [target]
  | .bl _ | .blr _ => [30]
  | _ => []

def Instr.writesSp : Instr → Bool
  | .movToSp _ => true
  | _ => false

/-- It reads, if any, bytes among the `size` from where a register points. -/
def Instr.readsWithin (register size : Nat) : Instr → Bool
  | .ldp _ _ base offset => base = register && offset + 16 ≤ size
  | .ldpQ _ _ base offset => base = register && offset + 32 ≤ size
  | .ldr _ base offset => base = register && offset + 8 ≤ size
  | _ => true

/-- The bytes it reads. -/
def Instr.Reads (cpu : Cpu) (addr : Nat) : Instr → Prop
  | .ldp _ _ base offset =>
      (cpu.address base offset ≤ addr ∧ addr < cpu.address base offset + 8) ∨
        (cpu.address base (offset + 8) ≤ addr ∧ addr < cpu.address base (offset + 8) + 8)
  | .ldpQ _ _ base offset =>
      (cpu.address base offset ≤ addr ∧ addr < cpu.address base offset + 16) ∨
        (cpu.address base (offset + 16) ≤ addr ∧ addr < cpu.address base (offset + 16) + 16)
  | .ldr _ base offset => cpu.address base offset ≤ addr ∧ addr < cpu.address base offset + 8
  | _ => False

section Registers

variable {cpu : Cpu} {instr : Instr} {code : List Instr} {register size addr : Nat}

theorem Cpu.exec_x_of_notMem (kept : register ∉ instr.writes) :
    (cpu.exec instr).x register = cpu.x register := by
  cases instr with
  | ldp first second base offset =>
      simp only [Instr.writes, List.mem_cons, List.not_mem_nil, or_false, not_or] at kept
      exact (Function.update_of_ne kept.2 _ _).trans (Function.update_of_ne kept.1 _ _)
  | ldr target base offset => exact Function.update_of_ne (List.ne_of_not_mem_cons kept) _ _
  | mov target source => exact Function.update_of_ne (List.ne_of_not_mem_cons kept) _ _
  | movFromSp target => exact Function.update_of_ne (List.ne_of_not_mem_cons kept) _ _
  | bl target => exact Function.update_of_ne (List.ne_of_not_mem_cons kept) _ _
  | blr target => exact Function.update_of_ne (List.ne_of_not_mem_cons kept) _ _
  | _ => rfl

theorem Cpu.execAll_x_of_notMem (kept : ∀ instr ∈ code, register ∉ instr.writes) :
    (cpu.execAll code).x register = cpu.x register := by
  induction code generalizing cpu with
  | nil => rfl
  | cons first rest inductionHypothesis =>
      rw [List.forall_mem_cons] at kept
      exact (inductionHypothesis kept.2).trans (exec_x_of_notMem kept.1)

theorem Cpu.execAll_sp (kept : ∀ instr ∈ code, instr.writesSp = false) :
    (cpu.execAll code).sp = cpu.sp := by
  induction code generalizing cpu with
  | nil => rfl
  | cons first rest inductionHypothesis =>
      rw [List.forall_mem_cons] at kept
      refine (inductionHypothesis kept.2).trans ?_
      cases first with
      | movToSp source => cases kept.1
      | _ => rfl

theorem Instr.reads_inside (within : instr.readsWithin register size = true)
    (room : (cpu.x register).toNat + size ≤ 2 ^ 64) (reads : instr.Reads cpu addr) :
    (cpu.x register).toNat ≤ addr ∧ addr < (cpu.x register).toNat + size := by
  have toNat : ∀ offset, offset < size →
      (cpu.x register + BitVec.ofNat 64 offset).toNat = (cpu.x register).toNat + offset := by
    intro offset inside
    rw [BitVec.toNat_add, BitVec.toNat_ofNat]
    omega
  cases instr with
  | ldp first second base offset =>
      simp only [Instr.readsWithin, Bool.and_eq_true, decide_eq_true_eq] at within
      obtain ⟨rfl, inside⟩ := within
      rw [Instr.Reads, Cpu.address, Cpu.address, toNat _ (by omega), toNat _ (by omega)] at reads
      omega
  | ldpQ first second base offset =>
      simp only [Instr.readsWithin, Bool.and_eq_true, decide_eq_true_eq] at within
      obtain ⟨rfl, inside⟩ := within
      rw [Instr.Reads, Cpu.address, Cpu.address, toNat _ (by omega), toNat _ (by omega)] at reads
      omega
  | ldr target base offset =>
      simp only [Instr.readsWithin, Bool.and_eq_true, decide_eq_true_eq] at within
      obtain ⟨rfl, inside⟩ := within
      rw [Instr.Reads, Cpu.address, toNat _ (by omega)] at reads
      omega
  | _ => cases reads

end Registers

theorem Core.execAll_map (core : Core) (code : List Instr) :
    core.execAll (code.map .cpu) = { core with toCpu := core.toCpu.execAll code } := by
  induction code generalizing core with
  | nil => rfl
  | cons first rest inductionHypothesis => exact inductionHypothesis _

theorem CodeAt.getElem {start : BitVec 64} {code : List CoreInstr} (loaded : CodeAt fetch start code)
    (position : Nat) (below : position < code.length) :
    fetch (start + .ofNat 64 (4 * position)) = some code[position] := by
  induction code generalizing start position with
  | nil => cases below
  | cons first rest inductionHypothesis =>
      cases position with
      | zero =>
          rw [Nat.mul_zero, BitVec.add_zero]
          exact loaded.1
      | succ position =>
          have later := inductionHypothesis loaded.2 position (Nat.lt_of_succ_lt_succ below)
          have four : (4 : BitVec 64) = .ofNat 64 4 := rfl
          rw [Nat.mul_succ, Nat.add_comm, BitVec.ofNat_add, ← BitVec.add_assoc, ← four]
          exact later

namespace Core.Agree

variable {own : Nat → Prop} {left middle right : Core} {instr : Instr}

theorem refl (own : Nat → Prop) (core : Core) : Core.Agree own core core :=
  ⟨fun _ _ => rfl, fun _ _ => rfl, rfl, rfl, rfl, rfl, rfl, rfl, rfl, fun _ _ => rfl⟩

theorem trans (first : Core.Agree own left middle) (second : Core.Agree own middle right) :
    Core.Agree own left right where
  x := fun number below => (first.x number below).trans (second.x number below)
  q := fun number below => (first.q number below).trans (second.q number below)
  sp := first.sp.trans second.sp
  pc := first.pc.trans second.pc
  pstate := first.pstate.trans second.pstate
  fpsr := first.fpsr.trans second.fpsr
  fpcr := first.fpcr.trans second.fpcr
  spEl0 := first.spEl0.trans second.spEl0
  vbarEl1 := first.vbarEl1.trans second.vbarEl1
  mem := fun addr inside => (first.mem addr inside).trans (second.mem addr inside)

theorem mono {less : Nat → Prop} (agree : Core.Agree own left right)
    (fewer : ∀ addr, less addr → own addr) : Core.Agree less left right :=
  { agree with mem := fun addr inside => agree.mem addr (fewer addr inside) }

theorem next (agree : Core.Agree own left right) : Core.Agree own left.next right.next :=
  { agree with pc := congrArg (· + 4) agree.pc }

theorem setX (agree : Core.Agree own left right) {register : Nat} {value value' : BitVec 64}
    (same : value = value') :
    Core.Agree own (left.setX register value) (right.setX register value') where
  __ := agree
  x := by
    intro number below
    rw [same, Core.setX, Core.setX]
    dsimp only
    rw [Function.update_apply, Function.update_apply, agree.x number below]

theorem setQ (agree : Core.Agree own left right) {register : Nat} {value value' : BitVec 128}
    (same : value = value') :
    Core.Agree own (left.setQ register value) (right.setQ register value') where
  __ := agree
  q := by
    intro number below
    rw [same, Core.setQ, Core.setQ]
    dsimp only
    rw [Function.update_apply, Function.update_apply, agree.q number below]

theorem withMem (agree : Core.Agree own left right) {mem mem' : Memory}
    (same : Memory.AgreeOn own mem mem') :
    Core.Agree own { left with mem := mem } { right with mem := mem' } :=
  { agree with mem := same }

/-- An instruction that reads no byte outside `own` does the same on both cores. -/
theorem exec (agree : Core.Agree own left right)
    (general : ∀ register ∈ instr.sources, register < 31)
    (vector : ∀ register ∈ instr.sourcesQ, register < 32)
    (reads : ∀ addr, instr.Reads left.toCpu addr → own addr) :
    Core.Agree own (left.exec (.cpu instr)) (right.exec (.cpu instr)) := by
  have sameAddress : ∀ base offset, base < 31 →
      left.toCpu.address base offset = right.toCpu.address base offset := by
    intro base offset below
    rw [Cpu.address, Cpu.address, agree.x base below]
  cases instr with
  | stp first second base offset =>
      have first := general first (by simp [Instr.sources])
      have second := general second (by simp [Instr.sources])
      have base := general base (by simp [Instr.sources])
      apply agree.next.withMem
      rw [sameAddress _ _ base, sameAddress _ _ base, agree.x _ first, agree.x _ second]
      exact agree.mem.store.store
  | ldp first second base offset =>
      have base := general base (by simp [Instr.sources])
      refine (agree.next.setX ?_).setX ?_
      · rw [agree.mem.load fun addr above below => reads addr (Or.inl ⟨above, below⟩),
          sameAddress _ _ base]
      · rw [agree.mem.load fun addr above below => reads addr (Or.inr ⟨above, below⟩),
          sameAddress _ _ base]
  | stpQ first second base offset =>
      have first := vector first (by simp [Instr.sourcesQ])
      have second := vector second (by simp [Instr.sourcesQ])
      have base := general base (by simp [Instr.sources])
      apply agree.next.withMem
      rw [sameAddress _ _ base, sameAddress _ _ base, agree.q _ first, agree.q _ second]
      exact agree.mem.store.store
  | ldpQ first second base offset =>
      have base := general base (by simp [Instr.sources])
      refine (agree.next.setQ ?_).setQ ?_
      · rw [agree.mem.load fun addr above below => reads addr (Or.inl ⟨above, below⟩),
          sameAddress _ _ base]
      · rw [agree.mem.load fun addr above below => reads addr (Or.inr ⟨above, below⟩),
          sameAddress _ _ base]
  | str source base offset =>
      have source := general source (by simp [Instr.sources])
      have base := general base (by simp [Instr.sources])
      apply agree.next.withMem
      rw [sameAddress _ _ base, agree.x _ source]
      exact agree.mem.store
  | ldr target base offset =>
      have base := general base (by simp [Instr.sources])
      apply agree.next.setX
      rw [agree.mem.load fun addr above below => reads addr ⟨above, below⟩, sameAddress _ _ base]
  | mov target source => exact agree.next.setX (agree.x _ (general source (by simp [Instr.sources])))
  | movFromSp target => exact agree.next.setX agree.sp
  | movToSp source =>
      exact { agree.next with sp := agree.x _ (general source (by simp [Instr.sources])) }
  | b target => exact { agree with pc := rfl }
  | bl target => exact { agree.setX (congrArg (· + 4) agree.pc) with pc := rfl }
  | blr target =>
      exact { agree.setX (congrArg (· + 4) agree.pc) with
        pc := agree.x _ (general target (by simp [Instr.sources])) }
  | ret => exact { agree with pc := agree.x 30 (by decide) }

/-- The rule for programs on a core: `alone` is the run of the program by itself,
what each of its steps does depends on the registers and on the bytes `own` it
uses at this point, and foreign steps leave both alone. -/
theorem interleaved {program : Core → Core → Prop} {foreign : Nat → Core → Core → Prop}
    (alone : Nat → Core) (own : Nat → Nat → Prop) {count : Nat} {last : Core}
    (run : Interleaved program foreign (alone 0) count last)
    (confined : ∀ step, step < count → ∀ core core',
      Core.Agree (own step) (alone step) core → program core core' →
        Core.Agree (own (step + 1)) (alone (step + 1)) core')
    (unnoticed : ∀ step, step ≤ count → ∀ core core',
      Core.Agree (own step) (alone step) core → foreign step core core' →
        Core.Agree (own step) core core') :
    Core.Agree (own count) (alone count) last := by
  refine run.holds (fun step core => Core.Agree (own step) (alone step) core) (Nat.le_refl count)
    (refl (own 0) (alone 0)) confined ?_
  intro step below core core' agree taken
  exact agree.trans (unnoticed step below core core' agree taken)

end Core.Agree

end UniKernel.Lib
