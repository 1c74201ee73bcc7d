import UniKernel.Lib.Aarch64

/-!
Owns the code that sets a 64-bit Arm core up: system registers, the interrupt masks, and
the instructions between them, with loops. Also the runs of any processor that has a
program counter: straight blocks, and one run behind another.
-/

namespace UniKernel.Lib

universe u v

/-! ### Processors -/

/-- A state with a program counter, and what an instruction does to it. -/
structure Processor (σ : Type u) (ι : Type v) where
  pc : σ → BitVec 64
  exec : σ → ι → σ

namespace Processor

variable {σ : Type u} {ι : Type v} (p : Processor σ ι) (fetch : BitVec 64 → Option ι)

/-- `count` instructions of the code that `fetch` finds. -/
def steps : Nat → σ → Option σ
  | 0, s => some s
  | count + 1, s => (fetch (p.pc s)).bind fun instr => steps count (p.exec s instr)

/-- The instructions `code` are in memory from `start` on. -/
def Loaded : (start : BitVec 64) → List ι → Prop
  | _, [] => True
  | start, instr :: rest => fetch start = some instr ∧ Loaded (start + 4) rest

instance decidableLoaded [DecidableEq ι] :
    (start : BitVec 64) → (code : List ι) → Decidable (Loaded fetch start code)
  | _, [] => inferInstanceAs (Decidable True)
  | start, instr :: rest =>
      have := decidableLoaded (start + 4) rest
      inferInstanceAs (Decidable (fetch start = some instr ∧ Loaded fetch (start + 4) rest))

/-- `code` from `start` on, and nothing else. -/
def fetchFrom (start : BitVec 64) (code : List ι) (addr : BitVec 64) : Option ι :=
  code[(addr - start).toNat / 4]?

/-- The instruction goes on with the next one. -/
def Straight (instr : ι) : Prop := ∀ s, p.pc (p.exec s instr) = p.pc s + 4

/-- One instruction after the other. -/
def execAll (s : σ) (code : List ι) : σ := code.foldl p.exec s

variable {p fetch} {s : σ} {instr : ι} {code front back : List ι} {start : BitVec 64}

theorem steps_succ (found : fetch (p.pc s) = some instr) (count : Nat) :
    p.steps fetch (count + 1) s = p.steps fetch count (p.exec s instr) := by
  rw [steps, found, Option.bind_some]

theorem steps_one (found : fetch (p.pc s) = some instr) :
    p.steps fetch 1 s = some (p.exec s instr) := steps_succ found 0

theorem steps_add (first second : Nat) :
    p.steps fetch (first + second) s = (p.steps fetch first s).bind (p.steps fetch second) := by
  induction first generalizing s with
  | zero => rw [Nat.zero_add, steps, Option.bind_some]
  | succ first inductionHypothesis =>
      rw [Nat.succ_add, steps, steps, Option.bind_assoc]
      apply Option.bind_congr
      intro instr _
      exact inductionHypothesis

/-- One run behind another. -/
theorem steps_trans {middle last : σ} {first second : Nat}
    (toMiddle : p.steps fetch first s = some middle)
    (toLast : p.steps fetch second middle = some last) :
    p.steps fetch (first + second) s = some last := by
  rw [steps_add, toMiddle, Option.bind_some, toLast]

/-- The address of the instruction `count` behind the next one. -/
theorem address_succ (start : BitVec 64) (count : Nat) :
    start + 4 + .ofNat 64 (4 * count) = start + .ofNat 64 (4 * (count + 1)) := by
  have four : (4 : BitVec 64) = .ofNat 64 4 := rfl
  rw [Nat.mul_succ, Nat.add_comm (4 * count), BitVec.ofNat_add, BitVec.add_assoc, four]

theorem loaded_append : Loaded fetch start (front ++ back) ↔
    Loaded fetch start front ∧ Loaded fetch (start + .ofNat 64 (4 * front.length)) back := by
  induction front generalizing start with
  | nil => simp [Loaded]
  | cons first rest inductionHypothesis =>
      rw [List.cons_append, Loaded, Loaded, inductionHypothesis, List.length_cons, address_succ,
        and_assoc]

/-- A straight block, and where it ends. -/
theorem steps_block (straight : ∀ instr ∈ code, p.Straight instr)
    (loaded : Loaded fetch (p.pc s) code) :
    p.steps fetch code.length s = some (p.execAll s code) ∧
      p.pc (p.execAll s code) = p.pc s + .ofNat 64 (4 * code.length) := by
  induction code generalizing s with
  | nil => exact ⟨rfl, (BitVec.add_zero _).symm⟩
  | cons first rest inductionHypothesis =>
      rw [List.forall_mem_cons] at straight
      have isNext := straight.1 s
      have later : Loaded fetch (p.pc (p.exec s first)) rest := by
        rw [isNext]
        exact loaded.2
      obtain ⟨runs, ends⟩ := inductionHypothesis straight.2 later
      refine ⟨(steps_succ loaded.1 _).trans runs, ends.trans ?_⟩
      rw [isNext, List.length_cons, address_succ]

end Processor

/-! ### The core -/

/-- System registers of a core at EL1. -/
inductive SystemReg where
  | vbarEl1 | cpacrEl1 | sctlrEl1 | ttbr0El1 | ttbr1El1 | mairEl1 | tcrEl1
deriving DecidableEq, Repr

structure SystemCore extends Cpu where
  pstate : BitVec 64
  sys : SystemReg → BitVec 64

/-- The instructions, under their mnemonics. `ldrSymbol` is `ldr` of an address from the
literal pool, or `adr`. -/
inductive SystemInstr where
  | cpu (instr : Instr)
  | ldrSymbol (target : Nat) (symbol : BitVec 64)
  | mrs (target : Nat) (register : SystemReg)
  | msr (register : SystemReg) (source : Nat)
  | orr (target source : Nat) (bits : BitVec 64)
  | bic (target source : Nat) (bits : BitVec 64)
  | mov (target : Nat) (value : BitVec 64)
  | sub (target left right : Nat)
  | subImmediate (target source : Nat) (amount : BitVec 64)
  | strPost (source base amount : Nat)
  | daifclr (bits : Nat)
  | isb
  | cbz (register : Nat) (target : BitVec 64)
  | cbnz (register : Nat) (target : BitVec 64)
  | br (register : Nat)
deriving DecidableEq, Repr

namespace SystemCore

def next (core : SystemCore) : SystemCore := { core with pc := core.pc + 4 }

def setX (core : SystemCore) (register : Nat) (value : BitVec 64) : SystemCore :=
  { core with x := Function.update core.x register value }

def exec (core : SystemCore) : SystemInstr → SystemCore
  | .cpu instr => { core with toCpu := core.toCpu.exec instr }
  | .ldrSymbol target symbol => core.next.setX target symbol
  | .mrs target register => core.next.setX target (core.sys register)
  | .msr register source =>
      { core.next with sys := Function.update core.sys register (core.x source) }
  | .orr target source bits => core.next.setX target (core.x source ||| bits)
  | .bic target source bits => core.next.setX target (core.x source &&& ~~~bits)
  | .mov target value => core.next.setX target value
  | .sub target left right => core.next.setX target (core.x left - core.x right)
  | .subImmediate target source amount => core.next.setX target (core.x source - amount)
  | .strPost source base amount =>
      { core.next.setX base (core.x base + .ofNat 64 amount) with
        mem := core.mem.store (core.x base).toNat 8 (core.x source).toNat }
  | .daifclr bits => { core.next with pstate := core.pstate &&& ~~~(BitVec.ofNat 64 bits <<< 6) }
  | .isb => core.next
  | .cbz register target => { core with pc := if core.x register = 0 then target else core.pc + 4 }
  | .cbnz register target => { core with pc := if core.x register ≠ 0 then target else core.pc + 4 }
  | .br register => { core with pc := core.x register }

/-- The core as a processor. -/
def processor : Processor SystemCore SystemInstr where
  pc core := core.pc
  exec := exec

end SystemCore

/-- The instruction goes on with the next one. -/
def SystemInstr.straight : SystemInstr → Bool
  | .cpu instr => instr.straight
  | .cbz .. | .cbnz .. | .br _ => false
  | _ => true

theorem SystemInstr.straight_of {instr : SystemInstr} (straight : instr.straight = true) :
    SystemCore.processor.Straight instr := by
  intro core
  cases instr with
  | cpu instr => exact Cpu.exec_pc straight
  | cbz | cbnz | br => cases straight
  | _ => rfl

theorem SystemInstr.straight_of_all {code : List SystemInstr}
    (straight : code.all SystemInstr.straight = true) :
    ∀ instr ∈ code, SystemCore.processor.Straight instr :=
  fun instr member => straight_of (List.all_eq_true.mp straight instr member)

end UniKernel.Lib
