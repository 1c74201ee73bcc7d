import UniKernel.Lib.Exceptions

/-!
Owns the exception entries of `src/boot.S` and the handlers of
`src/exceptions.c` they call: the layout of `trapframe_t`, `SAVE_CONTEXT` and
`RESTORE_CONTEXT`, the vector table, and what an interrupt or a synchronous
exception does to the core between two instructions of a program.
-/

namespace UniKernel.Exception

open UniKernel.Lib

/-! ### Layout -/

/-- The fields of `trapframe_t`. -/
inductive Field where
  | x (number : Fin 31)
  | padding
  | spEl0 | elrEl1 | spsrEl1
  | padding2
  | q (number : Fin 32)
  | fpsr | fpcr
  | padding3
deriving DecidableEq, Repr

/-- `uint64_t`, `__uint128_t` or `uint32_t` -/
def Field.size : Field → Nat
  | .q _ => 16
  | .fpsr | .fpcr => 4
  | _ => 8

/-- The fields in the order of the declaration. -/
def trapframe : List Field :=
  (List.finRange 31).map .x ++ [.padding, .spEl0, .elrEl1, .spsrEl1, .padding2] ++
    (List.finRange 32).map .q ++ [.fpsr, .fpcr, .padding3]

/-- `offsetof(trapframe_t, field)` -/
def Field.offset (field : Field) : Nat := fieldOffset Field.size field 0 trapframe

/-- `sizeof(trapframe_t)` -/
def trapframeSize : Nat := alignUp (fieldsEnd Field.size 0 trapframe) 16

/-- What a field holds for a core that was interrupted; padding holds nothing. -/
def Field.value (core : Core) : Field → Option Nat
  | .x number => some (core.x number).toNat
  | .spEl0 => some core.spEl0.toNat
  | .elrEl1 => some core.pc.toNat
  | .spsrEl1 => some core.pstate.toNat
  | .q number => some (core.q number).toNat
  | .fpsr => some core.fpsr.toNat
  | .fpcr => some core.fpcr.toNat
  | .padding | .padding2 | .padding3 => none

/-- There is a `trapframe_t` of `core` at `frame`. -/
def FrameAt (mem : Memory) (frame : Nat) (core : Core) : Prop :=
  ∀ (field : Field) (value : Nat), field.value core = some value →
    mem.load (frame + field.offset) field.size = value

/-! ### `boot.S` -/

/-- `SAVE_CONTEXT`: room for the frame and the general registers, -/
def saveGeneral : List CoreInstr :=
  [.stpSp 0 1 (16 * 0), .stpSp 2 3 (16 * 1), .stpSp 4 5 (16 * 2), .stpSp 6 7 (16 * 3),
    .stpSp 8 9 (16 * 4), .stpSp 10 11 (16 * 5), .stpSp 12 13 (16 * 6), .stpSp 14 15 (16 * 7),
    .stpSp 16 17 (16 * 8), .stpSp 18 19 (16 * 9), .stpSp 20 21 (16 * 10), .stpSp 22 23 (16 * 11),
    .stpSp 24 25 (16 * 12), .stpSp 26 27 (16 * 13), .stpSp 28 29 (16 * 14), .strSp 30 (16 * 15)]

/-- the stack pointer of EL0 and what the exception stored, -/
def saveSpecial : List CoreInstr :=
  [.mrs 0 .spEl0, .strSp 0 256, .mrs 0 .elrEl1, .mrs 1 .spsrEl1, .stpSp 0 1 264]

/-- the vector registers, -/
def saveVector : List CoreInstr :=
  [.stpQSp 0 1 288, .stpQSp 2 3 320, .stpQSp 4 5 352, .stpQSp 6 7 384, .stpQSp 8 9 416,
    .stpQSp 10 11 448, .stpQSp 12 13 480, .stpQSp 14 15 512, .stpQSp 16 17 544,
    .stpQSp 18 19 576, .stpQSp 20 21 608, .stpQSp 22 23 640, .stpQSp 24 25 672,
    .stpQSp 26 27 704, .stpQSp 28 29 736, .stpQSp 30 31 768]

/-- and the floating-point status and control registers. -/
def saveFloat : List CoreInstr :=
  [.mrs 21 .fpsr, .mrs 22 .fpcr, .strWSp 21 800, .strWSp 22 804]

def saveContext : List CoreInstr :=
  .subSp 816 :: (saveGeneral ++ saveSpecial ++ saveVector ++ saveFloat)

/-- `RESTORE_CONTEXT`, in the same four parts -/
def restoreFloat : List CoreInstr :=
  [.ldrWSp 21 800, .ldrWSp 22 804, .msr .fpsr 21, .msr .fpcr 22]

def restoreVector : List CoreInstr :=
  [.ldpQSp 0 1 288, .ldpQSp 2 3 320, .ldpQSp 4 5 352, .ldpQSp 6 7 384, .ldpQSp 8 9 416,
    .ldpQSp 10 11 448, .ldpQSp 12 13 480, .ldpQSp 14 15 512, .ldpQSp 16 17 544,
    .ldpQSp 18 19 576, .ldpQSp 20 21 608, .ldpQSp 22 23 640, .ldpQSp 24 25 672,
    .ldpQSp 26 27 704, .ldpQSp 28 29 736, .ldpQSp 30 31 768]

def restoreSpecial : List CoreInstr :=
  [.ldpSp 0 1 264, .msr .elrEl1 0, .msr .spsrEl1 1, .ldrSp 0 256, .msr .spEl0 0]

def restoreGeneral : List CoreInstr :=
  [.ldpSp 0 1 (16 * 0), .ldpSp 2 3 (16 * 1), .ldpSp 4 5 (16 * 2), .ldpSp 6 7 (16 * 3),
    .ldpSp 8 9 (16 * 4), .ldpSp 10 11 (16 * 5), .ldpSp 12 13 (16 * 6), .ldpSp 14 15 (16 * 7),
    .ldpSp 16 17 (16 * 8), .ldpSp 18 19 (16 * 9), .ldpSp 20 21 (16 * 10), .ldpSp 22 23 (16 * 11),
    .ldpSp 24 25 (16 * 12), .ldpSp 26 27 (16 * 13), .ldpSp 28 29 (16 * 14), .ldrSp 30 (16 * 15)]

def restoreContext : List CoreInstr :=
  restoreFloat ++ restoreVector ++ restoreSpecial ++ restoreGeneral ++ [.addSp 816]

/-- `irq_entry` and `sync_entry` up to the call of their handler, -/
def callHandler (handler : BitVec 64) : List CoreInstr :=
  saveContext ++ [.cpu (.movFromSp 0)] ++ [.cpu (.bl handler)]

/-- and from its return on. -/
def leaveHandler : List CoreInstr := restoreContext ++ [.eret]

/-- The exceptions that enter through `irq_entry` and `sync_entry`. -/
inductive Kind where
  | sync | irq
deriving DecidableEq, Repr

/-- The vectors of a core at EL1 on its own stack pointer. -/
def Kind.vector : Kind → Nat
  | .sync => 0x200
  | .irq => 0x280

/-- The linked kernel: what is in code memory, and the addresses of symbols. The
sixteen vectors are four times the same four branches. -/
structure Image where
  fetch : BitVec 64 → Option CoreInstr
  el1VectorTable : BitVec 64
  entry : Kind → BitVec 64
  handler : Kind → BitVec 64
  el1FiqHandler : BitVec 64
  el1SerrHandler : BitVec 64
  table : ∀ group, group < 4 →
    fetch (el1VectorTable + .ofNat 64 (0x200 * group)) = some (.cpu (.b (entry .sync))) ∧
    fetch (el1VectorTable + .ofNat 64 (0x200 * group + 0x80)) = some (.cpu (.b (entry .irq))) ∧
    fetch (el1VectorTable + .ofNat 64 (0x200 * group + 0x100)) =
      some (.cpu (.b el1FiqHandler)) ∧
    fetch (el1VectorTable + .ofNat 64 (0x200 * group + 0x180)) = some (.cpu (.b el1SerrHandler))
  callLoaded : ∀ kind, CodeAt fetch (entry kind) (callHandler (handler kind))
  leaveLoaded : ∀ kind,
    CodeAt fetch (entry kind + .ofNat 64 (4 * (callHandler (handler kind)).length)) leaveHandler

/-! ### Handlers -/

/-- What `el1_sync_handler` prints before it stops the core, with the values it
prints. `is_data` chooses between "Data Abort" and "Instruction Abort". -/
inductive Report where
  | unhandled (isData : Bool) (esr fsc : BitVec 64) (isWrite : Bool) (far : BitVec 64)
  | other (esr ec elr far : BitVec 64)
deriving DecidableEq, Repr

/-- `el1_sync_handler` for these values of `esr_el1`, `elr_el1` and `far_el1`; without
a report it returns, else it prints the report and waits for ever. -/
def el1SyncHandler (esr elr far : BitVec 64) : Option Report :=
  let ec := (esr >>> 26) &&& 0x3F
  let iss := esr &&& 0x1FFFFFF
  if ec = 0x20 ∨ ec = 0x21 ∨ ec = 0x24 ∨ ec = 0x25 then
    some (.unhandled ((ec &&& 1) != 0) esr (iss &&& 0x3F) (((iss >>> 6) &&& 1) != 0) far)
  else if ec = 0x3C then none
  else some (.other esr ec elr far)

/-- A handler as the compiler makes it, from its call to its return: it keeps the
call standard, and the bytes it writes are `touched`. -/
structure Handled (touched : Nat → Prop) (called returned : Core) : Prop where
  call : AfterCall called.toCpu returned.toCpu
  outside : ∀ addr, ¬ touched addr → returned.mem addr = called.mem addr
  vbarEl1 : returned.vbarEl1 = called.vbarEl1

/-- The bytes of the frame that an exception of `core` stores. -/
def InFrame (core : Core) (addr : Nat) : Prop :=
  core.sp.toNat - trapframeSize ≤ addr ∧ addr < core.sp.toNat

/-- Up to the call of the handler: the branch in the vector, then `callHandler`. -/
def entrySteps : Nat := 1 + (callHandler 0).length

/-- An exception that comes between two instructions of a program: entry, handler
and return. The handler does not write to the frame. -/
structure Taken (image : Image) (kind : Kind) (touched : Nat → Prop) (before after : Core) :
    Prop where
  vbarEl1 : before.vbarEl1 = image.el1VectorTable
  room : trapframeSize ≤ before.sp.toNat
  spared : ∀ addr, InFrame before addr → ¬ touched addr
  passes : ∃ called returned,
    (before.takeException kind.vector before.pc).steps image.fetch entrySteps = some called ∧
    Handled touched called returned ∧
    returned.steps image.fetch leaveHandler.length = some after

end UniKernel.Exception
