import UniKernel.CString.Model
import UniKernel.Lib.Aarch64
import UniKernel.Lib.Transition

/-!
Owns `src/switch.S` and the saved contexts it works on: the layout of
`struct cpu_context` and `task_t`, the code of `cpu_switch_to` and
`ret_from_fork`, what `pthread_create` stores in a new context, and the steps of
one core among its tasks. Between two switches a core runs any code that leaves
the contexts of the tasks it does not run alone.
-/

namespace UniKernel.Context

open UniKernel.Lib

/-! ### Layout -/

/-- The fields of `struct cpu_context`. -/
inductive Field where
  | x19 | x20 | x21 | x22 | x23 | x24 | x25 | x26 | x27 | x28 | fp | lr | sp
  | q8 | q9 | q10 | q11 | q12 | q13 | q14 | q15
deriving DecidableEq, Repr

/-- `uint64_t`, or `__uint128_t` -/
def Field.size : Field → Nat
  | .q8 | .q9 | .q10 | .q11 | .q12 | .q13 | .q14 | .q15 => 16
  | _ => 8

/-- The fields in the order of the declaration. -/
def cpuContext : List Field :=
  [.x19, .x20, .x21, .x22, .x23, .x24, .x25, .x26, .x27, .x28, .fp, .lr, .sp,
    .q8, .q9, .q10, .q11, .q12, .q13, .q14, .q15]

/-- `offsetof(struct cpu_context, field)` -/
def Field.offset (field : Field) : Nat := fieldOffset Field.size field 0 cpuContext

/-- `sizeof(struct cpu_context)` -/
def contextSize : Nat := alignUp (fieldsEnd Field.size 0 cpuContext) 16

/-- `sizeof(task_t)`: the context comes first; behind it are `id`, `state`,
`priority` and five pointers. -/
def taskSize : Nat := alignUp (fieldsEnd id contextSize [8, 4, 4, 8, 8, 8, 8, 8]) 16

/-- The bytes of the context of `t`. -/
def InContext (t addr : Nat) : Prop := t ≤ addr ∧ addr < t + contextSize

/-! ### `switch.S` -/

/-- The first half of `cpu_switch_to`: the registers go to the context at x0. -/
def saveContext : List Instr :=
  [.stp 19 20 0 0, .stp 21 22 0 16, .stp 23 24 0 32, .stp 25 26 0 48, .stp 27 28 0 64,
    .stp 29 30 0 80,
    .movFromSp 9, .str 9 0 96,
    .stpQ 8 9 0 112, .stpQ 10 11 0 144, .stpQ 12 13 0 176, .stpQ 14 15 0 208]

/-- The second half: they come from the context at x1. -/
def loadContext : List Instr :=
  [.ldp 19 20 1 0, .ldp 21 22 1 16, .ldp 23 24 1 32, .ldp 25 26 1 48, .ldp 27 28 1 64,
    .ldp 29 30 1 80,
    .ldr 9 1 96, .movToSp 9,
    .ldpQ 8 9 1 112, .ldpQ 10 11 1 144, .ldpQ 12 13 1 176, .ldpQ 14 15 1 208]

def cpuSwitchTo : List Instr := saveContext ++ loadContext ++ [.ret]

/-- `ret_from_fork`, placed at `start`. -/
def retFromFork (start schedUnlockRelease pthreadExit : BitVec 64) : List Instr :=
  [.bl schedUnlockRelease, .mov 0 20, .blr 19, .bl pthreadExit, .b (start + 16)]

/-- The linked kernel: what is in code memory, and the addresses of symbols. -/
structure Image where
  fetch : BitVec 64 → Option Instr
  cpuSwitchTo : BitVec 64
  retFromFork : BitVec 64
  schedUnlockRelease : BitVec 64
  pthreadExit : BitVec 64
  switchLoaded : LoadedAt fetch cpuSwitchTo Context.cpuSwitchTo
  forkLoaded : LoadedAt fetch retFromFork
    (Context.retFromFork retFromFork schedUnlockRelease pthreadExit)

/-! ### `pthread_create` -/

/-- The arguments of `pthread_create` and the stack it takes for the thread. -/
structure NewThread where
  startRoutine : BitVec 64
  arg : BitVec 64
  stackPage : BitVec 64
  stackSize : BitVec 64
deriving DecidableEq, Repr

/-- The upper end of the thread's stack. -/
def NewThread.stackTop (thread : NewThread) : BitVec 64 := thread.stackPage + thread.stackSize

/-- `(stack_page + stack_size) & ~0xF` -/
def NewThread.sp (thread : NewThread) : BitVec 64 := thread.stackTop &&& ~~~0xF#64

/-- The stores of `pthread_create` into the context of `t`. -/
def storeContext (retFromFork : BitVec 64) (thread : NewThread) (t : Nat) (mem : Memory) :
    Memory :=
  let mem := mem.store (t + Field.sp.offset) 8 thread.sp.toNat
  let mem := mem.store (t + Field.lr.offset) 8 retFromFork.toNat
  let mem := mem.store (t + Field.x20.offset) 8 thread.arg.toNat
  mem.store (t + Field.x19.offset) 8 thread.startRoutine.toNat

/-! ### A core and its tasks -/

/-- How a task that is not running came to its saved context: it entered
`cpu_switch_to` with these registers, or `pthread_create` made it. -/
inductive Origin where
  | entered (cpu : Cpu)
  | created (thread : NewThread)

/-- A core, the task it runs, the task structs in use, and for each the origin
of its saved context, which the code does not keep. -/
structure System where
  cpu : Cpu
  current : Nat
  tasks : Nat → Bool
  origin : Nat → Option Origin

/-- A byte of the context of a task that does not run. -/
def System.Saved (s : System) (addr : Nat) : Prop :=
  ∃ t, s.tasks t = true ∧ t ≠ s.current ∧ InContext t addr

inductive Event where
  | run
  | create (t : Nat) (thread : NewThread)
  | free (t : Nat)
  | switchTo (next : Nat)

/-- `malloc` returned `t` as a new struct. -/
structure FreshTask (s : System) (t : Nat) : Prop where
  unused : s.tasks t = false
  room : t + taskSize ≤ 2 ^ 64
  apart : ∀ other, s.tasks other = true → t + taskSize ≤ other ∨ other + taskSize ≤ t

inductive Step (image : Image) : System → Event → System → Prop where
  /-- any code: no register is kept, and no memory outside the saved contexts -/
  | run {s : System} {cpu : Cpu} (same : Memory.AgreeOn s.Saved s.cpu.mem cpu.mem) :
      Step image s .run { s with cpu := cpu }
  /-- `pthread_create`: `middle` is the memory once the struct is cleared, the
  stack allocated and the other fields set -/
  | create {s : System} {t : Nat} {thread : NewThread} {middle : Memory} {cpu : Cpu}
      (fresh : FreshTask s t)
      (same : Memory.AgreeOn (fun addr => s.Saved addr ∨ InContext t addr)
        (CString.memset t 0 taskSize s.cpu.mem) middle)
      (stored : cpu.mem = storeContext image.retFromFork thread t middle) :
      Step image s (.create t thread)
        { s with
          cpu := cpu
          tasks := Function.update s.tasks t true
          origin := Function.update s.origin t (some (.created thread)) }
  | free {s : System} {t : Nat} (other : t ≠ s.current) :
      Step image s (.free t) { s with tasks := Function.update s.tasks t false }
  /-- a call `cpu_switch_to(current, next)` -/
  | switchTo {s : System} {next : Nat} (here : s.cpu.pc = image.cpuSwitchTo)
      (prevArg : (s.cpu.x 0).toNat = s.current) (nextArg : (s.cpu.x 1).toNat = next)
      (known : s.tasks next = true) :
      Step image s (.switchTo next)
        { s with
          cpu := s.cpu.execAll cpuSwitchTo
          current := next
          origin := Function.update s.origin s.current (some (.entered s.cpu)) }

/-- One task, which runs. -/
structure Initial (s : System) : Prop where
  tasks : ∀ t, s.tasks t = true ↔ t = s.current
  room : s.current + taskSize ≤ 2 ^ 64

end UniKernel.Context
