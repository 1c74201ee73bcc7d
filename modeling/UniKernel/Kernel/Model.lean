import UniKernel.Context.Model
import UniKernel.Heap.Runs
import UniKernel.Pthread.CallerStacks

/-!
Owns the scheduler of `pthread.c` on the heap of `heap.c`: here `malloc` returns what the
heap's memory says, and `free` changes that memory. The program on top allocates and frees
blocks of its own, and anybody stores to live blocks: `task_t`, stacks, and the program's.
-/

namespace UniKernel.Kernel

open UniKernel.Context (taskSize)
open UniKernel.Pthread hiding Machine Step

structure State where
  program : Program
  heap : Heap.Machine

def State.machine (s : State) : Pthread.Machine := s.program.machine

/-! ### Calls of the heap -/

def callHeap (call : Heap.Call) (m : Heap.Machine) : Nat × Heap.Machine :=
  let (result, heap) := call.perform m.heap
  (result, ⟨heap, call.live result m.live⟩)

def malloc (size : Nat) (m : Heap.Machine) : Nat × Heap.Machine := callHeap (.malloc size) m

def free (ptr : Nat) (m : Heap.Machine) : Heap.Machine := (callHeap (.free ptr) m).2

/-- The `malloc`s of `pthread_create`, and its `free` when one fails. -/
def allocate (attr : Option Attr) (m : Heap.Machine) : Allocation × Heap.Machine :=
  let (task, m) := malloc taskSize m
  if task = 0 then (⟨0, 0, 0⟩, m)
  else if SuppliesStack attr then (⟨task, 0, 0⟩, m)
  else
    let (firstStack, m) := malloc (Machine.stackSize attr) m
    if firstStack = 0 then (⟨task, 0, 0⟩, free task m)
    else
      let (stack, m) := malloc (Machine.stackSize attr) m
      if stack = 0 then (⟨task, firstStack, 0⟩, free task m)
      else (⟨task, firstStack, stack⟩, m)

/-- The `malloc`s of `sched_init` and of `sched_init_secondary`: for the idle task, and for
the task that runs already. -/
def allocateInit (m : Heap.Machine) : Allocation × Nat × Heap.Machine :=
  let (idle, m) := allocate none m
  let (own, m) := malloc taskSize m
  (idle, own, m)

/-- The `malloc`s of an initialisation succeed, which it does not check. -/
structure Enough (idle : Allocation) (own : Nat) : Prop where
  task : idle.task ≠ 0
  firstStack : idle.firstStack ≠ 0
  stack : idle.stack ≠ 0
  own : own ≠ 0

/-- The first lines of `sched_yield`. -/
def reap (m : Pthread.Machine) (c : Core) (heap : Heap.Machine) : Heap.Machine :=
  let deadTask := m.slot c
  if deadTask ≠ 0 then free deadTask (free (m.sched.tasks deadTask).stackPage heap) else heap

/-! ### Steps -/

inductive Action where
  | scheduler (action : Pthread.Action)
  | malloc (size ptr : Nat)
  | free (ptr : Nat)
  | store
deriving DecidableEq, Repr

/-- What the program sees: a `malloc` that fails is nothing. -/
def Action.seen : Action → Option ProgramAction
  | .scheduler action => some (.scheduler action)
  | .malloc size ptr => if ptr = 0 then none else some (.malloc ptr size)
  | .free ptr => some (.free ptr)
  | .store => none

/-- The step calls neither `malloc` nor `free`. -/
def quiet : Pthread.Action → Bool
  | .create .. | .initSecondary .. | .yieldEnter _ => false
  | _ => true

inductive Step : State → Action → State → Prop where
  | quiet {s : State} {action : Pthread.Action} {m' : Pthread.Machine}
      (isQuiet : quiet action = true) (taken : Pthread.Step s.machine action m') :
      Step s (.scheduler action) { s with program := { s.program with machine := m' } }
  | create {s : State} {c : Core} {attr : Option Attr} {alloc : Allocation} {heap : Heap.Machine}
      (here : s.machine.pc c = .user) (fits : Machine.stackSize attr < 2 ^ 64)
      (allocated : allocate attr s.heap = (alloc, heap)) :
      Step s (.scheduler (.create c attr alloc))
        ⟨⟨s.machine.create c attr alloc, s.program.owned,
          s.program.suppliedAfter (.create c attr alloc)⟩, heap⟩
  | initSecondary {s : State} {c : Core} {idle : Allocation} {own : Nat} {heap : Heap.Machine}
      (here : s.machine.pc c = .offline) (allocated : allocateInit s.heap = (idle, own, heap))
      (enough : Enough idle own) :
      Step s (.scheduler (.initSecondary c idle own))
        ⟨{ s.program with machine := s.machine.schedInitSecondary c idle own }, heap⟩
  | yieldEnter {s : State} {c : Core} {caller : Caller} (here : s.machine.pc c = .yieldEnter caller) :
      Step s (.scheduler (.yieldEnter c))
        ⟨{ s.program with machine := s.machine.yieldEnter c caller }, reap s.machine c s.heap⟩
  | mallocFails {s : State} {size : Nat} {heap : Heap.Machine} (small : size < 2 ^ 64)
      (failed : malloc size s.heap = (0, heap)) :
      Step s (.malloc size 0) { s with heap := heap }
  | malloc {s : State} {size ptr : Nat} {heap : Heap.Machine} (small : size < 2 ^ 64)
      (returned : malloc size s.heap = (ptr, heap)) (nonzero : ptr ≠ 0) :
      Step s (.malloc size ptr)
        ⟨⟨s.machine.allocBlock ptr size, Function.update s.program.owned ptr (some size),
          s.program.supplied⟩, heap⟩
  | free {s : State} {ptr size : Nat} (owns : s.program.owned ptr = some size) :
      Step s (.free ptr)
        ⟨⟨s.machine.freeBlock ptr, Function.update s.program.owned ptr none, s.program.supplied⟩,
          free ptr s.heap⟩
  | store {s : State} {block : Heap.Block} {addr : Nat} (value : UInt8) (live : block ∈ s.heap.live)
      (inside : block.Contains addr) :
      Step s .store { s with heap := (callHeap (.write addr value) s.heap).2 }

/-- After `heap_init` and `sched_init`. -/
def booted (idle : Allocation) (own : Nat) (heap : Heap.Machine) : State where
  program := ⟨Machine.schedInit idle own, fun _ => none, fun _ => none⟩
  heap := heap

end UniKernel.Kernel
