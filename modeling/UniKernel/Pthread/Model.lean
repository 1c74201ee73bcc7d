import Mathlib.Algebra.Ring.Nat
import Mathlib.Logic.Function.Basic

/-!
Owns the scheduler of `src/pthread.c`: the task struct, the file-scope
variables, and the functions on the runqueues. A task pointer is a number and
0 is NULL; the structs themselves are a function from pointers.

The registers a switch saves in `task->context` are represented by the place
in the code where the task goes on once a switch loads them.
-/

namespace UniKernel.Pthread

/-- A core number below `MAX_CPUS`. -/
abbrev Core := Fin 2

/-- `COUNT` -/
@[simp] def priorityCount : Nat := 5

/-- `IDLE` -/
@[simp] def idlePriority : Nat := 0

/-- `NORMAL` -/
@[simp] def normalPriority : Nat := 2

/-- `task_state` -/
inductive TaskState where
  | running
  | ready
  | exited
  | blocked
  | stopped
  | sleeping
deriving DecidableEq, Repr

/-- A call of `pthread_join`: its two arguments, and the number of the thread
the handle was issued for. The code knows the handle only. -/
structure Join where
  target : Nat
  thread : Nat
  valuePtr : Nat
deriving DecidableEq, Repr

/-- Where `sched_yield` was called: by the thread's own code, in the loop of
`pthread_join`, or at the end of `pthread_exit`. -/
inductive Caller where
  | user
  | join (call : Join)
  | exit
deriving DecidableEq, Repr

/-- What a switch to a task loads: the zeros `memset` left, the entry
`ret_from_fork` that `pthread_create` stores, or the return into `sched_yield`
behind `cpu_switch_to`. -/
inductive Context where
  | cleared
  | fork
  | yielded (caller : Caller)
deriving DecidableEq, Repr

/-- `task_t` -/
structure Task where
  context : Context
  id : Nat
  state : TaskState
  priority : Nat
  next : Nat
  prev : Nat
  stackPage : Nat
  retValue : Nat
  joinWaitQueue : Nat
deriving DecidableEq, Repr

/-- A struct after `memset(t, 0, sizeof(task_t))`. -/
def Task.zero : Task := ⟨.cleared, 0, .running, 0, 0, 0, 0, 0, 0⟩

/-- `cpu_core_t` without the core's own number. -/
structure CpuCore where
  task : Nat
  taskToFree : Nat
deriving DecidableEq, Repr

/-- The task structs and the file-scope variables of `pthread.c`. -/
structure State where
  tasks : Nat → Task
  runqueues : Nat → Nat
  runqueuesTail : Nat → Nat
  cores : Core → CpuCore
  tidCounter : Nat
  schedLock : Bool
  activePriorities : Nat

namespace State

/-- `current_task` on core `c`. -/
def current (s : State) (c : Core) : Nat := (s.cores c).task

def next (s : State) (t : Nat) : Nat := (s.tasks t).next

def prev (s : State) (t : Nat) : Nat := (s.tasks t).prev

def state (s : State) (t : Nat) : TaskState := (s.tasks t).state

def priority (s : State) (t : Nat) : Nat := (s.tasks t).priority

def setTask (s : State) (t : Nat) (task : Task) : State :=
  { s with tasks := Function.update s.tasks t task }

def setNext (s : State) (t value : Nat) : State := s.setTask t { s.tasks t with next := value }

def setPrev (s : State) (t value : Nat) : State := s.setTask t { s.tasks t with prev := value }

def setState (s : State) (t : Nat) (value : TaskState) : State :=
  s.setTask t { s.tasks t with state := value }

def setContext (s : State) (t : Nat) (value : Context) : State :=
  s.setTask t { s.tasks t with context := value }

def setRetValue (s : State) (t value : Nat) : State :=
  s.setTask t { s.tasks t with retValue := value }

def setJoinWaitQueue (s : State) (t value : Nat) : State :=
  s.setTask t { s.tasks t with joinWaitQueue := value }

def setHead (s : State) (prio t : Nat) : State :=
  { s with runqueues := Function.update s.runqueues prio t }

def setTail (s : State) (prio t : Nat) : State :=
  { s with runqueuesTail := Function.update s.runqueuesTail prio t }

def setCurrent (s : State) (c : Core) (t : Nat) : State :=
  { s with cores := Function.update s.cores c { s.cores c with task := t } }

def setTaskToFree (s : State) (c : Core) (t : Nat) : State :=
  { s with cores := Function.update s.cores c { s.cores c with taskToFree := t } }

def setLock (s : State) (taken : Bool) : State := { s with schedLock := taken }

/-! ### The runqueues -/

/-- `active_priorities |= (1 << prio)` -/
def markActive (s : State) (prio : Nat) : State :=
  { s with activePriorities := s.activePriorities ||| 1 <<< prio }

/-- `active_priorities &= ~(1 << prio)`, on 32 bits. -/
def markInactive (s : State) (prio : Nat) : State :=
  { s with activePriorities := s.activePriorities &&& ((2 ^ 32 - 1) ^^^ 1 <<< prio) }

def schedEnqueueTask (t : Nat) (s : State) : State :=
  let prio := s.priority t
  let s := (s.setNext t 0).setPrev t 0
  let s :=
    if s.runqueues prio = 0 then (s.setHead prio t).setTail prio t
    else
      let s := s.setPrev t (s.runqueuesTail prio)
      let s := s.setNext (s.runqueuesTail prio) t
      s.setTail prio t
  s.markActive prio

def schedDequeueTask (t : Nat) (s : State) : State :=
  let prio := s.priority t
  let s :=
    if s.prev t ≠ 0 then s.setNext (s.prev t) (s.next t)
    else if s.runqueues prio = t then s.setHead prio (s.next t) else s
  let s :=
    if s.next t ≠ 0 then s.setPrev (s.next t) (s.prev t)
    else if s.runqueuesTail prio = t then s.setTail prio (s.prev t) else s
  let s := (s.setNext t 0).setPrev t 0
  if s.runqueues prio = 0 then s.markInactive prio else s

/-! ### The locked part of `sched_yield` -/

/-- `31 - __builtin_clz(active_priorities)`, cut to the last runqueue. -/
def highestPrio (s : State) : Nat :=
  if Nat.log2 s.activePriorities ≥ priorityCount then priorityCount - 1
  else Nat.log2 s.activePriorities

/-- A running caller that is not idle goes back to its runqueue. -/
def requeue (prevTask : Nat) (s : State) : State :=
  if prevTask ≠ 0 ∧ s.state prevTask = .running ∧ s.priority prevTask ≠ idlePriority then
    (s.setState prevTask .ready).schedEnqueueTask prevTask
  else s

/-- The choice of `next_task` on core `c`. -/
def nextTask (c : Core) (s : State) : Nat :=
  let nextTask := if s.activePriorities > 0 then s.runqueues s.highestPrio else 0
  if nextTask = 0 then s.current c else nextTask

/-- The chosen task leaves its runqueue and becomes `TASK_RUNNING`. -/
def makeRunning (nextTask : Nat) (s : State) : State :=
  if nextTask ≠ 0 ∧ s.priority nextTask ≠ idlePriority then
    (s.schedDequeueTask nextTask).setState nextTask .running
  else if nextTask ≠ 0 then s.setState nextTask .running
  else s

end State

end UniKernel.Pthread
