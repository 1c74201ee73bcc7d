import UniKernel.Pthread.Model

/-!
Owns the two cores running the scheduler: where each core stands in the code,
and the steps a core can take. A part of a function that runs under
`sched_lock` is one step up to its unlock, each iteration of the wake-up loop
of `pthread_exit` is a step, and so is every access made without the lock. A
thread's own code may call any of the four functions at any time.

`History` keeps what the code does not: which thread a struct was made for,
which handles were returned, which threads have run, what each passed to
`pthread_exit`, and which tasks joined a task and were not woken yet.
-/

namespace UniKernel.Pthread

/-- What a core does once it has released `sched_lock`. -/
inductive AfterUnlock where
  | created (t thread : Nat)
  | yielded (caller : Caller)
  | joinWaiting (call : Join)
  | joinDone (call : Join)
  | exited
deriving DecidableEq, Repr

/-- Where a core stands in the code. -/
inductive Pc where
  /-- not started -/
  | offline
  /-- in a thread's own code -/
  | user
  /-- `pthread_create`, before taking the lock -/
  | createLock (t : Nat)
  /-- `pthread_join`, before the test of its loop -/
  | joinLoop (call : Join)
  /-- `pthread_join`, before reading `t->ret_value` -/
  | joinRead (call : Join)
  /-- `pthread_exit`, before the test of its loop, with the lock -/
  | exitWake (waiting : Nat)
  /-- `while(1)` at the end of `pthread_exit` -/
  | exitSpin
  /-- first line of `sched_yield` -/
  | yieldEnter (caller : Caller)
  /-- `sched_yield`, before taking the lock -/
  | yieldLock (caller : Caller)
  /-- before an unlock in `pthread.c`, with the lock -/
  | unlock (after : AfterUnlock)
  /-- `ret_from_fork`, before `sched_unlock_release`, with the lock -/
  | forkUnlock
  /-- at address 0, loaded from a cleared context -/
  | lost
deriving DecidableEq, Repr

/-- Where a core goes on after loading a context. -/
def Context.resume : Context → Pc
  | .cleared => .lost
  | .fork => .forkUnlock
  | .yielded caller => .unlock (.yielded caller)

/-- Where a core goes on after `pthread_spin_unlock`. -/
def AfterUnlock.resume : AfterUnlock → Pc
  | .created _ _ => .user
  | .yielded .user => .user
  | .yielded (.join call) => .joinLoop call
  | .yielded .exit => .exitSpin
  | .joinWaiting call => .joinLoop call
  | .joinDone call => .joinRead call
  | .exited => .yieldEnter .exit

/-- The fields of `pthread_attr_t` that `pthread_create` reads. -/
structure Attr where
  stacksize : Nat
  stackaddr : Nat
  schedparam : Nat
  isInitialized : Bool
deriving DecidableEq, Repr

/-- What the calls of `malloc` in one `pthread_create` return: the struct, and
the stack asked for before and after the fields are set. -/
structure Allocation where
  task : Nat
  firstStack : Nat
  stack : Nat
deriving DecidableEq, Repr

/-- Threads are numbered from 1 on; `thread` names the thread a struct was made
for last, and `started` and `exitValue` go by thread. `waiters` are the tasks
that joined the task of a struct and were not woken yet, the latest first. -/
structure History where
  births : Nat
  thread : Nat → Nat
  issued : List (Nat × Nat)
  started : Nat → Bool
  exitValue : Nat → Option Nat
  waiters : Nat → List Nat
  idleTask : Core → Nat

/-- The whole system. `structs` are the live task structs, `reclaimed` those
that `sched_yield` freed and no `malloc` has returned since, `blocks` the other
live heap blocks with their sizes, and `results` the memory that the second
argument of `pthread_join` points to. -/
structure Machine where
  sched : State
  pc : Core → Pc
  structs : Nat → Bool
  reclaimed : Nat → Bool
  blocks : Nat → Option Nat
  results : Nat → Nat
  history : History

namespace Machine

def current (m : Machine) (c : Core) : Nat := m.sched.current c

def setSched (m : Machine) (s : State) : Machine := { m with sched := s }

def setPc (m : Machine) (c : Core) (pc : Pc) : Machine :=
  { m with pc := Function.update m.pc c pc }

/-! ### `pthread_create` -/

/-- The struct `malloc` returned, owned by a new thread. -/
def allocTask (m : Machine) (t : Nat) : Machine :=
  { m with
    structs := Function.update m.structs t true
    reclaimed := Function.update m.reclaimed t false
    history :=
      { m.history with
        births := m.history.births + 1
        thread := Function.update m.history.thread t (m.history.births + 1)
        waiters := Function.update m.history.waiters t [] } }

/-- The thread of a struct runs. -/
def markStarted (m : Machine) (t : Nat) : Machine :=
  { m with
    history :=
      { m.history with started := Function.update m.history.started (m.history.thread t) true } }

def setWaiters (m : Machine) (t : Nat) (waiters : List Nat) : Machine :=
  { m with history := { m.history with waiters := Function.update m.history.waiters t waiters } }

def freeTask (m : Machine) (t : Nat) : Machine :=
  { m with structs := Function.update m.structs t false }

def allocBlock (m : Machine) (block size : Nat) : Machine :=
  { m with blocks := Function.update m.blocks block (some size) }

def freeBlock (m : Machine) (block : Nat) : Machine :=
  { m with blocks := Function.update m.blocks block none }

/-- `attr && attr->is_initialized` -/
def usedAttr (attr : Option Attr) : Option Attr := attr.filter (·.isInitialized)

/-- `arg == &idle_flag` is `idle`. -/
def createPriority (attr : Option Attr) (idle : Bool) : Nat :=
  if idle then idlePriority
  else match usedAttr attr with
    | some attr => attr.schedparam % 5
    | none => normalPriority

def stackSize (attr : Option Attr) : Nat :=
  match usedAttr attr with
  | some attr => attr.stacksize
  | none => 4096 * 4

/-- One of the two places where `pthread_create` sets `t->stack_page`: the
caller's stack, or the block `malloc` returns (0 when it fails). -/
def takeStack (attr : Option Attr) (block : Nat) (m : Machine) : Nat × Machine :=
  match usedAttr attr with
  | some attr =>
      if attr.stackaddr ≠ 0 then (attr.stackaddr, m)
      else (block, if block = 0 then m else m.allocBlock block attr.stacksize)
  | none => (block, if block = 0 then m else m.allocBlock block (4096 * 4))

def setTask (m : Machine) (t : Nat) (task : Task) : Machine := m.setSched (m.sched.setTask t task)

/-- The part of `pthread_create` between the fields and the lock: the second
stack, and the context of the new task. -/
def createStack (attr : Option Attr) (t block : Nat) (m : Machine) : Bool × Machine :=
  let (stackPage, m) := takeStack attr block m
  let m := m.setTask t { m.sched.tasks t with stackPage := stackPage }
  if stackPage = 0 then (false, m.freeTask t)
  else (true, m.setSched (m.sched.setContext t .fork))

/-- `pthread_create` up to the lock, with its outcome: `false` is `EAGAIN`. -/
def pthreadCreate (attr : Option Attr) (idle : Bool) (alloc : Allocation) (m : Machine) :
    Bool × Machine :=
  let t := alloc.task
  if t = 0 then (false, m)
  else
    let m := (m.allocTask t).setTask t Task.zero
    let (stackPage, m) := takeStack attr alloc.firstStack m
    let m := m.setTask t { m.sched.tasks t with stackPage := stackPage }
    if stackPage = 0 then (false, m.freeTask t)
    else
      let m := m.setTask t
        { m.sched.tasks t with
          id := m.sched.tidCounter
          state := .ready
          priority := createPriority attr idle
          next := 0
          prev := 0 }
      let m := m.setSched { m.sched with tidCounter := m.sched.tidCounter + 1 }
      createStack attr t alloc.stack m

/-- `*thread = t; return 0;` -/
def issueHandle (m : Machine) (t thread : Nat) : Machine :=
  { m with history := { m.history with issued := (t, thread) :: m.history.issued } }

/-- A call of `pthread_create` up to the lock. A task of priority `IDLE` is not
enqueued, so its call is over. -/
def create (c : Core) (attr : Option Attr) (alloc : Allocation) (m : Machine) : Machine :=
  let (created, m) := pthreadCreate attr false alloc m
  if created then
    if m.sched.priority alloc.task ≠ idlePriority then m.setPc c (.createLock alloc.task)
    else m.issueHandle alloc.task (m.history.thread alloc.task)
  else m

def createEnqueue (c : Core) (t : Nat) (m : Machine) : Machine :=
  (m.setSched ((m.sched.setLock true).schedEnqueueTask t)).setPc c
    (.unlock (.created t (m.history.thread t)))

/-! ### `pthread_join` -/

/-- The locked part of `pthread_join`. -/
def join (c : Core) (call : Join) (m : Machine) : Machine :=
  let s := m.sched.setLock true
  let t := call.target
  if s.state t ≠ .exited then
    let self := s.current c
    let s := s.setState self .blocked
    let s := s.setNext self (s.tasks t).joinWaitQueue
    let s := s.setJoinWaitQueue t self
    ((m.setSched s).setWaiters t (self :: m.history.waiters t)).setPc c
      (.unlock (.joinWaiting call))
  else (m.setSched s).setPc c (.unlock (.joinDone call))

/-- The test of the loop of `pthread_join`. -/
def joinTest (c : Core) (call : Join) (m : Machine) : Machine :=
  if m.sched.state call.target ≠ .exited then m.setPc c (.yieldEnter (.join call))
  else m.setPc c (.joinRead call)

/-- `*value_ptr = t->ret_value; return 0;` -/
def joinReturn (c : Core) (call : Join) (m : Machine) : Machine :=
  let m := m.setPc c .user
  if call.valuePtr ≠ 0 then
    { m with
      results :=
        Function.update m.results call.valuePtr (m.sched.tasks call.target).retValue }
  else m

/-! ### `pthread_exit` -/

/-- `pthread_exit` up to its loop. -/
def exit (c : Core) (value : Nat) (m : Machine) : Machine :=
  let s := m.sched.setLock true
  let self := s.current c
  let s := s.setRetValue self value
  let s := s.setState self .exited
  let s := s.setTaskToFree c self
  let exitValue := Function.update m.history.exitValue (m.history.thread self) (some value)
  { m with
    sched := s
    pc := Function.update m.pc c (.exitWake (s.tasks self).joinWaitQueue)
    history := { m.history with exitValue := exitValue } }

/-- One iteration of the loop, or what follows it up to the unlock. -/
def exitWake (c : Core) (waiting : Nat) (m : Machine) : Machine :=
  let self := m.sched.current c
  if waiting ≠ 0 then
    (m.setSched ((m.sched.setState waiting .ready).schedEnqueueTask waiting)).setWaiters self
      ((m.history.waiters self).erase waiting)
  else
    (m.setSched ((m.sched.setJoinWaitQueue self 0).schedDequeueTask self)).setPc c (.unlock .exited)

/-! ### `sched_yield` -/

/-- `sched_yield` up to the lock: the task to free is freed. -/
def yieldEnter (c : Core) (caller : Caller) (m : Machine) : Machine :=
  let deadTask := (m.sched.cores c).taskToFree
  if deadTask ≠ 0 then
    let m := m.setSched (m.sched.setTaskToFree c 0)
    let m := (m.freeBlock (m.sched.tasks deadTask).stackPage).freeTask deadTask
    { m with
      reclaimed := Function.update m.reclaimed deadTask true
      pc := Function.update m.pc c (.yieldLock caller) }
  else m.setPc c (.yieldLock caller)

/-- The locked part of `sched_yield` up to the unlock, with the switch. -/
def yieldSwitch (c : Core) (caller : Caller) (m : Machine) : Machine :=
  let s := m.sched.setLock true
  let prevTask := s.current c
  let s := s.requeue prevTask
  let nextTask := s.nextTask c
  let s := s.makeRunning nextTask
  if nextTask ≠ prevTask then
    let s := s.setCurrent c nextTask
    let s := s.setContext prevTask (.yielded caller)
    ((m.setSched s).markStarted nextTask).setPc c (s.tasks nextTask).context.resume
  else (m.setSched s).setPc c (.unlock (.yielded caller))

/-! ### Unlocking -/

def unlock (c : Core) (after : AfterUnlock) (m : Machine) : Machine :=
  let m := (m.setSched (m.sched.setLock false)).setPc c after.resume
  match after with
  | .created t thread => m.issueHandle t thread
  | _ => m

/-- `sched_unlock_release`, called by `ret_from_fork` before the new thread's
own code. -/
def forkUnlock (c : Core) (m : Machine) : Machine :=
  (m.setSched (m.sched.setLock false)).setPc c .user

/-! ### Start -/

def setIdleTask (m : Machine) (c : Core) (t : Nat) : Machine :=
  { m with history := { m.history with idleTask := Function.update m.history.idleTask c t } }

/-- The statics and the memory before `sched_init`. -/
def zero : Machine where
  sched := ⟨fun _ => Task.zero, fun _ => 0, fun _ => 0, fun _ => ⟨0, 0⟩, 0, false, 0⟩
  pc := fun _ => .offline
  structs := fun _ => false
  reclaimed := fun _ => false
  blocks := fun _ => none
  results := fun _ => 0
  history := ⟨0, fun _ => 0, [], fun _ => false, fun _ => none, fun _ => [], fun _ => 0⟩

/-- `sched_init`, given what `malloc` returns. The variables it sets to zero
are zero already. -/
def schedInit (idle : Allocation) (mainTask : Nat) : Machine :=
  let m := (pthreadCreate none true idle zero).2
  let m := (m.setSched (m.sched.setCurrent 0 idle.task)).setIdleTask 0 idle.task
  let m := (m.allocTask mainTask).setTask mainTask
    { Task.zero with id := m.sched.tidCounter, state := .running, priority := normalPriority }
  let m := m.setSched { m.sched with tidCounter := m.sched.tidCounter + 1 }
  ((m.setSched (m.sched.setCurrent 0 mainTask)).markStarted mainTask).setPc 0 .user

/-- `sched_init_secondary` -/
def schedInitSecondary (c : Core) (idle : Allocation) (startupTask : Nat) (m : Machine) :
    Machine :=
  let m := (pthreadCreate none true idle m).2
  let m := m.setTask idle.task { m.sched.tasks idle.task with priority := idlePriority }
  let m := (m.setSched (m.sched.setCurrent c idle.task)).setIdleTask c idle.task
  let m := (m.allocTask startupTask).setTask startupTask
    { Task.zero with priority := idlePriority, state := .running }
  ((m.setSched (m.sched.setCurrent c startupTask)).markStarted startupTask).setPc c .user

end Machine

/-! ### Steps -/

/-- A block `malloc` can return as a task struct: NULL, or not in use. -/
def FreshTask (m : Machine) (t : Nat) : Prop := t ≠ 0 → m.structs t = false

/-- The results of `malloc` in one `pthread_create`. -/
structure FreshAllocation (m : Machine) (alloc : Allocation) : Prop where
  task : FreshTask m alloc.task
  firstStack : alloc.firstStack ≠ 0 → m.blocks alloc.firstStack = none
  stack : alloc.stack ≠ 0 → m.blocks alloc.stack = none ∧ alloc.stack ≠ alloc.firstStack

/-- Results of `malloc` with which an initialisation succeeds. -/
structure InitAllocation (m : Machine) (idle : Allocation) (ownTask : Nat) : Prop where
  fresh : FreshAllocation m idle
  idleTask : idle.task ≠ 0
  idleFirstStack : idle.firstStack ≠ 0
  idleStack : idle.stack ≠ 0
  ownFresh : FreshTask m ownTask
  own : ownTask ≠ 0
  apart : ownTask ≠ idle.task

/-- The steps of core `c`. -/
inductive Action where
  | initSecondary (c : Core) (idle : Allocation) (startupTask : Nat)
  | create (c : Core) (attr : Option Attr) (alloc : Allocation)
  | createEnqueue (c : Core)
  | join (c : Core) (call : Join)
  | joinTest (c : Core)
  | joinReturn (c : Core)
  | exit (c : Core) (value : Nat)
  | exitWake (c : Core)
  | callYield (c : Core)
  | yieldEnter (c : Core)
  | yieldSwitch (c : Core)
  | unlock (c : Core)
  | forkUnlock (c : Core)
deriving DecidableEq, Repr

inductive Step : Machine → Action → Machine → Prop where
  | initSecondary {m : Machine} {c : Core} {idle : Allocation} {startupTask : Nat}
      (here : m.pc c = .offline) (fresh : InitAllocation m idle startupTask) :
      Step m (.initSecondary c idle startupTask) (m.schedInitSecondary c idle startupTask)
  | create {m : Machine} {c : Core} {attr : Option Attr} {alloc : Allocation}
      (here : m.pc c = .user) (fresh : FreshAllocation m alloc) :
      Step m (.create c attr alloc) (m.create c attr alloc)
  | createEnqueue {m : Machine} {c : Core} {t : Nat}
      (here : m.pc c = .createLock t) (lockFree : m.sched.schedLock = false) :
      Step m (.createEnqueue c) (m.createEnqueue c t)
  | join {m : Machine} {c : Core} {call : Join}
      (here : m.pc c = .user) (lockFree : m.sched.schedLock = false)
      (handle : (call.target, call.thread) ∈ m.history.issued) :
      Step m (.join c call) (m.join c call)
  | joinTest {m : Machine} {c : Core} {call : Join} (here : m.pc c = .joinLoop call) :
      Step m (.joinTest c) (m.joinTest c call)
  | joinReturn {m : Machine} {c : Core} {call : Join} (here : m.pc c = .joinRead call) :
      Step m (.joinReturn c) (m.joinReturn c call)
  | exit {m : Machine} {c : Core} {value : Nat}
      (here : m.pc c = .user) (lockFree : m.sched.schedLock = false) :
      Step m (.exit c value) (m.exit c value)
  | exitWake {m : Machine} {c : Core} {waiting : Nat} (here : m.pc c = .exitWake waiting) :
      Step m (.exitWake c) (m.exitWake c waiting)
  | callYield {m : Machine} {c : Core} (here : m.pc c = .user) :
      Step m (.callYield c) (m.setPc c (.yieldEnter .user))
  | yieldEnter {m : Machine} {c : Core} {caller : Caller} (here : m.pc c = .yieldEnter caller) :
      Step m (.yieldEnter c) (m.yieldEnter c caller)
  | yieldSwitch {m : Machine} {c : Core} {caller : Caller}
      (here : m.pc c = .yieldLock caller) (lockFree : m.sched.schedLock = false) :
      Step m (.yieldSwitch c) (m.yieldSwitch c caller)
  | unlock {m : Machine} {c : Core} {after : AfterUnlock} (here : m.pc c = .unlock after) :
      Step m (.unlock c) (m.unlock c after)
  | forkUnlock {m : Machine} {c : Core} (here : m.pc c = .forkUnlock) :
      Step m (.forkUnlock c) (m.forkUnlock c)

/-- The states after `sched_init`. -/
def Initial (m : Machine) : Prop :=
  ∃ idle mainTask, InitAllocation Machine.zero idle mainTask ∧ m = Machine.schedInit idle mainTask

end UniKernel.Pthread
