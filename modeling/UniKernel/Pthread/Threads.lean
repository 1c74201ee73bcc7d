import UniKernel.Pthread.Runs

/-!
Owns the threads behind the structs: a struct carries a number for the thread
it was made for, numbers are not used twice, and whatever the code still refers
to was made for some thread. Most steps leave all of this alone; they are the
`Ordinary` ones, and only the creation of a task and the switch remain.
-/

namespace UniKernel.Pthread

open UniKernel.Lib

variable {m m' : Machine} {action : Action} {queue : Nat → List Nat} {c : Core} {place : Pc}

namespace State

variable {s : State} {t a value : Nat} {state : TaskState}

theorem context_setNext : ((s.setNext t value).tasks a).context = (s.tasks a).context :=
  field_setTask Task.context rfl

theorem context_setState : ((s.setState t state).tasks a).context = (s.tasks a).context :=
  field_setTask Task.context rfl

theorem context_setRetValue : ((s.setRetValue t value).tasks a).context = (s.tasks a).context :=
  field_setTask Task.context rfl

theorem context_setJoinWaitQueue :
    ((s.setJoinWaitQueue t value).tasks a).context = (s.tasks a).context :=
  field_setTask Task.context rfl

theorem context_schedEnqueueTask :
    ((s.schedEnqueueTask t).tasks a).context = (s.tasks a).context :=
  field_schedEnqueueTask Task.context fun _ => rfl

theorem context_schedDequeueTask :
    ((s.schedDequeueTask t).tasks a).context = (s.tasks a).context :=
  field_schedDequeueTask Task.context fun _ => rfl

theorem tasks_setTask_self {task : Task} : (s.setTask t task).tasks t = task :=
  Function.update_self ..

theorem tasks_setTask_of_ne {task : Task} (other : a ≠ t) :
    (s.setTask t task).tasks a = s.tasks a :=
  Function.update_of_ne other ..

/-- An initialisation sets the current task twice. -/
theorem current_setCurrent_twice (s : State) (c : Core) (idle own : Nat) :
    ((s.setCurrent c idle).setCurrent c own).current = Function.update s.current c own := by
  funext c'
  simp only [current, setCurrent, Function.update_apply]
  split <;> rfl

end State

/-- The threads, the current tasks and the contexts stay as they are, and no
struct is allocated. -/
structure KeepsThreads (m m' : Machine) : Prop where
  current : ∀ c, m'.current c = m.current c
  context : ∀ a, (m'.sched.tasks a).context = (m.sched.tasks a).context
  structs : ∀ a, m'.structs a = true → m.structs a = true
  births : m'.history.births = m.history.births
  thread : m'.history.thread = m.history.thread
  started : m'.history.started = m.history.started

/-- Core `c` can go on to `place` by a step that makes no task. -/
structure GoesTo (m : Machine) (c : Core) (place : Pc) : Prop where
  online : m.pc c ≠ .offline
  stays : place ≠ .offline
  notPending : ∀ t, place ≠ .createLock t
  created : ∀ t n, place = .unlock (.created t n) → m.pc c = .createLock t
  waiting : ∀ call, place.mode = .waiting call →
    (m.pc c).mode = .waiting call ∨ (call.target, call.thread) ∈ m.history.issued

/-- A step of core `c` to `place` that makes no task and switches to none. -/
structure Ordinary (m m' : Machine) (c : Core) (place : Pc) : Prop where
  pc : m'.pc = Function.update m.pc c place
  keeps : KeepsThreads m m'
  goes : GoesTo m c place
  issued : ∀ t n, (t, n) ∈ m'.history.issued →
    (t, n) ∈ m.history.issued ∨ m.pc c = .unlock (.created t n)

theorem AfterUnlock.resume_ne_unlock (after next : AfterUnlock) : after.resume ≠ .unlock next := by
  rcases after with _ | (_ | _ | _) | _ | _ | _ <;> nofun

/-- A place of the same mode where no task is being made. -/
theorem GoesTo.sameMode (online : m.pc c ≠ .offline) (mode : place.mode = (m.pc c).mode)
    (notPending : ∀ t, place ≠ .createLock t) (notCreated : ∀ t n, place ≠ .unlock (.created t n)) :
    GoesTo m c place where
  online := online
  stays := by
    intro isOffline
    rw [isOffline] at mode
    exact online (Pc.mode_eq_offline_iff.mp mode.symm)
  notPending := notPending
  created := fun t n same => absurd same (notCreated t n)
  waiting := fun call waits => Or.inl (mode.symm.trans waits)

/-- A place whose mode is not that of a waiting task. -/
theorem GoesTo.notWaiting (online : m.pc c ≠ .offline) (stays : place ≠ .offline)
    (notPending : ∀ t, place ≠ .createLock t) (notCreated : ∀ t n, place ≠ .unlock (.created t n))
    (notWaiting : ∀ call, place.mode ≠ .waiting call) : GoesTo m c place where
  online := online
  stays := stays
  notPending := notPending
  created := fun t n same => absurd same (notCreated t n)
  waiting := fun call waits => absurd waits (notWaiting call)

theorem Machine.createEnqueue_ordinary {t : Nat} (here : m.pc c = .createLock t) :
    Ordinary m (m.createEnqueue c t) c (.unlock (.created t (m.history.thread t))) where
  pc := rfl
  keeps := {
    current := fun c' => congrArg (fun cores => (cores c').task) State.cores_schedEnqueueTask
    context := fun _ => State.context_schedEnqueueTask
    structs := fun _ => id
    births := rfl
    thread := rfl
    started := rfl }
  goes := {
    online := by rw [here]; simp
    stays := by simp
    notPending := by simp
    created := by
      intro t' n same
      injection same with same
      injection same with same
      rw [here, same]
    waiting := nofun }
  issued := fun _ _ => Or.inl

theorem Machine.join_ordinary {call : Join} (here : m.pc c = .user)
    (handle : (call.target, call.thread) ∈ m.history.issued) :
    ∃ place, Ordinary m (m.join c call) c place := by
  have online : m.pc c ≠ .offline := by rw [here]; simp
  unfold Machine.join
  dsimp only
  split
  · refine ⟨_, rfl, ⟨fun _ => rfl, ?_, fun _ => id, rfl, rfl, rfl⟩,
      ⟨online, by simp, by simp, by simp, ?_⟩, fun _ _ => Or.inl⟩
    · exact fun _ => State.context_setJoinWaitQueue.trans
        (State.context_setNext.trans State.context_setState)
    · intro other waits
      rw [← Mode.waiting.inj waits]
      exact Or.inr handle
  · exact ⟨_, rfl, ⟨fun _ => rfl, fun _ => rfl, fun _ => id, rfl, rfl, rfl⟩,
      GoesTo.notWaiting online (by simp) (by simp) (by simp) nofun, fun _ _ => Or.inl⟩

theorem Machine.joinTest_ordinary {call : Join} (here : m.pc c = .joinLoop call) :
    ∃ place, Ordinary m (m.joinTest c call) c place := by
  have online : m.pc c ≠ .offline := by rw [here]; simp
  unfold Machine.joinTest
  split
  · refine ⟨_, rfl, ⟨fun _ => rfl, fun _ => rfl, fun _ => id, rfl, rfl, rfl⟩,
      GoesTo.sameMode online ?_ (by simp) (by simp), fun _ _ => Or.inl⟩
    rw [here]
    rfl
  · exact ⟨_, rfl, ⟨fun _ => rfl, fun _ => rfl, fun _ => id, rfl, rfl, rfl⟩,
      GoesTo.notWaiting online (by simp) (by simp) (by simp) nofun, fun _ _ => Or.inl⟩

theorem Machine.joinReturn_ordinary {call : Join} (here : m.pc c = .joinRead call) :
    Ordinary m (m.joinReturn c call) c .user := by
  have goes : GoesTo m c .user :=
    GoesTo.notWaiting (by rw [here]; simp) (by simp) (by simp) (by simp) nofun
  unfold Machine.joinReturn
  dsimp only
  split
  · exact ⟨rfl, ⟨fun _ => rfl, fun _ => rfl, fun _ => id, rfl, rfl, rfl⟩, goes, fun _ _ => Or.inl⟩
  · exact ⟨rfl, ⟨fun _ => rfl, fun _ => rfl, fun _ => id, rfl, rfl, rfl⟩, goes, fun _ _ => Or.inl⟩

theorem State.current_setTaskToFree {s : State} {t : Nat} (c' : Core) :
    (s.setTaskToFree c t).current c' = s.current c' := by
  simp only [State.current, State.setTaskToFree, Function.update_apply]
  split
  · next same => rw [same]
  · rfl

theorem Machine.exit_ordinary {value : Nat} (here : m.pc c = .user) :
    ∃ place, Ordinary m (m.exit c value) c place := by
  refine ⟨_, Machine.exit_waiters m c value, ⟨?_, ?_, fun _ => id, rfl, rfl, rfl⟩,
    GoesTo.notWaiting (by rw [here]; simp) (by simp) (by simp) (by simp) nofun, fun _ _ => Or.inl⟩
  · exact fun c' => State.current_setTaskToFree c'
  · exact fun _ => State.context_setState.trans State.context_setRetValue

theorem Machine.exitWake_ordinary {waiting : Nat} (here : m.pc c = .exitWake waiting) :
    ∃ place, Ordinary m (m.exitWake c waiting) c place := by
  have online : m.pc c ≠ .offline := by rw [here]; simp
  unfold Machine.exitWake
  dsimp only
  split
  · refine ⟨.exitWake waiting, ?_, ⟨?_, ?_, fun _ => id, rfl, rfl, rfl⟩,
      GoesTo.notWaiting online (by simp) (by simp) (by simp) nofun, fun _ _ => Or.inl⟩
    · rw [← here, Function.update_eq_self]
      rfl
    · exact fun c' => congrArg (fun cores => (cores c').task) State.cores_schedEnqueueTask
    · exact fun _ => State.context_schedEnqueueTask.trans State.context_setState
  · refine ⟨_, rfl, ⟨?_, ?_, fun _ => id, rfl, rfl, rfl⟩,
      GoesTo.notWaiting online (by simp) (by simp) (by simp) nofun, fun _ _ => Or.inl⟩
    · exact fun c' => congrArg (fun cores => (cores c').task) State.cores_schedDequeueTask
    · exact fun _ => State.context_schedDequeueTask.trans State.context_setJoinWaitQueue

theorem Machine.yieldEnter_ordinary {caller : Caller} (here : m.pc c = .yieldEnter caller) :
    Ordinary m (m.yieldEnter c caller) c (.yieldLock caller) := by
  have goes : GoesTo m c (.yieldLock caller) :=
    GoesTo.sameMode (by rw [here]; simp) (by rw [here]; rfl) (by simp) (by simp)
  unfold Machine.yieldEnter
  dsimp only
  split
  · refine ⟨rfl, ⟨?_, fun _ => rfl, ?_, rfl, rfl, rfl⟩, goes, fun _ _ => Or.inl⟩
    · exact fun c' => State.current_setTaskToFree c'
    · intro a isLive
      simp only [Machine.freeTask, Function.update_apply] at isLive
      split at isLive
      · cases isLive
      · exact isLive
  · exact ⟨rfl, ⟨fun _ => rfl, fun _ => rfl, fun _ => id, rfl, rfl, rfl⟩, goes, fun _ _ => Or.inl⟩

theorem Machine.unlock_ordinary {after : AfterUnlock} (here : m.pc c = .unlock after) :
    Ordinary m (m.unlock c after) c after.resume := by
  have goes : GoesTo m c after.resume :=
    GoesTo.sameMode (by rw [here]; simp) (by rw [here]; exact after.mode_resume)
      after.resume_ne_createLock (fun t n => after.resume_ne_unlock _)
  unfold Machine.unlock
  dsimp only
  split
  · refine ⟨rfl, ⟨fun _ => rfl, fun _ => rfl, fun _ => id, rfl, rfl, rfl⟩, goes, ?_⟩
    intro t n member
    rcases List.mem_cons.mp member with same | before
    · rw [here]
      injection same with sameTask sameThread
      rw [sameTask, sameThread]
      exact Or.inr rfl
    · exact Or.inl before
  · exact ⟨rfl, ⟨fun _ => rfl, fun _ => rfl, fun _ => id, rfl, rfl, rfl⟩, goes, fun _ _ => Or.inl⟩

theorem Machine.callYield_ordinary (here : m.pc c = .user) :
    Ordinary m (m.setPc c (.yieldEnter .user)) c (.yieldEnter .user) :=
  ⟨rfl, ⟨fun _ => rfl, fun _ => rfl, fun _ => id, rfl, rfl, rfl⟩,
    GoesTo.notWaiting (by rw [here]; simp) (by simp) (by simp) (by simp) nofun, fun _ _ => Or.inl⟩

theorem Machine.forkUnlock_ordinary (here : m.pc c = .forkUnlock) :
    Ordinary m (m.forkUnlock c) c .user :=
  ⟨rfl, ⟨fun _ => rfl, fun _ => rfl, fun _ => id, rfl, rfl, rfl⟩,
    GoesTo.notWaiting (by rw [here]; simp) (by simp) (by simp) (by simp) nofun, fun _ _ => Or.inl⟩

/-- A step is ordinary, makes a task, or switches. -/
theorem Step.ordinary (taken : Step m action m') :
    (∃ c place, Ordinary m m' c place) ∨
    (∃ c idle own, m.pc c = .offline ∧ InitAllocation m idle own ∧
      action = .initSecondary c idle own ∧ m' = m.schedInitSecondary c idle own) ∨
    (∃ c attr alloc, m.pc c = .user ∧ FreshAllocation m alloc ∧
      action = .create c attr alloc ∧ m' = m.create c attr alloc) ∨
    (∃ c caller, m.pc c = .yieldLock caller ∧ m.sched.schedLock = false ∧
      action = .yieldSwitch c ∧ m' = m.yieldSwitch c caller) := by
  cases taken with
  | @initSecondary c idle own here fresh =>
      exact Or.inr (Or.inl ⟨c, idle, own, here, fresh, rfl, rfl⟩)
  | @create c attr alloc here fresh =>
      exact Or.inr (Or.inr (Or.inl ⟨c, attr, alloc, here, fresh, rfl, rfl⟩))
  | createEnqueue here lockFree => exact Or.inl ⟨_, _, Machine.createEnqueue_ordinary here⟩
  | join here lockFree handle => exact Or.inl ⟨_, Machine.join_ordinary here handle⟩
  | joinTest here => exact Or.inl ⟨_, Machine.joinTest_ordinary here⟩
  | joinReturn here => exact Or.inl ⟨_, _, Machine.joinReturn_ordinary here⟩
  | exit here lockFree => exact Or.inl ⟨_, Machine.exit_ordinary here⟩
  | exitWake here => exact Or.inl ⟨_, Machine.exitWake_ordinary here⟩
  | callYield here => exact Or.inl ⟨_, _, Machine.callYield_ordinary here⟩
  | yieldEnter here => exact Or.inl ⟨_, _, Machine.yieldEnter_ordinary here⟩
  | @yieldSwitch c caller here lockFree =>
      exact Or.inr (Or.inr (Or.inr ⟨c, caller, here, lockFree, rfl, rfl⟩))
  | unlock here => exact Or.inl ⟨_, _, Machine.unlock_ordinary here⟩
  | forkUnlock here => exact Or.inl ⟨_, _, Machine.forkUnlock_ordinary here⟩

/-- A task is made in the struct `t`; a core may go online with it. -/
structure Adds (m m' : Machine) (t : Nat) : Prop where
  nonzero : t ≠ 0
  births : m'.history.births = m.history.births + 1
  thread : m'.history.thread = Function.update m.history.thread t (m.history.births + 1)
  issued : m'.history.issued = m.history.issued
  structs : ∀ a, a ≠ t → m'.structs a = true → m.structs a = true
  core : ∀ c, m'.pc c = m.pc c ∧ m'.current c = m.current c ∨
    m.pc c = .offline ∧ m'.pc c = .user ∧ m'.current c = t
  context : ∀ a, a ≠ t → (m'.sched.tasks a).context = (m.sched.tasks a).context
  newContext : ∀ caller, (m'.sched.tasks t).context ≠ .yielded caller
  started : ∀ n, n ≠ m.history.births + 1 → m'.history.started n = m.history.started n

theorem Created.adds {attr : Option Attr} {idle ok : Bool} {t : Nat} {task : Task}
    (created : Created m m' attr idle t ok task) (nonzero : t ≠ 0) : Adds m m' t where
  nonzero := nonzero
  births := congrArg History.births created.history
  thread := congrArg History.thread created.history
  issued := (congrArg History.issued created.history).trans rfl
  structs := by
    intro a other
    rw [created.structs, Function.update_of_ne other]
    exact id
  core := fun c => Or.inl ⟨congrFun created.pc c, created.current c⟩
  context := by
    intro a other
    rw [created.tasks, if_neg other]
  newContext := by
    intro caller
    rw [created.tasks, if_pos rfl]
    rcases created.context with context | context <;> rw [context] <;> simp
  started := fun n _ => congrFun ((congrArg History.started created.history).trans rfl) n

/-- Core `c` goes online with the new task `own`. -/
structure StartsOwn (m m' : Machine) (c : Core) (own : Nat) (task : Task) : Prop where
  nonzero : own ≠ 0
  here : m.pc c = .offline
  pc : m'.pc = Function.update m.pc c .user
  current : m'.current = Function.update m.current c own
  taskToFree : ∀ c', (m'.sched.cores c').taskToFree = (m.sched.cores c').taskToFree
  tasks : m'.sched.tasks = Function.update m.sched.tasks own task
  lock : m'.sched.schedLock = m.sched.schedLock
  structs : m'.structs = Function.update m.structs own true
  reclaimed : m'.reclaimed = Function.update m.reclaimed own false
  births : m'.history.births = m.history.births + 1
  thread : m'.history.thread = Function.update m.history.thread own (m.history.births + 1)
  issued : m'.history.issued = m.history.issued
  started : m'.history.started = Function.update m.history.started (m.history.births + 1) true
  exitValue : m'.history.exitValue = m.history.exitValue
  waiters : m'.history.waiters = Function.update m.history.waiters own []
  heads : m'.sched.runqueues = m.sched.runqueues
  tails : m'.sched.runqueuesTail = m.sched.runqueuesTail
  state : task.state = .running
  next : task.next = 0
  joinWaitQueue : task.joinWaitQueue = 0
  context : task.context = .cleared

theorem StartsOwn.adds {own : Nat} {task : Task} (starts : StartsOwn m m' c own task) :
    Adds m m' own where
  nonzero := starts.nonzero
  births := starts.births
  thread := starts.thread
  issued := starts.issued
  structs := by
    intro a other
    rw [starts.structs, Function.update_of_ne other]
    exact id
  core := by
    intro c'
    rw [starts.pc, starts.current]
    by_cases same : c' = c
    · rw [same]
      exact Or.inr ⟨starts.here, Function.update_self .., Function.update_self ..⟩
    · exact Or.inl ⟨Function.update_of_ne same .., Function.update_of_ne same ..⟩
  context := by
    intro a other
    rw [starts.tasks, Function.update_of_ne other]
  newContext := by
    intro caller
    rw [starts.tasks, Function.update_self, starts.context]
    simp
  started := by
    intro n notNew
    rw [starts.started, Function.update_of_ne notNew]

theorem State.taskToFree_setCurrent {s : State} {own : Nat} (c' : Core) :
    ((s.setCurrent c own).cores c').taskToFree = (s.cores c').taskToFree := by
  simp only [State.setCurrent, Function.update_apply]
  split
  · next same => rw [same]
  · rfl

/-- An initialisation makes the idle task as `pthread_create` does, and then
goes online with a task of its own. -/
theorem Machine.schedInit_starts {idle : Allocation} {own : Nat}
    (init : InitAllocation Machine.zero idle own) :
    ∃ made idleTask task, Created Machine.zero made none true idle.task true idleTask ∧
      StartsOwn made (Machine.schedInit idle own) 0 own task := by
  rcases Machine.pthreadCreate_created Machine.zero none true init.idleTask with
    ⟨idleTask, created⟩
  have success := Machine.pthreadCreate_init init
  rw [Machine.schedInit]
  generalize Machine.zero.pthreadCreate none true idle = outcome at created success
  rcases outcome with ⟨ok, made⟩
  dsimp only at created success ⊢
  subst success
  refine ⟨made, idleTask, _, created, init.own, congrFun created.pc 0, rfl,
    State.current_setCurrent_twice .., ?_, rfl, rfl, rfl, rfl, rfl, rfl, rfl, ?_, rfl, rfl, rfl,
    rfl, rfl, rfl, rfl, rfl⟩
  · exact fun c' => (State.taskToFree_setCurrent c').trans (State.taskToFree_setCurrent c')
  · exact congrArg (fun n => Function.update made.history.started n true) (Function.update_self ..)

theorem Machine.schedInitSecondary_starts {idle : Allocation} {own : Nat}
    (here : m.pc c = .offline) (init : InitAllocation m idle own) :
    ∃ made idleTask task, Created m made none true idle.task true idleTask ∧
      StartsOwn made (m.schedInitSecondary c idle own) c own task := by
  rcases Machine.pthreadCreate_created m none true init.idleTask with ⟨idleTask, created⟩
  have success := Machine.pthreadCreate_init init
  rw [Machine.schedInitSecondary]
  generalize m.pthreadCreate none true idle = outcome at created success
  rcases outcome with ⟨ok, made⟩
  dsimp only at created success ⊢
  subst success
  rw [created.setIdle]
  refine ⟨made, idleTask, _, created, init.own, (congrFun created.pc c).trans here, rfl,
    State.current_setCurrent_twice .., ?_, rfl, rfl, rfl, rfl, rfl, rfl, rfl, ?_, rfl, rfl, rfl,
    rfl, rfl, rfl, rfl, rfl⟩
  · exact fun c' => (State.taskToFree_setCurrent c').trans (State.taskToFree_setCurrent c')
  · exact congrArg (fun n => Function.update made.history.started n true) (Function.update_self ..)

/-! ### The invariant of the threads -/

/-- Numbers of threads are used once, and what the code refers to has one. -/
structure Threads (m : Machine) : Prop where
  null : m.history.thread 0 = 0
  bounded : ∀ a, m.history.thread a ≤ m.history.births
  injective : ∀ a b, m.history.thread a = m.history.thread b → m.history.thread a ≠ 0 → a = b
  live : ∀ a, m.structs a = true → m.history.thread a ≠ 0
  current : ∀ c, m.pc c ≠ .offline → m.history.thread (m.current c) ≠ 0
  offline : ∀ c, m.pc c = .offline → m.current c = 0
  pending : ∀ c t, m.pc c = .createLock t → m.history.thread t ≠ 0
  created : ∀ c t n, m.pc c = .unlock (.created t n) → m.history.thread t ≠ 0
  issued : ∀ t n, (t, n) ∈ m.history.issued → m.history.thread t ≠ 0
  waiting : ∀ c call, (m.pc c).mode = .waiting call → m.history.thread call.target ≠ 0
  suspended : ∀ a call, (m.sched.tasks a).context = .yielded (.join call) →
    m.history.thread call.target ≠ 0
  startedBound : ∀ n, m.history.started n = true → n ≤ m.history.births

namespace Threads

theorem ordinary (threads : Threads m) (step : Ordinary m m' c place) : Threads m' := by
  have thread := step.keeps.thread
  have pcCases : ∀ c', m'.pc c' = place ∧ c' = c ∨ m'.pc c' = m.pc c' ∧ c' ≠ c := by
    intro c'
    rw [step.pc]
    by_cases same : c' = c
    · rw [same, Function.update_self]
      exact Or.inl ⟨rfl, rfl⟩
    · rw [Function.update_of_ne same]
      exact Or.inr ⟨rfl, same⟩
  exact {
    null := by
      rw [thread]
      exact threads.null
    bounded := by
      rw [thread, step.keeps.births]
      exact threads.bounded
    injective := by
      rw [thread]
      exact threads.injective
    live := by
      intro a isLive
      rw [thread]
      exact threads.live a (step.keeps.structs a isLive)
    current := by
      intro c' online
      rw [thread, step.keeps.current]
      rcases pcCases c' with ⟨-, rfl⟩ | ⟨same, -⟩
      · exact threads.current c' step.goes.online
      · exact threads.current c' (same ▸ online)
    offline := by
      intro c' isOffline
      rw [step.keeps.current]
      rcases pcCases c' with ⟨here, -⟩ | ⟨same, -⟩
      · exact absurd (here.symm.trans isOffline) step.goes.stays
      · exact threads.offline c' (same.symm.trans isOffline)
    pending := by
      intro c' t isPending
      rw [thread]
      rcases pcCases c' with ⟨here, -⟩ | ⟨same, -⟩
      · exact absurd (here.symm.trans isPending) (step.goes.notPending t)
      · exact threads.pending c' t (same ▸ isPending)
    created := by
      intro c' t n isCreated
      rw [thread]
      rcases pcCases c' with ⟨here, rfl⟩ | ⟨same, -⟩
      · exact threads.pending c' t (step.goes.created t n (here.symm.trans isCreated))
      · exact threads.created c' t n (same ▸ isCreated)
    issued := by
      intro t n member
      rw [thread]
      rcases step.issued t n member with before | isCreated
      · exact threads.issued t n before
      · exact threads.created c t n isCreated
    waiting := by
      intro c' call waits
      rw [thread]
      rcases pcCases c' with ⟨here, rfl⟩ | ⟨same, -⟩
      · rw [here] at waits
        rcases step.goes.waiting call waits with before | handle
        · exact threads.waiting c' call before
        · exact threads.issued _ _ handle
      · exact threads.waiting c' call (same ▸ waits)
    suspended := by
      intro a call
      rw [thread, step.keeps.context]
      exact threads.suspended a call
    startedBound := by
      intro n
      rw [step.keeps.started, step.keeps.births]
      exact threads.startedBound n }

/-- A new struct gets a new number. -/
theorem afterAdding {t : Nat} (threads : Threads m) (adds : Adds m m' t) : Threads m' := by
  have thread : ∀ a, m'.history.thread a =
      if a = t then m.history.births + 1 else m.history.thread a := by
    intro a
    rw [adds.thread, Function.update_apply]
  have keeps : ∀ a, m.history.thread a ≠ 0 → m'.history.thread a ≠ 0 := by
    intro a nonzero
    rw [thread]
    split
    · exact Nat.succ_ne_zero _
    · exact nonzero
  have own : m'.history.thread t ≠ 0 := by
    rw [thread, if_pos rfl]
    exact Nat.succ_ne_zero _
  have pcBefore : ∀ c, m'.pc c ≠ .user → m'.pc c = m.pc c := by
    intro c notUser
    rcases adds.core c with ⟨same, -⟩ | ⟨-, isUser, -⟩
    · exact same
    · exact absurd isUser notUser
  exact {
    null := by
      rw [thread, if_neg adds.nonzero.symm]
      exact threads.null
    bounded := by
      intro a
      have bound := threads.bounded a
      rw [thread, adds.births]
      split <;> omega
    injective := by
      intro a b
      have boundA := threads.bounded a
      have boundB := threads.bounded b
      rw [thread, thread]
      split_ifs with isA isB isB
      · exact fun _ _ => isA.trans isB.symm
      · omega
      · omega
      · exact threads.injective a b
    live := by
      intro a isLive
      by_cases here : a = t
      · rw [here]
        exact own
      · exact keeps a (threads.live a (adds.structs a here isLive))
    current := by
      intro c online
      rcases adds.core c with ⟨samePc, same⟩ | ⟨-, -, isNew⟩
      · rw [same]
        exact keeps _ (threads.current c (samePc ▸ online))
      · rw [isNew]
        exact own
    offline := by
      intro c isOffline
      rcases adds.core c with ⟨samePc, same⟩ | ⟨-, isUser, -⟩
      · rw [same]
        exact threads.offline c (samePc.symm.trans isOffline)
      · cases isOffline.symm.trans isUser
    pending := by
      intro c a isPending
      have before := pcBefore c (by rw [isPending]; simp)
      exact keeps a (threads.pending c a (before.symm.trans isPending))
    created := by
      intro c a n isCreated
      have before := pcBefore c (by rw [isCreated]; simp)
      exact keeps a (threads.created c a n (before.symm.trans isCreated))
    issued := by
      intro a n member
      rw [adds.issued] at member
      exact keeps a (threads.issued a n member)
    waiting := by
      intro c call waits
      rcases adds.core c with ⟨samePc, -⟩ | ⟨-, isUser, -⟩
      · exact keeps _ (threads.waiting c call (samePc ▸ waits))
      · rw [isUser] at waits
        cases waits
    suspended := by
      intro a call saved
      by_cases here : a = t
      · rw [here] at saved
        exact absurd saved (adds.newContext (.join call))
      · rw [adds.context a here] at saved
        exact keeps _ (threads.suspended a call saved)
    startedBound := by
      intro n isStarted
      rw [adds.births]
      by_cases isNew : n = m.history.births + 1
      · exact isNew.le
      · rw [adds.started n isNew] at isStarted
        exact Nat.le_succ_of_le (threads.startedBound n isStarted) }

theorem create {attr : Option Attr} {alloc : Allocation} (threads : Threads m)
    (here : m.pc c = .user) : Threads (m.create c attr alloc) := by
  rcases m.create_cases c attr alloc with ⟨-, same⟩ | ⟨made, task, someTask, created, outcome⟩
  · rw [same]
    exact threads
  · have after := threads.afterAdding (created.adds someTask)
    have live : made.history.thread alloc.task ≠ 0 := by
      rw [(created.adds someTask).thread, Function.update_self]
      exact Nat.succ_ne_zero _
    rcases outcome with ⟨-, isMade⟩ | ⟨-, -, isMade⟩ | ⟨-, -, isMade⟩
    · rw [isMade]
      exact after
    · rw [isMade]
      -- the core goes on to take the lock
      have here' : made.pc c = .user := by
        rw [created.pc]
        exact here
      have pcCases : ∀ c', (made.setPc c (.createLock alloc.task)).pc c' = .createLock alloc.task ∧
          c' = c ∨ (made.setPc c (.createLock alloc.task)).pc c' = made.pc c' := by
        intro c'
        by_cases same : c' = c
        · rw [same]
          exact Or.inl ⟨Function.update_self .., rfl⟩
        · exact Or.inr (Function.update_of_ne same ..)
      exact {
        null := after.null
        bounded := after.bounded
        injective := after.injective
        live := after.live
        current := by
          intro c' online
          apply after.current c'
          rcases pcCases c' with ⟨-, rfl⟩ | same
          · rw [here']
            simp
          · rwa [← same]
        offline := by
          intro c' isOffline
          rcases pcCases c' with ⟨place, -⟩ | same
          · cases place.symm.trans isOffline
          · exact after.offline c' (same.symm.trans isOffline)
        pending := by
          intro c' t isPending
          rcases pcCases c' with ⟨place, -⟩ | same
          · rw [← Pc.createLock.inj (place.symm.trans isPending)]
            exact live
          · exact after.pending c' t (same ▸ isPending)
        created := by
          intro c' t n isCreated
          rcases pcCases c' with ⟨place, -⟩ | same
          · cases place.symm.trans isCreated
          · exact after.created c' t n (same ▸ isCreated)
        issued := after.issued
        waiting := by
          intro c' call waits
          rcases pcCases c' with ⟨place, -⟩ | same
          · rw [place] at waits
            cases waits
          · exact after.waiting c' call (same ▸ waits)
        suspended := after.suspended
        startedBound := after.startedBound }
    · rw [isMade]
      exact {
        null := after.null
        bounded := after.bounded
        injective := after.injective
        live := after.live
        current := after.current
        offline := after.offline
        pending := after.pending
        created := after.created
        issued := by
          intro t n member
          rcases List.mem_cons.mp member with same | before
          · injection same with sameTask _
            rw [sameTask]
            exact live
          · exact after.issued t n before
        waiting := after.waiting
        suspended := after.suspended
        startedBound := after.startedBound }

/-- The task a switch goes on with has a thread. -/
theorem next {caller : Caller} {nextTask : Nat} (threads : Threads m)
    (consistent : m.Consistent queue) (online : m.pc c ≠ .offline)
    (switched : Switched m m' c caller queue nextTask) : m.history.thread nextTask ≠ 0 := by
  rcases switched.choice.origin with ⟨p, member⟩ | same
  · exact threads.live _ (consistent.queues.live p _ member)
  · rw [same]
    exact threads.current c online

theorem yieldSwitch {caller : Caller} (threads : Threads m) (consistent : m.Consistent queue)
    (here : m.pc c = .yieldLock caller) (lockFree : m.sched.schedLock = false) :
    Threads (m.yieldSwitch c caller) := by
  rcases consistent.switched here lockFree with ⟨nextTask, switched⟩
  have births := switched.keepsHistory History.births fun _ _ => rfl
  have thread := switched.keepsHistory History.thread fun _ _ => rfl
  have issued := switched.keepsHistory History.issued fun _ _ => rfl
  have saved : ∀ a, ((m.yieldSwitch c caller).sched.tasks a).context = .yielded caller ∨
      ((m.yieldSwitch c caller).sched.tasks a).context = (m.sched.tasks a).context := by
    intro a
    rw [switched.context]
    split
    · exact Or.inl rfl
    · exact Or.inr rfl
  have nextThread : m.history.thread nextTask ≠ 0 :=
    threads.next consistent (by rw [here]; simp) switched
  have callerTarget : ∀ call, caller = .join call → m.history.thread call.target ≠ 0 := by
    rintro call rfl
    exact threads.waiting c call (by rw [here]; rfl)
  -- where the core goes on, it neither makes a task nor is done making one
  have before : ∀ c' place, (m.yieldSwitch c caller).pc c' = place →
      (∀ caller', place ≠ .unlock (.yielded caller')) → place ≠ .forkUnlock → place ≠ .lost →
      c' ≠ c ∧ m.pc c' = place := by
    intro c' place isPlace notYielded notFork notLost
    by_cases same : c' = c
    · rw [same] at isPlace
      rcases switched.place with ⟨caller', goesOn⟩ | goesOn | goesOn
      · exact absurd (isPlace.symm.trans goesOn) (notYielded caller')
      · exact absurd (isPlace.symm.trans goesOn) notFork
      · exact absurd (isPlace.symm.trans goesOn) notLost
    · exact ⟨same, (switched.pc_other same).symm.trans isPlace⟩
  exact {
    null := by
      rw [thread]
      exact threads.null
    bounded := by
      rw [births, thread]
      exact threads.bounded
    injective := by
      rw [thread]
      exact threads.injective
    live := by
      rw [thread, switched.structs]
      exact threads.live
    current := by
      intro c' online
      rw [thread, switched.current]
      split
      · exact nextThread
      · next other =>
          rw [switched.pc_other other] at online
          exact threads.current c' online
    offline := by
      intro c' isOffline
      rcases before c' _ isOffline (by simp) (by simp) (by simp) with ⟨other, wasOffline⟩
      rw [switched.current, if_neg other]
      exact threads.offline c' wasOffline
    pending := by
      intro c' t isPending
      rw [thread]
      exact threads.pending c' t (before c' _ isPending (by simp) (by simp) (by simp)).2
    created := by
      intro c' t n isCreated
      rw [thread]
      exact threads.created c' t n (before c' _ isCreated (by simp) (by simp) (by simp)).2
    issued := by
      rw [thread, issued]
      exact threads.issued
    waiting := by
      intro c' call waiting
      rw [thread]
      by_cases same : c' = c
      · rcases switched.waiting (same ▸ waiting) with isCaller | isSaved
        · exact callerTarget call isCaller
        · exact threads.suspended nextTask call isSaved
      · rw [switched.pc_other same] at waiting
        exact threads.waiting c' call waiting
    suspended := by
      intro a call isSaved
      rw [thread]
      rcases saved a with new | old
      · exact callerTarget call (Context.yielded.inj (new.symm.trans isSaved))
      · exact threads.suspended a call (old.symm.trans isSaved)
    startedBound := by
      intro n isStarted
      rw [births]
      rcases switched.started_before isStarted with before | isThread
      · exact threads.startedBound n before
      · rw [isThread]
        exact threads.bounded _ }

theorem zero : Threads Machine.zero where
  null := rfl
  bounded := fun _ => le_rfl
  injective := fun _ _ _ nonzero => absurd rfl nonzero
  live := nofun
  current := fun _ online => absurd rfl online
  offline := fun _ _ => rfl
  pending := nofun
  created := nofun
  issued := nofun
  waiting := nofun
  suspended := nofun
  startedBound := nofun

theorem initial (initial : Initial m) : Threads m := by
  rcases initial with ⟨idle, own, init, rfl⟩
  rcases Machine.schedInit_starts init with ⟨made, idleTask, task, created, starts⟩
  exact (zero.afterAdding (created.adds init.idleTask)).afterAdding starts.adds

end Threads

/-- The structs a step gets from `malloc` were never handed out before. -/
def FreshStructs (transition : Transition Machine Action) : Prop :=
  ∀ t ∈ transition.label.structs, t ≠ 0 → transition.source.history.thread t = 0

/-- A struct without a thread is not in use. -/
theorem Threads.notInUse {t : Nat} (threads : Threads m) (nonzero : t ≠ 0)
    (noThread : m.history.thread t = 0) : ¬ InUse m t := by
  rintro (⟨c, isCurrent⟩ | ⟨c, call, waits, isTarget⟩ | ⟨a, call, -, -, saved, isTarget⟩)
  · by_cases isOffline : m.pc c = .offline
    · exact nonzero (isCurrent.symm.trans (threads.offline c isOffline))
    · exact threads.current c isOffline (isCurrent.symm ▸ noThread)
  · exact threads.waiting c call waits (isTarget.symm ▸ noThread)
  · exact threads.suspended a call saved (isTarget.symm ▸ noThread)

theorem FreshStructs.allocatesUnused {transition : Transition Machine Action}
    (fresh : FreshStructs transition) (threads : Threads transition.source) :
    AllocatesUnused transition :=
  fun t allocated nonzero => threads.notInUse nonzero (fresh t allocated nonzero)

theorem Threads.step (threads : Threads m) (sound : Sound m) (taken : Step m action m') :
    Threads m' := by
  rcases taken.ordinary with ⟨c, place, step⟩ | ⟨c, idle, own, here, init, -, rfl⟩ |
    ⟨c, attr, alloc, here, -, -, rfl⟩ | ⟨c, caller, here, lockFree, -, rfl⟩
  · exact threads.ordinary step
  · rcases Machine.schedInitSecondary_starts here init with ⟨made, idleTask, task, created, starts⟩
    exact (threads.afterAdding (created.adds init.idleTask)).afterAdding starts.adds
  · exact threads.create here
  · rcases sound.consistent lockFree with ⟨queue, consistent⟩
    exact threads.yieldSwitch consistent here lockFree

/-- The scheduler invariant together with that of the threads. -/
structure Valid (m : Machine) : Prop where
  sound : Sound m
  threads : Threads m

theorem Valid.initial (initial : Initial m) : Valid m :=
  ⟨Sound.initial initial, Threads.initial initial⟩

theorem Valid.step (valid : Valid m) (taken : Step m action m')
    (unused : AllocatesUnused ⟨m, action, m'⟩) : Valid m' :=
  ⟨valid.sound.step taken unused, valid.threads.step valid.sound taken⟩

end UniKernel.Pthread
