import UniKernel.Pthread.Waiters

/-!
Owns the wake-up loop of `pthread_exit`. With a waiter the loop has no end, so
all that is left to say about such a run is what the loop does to its waiter,
and what the other core can do beside it. A waiter may be woken while its core
still runs it: it has left the lock of `pthread_join` and not yet taken that of
its `sched_yield`.
-/

namespace UniKernel.Pthread

open UniKernel.Lib

variable {m m' first last : Machine} {action : Action} {queue : Nat → List Nat} {c : Core}
  {a t waiting : Nat} {path : List (Transition Machine Action)}

theorem State.taskToFree_setTaskToFree {s : State} (c' : Core) :
    ((s.setTaskToFree c t).cores c').taskToFree =
      if c' = c then t else (s.cores c').taskToFree := by
  simp only [setTaskToFree, Function.update_apply]
  split <;> rfl

/-! ### Beside the loop -/

/-- A task that a step beside the loop leaves alone; a struct may be freed. -/
structure Untouched (m m' : Machine) (a : Nat) : Prop where
  task : m'.sched.tasks a = m.sched.tasks a
  waiters : m'.history.waiters a = m.history.waiters a
  live : m.structs a = true → m'.structs a = true ∨ ∃ c, (m.sched.cores c).taskToFree = a

/-- A task that such a step makes. -/
structure Made (m m' : Machine) (a : Nat) : Prop where
  fresh : m.structs a = false
  notCurrent : ∀ c, m.current c ≠ a
  next : m'.sched.next a = 0
  joinWaitQueue : (m'.sched.tasks a).joinWaitQueue = 0
  waiters : m'.history.waiters a = []

/-- A step beside the loop of core `c`. -/
structure Aside (m m' : Machine) (c : Core) : Prop where
  current : m'.current c = m.current c
  heads : m'.sched.runqueues = m.sched.runqueues
  tails : m'.sched.runqueuesTail = m.sched.runqueuesTail
  currents : ∀ c', (m'.current c' = m.current c' ∧ (m'.pc c' ≠ .offline → m.pc c' ≠ .offline)) ∨
    (m.structs (m'.current c') = false ∧ m'.sched.state (m'.current c') = .running)
  taskToFree : ∀ c', (m'.sched.cores c').taskToFree = (m.sched.cores c').taskToFree ∨
    (m'.sched.cores c').taskToFree = 0
  tasks : ∀ a, Untouched m m' a ∨ Made m m' a

namespace Aside

/-- A step of core `c'` that leaves the scheduler and the structs alone. -/
theorem ofPc {c' : Core} {place : Pc} (online : m.pc c' ≠ .offline)
    (pc : m'.pc = Function.update m.pc c' place) (sched : m'.sched = m.sched)
    (structs : m'.structs = m.structs) (waiters : m'.history.waiters = m.history.waiters) :
    Aside m m' c where
  current := congrArg (fun s => State.current s c) sched
  heads := congrArg State.runqueues sched
  tails := congrArg State.runqueuesTail sched
  currents := by
    intro c₂
    refine Or.inl ⟨congrArg (fun s => State.current s c₂) sched, ?_⟩
    rw [pc]
    by_cases same : c₂ = c'
    · rw [same]
      exact fun _ => online
    · rw [Function.update_of_ne same]
      exact id
  taskToFree := by
    intro c₂
    rw [sched]
    exact Or.inl rfl
  tasks := by
    intro a
    refine Or.inl ⟨?_, ?_, ?_⟩
    · rw [sched]
    · rw [waiters]
    · rw [structs]
      exact Or.inl

theorem yieldEnter {c' : Core} {caller : Caller} (here : m.pc c' = .yieldEnter caller) :
    Aside m (m.yieldEnter c' caller) c := by
  have online : m.pc c' ≠ .offline := by
    rw [here]
    simp
  unfold Machine.yieldEnter
  dsimp only
  split
  · exact {
      current := State.current_setTaskToFree c
      heads := rfl
      tails := rfl
      currents := by
        intro c₂
        refine Or.inl ⟨State.current_setTaskToFree c₂, ?_⟩
        by_cases same : c₂ = c'
        · rw [same]
          exact fun _ => online
        · intro online₂
          exact fun isOffline => online₂ ((Function.update_of_ne same ..).trans isOffline)
      taskToFree := by
        intro c₂
        show ((m.sched.setTaskToFree c' 0).cores c₂).taskToFree = (m.sched.cores c₂).taskToFree ∨
          ((m.sched.setTaskToFree c' 0).cores c₂).taskToFree = 0
        rw [State.taskToFree_setTaskToFree]
        split
        · exact Or.inr rfl
        · exact Or.inl rfl
      tasks := by
        intro a
        refine Or.inl ⟨rfl, rfl, ?_⟩
        intro isLive
        by_cases isFreed : a = (m.sched.cores c').taskToFree
        · exact Or.inr ⟨c', isFreed.symm⟩
        · exact Or.inl ((Function.update_of_ne isFreed ..).trans isLive) }
  · exact ofPc online rfl rfl rfl rfl

theorem created {attr : Option Attr} {idle ok : Bool} {new : Nat} {task : Task} {made : Machine}
    (created : Created m made attr idle new ok task) (fresh : m.structs new = false)
    (notCurrent : ∀ c, m.current c ≠ new) : Aside m made c := by
  rcases created.sched with ⟨tid, sched⟩
  exact {
    current := created.current c
    heads := (congrArg State.runqueues sched).trans rfl
    tails := (congrArg State.runqueuesTail sched).trans rfl
    currents := by
      intro c'
      rw [created.pc]
      exact Or.inl ⟨created.current c', id⟩
    taskToFree := by
      intro c'
      rw [sched]
      exact Or.inl rfl
    tasks := by
      intro a
      by_cases isNew : a = new
      · right
        rw [isNew]
        refine ⟨fresh, notCurrent, ?_, ?_, ?_⟩
        · rw [State.next, created.tasks, if_pos rfl]
          exact created.next
        · rw [created.tasks, if_pos rfl]
          exact created.joinWaitQueue
        · rw [created.history]
          exact Function.update_self ..
      · left
        refine ⟨?_, ?_, ?_⟩
        · rw [created.tasks, if_neg isNew]
        · rw [created.history]
          exact Function.update_of_ne isNew ..
        · rw [created.structs, Function.update_of_ne isNew]
          exact Or.inl }

/-- The rest of `pthread_create` changes no task. -/
theorem congr {made : Machine} (aside : Aside m made c) (sched : m'.sched = made.sched)
    (structs : m'.structs = made.structs) (waiters : m'.history.waiters = made.history.waiters)
    (online : ∀ c', m'.pc c' ≠ .offline → made.pc c' ≠ .offline) : Aside m m' c := by
  have current : ∀ c', m'.current c' = made.current c' := fun c' =>
    congrArg (fun s => State.current s c') sched
  exact {
    current := (current c).trans aside.current
    heads := (congrArg State.runqueues sched).trans aside.heads
    tails := (congrArg State.runqueuesTail sched).trans aside.tails
    currents := by
      intro c'
      rw [current, sched]
      rcases aside.currents c' with ⟨same, before⟩ | new
      · exact Or.inl ⟨same, fun isOnline => before (online c' isOnline)⟩
      · exact Or.inr new
    taskToFree := by
      rw [sched]
      exact aside.taskToFree
    tasks := by
      intro a
      rcases aside.tasks a with ⟨task, lists, live⟩ | ⟨fresh, notCurrent, next, noQueue, lists⟩
      · refine Or.inl ⟨?_, ?_, ?_⟩
        · rw [sched]
          exact task
        · rw [waiters]
          exact lists
        · rw [structs]
          exact live
      · refine Or.inr ⟨fresh, notCurrent, ?_, ?_, ?_⟩
        · rw [sched]
          exact next
        · rw [sched]
          exact noQueue
        · rw [waiters]
          exact lists }

theorem create {attr : Option Attr} {alloc : Allocation} {c' : Core} (here : m.pc c' = .user)
    (fresh : FreshAllocation m alloc) (unused : alloc.task ≠ 0 → ¬ InUse m alloc.task) :
    Aside m (m.create c' attr alloc) c := by
  have online : m.pc c' ≠ .offline := by
    rw [here]
    simp
  rcases m.create_cases c' attr alloc with ⟨-, same⟩ | ⟨made, task, someTask, isCreated, outcome⟩
  · rw [same]
    exact ofPc online (Function.update_eq_self ..).symm rfl rfl rfl
  · have aside : Aside m made c := created isCreated (fresh.task someTask)
      fun c₂ isCurrent => unused someTask (Or.inl ⟨c₂, isCurrent⟩)
    rcases outcome with ⟨-, isMade⟩ | ⟨-, -, isMade⟩ | ⟨-, -, isMade⟩
    · rw [isMade]
      exact aside
    · rw [isMade]
      refine aside.congr rfl rfl rfl ?_
      intro c₂ isOnline
      rw [isCreated.pc]
      by_cases same : c₂ = c'
      · rw [same]
        exact online
      · rw [← isCreated.pc]
        exact fun isOffline => isOnline ((Function.update_of_ne same ..).trans isOffline)
    · rw [isMade]
      exact aside.congr rfl rfl rfl fun _ => id

theorem schedInitSecondary {c' : Core} {idle : Allocation} {own : Nat}
    (here : m.pc c' = .offline) (apart : c ≠ c') (init : InitAllocation m idle own)
    (idleUnused : ¬ InUse m idle.task) (ownUnused : ¬ InUse m own) :
    Aside m (m.schedInitSecondary c' idle own) c := by
  rcases Machine.schedInitSecondary_starts here init with
    ⟨made, idleTask, task, isCreated, starts⟩
  have aside : Aside m made c := created isCreated (init.fresh.task init.idleTask)
    fun c₂ isCurrent => idleUnused (Or.inl ⟨c₂, isCurrent⟩)
  generalize m.schedInitSecondary c' idle own = started at starts ⊢
  have freshOwn : m.structs own = false := init.ownFresh init.own
  have tasks : ∀ a, a ≠ own → started.sched.tasks a = made.sched.tasks a := by
    intro a other
    rw [starts.tasks, Function.update_of_ne other]
  have ownTask : started.sched.tasks own = task := by
    rw [starts.tasks, Function.update_self]
  exact {
    current := by
      rw [starts.current, Function.update_of_ne apart]
      exact aside.current
    heads := starts.heads.trans aside.heads
    tails := starts.tails.trans aside.tails
    currents := by
      intro c₂
      rw [starts.current, starts.pc]
      by_cases same : c₂ = c'
      · right
        rw [same, Function.update_self, State.state, ownTask]
        exact ⟨freshOwn, starts.state⟩
      · rw [Function.update_of_ne same, Function.update_of_ne same, isCreated.current, isCreated.pc]
        exact Or.inl ⟨rfl, id⟩
    taskToFree := by
      intro c₂
      rw [starts.taskToFree]
      exact aside.taskToFree c₂
    tasks := by
      intro a
      by_cases isOwn : a = own
      · right
        rw [isOwn]
        refine ⟨freshOwn, fun c₂ isCurrent => ownUnused (Or.inl ⟨c₂, isCurrent⟩), ?_, ?_, ?_⟩
        · rw [State.next, ownTask]
          exact starts.next
        · rw [ownTask]
          exact starts.joinWaitQueue
        · rw [starts.waiters, Function.update_self]
      · have lists : started.history.waiters a = made.history.waiters a := by
          rw [starts.waiters, Function.update_of_ne isOwn]
        have structs : started.structs a = made.structs a := by
          rw [starts.structs, Function.update_of_ne isOwn]
        rcases aside.tasks a with ⟨task, sameLists, live⟩ | ⟨fresh, notCurrent, next, noQueue, none⟩
        · refine Or.inl ⟨(tasks a isOwn).trans task, lists.trans sameLists, ?_⟩
          rw [structs]
          exact live
        · refine Or.inr ⟨fresh, notCurrent, ?_, ?_, lists.trans none⟩
          · rw [State.next, tasks a isOwn]
            exact next
          · rw [tasks a isOwn]
            exact noQueue }

end Aside

/-- Beside the loop of core `c` the other core makes steps of its own; core `c`
itself is in the loop. -/
theorem Waking.aside (waking : Waking m c waiting) (taken : Step m action m')
    (unused : AllocatesUnused ⟨m, action, m'⟩) :
    Aside m m' c ∨ action = .exitWake c ∧ m' = m.exitWake c waiting := by
  have isLocked := waking.isLocked
  have onlyLoop : ∀ c', (m.pc c').locked = true → c' = c := by
    intro c' locked
    by_contra other
    rw [waking.othersFree c' other] at locked
    cases locked
  cases taken with
  | @initSecondary c' idle own here init =>
      left
      apply Aside.schedInitSecondary here _ init
        (unused idle.task (by simp [Action.structs]) init.idleTask)
        (unused own (by simp [Action.structs]) init.own)
      intro same
      rw [← same, waking.here] at here
      cases here
  | @create c' attr alloc here fresh =>
      exact Or.inl (Aside.create here fresh (unused alloc.task (by simp [Action.structs])))
  | createEnqueue here lockFree => rw [isLocked] at lockFree; cases lockFree
  | join here lockFree handle => rw [isLocked] at lockFree; cases lockFree
  | exit here lockFree => rw [isLocked] at lockFree; cases lockFree
  | yieldSwitch here lockFree => rw [isLocked] at lockFree; cases lockFree
  | @joinTest c' call here =>
      left
      unfold Machine.joinTest
      split
      · exact Aside.ofPc (by rw [here]; simp) rfl rfl rfl rfl
      · exact Aside.ofPc (by rw [here]; simp) rfl rfl rfl rfl
  | @joinReturn c' call here =>
      left
      unfold Machine.joinReturn
      dsimp only
      split
      · exact Aside.ofPc (by rw [here]; simp) rfl rfl rfl rfl
      · exact Aside.ofPc (by rw [here]; simp) rfl rfl rfl rfl
  | @exitWake c' waiter here =>
      have same : c' = c := onlyLoop c' (by rw [here]; rfl)
      subst same
      rw [waking.here] at here
      rw [Pc.exitWake.inj here]
      exact Or.inr ⟨rfl, rfl⟩
  | callYield here => exact Or.inl (Aside.ofPc (by rw [here]; simp) rfl rfl rfl rfl)
  | yieldEnter here => exact Or.inl (Aside.yieldEnter here)
  | @unlock c' after here =>
      have same : c' = c := onlyLoop c' (by rw [here]; rfl)
      subst same
      rw [waking.here] at here
      cases here
  | @forkUnlock c' here =>
      have same : c' = c := onlyLoop c' (by rw [here]; rfl)
      subst same
      rw [waking.here] at here
      cases here

/-- What `pthread_exit` does up to its loop. -/
structure Exits (m m' : Machine) (c : Core) (value : Nat) : Prop where
  pc : m'.pc = Function.update m.pc c (.exitWake (m.sched.tasks (m.current c)).joinWaitQueue)
  current : ∀ c', m'.current c' = m.current c'
  taskToFree : ∀ c', (m'.sched.cores c').taskToFree =
    if c' = c then m.current c else (m.sched.cores c').taskToFree
  task : ∀ a, a ≠ m.current c → m'.sched.tasks a = m.sched.tasks a
  own : m'.sched.tasks (m.current c) =
    { m.sched.tasks (m.current c) with state := .exited, retValue := value }
  heads : m'.sched.runqueues = m.sched.runqueues
  tails : m'.sched.runqueuesTail = m.sched.runqueuesTail
  structs : m'.structs = m.structs
  reclaimed : m'.reclaimed = m.reclaimed
  thread : m'.history.thread = m.history.thread
  waiters : m'.history.waiters = m.history.waiters
  exitValue : m'.history.exitValue =
    Function.update m.history.exitValue (m.history.thread (m.current c)) (some value)

theorem Machine.exit_exits (m : Machine) (c : Core) (value : Nat) :
    Exits m (m.exit c value) c value where
  pc := m.exit_waiters c value
  current := fun c' => State.current_setTaskToFree c'
  taskToFree := fun c' => State.taskToFree_setTaskToFree c'
  task := fun a other => (State.tasks_setTask_of_ne other).trans (State.tasks_setTask_of_ne other)
  own := by
    refine State.tasks_setTask_self.trans ?_
    rw [show ((m.sched.setLock true).setRetValue _ value).tasks _ = _ from State.tasks_setTask_self]
    rfl
  heads := rfl
  tails := rfl
  structs := rfl
  reclaimed := rfl
  thread := rfl
  waiters := rfl
  exitValue := rfl

theorem Exits.state {value : Nat} (exits : Exits m m' c value) (a : Nat) :
    m'.sched.state a = if a = m.current c then .exited else m.sched.state a := by
  by_cases isOwn : a = m.current c
  · rw [State.state, isOwn, exits.own, if_pos rfl]
  · rw [State.state, exits.task a isOwn, if_neg isOwn]
    rfl

theorem Waiters.head_mem (waiters : Waiters m) (someWaiter : (m.sched.tasks t).joinWaitQueue ≠ 0) :
    (m.sched.tasks t).joinWaitQueue ∈ m.history.waiters t := by
  rw [waiters.head] at someWaiter ⊢
  apply headD_mem
  intro none
  rw [none] at someWaiter
  exact someWaiter rfl

/-- An iteration of the loop of core `c` makes the waiter ready and enqueues it. -/
structure Woken (m m' : Machine) (c : Core) (waiting : Nat) : Prop where
  pc : m'.pc = m.pc
  cores : m'.sched.cores = m.sched.cores
  structs : m'.structs = m.structs
  state : ∀ a, m'.sched.state a = if a = waiting then .ready else m.sched.state a
  next : ∀ a, m'.sched.next a =
    if m.sched.runqueues (m.sched.priority waiting) ≠ 0 ∧
      a = m.sched.runqueuesTail (m.sched.priority waiting) then waiting
    else if a = waiting then 0 else m.sched.next a
  heads : m'.sched.runqueues = Function.update m.sched.runqueues (m.sched.priority waiting)
    (if m.sched.runqueues (m.sched.priority waiting) = 0 then waiting
      else m.sched.runqueues (m.sched.priority waiting))
  tails : m'.sched.runqueuesTail =
    Function.update m.sched.runqueuesTail (m.sched.priority waiting) waiting
  joinWaitQueue : ∀ t, (m'.sched.tasks t).joinWaitQueue = (m.sched.tasks t).joinWaitQueue
  waiters : m'.history.waiters = Function.update m.history.waiters (m.current c)
    ((m.history.waiters (m.current c)).erase waiting)

theorem Woken.current (woken : Woken m m' c waiting) (c' : Core) : m'.current c' = m.current c' :=
  congrArg (fun cores => (cores c').task) woken.cores

theorem Machine.exitWake_woken (someWaiter : waiting ≠ 0) :
    Woken m (m.exitWake c waiting) c waiting := by
  have loop : m.exitWake c waiting =
      (m.setSched ((m.sched.setState waiting .ready).schedEnqueueTask waiting)).setWaiters
        (m.current c) ((m.history.waiters (m.current c)).erase waiting) :=
    if_pos someWaiter
  have priority : (m.sched.setState waiting .ready).priority waiting = m.sched.priority waiting :=
    State.priority_setState
  rw [loop]
  refine ⟨rfl, State.cores_schedEnqueueTask, rfl, ?_, ?_, ?_, ?_, ?_, rfl⟩
  · exact fun a => State.state_schedEnqueueTask.trans State.state_setState
  · intro a
    refine State.next_schedEnqueueTask.trans ?_
    rw [priority, State.next_setState]
    rfl
  · refine State.runqueues_schedEnqueueTask.trans ?_
    rw [priority]
    rfl
  · refine State.runqueuesTail_schedEnqueueTask.trans ?_
    rw [priority]
    rfl
  · intro t
    exact (State.field_schedEnqueueTask Task.joinWaitQueue fun _ => rfl).trans
      State.joinWaitQueue_setState

/-! ### The end of the loop -/

/-- The core that takes a step. -/
def Action.core : Action → Core
  | .initSecondary c _ _ => c
  | .create c _ _ => c
  | .createEnqueue c => c
  | .join c _ => c
  | .joinTest c => c
  | .joinReturn c => c
  | .exit c _ => c
  | .exitWake c => c
  | .callYield c => c
  | .yieldEnter c => c
  | .yieldSwitch c => c
  | .unlock c => c
  | .forkUnlock c => c

/-- A step moves its own core only. -/
theorem Step.pc_eq (taken : Step m action m') :
    ∃ place, m'.pc = Function.update m.pc action.core place := by
  cases taken with
  | initSecondary here init =>
      rcases (Machine.schedInitSecondary_bystands init.idleTask).pc with ⟨place, -, pc⟩
      exact ⟨place, pc⟩
  | create here fresh =>
      rcases (Machine.create_bystands here).pc with ⟨place, -, pc⟩
      exact ⟨place, pc⟩
  | createEnqueue here lockFree => exact ⟨_, (Machine.createEnqueue_ordinary here).pc⟩
  | join here lockFree handle =>
      rcases Machine.join_ordinary here handle with ⟨place, step⟩
      exact ⟨place, step.pc⟩
  | joinTest here =>
      rcases Machine.joinTest_ordinary here with ⟨place, step⟩
      exact ⟨place, step.pc⟩
  | joinReturn here => exact ⟨_, (Machine.joinReturn_ordinary here).pc⟩
  | exit here lockFree => exact ⟨_, Machine.exit_waiters ..⟩
  | exitWake here =>
      rcases Machine.exitWake_ordinary here with ⟨place, step⟩
      exact ⟨place, step.pc⟩
  | callYield here => exact ⟨_, rfl⟩
  | yieldEnter here => exact ⟨_, (Machine.yieldEnter_ordinary here).pc⟩
  | yieldSwitch here lockFree => exact ⟨_, Machine.yieldSwitch_pc ..⟩
  | unlock here => exact ⟨_, (Machine.unlock_ordinary here).pc⟩
  | forkUnlock here => exact ⟨_, rfl⟩

/-- In the loop a core takes the steps of the loop. -/
theorem Step.exitWake_of_loop (taken : Step m action m')
    (here : m.pc action.core = .exitWake waiting) :
    action = .exitWake action.core ∧ m' = m.exitWake action.core waiting := by
  cases taken with
  | exitWake inLoop =>
      rw [Pc.exitWake.inj (inLoop.symm.trans here)]
      exact ⟨rfl, rfl⟩
  | initSecondary elsewhere | create elsewhere | createEnqueue elsewhere | join elsewhere
  | joinTest elsewhere | joinReturn elsewhere | exit elsewhere | callYield elsewhere
  | yieldEnter elsewhere | yieldSwitch elsewhere | unlock elsewhere | forkUnlock elsewhere =>
      cases elsewhere.symm.trans here

/-- With a waiter the core stays in the loop, whatever any core does. -/
theorem Step.stays_in_loop (taken : Step m action m') (here : m.pc c = .exitWake waiting)
    (someWaiter : waiting ≠ 0) : m'.pc c = .exitWake waiting := by
  by_cases same : action.core = c
  · subst same
    rw [(taken.exitWake_of_loop here).2, (Machine.exitWake_woken someWaiter).pc, here]
  · rcases taken.pc_eq with ⟨place, pc⟩
    rw [pc, Function.update_of_ne (Ne.symm same), here]

/-- Every task of the list `waiters` is ready and once on the runqueue of its
priority, and no task but the exiting one changed its state otherwise. -/
structure WokenAll (m m' : Machine) (c : Core) (waiters : List Nat) : Prop where
  ready : ∀ a ∈ waiters, m'.sched.state a = .ready
  queued : ∀ a ∈ waiters, ∃ tasks, tasks.count a = 1 ∧
    Linked m'.sched.next m'.sched.prev (m'.sched.runqueues (m'.sched.priority a))
      (m'.sched.runqueuesTail (m'.sched.priority a)) tasks
  others : ∀ a, a ∉ waiters → a ≠ m.current c → m'.sched.state a = m.sched.state a

/-- The steps of the loop, the only ones the core has there, lead out of it with
all waiters woken if and only if there is none. -/
theorem exit_wakes_all_iff (m : Machine) (c : Core) (value : Nat) :
    (∃ path last, Execution Step (m.exit c value) path last ∧
      (∀ transition ∈ path, transition.label = .exitWake c) ∧ last.pc c = .unlock .exited ∧
      ∀ waiters, Chain m.sched.next (m.sched.tasks (m.current c)).joinWaitQueue waiters →
        WokenAll m last c waiters) ↔
    (m.sched.tasks (m.current c)).joinWaitQueue = 0 := by
  have exits := m.exit_exits c value
  have here : (m.exit c value).pc c = .exitWake (m.sched.tasks (m.current c)).joinWaitQueue := by
    rw [exits.pc, Function.update_self]
  constructor
  · intro leaves
    rcases leaves with ⟨path, last, run, -, outside, -⟩
    by_contra someWaiter
    have inLoop : last.pc c = .exitWake (m.sched.tasks (m.current c)).joinWaitQueue :=
      run.invariant here fun source label target inLoop taken =>
        taken.stays_in_loop inLoop someWaiter
    cases inLoop.symm.trans outside
  · intro noWaiter
    rw [noWaiter] at here
    have taken : Step (m.exit c value) (.exitWake c) ((m.exit c value).exitWake c 0) :=
      Step.exitWake here
    have done := (m.exit c value).exitWake_zero c
    refine ⟨_, _, Execution.single taken, by simp, ?_, ?_⟩
    · rw [done]
      exact Function.update_self ..
    · intro waiters chain
      rw [noWaiter] at chain
      have none : waiters = [] := by
        cases waiters with
        | nil => rfl
        | cons first rest => exact absurd chain.2.1.symm chain.1
      subst none
      refine ⟨nofun, nofun, ?_⟩
      intro a _ other
      rw [done]
      refine State.state_schedDequeueTask.trans (State.state_setJoinWaitQueue.trans ?_)
      rw [exits.state, if_neg other]

/-- Main joins a thread on its own core, which then exits: it stays in its loop. -/
theorem exists_exit_stays : ∃ path last, Execution Step Machine.booted path last ∧
    last.pc 0 = .user ∧ last.sched.schedLock = false ∧ last.history.waiters 30 = [20] ∧
    last.current 0 = 30 ∧
    ∀ path' last', Execution Step (last.exit 0 7) path' last' → last'.pc 0 = .exitWake 20 := by
  rcases Machine.exists_run Machine.booted
    [.create 0 none (blocksFrom 30), .createEnqueue 0, .unlock 0, .join 0 ⟨30, 3, 0⟩, .unlock 0,
      .joinTest 0, .yieldEnter 0, .yieldSwitch 0, .forkUnlock 0]
    (fun path last => decide (last.pc 0 = .user ∧ last.sched.schedLock = false ∧
      last.history.waiters 30 = [20] ∧ last.current 0 = 30 ∧
      (last.exit 0 7).pc 0 = .exitWake 20)) (by decide +kernel) with ⟨path, last, run, holds⟩
  rcases of_decide_eq_true holds with ⟨here, lockFree, isWaiting, isCurrent, inLoop⟩
  refine ⟨path, last, run, here, lockFree, isWaiting, isCurrent, ?_⟩
  intro path' last' later
  exact later.invariant inLoop fun source label target stays taken =>
    taken.stays_in_loop stays (by decide)

/-! ### Waking a task its core still runs -/

/-- No task that a core runs waits to be run. -/
def NoneReady (m : Machine) : Prop :=
  ∀ c, m.pc c ≠ .offline → m.sched.state (m.current c) ≠ .ready

theorem Machine.Consistent.noneReady (consistent : m.Consistent queue) : NoneReady m := by
  intro c online
  have own := consistent.mode c
  generalize isMode : (m.pc c).mode = mode at own
  intro ready
  have ready : m.sched.state (m.sched.current c) = .ready := ready
  cases mode with
  | offline => exact online (Pc.mode_eq_offline_iff.mp isMode)
  | running => cases ready.symm.trans own.2.1
  | waiting call =>
      rcases own.2.1 with running | blocked
      · cases ready.symm.trans running
      · cases ready.symm.trans blocked
  | waking waiting => cases ready.symm.trans own.2.2.1
  | dying => cases ready.symm.trans own
  | dead => cases ready.symm.trans own
  | lost => exact own

/-- The loop of core `c` wakes a task that no core runs. -/
structure WakesSuspended (m : Machine) (c : Core) (waiting : Nat) : Prop where
  waking : Waking m c waiting
  notCurrent : ∀ c', m.current c' ≠ waiting
  live : m.structs waiting = true
  unfreed : ∀ c', (m.sched.cores c').taskToFree ≠ waiting
  noneReady : NoneReady m

/-- At a `pthread_exit` of core `c`, no core runs the latest waiter. -/
def ExitsApart (m : Machine) (c : Core) : Prop :=
  (m.sched.tasks (m.current c)).joinWaitQueue ≠ 0 →
    ∀ c', m.current c' ≠ (m.sched.tasks (m.current c)).joinWaitQueue

instance (m : Machine) (c : Core) : Decidable (ExitsApart m c) :=
  inferInstanceAs (Decidable ((m.sched.tasks (m.current c)).joinWaitQueue ≠ 0 →
    ∀ c', m.current c' ≠ (m.sched.tasks (m.current c)).joinWaitQueue))

namespace WakesSuspended

theorem aside (wakes : WakesSuspended m c waiting) (taken : Step m action m')
    (aside : Aside m m' c) : WakesSuspended m' c waiting where
  waking := wakes.waking.step taken
  notCurrent := by
    intro c' isCurrent
    rcases aside.currents c' with ⟨same, -⟩ | ⟨fresh, -⟩
    · exact wakes.notCurrent c' (same.symm.trans isCurrent)
    · rw [isCurrent, wakes.live] at fresh
      cases fresh
  live := by
    rcases aside.tasks waiting with untouched | made
    · rcases untouched.live wakes.live with isLive | ⟨c', isFreed⟩
      · exact isLive
      · exact absurd isFreed (wakes.unfreed c')
    · cases made.fresh.symm.trans wakes.live
  unfreed := by
    intro c'
    rcases aside.taskToFree c' with same | none
    · rw [same]
      exact wakes.unfreed c'
    · rw [none]
      exact wakes.waking.someWaiter.symm
  noneReady := by
    intro c' online
    rcases aside.currents c' with ⟨same, before⟩ | ⟨-, running⟩
    · rcases aside.tasks (m.current c') with untouched | made
      · rw [same, State.state, untouched.task]
        exact wakes.noneReady c' (before online)
      · exact absurd rfl (made.notCurrent c')
    · rw [running]
      simp

/-- An iteration of the loop. -/
theorem exitWake (wakes : WakesSuspended m c waiting) :
    WakesSuspended (m.exitWake c waiting) c waiting := by
  have taken : Step m (.exitWake c) (m.exitWake c waiting) := Step.exitWake wakes.waking.here
  have woken := Machine.exitWake_woken (m := m) (c := c) wakes.waking.someWaiter
  refine ⟨wakes.waking.step taken, ?_, ?_, ?_, ?_⟩
  · intro c'
    rw [woken.current]
    exact wakes.notCurrent c'
  · rw [woken.structs]
    exact wakes.live
  · intro c'
    rw [woken.cores]
    exact wakes.unfreed c'
  · intro c' online
    rw [woken.pc] at online
    rw [woken.current, woken.state, if_neg (wakes.notCurrent c')]
    exact wakes.noneReady c' online

/-- A `pthread_exit` whose latest waiter no core runs. -/
theorem exit {value : Nat} (consistent : m.Consistent queue) (waiters : Waiters m)
    (here : m.pc c = .user) (lockFree : m.sched.schedLock = false)
    (someWaiter : (m.sched.tasks (m.current c)).joinWaitQueue ≠ 0) (apart : ExitsApart m c) :
    WakesSuspended (m.exit c value) c (m.sched.tasks (m.current c)).joinWaitQueue := by
  have notCurrent := apart someWaiter
  have exits := m.exit_exits c value
  refine ⟨Machine.exit_waking consistent.lock lockFree someWaiter, ?_,
    (waiters.waits _ _ (waiters.head_mem someWaiter)).1, ?_, ?_⟩
  · intro c'
    rw [exits.current]
    exact notCurrent c'
  · intro c'
    rw [exits.taskToFree]
    split
    · exact notCurrent c
    · rcases consistent.toFree c' with none | ⟨isCurrent, -⟩
      · rw [none]
        exact someWaiter.symm
      · rw [isCurrent]
        exact notCurrent c'
  · intro c' online
    rw [exits.current, exits.state]
    split
    · simp
    · apply consistent.noneReady
      intro isOffline
      apply online
      have other : c' ≠ c := by
        intro same
        rw [same, here] at isOffline
        cases isOffline
      rw [exits.pc, Function.update_of_ne other, isOffline]

end WakesSuspended

/-- The states of all runs in which no struct in use is handed out again, and
every thread exits apart from its latest waiter. -/
def Apart (m : Machine) : Prop :=
  (∃ queue, m.Consistent queue ∧ Waiters m) ∨ ∃ c waiting, WakesSuspended m c waiting

theorem Apart.noneReady (apart : Apart m) : NoneReady m := by
  rcases apart with ⟨queue, consistent, -⟩ | ⟨c, waiting, wakes⟩
  · exact consistent.noneReady
  · exact wakes.noneReady

theorem Waiters.initial (initial : Initial m) : Waiters m := by
  rcases initial with ⟨idle, own, init, rfl⟩
  rcases Machine.schedInit_starts init with ⟨made, idleTask, task, created, starts⟩
  have zero : Waiters Machine.zero := ⟨fun _ => rfl, fun _ => List.nodup_nil, nofun⟩
  have unused : ∀ t, t ≠ 0 → ¬ InUse Machine.zero t := fun t => Machine.zero_notInUse
  have first : KeepsWaiters Machine.zero made (fun _ => []) := KeepsWaiters.afterCreated zero
    init.idleTask rfl (unused _ init.idleTask) created
  have freshOwn : made.structs own = false := by
    rw [created.structs, Function.update_of_ne init.apart]
    rfl
  have unusedOwn : ¬ InUse made own := fun inUse =>
    unused own init.own (inUse.beforeCreated created)
  have second : KeepsWaiters made (Machine.schedInit idle own) (fun _ => []) :=
    KeepsWaiters.afterStart (zero.keep first) freshOwn unusedOwn starts
  exact zero.keep (first.trans second)

theorem Apart.initial (initial : Initial m) : Apart m := by
  rcases Sound.initial initial with ⟨queue, consistent⟩ | ⟨c, waiting, waking⟩
  · exact Or.inl ⟨queue, consistent, Waiters.initial initial⟩
  · rcases initial with ⟨idle, own, init, rfl⟩
    rcases Machine.schedInit_consistent init with ⟨queue, consistent⟩
    exact Or.inl ⟨queue, consistent, Waiters.initial ⟨idle, own, init, rfl⟩⟩

/-- The step of a consistent machine, for the lists of waiters. -/
theorem Waiters.step (waiters : Waiters m) (consistent : m.Consistent queue)
    (taken : Step m action m') (unused : AllocatesUnused ⟨m, action, m'⟩) :
    (∃ queue', m'.Consistent queue' ∧ Waiters m') ∨ ExitsWaited m action m' := by
  rcases consistent.step taken unused with ⟨queue', consistent'⟩ | exits
  · rcases consistent.step_waiters waiters taken unused with
      keeps | ⟨c, call, here, notExited, isJoin, rfl⟩ | exits | ⟨c, caller, here, lockFree, -, rfl⟩
    · exact Or.inl ⟨queue', consistent', waiters.keep keeps⟩
    · subst isJoin
      cases taken with
      | join here lockFree handle =>
          exact Or.inl ⟨queue', consistent', waiters.join consistent here notExited handle⟩
    · exact Or.inr exits
    · rcases consistent.switched here lockFree with ⟨nextTask, switched⟩
      exact Or.inl ⟨queue', consistent', waiters.switch consistent here switched⟩
  · exact Or.inr exits

theorem Apart.step (apart : Apart m) (taken : Step m action m')
    (unused : AllocatesUnused ⟨m, action, m'⟩)
    (exitsApart : ∀ c value, action = .exit c value → ExitsApart m c) : Apart m' := by
  rcases apart with ⟨queue, consistent, waiters⟩ | ⟨c, waiting, wakes⟩
  · rcases waiters.step consistent taken unused with
      after | ⟨c, value, here, lockFree, someWaiter, isExit, rfl⟩
    · exact Or.inl after
    · exact Or.inr ⟨c, _, WakesSuspended.exit consistent waiters here lockFree someWaiter
        (exitsApart c value isExit)⟩
  · rcases wakes.waking.aside taken unused with aside | ⟨-, rfl⟩
    · exact Or.inr ⟨c, waiting, wakes.aside taken aside⟩
    · exact Or.inr ⟨c, waiting, wakes.exitWake⟩

/-- In every run that hands out no struct in use and whose threads exit apart
from their latest waiters, `pthread_exit` only ever enqueues tasks that no core
runs, and no task that a core runs is ready. -/
theorem wakes_only_suspended (initial : Initial first) (run : Execution Step first path last)
    (unused : ∀ transition ∈ path, AllocatesUnused transition)
    (exitsApart : ∀ transition ∈ path, ∀ c value, transition.label = .exit c value →
      ExitsApart transition.source c) :
    NoneReady last ∧ ∀ transition ∈ path, ∀ c waiting, transition.label = .exitWake c →
      transition.source.pc c = .exitWake waiting → waiting ≠ 0 →
      ∀ c', transition.source.current c' ≠ waiting := by
  have keeps : ∀ source label target, Apart source → Step source label target →
      (AllocatesUnused ⟨source, label, target⟩ ∧
        ∀ c value, label = .exit c value → ExitsApart source c) → Apart target :=
    fun source label target apart taken allowed => apart.step taken allowed.1 allowed.2
  have allowed : ∀ transition ∈ path, AllocatesUnused transition ∧
      ∀ c value, transition.label = .exit c value → ExitsApart transition.source c :=
    fun transition member => ⟨unused transition member, exitsApart transition member⟩
  have start := Apart.initial initial
  constructor
  · exact (run.invariant_of_allowed (fun transition => AllocatesUnused transition ∧
      ∀ c value, transition.label = .exit c value → ExitsApart transition.source c)
      start keeps allowed).noneReady
  · intro transition member c waiting isWake here someWaiter
    have apart := (run.invariant_at_transition (fun transition => AllocatesUnused transition ∧
      ∀ c value, transition.label = .exit c value → ExitsApart transition.source c)
      start keeps allowed transition member).1
    rcases apart with ⟨queue, consistent, -⟩ | ⟨c₂, waiting₂, wakes⟩
    · have own := consistent.mode c
      rw [here] at own
      exact absurd own.1 someWaiter
    · have same : c = c₂ := by
        by_contra other
        have free := wakes.waking.othersFree c other
        rw [here] at free
        cases free
      rw [same, wakes.waking.here] at here
      rw [← Pc.exitWake.inj here]
      exact wakes.notCurrent

/-- Main joins a thread on its own core and is switched away from before the
thread exits. -/
theorem wakes_only_suspended_one_core : ∃ path last, Execution Step Machine.booted path last ∧
    last.pc 0 = .exitWake 20 ∧ NoneReady last ∧
      ∀ transition ∈ path, ∀ c waiting, transition.label = .exitWake c →
        transition.source.pc c = .exitWake waiting → waiting ≠ 0 →
        ∀ c', transition.source.current c' ≠ waiting := by
  rcases Machine.exists_run Machine.booted
    [.create 0 none (blocksFrom 30), .createEnqueue 0, .unlock 0, .join 0 ⟨30, 3, 0⟩, .unlock 0,
      .joinTest 0, .yieldEnter 0, .yieldSwitch 0, .forkUnlock 0, .exit 0 7, .exitWake 0]
    (fun path last => decide ((∀ transition ∈ path, FreshStructs transition) ∧
      (∀ transition ∈ path, ∀ c, ExitsApart transition.source c) ∧ last.pc 0 = .exitWake 20))
    (by decide +kernel) with ⟨path, last, run, holds⟩
  rcases of_decide_eq_true holds with ⟨fresh, apart, inLoop⟩
  exact ⟨path, last, run, inLoop, wakes_only_suspended Machine.booted_initial run
    (valid_of_fresh Machine.booted_initial run fresh).2
    fun transition member c _ _ => apart transition member c⟩

/-- Main joins a thread that core 1 runs, and the thread exits before main's
`sched_yield` has taken the lock: main is enqueued while core 0 still runs it. -/
theorem exists_wake_of_current : ∃ path last, Execution Step Machine.booted path last ∧
    (∀ transition ∈ path, FreshStructs transition) ∧
    ∃ transition ∈ path, transition.label = .exitWake 1 ∧
      transition.source.pc 1 = .exitWake 20 ∧ transition.source.current 0 = 20 ∧
      transition.target.sched.runqueues normalPriority = 20 := by
  rcases Machine.exists_run Machine.booted
    [.initSecondary 1 (blocksFrom 40) 50, .create 0 none (blocksFrom 30), .createEnqueue 0,
      .unlock 0, .callYield 1, .yieldEnter 1, .yieldSwitch 1, .forkUnlock 1, .join 0 ⟨30, 5, 0⟩,
      .unlock 0, .exit 1 7, .exitWake 1]
    (fun path _ => decide ((∀ transition ∈ path, FreshStructs transition) ∧
      ∃ transition ∈ path, transition.label = .exitWake 1 ∧
        transition.source.pc 1 = .exitWake 20 ∧ transition.source.current 0 = 20 ∧
        transition.target.sched.runqueues normalPriority = 20))
    (by decide +kernel) with ⟨path, last, run, holds⟩
  exact ⟨path, last, run, of_decide_eq_true holds⟩

end UniKernel.Pthread
