import UniKernel.Pthread.Steps

/-!
Owns what `pthread_create` does to the system: it fills in the struct `malloc`
returned and changes no other task, whatever its outcome. A struct that no call
in progress uses can be filled in without harm to the invariant, also in
`sched_init` and `sched_init_secondary`.
-/

namespace UniKernel.Pthread

open UniKernel.Lib

variable {m : Machine} {queue : Nat → List Nat} {c : Core} {attr : Option Attr} {idle : Bool}
  {alloc : Allocation} {t : Nat}

theorem State.setTask_setTask {s : State} (first second : Task) :
    (s.setTask t first).setTask t second = s.setTask t second := by
  simp [State.setTask, Function.update_idem]

/-- The outcome `ok` of `pthread_create` with the struct `t`: the struct holds
`task`, and it stays allocated exactly when the call succeeds. -/
structure Created (m m' : Machine) (attr : Option Attr) (idle : Bool) (t : Nat) (ok : Bool)
    (task : Task) : Prop where
  sched : ∃ tid, m'.sched = { m.sched.setTask t task with tidCounter := tid }
  pc : m'.pc = m.pc
  structs : m'.structs = Function.update m.structs t ok
  reclaimed : m'.reclaimed = Function.update m.reclaimed t false
  results : m'.results = m.results
  history : m'.history = (m.allocTask t).history
  next : task.next = 0
  prev : task.prev = 0
  joinWaitQueue : task.joinWaitQueue = 0
  small : task.priority < priorityCount
  context : task.context = .cleared ∨ task.context = .fork
  success : ok = true → task.state = .ready ∧ task.context = .fork ∧
    task.priority = Machine.createPriority attr idle

theorem Machine.takeStack_eq (attr : Option Attr) (block : Nat) (m : Machine) :
    ∃ page blocks, Machine.takeStack attr block m = (page, { m with blocks := blocks }) := by
  unfold Machine.takeStack
  split
  · split
    · exact ⟨_, m.blocks, rfl⟩
    · split
      · exact ⟨_, m.blocks, rfl⟩
      · exact ⟨_, _, rfl⟩
  · split
    · exact ⟨_, m.blocks, rfl⟩
    · exact ⟨_, _, rfl⟩

theorem Machine.createPriority_small (attr : Option Attr) (idle : Bool) :
    Machine.createPriority attr idle < priorityCount := by
  unfold Machine.createPriority
  split
  · decide
  · split
    · exact Nat.mod_lt _ (by decide)
    · decide

theorem Machine.pthreadCreate_null (noTask : alloc.task = 0) :
    m.pthreadCreate attr idle alloc = (false, m) := by
  rw [Machine.pthreadCreate]
  exact if_pos noTask

/-- Between `malloc` and the return: the struct `t` is allocated and holds `task`. -/
structure Filling (m m' : Machine) (t : Nat) (task : Task) : Prop where
  sched : ∃ tid, m'.sched = { m.sched.setTask t task with tidCounter := tid }
  pc : m'.pc = m.pc
  structs : m'.structs = Function.update m.structs t true
  reclaimed : m'.reclaimed = Function.update m.reclaimed t false
  results : m'.results = m.results
  history : m'.history = (m.allocTask t).history

namespace Filling

variable {m' : Machine} {task task' : Task}

theorem start (m : Machine) (t : Nat) (task : Task) :
    Filling m ((m.allocTask t).setTask t task) t task :=
  ⟨⟨m.sched.tidCounter, rfl⟩, rfl, rfl, rfl, rfl, rfl⟩

theorem tasks (filling : Filling m m' t task) : m'.sched.tasks t = task := by
  rcases filling.sched with ⟨tid, sched⟩
  rw [sched]
  exact State.tasks_setTask task |>.trans (if_pos rfl)

theorem setTask (filling : Filling m m' t task) (task' : Task) :
    Filling m (m'.setTask t task') t task' := by
  rcases filling.sched with ⟨tid, sched⟩
  refine ⟨⟨tid, ?_⟩, filling.pc, filling.structs, filling.reclaimed, filling.results,
    filling.history⟩
  have refilled : (m.sched.setTask t task).setTask t task' = m.sched.setTask t task' :=
    State.setTask_setTask task task'
  rw [Machine.setTask, Machine.setSched, sched, ← refilled]
  rfl

theorem setBlocks (filling : Filling m m' t task) (blocks : Nat → Option Nat) :
    Filling m { m' with blocks := blocks } t task :=
  ⟨filling.sched, filling.pc, filling.structs, filling.reclaimed, filling.results, filling.history⟩

theorem setTid (filling : Filling m m' t task) (tid : Nat) :
    Filling m (m'.setSched { m'.sched with tidCounter := tid }) t task := by
  rcases filling.sched with ⟨oldTid, sched⟩
  refine ⟨⟨tid, ?_⟩, filling.pc, filling.structs, filling.reclaimed, filling.results,
    filling.history⟩
  rw [Machine.setSched, sched]

/-- The call fails: the struct is freed again. -/
theorem fail (filling : Filling m m' t task) (attr : Option Attr) (idle : Bool)
    (next : task.next = 0) (prev : task.prev = 0) (joinWaitQueue : task.joinWaitQueue = 0)
    (small : task.priority < priorityCount) (context : task.context = .cleared) :
    Created m (m'.freeTask t) attr idle t false task where
  sched := filling.sched
  pc := filling.pc
  structs := by
    rw [Machine.freeTask, filling.structs]
    exact Function.update_idem ..
  reclaimed := filling.reclaimed
  results := filling.results
  history := filling.history
  next := next
  prev := prev
  joinWaitQueue := joinWaitQueue
  small := small
  context := Or.inl context
  success := nofun

/-- The call from the second stack on. -/
theorem finish (filling : Filling m m' t task) (attr : Option Attr) (idle : Bool) (block : Nat)
    (next : task.next = 0) (prev : task.prev = 0) (joinWaitQueue : task.joinWaitQueue = 0)
    (priority : task.priority = Machine.createPriority attr idle) (ready : task.state = .ready)
    (context : task.context = .cleared) :
    ∃ task', Created m (Machine.createStack attr t block m').2 attr idle t
      (Machine.createStack attr t block m').1 task' := by
  have small : task.priority < priorityCount := by
    rw [priority]
    exact Machine.createPriority_small attr idle
  rcases Machine.takeStack_eq attr block m' with ⟨page, blocks, stackEq⟩
  unfold Machine.createStack
  rw [stackEq]
  dsimp only
  rw [filling.tasks]
  have stacked := (filling.setBlocks blocks).setTask { task with stackPage := page }
  generalize Machine.setTask { m' with blocks := blocks } t _ = m₁ at stacked ⊢
  split
  · exact ⟨_, stacked.fail attr idle next prev joinWaitQueue small context⟩
  · have done := stacked.setTask { m₁.sched.tasks t with context := .fork }
    rw [stacked.tasks] at done
    refine ⟨{ task with stackPage := page, context := .fork }, {
      sched := ?_
      pc := done.pc
      structs := done.structs
      reclaimed := done.reclaimed
      results := done.results
      history := done.history
      next := next
      prev := prev
      joinWaitQueue := joinWaitQueue
      small := small
      context := Or.inr rfl
      success := fun _ => ⟨ready, rfl, priority⟩ }⟩
    rw [State.setContext, stacked.tasks]
    exact done.sched

end Filling

theorem Machine.pthreadCreate_created (m : Machine) (attr : Option Attr) (idle : Bool)
    (someTask : alloc.task ≠ 0) :
    ∃ task, Created m (m.pthreadCreate attr idle alloc).2 attr idle alloc.task
      (m.pthreadCreate attr idle alloc).1 task := by
  unfold Machine.pthreadCreate
  dsimp only
  rw [if_neg someTask]
  have zeroed := Filling.start m alloc.task Task.zero
  generalize (m.allocTask alloc.task).setTask alloc.task Task.zero = m₁ at zeroed ⊢
  rcases Machine.takeStack_eq attr alloc.firstStack m₁ with ⟨firstPage, firstBlocks, firstEq⟩
  rw [firstEq]
  dsimp only
  rw [zeroed.tasks]
  have first := (zeroed.setBlocks firstBlocks).setTask { Task.zero with stackPage := firstPage }
  generalize Machine.setTask { m₁ with blocks := firstBlocks } alloc.task _ = m₂ at first ⊢
  split
  · exact ⟨_, first.fail attr idle rfl rfl rfl (show 0 < priorityCount by decide) rfl⟩
  · rw [first.tasks]
    exact ((first.setTask _).setTid _).finish attr idle alloc.stack rfl rfl rfl rfl rfl rfl

/-! ### The invariant -/

/-- A struct that is not allocated and that no call in progress uses. -/
theorem Machine.Consistent.unused (consistent : m.Consistent queue) (nonzero : t ≠ 0)
    (fresh : FreshTask m t) (notInUse : ¬ InUse m t) :
    Unused m.sched m.pc m.history.idleTask queue t := by
  have dead : ∀ a, m.structs a = true → a ≠ t := by
    rintro a isLive rfl
    rw [fresh nonzero] at isLive
    cases isLive
  exact {
    unqueued := fun p member => dead t (consistent.queues.live p t member) rfl
    notCurrent := fun c same => notInUse (Or.inl ⟨c, same⟩)
    notPending := fun c isPending => dead t (consistent.pending c t isPending).live rfl
    notIdle := fun c online => dead _ (consistent.idle c online).live
    notTarget := fun c call waits same => notInUse (Or.inr (Or.inl ⟨c, call, waits, same⟩))
    notQueuedTarget := by
      intro p a member call saved same
      refine notInUse (Or.inr (Or.inr ⟨a, call, consistent.queues.live p a member, ?_, saved, same⟩))
      rintro c rfl
      exact consistent.currentUnqueued c p member }

namespace Created

variable {m' : Machine} {ok : Bool} {task : Task}

theorem tasks (created : Created m m' attr idle t ok task) (a : Nat) :
    m'.sched.tasks a = if a = t then task else m.sched.tasks a := by
  rcases created.sched with ⟨tid, sched⟩
  rw [sched]
  exact State.tasks_setTask task

theorem current (created : Created m m' attr idle t ok task) (c : Core) :
    m'.current c = m.current c := by
  rcases created.sched with ⟨tid, sched⟩
  rw [Machine.current, sched]
  rfl

theorem consistent (created : Created m m' attr idle t ok task) (before : m.Consistent queue)
    (unused : Unused m.sched m.pc m.history.idleTask queue t) : m'.Consistent queue := by
  rcases created.sched with ⟨tid, sched⟩
  unfold Machine.Consistent
  rw [created.pc, created.history, created.structs, sched]
  apply Consistent.changeUnused before unused created.prev created.small
  · intro a other
    exact Function.update_of_ne other ..
  · rfl
  · rfl
  · rfl
  · rfl
  · rfl
  · rfl

end Created

/-- What a call of `pthread_create` does up to the lock: nothing when it gets no
struct; else it fills the struct in, and then fails, stops before the lock, or is
over with a task of priority IDLE. -/
theorem Machine.create_cases (m : Machine) (c : Core) (attr : Option Attr) (alloc : Allocation) :
    alloc.task = 0 ∧ m.create c attr alloc = m ∨
    ∃ made task, alloc.task ≠ 0 ∧
      Created m made attr false alloc.task (m.pthreadCreate attr false alloc).1 task ∧
      ((m.pthreadCreate attr false alloc).1 = false ∧ m.create c attr alloc = made ∨
        (m.pthreadCreate attr false alloc).1 = true ∧
          Machine.createPriority attr false ≠ idlePriority ∧
          m.create c attr alloc = made.setPc c (.createLock alloc.task) ∨
        (m.pthreadCreate attr false alloc).1 = true ∧
          Machine.createPriority attr false = idlePriority ∧
          m.create c attr alloc = made.issueHandle alloc.task (m.history.births + 1)) := by
  by_cases noTask : alloc.task = 0
  · left
    rw [Machine.create, Machine.pthreadCreate_null noTask]
    exact ⟨noTask, rfl⟩
  · right
    rcases m.pthreadCreate_created attr false noTask with ⟨task, created⟩
    rw [Machine.create]
    generalize m.pthreadCreate attr false alloc = outcome at created ⊢
    rcases outcome with ⟨ok, made⟩
    dsimp only at created ⊢
    refine ⟨made, task, noTask, created, ?_⟩
    cases ok with
    | false => exact Or.inl ⟨rfl, if_neg Bool.false_ne_true⟩
    | true =>
        right
        have priority : made.sched.priority alloc.task = Machine.createPriority attr false := by
          rw [State.priority, created.tasks, if_pos rfl]
          exact (created.success rfl).2.2
        have thread : made.history.thread alloc.task = m.history.births + 1 := by
          rw [created.history]
          exact Function.update_self ..
        rw [if_pos rfl, priority, thread]
        by_cases isIdle : Machine.createPriority attr false = idlePriority
        · exact Or.inr ⟨rfl, isIdle, if_neg (not_not_intro isIdle)⟩
        · exact Or.inl ⟨rfl, isIdle, if_pos isIdle⟩

/-- Such a call ends in the thread's own code or before the lock. -/
theorem Machine.create_pc (here : m.pc c = .user) :
    ∃ place, (place = .user ∨ place = .createLock alloc.task) ∧
      (m.create c attr alloc).pc = Function.update m.pc c place := by
  have stays : m.pc = Function.update m.pc c .user := by
    rw [← here, Function.update_eq_self]
  rcases m.create_cases c attr alloc with ⟨-, same⟩ | ⟨made, task, -, created, outcome⟩
  · rw [same]
    exact ⟨.user, Or.inl rfl, stays⟩
  · rcases outcome with ⟨-, isMade⟩ | ⟨-, -, isMade⟩ | ⟨-, -, isMade⟩
    · rw [isMade]
      exact ⟨.user, Or.inl rfl, created.pc.trans stays⟩
    · rw [isMade]
      refine ⟨.createLock alloc.task, Or.inr rfl, ?_⟩
      exact congrArg (fun pc => Function.update pc c (.createLock alloc.task)) created.pc
    · rw [isMade]
      exact ⟨.user, Or.inl rfl, created.pc.trans stays⟩

/-- `pthread_create` up to the lock. -/
theorem Machine.Consistent.create (consistent : m.Consistent queue) (here : m.pc c = .user)
    (fresh : FreshAllocation m alloc) (notInUse : alloc.task ≠ 0 → ¬ InUse m alloc.task) :
    (m.create c attr alloc).Consistent queue := by
  rcases m.create_cases c attr alloc with ⟨-, same⟩ | ⟨made, task, someTask, created, outcome⟩
  · rw [same]
    exact consistent
  · have unused := consistent.unused someTask fresh.task (notInUse someTask)
    have after := created.consistent consistent unused
    rcases outcome with ⟨-, isMade⟩ | ⟨succeeds, notIdle, isMade⟩ | ⟨-, -, isMade⟩
    · rw [isMade]
      exact after
    · rw [isMade]
      rw [succeeds] at created
      rcases created.success rfl with ⟨ready, context, priority⟩
      have taskEq : made.sched.tasks alloc.task = task := by
        rw [created.tasks, if_pos rfl]
      have pending : Pending made.sched made.structs queue alloc.task := {
        ne_zero := someTask
        live := by
          rw [created.structs]
          exact Function.update_self ..
        unqueued := unused.unqueued
        notCurrent := by
          intro c'
          exact fun same => unused.notCurrent c' ((created.current c').symm.trans same)
        ready := (congrArg Task.state taskEq).trans ready
        notIdle := by
          rw [State.priority, taskEq, priority]
          exact notIdle
        context := (congrArg Task.context taskEq).trans context }
      apply Consistent.enterCreate after
      · rw [created.pc]
        exact here
      · exact pending
      · exact {
          unqueued := unused.unqueued
          notCurrent := pending.notCurrent
          notPending := by
            rw [created.pc]
            exact unused.notPending
          notIdle := by
            rw [created.pc, created.history]
            exact unused.notIdle
          notTarget := by
            rw [created.pc]
            exact unused.notTarget
          notQueuedTarget := by
            intro p a member call
            have other : a ≠ alloc.task := fun same => unused.unqueued p (same ▸ member)
            rw [created.tasks, if_neg other]
            exact unused.notQueuedTarget p a member call }
    · rw [isMade]
      exact after

/-! ### Bringing up a core -/

theorem Unused.congr {s s' : State} {pc : Core → Pc} {idleTask : Core → Nat}
    (unused : Unused s pc idleTask queue t) (current : ∀ c, s'.current c = s.current c)
    (context : ∀ p, ∀ a ∈ queue p, (s'.tasks a).context = (s.tasks a).context) :
    Unused s' pc idleTask queue t where
  unqueued := unused.unqueued
  notCurrent := by
    intro c
    rw [current]
    exact unused.notCurrent c
  notPending := unused.notPending
  notIdle := unused.notIdle
  notTarget := unused.notTarget
  notQueuedTarget := by
    intro p a member
    rw [context p a member]
    exact unused.notQueuedTarget p a member

/-- A core goes online with the new task `own`, once its idle task exists. -/
theorem Machine.Consistent.startOwn (consistent : m.Consistent queue) (here : m.pc c = .offline)
    {idleTask own : Nat} (unusedIdle : Unused m.sched m.pc m.history.idleTask queue idleTask)
    (unusedOwn : Unused m.sched m.pc m.history.idleTask queue own)
    (idleLive : m.structs idleTask = true) (idleNonzero : idleTask ≠ 0) (ownNonzero : own ≠ 0)
    (apart : own ≠ idleTask) (task : Task) (next : task.next = 0) (prev : task.prev = 0)
    (running : task.state = .running) (small : task.priority < priorityCount) {s' : State}
    (tasks : s'.tasks = (m.sched.setTask own task).tasks)
    (heads : s'.runqueues = m.sched.runqueues) (tails : s'.runqueuesTail = m.sched.runqueuesTail)
    (active : s'.activePriorities = m.sched.activePriorities)
    (cores : s'.cores = Function.update m.sched.cores c { m.sched.cores c with task := own })
    (lock : s'.schedLock = m.sched.schedLock) :
    Pthread.Consistent s' (Function.update m.structs own true) (Function.update m.pc c .user)
      (Function.update m.history.idleTask c idleTask) queue := by
  have filled : Pthread.Consistent (m.sched.setTask own task) (Function.update m.structs own true)
      m.pc m.history.idleTask queue :=
    Consistent.changeUnused consistent unusedOwn prev small
      (fun a other => Function.update_of_ne other ..) rfl rfl rfl rfl rfl rfl
  have sameContext : ∀ p, ∀ a ∈ queue p,
      ((m.sched.setTask own task).tasks a).context = (m.sched.tasks a).context := by
    intro p a member
    have other : a ≠ own := fun same => unusedOwn.unqueued p (same ▸ member)
    rw [State.tasks_setTask, if_neg other]
  have ownTask : (m.sched.setTask own task).tasks own = task := by
    rw [State.tasks_setTask, if_pos rfl]
  have parked : Parked (m.sched.setTask own task) (Function.update m.structs own true) m.pc queue
      idleTask := {
    ne_zero := idleNonzero
    live := by
      rw [Function.update_of_ne apart.symm]
      exact idleLive
    unqueued := unusedIdle.unqueued
    notCurrent := unusedIdle.notCurrent
    notPending := unusedIdle.notPending }
  have started := filled.startCore here (unusedOwn.congr (fun _ => rfl) sameContext) ownNonzero
    ⟨Function.update_self .., (congrArg Task.state ownTask).trans running,
      (congrArg Task.next ownTask).trans next⟩ parked apart
  exact started.congr tasks heads tails active cores lock

/-- `pthread_create` succeeds in an initialisation. -/
theorem Machine.pthreadCreate_init {alloc : Allocation} {own : Nat}
    (init : InitAllocation m alloc own) : (m.pthreadCreate none true alloc).1 = true := by
  unfold Machine.pthreadCreate
  dsimp only
  rw [if_neg init.idleTask]
  unfold Machine.takeStack Machine.usedAttr
  simp only [Option.filter_none]
  rw [if_neg init.idleFirstStack]
  unfold Machine.createStack Machine.takeStack Machine.usedAttr
  simp only [Option.filter_none]
  rw [if_neg init.idleStack]

/-- The idle task has the priority IDLE already. -/
theorem Created.setIdle {m' : Machine} {task : Task} (created : Created m m' none true t true task) :
    m'.setTask t { m'.sched.tasks t with priority := idlePriority } = m' := by
  rcases created.success rfl with ⟨-, -, priority⟩
  have same : { m'.sched.tasks t with priority := idlePriority } = m'.sched.tasks t := by
    rw [created.tasks, if_pos rfl, show idlePriority = task.priority from priority.symm]
  rw [same, Machine.setTask, State.setTask, Function.update_eq_self]
  rfl

/-- `sched_init_secondary` -/
theorem Machine.Consistent.schedInitSecondary (consistent : m.Consistent queue)
    (here : m.pc c = .offline) {own : Nat} (init : InitAllocation m alloc own)
    (idleNotInUse : ¬ InUse m alloc.task) (ownNotInUse : ¬ InUse m own) :
    (m.schedInitSecondary c alloc own).Consistent queue := by
  rcases Machine.pthreadCreate_created m none true init.idleTask with
    ⟨task, created⟩
  have success := Machine.pthreadCreate_init init
  have unusedIdle := consistent.unused init.idleTask init.fresh.task idleNotInUse
  have unusedOwn := consistent.unused init.own init.ownFresh ownNotInUse
  have created' := created.consistent consistent unusedIdle
  rw [Machine.schedInitSecondary]
  generalize m.pthreadCreate none true alloc = outcome at created created' success
  rcases outcome with ⟨ok, m'⟩
  dsimp only at created created' success ⊢
  subst success
  have sameContext : ∀ p, ∀ a ∈ queue p, (m'.sched.tasks a).context = (m.sched.tasks a).context := by
    intro p a member
    have other : a ≠ alloc.task := fun same => unusedIdle.unqueued p (same ▸ member)
    rw [created.tasks, if_neg other]
  have unusedIdle' := unusedIdle.congr created.current sameContext
  have unusedOwn' := unusedOwn.congr created.current sameContext
  rw [created.setIdle]
  have here' : m'.pc c = .offline := by
    rw [created.pc]
    exact here
  have live' : m'.structs alloc.task = true := by
    rw [created.structs]
    exact Function.update_self ..
  have historyEq : m'.history.idleTask = m.history.idleTask := by
    rw [created.history]
    rfl
  apply created'.startOwn here' _ _ live' init.idleTask init.own init.apart
    { Task.zero with priority := idlePriority, state := .running } rfl rfl rfl
  · show 0 < priorityCount
    decide
  · rfl
  · rfl
  · rfl
  · rfl
  · simp [Machine.markStarted, Machine.setPc, Machine.setSched, Machine.setTask, Machine.allocTask,
      Machine.setIdleTask, State.setCurrent, State.setTask, Function.update_idem]
  · rfl
  · rw [created.pc, historyEq]
    exact unusedIdle'
  · rw [created.pc, historyEq]
    exact unusedOwn'

/-- Before `sched_init` every core is offline and every queue is empty. -/
theorem Machine.zero_consistent : Machine.zero.Consistent (fun _ => []) where
  queues := {
    queued := {
      linked := fun _ => Linked.empty _ _
      priority := nofun
      active := fun p => by simp [Machine.zero]
      bounded := fun _ _ => rfl }
    ready := nofun
    live := nofun
    notIdle := rfl
    small := fun _ => show 0 < priorityCount by decide
    unqueuedPrev := fun _ _ => rfl }
  resumable := nofun
  currentNonzero := fun _ online => absurd rfl online
  currentUnqueued := fun _ _ => List.not_mem_nil
  currentApart := fun _ _ _ online => absurd rfl online
  mode := fun _ => rfl
  pending := nofun
  pendingApart := nofun
  idle := fun _ online => absurd rfl online
  lock := ⟨iff_of_false (by simp [Machine.zero]) (by simp [Machine.zero, Pc.locked]), nofun⟩
  toFree := fun _ => Or.inl rfl

/-- Nothing is in use before `sched_init`. -/
theorem Machine.zero_notInUse (nonzero : t ≠ 0) : ¬ InUse Machine.zero t := by
  rintro (⟨c, same⟩ | ⟨c, call, waits, -⟩ | ⟨a, call, isLive, -⟩)
  · exact nonzero same.symm
  · cases waits
  · cases isLive

/-- `sched_init` -/
theorem Machine.schedInit_consistent {own : Nat} (init : InitAllocation Machine.zero alloc own) :
    ∃ queue, (Machine.schedInit alloc own).Consistent queue := by
  rcases Machine.pthreadCreate_created Machine.zero none true init.idleTask with ⟨task, created⟩
  have success := Machine.pthreadCreate_init init
  have unusedIdle := Machine.zero_consistent.unused init.idleTask init.fresh.task
    (Machine.zero_notInUse init.idleTask)
  have unusedOwn := Machine.zero_consistent.unused init.own init.ownFresh
    (Machine.zero_notInUse init.own)
  have created' := created.consistent Machine.zero_consistent unusedIdle
  rw [Machine.schedInit]
  generalize Machine.zero.pthreadCreate none true alloc = outcome at created created' success
  rcases outcome with ⟨ok, m'⟩
  dsimp only at created created' success ⊢
  subst success
  have unusedIdle' : Unused m'.sched _ _ _ _ := unusedIdle.congr created.current nofun
  have unusedOwn' : Unused m'.sched _ _ _ _ := unusedOwn.congr created.current nofun
  have here : m'.pc 0 = .offline := by
    rw [created.pc]
    rfl
  have live' : m'.structs alloc.task = true := by
    rw [created.structs]
    exact Function.update_self ..
  have historyEq : m'.history.idleTask = Machine.zero.history.idleTask := by
    rw [created.history]
    rfl
  refine ⟨_, created'.startOwn here ?_ ?_ live' init.idleTask init.own init.apart
    { Task.zero with id := m'.sched.tidCounter, state := .running, priority := normalPriority }
    rfl rfl rfl (show 2 < priorityCount by decide) rfl rfl rfl rfl ?_ rfl⟩
  · rw [created.pc, historyEq]
    exact unusedIdle'
  · rw [created.pc, historyEq]
    exact unusedOwn'
  · simp [Machine.markStarted, Machine.setPc, Machine.setSched, Machine.setTask, Machine.allocTask,
      Machine.setIdleTask, State.setCurrent, State.setTask, Function.update_idem]

end UniKernel.Pthread
