import UniKernel.Pthread.Attributes
import UniKernel.Pthread.Lock
import UniKernel.Pthread.Stacks
import UniKernel.Pthread.WaitLists

/-!
Owns what becomes of the threads that `pthread_create` returned 0 for. A thread
whose handle is out is in a runqueue until it is first switched to, unless its
attribute asks for priority 0: `pthread_create` takes that priority for the one
of an idle task, which is never enqueued, while `pthread_attr_setschedparam`
accepts it from anybody.
-/

namespace UniKernel.Pthread

open UniKernel.Lib

variable {m m' first last : Machine} {action : Action} {queue : Nat → List Nat} {c : Core}
  {place : Pc} {attr : Option Attr} {alloc : Allocation} {a t n waiting : Nat}
  {path : List (Transition Machine Action)}

/-- The task `t` is READY and linked once into a runqueue. -/
def Runnable (s : State) (t : Nat) : Prop :=
  s.state t = .ready ∧ ∃ queue, RunqueuesOk s queue ∧ ∃ p < priorityCount, (queue p).count t = 1

/-- The step returns 0 from `pthread_create`, with the handle `t` for the thread `n`. -/
def Issues (transition : Transition Machine Action) (t n : Nat) : Prop :=
  transition.target.history.issued = (t, n) :: transition.source.history.issued

/-- The thread `n` of the handle `t` is out, and has not run. -/
structure Unstarted (m : Machine) (t n : Nat) : Prop where
  issued : (t, n) ∈ m.history.issued
  thread : m.history.thread t = n
  notStarted : m.history.started n = false

/-- Every other task of the same or a higher priority has blocked or exited. -/
def Unopposed (m : Machine) (t : Nat) : Prop :=
  ∀ a, m.structs a = true → a ≠ t → m.sched.priority t ≤ m.sched.priority a →
    m.sched.state a = .blocked ∨ m.sched.state a = .exited

/-- Core `c` runs `t` for the first time. -/
structure RunsFirst (m : Machine) (c : Core) (t : Nat) : Prop where
  current : m.current c = t
  running : m.sched.state t = .running
  pc : m.pc c = .forkUnlock

/-- A thread for which 0 is returned is runnable, and a `sched_yield` switches
to a thread that nothing opposes. -/
structure KeepsRunnable (transition : Transition Machine Action) : Prop where
  linked : ∀ t n, Issues transition t n → Runnable transition.target.sched t
  runs : ∀ c, transition.label = .yieldSwitch c → ∀ t n, Unstarted transition.source t n →
    Unopposed transition.source t → RunsFirst transition.target c t

/-- No thread is created with an attribute that asks for priority 0. -/
def AsksNoIdle (transition : Transition Machine Action) : Prop :=
  ∀ c attr alloc, transition.label = .create c attr alloc → Succeeds attr alloc →
    ∀ used ∈ Machine.usedAttr attr, used.schedparam ≠ 0

/-- The attributes of a step are accepted. -/
def AcceptsAttr (transition : Transition Machine Action) : Prop :=
  ∀ c attr alloc, transition.label = .create c attr alloc → AcceptedArgument attr

/-! ### The return of 0 -/

theorem Machine.pthreadCreate_succeeds_iff (m : Machine) (attr : Option Attr)
    (someTask : alloc.task ≠ 0) :
    (m.pthreadCreate attr false alloc).1 = true ↔ Succeeds attr alloc :=
  (m.pthreadCreate_taken attr false someTask).success

/-- Behind its outcome, `pthread_create` leaves the tasks and the threads alone. -/
theorem Machine.create_made (m : Machine) (c : Core) (attr : Option Attr)
    (someTask : alloc.task ≠ 0) :
    ∃ made ok task, Created m made attr false alloc.task ok task ∧
      (m.create c attr alloc).sched = made.sched ∧
      (m.create c attr alloc).history.births = made.history.births ∧
      (m.create c attr alloc).history.thread = made.history.thread ∧
      (m.create c attr alloc).history.started = made.history.started := by
  rcases m.create_cases c attr alloc with ⟨noTask, -⟩ | ⟨made, task, -, created, outcome⟩
  · exact absurd noTask someTask
  · refine ⟨made, _, task, created, ?_⟩
    rcases outcome with ⟨-, isMade⟩ | ⟨-, -, isMade⟩ | ⟨-, -, isMade⟩
    · rw [isMade]
      exact ⟨rfl, rfl, rfl, rfl⟩
    · rw [isMade]
      exact ⟨rfl, rfl, rfl, rfl⟩
    · rw [isMade]
      exact ⟨rfl, rfl, rfl, rfl⟩

/-- The steps that return 0: the unlock behind the enqueueing, and the end of a
call that makes a task of priority IDLE. -/
theorem Step.issues (taken : Step m action m') (issues : Issues ⟨m, action, m'⟩ t n) :
    (∃ c, action = .unlock c ∧ m.pc c = .unlock (.created t n)) ∨
      ∃ c attr alloc, action = .create c attr alloc ∧ Succeeds attr alloc ∧
        Machine.createPriority attr false = idlePriority := by
  have changes : m'.history.issued ≠ m.history.issued := by
    intro same
    have isNew : m'.history.issued = (t, n) :: m.history.issued := issues
    exact List.cons_ne_self _ _ (isNew.symm.trans same)
  cases taken with
  | @initSecondary c idle own here init =>
      rcases Machine.schedInitSecondary_starts here init with ⟨made, idleTask, task, created, starts⟩
      exact absurd (starts.adds.issued.trans (created.adds init.idleTask).issued) changes
  | @create c attr alloc here fresh =>
      rcases m.create_cases c attr alloc with ⟨-, same⟩ | ⟨made, task, someTask, created, outcome⟩
      · rw [same] at changes
        exact absurd rfl changes
      · have sameIssued := (created.adds someTask).issued
        rcases outcome with ⟨-, isMade⟩ | ⟨-, -, isMade⟩ | ⟨succeeds, isIdle, -⟩
        · rw [isMade] at changes
          exact absurd sameIssued changes
        · rw [isMade] at changes
          exact absurd sameIssued changes
        · have reallySucceeds := (m.pthreadCreate_succeeds_iff attr someTask).mp succeeds
          exact Or.inr ⟨c, attr, alloc, rfl, reallySucceeds, isIdle⟩
  | createEnqueue here lockFree => exact absurd rfl changes
  | join here lockFree handle =>
      unfold Machine.join at changes
      dsimp only at changes
      split at changes
      · exact absurd rfl changes
      · exact absurd rfl changes
  | joinTest here =>
      unfold Machine.joinTest at changes
      split at changes
      · exact absurd rfl changes
      · exact absurd rfl changes
  | joinReturn here =>
      unfold Machine.joinReturn at changes
      dsimp only at changes
      split at changes
      · exact absurd rfl changes
      · exact absurd rfl changes
  | exit here lockFree => exact absurd rfl changes
  | exitWake here =>
      unfold Machine.exitWake at changes
      dsimp only at changes
      split at changes
      · exact absurd rfl changes
      · exact absurd rfl changes
  | callYield here => exact absurd rfl changes
  | yieldEnter here =>
      unfold Machine.yieldEnter at changes
      dsimp only at changes
      split at changes
      · exact absurd rfl changes
      · exact absurd rfl changes
  | yieldSwitch here lockFree =>
      rw [Machine.yieldSwitch_history] at changes
      split at changes
      · exact absurd rfl changes
      · exact absurd rfl changes
  | @unlock c after here =>
      left
      refine ⟨c, rfl, ?_⟩
      cases after with
      | created t' n' =>
          have isNew : (t', n') :: m.history.issued = (t, n) :: m.history.issued := issues
          rcases Prod.mk.inj (List.cons.inj isNew).1 with ⟨rfl, rfl⟩
          exact here
      | yielded caller => exact absurd rfl changes
      | joinWaiting call => exact absurd rfl changes
      | joinDone call => exact absurd rfl changes
      | exited => exact absurd rfl changes
  | forkUnlock here => exact absurd rfl changes

/-! ### Threads on the way to their first run -/

/-- From its enqueueing until it first runs, a thread is in the runqueues. -/
structure Enlisted (m : Machine) (queue : Nat → List Nat) : Prop where
  created : ∀ c t n, m.pc c = .unlock (.created t n) →
    (∃ p, t ∈ queue p) ∧ n ≤ m.history.births
  issued : ∀ t n, (t, n) ∈ m.history.issued → n ≤ m.history.births
  unstarted : ∀ t n, Unstarted m t n → ∃ p, t ∈ queue p

namespace Enlisted

theorem ordinary (enlisted : Enlisted m queue) (step : Ordinary m m' c place)
    (notCreating : ∀ t, m.pc c ≠ .createLock t) : Enlisted m' queue where
  created := by
    intro c' t n unlocks
    rw [step.keeps.births]
    apply enlisted.created c'
    rw [step.pc] at unlocks
    by_cases same : c' = c
    · rw [same, Function.update_self] at unlocks
      exact absurd (step.goes.created t n unlocks) (notCreating t)
    · rwa [Function.update_of_ne same] at unlocks
  issued := by
    intro t n isIssued
    rw [step.keeps.births]
    rcases step.issued t n isIssued with before | unlocks
    · exact enlisted.issued t n before
    · exact (enlisted.created c t n unlocks).2
  unstarted := by
    rintro t n ⟨isIssued, thread, notStarted⟩
    rw [step.keeps.thread] at thread
    rw [step.keeps.started] at notStarted
    rcases step.issued t n isIssued with before | unlocks
    · exact enlisted.unstarted t n ⟨before, thread, notStarted⟩
    · exact (enlisted.created c t n unlocks).1

/-- The new task is enqueued. -/
theorem createEnqueue (enlisted : Enlisted m queue) (threads : Threads m) :
    Enlisted (m.createEnqueue c t) (pushTo queue (m.sched.priority t) t) where
  created := by
    intro c' t' n unlocks
    have pc : Function.update m.pc c (.unlock (.created t (m.history.thread t))) c' =
        .unlock (.created t' n) := unlocks
    by_cases same : c' = c
    · rw [same, Function.update_self] at pc
      injection pc with pc
      injection pc with sameTask sameThread
      rw [← sameTask, ← sameThread]
      refine ⟨⟨m.sched.priority t, ?_⟩, threads.bounded t⟩
      rw [pushTo, Function.update_self]
      simp
    · rw [Function.update_of_ne same] at pc
      rcases enlisted.created c' t' n pc with ⟨⟨p, member⟩, bound⟩
      exact ⟨⟨p, QueuesOk.mem_pushTo member⟩, bound⟩
  issued := enlisted.issued
  unstarted := by
    rintro a n ⟨isIssued, thread, notStarted⟩
    rcases enlisted.unstarted a n ⟨isIssued, thread, notStarted⟩ with ⟨p, member⟩
    exact ⟨p, QueuesOk.mem_pushTo member⟩

/-- A new thread has a number that no handle has. -/
theorem afterAdding (enlisted : Enlisted m queue) (adds : Adds m m' t) : Enlisted m' queue where
  created := by
    intro c a n unlocks
    rw [adds.births]
    rcases adds.core c with ⟨samePc, -⟩ | ⟨-, isUser, -⟩
    · rw [samePc] at unlocks
      rcases enlisted.created c a n unlocks with ⟨member, bound⟩
      exact ⟨member, Nat.le_succ_of_le bound⟩
    · rw [isUser] at unlocks
      cases unlocks
  issued := by
    intro a n isIssued
    rw [adds.issued] at isIssued
    rw [adds.births]
    exact Nat.le_succ_of_le (enlisted.issued a n isIssued)
  unstarted := by
    rintro a n ⟨isIssued, thread, notStarted⟩
    rw [adds.issued] at isIssued
    have old : n ≠ m.history.births + 1 := by
      have bound := enlisted.issued a n isIssued
      omega
    have other : a ≠ t := by
      intro isNew
      rw [isNew, adds.thread, Function.update_self] at thread
      exact old thread.symm
    rw [adds.thread, Function.update_of_ne other] at thread
    rw [adds.started n old] at notStarted
    exact enlisted.unstarted a n ⟨isIssued, thread, notStarted⟩

/-- `pthread_create` up to the lock, unless it is over there with a task of
priority IDLE. -/
theorem create (enlisted : Enlisted m queue)
    (notIdle : Succeeds attr alloc → Machine.createPriority attr false ≠ idlePriority) :
    Enlisted (m.create c attr alloc) queue := by
  rcases m.create_cases c attr alloc with ⟨-, same⟩ | ⟨made, task, someTask, created, outcome⟩
  · rw [same]
    exact enlisted
  · have after := enlisted.afterAdding (created.adds someTask)
    rcases outcome with ⟨-, isMade⟩ | ⟨-, -, isMade⟩ | ⟨succeeds, isIdle, -⟩
    · rw [isMade]
      exact after
    · rw [isMade]
      refine ⟨?_, after.issued, fun t n unstarted =>
        after.unstarted t n ⟨unstarted.issued, unstarted.thread, unstarted.notStarted⟩⟩
      intro c' t n unlocks
      have pc : Function.update made.pc c (.createLock alloc.task) c' = .unlock (.created t n) :=
        unlocks
      by_cases same : c' = c
      · rw [same, Function.update_self] at pc
        cases pc
      · rw [Function.update_of_ne same] at pc
        exact after.created c' t n pc
    · exact absurd isIdle (notIdle ((m.pthreadCreate_succeeds_iff attr someTask).mp succeeds))

theorem schedInitSecondary {idle : Allocation} {own : Nat} (enlisted : Enlisted m queue)
    (here : m.pc c = .offline) (init : InitAllocation m idle own) :
    Enlisted (m.schedInitSecondary c idle own) queue := by
  rcases Machine.schedInitSecondary_starts here init with ⟨made, idleTask, task, created, starts⟩
  exact (enlisted.afterAdding (created.adds init.idleTask)).afterAdding starts.adds

/-- The switch: only the next task leaves the runqueues, and its thread runs. -/
theorem yieldSwitch {caller : Caller} {queue' : Nat → List Nat} (enlisted : Enlisted m queue)
    (consistent : m.Consistent queue) (contexts' : Contexts (m.yieldSwitch c caller))
    (here : m.pc c = .yieldLock caller) (lockFree : m.sched.schedLock = false)
    (stay : ∀ p, ∀ a ∈ queue p, a ≠ (m.yieldSwitch c caller).current c → a ∈ queue' p) :
    Enlisted (m.yieldSwitch c caller) queue' := by
  rcases consistent.switched here lockFree with ⟨nextTask, switched⟩
  generalize m.yieldSwitch c caller = m' at contexts' stay switched ⊢
  have lock := consistent.lock
  rw [lockFree] at lock
  have births := switched.keepsHistory History.births fun _ _ => rfl
  have issued := switched.keepsHistory History.issued fun _ _ => rfl
  have thread := switched.keepsHistory History.thread fun _ _ => rfl
  have started : ∀ n, m'.history.started n = false → m.history.started n = false := by
    intro n notStarted
    rw [switched.history] at notStarted
    split at notStarted
    · by_cases same : n = m.history.thread nextTask
      · have isStarted : Function.update m.history.started (m.history.thread nextTask) true n =
            false := notStarted
        rw [same, Function.update_self] at isStarted
        cases isStarted
      · exact (Function.update_of_ne same ..).symm.trans notStarted
    · exact notStarted
  have resumes : m'.pc c ≠ .offline ∧ ∀ t n, m'.pc c ≠ .unlock (.created t n) := by
    rcases switched.place with ⟨caller', goesOn⟩ | goesOn | goesOn <;> rw [goesOn] <;> simp
  constructor
  · intro c' t n unlocks
    by_cases same : c' = c
    · exact absurd (same ▸ unlocks) (resumes.2 t n)
    · -- no core is in a critical section before the switch
      rw [switched.pc_other same] at unlocks
      have free := lock.allFree c'
      rw [unlocks] at free
      cases free
  · rw [issued, births]
    exact enlisted.issued
  · rintro t n ⟨isIssued, isThread, notStarted⟩
    have notNext : t ≠ m'.current c := by
      intro isNext
      have hasStarted := contexts'.started c resumes.1
      rw [← isNext, isThread, notStarted] at hasStarted
      cases hasStarted
    rw [issued] at isIssued
    rw [thread] at isThread
    rcases enlisted.unstarted t n ⟨isIssued, isThread, started n notStarted⟩ with ⟨p, member⟩
    exact ⟨p, stay p t member notNext⟩

theorem zero : Enlisted Machine.zero queue where
  created := nofun
  issued := nofun
  unstarted := fun _ _ unstarted => absurd unstarted.issued List.not_mem_nil

theorem initial (initial : Initial m) : Enlisted m queue := by
  rcases initial with ⟨idle, own, init, rfl⟩
  rcases Machine.schedInit_starts init with ⟨made, idleTask, task, created, starts⟩
  exact (zero.afterAdding (created.adds init.idleTask)).afterAdding starts.adds

end Enlisted

/-! ### Beside a wake-up loop -/

/-- Core `c` is in the wake-up loop with a live waiter, and no other task can be
at the head of the runqueue of the priority IDLE. -/
structure LoopsBeside (m : Machine) (c : Core) (waiting : Nat) : Prop where
  waking : Waking m c waiting
  live : m.structs waiting = true
  unfreed : ∀ c', (m.sched.cores c').taskToFree ≠ waiting
  idleHead : m.sched.runqueues idlePriority = 0 ∨ m.sched.runqueues idlePriority = waiting

namespace LoopsBeside

theorem aside (loops : LoopsBeside m c waiting) (taken : Step m action m') (aside : Aside m m' c) :
    LoopsBeside m' c waiting where
  waking := loops.waking.step taken
  live := by
    rcases aside.tasks waiting with untouched | made
    · rcases untouched.live loops.live with isLive | ⟨c', isFreed⟩
      · exact isLive
      · exact absurd isFreed (loops.unfreed c')
    · cases made.fresh.symm.trans loops.live
  unfreed := by
    intro c'
    rcases aside.taskToFree c' with same | none
    · rw [same]
      exact loops.unfreed c'
    · rw [none]
      exact loops.waking.someWaiter.symm
  idleHead := by
    rw [aside.heads]
    exact loops.idleHead

theorem exitWake (loops : LoopsBeside m c waiting) :
    LoopsBeside (m.exitWake c waiting) c waiting := by
  have taken : Step m (.exitWake c) (m.exitWake c waiting) := Step.exitWake loops.waking.here
  have woken := Machine.exitWake_woken (m := m) (c := c) loops.waking.someWaiter
  refine ⟨loops.waking.step taken, ?_, ?_, ?_⟩
  · rw [woken.structs]
    exact loops.live
  · rw [woken.cores]
    exact loops.unfreed
  · rw [woken.heads, Function.update_apply]
    split
    · next isIdle =>
        rw [← isIdle]
        split
        · exact Or.inr rfl
        · exact loops.idleHead
    · exact loops.idleHead

/-- A `pthread_exit` with a waiter enters the loop. -/
theorem exit {value : Nat} (consistent : m.Consistent queue) (waiters : Waiters m)
    (here : m.pc c = .user) (lockFree : m.sched.schedLock = false)
    (someWaiter : (m.sched.tasks (m.current c)).joinWaitQueue ≠ 0) :
    LoopsBeside (m.exit c value) c (m.sched.tasks (m.current c)).joinWaitQueue := by
  have waits := waiters.waits _ _ (waiters.head_mem someWaiter)
  have notOwn : ∀ c', m.pc c' ≠ .offline → (∀ call, (m.pc c').mode ≠ .waiting call) →
      m.current c' ≠ (m.sched.tasks (m.current c)).joinWaitQueue := fun c' online notWaiting =>
    (waits.ne_current consistent online notWaiting).symm
  have exits := m.exit_exits c value
  refine ⟨Machine.exit_waking consistent.lock lockFree someWaiter, waits.1, ?_, ?_⟩
  · intro c'
    rw [exits.taskToFree]
    split
    · apply notOwn c
      · rw [here]
        simp
      · intro call waits
        rw [here] at waits
        cases waits
    · rcases consistent.toFree c' with none | ⟨isCurrent, reclaiming⟩
      · rw [none]
        exact someWaiter.symm
      · rw [isCurrent]
        apply notOwn c'
        · intro isOffline
          rw [isOffline] at reclaiming
          cases reclaiming
        · exact Pc.notWaiting_of_reclaiming reclaiming
  · rw [exits.heads]
    exact Or.inl ((consistent.queues.queued.linked _).head_eq_zero_iff.mpr consistent.queues.notIdle)

end LoopsBeside

/-! ### The invariant -/

/-- A consistent machine in which every thread that has not run is enlisted. -/
structure Dispatchable (m : Machine) (queue : Nat → List Nat) : Prop where
  consistent : m.Consistent queue
  waiters : Waiters m
  threads : Threads m
  contexts : Contexts m
  enlisted : Enlisted m queue

theorem Dispatchable.valid (dispatchable : Dispatchable m queue) : Valid m :=
  ⟨Or.inl ⟨queue, dispatchable.consistent⟩, dispatchable.threads⟩

theorem Dispatchable.initial (initial : Initial m) : ∃ queue, Dispatchable m queue := by
  have start := initial
  rcases start with ⟨idle, own, init, rfl⟩
  rcases Machine.schedInit_consistent init with ⟨queue, consistent⟩
  exact ⟨queue, consistent, Waiters.initial initial, Threads.initial initial,
    Contexts.initial initial, Enlisted.initial initial⟩

/-- The step of a machine outside the loops, for the threads that have not run. -/
theorem Dispatchable.step_enlisted (dispatchable : Dispatchable m queue)
    (taken : Step m action m') (unused : AllocatesUnused ⟨m, action, m'⟩)
    (accepted : AcceptsAttr ⟨m, action, m'⟩) (noIdle : AsksNoIdle ⟨m, action, m'⟩) :
    (∃ queue', m'.Consistent queue' ∧ Enlisted m' queue') ∨ ExitsWaited m action m' := by
  rcases dispatchable with ⟨consistent, waiters, threads, contexts, enlisted⟩
  have contexts' : Contexts m' := contexts.step ⟨Or.inl ⟨queue, consistent⟩, threads⟩ taken unused
  rcases consistent.step_queue taken unused with same | ⟨c, t, here, lockFree, -, rfl⟩ |
    ⟨c, caller, here, lockFree, -, rfl⟩ | exits
  · left
    cases taken with
    | initSecondary here init => exact ⟨queue, same, enlisted.schedInitSecondary here init⟩
    | @create c attr alloc here fresh =>
        refine ⟨queue, same, enlisted.create ?_⟩
        intro succeeds isIdle
        rcases (accepted c attr alloc rfl).createPriority_eq_idle_iff.mp isIdle with
          ⟨used, isUsed, isZero⟩
        exact noIdle c attr alloc rfl succeeds used isUsed isZero
    | createEnqueue here lockFree =>
        exact ⟨_, consistent.afterEnqueue here lockFree, enlisted.createEnqueue threads⟩
    | join here lockFree handle =>
        rcases Machine.join_ordinary here handle with ⟨place, step⟩
        exact ⟨queue, same, enlisted.ordinary step (by rw [here]; simp)⟩
    | joinTest here =>
        rcases Machine.joinTest_ordinary here with ⟨place, step⟩
        exact ⟨queue, same, enlisted.ordinary step (by rw [here]; simp)⟩
    | joinReturn here =>
        exact ⟨queue, same, enlisted.ordinary (Machine.joinReturn_ordinary here) (by rw [here]; simp)⟩
    | exit here lockFree =>
        rcases Machine.exit_ordinary here with ⟨place, step⟩
        exact ⟨queue, same, enlisted.ordinary step (by rw [here]; simp)⟩
    | exitWake here =>
        rcases Machine.exitWake_ordinary here with ⟨place, step⟩
        exact ⟨queue, same, enlisted.ordinary step (by rw [here]; simp)⟩
    | callYield here =>
        exact ⟨queue, same, enlisted.ordinary (Machine.callYield_ordinary here) (by rw [here]; simp)⟩
    | yieldEnter here =>
        exact ⟨queue, same, enlisted.ordinary (Machine.yieldEnter_ordinary here) (by rw [here]; simp)⟩
    | yieldSwitch here lockFree =>
        rcases consistent.afterSwitch here lockFree with ⟨queue', after, stay, -⟩
        exact ⟨queue', after, enlisted.yieldSwitch consistent contexts' here lockFree stay⟩
    | unlock here =>
        exact ⟨queue, same, enlisted.ordinary (Machine.unlock_ordinary here) (by rw [here]; simp)⟩
    | forkUnlock here =>
        exact ⟨queue, same, enlisted.ordinary (Machine.forkUnlock_ordinary here) (by rw [here]; simp)⟩
  · exact Or.inl ⟨_, consistent.afterEnqueue here lockFree, enlisted.createEnqueue threads⟩
  · rcases consistent.afterSwitch here lockFree with ⟨queue', after, stay, -⟩
    exact Or.inl ⟨queue', after, enlisted.yieldSwitch consistent contexts' here lockFree stay⟩
  · exact Or.inr exits

/-- The states of all runs in which no struct in use is handed out again and no
thread is created with an attribute that asks for priority 0. -/
def Dispatches (m : Machine) : Prop :=
  (∃ queue, Dispatchable m queue) ∨ ∃ c waiting, LoopsBeside m c waiting

theorem Dispatches.step (dispatches : Dispatches m) (taken : Step m action m')
    (unused : AllocatesUnused ⟨m, action, m'⟩) (accepted : AcceptsAttr ⟨m, action, m'⟩)
    (noIdle : AsksNoIdle ⟨m, action, m'⟩) : Dispatches m' := by
  rcases dispatches with ⟨queue, dispatchable⟩ | ⟨c, waiting, loops⟩
  · have threads' := dispatchable.threads.step dispatchable.valid.sound taken
    have contexts' := dispatchable.contexts.step dispatchable.valid taken unused
    rcases dispatchable.waiters.step dispatchable.consistent taken unused with
      ⟨-, -, waiters'⟩ | ⟨c, value, here, lockFree, someWaiter, -, rfl⟩
    · rcases dispatchable.step_enlisted taken unused accepted noIdle with
        ⟨queue', consistent', enlisted'⟩ | ⟨c, value, here, lockFree, someWaiter, -, rfl⟩
      · exact Or.inl ⟨queue', consistent', waiters', threads', contexts', enlisted'⟩
      · exact Or.inr ⟨c, _, LoopsBeside.exit dispatchable.consistent dispatchable.waiters here
          lockFree someWaiter⟩
    · exact Or.inr ⟨c, _, LoopsBeside.exit dispatchable.consistent dispatchable.waiters here
        lockFree someWaiter⟩
  · rcases loops.waking.aside taken unused with aside | ⟨-, rfl⟩
    · exact Or.inr ⟨c, waiting, loops.aside taken aside⟩
    · exact Or.inr ⟨c, waiting, loops.exitWake⟩

/-! ### Threads that are linked -/

/-- A queued task is runnable while the queues are in order. -/
theorem Machine.Consistent.runnable {p : Nat} (consistent : m.Consistent queue)
    (member : t ∈ queue p) : Runnable m.sched t := by
  have queued := consistent.queues.queued
  refine ⟨consistent.queues.ready p t member, queue, consistent.runqueuesOk, p,
    queued.inRange member, ?_⟩
  rw [(queued.linked p).nodup.count, if_pos member]

/-- The head of the runqueue of the priority IDLE, if any, is live. -/
theorem Dispatches.idleHead (dispatches : Dispatches m) :
    m.sched.runqueues idlePriority = 0 ∨
      m.structs (m.sched.runqueues idlePriority) = true := by
  rcases dispatches with ⟨queue, dispatchable⟩ | ⟨c, waiting, loops⟩
  · left
    have queues := dispatchable.consistent.queues
    exact (queues.queued.linked _).head_eq_zero_iff.mpr queues.notIdle
  · rcases loops.idleHead with none | isWaiting
    · exact Or.inl none
    · rw [isWaiting]
      exact Or.inr loops.live

/-- A task without a predecessor is the head of its runqueue. -/
theorem Runnable.isHead {s : State} (runnable : Runnable s t) (noPrev : s.prev t = 0) :
    s.runqueues (s.priority t) = t := by
  rcases runnable with ⟨-, queue, queues, p, small, once⟩
  have member : t ∈ queue p := List.count_pos_iff.mp (by omega)
  rw [queues.priority p small t member]
  exact ((queues.linked p small).prev_eq_zero_iff member).mp noPrev

/-- A new task of priority IDLE is in no runqueue. -/
theorem Created.not_runnable {task : Task} (dispatches : Dispatches m)
    (created : Created m m' attr false t true task) (nonzero : t ≠ 0) (fresh : m.structs t = false)
    (isIdle : Machine.createPriority attr false = idlePriority) : ¬ Runnable m'.sched t := by
  intro runnable
  have ownTask : m'.sched.tasks t = task := by
    rw [created.tasks, if_pos rfl]
  have ownPriority : m'.sched.priority t = idlePriority := by
    rw [State.priority, ownTask, (created.success rfl).2.2, isIdle]
  have noPrev : m'.sched.prev t = 0 := by
    rw [State.prev, ownTask]
    exact created.prev
  have sameHeads : m'.sched.runqueues = m.sched.runqueues := by
    rcases created.sched with ⟨tid, sched⟩
    rw [sched]
    rfl
  have isHead := runnable.isHead noPrev
  rw [ownPriority, sameHeads] at isHead
  rcases dispatches.idleHead with none | isLive
  · exact nonzero (isHead.symm.trans none)
  · rw [isHead, fresh] at isLive
    cases isLive

/-- The task that a switch goes on with is live, and could go on. -/
theorem Machine.Consistent.next_active {caller : Caller} {nextTask : Nat}
    (consistent : m.Consistent queue) (here : m.pc c = .yieldLock caller) (nonempty : ∃ p, t ∈ queue p)
    (switched : Switched m m' c caller queue nextTask) :
    m.structs nextTask = true ∧
      (m.sched.state nextTask = .ready ∨ m.sched.state nextTask = .running) := by
  rcases switched.choice with ⟨p, member, -⟩ | ⟨same, running⟩ | ⟨-, -, empty⟩
  · exact ⟨consistent.queues.live p _ member, Or.inl (consistent.queues.ready p _ member)⟩
  · rw [same]
    have own := consistent.mode c
    rw [here] at own
    rcases caller with _ | call | _
    · exact ⟨own.1, Or.inr running⟩
    · exact ⟨own.1, Or.inr running⟩
    · cases running.symm.trans own
  · rcases nonempty with ⟨p, member⟩
    rw [empty p] at member
    cases member

/-- A `sched_yield` switches to an enlisted thread that nothing opposes. -/
theorem Dispatchable.runsFirst {caller : Caller} (dispatchable : Dispatchable m queue)
    (here : m.pc c = .yieldLock caller) (lockFree : m.sched.schedLock = false)
    (unstarted : Unstarted m t n) (unopposed : Unopposed m t) :
    RunsFirst (m.yieldSwitch c caller) c t := by
  have consistent := dispatchable.consistent
  have enlisted := dispatchable.enlisted.unstarted t n unstarted
  rcases consistent.afterSwitch here lockFree with ⟨queue', -, -, highest⟩
  rcases consistent.switched here lockFree with ⟨nextTask, switched⟩
  have current : (m.yieldSwitch c caller).current c = nextTask := by
    rw [switched.current, if_pos rfl]
  have isNext : nextTask = t := by
    by_contra other
    rcases enlisted with ⟨p, member⟩
    have higher := highest p t member
    rw [current] at higher
    rcases consistent.next_active here ⟨p, member⟩ switched with ⟨isLive, active⟩
    rcases unopposed nextTask isLive other higher with blocked | exited
    · rw [blocked] at active
      simp at active
    · rw [exited] at active
      simp at active
  have handsOver := dispatchable.contexts.handsOver consistent here lockFree
  refine ⟨current.trans isNext, isNext ▸ switched.running, handsOver.firstRun ?_⟩
  rw [current, isNext, unstarted.thread, unstarted.notStarted]

/-- A step of a machine outside the loops makes the thread it returns 0 for
runnable. -/
theorem Dispatches.runnable_of_unlock (dispatches : Dispatches m) (taken : Step m (.unlock c) m')
    (unused : AllocatesUnused ⟨m, .unlock c, m'⟩) (here : m.pc c = .unlock (.created t n)) :
    Runnable m'.sched t := by
  rcases dispatches with ⟨queue, dispatchable⟩ | ⟨c', waiting, loops⟩
  · rcases (dispatchable.enlisted.created c t n here).1 with ⟨p, member⟩
    rcases dispatchable.consistent.step_queue taken unused with same | ⟨_, _, -, -, isUnlock, -⟩ |
      ⟨_, _, -, -, isUnlock, -⟩ | ⟨_, _, -, -, -, isUnlock, -⟩
    · exact same.runnable member
    · cases isUnlock
    · cases isUnlock
    · cases isUnlock
  · have same : c = c' := by
      by_contra other
      have free := loops.waking.othersFree c other
      rw [here] at free
      cases free
    rw [← same] at loops
    cases here.symm.trans loops.waking.here

/-- A step keeps the new threads runnable exactly when it makes none with an
attribute that asks for priority 0. -/
theorem Dispatches.keepsRunnable_iff (dispatches : Dispatches m) (taken : Step m action m')
    (unused : AllocatesUnused ⟨m, action, m'⟩) (accepted : AcceptsAttr ⟨m, action, m'⟩) :
    KeepsRunnable ⟨m, action, m'⟩ ↔ AsksNoIdle ⟨m, action, m'⟩ := by
  constructor
  · intro keeps c attr alloc isCreate succeeds used isUsed isZero
    dsimp only at isCreate
    subst isCreate
    have isIdle := (accepted c attr alloc rfl).createPriority_eq_idle_iff.mpr ⟨used, isUsed, isZero⟩
    cases taken with
    | create here fresh =>
        rcases m.create_cases c attr alloc with ⟨noTask, -⟩ | ⟨made, task, someTask, created, outcome⟩
        · exact succeeds.1 noTask
        have ok := (m.pthreadCreate_succeeds_iff attr someTask).mpr succeeds
        rw [ok] at created outcome
        rcases outcome with ⟨fails, -⟩ | ⟨-, notIdle, -⟩ | ⟨-, -, isMade⟩
        · cases fails
        · exact notIdle isIdle
        · have issues : Issues ⟨m, .create c attr alloc, m.create c attr alloc⟩ alloc.task
              (m.history.births + 1) := by
            have same : made.history.issued = m.history.issued := (created.adds someTask).issued
            rw [Issues, isMade, ← same]
            rfl
          have runnable := keeps.linked _ _ issues
          dsimp only at runnable
          rw [isMade] at runnable
          exact created.not_runnable dispatches someTask (fresh.task someTask) isIdle runnable
  · intro noIdle
    constructor
    · intro t n issues
      rcases taken.issues issues with ⟨c, rfl, here⟩ | ⟨c, attr, alloc, rfl, succeeds, isIdle⟩
      · exact dispatches.runnable_of_unlock taken unused here
      · rcases (accepted c attr alloc rfl).createPriority_eq_idle_iff.mp isIdle with
          ⟨used, isUsed, isZero⟩
        exact absurd isZero (noIdle c attr alloc rfl succeeds used isUsed)
    · intro c isYield t n unstarted unopposed
      dsimp only at isYield unstarted unopposed ⊢
      subst isYield
      cases taken with
      | yieldSwitch here lockFree =>
          rcases dispatches with ⟨queue, dispatchable⟩ | ⟨c', waiting, loops⟩
          · exact dispatchable.runsFirst here lockFree unstarted unopposed
          · rw [loops.waking.isLocked] at lockFree
            cases lockFree

/-! ### Threads that never run -/

/-- A step changes the priority of a task only by making it. -/
theorem Step.priority (taken : Step m action m') (a : Nat) :
    m'.sched.priority a = m.sched.priority a ∨ m.history.births < m'.history.thread a := by
  cases taken with
  | @initSecondary c idle own here init =>
      rcases Machine.schedInitSecondary_starts here init with ⟨made, idleTask, task, created, starts⟩
      have births : made.history.births = m.history.births + 1 := (created.adds init.idleTask).births
      by_cases isOwn : a = own
      · rw [isOwn, starts.thread, Function.update_self]
        exact Or.inr (by omega)
      · rw [starts.thread, Function.update_of_ne isOwn, State.priority, starts.tasks,
          Function.update_of_ne isOwn, (created.adds init.idleTask).thread, created.tasks]
        by_cases isIdle : a = idle.task
        · rw [isIdle, Function.update_self]
          exact Or.inr (by omega)
        · rw [if_neg isIdle]
          exact Or.inl rfl
  | @create c attr alloc here fresh =>
      by_cases noTask : alloc.task = 0
      · rw [Machine.create, Machine.pthreadCreate_null noTask]
        exact Or.inl rfl
      · rcases m.create_made c attr noTask with ⟨made, ok, task, created, sched, -, thread, -⟩
        rw [sched, thread, State.priority, created.tasks, (created.adds noTask).thread]
        by_cases isNew : a = alloc.task
        · rw [isNew, Function.update_self]
          exact Or.inr (Nat.lt_succ_self _)
        · rw [if_neg isNew]
          exact Or.inl rfl
  | createEnqueue here lockFree => exact Or.inl State.priority_schedEnqueueTask
  | join here lockFree handle =>
      left
      unfold Machine.join
      dsimp only
      split
      · exact State.priority_setJoinWaitQueue.trans
          (State.priority_setNext.trans State.priority_setState)
      · rfl
  | joinTest here =>
      left
      unfold Machine.joinTest
      split <;> rfl
  | joinReturn here =>
      left
      unfold Machine.joinReturn
      dsimp only
      split <;> rfl
  | exit here lockFree =>
      exact Or.inl (State.priority_setState.trans (State.field_setTask Task.priority rfl))
  | exitWake here =>
      left
      unfold Machine.exitWake
      dsimp only
      split
      · exact State.priority_schedEnqueueTask.trans State.priority_setState
      · exact State.priority_schedDequeueTask.trans State.priority_setJoinWaitQueue
  | callYield here => exact Or.inl rfl
  | yieldEnter here =>
      left
      unfold Machine.yieldEnter
      dsimp only
      split <;> rfl
  | yieldSwitch here lockFree =>
      exact Or.inl (m.yieldSwitch_field _ Task.priority (fun _ => rfl) (fun _ _ => rfl) a)
  | unlock here =>
      left
      unfold Machine.unlock
      dsimp only
      split <;> rfl
  | forkUnlock here => exact Or.inl rfl

/-- The thread `n` has not run, and the task it was made in has the priority IDLE. -/
structure NeverRuns (m : Machine) (n : Nat) : Prop where
  bound : n ≤ m.history.births
  notStarted : m.history.started n = false
  idle : ∀ a, m.history.thread a = n → m.sched.priority a = idlePriority

/-- A new task leaves the earlier threads alone. -/
theorem Adds.earlier (adds : Adds m m' t) (bound : n ≤ m.history.births) :
    n ≤ m'.history.births ∧ m'.history.started n = m.history.started n ∧
      ∀ a, m'.history.thread a = n → m.history.thread a = n := by
  refine ⟨?_, adds.started n (by omega), ?_⟩
  · rw [adds.births]
    exact Nat.le_succ_of_le bound
  · intro a isThread
    rw [adds.thread, Function.update_apply] at isThread
    split at isThread
    · omega
    · exact isThread

/-- The switch takes its next task from the runqueues, where no task has the
priority IDLE. -/
theorem Machine.Consistent.switched_notIdle {caller : Caller} {nextTask : Nat}
    (consistent : m.Consistent queue) (switched : Switched m m' c caller queue nextTask)
    (other : nextTask ≠ m.current c) : m.sched.priority nextTask ≠ idlePriority := by
  rcases switched.choice.origin with ⟨p, member⟩ | same
  · intro isIdle
    rw [consistent.queues.queued.priority p nextTask member] at isIdle
    rw [isIdle, consistent.queues.notIdle] at member
    cases member
  · exact absurd same other

theorem NeverRuns.step (never : NeverRuns m n) (sound : Sound m) (taken : Step m action m') :
    NeverRuns m' n := by
  have idle : ∀ a, m.history.thread a = n → m'.history.thread a = n →
      m'.sched.priority a = idlePriority := by
    intro a before after
    rcases taken.priority a with same | isNew
    · exact same.trans (never.idle a before)
    · have bound := never.bound
      omega
  rcases taken.ordinary with ⟨c, place, step⟩ | ⟨c, idleAlloc, own, here, init, -, rfl⟩ |
    ⟨c, attr, alloc, here, -, -, rfl⟩ | ⟨c, caller, here, lockFree, -, rfl⟩
  · have thread := step.keeps.thread
    refine ⟨?_, ?_, ?_⟩
    · rw [step.keeps.births]
      exact never.bound
    · rw [step.keeps.started]
      exact never.notStarted
    · intro a isThread
      exact idle a (thread ▸ isThread) isThread
  · rcases Machine.schedInitSecondary_starts here init with ⟨made, idleTask, task, created, starts⟩
    rcases (created.adds init.idleTask).earlier never.bound with ⟨bound, started, thread⟩
    rcases starts.adds.earlier bound with ⟨bound', started', thread'⟩
    refine ⟨bound', (started'.trans started).trans never.notStarted, ?_⟩
    exact fun a isThread => idle a (thread a (thread' a isThread)) isThread
  · by_cases noTask : alloc.task = 0
    · rw [Machine.create, Machine.pthreadCreate_null noTask]
      exact never
    · rcases m.create_made c attr noTask with ⟨made, ok, task, created, -, births, thread, started⟩
      rcases (created.adds noTask).earlier never.bound with ⟨bound, startedMade, threadMade⟩
      refine ⟨?_, ?_, fun a isThread => idle a (threadMade a (thread ▸ isThread)) isThread⟩
      · rw [births]
        exact bound
      · rw [started, startedMade]
        exact never.notStarted
  · rcases sound.consistent lockFree with ⟨queue, consistent⟩
    rcases consistent.switched here lockFree with ⟨nextTask, switched⟩
    by_cases other : nextTask ≠ m.current c
    · have history := switched.history
      rw [if_pos other] at history
      rw [history] at idle
      have notNext : n ≠ m.history.thread nextTask := by
        intro isNext
        exact consistent.switched_notIdle switched other (never.idle nextTask isNext.symm)
      refine ⟨?_, ?_, ?_⟩
      · rw [history]
        exact never.bound
      · rw [history]
        exact (Function.update_of_ne notNext ..).trans never.notStarted
      · rw [history]
        exact fun a isThread => idle a isThread isThread
    · have history := switched.history
      rw [if_neg other] at history
      rw [history] at idle
      refine ⟨?_, ?_, ?_⟩
      · rw [history]
        exact never.bound
      · rw [history]
        exact never.notStarted
      · rw [history]
        exact fun a isThread => idle a isThread isThread

/-- In every run that hands out no struct in use, such a thread never runs. -/
theorem NeverRuns.run (never : NeverRuns first n) (valid : Valid first)
    (run : Execution Step first path last)
    (unused : ∀ transition ∈ path, AllocatesUnused transition) :
    last.history.started n = false := by
  have keeps : ∀ source label target, Valid source ∧ NeverRuns source n →
      Step source label target → AllocatesUnused ⟨source, label, target⟩ →
      Valid target ∧ NeverRuns target n := by
    rintro source label target ⟨valid, never⟩ taken isUnused
    exact ⟨valid.step taken isUnused, never.step valid.sound taken⟩
  exact (run.invariant_of_allowed AllocatesUnused ⟨valid, never⟩ keeps unused).2.notStarted

/-! ### Whole runs -/

/-- In a run with accepted attributes that hands out no struct in use, every
thread is runnable once `pthread_create` has returned 0 for it, and runs at the
first `sched_yield` that finds nothing opposed to it, if and only if no thread is
created with an attribute that asks for priority 0. -/
theorem threads_runnable_iff (initial : Initial first) (run : Execution Step first path last)
    (unused : ∀ transition ∈ path, AllocatesUnused transition)
    (accepted : ∀ transition ∈ path, AcceptsAttr transition) :
    (∀ transition ∈ path, KeepsRunnable transition) ↔
      ∀ transition ∈ path, AsksNoIdle transition := by
  apply run.forall_good_iff_of_allowed
    (fun transition => AllocatesUnused transition ∧ AcceptsAttr transition)
    (show Dispatches first from Or.inl (Dispatchable.initial initial))
  · exact fun source label target dispatches taken allowed =>
      dispatches.keepsRunnable_iff taken allowed.1 allowed.2
  · exact fun source label target dispatches taken allowed noIdle =>
      dispatches.step taken allowed.1 allowed.2 noIdle
  · exact fun transition member => ⟨unused transition member, accepted transition member⟩

/-- An attribute with room for a stack of two pages and the priority `param`. -/
def twoPages (param : Nat) : PthreadAttr := ⟨0, 8192, 0, 0, param, true⟩

theorem twoPages_accepted {param : Nat} (small : param < priorityCount) :
    Accepted (twoPages param) := by
  refine ⟨rfl, ⟨0, 0, 0, 0, 0, false⟩, [.setstacksize 8192, .setschedparam (some param)], ?_⟩
  have inRange : (0 : Int) ≤ param ∧ (param : Int) < priorityCount := by omega
  show (pthreadAttrSetschedparam (some param) (some ⟨0, 8192, 0, 0, 2, true⟩)).2 = _
  rw [pthreadAttrSetschedparam, setAttr, if_pos ⟨rfl, inRange⟩]
  rfl

/-- Main creates a thread that asks for priority 3 and joins it: the thread runs. -/
theorem threads_runnable_one_thread : ∃ path last, Execution Step Machine.booted path last ∧
    (∃ transition ∈ path, transition.label = .yieldSwitch 0 ∧
      Unstarted transition.source 30 3 ∧ RunsFirst transition.target 0 30) ∧
    ∀ transition ∈ path, KeepsRunnable transition := by
  rcases Machine.exists_run Machine.booted
    [.create 0 (some (twoPages 3).fields) (blocksFrom 30), .createEnqueue 0, .unlock 0,
      .join 0 ⟨30, 3, 0⟩, .unlock 0, .joinTest 0, .yieldEnter 0, .yieldSwitch 0]
    (fun path _ => decide ((∀ transition ∈ path, FreshStructs transition) ∧
      (∀ transition ∈ path, transition.label ∈
        ([.create 0 (some (twoPages 3).fields) (blocksFrom 30), .createEnqueue 0, .unlock 0,
          .join 0 ⟨30, 3, 0⟩, .joinTest 0, .yieldEnter 0, .yieldSwitch 0] : List Action)) ∧
      ∃ transition ∈ path, transition.label = .yieldSwitch 0 ∧
        ((30, 3) ∈ transition.source.history.issued ∧ transition.source.history.thread 30 = 3 ∧
          transition.source.history.started 3 = false) ∧
        transition.target.current 0 = 30 ∧ transition.target.sched.state 30 = .running ∧
          transition.target.pc 0 = .forkUnlock))
    (by decide +kernel) with ⟨path, last, run, holds⟩
  rcases of_decide_eq_true holds with ⟨fresh, labels, transition, member, isYield,
    ⟨isIssued, thread, notStarted⟩, isCurrent, running, pc⟩
  have isAttr : ∀ transition ∈ path, ∀ c attr alloc, transition.label = .create c attr alloc →
      attr = some (twoPages 3).fields := by
    intro transition member c attr alloc isCreate
    have label := labels transition member
    rw [isCreate] at label
    have same : c = 0 ∧ attr = some (twoPages 3).fields ∧ alloc = blocksFrom 30 := by
      simpa using label
    exact same.2.1
  refine ⟨path, last, run, ⟨transition, member, isYield, ⟨isIssued, thread, notStarted⟩,
    ⟨isCurrent, running, pc⟩⟩, ?_⟩
  refine (threads_runnable_iff Machine.booted_initial run
    (valid_of_fresh Machine.booted_initial run fresh).2 ?_).mpr ?_
  · intro transition member c attr alloc isCreate
    rw [isAttr transition member c attr alloc isCreate]
    exact (twoPages_accepted (by decide)).argument
  · intro transition member c attr alloc isCreate _ used isUsed
    rw [isAttr transition member c attr alloc isCreate] at isUsed
    rw [← Option.some.inj (Option.mem_filter_iff.mp isUsed).1]
    decide

/-- Main creates a thread that asks for priority 0: 0 is returned, the thread is
in no runqueue, and no run goes on to run it. -/
theorem exists_unrunnable_thread : ∃ path last, Execution Step Machine.booted path last ∧
    (∀ transition ∈ path, FreshStructs transition ∧ AcceptsAttr transition) ∧
    (∃ transition ∈ path, Issues transition 30 3 ∧ ¬ Runnable transition.target.sched 30) ∧
    ∀ path' last', Execution Step last path' last' →
      (∀ transition ∈ path', AllocatesUnused transition) → last'.history.started 3 = false := by
  rcases Machine.exists_run Machine.booted
    [.create 0 (some (twoPages 0).fields) (blocksFrom 30)]
    (fun path last => decide ((∀ transition ∈ path, FreshStructs transition) ∧
      (∀ transition ∈ path, transition.label =
        .create 0 (some (twoPages 0).fields) (blocksFrom 30)) ∧
      (∃ transition ∈ path,
        transition.target.history.issued = (30, 3) :: transition.source.history.issued ∧
        transition.target.sched.prev 30 = 0 ∧
        transition.target.sched.runqueues (transition.target.sched.priority 30) = 0) ∧
      last.history.births = 3 ∧ last.history.started 3 = false ∧ last.history.thread 30 = 3 ∧
      last.sched.priority 30 = idlePriority))
    (by decide +kernel) with ⟨path, last, run, holds⟩
  rcases of_decide_eq_true holds with ⟨fresh, labels, ⟨transition, member, issues, noPrev, noHead⟩,
    births, notStarted, thread, isIdle⟩
  have valid := (valid_of_fresh Machine.booted_initial run fresh).1
  refine ⟨path, last, run, ?_, ⟨transition, member, issues, ?_⟩, ?_⟩
  · refine fun transition member => ⟨fresh transition member, ?_⟩
    intro c attr alloc isCreate
    rw [labels transition member] at isCreate
    injection isCreate with _ isAttr _
    rw [← isAttr]
    exact (twoPages_accepted (by decide)).argument
  · intro runnable
    have isHead := runnable.isHead noPrev
    rw [noHead] at isHead
    cases isHead
  · intro path' last' later unused
    refine NeverRuns.run ⟨births.ge, notStarted, ?_⟩ valid later unused
    intro a isThread
    have same := valid.threads.injective a 30 (isThread.trans thread.symm) (by omega)
    rw [same, isIdle]

end UniKernel.Pthread
