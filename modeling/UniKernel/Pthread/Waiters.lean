import UniKernel.Pthread.Runqueues

/-!
Owns the lists of tasks that wait in `pthread_join`. Each waiter is in its
`pthread_join`: a core runs it there, or its context goes on there. The list of
a task hangs off `join_wait_queue` and runs through `next`, the link the
runqueues use as well, so it stays intact only as long as no waiter is queued
or made running.
-/

namespace UniKernel.Pthread

open UniKernel.Lib

variable {m m' first last : Machine} {action : Action} {queue : Nat → List Nat} {c : Core}
  {place : Pc} {a t : Nat} {path : List (Transition Machine Action)}

namespace State

variable {s : State} {value : Nat} {state : TaskState}

theorem joinWaitQueue_setState :
    ((s.setState t state).tasks a).joinWaitQueue = (s.tasks a).joinWaitQueue :=
  field_setTask Task.joinWaitQueue rfl

theorem joinWaitQueue_setRetValue :
    ((s.setRetValue t value).tasks a).joinWaitQueue = (s.tasks a).joinWaitQueue :=
  field_setTask Task.joinWaitQueue rfl

theorem joinWaitQueue_setNext :
    ((s.setNext t value).tasks a).joinWaitQueue = (s.tasks a).joinWaitQueue :=
  field_setTask Task.joinWaitQueue rfl

theorem joinWaitQueue_setJoinWaitQueue :
    ((s.setJoinWaitQueue t value).tasks a).joinWaitQueue =
      if a = t then value else (s.tasks a).joinWaitQueue := by
  rw [setJoinWaitQueue, tasks_setTask]
  split <;> rfl

theorem next_setJoinWaitQueue : (s.setJoinWaitQueue t value).next a = s.next a :=
  field_setTask Task.next rfl

theorem state_setNext : (s.setNext t value).state a = s.state a :=
  field_setTask Task.state rfl

theorem state_setJoinWaitQueue : (s.setJoinWaitQueue t value).state a = s.state a :=
  field_setTask Task.state rfl

theorem priority_setNext : (s.setNext t value).priority a = s.priority a :=
  field_setTask Task.priority rfl

theorem priority_setJoinWaitQueue : (s.setJoinWaitQueue t value).priority a = s.priority a :=
  field_setTask Task.priority rfl

end State

/-- The live task `a` waits in a `pthread_join` on `t`: a core runs it, or its
context goes on there. -/
def WaitsOn (m : Machine) (a t : Nat) : Prop :=
  m.structs a = true ∧
    ((∃ c call, m.current c = a ∧ (m.pc c).mode = .waiting call ∧ call.target = t) ∨
      (∀ c, m.current c ≠ a) ∧
        ∃ call, (m.sched.tasks a).context = .yielded (.join call) ∧ call.target = t)

/-- The waiters of each task are in their `pthread_join`, and `join_wait_queue`
holds the latest. -/
structure Waiters (m : Machine) : Prop where
  head : ∀ t, (m.sched.tasks t).joinWaitQueue = (m.history.waiters t).headD 0
  nodup : ∀ t, (m.history.waiters t).Nodup
  waits : ∀ t, ∀ a ∈ m.history.waiters t, WaitsOn m a t

/-- A step leaves the lists of waiters alone, and waiters outside the queues as
they are. -/
structure KeepsWaiters (m m' : Machine) (queue : Nat → List Nat) : Prop where
  joinWaitQueue : ∀ t, (m'.sched.tasks t).joinWaitQueue = (m.sched.tasks t).joinWaitQueue
  waiters : m'.history.waiters = m.history.waiters
  waits : ∀ t, ∀ a ∈ m.history.waiters t, WaitsOn m' a t
  next : ∀ t, ∀ a ∈ m.history.waiters t, (∀ p, a ∉ queue p) → m'.sched.next a = m.sched.next a
  state : ∀ t, ∀ a ∈ m.history.waiters t, m'.sched.state a = m.sched.state a
  priority : ∀ t, ∀ a ∈ m.history.waiters t, m'.sched.priority a = m.sched.priority a

theorem Waiters.keep (waiters : Waiters m) (keeps : KeepsWaiters m m' queue) : Waiters m' where
  head := by
    intro t
    rw [keeps.joinWaitQueue, keeps.waiters]
    exact waiters.head t
  nodup := by
    rw [keeps.waiters]
    exact waiters.nodup
  waits := by
    rw [keeps.waiters]
    exact keeps.waits

namespace WaitsOn

theorem inUse (waits : WaitsOn m a t) : InUse m t := by
  rcases waits with ⟨isLive, ⟨c, call, -, waiting, isTarget⟩ | ⟨notCurrent, call, saved, isTarget⟩⟩
  · exact Or.inr (Or.inl ⟨c, call, waiting, isTarget⟩)
  · exact Or.inr (Or.inr ⟨a, call, isLive, notCurrent, saved, isTarget⟩)

/-- A task waits on one task only. -/
theorem target_unique (waits : WaitsOn m a t) {t' : Nat} (waits' : WaitsOn m a t')
    (apart : ∀ c c', c ≠ c' → m.pc c ≠ .offline → m.current c ≠ m.current c') : t = t' := by
  have online : ∀ c call, (m.pc c).mode = .waiting call → m.pc c ≠ .offline := by
    intro c call waiting isOffline
    rw [isOffline] at waiting
    cases waiting
  rcases waits with ⟨-, ⟨c, call, isCurrent, waiting, isTarget⟩ | ⟨notCurrent, call, saved, isTarget⟩⟩ <;>
    rcases waits' with ⟨-, ⟨c', call', isCurrent', waiting', isTarget'⟩ |
      ⟨notCurrent', call', saved', isTarget'⟩⟩
  · have same : c = c' := by
      by_contra other
      exact apart c c' other (online c call waiting) (isCurrent.trans isCurrent'.symm)
    subst same
    rw [← isTarget, ← isTarget', Mode.waiting.inj (waiting.symm.trans waiting')]
  · exact absurd isCurrent (notCurrent' c)
  · exact absurd isCurrent' (notCurrent c')
  · rw [← isTarget, ← isTarget', Caller.join.inj (Context.yielded.inj (saved.symm.trans saved'))]

/-- A waiter is not the task of a core that does not wait. -/
theorem ne_current (waits : WaitsOn m a t) (consistent : m.Consistent queue)
    (online : m.pc c ≠ .offline) (notWaiting : ∀ call, (m.pc c).mode ≠ .waiting call) :
    a ≠ m.current c := by
  rintro rfl
  rcases waits with ⟨-, ⟨c', call, isCurrent, waiting, -⟩ | ⟨notCurrent, -⟩⟩
  · by_cases same : c = c'
    · exact notWaiting call (same ▸ waiting)
    · exact consistent.currentApart c c' same online isCurrent.symm
  · exact notCurrent c rfl

/-- `pthread_create` is not making a waiter. -/
theorem ne_pending (waits : WaitsOn m a t) {t' : Nat} (consistent : m.Consistent queue)
    (here : m.pc c = .createLock t') : a ≠ t' := by
  rintro rfl
  have pending := consistent.pending c a here
  rcases waits with ⟨-, ⟨c', call, isCurrent, -, -⟩ | ⟨-, call, saved, -⟩⟩
  · exact pending.notCurrent c' isCurrent
  · cases pending.context.symm.trans saved

theorem ordinary (waits : WaitsOn m a t) (step : Ordinary m m' c place)
    (mode : ∀ call, (m.pc c).mode = .waiting call → place.mode = .waiting call)
    (isLive : m'.structs a = true) : WaitsOn m' a t := by
  refine ⟨isLive, ?_⟩
  rcases waits.2 with ⟨c', call, isCurrent, waiting, isTarget⟩ | ⟨notCurrent, call, saved, isTarget⟩
  · refine Or.inl ⟨c', call, (step.keeps.current c').trans isCurrent, ?_, isTarget⟩
    rw [step.pc]
    by_cases same : c' = c
    · subst same
      rw [Function.update_self]
      exact mode call waiting
    · rw [Function.update_of_ne same]
      exact waiting
  · refine Or.inr ⟨?_, call, (step.keeps.context a).trans saved, isTarget⟩
    intro c'
    rw [step.keeps.current]
    exact notCurrent c'

/-- A new struct is not a waiter, and a core that goes online did not run one. -/
theorem afterAdding (waits : WaitsOn m a t) {new : Nat} (adds : Adds m m' new)
    (other : a ≠ new) (isLive : m'.structs a = true)
    (mode : ∀ c, m.pc c ≠ .offline → (m'.pc c).mode = (m.pc c).mode) : WaitsOn m' a t := by
  have current : ∀ c, m.pc c ≠ .offline → m'.current c = m.current c := by
    intro c online
    rcases adds.core c with ⟨-, same⟩ | ⟨isOffline, -, -⟩
    · exact same
    · exact absurd isOffline online
  refine ⟨isLive, ?_⟩
  rcases waits.2 with ⟨c, call, isCurrent, waiting, isTarget⟩ | ⟨notCurrent, call, saved, isTarget⟩
  · have online : m.pc c ≠ .offline := by
      intro isOffline
      rw [isOffline] at waiting
      cases waiting
    exact Or.inl ⟨c, call, (current c online).trans isCurrent, (mode c online).trans waiting, isTarget⟩
  · refine Or.inr ⟨?_, call, (adds.context a other).trans saved, isTarget⟩
    intro c isCurrent
    rcases adds.core c with ⟨-, same⟩ | ⟨-, -, isNew⟩
    · exact notCurrent c (same.symm.trans isCurrent)
    · exact other (isCurrent.symm.trans isNew)

end WaitsOn

/-- `pthread_create` puts no other struct in use. -/
theorem InUse.beforeCreated {attr : Option Attr} {idle ok : Bool} {new : Nat} {task : Task}
    (inUse : InUse m' t) (created : Created m m' attr idle new ok task) : InUse m t := by
  rcases inUse with ⟨c, isCurrent⟩ | ⟨c, call, waiting, isTarget⟩ |
    ⟨a, call, isLive, notCurrent, saved, isTarget⟩
  · exact Or.inl ⟨c, (created.current c).symm.trans isCurrent⟩
  · rw [created.pc] at waiting
    exact Or.inr (Or.inl ⟨c, call, waiting, isTarget⟩)
  · rw [created.tasks] at saved
    by_cases isNew : a = new
    · rw [if_pos isNew] at saved
      rcases created.context with context | context <;> rw [context] at saved <;> cases saved
    · rw [if_neg isNew] at saved
      rw [created.structs, Function.update_of_ne isNew] at isLive
      refine Or.inr (Or.inr ⟨a, call, isLive, ?_, saved, isTarget⟩)
      intro c
      rw [← created.current]
      exact notCurrent c

namespace KeepsWaiters

/-- The new task `new` has no waiters, and no waiter changes. -/
theorem afterAdding {new : Nat} (waiters : Waiters m) (adds : Adds m m' new)
    (fresh : m.structs new = false) (unused : ¬ InUse m new)
    (newQueue : (m'.sched.tasks new).joinWaitQueue = 0)
    (tasks : ∀ a, a ≠ new → m'.sched.tasks a = m.sched.tasks a)
    (lists : m'.history.waiters = Function.update m.history.waiters new [])
    (structs : ∀ a, a ≠ new → m.structs a = true → m'.structs a = true)
    (mode : ∀ c, m.pc c ≠ .offline → (m'.pc c).mode = (m.pc c).mode) :
    KeepsWaiters m m' queue := by
  have none : m.history.waiters new = [] := by
    apply List.eq_nil_iff_forall_not_mem.mpr
    exact fun a member => unused (waiters.waits new a member).inUse
  have other : ∀ t, ∀ a ∈ m.history.waiters t, a ≠ new := by
    rintro t a member rfl
    have isLive := (waiters.waits t a member).1
    rw [fresh] at isLive
    cases isLive
  exact {
    joinWaitQueue := by
      intro t
      by_cases isNew : t = new
      · rw [isNew, newQueue, waiters.head, none]
        rfl
      · rw [tasks t isNew]
    waiters := by
      rw [lists, ← none, Function.update_eq_self]
    waits := by
      intro t a member
      have notNew := other t a member
      have waits := waiters.waits t a member
      exact waits.afterAdding adds notNew (structs a notNew waits.1) mode
    next := by
      intro t a member _
      rw [State.next, tasks a (other t a member)]
      rfl
    state := by
      intro t a member
      rw [State.state, tasks a (other t a member)]
      rfl
    priority := by
      intro t a member
      rw [State.priority, tasks a (other t a member)]
      rfl }

theorem afterCreated {attr : Option Attr} {idle ok : Bool} {new : Nat} {task : Task}
    (waiters : Waiters m) (nonzero : new ≠ 0) (fresh : m.structs new = false)
    (unused : ¬ InUse m new) (created : Created m m' attr idle new ok task) : KeepsWaiters m m' queue := by
  apply afterAdding waiters (created.adds nonzero) fresh unused
  · rw [created.tasks, if_pos rfl]
    exact created.joinWaitQueue
  · intro a other
    rw [created.tasks, if_neg other]
  · exact (congrArg History.waiters created.history).trans rfl
  · intro a other
    rw [created.structs, Function.update_of_ne other]
    exact id
  · intro c _
    rw [created.pc]

theorem afterStart {own : Nat} {task : Task} (waiters : Waiters m)
    (fresh : m.structs own = false) (unused : ¬ InUse m own) (starts : StartsOwn m m' c own task) :
    KeepsWaiters m m' queue := by
  apply afterAdding waiters starts.adds fresh unused
  · rw [starts.tasks, Function.update_self]
    exact starts.joinWaitQueue
  · intro a other
    rw [starts.tasks, Function.update_of_ne other]
  · exact starts.waiters
  · intro a other
    rw [starts.structs, Function.update_of_ne other]
    exact id
  · intro c' online
    have other : c' ≠ c := fun same => online (same ▸ starts.here)
    rw [starts.pc, Function.update_of_ne other]

/-- A step that leaves the tasks alone. -/
theorem ofTasks (waiters : Waiters m) (step : Ordinary m m' c place)
    (mode : ∀ call, (m.pc c).mode = .waiting call → place.mode = .waiting call)
    (tasks : m'.sched.tasks = m.sched.tasks) (lists : m'.history.waiters = m.history.waiters)
    (structs : ∀ t, ∀ a ∈ m.history.waiters t, m'.structs a = true) : KeepsWaiters m m' queue where
  joinWaitQueue := by
    intro t
    rw [tasks]
  waiters := lists
  waits := fun t a member => (waiters.waits t a member).ordinary step mode (structs t a member)
  next := by
    intro t a _ _
    rw [State.next, tasks]
    rfl
  state := by
    intro t a _
    rw [State.state, tasks]
    rfl
  priority := by
    intro t a _
    rw [State.priority, tasks]
    rfl

theorem congr {made : Machine} (keeps : KeepsWaiters m made queue)
    (tasks : m'.sched.tasks = made.sched.tasks)
    (lists : m'.history.waiters = made.history.waiters) (structs : m'.structs = made.structs)
    (current : m'.current = made.current) (mode : ∀ c, (m'.pc c).mode = (made.pc c).mode) :
    KeepsWaiters m m' queue where
  joinWaitQueue := by
    rw [tasks]
    exact keeps.joinWaitQueue
  waiters := lists.trans keeps.waiters
  waits := by
    intro t a member
    have waits := keeps.waits t a member
    unfold WaitsOn at waits ⊢
    rw [structs, current, tasks]
    simp only [mode]
    exact waits
  next := by
    intro t a member unqueued
    rw [State.next, tasks]
    exact keeps.next t a member unqueued
  state := by
    intro t a member
    rw [State.state, tasks]
    exact keeps.state t a member
  priority := by
    intro t a member
    rw [State.priority, tasks]
    exact keeps.priority t a member

theorem trans {made : Machine} (first : KeepsWaiters m made queue)
    (second : KeepsWaiters made m' queue) : KeepsWaiters m m' queue where
  joinWaitQueue := fun t => (second.joinWaitQueue t).trans (first.joinWaitQueue t)
  waiters := second.waiters.trans first.waiters
  waits := by
    intro t a member
    rw [← first.waiters] at member
    exact second.waits t a member
  next := by
    intro t a member unqueued
    rw [← first.next t a member unqueued]
    rw [← first.waiters] at member
    exact second.next t a member unqueued
  state := by
    intro t a member
    rw [← first.state t a member]
    rw [← first.waiters] at member
    exact second.state t a member
  priority := by
    intro t a member
    rw [← first.priority t a member]
    rw [← first.waiters] at member
    exact second.priority t a member

/-- A step that changes the acting core's own task only, which does not wait. -/
theorem ofOwn (waiters : Waiters m) (consistent : m.Consistent queue)
    (step : Ordinary m m' c place) (notWaiting : ∀ call, (m.pc c).mode ≠ .waiting call)
    (tasks : ∀ a, a ≠ m.current c → m'.sched.tasks a = m.sched.tasks a)
    (own : (m'.sched.tasks (m.current c)).joinWaitQueue =
      (m.sched.tasks (m.current c)).joinWaitQueue)
    (lists : m'.history.waiters = m.history.waiters) (structs : m'.structs = m.structs) :
    KeepsWaiters m m' queue := by
  have other : ∀ t, ∀ a ∈ m.history.waiters t, a ≠ m.current c := fun t a member =>
    (waiters.waits t a member).ne_current consistent step.goes.online notWaiting
  exact {
    joinWaitQueue := by
      intro t
      by_cases isOwn : t = m.current c
      · rw [isOwn]
        exact own
      · rw [tasks t isOwn]
    waiters := lists
    waits := by
      intro t a member
      have waits := waiters.waits t a member
      apply waits.ordinary step
      · exact fun call waiting => absurd waiting (notWaiting call)
      · rw [structs]
        exact waits.1
    next := by
      intro t a member _
      rw [State.next, tasks a (other t a member)]
      rfl
    state := by
      intro t a member
      rw [State.state, tasks a (other t a member)]
      rfl
    priority := by
      intro t a member
      rw [State.priority, tasks a (other t a member)]
      rfl }

theorem createEnqueue {t : Nat} (waiters : Waiters m) (consistent : m.Consistent queue)
    (here : m.pc c = .createLock t) : KeepsWaiters m (m.createEnqueue c t) queue where
  joinWaitQueue := fun _ => State.field_schedEnqueueTask Task.joinWaitQueue fun _ => rfl
  waiters := rfl
  waits := by
    intro t' a member
    have waits := waiters.waits t' a member
    apply waits.ordinary (Machine.createEnqueue_ordinary here)
    · rw [here]
      exact fun _ waiting => absurd waiting (by simp [Pc.mode])
    · exact waits.1
  next := by
    intro t' a member unqueued
    have notPending := (waiters.waits t' a member).ne_pending consistent here
    show ((m.sched.setLock true).schedEnqueueTask t).next a = m.sched.next a
    rw [State.next_schedEnqueueTask, if_neg, if_neg notPending]
    · rfl
    · intro isTail
      apply unqueued (m.sched.priority t)
      rw [isTail.2]
      apply (consistent.queues.queued.linked _).tail_mem
      exact fun empty => isTail.1 ((consistent.queues.queued.linked _).head_eq_zero_iff.mpr empty)
  state := fun _ _ _ => State.state_schedEnqueueTask
  priority := fun _ _ _ => State.priority_schedEnqueueTask

/-- `pthread_create` up to the lock. -/
theorem create {attr : Option Attr} {alloc : Allocation} (waiters : Waiters m)
    (here : m.pc c = .user) (fresh : FreshAllocation m alloc)
    (unused : alloc.task ≠ 0 → ¬ InUse m alloc.task) :
    KeepsWaiters m (m.create c attr alloc) queue := by
  rcases m.create_cases c attr alloc with ⟨-, same⟩ | ⟨made, task, someTask, created, outcome⟩
  · rw [same]
    exact ⟨fun _ => rfl, rfl, waiters.waits, fun _ _ _ _ => rfl, fun _ _ _ => rfl, fun _ _ _ => rfl⟩
  · have keeps : KeepsWaiters m made queue :=
      afterCreated waiters someTask (fresh.task someTask) (unused someTask) created
    rcases outcome with ⟨-, isMade⟩ | ⟨-, -, isMade⟩ | ⟨-, -, isMade⟩
    · rw [isMade]
      exact keeps
    · rw [isMade]
      have mode : ∀ c', ((made.setPc c (.createLock alloc.task)).pc c').mode = (made.pc c').mode := by
        intro c'
        show (Function.update made.pc c (.createLock alloc.task) c').mode = (made.pc c').mode
        rw [Function.update_apply]
        split
        · next same =>
            rw [same, created.pc, here]
            rfl
        · rfl
      exact keeps.congr rfl rfl rfl rfl mode
    · rw [isMade]
      exact keeps.congr rfl rfl rfl rfl fun _ => rfl

theorem schedInitSecondary {idle : Allocation} {own : Nat} (waiters : Waiters m)
    (here : m.pc c = .offline) (init : InitAllocation m idle own)
    (idleUnused : ¬ InUse m idle.task) (ownUnused : ¬ InUse m own) :
    KeepsWaiters m (m.schedInitSecondary c idle own) queue := by
  rcases Machine.schedInitSecondary_starts here init with ⟨made, idleTask, task, created, starts⟩
  have first : KeepsWaiters m made queue := afterCreated waiters init.idleTask
    (init.fresh.task init.idleTask) idleUnused created
  have waitersMade : Waiters made := waiters.keep first
  have freshOwn : made.structs own = false := by
    rw [created.structs, Function.update_of_ne init.apart]
    exact init.ownFresh init.own
  have unusedOwn : ¬ InUse made own := fun inUse => ownUnused (inUse.beforeCreated created)
  have second : KeepsWaiters made (m.schedInitSecondary c idle own) queue :=
    afterStart waitersMade freshOwn unusedOwn starts
  exact first.trans second

end KeepsWaiters

/-- What `pthread_exit` does behind its loop. -/
theorem Machine.exitWake_zero (m : Machine) (c : Core) :
    m.exitWake c 0 = (m.setSched ((m.sched.setJoinWaitQueue (m.sched.current c) 0).schedDequeueTask
      (m.sched.current c))).setPc c (.unlock .exited) := by
  unfold Machine.exitWake
  exact if_neg (not_not_intro rfl)

/-- A join on a thread that has exited. -/
theorem Machine.join_of_exited {call : Join} (exited : m.sched.state call.target = .exited) :
    m.join c call = (m.setSched (m.sched.setLock true)).setPc c (.unlock (.joinDone call)) := by
  unfold Machine.join
  exact if_neg (not_not_intro exited)

/-- A join on a thread that has not exited. -/
theorem Machine.join_of_notExited {call : Join} (notExited : m.sched.state call.target ≠ .exited) :
    m.join c call =
      ((m.setSched (((m.sched.setLock true).setState (m.current c) .blocked).setNext (m.current c)
        (((m.sched.setLock true).setState (m.current c) .blocked).tasks call.target).joinWaitQueue
          |>.setJoinWaitQueue call.target (m.current c))).setWaiters call.target
            (m.current c :: m.history.waiters call.target)).setPc c (.unlock (.joinWaiting call)) := by
  unfold Machine.join
  exact if_pos notExited

/-- With no waiter the loop of `pthread_exit` is over, and its task is in no
runqueue: only that task's links change. -/
theorem KeepsWaiters.exitWake (waiters : Waiters m) (consistent : m.Consistent queue)
    (here : m.pc c = .exitWake waiting) : KeepsWaiters m (m.exitWake c waiting) queue := by
  have own := consistent.mode c
  rw [here] at own
  rcases own with ⟨noWaiter, noQueue, -, noNext⟩
  subst noWaiter
  rcases Machine.exitWake_ordinary here with ⟨place, step⟩
  have notWaiting : ∀ call, (m.pc c).mode ≠ .waiting call := by
    rw [here]
    intro call waits
    cases waits
  have noPrev : m.sched.prev (m.current c) = 0 :=
    consistent.queues.unqueuedPrev _ (consistent.currentUnqueued c)
  have done : m.exitWake c 0 =
      (m.setSched (m.sched.schedDequeueTask (m.current c))).setPc c (.unlock .exited) := by
    have noChange : m.sched.setJoinWaitQueue (m.sched.current c) 0 = m.sched :=
      State.setJoinWaitQueue_same noQueue
    rw [Machine.exitWake_zero, noChange]
    rfl
  rw [done] at step ⊢
  exact {
    joinWaitQueue := fun _ => State.field_schedDequeueTask Task.joinWaitQueue fun _ => rfl
    waiters := rfl
    waits := by
      intro t a member
      have waits := waiters.waits t a member
      exact waits.ordinary step (fun call waiting => absurd waiting (notWaiting call)) waits.1
    next := by
      intro t a member _
      have other : a ≠ m.current c :=
        (waiters.waits t a member).ne_current consistent step.goes.online notWaiting
      refine State.next_schedDequeueTask.trans ?_
      rw [if_neg other, if_neg (fun both => both.1 noPrev)]
    state := fun _ _ _ => State.state_schedDequeueTask
    priority := fun _ _ _ => State.priority_schedDequeueTask }

/-- The task that `sched_yield` frees has exited, so it is not a waiter. -/
theorem KeepsWaiters.yieldEnter {caller : Caller} (waiters : Waiters m)
    (consistent : m.Consistent queue) (here : m.pc c = .yieldEnter caller) :
    KeepsWaiters m (m.yieldEnter c caller) queue := by
  apply KeepsWaiters.ofTasks waiters (Machine.yieldEnter_ordinary here)
  · rw [here]
    exact fun _ => id
  · unfold Machine.yieldEnter
    dsimp only
    split <;> rfl
  · unfold Machine.yieldEnter
    dsimp only
    split <;> rfl
  · intro t a member
    have waits := waiters.waits t a member
    unfold Machine.yieldEnter
    dsimp only
    split
    · next someTask =>
        rcases consistent.toFree c with noTask | ⟨isCurrent, reclaiming⟩
        · exact absurd noTask someTask
        · have notWaiting : ∀ call, (m.pc c).mode ≠ .waiting call := by
            intro call waiting
            rw [here] at waiting reclaiming
            rcases caller with _ | _ | _
            · cases waiting
            · cases reclaiming
            · cases waiting
          have other := waits.ne_current consistent (by rw [here]; simp) notWaiting
          exact (Function.update_of_ne (fun same => other (same.trans isCurrent)) ..).trans waits.1
    · exact waits.1

/-- A step that leaves the tasks and what is live alone, from outside `pthread_join`
or without leaving it. -/
theorem KeepsWaiters.ofSame (waiters : Waiters m) (step : Ordinary m m' c place)
    (mode : ∀ call, (m.pc c).mode = .waiting call → place.mode = .waiting call)
    (tasks : m'.sched.tasks = m.sched.tasks) (lists : m'.history.waiters = m.history.waiters)
    (structs : m'.structs = m.structs) : KeepsWaiters m m' queue := by
  apply KeepsWaiters.ofTasks waiters step mode tasks lists
  intro t a member
  rw [structs]
  exact (waiters.waits t a member).1

/-- A join on a thread that has exited waits for nobody. -/
theorem KeepsWaiters.joinExited {call : Join} (waiters : Waiters m) (here : m.pc c = .user)
    (handle : (call.target, call.thread) ∈ m.history.issued)
    (exited : m.sched.state call.target = .exited) : KeepsWaiters m (m.join c call) queue := by
  rcases Machine.join_ordinary here handle with ⟨place, step⟩
  rw [Machine.join_of_exited exited] at step ⊢
  apply KeepsWaiters.ofSame waiters step
  · rw [here]
    intro call waits
    cases waits
  · rfl
  · rfl
  · rfl

theorem KeepsWaiters.joinTest {call : Join} (waiters : Waiters m) (consistent : m.Consistent queue)
    (here : m.pc c = .joinLoop call) : KeepsWaiters m (m.joinTest c call) queue := by
  have own := consistent.mode c
  rw [here] at own
  rcases Machine.joinTest_ordinary here with ⟨place, step⟩
  rw [Machine.joinTest, if_pos own.2.2.notExited] at step ⊢
  have isPlace : place = .yieldEnter (.join call) := by
    have same := congrFun step.pc c
    rw [Function.update_self] at same
    exact same.symm.trans (Function.update_self ..)
  apply KeepsWaiters.ofSame waiters step
  · rw [here, isPlace]
    exact fun _ => id
  · rfl
  · rfl
  · rfl

theorem KeepsWaiters.joinReturn {call : Join} (waiters : Waiters m) (here : m.pc c = .joinRead call) :
    KeepsWaiters m (m.joinReturn c call) queue := by
  have same : (m.joinReturn c call).sched = m.sched ∧
      (m.joinReturn c call).structs = m.structs ∧
      (m.joinReturn c call).history = m.history := by
    unfold Machine.joinReturn
    dsimp only
    split <;> exact ⟨rfl, rfl, rfl⟩
  apply KeepsWaiters.ofSame waiters (Machine.joinReturn_ordinary here)
  · rw [here]
    intro call waits
    cases waits
  · rw [same.1]
  · rw [same.2.2]
  · exact same.2.1

/-- `pthread_exit` up to its loop changes the exiting task only. -/
theorem KeepsWaiters.exit {value : Nat} (waiters : Waiters m) (consistent : m.Consistent queue)
    (here : m.pc c = .user) : KeepsWaiters m (m.exit c value) queue := by
  have exits : ∃ place, Ordinary m (m.exit c value) c place := Machine.exit_ordinary here
  rcases exits with ⟨place, step⟩
  apply KeepsWaiters.ofOwn waiters consistent step
  · rw [here]
    intro call waits
    cases waits
  · intro a other
    exact (State.tasks_setTask_of_ne other).trans (State.tasks_setTask_of_ne other)
  · exact State.joinWaitQueue_setState.trans State.joinWaitQueue_setRetValue
  · rfl
  · rfl

theorem KeepsWaiters.callYield (waiters : Waiters m) (here : m.pc c = .user) :
    KeepsWaiters m (m.setPc c (.yieldEnter .user)) queue := by
  apply KeepsWaiters.ofSame waiters (Machine.callYield_ordinary here)
  · rw [here]
    intro call waits
    cases waits
  · rfl
  · rfl
  · rfl

theorem KeepsWaiters.unlock {after : AfterUnlock} (waiters : Waiters m)
    (here : m.pc c = .unlock after) : KeepsWaiters m (m.unlock c after) queue := by
  have same : (m.unlock c after).sched.tasks = m.sched.tasks ∧
      (m.unlock c after).structs = m.structs ∧
      (m.unlock c after).history.waiters = m.history.waiters := by
    unfold Machine.unlock
    dsimp only
    split <;> exact ⟨rfl, rfl, rfl⟩
  apply KeepsWaiters.ofSame waiters (Machine.unlock_ordinary here)
  · rw [here, after.mode_resume]
    exact fun _ => id
  · exact same.1
  · exact same.2.2
  · exact same.2.1

theorem KeepsWaiters.forkUnlock (waiters : Waiters m) (here : m.pc c = .forkUnlock) :
    KeepsWaiters m (m.forkUnlock c) queue := by
  apply KeepsWaiters.ofSame waiters (Machine.forkUnlock_ordinary here)
  · rw [here]
    intro call waits
    cases waits
  · rfl
  · rfl
  · rfl

/-- What a step of a consistent machine does to the lists of waiters: nothing,
unless a task joins another, exits with waiters, or is switched away from. -/
theorem Machine.Consistent.step_waiters (consistent : m.Consistent queue) (waiters : Waiters m)
    (taken : Step m action m') (unused : AllocatesUnused ⟨m, action, m'⟩) :
    KeepsWaiters m m' queue ∨
    (∃ c call, m.pc c = .user ∧ m.sched.state call.target ≠ .exited ∧
      action = .join c call ∧ m' = m.join c call) ∨
    ExitsWaited m action m' ∨
    (∃ c caller, m.pc c = .yieldLock caller ∧ m.sched.schedLock = false ∧
      action = .yieldSwitch c ∧ m' = m.yieldSwitch c caller) := by
  cases taken with
  | @initSecondary c idle own here init =>
      left
      exact KeepsWaiters.schedInitSecondary waiters here init
        (unused idle.task (by simp [Action.structs]) init.idleTask)
        (unused own (by simp [Action.structs]) init.own)
  | @create c attr alloc here fresh =>
      left
      exact KeepsWaiters.create waiters here fresh (unused alloc.task (by simp [Action.structs]))
  | createEnqueue here lockFree => exact Or.inl (KeepsWaiters.createEnqueue waiters consistent here)
  | @join c call here lockFree handle =>
      by_cases exited : m.sched.state call.target = .exited
      · exact Or.inl (KeepsWaiters.joinExited waiters here handle exited)
      · exact Or.inr (Or.inl ⟨c, call, here, exited, rfl, rfl⟩)
  | joinTest here => exact Or.inl (KeepsWaiters.joinTest waiters consistent here)
  | joinReturn here => exact Or.inl (KeepsWaiters.joinReturn waiters here)
  | @exit c value here lockFree =>
      by_cases noWaiters : (m.sched.tasks (m.current c)).joinWaitQueue = 0
      · exact Or.inl (KeepsWaiters.exit waiters consistent here)
      · exact Or.inr (Or.inr (Or.inl ⟨c, value, here, lockFree, noWaiters, rfl, rfl⟩))
  | exitWake here => exact Or.inl (KeepsWaiters.exitWake waiters consistent here)
  | callYield here => exact Or.inl (KeepsWaiters.callYield waiters here)
  | yieldEnter here => exact Or.inl (KeepsWaiters.yieldEnter waiters consistent here)
  | @yieldSwitch c caller here lockFree =>
      exact Or.inr (Or.inr (Or.inr ⟨c, caller, here, lockFree, rfl, rfl⟩))
  | unlock here => exact Or.inl (KeepsWaiters.unlock waiters here)
  | forkUnlock here => exact Or.inl (KeepsWaiters.forkUnlock waiters here)

/-! ### Joining and switching -/

/-- What `pthread_join` does to the tasks while its target runs on. -/
structure Joined (m m' : Machine) (c : Core) (call : Join) : Prop where
  next : ∀ a, m'.sched.next a =
    if a = m.current c then (m.sched.tasks call.target).joinWaitQueue else m.sched.next a
  state : ∀ a, m'.sched.state a = if a = m.current c then .blocked else m.sched.state a
  priority : ∀ a, m'.sched.priority a = m.sched.priority a
  joinWaitQueue : ∀ t, (m'.sched.tasks t).joinWaitQueue =
    if t = call.target then m.current c else (m.sched.tasks t).joinWaitQueue
  waiters : m'.history.waiters = Function.update m.history.waiters call.target
    (m.current c :: m.history.waiters call.target)
  pc : m'.pc = Function.update m.pc c (.unlock (.joinWaiting call))

theorem Machine.join_joined {call : Join} (notExited : m.sched.state call.target ≠ .exited) :
    Joined m (m.join c call) c call := by
  rw [Machine.join_of_notExited notExited]
  refine ⟨?_, ?_, ?_, ?_, rfl, rfl⟩
  · intro a
    refine State.next_setJoinWaitQueue.trans (State.next_setNext.trans ?_)
    rw [State.next_setState, State.joinWaitQueue_setState]
    rfl
  · intro a
    exact State.state_setJoinWaitQueue.trans (State.state_setNext.trans State.state_setState)
  · intro a
    exact State.priority_setJoinWaitQueue.trans (State.priority_setNext.trans State.priority_setState)
  · intro t
    refine State.joinWaitQueue_setJoinWaitQueue.trans (if_congr Iff.rfl rfl ?_)
    exact State.joinWaitQueue_setNext.trans State.joinWaitQueue_setState

theorem Waiters.join {call : Join} (waiters : Waiters m) (consistent : m.Consistent queue)
    (here : m.pc c = .user) (notExited : m.sched.state call.target ≠ .exited)
    (handle : (call.target, call.thread) ∈ m.history.issued) : Waiters (m.join c call) := by
  have step : ∃ place, Ordinary m (m.join c call) c place := Machine.join_ordinary here handle
  have own := consistent.mode c
  rw [here] at own
  have joined := Machine.join_joined (c := c) notExited
  rcases step with ⟨place, step⟩
  have notWaiting : ∀ call, (m.pc c).mode ≠ .waiting call := by
    rw [here]
    intro call waits
    cases waits
  have other : ∀ t, ∀ a ∈ m.history.waiters t, a ≠ m.current c := fun t a member =>
    (waiters.waits t a member).ne_current consistent step.goes.online notWaiting
  constructor
  · intro t
    rw [joined.joinWaitQueue, joined.waiters, Function.update_apply]
    split
    · rfl
    · exact waiters.head t
  · intro t
    rw [joined.waiters, Function.update_apply]
    split
    · exact List.nodup_cons.mpr ⟨fun member => other _ _ member rfl, waiters.nodup _⟩
    · exact waiters.nodup t
  · intro t a member
    have cases : a ∈ m.history.waiters t ∨ a = m.current c ∧ t = call.target := by
      rw [joined.waiters, Function.update_apply] at member
      split at member
      · next isTarget =>
          rcases List.mem_cons.mp member with isNew | before
          · exact Or.inr ⟨isNew, isTarget⟩
          · exact Or.inl (isTarget ▸ before)
      · exact Or.inl member
    have structs : (m.join c call).structs = m.structs := by
      rw [Machine.join_of_notExited notExited]
      rfl
    rcases cases with before | ⟨isNew, isTarget⟩
    · have waits := waiters.waits t a before
      apply waits.ordinary step fun call waiting => absurd waiting (notWaiting call)
      rw [structs]
      exact waits.1
    · rw [isNew, isTarget]
      refine ⟨?_, Or.inl ⟨c, call, step.keeps.current c, ?_, rfl⟩⟩
      · rw [structs]
        exact own.1
      · rw [joined.pc, Function.update_self]
        rfl

/-- A waiter is in its `pthread_join` behind a switch as well. -/
theorem WaitsOn.switch {caller : Caller} {nextTask : Nat} (waits : WaitsOn m a t)
    (consistent : m.Consistent queue) (here : m.pc c = .yieldLock caller)
    (switched : Switched m m' c caller queue nextTask) : WaitsOn m' a t := by
  have online : m.pc c ≠ .offline := by
    rw [here]
    simp
  refine ⟨switched.structs ▸ waits.1, ?_⟩
  rcases waits.2 with ⟨c', call, isCurrent, waiting, isTarget⟩ | ⟨notCurrent, call, saved, isTarget⟩
  · by_cases same : c' = c
    · subst same
      have isCaller : caller.mode = .waiting call := by
        rw [here] at waiting
        exact waiting
      have callerEq : caller = .join call := by
        rcases caller with _ | _ | _
        · cases isCaller
        · rw [Mode.waiting.inj isCaller]
        · cases isCaller
      by_cases stays : nextTask = m.current c'
      · refine Or.inl ⟨c', call, ?_, ?_, isTarget⟩
        · rw [switched.current, if_pos rfl, stays, isCurrent]
        · rw [switched.pc, Function.update_self, if_neg (not_not_intro stays), callerEq]
          rfl
      · refine Or.inr ⟨?_, call, ?_, isTarget⟩
        · intro c₂
          rw [switched.current, ← isCurrent]
          split
          · exact stays
          · next other => exact (consistent.currentApart c' c₂ (Ne.symm other) online).symm
        · rw [switched.context, if_pos ⟨stays, isCurrent.symm⟩, callerEq]
    · refine Or.inl ⟨c', call, ?_, ?_, isTarget⟩
      · rw [switched.current, if_neg same]
        exact isCurrent
      · rw [switched.pc_other same]
        exact waiting
  · have notPrev : a ≠ m.current c := (notCurrent c).symm
    by_cases isNext : nextTask = a
    · subst isNext
      refine Or.inl ⟨c, call, ?_, ?_, isTarget⟩
      · rw [switched.current, if_pos rfl]
      · rw [switched.pc, Function.update_self, if_pos notPrev, saved]
        rfl
    · refine Or.inr ⟨?_, call, ?_, isTarget⟩
      · intro c'
        rw [switched.current]
        split
        · exact isNext
        · exact notCurrent c'
      · rw [switched.context, if_neg fun both => notPrev both.2]
        exact saved

theorem Waiters.switch {caller : Caller} {nextTask : Nat} (waiters : Waiters m)
    (consistent : m.Consistent queue) (here : m.pc c = .yieldLock caller)
    (switched : Switched m m' c caller queue nextTask) : Waiters m' := by
  have lists := switched.keepsHistory History.waiters fun _ _ => rfl
  constructor
  · intro t
    rw [lists, ← waiters.head]
    exact switched.field Task.joinWaitQueue (fun _ => rfl) t
  · rw [lists]
    exact waiters.nodup
  · intro t a member
    rw [lists] at member
    exact (waiters.waits t a member).switch consistent here switched

end UniKernel.Pthread
