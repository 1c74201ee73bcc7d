import UniKernel.Lib.Transition
import UniKernel.Pthread.Machine
import UniKernel.Pthread.Queues

/-!
Owns the invariant of the scheduler while `sched_lock` is free or held for a
bounded time: the runqueues hold ready tasks that no core runs, and the task of
every core is in the state that its place in the code calls for. The one other
kind of state is `Stuck`: a core in the wake-up loop of `pthread_exit` with a
waiter, where the lock is never released.

A place in the code enters the invariant through its `Mode`.
-/

namespace UniKernel.Pthread

open UniKernel.Lib

/-- What a core's current task is doing: its own work, waiting in
`pthread_join`, waking its waiters, or on the way out of `pthread_exit` before
and after its last switch. -/
inductive Mode where
  | offline
  | running
  | waiting (call : Join)
  | waking (waiting : Nat)
  | dying
  | dead
  | lost
deriving DecidableEq

def Caller.mode : Caller → Mode
  | .user => .running
  | .join call => .waiting call
  | .exit => .dying

def AfterUnlock.mode : AfterUnlock → Mode
  | .created _ _ => .running
  | .yielded .user => .running
  | .yielded (.join call) => .waiting call
  | .yielded .exit => .dead
  | .joinWaiting call => .waiting call
  | .joinDone _ => .running
  | .exited => .dying

def Pc.mode : Pc → Mode
  | .offline => .offline
  | .user => .running
  | .createLock _ => .running
  | .joinLoop call => .waiting call
  | .joinRead _ => .running
  | .exitWake waiting => .waking waiting
  | .exitSpin => .dead
  | .yieldEnter caller => caller.mode
  | .yieldLock caller => caller.mode
  | .unlock after => after.mode
  | .forkUnlock => .running
  | .lost => .lost

/-- The places inside a critical section. -/
def Pc.locked : Pc → Bool
  | .exitWake _ => true
  | .unlock _ => true
  | .forkUnlock => true
  | _ => false

/-- The places where `task_to_free` may be set. -/
def Pc.reclaiming : Pc → Bool
  | .exitWake _ => true
  | .unlock .exited => true
  | .yieldEnter .exit => true
  | _ => false

@[simp] theorem AfterUnlock.mode_resume (after : AfterUnlock) :
    after.resume.mode = after.mode := by
  rcases after with _ | caller | _ | _ | _
  · rfl
  · cases caller <;> rfl
  · rfl
  · rfl
  · rfl

@[simp] theorem AfterUnlock.locked_resume (after : AfterUnlock) :
    after.resume.locked = false := by
  rcases after with _ | caller | _ | _ | _
  · rfl
  · cases caller <;> rfl
  · rfl
  · rfl
  · rfl

/-- A join in progress: somebody waits on the target, and it has not exited. -/
structure JoinOk (s : State) (call : Join) : Prop where
  waited : (s.tasks call.target).joinWaitQueue ≠ 0
  notExited : s.state call.target ≠ .exited

/-- The contexts of queued tasks. -/
def Resumable (s : State) : Context → Prop
  | .fork => True
  | .yielded .user => True
  | .yielded (.join call) => JoinOk s call
  | _ => False

/-- The state of the task `self` a core runs in each mode. -/
def ModeOk (s : State) (live : Nat → Bool) (self : Nat) : Mode → Prop
  | .offline => self = 0
  | .running => live self = true ∧ s.state self = .running ∧ s.next self = 0
  | .waiting call =>
      live self = true ∧ (s.state self = .running ∨ s.state self = .blocked) ∧ JoinOk s call
  | .waking waiting =>
      waiting = 0 ∧ (s.tasks self).joinWaitQueue = 0 ∧ s.state self = .exited ∧ s.next self = 0
  | .dying => s.state self = .exited
  | .dead => s.state self = .running
  | .lost => False

/-- A task that `pthread_create` is about to enqueue. -/
structure Pending (s : State) (live : Nat → Bool) (queue : Nat → List Nat) (t : Nat) : Prop where
  ne_zero : t ≠ 0
  live : live t = true
  unqueued : ∀ p, t ∉ queue p
  notCurrent : ∀ c, s.current c ≠ t
  ready : s.state t = .ready
  notIdle : s.priority t ≠ idlePriority
  context : (s.tasks t).context = .fork

/-- A task no core and no queue has: the idle task of a core. -/
structure Parked (s : State) (live : Nat → Bool) (pc : Core → Pc) (queue : Nat → List Nat)
    (t : Nat) : Prop where
  ne_zero : t ≠ 0
  live : live t = true
  unqueued : ∀ p, t ∉ queue p
  notCurrent : ∀ c, s.current c ≠ t
  notPending : ∀ c, pc c ≠ .createLock t

/-- The runqueues and the tasks in them. -/
structure QueuesOk (s : State) (live : Nat → Bool) (queue : Nat → List Nat) : Prop where
  queued : Queued s queue
  ready : ∀ p, ∀ t ∈ queue p, s.state t = .ready
  live : ∀ p, ∀ t ∈ queue p, live t = true
  notIdle : queue idlePriority = []
  small : ∀ t, s.priority t < priorityCount
  unqueuedPrev : ∀ t, (∀ p, t ∉ queue p) → s.prev t = 0

/-- The lock is taken exactly while a core is in a critical section, and one
core at a time is. -/
structure LockOk (taken : Bool) (pc : Core → Pc) : Prop where
  taken_iff : taken = true ↔ ∃ c, (pc c).locked = true
  unique : ∀ c c', (pc c).locked = true → (pc c').locked = true → c = c'

/-- The invariant, for the queue contents `queue`. -/
structure Consistent (s : State) (live : Nat → Bool) (pc : Core → Pc) (idleTask : Core → Nat)
    (queue : Nat → List Nat) : Prop where
  queues : QueuesOk s live queue
  resumable : ∀ p, ∀ t ∈ queue p, Resumable s (s.tasks t).context
  currentNonzero : ∀ c, pc c ≠ .offline → s.current c ≠ 0
  currentUnqueued : ∀ c p, s.current c ∉ queue p
  currentApart : ∀ c c', c ≠ c' → pc c ≠ .offline → s.current c ≠ s.current c'
  mode : ∀ c, ModeOk s live (s.current c) (pc c).mode
  pending : ∀ c t, pc c = .createLock t → Pending s live queue t
  pendingApart : ∀ c c' t, c ≠ c' → pc c = .createLock t → pc c' ≠ .createLock t
  idle : ∀ c, pc c ≠ .offline → Parked s live pc queue (idleTask c)
  lock : LockOk s.schedLock pc
  toFree : ∀ c, (s.cores c).taskToFree = 0 ∨
    ((s.cores c).taskToFree = s.current c ∧ (pc c).reclaiming = true)

/-- A task that nothing in the invariant mentions. -/
structure Unused (s : State) (pc : Core → Pc) (idleTask : Core → Nat) (queue : Nat → List Nat)
    (t : Nat) : Prop where
  unqueued : ∀ p, t ∉ queue p
  notCurrent : ∀ c, s.current c ≠ t
  notPending : ∀ c, pc c ≠ .createLock t
  notIdle : ∀ c, pc c ≠ .offline → idleTask c ≠ t
  notTarget : ∀ c call, (pc c).mode = .waiting call → call.target ≠ t
  notQueuedTarget : ∀ p, ∀ a ∈ queue p, ∀ call,
    (s.tasks a).context = .yielded (.join call) → call.target ≠ t

/-- The invariant of a machine. -/
def Machine.Consistent (m : Machine) (queue : Nat → List Nat) : Prop :=
  Pthread.Consistent m.sched m.structs m.pc m.history.idleTask queue

/-- Core `c` is in the wake-up loop with the waiter `waiting`: the lock stays
taken. -/
structure Waking (m : Machine) (c : Core) (waiting : Nat) : Prop where
  here : m.pc c = .exitWake waiting
  someWaiter : waiting ≠ 0
  isLocked : m.sched.schedLock = true
  othersFree : ∀ c', c' ≠ c → (m.pc c').locked = false

def Stuck (m : Machine) : Prop := ∃ c waiting, Waking m c waiting

/-- The states of all runs in which no struct in use is handed out again. -/
def Sound (m : Machine) : Prop := (∃ queue, m.Consistent queue) ∨ Stuck m

/-- A struct some call in progress still uses: the current task of a core, or
the target of a `pthread_join` that waits. -/
def InUse (m : Machine) (t : Nat) : Prop :=
  (∃ c, m.current c = t) ∨
  (∃ c call, (m.pc c).mode = .waiting call ∧ call.target = t) ∨
  ∃ a call, m.structs a = true ∧ (∀ c, m.current c ≠ a) ∧
    (m.sched.tasks a).context = .yielded (.join call) ∧ call.target = t

/-- The structs a step gets from `malloc`. -/
def Action.structs : Action → List Nat
  | .initSecondary _ idle startupTask => [idle.task, startupTask]
  | .create _ _ alloc => [alloc.task]
  | _ => []

/-- The step gets no struct from `malloc` that is in use. -/
def AllocatesUnused (transition : Transition Machine Action) : Prop :=
  ∀ t ∈ transition.label.structs, t ≠ 0 → ¬ InUse transition.source t

/-! ### Frames -/

variable {m m' : Machine} {queue : Nat → List Nat} {s s' : State} {live live' : Nat → Bool}
  {c : Core} {pc : Core → Pc} {place : Pc} {taken : Bool} {t : Nat}

namespace LockOk

theorem keep (lock : LockOk taken pc) (same : place.locked = (pc c).locked) :
    LockOk taken (Function.update pc c place) := by
  have lockedEq : ∀ c', (Function.update pc c place c').locked = (pc c').locked := by
    intro c'
    by_cases here : c' = c
    · rw [here, Function.update_self, same]
    · rw [Function.update_of_ne here]
  constructor
  · simp only [lockedEq]
    exact lock.taken_iff
  · simp only [lockedEq]
    exact lock.unique

theorem allFree (lock : LockOk false pc) (c : Core) : (pc c).locked = false := by
  rw [← Bool.not_eq_true]
  intro isLocked
  have taken := lock.taken_iff.mpr ⟨c, isLocked⟩
  cases taken

theorem acquire (lock : LockOk false pc) (isLocked : place.locked = true) :
    LockOk true (Function.update pc c place) := by
  have onlyHere : ∀ c', (Function.update pc c place c').locked = true → c' = c := by
    intro c' locked
    by_contra elsewhere
    rw [Function.update_of_ne elsewhere, lock.allFree c'] at locked
    cases locked
  refine ⟨iff_of_true rfl ⟨c, ?_⟩, ?_⟩
  · rw [Function.update_self, isLocked]
  · intro c₁ c₂ first second
    rw [onlyHere c₁ first, onlyHere c₂ second]

theorem release (lock : LockOk taken pc) (wasLocked : (pc c).locked = true)
    (isFree : place.locked = false) : LockOk false (Function.update pc c place) := by
  have allFree : ∀ c', (Function.update pc c place c').locked = false := by
    intro c'
    by_cases here : c' = c
    · rw [here, Function.update_self, isFree]
    · rw [Function.update_of_ne here, ← Bool.not_eq_true]
      exact fun locked => here (lock.unique c' c locked wasLocked)
  constructor
  · simp [allFree]
  · intro c₁ c₂ first
    rw [allFree] at first
    cases first

end LockOk

theorem JoinOk.congr {call : Join} (join : JoinOk s call)
    (sameWaiters : (s'.tasks call.target).joinWaitQueue = (s.tasks call.target).joinWaitQueue)
    (sameExit : s'.state call.target = .exited → s.state call.target = .exited) :
    JoinOk s' call :=
  ⟨by rw [sameWaiters]; exact join.waited, fun exited => join.notExited (sameExit exited)⟩

theorem Resumable.congr {context : Context} (resumable : Resumable s context)
    (joins : ∀ call, JoinOk s call → JoinOk s' call) : Resumable s' context := by
  rcases context with _ | _ | (_ | call | _)
  · exact resumable
  · trivial
  · trivial
  · exact joins call resumable
  · exact resumable

theorem ModeOk.congr {self : Nat} {mode : Mode} (ok : ModeOk s live self mode)
    (sameLive : live' self = live self) (sameState : s'.state self = s.state self)
    (sameNext : s'.next self = s.next self)
    (sameWaiters : ∀ waiting, mode = .waking waiting →
      (s'.tasks self).joinWaitQueue = (s.tasks self).joinWaitQueue)
    (joins : ∀ call, mode = .waiting call → JoinOk s call → JoinOk s' call) :
    ModeOk s' live' self mode := by
  cases mode with
  | offline => exact ok
  | running =>
      simp only [ModeOk, sameLive, sameState, sameNext] at ok ⊢
      exact ok
  | waiting call =>
      simp only [ModeOk, sameLive, sameState] at ok ⊢
      exact ⟨ok.1, ok.2.1, joins call rfl ok.2.2⟩
  | waking waiting =>
      simp only [ModeOk, sameState, sameNext, sameWaiters waiting rfl] at ok ⊢
      exact ok
  | dying =>
      simp only [ModeOk, sameState] at ok ⊢
      exact ok
  | dead =>
      simp only [ModeOk, sameState] at ok ⊢
      exact ok
  | lost => exact ok

namespace QueuesOk

theorem congr (queues : QueuesOk s live queue)
    (sameNext : ∀ p, ∀ t ∈ queue p, s'.next t = s.next t) (samePrev : ∀ t, s'.prev t = s.prev t)
    (samePriority : ∀ t, s'.priority t = s.priority t)
    (sameHeads : s'.runqueues = s.runqueues) (sameTails : s'.runqueuesTail = s.runqueuesTail)
    (sameActive : s'.activePriorities = s.activePriorities)
    (ready : ∀ p, ∀ t ∈ queue p, s'.state t = .ready) :
    QueuesOk s' live queue where
  queued := queues.queued.congr sameNext (fun _ t _ => samePrev t) (fun _ t _ => samePriority t)
    sameHeads sameTails sameActive
  ready := ready
  live := queues.live
  notIdle := queues.notIdle
  small := by
    intro t
    rw [samePriority]
    exact queues.small t
  unqueuedPrev := by
    intro t unqueued
    rw [samePrev]
    exact queues.unqueuedPrev t unqueued

/-- The structs of the queued tasks stay in use. -/
theorem keepLive (queues : QueuesOk s live queue) (isLive : ∀ p, ∀ a ∈ queue p, live' a = true) :
    QueuesOk s live' queue :=
  { queues with live := isLive }

/-- A task outside the queues changes. -/
theorem changeUnqueued (queues : QueuesOk s live queue) (unqueued : ∀ p, t ∉ queue p)
    (noPrev : s'.prev t = 0) (small : s'.priority t < priorityCount)
    (sameTask : ∀ a, a ≠ t → s'.tasks a = s.tasks a) (heads : s'.runqueues = s.runqueues)
    (tails : s'.runqueuesTail = s.runqueuesTail)
    (active : s'.activePriorities = s.activePriorities) : QueuesOk s' live queue := by
  have queuedSame : ∀ p, ∀ a ∈ queue p, s'.tasks a = s.tasks a := fun p a member =>
    sameTask a fun same => unqueued p (same ▸ member)
  exact {
    queued := by
      apply queues.queued.congr
      · exact fun p a member => congrArg Task.next (queuedSame p a member)
      · exact fun p a member => congrArg Task.prev (queuedSame p a member)
      · exact fun p a member => congrArg Task.priority (queuedSame p a member)
      · exact heads
      · exact tails
      · exact active
    ready := fun p a member =>
      (congrArg Task.state (queuedSame p a member)).trans (queues.ready p a member)
    live := queues.live
    notIdle := queues.notIdle
    small := by
      intro a
      by_cases here : a = t
      · rw [here]
        exact small
      · rw [State.priority, sameTask a here]
        exact queues.small a
    unqueuedPrev := by
      intro a nowhere
      by_cases here : a = t
      · rw [here]
        exact noPrev
      · rw [State.prev, sameTask a here]
        exact queues.unqueuedPrev a nowhere }

end QueuesOk

theorem Pending.congr {queue' : Nat → List Nat} (before : Pending s live queue t)
    (sameLive : live' t = live t) (unqueued : ∀ p, t ∉ queue' p)
    (notCurrent : ∀ c, s'.current c ≠ t) (sameState : s'.state t = s.state t)
    (samePriority : s'.priority t = s.priority t)
    (sameContext : (s'.tasks t).context = (s.tasks t).context) : Pending s' live' queue' t where
  ne_zero := before.ne_zero
  live := sameLive.trans before.live
  unqueued := unqueued
  notCurrent := notCurrent
  ready := sameState.trans before.ready
  notIdle := samePriority.trans_ne before.notIdle
  context := sameContext.trans before.context

theorem Parked.congr {queue' : Nat → List Nat} {pc' : Core → Pc} (before : Parked s live pc queue t)
    (sameLive : live' t = live t) (unqueued : ∀ p, t ∉ queue' p)
    (notCurrent : ∀ c, s'.current c ≠ t)
    (pendingBefore : ∀ c t, pc' c = .createLock t → pc c = .createLock t) :
    Parked s' live' pc' queue' t where
  ne_zero := before.ne_zero
  live := sameLive.trans before.live
  unqueued := unqueued
  notCurrent := notCurrent
  notPending := fun c isPending => before.notPending c (pendingBefore c t isPending)

/-- A core that moves on, from a place where it is online, leaves every core
online that was. -/
theorem online_before (place : Pc) (online : pc c ≠ .offline) (c' : Core)
    (isOnline : Function.update pc c place c' ≠ .offline) : pc c' ≠ .offline := by
  by_cases here : c' = c
  · rw [here]
    exact online
  · rwa [Function.update_of_ne here] at isOnline

/-- The tasks about to be enqueued are those that were. -/
theorem pending_before (pc : Core → Pc) (c : Core) (notPending : ∀ t, place ≠ .createLock t)
    (c' : Core) (t : Nat) (isPending : Function.update pc c place c' = .createLock t) :
    pc c' = .createLock t := by
  by_cases here : c' = c
  · rw [here, Function.update_self] at isPending
    exact absurd isPending (notPending t)
  · rwa [Function.update_of_ne here] at isPending

theorem Pc.mode_eq_offline_iff {pc : Pc} : pc.mode = .offline ↔ pc = .offline := by
  rcases pc with _ | _ | _ | _ | _ | _ | _ | (_ | _ | _) | (_ | _ | _) |
    (_ | (_ | _ | _) | _ | _ | _) | _ | _ <;>
    simp [Pc.mode, Caller.mode, AfterUnlock.mode]

namespace Consistent

variable {idleTask : Core → Nat}

/-- The core goes on to a place of the same mode, and keeps or releases the lock. -/
theorem move (consistent : Consistent s live pc idleTask queue)
    (mode : place.mode = (pc c).mode) (notPending : ∀ t, place ≠ .createLock t)
    (lock : LockOk taken (Function.update pc c place))
    (reclaim : (s.cores c).taskToFree = 0 ∨ (pc c).reclaiming = false ∨ place.reclaiming = true) :
    Consistent (s.setLock taken) live (Function.update pc c place) idleTask queue := by
  have modeEq : ∀ c', (Function.update pc c place c').mode = (pc c').mode := by
    intro c'
    by_cases here : c' = c
    · rw [here, Function.update_self, mode]
    · rw [Function.update_of_ne here]
  have online : ∀ c', Function.update pc c place c' ≠ .offline → pc c' ≠ .offline := by
    intro c' isOnline wasOffline
    rw [← Pc.mode_eq_offline_iff, ← modeEq, Pc.mode_eq_offline_iff] at wasOffline
    exact isOnline wasOffline
  have pendingBefore := pending_before pc c notPending
  have queues := consistent.queues
  exact {
    queues := ⟨⟨queues.queued.linked, queues.queued.priority, queues.queued.active,
      queues.queued.bounded⟩, queues.ready, queues.live, queues.notIdle, queues.small,
      queues.unqueuedPrev⟩
    resumable := fun p t member =>
      (consistent.resumable p t member).congr fun call join => ⟨join.waited, join.notExited⟩
    currentNonzero := fun c' isOnline => consistent.currentNonzero c' (online c' isOnline)
    currentUnqueued := consistent.currentUnqueued
    currentApart := fun c₁ c₂ apart isOnline =>
      consistent.currentApart c₁ c₂ apart (online c₁ isOnline)
    mode := by
      intro c'
      rw [modeEq]
      exact (consistent.mode c').congr rfl rfl rfl (fun _ _ => rfl) fun call _ join =>
        ⟨join.waited, join.notExited⟩
    pending := fun c' t pending =>
      have before := consistent.pending c' t (pendingBefore c' t pending)
      before.congr rfl before.unqueued before.notCurrent rfl rfl rfl
    pendingApart := fun c₁ c₂ t apart first second =>
      consistent.pendingApart c₁ c₂ t apart (pendingBefore c₁ t first) (pendingBefore c₂ t second)
    idle := fun c' isOnline =>
      have before := consistent.idle c' (online c' isOnline)
      before.congr rfl before.unqueued before.notCurrent pendingBefore
    lock := lock
    toFree := by
      intro c'
      rcases consistent.toFree c' with noTask | ⟨isCurrent, reclaiming⟩
      · exact Or.inl noTask
      · by_cases here : c' = c
        · subst here
          rw [Function.update_self]
          rcases reclaim with noTask | notReclaiming | reclaims
          · exact Or.inl noTask
          · rw [notReclaiming] at reclaiming
            cases reclaiming
          · exact Or.inr ⟨isCurrent, reclaims⟩
        · rw [Function.update_of_ne here]
          exact Or.inr ⟨isCurrent, reclaiming⟩ }

/-- The invariant does not read the thread counter. -/
theorem congr (consistent : Consistent s live pc idleTask queue) (tasks : s'.tasks = s.tasks)
    (heads : s'.runqueues = s.runqueues) (tails : s'.runqueuesTail = s.runqueuesTail)
    (active : s'.activePriorities = s.activePriorities) (cores : s'.cores = s.cores)
    (lock : s'.schedLock = s.schedLock) :
    Consistent s' live pc idleTask queue := by
  have counted : s' = { s with tidCounter := s'.tidCounter } := by
    rw [← tasks, ← heads, ← tails, ← active, ← cores, ← lock]
  rw [counted]
  have queues := consistent.queues
  exact {
    queues := ⟨⟨queues.queued.linked, queues.queued.priority, queues.queued.active,
      queues.queued.bounded⟩, queues.ready, queues.live, queues.notIdle, queues.small,
      queues.unqueuedPrev⟩
    resumable := fun p a member =>
      (consistent.resumable p a member).congr fun call join => ⟨join.waited, join.notExited⟩
    currentNonzero := consistent.currentNonzero
    currentUnqueued := consistent.currentUnqueued
    currentApart := consistent.currentApart
    mode := fun c => (consistent.mode c).congr rfl rfl rfl (fun _ _ => rfl) fun call _ join =>
      ⟨join.waited, join.notExited⟩
    pending := fun c a isPending =>
      have before := consistent.pending c a isPending
      before.congr rfl before.unqueued before.notCurrent rfl rfl rfl
    pendingApart := consistent.pendingApart
    idle := fun c online =>
      have before := consistent.idle c online
      before.congr rfl before.unqueued before.notCurrent fun _ _ => id
    lock := consistent.lock
    toFree := consistent.toFree }

/-- The struct of an unused task changes, and so may its place in the heap. -/
theorem changeUnused (consistent : Consistent s live pc idleTask queue)
    (unused : Unused s pc idleTask queue t) {task : Task}
    (noPrev : task.prev = 0) (small : task.priority < priorityCount)
    (sameLive : ∀ a, a ≠ t → live' a = live a)
    (tasks : s'.tasks = (s.setTask t task).tasks) (heads : s'.runqueues = s.runqueues)
    (tails : s'.runqueuesTail = s.runqueuesTail)
    (active : s'.activePriorities = s.activePriorities) (cores : s'.cores = s.cores)
    (lock : s'.schedLock = s.schedLock) :
    Consistent s' live' pc idleTask queue := by
  have tasksHere : s'.tasks t = task := by
    rw [tasks, State.tasks_setTask, if_pos rfl]
  have tasksEq : ∀ a, a ≠ t → s'.tasks a = s.tasks a := by
    intro a other
    rw [tasks, State.tasks_setTask, if_neg other]
  have current : ∀ c, s'.current c = s.current c := by
    intro c
    rw [State.current, cores]
    rfl
  have queuedNe : ∀ p, ∀ a ∈ queue p, a ≠ t := fun p a member same =>
    unused.unqueued p (same ▸ member)
  have joins : ∀ call, call.target ≠ t → JoinOk s call → JoinOk s' call := by
    intro call other join
    apply join.congr
    · rw [tasksEq _ other]
    · rw [State.state, tasksEq _ other]
      exact id
  have queuedLive : ∀ p, ∀ a ∈ queue p, live' a = true := by
    intro p a member
    rw [sameLive a (queuedNe p a member)]
    exact consistent.queues.live p a member
  have queues : QueuesOk s' live queue := by
    apply consistent.queues.changeUnqueued unused.unqueued
    · rw [State.prev, tasksHere]
      exact noPrev
    · rw [State.priority, tasksHere]
      exact small
    · exact tasksEq
    · exact heads
    · exact tails
    · exact active
  exact {
    queues := queues.keepLive queuedLive
    resumable := by
      intro p a member
      have resumable := consistent.resumable p a member
      rw [tasksEq a (queuedNe p a member)]
      rcases same : (s.tasks a).context with _ | _ | (_ | call | _) <;> rw [same] at resumable
      · exact resumable
      · trivial
      · trivial
      · exact joins call (unused.notQueuedTarget p a member call same) resumable
      · exact resumable
    currentNonzero := by
      intro c online
      rw [current]
      exact consistent.currentNonzero c online
    currentUnqueued := by
      intro c
      rw [current]
      exact consistent.currentUnqueued c
    currentApart := by
      intro c₁ c₂ apart online
      rw [current, current]
      exact consistent.currentApart c₁ c₂ apart online
    mode := by
      intro c
      rw [current]
      have ne : s.current c ≠ t := unused.notCurrent c
      apply (consistent.mode c).congr
      · exact sameLive _ ne
      · exact congrArg Task.state (tasksEq _ ne)
      · exact congrArg Task.next (tasksEq _ ne)
      · exact fun _ _ => congrArg Task.joinWaitQueue (tasksEq _ ne)
      · exact fun call waits => joins call (unused.notTarget c call waits)
    pending := by
      intro c a pending
      have ne : a ≠ t := fun same => unused.notPending c (same ▸ pending)
      have before := consistent.pending c a pending
      apply before.congr (sameLive a ne) before.unqueued
      · exact fun c₂ => (current c₂).trans_ne (before.notCurrent c₂)
      · exact congrArg Task.state (tasksEq a ne)
      · exact congrArg Task.priority (tasksEq a ne)
      · exact congrArg Task.context (tasksEq a ne)
    pendingApart := consistent.pendingApart
    idle := by
      intro c online
      have before := consistent.idle c online
      apply before.congr (sameLive _ (unused.notIdle c online)) before.unqueued
      · exact fun c₂ => (current c₂).trans_ne (before.notCurrent c₂)
      · exact fun _ _ => id
    lock := by
      rw [lock]
      exact consistent.lock
    toFree := by
      intro c
      rw [current, cores]
      exact consistent.toFree c }

/-- `pthread_create` made a task it has to enqueue. -/
theorem enterCreate (consistent : Consistent s live pc idleTask queue) (here : pc c = .user)
    (pending : Pending s live queue t) (unused : Unused s pc idleTask queue t) :
    Consistent s live (Function.update pc c (.createLock t)) idleTask queue := by
  have modeEq : ∀ c', (Function.update pc c (.createLock t) c').mode = (pc c').mode := by
    intro c'
    by_cases same : c' = c
    · rw [same, Function.update_self, here]
      rfl
    · rw [Function.update_of_ne same]
  have online : ∀ c', Function.update pc c (.createLock t) c' ≠ .offline → pc c' ≠ .offline := by
    intro c' isOnline wasOffline
    rw [← Pc.mode_eq_offline_iff, ← modeEq, Pc.mode_eq_offline_iff] at wasOffline
    exact isOnline wasOffline
  have pendingCases : ∀ c' a, Function.update pc c (.createLock t) c' = .createLock a →
      (c' = c ∧ a = t) ∨ (c' ≠ c ∧ pc c' = .createLock a) := by
    intro c' a
    by_cases same : c' = c
    · rw [same, Function.update_self]
      intro isHere
      exact Or.inl ⟨rfl, (Pc.createLock.inj isHere).symm⟩
    · rw [Function.update_of_ne same]
      exact fun before => Or.inr ⟨same, before⟩
  exact {
    queues := consistent.queues
    resumable := consistent.resumable
    currentNonzero := fun c' isOnline => consistent.currentNonzero c' (online c' isOnline)
    currentUnqueued := consistent.currentUnqueued
    currentApart := fun c₁ c₂ apart isOnline =>
      consistent.currentApart c₁ c₂ apart (online c₁ isOnline)
    mode := by
      intro c'
      rw [modeEq]
      exact consistent.mode c'
    pending := by
      intro c' a isPending
      rcases pendingCases c' a isPending with ⟨-, rfl⟩ | ⟨-, before⟩
      · exact pending
      · exact consistent.pending c' a before
    pendingApart := by
      intro c₁ c₂ a apart first second
      rcases pendingCases c₁ a first with ⟨same₁, rfl⟩ | ⟨-, before₁⟩ <;>
        rcases pendingCases c₂ _ second with ⟨same₂, sameTask⟩ | ⟨-, before₂⟩
      · exact apart (same₁.trans same₂.symm)
      · exact unused.notPending c₂ before₂
      · exact unused.notPending c₁ (sameTask ▸ before₁)
      · exact consistent.pendingApart c₁ c₂ a apart before₁ before₂
    idle := by
      intro c' isOnline
      have before := consistent.idle c' (online c' isOnline)
      refine ⟨before.ne_zero, before.live, before.unqueued, before.notCurrent, ?_⟩
      intro c₂ isPending
      rcases pendingCases c₂ _ isPending with ⟨-, isNew⟩ | ⟨-, old⟩
      · exact unused.notIdle c' (online c' isOnline) isNew
      · exact before.notPending c₂ old
    lock := consistent.lock.keep (by rw [here]; rfl)
    toFree := by
      intro c'
      rcases consistent.toFree c' with noTask | ⟨isCurrent, reclaiming⟩
      · exact Or.inl noTask
      · by_cases same : c' = c
        · rw [same, here] at reclaiming
          cases reclaiming
        · rw [Function.update_of_ne same]
          exact Or.inr ⟨isCurrent, reclaiming⟩ }

/-- `sched_yield` frees the task that exited on this core. -/
theorem reclaim (consistent : Consistent s live pc idleTask queue) (dying : (pc c).mode = .dying)
    (isCurrent : t = s.current c) (sameLive : ∀ a, a ≠ t → live' a = live a) :
    Consistent (s.setTaskToFree c 0) live' pc idleTask queue := by
  have current : ∀ c', (s.setTaskToFree c 0).current c' = s.current c' := by
    intro c'
    simp only [State.current, State.setTaskToFree, Function.update_apply]
    split
    · next same => rw [same]
    · rfl
  have online : pc c ≠ .offline := by
    intro isOffline
    rw [isOffline] at dying
    cases dying
  have queues : QueuesOk (s.setTaskToFree c 0) live queue :=
    consistent.queues.congr (fun _ _ _ => rfl) (fun _ => rfl) (fun _ => rfl) rfl rfl rfl
      consistent.queues.ready
  have queuedLive : ∀ p, ∀ a ∈ queue p, live' a = true := by
    intro p a member
    rw [sameLive a]
    · exact queues.live p a member
    · intro same
      exact consistent.currentUnqueued c p (isCurrent ▸ same ▸ member)
  have notFreed : ∀ a, (∀ c', s.current c' ≠ a) → live' a = live a := by
    intro a notCurrent
    apply sameLive
    intro isFreed
    exact notCurrent c (isCurrent.symm.trans isFreed.symm)
  exact {
    queues := queues.keepLive queuedLive
    resumable := fun p a member =>
      (consistent.resumable p a member).congr fun call join => ⟨join.waited, join.notExited⟩
    currentNonzero := by
      intro c' isOnline
      rw [current]
      exact consistent.currentNonzero c' isOnline
    currentUnqueued := by
      intro c' p
      rw [current]
      exact consistent.currentUnqueued c' p
    currentApart := by
      intro c₁ c₂ apart isOnline
      rw [current, current]
      exact consistent.currentApart c₁ c₂ apart isOnline
    mode := by
      intro c'
      rw [current]
      by_cases same : c' = c
      · have before := consistent.mode c'
        rw [same, dying] at before ⊢
        exact before
      · apply (consistent.mode c').congr
        · apply sameLive
          intro isFreed
          exact consistent.currentApart c c' (Ne.symm same) online (isCurrent.symm.trans isFreed.symm)
        · rfl
        · rfl
        · exact fun _ _ => rfl
        · exact fun call _ join => ⟨join.waited, join.notExited⟩
    pending := by
      intro c' a isPending
      have before := consistent.pending c' a isPending
      apply before.congr (notFreed a before.notCurrent) before.unqueued
      · exact fun c₂ => (current c₂).trans_ne (before.notCurrent c₂)
      · rfl
      · rfl
      · rfl
    pendingApart := consistent.pendingApart
    idle := by
      intro c' isOnline
      have before := consistent.idle c' isOnline
      apply before.congr (notFreed _ before.notCurrent) before.unqueued
      · exact fun c₂ => (current c₂).trans_ne (before.notCurrent c₂)
      · exact fun _ _ => id
    lock := consistent.lock
    toFree := by
      intro c'
      rw [current]
      simp only [State.setTaskToFree, Function.update_apply]
      split
      · exact Or.inl rfl
      · exact consistent.toFree c' }

/-- A core goes online with a task of its own. -/
theorem startCore (consistent : Consistent s live pc idleTask queue) (here : pc c = .offline)
    {own idle : Nat} (unused : Unused s pc idleTask queue own) (ownNonzero : own ≠ 0)
    (ownOk : ModeOk s live own .running) (parked : Parked s live pc queue idle)
    (apart : own ≠ idle) :
    Consistent (s.setCurrent c own) live (Function.update pc c .user)
      (Function.update idleTask c idle) queue := by
  have currentHere : (s.setCurrent c own).current c = own := by
    simp [State.current, State.setCurrent]
  have currentOther : ∀ c', c' ≠ c → (s.setCurrent c own).current c' = s.current c' := by
    intro c' other
    simp [State.current, State.setCurrent, Function.update_of_ne other]
  have notPending : ∀ t, Pc.user ≠ .createLock t := by simp
  have pendingBefore := pending_before pc c notPending
  have notCurrent : ∀ a, (∀ c', s.current c' ≠ a) → own ≠ a →
      ∀ c', (s.setCurrent c own).current c' ≠ a := by
    intro a before notOwn c'
    by_cases same : c' = c
    · rw [same, currentHere]
      exact notOwn
    · rw [currentOther c' same]
      exact before c'
  have queues := consistent.queues
  exact {
    queues := ⟨⟨queues.queued.linked, queues.queued.priority, queues.queued.active,
      queues.queued.bounded⟩, queues.ready, queues.live, queues.notIdle, queues.small,
      queues.unqueuedPrev⟩
    resumable := fun p a member =>
      (consistent.resumable p a member).congr fun call join => ⟨join.waited, join.notExited⟩
    currentNonzero := by
      intro c'
      by_cases same : c' = c
      · rw [same, currentHere]
        exact fun _ => ownNonzero
      · rw [Function.update_of_ne same, currentOther c' same]
        exact consistent.currentNonzero c'
    currentUnqueued := by
      intro c' p
      by_cases same : c' = c
      · rw [same, currentHere]
        exact unused.unqueued p
      · rw [currentOther c' same]
        exact consistent.currentUnqueued c' p
    currentApart := by
      intro c₁ c₂ distinct
      by_cases first : c₁ = c
      · rw [first, currentHere, currentOther c₂ (first ▸ distinct.symm)]
        exact fun _ => (unused.notCurrent c₂).symm
      · rw [Function.update_of_ne first, currentOther c₁ first]
        intro isOnline
        by_cases second : c₂ = c
        · rw [second, currentHere]
          exact unused.notCurrent c₁
        · rw [currentOther c₂ second]
          exact consistent.currentApart c₁ c₂ distinct isOnline
    mode := by
      intro c'
      by_cases same : c' = c
      · rw [same, currentHere, Function.update_self]
        exact ownOk
      · rw [currentOther c' same, Function.update_of_ne same]
        exact (consistent.mode c').congr rfl rfl rfl (fun _ _ => rfl) fun call _ join =>
          ⟨join.waited, join.notExited⟩
    pending := by
      intro c' a isPending
      have before := consistent.pending c' a (pendingBefore c' a isPending)
      have notOwn : own ≠ a := fun same =>
        unused.notPending c' (same ▸ pendingBefore c' a isPending)
      exact before.congr rfl before.unqueued (notCurrent a before.notCurrent notOwn) rfl rfl rfl
    pendingApart := fun c₁ c₂ a distinct first second =>
      consistent.pendingApart c₁ c₂ a distinct (pendingBefore c₁ a first) (pendingBefore c₂ a second)
    idle := by
      intro c'
      by_cases same : c' = c
      · rw [same, Function.update_self, Function.update_self]
        intro _
        exact parked.congr rfl parked.unqueued (notCurrent idle parked.notCurrent apart) pendingBefore
      · rw [Function.update_of_ne same, Function.update_of_ne same]
        intro isOnline
        have before := consistent.idle c' isOnline
        apply before.congr rfl before.unqueued
        · exact notCurrent _ before.notCurrent (unused.notIdle c' isOnline).symm
        · exact pendingBefore
    lock := consistent.lock.keep (by rw [here]; rfl)
    toFree := by
      intro c'
      by_cases same : c' = c
      · subst same
        rcases consistent.toFree c' with noTask | ⟨-, reclaiming⟩
        · refine Or.inl ?_
          simpa [State.setCurrent] using noTask
        · rw [here] at reclaiming
          cases reclaiming
      · rw [Function.update_of_ne same, currentOther c' same]
        have coreEq : (s.setCurrent c own).cores c' = s.cores c' := by
          simp [State.setCurrent, Function.update_of_ne same]
        rw [coreEq]
        exact consistent.toFree c' }

end Consistent

end UniKernel.Pthread
