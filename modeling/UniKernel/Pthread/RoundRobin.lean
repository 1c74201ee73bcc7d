import UniKernel.Lib.Rotation
import UniKernel.Lib.Transition
import UniKernel.Pthread.Perform
import UniKernel.Pthread.Switch

/-!
Owns which task `sched_yield` runs next. The runqueues are first in, first out:
`Fifo` gives every queued task the time it was enqueued at, and every queue is
in that order. A running caller is enqueued last and the head of the highest
queue that is not empty is taken, so tasks of the top priority that do nothing
but yield take turns.
-/

namespace UniKernel.Pthread

open UniKernel.Lib

variable {s s' : State} {m m' last : Machine} {action : Action} {queue : Nat → List Nat}
  {enqueued : Nat → Nat} {now p prio t self nextTask : Nat} {c : Core} {caller : Caller}
  {path : List (Transition Machine Action)}

/-! ### The times of enqueueing -/

/-- The queued tasks were enqueued at the times `enqueued`, all before `now`,
and each queue is in the order of these times. -/
structure Fifo (s : State) (queue : Nat → List Nat) (enqueued : Nat → Nat) (now : Nat) : Prop where
  queued : Queued s queue
  past : ∀ p, ∀ t ∈ queue p, enqueued t < now
  ordered : ∀ p, (queue p).Pairwise fun earlier later => enqueued earlier < enqueued later

namespace Fifo

theorem congr (fifo : Fifo s queue enqueued now) (queued : Queued s' queue) :
    Fifo s' queue enqueued now :=
  ⟨queued, fifo.past, fifo.ordered⟩

/-- Nothing is queued at the start. -/
theorem empty (noHeads : s.runqueues = fun _ => 0) (noTails : s.runqueuesTail = fun _ => 0)
    (noBits : s.activePriorities = 0) : Fifo s (fun _ => []) (fun _ => 0) 0 where
  queued :=
    { linked := by
        intro p
        rw [noHeads, noTails]
        exact Linked.empty _ _
      priority := fun _ _ member => absurd member List.not_mem_nil
      active := by
        intro p
        rw [noBits, Nat.zero_testBit]
        simp
      bounded := fun _ _ => rfl }
  past := fun _ _ member => absurd member List.not_mem_nil
  ordered := fun _ => List.Pairwise.nil

/-- `sched_enqueue_task` at the time `now`. -/
theorem enqueue (fifo : Fifo s queue enqueued now) (nonzero : t ≠ 0) (unqueued : ∀ p, t ∉ queue p)
    (small : s.priority t < priorityCount) :
    Fifo (s.schedEnqueueTask t) (pushTo queue (s.priority t) t) (Function.update enqueued t now)
      (now + 1) := by
  have sameTime : ∀ p, ∀ a ∈ queue p, Function.update enqueued t now a = enqueued a := by
    intro p a member
    have other : a ≠ t := fun same => unqueued p (same ▸ member)
    exact Function.update_of_ne other _ _
  have newTime : Function.update enqueued t now t = now := Function.update_self _ _ _
  have sameOrder : ∀ p, (queue p).Pairwise fun earlier later =>
      Function.update enqueued t now earlier < Function.update enqueued t now later := by
    intro p
    apply (fifo.ordered p).imp_of_mem
    intro earlier later inFront inBack before
    rw [sameTime p earlier inFront, sameTime p later inBack]
    exact before
  refine ⟨fifo.queued.enqueue nonzero unqueued small, ?_, ?_⟩
  · intro p a member
    rw [pushTo, Function.update_apply] at member
    have cases : a ∈ queue p ∨ a = t := by
      split at member
      · next here =>
          rw [here]
          simpa using member
      · exact Or.inl member
    rcases cases with old | rfl
    · rw [sameTime p a old]
      exact Nat.lt_succ_of_lt (fifo.past p a old)
    · rw [newTime]
      exact Nat.lt_succ_self now
  · intro p
    rw [pushTo, Function.update_apply]
    split
    · apply List.pairwise_append.mpr
      refine ⟨sameOrder _, List.pairwise_singleton _ _, ?_⟩
      intro earlier inFront later isNew
      rw [List.mem_singleton.mp isNew, newTime, sameTime _ earlier inFront]
      exact fifo.past _ earlier inFront
    · exact sameOrder p

/-- `sched_dequeue_task` of a queued task. -/
theorem dequeue (fifo : Fifo s queue enqueued now) (member : t ∈ queue prio) :
    Fifo (s.schedDequeueTask t) (removeFrom queue prio t) enqueued now := by
  refine ⟨fifo.queued.dequeue member, ?_, ?_⟩
  · intro p a remaining
    exact fifo.past p a (QueuesOk.mem_of_removeFrom remaining)
  · intro p
    rw [removeFrom, Function.update_apply]
    split
    · exact (fifo.ordered _).sublist List.erase_sublist
    · exact fifo.ordered p

end Fifo

/-! ### The choice -/

/-- Core `c` runs `task`, of a priority above `IDLE`, and the others are ready. -/
structure Runs (s : State) (queue : Nat → List Nat) (c : Core) (task : Nat) : Prop where
  ready : ∀ p, ∀ t ∈ queue p, s.state t = .ready
  isCurrent : s.current c = task
  nonzero : task ≠ 0
  running : s.state task = .running
  notIdle : s.priority task ≠ idlePriority
  small : s.priority task < priorityCount

theorem Runs.unqueued (runs : Runs s queue c self) (p : Nat) : self ∉ queue p := by
  intro member
  have ready := runs.ready p self member
  rw [runs.running] at ready
  cases ready

/-- A step that leaves the tasks, the runqueues and the running tasks alone. -/
structure SameTasks (s s' : State) : Prop where
  tasks : s'.tasks = s.tasks
  runqueues : s'.runqueues = s.runqueues
  runqueuesTail : s'.runqueuesTail = s.runqueuesTail
  activePriorities : s'.activePriorities = s.activePriorities
  current : ∀ c, s'.current c = s.current c

theorem SameTasks.field {α : Type} (same : SameTasks s s') (field : Task → α) (t : Nat) :
    field (s'.tasks t) = field (s.tasks t) := by
  rw [same.tasks]

theorem Fifo.same (fifo : Fifo s queue enqueued now) (same : SameTasks s s') :
    Fifo s' queue enqueued now := by
  apply fifo.congr
  apply fifo.queued.congr
  · exact fun _ t _ => same.field Task.next t
  · exact fun _ t _ => same.field Task.prev t
  · exact fun _ t _ => same.field Task.priority t
  · exact same.runqueues
  · exact same.runqueuesTail
  · exact same.activePriorities

theorem Runs.same (runs : Runs s queue c self) (same : SameTasks s s') : Runs s' queue c self where
  ready := fun p t member => (same.field Task.state t).trans (runs.ready p t member)
  isCurrent := (same.current c).trans runs.isCurrent
  nonzero := runs.nonzero
  running := (same.field Task.state self).trans runs.running
  notIdle := fun isIdle => runs.notIdle ((same.field Task.priority self).symm.trans isIdle)
  small := by
    rw [show s'.priority self = s.priority self from same.field Task.priority self]
    exact runs.small

theorem SameTasks.setLock (s : State) (taken : Bool) : SameTasks s (s.setLock taken) :=
  ⟨rfl, rfl, rfl, rfl, fun _ => rfl⟩

theorem current_setTaskToFree {core : Core} :
    (s.setTaskToFree c t).current core = s.current core := by
  simp only [State.current, State.setTaskToFree, Function.update_apply]
  split
  · next here => rw [here]
  · rfl

/-- The queues once the caller is back in the queue of its priority. -/
def State.requeued (s : State) (queue : Nat → List Nat) (self : Nat) : Nat → List Nat :=
  pushTo queue (s.priority self) self

/-- `p` is the highest priority of the tasks in `queue`. -/
def IsTop (queue : Nat → List Nat) (p : Nat) : Prop := queue p ≠ [] ∧ ∀ q, p < q → queue q = []

/-- The caller and the queued tasks. -/
def Candidate (queue : Nat → List Nat) (self t : Nat) : Prop := t = self ∨ ∃ p, t ∈ queue p

/-- Of the caller and the queued tasks, `nextTask` has the highest priority and
was enqueued before all others of that priority. -/
structure NextTask (s : State) (queue : Nat → List Nat) (enqueued : Nat → Nat)
    (prevTask nextTask : Nat) : Prop where
  candidate : Candidate queue prevTask nextTask
  highest : ∀ t, Candidate queue prevTask t → s.priority t ≤ s.priority nextTask
  oldest : ∀ t, Candidate queue prevTask t → s.priority t = s.priority nextTask → t ≠ nextTask →
    enqueued nextTask < enqueued t

/-- The requeueing of the caller at the time `now`. -/
theorem Fifo.requeue (fifo : Fifo s queue enqueued now) (runs : Runs s queue c self) :
    Fifo (s.requeue self) (s.requeued queue self) (Function.update enqueued self now) (now + 1) := by
  have samePriority : (s.setState self .ready).priority self = s.priority self :=
    State.priority_setState
  have marked : Fifo (s.setState self .ready) queue enqueued now := by
    apply fifo.congr
    apply fifo.queued.congr
    · exact fun _ _ _ => State.next_setState
    · exact fun _ _ _ => State.prev_setState
    · exact fun _ _ _ => State.priority_setState
    · rfl
    · rfl
    · rfl
  have pushed := marked.enqueue runs.nonzero runs.unqueued (samePriority ▸ runs.small)
  rw [samePriority] at pushed
  rw [State.requeue, if_pos ⟨runs.nonzero, runs.running, runs.notIdle⟩]
  exact pushed

theorem Runs.state_requeue (runs : Runs s queue c self) :
    ∀ p, ∀ t ∈ s.requeued queue self p, (s.requeue self).state t = .ready := by
  intro p t member
  rw [State.requeue, if_pos ⟨runs.nonzero, runs.running, runs.notIdle⟩,
    State.state_schedEnqueueTask, State.state_setState]
  split
  · rfl
  · next other =>
      rw [State.requeued, pushTo, Function.update_apply] at member
      split at member
      · rcases List.mem_append.mp member with old | isSelf
        · exact runs.ready _ t old
        · exact absurd (List.mem_singleton.mp isSelf) other
      · exact runs.ready p t member

theorem priority_requeue : (s.requeue self).priority t = s.priority t := by
  unfold State.requeue
  split
  · rw [State.priority_schedEnqueueTask, State.priority_setState]
  · rfl

theorem current_requeue : (s.requeue self).current c = s.current c := by
  unfold State.requeue
  split
  · rw [State.current, State.cores_schedEnqueueTask]
    rfl
  · rfl

/-- The head of the highest queue, when the queues are not all empty. -/
theorem Queued.nextTask_of_top (queued : Queued s queue) (top : IsTop queue p) (c : Core) :
    (queue p).head? = some (s.nextTask c) := by
  rcases queued.nextTask_of_active (queued.activePriorities_ne_zero top.1) c with ⟨q, isNext, member, above⟩
  have same : q = p := by
    rcases Nat.lt_trichotomy q p with lower | same | higher
    · exact absurd (above p lower) top.1
    · exact same
    · rw [top.2 q higher] at member
      cases member
  rw [isNext, same, (queued.linked p).head_eq]
  rcases List.exists_cons_of_ne_nil top.1 with ⟨front, rest, isQueue⟩
  rw [isQueue]
  rfl

/-- The queues with the caller have a highest priority. -/
theorem Fifo.exists_top (fifo : Fifo s queue enqueued now) (nonempty : queue p ≠ []) :
    ∃ top, IsTop queue top := by
  have someBit := fifo.queued.activePriorities_ne_zero nonempty
  rcases fifo.queued.nextTask_of_active someBit 0 with ⟨top, -, member, above⟩
  exact ⟨top, List.ne_nil_of_mem member, above⟩

theorem mem_requeued (queued : Queued (s.requeue self) (s.requeued queue self)) :
    Candidate queue self t ↔ t ∈ s.requeued queue self (s.priority t) := by
  constructor
  · rintro (isSelf | ⟨q, member⟩)
    · rw [isSelf, State.requeued, pushTo, Function.update_self]
      simp
    · have inRequeued : t ∈ s.requeued queue self q := by
        rw [State.requeued, pushTo, Function.update_apply]
        split
        · next here =>
            rw [← here]
            exact List.mem_append_left _ member
        · exact member
      have own := queued.priority q t inRequeued
      rw [priority_requeue] at own
      rw [own]
      exact inRequeued
  · intro member
    rw [State.requeued, pushTo, Function.update_apply] at member
    split at member
    · rcases List.mem_append.mp member with old | isSelf
      · exact Or.inr ⟨_, old⟩
      · exact Or.inl (List.mem_singleton.mp isSelf)
    · exact Or.inr ⟨_, member⟩

/-- The head of the highest queue is the next task. -/
theorem Fifo.nextTask_of_head
    (fifo : Fifo (s.requeue self) (s.requeued queue self) enqueued now)
    (top : IsTop (s.requeued queue self) p)
    (isHead : (s.requeued queue self p).head? = some nextTask) :
    NextTask s queue enqueued self nextTask := by
  have ownPriority : s.priority nextTask = p := by
    rw [← priority_requeue]
    exact fifo.queued.priority p nextTask (List.mem_of_mem_head? isHead)
  refine ⟨?_, ?_, ?_⟩
  · rw [mem_requeued fifo.queued, ownPriority]
    exact List.mem_of_mem_head? isHead
  · intro t candidate
    rw [mem_requeued fifo.queued] at candidate
    rw [ownPriority]
    by_contra higher
    rw [top.2 _ (Nat.lt_of_not_le higher)] at candidate
    cases candidate
  · intro t candidate samePriority other
    rw [mem_requeued fifo.queued, samePriority, ownPriority] at candidate
    have ordered := fifo.ordered p
    rcases List.head?_eq_some_iff.mp isHead with ⟨rest, isQueue⟩
    rw [isQueue] at candidate ordered
    rcases List.mem_cons.mp candidate with isNext | behind
    · exact absurd isNext other
    · exact List.rel_of_pairwise_cons ordered behind

/-! ### One call -/

/-- The chosen task leaves its queue. -/
theorem Fifo.makeRunning (fifo : Fifo s queue enqueued now) (member : t ∈ queue p)
    (notIdle : s.priority t ≠ idlePriority) :
    Fifo (s.makeRunning t) (removeFrom queue p t) enqueued now := by
  rw [State.makeRunning, if_pos ⟨fifo.queued.ne_zero member, notIdle⟩]
  have dequeued := fifo.dequeue member
  apply dequeued.congr
  apply dequeued.queued.congr
  · exact fun _ _ _ => State.next_setState
  · exact fun _ _ _ => State.prev_setState
  · exact fun _ _ _ => State.priority_setState
  · rfl
  · rfl
  · rfl

theorem makeRunning_fields (nonzero : t ≠ 0) (notIdle : s.priority t ≠ idlePriority) :
    (∀ a, (s.makeRunning t).priority a = s.priority a) ∧
      (∀ a, (s.makeRunning t).state a = if a = t then .running else s.state a) ∧
      (s.makeRunning t).cores = s.cores := by
  rw [State.makeRunning, if_pos ⟨nonzero, notIdle⟩]
  refine ⟨?_, ?_, State.cores_schedDequeueTask⟩
  · intro a
    rw [State.priority_setState, State.priority_schedDequeueTask]
  · intro a
    rw [State.state_setState, State.state_schedDequeueTask]

theorem Fifo.afterSwitch (fifo : Fifo s queue enqueued now) :
    Fifo (s.afterSwitch c self nextTask caller) queue enqueued now := by
  rcases State.afterSwitch_queues s c self nextTask caller with ⟨heads, tails, active, -⟩
  apply fifo.congr
  apply fifo.queued.congr
  · exact fun _ _ _ => State.field_afterSwitch Task.next fun _ _ => rfl
  · exact fun _ _ _ => State.field_afterSwitch Task.prev fun _ _ => rfl
  · exact fun _ _ _ => State.field_afterSwitch Task.priority fun _ _ => rfl
  · exact heads
  · exact tails
  · exact active

/-- What the locked part of `sched_yield` leaves: `nextTask`, the head of the
highest queue with the caller in it, runs and has left its queue. -/
structure Yielded (s s' : State) (queue : Nat → List Nat) (enqueued : Nat → Nat) (now : Nat)
    (c : Core) (p prevTask nextTask : Nat) : Prop where
  isHead : (s.requeued queue prevTask p).head? = some nextTask
  priority : ∀ t, s'.priority t = s.priority t
  runs : Runs s' (removeFrom (s.requeued queue prevTask) p nextTask) c nextTask
  fifo : Fifo s' (removeFrom (s.requeued queue prevTask) p nextTask)
    (Function.update enqueued prevTask now) (now + 1)
  next : NextTask s queue (Function.update enqueued prevTask now) prevTask nextTask

/-- The task at the head of the top queue becomes the running one. -/
theorem Fifo.runs_makeRunning (fifo : Fifo s queue enqueued now)
    (ready : ∀ p, ∀ t ∈ queue p, s.state t = .ready) (member : t ∈ queue p)
    (notIdle : s.priority t ≠ idlePriority) :
    Runs ((s.makeRunning t).afterSwitch c (s.current c) t caller) (removeFrom queue p t) c t := by
  have nonzero := fifo.queued.ne_zero member
  rcases makeRunning_fields nonzero notIdle with ⟨priority, state, cores⟩
  have sameCurrent : (s.makeRunning t).current c = s.current c :=
    congrArg (fun cores => (cores c).task) cores
  have samePriority : ((s.makeRunning t).afterSwitch c (s.current c) t caller).priority t = p :=
    (State.field_afterSwitch Task.priority fun _ _ => rfl).trans
      ((priority t).trans (fifo.queued.priority p t member))
  have ownState : ∀ a, ((s.makeRunning t).afterSwitch c (s.current c) t caller).state a =
      if a = t then .running else s.state a := fun a =>
    (State.field_afterSwitch Task.state fun _ _ => rfl).trans (state a)
  refine ⟨?_, ?_, nonzero, ?_, ?_, ?_⟩
  · intro q a remaining
    rw [ownState, if_neg]
    · exact ready q a (QueuesOk.mem_of_removeFrom remaining)
    · rintro rfl
      rw [removeFrom, Function.update_apply] at remaining
      split at remaining
      · exact (fifo.queued.linked p).nodup.not_mem_erase remaining
      · next other => exact fifo.queued.notMem member other remaining
  · rw [State.current_afterSwitch sameCurrent, if_pos rfl]
  · rw [ownState, if_pos rfl]
  · rw [samePriority, ← fifo.queued.priority p t member]
    exact notIdle
  · rw [samePriority]
    exact fifo.queued.inRange member

theorem Fifo.yieldSwitch (fifo : Fifo m.sched queue enqueued now)
    (runs : Runs m.sched queue c self) (top : IsTop (m.sched.requeued queue self) p)
    (caller : Caller) :
    ∃ nextTask, Yielded m.sched (m.yieldSwitch c caller).sched queue enqueued now c p self
      nextTask := by
  have locked := SameTasks.setLock m.sched true
  have requeued := (fifo.same locked).requeue (runs.same locked)
  have isHead := requeued.queued.nextTask_of_top top c
  have ready := (runs.same locked).state_requeue
  have atCore : ((m.sched.setLock true).requeue self).current c = m.current c := current_requeue
  have sched := m.yieldSwitch_sched (c := c) caller
  rw [State.choose, show (m.sched.setLock true).current c = self from runs.isCurrent] at sched
  dsimp only at sched
  generalize ((m.sched.setLock true).requeue self).nextTask c = nextTask at isHead sched
  have member : nextTask ∈ m.sched.requeued queue self p := List.mem_of_mem_head? isHead
  have next := requeued.nextTask_of_head top isHead
  have samePriority : ∀ t, ((m.sched.setLock true).requeue self).priority t = m.sched.priority t :=
    fun t => priority_requeue
  have notIdle : ((m.sched.setLock true).requeue self).priority nextTask ≠ idlePriority := by
    have above := next.highest self (Or.inl rfl)
    have callerNotIdle := (runs.same locked).notIdle
    rw [priority_requeue]
    simp only [idlePriority] at callerNotIdle ⊢
    omega
  refine ⟨nextTask, isHead, ?_, ?_, ?_, next.candidate, next.highest, next.oldest⟩
  · intro t
    rw [sched]
    exact (State.field_afterSwitch Task.priority fun _ _ => rfl).trans
      (((makeRunning_fields (requeued.queued.ne_zero member) notIdle).1 t).trans (samePriority t))
  · rw [sched, ← atCore]
    exact requeued.runs_makeRunning ready member notIdle
  · rw [sched]
    exact (requeued.makeRunning member notIdle).afterSwitch

/-! ### Turns -/

/-- A step of core `c` inside a call of `sched_yield`, between two calls, or in
a `pthread_join` that does not wait: it creates, blocks and ends no task. -/
def Yields (c : Core) (transition : Transition Machine Action) : Prop :=
  match transition.label with
  | .join c' call => c' = c ∧ transition.source.sched.state call.target = .exited
  | .joinTest c' | .joinReturn c' | .callYield c' | .yieldEnter c' | .yieldSwitch c' | .unlock c'
  | .forkUnlock c' => c' = c
  | _ => False

/-- The task that a call of `sched_yield` on core `c` runs. -/
def turn (c : Core) (transition : Transition Machine Action) : Option Nat :=
  if transition.label = .yieldSwitch c then some (transition.target.current c) else none

/-- The tasks that the calls of `sched_yield` on core `c` run, in order. -/
def turns (c : Core) (path : List (Transition Machine Action)) : List Nat :=
  path.filterMap (turn c)

/-- After `count` calls the tasks of priority `p`, the running one enqueued
last, are `order` turned `count` times, and no queue above holds a task. -/
def Turned (c : Core) (p : Nat) (order : List Nat) (count : Nat) (m : Machine) : Prop :=
  ∃ queue enqueued now self, Fifo m.sched queue enqueued now ∧ Runs m.sched queue c self ∧
    IsTop (m.sched.requeued queue self) p ∧ m.sched.requeued queue self p = order.rotate count

theorem Turned.sameTasks {order : List Nat} {count : Nat} (turned : Turned c p order count m)
    (same : SameTasks m.sched m'.sched) : Turned c p order count m' := by
  rcases turned with ⟨queue, enqueued, now, self, fifo, runs, top, isOrder⟩
  have samePriority : m'.sched.priority self = m.sched.priority self :=
    same.field Task.priority self
  have sameQueues : m'.sched.requeued queue self = m.sched.requeued queue self := by
    rw [State.requeued, samePriority]
    rfl
  rw [← sameQueues] at top isOrder
  exact ⟨queue, enqueued, now, self, fifo.same same, runs.same same, top, isOrder⟩

/-- A call runs the front of the turned order, which goes to its end. -/
theorem Turned.yieldSwitch {order : List Nat} {count : Nat} (turned : Turned c p order count m)
    (caller : Caller) :
    ∃ rest, order.rotate count = (m.yieldSwitch c caller).current c :: rest ∧
      Turned c p order (count + 1) (m.yieldSwitch c caller) := by
  rcases turned with ⟨queue, enqueued, now, self, fifo, runs, top, isOrder⟩
  rcases fifo.yieldSwitch runs top caller with ⟨nextTask, yielded⟩
  rcases List.head?_eq_some_iff.mp yielded.isHead with ⟨rest, isQueue⟩
  have isFront : order.rotate count = nextTask :: rest := isOrder.symm.trans isQueue
  have member : nextTask ∈ m.sched.requeued queue self p := List.mem_of_mem_head? yielded.isHead
  have ownPriority : (m.yieldSwitch c caller).sched.priority nextTask = p := by
    rw [yielded.priority]
    have locked := SameTasks.setLock m.sched true
    have requeued := (fifo.same locked).requeue (runs.same locked)
    have inQueue := requeued.queued.priority p nextTask member
    rw [priority_requeue] at inQueue
    exact inQueue
  have after : (m.yieldSwitch c caller).sched.requeued
      (removeFrom (m.sched.requeued queue self) p nextTask) nextTask =
        Function.update (m.sched.requeued queue self) p (rest ++ [nextTask]) := by
    rw [State.requeued, ownPriority, pushTo, removeFrom, Function.update_self, isQueue,
      List.erase_cons_head, Function.update_idem]
  refine ⟨rest, ?_, _, _, _, nextTask, yielded.fifo, yielded.runs, ⟨?_, ?_⟩, ?_⟩
  · rw [isFront]
    exact congrArg (· :: rest) yielded.runs.isCurrent.symm
  · rw [after, Function.update_self]
    simp
  · intro q above
    rw [after, Function.update_of_ne (Nat.ne_of_gt above)]
    exact top.2 q above
  · rw [after, Function.update_self, rotate_succ_of_cons isFront]

/-- The other steps inside and between the calls leave the tasks alone. -/
theorem sameTasks_of_yields (taken : Step m action m') (yields : Yields c ⟨m, action, m'⟩)
    (noSwitch : action ≠ .yieldSwitch c) : SameTasks m.sched m'.sched := by
  cases taken with
  | initSecondary => exact absurd yields id
  | create => exact absurd yields id
  | createEnqueue => exact absurd yields id
  | @join c' call here lockFree handle =>
      rcases yields with ⟨rfl, isExited⟩
      have exited : (m.sched.setLock true).state call.target = .exited := isExited
      have done : m.join c' call =
          (m.setSched (m.sched.setLock true)).setPc c' (.unlock (.joinDone call)) := by
        rw [Machine.join, if_neg (not_not_intro exited)]
      rw [done]
      exact SameTasks.setLock _ true
  | joinTest here =>
      unfold Machine.joinTest
      split <;> exact ⟨rfl, rfl, rfl, rfl, fun _ => rfl⟩
  | joinReturn here =>
      unfold Machine.joinReturn
      dsimp only
      split <;> exact ⟨rfl, rfl, rfl, rfl, fun _ => rfl⟩
  | exit => exact absurd yields id
  | exitWake => exact absurd yields id
  | callYield here => exact ⟨rfl, rfl, rfl, rfl, fun _ => rfl⟩
  | yieldEnter here =>
      unfold Machine.yieldEnter
      dsimp only
      split
      · exact ⟨rfl, rfl, rfl, rfl, fun _ => current_setTaskToFree⟩
      · exact ⟨rfl, rfl, rfl, rfl, fun _ => rfl⟩
  | yieldSwitch here lockFree => exact absurd (congrArg Action.yieldSwitch yields) noSwitch
  | @unlock _ after here =>
      cases after <;> exact SameTasks.setLock _ false
  | forkUnlock here => exact SameTasks.setLock _ false

theorem Turned.run {order : List Nat} (turned : Turned c p order 0 m)
    (run : Execution Step m path last) (yields : ∀ transition ∈ path, Yields c transition) :
    Turned c p order (turns c path).length last ∧ RoundRobin order (turns c path) ∧
      last.current c = (turns c path).getLastD (m.current c) := by
  induction run with
  | nil => exact ⟨turned, RoundRobin.nil order, rfl⟩
  | @snoc path middle last action before taken inductionHypothesis =>
      rw [List.forall_mem_append, List.forall_mem_singleton] at yields
      rcases inductionHypothesis yields.1 with ⟨earlier, taking, isLast⟩
      have appended : turns c (path ++ [⟨middle, action, last⟩]) =
          turns c path ++ (turn c ⟨middle, action, last⟩).toList := by
        rw [turns, List.filterMap_append]
        rfl
      by_cases switches : action = .yieldSwitch c
      · subst switches
        rw [appended, turn, if_pos rfl]
        cases taken with
        | @yieldSwitch _ caller here lockFree =>
            rcases earlier.yieldSwitch caller with ⟨rest, isFront, later⟩
            refine ⟨?_, taking.snoc isFront, ?_⟩
            · rw [Option.toList_some, List.length_append, List.length_singleton]
              exact later
            · simp
      · rw [appended, turn, if_neg switches, Option.toList_none, List.append_nil]
        have same := sameTasks_of_yields taken yields.2 switches
        exact ⟨earlier.sameTasks same, taking, (same.current c).trans isLast⟩

/-- The calls of `sched_yield` on core `c` in the runs from `m` let the tasks
`order` take turns, and no other task. -/
def TakeTurns (m : Machine) (c : Core) (order : List Nat) : Prop :=
  ∀ path last, Execution Step m path last → (∀ transition ∈ path, Yields c transition) →
    RoundRobin order (turns c path) ∧
      (∀ first, first + order.length ≤ (turns c path).length →
        (((turns c path).drop first).take order.length).Perm order) ∧
      last.current c = (turns c path).getLastD (m.current c)

/-- A running caller above `IDLE` is followed by the task of the highest
priority that was enqueued first. From then on the tasks of that priority take
turns as long as none is created, blocked or ended. -/
theorem yields_to_oldest_and_takeTurns (fifo : Fifo m.sched queue enqueued now)
    (runs : Runs m.sched queue c self) :
    (∀ caller, ∃ queue',
      NextTask m.sched queue (Function.update enqueued self now) self
        ((m.yieldSwitch c caller).current c) ∧
      Runs (m.yieldSwitch c caller).sched queue' c ((m.yieldSwitch c caller).current c) ∧
      Fifo (m.yieldSwitch c caller).sched queue' (Function.update enqueued self now) (now + 1)) ∧
    ∃ top, IsTop (m.sched.requeued queue self) top ∧
      (m.sched.requeued queue self top).Nodup ∧
      (∀ t, t ∈ m.sched.requeued queue self top ↔
        Candidate queue self t ∧ m.sched.priority t = top) ∧
      (∀ t, Candidate queue self t → m.sched.priority t ≤ top) ∧
      TakeTurns m c (m.sched.requeued queue self top) := by
  have locked := SameTasks.setLock m.sched true
  have requeued := (fifo.same locked).requeue (runs.same locked)
  have nonempty : m.sched.requeued queue self (m.sched.priority self) ≠ [] :=
    List.ne_nil_of_mem ((mem_requeued requeued.queued).mp (Or.inl rfl))
  rcases requeued.exists_top nonempty with ⟨top, isTop⟩
  refine ⟨?_, top, isTop, (requeued.queued.linked top).nodup, ?_, ?_, ?_⟩
  · intro caller
    rcases fifo.yieldSwitch runs isTop caller with ⟨nextTask, yielded⟩
    have isCurrent : (m.yieldSwitch c caller).current c = nextTask := yielded.runs.isCurrent
    rw [isCurrent]
    exact ⟨_, yielded.next, yielded.runs, yielded.fifo⟩
  · intro t
    rw [mem_requeued requeued.queued]
    constructor
    · intro member
      have own := requeued.queued.priority top t member
      rw [priority_requeue] at own
      refine ⟨?_, own⟩
      rw [show (m.sched.setLock true).priority t = top from own]
      exact member
    · rintro ⟨member, own⟩
      rw [← own]
      exact member
  · intro t candidate
    rw [mem_requeued requeued.queued] at candidate
    by_contra higher
    have empty : m.sched.requeued queue self (m.sched.priority t) = [] :=
      isTop.2 _ (Nat.lt_of_not_le higher)
    rw [show (m.sched.setLock true).requeued queue self ((m.sched.setLock true).priority t) = []
      from empty] at candidate
    cases candidate
  · intro path last run yields
    have turned : Turned c top (m.sched.requeued queue self top) 0 m :=
      ⟨queue, enqueued, now, self, fifo, runs, isTop, (List.rotate_zero _).symm⟩
    rcases turned.run run yields with ⟨-, taking, isLast⟩
    exact ⟨taking, fun first inside => taking.window_perm inside, isLast⟩

/-- Main has created a thread, which waits in the runqueue. The two take turns. -/
theorem takeTurns_two_tasks : ∃ m path last, Execution Step m path last ∧
    turns 0 path = [30, 20, 30] ∧ TakeTurns m 0 [30, 20] := by
  let made := Machine.booted.create 0 none (blocksFrom 30)
  let start := made.createEnqueue 0 30
  have none : Fifo (made.sched.setLock true) (fun _ => []) (fun _ => 0) 0 := Fifo.empty rfl rfl rfl
  have waiting : Fifo start.sched (pushTo (fun _ => []) 2 30) (Function.update (fun _ => 0) 30 0) 1 :=
    none.enqueue (by decide) (fun _ => List.not_mem_nil) (by decide)
  have runs : Runs start.sched (pushTo (fun _ => []) 2 30) 0 20 := by
    refine ⟨?_, by decide, by decide, by decide, by decide, by decide⟩
    intro p t member
    rw [pushTo, Function.update_apply] at member
    split at member
    · rw [List.mem_singleton.mp member]
      decide
    · cases member
  rcases Machine.exists_run start
    [.unlock 0, .callYield 0, .yieldEnter 0, .yieldSwitch 0, .forkUnlock 0, .callYield 0,
      .yieldEnter 0, .yieldSwitch 0, .unlock 0, .callYield 0, .yieldEnter 0, .yieldSwitch 0]
    (fun path _ => decide (turns 0 path = [30, 20, 30])) (by decide +kernel)
    with ⟨path, last, run, holds⟩
  rcases (yields_to_oldest_and_takeTurns waiting runs).2 with ⟨top, isTop, -, -, -, takes⟩
  have queues : start.sched.requeued (pushTo (fun _ => []) 2 30) 20 =
      Function.update (fun _ => []) 2 [30, 20] := by
    have priority : start.sched.priority 20 = 2 := by decide
    rw [State.requeued, priority, pushTo, pushTo, Function.update_self, Function.update_idem]
    rfl
  rw [queues] at isTop takes
  have isNormal : top = 2 := by
    by_contra other
    exact isTop.1 (Function.update_of_ne other _ _)
  rw [isNormal, Function.update_self] at takes
  exact ⟨start, path, last, run, of_decide_eq_true holds, takes⟩

end UniKernel.Pthread
