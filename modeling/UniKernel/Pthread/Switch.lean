import UniKernel.Pthread.Invariant

/-!
Owns the locked part of `sched_yield`: which task it chooses, and that the
invariant holds again behind the switch. There are three choices: the head of a
runqueue, the caller again because it was running, and the caller because every
runqueue is empty, whatever its state.
-/

namespace UniKernel.Pthread

open UniKernel.Lib

variable {s s' : State} {live : Nat → Bool} {queue : Nat → List Nat} {c : Core} {t self : Nat}

/-- The fields of a task other than its links and its state. -/
def Task.kept (task : Task) : Task := { task with state := .running, next := 0, prev := 0 }

namespace State

variable {a value : Nat} {state : TaskState} {context : Context}

@[simp] theorem state_setState :
    (s.setState t state).state a = if a = t then state else s.state a := by
  simp only [State.state, setState, tasks_setTask]
  split <;> rfl

@[simp] theorem next_setState : (s.setState t state).next a = s.next a :=
  field_setTask Task.next rfl

@[simp] theorem prev_setState : (s.setState t state).prev a = s.prev a :=
  field_setTask Task.prev rfl

@[simp] theorem priority_setState : (s.setState t state).priority a = s.priority a :=
  field_setTask Task.priority rfl

theorem kept_setState : ((s.setState t state).tasks a).kept = (s.tasks a).kept :=
  field_setTask Task.kept rfl

theorem kept_schedEnqueueTask : ((s.schedEnqueueTask t).tasks a).kept = (s.tasks a).kept :=
  field_schedEnqueueTask Task.kept fun _ => rfl

theorem kept_schedDequeueTask : ((s.schedDequeueTask t).tasks a).kept = (s.tasks a).kept :=
  field_schedDequeueTask Task.kept fun _ => rfl

end State

namespace QueuesOk

theorem zero_unqueued (queues : QueuesOk s live queue) : ∀ p, 0 ∉ queue p :=
  fun _ member => queues.queued.ne_zero member rfl

/-- Only the state of a task outside the queues changes. -/
theorem setState (queues : QueuesOk s live queue) (unqueued : ∀ p, t ∉ queue p)
    (state : TaskState) : QueuesOk (s.setState t state) live queue := by
  apply queues.congr
  · exact fun _ _ _ => State.next_setState
  · exact fun _ => State.prev_setState
  · exact fun _ => State.priority_setState
  · rfl
  · rfl
  · rfl
  · intro p a member
    have other : a ≠ t := fun same => unqueued p (same ▸ member)
    rw [State.state_setState, if_neg other]
    exact queues.ready p a member

theorem enqueue (queues : QueuesOk s live queue) (nonzero : t ≠ 0) (unqueued : ∀ p, t ∉ queue p)
    (ready : s.state t = .ready) (isLive : live t = true) (notIdle : s.priority t ≠ idlePriority) :
    QueuesOk (s.schedEnqueueTask t) live (pushTo queue (s.priority t) t) := by
  have cases : ∀ p a, a ∈ pushTo queue (s.priority t) t p → a ∈ queue p ∨ a = t := by
    intro p a member
    by_cases here : p = s.priority t
    · subst here
      simpa [pushTo] using member
    · rw [pushTo, Function.update_of_ne here] at member
      exact Or.inl member
  exact {
    queued := queues.queued.enqueue nonzero unqueued (queues.small t)
    ready := by
      intro p a member
      rw [State.state_schedEnqueueTask]
      rcases cases p a member with old | rfl
      · exact queues.ready p a old
      · exact ready
    live := by
      intro p a member
      rcases cases p a member with old | rfl
      · exact queues.live p a old
      · exact isLive
    notIdle := by
      rw [pushTo, Function.update_of_ne (Ne.symm notIdle)]
      exact queues.notIdle
    small := by
      intro a
      rw [State.priority_schedEnqueueTask]
      exact queues.small a
    unqueuedPrev := by
      intro a nowhere
      have before : ∀ p, a ∉ queue p := by
        intro p member
        apply nowhere p
        rw [pushTo, Function.update_apply]
        split
        · next here => rw [← here]; exact List.mem_append_left _ member
        · exact member
      rw [State.prev_schedEnqueueTask, if_neg]
      · exact queues.unqueuedPrev a before
      · intro same
        apply nowhere (s.priority t)
        rw [same, pushTo, Function.update_self]
        simp }

theorem mem_of_removeFrom {prio p a : Nat} (member : a ∈ removeFrom queue prio t p) :
    a ∈ queue p := by
  rw [removeFrom, Function.update_apply] at member
  split at member
  · next here => rw [here]; exact List.mem_of_mem_erase member
  · exact member

theorem mem_removeFrom {prio p a : Nat} (member : a ∈ queue p) (other : a ≠ t) :
    a ∈ removeFrom queue prio t p := by
  rw [removeFrom, Function.update_apply]
  split
  · next here =>
      rw [here] at member
      exact (List.mem_erase_of_ne other).mpr member
  · exact member

theorem mem_pushTo {prio p a : Nat} (member : a ∈ queue p) : a ∈ pushTo queue prio t p := by
  rw [pushTo, Function.update_apply]
  split
  · next here =>
      rw [here] at member
      exact List.mem_append_left _ member
  · exact member

theorem notMem_removeFrom (queues : QueuesOk s live queue) {prio p : Nat} (member : t ∈ queue prio) :
    t ∉ removeFrom queue prio t p := by
  rw [removeFrom, Function.update_apply]
  split
  · exact (queues.queued.linked prio).nodup.not_mem_erase
  · next other => exact queues.queued.notMem member other

theorem dequeue (queues : QueuesOk s live queue) {prio : Nat} (member : t ∈ queue prio) :
    QueuesOk (s.schedDequeueTask t) live (removeFrom queue prio t) where
  queued := queues.queued.dequeue member
  ready := by
    intro p a remaining
    rw [State.state_schedDequeueTask]
    exact queues.ready p a (mem_of_removeFrom remaining)
  live := fun p a remaining => queues.live p a (mem_of_removeFrom remaining)
  notIdle := by
    apply List.eq_nil_iff_forall_not_mem.mpr
    intro a remaining
    have before := mem_of_removeFrom remaining
    rw [queues.notIdle] at before
    cases before
  small := by
    intro a
    rw [State.priority_schedDequeueTask]
    exact queues.small a
  unqueuedPrev := by
    intro a nowhere
    rw [State.prev_schedDequeueTask]
    split
    · rfl
    · next notSelf =>
        have before : ∀ p, a ∉ queue p := by
          intro p inQueue
          apply nowhere p
          rw [removeFrom, Function.update_apply]
          split
          · next here => exact (List.mem_erase_of_ne notSelf).mpr (here ▸ inQueue)
          · exact inQueue
        rw [if_neg]
        · exact queues.unqueuedPrev a before
        · rintro ⟨hasNext, isNext⟩
          apply before prio
          rw [isNext]
          exact (queues.queued.linked prio).next_mem member hasNext

theorem dequeueOutside (queues : QueuesOk s live queue) (nonzero : t ≠ 0)
    (unqueued : ∀ p, t ∉ queue p) (nextFirst : s.prev (s.next t) = 0) :
    QueuesOk (s.schedDequeueTask t) live queue := by
  have noPrev := queues.unqueuedPrev t unqueued
  exact {
    queued := queues.queued.dequeueOutside nonzero unqueued noPrev nextFirst
    ready := by
      intro p a member
      rw [State.state_schedDequeueTask]
      exact queues.ready p a member
    live := queues.live
    notIdle := queues.notIdle
    small := by
      intro a
      rw [State.priority_schedDequeueTask]
      exact queues.small a
    unqueuedPrev := by
      intro a nowhere
      rw [State.prev_schedDequeueTask]
      split_ifs
      · rfl
      · exact noPrev
      · exact queues.unqueuedPrev a nowhere }

end QueuesOk

/-! ### The choice -/

/-- What one operation on the runqueues does: `s` becomes `s'`, the queues
become `queue'`, and of the tasks outside the queues only `touched` changes its
links or its state. -/
structure Requeues (s s' : State) (live : Nat → Bool) (queue queue' : Nat → List Nat)
    (touched : Nat → Prop) : Prop where
  queues : QueuesOk s' live queue'
  origin : ∀ p, ∀ a ∈ queue' p, (∃ q, a ∈ queue q) ∨ touched a
  kept : ∀ a, (s'.tasks a).kept = (s.tasks a).kept
  state : ∀ a, ¬ touched a → s'.state a = s.state a
  next : ∀ a, (∀ p, a ∉ queue p) → ¬ touched a → s'.next a = s.next a
  cores : s'.cores = s.cores
  schedLock : s'.schedLock = s.schedLock

namespace Requeues

variable {s'' : State} {queue' queue'' : Nat → List Nat} {touched touched' : Nat → Prop}

theorem trans (first : Requeues s s' live queue queue' touched)
    (second : Requeues s' s'' live queue' queue'' touched') :
    Requeues s s'' live queue queue'' (fun a => touched a ∨ touched' a) where
  queues := second.queues
  origin := by
    intro p a member
    rcases second.origin p a member with ⟨q, earlier⟩ | touches
    · rcases first.origin q a earlier with before | touches
      · exact Or.inl before
      · exact Or.inr (Or.inl touches)
    · exact Or.inr (Or.inr touches)
  kept := fun a => (second.kept a).trans (first.kept a)
  state := fun a other =>
    (second.state a fun touches => other (Or.inr touches)).trans
      (first.state a fun touches => other (Or.inl touches))
  next := by
    intro a nowhere other
    have untouched : ¬ touched a := fun touches => other (Or.inl touches)
    rw [second.next a _ fun touches => other (Or.inr touches)]
    · exact first.next a nowhere untouched
    · intro p member
      rcases first.origin p a member with ⟨q, before⟩ | touches
      · exact nowhere q before
      · exact untouched touches
  cores := second.cores.trans first.cores
  schedLock := second.schedLock.trans first.schedLock

theorem weaken (step : Requeues s s' live queue queue' touched)
    (wider : ∀ a, touched a → touched' a) : Requeues s s' live queue queue' touched' where
  queues := step.queues
  origin := fun p a member => (step.origin p a member).imp_right (wider a)
  kept := step.kept
  state := fun a other => step.state a fun touches => other (wider a touches)
  next := fun a nowhere other => step.next a nowhere fun touches => other (wider a touches)
  cores := step.cores
  schedLock := step.schedLock

end Requeues

/-- Enqueueing a task that is in no queue. -/
theorem enqueue_ok (queues : QueuesOk s live queue) (nonzero : t ≠ 0)
    (unqueued : ∀ p, t ∉ queue p) (ready : s.state t = .ready) (isLive : live t = true)
    (notIdle : s.priority t ≠ idlePriority) :
    Requeues s (s.schedEnqueueTask t) live queue (pushTo queue (s.priority t) t) (· = t) where
  queues := queues.enqueue nonzero unqueued ready isLive notIdle
  origin := by
    intro p a member
    rw [pushTo, Function.update_apply] at member
    split at member
    · rcases List.mem_append.mp member with old | new
      · exact Or.inl ⟨_, old⟩
      · exact Or.inr (List.mem_singleton.mp new)
    · exact Or.inl ⟨p, member⟩
  kept := fun a => State.kept_schedEnqueueTask
  state := fun a _ => State.state_schedEnqueueTask
  next := by
    intro a nowhere other
    rw [State.next_schedEnqueueTask, if_neg, if_neg other]
    rintro ⟨someHead, isTail⟩
    apply nowhere (s.priority t)
    rw [isTail]
    apply (queues.queued.linked _).tail_mem
    exact fun isEmpty => someHead ((queues.queued.linked _).head_eq_zero_iff.mpr isEmpty)
  cores := State.cores_schedEnqueueTask
  schedLock := State.schedLock_schedEnqueueTask

/-- A task outside the queues gets another state. -/
theorem setState_ok (queues : QueuesOk s live queue) (unqueued : ∀ p, t ∉ queue p)
    (state : TaskState) : Requeues s (s.setState t state) live queue queue (· = t) where
  queues := queues.setState unqueued state
  origin := fun p a member => Or.inl ⟨p, member⟩
  kept := fun a => State.kept_setState
  state := by
    intro a other
    rw [State.state_setState, if_neg other]
  next := fun a _ _ => State.next_setState
  cores := rfl
  schedLock := rfl

/-- The requeueing of a running caller. -/
theorem requeue_ok (queues : QueuesOk s live queue) (nonzero : self ≠ 0)
    (unqueued : ∀ p, self ∉ queue p) (isLive : live self = true)
    (running : s.state self = .running) (notIdle : s.priority self ≠ idlePriority) :
    Requeues s (s.requeue self) live queue (pushTo queue (s.priority self) self) (· = self) := by
  have marked := setState_ok queues unqueued .ready
  have samePriority : (s.setState self .ready).priority self = s.priority self :=
    State.priority_setState
  have enqueued := enqueue_ok marked.queues nonzero unqueued
    (by rw [State.state_setState, if_pos rfl]) isLive (samePriority ▸ notIdle)
  rw [samePriority] at enqueued
  rw [State.requeue, if_pos ⟨nonzero, running, notIdle⟩]
  exact (marked.trans enqueued).weaken fun a either => either.elim id id

/-- A member of a queue becomes the running task. -/
theorem makeRunning_member (queues : QueuesOk s live queue) {p : Nat} (member : t ∈ queue p) :
    Requeues s (s.makeRunning t) live queue (removeFrom queue p t) (· = t) ∧
      (s.makeRunning t).state t = .running ∧ (s.makeRunning t).next t = 0 := by
  have notIdle : s.priority t ≠ idlePriority := by
    intro isIdle
    rw [queues.queued.priority p t member] at isIdle
    rw [isIdle, queues.notIdle] at member
    cases member
  have made : s.makeRunning t = (s.schedDequeueTask t).setState t .running := by
    rw [State.makeRunning, if_pos ⟨queues.queued.ne_zero member, notIdle⟩]
  rw [made]
  refine ⟨⟨?_, ?_, ?_, ?_, ?_, ?_, ?_⟩, ?_, ?_⟩
  · exact (queues.dequeue member).setState (fun _ => queues.notMem_removeFrom member) .running
  · exact fun q a remaining => Or.inl ⟨q, QueuesOk.mem_of_removeFrom remaining⟩
  · exact fun a => State.kept_setState.trans State.kept_schedDequeueTask
  · intro a other
    rw [State.state_setState, if_neg other, State.state_schedDequeueTask]
  · intro a nowhere other
    rw [State.next_setState, State.next_schedDequeueTask, if_neg other, if_neg]
    rintro ⟨hasPrev, isPrev⟩
    apply nowhere p
    rw [isPrev]
    exact (queues.queued.linked p).prev_mem member hasPrev
  · exact State.cores_schedDequeueTask
  · exact State.schedLock_schedDequeueTask
  · rw [State.state_setState, if_pos rfl]
  · rw [State.next_setState, State.next_schedDequeueTask, if_pos rfl]

/-- With every queue empty the caller becomes the running task. -/
theorem makeRunning_outside (queues : QueuesOk s live queue) (nonzero : t ≠ 0)
    (empty : ∀ p, queue p = []) :
    Requeues s (s.makeRunning t) live queue queue (· = t) ∧
      (s.makeRunning t).state t = .running ∧
      ((s.makeRunning t).next t = 0 ∨ (s.makeRunning t).next t = s.next t) ∧
      (s.priority t = idlePriority → (s.makeRunning t).next t = s.next t) := by
  have nowhere : ∀ a p, a ∉ queue p := by
    intro a p
    rw [empty p]
    exact List.not_mem_nil
  by_cases isIdle : s.priority t = idlePriority
  · have made : s.makeRunning t = s.setState t .running := by
      rw [State.makeRunning, if_neg (fun both => both.2 isIdle), if_pos nonzero]
    rw [made]
    refine ⟨⟨?_, ?_, ?_, ?_, ?_, ?_, ?_⟩, ?_, ?_, ?_⟩
    · exact queues.setState (nowhere t) .running
    · exact fun p a member => absurd member (nowhere a p)
    · exact fun a => State.kept_setState
    · intro a other
      rw [State.state_setState, if_neg other]
    · exact fun a _ _ => State.next_setState
    · rfl
    · rfl
    · rw [State.state_setState, if_pos rfl]
    · exact Or.inr State.next_setState
    · exact fun _ => State.next_setState
  · have made : s.makeRunning t = (s.schedDequeueTask t).setState t .running := by
      rw [State.makeRunning, if_pos ⟨nonzero, isIdle⟩]
    have nextFirst := queues.unqueuedPrev (s.next t) (nowhere _)
    have noPrev := queues.unqueuedPrev t (nowhere t)
    rw [made]
    refine ⟨⟨?_, ?_, ?_, ?_, ?_, ?_, ?_⟩, ?_, ?_, ?_⟩
    · exact (queues.dequeueOutside nonzero (nowhere t) nextFirst).setState (nowhere t) .running
    · exact fun p a member => absurd member (nowhere a p)
    · exact fun a => State.kept_setState.trans State.kept_schedDequeueTask
    · intro a other
      rw [State.state_setState, if_neg other, State.state_schedDequeueTask]
    · intro a _ other
      rw [State.next_setState, State.next_schedDequeueTask, if_neg other,
        if_neg (fun both => both.1 noPrev)]
    · exact State.cores_schedDequeueTask
    · exact State.schedLock_schedDequeueTask
    · rw [State.state_setState, if_pos rfl]
    · rw [State.next_setState, State.next_schedDequeueTask, if_pos rfl]
      exact Or.inl rfl
    · exact fun idle => absurd idle isIdle

/-- How `sched_yield` came to its next task. -/
inductive Choice (s : State) (queue : Nat → List Nat) (self nextTask : Nat) : Prop where
  | queued (p : Nat) (member : nextTask ∈ queue p) (isHead : nextTask = s.runqueues p)
  | again (same : nextTask = self) (running : s.state self = .running)
  | fallback (same : nextTask = self) (notRunning : s.state self ≠ .running)
      (empty : ∀ p, queue p = [])

theorem Choice.origin {nextTask : Nat} (choice : Choice s queue self nextTask) :
    (∃ p, nextTask ∈ queue p) ∨ nextTask = self := by
  rcases choice with ⟨p, member, -⟩ | ⟨same, -⟩ | ⟨same, -, -⟩
  · exact Or.inl ⟨p, member⟩
  · exact Or.inr same
  · exact Or.inr same

/-- The state behind the choice. -/
structure Chosen (s s' : State) (live : Nat → Bool) (queue queue' : Nat → List Nat)
    (prevTask nextTask : Nat) : Prop where
  step : Requeues s s' live queue queue' (fun a => a = prevTask ∨ a = nextTask)
  choice : Choice s queue prevTask nextTask
  unqueued : ∀ p, nextTask ∉ queue' p
  origin : ∀ p, prevTask ∈ queue' p → s.state prevTask = .running
  prevState : nextTask ≠ prevTask →
    s'.state prevTask = s.state prevTask ∨
      s.state prevTask = .running ∧ s.priority prevTask ≠ idlePriority ∧ s'.state prevTask = .ready
  prevNext : nextTask ≠ prevTask ∧ s.state prevTask ≠ .running ∨
    s.priority prevTask = idlePriority → s'.next prevTask = s.next prevTask
  running : s'.state nextTask = .running
  next : s'.next nextTask = 0 ∨ (nextTask = prevTask ∧ s'.next nextTask = s.next nextTask)

/-- No task becomes exited by a choice. -/
theorem Chosen.notExited {queue' : Nat → List Nat} {nextTask : Nat}
    (chosen : Chosen s s' live queue queue' self nextTask) (exited : s'.state t = .exited) :
    s.state t = .exited := by
  by_cases isNext : t = nextTask
  · rw [isNext, chosen.running] at exited
    cases exited
  · by_cases isSelf : t = self
    · subst isSelf
      rcases chosen.prevState (Ne.symm isNext) with same | ⟨-, -, ready⟩
      · exact same.symm.trans exited
      · rw [ready] at exited
        cases exited
    · rw [← chosen.step.state t fun either => either.elim isSelf isNext]
      exact exited

/-- Behind the choice the queues hold what they held, and a running caller. -/
theorem Chosen.remaining {queue' : Nat → List Nat} {nextTask p a : Nat}
    (chosen : Chosen s s' live queue queue' self nextTask) (member : a ∈ queue' p) :
    (∃ q, a ∈ queue q) ∨ (a = self ∧ s.state self = .running) := by
  rcases chosen.step.origin p a member with before | isSelf | isNext
  · exact Or.inl before
  · exact Or.inr ⟨isSelf, chosen.origin p (isSelf ▸ member)⟩
  · exact absurd (isNext ▸ member) (chosen.unqueued p)

theorem Chosen.stillUnqueued {queue' : Nat → List Nat} {nextTask a : Nat}
    (chosen : Chosen s s' live queue queue' self nextTask) (unqueued : ∀ p, a ∉ queue p)
    (notSelf : a ≠ self) (p : Nat) : a ∉ queue' p := by
  intro member
  rcases chosen.remaining member with ⟨q, before⟩ | ⟨isSelf, -⟩
  · exact unqueued q before
  · exact notSelf isSelf

/-- A choice leaves the fields other than the links and the states alone. -/
theorem Chosen.field {α : Type} {queue' : Nat → List Nat} {nextTask : Nat}
    (chosen : Chosen s s' live queue queue' self nextTask) (field : Task → α)
    (noLink : ∀ task, field task.kept = field task) (a : Nat) :
    field (s'.tasks a) = field (s.tasks a) := by
  rw [← noLink, chosen.step.kept a, noLink]

/-- A choice that leaves every other task queued; none of them has a higher priority. -/
structure ChosenHighest (s s' : State) (live : Nat → Bool) (queue queue' : Nat → List Nat)
    (self nextTask : Nat) : Prop where
  chosen : Chosen s s' live queue queue' self nextTask
  stay : ∀ p, ∀ a ∈ queue p, a ≠ nextTask → a ∈ queue' p
  highest : ∀ p, ∀ a ∈ queue p, s.priority a ≤ s.priority nextTask

/-- The heads of the queues behind `schedEnqueueTask` of the caller. -/
theorem runqueues_requeue (p : Nat) :
    (s.requeue self).runqueues p = self ∨ (s.requeue self).runqueues p = s.runqueues p := by
  unfold State.requeue
  split
  · rw [State.runqueues_schedEnqueueTask, Function.update_apply]
    split_ifs with here
    · exact Or.inl rfl
    · exact Or.inr (by rw [here]; rfl)
    · exact Or.inr rfl
  · exact Or.inr rfl

/-- The caller runs on and is queued again, and competes with the others. -/
theorem exists_chosen_requeued (queues : QueuesOk s live queue) (nonzero : self ≠ 0)
    (unqueued : ∀ p, self ∉ queue p) (isLive : live self = true) (running : s.state self = .running)
    (notIdle : s.priority self ≠ idlePriority) :
    ∃ queue', ChosenHighest s ((s.requeue self).makeRunning ((s.requeue self).nextTask c)) live queue
      queue' self ((s.requeue self).nextTask c) := by
  have requeue := requeue_ok queues nonzero unqueued isLive running notIdle
  have ownQueue : pushTo queue (s.priority self) self (s.priority self) ≠ [] := by
    rw [pushTo, Function.update_self]
    simp
  have someBit := requeue.queues.queued.activePriorities_ne_zero ownQueue
  have requeuedState : (s.requeue self).state self = .ready := by
    rw [State.requeue, if_pos ⟨nonzero, running, notIdle⟩, State.state_schedEnqueueTask,
      State.state_setState, if_pos rfl]
  have samePriority : ∀ a, (s.requeue self).priority a = s.priority a := by
    intro a
    have same := congrArg Task.priority (requeue.kept a)
    exact same
  have highest : ∀ q, ∀ a ∈ queue q, s.priority a ≤ s.priority ((s.requeue self).nextTask c) := by
    intro q a before
    have le := requeue.queues.queued.priority_le_nextTask someBit c (QueuesOk.mem_pushTo before)
    rwa [samePriority, samePriority] at le
  rcases requeue.queues.queued.nextTask_of_active someBit c with ⟨p, isNext, member, -⟩
  generalize (s.requeue self).nextTask c = nextTask at isNext highest
  rw [← isNext] at member
  rcases makeRunning_member requeue.queues member with ⟨made, isRunning, noNext⟩
  refine ⟨removeFrom (pushTo queue (s.priority self) self) p nextTask, ?_,
    fun q a before => QueuesOk.mem_removeFrom (QueuesOk.mem_pushTo before), highest⟩
  refine {
    step := requeue.trans made
    choice := ?_
    unqueued := fun q => requeue.queues.notMem_removeFrom member
    origin := fun _ _ => running
    prevState := ?_
    prevNext := fun either => either.elim (fun both => absurd running both.2) (absurd · notIdle)
    running := isRunning
    next := Or.inl noNext }
  · by_cases same : nextTask = self
    · exact Choice.again same running
    · rcases requeue.origin p nextTask member with ⟨q, before⟩ | isSelf
      · have own : q = p := by
          rw [← queues.queued.priority q nextTask before, ← samePriority]
          exact requeue.queues.queued.priority p nextTask member
        subst own
        refine Choice.queued q before ?_
        rcases runqueues_requeue q with isSelf | isHead
        · exact absurd (isNext.trans isSelf) same
        · exact isNext.trans isHead
      · exact absurd isSelf same
  · intro other
    refine Or.inr ⟨running, notIdle, ?_⟩
    rw [made.state self (Ne.symm other), requeuedState]

/-- Nothing is queued: the caller's core goes on with the caller. -/
theorem exists_chosen_fallback (queues : QueuesOk s live queue) (isCurrent : s.current c = self)
    (nonzero : self ≠ 0) (unqueued : ∀ p, self ∉ queue p) (noBit : s.activePriorities = 0) :
    ∃ queue', ChosenHighest s (s.makeRunning (s.nextTask c)) live queue queue' self (s.nextTask c) := by
  rw [Queued.nextTask_of_inactive noBit, isCurrent]
  have empty := queues.queued.inactive_iff.mp noBit
  rcases makeRunning_outside queues nonzero empty with ⟨made, isRunning, nextCases, keepsNext⟩
  refine ⟨queue, ?_, fun _ _ member _ => member,
    fun p a member => absurd (empty p) (List.ne_nil_of_mem member)⟩
  refine {
    step := made.weaken fun a => Or.inl
    choice := ?_
    unqueued := unqueued
    origin := fun p member => absurd member (unqueued p)
    prevState := fun other => absurd rfl other
    prevNext := fun either => either.elim (fun both => absurd rfl both.1) keepsNext
    running := isRunning
    next := nextCases.imp_right fun same => ⟨rfl, same⟩ }
  by_cases running : s.state self = .running
  · exact Choice.again rfl running
  · exact Choice.fallback rfl running empty

/-- The caller is not queued again, and a queued task is next. -/
theorem exists_chosen_queued (queues : QueuesOk s live queue) (unqueued : ∀ p, self ∉ queue p)
    (someBit : s.activePriorities ≠ 0) :
    ∃ queue', ChosenHighest s (s.makeRunning (s.nextTask c)) live queue queue' self (s.nextTask c) := by
  have highest : ∀ q, ∀ a ∈ queue q, s.priority a ≤ s.priority (s.nextTask c) :=
    fun q a => queues.queued.priority_le_nextTask someBit c
  rcases queues.queued.nextTask_of_active someBit c with ⟨p, isNext, member, -⟩
  generalize s.nextTask c = nextTask at isNext highest
  rw [← isNext] at member
  rcases makeRunning_member queues member with ⟨made, isRunning, noNext⟩
  refine ⟨removeFrom queue p nextTask, ?_, fun q a before => QueuesOk.mem_removeFrom before, highest⟩
  refine {
    step := made.weaken fun a => Or.inr
    choice := Choice.queued p member isNext
    unqueued := fun q => queues.notMem_removeFrom member
    origin := fun q remaining => absurd (QueuesOk.mem_of_removeFrom remaining) (unqueued q)
    prevState := fun other => Or.inl (made.state self (Ne.symm other))
    prevNext := ?_
    running := isRunning
    next := Or.inl noNext }
  intro _
  apply made.next self unqueued
  rintro rfl
  exact unqueued p member

/-- The choice, which leaves every other task queued; none of them has a higher
priority. -/
theorem exists_chosen (queues : QueuesOk s live queue) (isCurrent : s.current c = self)
    (nonzero : self ≠ 0) (unqueued : ∀ p, self ∉ queue p)
    (isLive : s.state self = .running → live self = true) :
    ∃ queue', ChosenHighest s ((s.requeue self).makeRunning ((s.requeue self).nextTask c)) live queue
      queue' self ((s.requeue self).nextTask c) := by
  by_cases requeues : s.state self = .running ∧ s.priority self ≠ idlePriority
  · exact exists_chosen_requeued queues nonzero unqueued (isLive requeues.1) requeues.1 requeues.2
  · have requeued : s.requeue self = s := by
      rw [State.requeue, if_neg]
      exact fun all => requeues all.2
    rw [requeued]
    by_cases noBit : s.activePriorities = 0
    · exact exists_chosen_fallback queues isCurrent nonzero unqueued noBit
    · exact exists_chosen_queued queues unqueued noBit

/-! ### The switch -/

/-- `current_task = next_task` and the save of the outgoing context, when the
chosen task is another one. -/
def State.afterSwitch (c : Core) (self nextTask : Nat) (caller : Caller) (s : State) : State :=
  if nextTask ≠ self then (s.setCurrent c nextTask).setContext self (.yielded caller) else s

/-- Where the core goes on. -/
def State.afterSwitchPc (self nextTask : Nat) (caller : Caller) (s : State) : Pc :=
  if nextTask ≠ self then (s.tasks nextTask).context.resume else .unlock (.yielded caller)

/-- The state behind the choice of `sched_yield` on core `c`. -/
def State.choose (c : Core) (s : State) : Nat × State :=
  let s := s.setLock true
  let prevTask := s.current c
  let s := s.requeue prevTask
  let nextTask := s.nextTask c
  (nextTask, s.makeRunning nextTask)

theorem Machine.yieldSwitch_sched (m : Machine) (caller : Caller) :
    (m.yieldSwitch c caller).sched =
      (m.sched.choose c).2.afterSwitch c (m.current c) (m.sched.choose c).1 caller := by
  unfold Machine.yieldSwitch State.afterSwitch State.choose
  dsimp only
  split
  · next other => exact (if_pos other).symm
  · next same => exact (if_neg same).symm

theorem Machine.yieldSwitch_pc (m : Machine) (caller : Caller) :
    (m.yieldSwitch c caller).pc =
      Function.update m.pc c
        ((m.sched.choose c).2.afterSwitchPc (m.current c) (m.sched.choose c).1 caller) := by
  unfold Machine.yieldSwitch State.afterSwitchPc State.choose
  dsimp only
  split
  · next other =>
      have sameContext : ∀ s : State, ∀ t prevTask, t ≠ prevTask →
          (((s.setCurrent c t).setContext prevTask (.yielded caller)).tasks t).context =
            (s.tasks t).context := by
        intro s t prevTask apart
        rw [State.setContext, State.tasks_setTask, if_neg apart]
        rfl
      refine (congrArg (Function.update m.pc c) ?_)
      rw [sameContext _ _ _ other]
      exact (if_pos other).symm
  · next same => exact congrArg (Function.update m.pc c) (if_neg same).symm

theorem Machine.yieldSwitch_structs (m : Machine) (caller : Caller) :
    (m.yieldSwitch c caller).structs = m.structs := by
  unfold Machine.yieldSwitch
  dsimp only
  split <;> rfl

theorem Machine.yieldSwitch_idleTask (m : Machine) (caller : Caller) :
    (m.yieldSwitch c caller).history.idleTask = m.history.idleTask := by
  unfold Machine.yieldSwitch
  dsimp only
  split <;> rfl

theorem Machine.yieldSwitch_history (m : Machine) (caller : Caller) :
    (m.yieldSwitch c caller).history =
      if (m.sched.choose c).1 ≠ m.current c then (m.markStarted (m.sched.choose c).1).history
      else m.history := by
  unfold Machine.yieldSwitch State.choose
  dsimp only
  split
  · next other => exact (if_pos other).symm
  · next same => exact (if_neg same).symm

section Fields

variable {nextTask a : Nat} {caller : Caller}

/-- A field that switching leaves alone: not the context. -/
theorem State.field_afterSwitch {α : Type} (field : Task → α)
    (noContext : ∀ task context, field { task with context := context } = field task) :
    field ((s.afterSwitch c self nextTask caller).tasks a) = field (s.tasks a) := by
  unfold State.afterSwitch
  split
  · exact State.field_setTask field (noContext _ _)
  · rfl

theorem State.context_afterSwitch :
    ((s.afterSwitch c self nextTask caller).tasks a).context =
      if nextTask ≠ self ∧ a = self then .yielded caller else (s.tasks a).context := by
  unfold State.afterSwitch
  by_cases other : nextTask ≠ self
  · rw [if_pos other, State.setContext, State.tasks_setTask]
    by_cases here : a = self
    · rw [if_pos here, if_pos ⟨other, here⟩]
    · rw [if_neg here, if_neg (fun both => here both.2)]
      rfl
  · rw [if_neg other, if_neg (fun both => other both.1)]

theorem State.current_afterSwitch (isCurrent : s.current c = self) (c' : Core) :
    (s.afterSwitch c self nextTask caller).current c' =
      if c' = c then nextTask else s.current c' := by
  unfold State.afterSwitch
  by_cases here : c' = c
  · subst here
    rw [if_pos rfl]
    split
    · simp [State.current, State.setCurrent, State.setContext, State.setTask]
    · next same =>
        rw [isCurrent]
        exact (not_not.mp same).symm
  · rw [if_neg here]
    split
    · simp [State.current, State.setCurrent, State.setContext, State.setTask,
        Function.update_of_ne here]
    · rfl

theorem State.taskToFree_afterSwitch (c' : Core) :
    ((s.afterSwitch c self nextTask caller).cores c').taskToFree = (s.cores c').taskToFree := by
  unfold State.afterSwitch
  split
  · simp only [State.setCurrent, State.setContext, State.setTask, Function.update_apply]
    split
    · next here => rw [here]
    · rfl
  · rfl

theorem State.afterSwitch_queues (s : State) (c : Core) (self nextTask : Nat) (caller : Caller) :
    (s.afterSwitch c self nextTask caller).runqueues = s.runqueues ∧
      (s.afterSwitch c self nextTask caller).runqueuesTail = s.runqueuesTail ∧
      (s.afterSwitch c self nextTask caller).activePriorities = s.activePriorities ∧
      (s.afterSwitch c self nextTask caller).schedLock = s.schedLock := by
  unfold State.afterSwitch
  split <;> exact ⟨rfl, rfl, rfl, rfl⟩

end Fields

theorem QueuesOk.setLock (queues : QueuesOk s live queue) (taken : Bool) :
    QueuesOk (s.setLock taken) live queue :=
  queues.congr (fun _ _ _ => rfl) (fun _ => rfl) (fun _ => rfl) rfl rfl rfl queues.ready

theorem QueuesOk.afterSwitch (queues : QueuesOk s live queue) {nextTask : Nat} {caller : Caller} :
    QueuesOk (s.afterSwitch c self nextTask caller) live queue := by
  rcases State.afterSwitch_queues s c self nextTask caller with ⟨heads, tails, active, -⟩
  apply queues.congr
  · exact fun _ _ _ => State.field_afterSwitch Task.next fun _ _ => rfl
  · exact fun _ => State.field_afterSwitch Task.prev fun _ _ => rfl
  · exact fun _ => State.field_afterSwitch Task.priority fun _ _ => rfl
  · exact heads
  · exact tails
  · exact active
  · intro p a member
    exact (State.field_afterSwitch Task.state fun _ _ => rfl).trans (queues.ready p a member)

/-- The mode of a resumed context. -/
theorem mode_resume {context : Context} (resumable : Resumable s context) :
    context.resume.locked = true ∧
      (context.resume.mode = .running ∨
        ∃ call, context.resume.mode = .waiting call ∧ JoinOk s call) := by
  rcases context with _ | _ | (_ | call | _)
  · exact False.elim resumable
  · exact ⟨rfl, Or.inl rfl⟩
  · exact ⟨rfl, Or.inl rfl⟩
  · exact ⟨rfl, Or.inr ⟨call, rfl, resumable⟩⟩
  · exact False.elim resumable

section Chosen

variable {s₂ : State} {queue' : Nat → List Nat} {nextTask a : Nat} {caller : Caller}

/-- The chosen task was queued or is the caller. -/
theorem Chosen.next_ne (chosen : Chosen (s.setLock true) s₂ live queue queue' (s.current c) nextTask)
    (unqueued : ∀ p, a ∉ queue p) (notCurrent : ∀ c', s.current c' ≠ a) : nextTask ≠ a := by
  intro same
  rcases chosen.choice.origin with ⟨p, member⟩ | own
  · exact unqueued p (same ▸ member)
  · exact notCurrent c (own.symm.trans same)

theorem Chosen.current_afterSwitch
    (chosen : Chosen (s.setLock true) s₂ live queue queue' (s.current c) nextTask) (caller : Caller)
    (c' : Core) :
    (s₂.afterSwitch c (s.current c) nextTask caller).current c' =
      if c' = c then nextTask else s.current c' := by
  have sameCurrent : ∀ c', s₂.current c' = s.current c' :=
    fun c' => congrArg (fun cores => (cores c').task) chosen.step.cores
  rw [State.current_afterSwitch (sameCurrent c), sameCurrent]

theorem Chosen.notCurrent_afterSwitch
    (chosen : Chosen (s.setLock true) s₂ live queue queue' (s.current c) nextTask)
    (unqueued : ∀ p, a ∉ queue p) (notCurrent : ∀ c', s.current c' ≠ a) (c' : Core) :
    (s₂.afterSwitch c (s.current c) nextTask caller).current c' ≠ a := by
  rw [chosen.current_afterSwitch]
  split
  · exact chosen.next_ne unqueued notCurrent
  · exact notCurrent c'

/-- A task that waits for its enqueue is no part of a switch. -/
theorem Pending.afterSwitch (before : Pending s live queue t)
    (chosen : Chosen (s.setLock true) s₂ live queue queue' (s.current c) nextTask) :
    Pending (s₂.afterSwitch c (s.current c) nextTask caller) live queue' t := by
  have notNext := chosen.next_ne before.unqueued before.notCurrent
  have notSelf : t ≠ s.current c := (before.notCurrent c).symm
  apply before.congr rfl (chosen.stillUnqueued before.unqueued notSelf)
  · exact chosen.notCurrent_afterSwitch before.unqueued before.notCurrent
  · refine (State.field_afterSwitch Task.state fun _ _ => rfl).trans (chosen.step.state t ?_)
    rintro (isSelf | isNext)
    · exact notSelf isSelf
    · exact notNext isNext.symm
  · exact (State.field_afterSwitch Task.priority fun _ _ => rfl).trans
      (chosen.field Task.priority (fun _ => rfl) t)
  · rw [State.context_afterSwitch, if_neg (fun both => notSelf both.2),
      chosen.field Task.context fun _ => rfl]
    rfl

end Chosen

namespace Consistent

variable {pc : Core → Pc} {idleTask : Core → Nat} {caller : Caller}

/-- The chosen task is not the task of another core. -/
theorem next_apart {nextTask : Nat} {c' : Core} (consistent : Consistent s live pc idleTask queue)
    (online : pc c ≠ .offline) (origin : (∃ p, nextTask ∈ queue p) ∨ nextTask = s.current c)
    (other : c' ≠ c) : nextTask ≠ s.current c' := by
  intro same
  rcases origin with ⟨p, member⟩ | own
  · exact consistent.currentUnqueued c' p (same ▸ member)
  · exact consistent.currentApart c c' (Ne.symm other) online (own.symm.trans same)

/-- A switch takes no join in progress its target. -/
theorem join_afterSwitch {s₂ : State} {queue' : Nat → List Nat} {self nextTask : Nat} {call : Join}
    (chosen : Chosen (s.setLock true) s₂ live queue queue' self nextTask) (join : JoinOk s call) :
    JoinOk (s₂.afterSwitch c self nextTask caller) call := by
  apply join.congr
  · rw [State.field_afterSwitch Task.joinWaitQueue fun _ _ => rfl]
    exact chosen.field Task.joinWaitQueue (fun _ => rfl) call.target
  · intro exited
    exact chosen.notExited ((State.field_afterSwitch Task.state fun _ _ => rfl).symm.trans exited)

/-- The core goes on inside the critical section, as its next task has to: where
its caller stands when that is the next task, else where the saved context does. -/
theorem afterSwitch_place {s₂ : State} {queue' : Nat → List Nat} {nextTask : Nat}
    (consistent : Consistent s live pc idleTask queue)
    (ownMode : ModeOk s live (s.current c) caller.mode)
    (chosen : Chosen (s.setLock true) s₂ live queue queue' (s.current c) nextTask) :
    (s₂.afterSwitchPc (s.current c) nextTask caller).locked = true ∧
      ModeOk (s₂.afterSwitch c (s.current c) nextTask caller) live nextTask
        (s₂.afterSwitchPc (s.current c) nextTask caller).mode := by
  have isRunning : (s₂.afterSwitch c (s.current c) nextTask caller).state nextTask = .running :=
    (State.field_afterSwitch Task.state fun _ _ => rfl).trans chosen.running
  have nextEq : (s₂.afterSwitch c (s.current c) nextTask caller).next nextTask = s₂.next nextTask :=
    State.field_afterSwitch Task.next fun _ _ => rfl
  by_cases same : nextTask = s.current c
  · rw [State.afterSwitchPc, if_neg (not_not_intro same)]
    refine ⟨rfl, ?_⟩
    rcases caller with _ | call | _
    · refine ⟨same ▸ ownMode.1, isRunning, ?_⟩
      rw [nextEq]
      rcases chosen.next with cleared | ⟨-, unchanged⟩
      · exact cleared
      · rw [unchanged, same]
        exact ownMode.2.2
    · exact ⟨same ▸ ownMode.1, Or.inl isRunning, join_afterSwitch chosen ownMode.2.2⟩
    · exact isRunning
  · rcases chosen.choice.origin with ⟨p, member⟩ | own
    · have resumable := consistent.resumable p nextTask member
      have context : (s₂.tasks nextTask).context = (s.tasks nextTask).context :=
        chosen.field Task.context (fun _ => rfl) nextTask
      rw [State.afterSwitchPc, if_pos same, context]
      rcases mode_resume resumable with ⟨isLocked, running | ⟨call, waits, join⟩⟩
      · refine ⟨isLocked, ?_⟩
        rw [running]
        refine ⟨consistent.queues.live p nextTask member, isRunning, ?_⟩
        rw [nextEq]
        exact chosen.next.resolve_right fun both => same both.1
      · refine ⟨isLocked, ?_⟩
        rw [waits]
        exact ⟨consistent.queues.live p nextTask member, Or.inl isRunning,
          join_afterSwitch chosen join⟩
    · exact absurd own same

/-- The contexts that are saved behind a switch: those that were, and that of the
caller when it is queued again. -/
theorem afterSwitch_resumable {s₂ : State} {queue' : Nat → List Nat} {nextTask : Nat}
    (consistent : Consistent s live pc idleTask queue)
    (ownMode : ModeOk s live (s.current c) caller.mode)
    (chosen : Chosen (s.setLock true) s₂ live queue queue' (s.current c) nextTask) (p a : Nat)
    (member : a ∈ queue' p) :
    Resumable (s₂.afterSwitch c (s.current c) nextTask caller)
      ((s₂.afterSwitch c (s.current c) nextTask caller).tasks a).context := by
  rw [State.context_afterSwitch]
  split
  · next switched =>
      rcases chosen.remaining member with ⟨q, before⟩ | ⟨-, running⟩
      · exact absurd (switched.2 ▸ before) (consistent.currentUnqueued c q)
      · rcases caller with _ | call | _
        · trivial
        · exact join_afterSwitch chosen ownMode.2.2
        · exact absurd (running.symm.trans ownMode) (by simp)
  · next notSwitched =>
      rcases chosen.remaining member with ⟨q, before⟩ | ⟨isSelf, -⟩
      · rw [chosen.field Task.context (fun _ => rfl) a]
        exact (consistent.resumable q a before).congr fun _ join => join_afterSwitch chosen join
      · have same : nextTask = s.current c := by
          by_contra other
          exact notSwitched ⟨other, isSelf⟩
        exact absurd (same ▸ isSelf ▸ member) (chosen.unqueued p)

/-- The other cores do not see a switch. -/
theorem afterSwitch_mode {s₂ : State} {queue' : Nat → List Nat} {nextTask : Nat} {c' : Core}
    (consistent : Consistent s live pc idleTask queue) (online : pc c ≠ .offline)
    (chosen : Chosen (s.setLock true) s₂ live queue queue' (s.current c) nextTask)
    (other : c' ≠ c) :
    ModeOk (s₂.afterSwitch c (s.current c) nextTask caller) live (s.current c') (pc c').mode := by
  have untouched : ¬ (s.current c' = s.current c ∨ s.current c' = nextTask) := by
    rintro (isSelf | isNext)
    · exact consistent.currentApart c c' (Ne.symm other) online isSelf.symm
    · exact consistent.next_apart online chosen.choice.origin other isNext.symm
  apply (consistent.mode c').congr
  · rfl
  · exact (State.field_afterSwitch Task.state fun _ _ => rfl).trans (chosen.step.state _ untouched)
  · exact (State.field_afterSwitch Task.next fun _ _ => rfl).trans
      (chosen.step.next _ (consistent.currentUnqueued c') untouched)
  · exact fun _ _ => (State.field_afterSwitch Task.joinWaitQueue fun _ _ => rfl).trans
      (chosen.field Task.joinWaitQueue (fun _ => rfl) _)
  · exact fun call _ => join_afterSwitch chosen

/-- The switch keeps the invariant, and every task but the next one queued; none
of them has a higher priority than that. -/
theorem switch (consistent : Consistent s live pc idleTask queue) (here : pc c = .yieldLock caller)
    (lockFree : s.schedLock = false) :
    ∃ queue', Chosen (s.setLock true) (s.choose c).2 live queue queue' (s.current c) (s.choose c).1 ∧
      (∀ p, ∀ a ∈ queue p, a ≠ (s.choose c).1 → a ∈ queue' p) ∧
      (∀ p, ∀ a ∈ queue p, s.priority a ≤ s.priority (s.choose c).1) ∧
      Consistent ((s.choose c).2.afterSwitch c (s.current c) (s.choose c).1 caller) live
        (Function.update pc c ((s.choose c).2.afterSwitchPc (s.current c) (s.choose c).1 caller))
        idleTask queue' := by
  have online : pc c ≠ .offline := by
    rw [here]
    simp
  have ownMode : ModeOk s live (s.current c) caller.mode := by
    have own := consistent.mode c
    rwa [here] at own
  have isLive : (s.setLock true).state (s.current c) = .running → live (s.current c) = true := by
    intro running
    rcases caller with _ | call | _
    · exact ownMode.1
    · exact ownMode.1
    · exact absurd (running.symm.trans ownMode) (by simp)
  rcases exists_chosen (c := c) (consistent.queues.setLock true) rfl
    (consistent.currentNonzero c online) (consistent.currentUnqueued c) isLive with
    ⟨queue', ⟨chosen, stay, highest⟩⟩
  have chosen : Chosen (s.setLock true) (s.choose c).2 live queue queue' (s.current c)
      (s.choose c).1 := chosen
  have stay : ∀ p, ∀ a ∈ queue p, a ≠ (s.choose c).1 → a ∈ queue' p := stay
  have highest : ∀ p, ∀ a ∈ queue p, s.priority a ≤ s.priority (s.choose c).1 := highest
  generalize (s.choose c).1 = nextTask at chosen stay highest ⊢
  generalize (s.choose c).2 = s₂ at chosen ⊢
  refine ⟨queue', chosen, stay, highest, ?_⟩
  have current := chosen.current_afterSwitch caller
  have origin := chosen.choice.origin
  have apart : ∀ c', c' ≠ c → nextTask ≠ s.current c' := fun c' other =>
    consistent.next_apart online origin other
  have place := afterSwitch_place consistent ownMode chosen
  have isOnline := online_before (s₂.afterSwitchPc (s.current c) nextTask caller) online
  have notPending : ∀ t, s₂.afterSwitchPc (s.current c) nextTask caller ≠ .createLock t := by
    intro t isPending
    have isLocked := place.1
    rw [isPending] at isLocked
    cases isLocked
  have pendingBefore := pending_before pc c notPending
  exact {
    queues := chosen.step.queues.afterSwitch
    resumable := afterSwitch_resumable consistent ownMode chosen
    currentNonzero := by
      intro c' _
      rw [current]
      split
      · rcases origin with ⟨p, member⟩ | own
        · exact consistent.queues.queued.ne_zero member
        · rw [own]
          exact consistent.currentNonzero c online
      · exact consistent.currentNonzero c' (isOnline c' ‹_›)
    currentUnqueued := by
      intro c' p
      rw [current]
      split
      · exact chosen.unqueued p
      · next other =>
          apply chosen.stillUnqueued (consistent.currentUnqueued c')
          exact (consistent.currentApart c c' (Ne.symm other) online).symm
    currentApart := by
      intro c₁ c₂ distinct onlineHere
      rw [current, current]
      split
      · next first =>
          rw [if_neg (fun second => distinct (first.trans second.symm))]
          exact apart c₂ fun second => distinct (first.trans second.symm)
      · next first =>
          split
          · exact (apart c₁ first).symm
          · exact consistent.currentApart c₁ c₂ distinct (isOnline c₁ onlineHere)
    mode := by
      intro c'
      rw [current]
      by_cases isHere : c' = c
      · rw [if_pos isHere, isHere, Function.update_self]
        exact place.2
      · rw [if_neg isHere, Function.update_of_ne isHere]
        exact afterSwitch_mode consistent online chosen isHere
    pending := fun c' t isPending =>
      (consistent.pending c' t (pendingBefore c' t isPending)).afterSwitch chosen
    pendingApart := fun c₁ c₂ t distinct first second =>
      consistent.pendingApart c₁ c₂ t distinct (pendingBefore c₁ t first) (pendingBefore c₂ t second)
    idle := by
      intro c' onlineHere
      have before := consistent.idle c' (isOnline c' onlineHere)
      apply before.congr rfl (chosen.stillUnqueued before.unqueued (before.notCurrent c).symm)
      · exact chosen.notCurrent_afterSwitch before.unqueued before.notCurrent
      · exact pendingBefore
    lock := by
      rw [(State.afterSwitch_queues ..).2.2.2, chosen.step.schedLock]
      have free := consistent.lock
      rw [lockFree] at free
      exact free.acquire place.1
    toFree := by
      intro c'
      have sameToFree : ((s₂.afterSwitch c (s.current c) nextTask caller).cores c').taskToFree =
          (s.cores c').taskToFree := by
        rw [State.taskToFree_afterSwitch, chosen.step.cores]
        rfl
      rw [sameToFree, current]
      by_cases isHere : c' = c
      · rcases consistent.toFree c' with noTask | ⟨-, reclaiming⟩
        · exact Or.inl noTask
        · rw [isHere, here] at reclaiming
          cases reclaiming
      · rw [if_neg isHere, Function.update_of_ne isHere]
        exact consistent.toFree c' }

end Consistent

/-! ### The switch as a step of the machine -/

/-- A switch leaves these fields of every task alone. -/
def Task.switchKept (task : Task) : Task := { task.kept with context := .cleared }

/-- What the `sched_yield` of core `c` does to the machine when it goes on with
`nextTask`. -/
structure Switched (m m' : Machine) (c : Core) (caller : Caller) (queue : Nat → List Nat)
    (nextTask : Nat) : Prop where
  choice : Choice m.sched queue (m.current c) nextTask
  current : ∀ c', m'.current c' = if c' = c then nextTask else m.current c'
  taskToFree : ∀ c', (m'.sched.cores c').taskToFree = (m.sched.cores c').taskToFree
  context : ∀ a, (m'.sched.tasks a).context =
    if nextTask ≠ m.current c ∧ a = m.current c then .yielded caller else (m.sched.tasks a).context
  kept : ∀ a, (m'.sched.tasks a).switchKept = (m.sched.tasks a).switchKept
  pc : m'.pc = Function.update m.pc c
    (if nextTask ≠ m.current c then (m.sched.tasks nextTask).context.resume
     else .unlock (.yielded caller))
  running : m'.sched.state nextTask = .running
  state : ∀ a, a ≠ m.current c → a ≠ nextTask → m'.sched.state a = m.sched.state a
  prevState : nextTask ≠ m.current c →
    m'.sched.state (m.current c) = m.sched.state (m.current c) ∨
      m.sched.state (m.current c) = .running ∧ m.sched.priority (m.current c) ≠ idlePriority ∧
        m'.sched.state (m.current c) = .ready
  next : ∀ a, (∀ p, a ∉ queue p) → a ≠ m.current c → a ≠ nextTask →
    m'.sched.next a = m.sched.next a
  prevNext : nextTask ≠ m.current c ∧ m.sched.state (m.current c) ≠ .running ∨
    m.sched.priority (m.current c) = idlePriority →
    m'.sched.next (m.current c) = m.sched.next (m.current c)
  lock : m'.sched.schedLock = true
  structs : m'.structs = m.structs
  history : m'.history =
    if nextTask ≠ m.current c then (m.markStarted nextTask).history else m.history

/-- A switch leaves every field alone but links, states and contexts. -/
theorem Switched.field {α : Type} {m m' : Machine} {caller : Caller} {nextTask : Nat}
    (switched : Switched m m' c caller queue nextTask) (field : Task → α)
    (noLink : ∀ task, field task.switchKept = field task) (a : Nat) :
    field (m'.sched.tasks a) = field (m.sched.tasks a) := by
  rw [← noLink, switched.kept a, noLink]

/-- A switch leaves the history alone but for the start of a thread. -/
theorem Switched.keepsHistory {α : Type} {m m' : Machine} {caller : Caller} {nextTask : Nat}
    (switched : Switched m m' c caller queue nextTask) (field : History → α)
    (noStart : ∀ history started, field { history with started := started } = field history) :
    field m'.history = field m.history := by
  rw [switched.history]
  split
  · exact noStart _ _
  · rfl

/-- The one thread a switch starts is that of the next task. -/
theorem Switched.started_before {m m' : Machine} {caller : Caller} {nextTask n : Nat}
    (switched : Switched m m' c caller queue nextTask) (isStarted : m'.history.started n = true) :
    m.history.started n = true ∨ n = m.history.thread nextTask := by
  rw [switched.history] at isStarted
  split at isStarted
  · simp only [Machine.markStarted, Function.update_apply] at isStarted
    split at isStarted
    · next isThread => exact Or.inr isThread
    · exact Or.inl isStarted
  · exact Or.inl isStarted

theorem Switched.pc_other {m m' : Machine} {caller : Caller} {nextTask : Nat} {c' : Core}
    (switched : Switched m m' c caller queue nextTask) (other : c' ≠ c) : m'.pc c' = m.pc c' := by
  rw [switched.pc, Function.update_of_ne other]

/-- The places a switch ends in. -/
theorem Switched.place {m m' : Machine} {caller : Caller} {nextTask : Nat}
    (switched : Switched m m' c caller queue nextTask) :
    (∃ caller', m'.pc c = .unlock (.yielded caller')) ∨ m'.pc c = .forkUnlock ∨ m'.pc c = .lost := by
  rw [switched.pc, Function.update_self]
  split
  · rcases (m.sched.tasks nextTask).context with _ | _ | caller'
    · exact Or.inr (Or.inr rfl)
    · exact Or.inr (Or.inl rfl)
    · exact Or.inl ⟨caller', rfl⟩
  · exact Or.inl ⟨caller, rfl⟩

/-- The core is in a `pthread_join` behind a switch when its caller was, or when
the next task is suspended in one. -/
theorem Switched.waiting {m m' : Machine} {caller : Caller} {nextTask : Nat} {call : Join}
    (switched : Switched m m' c caller queue nextTask) (waits : (m'.pc c).mode = .waiting call) :
    caller = .join call ∨ (m.sched.tasks nextTask).context = .yielded (.join call) := by
  rw [switched.pc, Function.update_self] at waits
  split at waits
  · rcases saved : (m.sched.tasks nextTask).context with _ | _ | (_ | call' | _) <;>
      rw [saved] at waits
    · cases waits
    · cases waits
    · cases waits
    · rw [← Mode.waiting.inj waits]
      exact Or.inr rfl
    · cases waits
  · rcases caller with _ | call' | _
    · cases waits
    · rw [← Mode.waiting.inj waits]
      exact Or.inl rfl
    · cases waits

theorem Machine.Consistent.switched {m : Machine} {caller : Caller}
    (consistent : m.Consistent queue) (here : m.pc c = .yieldLock caller)
    (lockFree : m.sched.schedLock = false) :
    ∃ nextTask, Switched m (m.yieldSwitch c caller) c caller queue nextTask := by
  rcases consistent.switch here lockFree with ⟨queue', chosen, -, -, -⟩
  have sched := m.yieldSwitch_sched (c := c) caller
  have sameCores : (m.sched.choose c).2.cores = m.sched.cores := chosen.step.cores
  have sameCurrent : ∀ c', (m.sched.choose c).2.current c' = m.current c' := fun c' =>
    congrArg (fun cores => (cores c').task) sameCores
  have field : ∀ {α : Type} (field : Task → α),
      (∀ task context, field { task with context := context } = field task) → ∀ a,
      field ((m.yieldSwitch c caller).sched.tasks a) = field ((m.sched.choose c).2.tasks a) := by
    intro α field noContext a
    rw [sched]
    exact State.field_afterSwitch field noContext
  refine ⟨(m.sched.choose c).1, {
    choice := ?_
    current := ?_
    taskToFree := ?_
    context := ?_
    kept := ?_
    pc := ?_
    running := (field Task.state (fun _ _ => rfl) _).trans chosen.running
    state := ?_
    prevState := ?_
    next := ?_
    prevNext := ?_
    lock := ?_
    structs := m.yieldSwitch_structs caller
    history := m.yieldSwitch_history caller }⟩
  · rcases chosen.choice with ⟨p, member, isHead⟩ | ⟨same, running⟩ | ⟨same, notRunning, empty⟩
    · exact Choice.queued p member isHead
    · exact Choice.again same running
    · exact Choice.fallback same notRunning empty
  · intro c'
    rw [Machine.current, sched, State.current_afterSwitch (sameCurrent c), sameCurrent]
  · intro c'
    rw [sched, State.taskToFree_afterSwitch, sameCores]
  · intro a
    rw [sched, State.context_afterSwitch]
    exact if_congr Iff.rfl rfl (chosen.field Task.context (fun _ => rfl) a)
  · intro a
    rw [field Task.switchKept fun _ _ => rfl]
    exact chosen.field Task.switchKept (fun _ => rfl) a
  · rw [m.yieldSwitch_pc caller, State.afterSwitchPc, chosen.field Task.context fun _ => rfl]
    rfl
  · intro a notPrev notNext
    refine (field Task.state (fun _ _ => rfl) a).trans (chosen.step.state a ?_)
    exact fun either => either.elim notPrev notNext
  · intro other
    rw [show (m.yieldSwitch c caller).sched.state (m.current c) = _ from
      field Task.state (fun _ _ => rfl) _]
    exact chosen.prevState other
  · intro a unqueued notPrev notNext
    refine (field Task.next (fun _ _ => rfl) a).trans (chosen.step.next a unqueued ?_)
    exact fun either => either.elim notPrev notNext
  · intro either
    exact (field Task.next (fun _ _ => rfl) _).trans (chosen.prevNext either)
  · rw [sched, (State.afterSwitch_queues ..).2.2.2]
    exact chosen.step.schedLock

end UniKernel.Pthread
