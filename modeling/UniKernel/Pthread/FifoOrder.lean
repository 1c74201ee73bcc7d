import UniKernel.Lib.PriorityQueue
import UniKernel.Pthread.RoundRobin
import UniKernel.Pthread.Runqueues

/-!
Owns the order in which tasks leave the runqueues, over whole runs of both cores.
Seen from outside the linked lists, the tails and the bitmap are one queue with
levels: what `sched_enqueue_task` and `sched_yield` do to them is an execution of
it. So each priority is first in, first out, whatever the cores interleave.
-/

namespace UniKernel.Pthread

open UniKernel.Lib

variable {m m' first middle last : Machine} {action : Action} {queue queue' : Nat → List Nat}
  {c : Core} {s : State} {live : Nat → Bool} {self : Nat}
  {earlier path : List (Transition Machine Action)}

/-! ### What a step does to the runqueues -/

/-- The caller of `sched_yield` is put back into its runqueue. -/
def State.Requeued (s : State) (self : Nat) : Prop :=
  self ≠ 0 ∧ s.state self = .running ∧ s.priority self ≠ idlePriority

instance (s : State) (self : Nat) : Decidable (s.Requeued self) :=
  inferInstanceAs (Decidable (_ ∧ _ ∧ _))

/-- The locked part of `sched_yield` with the caller `self`, which makes `next` run. -/
def State.yieldEvents (s : State) (self next : Nat) : List (PriorityQueue.Event Nat Nat) :=
  (if s.Requeued self then [.push (s.priority self) self] else []) ++
    if (s.requeue self).activePriorities = 0 then [] else [.pop (s.priority next) next]

/-- The tasks that a step puts into the runqueues and takes from them. -/
def scheduled (transition : Transition Machine Action) : List (PriorityQueue.Event Nat Nat) :=
  let s := transition.source.sched
  match transition.label with
  | .createEnqueue c =>
      match transition.source.pc c with
      | .createLock t => [.push (s.priority t) t]
      | _ => []
  | .exitWake c =>
      match transition.source.pc c with
      | .exitWake waiting => if waiting = 0 then [] else [.push (s.priority waiting) waiting]
      | _ => []
  | .yieldSwitch c => (s.setLock true).yieldEvents (s.current c) (transition.target.current c)
  | _ => []

/-- The tasks put into the runqueue of priority `p`, in order. -/
def enqueuedAt (p : Nat) (path : List (Transition Machine Action)) : List Nat :=
  (path.flatMap scheduled).filterMap (PriorityQueue.Event.pushed p)

/-- The tasks that `sched_yield` took from the runqueue of priority `p`, in order. -/
def dispatchedAt (p : Nat) (path : List (Transition Machine Action)) : List Nat :=
  (path.flatMap scheduled).filterMap (PriorityQueue.Event.popped p)

/-! ### The switch -/

/-- The links hold one list for each priority. -/
theorem Queued.unique (queued : Queued s queue) (same : Queued s queue') : queue = queue' :=
  funext fun p => (queued.linked p).unique (same.linked p)

/-- The caller is put back behind the others, or nothing happens. -/
theorem requeue_events (queues : QueuesOk s live queue) (unqueued : ∀ p, self ∉ queue p)
    (isLive : s.state self = .running → live self = true) :
    ∃ path queue', Execution PriorityQueue.Step queue path queue' ∧
      path.map Transition.label =
        (if s.Requeued self then [.push (s.priority self) self] else []) ∧
      QueuesOk (s.requeue self) live queue' := by
  by_cases requeued : s.Requeued self
  · obtain ⟨nonzero, running, notIdle⟩ := id requeued
    rw [if_pos requeued]
    exact ⟨_, _, .single .push, rfl,
      (requeue_ok queues nonzero unqueued (isLive running) running notIdle).queues⟩
  · have stays : s.requeue self = s := if_neg requeued
    rw [if_neg requeued, stays]
    exact ⟨[], queue, .nil, rfl, queues⟩

/-- The next task is taken from the front of the highest runqueue, if there is one. -/
theorem makeRunning_events (queues : QueuesOk s live queue) (isCurrent : s.current c ≠ 0) :
    ∃ path queue', Execution PriorityQueue.Step queue path queue' ∧
      path.map Transition.label = (if s.activePriorities = 0 then [] else
        [.pop (s.priority (s.nextTask c)) (s.nextTask c)]) ∧
      QueuesOk (s.makeRunning (s.nextTask c)) live queue' := by
  by_cases noBit : s.activePriorities = 0
  · have empty := queues.queued.inactive_iff.mp noBit
    rw [if_pos noBit, Queued.nextTask_of_inactive noBit]
    exact ⟨[], queue, .nil, rfl, (makeRunning_outside queues isCurrent empty).1.queues⟩
  · rw [if_neg noBit]
    obtain ⟨p, isNext, member, higher⟩ := queues.queued.nextTask_of_active noBit c
    rw [← isNext] at member
    have isFront : (queue p).headD 0 = s.nextTask c := by
      rw [isNext, (queues.queued.linked p).head_eq]
    obtain ⟨front, rest, isQueue⟩ := List.exists_cons_of_ne_nil (List.ne_nil_of_mem member)
    have sameFront : front = s.nextTask c := by
      rw [← isFront, isQueue]
      rfl
    subst sameFront
    have level : s.priority (s.nextTask c) = p := queues.queued.priority p _ member
    have made := (makeRunning_member queues member).1.queues
    rw [removeFrom, isQueue, List.erase_cons_head] at made
    rw [level]
    exact ⟨_, _, .single (.pop isQueue higher), rfl, made⟩

/-- The caller of `sched_yield` is live as long as it can go on. -/
theorem Machine.Consistent.caller_live {caller : Caller} (consistent : m.Consistent queue)
    (here : m.pc c = .yieldLock caller) (running : m.sched.state (m.current c) = .running) :
    m.structs (m.current c) = true := by
  have own := consistent.mode c
  rw [here] at own
  cases caller with
  | user => exact own.1
  | join call => exact own.1
  | exit => exact absurd (running.symm.trans own) (by simp)

/-- The core's current task behind the switch is the chosen one. -/
theorem Machine.current_yieldSwitch {caller : Caller}
    (sameCores : (m.sched.choose c).2.cores = m.sched.cores) :
    (m.yieldSwitch c caller).current c = (m.sched.choose c).1 := by
  have isCurrent : (m.sched.choose c).2.current c = m.current c :=
    congrArg (fun cores => (cores c).task) sameCores
  rw [Machine.current, Machine.yieldSwitch_sched, State.current_afterSwitch isCurrent, if_pos rfl]

/-- The locked part of `sched_yield` on the queue with levels. -/
theorem Machine.Consistent.switch_events {caller : Caller} (consistent : m.Consistent queue)
    (here : m.pc c = .yieldLock caller) (lockFree : m.sched.schedLock = false) :
    ∃ path queue', Execution PriorityQueue.Step queue path queue' ∧
      path.map Transition.label = scheduled ⟨m, .yieldSwitch c, m.yieldSwitch c caller⟩ ∧
      (m.yieldSwitch c caller).Consistent queue' := by
  have online : m.pc c ≠ .offline := by
    rw [here]
    simp
  obtain ⟨queue', chosen, -, -, after⟩ := consistent.switch here lockFree
  obtain ⟨pushPath, requeued, pushRun, pushLabels, requeuedOk⟩ :=
    requeue_events (consistent.queues.setLock true) (consistent.currentUnqueued c)
      (consistent.caller_live here)
  have isCurrent : ((m.sched.setLock true).requeue (m.current c)).current c ≠ 0 := by
    rw [current_requeue]
    exact consistent.currentNonzero c online
  obtain ⟨popPath, left, popRun, popLabels, leftOk⟩ := makeRunning_events requeuedOk isCurrent
  have same : left = queue' := leftOk.queued.unique chosen.step.queues.queued
  subst same
  refine ⟨pushPath ++ popPath, left, pushRun.append popRun, ?_, ?_⟩
  · rw [List.map_append, pushLabels, popLabels, priority_requeue]
    change _ = (m.sched.setLock true).yieldEvents _ ((m.yieldSwitch c caller).current c)
    rw [Machine.current_yieldSwitch chosen.step.cores]
    rfl
  · unfold Machine.Consistent
    rw [Machine.yieldSwitch_sched, Machine.yieldSwitch_pc, Machine.yieldSwitch_structs,
      Machine.yieldSwitch_idleTask]
    exact after

/-! ### Whole runs -/

/-- The runqueues hold `queue`, or a core is in an endless wake-up loop. -/
def Holds (m : Machine) (queue : Nat → List Nat) : Prop := m.Consistent queue ∨ Stuck m

/-- Outside `sched_yield` a step puts at most one task into the runqueues. -/
theorem scheduled_cases (m : Machine) (action : Action) (m' : Machine) :
    (∃ c, action = .yieldSwitch c) ∨ scheduled ⟨m, action, m'⟩ = [] ∨
      ∃ p t, scheduled ⟨m, action, m'⟩ = [.push p t] := by
  cases action with
  | yieldSwitch c => exact .inl ⟨c, rfl⟩
  | createEnqueue c =>
      right
      cases here : m.pc c with
      | createLock t => exact .inr ⟨m.sched.priority t, t, by simp [scheduled, here]⟩
      | _ => exact .inl (by simp [scheduled, here])
  | exitWake c =>
      right
      cases here : m.pc c with
      | exitWake waiting =>
          by_cases noWaiter : waiting = 0
          · exact .inl (by simp [scheduled, here, noWaiter])
          · exact .inr ⟨m.sched.priority waiting, waiting, by simp [scheduled, here, noWaiter]⟩
      | _ => exact .inl (by simp [scheduled, here])
  | _ => exact .inr (.inl rfl)

/-- A stuck machine puts tasks into the runqueues and takes none. -/
theorem Stuck.events (stuck : Stuck m) (taken : Step m action m') :
    ∃ path queue', Execution PriorityQueue.Step queue path queue' ∧
      path.map Transition.label = scheduled ⟨m, action, m'⟩ := by
  obtain ⟨c, rfl⟩ | isEmpty | ⟨p, t, isPush⟩ := scheduled_cases m action m'
  · obtain ⟨-, -, -, -, isLocked, -⟩ := stuck
    cases taken with
    | yieldSwitch here lockFree =>
        rw [isLocked] at lockFree
        cases lockFree
  · rw [isEmpty]
    exact ⟨[], queue, .nil, rfl⟩
  · rw [isPush]
    exact ⟨_, _, .single .push, rfl⟩

theorem Machine.Consistent.enqueue_events {t : Nat} (consistent : m.Consistent queue)
    (here : m.pc c = .createLock t) (lockFree : m.sched.schedLock = false) :
    ∃ path queue', Execution PriorityQueue.Step queue path queue' ∧
      path.map Transition.label = scheduled ⟨m, .createEnqueue c, m.createEnqueue c t⟩ ∧
      (m.createEnqueue c t).Consistent queue' := by
  have isPush : scheduled ⟨m, .createEnqueue c, m.createEnqueue c t⟩ =
      [.push (m.sched.priority t) t] := by
    simp [scheduled, here]
  rw [isPush]
  exact ⟨_, _, .single .push, rfl, consistent.afterEnqueue here lockFree⟩

/-- A step of a consistent machine on the queue with levels. -/
theorem Machine.Consistent.events (consistent : m.Consistent queue) (taken : Step m action m')
    (unused : AllocatesUnused ⟨m, action, m'⟩) :
    ∃ path queue', Execution PriorityQueue.Step queue path queue' ∧
      path.map Transition.label = scheduled ⟨m, action, m'⟩ ∧ Holds m' queue' := by
  have after := consistent.step_queue taken unused
  cases taken with
  | createEnqueue here lockFree =>
      obtain ⟨path, queue', run, labels, after⟩ := consistent.enqueue_events here lockFree
      exact ⟨path, queue', run, labels, .inl after⟩
  | yieldSwitch here lockFree =>
      obtain ⟨path, queue', run, labels, after⟩ := consistent.switch_events here lockFree
      exact ⟨path, queue', run, labels, .inl after⟩
  | @exitWake c waiting here =>
      have own := consistent.mode c
      rw [here] at own
      have noWaiter : waiting = 0 := own.1
      refine ⟨[], queue, .nil, ?_, .inl (consistent.afterExitWake here)⟩
      simp [scheduled, here, noWaiter]
  | _ =>
      obtain same | ⟨_, _, -, -, isEnqueue, -⟩ | ⟨_, _, -, -, isSwitch, -⟩ |
        ⟨c, value, -, lockFree, someWaiter, -, isExit⟩ := after
      · exact ⟨[], queue, .nil, rfl, .inl same⟩
      · cases isEnqueue
      · cases isSwitch
      · refine ⟨[], queue, .nil, rfl, .inr ?_⟩
        rw [isExit]
        exact ⟨c, _, Machine.exit_waking consistent.lock lockFree someWaiter⟩

theorem Holds.step (holds : Holds m queue) (taken : Step m action m')
    (unused : AllocatesUnused ⟨m, action, m'⟩) :
    ∃ path queue', Execution PriorityQueue.Step queue path queue' ∧
      path.map Transition.label = scheduled ⟨m, action, m'⟩ ∧ Holds m' queue' := by
  obtain consistent | stuck := holds
  · exact consistent.events taken unused
  · obtain ⟨path, queue', run, labels⟩ := stuck.events taken
    exact ⟨path, queue', run, labels, .inr (stuck.step taken)⟩

theorem Holds.run (holds : Holds m queue) (run : Execution Step m path last)
    (unused : ∀ transition ∈ path, AllocatesUnused transition) :
    ∃ queuePath queue', Execution PriorityQueue.Step queue queuePath queue' ∧
      queuePath.map Transition.label = path.flatMap scheduled ∧ Holds last queue' :=
  run.refines_of_allowed scheduled AllocatesUnused holds
    (fun _ _ _ _ holds taken unused => holds.step taken unused) unused

/-- While the lock is free, nobody is stuck. -/
theorem Holds.consistent (holds : Holds m queue) (lockFree : m.sched.schedLock = false) :
    m.Consistent queue := by
  obtain consistent | ⟨-, -, -, -, isLocked, -⟩ := holds
  · exact consistent
  · rw [lockFree] at isLocked
    cases isLocked

/-- Between any two moments of a run at which the lock is free, the tasks leave
the runqueue of a priority in the order in which they came: first those that were
there, then those that were put there, one by one, always from the highest
runqueue that holds a task. A task with `index` others in front of it is the next
to go after exactly these, whatever the two cores do, as long as `malloc` never returns
the struct of an earlier task. -/
theorem runqueues_first_in_first_out (initial : Initial first)
    (before : Execution Step first earlier middle) (run : Execution Step middle path last)
    (fresh : ∀ transition ∈ earlier ++ path, FreshStructs transition)
    (lockFree : middle.sched.schedLock = false) (lockFreeAgain : last.sched.schedLock = false) :
    ∃ queue queue' queuePath, RunqueuesOk middle.sched queue ∧ RunqueuesOk last.sched queue' ∧
      Execution PriorityQueue.Step queue queuePath queue' ∧
      queuePath.map Transition.label = path.flatMap scheduled ∧
      ∀ p, queue p ++ enqueuedAt p path = dispatchedAt p path ++ queue' p ∧
        ∀ index t, (queue p)[index]? = some t → index < (dispatchedAt p path).length →
          (dispatchedAt p path)[index]? = some t := by
  have unused := (valid_of_fresh initial (before.append run) fresh).2
  rw [List.forall_mem_append] at fresh unused
  have sound := (valid_of_fresh initial before fresh.1).1.sound
  obtain ⟨queue, consistent⟩ := sound.consistent lockFree
  obtain ⟨queuePath, queue', queueRun, labels, holds⟩ := Holds.run (.inl consistent) run unused.2
  have after := holds.consistent lockFreeAgain
  refine ⟨queue, queue', queuePath, consistent.runqueuesOk, after.runqueuesOk, queueRun, labels, ?_⟩
  intro p
  unfold enqueuedAt dispatchedAt
  rw [← labels]
  exact ⟨PriorityQueue.balance queueRun p, fun index t place late =>
    PriorityQueue.taken_in_turn queueRun p place late⟩

/-- Main creates the threads 30 and 40 and yields: 30 is dispatched before 40. -/
theorem runqueues_first_in_first_out_two_threads : ∃ earlier middle path last,
    Execution Step Machine.booted earlier middle ∧ Execution Step middle path last ∧
    dispatchedAt normalPriority path = [30] ∧
    ∃ queue queue' queuePath, RunqueuesOk middle.sched queue ∧ RunqueuesOk last.sched queue' ∧
      Execution PriorityQueue.Step queue queuePath queue' ∧
      queuePath.map Transition.label = path.flatMap scheduled ∧
      ∀ p, queue p ++ enqueuedAt p path = dispatchedAt p path ++ queue' p ∧
        ∀ index t, (queue p)[index]? = some t → index < (dispatchedAt p path).length →
          (dispatchedAt p path)[index]? = some t := by
  obtain ⟨earlier, middle, before, holds⟩ := Machine.exists_run Machine.booted
    [.create 0 none (blocksFrom 30), .createEnqueue 0, .unlock 0,
      .create 0 none (blocksFrom 40), .createEnqueue 0, .unlock 0]
    (fun earlier middle => decide ((∀ transition ∈ earlier, FreshStructs transition) ∧
      middle.sched.schedLock = false) &&
      (middle.performAll [.callYield 0, .yieldEnter 0, .yieldSwitch 0, .forkUnlock 0]).any
        fun run : List (Transition Machine Action) × Machine =>
          decide ((∀ transition ∈ run.1, FreshStructs transition) ∧
            run.2.sched.schedLock = false ∧ dispatchedAt normalPriority run.1 = [30]))
    (by decide +kernel)
  obtain ⟨created, yields⟩ := Bool.and_eq_true_iff.mp holds
  obtain ⟨freshBefore, lockFree⟩ := of_decide_eq_true created
  obtain ⟨path, last, run, ends⟩ := Machine.exists_run middle _ (fun path last => decide
    ((∀ transition ∈ path, FreshStructs transition) ∧ last.sched.schedLock = false ∧
      dispatchedAt normalPriority path = [30])) yields
  obtain ⟨freshAfter, lockFreeAgain, isFirst⟩ := of_decide_eq_true ends
  exact ⟨earlier, middle, path, last, before, run, isFirst,
    runqueues_first_in_first_out Machine.booted_initial before run
      (List.forall_mem_append.mpr ⟨freshBefore, freshAfter⟩) lockFree lockFreeAgain⟩

end UniKernel.Pthread
