import UniKernel.Pthread.Switch

/-!
Owns the proof that every step keeps the invariant: what `pthread_create`,
`pthread_join` and `pthread_exit` do to it, and the rule for whole runs. A step
leads either to a consistent machine again or into the wake-up loop with a
waiter, which no run leaves.
-/

namespace UniKernel.Pthread

open UniKernel.Lib

variable {m m' : Machine} {s s' : State} {live live' : Nat → Bool} {queue queue' : Nat → List Nat}
  {c : Core} {pc : Core → Pc} {idleTask : Core → Nat} {place : Pc} {t : Nat}

/-! ### Enqueueing a created task -/

namespace Consistent

/-- An operation on the queues that touches no task the cores refer to. -/
theorem settle {touched : Nat → Prop} (consistent : Consistent s live pc idleTask queue)
    (step : Requeues s s' live queue queue' touched)
    (resumable : ∀ a, touched a → Resumable s (s.tasks a).context)
    (notExited : ∀ a, touched a → s'.state a ≠ .exited)
    (current : ∀ c, ¬ touched (s.current c))
    (pending : ∀ c t, pc c = .createLock t → ¬ touched t)
    (idle : ∀ c, pc c ≠ .offline → ¬ touched (idleTask c)) :
    Consistent s' live pc idleTask queue' := by
  have currentEq : ∀ c, s'.current c = s.current c := by
    intro c
    rw [State.current, step.cores]
    rfl
  have kept : ∀ {α : Type} (field : Task → α) (a : Nat),
      (∀ task, field task.kept = field task) → field (s'.tasks a) = field (s.tasks a) := by
    intro α field a noLink
    rw [← noLink, step.kept a, noLink]
  have joins : ∀ call, JoinOk s call → JoinOk s' call := by
    intro call join
    apply join.congr (kept Task.joinWaitQueue _ fun _ => rfl)
    intro exited
    rw [← step.state call.target]
    · exact exited
    · exact fun touches => notExited _ touches exited
  have unqueued : ∀ a, (∀ p, a ∉ queue p) → ¬ touched a → ∀ p, a ∉ queue' p := by
    intro a before untouched p member
    rcases step.origin p a member with ⟨q, earlier⟩ | touches
    · exact before q earlier
    · exact untouched touches
  exact {
    queues := step.queues
    resumable := by
      intro p a member
      rw [kept Task.context a fun _ => rfl]
      rcases step.origin p a member with ⟨q, before⟩ | touches
      · exact (consistent.resumable q a before).congr joins
      · exact (resumable a touches).congr joins
    currentNonzero := by
      intro c online
      rw [currentEq]
      exact consistent.currentNonzero c online
    currentUnqueued := by
      intro c
      rw [currentEq]
      exact unqueued _ (consistent.currentUnqueued c) (current c)
    currentApart := by
      intro c₁ c₂ apart online
      rw [currentEq, currentEq]
      exact consistent.currentApart c₁ c₂ apart online
    mode := by
      intro c
      rw [currentEq]
      apply (consistent.mode c).congr
      · rfl
      · exact step.state _ (current c)
      · exact step.next _ (consistent.currentUnqueued c) (current c)
      · exact fun _ _ => kept Task.joinWaitQueue _ fun _ => rfl
      · exact fun call _ => joins call
    pending := by
      intro c a isPending
      have before := consistent.pending c a isPending
      have untouched := pending c a isPending
      apply before.congr rfl (unqueued a before.unqueued untouched)
      · exact fun c₂ => (currentEq c₂).trans_ne (before.notCurrent c₂)
      · exact step.state a untouched
      · exact kept Task.priority a fun _ => rfl
      · exact kept Task.context a fun _ => rfl
    pendingApart := consistent.pendingApart
    idle := by
      intro c online
      have before := consistent.idle c online
      apply before.congr rfl (unqueued _ before.unqueued (idle c online))
      · exact fun c₂ => (currentEq c₂).trans_ne (before.notCurrent c₂)
      · exact fun _ _ => id
    lock := by
      rw [step.schedLock]
      exact consistent.lock
    toFree := by
      intro c
      rw [currentEq, step.cores]
      exact consistent.toFree c }

/-- `pthread_create` takes the lock and enqueues its task. -/
theorem createEnqueue (consistent : Consistent s live pc idleTask queue)
    (here : pc c = .createLock t) (lockFree : s.schedLock = false) (thread : Nat) :
    Consistent ((s.setLock true).schedEnqueueTask t) live
      (Function.update pc c (.unlock (.created t thread))) idleTask
      (pushTo queue (s.priority t) t) := by
  have pending := consistent.pending c t here
  have moved : Consistent (s.setLock true) live
      (Function.update pc c (.unlock (.created t thread))) idleTask queue := by
    apply consistent.move
    · rw [here]
      rfl
    · simp
    · have free := consistent.lock
      rw [lockFree] at free
      exact free.acquire rfl
    · rw [here]
      exact Or.inr (Or.inl rfl)
  have enqueued := enqueue_ok moved.queues pending.ne_zero pending.unqueued pending.ready
    pending.live pending.notIdle
  refine moved.settle enqueued ?_ ?_ ?_ ?_ ?_
  · rintro a rfl
    rw [show ((s.setLock true).tasks a).context = .fork from pending.context]
    trivial
  · rintro a rfl exited
    rw [State.state_schedEnqueueTask] at exited
    exact absurd (pending.ready.symm.trans exited) (by simp)
  · exact pending.notCurrent
  · rintro c' a isPending rfl
    by_cases same : c' = c
    · rw [same, Function.update_self] at isPending
      cases isPending
    · rw [Function.update_of_ne same] at isPending
      exact consistent.pendingApart c' c a same isPending here
  · rintro c' online same
    by_cases isHere : c' = c
    · have before := (consistent.idle c (by rw [here]; simp)).notPending c
      apply before
      rw [here, ← same, isHere]
    · rw [Function.update_of_ne isHere] at online
      apply (consistent.idle c' online).notPending c
      rw [here, same]

/-- The core's own task changes, and the core goes on to `place`. -/
theorem changeOwn (consistent : Consistent s live pc idleTask queue) (online : pc c ≠ .offline)
    (queues : QueuesOk s' live queue)
    (context : ∀ a, a ≠ s.current c → (s'.tasks a).context = (s.tasks a).context)
    (state : ∀ a, a ≠ s.current c → s'.state a = s.state a)
    (next : ∀ a, (∀ p, a ∉ queue p) → a ≠ s.current c → s'.next a = s.next a)
    (priority : ∀ a, s'.priority a = s.priority a)
    (joins : ∀ call, JoinOk s call → JoinOk s' call)
    (current : ∀ c', s'.current c' = s.current c')
    (noWaking : ∀ c', c' ≠ c → ∀ waiting, (pc c').mode ≠ .waking waiting)
    (notPending : ∀ t, place ≠ .createLock t)
    (mode : ModeOk s' live (s.current c) place.mode)
    (lock : LockOk s'.schedLock (Function.update pc c place))
    (toFree : ∀ c', c' ≠ c → (s'.cores c').taskToFree = (s.cores c').taskToFree)
    (toFreeHere : (s'.cores c).taskToFree = 0 ∨
      ((s'.cores c).taskToFree = s.current c ∧ place.reclaiming = true)) :
    Consistent s' live (Function.update pc c place) idleTask queue := by
  have onlineBefore := online_before place online
  have pendingBefore := pending_before pc c notPending
  have queuedNe : ∀ p, ∀ a ∈ queue p, a ≠ s.current c := fun p a member same =>
    consistent.currentUnqueued c p (same ▸ member)
  exact {
    queues := queues
    resumable := by
      intro p a member
      rw [context a (queuedNe p a member)]
      exact (consistent.resumable p a member).congr joins
    currentNonzero := by
      intro c' isOn
      rw [current]
      exact consistent.currentNonzero c' (onlineBefore c' isOn)
    currentUnqueued := by
      intro c'
      rw [current]
      exact consistent.currentUnqueued c'
    currentApart := by
      intro c₁ c₂ apart isOn
      rw [current, current]
      exact consistent.currentApart c₁ c₂ apart (onlineBefore c₁ isOn)
    mode := by
      intro c'
      rw [current]
      by_cases same : c' = c
      · rw [same, Function.update_self]
        exact mode
      · have other : s.current c' ≠ s.current c :=
          (consistent.currentApart c c' (Ne.symm same) online).symm
        rw [Function.update_of_ne same]
        apply (consistent.mode c').congr
        · rfl
        · exact state _ other
        · exact next _ (consistent.currentUnqueued c') other
        · exact fun waiting wakes => absurd wakes (noWaking c' same waiting)
        · exact fun call _ => joins call
    pending := by
      intro c' a isPending
      have before := consistent.pending c' a (pendingBefore c' a isPending)
      have other : a ≠ s.current c := (before.notCurrent c).symm
      apply before.congr rfl before.unqueued
      · exact fun c₂ => (current c₂).trans_ne (before.notCurrent c₂)
      · exact state a other
      · exact priority a
      · exact context a other
    pendingApart := fun c₁ c₂ a apart first second =>
      consistent.pendingApart c₁ c₂ a apart (pendingBefore c₁ a first) (pendingBefore c₂ a second)
    idle := by
      intro c' isOn
      have before := consistent.idle c' (onlineBefore c' isOn)
      apply before.congr rfl before.unqueued
      · exact fun c₂ => (current c₂).trans_ne (before.notCurrent c₂)
      · exact pendingBefore
    lock := lock
    toFree := by
      intro c'
      rw [current]
      by_cases same : c' = c
      · rw [same, Function.update_self]
        exact toFreeHere
      · rw [Function.update_of_ne same, toFree c' same]
        exact consistent.toFree c' }

end Consistent

theorem Pc.locked_of_waking {place : Pc} {waiting : Nat} (wakes : place.mode = .waking waiting) :
    place.locked = true := by
  rcases place with _ | _ | _ | _ | _ | _ | _ | (_ | _ | _) | (_ | _ | _) | _ | _ | _ <;>
    first | rfl | cases wakes

namespace Consistent

/-- While the lock is free no core is in the wake-up loop. -/
theorem noWaking (consistent : Consistent s live pc idleTask queue) (lockFree : s.schedLock = false)
    (c' : Core) (waiting : Nat) : (pc c').mode ≠ .waking waiting := by
  intro wakes
  have free := consistent.lock
  rw [lockFree] at free
  have isLocked := Pc.locked_of_waking wakes
  rw [free.allFree c'] at isLocked
  cases isLocked

/-- `pthread_join` on a task that has not exited: the caller is put in front of
the task's wait queue. -/
theorem joinWaiting (consistent : Consistent s live pc idleTask queue) (here : pc c = .user)
    (lockFree : s.schedLock = false) {call : Join} (notExited : s.state call.target ≠ .exited)
    (link : Nat) :
    Consistent
      ((((s.setLock true).setState (s.current c) .blocked).setNext (s.current c) link).setJoinWaitQueue
        call.target (s.current c)) live (Function.update pc c (.unlock (.joinWaiting call)))
      idleTask queue := by
  have online : pc c ≠ .offline := by
    rw [here]
    simp
  have nonzero := consistent.currentNonzero c online
  have ownMode : ModeOk s live (s.current c) .running := by
    have own := consistent.mode c
    rwa [here] at own
  have unqueued := consistent.currentUnqueued c
  generalize isCurrent : s.current c = self at nonzero ownMode unqueued
  have tasks : ∀ a, ((((s.setLock true).setState self .blocked).setNext self link).setJoinWaitQueue
      call.target self).tasks a =
        { s.tasks a with
          state := if a = self then .blocked else s.state a
          next := if a = self then link else s.next a
          joinWaitQueue := if a = call.target then self else (s.tasks a).joinWaitQueue } := by
    intro a
    simp only [State.setJoinWaitQueue, State.setNext, State.setState, State.tasks_setTask,
      State.tasks_setLock, State.state, State.next]
    split_ifs <;> simp_all
  generalize joined : (((s.setLock true).setState self .blocked).setNext self link).setJoinWaitQueue
    call.target self = s' at tasks
  have cores : s'.cores = s.cores := by rw [← joined]; rfl
  have current : ∀ c', s'.current c' = s.current c' := by
    intro c'
    rw [State.current, cores]
    rfl
  have state : ∀ a, s'.state a = if a = self then .blocked else s.state a :=
    fun a => congrArg Task.state (tasks a)
  have next : ∀ a, s'.next a = if a = self then link else s.next a :=
    fun a => congrArg Task.next (tasks a)
  have joins : ∀ other, JoinOk s other → JoinOk s' other := by
    intro other join
    constructor
    · rw [tasks]
      dsimp only
      split
      · exact nonzero
      · exact join.waited
    · rw [state]
      split
      · simp
      · exact join.notExited
  apply consistent.changeOwn online
  · apply consistent.queues.congr
    · intro p a member
      have other : a ≠ self := fun same => unqueued p (same ▸ member)
      rw [next, if_neg other]
    · exact fun a => (congrArg Task.prev (tasks a)).trans rfl
    · exact fun a => (congrArg Task.priority (tasks a)).trans rfl
    · rw [← joined]
      rfl
    · rw [← joined]
      rfl
    · rw [← joined]
      rfl
    · intro p a member
      have other : a ≠ self := fun same => unqueued p (same ▸ member)
      rw [state, if_neg other]
      exact consistent.queues.ready p a member
  · exact fun a _ => (congrArg Task.context (tasks a)).trans rfl
  · intro a other
    rw [state, if_neg (isCurrent ▸ other)]
  · intro a _ other
    rw [next, if_neg (isCurrent ▸ other)]
  · exact fun a => (congrArg Task.priority (tasks a)).trans rfl
  · exact joins
  · exact current
  · exact fun c' _ => consistent.noWaking lockFree c'
  · simp
  · rw [isCurrent]
    refine ⟨ownMode.1, Or.inr ?_, ?_, ?_⟩
    · rw [state, if_pos rfl]
    · rw [tasks]
      dsimp only
      rwa [if_pos rfl]
    · rw [state]
      split
      · simp
      · exact notExited
  · have free := consistent.lock
    rw [lockFree] at free
    rw [← joined]
    exact free.acquire rfl
  · intro c' _
    rw [cores]
  · rw [cores]
    rcases consistent.toFree c with noTask | ⟨-, reclaiming⟩
    · exact Or.inl noTask
    · rw [here] at reclaiming
      cases reclaiming

/-- `pthread_exit` of a thread nobody waits for, up to its loop. -/
theorem exitAlone (consistent : Consistent s live pc idleTask queue) (here : pc c = .user)
    (lockFree : s.schedLock = false) (value : Nat)
    (noWaiters : (s.tasks (s.current c)).joinWaitQueue = 0) :
    Consistent
      ((((s.setLock true).setRetValue (s.current c) value).setState (s.current c) .exited).setTaskToFree
        c (s.current c)) live (Function.update pc c (.exitWake 0)) idleTask queue := by
  have online : pc c ≠ .offline := by
    rw [here]
    simp
  have ownMode : ModeOk s live (s.current c) .running := by
    have own := consistent.mode c
    rwa [here] at own
  have unqueued := consistent.currentUnqueued c
  generalize isCurrent : s.current c = self at noWaiters ownMode unqueued
  have tasks : ∀ a, ((((s.setLock true).setRetValue self value).setState self .exited).setTaskToFree
      c self).tasks a =
        { s.tasks a with
          state := if a = self then .exited else s.state a
          retValue := if a = self then value else (s.tasks a).retValue } := by
    intro a
    simp only [State.setRetValue, State.setState, State.tasks_setTask, State.tasks_setTaskToFree,
      State.tasks_setLock, State.state]
    split_ifs <;> simp_all
  have cores : ∀ c', ((((s.setLock true).setRetValue self value).setState self .exited).setTaskToFree
      c self).cores c' = if c' = c then { s.cores c with taskToFree := self } else s.cores c' := by
    intro c'
    simp only [State.setTaskToFree, Function.update_apply]
    rfl
  generalize exited : (((s.setLock true).setRetValue self value).setState self .exited).setTaskToFree
    c self = s' at tasks cores
  have current : ∀ c', s'.current c' = s.current c' := by
    intro c'
    rw [State.current, cores]
    split
    · next same => rw [same]; rfl
    · rfl
  have state : ∀ a, s'.state a = if a = self then .exited else s.state a :=
    fun a => congrArg Task.state (tasks a)
  have next : ∀ a, s'.next a = s.next a := fun a => (congrArg Task.next (tasks a)).trans rfl
  apply consistent.changeOwn online
  · apply consistent.queues.congr
    · exact fun p a _ => next a
    · exact fun a => (congrArg Task.prev (tasks a)).trans rfl
    · exact fun a => (congrArg Task.priority (tasks a)).trans rfl
    · rw [← exited]
      rfl
    · rw [← exited]
      rfl
    · rw [← exited]
      rfl
    · intro p a member
      have other : a ≠ self := fun same => unqueued p (same ▸ member)
      rw [state, if_neg other]
      exact consistent.queues.ready p a member
  · exact fun a _ => (congrArg Task.context (tasks a)).trans rfl
  · intro a other
    rw [state, if_neg (isCurrent ▸ other)]
  · exact fun a _ _ => next a
  · exact fun a => (congrArg Task.priority (tasks a)).trans rfl
  · intro call join
    have other : call.target ≠ self := by
      intro same
      exact join.waited (same ▸ noWaiters)
    apply join.congr
    · exact (congrArg Task.joinWaitQueue (tasks _)).trans rfl
    · rw [state, if_neg other]
      exact id
  · exact current
  · exact fun c' _ => consistent.noWaking lockFree c'
  · simp
  · rw [isCurrent]
    refine ⟨rfl, ?_, ?_, ?_⟩
    · exact (congrArg Task.joinWaitQueue (tasks self)).trans noWaiters
    · rw [state, if_pos rfl]
    · rw [next]
      exact ownMode.2.2
  · have free := consistent.lock
    rw [lockFree] at free
    rw [← exited]
    exact free.acquire rfl
  · intro c' other
    rw [cores, if_neg other]
  · rw [cores, if_pos rfl, isCurrent]
    exact Or.inr ⟨rfl, rfl⟩

end Consistent

/-- Storing what `join_wait_queue` holds already. -/
theorem State.setJoinWaitQueue_same {value : Nat} (same : (s.tasks t).joinWaitQueue = value) :
    s.setJoinWaitQueue t value = s := by
  have sameTask : { s.tasks t with joinWaitQueue := value } = s.tasks t := by
    rw [← same]
  rw [State.setJoinWaitQueue, sameTask, State.setTask, Function.update_eq_self]

namespace Consistent

/-- `pthread_exit` of a thread nobody waits for, from its loop to the unlock. -/
theorem exitDone (consistent : Consistent s live pc idleTask queue) (here : pc c = .exitWake 0) :
    Consistent ((s.setJoinWaitQueue (s.current c) 0).schedDequeueTask (s.current c)) live
      (Function.update pc c (.unlock .exited)) idleTask queue := by
  have online : pc c ≠ .offline := by
    rw [here]
    simp
  have nonzero := consistent.currentNonzero c online
  have ownMode : ModeOk s live (s.current c) (.waking 0) := by
    have own := consistent.mode c
    rwa [here] at own
  have unqueued := consistent.currentUnqueued c
  have queues := consistent.queues
  generalize isCurrent : s.current c = self at nonzero ownMode unqueued
  have noQueue : s.setJoinWaitQueue self 0 = s := State.setJoinWaitQueue_same ownMode.2.1
  have noNext : s.next self = 0 := ownMode.2.2.2
  have noPrev : s.prev self = 0 := queues.unqueuedPrev self unqueued
  have nextFirst : s.prev (s.next self) = 0 := by
    rw [noNext]
    exact queues.unqueuedPrev 0 queues.zero_unqueued
  have next : ∀ a, (s.schedDequeueTask self).next a = s.next a := by
    intro a
    rw [State.next_schedDequeueTask]
    split
    · next same => rw [same, noNext]
    · rw [if_neg (fun both => both.1 noPrev)]
  have sameField : ∀ {α : Type} (field : Task → α) (a : Nat),
      (∀ task, field task.unlinked = field task) →
      field ((s.schedDequeueTask self).tasks a) = field (s.tasks a) :=
    fun field a noLink => State.field_schedDequeueTask field noLink
  rw [noQueue]
  apply consistent.changeOwn online
  · exact queues.dequeueOutside nonzero unqueued nextFirst
  · exact fun a _ => sameField Task.context a fun _ => rfl
  · exact fun a _ => State.state_schedDequeueTask
  · exact fun a _ _ => next a
  · exact fun a => State.priority_schedDequeueTask
  · intro call join
    apply join.congr
    · exact sameField Task.joinWaitQueue _ fun _ => rfl
    · rw [State.state_schedDequeueTask]
      exact id
  · intro c'
    rw [State.current, State.cores_schedDequeueTask]
    rfl
  · intro c' other waiting wakes
    apply other
    apply consistent.lock.unique c' c (Pc.locked_of_waking wakes)
    rw [here]
    rfl
  · simp
  · rw [isCurrent]
    exact State.state_schedDequeueTask.trans ownMode.2.2.1
  · rw [State.schedLock_schedDequeueTask]
    apply consistent.lock.keep
    rw [here]
    rfl
  · intro c' _
    rw [State.cores_schedDequeueTask]
  · rw [State.cores_schedDequeueTask]
    exact (consistent.toFree c).imp_right fun both => ⟨both.1, rfl⟩

end Consistent

end UniKernel.Pthread
