import UniKernel.Pthread.Create

/-!
Owns the invariant over whole runs: a consistent machine steps to a consistent
machine or into a wake-up loop with a waiter, and from there no step leads out.
-/

namespace UniKernel.Pthread

open UniKernel.Lib

variable {m m' : Machine} {action : Action} {queue : Nat → List Nat} {c : Core}

/-! ### The wake-up loop with a waiter -/

/-- A step of core `c` that neither takes nor releases the lock. -/
structure Bystands (m m' : Machine) (c : Core) : Prop where
  pc : ∃ place, place.locked = false ∧ m'.pc = Function.update m.pc c place
  lock : m'.sched.schedLock = m.sched.schedLock

theorem Machine.create_bystands {attr : Option Attr} {alloc : Allocation} (here : m.pc c = .user) :
    Bystands m (m.create c attr alloc) c := by
  constructor
  · rcases Machine.create_pc here with ⟨place, isUser | isPending, pc⟩
    · exact ⟨place, by rw [isUser]; rfl, pc⟩
    · exact ⟨place, by rw [isPending]; rfl, pc⟩
  · rcases m.create_cases c attr alloc with ⟨-, same⟩ | ⟨made, task, -, created, outcome⟩
    · rw [same]
    · rcases created.sched with ⟨tid, sched⟩
      have lock : made.sched.schedLock = m.sched.schedLock := by
        rw [sched]
        rfl
      rcases outcome with ⟨-, isMade⟩ | ⟨-, -, isMade⟩ | ⟨-, -, isMade⟩
      · exact isMade ▸ lock
      · exact isMade ▸ lock
      · exact isMade ▸ lock

theorem Machine.schedInitSecondary_bystands {alloc : Allocation} {own : Nat}
    (idleTask : alloc.task ≠ 0) : Bystands m (m.schedInitSecondary c alloc own) c := by
  rcases Machine.pthreadCreate_created m none true idleTask with ⟨task, created⟩
  refine ⟨⟨.user, rfl, ?_⟩, ?_⟩
  · exact congrArg (fun pc => Function.update pc c .user) created.pc
  · rcases created.sched with ⟨tid, sched⟩
    exact (congrArg State.schedLock sched).trans rfl

/-- No step leads out of the wake-up loop with a waiter. -/
theorem Waking.step {waiting : Nat} (waking : Waking m c waiting) (taken : Step m action m') :
    Waking m' c waiting := by
  rcases waking with ⟨inLoop, someWaiter, isLocked, othersFree⟩
  have bystander : ∀ c', m.pc c' ≠ .exitWake waiting → Bystands m m' c' → Waking m' c waiting := by
    rintro c' notLoop ⟨⟨place, free, pc⟩, lock⟩
    have other : c ≠ c' := by
      rintro rfl
      exact notLoop inLoop
    refine ⟨?_, someWaiter, lock.trans isLocked, ?_⟩
    · rw [pc, Function.update_of_ne other, inLoop]
    · intro c₂ notC
      by_cases same : c₂ = c'
      · rw [pc, same, Function.update_self]
        exact free
      · rw [pc, Function.update_of_ne same]
        exact othersFree c₂ notC
  have onlyLoop : ∀ c', (m.pc c').locked = true → m.pc c' = .exitWake waiting := by
    intro c' locked
    by_cases same : c' = c
    · rw [same, inLoop]
    · rw [othersFree c' same] at locked
      cases locked
  cases taken with
  | initSecondary here fresh =>
      exact bystander _ (by rw [here]; simp) (Machine.schedInitSecondary_bystands fresh.idleTask)
  | create here fresh => exact bystander _ (by rw [here]; simp) (Machine.create_bystands here)
  | createEnqueue here lockFree => rw [isLocked] at lockFree; cases lockFree
  | join here lockFree handle => rw [isLocked] at lockFree; cases lockFree
  | @joinTest c' call here =>
      apply bystander c' (by rw [here]; simp)
      unfold Machine.joinTest
      split
      · exact ⟨⟨_, rfl, rfl⟩, rfl⟩
      · exact ⟨⟨_, rfl, rfl⟩, rfl⟩
  | @joinReturn c' call here =>
      apply bystander c' (by rw [here]; simp)
      unfold Machine.joinReturn
      dsimp only
      split
      · exact ⟨⟨_, rfl, rfl⟩, rfl⟩
      · exact ⟨⟨_, rfl, rfl⟩, rfl⟩
  | exit here lockFree => rw [isLocked] at lockFree; cases lockFree
  | @exitWake c' waiter here =>
      have sameLoop := onlyLoop c' (by rw [here]; rfl)
      rw [here] at sameLoop
      rw [Pc.exitWake.inj sameLoop, Machine.exitWake, if_pos someWaiter]
      refine ⟨inLoop, someWaiter, ?_, othersFree⟩
      exact State.schedLock_schedEnqueueTask.trans isLocked
  | callYield here => exact bystander _ (by rw [here]; simp) ⟨⟨_, rfl, rfl⟩, rfl⟩
  | @yieldEnter c' caller here =>
      apply bystander c' (by rw [here]; simp)
      unfold Machine.yieldEnter
      dsimp only
      split
      · exact ⟨⟨_, rfl, rfl⟩, rfl⟩
      · exact ⟨⟨_, rfl, rfl⟩, rfl⟩
  | yieldSwitch here lockFree => rw [isLocked] at lockFree; cases lockFree
  | @unlock c' after here =>
      have sameLoop := onlyLoop c' (by rw [here]; rfl)
      rw [here] at sameLoop
      cases sameLoop
  | @forkUnlock c' here =>
      have sameLoop := onlyLoop c' (by rw [here]; rfl)
      rw [here] at sameLoop
      cases sameLoop

theorem Stuck.step (stuck : Stuck m) (taken : Step m action m') : Stuck m' := by
  rcases stuck with ⟨c, waiting, waking⟩
  exact ⟨c, waiting, waking.step taken⟩

/-! ### Consistent machines -/

theorem Machine.exit_waiters (m : Machine) (c : Core) (value : Nat) :
    (m.exit c value).pc = Function.update m.pc c
      (.exitWake (m.sched.tasks (m.current c)).joinWaitQueue) := by
  have sameQueue : ((((m.sched.setLock true).setRetValue (m.current c) value).setState (m.current c)
      .exited).tasks (m.current c)).joinWaitQueue =
        (m.sched.tasks (m.current c)).joinWaitQueue := by
    simp [State.setRetValue, State.setState, State.tasks_setTask]
  rw [← sameQueue]
  rfl

/-- A step to a place of the same mode that leaves the lock alone. -/
theorem Machine.Consistent.stay (consistent : m.Consistent queue) {start place : Pc}
    (here : m.pc c = start) (mode : place.mode = start.mode) (locked : place.locked = start.locked)
    (notPending : ∀ t, place ≠ .createLock t)
    (reclaim : (m.sched.cores c).taskToFree = 0 ∨ start.reclaiming = false ∨
      place.reclaiming = true) :
    (m.setPc c place).Consistent queue := by
  subst here
  exact Consistent.move consistent mode notPending (consistent.lock.keep locked) reclaim

/-- A step to a place of the same mode that releases the lock. -/
theorem Machine.Consistent.release (consistent : m.Consistent queue) {start place : Pc}
    (here : m.pc c = start) (mode : place.mode = start.mode) (wasLocked : start.locked = true)
    (isFree : place.locked = false) (notPending : ∀ t, place ≠ .createLock t)
    (reclaim : (m.sched.cores c).taskToFree = 0 ∨ start.reclaiming = false ∨
      place.reclaiming = true) :
    ((m.setSched (m.sched.setLock false)).setPc c place).Consistent queue := by
  subst here
  exact Consistent.move consistent mode notPending (consistent.lock.release wasLocked isFree) reclaim

theorem AfterUnlock.resume_ne_createLock (after : AfterUnlock) (t : Nat) :
    after.resume ≠ .createLock t := by
  rcases after with _ | (_ | _ | _) | _ | _ | _ <;> nofun

/-- A `pthread_exit` of a thread that somebody waits for. -/
def ExitsWaited (m : Machine) (action : Action) (m' : Machine) : Prop :=
  ∃ c value, m.pc c = .user ∧ m.sched.schedLock = false ∧
    (m.sched.tasks (m.current c)).joinWaitQueue ≠ 0 ∧ action = .exit c value ∧ m' = m.exit c value

theorem Machine.exit_waking {value : Nat} (lock : LockOk m.sched.schedLock m.pc)
    (lockFree : m.sched.schedLock = false)
    (someWaiter : (m.sched.tasks (m.current c)).joinWaitQueue ≠ 0) :
    Waking (m.exit c value) c (m.sched.tasks (m.current c)).joinWaitQueue := by
  rw [lockFree] at lock
  refine ⟨?_, someWaiter, rfl, ?_⟩
  · rw [Machine.exit_waiters, Function.update_self]
  · intro c' other
    rw [Machine.exit_waiters, Function.update_of_ne other]
    exact lock.allFree c'

/-- The step behind `pthread_create` that enqueues its task. -/
theorem Machine.Consistent.afterEnqueue {t : Nat} (consistent : m.Consistent queue)
    (here : m.pc c = .createLock t) (lockFree : m.sched.schedLock = false) :
    (m.createEnqueue c t).Consistent (pushTo queue (m.sched.priority t) t) :=
  consistent.createEnqueue here lockFree _

/-- The switch leaves every task queued but the next one, and none of them has a
higher priority than that. -/
theorem Machine.Consistent.afterSwitch {caller : Caller} (consistent : m.Consistent queue)
    (here : m.pc c = .yieldLock caller) (lockFree : m.sched.schedLock = false) :
    ∃ queue', (m.yieldSwitch c caller).Consistent queue' ∧
      (∀ p, ∀ a ∈ queue p, a ≠ (m.yieldSwitch c caller).current c → a ∈ queue' p) ∧
      ∀ p, ∀ a ∈ queue p,
        m.sched.priority a ≤ m.sched.priority ((m.yieldSwitch c caller).current c) := by
  rcases consistent.switch here lockFree with ⟨queue', chosen, stay, highest, after⟩
  have isNext : (m.yieldSwitch c caller).current c = (m.sched.choose c).1 := by
    have isCurrent : (m.sched.choose c).2.current c = m.current c :=
      congrArg (fun cores => (cores c).task) chosen.step.cores
    rw [Machine.current, Machine.yieldSwitch_sched, State.current_afterSwitch isCurrent, if_pos rfl]
  rw [isNext]
  refine ⟨queue', ?_, stay, highest⟩
  unfold Machine.Consistent
  rw [Machine.yieldSwitch_sched, Machine.yieldSwitch_pc, Machine.yieldSwitch_structs,
    Machine.yieldSwitch_idleTask]
  exact after

/-- The locked part of `pthread_join`. -/
theorem Machine.Consistent.afterJoin {call : Join} (consistent : m.Consistent queue)
    (here : m.pc c = .user) (lockFree : m.sched.schedLock = false) :
    (m.join c call).Consistent queue := by
  unfold Machine.join
  dsimp only
  split
  · next notExited => exact consistent.joinWaiting here lockFree notExited _
  · apply Consistent.move consistent
    · rw [here]
      rfl
    · simp
    · have free := consistent.lock
      rw [lockFree] at free
      exact free.acquire rfl
    · rw [here]
      exact Or.inr (Or.inl rfl)

/-- The target of a join in progress has not exited. -/
theorem Machine.Consistent.afterJoinTest {call : Join} (consistent : m.Consistent queue)
    (here : m.pc c = .joinLoop call) : (m.joinTest c call).Consistent queue := by
  have own := consistent.mode c
  rw [here] at own
  rw [Machine.joinTest, if_pos own.2.2.notExited]
  exact consistent.stay here rfl rfl (by simp) (Or.inr (Or.inl rfl))

theorem Machine.Consistent.afterJoinReturn {call : Join} (consistent : m.Consistent queue)
    (here : m.pc c = .joinRead call) : (m.joinReturn c call).Consistent queue := by
  have returned : (m.setPc c .user).Consistent queue :=
    consistent.stay here rfl rfl (by simp) (Or.inr (Or.inl rfl))
  unfold Machine.joinReturn
  dsimp only
  split
  · exact returned
  · exact returned

/-- With no waiter the wake-up loop ends at once. -/
theorem Machine.Consistent.afterExitWake {waiting : Nat} (consistent : m.Consistent queue)
    (here : m.pc c = .exitWake waiting) : (m.exitWake c waiting).Consistent queue := by
  have own := consistent.mode c
  rw [here] at own
  have noWaiter : waiting = 0 := own.1
  subst noWaiter
  rw [Machine.exitWake, if_neg (by simp)]
  exact consistent.exitDone here

/-- `sched_yield` frees a task only on behalf of `pthread_exit`. -/
theorem Machine.Consistent.afterYieldEnter {caller : Caller} (consistent : m.Consistent queue)
    (here : m.pc c = .yieldEnter caller) : (m.yieldEnter c caller).Consistent queue := by
  unfold Machine.yieldEnter
  dsimp only
  split
  · next someTask =>
      rcases consistent.toFree c with noTask | ⟨isCurrent, reclaiming⟩
      · exact absurd noTask someTask
      · rw [here] at reclaiming
        have isExit : caller = .exit := by
          rcases caller with _ | _ | _
          · cases reclaiming
          · cases reclaiming
          · rfl
        subst isExit
        have dying : (m.pc c).mode = .dying := by
          rw [here]
          rfl
        have reclaimed := Consistent.reclaim consistent dying isCurrent
          (fun a other => Function.update_of_ne other false m.structs)
        apply Consistent.move reclaimed
        · rw [here]
          rfl
        · simp
        · apply reclaimed.lock.keep
          rw [here]
          rfl
        · left
          simp [State.setTaskToFree]
  · next noTask => exact consistent.stay here rfl rfl (by simp) (Or.inl (not_not.mp noTask))

theorem Machine.Consistent.afterUnlock {after : AfterUnlock} (consistent : m.Consistent queue)
    (here : m.pc c = .unlock after) : (m.unlock c after).Consistent queue := by
  have reclaim : (Pc.unlock after).reclaiming = false ∨ after.resume.reclaiming = true := by
    rcases after with _ | _ | _ | _ | _
    · exact Or.inl rfl
    · exact Or.inl rfl
    · exact Or.inl rfl
    · exact Or.inl rfl
    · exact Or.inr rfl
  have released : ((m.setSched (m.sched.setLock false)).setPc c after.resume).Consistent queue :=
    consistent.release here after.mode_resume rfl after.locked_resume after.resume_ne_createLock
      (Or.inr reclaim)
  unfold Machine.unlock
  dsimp only
  split
  · exact released
  · exact released

/-- A step of a consistent machine leaves the queues as they are, unless it
enqueues a new task, switches, or enters a wake-up loop with a waiter. -/
theorem Machine.Consistent.step_queue (consistent : m.Consistent queue) (taken : Step m action m')
    (unused : AllocatesUnused ⟨m, action, m'⟩) :
    m'.Consistent queue ∨
    (∃ c t, m.pc c = .createLock t ∧ m.sched.schedLock = false ∧ action = .createEnqueue c ∧
      m' = m.createEnqueue c t) ∨
    (∃ c caller, m.pc c = .yieldLock caller ∧ m.sched.schedLock = false ∧
      action = .yieldSwitch c ∧ m' = m.yieldSwitch c caller) ∨
    ExitsWaited m action m' := by
  cases taken with
  | @initSecondary c idle own here fresh =>
      have idleNotInUse := unused idle.task (by simp [Action.structs]) fresh.idleTask
      have ownNotInUse := unused own (by simp [Action.structs]) fresh.own
      exact Or.inl (consistent.schedInitSecondary here fresh idleNotInUse ownNotInUse)
  | @create c attr alloc here fresh =>
      have notInUse := unused alloc.task (by simp [Action.structs])
      exact Or.inl (consistent.create here fresh notInUse)
  | createEnqueue here lockFree => exact Or.inr (Or.inl ⟨_, _, here, lockFree, rfl, rfl⟩)
  | join here lockFree handle => exact Or.inl (consistent.afterJoin here lockFree)
  | joinTest here => exact Or.inl (consistent.afterJoinTest here)
  | joinReturn here => exact Or.inl (consistent.afterJoinReturn here)
  | @exit c value here lockFree =>
      by_cases noWaiters : (m.sched.tasks (m.current c)).joinWaitQueue = 0
      · left
        unfold Machine.Consistent
        rw [Machine.exit_waiters, noWaiters]
        exact consistent.exitAlone here lockFree value noWaiters
      · exact Or.inr (Or.inr (Or.inr ⟨c, value, here, lockFree, noWaiters, rfl, rfl⟩))
  | exitWake here => exact Or.inl (consistent.afterExitWake here)
  | callYield here => exact Or.inl (consistent.stay here rfl rfl (by simp) (Or.inr (Or.inl rfl)))
  | yieldEnter here => exact Or.inl (consistent.afterYieldEnter here)
  | yieldSwitch here lockFree =>
      exact Or.inr (Or.inr (Or.inl ⟨_, _, here, lockFree, rfl, rfl⟩))
  | unlock here => exact Or.inl (consistent.afterUnlock here)
  | forkUnlock here =>
      exact Or.inl (consistent.release here rfl rfl rfl (by simp) (Or.inr (Or.inl rfl)))

/-- A step of a consistent machine, unless it enters a wake-up loop with a waiter. -/
theorem Machine.Consistent.step (consistent : m.Consistent queue) (taken : Step m action m')
    (unused : AllocatesUnused ⟨m, action, m'⟩) :
    (∃ queue', m'.Consistent queue') ∨ ExitsWaited m action m' := by
  rcases consistent.step_queue taken unused with same | ⟨c, t, here, lockFree, -, rfl⟩ |
    ⟨c, caller, here, lockFree, -, rfl⟩ | exits
  · exact Or.inl ⟨queue, same⟩
  · exact Or.inl ⟨_, consistent.afterEnqueue here lockFree⟩
  · rcases consistent.afterSwitch here lockFree with ⟨queue', after, -, -⟩
    exact Or.inl ⟨queue', after⟩
  · exact Or.inr exits

/-- Every step that gets no struct in use keeps the invariant. -/
theorem Sound.step (sound : Sound m) (taken : Step m action m')
    (unused : AllocatesUnused ⟨m, action, m'⟩) : Sound m' := by
  rcases sound with ⟨queue, consistent⟩ | stuck
  · rcases consistent.step taken unused with after | ⟨c, value, -, lockFree, someWaiter, -, rfl⟩
    · exact Or.inl after
    · exact Or.inr ⟨c, _, Machine.exit_waking consistent.lock lockFree someWaiter⟩
  · exact Or.inr (stuck.step taken)

theorem Sound.initial (initial : Initial m) : Sound m := by
  rcases initial with ⟨idle, own, init, rfl⟩
  exact Or.inl (Machine.schedInit_consistent init)

/-- While the lock is free no core is in a wake-up loop. -/
theorem Sound.consistent (sound : Sound m) (lockFree : m.sched.schedLock = false) :
    ∃ queue, m.Consistent queue := by
  rcases sound with consistent | ⟨_, _, _, _, isLocked, _⟩
  · exact consistent
  · rw [lockFree] at isLocked
    cases isLocked

end UniKernel.Pthread
