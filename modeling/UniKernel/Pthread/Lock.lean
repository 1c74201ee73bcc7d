import UniKernel.Pthread.Runqueues

/-!
Owns `sched_lock` over whole runs, and the saved contexts that have to release
it. A switch leaves a critical section open that the incoming task closes: at
the end of `sched_yield`, or in `ret_from_fork` when it has not run before. The
invariant is about every task struct no core runs: its context goes on at one
of these two places, and at which of them says whether its thread has run.
-/

namespace UniKernel.Pthread

open UniKernel.Lib

variable {m m' first last : Machine} {action : Action} {queue : Nat → List Nat} {c : Core}
  {place : Pc} {t : Nat} {path : List (Transition Machine Action)}

/-- The saved context of `t` goes on at an unlock: in `ret_from_fork` if the
thread of `t` has not run, at the end of `sched_yield` if it has. -/
def OwesUnlock (m : Machine) (t : Nat) : Prop :=
  if m.history.started (m.history.thread t) = true then
    ∃ caller, (m.sched.tasks t).context = .yielded caller
  else (m.sched.tasks t).context = .fork

/-- The place where such a context goes on is one step before its unlock. -/
theorem OwesUnlock.resume (owes : OwesUnlock m t) :
    (m.sched.tasks t).context.resume = .forkUnlock ∨
      ∃ caller, (m.sched.tasks t).context.resume = .unlock (.yielded caller) := by
  unfold OwesUnlock at owes
  split at owes
  · rcases owes with ⟨caller, saved⟩
    rw [saved]
    exact Or.inr ⟨caller, rfl⟩
  · rw [owes]
    exact Or.inl rfl

/-- Every task switched out, or never switched to, owes an unlock, and every
task a core runs has started. -/
structure Contexts (m : Machine) : Prop where
  suspended : ∀ t, m.structs t = true → (∀ c, m.current c ≠ t) → OwesUnlock m t
  started : ∀ c, m.pc c ≠ .offline → m.history.started (m.history.thread (m.current c)) = true

namespace Contexts

theorem ordinary (contexts : Contexts m) (step : Ordinary m m' c place) : Contexts m' where
  suspended := by
    intro t isLive notCurrent
    have before := contexts.suspended t (step.keeps.structs t isLive) fun c' isCurrent =>
      notCurrent c' ((step.keeps.current c').trans isCurrent)
    unfold OwesUnlock at before ⊢
    rw [step.keeps.started, step.keeps.thread, step.keeps.context]
    exact before
  started := by
    intro c' online
    rw [step.keeps.started, step.keeps.thread, step.keeps.current]
    apply contexts.started
    rw [step.pc] at online
    by_cases same : c' = c
    · rw [same]
      exact step.goes.online
    · rwa [Function.update_of_ne same] at online

/-- A new task owes an unlock itself, or a core goes online with it. -/
theorem afterAdding (contexts : Contexts m) (threads : Threads m) (adds : Adds m m' t)
    (notCurrent : ∀ c, m.current c ≠ t)
    (new : m'.structs t = true → (∀ c, m'.current c ≠ t) → OwesUnlock m' t)
    (startsNew : ∀ c, m'.current c = t → m'.history.started (m.history.births + 1) = true) :
    Contexts m' := by
  have thread : ∀ a, a ≠ t → m'.history.thread a = m.history.thread a := by
    intro a other
    rw [adds.thread, Function.update_of_ne other]
  have started : ∀ a, a ≠ t → m'.history.started (m'.history.thread a) =
      m.history.started (m.history.thread a) := by
    intro a other
    have bound := threads.bounded a
    rw [thread a other, adds.started _ (by omega)]
  constructor
  · intro a isLive unrun
    by_cases isNew : a = t
    · rw [isNew] at isLive unrun ⊢
      exact new isLive unrun
    · have liveBefore := adds.structs a isNew isLive
      have before := contexts.suspended a liveBefore (by
        intro c isCurrent
        rcases adds.core c with ⟨-, same⟩ | ⟨isOffline, -, -⟩
        · exact unrun c (same.trans isCurrent)
        · rw [threads.offline c isOffline] at isCurrent
          rw [← isCurrent] at liveBefore
          exact threads.live 0 liveBefore threads.null)
      unfold OwesUnlock at before ⊢
      rw [started a isNew, adds.context a isNew]
      exact before
  · intro c online
    rcases adds.core c with ⟨samePc, same⟩ | ⟨-, -, isNew⟩
    · rw [same, started _ (notCurrent c)]
      exact contexts.started c (samePc ▸ online)
    · rw [isNew, adds.thread, Function.update_self]
      exact startsNew c isNew

/-- `pthread_create` up to the lock. -/
theorem afterCreated {attr : Option Attr} {idle ok : Bool} {task : Task}
    (contexts : Contexts m) (threads : Threads m) (nonzero : t ≠ 0)
    (notCurrent : ∀ c, m.current c ≠ t) (created : Created m m' attr idle t ok task) :
    Contexts m' := by
  apply contexts.afterAdding threads (created.adds nonzero) notCurrent
  · intro isLive _
    rw [created.structs, Function.update_self] at isLive
    have notStarted : m'.history.started (m'.history.thread t) = false := by
      have thread : m'.history.thread t = m.history.births + 1 := by
        rw [(created.adds nonzero).thread, Function.update_self]
      have sameStarted : m'.history.started = m.history.started :=
        (congrArg History.started created.history).trans rfl
      rw [thread, sameStarted, ← Bool.not_eq_true]
      intro isStarted
      have bound := threads.startedBound _ isStarted
      omega
    unfold OwesUnlock
    rw [notStarted, if_neg (by simp), created.tasks, if_pos rfl]
    exact (created.success isLive).2.1
  · intro c isCurrent
    exact absurd ((created.current c).symm.trans isCurrent) (notCurrent c)

/-- A core goes online with a new task. -/
theorem afterStart {own : Nat} {task : Task} (contexts : Contexts m) (threads : Threads m)
    (starts : StartsOwn m m' c own task) (notCurrent : ∀ c, m.current c ≠ own) :
    Contexts m' := by
  apply contexts.afterAdding threads starts.adds notCurrent
  · intro _ unrun
    refine absurd ?_ (unrun c)
    rw [starts.current, Function.update_self]
  · intro c' _
    rw [starts.started, Function.update_self]

/-- The switch. -/
theorem yieldSwitch {caller : Caller} (contexts : Contexts m) (threads : Threads m)
    (consistent : m.Consistent queue) (here : m.pc c = .yieldLock caller)
    (lockFree : m.sched.schedLock = false) : Contexts (m.yieldSwitch c caller) := by
  rcases consistent.switched here lockFree with ⟨nextTask, switched⟩
  have online : m.pc c ≠ .offline := by
    rw [here]
    simp
  have thread := switched.keepsHistory History.thread fun _ _ => rfl
  have nextThread := threads.next consistent online switched
  -- only the incoming thread starts here
  have startedOther : ∀ a, a ≠ nextTask →
      (m.yieldSwitch c caller).history.started (m.history.thread a) =
        m.history.started (m.history.thread a) := by
    intro a other
    rw [switched.history]
    split
    · refine Function.update_of_ne ?_ ..
      intro sameThread
      exact other (threads.injective nextTask a sameThread.symm nextThread).symm
    · rfl
  have startedNext :
      (m.yieldSwitch c caller).history.started (m.history.thread nextTask) = true := by
    rw [switched.history]
    split
    · exact Function.update_self ..
    · next same =>
        rw [not_not.mp same]
        exact contexts.started c online
  constructor
  · intro a isLive notCurrent
    rw [switched.structs] at isLive
    have notNext : a ≠ nextTask := by
      intro isNext
      apply notCurrent c
      rw [switched.current, if_pos rfl, isNext]
    unfold OwesUnlock
    rw [thread, startedOther a notNext]
    by_cases isPrev : a = m.current c
    · rw [isPrev, contexts.started c online, if_pos rfl, switched.context,
        if_pos ⟨fun same => notNext (isPrev.trans same.symm), rfl⟩]
      exact ⟨caller, rfl⟩
    · have sameContext : ((m.yieldSwitch c caller).sched.tasks a).context =
          (m.sched.tasks a).context := by
        rw [switched.context, if_neg fun both => isPrev both.2]
      rw [sameContext]
      apply contexts.suspended a isLive
      intro c' isCurrent
      by_cases same : c' = c
      · rw [same] at isCurrent
        exact isPrev isCurrent.symm
      · apply notCurrent c'
        rw [switched.current, if_neg same]
        exact isCurrent
  · intro c' onlineAfter
    rw [thread, switched.current]
    split
    · exact startedNext
    · next other =>
        have onlineBefore : m.pc c' ≠ .offline := by
          rwa [switched.pc_other other] at onlineAfter
        by_cases isNext : m.current c' = nextTask
        · rw [isNext]
          exact startedNext
        · rw [startedOther _ isNext]
          exact contexts.started c' onlineBefore

theorem create {attr : Option Attr} {alloc : Allocation} (contexts : Contexts m)
    (threads : Threads m) (here : m.pc c = .user)
    (notInUse : alloc.task ≠ 0 → ¬ InUse m alloc.task) : Contexts (m.create c attr alloc) := by
  rcases m.create_cases c attr alloc with ⟨-, same⟩ | ⟨made, task, someTask, created, outcome⟩
  · rw [same]
    exact contexts
  · have after := contexts.afterCreated threads someTask
      (fun c' isCurrent => notInUse someTask (Or.inl ⟨c', isCurrent⟩)) created
    rcases outcome with ⟨-, isMade⟩ | ⟨-, -, isMade⟩ | ⟨-, -, isMade⟩
    · rw [isMade]
      exact after
    · rw [isMade]
      refine ⟨after.suspended, ?_⟩
      intro c' online
      apply after.started
      by_cases same : c' = c
      · rw [same, created.pc, here]
        simp
      · exact fun isOffline => online ((Function.update_of_ne same ..).trans isOffline)
    · rw [isMade]
      exact ⟨after.suspended, after.started⟩

theorem zero : Contexts Machine.zero where
  suspended := nofun
  started := fun _ online => absurd rfl online

theorem initial (initial : Initial m) : Contexts m := by
  rcases initial with ⟨idle, own, init, rfl⟩
  rcases Machine.schedInit_starts init with ⟨made, idleTask, task, created, starts⟩
  have contexts := zero.afterCreated Threads.zero init.idleTask (fun _ => init.idleTask.symm) created
  have threads := Threads.zero.afterAdding (created.adds init.idleTask)
  apply contexts.afterStart threads starts
  intro c
  rw [created.current]
  exact init.own.symm

end Contexts

theorem Contexts.step (contexts : Contexts m) (valid : Valid m) (taken : Step m action m')
    (unused : AllocatesUnused ⟨m, action, m'⟩) : Contexts m' := by
  rcases taken.ordinary with ⟨c, place, step⟩ | ⟨c, idle, own, here, init, rfl, rfl⟩ |
    ⟨c, attr, alloc, here, -, rfl, rfl⟩ | ⟨c, caller, here, lockFree, -, rfl⟩
  · exact contexts.ordinary step
  · have idleUnused := unused idle.task (by simp [Action.structs]) init.idleTask
    have ownUnused := unused own (by simp [Action.structs]) init.own
    rcases Machine.schedInitSecondary_starts here init with ⟨made, idleTask, task, created, starts⟩
    have idleContexts := contexts.afterCreated valid.threads init.idleTask
      (fun c' isCurrent => idleUnused (Or.inl ⟨c', isCurrent⟩)) created
    have idleThreads := valid.threads.afterAdding (created.adds init.idleTask)
    apply idleContexts.afterStart idleThreads starts
    intro c' isCurrent
    rw [created.current] at isCurrent
    exact ownUnused (Or.inl ⟨c', isCurrent⟩)
  · exact contexts.create valid.threads here (unused alloc.task (by simp [Action.structs]))
  · rcases valid.sound.consistent lockFree with ⟨queue, consistent⟩
    exact contexts.yieldSwitch valid.threads consistent here lockFree

/-! ### Critical sections -/

theorem Sound.lockOk (sound : Sound m) : LockOk m.sched.schedLock m.pc := by
  rcases sound with ⟨queue, consistent⟩ | ⟨c, waiting, inLoop, -, isLocked, othersFree⟩
  · exact consistent.lock
  · have isLockedHere : (m.pc c).locked = true := by
      rw [inLoop]
      rfl
    have onlyHere : ∀ c', (m.pc c').locked = true → c' = c := by
      intro c' locked
      by_contra other
      rw [othersFree c' other] at locked
      cases locked
    refine ⟨iff_of_true isLocked ⟨c, isLockedHere⟩, ?_⟩
    intro c₁ c₂ first second
    rw [onlyHere c₁ first, onlyHere c₂ second]

/-- A step while core `c` is in a critical section: the section goes on with
the lock taken, or this step is its one unlock. Either way core `c` keeps its
task. -/
structure KeepsSection (m : Machine) (action : Action) (m' : Machine) (c : Core) : Prop where
  current : m'.current c = m.current c
  outcome :
    ((m'.pc c).locked = true ∧ m'.sched.schedLock = true) ∨
    ((action = .unlock c ∨ action = .forkUnlock c) ∧ (m'.pc c).locked = false ∧
      m'.sched.schedLock = false)

/-- The task of a core in a critical section stays. -/
theorem Step.current_of_locked (taken : Step m action m') (isLocked : m.sched.schedLock = true)
    (inside : (m.pc c).locked = true) : m'.current c = m.current c := by
  rcases taken.ordinary with ⟨c', place, step⟩ | ⟨c', idle, own, here, init, -, rfl⟩ |
    ⟨c', attr, alloc, here, -, -, rfl⟩ | ⟨c', caller, here, lockFree, -, rfl⟩
  · exact step.keeps.current c
  · rcases Machine.schedInitSecondary_starts here init with ⟨made, idleTask, task, created, starts⟩
    have other : c ≠ c' := by
      rintro rfl
      rw [here] at inside
      cases inside
    rw [starts.current, Function.update_of_ne other, created.current]
  · rcases m.create_cases c' attr alloc with ⟨-, same⟩ | ⟨made, task, -, created, outcome⟩
    · rw [same]
    · rw [← created.current]
      rcases outcome with ⟨-, isMade⟩ | ⟨-, -, isMade⟩ | ⟨-, -, isMade⟩
      · rw [isMade]
      · rw [isMade]
        rfl
      · rw [isMade]
        rfl
  · rw [isLocked] at lockFree
    cases lockFree

theorem Step.keepsSection (taken : Step m action m') (lock : LockOk m.sched.schedLock m.pc)
    (inside : (m.pc c).locked = true) : KeepsSection m action m' c := by
  have isLocked : m.sched.schedLock = true := lock.taken_iff.mpr ⟨c, inside⟩
  refine ⟨taken.current_of_locked isLocked inside, ?_⟩
  have bystander : ∀ c', (m.pc c').locked = false → Bystands m m' c' →
      (m'.pc c).locked = true ∧ m'.sched.schedLock = true := by
    rintro c' outside ⟨⟨place, -, pc⟩, sameLock⟩
    have other : c ≠ c' := by
      rintro rfl
      rw [outside] at inside
      cases inside
    rw [pc, Function.update_of_ne other, sameLock]
    exact ⟨inside, isLocked⟩
  cases taken with
  | initSecondary here init =>
      exact Or.inl (bystander _ (by rw [here]; rfl) (Machine.schedInitSecondary_bystands init.idleTask))
  | create here fresh =>
      exact Or.inl (bystander _ (by rw [here]; rfl) (Machine.create_bystands here))
  | createEnqueue here lockFree => rw [isLocked] at lockFree; cases lockFree
  | join here lockFree handle => rw [isLocked] at lockFree; cases lockFree
  | exit here lockFree => rw [isLocked] at lockFree; cases lockFree
  | yieldSwitch here lockFree => rw [isLocked] at lockFree; cases lockFree
  | @joinTest c' call here =>
      refine Or.inl (bystander c' (by rw [here]; rfl) ?_)
      unfold Machine.joinTest
      split
      · exact ⟨⟨_, rfl, rfl⟩, rfl⟩
      · exact ⟨⟨_, rfl, rfl⟩, rfl⟩
  | @joinReturn c' call here =>
      refine Or.inl (bystander c' (by rw [here]; rfl) ?_)
      unfold Machine.joinReturn
      dsimp only
      split
      · exact ⟨⟨_, rfl, rfl⟩, rfl⟩
      · exact ⟨⟨_, rfl, rfl⟩, rfl⟩
  | callYield here => exact Or.inl (bystander _ (by rw [here]; rfl) ⟨⟨_, rfl, rfl⟩, rfl⟩)
  | @yieldEnter c' caller here =>
      refine Or.inl (bystander c' (by rw [here]; rfl) ?_)
      unfold Machine.yieldEnter
      dsimp only
      split
      · exact ⟨⟨_, rfl, rfl⟩, rfl⟩
      · exact ⟨⟨_, rfl, rfl⟩, rfl⟩
  | @exitWake c' waiting here =>
      have same : c' = c := lock.unique c' c (by rw [here]; rfl) inside
      subst same
      left
      unfold Machine.exitWake
      dsimp only
      split
      · exact ⟨inside, State.schedLock_schedEnqueueTask.trans isLocked⟩
      · refine ⟨?_, State.schedLock_schedDequeueTask.trans isLocked⟩
        show (Function.update m.pc c' (.unlock .exited) c').locked = true
        rw [Function.update_self]
        rfl
  | @unlock c' after here =>
      have same : c' = c := lock.unique c' c (by rw [here]; rfl) inside
      subst same
      right
      have pc : (m.unlock c' after).pc c' = after.resume := by
        rw [(Machine.unlock_ordinary here).pc, Function.update_self]
      refine ⟨Or.inl rfl, ?_, ?_⟩
      · rw [pc]
        exact after.locked_resume
      · unfold Machine.unlock
        dsimp only
        split <;> rfl
  | @forkUnlock c' here =>
      have same : c' = c := lock.unique c' c (by rw [here]; rfl) inside
      subst same
      refine Or.inr ⟨Or.inr rfl, ?_, rfl⟩
      show (Function.update m.pc c' .user c').locked = false
      rw [Function.update_self]
      rfl

/-- The `sched_yield` of core `c` takes the lock, and leaves it to the task it
goes on with: at the end of `sched_yield` if the thread of that task has run
before, in `ret_from_fork` if not. -/
structure HandsOver (m m' : Machine) (c : Core) : Prop where
  wasFree : m.sched.schedLock = false
  isTaken : m'.sched.schedLock = true
  ranBefore : m.history.started (m.history.thread (m'.current c)) = true →
    ∃ caller, m'.pc c = .unlock (.yielded caller)
  firstRun : m.history.started (m.history.thread (m'.current c)) = false → m'.pc c = .forkUnlock

theorem Contexts.handsOver {caller : Caller} (contexts : Contexts m)
    (consistent : m.Consistent queue) (here : m.pc c = .yieldLock caller)
    (lockFree : m.sched.schedLock = false) : HandsOver m (m.yieldSwitch c caller) c := by
  rcases consistent.switched here lockFree with ⟨nextTask, switched⟩
  have current : (m.yieldSwitch c caller).current c = nextTask := by
    rw [switched.current, if_pos rfl]
  have place : (m.yieldSwitch c caller).pc c =
      if nextTask ≠ m.current c then (m.sched.tasks nextTask).context.resume
      else .unlock (.yielded caller) := by
    rw [switched.pc, Function.update_self]
  have owes : nextTask ≠ m.current c → OwesUnlock m nextTask := by
    intro other
    rcases switched.choice.origin with ⟨p, member⟩ | same
    · apply contexts.suspended _ (consistent.queues.live p _ member)
      rintro c' rfl
      exact consistent.currentUnqueued c' p member
    · exact absurd same other
  refine ⟨lockFree, switched.lock, ?_, ?_⟩
  · intro ran
    rw [current] at ran
    rw [place]
    split
    · next other =>
        have owesHere := owes other
        unfold OwesUnlock at owesHere
        rw [ran, if_pos rfl] at owesHere
        rcases owesHere with ⟨saved, context⟩
        rw [context]
        exact ⟨saved, rfl⟩
    · exact ⟨caller, rfl⟩
  · intro neverRan
    rw [current] at neverRan
    have other : nextTask ≠ m.current c := by
      intro same
      have ran := contexts.started c (by rw [here]; simp)
      rw [← same, neverRan] at ran
      cases ran
    have owesHere := owes other
    unfold OwesUnlock at owesHere
    rw [neverRan, if_neg (by simp)] at owesHere
    rw [place, if_pos other, owesHere]
    rfl

/-! ### Whole runs -/

/-- What `sched_lock` is for: it is taken exactly while one core is in a
critical section, and every task no core runs goes on at a place that owes
exactly one unlock. -/
structure LockDiscipline (m : Machine) : Prop where
  lock : LockOk m.sched.schedLock m.pc
  suspended : ∀ t, m.structs t = true → (∀ c, m.current c ≠ t) → OwesUnlock m t

/-- Each step keeps the critical section there is, if any, or ends it by its
one unlock, and each switch hands the lock over. -/
structure LockStep (transition : Transition Machine Action) : Prop where
  keepsSection : ∀ c, (transition.source.pc c).locked = true →
    KeepsSection transition.source transition.label transition.target c
  handsOver : ∀ c, transition.label = .yieldSwitch c →
    HandsOver transition.source transition.target c

/-- In every run that hands out no struct in use, the lock is taken and
released as it has to be. -/
theorem lock_discipline (initial : Initial first) (run : Execution Step first path last)
    (unused : ∀ transition ∈ path, AllocatesUnused transition) :
    LockDiscipline last ∧ ∀ transition ∈ path, LockStep transition := by
  have start : Valid first ∧ Contexts first := ⟨Valid.initial initial, Contexts.initial initial⟩
  have keeps : ∀ source label target, Valid source ∧ Contexts source →
      Step source label target → AllocatesUnused ⟨source, label, target⟩ →
      Valid target ∧ Contexts target := by
    rintro source label target ⟨valid, contexts⟩ taken isUnused
    exact ⟨valid.step taken isUnused, contexts.step valid taken isUnused⟩
  constructor
  · rcases run.invariant_of_allowed AllocatesUnused start keeps unused with ⟨valid, contexts⟩
    exact ⟨valid.sound.lockOk, contexts.suspended⟩
  · intro transition member
    have invariants := run.invariant_at_transition AllocatesUnused start keeps unused
    rcases invariants transition member with ⟨⟨valid, contexts⟩, -⟩
    have taken := run.step_of_mem member
    rcases transition with ⟨source, label, target⟩
    refine ⟨fun c inside => taken.keepsSection valid.sound.lockOk inside, ?_⟩
    intro c isYield
    dsimp only at isYield valid contexts taken ⊢
    subst isYield
    cases taken with
    | yieldSwitch here lockFree =>
        rcases valid.sound.consistent lockFree with ⟨queue, consistent⟩
        exact contexts.handsOver consistent here lockFree

/-- Main creates a thread and yields to it. -/
theorem lock_discipline_one_thread : ∃ path last, Execution Step Machine.booted path last ∧
    last.sched.current 0 = 30 ∧ LockDiscipline last ∧
      ∀ transition ∈ path, LockStep transition := by
  rcases Machine.exists_run Machine.booted
    [.create 0 none (blocksFrom 30), .createEnqueue 0, .unlock 0, .callYield 0, .yieldEnter 0,
      .yieldSwitch 0, .forkUnlock 0]
    (fun path last => decide ((∀ transition ∈ path, FreshStructs transition) ∧
      last.sched.current 0 = 30)) (by decide +kernel) with ⟨path, last, run, holds⟩
  rcases of_decide_eq_true holds with ⟨fresh, isCurrent⟩
  exact ⟨path, last, run, isCurrent, lock_discipline Machine.booted_initial run
    (valid_of_fresh Machine.booted_initial run fresh).2⟩

/-- A thread on core 1 exits, and its struct is freed before core 1 has left
it. Main's next thread gets the struct, the switch of core 1 saves the context
of the dead thread there, and core 0 goes on with that context when it first
runs the new thread. -/
theorem exists_first_run_elsewhere : ∃ path last, Execution Step Machine.booted path last ∧
    ∃ transition ∈ path, transition.label = .yieldSwitch 0 ∧
      ¬ HandsOver transition.source transition.target 0 := by
  rcases Machine.exists_run Machine.booted
    [.initSecondary 1 (blocksFrom 30) 40, .create 0 none (blocksFrom 60), .createEnqueue 0,
      .unlock 0, .callYield 1, .yieldEnter 1, .yieldSwitch 1, .forkUnlock 1,
      .create 0 (some ⟨4096, 0, 3, true⟩) (blocksFrom 50), .createEnqueue 0, .unlock 0,
      .exit 1 7, .exitWake 1, .unlock 1, .yieldEnter 1, .create 0 none ⟨60, 71, 72⟩,
      .createEnqueue 0, .unlock 0, .yieldSwitch 1, .forkUnlock 1, .callYield 0, .yieldEnter 0,
      .yieldSwitch 0]
    (fun path _ => decide (∃ transition ∈ path, transition.label = .yieldSwitch 0 ∧
      transition.source.history.started
        (transition.source.history.thread (transition.target.current 0)) = false ∧
      transition.target.pc 0 ≠ .forkUnlock))
    (by decide +kernel) with ⟨path, last, run, holds⟩
  rcases of_decide_eq_true holds with ⟨transition, member, isYield, neverRan, elsewhere⟩
  exact ⟨path, last, run, transition, member, isYield, fun handsOver =>
    elsewhere (handsOver.firstRun neverRan)⟩

end UniKernel.Pthread
