import UniKernel.Pthread.WakeUp

/-!
Owns the value a `pthread_join` returns. It is read from the target's struct
without the lock, and the join does nothing to keep the struct: it is there
because the target is live when the join is called, and nobody frees it before
the read. Structs are reused, so a join carries the number of the thread its
handle was issued for.
-/

namespace UniKernel.Pthread

open UniKernel.Lib

variable {m m' first last : Machine} {action : Action} {queue : Nat → List Nat} {c : Core}
  {place : Pc} {call : Join} {a t : Nat} {path : List (Transition Machine Action)}

namespace State

variable {s : State} {value : Nat} {state : TaskState}

theorem retValue_setState : ((s.setState t state).tasks a).retValue = (s.tasks a).retValue :=
  field_setTask Task.retValue rfl

theorem retValue_setNext : ((s.setNext t value).tasks a).retValue = (s.tasks a).retValue :=
  field_setTask Task.retValue rfl

theorem retValue_setJoinWaitQueue :
    ((s.setJoinWaitQueue t value).tasks a).retValue = (s.tasks a).retValue :=
  field_setTask Task.retValue rfl

end State

/-- The handle of a join names the thread it was issued for, and the thread's
struct is allocated. -/
def NamesOwn (m : Machine) (call : Join) : Prop :=
  m.structs call.target = true ∧ m.history.thread call.target = call.thread

instance (m : Machine) (call : Join) : Decidable (NamesOwn m call) :=
  inferInstanceAs (Decidable (_ ∧ _))

/-- The struct holds what its thread passed to `pthread_exit`. -/
def Valued (m : Machine) (t : Nat) : Prop :=
  m.history.exitValue (m.history.thread t) = some (m.sched.tasks t).retValue

/-- The join that has seen its target exited and has yet to read the value. -/
def Pc.reads : Pc → Option Join
  | .unlock (.joinDone call) => some call
  | .joinRead call => some call
  | _ => none

theorem Context.reads_resume (context : Context) : context.resume.reads = none := by
  cases context <;> rfl

theorem AfterUnlock.reads_resume (after : AfterUnlock) :
    after.resume.reads = (Pc.unlock after).reads := by
  rcases after with _ | (_ | _ | _) | _ | _ | _ <;> rfl

/-- A returning join stores what the thread it names passed to `pthread_exit`,
and reads it from that thread's own struct while it is allocated. -/
structure JoinReturnOk (transition : Transition Machine Action) : Prop where
  own : ∀ c call, transition.label = .joinReturn c → transition.source.pc c = .joinRead call →
    NamesOwn transition.source call
  value : ∀ c call, transition.label = .joinReturn c → transition.source.pc c = .joinRead call →
    ∃ v, transition.source.history.exitValue call.thread = some v ∧
      (call.valuePtr ≠ 0 → transition.target.results call.valuePtr = v)

/-- A `sched_yield` frees no struct that a join is about to read. -/
def FreesUnread (transition : Transition Machine Action) : Prop :=
  ∀ c, transition.label = .yieldEnter c → (transition.source.sched.cores c).taskToFree ≠ 0 →
    ∀ c' call, (transition.source.pc c').reads = some call →
      call.target ≠ (transition.source.sched.cores c).taskToFree

/-- A join is called while the struct of the thread it names is allocated. -/
def JoinsAllocated (transition : Transition Machine Action) : Prop :=
  ∀ c call, transition.label = .join c call → NamesOwn transition.source call

/-! ### Where a step leads -/

theorem Machine.joinTest_of_exited (exited : m.sched.state call.target = .exited) :
    m.joinTest c call = m.setPc c (.joinRead call) :=
  if_neg (not_not_intro exited)

theorem Machine.joinTest_of_notExited (notExited : m.sched.state call.target ≠ .exited) :
    m.joinTest c call = m.setPc c (.yieldEnter (.join call)) :=
  if_pos notExited

theorem Machine.create_running {attr : Option Attr} {alloc : Allocation} (here : m.pc c = .user) :
    ∃ place, place.mode = .running ∧ (m.create c attr alloc).pc = Function.update m.pc c place := by
  rcases Machine.create_pc here with ⟨place, isUser | isPending, pc⟩
  · exact ⟨place, by rw [isUser]; rfl, pc⟩
  · exact ⟨place, by rw [isPending]; rfl, pc⟩

/-! ### The joins of the cores -/

/-- The joins that a core is in name their own threads, and structs of exited
threads hold the values of these. -/
structure JoinsOwn (m : Machine) : Prop where
  waiting : ∀ c call, (m.pc c).mode = .waiting call → NamesOwn m call
  reading : ∀ c call, (m.pc c).reads = some call → NamesOwn m call ∧ Valued m call.target
  exited : ∀ a, m.structs a = true → m.sched.state a = .exited → Valued m a

/-- A step leaves the structs with their threads and values alone. -/
structure SameValues (m m' : Machine) : Prop where
  structs : m'.structs = m.structs
  thread : m'.history.thread = m.history.thread
  exitValue : m'.history.exitValue = m.history.exitValue
  retValue : ∀ a, (m'.sched.tasks a).retValue = (m.sched.tasks a).retValue
  exited : ∀ a, m'.sched.state a = .exited → m.sched.state a = .exited

namespace SameValues

theorem valued (same : SameValues m m') : Valued m' a ↔ Valued m a := by
  rw [Valued, same.exitValue, same.thread, same.retValue]
  exact Iff.rfl

theorem namesOwn (same : SameValues m m') : NamesOwn m' call ↔ NamesOwn m call := by
  rw [NamesOwn, same.structs, same.thread]
  exact Iff.rfl

/-- A step that changes nothing but the lock in the scheduler. -/
theorem ofTasks (tasks : m'.sched.tasks = m.sched.tasks) (structs : m'.structs = m.structs)
    (thread : m'.history.thread = m.history.thread)
    (exitValue : m'.history.exitValue = m.history.exitValue) : SameValues m m' where
  structs := structs
  thread := thread
  exitValue := exitValue
  retValue := fun a => congrArg (fun tasks => (tasks a).retValue) tasks
  exited := by
    intro a exited
    rw [State.state, tasks] at exited
    exact exited

theorem createEnqueue : SameValues m (m.createEnqueue c t) where
  structs := rfl
  thread := rfl
  exitValue := rfl
  retValue := fun _ => State.field_schedEnqueueTask Task.retValue fun _ => rfl
  exited := by
    intro a exited
    have before : (m.sched.setLock true).state a = .exited :=
      State.state_schedEnqueueTask.symm.trans exited
    exact before

theorem join : SameValues m (m.join c call) := by
  by_cases targetExited : m.sched.state call.target = .exited
  · rw [Machine.join_of_exited targetExited]
    exact ofTasks rfl rfl rfl rfl
  · have joined := Machine.join_joined (c := c) targetExited
    refine ⟨?_, ?_, ?_, ?_, ?_⟩
    · rw [Machine.join_of_notExited targetExited]
      rfl
    · rw [Machine.join_of_notExited targetExited]
      rfl
    · rw [Machine.join_of_notExited targetExited]
      rfl
    · intro a
      rw [Machine.join_of_notExited targetExited]
      exact State.retValue_setJoinWaitQueue.trans
        (State.retValue_setNext.trans State.retValue_setState)
    · intro a exited
      rw [joined.state] at exited
      split at exited
      · cases exited
      · exact exited

theorem joinTest : SameValues m (m.joinTest c call) := by
  unfold Machine.joinTest
  split <;> exact ofTasks rfl rfl rfl rfl

theorem joinReturn : SameValues m (m.joinReturn c call) := by
  unfold Machine.joinReturn
  dsimp only
  split <;> exact ofTasks rfl rfl rfl rfl

theorem exitWake {waiting : Nat} : SameValues m (m.exitWake c waiting) := by
  unfold Machine.exitWake
  dsimp only
  split
  · refine ⟨rfl, rfl, rfl, ?_, ?_⟩
    · exact fun _ => (State.field_schedEnqueueTask Task.retValue fun _ => rfl).trans
        State.retValue_setState
    · intro a exited
      have woken := State.state_schedEnqueueTask.symm.trans exited
      rw [State.state_setState] at woken
      split at woken
      · cases woken
      · exact woken
  · refine ⟨rfl, rfl, rfl, ?_, ?_⟩
    · exact fun _ => (State.field_schedDequeueTask Task.retValue fun _ => rfl).trans
        State.retValue_setJoinWaitQueue
    · exact fun _ exited => (State.state_schedDequeueTask.trans
        State.state_setJoinWaitQueue).symm.trans exited

theorem unlock {after : AfterUnlock} : SameValues m (m.unlock c after) := by
  unfold Machine.unlock
  dsimp only
  split <;> exact ofTasks rfl rfl rfl rfl

theorem switch {caller : Caller} {nextTask : Nat}
    (switched : Switched m m' c caller queue nextTask) : SameValues m m' := by
  refine ⟨switched.structs, switched.keepsHistory History.thread fun _ _ => rfl,
    switched.keepsHistory History.exitValue fun _ _ => rfl, ?_, ?_⟩
  · exact switched.field Task.retValue fun _ => rfl
  · intro a exited
    by_cases isNext : a = nextTask
    · rw [isNext, switched.running] at exited
      cases exited
    · by_cases isPrev : a = m.current c
      · rw [isPrev] at exited isNext ⊢
        rcases switched.prevState (Ne.symm isNext) with same | ⟨-, -, ready⟩
        · exact same.symm.trans exited
        · cases ready.symm.trans exited
      · exact (switched.state a isPrev isNext).symm.trans exited

end SameValues

namespace JoinsOwn

/-- A step of core `c` to `place` that leaves the structs with their values alone. -/
theorem same (joins : JoinsOwn m) (same : SameValues m m')
    (pc : m'.pc = Function.update m.pc c place)
    (waiting : ∀ call, place.mode = .waiting call → NamesOwn m call)
    (reading : ∀ call, place.reads = some call → NamesOwn m call ∧ Valued m call.target) :
    JoinsOwn m' where
  waiting := by
    intro c' call waits
    rw [same.namesOwn]
    rw [pc] at waits
    by_cases isHere : c' = c
    · rw [isHere, Function.update_self] at waits
      exact waiting call waits
    · rw [Function.update_of_ne isHere] at waits
      exact joins.waiting c' call waits
  reading := by
    intro c' call reads
    rw [same.namesOwn, same.valued]
    rw [pc] at reads
    by_cases isHere : c' = c
    · rw [isHere, Function.update_self] at reads
      exact reading call reads
    · rw [Function.update_of_ne isHere] at reads
      exact joins.reading c' call reads
  exited := by
    intro a isLive exited
    rw [same.structs] at isLive
    exact same.valued.mpr (joins.exited a isLive (same.exited a exited))

/-- A step to a place where no join is going on. -/
theorem sameIdle (joins : JoinsOwn m) (keeps : SameValues m m')
    (pc : m'.pc = Function.update m.pc c place) (notWaiting : ∀ call, place.mode ≠ .waiting call)
    (notReading : place.reads = none) : JoinsOwn m' := by
  apply joins.same keeps pc
  · exact fun call waits => absurd waits (notWaiting call)
  · intro call reads
    rw [notReading] at reads
    cases reads

/-- The struct of a new task is not in use, and it has not exited. -/
theorem created {attr : Option Attr} {idle ok : Bool} {new : Nat} {task : Task}
    (joins : JoinsOwn m) (fresh : m.structs new = false)
    (created : Created m m' attr idle new ok task) : JoinsOwn m' := by
  have other : ∀ a, m.structs a = true → a ≠ new := by
    rintro a isLive rfl
    cases fresh.symm.trans isLive
  have thread : ∀ a, a ≠ new → m'.history.thread a = m.history.thread a := by
    intro a notNew
    rw [created.history]
    exact Function.update_of_ne notNew ..
  have named : ∀ call, NamesOwn m call → NamesOwn m' call := by
    intro call named
    have notNew := other _ named.1
    refine ⟨?_, (thread _ notNew).trans named.2⟩
    rw [created.structs, Function.update_of_ne notNew]
    exact named.1
  have valued : ∀ a, a ≠ new → Valued m a → Valued m' a := by
    intro a notNew valued
    rw [Valued, thread a notNew, created.history, created.tasks, if_neg notNew]
    exact valued
  exact {
    waiting := by
      intro c call waits
      rw [created.pc] at waits
      exact named call (joins.waiting c call waits)
    reading := by
      intro c call reads
      rw [created.pc] at reads
      rcases joins.reading c call reads with ⟨own, value⟩
      exact ⟨named call own, valued _ (other _ own.1) value⟩
    exited := by
      intro a isLive exited
      rw [created.structs] at isLive
      by_cases isNew : a = new
      · rw [isNew, Function.update_self] at isLive
        rw [State.state, created.tasks, if_pos isNew, (created.success isLive).1] at exited
        cases exited
      · rw [Function.update_of_ne isNew] at isLive
        rw [State.state, created.tasks, if_neg isNew] at exited
        exact valued a isNew (joins.exited a isLive exited) }

theorem create {attr : Option Attr} {alloc : Allocation} (joins : JoinsOwn m)
    (here : m.pc c = .user) (fresh : FreshAllocation m alloc) :
    JoinsOwn (m.create c attr alloc) := by
  rcases m.create_cases c attr alloc with ⟨-, same⟩ | ⟨made, task, someTask, isCreated, outcome⟩
  · rw [same]
    exact joins
  · have after : JoinsOwn made := joins.created (fresh.task someTask) isCreated
    rcases outcome with ⟨-, isMade⟩ | ⟨-, -, isMade⟩ | ⟨-, -, isMade⟩
    · rw [isMade]
      exact after
    · rw [isMade]
      have moved : (made.setPc c (.createLock alloc.task)).pc =
          Function.update made.pc c (.createLock alloc.task) := rfl
      exact after.sameIdle (SameValues.ofTasks rfl rfl rfl rfl) moved (fun _ waits => by cases waits) rfl
    · rw [isMade]
      have stays : (made.issueHandle alloc.task (m.history.births + 1)).pc =
          Function.update made.pc c .user := by
        rw [← (congrFun isCreated.pc c).trans here, Function.update_eq_self]
        rfl
      exact after.sameIdle (SameValues.ofTasks rfl rfl rfl rfl) stays (fun _ waits => by cases waits) rfl

theorem starts {own : Nat} {task : Task} (joins : JoinsOwn m) (fresh : m.structs own = false)
    (starts : StartsOwn m m' c own task) : JoinsOwn m' := by
  have other : ∀ a, m.structs a = true → a ≠ own := by
    rintro a isLive rfl
    cases fresh.symm.trans isLive
  have pcBefore : ∀ c', m'.pc c' ≠ .user → m'.pc c' = m.pc c' := by
    intro c' notUser
    rw [starts.pc] at notUser ⊢
    apply Function.update_of_ne
    rintro rfl
    exact notUser (Function.update_self ..)
  have named : ∀ call, NamesOwn m call → NamesOwn m' call := by
    intro call named
    have notNew := other _ named.1
    rw [NamesOwn, starts.structs, starts.thread, Function.update_of_ne notNew,
      Function.update_of_ne notNew]
    exact named
  have valued : ∀ a, a ≠ own → Valued m a → Valued m' a := by
    intro a notNew valued
    rw [Valued, starts.exitValue, starts.thread, starts.tasks, Function.update_of_ne notNew,
      Function.update_of_ne notNew]
    exact valued
  exact {
    waiting := by
      intro c' call waits
      rw [pcBefore c' (by intro isUser; rw [isUser] at waits; cases waits)] at waits
      exact named call (joins.waiting c' call waits)
    reading := by
      intro c' call reads
      rw [pcBefore c' (by intro isUser; rw [isUser] at reads; cases reads)] at reads
      rcases joins.reading c' call reads with ⟨isOwn, value⟩
      exact ⟨named call isOwn, valued _ (other _ isOwn.1) value⟩
    exited := by
      intro a isLive exited
      by_cases isNew : a = own
      · rw [State.state, starts.tasks, isNew, Function.update_self, starts.state] at exited
        cases exited
      · rw [starts.structs, Function.update_of_ne isNew] at isLive
        rw [State.state, starts.tasks, Function.update_of_ne isNew] at exited
        exact valued a isNew (joins.exited a isLive exited) }

/-- A `pthread_exit` stores the value of its own thread, and no other struct
belongs to that thread. -/
theorem exit {value : Nat} (joins : JoinsOwn m) (threads : Threads m) (here : m.pc c = .user) :
    JoinsOwn (m.exit c value) := by
  have exits := m.exit_exits c value
  have online : m.pc c ≠ .offline := by
    rw [here]
    simp
  have named : ∀ call, NamesOwn (m.exit c value) call ↔ NamesOwn m call := by
    intro call
    rw [NamesOwn, exits.structs, exits.thread]
    exact Iff.rfl
  have valued : ∀ a, (a ≠ m.current c → Valued m a) → Valued (m.exit c value) a := by
    intro a before
    rw [Valued, exits.exitValue, exits.thread]
    by_cases isOwn : a = m.current c
    · rw [isOwn, Function.update_self, exits.own]
    · have apart : m.history.thread a ≠ m.history.thread (m.current c) := by
        intro sameThread
        apply isOwn
        apply threads.injective a (m.current c) sameThread
        rw [sameThread]
        exact threads.current c online
      rw [Function.update_of_ne apart, exits.task a isOwn]
      exact before isOwn
  exact {
    waiting := by
      intro c' call waits
      rw [named]
      rw [exits.pc] at waits
      by_cases isHere : c' = c
      · rw [isHere, Function.update_self] at waits
        cases waits
      · rw [Function.update_of_ne isHere] at waits
        exact joins.waiting c' call waits
    reading := by
      intro c' call reads
      rw [named]
      rw [exits.pc] at reads
      by_cases isHere : c' = c
      · rw [isHere, Function.update_self] at reads
        cases reads
      · rw [Function.update_of_ne isHere] at reads
        rcases joins.reading c' call reads with ⟨own, value⟩
        exact ⟨own, valued _ fun _ => value⟩
    exited := by
      intro a isLive exited
      apply valued
      intro notOwn
      rw [exits.structs] at isLive
      rw [exits.state, if_neg notOwn] at exited
      exact joins.exited a isLive exited }

/-- A `sched_yield` frees the struct of no join of another core. -/
theorem yieldEnter {caller : Caller} (joins : JoinsOwn m) (here : m.pc c = .yieldEnter caller)
    (unread : FreesUnread ⟨m, .yieldEnter c, m'⟩)
    (unwaited : (m.sched.cores c).taskToFree ≠ 0 → ∀ c' call, (m.pc c').mode = .waiting call →
      call.target ≠ (m.sched.cores c).taskToFree) :
    JoinsOwn (m.yieldEnter c caller) := by
  by_cases empty : (m.sched.cores c).taskToFree = 0
  · have same : m.yieldEnter c caller = m.setPc c (.yieldLock caller) := by
      unfold Machine.yieldEnter
      exact if_neg (not_not_intro empty)
    have moved : (m.setPc c (.yieldLock caller)).pc =
        Function.update m.pc c (.yieldLock caller) := rfl
    have keeps : SameValues m (m.setPc c (.yieldLock caller)) :=
      SameValues.ofTasks rfl rfl rfl rfl
    rw [same]
    apply joins.same keeps moved
    · intro call waits
      apply joins.waiting c call
      rw [here]
      exact waits
    · exact nofun
  · have step : Ordinary m (m.yieldEnter c caller) c (.yieldLock caller) :=
      Machine.yieldEnter_ordinary here
    have freed : m.yieldEnter c caller =
        { (((m.setSched (m.sched.setTaskToFree c 0)).freeBlock
            (m.sched.tasks (m.sched.cores c).taskToFree).stackPage).freeTask
              (m.sched.cores c).taskToFree) with
          reclaimed := Function.update m.reclaimed (m.sched.cores c).taskToFree true
          pc := Function.update m.pc c (.yieldLock caller) } := by
      unfold Machine.yieldEnter
      exact if_pos empty
    have structs : (m.yieldEnter c caller).structs =
        Function.update m.structs (m.sched.cores c).taskToFree false := by
      rw [freed]
      rfl
    have named : ∀ call, call.target ≠ (m.sched.cores c).taskToFree → NamesOwn m call →
        NamesOwn (m.yieldEnter c caller) call := by
      intro call apart named
      rw [NamesOwn, structs, Function.update_of_ne apart, step.keeps.thread]
      exact named
    have valued : ∀ a, Valued m a → Valued (m.yieldEnter c caller) a := by
      intro a valued
      rw [freed]
      exact valued
    have placeBefore : ∀ c', (m.yieldEnter c caller).pc c' = m.pc c' ∨
        c' = c ∧ (m.yieldEnter c caller).pc c' = .yieldLock caller := by
      intro c'
      rw [step.pc]
      by_cases isHere : c' = c
      · rw [isHere, Function.update_self]
        exact Or.inr ⟨rfl, rfl⟩
      · exact Or.inl (Function.update_of_ne isHere ..)
    exact {
      waiting := by
        intro c' call waits
        have before : (m.pc c').mode = .waiting call := by
          rcases placeBefore c' with same | ⟨isHere, place⟩
          · rwa [← same]
          · rw [isHere, here]
            rwa [place] at waits
        exact named call (unwaited empty c' call before) (joins.waiting c' call before)
      reading := by
        intro c' call reads
        rcases placeBefore c' with same | ⟨-, place⟩
        · rw [same] at reads
          rcases joins.reading c' call reads with ⟨own, value⟩
          exact ⟨named call (unread c rfl empty c' call reads) own, valued _ value⟩
        · rw [place] at reads
          cases reads
      exited := by
        intro a isLive exited
        rw [structs, Function.update_apply] at isLive
        split at isLive
        · cases isLive
        · apply valued
          apply joins.exited a isLive
          rw [freed] at exited
          exact exited }

theorem unlock {after : AfterUnlock} (joins : JoinsOwn m) (here : m.pc c = .unlock after) :
    JoinsOwn (m.unlock c after) := by
  apply joins.same SameValues.unlock (Machine.unlock_ordinary here).pc
  · intro call waits
    apply joins.waiting c call
    rw [here]
    exact after.mode_resume.symm.trans waits
  · intro call reads
    apply joins.reading c call
    rw [here]
    exact after.reads_resume.symm.trans reads

theorem join (joins : JoinsOwn m) (named : NamesOwn m call) : JoinsOwn (m.join c call) := by
  by_cases targetExited : m.sched.state call.target = .exited
  · apply joins.same SameValues.join (congrArg Machine.pc (Machine.join_of_exited targetExited))
    · exact nofun
    · intro other reads
      rw [← Option.some.inj reads]
      exact ⟨named, joins.exited _ named.1 targetExited⟩
  · apply joins.same SameValues.join (Machine.join_joined targetExited).pc
    · intro other waits
      rw [← Mode.waiting.inj waits]
      exact named
    · exact nofun

theorem joinTest (joins : JoinsOwn m) (here : m.pc c = .joinLoop call) :
    JoinsOwn (m.joinTest c call) := by
  have named : NamesOwn m call := joins.waiting c call (by rw [here]; rfl)
  by_cases targetExited : m.sched.state call.target = .exited
  · apply joins.same SameValues.joinTest (congrArg Machine.pc (Machine.joinTest_of_exited targetExited))
    · exact nofun
    · intro other reads
      rw [← Option.some.inj reads]
      exact ⟨named, joins.exited _ named.1 targetExited⟩
  · apply joins.same SameValues.joinTest
      (congrArg Machine.pc (Machine.joinTest_of_notExited targetExited))
    · intro other waits
      rw [← Mode.waiting.inj waits]
      exact named
    · exact nofun

theorem exitWake {waiting : Nat} (joins : JoinsOwn m) (here : m.pc c = .exitWake waiting) :
    JoinsOwn (m.exitWake c waiting) := by
  by_cases someWaiter : waiting = 0
  · subst someWaiter
    exact joins.sameIdle SameValues.exitWake (congrArg Machine.pc (m.exitWake_zero c)) nofun rfl
  · have stays : (m.exitWake c waiting).pc = Function.update m.pc c (.exitWake waiting) := by
      rw [(Machine.exitWake_woken someWaiter).pc, ← here, Function.update_eq_self]
    exact joins.sameIdle SameValues.exitWake stays nofun rfl

theorem schedInitSecondary {idle : Allocation} {own : Nat} (joins : JoinsOwn m)
    (here : m.pc c = .offline) (init : InitAllocation m idle own) :
    JoinsOwn (m.schedInitSecondary c idle own) := by
  rcases Machine.schedInitSecondary_starts here init with
    ⟨made, idleTask, task, isCreated, starts⟩
  have freshOwn : made.structs own = false := by
    rw [isCreated.structs, Function.update_of_ne init.apart]
    exact init.ownFresh init.own
  exact (joins.created (init.fresh.task init.idleTask) isCreated).starts freshOwn starts

/-- Every step but the switch. -/
theorem step (joins : JoinsOwn m) (threads : Threads m) (taken : Step m action m')
    (noSwitch : ∀ c, action ≠ .yieldSwitch c) (unread : FreesUnread ⟨m, action, m'⟩)
    (allocated : JoinsAllocated ⟨m, action, m'⟩)
    (unwaited : ∀ c, action = .yieldEnter c → (m.sched.cores c).taskToFree ≠ 0 →
      ∀ c' call, (m.pc c').mode = .waiting call →
        call.target ≠ (m.sched.cores c).taskToFree) :
    JoinsOwn m' := by
  cases taken with
  | initSecondary here init => exact joins.schedInitSecondary here init
  | create here fresh => exact joins.create here fresh
  | createEnqueue here lockFree =>
      exact joins.sameIdle SameValues.createEnqueue (Machine.createEnqueue_ordinary here).pc nofun
        rfl
  | @join c call here lockFree handle => exact joins.join (allocated c call rfl)
  | joinTest here => exact joins.joinTest here
  | joinReturn here =>
      exact joins.sameIdle SameValues.joinReturn (Machine.joinReturn_ordinary here).pc nofun rfl
  | exit here lockFree => exact joins.exit threads here
  | exitWake here => exact joins.exitWake here
  | callYield here =>
      exact joins.sameIdle (SameValues.ofTasks rfl rfl rfl rfl) (Machine.callYield_ordinary here).pc
        nofun rfl
  | @yieldEnter c caller here => exact joins.yieldEnter here unread (unwaited c rfl)
  | @yieldSwitch c caller here lockFree => exact absurd rfl (noSwitch c)
  | unlock here => exact joins.unlock here
  | forkUnlock here =>
      exact joins.sameIdle (SameValues.ofTasks rfl rfl rfl rfl) (Machine.forkUnlock_ordinary here).pc
        nofun rfl

end JoinsOwn

/-! ### Suspended joins -/

/-- A task that is ready in the loop of a `pthread_join` names the thread it
waits for, which has not exited. -/
def ReadyOwn (m : Machine) : Prop :=
  ∀ a call, m.structs a = true → m.sched.state a = .ready →
    (m.sched.tasks a).context = .yielded (.join call) → NamesOwn m call ∧ JoinOk m.sched call

namespace ReadyOwn

/-- A step that makes no task ready and switches to none. -/
theorem same (ready : ReadyOwn m) (same : SameValues m m')
    (context : ∀ a, (m'.sched.tasks a).context = (m.sched.tasks a).context)
    (state : ∀ a, m'.sched.state a = .ready → m.sched.state a = .ready)
    (waited : ∀ call, JoinOk m.sched call → (m'.sched.tasks call.target).joinWaitQueue ≠ 0)
    (notExited : ∀ call, JoinOk m.sched call → m'.sched.state call.target ≠ .exited) :
    ReadyOwn m' := by
  intro a call isLive isReady saved
  rw [same.structs] at isLive
  rw [context] at saved
  rcases ready a call isLive (state a isReady) saved with ⟨named, join⟩
  exact ⟨same.namesOwn.mpr named, waited call join, notExited call join⟩

/-- A step that changes nothing but the lock in the scheduler. -/
theorem ofTasks (ready : ReadyOwn m) (keeps : SameValues m m')
    (tasks : m'.sched.tasks = m.sched.tasks) : ReadyOwn m' := by
  apply ready.same keeps
  · exact fun a => congrArg (fun tasks => (tasks a).context) tasks
  · intro a isReady
    rw [State.state, tasks] at isReady
    exact isReady
  · intro call join
    rw [tasks]
    exact join.waited
  · exact fun call join exited => join.notExited (keeps.exited _ exited)

/-- Making tasks, in structs that were not allocated. -/
theorem adds {new : Nat} (ready : ReadyOwn m) (fresh : m.structs new = false)
    (adds : Adds m m' new) (tasks : ∀ a, a ≠ new → m'.sched.tasks a = m.sched.tasks a)
    (structs : ∀ a, a ≠ new → m'.structs a = m.structs a) : ReadyOwn m' := by
  intro a call isLive isReady saved
  by_cases isNew : a = new
  · rw [isNew] at saved
    exact absurd saved (adds.newContext _)
  · rw [structs a isNew] at isLive
    rw [State.state, tasks a isNew] at isReady
    rw [tasks a isNew] at saved
    rcases ready a call isLive isReady saved with ⟨named, join⟩
    have notNew : call.target ≠ new := by
      intro isTarget
      rw [NamesOwn, isTarget, fresh] at named
      cases named.1
    refine ⟨⟨?_, ?_⟩, ?_, ?_⟩
    · rw [structs _ notNew]
      exact named.1
    · rw [adds.thread, Function.update_of_ne notNew]
      exact named.2
    · rw [tasks _ notNew]
      exact join.waited
    · rw [State.state, tasks _ notNew]
      exact join.notExited

theorem created {attr : Option Attr} {idle ok : Bool} {new : Nat} {task : Task}
    (ready : ReadyOwn m) (fresh : m.structs new = false) (nonzero : new ≠ 0)
    (created : Created m m' attr idle new ok task) : ReadyOwn m' := by
  apply ready.adds fresh (created.adds nonzero)
  · intro a other
    rw [created.tasks, if_neg other]
  · intro a other
    rw [created.structs, Function.update_of_ne other]

theorem starts {own : Nat} {task : Task} (ready : ReadyOwn m) (fresh : m.structs own = false)
    (starts : StartsOwn m m' c own task) : ReadyOwn m' := by
  apply ready.adds fresh starts.adds
  · intro a other
    rw [starts.tasks, Function.update_of_ne other]
  · intro a other
    rw [starts.structs, Function.update_of_ne other]

theorem create {attr : Option Attr} {alloc : Allocation} (ready : ReadyOwn m)
    (fresh : FreshAllocation m alloc) : ReadyOwn (m.create c attr alloc) := by
  rcases m.create_cases c attr alloc with ⟨-, same⟩ | ⟨made, task, someTask, isCreated, outcome⟩
  · rw [same]
    exact ready
  · have after : ReadyOwn made := ready.created (fresh.task someTask) someTask isCreated
    rcases outcome with ⟨-, isMade⟩ | ⟨-, -, isMade⟩ | ⟨-, -, isMade⟩
    · rw [isMade]
      exact after
    · rw [isMade]
      exact after.ofTasks (SameValues.ofTasks rfl rfl rfl rfl) rfl
    · rw [isMade]
      exact after.ofTasks (SameValues.ofTasks rfl rfl rfl rfl) rfl

theorem schedInitSecondary {idle : Allocation} {own : Nat} (ready : ReadyOwn m)
    (here : m.pc c = .offline) (init : InitAllocation m idle own) :
    ReadyOwn (m.schedInitSecondary c idle own) := by
  rcases Machine.schedInitSecondary_starts here init with
    ⟨made, idleTask, task, isCreated, starts⟩
  have freshOwn : made.structs own = false := by
    rw [isCreated.structs, Function.update_of_ne init.apart]
    exact init.ownFresh init.own
  exact (ready.created (init.fresh.task init.idleTask) init.idleTask isCreated).starts freshOwn
    starts

theorem join (ready : ReadyOwn m) (nonzero : m.current c ≠ 0) : ReadyOwn (m.join c call) := by
  by_cases targetExited : m.sched.state call.target = .exited
  · apply ready.ofTasks SameValues.join
    rw [Machine.join_of_exited targetExited]
    rfl
  · have joined := Machine.join_joined (c := c) targetExited
    apply ready.same SameValues.join
    · intro a
      rw [Machine.join_of_notExited targetExited]
      exact State.context_setJoinWaitQueue.trans
        (State.context_setNext.trans State.context_setState)
    · intro a isReady
      rw [joined.state] at isReady
      split at isReady
      · cases isReady
      · exact isReady
    · intro other join
      rw [joined.joinWaitQueue]
      split
      · exact nonzero
      · exact join.waited
    · exact fun other join exited => join.notExited (SameValues.join.exited _ exited)

/-- A `pthread_exit` of a thread that nobody waits for. -/
theorem exit {value : Nat} (ready : ReadyOwn m)
    (noWaiter : (m.sched.tasks (m.current c)).joinWaitQueue = 0) :
    ReadyOwn (m.exit c value) := by
  have exits := m.exit_exits c value
  have sameQueue : ∀ a, ((m.exit c value).sched.tasks a).joinWaitQueue =
      (m.sched.tasks a).joinWaitQueue := by
    intro a
    by_cases isOwn : a = m.current c
    · rw [isOwn, exits.own]
    · rw [exits.task a isOwn]
  intro a call isLive isReady saved
  have notOwn : a ≠ m.current c := by
    rintro rfl
    rw [exits.state, if_pos rfl] at isReady
    cases isReady
  rw [exits.structs] at isLive
  rw [exits.state, if_neg notOwn] at isReady
  rw [exits.task a notOwn] at saved
  rcases ready a call isLive isReady saved with ⟨named, join⟩
  have targetApart : call.target ≠ m.current c := by
    intro isTarget
    apply join.waited
    rw [isTarget, noWaiter]
  refine ⟨?_, ?_, ?_⟩
  · rw [NamesOwn, exits.structs, exits.thread]
    exact named
  · rw [sameQueue]
    exact join.waited
  · rw [exits.state, if_neg targetApart]
    exact join.notExited

/-- What `pthread_exit` does behind its loop. -/
theorem exitWake (ready : ReadyOwn m) (exited : m.sched.state (m.current c) = .exited) :
    ReadyOwn (m.exitWake c 0) := by
  have queueAfter : ∀ a, ((m.exitWake c 0).sched.tasks a).joinWaitQueue =
      if a = m.current c then 0 else (m.sched.tasks a).joinWaitQueue := by
    intro a
    rw [m.exitWake_zero c]
    exact (State.field_schedDequeueTask Task.joinWaitQueue fun _ => rfl).trans
      State.joinWaitQueue_setJoinWaitQueue
  apply ready.same SameValues.exitWake
  · intro a
    rw [m.exitWake_zero c]
    exact State.context_schedDequeueTask.trans State.context_setJoinWaitQueue
  · intro a isReady
    rw [m.exitWake_zero c] at isReady
    exact (State.state_schedDequeueTask.trans State.state_setJoinWaitQueue).symm.trans isReady
  · intro call join
    have apart : call.target ≠ m.current c := fun isTarget =>
      join.notExited (isTarget ▸ exited)
    rw [queueAfter, if_neg apart]
    exact join.waited
  · exact fun call join isExited => join.notExited (SameValues.exitWake.exited _ isExited)

end ReadyOwn

/-- In a consistent machine the task in `task_to_free` has exited. -/
theorem Machine.Consistent.toFree_exited (consistent : m.Consistent queue)
    (someTask : (m.sched.cores c).taskToFree ≠ 0) :
    m.sched.state (m.sched.cores c).taskToFree = .exited := by
  have own := consistent.mode c
  rcases consistent.toFree c with none | ⟨isCurrent, reclaiming⟩
  · exact absurd none someTask
  · rw [isCurrent]
    generalize m.pc c = place at own reclaiming
    cases place with
    | exitWake waiting => exact own.2.2.1
    | unlock after =>
        cases after with
        | exited => exact own
        | _ => cases reclaiming
    | yieldEnter caller =>
        cases caller with
        | exit => exact own
        | _ => cases reclaiming
    | _ => cases reclaiming

/-- A join in progress waits for a thread that has not exited. -/
theorem Machine.Consistent.joinOk (consistent : m.Consistent queue)
    (waits : (m.pc c).mode = .waiting call) : JoinOk m.sched call := by
  have own := consistent.mode c
  rw [waits] at own
  exact own.2.2

theorem ReadyOwn.yieldEnter {caller : Caller} (ready : ReadyOwn m)
    (consistent : m.Consistent queue) (here : m.pc c = .yieldEnter caller) :
    ReadyOwn (m.yieldEnter c caller) := by
  by_cases empty : (m.sched.cores c).taskToFree = 0
  · have same : m.yieldEnter c caller = m.setPc c (.yieldLock caller) := by
      unfold Machine.yieldEnter
      exact if_neg (not_not_intro empty)
    have keeps : SameValues m (m.setPc c (.yieldLock caller)) :=
      SameValues.ofTasks rfl rfl rfl rfl
    rw [same]
    exact ready.ofTasks keeps rfl
  · have isExited := consistent.toFree_exited empty
    have step : Ordinary m (m.yieldEnter c caller) c (.yieldLock caller) :=
      Machine.yieldEnter_ordinary here
    have tasks : (m.yieldEnter c caller).sched.tasks = m.sched.tasks := by
      unfold Machine.yieldEnter
      rw [if_pos empty]
      rfl
    have structs : (m.yieldEnter c caller).structs =
        Function.update m.structs (m.sched.cores c).taskToFree false := by
      unfold Machine.yieldEnter
      rw [if_pos empty]
      rfl
    intro a call isLive isReady saved
    rw [State.state, tasks] at isReady
    rw [tasks] at saved
    rcases ready a call (step.keeps.structs a isLive) isReady saved with ⟨named, join⟩
    have apart : call.target ≠ (m.sched.cores c).taskToFree := fun isTarget =>
      join.notExited (isTarget ▸ isExited)
    refine ⟨?_, ?_, ?_⟩
    · rw [NamesOwn, structs, Function.update_of_ne apart, step.keeps.thread]
      exact named
    · rw [tasks]
      exact join.waited
    · rw [State.state, tasks]
      exact join.notExited

theorem ReadyOwn.switch {caller : Caller} {nextTask : Nat} (ready : ReadyOwn m)
    (joins : JoinsOwn m) (consistent : m.Consistent queue) (here : m.pc c = .yieldLock caller)
    (switched : Switched m m' c caller queue nextTask) : ReadyOwn m' := by
  have same : SameValues m m' := SameValues.switch switched
  intro a call isLive isReady saved
  have notNext : a ≠ nextTask := by
    rintro rfl
    cases switched.running.symm.trans isReady
  have before : NamesOwn m call ∧ JoinOk m.sched call := by
    rw [switched.context] at saved
    by_cases isPrev : a = m.current c
    · -- the task that is switched away from was in the loop on this core
      have otherNext : nextTask ≠ m.current c := fun isNext => notNext (isPrev.trans isNext.symm)
      rw [if_pos ⟨otherNext, isPrev⟩] at saved
      have waits : (m.pc c).mode = .waiting call := by
        rw [here, Context.yielded.inj saved]
        rfl
      exact ⟨joins.waiting c call waits, consistent.joinOk waits⟩
    · rw [if_neg fun both => isPrev both.2] at saved
      rw [switched.structs] at isLive
      exact ready a call isLive ((switched.state a isPrev notNext).symm.trans isReady) saved
  rcases before with ⟨named, join⟩
  refine ⟨same.namesOwn.mpr named, ?_, fun exited => join.notExited (same.exited _ exited)⟩
  rw [switched.field Task.joinWaitQueue fun _ => rfl]
  exact join.waited

theorem JoinsOwn.switch {caller : Caller} {nextTask : Nat} (joins : JoinsOwn m)
    (ready : ReadyOwn m) (consistent : m.Consistent queue) (here : m.pc c = .yieldLock caller)
    (switched : Switched m m' c caller queue nextTask) : JoinsOwn m' := by
  have stays : ∀ call, (Pc.unlock (.yielded caller)).mode = .waiting call → NamesOwn m call := by
    intro call waits
    apply joins.waiting c call
    rw [here]
    cases caller with
    | user => cases waits
    | join other => exact waits
    | exit => cases waits
  apply joins.same (SameValues.switch switched) switched.pc
  · intro call waits
    split at waits
    · next otherNext =>
        rcases isSaved : (m.sched.tasks nextTask).context with _ | _ | caller'
        · rw [isSaved] at waits
          cases waits
        · rw [isSaved] at waits
          cases waits
        · rw [isSaved] at waits
          have isJoin : caller' = .join call := by
            cases caller' with
            | user => cases waits
            | join other => rw [Mode.waiting.inj waits]
            | exit => cases waits
          rw [isJoin] at isSaved
          rcases switched.choice.origin with ⟨p, member⟩ | isCurrent
          · exact (ready nextTask call (consistent.queues.live p _ member)
              (consistent.queues.ready p _ member) isSaved).1
          · exact absurd isCurrent otherNext
    · exact stays call waits
  · intro call reads
    exfalso
    split at reads
    · rw [Context.reads_resume] at reads
      cases reads
    · cases reads

/-! ### Whole runs -/

/-- With the lock taken no join begins. -/
theorem Step.waiting_of_locked (taken : Step m action m') (isLocked : m.sched.schedLock = true)
    (waits : (m'.pc c).mode = .waiting call) : (m.pc c).mode = .waiting call := by
  have back : ∀ {c' : Core} {place : Pc}, m'.pc = Function.update m.pc c' place →
      (place.mode = .waiting call → (m.pc c').mode = .waiting call) →
      (m.pc c).mode = .waiting call := by
    intro c' place pc before
    rw [pc] at waits
    by_cases isHere : c = c'
    · rw [isHere, Function.update_self] at waits
      rw [isHere]
      exact before waits
    · rwa [Function.update_of_ne isHere] at waits
  cases taken with
  | initSecondary here init =>
      rcases Machine.schedInitSecondary_starts here init with ⟨made, _, _, isCreated, starts⟩
      exact back (starts.pc.trans (congrArg (Function.update · _ _) isCreated.pc)) nofun
  | @create c' attr alloc here fresh =>
      rcases Machine.create_running here with ⟨place, running, pc⟩
      apply back pc
      rw [running]
      exact nofun
  | createEnqueue here lockFree => rw [isLocked] at lockFree; cases lockFree
  | join here lockFree handle => rw [isLocked] at lockFree; cases lockFree
  | @joinTest c' call' here =>
      by_cases targetExited : m.sched.state call'.target = .exited
      · exact back (congrArg Machine.pc (Machine.joinTest_of_exited targetExited)) nofun
      · apply back (congrArg Machine.pc (Machine.joinTest_of_notExited targetExited))
        rw [here]
        exact id
  | joinReturn here => exact back (Machine.joinReturn_ordinary here).pc nofun
  | exit here lockFree => rw [isLocked] at lockFree; cases lockFree
  | @exitWake c' waiting here =>
      by_cases someWaiter : waiting = 0
      · subst someWaiter
        exact back (congrArg Machine.pc (m.exitWake_zero c')) nofun
      · rwa [(Machine.exitWake_woken someWaiter).pc] at waits
  | callYield here => exact back (Machine.callYield_ordinary here).pc nofun
  | yieldEnter here =>
      apply back (Machine.yieldEnter_ordinary here).pc
      rw [here]
      exact id
  | yieldSwitch here lockFree => rw [isLocked] at lockFree; cases lockFree
  | @unlock c' after here =>
      apply back (Machine.unlock_ordinary here).pc
      rw [here, after.mode_resume]
      exact id
  | forkUnlock here => exact back (Machine.forkUnlock_ordinary here).pc nofun

/-- Beside the loop of core `c` no other core frees what a join waits for. -/
structure JoinsBeside (m : Machine) (c : Core) (waiting : Nat) : Prop where
  waking : Waking m c waiting
  threads : Threads m
  joins : JoinsOwn m
  unfreed : ∀ c', c' ≠ c → (m.sched.cores c').taskToFree ≠ 0 →
    ∀ c₂ call, (m.pc c₂).mode = .waiting call → call.target ≠ (m.sched.cores c').taskToFree

/-- The states of all runs in which no struct in use is handed out again, joins
are called on allocated structs, and no struct is freed that a join is about to
read. -/
def JoinsSafe (m : Machine) : Prop :=
  (∃ queue, m.Consistent queue ∧ Threads m ∧ JoinsOwn m ∧ ReadyOwn m) ∨
    ∃ c waiting, JoinsBeside m c waiting

theorem JoinsBeside.step {waiting : Nat} (beside : JoinsBeside m c waiting)
    (taken : Step m action m') (unused : AllocatesUnused ⟨m, action, m'⟩)
    (unread : FreesUnread ⟨m, action, m'⟩) (allocated : JoinsAllocated ⟨m, action, m'⟩) :
    JoinsBeside m' c waiting := by
  have waking := beside.waking
  have isLocked := waking.isLocked
  refine ⟨waking.step taken, beside.threads.step (Or.inr ⟨c, waiting, waking⟩) taken, ?_, ?_⟩
  · apply beside.joins.step beside.threads taken _ unread allocated
    · rintro c' rfl
      apply beside.unfreed
      rintro rfl
      cases taken with
      | yieldEnter here => cases waking.here.symm.trans here
    · rintro c' rfl
      cases taken with
      | yieldSwitch here lockFree => cases isLocked.symm.trans lockFree
  · intro c' other someTask c₂ call waits
    have before := taken.waiting_of_locked isLocked waits
    rcases waking.aside taken unused with aside | ⟨-, rfl⟩
    · rcases aside.taskToFree c' with same | none
      · rw [same] at someTask ⊢
        exact beside.unfreed c' other someTask c₂ call before
      · exact absurd none someTask
    · rw [(Machine.exitWake_woken waking.someWaiter).cores] at someTask ⊢
      exact beside.unfreed c' other someTask c₂ call before

theorem ReadyOwn.step (ready : ReadyOwn m) (joins : JoinsOwn m) (consistent : m.Consistent queue)
    (taken : Step m action m')
    (noWaiter : ∀ c value, action = .exit c value →
      (m.sched.tasks (m.current c)).joinWaitQueue = 0) : ReadyOwn m' := by
  cases taken with
  | initSecondary here init => exact ready.schedInitSecondary here init
  | create here fresh => exact ready.create fresh
  | @createEnqueue c t here lockFree =>
      apply ready.same SameValues.createEnqueue
        (Machine.createEnqueue_ordinary here).keeps.context
      · intro a isReady
        have before : (m.sched.setLock true).state a = .ready :=
          State.state_schedEnqueueTask.symm.trans isReady
        exact before
      · intro call join
        rw [show ((m.createEnqueue c t).sched.tasks call.target).joinWaitQueue = _ from
          State.field_schedEnqueueTask Task.joinWaitQueue fun _ => rfl]
        exact join.waited
      · exact fun call join exited =>
          join.notExited (SameValues.createEnqueue.exited _ exited)
  | @join c call here lockFree handle =>
      exact ready.join (consistent.currentNonzero c (by rw [here]; simp))
  | @joinTest c call here =>
      apply ready.ofTasks SameValues.joinTest
      unfold Machine.joinTest
      split <;> rfl
  | @joinReturn c call here =>
      apply ready.ofTasks SameValues.joinReturn
      unfold Machine.joinReturn
      dsimp only
      split <;> rfl
  | @exit c value here lockFree => exact ready.exit (noWaiter c value rfl)
  | @exitWake c waiting here =>
      have own := consistent.mode c
      rw [here] at own
      rw [own.1]
      exact ready.exitWake own.2.2.1
  | callYield here => exact ready.ofTasks (SameValues.ofTasks rfl rfl rfl rfl) rfl
  | yieldEnter here => exact ready.yieldEnter consistent here
  | yieldSwitch here lockFree =>
      rcases consistent.switched here lockFree with ⟨nextTask, switched⟩
      exact ready.switch joins consistent here switched
  | @unlock c after here =>
      apply ready.ofTasks SameValues.unlock
      unfold Machine.unlock
      dsimp only
      split <;> rfl
  | forkUnlock here => exact ready.ofTasks (SameValues.ofTasks rfl rfl rfl rfl) rfl

theorem JoinsOwn.step_of_consistent (joins : JoinsOwn m) (ready : ReadyOwn m)
    (threads : Threads m) (consistent : m.Consistent queue) (taken : Step m action m')
    (unread : FreesUnread ⟨m, action, m'⟩) (allocated : JoinsAllocated ⟨m, action, m'⟩) :
    JoinsOwn m' := by
  by_cases isSwitch : ∃ c, action = .yieldSwitch c
  · rcases isSwitch with ⟨c, rfl⟩
    cases taken with
    | yieldSwitch here lockFree =>
        rcases consistent.switched here lockFree with ⟨nextTask, switched⟩
        exact joins.switch ready consistent here switched
  · apply joins.step threads taken (fun c same => isSwitch ⟨c, same⟩) unread allocated
    rintro c rfl someTask c' call waits isTarget
    have isExited := consistent.toFree_exited someTask
    exact (consistent.joinOk waits).notExited (isTarget ▸ isExited)

theorem JoinsSafe.step (safe : JoinsSafe m) (taken : Step m action m')
    (unused : AllocatesUnused ⟨m, action, m'⟩) (unread : FreesUnread ⟨m, action, m'⟩)
    (allocated : JoinsAllocated ⟨m, action, m'⟩) : JoinsSafe m' := by
  rcases safe with ⟨queue, consistent, threads, joins, ready⟩ | ⟨c, waiting, beside⟩
  · have threads' : Threads m' := threads.step (Or.inl ⟨queue, consistent⟩) taken
    have joins' : JoinsOwn m' :=
      joins.step_of_consistent ready threads consistent taken unread allocated
    rcases consistent.step taken unused with
      ⟨queue', consistent'⟩ | ⟨c, value, here, lockFree, someWaiter, rfl, rfl⟩
    · refine Or.inl ⟨queue', consistent', threads', joins', ?_⟩
      apply ready.step joins consistent taken
      rintro c value rfl
      cases taken with
      | exit here lockFree =>
          -- with a waiter the loop would be entered, and the machine not consistent
          have inLoop := consistent'.mode c
          rw [Machine.exit_waiters, Function.update_self] at inLoop
          exact inLoop.1
    · have exits := m.exit_exits c value
      refine Or.inr ⟨c, _, Machine.exit_waking consistent.lock lockFree someWaiter, threads',
        joins', ?_⟩
      intro c' other someTask c₂ call waits isTarget
      rw [exits.taskToFree, if_neg other] at someTask isTarget
      have before : (m.pc c₂).mode = .waiting call := by
        rw [exits.pc] at waits
        by_cases isHere : c₂ = c
        · rw [isHere, Function.update_self] at waits
          cases waits
        · rwa [Function.update_of_ne isHere] at waits
      have isExited := consistent.toFree_exited someTask
      exact (consistent.joinOk before).notExited (isTarget ▸ isExited)
  · exact Or.inr ⟨c, waiting, beside.step taken unused unread allocated⟩

theorem JoinsSafe.initial (initial : Initial m) : JoinsSafe m := by
  have threads := Threads.initial initial
  rcases initial with ⟨idle, own, init, rfl⟩
  rcases Machine.schedInit_consistent init with ⟨queue, consistent⟩
  rcases Machine.schedInit_starts init with ⟨made, idleTask, task, isCreated, starts⟩
  have freshOwn : made.structs own = false := by
    rw [isCreated.structs, Function.update_of_ne init.apart]
    rfl
  have joins : JoinsOwn Machine.zero := ⟨nofun, nofun, nofun⟩
  have ready : ReadyOwn Machine.zero := fun _ _ isLive => nomatch isLive
  exact Or.inl ⟨queue, consistent, threads, (joins.created rfl isCreated).starts freshOwn starts,
    (ready.created rfl init.idleTask isCreated).starts freshOwn starts⟩

theorem JoinsSafe.joins (safe : JoinsSafe m) : JoinsOwn m := by
  rcases safe with ⟨queue, -, -, joins, -⟩ | ⟨c, waiting, beside⟩
  · exact joins
  · exact beside.joins

theorem JoinsOwn.joinReturnOk (joins : JoinsOwn m) (taken : Step m action m') :
    JoinReturnOk ⟨m, action, m'⟩ := by
  have own : ∀ c call, m.pc c = .joinRead call → NamesOwn m call ∧ Valued m call.target := by
    intro c call here
    exact joins.reading c call (by rw [here]; rfl)
  constructor
  · exact fun c call _ here => (own c call here).1
  · intro c call isReturn here
    rcases own c call here with ⟨named, valued⟩
    refine ⟨(m.sched.tasks call.target).retValue, ?_, ?_⟩
    · rw [← named.2]
      exact valued
    · intro someResult
      dsimp only at isReturn
      subst isReturn
      cases taken with
      | joinReturn here' =>
          rw [Pc.joinRead.inj (here'.symm.trans here), Machine.joinReturn, if_pos someResult]
          exact Function.update_self ..

/-- In every run that hands out no struct in use, whose joins are called while
the struct of the thread they name is allocated, and in which no `sched_yield`
frees a struct that a join is about to read, a join that returns has stored what
its own thread passed to `pthread_exit`. -/
theorem joins_return_own_values (initial : Initial first) (run : Execution Step first path last)
    (unused : ∀ transition ∈ path, AllocatesUnused transition)
    (unread : ∀ transition ∈ path, FreesUnread transition)
    (allocated : ∀ transition ∈ path, JoinsAllocated transition) :
    ∀ transition ∈ path, JoinReturnOk transition := by
  have safe : ∀ transition ∈ path, JoinsSafe transition.source ∧ JoinsSafe transition.target := by
    apply run.invariant_at_transition (fun transition => AllocatesUnused transition ∧
      FreesUnread transition ∧ JoinsAllocated transition) (JoinsSafe.initial initial)
    · exact fun source label target safe taken allowed =>
        safe.step taken allowed.1 allowed.2.1 allowed.2.2
    · exact fun transition member =>
        ⟨unused transition member, unread transition member, allocated transition member⟩
  intro transition member
  exact (safe transition member).1.joins.joinReturnOk (run.step_of_mem member)

instance (pc : Pc) (freed : Nat) : Decidable (∀ call, pc.reads = some call → call.target ≠ freed) :=
  match pc.reads with
  | none => isTrue nofun
  | some call =>
      if same : call.target = freed then isFalse fun apart => apart call rfl same
      else isTrue fun _ isCall => Option.some.inj isCall ▸ same

instance (transition : Transition Machine Action) : Decidable (FreesUnread transition) :=
  inferInstanceAs (Decidable (∀ c, transition.label = .yieldEnter c →
    (transition.source.sched.cores c).taskToFree ≠ 0 → ∀ c',
      ∀ call, (transition.source.pc c').reads = some call →
        call.target ≠ (transition.source.sched.cores c).taskToFree))

/-- The join that a step calls. -/
def Action.joins : Action → Option Join
  | .join _ call => some call
  | _ => none

instance (transition : Transition Machine Action) : Decidable (JoinsAllocated transition) :=
  decidable_of_iff (∀ call ∈ transition.label.joins, NamesOwn transition.source call) <| by
    constructor
    · intro named c call isJoin
      apply named
      rw [isJoin]
      rfl
    · intro allocated call isJoin
      rcases transition with ⟨source, label, target⟩
      cases label with
      | join c other =>
          rw [← Option.some.inj isJoin]
          exact allocated c other rfl
      | _ => cases isJoin

/-- A thread that core 1 runs exits while main is in the loop of its join, and
main stores its value. -/
theorem joins_return_own_values_two_cores : ∃ path last,
    Execution Step Machine.booted path last ∧ last.results 100 = 7 ∧
      ∀ transition ∈ path, JoinReturnOk transition := by
  rcases Machine.exists_run Machine.booted
    [.initSecondary 1 (blocksFrom 40) 50, .create 0 none (blocksFrom 30), .createEnqueue 0,
      .unlock 0, .callYield 1, .yieldEnter 1, .yieldSwitch 1, .forkUnlock 1, .join 0 ⟨30, 5, 100⟩,
      .unlock 0, .exit 1 7, .exitWake 1, .joinTest 0, .joinReturn 0]
    (fun path last => decide ((∀ transition ∈ path, FreshStructs transition) ∧
      (∀ transition ∈ path, FreesUnread transition) ∧
      (∀ transition ∈ path, JoinsAllocated transition) ∧ last.results 100 = 7))
    (by decide +kernel) with ⟨path, last, run, holds⟩
  rcases of_decide_eq_true holds with ⟨fresh, unread, allocated, stored⟩
  exact ⟨path, last, run, stored, joins_return_own_values Machine.booted_initial run
    (valid_of_fresh Machine.booted_initial run fresh).2 unread allocated⟩

/-- A thread exits with 7 and its struct is freed, and main creates another
thread in the same struct, which core 1 runs. Main joins the first thread, and
its join returns the 9 of the second. -/
theorem exists_join_of_other_value : ∃ path last, Execution Step Machine.booted path last ∧
    last.results 100 = 9 ∧ ∃ transition ∈ path, transition.label = .joinReturn 0 ∧
      transition.source.pc 0 = .joinRead ⟨30, 5, 100⟩ ∧
      transition.source.history.exitValue 5 = some 7 ∧ ¬ JoinReturnOk transition := by
  rcases Machine.exists_run Machine.booted
    [.initSecondary 1 (blocksFrom 40) 50, .create 0 none (blocksFrom 30), .createEnqueue 0,
      .unlock 0, .callYield 0, .yieldEnter 0, .yieldSwitch 0, .forkUnlock 0, .exit 0 7,
      .exitWake 0, .unlock 0, .yieldEnter 0, .yieldSwitch 0, .unlock 0,
      .create 0 none ⟨30, 61, 62⟩, .createEnqueue 0, .unlock 0, .callYield 1, .yieldEnter 1,
      .yieldSwitch 1, .forkUnlock 1, .join 0 ⟨30, 5, 100⟩, .unlock 0, .exit 1 9, .joinTest 0,
      .joinReturn 0]
    (fun path last => decide (last.results 100 = 9 ∧ ∃ transition ∈ path,
      transition.label = .joinReturn 0 ∧ transition.source.pc 0 = .joinRead ⟨30, 5, 100⟩ ∧
      transition.source.history.exitValue 5 = some 7 ∧
      transition.source.history.thread 30 ≠ 5))
    (by decide +kernel) with ⟨path, last, run, holds⟩
  rcases of_decide_eq_true holds with ⟨stored, transition, member, isReturn, here, value, other⟩
  exact ⟨path, last, run, stored, transition, member, isReturn, here, value,
    fun ok => other (ok.own 0 _ isReturn here).2⟩

end UniKernel.Pthread
