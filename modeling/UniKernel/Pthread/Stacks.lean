import UniKernel.Pthread.Reclaim

/-!
Owns the memory of a thread: the struct and the stacks that `pthread_create`
gets from `malloc`, what it has taken when it returns, and what `sched_yield`
frees. No other step allocates or frees, or changes which stack a struct holds.
-/

namespace UniKernel.Pthread

open UniKernel.Lib

variable {m m' : Machine} {action : Action} {c : Core} {attr : Option Attr} {idle : Bool}
  {alloc : Allocation} {t : Nat}

/-! ### The outcome of `pthread_create` -/

/-- The caller supplies the stack. -/
def SuppliesStack (attr : Option Attr) : Prop := ∃ used ∈ Machine.usedAttr attr, used.stackaddr ≠ 0

instance (attr : Option Attr) : Decidable (SuppliesStack attr) :=
  inferInstanceAs (Decidable (∃ used ∈ Machine.usedAttr attr, used.stackaddr ≠ 0))

/-- Every call of `malloc` that decides the outcome succeeds. -/
def Succeeds (attr : Option Attr) (alloc : Allocation) : Prop :=
  alloc.task ≠ 0 ∧ (SuppliesStack attr ∨ alloc.firstStack ≠ 0 ∧ alloc.stack ≠ 0)

instance (attr : Option Attr) (alloc : Allocation) : Decidable (Succeeds attr alloc) :=
  inferInstanceAs
    (Decidable (alloc.task ≠ 0 ∧ (SuppliesStack attr ∨ alloc.firstStack ≠ 0 ∧ alloc.stack ≠ 0)))

/-- The stack of the new thread. -/
def newStack (attr : Option Attr) (alloc : Allocation) : Nat :=
  match Machine.usedAttr attr with
  | some attr => if attr.stackaddr ≠ 0 then attr.stackaddr else alloc.stack
  | none => alloc.stack

/-- The blocks after the two places where `pthread_create` sets the stack. -/
def takenBlocks (attr : Option Attr) (alloc : Allocation) (blocks : Nat → Option Nat) :
    Nat → Option Nat :=
  if SuppliesStack attr ∨ alloc.firstStack = 0 then blocks
  else
    let blocks := Function.update blocks alloc.firstStack (some (Machine.stackSize attr))
    if alloc.stack = 0 then blocks
    else Function.update blocks alloc.stack (some (Machine.stackSize attr))

theorem Machine.takeStack_supplied (supplied : SuppliesStack attr) (alloc : Allocation)
    (block : Nat) (m : Machine) :
    Machine.takeStack attr block m = (newStack attr alloc, m) := by
  rcases supplied with ⟨used, isUsed, nonzero⟩
  unfold Machine.takeStack newStack
  rw [isUsed]
  dsimp only
  rw [if_pos nonzero, if_pos nonzero]

theorem Machine.takeStack_allocated (notSupplied : ¬ SuppliesStack attr) (block : Nat)
    (m : Machine) :
    Machine.takeStack attr block m =
      (block, if block = 0 then m else m.allocBlock block (Machine.stackSize attr)) := by
  unfold Machine.takeStack Machine.stackSize
  split
  · next used isUsed =>
      rw [if_neg fun nonzero => notSupplied ⟨used, isUsed, nonzero⟩]
  · rfl

theorem newStack_supplied {used : Attr} (isUsed : used ∈ Machine.usedAttr attr)
    (nonzero : used.stackaddr ≠ 0) : newStack attr alloc = used.stackaddr := by
  unfold newStack
  rw [isUsed]
  exact if_pos nonzero

theorem newStack_allocated (notSupplied : ¬ SuppliesStack attr) :
    newStack attr alloc = alloc.stack := by
  unfold newStack
  split
  · next used isUsed => exact if_neg fun nonzero => notSupplied ⟨used, isUsed, nonzero⟩
  · rfl

theorem newStack_ne_zero (succeeds : Succeeds attr alloc) : newStack attr alloc ≠ 0 := by
  by_cases supplied : SuppliesStack attr
  · rcases supplied with ⟨used, isUsed, nonzero⟩
    rw [newStack_supplied isUsed nonzero]
    exact nonzero
  · rw [newStack_allocated supplied]
    exact (succeeds.2.resolve_left supplied).2

/-- What a function that ends `pthread_create` returns for the stack `page`. -/
structure Ends (outcome : Bool × Machine) (t page : Nat) (blocks : Nat → Option Nat) : Prop where
  success : outcome.1 = true ↔ page ≠ 0
  blocks : outcome.2.blocks = blocks
  stackPage : (outcome.2.sched.tasks t).stackPage = page

theorem Machine.createStack_ends {page block : Nat} {m₁ : Machine}
    (takes : Machine.takeStack attr block m = (page, m₁)) :
    Ends (Machine.createStack attr t block m) t page m₁.blocks := by
  have stackPage : ∀ task : Task, ((m₁.setTask t { task with stackPage := page }).sched.tasks
      t).stackPage = page := by
    intro task
    exact congrArg Task.stackPage State.tasks_setTask_self
  unfold Machine.createStack
  rw [takes]
  dsimp only
  split
  · next isNull => exact ⟨iff_of_false Bool.false_ne_true (not_not_intro isNull), rfl, stackPage _⟩
  · next nonzero =>
      refine ⟨iff_of_true rfl nonzero, rfl, ?_⟩
      exact (congrArg Task.stackPage State.tasks_setTask_self).trans (stackPage _)

/-- What `pthread_create` returns, and what it has taken: the blocks, and the
stack of the struct when it succeeds. -/
structure Taken (m : Machine) (attr : Option Attr) (alloc : Allocation)
    (outcome : Bool × Machine) : Prop where
  success : outcome.1 = true ↔ Succeeds attr alloc
  blocks : outcome.2.blocks = takenBlocks attr alloc m.blocks
  stackPage : Succeeds attr alloc →
    (outcome.2.sched.tasks alloc.task).stackPage = newStack attr alloc

/-- With a stack of the caller's no block is taken. -/
theorem Taken.supplied {outcome : Bool × Machine} (supplied : SuppliesStack attr)
    (someTask : alloc.task ≠ 0)
    (ends : Ends outcome alloc.task (newStack attr alloc) m.blocks) :
    Taken m attr alloc outcome where
  success := by
    rw [ends.success]
    exact iff_of_true (newStack_ne_zero ⟨someTask, Or.inl supplied⟩) ⟨someTask, Or.inl supplied⟩
  blocks := by
    rw [ends.blocks, takenBlocks, if_pos (Or.inl supplied)]
  stackPage := fun _ => ends.stackPage

/-- Otherwise the call gets to the second stack, with the first one taken. -/
theorem Taken.allocated {outcome : Bool × Machine} (notSupplied : ¬ SuppliesStack attr)
    (someTask : alloc.task ≠ 0) (someFirst : alloc.firstStack ≠ 0)
    (ends : Ends outcome alloc.task alloc.stack (takenBlocks attr alloc m.blocks)) :
    Taken m attr alloc outcome where
  success := by
    rw [ends.success]
    constructor
    · exact fun someStack => ⟨someTask, Or.inr ⟨someFirst, someStack⟩⟩
    · exact fun succeeds => (succeeds.2.resolve_left notSupplied).2
  blocks := ends.blocks
  stackPage := by
    intro _
    rw [newStack_allocated notSupplied]
    exact ends.stackPage

theorem Machine.pthreadCreate_taken (m : Machine) (attr : Option Attr) (idle : Bool)
    (someTask : alloc.task ≠ 0) : Taken m attr alloc (m.pthreadCreate attr idle alloc) := by
  unfold Machine.pthreadCreate
  dsimp only
  rw [if_neg someTask]
  by_cases supplied : SuppliesStack attr
  · have nonzero : newStack attr alloc ≠ 0 := newStack_ne_zero ⟨someTask, Or.inl supplied⟩
    rw [Machine.takeStack_supplied supplied alloc]
    dsimp only
    rw [if_neg nonzero]
    have ends : ∀ m₁ : Machine, Ends (Machine.createStack attr alloc.task alloc.stack m₁)
        alloc.task (newStack attr alloc) m₁.blocks := fun m₁ =>
      Machine.createStack_ends (Machine.takeStack_supplied supplied alloc alloc.stack m₁)
    exact Taken.supplied supplied someTask (ends _)
  · rw [Machine.takeStack_allocated supplied]
    dsimp only
    by_cases noFirst : alloc.firstStack = 0
    · rw [if_pos noFirst]
      exact {
        success := iff_of_false Bool.false_ne_true fun succeeds =>
          (succeeds.2.resolve_left supplied).1 noFirst
        blocks := by
          rw [takenBlocks, if_pos (Or.inr noFirst), if_pos noFirst]
          rfl
        stackPage := fun succeeds => absurd noFirst (succeeds.2.resolve_left supplied).1 }
    · rw [if_neg noFirst, if_neg noFirst]
      apply Taken.allocated supplied someTask noFirst
      have ends : ∀ m₁ : Machine, Ends (Machine.createStack attr alloc.task alloc.stack m₁)
          alloc.task alloc.stack (if alloc.stack = 0 then m₁
            else m₁.allocBlock alloc.stack (Machine.stackSize attr)).blocks := fun m₁ =>
        Machine.createStack_ends (Machine.takeStack_allocated supplied alloc.stack m₁)
      rw [takenBlocks, if_neg fun either => either.elim supplied noFirst]
      by_cases noStack : alloc.stack = 0
      · simp only [noStack, if_true] at ends ⊢
        exact ends _
      · simp only [noStack, if_false] at ends ⊢
        exact ends _

/-- What was live before is live behind the call. -/
theorem takenBlocks_of_live (fresh : FreshAllocation m alloc) {block size : Nat}
    (isLive : m.blocks block = some size) :
    takenBlocks attr alloc m.blocks block = some size := by
  have notFirst : alloc.firstStack ≠ 0 → block ≠ alloc.firstStack := by
    rintro someFirst rfl
    rw [fresh.firstStack someFirst] at isLive
    cases isLive
  have notStack : alloc.stack ≠ 0 → block ≠ alloc.stack := by
    rintro someStack rfl
    rw [(fresh.stack someStack).1] at isLive
    cases isLive
  unfold takenBlocks
  split
  · exact isLive
  · next either =>
      have other := notFirst fun noFirst => either (Or.inr noFirst)
      dsimp only
      split
      · rw [Function.update_of_ne other]
        exact isLive
      · next someStack =>
          rw [Function.update_of_ne (notStack someStack), Function.update_of_ne other]
          exact isLive

/-- A stack that `pthread_create` allocated is live behind the call. -/
theorem takenBlocks_stack (notSupplied : ¬ SuppliesStack attr) (succeeds : Succeeds attr alloc)
    (blocks : Nat → Option Nat) : takenBlocks attr alloc blocks alloc.stack ≠ none := by
  rcases succeeds.2.resolve_left notSupplied with ⟨someFirst, someStack⟩
  rw [takenBlocks, if_neg fun either => either.elim notSupplied someFirst, if_neg someStack,
    Function.update_self]
  simp

/-! ### The steps -/

/-- The task that waits on core `c` to be reaped. -/
def Machine.slot (m : Machine) (c : Core) : Nat := (m.sched.cores c).taskToFree

/-- What a step does to the slot of core `c` unless it reaps: nothing, or
`pthread_exit` puts the current task there. -/
def SlotKept (m m' : Machine) (c : Core) : Prop :=
  m'.slot c = m.slot c ∨
    m'.slot c = m.current c ∧ m.pc c = .user ∧ m.sched.schedLock = false

/-- A step that takes and frees no memory. -/
structure KeepsMemory (m m' : Machine) : Prop where
  structs : m'.structs = m.structs
  blocks : m'.blocks = m.blocks
  stackPage : ∀ a, (m'.sched.tasks a).stackPage = (m.sched.tasks a).stackPage
  births : m'.history.births = m.history.births
  thread : m'.history.thread = m.history.thread
  slot : ∀ c, SlotKept m m' c

/-- The struct `t` is filled in for a new thread with the stack `page`; it stays
allocated when `ok`. -/
structure MakesThread (m m' : Machine) (t page : Nat) (ok : Bool) (blocks : Nat → Option Nat) :
    Prop where
  structs : m'.structs = Function.update m.structs t ok
  blocks : m'.blocks = blocks
  stackPage : ∀ a, a ≠ t → (m'.sched.tasks a).stackPage = (m.sched.tasks a).stackPage
  newPage : ok = true → (m'.sched.tasks t).stackPage = page
  births : m'.history.births = m.history.births + 1
  thread : m'.history.thread = Function.update m.history.thread t (m.history.births + 1)
  slot : ∀ c, m'.slot c = m.slot c

/-- `sched_yield` frees the task in the slot of core `c`, with its stack. -/
structure Reaps (m m' : Machine) (c : Core) : Prop where
  someTask : m.slot c ≠ 0
  structs : m'.structs = Function.update m.structs (m.slot c) false
  blocks : m'.blocks = Function.update m.blocks (m.sched.tasks (m.slot c)).stackPage none
  stackPage : ∀ a, (m'.sched.tasks a).stackPage = (m.sched.tasks a).stackPage
  births : m'.history.births = m.history.births
  thread : m'.history.thread = m.history.thread
  slot : ∀ c', m'.slot c' = if c' = c then 0 else m.slot c'

/-- A call of `pthread_create` that got a struct. -/
theorem Machine.pthreadCreate_makes (m : Machine) (attr : Option Attr) (idle : Bool)
    (someTask : alloc.task ≠ 0) :
    MakesThread m (m.pthreadCreate attr idle alloc).2 alloc.task (newStack attr alloc)
      (decide (Succeeds attr alloc)) (takenBlocks attr alloc m.blocks) := by
  rcases Machine.pthreadCreate_created m attr idle someTask with ⟨task, created⟩
  have taken := Machine.pthreadCreate_taken m attr idle someTask
  exact {
    structs := by
      rw [created.structs]
      congr 1
      rw [Bool.eq_iff_iff, taken.success, decide_eq_true_iff]
    blocks := taken.blocks
    stackPage := by
      intro a other
      rw [created.tasks, if_neg other]
    newPage := fun ok => taken.stackPage (of_decide_eq_true ok)
    births := congrArg History.births created.history
    thread := congrArg History.thread created.history
    slot := by
      intro c
      rcases created.sched with ⟨tid, sched⟩
      rw [Machine.slot, sched]
      rfl }

/-- `pthread_create` up to the lock. -/
theorem Machine.create_makes (m : Machine) (c : Core) (attr : Option Attr)
    (someTask : alloc.task ≠ 0) :
    MakesThread m (m.create c attr alloc) alloc.task (newStack attr alloc)
      (decide (Succeeds attr alloc)) (takenBlocks attr alloc m.blocks) := by
  have makes := m.pthreadCreate_makes attr false someTask
  rw [Machine.create]
  generalize m.pthreadCreate attr false alloc = outcome at makes ⊢
  rcases outcome with ⟨ok, made⟩
  dsimp only at makes ⊢
  split
  · split
    · exact ⟨makes.structs, makes.blocks, makes.stackPage, makes.newPage, makes.births, makes.thread,
        makes.slot⟩
    · exact ⟨makes.structs, makes.blocks, makes.stackPage, makes.newPage, makes.births, makes.thread,
        makes.slot⟩
  · exact makes

/-- An initialisation takes what `pthread_create` takes for the idle task, and
the struct of a task that has no stack. -/
theorem Machine.schedInitSecondary_makes (c : Core) {own : Nat}
    (init : InitAllocation m alloc own) :
    ∃ made, MakesThread m made alloc.task alloc.stack true (takenBlocks none alloc m.blocks) ∧
      MakesThread made (m.schedInitSecondary c alloc own) own 0 true
        (takenBlocks none alloc m.blocks) := by
  have succeeds : Succeeds none alloc :=
    ⟨init.idleTask, Or.inr ⟨init.idleFirstStack, init.idleStack⟩⟩
  rcases Machine.pthreadCreate_created m none true init.idleTask with ⟨task, created⟩
  have makes := m.pthreadCreate_makes none true init.idleTask
  have success := Machine.pthreadCreate_init init
  rw [decide_eq_true succeeds] at makes
  refine ⟨(m.pthreadCreate none true alloc).2, makes, ?_⟩
  rw [Machine.schedInitSecondary]
  generalize m.pthreadCreate none true alloc = outcome at makes created success ⊢
  rcases outcome with ⟨ok, made⟩
  dsimp only at makes created success ⊢
  subst success
  rw [created.setIdle]
  exact {
    structs := rfl
    blocks := makes.blocks
    stackPage := fun a other => congrArg Task.stackPage (State.tasks_setTask_of_ne other)
    newPage := fun _ => congrArg Task.stackPage State.tasks_setTask_self
    births := rfl
    thread := rfl
    slot := fun c' => (State.taskToFree_setCurrent c').trans (State.taskToFree_setCurrent c') }

/-- `sched_init` does the same. -/
theorem Machine.schedInit_makes {own : Nat} (init : InitAllocation Machine.zero alloc own) :
    ∃ made, MakesThread Machine.zero made alloc.task alloc.stack true
        (takenBlocks none alloc fun _ => none) ∧
      MakesThread made (Machine.schedInit alloc own) own 0 true
        (takenBlocks none alloc fun _ => none) := by
  have succeeds : Succeeds none alloc :=
    ⟨init.idleTask, Or.inr ⟨init.idleFirstStack, init.idleStack⟩⟩
  have makes := Machine.zero.pthreadCreate_makes none true init.idleTask
  rw [decide_eq_true succeeds] at makes
  refine ⟨(Machine.zero.pthreadCreate none true alloc).2, makes, ?_⟩
  rw [Machine.schedInit]
  generalize Machine.zero.pthreadCreate none true alloc = outcome at makes ⊢
  rcases outcome with ⟨ok, made⟩
  exact {
    structs := rfl
    blocks := makes.blocks
    stackPage := fun a other => congrArg Task.stackPage (State.tasks_setTask_of_ne other)
    newPage := fun _ => congrArg Task.stackPage State.tasks_setTask_self
    births := rfl
    thread := rfl
    slot := fun c' => (State.taskToFree_setCurrent c').trans (State.taskToFree_setCurrent c') }

theorem State.kept_requeue {s : State} {prevTask a : Nat} :
    ((s.requeue prevTask).tasks a).kept = (s.tasks a).kept := by
  unfold State.requeue
  split
  · exact State.kept_schedEnqueueTask.trans State.kept_setState
  · rfl

theorem State.kept_makeRunning {s : State} {nextTask a : Nat} :
    ((s.makeRunning nextTask).tasks a).kept = (s.tasks a).kept := by
  unfold State.makeRunning
  split
  · exact State.kept_setState.trans State.kept_schedDequeueTask
  · split
    · exact State.kept_setState
    · rfl

namespace State

variable {s : State} {a value : Nat} {state : TaskState}

theorem stackPage_setNext :
    ((s.setNext t value).tasks a).stackPage = (s.tasks a).stackPage :=
  field_setTask Task.stackPage rfl

theorem stackPage_setState :
    ((s.setState t state).tasks a).stackPage = (s.tasks a).stackPage :=
  field_setTask Task.stackPage rfl

theorem stackPage_setRetValue :
    ((s.setRetValue t value).tasks a).stackPage = (s.tasks a).stackPage :=
  field_setTask Task.stackPage rfl

theorem stackPage_setJoinWaitQueue :
    ((s.setJoinWaitQueue t value).tasks a).stackPage = (s.tasks a).stackPage :=
  field_setTask Task.stackPage rfl

end State

/-- On any machine, a switch leaves every field alone but links, states and
contexts. -/
theorem Machine.yieldSwitch_field {α : Type} (m : Machine) (caller : Caller) (field : Task → α)
    (noLink : ∀ task, field task.kept = field task)
    (noContext : ∀ task context, field { task with context := context } = field task) (a : Nat) :
    field ((m.yieldSwitch c caller).sched.tasks a) = field (m.sched.tasks a) := by
  have chosen : ((m.sched.choose c).2.tasks a).kept = (m.sched.tasks a).kept :=
    State.kept_makeRunning.trans State.kept_requeue
  rw [m.yieldSwitch_sched, State.field_afterSwitch field noContext, ← noLink, chosen, noLink]

theorem Machine.yieldSwitch_keepsMemory (m : Machine) (c : Core) (caller : Caller) :
    KeepsMemory m (m.yieldSwitch c caller) where
  structs := m.yieldSwitch_structs caller
  blocks := by
    unfold Machine.yieldSwitch
    dsimp only
    split <;> rfl
  stackPage := m.yieldSwitch_field caller Task.stackPage (fun _ => rfl) fun _ _ => rfl
  births := by
    rw [m.yieldSwitch_history]
    split <;> rfl
  thread := by
    rw [m.yieldSwitch_history]
    split <;> rfl
  slot := by
    intro c'
    refine Or.inl ?_
    rw [Machine.slot, m.yieldSwitch_sched, State.taskToFree_afterSwitch, State.cores_choose]
    rfl

theorem Machine.yieldEnter_reaps (caller : Caller) (someTask : m.slot c ≠ 0) :
    Reaps m (m.yieldEnter c caller) c := by
  unfold Machine.yieldEnter
  dsimp only
  rw [if_pos (show (m.sched.cores c).taskToFree ≠ 0 from someTask)]
  exact ⟨someTask, rfl, rfl, fun _ => rfl, rfl, rfl, State.taskToFree_setTaskToFree⟩

theorem Step.reaps (taken : Step m (.yieldEnter c) m') (someTask : m.slot c ≠ 0) :
    Reaps m m' c := by
  cases taken with
  | yieldEnter here => exact Machine.yieldEnter_reaps _ someTask

/-- The step gets a struct for a new thread. -/
def Action.makesThread : Action → Bool
  | .create _ _ alloc => alloc.task ≠ 0
  | .initSecondary _ _ _ => true
  | _ => false

/-- What a step takes and frees. -/
theorem Step.memory (taken : Step m action m') :
    action.makesThread = false ∧ KeepsMemory m m' ∨
    (∃ c, action = .yieldEnter c ∧ Reaps m m' c) ∨
    (∃ c attr alloc, action = .create c attr alloc ∧ alloc.task ≠ 0 ∧ FreshAllocation m alloc ∧
      MakesThread m m' alloc.task (newStack attr alloc) (decide (Succeeds attr alloc))
        (takenBlocks attr alloc m.blocks)) ∨
    (∃ c alloc own, action = .initSecondary c alloc own ∧ InitAllocation m alloc own ∧ ∃ made,
      MakesThread m made alloc.task alloc.stack true (takenBlocks none alloc m.blocks) ∧
      MakesThread made m' own 0 true (takenBlocks none alloc m.blocks)) := by
  cases taken with
  | @initSecondary c alloc own here init =>
      exact Or.inr (Or.inr (Or.inr ⟨c, alloc, own, rfl, init, m.schedInitSecondary_makes c init⟩))
  | @create c attr alloc here fresh =>
      by_cases noTask : alloc.task = 0
      · rw [Machine.create, Machine.pthreadCreate_null noTask]
        refine Or.inl ⟨?_, rfl, rfl, fun _ => rfl, rfl, rfl, fun _ => Or.inl rfl⟩
        exact decide_eq_false (not_not_intro noTask)
      · exact Or.inr (Or.inr (Or.inl ⟨c, attr, alloc, rfl, noTask, fresh, m.create_makes c attr noTask⟩))
  | createEnqueue here lockFree =>
      refine Or.inl ⟨rfl, rfl, rfl, fun a => ?_, rfl, rfl, fun c' => Or.inl ?_⟩
      · exact State.field_schedEnqueueTask Task.stackPage fun _ => rfl
      · exact congrArg (fun cores => (cores c').taskToFree) State.cores_schedEnqueueTask
  | join here lockFree handle =>
      unfold Machine.join
      dsimp only
      split
      · refine Or.inl ⟨rfl, rfl, rfl, fun a => ?_, rfl, rfl, fun _ => Or.inl rfl⟩
        exact State.stackPage_setJoinWaitQueue.trans
          (State.stackPage_setNext.trans State.stackPage_setState)
      · exact Or.inl ⟨rfl, rfl, rfl, fun _ => rfl, rfl, rfl, fun _ => Or.inl rfl⟩
  | joinTest here =>
      unfold Machine.joinTest
      split
      · exact Or.inl ⟨rfl, rfl, rfl, fun _ => rfl, rfl, rfl, fun _ => Or.inl rfl⟩
      · exact Or.inl ⟨rfl, rfl, rfl, fun _ => rfl, rfl, rfl, fun _ => Or.inl rfl⟩
  | joinReturn here =>
      unfold Machine.joinReturn
      dsimp only
      split
      · exact Or.inl ⟨rfl, rfl, rfl, fun _ => rfl, rfl, rfl, fun _ => Or.inl rfl⟩
      · exact Or.inl ⟨rfl, rfl, rfl, fun _ => rfl, rfl, rfl, fun _ => Or.inl rfl⟩
  | @exit c value here lockFree =>
      refine Or.inl ⟨rfl, rfl, rfl, fun a => ?_, rfl, rfl, fun c' => ?_⟩
      · exact State.stackPage_setState.trans State.stackPage_setRetValue
      · have slotEq : (m.exit c value).slot c' = if c' = c then m.current c else m.slot c' :=
          (m.exit_exits c value).taskToFree c'
        by_cases same : c' = c
        · subst same
          rw [if_pos rfl] at slotEq
          exact Or.inr ⟨slotEq, here, lockFree⟩
        · rw [if_neg same] at slotEq
          exact Or.inl slotEq
  | exitWake here =>
      unfold Machine.exitWake
      dsimp only
      split
      · refine Or.inl ⟨rfl, rfl, rfl, fun a => ?_, rfl, rfl, fun c' => Or.inl ?_⟩
        · exact (State.field_schedEnqueueTask Task.stackPage fun _ => rfl).trans
            State.stackPage_setState
        · exact congrArg (fun cores => (cores c').taskToFree) State.cores_schedEnqueueTask
      · refine Or.inl ⟨rfl, rfl, rfl, fun a => ?_, rfl, rfl, fun c' => Or.inl ?_⟩
        · exact (State.field_schedDequeueTask Task.stackPage fun _ => rfl).trans
            State.stackPage_setJoinWaitQueue
        · exact congrArg (fun cores => (cores c').taskToFree) State.cores_schedDequeueTask
  | callYield here => exact Or.inl ⟨rfl, rfl, rfl, fun _ => rfl, rfl, rfl, fun _ => Or.inl rfl⟩
  | @yieldEnter c caller here =>
      by_cases noTask : m.slot c = 0
      · unfold Machine.yieldEnter
        dsimp only
        rw [if_neg (show ¬ (m.sched.cores c).taskToFree ≠ 0 from not_not_intro noTask)]
        exact Or.inl ⟨rfl, rfl, rfl, fun _ => rfl, rfl, rfl, fun _ => Or.inl rfl⟩
      · exact Or.inr (Or.inl ⟨c, rfl, Machine.yieldEnter_reaps caller noTask⟩)
  | yieldSwitch here lockFree => exact Or.inl ⟨rfl, m.yieldSwitch_keepsMemory _ _⟩
  | unlock here =>
      unfold Machine.unlock
      dsimp only
      split
      · exact Or.inl ⟨rfl, rfl, rfl, fun _ => rfl, rfl, rfl, fun _ => Or.inl rfl⟩
      · exact Or.inl ⟨rfl, rfl, rfl, fun _ => rfl, rfl, rfl, fun _ => Or.inl rfl⟩
  | forkUnlock here => exact Or.inl ⟨rfl, rfl, rfl, fun _ => rfl, rfl, rfl, fun _ => Or.inl rfl⟩

end UniKernel.Pthread
