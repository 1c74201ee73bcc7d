import UniKernel.Pthread.Perform
import UniKernel.Pthread.Stacks

/-!
Owns the balance of the heap over the life of a thread: what a call of
`pthread_create` leaves behind when it fails and when it succeeds, and what is
left once the thread is reaped. `pthread_create` asks for the stack twice, and
only the second block gets to the thread, so the balance holds for calls that
do not get the first one.
-/

namespace UniKernel.Pthread

open UniKernel.Lib

variable {m m' first last : Machine} {action : Action} {c : Core}
  {path : List (Transition Machine Action)}

/-- A call of `pthread_create`; `idle` is `arg == &idle_flag`. -/
structure Creation where
  attr : Option Attr
  idle : Bool
  alloc : Allocation

/-- The call of `pthread_create` in a step. -/
def Action.creation : Action → Option Creation
  | .create _ attr alloc => some ⟨attr, false, alloc⟩
  | .initSecondary _ idle _ => some ⟨none, true, idle⟩
  | _ => none

namespace Creation

def call (creation : Creation) (m : Machine) : Bool × Machine :=
  m.pthreadCreate creation.attr creation.idle creation.alloc

/-- The struct of the new thread. -/
def task (creation : Creation) : Nat := creation.alloc.task

/-- The blocks behind a call that returns 0: one stack of the requested size is
new, or none when the caller supplied it. -/
def blocksAfter (creation : Creation) (blocks : Nat → Option Nat) : Nat → Option Nat :=
  if SuppliesStack creation.attr then blocks
  else Function.update blocks creation.alloc.stack (some (Machine.stackSize creation.attr))

end Creation

/-- The live heap blocks and the runqueues of `m` are those of `m'`; the structs
that are not live hold no part of the runqueues. -/
structure SameHeapAndQueues (m m' : Machine) : Prop where
  structs : m'.structs = m.structs
  blocks : m'.blocks = m.blocks
  heads : m'.sched.runqueues = m.sched.runqueues
  tails : m'.sched.runqueuesTail = m.sched.runqueuesTail
  active : m'.sched.activePriorities = m.sched.activePriorities
  tasks : ∀ t, m.structs t = true → m'.sched.tasks t = m.sched.tasks t

/-- A call of `pthread_create` on the machine `m`: `EAGAIN` leaves the heap and
the runqueues as they were, and 0 leaves a struct and at most one stack. -/
structure Balanced (m : Machine) (creation : Creation) : Prop where
  again : (creation.call m).1 = false → SameHeapAndQueues m (creation.call m).2
  structs : (creation.call m).1 = true →
    (creation.call m).2.structs = Function.update m.structs creation.task true
  blocks : (creation.call m).1 = true →
    (creation.call m).2.blocks = creation.blocksAfter m.blocks

/-- A `sched_yield` reaps the thread `thread` in the struct `t`. -/
def ReapsThread (transition : Transition Machine Action) (t thread : Nat) : Prop :=
  ∃ c, transition.label = .yieldEnter c ∧ transition.source.slot c = t ∧
    transition.source.history.thread t = thread

/-- The struct of a call's thread is released, and its stack unless the caller
supplied it. -/
structure Released (m : Machine) (creation : Creation) : Prop where
  struct : m.structs creation.task = false
  stack : ¬ SuppliesStack creation.attr → m.blocks creation.alloc.stack = none

/-- The heap over a run: every call of `pthread_create` is balanced, what it took
is released when the thread is reaped, and what is live at the end was live at
the start or belongs to a thread that was made on the way and not reaped. -/
structure HeapBalanced (first : Machine) (path : List (Transition Machine Action))
    (last : Machine) : Prop where
  balanced : ∀ transition ∈ path, ∀ creation ∈ transition.label.creation,
    Balanced transition.source creation
  released : ∀ before transition after, path = before ++ transition :: after →
    ∀ creation ∈ transition.label.creation, (creation.call transition.source).1 = true →
    ∀ later ∈ after, ReapsThread later creation.task (transition.source.history.births + 1) →
    Released later.target creation
  blocks : ∀ block size, last.blocks block = some size → first.blocks block = some size ∨
    ∃ t, last.structs t = true ∧ (last.sched.tasks t).stackPage = block
  structs : ∀ t, last.structs t = true → first.structs t = true ∨
    ∃ transition ∈ path, ∃ creation ∈ transition.label.creation, creation.task = t ∧
      (creation.call transition.source).1 = true ∧
      last.history.thread t = transition.source.history.births + 1

/-- The caller supplies the stack, or there is no memory for the struct or for
the first stack. -/
def TakesNoFirstStack (creation : Creation) : Prop :=
  SuppliesStack creation.attr ∨ creation.alloc.task = 0 ∨ creation.alloc.firstStack = 0

/-! ### One call -/

theorem takenBlocks_of_no_first (creation : Creation) (someTask : creation.alloc.task ≠ 0)
    (noFirst : TakesNoFirstStack creation) (blocks : Nat → Option Nat) :
    takenBlocks creation.attr creation.alloc blocks = blocks := by
  rw [takenBlocks, if_pos]
  exact noFirst.imp_right fun either => either.resolve_left someTask

/-- On any machine, a call is balanced exactly when it gets no first stack. -/
theorem balanced_iff {creation : Creation} (fresh : FreshAllocation m creation.alloc) :
    Balanced m creation ↔ TakesNoFirstStack creation := by
  by_cases noTask : creation.alloc.task = 0
  · have returns : creation.call m = (false, m) := Machine.pthreadCreate_null noTask
    refine iff_of_true ?_ (Or.inr (Or.inl noTask))
    constructor
    · intro _
      rw [returns]
      exact ⟨rfl, rfl, rfl, rfl, rfl, fun _ _ => rfl⟩
    · intro ok
      rw [returns] at ok
      cases ok
    · intro ok
      rw [returns] at ok
      cases ok
  · rcases m.pthreadCreate_created creation.attr creation.idle noTask with ⟨task, created⟩
    have taken := m.pthreadCreate_taken creation.attr creation.idle noTask
    have isCall : m.pthreadCreate creation.attr creation.idle creation.alloc = creation.call m := rfl
    rw [isCall] at created taken
    constructor
    · intro balanced
      by_contra getsFirst
      have notSupplied : ¬ SuppliesStack creation.attr := fun supplied => getsFirst (Or.inl supplied)
      have someFirst : creation.alloc.firstStack ≠ 0 := fun noFirst =>
        getsFirst (Or.inr (Or.inr noFirst))
      have firstWasFree := fresh.firstStack someFirst
      have isTaken : (creation.call m).2.blocks creation.alloc.firstStack ≠ none := by
        rw [taken.blocks, takenBlocks, if_neg fun either => either.elim notSupplied someFirst]
        split
        · rw [Function.update_self]
          simp
        · next someStack =>
            rw [Function.update_of_ne (fresh.stack someStack).2.symm, Function.update_self]
            simp
      apply isTaken
      cases ok : (creation.call m).1 with
      | false => rw [(balanced.again ok).blocks, firstWasFree]
      | true =>
          have someStack := ((taken.success.mp ok).2.resolve_left notSupplied).2
          rw [balanced.blocks ok, Creation.blocksAfter, if_neg notSupplied,
            Function.update_of_ne (fresh.stack someStack).2.symm, firstWasFree]
    · intro noFirst
      have sameBlocks : (creation.call m).2.blocks = m.blocks := by
        rw [taken.blocks, takenBlocks_of_no_first creation noTask noFirst]
      exact {
        again := by
          intro again
          rcases created.sched with ⟨tid, sched⟩
          exact {
            structs := by
              rw [created.structs, again, ← fresh.task noTask]
              exact Function.update_eq_self ..
            blocks := sameBlocks
            heads := by rw [sched]; rfl
            tails := by rw [sched]; rfl
            active := by rw [sched]; rfl
            tasks := by
              intro t isLive
              have other : t ≠ creation.alloc.task := by
                rintro rfl
                rw [fresh.task noTask] at isLive
                cases isLive
              rw [created.tasks, if_neg other] }
        structs := by
          intro ok
          rw [created.structs, ok]
          rfl
        blocks := by
          intro ok
          have succeeds := taken.success.mp ok
          have supplied : SuppliesStack creation.attr := by
            by_contra notSupplied
            rcases noFirst with supplied | noTask' | noFirst
            · exact notSupplied supplied
            · exact noTask noTask'
            · exact (succeeds.2.resolve_left notSupplied).1 noFirst
          rw [sameBlocks, Creation.blocksAfter, if_pos supplied] }

/-! ### Over a run -/

/-- The struct of the thread numbered `thread` holds the stack `page`. -/
structure HoldsStack (m : Machine) (t thread page : Nat) : Prop where
  page : m.history.thread t = thread → (m.sched.tasks t).stackPage = page
  born : thread ≤ m.history.births

namespace HoldsStack

variable {t thread page : Nat}

/-- Another thread may get the struct, but not the number. -/
theorem makes {new newPage : Nat} {ok : Bool} {blocks : Nat → Option Nat}
    (holds : HoldsStack m t thread page) (makes : MakesThread m m' new newPage ok blocks) :
    HoldsStack m' t thread page where
  page := by
    intro same
    rw [makes.thread] at same
    by_cases isNew : t = new
    · rw [isNew, Function.update_self] at same
      have born := holds.born
      omega
    · rw [Function.update_of_ne isNew] at same
      rw [makes.stackPage t isNew]
      exact holds.page same
  born := by
    rw [makes.births]
    exact Nat.le_succ_of_le holds.born

theorem step (holds : HoldsStack m t thread page) (taken : Step m action m') :
    HoldsStack m' t thread page := by
  rcases taken.memory with ⟨-, keeps⟩ | ⟨c, -, reaps⟩ | ⟨c, attr, alloc, -, -, -, makes⟩ |
    ⟨c, alloc, own, -, -, made, makes, starts⟩
  · constructor
    · rw [keeps.thread, keeps.stackPage]
      exact holds.page
    · rw [keeps.births]
      exact holds.born
  · constructor
    · rw [reaps.thread, reaps.stackPage]
      exact holds.page
    · rw [reaps.births]
      exact holds.born
  · exact holds.makes makes
  · exact (holds.makes makes).makes starts

/-- The struct a call has just filled in. -/
theorem made {blocks : Nat → Option Nat} (makes : MakesThread m m' t page true blocks) :
    HoldsStack m' t (m.history.births + 1) page where
  page := fun _ => makes.newPage rfl
  born := makes.births.ge

end HoldsStack

theorem Creation.call_ok_iff {creation : Creation} :
    (creation.call m).1 = true ↔ Succeeds creation.attr creation.alloc := by
  by_cases noTask : creation.alloc.task = 0
  · have returns : creation.call m = (false, m) := Machine.pthreadCreate_null noTask
    rw [returns]
    exact iff_of_false Bool.false_ne_true fun succeeds => succeeds.1 noTask
  · exact (m.pthreadCreate_taken creation.attr creation.idle noTask).success

/-- A successful call leaves the stack in the struct. -/
theorem Step.holdsStack {creation : Creation} (taken : Step m action m')
    (isCreation : creation ∈ action.creation) (ok : (creation.call m).1 = true) :
    HoldsStack m' creation.task (m.history.births + 1)
      (newStack creation.attr creation.alloc) := by
  have succeeds := Creation.call_ok_iff.mp ok
  cases taken with
  | @initSecondary c alloc own here init =>
      rw [← Option.some.inj isCreation] at succeeds ⊢
      rcases m.schedInitSecondary_makes c init with ⟨made, makes, starts⟩
      exact (HoldsStack.made makes).makes starts
  | @create c attr alloc here fresh =>
      rw [← Option.some.inj isCreation] at succeeds ⊢
      have makes := m.create_makes c attr succeeds.1
      rw [decide_eq_true succeeds] at makes
      exact HoldsStack.made makes
  | createEnqueue | join | joinTest | joinReturn | exit | exitWake | callYield | yieldEnter
  | yieldSwitch | unlock | forkUnlock => cases isCreation

/-- What a successful call took is released when its thread is reaped, in every
run behind the call. -/
theorem Step.released {creation : Creation} (taken : Step m action m')
    (isCreation : creation ∈ action.creation) (ok : (creation.call m).1 = true)
    (run : Execution Step m' path last) :
    ∀ later ∈ path, ReapsThread later creation.task (m.history.births + 1) →
      Released later.target creation := by
  rintro later member ⟨c, isYield, isTask, sameThread⟩
  have succeeds := Creation.call_ok_iff.mp ok
  have keeps : ∀ source label target,
      HoldsStack source creation.task (m.history.births + 1)
        (newStack creation.attr creation.alloc) → Step source label target →
      HoldsStack target creation.task (m.history.births + 1)
        (newStack creation.attr creation.alloc) := fun _ _ _ before step => before.step step
  have holds := (run.invariant_transitions (taken.holdsStack isCreation ok) keeps later member).1
  have someTask : later.source.slot c ≠ 0 := by
    rw [isTask]
    exact succeeds.1
  have step := run.step_of_mem member
  rw [isYield] at step
  have reaps := step.reaps someTask
  constructor
  · rw [reaps.structs, isTask, Function.update_self]
  · intro notSupplied
    rw [reaps.blocks, isTask, holds.page sameThread, newStack_allocated notSupplied,
      Function.update_self]

/-- A step takes no block when its calls get no first stack. -/
theorem Step.blocks_of_no_first (taken : Step m action m')
    (noFirst : ∀ creation ∈ action.creation, TakesNoFirstStack creation) :
    ∀ block size, m'.blocks block = some size → m.blocks block = some size := by
  intro block size isLive
  rcases taken.memory with ⟨-, keeps⟩ | ⟨c, -, reaps⟩ | ⟨c, attr, alloc, rfl, someTask, -, makes⟩ |
    ⟨c, alloc, own, rfl, init, -⟩
  · rw [keeps.blocks] at isLive
    exact isLive
  · rw [reaps.blocks, Function.update_apply] at isLive
    split at isLive
    · cases isLive
    · exact isLive
  · have sameBlocks : takenBlocks attr alloc m.blocks = m.blocks :=
      takenBlocks_of_no_first ⟨attr, false, alloc⟩ someTask (noFirst _ rfl) _
    rw [makes.blocks, sameBlocks] at isLive
    exact isLive
  · rcases noFirst ⟨none, true, alloc⟩ rfl with ⟨used, isUsed, -⟩ | noTask | noFirst
    · cases isUsed
    · exact absurd noTask init.idleTask
    · exact absurd noFirst init.idleFirstStack

/-- Every live struct was live before or is that of a thread made on the way. -/
theorem structs_of_no_first (run : Execution Step first path last)
    (noFirst : ∀ transition ∈ path, ∀ creation ∈ transition.label.creation,
      TakesNoFirstStack creation) :
    ∀ t, last.structs t = true → first.structs t = true ∨
      ∃ transition ∈ path, ∃ creation ∈ transition.label.creation, creation.task = t ∧
        (creation.call transition.source).1 = true ∧
        last.history.thread t = transition.source.history.births + 1 := by
  induction run with
  | nil => exact fun t isLive => Or.inl isLive
  | @snoc path middle last action before taken inductionHypothesis =>
      rw [List.forall_mem_append, List.forall_mem_singleton] at noFirst
      have earlier := inductionHypothesis noFirst.1
      intro t isLive
      have carry : middle.structs t = true → last.history.thread t = middle.history.thread t →
          first.structs t = true ∨ ∃ transition ∈ path ++ [⟨middle, action, last⟩],
            ∃ creation ∈ transition.label.creation, creation.task = t ∧
              (creation.call transition.source).1 = true ∧
              last.history.thread t = transition.source.history.births + 1 := by
        intro wasLive sameThread
        rcases earlier t wasLive with before | ⟨transition, member, creation, isCreation, isTask, ok, thread⟩
        · exact Or.inl before
        · exact Or.inr ⟨transition, List.mem_append_left _ member, creation, isCreation, isTask, ok,
            sameThread.trans thread⟩
      rcases taken.memory with ⟨-, keeps⟩ | ⟨c, -, reaps⟩ | ⟨c, attr, alloc, rfl, someTask, -, makes⟩ |
        ⟨c, alloc, own, rfl, init, -⟩
      · rw [keeps.structs] at isLive
        exact carry isLive (congrFun keeps.thread t)
      · rw [reaps.structs, Function.update_apply] at isLive
        split at isLive
        · cases isLive
        · exact carry isLive (congrFun reaps.thread t)
      · rw [makes.structs] at isLive
        by_cases isNew : t = alloc.task
        · rw [isNew, Function.update_self] at isLive
          refine Or.inr ⟨_, List.mem_append_right _ (List.mem_singleton_self _), ⟨attr, false, alloc⟩,
            rfl, isNew.symm, Creation.call_ok_iff.mpr (of_decide_eq_true isLive), ?_⟩
          rw [makes.thread, isNew, Function.update_self]
        · rw [Function.update_of_ne isNew] at isLive
          apply carry isLive
          rw [makes.thread, Function.update_of_ne isNew]
      · rcases noFirst.2 ⟨none, true, alloc⟩ rfl with ⟨used, isUsed, -⟩ | noTask | noStack
        · cases isUsed
        · exact absurd noTask init.idleTask
        · exact absurd noStack init.idleFirstStack

theorem Step.freshAllocation {creation : Creation} (taken : Step m action m')
    (isCreation : creation ∈ action.creation) : FreshAllocation m creation.alloc := by
  cases taken with
  | initSecondary here init =>
      rw [← Option.some.inj isCreation]
      exact init.fresh
  | create here fresh =>
      rw [← Option.some.inj isCreation]
      exact fresh
  | createEnqueue | join | joinTest | joinReturn | exit | exitWake | callYield | yieldEnter
  | yieldSwitch | unlock | forkUnlock => cases isCreation

/-- From any machine on, the heap is balanced over a run exactly when no call of
`pthread_create` gets a first stack. -/
theorem heap_balanced_iff (run : Execution Step first path last) :
    HeapBalanced first path last ↔
      ∀ transition ∈ path, ∀ creation ∈ transition.label.creation, TakesNoFirstStack creation := by
  constructor
  · intro heap transition member creation isCreation
    have fresh := (run.step_of_mem member).freshAllocation isCreation
    exact (balanced_iff fresh).mp (heap.balanced transition member creation isCreation)
  · intro noFirst
    exact {
      balanced := by
        intro transition member creation isCreation
        have fresh := (run.step_of_mem member).freshAllocation isCreation
        exact (balanced_iff fresh).mpr (noFirst transition member creation isCreation)
      released := by
        rintro before transition after rfl creation isCreation ok
        have taken := run.step_of_mem (List.mem_append_right before List.mem_cons_self)
        exact taken.released isCreation ok run.after_step
      blocks := by
        intro block size isLive
        have keeps : ∀ source label target,
            (source.blocks block = some size → first.blocks block = some size) →
            Step source label target →
            (∀ creation ∈ label.creation, TakesNoFirstStack creation) →
            target.blocks block = some size → first.blocks block = some size :=
          fun source label target earlier taken none live =>
            earlier (taken.blocks_of_no_first none block size live)
        exact Or.inl (run.invariant_of_allowed
          (fun transition => ∀ creation ∈ transition.label.creation, TakesNoFirstStack creation)
          id keeps noFirst isLive)
      structs := structs_of_no_first run noFirst }

/-- Main creates a thread that exits and is reaped: the first stack stays. -/
theorem exists_leaked_stack : ∃ path last, Execution Step Machine.booted path last ∧
    last.structs 30 = false ∧ last.blocks 32 = none ∧ last.blocks 31 = some 16384 ∧
    Machine.booted.blocks 31 = none ∧ ¬ HeapBalanced Machine.booted path last := by
  rcases Machine.exists_run Machine.booted
    [.create 0 none (blocksFrom 30), .createEnqueue 0, .unlock 0, .callYield 0, .yieldEnter 0,
      .yieldSwitch 0, .forkUnlock 0, .exit 0 7, .exitWake 0, .unlock 0, .yieldEnter 0]
    (fun path last => decide (last.structs 30 = false ∧ last.blocks 32 = none ∧
      last.blocks 31 = some 16384 ∧
      ∃ transition ∈ path, transition.label = .create 0 none (blocksFrom 30)))
    (by decide +kernel) with ⟨path, last, run, holds⟩
  rcases of_decide_eq_true holds with ⟨reaped, released, leaked, transition, member, isCreate⟩
  refine ⟨path, last, run, reaped, released, leaked, by decide, ?_⟩
  intro heap
  have isCreation : (⟨none, false, blocksFrom 30⟩ : Creation) ∈ transition.label.creation := by
    rw [isCreate]
    rfl
  have balanced := heap.balanced transition member _ isCreation
  have fresh := (run.step_of_mem member).freshAllocation isCreation
  rcases (balanced_iff fresh).mp balanced with ⟨used, isUsed, -⟩ | noTask | noFirst
  · cases isUsed
  · cases noTask
  · cases noFirst

/-- Main creates a thread on memory of its own, which exits and is reaped. -/
theorem heap_balanced_own_stack : ∃ path last, Execution Step Machine.booted path last ∧
    last.structs 30 = false ∧
    (HeapBalanced Machine.booted path last ↔
      ∀ transition ∈ path, ∀ creation ∈ transition.label.creation,
        TakesNoFirstStack creation) := by
  rcases Machine.exists_run Machine.booted
    [.create 0 (some ⟨4096, 90, 2, true⟩) ⟨30, 0, 0⟩, .createEnqueue 0, .unlock 0, .callYield 0,
      .yieldEnter 0, .yieldSwitch 0, .forkUnlock 0, .exit 0 7, .exitWake 0, .unlock 0,
      .yieldEnter 0]
    (fun path last => decide (last.structs 30 = false)) (by decide +kernel) with
    ⟨path, last, run, holds⟩
  exact ⟨path, last, run, of_decide_eq_true holds, heap_balanced_iff run⟩

end UniKernel.Pthread
