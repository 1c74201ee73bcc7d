import UniKernel.Pthread.WakeUp

/-!
Owns the reclamation of exited tasks. `sched_yield` frees the task in
`task_to_free` before it switches away, and what it finds there is the task of
the core itself: the slot is set in `pthread_exit` and consumed at the first
`sched_yield` behind it. So a freed task is always still running.
-/

namespace UniKernel.Pthread

open UniKernel.Lib

variable {m m' first last : Machine} {action : Action} {c : Core} {t : Nat}
  {path : List (Transition Machine Action)}

/-! ### The structs a step reads or writes -/

namespace State

/-- `sched_enqueue_task`: the task, and the tail of its runqueue. -/
def enqueueAccesses (t : Nat) (s : State) : List Nat :=
  if s.runqueues (s.priority t) = 0 then [t] else [t, s.runqueuesTail (s.priority t)]

/-- `sched_dequeue_task`: the task and its neighbours. -/
def dequeueAccesses (t : Nat) (s : State) : List Nat :=
  t :: [s.prev t, s.next t].filter (· ≠ 0)

/-- The locked part of `sched_yield` with the switch: the caller with its save
area, its runqueue if it goes back there, and the next task. -/
def yieldAccesses (c : Core) (s : State) : List Nat :=
  let prevTask := s.current c
  let requeued := s.requeue prevTask
  let nextTask := requeued.nextTask c
  let forPrev :=
    if prevTask ≠ 0 ∧ s.state prevTask = .running ∧ s.priority prevTask ≠ idlePriority then
      s.enqueueAccesses prevTask
    else [prevTask]
  let forNext :=
    if nextTask ≠ 0 ∧ requeued.priority nextTask ≠ idlePriority then
      requeued.dequeueAccesses nextTask
    else [nextTask]
  forPrev ++ forNext

end State

/-- The task structs that a step reads or writes, other than those it gets from
`malloc`. -/
def Machine.accesses (m : Machine) : Action → List Nat
  | .initSecondary _ _ _ => []
  | .create _ _ _ => []
  | .createEnqueue c =>
      match m.pc c with
      | .createLock t => m.sched.enqueueAccesses t
      | _ => []
  | .join c call =>
      if m.sched.state call.target ≠ .exited then [call.target, m.current c] else [call.target]
  | .joinTest c =>
      match m.pc c with
      | .joinLoop call => [call.target]
      | _ => []
  | .joinReturn c =>
      match m.pc c with
      | .joinRead call => if call.valuePtr ≠ 0 then [call.target] else []
      | _ => []
  | .exit c _ => [m.current c]
  | .exitWake c =>
      match m.pc c with
      | .exitWake waiting =>
          if waiting ≠ 0 then m.sched.enqueueAccesses waiting
          else m.sched.dequeueAccesses (m.current c)
      | _ => []
  | .callYield _ => []
  | .yieldEnter c =>
      if (m.sched.cores c).taskToFree ≠ 0 then [(m.sched.cores c).taskToFree] else []
  | .yieldSwitch c => m.sched.yieldAccesses c
  | .unlock _ => []
  | .forkUnlock _ => []

/-- A task that a step frees is the task of no core, and the step reads and
writes no struct that was freed before. -/
structure ReclaimOk (transition : Transition Machine Action) : Prop where
  notCurrent : ∀ c, transition.label = .yieldEnter c →
    (transition.source.sched.cores c).taskToFree ≠ 0 →
    ∀ c', transition.source.current c' ≠ (transition.source.sched.cores c).taskToFree
  accesses : ∀ t ∈ transition.source.accesses transition.label, transition.source.reclaimed t = false

/-! ### The switch, on any machine -/

theorem State.cores_choose (c : Core) (s : State) : (s.choose c).2.cores = s.cores := by
  have requeued : ∀ prevTask, ((s.setLock true).requeue prevTask).cores = s.cores := by
    intro prevTask
    unfold State.requeue
    split
    · exact State.cores_schedEnqueueTask
    · rfl
  have chosen : ∀ (s' : State) nextTask, (s'.makeRunning nextTask).cores = s'.cores := by
    intro s' nextTask
    unfold State.makeRunning
    split
    · exact State.cores_schedDequeueTask
    · split <;> rfl
  exact (chosen _ _).trans (requeued _)

theorem Machine.yieldSwitch_reclaimed (m : Machine) (caller : Caller) :
    (m.yieldSwitch c caller).reclaimed = m.reclaimed := by
  unfold Machine.yieldSwitch
  dsimp only
  split <;> rfl

/-! ### The slot -/

theorem AfterUnlock.reclaiming_resume (after : AfterUnlock) :
    after.resume.reclaiming = (Pc.unlock after).reclaiming := by
  rcases after with _ | (_ | _ | _) | _ | _ | _ <;> rfl

/-- A set `task_to_free` holds the task of its own core, which is on its way
from `pthread_exit` to the `sched_yield` behind it; and nothing was freed yet. -/
structure NothingFreed (m : Machine) : Prop where
  toFree : ∀ c, (m.sched.cores c).taskToFree = 0 ∨
    (m.sched.cores c).taskToFree = m.current c ∧ (m.pc c).reclaiming = true
  reclaimed : ∀ t, m.reclaimed t = false

namespace NothingFreed

/-- A step of core `c` to `place` that leaves the slots alone. -/
theorem step (nothing : NothingFreed m) {place : Pc} (pc : m'.pc = Function.update m.pc c place)
    (current : ∀ c', c' ≠ c → m'.current c' = m.current c')
    (own : m'.current c = m.current c ∨ (m.pc c).reclaiming = false)
    (toFree : ∀ c', (m'.sched.cores c').taskToFree = (m.sched.cores c').taskToFree)
    (keeps : (m.pc c).reclaiming = true → place.reclaiming = true)
    (reclaimed : ∀ t, m'.reclaimed t = true → m.reclaimed t = true) : NothingFreed m' where
  toFree := by
    intro c'
    rw [toFree, pc]
    rcases nothing.toFree c' with none | ⟨isCurrent, reclaiming⟩
    · exact Or.inl none
    · right
      by_cases same : c' = c
      · subst same
        rw [Function.update_self]
        refine ⟨?_, keeps reclaiming⟩
        rcases own with own | notReclaiming
        · rw [own]
          exact isCurrent
        · rw [notReclaiming] at reclaiming
          cases reclaiming
      · rw [Function.update_of_ne same, current c' same]
        exact ⟨isCurrent, reclaiming⟩
  reclaimed := by
    intro t
    rw [← Bool.not_eq_true]
    intro isReclaimed
    have before := reclaimed t isReclaimed
    rw [nothing.reclaimed t] at before
    cases before

/-- The creation of a task. -/
theorem created {attr : Option Attr} {idle ok : Bool} {new : Nat} {task : Task}
    (nothing : NothingFreed m) (created : Created m m' attr idle new ok task) :
    NothingFreed m' where
  toFree := by
    intro c'
    rcases created.sched with ⟨tid, sched⟩
    rw [created.current, created.pc, sched]
    exact nothing.toFree c'
  reclaimed := by
    intro t
    rw [created.reclaimed, Function.update_apply]
    split
    · rfl
    · exact nothing.reclaimed t

theorem create {attr : Option Attr} {alloc : Allocation} (nothing : NothingFreed m)
    (here : m.pc c = .user) : NothingFreed (m.create c attr alloc) := by
  rcases m.create_cases c attr alloc with ⟨-, same⟩ | ⟨made, task, -, isCreated, outcome⟩
  · rw [same]
    exact nothing
  · have after : NothingFreed made := nothing.created isCreated
    rcases outcome with ⟨-, isMade⟩ | ⟨-, -, isMade⟩ | ⟨-, -, isMade⟩
    · rw [isMade]
      exact after
    · rw [isMade]
      have notReclaiming : (made.pc c).reclaiming = false := by
        rw [isCreated.pc, here]
        rfl
      have moved : (made.setPc c (.createLock alloc.task)).pc =
          Function.update made.pc c (.createLock alloc.task) := rfl
      apply after.step moved (fun _ _ => rfl) (Or.inl rfl) (fun _ => rfl) _ (fun _ => id)
      intro reclaiming
      cases notReclaiming.symm.trans reclaiming
    · rw [isMade]
      exact ⟨after.toFree, after.reclaimed⟩

theorem schedInitSecondary {idle : Allocation} {own : Nat} (nothing : NothingFreed m)
    (here : m.pc c = .offline) (init : InitAllocation m idle own) :
    NothingFreed (m.schedInitSecondary c idle own) := by
  rcases Machine.schedInitSecondary_starts here init with
    ⟨made, idleTask, task, isCreated, starts⟩
  have notReclaiming : (made.pc c).reclaiming = false := by
    rw [isCreated.pc, here]
    rfl
  apply (nothing.created isCreated).step starts.pc _ (Or.inr notReclaiming) starts.taskToFree
  · intro reclaiming
    cases notReclaiming.symm.trans reclaiming
  · intro t
    rw [starts.reclaimed, Function.update_apply]
    split
    · exact nofun
    · exact id
  · intro c' other
    rw [starts.current, Function.update_of_ne other]

/-- A step of the code proper that leaves the slots and the freed structs alone. -/
theorem ordinary {place : Pc} (nothing : NothingFreed m) (step : Ordinary m m' c place)
    (toFree : ∀ c', (m'.sched.cores c').taskToFree = (m.sched.cores c').taskToFree)
    (keeps : (m.pc c).reclaiming = true → place.reclaiming = true)
    (reclaimed : m'.reclaimed = m.reclaimed) : NothingFreed m' :=
  nothing.step step.pc (fun c' _ => step.keeps.current c') (Or.inl (step.keeps.current c)) toFree
    keeps (fun t => by rw [reclaimed]; exact id)

theorem exit {value : Nat} (nothing : NothingFreed m) : NothingFreed (m.exit c value) := by
  have exits := m.exit_exits c value
  constructor
  · intro c'
    rw [exits.taskToFree, exits.current, exits.pc]
    by_cases same : c' = c
    · rw [if_pos same, same, Function.update_self]
      exact Or.inr ⟨rfl, rfl⟩
    · rw [if_neg same, Function.update_of_ne same]
      exact nothing.toFree c'
  · rw [exits.reclaimed]
    exact nothing.reclaimed

/-- A `sched_yield` that finds the slot empty. -/
theorem yieldEnter {caller : Caller} (nothing : NothingFreed m)
    (empty : (m.sched.cores c).taskToFree = 0) : NothingFreed (m.yieldEnter c caller) := by
  have same : m.yieldEnter c caller = m.setPc c (.yieldLock caller) := by
    unfold Machine.yieldEnter
    exact if_neg (not_not_intro empty)
  rw [same]
  constructor
  · intro c'
    by_cases isHere : c' = c
    · rw [isHere]
      exact Or.inl empty
    · rcases nothing.toFree c' with none | ⟨isCurrent, reclaiming⟩
      · exact Or.inl none
      · refine Or.inr ⟨isCurrent, ?_⟩
        show (Function.update m.pc c (.yieldLock caller) c').reclaiming = true
        rw [Function.update_of_ne isHere]
        exact reclaiming
  · exact nothing.reclaimed

/-- The locked part of `sched_yield` comes behind the slot. -/
theorem yieldSwitch {caller : Caller} (nothing : NothingFreed m)
    (here : m.pc c = .yieldLock caller) : NothingFreed (m.yieldSwitch c caller) := by
  have notReclaiming : (m.pc c).reclaiming = false := by
    rw [here]
    rfl
  apply nothing.step (m.yieldSwitch_pc caller) _ (Or.inr notReclaiming)
  · intro c'
    rw [m.yieldSwitch_sched, State.taskToFree_afterSwitch, State.cores_choose]
  · intro reclaiming
    cases notReclaiming.symm.trans reclaiming
  · intro t
    rw [m.yieldSwitch_reclaimed]
    exact id
  · intro c' other
    have isCurrent : (m.sched.choose c).2.current c = m.current c := by
      rw [State.current, State.cores_choose]
      rfl
    rw [Machine.current, m.yieldSwitch_sched, State.current_afterSwitch isCurrent, if_neg other,
      State.current, State.cores_choose]
    rfl

theorem step_of_empty (nothing : NothingFreed m) (taken : Step m action m')
    (empty : ∀ c, action = .yieldEnter c → (m.sched.cores c).taskToFree = 0) :
    NothingFreed m' := by
  have notHere : ∀ {c : Core} {place : Pc}, (m.pc c).reclaiming = false →
      (m.pc c).reclaiming = true → place.reclaiming = true := by
    intro c place notReclaiming reclaiming
    cases notReclaiming.symm.trans reclaiming
  cases taken with
  | initSecondary here init => exact nothing.schedInitSecondary here init
  | create here fresh => exact nothing.create here
  | createEnqueue here lockFree =>
      apply nothing.ordinary (Machine.createEnqueue_ordinary here)
      · exact fun c' => congrArg (fun cores => (cores c').taskToFree) State.cores_schedEnqueueTask
      · exact notHere (by rw [here]; rfl)
      · rfl
  | @join c call here lockFree handle =>
      rcases Machine.join_ordinary here handle with ⟨place, step⟩
      have frame : (∀ c', ((m.join c call).sched.cores c').taskToFree =
          (m.sched.cores c').taskToFree) ∧ (m.join c call).reclaimed = m.reclaimed := by
        unfold Machine.join
        dsimp only
        split <;> exact ⟨fun _ => rfl, rfl⟩
      exact nothing.ordinary step frame.1 (notHere (by rw [here]; rfl)) frame.2
  | @joinTest c call here =>
      rcases Machine.joinTest_ordinary here with ⟨place, step⟩
      have frame : (m.joinTest c call).sched = m.sched ∧
          (m.joinTest c call).reclaimed = m.reclaimed := by
        unfold Machine.joinTest
        split <;> exact ⟨rfl, rfl⟩
      exact nothing.ordinary step (by rw [frame.1]; exact fun _ => rfl)
        (notHere (by rw [here]; rfl)) frame.2
  | @joinReturn c call here =>
      have frame : (m.joinReturn c call).sched = m.sched ∧
          (m.joinReturn c call).reclaimed = m.reclaimed := by
        unfold Machine.joinReturn
        dsimp only
        split <;> exact ⟨rfl, rfl⟩
      exact nothing.ordinary (Machine.joinReturn_ordinary here)
        (by rw [frame.1]; exact fun _ => rfl) (notHere (by rw [here]; rfl)) frame.2
  | exit here lockFree => exact nothing.exit
  | @exitWake c waiting here =>
      by_cases someWaiter : waiting = 0
      · subst someWaiter
        apply nothing.step (c := c) (congrArg Machine.pc (m.exitWake_zero c))
        · exact fun c' _ => congrArg (fun cores => (cores c').task) State.cores_schedDequeueTask
        · exact Or.inl (congrArg (fun cores => (cores c).task) State.cores_schedDequeueTask)
        · exact fun c' => congrArg (fun cores => (cores c').taskToFree) State.cores_schedDequeueTask
        · exact fun _ => rfl
        · rw [m.exitWake_zero c]
          exact fun _ => id
      · have woken := Machine.exitWake_woken (m := m) (c := c) someWaiter
        constructor
        · intro c'
          rw [woken.cores, woken.current, woken.pc]
          exact nothing.toFree c'
        · have same : (m.exitWake c waiting).reclaimed = m.reclaimed := by
            rw [Machine.exitWake, if_pos someWaiter]
            rfl
          rw [same]
          exact nothing.reclaimed
  | callYield here =>
      exact nothing.ordinary (Machine.callYield_ordinary here) (fun _ => rfl)
        (notHere (by rw [here]; rfl)) rfl
  | @yieldEnter c caller here => exact nothing.yieldEnter (empty c rfl)
  | yieldSwitch here lockFree => exact nothing.yieldSwitch here
  | @unlock c after here =>
      have frame : (∀ c', ((m.unlock c after).sched.cores c').taskToFree =
          (m.sched.cores c').taskToFree) ∧ (m.unlock c after).reclaimed = m.reclaimed := by
        unfold Machine.unlock
        dsimp only
        split <;> exact ⟨fun _ => rfl, rfl⟩
      apply nothing.ordinary (Machine.unlock_ordinary here) frame.1 _ frame.2
      rw [here, after.reclaiming_resume]
      exact id
  | forkUnlock here =>
      exact nothing.ordinary (Machine.forkUnlock_ordinary here) (fun _ => rfl)
        (notHere (by rw [here]; rfl)) rfl

theorem initial (initial : Initial m) : NothingFreed m := by
  rcases initial with ⟨idle, own, init, rfl⟩
  rcases Machine.schedInit_starts init with ⟨made, idleTask, task, isCreated, starts⟩
  have zero : NothingFreed Machine.zero := ⟨fun _ => Or.inl rfl, fun _ => rfl⟩
  have notReclaiming : (made.pc 0).reclaiming = false := by
    rw [isCreated.pc]
    rfl
  apply (zero.created isCreated).step starts.pc _ (Or.inr notReclaiming) starts.taskToFree
  · intro reclaiming
    cases notReclaiming.symm.trans reclaiming
  · intro t
    rw [starts.reclaimed, Function.update_apply]
    split
    · exact nofun
    · exact id
  · intro c' other
    rw [starts.current, Function.update_of_ne other]

end NothingFreed

/-! ### Whole runs -/

/-- A step in a machine that freed nothing is as it should be if and only if it
frees nothing. -/
theorem NothingFreed.reclaimOk_iff (nothing : NothingFreed m) :
    ReclaimOk ⟨m, action, m'⟩ ↔
      ∀ c, action = .yieldEnter c → (m.sched.cores c).taskToFree = 0 := by
  constructor
  · intro ok c isYield
    rcases nothing.toFree c with none | ⟨isCurrent, -⟩
    · exact none
    · by_contra someTask
      exact ok.notCurrent c isYield someTask c isCurrent.symm
  · intro empty
    constructor
    · intro c isYield someTask
      exact absurd (empty c isYield) someTask
    · exact fun t _ => nothing.reclaimed t

/-- In a run no task that a core runs is freed and no freed task is used again if
and only if every `sched_yield` of the run finds `task_to_free` empty: a task
that `pthread_exit` left there is freed while its own core still runs it. -/
theorem reclaims_ok_iff (initial : Initial first) (run : Execution Step first path last) :
    (∀ transition ∈ path, ReclaimOk transition) ↔
      ∀ transition ∈ path, ∀ c, transition.label = .yieldEnter c →
        (transition.source.sched.cores c).taskToFree = 0 := by
  apply run.forall_good_iff (NothingFreed.initial initial)
  · exact fun source label target nothing _ => nothing.reclaimOk_iff
  · exact fun source label target nothing taken empty => nothing.step_of_empty taken empty

/-- Main creates a thread and yields to it; the thread exits. -/
theorem exists_freed_current : ∃ path last, Execution Step Machine.booted path last ∧
    (∀ transition ∈ path, FreshStructs transition) ∧
    ∃ transition ∈ path, transition.label = .yieldEnter 0 ∧
      (transition.source.sched.cores 0).taskToFree = 30 ∧ transition.source.current 0 = 30 ∧
      transition.target.reclaimed 30 = true ∧ last.reclaimed 30 = true ∧
      ∃ later ∈ path, later.label = .yieldSwitch 0 ∧ later.source.reclaimed 30 = true ∧
        30 ∈ later.source.accesses later.label := by
  rcases Machine.exists_run Machine.booted
    [.create 0 none (blocksFrom 30), .createEnqueue 0, .unlock 0, .callYield 0, .yieldEnter 0,
      .yieldSwitch 0, .forkUnlock 0, .exit 0 7, .exitWake 0, .unlock 0, .yieldEnter 0,
      .yieldSwitch 0]
    (fun path last => decide ((∀ transition ∈ path, FreshStructs transition) ∧
      ∃ transition ∈ path, transition.label = .yieldEnter 0 ∧
        (transition.source.sched.cores 0).taskToFree = 30 ∧ transition.source.current 0 = 30 ∧
        transition.target.reclaimed 30 = true ∧ last.reclaimed 30 = true ∧
        ∃ later ∈ path, later.label = .yieldSwitch 0 ∧ later.source.reclaimed 30 = true ∧
          30 ∈ later.source.accesses later.label))
    (by decide +kernel) with ⟨path, last, run, holds⟩
  exact ⟨path, last, run, of_decide_eq_true holds⟩

/-- Main creates a thread and yields to it. -/
theorem reclaims_ok_one_thread : ∃ path last, Execution Step Machine.booted path last ∧
    last.sched.current 0 = 30 ∧
    ((∀ transition ∈ path, ReclaimOk transition) ↔
      ∀ transition ∈ path, ∀ c, transition.label = .yieldEnter c →
        (transition.source.sched.cores c).taskToFree = 0) := by
  rcases Machine.exists_run Machine.booted
    [.create 0 none (blocksFrom 30), .createEnqueue 0, .unlock 0, .callYield 0,
      .yieldEnter 0, .yieldSwitch 0, .forkUnlock 0]
    (fun path last => decide (last.sched.current 0 = 30)) (by decide +kernel) with
    ⟨path, last, run, holds⟩
  exact ⟨path, last, run, of_decide_eq_true holds, reclaims_ok_iff Machine.booted_initial run⟩

end UniKernel.Pthread
