import UniKernel.Pthread.Perform
import UniKernel.Pthread.Threads

/-!
Owns the runqueues over whole runs, and the task that `sched_yield` makes
running. Whenever `sched_lock` is free the lists, the tails and the bitmap agree.
The choice of `sched_yield` is sound as long as a caller that cannot go on finds
another task: the fallback reads `cores[cpu].task`, which is the caller itself
and not the core's idle task.
-/

namespace UniKernel.Pthread

open UniKernel.Lib

variable {m m' first last : Machine} {action : Action} {queue : Nat → List Nat} {c : Core}
  {path : List (Transition Machine Action)}

/-! ### The runqueues -/

/-- The runqueues of `s` hold the tasks `queue`, and everything else that
`pthread.c` keeps about them agrees. -/
structure RunqueuesOk (s : State) (queue : Nat → List Nat) : Prop where
  linked : ∀ p < priorityCount,
    Linked s.next s.prev (s.runqueues p) (s.runqueuesTail p) (queue p)
  priority : ∀ p < priorityCount, ∀ t ∈ queue p, s.priority t = p
  ready : ∀ p < priorityCount, ∀ t ∈ queue p, s.state t = .ready
  notCurrent : ∀ p < priorityCount, ∀ t ∈ queue p, ∀ c, s.current c ≠ t
  apart : ∀ p < priorityCount, ∀ q < priorityCount, p ≠ q → ∀ t ∈ queue p, t ∉ queue q
  active : ∀ p < priorityCount, s.activePriorities.testBit p = true ↔ s.runqueues p ≠ 0

theorem Machine.Consistent.runqueuesOk (consistent : m.Consistent queue) :
    RunqueuesOk m.sched queue where
  linked := fun p _ => consistent.queues.queued.linked p
  priority := fun p _ => consistent.queues.queued.priority p
  ready := fun p _ => consistent.queues.ready p
  notCurrent := by
    intro p _ t member c isCurrent
    exact consistent.currentUnqueued c p (isCurrent ▸ member)
  apart := fun p _ q _ other t member => consistent.queues.queued.notMem member other.symm
  active := by
    intro p _
    rw [consistent.queues.queued.active, ne_eq, ne_eq,
      (consistent.queues.queued.linked p).head_eq_zero_iff]

/-- From a valid machine on, a run that hands out no struct twice hands out none
in use. -/
theorem Valid.run_of_fresh (valid : Valid first) (run : Execution Step first path last)
    (fresh : ∀ transition ∈ path, FreshStructs transition) :
    Valid last ∧ ∀ transition ∈ path, AllocatesUnused transition := by
  have keeps : ∀ source label target, Valid source → Step source label target →
      FreshStructs ⟨source, label, target⟩ → Valid target := by
    intro source label target valid taken isFresh
    exact valid.step taken (isFresh.allocatesUnused valid.threads)
  refine ⟨run.invariant_of_allowed FreshStructs valid keeps fresh, ?_⟩
  intro transition member
  have valid := run.invariant_at_transition FreshStructs valid keeps fresh
  exact (fresh transition member).allocatesUnused (valid transition member).1.threads

/-- Along a run that hands out no struct twice, none in use is handed out. -/
theorem valid_of_fresh (initial : Initial first) (run : Execution Step first path last)
    (fresh : ∀ transition ∈ path, FreshStructs transition) :
    Valid last ∧ ∀ transition ∈ path, AllocatesUnused transition :=
  (Valid.initial initial).run_of_fresh run fresh

/-- With each task a fresh object, the runqueues are well formed whenever the
lock is free. -/
theorem runqueues_wellFormed (initial : Initial first) (run : Execution Step first path last)
    (fresh : ∀ transition ∈ path, FreshStructs transition)
    (lockFree : last.sched.schedLock = false) : ∃ queue, RunqueuesOk last.sched queue := by
  rcases (valid_of_fresh initial run fresh).1.sound.consistent lockFree with ⟨queue, consistent⟩
  exact ⟨queue, consistent.runqueuesOk⟩

instance (transition : Transition Machine Action) : Decidable (FreshStructs transition) :=
  inferInstanceAs (Decidable (∀ t ∈ transition.label.structs, t ≠ 0 →
    transition.source.history.thread t = 0))

/-- Main creates a thread and yields to it. -/
theorem runqueues_wellFormed_one_thread : ∃ path last,
    Execution Step Machine.booted path last ∧ last.sched.current 0 = 30 ∧
      ∃ queue, RunqueuesOk last.sched queue := by
  rcases Machine.exists_run Machine.booted
    [.create 0 none (blocksFrom 30), .createEnqueue 0, .unlock 0, .callYield 0,
      .yieldEnter 0, .yieldSwitch 0, .forkUnlock 0]
    (fun path last => decide ((∀ transition ∈ path, FreshStructs transition) ∧
      last.sched.current 0 = 30 ∧ last.sched.schedLock = false)) (by decide +kernel) with
    ⟨path, last, run, holds⟩
  rcases of_decide_eq_true holds with ⟨fresh, isCurrent, lockFree⟩
  exact ⟨path, last, run, isCurrent,
    runqueues_wellFormed Machine.booted_initial run fresh lockFree⟩

/-! ### The choice of `sched_yield` -/

/-- The `sched_yield` of core `c` makes a proper task running: the ready head of
a runqueue, the caller if it was running, or the idle task of the core. With a
caller that cannot go on and empty runqueues this leaves the idle task. -/
structure YieldOk (m m' : Machine) (c : Core) : Prop where
  makesRunning : m'.sched.state (m'.current c) = .running
  others : ∀ a, a ≠ m'.current c → m'.sched.state a = .running → m.sched.state a = .running
  choice :
    (∃ p < priorityCount, m'.current c = m.sched.runqueues p ∧ m'.current c ≠ 0 ∧
      m.sched.state (m'.current c) = .ready) ∨
    (m'.current c = m.current c ∧ m.sched.state (m.current c) = .running) ∨
    m'.current c = m.history.idleTask c
  idleWhenEmpty :
    m.sched.state (m.current c) = .blocked ∨ m.sched.state (m.current c) = .exited →
    (∀ p < priorityCount, m.sched.runqueues p = 0) → m'.current c = m.history.idleTask c
  notExited : m.sched.state (m'.current c) ≠ .exited
  notBlocked : m.sched.state (m'.current c) ≠ .blocked

/-- The caller of `sched_yield` on core `c` can go on, or some task is queued. -/
def CanChoose (m : Machine) (c : Core) : Prop :=
  m.sched.state (m.current c) = .running ∨ m.sched.activePriorities ≠ 0

/-- A `sched_yield` of a consistent machine makes a proper task running exactly
when its caller can go on or a task is queued. -/
theorem Machine.Consistent.yieldOk_iff {caller : Caller} (consistent : m.Consistent queue)
    (here : m.pc c = .yieldLock caller) (lockFree : m.sched.schedLock = false) :
    YieldOk m (m.yieldSwitch c caller) c ↔ CanChoose m c := by
  rcases consistent.switched here lockFree with ⟨nextTask, switched⟩
  have current : (m.yieldSwitch c caller).current c = nextTask := by
    rw [switched.current, if_pos rfl]
  have noBits : m.sched.activePriorities = 0 ↔ ∀ p, queue p = [] :=
    consistent.queues.queued.inactive_iff
  have ownMode := consistent.mode c
  rw [here] at ownMode
  constructor
  · intro ok
    by_contra cannot
    have notRunning : m.sched.state (m.current c) ≠ .running := fun running =>
      cannot (Or.inl running)
    have empty : ∀ p, queue p = [] := noBits.mp (not_not.mp fun some => cannot (Or.inr some))
    have same : nextTask = m.current c := by
      rcases switched.choice.origin with ⟨p, member⟩ | same
      · rw [empty p] at member
        cases member
      · exact same
    have notExited := ok.notExited
    have notBlocked := ok.notBlocked
    rw [current, same] at notExited notBlocked
    rcases caller with _ | call | _
    · exact notRunning ownMode.2.1
    · exact ownMode.2.1.elim notRunning notBlocked
    · exact notExited ownMode
  · intro can
    have choice : (∃ p < priorityCount, nextTask = m.sched.runqueues p ∧
        nextTask ≠ 0 ∧ m.sched.state nextTask = .ready) ∨
        (nextTask = m.current c ∧ m.sched.state (m.current c) = .running) := by
      rcases switched.choice with ⟨p, member, isHead⟩ | ⟨same, running⟩ | ⟨-, notRunning, empty⟩
      · exact Or.inl ⟨p, consistent.queues.queued.inRange member, isHead,
          consistent.queues.queued.ne_zero member, consistent.queues.ready p _ member⟩
      · exact Or.inr ⟨same, running⟩
      · exact absurd (noBits.mpr empty) (can.resolve_left notRunning)
    have startState : m.sched.state nextTask = .ready ∨
        m.sched.state nextTask = .running := by
      rcases choice with ⟨-, -, -, -, ready⟩ | ⟨same, running⟩
      · exact Or.inl ready
      · rw [same]
        exact Or.inr running
    exact {
      makesRunning := by
        rw [current]
        exact switched.running
      others := by
        intro a notNext
        rw [current] at notNext
        by_cases isSelf : a = m.current c
        · subst isSelf
          rcases switched.prevState (Ne.symm notNext) with same | ⟨running, -, -⟩
          · exact fun running => same.symm.trans running
          · exact fun _ => running
        · rw [switched.state a isSelf notNext]
          exact id
      choice := by
        rw [current]
        exact choice.imp_right Or.inl
      idleWhenEmpty := by
        intro cannotGoOn empty
        exfalso
        rcases choice with ⟨p, small, isHead, nonzero, -⟩ | ⟨-, running⟩
        · exact nonzero (isHead.trans (empty p small))
        · rw [running] at cannotGoOn
          exact cannotGoOn.elim nofun nofun
      notExited := by
        rw [current]
        intro exited
        rw [exited] at startState
        exact startState.elim nofun nofun
      notBlocked := by
        rw [current]
        intro blocked
        rw [blocked] at startState
        exact startState.elim nofun nofun }

/-- As long as no struct in use is handed out again, every `sched_yield` of a
run makes a proper task running if and only if each finds its caller able to go
on or a task queued. -/
theorem yields_ok_iff (initial : Initial first) (run : Execution Step first path last)
    (unused : ∀ transition ∈ path, AllocatesUnused transition) :
    (∀ transition ∈ path, ∀ c, transition.label = .yieldSwitch c →
      YieldOk transition.source transition.target c) ↔
    ∀ transition ∈ path, ∀ c, transition.label = .yieldSwitch c →
      CanChoose transition.source c := by
  have sound := run.invariant_at_transition AllocatesUnused (Sound.initial initial)
    (fun source label target sound taken isUnused => sound.step taken isUnused) unused
  refine forall₂_congr fun transition member => forall₂_congr fun c isYield => ?_
  have taken := run.step_of_mem member
  rcases transition with ⟨source, label, target⟩
  dsimp only at isYield taken ⊢
  subst isYield
  cases taken with
  | yieldSwitch here lockFree =>
      rcases (sound _ member).1.consistent lockFree with ⟨queue, consistent⟩
      exact consistent.yieldOk_iff here lockFree

/-- Main creates a thread that core 1 runs, and joins it: core 0 goes on with
main, which is blocked. -/
theorem exists_yield_to_blocked : ∃ path last, Execution Step Machine.booted path last ∧
    (∀ transition ∈ path, FreshStructs transition) ∧
    ∃ transition ∈ path, transition.label = .yieldSwitch 0 ∧
      ¬ YieldOk transition.source transition.target 0 := by
  rcases Machine.exists_run Machine.booted
    [.initSecondary 1 (blocksFrom 40) 50, .create 0 none (blocksFrom 30),
      .createEnqueue 0, .unlock 0, .callYield 1, .yieldEnter 1, .yieldSwitch 1, .forkUnlock 1,
      .join 0 ⟨30, 5, 0⟩, .unlock 0, .joinTest 0, .yieldEnter 0, .yieldSwitch 0]
    (fun path last => decide ((∀ transition ∈ path, FreshStructs transition) ∧
      ∃ transition ∈ path, transition.label = .yieldSwitch 0 ∧
        transition.source.sched.state (transition.target.current 0) = .blocked))
    (by decide +kernel) with ⟨path, last, run, holds⟩
  rcases of_decide_eq_true holds with ⟨fresh, transition, member, isYield, blocked⟩
  exact ⟨path, last, run, fresh, transition, member, isYield, fun ok => ok.notBlocked blocked⟩

/-- Main creates a thread and yields to it. -/
theorem yields_ok_one_thread : ∃ path last, Execution Step Machine.booted path last ∧
    last.sched.current 0 = 30 ∧
    ((∀ transition ∈ path, ∀ c, transition.label = .yieldSwitch c →
      YieldOk transition.source transition.target c) ↔
    ∀ transition ∈ path, ∀ c, transition.label = .yieldSwitch c →
      CanChoose transition.source c) := by
  rcases Machine.exists_run Machine.booted
    [.create 0 none (blocksFrom 30), .createEnqueue 0, .unlock 0, .callYield 0,
      .yieldEnter 0, .yieldSwitch 0, .forkUnlock 0]
    (fun path last => decide ((∀ transition ∈ path, FreshStructs transition) ∧
      last.sched.current 0 = 30)) (by decide +kernel) with ⟨path, last, run, holds⟩
  rcases of_decide_eq_true holds with ⟨fresh, isCurrent⟩
  exact ⟨path, last, run, isCurrent,
    yields_ok_iff Machine.booted_initial run (valid_of_fresh Machine.booted_initial run fresh).2⟩

end UniKernel.Pthread
