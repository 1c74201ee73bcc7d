import UniKernel.Lib.Transition
import UniKernel.Pthread.Machine

/-!
Owns the steps as a function: `perform` checks what a step asks for and takes
it, so that a schedule, a list of actions, can be run. A schedule that runs is
an execution of the step relation.
-/

namespace UniKernel.Pthread

open UniKernel.Lib

variable {m m' : Machine} {action : Action} {schedule : List Action}

instance (m : Machine) (t : Nat) : Decidable (FreshTask m t) :=
  inferInstanceAs (Decidable (t ≠ 0 → m.structs t = false))

instance (m : Machine) (alloc : Allocation) : Decidable (FreshAllocation m alloc) :=
  decidable_of_iff
    (FreshTask m alloc.task ∧ (alloc.firstStack ≠ 0 → m.blocks alloc.firstStack = none) ∧
      (alloc.stack ≠ 0 → m.blocks alloc.stack = none ∧ alloc.stack ≠ alloc.firstStack))
    ⟨fun ⟨task, firstStack, stack⟩ => ⟨task, firstStack, stack⟩,
      fun ⟨task, firstStack, stack⟩ => ⟨task, firstStack, stack⟩⟩

instance (m : Machine) (idle : Allocation) (own : Nat) : Decidable (InitAllocation m idle own) :=
  decidable_of_iff
    (FreshAllocation m idle ∧ idle.task ≠ 0 ∧ idle.firstStack ≠ 0 ∧ idle.stack ≠ 0 ∧
      FreshTask m own ∧ own ≠ 0 ∧ own ≠ idle.task)
    ⟨fun ⟨a, b, c, d, e, f, g⟩ => ⟨a, b, c, d, e, f, g⟩,
      fun ⟨a, b, c, d, e, f, g⟩ => ⟨a, b, c, d, e, f, g⟩⟩

/-- The step of an action, if it is possible. -/
def Machine.perform (m : Machine) : Action → Option Machine
  | .initSecondary c idle own =>
      if m.pc c = .offline ∧ InitAllocation m idle own then
        some (m.schedInitSecondary c idle own)
      else none
  | .create c attr alloc =>
      if m.pc c = .user ∧ FreshAllocation m alloc then some (m.create c attr alloc) else none
  | .createEnqueue c =>
      match m.pc c with
      | .createLock t => if m.sched.schedLock then none else some (m.createEnqueue c t)
      | _ => none
  | .join c call =>
      if m.pc c = .user ∧ m.sched.schedLock = false ∧
          (call.target, call.thread) ∈ m.history.issued then
        some (m.join c call)
      else none
  | .joinTest c =>
      match m.pc c with
      | .joinLoop call => some (m.joinTest c call)
      | _ => none
  | .joinReturn c =>
      match m.pc c with
      | .joinRead call => some (m.joinReturn c call)
      | _ => none
  | .exit c value =>
      if m.pc c = .user ∧ m.sched.schedLock = false then some (m.exit c value) else none
  | .exitWake c =>
      match m.pc c with
      | .exitWake waiting => some (m.exitWake c waiting)
      | _ => none
  | .callYield c => if m.pc c = .user then some (m.setPc c (.yieldEnter .user)) else none
  | .yieldEnter c =>
      match m.pc c with
      | .yieldEnter caller => some (m.yieldEnter c caller)
      | _ => none
  | .yieldSwitch c =>
      match m.pc c with
      | .yieldLock caller => if m.sched.schedLock then none else some (m.yieldSwitch c caller)
      | _ => none
  | .unlock c =>
      match m.pc c with
      | .unlock after => some (m.unlock c after)
      | _ => none
  | .forkUnlock c => if m.pc c = .forkUnlock then some (m.forkUnlock c) else none

/-- `perform` takes steps of the relation only. -/
theorem Machine.step_of_perform (performed : m.perform action = some m') : Step m action m' := by
  cases action with
  | initSecondary c idle own =>
      simp only [perform, Option.ite_none_right_eq_some, Option.some.injEq] at performed
      rcases performed with ⟨⟨here, fresh⟩, rfl⟩
      exact Step.initSecondary here fresh
  | create c attr alloc =>
      simp only [perform, Option.ite_none_right_eq_some, Option.some.injEq] at performed
      rcases performed with ⟨⟨here, fresh⟩, rfl⟩
      exact Step.create here fresh
  | createEnqueue c =>
      simp only [perform] at performed
      split at performed
      · next here =>
          simp only [Option.ite_none_left_eq_some, Option.some.injEq, Bool.not_eq_true] at performed
          rcases performed with ⟨lockFree, rfl⟩
          exact Step.createEnqueue here lockFree
      · cases performed
  | join c call =>
      simp only [perform, Option.ite_none_right_eq_some, Option.some.injEq] at performed
      rcases performed with ⟨⟨here, lockFree, handle⟩, rfl⟩
      exact Step.join here lockFree handle
  | joinTest c =>
      simp only [perform] at performed
      split at performed
      · next here =>
          rw [← Option.some.inj performed]
          exact Step.joinTest here
      · cases performed
  | joinReturn c =>
      simp only [perform] at performed
      split at performed
      · next here =>
          rw [← Option.some.inj performed]
          exact Step.joinReturn here
      · cases performed
  | exit c value =>
      simp only [perform, Option.ite_none_right_eq_some, Option.some.injEq] at performed
      rcases performed with ⟨⟨here, lockFree⟩, rfl⟩
      exact Step.exit here lockFree
  | exitWake c =>
      simp only [perform] at performed
      split at performed
      · next here =>
          rw [← Option.some.inj performed]
          exact Step.exitWake here
      · cases performed
  | callYield c =>
      simp only [perform, Option.ite_none_right_eq_some, Option.some.injEq] at performed
      rcases performed with ⟨here, rfl⟩
      exact Step.callYield here
  | yieldEnter c =>
      simp only [perform] at performed
      split at performed
      · next here =>
          rw [← Option.some.inj performed]
          exact Step.yieldEnter here
      · cases performed
  | yieldSwitch c =>
      simp only [perform] at performed
      split at performed
      · next here =>
          simp only [Option.ite_none_left_eq_some, Option.some.injEq, Bool.not_eq_true] at performed
          rcases performed with ⟨lockFree, rfl⟩
          exact Step.yieldSwitch here lockFree
      · cases performed
  | unlock c =>
      simp only [perform] at performed
      split at performed
      · next here =>
          rw [← Option.some.inj performed]
          exact Step.unlock here
      · cases performed
  | forkUnlock c =>
      simp only [perform, Option.ite_none_right_eq_some, Option.some.injEq] at performed
      rcases performed with ⟨here, rfl⟩
      exact Step.forkUnlock here

/-- The transitions of a schedule, and the machine behind it. -/
def Machine.performAll (m : Machine) : List Action → Option (List (Transition Machine Action) × Machine)
  | [] => some ([], m)
  | action :: rest =>
      match m.perform action with
      | none => none
      | some middle =>
          match middle.performAll rest with
          | none => none
          | some (path, last) => some (⟨m, action, middle⟩ :: path, last)

/-- A schedule that runs is an execution. -/
theorem Machine.execution_of_perform {path : List (Transition Machine Action)}
    (performed : m.performAll schedule = some (path, m')) : Execution Step m path m' := by
  induction schedule generalizing m path with
  | nil =>
      rcases Prod.mk.inj (Option.some.inj performed) with ⟨rfl, rfl⟩
      exact Execution.nil
  | cons action rest inductionHypothesis =>
      simp only [performAll] at performed
      split at performed
      · cases performed
      · next middle first =>
          split at performed
          · cases performed
          · next tail last later =>
              rcases Prod.mk.inj (Option.some.inj performed) with ⟨rfl, rfl⟩
              exact (Execution.single (step_of_perform first)).append (inductionHypothesis later)

/-- A schedule that runs and ends as `holds` asks for. -/
theorem Machine.exists_run (m : Machine) (schedule : List Action)
    (holds : List (Transition Machine Action) → Machine → Bool)
    (performed : (m.performAll schedule).any (fun run => holds run.1 run.2) = true) :
    ∃ path last, Execution Step m path last ∧ holds path last = true := by
  rcases (Option.any_eq_true_iff_get _ _).mp performed with ⟨isSome, holdsHere⟩
  exact ⟨_, _, execution_of_perform (Option.some_get isSome).symm, holdsHere⟩

/-! ### Concrete schedules -/

/-- Three blocks in a row. -/
def blocksFrom (t : Nat) : Allocation := ⟨t, t + 1, t + 2⟩

/-- A machine after `sched_init`. -/
def Machine.booted : Machine := Machine.schedInit (blocksFrom 10) 20

theorem Machine.booted_initial : Initial Machine.booted :=
  ⟨blocksFrom 10, 20, by decide, rfl⟩

end UniKernel.Pthread
