import UniKernel.Kernel.Tracks
import UniKernel.Lib.Refinement

/-!
Owns the two refinements of the scheduler on the real heap: for the program it is the
scheduler whose `malloc` returns memory not in use, and for the heap it is a user that
makes only calls a user may make. What is proved of either holds here.
-/

namespace UniKernel.Kernel

open UniKernel.Lib (Transition Execution Answers observed)
open UniKernel.Context (taskSize)
open UniKernel.Heap (Region HeapStep)
open UniKernel.Pthread hiding Machine Step Valid Action

/-- A step in which the program keeps to its attributes, no thread on a stack of its
caller's is reaped, and `malloc` returns no struct that a join still waits for. -/
def Disciplined (transition : Transition State Action) : Prop :=
  ∀ action ∈ transition.label.seen,
    ProperStep ⟨transition.source.program, action, transition.target.program⟩ ∧
      ReapsNoSupplied ⟨transition.source.program, action, transition.target.program⟩

/-- The heap is as the scheduler knows it. -/
structure Joined (r : Region) (static : Nat → Prop) (s : State) : Prop where
  tracks : Tracks r s.machine.structs s.machine.blocks s.heap
  kept : s.program.Kept static

variable {r : Region} {static : Nat → Prop} {s s' : State} {action : Action}
  {attr : Option Attr} {alloc : Allocation} {ptr size : Nat}

theorem FreshBlocks.allocation {m : Pthread.Machine}
    (fresh : FreshBlocks r m.structs m.blocks attr alloc) : FreshAllocation m alloc where
  task nonzero := (fresh.task nonzero).self.1
  firstStack nonzero := (fresh.firstStack nonzero).self.2
  stack nonzero := ⟨(fresh.stack nonzero).1.self.2, (fresh.stack nonzero).2⟩

/-- The program does not hold what is fresh. -/
theorem Joined.not_holds (joined : Joined r static s)
    (outside : ∀ addr, static addr → ¬ (r.base ≤ addr ∧ addr < r.endAddr))
    (fresh : Fresh r s.machine.structs s.machine.blocks ptr size) :
    ¬ s.program.Holds static ptr := by
  intro holds
  obtain isStatic | ⟨block, n, owns, above, below⟩ := holds
  · exact outside ptr isStatic fresh.inHeap
  · exact fresh.outside block n (joined.kept.memory.owned block n owns).2.2 ⟨above, below⟩

/-- A step of the kernel: what the program sees, and what the heap does. -/
structure Simulates (r : Region) (static : Nat → Prop) (s : State) (action : Action) (s' : State) :
    Prop where
  program : Answers (ProgramStep static) s.program action.seen s'.program
  heap : Reaches s.heap s'.heap
  tracks : Tracks r s'.machine.structs s'.machine.blocks s'.heap

theorem quiet_facts {action : Pthread.Action} (isQuiet : quiet action = true) (p : Program) :
    p.suppliedAfter action = p.supplied ∧ action.allocated = [] := by
  cases action with
  | create | initSecondary | yieldEnter => cases isQuiet
  | createEnqueue | join | joinTest | joinReturn | exit | exitWake | callYield | yieldSwitch | unlock
  | forkUnlock => exact ⟨rfl, rfl⟩

namespace Joined

theorem quiet (joined : Joined r static s) {action : Pthread.Action} {m' : Pthread.Machine}
    (isQuiet : quiet action = true) (taken : Pthread.Step s.machine action m') :
    Simulates r static s (.scheduler action) { s with program := { s.program with machine := m' } } := by
  obtain ⟨sameSupplied, nothing⟩ := quiet_facts isQuiet s.program
  have step := @ProgramStep.scheduler static s.program action m' taken
    (fun block member => by rw [nothing] at member; cases member)
  rw [sameSupplied] at step
  refine ⟨step, .refl _, ?_⟩
  obtain ⟨-, keeps⟩ | ⟨c, rfl, -⟩ | ⟨c, attr, alloc, rfl, -⟩ | ⟨c, alloc, own, rfl, -⟩ := taken.memory
  · change Tracks r m'.structs m'.blocks s.heap
    rw [keeps.structs, keeps.blocks]
    exact joined.tracks
  · cases isQuiet
  · cases isQuiet
  · cases isQuiet

variable (small : r.Small) (joined : Joined r static s)
  (outside : ∀ addr, static addr → ¬ (r.base ≤ addr ∧ addr < r.endAddr))

include small joined outside

theorem create {c : Core} {heap : Heap.Machine} (here : s.machine.pc c = .user)
    (fits : Machine.stackSize attr < 2 ^ 64) (allocated : allocate attr s.heap = (alloc, heap)) :
    Simulates r static s (.scheduler (.create c attr alloc))
      ⟨⟨s.machine.create c attr alloc, s.program.owned,
        s.program.suppliedAfter (.create c attr alloc)⟩, heap⟩ := by
  obtain ⟨reaches, fresh, tracks⟩ := joined.tracks.allocate small fits allocated
  refine ⟨?_, reaches, ?_⟩
  · apply ProgramStep.scheduler (.create here fresh.allocation)
    intro block member nonzero
    simp only [Pthread.Action.allocated, List.mem_cons, List.not_mem_nil, or_false] at member
    obtain rfl | rfl | rfl := member
    · exact joined.not_holds outside (fresh.task nonzero)
    · exact joined.not_holds outside (fresh.firstStack nonzero)
    · exact joined.not_holds outside (fresh.stack nonzero).1
  · by_cases noTask : alloc.task = 0
    · have same : s.machine.create c attr alloc = s.machine := by
        rw [Machine.create, Machine.pthreadCreate_null noTask]
        rfl
      change Tracks r (s.machine.create c attr alloc).structs (s.machine.create c attr alloc).blocks heap
      rw [same]
      rw [structsAfter, if_pos noTask, blocksAfter, if_pos noTask] at tracks
      exact tracks
    · have makes := s.machine.create_makes c attr noTask
      change Tracks r (s.machine.create c attr alloc).structs (s.machine.create c attr alloc).blocks heap
      rw [makes.structs, makes.blocks]
      rw [structsAfter, if_neg noTask, blocksAfter, if_neg noTask] at tracks
      exact tracks

theorem initSecondary {c : Core} {own : Nat} {heap : Heap.Machine}
    (here : s.machine.pc c = .offline) (allocated : allocateInit s.heap = (alloc, own, heap))
    (enough : Enough alloc own) :
    Simulates r static s (.scheduler (.initSecondary c alloc own))
      ⟨{ s.program with machine := s.machine.schedInitSecondary c alloc own }, heap⟩ := by
  obtain ⟨reaches, fresh, freshOwn, apart, tracks⟩ :=
    joined.tracks.allocateInit small allocated enough
  have init : InitAllocation s.machine alloc own :=
    ⟨fresh.allocation, enough.task, enough.firstStack, enough.stack, fun _ => freshOwn.self.1,
      enough.own, apart⟩
  refine ⟨?_, reaches, ?_⟩
  · apply ProgramStep.scheduler (.initSecondary here init)
    intro block member nonzero
    simp only [Pthread.Action.allocated, List.mem_cons, List.not_mem_nil, or_false] at member
    obtain rfl | rfl | rfl | rfl := member
    · exact joined.not_holds outside (fresh.task nonzero)
    · exact joined.not_holds outside (fresh.firstStack nonzero)
    · exact joined.not_holds outside (fresh.stack nonzero).1
    · exact joined.not_holds outside freshOwn
  · obtain ⟨made, makes, starts⟩ := s.machine.schedInitSecondary_makes c init
    change Tracks r (s.machine.schedInitSecondary c alloc own).structs
      (s.machine.schedInitSecondary c alloc own).blocks heap
    rw [starts.structs, makes.structs, starts.blocks]
    exact tracks

omit small outside

/-- The stack and the struct of a task that is reaped are live blocks. -/
theorem reap {c : Core} {m' : Pthread.Machine} (reaps : Reaps s.machine m' c)
    (reapsOwn : s.program.suppliedFor (s.machine.slot c) = none) :
    Reaches s.heap (Kernel.reap s.machine c s.heap) ∧
      Tracks r m'.structs m'.blocks (Kernel.reap s.machine c s.heap) := by
  have someTask := reaps.someTask
  have isStruct := (joined.kept.slots c someTask).1
  unfold Kernel.reap
  dsimp only
  rw [if_pos someTask, reaps.structs, reaps.blocks]
  generalize isPage : (s.machine.sched.tasks (s.machine.slot c)).stackPage = page
  by_cases noStack : page = 0
  · obtain ⟨nothing, noBlock⟩ := joined.tracks.free_null
    have sameBlocks : Function.update s.machine.blocks 0 none = s.machine.blocks :=
      Function.update_eq_self_iff.mpr noBlock.symm
    rw [noStack, nothing, sameBlocks]
    exact joined.tracks.freeStruct isStruct
  · have isBlock : s.machine.blocks page ≠ none := by
      rw [← isPage] at noStack ⊢
      exact (joined.kept.memory.ownStacks _ ⟨isStruct, reapsOwn, noStack⟩).2
    obtain ⟨reachesStack, tracks⟩ := joined.tracks.freeBlock isBlock
    obtain ⟨reachesTask, freed⟩ := tracks.freeStruct isStruct
    exact ⟨reachesStack.trans reachesTask, freed⟩

theorem yieldEnter {c : Core} {caller : Caller} (here : s.machine.pc c = .yieldEnter caller)
    (reapsOwn : s.machine.slot c ≠ 0 → s.program.suppliedFor (s.machine.slot c) = none) :
    Simulates r static s (.scheduler (.yieldEnter c))
      ⟨{ s.program with machine := s.machine.yieldEnter c caller },
        Kernel.reap s.machine c s.heap⟩ := by
  have taken : Pthread.Step s.machine (.yieldEnter c) (s.machine.yieldEnter c caller) :=
    .yieldEnter here
  have step : ProgramStep static s.program (.scheduler (.yieldEnter c)) _ :=
    .scheduler taken nofun
  by_cases someTask : s.machine.slot c ≠ 0
  · obtain ⟨reaches, tracks⟩ := joined.reap (taken.reaps someTask) (reapsOwn someTask)
    exact ⟨step, reaches, tracks⟩
  · have noReap : Kernel.reap s.machine c s.heap = s.heap := if_neg someTask
    have sameMachine : s.machine.yieldEnter c caller = s.machine.setPc c (.yieldLock caller) :=
      if_neg someTask
    refine ⟨step, ?_, ?_⟩
    · rw [noReap]
      exact .refl _
    · change Tracks r (s.machine.yieldEnter c caller).structs (s.machine.yieldEnter c caller).blocks _
      rw [noReap, sameMachine]
      exact joined.tracks

end Joined

theorem Joined.simulates (small : r.Small) (joined : Joined r static s)
    (outside : ∀ addr, static addr → ¬ (r.base ≤ addr ∧ addr < r.endAddr))
    (taken : Step s action s') (disciplined : Disciplined ⟨s, action, s'⟩) :
    Simulates r static s action s' := by
  cases taken with
  | quiet isQuiet taken => exact joined.quiet isQuiet taken
  | create here fits allocated => exact joined.create small outside here fits allocated
  | initSecondary here allocated enough =>
      exact joined.initSecondary small outside here allocated enough
  | @yieldEnter c caller here =>
      apply joined.yieldEnter here
      exact (disciplined _ rfl).2 c rfl
  | mallocFails fits failed =>
      obtain ⟨reaches, tracks, -⟩ := joined.tracks.malloc small fits failed
      exact ⟨rfl, reaches, tracks rfl⟩
  | @malloc size ptr heap fits returned nonzero =>
      obtain ⟨reaches, -, result⟩ := joined.tracks.malloc small fits returned
      have isSeen : (Action.malloc size ptr).seen = some (.malloc ptr size) := if_neg nonzero
      refine ⟨?_, reaches, joined.tracks.addBlock (result nonzero)⟩
      have fresh := (result nonzero).fresh
      rw [isSeen]
      exact ProgramStep.malloc nonzero fresh.nonempty fresh.unused
  | @free ptr size owns =>
      have isBlock := (joined.kept.memory.owned ptr size owns).2.2
      obtain ⟨reaches, tracks⟩ := joined.tracks.freeBlock (by rw [State.machine, isBlock]; nofun)
      exact ⟨ProgramStep.free owns, reaches, tracks⟩
  | store value live inside =>
      obtain ⟨reaches, tracks⟩ := joined.tracks.store value live inside
      exact ⟨rfl, reaches, tracks⟩

theorem Joined.step (small : r.Small) (joined : Joined r static s)
    (outside : ∀ addr, static addr → ¬ (r.base ≤ addr ∧ addr < r.endAddr))
    (taken : Step s action s') (disciplined : Disciplined ⟨s, action, s'⟩) : Joined r static s' := by
  have simulates := joined.simulates small outside taken disciplined
  refine ⟨simulates.tracks, ?_⟩
  have answer := simulates.program
  cases isSeen : action.seen with
  | none =>
      rw [isSeen] at answer
      have same : s'.program = s.program := answer
      rw [same]
      exact joined.kept
  | some seen =>
      rw [isSeen] at answer
      obtain ⟨proper, reapsOwn⟩ := disciplined seen isSeen
      exact joined.kept.step answer proper reapsOwn

/-! ### Runs -/

variable {start size : Nat} {idle : Allocation} {own : Nat} {heap : Heap.Machine}

/-- After `heap_init` and `sched_init`. -/
theorem Joined.booted (small : r.Small)
    (outside : ∀ addr, static addr → ¬ (r.base ≤ addr ∧ addr < r.endAddr)) {m : Heap.Machine}
    (valid : ∃ lay, Heap.Valid r lay m) (nothing : m.live = [])
    (booting : allocateInit m = (idle, own, heap)) (enough : Enough idle own) :
    Reaches m heap ∧ ProgramStart static (booted idle own heap).program ∧
      Joined r static (Kernel.booted idle own heap) := by
  have empty : Tracks r Machine.zero.structs Machine.zero.blocks m := by
    refine ⟨valid, ?_, fun _ => nofun, fun _ _ => nofun⟩
    intro a
    rw [nothing]
    exact iff_of_false (by simp) (by simp [Machine.zero])
  obtain ⟨reaches, fresh, freshOwn, apart, tracks⟩ := empty.allocateInit small booting enough
  have init : InitAllocation Machine.zero idle own :=
    ⟨fresh.allocation, enough.task, enough.firstStack, enough.stack, fun _ => freshOwn.self.1,
      enough.own, apart⟩
  obtain ⟨made, makes, starts⟩ := Machine.schedInit_makes init
  have tracksBooted : Tracks r (Machine.schedInit idle own).structs
      (Machine.schedInit idle own).blocks heap := by
    rw [starts.structs, makes.structs, starts.blocks]
    exact tracks
  have programStart : ProgramStart static (Kernel.booted idle own heap).program :=
    ⟨⟨idle, own, init, rfl⟩, fun _ => rfl, fun _ => rfl,
      fun t isStruct isStatic => outside t isStatic (tracksBooted.inHeap small (Or.inl isStruct)),
      fun a isBlock isStatic => outside a isStatic (tracksBooted.inHeap small (Or.inr isBlock))⟩
  exact ⟨reaches, programStart, tracksBooted, Program.Kept.start programStart⟩

end UniKernel.Kernel
