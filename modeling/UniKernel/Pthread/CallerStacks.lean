import UniKernel.Pthread.Attributes
import UniKernel.Pthread.Balance
import UniKernel.Pthread.Runqueues

/-!
Owns the stacks that callers of `pthread_create` supply. The machine runs next
to the program's own memory here: static memory, and blocks that the program
gets from `malloc` and frees. `sched_yield` frees the stack of every task it
reaps, so the program keeps its memory in those runs in which no thread on a
stack of its caller's is reaped.
-/

namespace UniKernel.Pthread

open UniKernel.Lib

variable {m m' : Machine} {action : Action} {c : Core} {attr : Option Attr} {alloc : Allocation}

/-- The machine and the memory of the program: `owned` are the blocks the program
has got from `malloc` and not freed, with their sizes, and `supplied` the memory
that the caller supplied as the stack of a thread. -/
structure Program where
  machine : Machine
  owned : Nat → Option Nat
  supplied : Nat → Option (Nat × Nat)

inductive ProgramAction where
  | scheduler (action : Action)
  | malloc (block size : Nat)
  | free (block : Nat)
deriving DecidableEq, Repr

/-- What a step gets from `malloc`. -/
def Action.allocated : Action → List Nat
  | .create _ _ alloc => [alloc.task, alloc.firstStack, alloc.stack]
  | .initSecondary _ idle own => [idle.task, idle.firstStack, idle.stack, own]
  | _ => []

/-- The pointers other than NULL that a step passes to `free`. -/
def Machine.freed (m : Machine) : Action → List Nat
  | .create _ attr alloc => if alloc.task ≠ 0 ∧ ¬ Succeeds attr alloc then [alloc.task] else []
  | .yieldEnter c =>
      let deadTask := (m.sched.cores c).taskToFree
      if deadTask ≠ 0 then [(m.sched.tasks deadTask).stackPage, deadTask].filter (· ≠ 0) else []
  | _ => []

theorem Machine.mem_freed_yieldEnter {pointer : Nat} :
    pointer ∈ m.freed (.yieldEnter c) ↔ m.slot c ≠ 0 ∧ pointer ≠ 0 ∧
      (pointer = (m.sched.tasks (m.slot c)).stackPage ∨ pointer = m.slot c) := by
  show pointer ∈ (if m.slot c ≠ 0 then
    [(m.sched.tasks (m.slot c)).stackPage, m.slot c].filter (· ≠ 0) else []) ↔ _
  by_cases noTask : m.slot c = 0
  · rw [if_neg (not_not_intro noTask)]
    exact iff_of_false List.not_mem_nil fun freed => freed.1 noTask
  · rw [if_pos noTask, List.mem_filter, List.mem_pair, decide_eq_true_iff, and_comm]
    exact (and_iff_right noTask).symm

namespace Program

/-- An address in the memory of the program. -/
def Holds (static : Nat → Prop) (p : Program) (address : Nat) : Prop :=
  static address ∨
    ∃ block size, p.owned block = some size ∧ block ≤ address ∧ address < block + size

/-- The memory supplied as stacks after a step of the scheduler. -/
def suppliedAfter (p : Program) : Action → Nat → Option (Nat × Nat)
  | .create _ attr alloc =>
      match Machine.usedAttr attr with
      | some attr =>
          if alloc.task ≠ 0 ∧ attr.stackaddr ≠ 0 then
            Function.update p.supplied (p.machine.history.births + 1)
              (some (attr.stackaddr, attr.stacksize))
          else p.supplied
      | none => p.supplied
  | _ => p.supplied

end Program

/-- The steps of the scheduler, of a `malloc` of the program that succeeds, and
of a `free` of a block that the program owns. What `malloc` returns is no memory
in use: neither a live struct or block, nor memory of the program. -/
inductive ProgramStep (static : Nat → Prop) : Program → ProgramAction → Program → Prop where
  | scheduler {p : Program} {action : Action} {m' : Machine} (taken : Step p.machine action m')
      (apart : ∀ block ∈ action.allocated, block ≠ 0 → ¬ p.Holds static block) :
      ProgramStep static p (.scheduler action) ⟨m', p.owned, p.suppliedAfter action⟩
  | malloc {p : Program} {block size : Nat} (nonzero : block ≠ 0) (nonempty : 0 < size)
      (fresh : ∀ address, block ≤ address → address < block + size →
        p.machine.structs address = false ∧ p.machine.blocks address = none) :
      ProgramStep static p (.malloc block size)
        ⟨p.machine.allocBlock block size, Function.update p.owned block (some size), p.supplied⟩
  | free {p : Program} {block size : Nat} (owns : p.owned block = some size) :
      ProgramStep static p (.free block)
        ⟨p.machine.freeBlock block, Function.update p.owned block none, p.supplied⟩

/-- The program behind `sched_init`, without a block of its own. The heap is no
static memory. -/
structure ProgramStart (static : Nat → Prop) (p : Program) : Prop where
  initial : Initial p.machine
  owned : ∀ block, p.owned block = none
  supplied : ∀ thread, p.supplied thread = none
  structs : ∀ t, p.machine.structs t = true → ¬ static t
  blocks : ∀ block, p.machine.blocks block ≠ none → ¬ static block

/-! ### The slots for tasks to free -/

/-- Each task to free is live, and waits on one core. -/
def Slots (m : Machine) : Prop :=
  ∀ c, m.slot c ≠ 0 → m.structs (m.slot c) = true ∧ ∀ c', c' ≠ c → m.slot c' ≠ m.slot c

namespace Slots

/-- A struct that gets a new task waits on no core. -/
theorem makes {t page : Nat} {ok : Bool} {blocks : Nat → Option Nat} (slots : Slots m)
    (makes : MakesThread m m' t page ok blocks) (fresh : m.structs t = false) : Slots m' := by
  intro c
  simp only [makes.slot]
  intro someTask
  rcases slots c someTask with ⟨isLive, apart⟩
  refine ⟨?_, apart⟩
  rw [makes.structs, Function.update_of_ne]
  · exact isLive
  · intro isNew
    rw [isNew, fresh] at isLive
    cases isLive

/-- The task that `pthread_exit` puts in a slot is live and in no other slot. -/
theorem exits (sound : Sound m) (here : m.pc c = .user) (lockFree : m.sched.schedLock = false) :
    m.structs (m.current c) = true ∧ ∀ c', c' ≠ c → m.slot c' ≠ 0 → m.slot c' ≠ m.current c := by
  rcases sound.consistent lockFree with ⟨queue, consistent⟩
  have own := consistent.mode c
  rw [here] at own
  refine ⟨own.1, ?_⟩
  intro c' other someTask same
  have online : m.pc c ≠ .offline := by
    rw [here]
    simp
  rcases consistent.toFree c' with none | ⟨isCurrent, -⟩
  · exact someTask none
  · exact consistent.currentApart c c' (Ne.symm other) online (same.symm.trans isCurrent)

theorem keeps (slots : Slots m) (sound : Sound m) (keeps : KeepsMemory m m') : Slots m' := by
  intro c someTask
  rw [keeps.structs]
  rcases keeps.slot c with same | ⟨isCurrent, here, lockFree⟩
  · rw [same] at someTask ⊢
    rcases slots c someTask with ⟨isLive, apart⟩
    refine ⟨isLive, ?_⟩
    intro c' other
    rcases keeps.slot c' with same' | ⟨isCurrent', here', lockFree'⟩
    · rw [same']
      exact apart c' other
    · rw [isCurrent']
      exact ((exits sound here' lockFree').2 c (Ne.symm other) someTask).symm
  · rcases exits sound here lockFree with ⟨isLive, apart⟩
    rw [isCurrent]
    refine ⟨isLive, ?_⟩
    intro c' other
    rcases keeps.slot c' with same' | ⟨isCurrent', here', -⟩
    · rw [same']
      intro same
      apply apart c' other _ same
      rw [same]
      rw [← isCurrent]
      exact someTask
    · rw [isCurrent']
      rcases sound.consistent lockFree with ⟨queue, consistent⟩
      have online : m.pc c' ≠ .offline := by
        rw [here']
        simp
      exact consistent.currentApart c' c other online

theorem reaps (slots : Slots m) (reaps : Reaps m m' c) : Slots m' := by
  intro c₁ someTask
  rw [reaps.slot] at someTask
  have other : c₁ ≠ c := by
    intro same
    rw [if_pos same] at someTask
    exact someTask rfl
  rw [if_neg other] at someTask
  rcases slots c₁ someTask with ⟨isLive, apart⟩
  constructor
  · rw [reaps.slot, if_neg other, reaps.structs, Function.update_of_ne]
    · exact isLive
    · exact (apart c (Ne.symm other)).symm
  · intro c₂ another
    rw [reaps.slot, reaps.slot, if_neg other]
    split
    · exact Ne.symm someTask
    · exact apart c₂ another

theorem step (slots : Slots m) (sound : Sound m) (taken : Step m action m') : Slots m' := by
  rcases taken.memory with ⟨-, keeps⟩ | ⟨c, -, reaps⟩ | ⟨c, attr, alloc, -, someTask, fresh, makes⟩ |
    ⟨c, alloc, own, -, init, made, makes, starts⟩
  · exact slots.keeps sound keeps
  · exact slots.reaps reaps
  · exact slots.makes makes (fresh.task someTask)
  · apply (slots.makes makes (init.fresh.task init.idleTask)).makes starts
    rw [makes.structs, Function.update_of_ne init.apart]
    exact init.ownFresh init.own

end Slots

/-! ### The memory of the scheduler -/

variable {static : Nat → Prop} {p : Program}

namespace Program

/-- The memory supplied as the stack of the thread of a struct. -/
def suppliedFor (p : Program) (t : Nat) : Option (Nat × Nat) :=
  p.supplied (p.machine.history.thread t)

def stackPage (p : Program) (t : Nat) : Nat := (p.machine.sched.tasks t).stackPage

/-- A live task on a stack that `pthread_create` allocated. -/
structure OwnStack (p : Program) (t : Nat) : Prop where
  live : p.machine.structs t = true
  notSupplied : p.suppliedFor t = none
  nonzero : p.stackPage t ≠ 0

/-- What the scheduler frees for such tasks is its own, and what the program owns
is live. -/
structure Memory (static : Nat → Prop) (p : Program) : Prop where
  owned : ∀ block size, p.owned block = some size →
    block ≠ 0 ∧ 0 < size ∧ p.machine.blocks block = some size
  structs : ∀ t, p.machine.structs t = true → ¬ p.Holds static t
  ownStacks : ∀ t, p.OwnStack t →
    ¬ p.Holds static (p.stackPage t) ∧ p.machine.blocks (p.stackPage t) ≠ none
  apart : ∀ t u, p.OwnStack t → p.OwnStack u → t ≠ u → p.stackPage t ≠ p.stackPage u
  supplied : ∀ t address size, p.suppliedFor t = some (address, size) →
    p.stackPage t = address ∧ address ≠ 0 ∧ 0 < size
  bounded : ∀ t, p.machine.history.thread t ≤ p.machine.history.births
  unborn : ∀ thread, p.machine.history.births < thread → p.supplied thread = none

namespace Memory

theorem holds_of_owned (memory : Memory static p) {block size : Nat}
    (owns : p.owned block = some size) : p.Holds static block := by
  have nonempty := (memory.owned block size owns).2.1
  exact Or.inr ⟨block, size, owns, Nat.le_refl _, Nat.lt_add_of_pos_right nonempty⟩

/-- A step that takes and frees no memory. -/
theorem keeps (memory : Memory static p) (keeps : KeepsMemory p.machine m') :
    Memory static ⟨m', p.owned, p.supplied⟩ := by
  have sameFor : ∀ t, Program.suppliedFor ⟨m', p.owned, p.supplied⟩ t = p.suppliedFor t := by
    intro t
    exact congrArg (fun thread => p.supplied (thread t)) keeps.thread
  have samePage : ∀ t, Program.stackPage ⟨m', p.owned, p.supplied⟩ t = p.stackPage t :=
    keeps.stackPage
  have before : ∀ t, Program.OwnStack ⟨m', p.owned, p.supplied⟩ t → p.OwnStack t := by
    intro t own
    refine ⟨?_, (sameFor t).symm.trans own.notSupplied, ?_⟩
    · rw [← keeps.structs]
      exact own.live
    · rw [← samePage]
      exact own.nonzero
  constructor
  · intro block size owns
    rw [keeps.blocks]
    exact memory.owned block size owns
  · intro t isLive
    rw [keeps.structs] at isLive
    exact memory.structs t isLive
  · intro t own
    rw [samePage, keeps.blocks]
    exact memory.ownStacks t (before t own)
  · intro t u first second
    rw [samePage, samePage]
    exact memory.apart t u (before t first) (before u second)
  · intro t address size
    rw [sameFor, samePage]
    exact memory.supplied t address size
  · intro t
    rw [keeps.thread, keeps.births]
    exact memory.bounded t
  · intro thread
    rw [keeps.births]
    exact memory.unborn thread

/-- The stack of a new thread: the scheduler's own, or supplied with its number. -/
def NewStack (static : Nat → Prop) (p : Program) (m' : Machine) (page : Nat) (ok : Bool) :
    Option (Nat × Nat) → Prop
  | none => ok = true → page ≠ 0 →
      ¬ p.Holds static page ∧ p.machine.blocks page = none ∧ m'.blocks page ≠ none
  | some (address, size) => ok = true ∧ page = address ∧ address ≠ 0 ∧ 0 < size

/-- A new thread in the struct `t`. -/
theorem makes (memory : Memory static p) {t page : Nat} {ok : Bool}
    {blocks : Nat → Option Nat} (makes : MakesThread p.machine m' t page ok blocks)
    (notHeld : ¬ p.Holds static t)
    (stillLive : ∀ block size, p.machine.blocks block = some size → m'.blocks block = some size)
    {supplied : Nat → Option (Nat × Nat)}
    (earlier : ∀ thread, thread ≠ p.machine.history.births + 1 →
      supplied thread = p.supplied thread)
    (new : NewStack static p m' page ok (supplied (p.machine.history.births + 1))) :
    Memory static ⟨m', p.owned, supplied⟩ := by
  have newFor : Program.suppliedFor ⟨m', p.owned, supplied⟩ t =
      supplied (p.machine.history.births + 1) := by
    show supplied (m'.history.thread t) = _
    rw [makes.thread, Function.update_self]
  have sameFor : ∀ u, u ≠ t →
      Program.suppliedFor ⟨m', p.owned, supplied⟩ u = p.suppliedFor u := by
    intro u other
    show supplied (m'.history.thread u) = _
    rw [makes.thread, Function.update_of_ne other]
    exact earlier _ (Nat.ne_of_lt (Nat.lt_succ_of_le (memory.bounded u)))
  have samePage : ∀ u, u ≠ t → Program.stackPage ⟨m', p.owned, supplied⟩ u = p.stackPage u :=
    makes.stackPage
  have before : ∀ u, u ≠ t → Program.OwnStack ⟨m', p.owned, supplied⟩ u → p.OwnStack u := by
    intro u other own
    refine ⟨?_, (sameFor u other).symm.trans own.notSupplied, ?_⟩
    · have isLive := own.live
      rw [show Machine.structs m' u = p.machine.structs u by
        rw [makes.structs, Function.update_of_ne other]] at isLive
      exact isLive
    · rw [← samePage u other]
      exact own.nonzero
  have newStack : Program.OwnStack ⟨m', p.owned, supplied⟩ t →
      Program.stackPage ⟨m', p.owned, supplied⟩ t = page ∧ ¬ p.Holds static page ∧
        p.machine.blocks page = none ∧ m'.blocks page ≠ none := by
    intro own
    have isLive : ok = true := by
      have isLive : m'.structs t = true := own.live
      rw [makes.structs, Function.update_self] at isLive
      exact isLive
    have isPage : Program.stackPage ⟨m', p.owned, supplied⟩ t = page := makes.newPage isLive
    have notSupplied := own.notSupplied
    rw [newFor] at notSupplied
    rw [notSupplied] at new
    exact ⟨isPage, new isLive (isPage ▸ own.nonzero)⟩
  have still : ∀ block, p.machine.blocks block ≠ none → m'.blocks block ≠ none := by
    intro block isLive
    rcases Option.ne_none_iff_exists'.mp isLive with ⟨size, isSome⟩
    rw [stillLive block size isSome]
    simp
  constructor
  · intro block size owns
    rcases memory.owned block size owns with ⟨nonzero, nonempty, isLive⟩
    exact ⟨nonzero, nonempty, stillLive block size isLive⟩
  · intro u isLive
    by_cases isNew : u = t
    · rw [isNew]
      exact notHeld
    · apply memory.structs u
      rw [← isLive, show m'.structs u = p.machine.structs u by
        rw [makes.structs, Function.update_of_ne isNew]]
  · intro u own
    by_cases isNew : u = t
    · subst isNew
      rcases newStack own with ⟨isPage, notHeldPage, -, isTaken⟩
      rw [isPage]
      exact ⟨notHeldPage, isTaken⟩
    · rw [samePage u isNew]
      rcases memory.ownStacks u (before u isNew own) with ⟨notHeldPage, isLive⟩
      exact ⟨notHeldPage, still _ isLive⟩
  · intro u w first second other
    by_cases isNew : u = t
    · subst isNew
      rcases newStack first with ⟨isPage, -, wasFree, -⟩
      rw [isPage, samePage w (Ne.symm other)]
      rintro rfl
      exact (memory.ownStacks w (before w (Ne.symm other) second)).2 wasFree
    · by_cases isNew' : w = t
      · subst isNew'
        rcases newStack second with ⟨isPage, -, wasFree, -⟩
        rw [isPage, samePage u isNew]
        intro same
        rw [← same] at wasFree
        exact (memory.ownStacks u (before u isNew first)).2 wasFree
      · rw [samePage u isNew, samePage w isNew']
        exact memory.apart u w (before u isNew first) (before w isNew' second) other
  · intro u address size isSupplied
    by_cases isNew : u = t
    · subst isNew
      rw [newFor] at isSupplied
      rw [isSupplied] at new
      rcases new with ⟨isOk, isAddress, nonzero, nonempty⟩
      refine ⟨?_, nonzero, nonempty⟩
      rw [← isAddress]
      exact makes.newPage isOk
    · rw [sameFor u isNew] at isSupplied
      rw [samePage u isNew]
      exact memory.supplied u address size isSupplied
  · intro u
    show m'.history.thread u ≤ m'.history.births
    rw [makes.thread, makes.births, Function.update_apply]
    split
    · exact Nat.le_refl _
    · exact Nat.le_succ_of_le (memory.bounded u)
  · intro thread later
    have later : p.machine.history.births + 1 < thread := by
      rw [← makes.births]
      exact later
    show supplied thread = none
    rw [earlier thread (Nat.ne_of_gt later)]
    exact memory.unborn thread (Nat.lt_of_succ_lt later)

/-- The reaping of a thread that was not made on supplied memory. -/
theorem reaps (memory : Memory static p) (slots : Slots p.machine)
    (reaps : Reaps p.machine m' c) (notSupplied : p.suppliedFor (p.machine.slot c) = none) :
    Memory static ⟨m', p.owned, p.supplied⟩ := by
  have isLive := (slots c reaps.someTask).1
  have sameFor : ∀ t, Program.suppliedFor ⟨m', p.owned, p.supplied⟩ t = p.suppliedFor t := by
    intro t
    exact congrArg (fun thread => p.supplied (thread t)) reaps.thread
  have samePage : ∀ t, Program.stackPage ⟨m', p.owned, p.supplied⟩ t = p.stackPage t :=
    reaps.stackPage
  have stillLive : ∀ t, m'.structs t = true → p.machine.structs t = true ∧ t ≠ p.machine.slot c := by
    intro t live
    rw [reaps.structs, Function.update_apply] at live
    split at live
    · cases live
    · next other => exact ⟨live, other⟩
  have before : ∀ t, Program.OwnStack ⟨m', p.owned, p.supplied⟩ t →
      p.OwnStack t ∧ t ≠ p.machine.slot c := by
    intro t own
    rcases stillLive t own.live with ⟨live, other⟩
    refine ⟨⟨live, (sameFor t).symm.trans own.notSupplied, ?_⟩, other⟩
    rw [← samePage]
    exact own.nonzero
  -- the freed stack is NULL or the scheduler's own
  have freedOwn : p.stackPage (p.machine.slot c) ≠ 0 → p.OwnStack (p.machine.slot c) := fun nonzero =>
    ⟨isLive, notSupplied, nonzero⟩
  have keptBlock : ∀ block, block ≠ p.stackPage (p.machine.slot c) →
      m'.blocks block = p.machine.blocks block := by
    intro block other
    rw [reaps.blocks]
    exact Function.update_of_ne other ..
  constructor
  · intro block size owns
    rcases memory.owned block size owns with ⟨nonzero, nonempty, live⟩
    refine ⟨nonzero, nonempty, ?_⟩
    rw [← live]
    apply keptBlock
    intro isFreed
    have own := freedOwn (isFreed ▸ nonzero)
    apply (memory.ownStacks _ own).1
    rw [← isFreed]
    exact memory.holds_of_owned owns
  · intro t live
    exact memory.structs t (stillLive t live).1
  · intro t own
    rcases before t own with ⟨ownBefore, other⟩
    rcases memory.ownStacks t ownBefore with ⟨notHeld, live⟩
    rw [samePage]
    refine ⟨notHeld, ?_⟩
    rw [keptBlock]
    · exact live
    · intro isFreed
      exact memory.apart t _ ownBefore (freedOwn (isFreed ▸ ownBefore.nonzero)) other isFreed
  · intro t u first second
    rw [samePage, samePage]
    exact memory.apart t u (before t first).1 (before u second).1
  · intro t address size
    rw [sameFor, samePage]
    exact memory.supplied t address size
  · intro t
    rw [reaps.thread, reaps.births]
    exact memory.bounded t
  · intro thread
    rw [reaps.births]
    exact memory.unborn thread

/-- The program gets a block. -/
theorem malloc (memory : Memory static p) {block size : Nat} (nonzero : block ≠ 0)
    (nonempty : 0 < size)
    (fresh : ∀ address, block ≤ address → address < block + size →
      p.machine.structs address = false ∧ p.machine.blocks address = none) :
    Memory static
      ⟨p.machine.allocBlock block size, Function.update p.owned block (some size), p.supplied⟩ := by
  have isFree := (fresh block (Nat.le_refl _) (Nat.lt_add_of_pos_right nonempty)).2
  have notNew : ∀ address, p.machine.structs address = true ∨ p.machine.blocks address ≠ none →
      ¬ p.Holds static address → ¬ Program.Holds static
        ⟨p.machine.allocBlock block size, Function.update p.owned block (some size), p.supplied⟩
        address := by
    rintro address isLive notHeld (isStatic | ⟨owned, ownedSize, owns, above, below⟩)
    · exact notHeld (Or.inl isStatic)
    · by_cases isNew : owned = block
      · subst isNew
        have sameSize : ownedSize = size := by
          have owns : Function.update p.owned owned (some size) owned = some ownedSize := owns
          rw [Function.update_self] at owns
          exact (Option.some.inj owns).symm
        rcases fresh address above (sameSize ▸ below) with ⟨noStruct, noBlock⟩
        rcases isLive with live | live
        · rw [noStruct] at live
          cases live
        · exact live noBlock
      · have owns : Function.update p.owned block (some size) owned = some ownedSize := owns
        rw [Function.update_of_ne isNew] at owns
        exact notHeld (Or.inr ⟨owned, ownedSize, owns, above, below⟩)
  have before : ∀ t, Program.OwnStack
      ⟨p.machine.allocBlock block size, Function.update p.owned block (some size), p.supplied⟩ t →
      p.OwnStack t := fun t own => ⟨own.live, own.notSupplied, own.nonzero⟩
  constructor
  · intro owned ownedSize owns
    show owned ≠ 0 ∧ 0 < ownedSize ∧ Function.update p.machine.blocks block (some size) owned = _
    by_cases isNew : owned = block
    · have owns : Function.update p.owned block (some size) owned = some ownedSize := owns
      rw [isNew, Function.update_self] at owns ⊢
      rw [← Option.some.inj owns]
      exact ⟨nonzero, nonempty, rfl⟩
    · have owns : Function.update p.owned block (some size) owned = some ownedSize := owns
      rw [Function.update_of_ne isNew] at owns ⊢
      exact memory.owned owned ownedSize owns
  · exact fun t isLive => notNew t (Or.inl isLive) (memory.structs t isLive)
  · intro t own
    rcases memory.ownStacks t (before t own) with ⟨notHeld, isLive⟩
    refine ⟨notNew _ (Or.inr isLive) notHeld, ?_⟩
    have other : p.stackPage t ≠ block := by
      intro same
      rw [same] at isLive
      exact isLive isFree
    show Function.update p.machine.blocks block (some size) (p.stackPage t) ≠ none
    rw [Function.update_of_ne other]
    exact isLive
  · exact fun t u first second => memory.apart t u (before t first) (before u second)
  · exact memory.supplied
  · exact memory.bounded
  · exact memory.unborn

/-- The program frees a block of its own. -/
theorem free (memory : Memory static p) {block size : Nat} (owns : p.owned block = some size) :
    Memory static
      ⟨p.machine.freeBlock block, Function.update p.owned block none, p.supplied⟩ := by
  have ownedBefore : ∀ owned ownedSize,
      Function.update p.owned block none owned = some ownedSize →
      owned ≠ block ∧ p.owned owned = some ownedSize := by
    intro owned ownedSize isOwned
    rw [Function.update_apply] at isOwned
    split at isOwned
    · cases isOwned
    · next other => exact ⟨other, isOwned⟩
  have notHeld : ∀ address, ¬ p.Holds static address → ¬ Program.Holds static
      ⟨p.machine.freeBlock block, Function.update p.owned block none, p.supplied⟩ address := by
    rintro address notHeld (isStatic | ⟨owned, ownedSize, isOwned, inside⟩)
    · exact notHeld (Or.inl isStatic)
    · exact notHeld (Or.inr ⟨owned, ownedSize, (ownedBefore owned ownedSize isOwned).2, inside⟩)
  have before : ∀ t, Program.OwnStack
      ⟨p.machine.freeBlock block, Function.update p.owned block none, p.supplied⟩ t →
      p.OwnStack t := fun t own => ⟨own.live, own.notSupplied, own.nonzero⟩
  constructor
  · intro owned ownedSize isOwned
    rcases ownedBefore owned ownedSize isOwned with ⟨other, ownedStill⟩
    show owned ≠ 0 ∧ 0 < ownedSize ∧ Function.update p.machine.blocks block none owned = _
    rw [Function.update_of_ne other]
    exact memory.owned owned ownedSize ownedStill
  · exact fun t isLive => notHeld t (memory.structs t isLive)
  · intro t own
    rcases memory.ownStacks t (before t own) with ⟨notHeldPage, isLive⟩
    refine ⟨notHeld _ notHeldPage, ?_⟩
    have other : p.stackPage t ≠ block := by
      intro same
      rw [same] at notHeldPage
      exact notHeldPage (memory.holds_of_owned owns)
    show Function.update p.machine.blocks block none (p.stackPage t) ≠ none
    rw [Function.update_of_ne other]
    exact isLive
  · exact fun t u first second => memory.apart t u (before t first) (before u second)
  · exact memory.supplied
  · exact memory.bounded
  · exact memory.unborn

end Memory

/-! ### The steps -/

theorem suppliedAfter_of_no_thread (noThread : action.makesThread = false) :
    p.suppliedAfter action = p.supplied := by
  cases action with
  | create c attr alloc =>
      have noTask : alloc.task = 0 := not_not.mp (of_decide_eq_false noThread)
      unfold suppliedAfter
      dsimp only
      split
      · exact if_neg fun both => both.1 noTask
      · rfl
  | initSecondary | createEnqueue | join | joinTest | joinReturn | exit | exitWake | callYield
  | yieldEnter | yieldSwitch | unlock | forkUnlock => rfl

theorem suppliedAfter_create_supplied {used : Attr} (someTask : alloc.task ≠ 0)
    (isUsed : used ∈ Machine.usedAttr attr) (nonzero : used.stackaddr ≠ 0) :
    p.suppliedAfter (.create c attr alloc) =
      Function.update p.supplied (p.machine.history.births + 1)
        (some (used.stackaddr, used.stacksize)) := by
  unfold suppliedAfter
  dsimp only
  rw [isUsed]
  exact if_pos ⟨someTask, nonzero⟩

theorem suppliedAfter_create_allocated (notSupplied : ¬ SuppliesStack attr) :
    p.suppliedAfter (.create c attr alloc) = p.supplied := by
  unfold suppliedAfter
  dsimp only
  split
  · next used isUsed => exact if_neg fun both => notSupplied ⟨used, isUsed, both.2⟩
  · rfl

namespace Memory

/-- The new thread of a `pthread_create`. -/
theorem create (memory : Memory static p) (someTask : alloc.task ≠ 0)
    (fresh : FreshAllocation p.machine alloc) (accepted : AcceptedArgument attr)
    (makes : MakesThread p.machine m' alloc.task (newStack attr alloc)
      (decide (Succeeds attr alloc)) (takenBlocks attr alloc p.machine.blocks))
    (apart : ∀ block ∈ [alloc.task, alloc.firstStack, alloc.stack], block ≠ 0 →
      ¬ p.Holds static block) :
    Memory static ⟨m', p.owned, p.suppliedAfter (.create c attr alloc)⟩ := by
  have notHeld : ¬ p.Holds static alloc.task := apart _ List.mem_cons_self someTask
  have stillLive : ∀ block size, p.machine.blocks block = some size →
      m'.blocks block = some size := by
    intro block size isLive
    rw [makes.blocks]
    exact takenBlocks_of_live fresh isLive
  by_cases supplied : SuppliesStack attr
  · have succeeds : Succeeds attr alloc := ⟨someTask, Or.inl supplied⟩
    rcases supplied with ⟨used, isUsed, nonzero⟩
    rw [suppliedAfter_create_supplied someTask isUsed nonzero]
    apply memory.makes makes notHeld stillLive
    · exact fun thread other => Function.update_of_ne other ..
    · rw [Function.update_self]
      exact ⟨decide_eq_true succeeds, newStack_supplied isUsed nonzero, nonzero,
        accepted.stacksize_pos isUsed⟩
  · rw [suppliedAfter_create_allocated supplied]
    apply memory.makes makes notHeld stillLive (fun _ _ => rfl)
    rw [memory.unborn _ (Nat.lt_succ_self _), newStack_allocated supplied]
    intro isOk nonzero
    refine ⟨apart _ (by simp) nonzero, (fresh.stack nonzero).1, ?_⟩
    rw [makes.blocks]
    exact takenBlocks_stack supplied (of_decide_eq_true isOk) _

/-- The two tasks of an initialisation. -/
theorem init {made : Machine} {own : Nat} (memory : Memory static p)
    (init : InitAllocation p.machine alloc own)
    (makes : MakesThread p.machine made alloc.task alloc.stack true
      (takenBlocks none alloc p.machine.blocks))
    (starts : MakesThread made m' own 0 true (takenBlocks none alloc p.machine.blocks))
    (apart : ∀ block ∈ [alloc.task, alloc.firstStack, alloc.stack, own], block ≠ 0 →
      ¬ p.Holds static block) :
    Memory static ⟨m', p.owned, p.supplied⟩ := by
  have notSupplied : ¬ SuppliesStack none := by
    rintro ⟨used, isUsed, -⟩
    cases isUsed
  have succeeds : Succeeds none alloc :=
    ⟨init.idleTask, Or.inr ⟨init.idleFirstStack, init.idleStack⟩⟩
  have withIdle : Memory static ⟨made, p.owned, p.supplied⟩ := by
    apply memory.makes makes (apart _ List.mem_cons_self init.idleTask) _ (fun _ _ => rfl)
    · rw [memory.unborn _ (Nat.lt_succ_self _)]
      intro _ nonzero
      refine ⟨apart _ (by simp) nonzero, (init.fresh.stack nonzero).1, ?_⟩
      rw [makes.blocks]
      exact takenBlocks_stack notSupplied succeeds _
    · intro block size isLive
      rw [makes.blocks]
      exact takenBlocks_of_live init.fresh isLive
  apply withIdle.makes starts (apart own (by simp) init.own) _ (fun _ _ => rfl)
  · rw [withIdle.unborn _ (Nat.lt_succ_self _)]
    exact fun _ nonzero => absurd rfl nonzero
  · intro block size isLive
    rw [starts.blocks, ← makes.blocks]
    exact isLive

/-- A step of the scheduler that reaps no thread on supplied memory. -/
theorem scheduler (memory : Memory static p) (slots : Slots p.machine)
    (taken : Step p.machine action m')
    (apart : ∀ block ∈ action.allocated, block ≠ 0 → ¬ p.Holds static block)
    (accepted : ∀ c attr alloc, action = .create c attr alloc → AcceptedArgument attr)
    (reapsOwn : ∀ c, action = .yieldEnter c → p.machine.slot c ≠ 0 →
      p.suppliedFor (p.machine.slot c) = none) :
    Memory static ⟨m', p.owned, p.suppliedAfter action⟩ := by
  rcases taken.memory with ⟨noThread, keeps⟩ | ⟨c, rfl, reaps⟩ |
    ⟨c, attr, alloc, rfl, someTask, fresh, makes⟩ | ⟨c, alloc, own, rfl, init, made, makes, starts⟩
  · rw [suppliedAfter_of_no_thread noThread]
    exact memory.keeps keeps
  · exact memory.reaps slots reaps (reapsOwn c rfl reaps.someTask)
  · exact memory.create someTask fresh (accepted c attr alloc rfl) makes apart
  · exact memory.init init makes starts apart

/-- `sched_init` makes its tasks on stacks of its own. -/
theorem start (start : ProgramStart static p) : Memory static p := by
  rcases start.initial with ⟨alloc, own, init, isMachine⟩
  rcases Machine.schedInit_makes init with ⟨made, makes, starts⟩
  rw [← isMachine] at starts
  have zero : Memory static ⟨Machine.zero, p.owned, p.supplied⟩ := by
    constructor
    · intro block size owns
      have none : p.owned block = none := start.owned block
      rw [show p.owned block = some size from owns] at none
      cases none
    · intro t isLive
      cases isLive
    · intro t own
      cases own.live
    · intro t u own
      cases own.live
    · intro t address size isSupplied
      have none : p.supplied (Machine.zero.history.thread t) = none := start.supplied _
      rw [show p.supplied _ = some (address, size) from isSupplied] at none
      cases none
    · exact fun t => Nat.le_refl _
    · exact fun thread _ => start.supplied thread
  have notHeld : ∀ address, ¬ static address →
      ¬ Program.Holds static ⟨Machine.zero, p.owned, p.supplied⟩ address := by
    rintro address notStatic (isStatic | ⟨block, size, owns, -⟩)
    · exact notStatic isStatic
    · have none : p.owned block = none := start.owned block
      rw [show p.owned block = some size from owns] at none
      cases none
  have notSupplied : ¬ SuppliesStack none := by
    rintro ⟨used, isUsed, -⟩
    cases isUsed
  apply zero.init init makes starts
  intro block member _
  apply notHeld
  simp only [List.mem_cons, List.not_mem_nil, or_false] at member
  rcases member with rfl | rfl | rfl | rfl
  · apply start.structs
    rw [starts.structs, Function.update_of_ne init.apart.symm, makes.structs, Function.update_self]
  · apply start.blocks
    rw [starts.blocks, takenBlocks,
      if_neg fun either => either.elim notSupplied init.idleFirstStack, if_neg init.idleStack,
      Function.update_of_ne (init.fresh.stack init.idleStack).2.symm, Function.update_self]
    simp
  · apply start.blocks
    rw [starts.blocks]
    exact takenBlocks_stack notSupplied
      ⟨init.idleTask, Or.inr ⟨init.idleFirstStack, init.idleStack⟩⟩ _
  · apply start.structs
    rw [starts.structs, Function.update_self]

end Memory

end Program

/-! ### Over a run -/

/-- The invariant of a run in which no thread on supplied memory is reaped. -/
structure Program.Kept (static : Nat → Prop) (p : Program) : Prop where
  valid : Valid p.machine
  slots : Slots p.machine
  memory : p.Memory static

/-- A step of the scheduler gets no struct from `malloc` that is in use, and its
attribute is NULL, not initialised, or accepted. -/
structure ProperStep (transition : Transition Program ProgramAction) : Prop where
  unused : ∀ action, transition.label = .scheduler action →
    AllocatesUnused ⟨transition.source.machine, action, transition.target.machine⟩
  accepted : ∀ c attr alloc, transition.label = .scheduler (.create c attr alloc) →
    AcceptedArgument attr

/-- The scheduler frees no memory of the program and none that was supplied for
the thread it reaps; each block the program owns is live in the allocator, and
a `free` of the program releases a live block. -/
structure KeepsCallerMemory (static : Nat → Prop) (transition : Transition Program ProgramAction) :
    Prop where
  frees : ∀ action, transition.label = .scheduler action →
    ∀ pointer ∈ transition.source.machine.freed action, ¬ transition.source.Holds static pointer
  supplied : ∀ c, transition.label = .scheduler (.yieldEnter c) → ∀ address size,
    transition.source.suppliedFor (transition.source.machine.slot c) = some (address, size) →
    ∀ pointer ∈ transition.source.machine.freed (.yieldEnter c),
      ¬ (address ≤ pointer ∧ pointer < address + size)
  owned : ∀ block size, transition.target.owned block = some size →
    transition.target.machine.blocks block = some size
  release : ∀ block, transition.label = .free block →
    transition.source.machine.blocks block ≠ none ∧ transition.target.machine.blocks block = none

/-- No `sched_yield` finds a thread on supplied memory in its slot. -/
def ReapsNoSupplied (transition : Transition Program ProgramAction) : Prop :=
  ∀ c, transition.label = .scheduler (.yieldEnter c) → transition.source.machine.slot c ≠ 0 →
    transition.source.suppliedFor (transition.source.machine.slot c) = none

theorem Valid.setBlocks (valid : Valid m) (blocks : Nat → Option Nat) :
    Valid { m with blocks := blocks } where
  sound := by
    rcases valid.sound with ⟨queue, consistent⟩ | ⟨c, waiting, waking⟩
    · exact Or.inl ⟨queue, consistent⟩
    · exact Or.inr ⟨c, waiting, waking.here, waking.someWaiter, waking.isLocked, waking.othersFree⟩
  threads := {
    null := valid.threads.null
    bounded := valid.threads.bounded
    injective := valid.threads.injective
    live := valid.threads.live
    current := valid.threads.current
    offline := valid.threads.offline
    pending := valid.threads.pending
    created := valid.threads.created
    issued := valid.threads.issued
    waiting := valid.threads.waiting
    suspended := valid.threads.suspended
    startedBound := valid.threads.startedBound }

namespace Program.Kept

variable {action : ProgramAction} {p' : Program}

theorem start (start : ProgramStart static p) : p.Kept static where
  valid := Valid.initial start.initial
  slots := by
    rcases start.initial with ⟨alloc, own, init, isMachine⟩
    rcases Machine.schedInit_makes init with ⟨made, makes, starts⟩
    rw [← isMachine] at starts
    intro c someTask
    rw [starts.slot, makes.slot] at someTask
    exact absurd rfl someTask
  memory := Memory.start start

theorem step (kept : p.Kept static) (taken : ProgramStep static p action p')
    (proper : ProperStep ⟨p, action, p'⟩) (reapsOwn : ReapsNoSupplied ⟨p, action, p'⟩) :
    p'.Kept static := by
  cases taken with
  | @scheduler action m' taken apart =>
      exact {
        valid := kept.valid.step taken (proper.unused action rfl)
        slots := kept.slots.step kept.valid.sound taken
        memory := by
          apply kept.memory.scheduler kept.slots taken apart
          · intro c attr alloc isCreate
            exact proper.accepted c attr alloc (congrArg ProgramAction.scheduler isCreate)
          · intro c isYield
            exact reapsOwn c (congrArg ProgramAction.scheduler isYield) }
  | malloc nonzero nonempty fresh =>
      exact ⟨kept.valid.setBlocks _, kept.slots, kept.memory.malloc nonzero nonempty fresh⟩
  | free owns => exact ⟨kept.valid.setBlocks _, kept.slots, kept.memory.free owns⟩

/-- The pointers that the scheduler frees when it reaps no thread on supplied
memory. -/
theorem freed_notHeld {action : Action} (kept : p.Kept static)
    (apart : ∀ block ∈ action.allocated, block ≠ 0 → ¬ p.Holds static block)
    (reapsOwn : ∀ c, action = .yieldEnter c → p.machine.slot c ≠ 0 →
      p.suppliedFor (p.machine.slot c) = none) :
    ∀ pointer ∈ p.machine.freed action, ¬ p.Holds static pointer := by
  intro pointer isFreed
  cases action with
  | create c attr alloc =>
      unfold Machine.freed at isFreed
      dsimp only at isFreed
      split at isFreed
      · next fails =>
          rw [List.mem_singleton.mp isFreed]
          exact apart _ List.mem_cons_self fails.1
      · cases isFreed
  | yieldEnter c =>
      rcases Machine.mem_freed_yieldEnter.mp isFreed with ⟨someTask, nonzero, isStack | isTask⟩
      · have isLive := (kept.slots c someTask).1
        have own : p.OwnStack (p.machine.slot c) :=
          ⟨isLive, reapsOwn c rfl someTask, fun isNull => nonzero (isStack.trans isNull)⟩
        rw [isStack]
        exact (kept.memory.ownStacks _ own).1
      · rw [isTask]
        exact kept.memory.structs _ (kept.slots c someTask).1
  | initSecondary | createEnqueue | join | joinTest | joinReturn | exit | exitWake | callYield
  | yieldSwitch | unlock | forkUnlock => cases isFreed

/-- A step keeps the memory of the callers exactly when it reaps no thread on
supplied memory. -/
theorem keepsCallerMemory_iff (kept : p.Kept static) (taken : ProgramStep static p action p')
    (proper : ProperStep ⟨p, action, p'⟩) :
    KeepsCallerMemory static ⟨p, action, p'⟩ ↔ ReapsNoSupplied ⟨p, action, p'⟩ := by
  constructor
  · intro keeps c isYield someTask
    by_contra isSupplied
    rcases Option.ne_none_iff_exists'.mp isSupplied with ⟨⟨address, size⟩, isMemory⟩
    rcases kept.memory.supplied _ address size isMemory with ⟨isPage, nonzero, nonempty⟩
    apply keeps.supplied c isYield address size isMemory address
    · exact Machine.mem_freed_yieldEnter.mpr ⟨someTask, nonzero, Or.inl isPage.symm⟩
    · exact ⟨Nat.le_refl _, Nat.lt_add_of_pos_right nonempty⟩
  · intro reapsOwn
    have after := kept.step taken proper reapsOwn
    exact {
      frees := by
        intro action isAction
        dsimp only at isAction
        subst isAction
        cases taken with
        | scheduler taken apart =>
            apply kept.freed_notHeld apart
            intro c isYield
            exact reapsOwn c (congrArg ProgramAction.scheduler isYield)
      supplied := by
        intro c isYield address size isSupplied pointer isFreed
        have someTask := (Machine.mem_freed_yieldEnter.mp isFreed).1
        rw [reapsOwn c isYield someTask] at isSupplied
        cases isSupplied
      owned := fun block size owns => (after.memory.owned block size owns).2.2
      release := by
        intro block isFree
        dsimp only at isFree
        subst isFree
        cases taken with
        | free owns =>
            rw [(kept.memory.owned _ _ owns).2.2]
            exact ⟨by simp, Function.update_self ..⟩ }

end Program.Kept

/-- In every run the callers keep their memory exactly when no thread on a stack
of its caller's is reaped. -/
theorem caller_memory_kept_iff {first last : Program}
    {path : List (Transition Program ProgramAction)} (start : ProgramStart static first)
    (run : Execution (ProgramStep static) first path last)
    (proper : ∀ transition ∈ path, ProperStep transition) :
    (∀ transition ∈ path, KeepsCallerMemory static transition) ↔
      ∀ transition ∈ path, ReapsNoSupplied transition := by
  apply run.forall_good_iff_of_allowed ProperStep (Program.Kept.start start) _ _ proper
  · exact fun source label target kept taken isProper => kept.keepsCallerMemory_iff taken isProper
  · exact fun source label target kept taken isProper => kept.step taken isProper

/-! ### Concrete runs -/

/-- What a step of the scheduler in a run of the program is in the machine. -/
def Lifts (owned : Nat → Option Nat) (transition : Transition Machine Action)
    (lifted : Transition Program ProgramAction) : Prop :=
  lifted.source.machine = transition.source ∧ lifted.label = .scheduler transition.label ∧
    lifted.target.machine = transition.target ∧ lifted.source.owned = owned

/-- A run of the scheduler next to a program that keeps its blocks. -/
theorem Program.lift {owned : Nat → Option Nat} {first last : Machine}
    {path : List (Transition Machine Action)} (run : Execution Step first path last)
    (supplied : Nat → Option (Nat × Nat))
    (apart : ∀ transition ∈ path, ∀ block ∈ transition.label.allocated, block ≠ 0 →
      ∀ m supplied, ¬ Program.Holds static ⟨m, owned, supplied⟩ block) :
    ∃ lifted suppliedLast,
      Execution (ProgramStep static) ⟨first, owned, supplied⟩ lifted ⟨last, owned, suppliedLast⟩ ∧
      (∀ transition ∈ path, ∃ image ∈ lifted, Lifts owned transition image) ∧
      ∀ image ∈ lifted, ∃ transition ∈ path, Lifts owned transition image := by
  induction run with
  | nil => exact ⟨[], supplied, .nil, by simp, by simp⟩
  | @snoc path middle last action before taken inductionHypothesis =>
      rw [List.forall_mem_append, List.forall_mem_singleton] at apart
      rcases inductionHypothesis apart.1 with ⟨lifted, suppliedMiddle, liftedRun, forward, backward⟩
      have step : ProgramStep static ⟨middle, owned, suppliedMiddle⟩ (.scheduler action)
          ⟨last, owned, Program.suppliedAfter ⟨middle, owned, suppliedMiddle⟩ action⟩ :=
        ProgramStep.scheduler taken fun block member nonzero => apart.2 block member nonzero _ _
      refine ⟨_, _, liftedRun.snoc step, ?_, ?_⟩
      · rw [List.forall_mem_append, List.forall_mem_singleton]
        constructor
        · intro transition member
          rcases forward transition member with ⟨image, isImage, lifts⟩
          exact ⟨image, List.mem_append_left _ isImage, lifts⟩
        · exact ⟨_, List.mem_append_right _ (List.mem_singleton_self _), rfl, rfl, rfl, rfl⟩
      · rw [List.forall_mem_append, List.forall_mem_singleton]
        constructor
        · intro image isImage
          rcases backward image isImage with ⟨transition, member, lifts⟩
          exact ⟨transition, List.mem_append_left _ member, lifts⟩
        · exact ⟨_, List.mem_append_right _ (List.mem_singleton_self _), rfl, rfl, rfl, rfl⟩

/-- A machine after `sched_init`, next to a program without blocks. -/
def Program.booted : Program := ⟨Machine.booted, fun _ => none, fun _ => none⟩

/-- The one block of the program, from `malloc(8192)`. -/
def ownBlock : Nat → Option Nat := Function.update (fun _ => none) 100 (some 8192)

/-- A thread that is made on that block, at its start. -/
def onOwnBlock : Option Attr := some ⟨4096, 100, 2, true⟩

theorem Program.booted_start : ProgramStart (fun _ => False) Program.booted where
  initial := Machine.booted_initial
  owned := fun _ => rfl
  supplied := fun _ => rfl
  structs := fun _ _ => id
  blocks := fun _ _ => id

theorem onOwnBlock_accepted : AcceptedArgument onOwnBlock := by
  intro used isUsed
  have isAttr : (⟨4096, 100, 2, true⟩ : Attr) = used := Option.some.inj isUsed
  refine ⟨⟨0, 4096, 100, 0, 2, true⟩, ⟨rfl, ⟨0, 0, 0, 0, 0, false⟩, [.setstack 100 4096], ?_⟩,
    isAttr.symm⟩
  decide

/-- The step gets memory below the program's block, and puts threads on it. -/
def OnOwnBlock (transition : Transition Machine Action) : Prop :=
  (∀ block ∈ transition.label.allocated, block < 100) ∧
    ∀ creation ∈ transition.label.creation, creation.attr = onOwnBlock

instance (transition : Transition Machine Action) : Decidable (OnOwnBlock transition) :=
  inferInstanceAs (Decidable ((∀ block ∈ transition.label.allocated, block < 100) ∧
    ∀ creation ∈ transition.label.creation, creation.attr = onOwnBlock))

/-- The program gets its block, and then the scheduler runs a schedule. -/
theorem Program.exists_run (schedule : List Action)
    (holds : List (Transition Machine Action) → Machine → Bool)
    (performed : ((Machine.booted.allocBlock 100 8192).performAll schedule).any
      (fun run => decide (∀ transition ∈ run.1, FreshStructs transition ∧ OnOwnBlock transition) &&
        holds run.1 run.2) = true) :
    ∃ machinePath machineLast path last,
      Execution (ProgramStep fun _ => False) Program.booted path last ∧
      (∀ transition ∈ path, ProperStep transition) ∧ holds machinePath machineLast = true ∧
      last.machine = machineLast ∧ last.owned = ownBlock ∧
      ∀ transition ∈ machinePath, ∃ image ∈ path, Lifts ownBlock transition image := by
  rcases Machine.exists_run (Machine.booted.allocBlock 100 8192) schedule
    (fun path last =>
      decide (∀ transition ∈ path, FreshStructs transition ∧ OnOwnBlock transition) &&
        holds path last) performed with ⟨machinePath, machineLast, machineRun, both⟩
  rcases Bool.and_eq_true_iff.mp both with ⟨isProper, isHolding⟩
  have proper := of_decide_eq_true isProper
  have valid : Valid (Machine.booted.allocBlock 100 8192) :=
    (Valid.initial Machine.booted_initial).setBlocks _
  have unused := (valid.run_of_fresh machineRun fun transition member =>
    (proper transition member).1).2
  have apart : ∀ transition ∈ machinePath, ∀ block ∈ transition.label.allocated, block ≠ 0 →
      ∀ m supplied, ¬ Program.Holds (fun _ => False) ⟨m, ownBlock, supplied⟩ block := by
    rintro transition member block isAllocated - m supplied (isStatic | ⟨owned, size, owns, above, -⟩)
    · exact isStatic
    · have below := (proper transition member).2.1 block isAllocated
      have owns : ownBlock owned = some size := owns
      rw [ownBlock, Function.update_apply] at owns
      split at owns
      · omega
      · cases owns
  rcases Program.lift machineRun (fun _ => none) apart with
    ⟨lifted, suppliedLast, liftedRun, forward, backward⟩
  have getsBlock : ProgramStep (fun _ => False) Program.booted (.malloc 100 8192)
      ⟨Machine.booted.allocBlock 100 8192, ownBlock, fun _ => none⟩ := by
    apply ProgramStep.malloc (by decide) (by decide)
    intro address above _
    have first : address ≠ 10 ∧ address ≠ 11 ∧ address ≠ 12 ∧ address ≠ 20 := by omega
    constructor
    · show Function.update (Function.update (fun _ => false) 10 true) 20 true address = false
      rw [Function.update_of_ne first.2.2.2, Function.update_of_ne first.1]
    · show Function.update (Function.update (fun _ => none) 11 (some (4096 * 4))) 12
        (some (4096 * 4)) address = none
      rw [Function.update_of_ne first.2.2.1, Function.update_of_ne first.2.1]
  refine ⟨machinePath, machineLast, _, _, (Execution.single getsBlock).append liftedRun, ?_,
    isHolding, rfl, rfl, ?_⟩
  · intro image member
    rcases List.mem_append.mp member with isFirst | isLater
    · rw [List.mem_singleton.mp isFirst]
      constructor
      · intro action isAction
        cases isAction
      · intro c attr alloc isCreate
        cases isCreate
    · rcases backward image isLater with ⟨transition, isStep, sameSource, sameLabel, sameTarget, -⟩
      constructor
      · intro action isAction
        rw [sameLabel] at isAction
        rw [← ProgramAction.scheduler.inj isAction, sameSource, sameTarget]
        exact unused transition isStep
      · intro c attr alloc isCreate
        rw [sameLabel] at isCreate
        have onBlock : attr = onOwnBlock := by
          apply (proper transition isStep).2.2 ⟨attr, false, alloc⟩
          rw [ProgramAction.scheduler.inj isCreate]
          rfl
        rw [onBlock]
        exact onOwnBlock_accepted
  · intro transition isStep
    rcases forward transition isStep with ⟨image, member, lifts⟩
    exact ⟨image, List.mem_append_right _ member, lifts⟩

/-- A thread on the program's block exits and is reaped: `sched_yield` frees the
block, which the program still owns. -/
theorem exists_freed_caller_stack : ∃ path last,
    ProgramStart (fun _ => False) Program.booted ∧
    Execution (ProgramStep fun _ => False) Program.booted path last ∧
    (∀ transition ∈ path, ProperStep transition) ∧ last.owned 100 = some 8192 ∧
    last.machine.blocks 100 = none ∧
    ∃ transition ∈ path, ¬ KeepsCallerMemory (fun _ => False) transition := by
  rcases Program.exists_run
    [.create 0 onOwnBlock ⟨30, 0, 0⟩, .createEnqueue 0, .unlock 0, .callYield 0, .yieldEnter 0,
      .yieldSwitch 0, .forkUnlock 0, .exit 0 7, .exitWake 0, .unlock 0, .yieldEnter 0]
    (fun path last => decide (last.blocks 100 = none ∧
      ∃ transition ∈ path, transition.label = .yieldEnter 0 ∧ transition.source.slot 0 = 30 ∧
        (transition.source.sched.tasks 30).stackPage = 100)) (by decide +kernel) with
    ⟨machinePath, machineLast, path, last, run, proper, holds, isLast, isOwned, forward⟩
  rcases of_decide_eq_true holds with ⟨freed, transition, isStep, isYield, isTask, isStack⟩
  rcases forward transition isStep with ⟨image, member, sameSource, sameLabel, -, owned⟩
  refine ⟨path, last, Program.booted_start, run, proper, ?_, ?_, image, member, ?_⟩
  · rw [isOwned]
    rfl
  · rw [isLast]
    exact freed
  · intro keeps
    have isPointer : 100 ∈ image.source.machine.freed (.yieldEnter 0) := by
      rw [sameSource]
      apply Machine.mem_freed_yieldEnter.mpr
      rw [isTask, isStack]
      exact ⟨by decide, by decide, Or.inl rfl⟩
    apply keeps.frees (.yieldEnter 0) (sameLabel.trans (congrArg _ isYield)) 100 isPointer
    refine Or.inr ⟨100, 8192, ?_, by decide, by decide⟩
    rw [owned]
    rfl

/-- A thread runs on the program's block, and main exits and is reaped. -/
theorem caller_memory_kept_one_thread : ∃ path last,
    Execution (ProgramStep fun _ => False) Program.booted path last ∧
    last.machine.current 0 = 30 ∧ last.owned 100 = some 8192 ∧
    ((∀ transition ∈ path, KeepsCallerMemory (fun _ => False) transition) ↔
      ∀ transition ∈ path, ReapsNoSupplied transition) := by
  rcases Program.exists_run
    [.create 0 onOwnBlock ⟨30, 0, 0⟩, .createEnqueue 0, .unlock 0, .exit 0 7, .exitWake 0,
      .unlock 0, .yieldEnter 0, .yieldSwitch 0, .forkUnlock 0]
    (fun _ last => decide (last.current 0 = 30)) (by decide +kernel) with
    ⟨machinePath, machineLast, path, last, run, proper, holds, isLast, isOwned, -⟩
  refine ⟨path, last, run, ?_, ?_, caller_memory_kept_iff Program.booted_start run proper⟩
  · rw [isLast]
    exact of_decide_eq_true holds
  · rw [isOwned]
    rfl

end UniKernel.Pthread
