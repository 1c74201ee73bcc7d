import UniKernel.Heap.Runs

/-!
Owns the heap as several tasks use it at once: `malloc` and `free` under `heap_lock`,
`calloc` and `realloc` with the parts of them that run without it, and the stores of the
tasks to their own blocks in between. A task inside of the lock works on the heap that it
found; until it unlocks, the bytes outside of the blocks have any values.

The lock is the one that the `pthread_spin_` functions refine.
-/

namespace UniKernel.Heap

open UniKernel.Lib

universe u

/-! ### Calls -/

inductive UserCall where
  | malloc (size : Nat)
  | free (ptr : Nat)
  | calloc (num size : Nat)
  | realloc (ptr newSize : Nat)

/-- What is done under `heap_lock`: `malloc` and `free`, also inside `calloc` and
`realloc`, and the look at the old size in `realloc`. -/
inductive Section where
  | malloc (size : Nat)
  | free (ptr : Nat)
  | callocMalloc (total : Nat)
  | reallocSize (ptr newSize : Nat)
  | reallocMalloc (ptr oldSize newSize : Nat)
  | reallocFree (ptr newPtr : Nat)

/-- Where a task is: before or inside of the lock, in the `memset` of `calloc` or the
`memcpy` of `realloc`, or about to return. -/
inductive Point where
  | outside
  | lock (work : Section)
  | inside (work : Section)
  | clear (ptr total done : Nat)
  | copy (ptr oldSize newPtr done : Nat)
  | ret (result : Nat)

/-- `malloc` up to its lock, as part of `work`. -/
def mallocEntry (size : Nat) (work : Section) : Point :=
  if size = 0 then .ret 0 else .lock work

def UserCall.entry : UserCall → Point
  | .malloc size => mallocEntry size (.malloc size)
  | .free ptr => if ptr = 0 then .ret 0 else .lock (.free ptr)
  | .calloc num size =>
      let total := u64 (num * size)
      mallocEntry total (.callocMalloc total)
  | .realloc ptr newSize =>
      if ptr = 0 then mallocEntry newSize (.malloc newSize)
      else if newSize = 0 then .lock (.free ptr)
      else .lock (.reallocSize ptr newSize)

/-- The heap and the blocks when the lock is given back, and where the task goes on. -/
def Section.perform (m : Machine) : Section → Machine × Point
  | .malloc size =>
      let (ptr, heap) := Heap.malloc size m.heap
      (⟨heap, addBlock ptr size m.live⟩, .ret ptr)
  | .free ptr => (⟨Heap.free ptr m.heap, dropBlock ptr m.live⟩, .ret 0)
  | .callocMalloc total =>
      let (ptr, heap) := Heap.malloc total m.heap
      (⟨heap, addBlock ptr total m.live⟩, if ptr ≠ 0 then .clear ptr total 0 else .ret ptr)
  | .reallocSize ptr newSize =>
      let oldSize := oldSize ptr m.heap
      (m, if oldSize ≥ newSize then .ret ptr
        else mallocEntry newSize (.reallocMalloc ptr oldSize newSize))
  | .reallocMalloc ptr oldSize newSize =>
      let (newPtr, heap) := Heap.malloc newSize m.heap
      (⟨heap, addBlock newPtr newSize m.live⟩,
        if newPtr ≠ 0 then .copy ptr oldSize newPtr 0 else .ret newPtr)
  | .reallocFree ptr newPtr => (⟨Heap.free ptr m.heap, dropBlock ptr m.live⟩, .ret newPtr)

/-- The block that is freed. -/
def Section.frees : Section → Option Nat
  | .free ptr | .reallocFree ptr _ => some ptr
  | _ => none

/-! ### Tasks -/

/-- A call and, for what is said about its result, the heap when it was made. -/
structure Made where
  call : UserCall
  before : Machine

/-- A task and the call that it is in, or was in last. -/
structure Task where
  point : Point
  made : Made

/-- The heap and the tasks. The lock holder found the heap as `entered`, and `owner` says
whose the block at an address is. -/
structure Shared (ι : Type u) where
  heap : State
  live : List Block
  owner : Nat → Option ι
  heapLock : Option ι
  entered : State
  tasks : ι → Task

namespace Shared

variable {ι : Type u} [DecidableEq ι] (s : Shared ι)

/-- A block of task `i`. -/
def Mine (i : ι) (block : Block) : Prop := block ∈ s.live ∧ s.owner block.addr = some i

def moveTo (i : ι) (point : Point) : Shared ι :=
  { s with tasks := Function.update s.tasks i { s.tasks i with point := point } }

def storeByte (addr : Nat) (value : UInt8) : Shared ι :=
  { s with heap := { s.heap with mem := Function.update s.heap.mem addr value } }

/-- The heap as the lock holder found it, or as it is. -/
def settled : State := if s.heapLock = none then s.heap else s.entered

/-- After `heap_init`, with all tasks outside of the heap. -/
def init (heap : State) : Shared ι where
  heap := heap
  live := []
  owner _ := none
  heapLock := none
  entered := heap
  tasks _ := ⟨.outside, .free 0, heap, []⟩

end Shared

/-- `addr` is in a block of both lists. -/
def InCommon (live live' : List Block) (addr : Nat) : Prop :=
  ∃ block ∈ live, block ∈ live' ∧ block.Contains addr

instance (live live' : List Block) (addr : Nat) : Decidable (InCommon live live' addr) :=
  inferInstanceAs (Decidable (∃ block ∈ live, block ∈ live' ∧ block.Contains addr))

/-- What `work` leaves when the lock is given back: the blocks that remain hold what
their tasks have stored. -/
def Shared.commit {ι : Type u} [DecidableEq ι] (s : Shared ι) (i : ι) (work : Section) :
    Shared ι :=
  let (m, next) := work.perform ⟨s.entered, s.live⟩
  let mem : Memory := fun addr =>
    if InCommon s.live m.live addr then s.heap.mem addr else m.heap.mem addr
  let owner : Nat → Option ι := fun addr =>
    if s.live.any fun block => block.addr = addr then s.owner addr else some i
  { s.moveTo i next with
    heap := { m.heap with mem := mem }
    live := m.live
    owner := owner
    heapLock := none }

/-- Calls that a task may make: with blocks of its own. -/
def UserCall.Allowed {ι : Type u} (s : Shared ι) (i : ι) : UserCall → Prop
  | .malloc size => size < 2 ^ 64
  | .free ptr => ptr = 0 ∨ ∃ block, s.Mine i block ∧ block.addr = ptr
  | .calloc num size => num < 2 ^ 64 ∧ size < 2 ^ 64
  | .realloc ptr newSize =>
      (ptr = 0 ∨ ∃ block, s.Mine i block ∧ block.addr = ptr) ∧ newSize < 2 ^ 64

inductive SharedEvent (ι : Type u) where
  | call (i : ι) (call : UserCall)
  | lock (i : ι)
  | scratch (i : ι)
  | unlock (i : ι)
  | byte (i : ι)
  | done (i : ι)
  | ret (i : ι) (result : Nat)
  | store (i : ι)
  | give (i j : ι)

def SharedEvent.actor {ι : Type u} : SharedEvent ι → ι
  | .call i _ | .lock i | .scratch i | .unlock i | .byte i | .done i | .ret i _ | .store i
  | .give i _ => i

/-- One step of one task. -/
inductive SharedStep {ι : Type u} [DecidableEq ι] :
    Shared ι → SharedEvent ι → Shared ι → Prop where
  | call {s : Shared ι} {i : ι} {call : UserCall} (outside : (s.tasks i).point = .outside)
      (allowed : call.Allowed s i) :
      SharedStep s (.call i call)
        { s with tasks := Function.update s.tasks i ⟨call.entry, call, s.heap, s.live⟩ }
  | lock {s : Shared ι} {i : ι} {work : Section} (here : (s.tasks i).point = .lock work)
      (unlocked : s.heapLock = none) :
      SharedStep s (.lock i)
        { s.moveTo i (.inside work) with heapLock := some i, entered := s.heap }
  | scratch {s : Shared ι} {i : ι} {work : Section} {addr : Nat} (value : UInt8)
      (here : (s.tasks i).point = .inside work)
      (apart : ∀ block ∈ s.live, block.Contains addr → work.frees = some block.addr) :
      SharedStep s (.scratch i) (s.storeByte addr value)
  | unlock {s : Shared ι} {i : ι} {work : Section} (here : (s.tasks i).point = .inside work) :
      SharedStep s (.unlock i) (s.commit i work)
  | clearByte {s : Shared ι} {i : ι} {ptr total done : Nat}
      (here : (s.tasks i).point = .clear ptr total done) (more : done < total) :
      SharedStep s (.byte i) ((s.storeByte (ptr + done) 0).moveTo i (.clear ptr total (done + 1)))
  | cleared {s : Shared ι} {i : ι} {ptr total done : Nat}
      (here : (s.tasks i).point = .clear ptr total done) (all : ¬ done < total) :
      SharedStep s (.done i) (s.moveTo i (.ret ptr))
  | copyByte {s : Shared ι} {i : ι} {ptr oldSize newPtr done : Nat}
      (here : (s.tasks i).point = .copy ptr oldSize newPtr done) (more : done < oldSize) :
      SharedStep s (.byte i) ((s.storeByte (newPtr + done) (s.heap.mem (ptr + done))).moveTo i
        (.copy ptr oldSize newPtr (done + 1)))
  | copied {s : Shared ι} {i : ι} {ptr oldSize newPtr done : Nat}
      (here : (s.tasks i).point = .copy ptr oldSize newPtr done) (all : ¬ done < oldSize) :
      SharedStep s (.done i) (s.moveTo i (.lock (.reallocFree ptr newPtr)))
  | ret {s : Shared ι} {i : ι} {result : Nat} (here : (s.tasks i).point = .ret result) :
      SharedStep s (.ret i result) (s.moveTo i .outside)
  | store {s : Shared ι} {i : ι} {block : Block} {addr : Nat} (value : UInt8)
      (outside : (s.tasks i).point = .outside) (mine : s.Mine i block)
      (inside : block.Contains addr) : SharedStep s (.store i) (s.storeByte addr value)
  | give {s : Shared ι} {i j : ι} {block : Block} (outside : (s.tasks i).point = .outside)
      (mine : s.Mine i block) :
      SharedStep s (.give i j) { s with owner := Function.update s.owner block.addr (some j) }

end UniKernel.Heap
