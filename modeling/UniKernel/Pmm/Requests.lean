import UniKernel.Lib.Transition
import UniKernel.Pmm.Invariant

/-!
Owns the page-frame allocator under callers that keep to nothing: any sequence
of `pmm_alloc_frame`, `pmm_inc_ref`, `pmm_free_frame` and
`pmm_mark_used_region` with any addresses, after a `pmm_init` with any
arguments. The free stack stays in its array exactly as long as no last
reference is given back while the stack is full.
-/

namespace UniKernel.Pmm

open UniKernel.Lib

/-- A call, with any arguments. -/
inductive Request where
  | alloc
  | incRef (addr : Nat)
  | free (addr : Nat)
  | markUsed (base size : Nat)
deriving DecidableEq, Repr

def Request.perform : Request → State → State
  | .alloc, s => (pmmAllocFrame s).2
  | .incRef addr, s => pmmIncRef addr s
  | .free addr, s => pmmFreeFrame addr s
  | .markUsed base size, s => pmmMarkUsedRegion base size s

def RequestStep (s : State) (request : Request) (s' : State) : Prop := s' = request.perform s

/-! ### Stores to the stack -/

/-- `pmm_free_frame` gets to one of its two pushes. -/
def Pushes (addr : Nat) (s : State) : Prop :=
  let idx := physToIndex s addr
  idx ≠ noIndex ∧ idx < s.totalFrames ∧
    (s.refCounts idx = 1 ∨ s.refCounts idx = 0 ∧ s.stackTop < s.stackCapacity)

instance (addr : Nat) (s : State) : Decidable (Pushes addr s) :=
  inferInstanceAs (Decidable (_ ∧ _ ∧ _))

/-- The slots the outer loop of `pmm_mark_used_region` stores to. -/
def markWrites (startIdx : Nat) : Nat → State → List Nat
  | 0, _ => []
  | count + 1, s =>
      markWrites startIdx count s ++
        (findSlot (markFrames startIdx count s) (startIdx + count)
          (markFrames startIdx count s).stackTop 0).toList

/-- The slots of `frame_stack` that a call stores to. -/
def Request.writes : Request → State → List Nat
  | .free addr, s => if Pushes addr s then [s.stackTop] else []
  | .markUsed base size, s =>
      let startIdx := physToIndex s base
      let endIdx := physToIndex s (u64 (base + size + pageSize - 1))
      if startIdx = noIndex then [] else markWrites startIdx (endIdx - startIdx) s
  | _, _ => []

section Calls

variable {s : State} {addr target i idx : Nat}

/-- A free that pushes. -/
theorem pmmFreeFrame_of_pushes (pushes : Pushes addr s) :
    pmmFreeFrame addr s =
      pushFrame (physToIndex s addr)
        { s with refCounts := Function.update s.refCounts (physToIndex s addr) 0 } := by
  rcases pushes with ⟨inRam, inside, last | ⟨unused, room⟩⟩
  · unfold pmmFreeFrame
    simp only [last, Function.update_self]
    rw [if_neg (not_or.mpr ⟨inRam, Nat.not_le.mpr inside⟩), if_pos (by decide)]
    rfl
  · have same : Function.update s.refCounts (physToIndex s addr) 0 = s.refCounts := by
      rw [← unused, Function.update_eq_self]
    unfold pmmFreeFrame
    simp only [unused, same]
    rw [if_neg (not_or.mpr ⟨inRam, Nat.not_le.mpr inside⟩), if_neg (Nat.lt_irrefl 0),
      if_neg (Nat.not_le.mpr room)]

/-- A free that does not push changes at most the count of a frame that keeps
other references. -/
theorem pmmFreeFrame_of_not_pushes (notPushes : ¬ Pushes addr s) :
    (pmmFreeFrame addr s = s ∧
        (physToIndex s addr ≠ noIndex → physToIndex s addr < s.totalFrames →
          s.refCounts (physToIndex s addr) = 0)) ∨
      (1 < s.refCounts (physToIndex s addr) ∧
        pmmFreeFrame addr s =
          { s with
            refCounts := Function.update s.refCounts (physToIndex s addr)
              (s.refCounts (physToIndex s addr) - 1) }) := by
  unfold pmmFreeFrame
  dsimp only
  by_cases outside : physToIndex s addr = noIndex ∨ physToIndex s addr ≥ s.totalFrames
  · rw [if_pos outside]
    refine Or.inl ⟨rfl, ?_⟩
    intro inRam inside
    exact absurd outside (not_or.mpr ⟨inRam, Nat.not_le.mpr inside⟩)
  · rw [if_neg outside]
    rcases not_or.mp outside with ⟨inRam, inside⟩
    by_cases used : s.refCounts (physToIndex s addr) > 0
    · have shared : 1 < s.refCounts (physToIndex s addr) := by
        by_contra single
        exact notPushes ⟨inRam, Nat.not_le.mp inside, Or.inl (by omega)⟩
      rw [if_pos used, if_neg]
      · exact Or.inr ⟨shared, rfl⟩
      · simp only [Function.update_self]
        omega
    · rw [if_neg used]
      split
      · exact Or.inl ⟨rfl, fun _ _ => by omega⟩
      · next room =>
          exact absurd ⟨inRam, Nat.not_le.mp inside, Or.inr ⟨by omega, Nat.not_le.mp room⟩⟩ notPushes

/-- The slot found holds the target and is the first that does. -/
theorem findSlot_eq_some {remaining start : Nat}
    (found : findSlot s target remaining start = some i) :
    start ≤ i ∧ i < start + remaining ∧ s.frameStack i = target := by
  induction remaining generalizing start with
  | zero => cases found
  | succ remaining inductionHypothesis =>
      rw [findSlot] at found
      split at found
      · next here =>
          cases found
          exact ⟨Nat.le_refl _, by omega, here⟩
      · rcases inductionHypothesis found with ⟨above, below, holds⟩
        exact ⟨by omega, by omega, holds⟩

theorem findSlot_below (found : findSlot s target s.stackTop 0 = some i) : i < s.stackTop := by
  have bound := (findSlot_eq_some found).2.1
  omega

/-! ### Frames of the calls -/

theorem frameStack_markFrames {slot count startIdx : Nat} (kept : slot ∉ markWrites startIdx count s) :
    (markFrames startIdx count s).frameStack slot = s.frameStack slot := by
  induction count with
  | zero => rfl
  | succ count inductionHypothesis =>
      rw [markWrites, List.mem_append, not_or] at kept
      rw [markFrames, markFrame]
      split
      · next i found =>
          rcases kept with ⟨notEarlier, notLast⟩
          have different : slot ≠ i := fun same => notLast (Option.mem_toList.mpr (same ▸ found))
          exact (Function.update_of_ne different _ _).trans (inductionHypothesis notEarlier)
      · exact inductionHypothesis kept.1

/-- A call changes no slot but the ones it stores to. -/
theorem frameStack_perform {request : Request} {slot : Nat} (kept : slot ∉ request.writes s) :
    (request.perform s).frameStack slot = s.frameStack slot := by
  cases request with
  | alloc =>
      unfold Request.perform pmmAllocFrame
      dsimp only
      split <;> rfl
  | incRef addr =>
      unfold Request.perform pmmIncRef
      dsimp only
      split
      · split <;> rfl
      · rfl
  | free addr =>
      unfold Request.writes at kept
      unfold Request.perform
      dsimp only at kept ⊢
      split at kept
      · next pushes =>
          rw [pmmFreeFrame_of_pushes pushes]
          exact Function.update_of_ne (fun same => kept (List.mem_singleton.mpr same)) _ _
      · next notPushes =>
          rcases pmmFreeFrame_of_not_pushes notPushes with ⟨same, -⟩ | ⟨-, same⟩
          · rw [same]
          · rw [same]
  | markUsed base size =>
      unfold Request.writes at kept
      unfold Request.perform pmmMarkUsedRegion
      dsimp only at kept ⊢
      split at kept
      · next outside => rw [if_pos outside]
      · next inside =>
          rw [if_neg inside]
          exact frameStack_markFrames kept

end Calls

/-! ### The invariant -/

/-- Every frame is on the stack or counted as used, a frame that is on it twice
counting twice. -/
structure Accounted (s : State) : Prop where
  total : s.stackTop + s.usedFrames = s.totalFrames
  capacity : s.stackCapacity = s.totalFrames
  small : s.totalFrames < 2 ^ 32

section Invariant

variable {s : State} {addr : Nat}

theorem Accounted.initFrame (accounted : s.stackTop + s.usedFrames < s.totalFrames)
    (capacity : s.stackCapacity = s.totalFrames) (small : s.totalFrames < 2 ^ 32)
    (reservedEnd i : Nat) :
    (initFrame reservedEnd i s).stackTop + (initFrame reservedEnd i s).usedFrames =
        s.stackTop + s.usedFrames + 1 ∧
      (initFrame reservedEnd i s).stackCapacity = s.stackCapacity ∧
      (initFrame reservedEnd i s).totalFrames = s.totalFrames := by
  unfold Pmm.initFrame
  dsimp only
  split
  · refine ⟨?_, rfl, rfl⟩
    dsimp only
    rw [u32_of_lt (by omega)]
    omega
  · rw [if_pos (by omega)]
    refine ⟨?_, rfl, rfl⟩
    dsimp only
    rw [u32_of_lt (by omega)]
    omega

theorem accounted_pmmInit (kernelEnd ramSize : Nat) :
    Accounted (pmmInit kernelEnd ramSize State.zero) := by
  have small : u32 (ramSize / pageSize) < 2 ^ 32 := Nat.mod_lt _ (by decide)
  unfold pmmInit
  dsimp only
  generalize pmmReservedEnd kernelEnd ramSize = reservedEnd
  generalize u32 (ramSize / pageSize) = total at small ⊢
  have loop : ∀ count s, count ≤ total → s.stackTop = 0 → s.usedFrames = 0 →
      s.stackCapacity = total → s.totalFrames = total →
      (initFrames reservedEnd count s).stackTop +
          (initFrames reservedEnd count s).usedFrames = count ∧
        (initFrames reservedEnd count s).stackCapacity = total ∧
        (initFrames reservedEnd count s).totalFrames = total := by
    intro count s le top used capacity frames
    induction count with
    | zero => exact ⟨by rw [initFrames, top, used], capacity, frames⟩
    | succ count inductionHypothesis =>
        rcases inductionHypothesis (by omega) with ⟨sum, capacityIs, totalIs⟩
        have step := Accounted.initFrame (by omega) (capacityIs.trans totalIs.symm) (by omega)
          reservedEnd count
        rw [sum] at step
        exact ⟨step.1, step.2.1.trans capacityIs, step.2.2.trans totalIs⟩
  rcases loop total { State.zero with
      phyRamSize := ramSize
      phyRamEnd := u64 (phyRamBase + ramSize)
      totalFrames := total
      stackCapacity := total
      stackTop := 0
      refCountsAddr := refCountsStart kernelEnd ramSize } (Nat.le_refl _) rfl rfl rfl rfl with
    ⟨sum, capacity, frames⟩
  exact ⟨sum.trans frames.symm, capacity.trans frames.symm, Nat.lt_of_le_of_lt (Nat.le_of_eq frames) small⟩

theorem Accounted.markFrame (accounted : Accounted s) (target : Nat) :
    Accounted (markFrame target s) := by
  rcases accounted with ⟨total, capacity, small⟩
  unfold Pmm.markFrame
  split
  · next i found =>
      have below := findSlot_below found
      refine ⟨?_, capacity, small⟩
      dsimp only
      rw [u32_of_lt (by omega)]
      omega
  · exact ⟨total, capacity, small⟩

theorem Accounted.markFrames (accounted : Accounted s) (startIdx count : Nat) :
    Accounted (markFrames startIdx count s) ∧
      (markFrames startIdx count s).stackCapacity = s.stackCapacity ∧
      ∀ slot ∈ markWrites startIdx count s, slot < s.stackCapacity := by
  induction count with
  | zero => exact ⟨accounted, rfl, fun slot member => absurd member List.not_mem_nil⟩
  | succ count inductionHypothesis =>
      rcases inductionHypothesis with ⟨before, capacity, writes⟩
      refine ⟨before.markFrame _, ?_, ?_⟩
      · rw [Pmm.markFrames, Pmm.markFrame, ← capacity]
        split <;> rfl
      · intro slot member
        rw [markWrites, List.mem_append] at member
        rcases member with earlier | last
        · exact writes slot earlier
        · have below := findSlot_below (Option.mem_toList.mp last)
          have total := before.total
          have sameCapacity := before.capacity
          omega

end Invariant

/-! ### One call -/

/-- The stack stays in its array, where only the slots that the call stores to change, and
the counter above 0. -/
structure StackSafe (transition : Transition State Request) : Prop where
  top : transition.target.stackTop ≤ transition.target.stackCapacity
  writes : ∀ slot ∈ transition.label.writes transition.source,
    slot < transition.source.stackCapacity
  others : ∀ slot, slot ∉ transition.label.writes transition.source →
    transition.target.frameStack slot = transition.source.frameStack slot
  counted : ∀ addr, transition.label = .free addr → Pushes addr transition.source →
    0 < transition.source.usedFrames

/-- No last reference is given back while the stack is full. -/
def LeavesRoom (transition : Transition State Request) : Prop :=
  ∀ addr, transition.label = .free addr →
    physToIndex transition.source addr < transition.source.totalFrames →
    transition.source.refCounts (physToIndex transition.source addr) = 1 →
    transition.source.stackTop < transition.source.stackCapacity

section Step

variable {s s' : State} {request : Request} {addr : Nat}

theorem Accounted.top_le (accounted : Accounted s) : s.stackTop ≤ s.stackCapacity := by
  have total := accounted.total
  have capacity := accounted.capacity
  omega

theorem Accounted.pushFrame {counts : Nat → Nat} (accounted : Accounted s)
    (room : s.stackTop < s.stackCapacity) (idx : Nat) :
    Accounted (pushFrame idx { s with refCounts := counts }) := by
  rcases accounted with ⟨total, capacity, small⟩
  refine ⟨?_, capacity, small⟩
  change u32 (s.stackTop + 1) + pred32 s.usedFrames = s.totalFrames
  rw [u32_of_lt (by omega), pred32_of_pos (by omega) (by omega)]
  omega

/-- A push has room when the call leaves room. -/
theorem Pushes.room (pushes : Pushes addr s) (leaves : LeavesRoom ⟨s, .free addr, s'⟩) :
    s.stackTop < s.stackCapacity := by
  rcases pushes with ⟨-, inside, last | ⟨-, room⟩⟩
  · exact leaves addr rfl inside last
  · exact room

theorem Accounted.step (accounted : Accounted s) (step : RequestStep s request s')
    (leaves : LeavesRoom ⟨s, request, s'⟩) : Accounted s' := by
  subst step
  have total := accounted.total
  have small := accounted.small
  cases request with
  | alloc =>
      unfold Request.perform pmmAllocFrame
      dsimp only
      split
      · exact accounted
      · refine ⟨?_, accounted.capacity, small⟩
        dsimp only
        rw [u32_of_lt (by omega)]
        omega
  | incRef addr =>
      unfold Request.perform pmmIncRef
      dsimp only
      split
      · split
        · exact ⟨total, accounted.capacity, small⟩
        · exact accounted
      · exact accounted
  | free addr =>
      unfold Request.perform
      by_cases pushes : Pushes addr s
      · dsimp only
        rw [pmmFreeFrame_of_pushes pushes]
        exact accounted.pushFrame (pushes.room leaves) _
      · rcases pmmFreeFrame_of_not_pushes pushes with ⟨same, -⟩ | ⟨-, same⟩
        · dsimp only
          rw [same]
          exact accounted
        · dsimp only
          rw [same]
          exact ⟨total, accounted.capacity, small⟩
  | markUsed base size =>
      unfold Request.perform pmmMarkUsedRegion
      dsimp only
      split
      · exact accounted
      · exact (accounted.markFrames _ _).1

/-- Under the invariant a call is safe exactly when it leaves room. -/
theorem Accounted.stackSafe_iff (accounted : Accounted s) (step : RequestStep s request s') :
    StackSafe ⟨s, request, s'⟩ ↔ LeavesRoom ⟨s, request, s'⟩ := by
  have total := accounted.total
  have capacity := accounted.capacity
  have small := accounted.small
  constructor
  · rintro safe addr rfl inside last
    have pushes : Pushes addr s := by
      refine ⟨?_, inside, Or.inl last⟩
      change physToIndex s addr < s.totalFrames at inside
      simp only [noIndex]
      omega
    apply safe.writes
    change s.stackTop ∈ if Pushes addr s then [s.stackTop] else []
    rw [if_pos pushes]
    exact List.mem_singleton_self _
  · intro leaves
    refine ⟨(accounted.step step leaves).top_le, ?_, ?_, ?_⟩
    · intro slot member
      cases request with
      | alloc => cases member
      | incRef addr => cases member
      | free addr =>
          change slot ∈ if Pushes addr s then [s.stackTop] else [] at member
          split at member
          · next pushes =>
              rw [List.mem_singleton.mp member]
              exact pushes.room leaves
          · cases member
      | markUsed base size =>
          unfold Request.writes at member
          dsimp only at member
          split at member
          · cases member
          · exact (accounted.markFrames _ _).2.2 slot member
    · intro slot kept
      change s'.frameStack slot = s.frameStack slot
      rw [step]
      exact frameStack_perform kept
    · rintro addr rfl pushes
      have room : s.stackTop < s.stackCapacity := pushes.room leaves
      change 0 < s.usedFrames
      omega

end Step

/-! ### Runs -/

/-- The free stack stays in its array, and the number of used frames above 0,
throughout a run exactly when every call leaves room. -/
theorem stack_safe_iff {kernelEnd ramSize : Nat} {path : List (Transition State Request)}
    {last : State} (run : Execution RequestStep (pmmInit kernelEnd ramSize State.zero) path last) :
    (∀ transition ∈ path, StackSafe transition) ↔ ∀ transition ∈ path, LeavesRoom transition := by
  apply run.forall_good_iff (accounted_pmmInit kernelEnd ramSize)
  · exact fun source label target accounted step => accounted.stackSafe_iff step
  · exact fun source label target accounted step leaves => accounted.step step leaves

/-- Eight frames of RAM, the first two of them reserved. -/
def eightFrames : State := pmmInit 0x40001000 0x8000 State.zero

theorem stack_safe_iff_one_frame :
    (∀ transition ∈ [⟨eightFrames, Request.alloc, Request.alloc.perform eightFrames⟩],
        StackSafe transition) ↔
      ∀ transition ∈ [⟨eightFrames, Request.alloc, Request.alloc.perform eightFrames⟩],
        LeavesRoom transition :=
  stack_safe_iff (Execution.single rfl)

/-- Two frees of a free frame fill the stack, and the free of a reserved frame
then stores behind it. -/
theorem exists_push_behind_stack :
    ∃ path last, Execution RequestStep eightFrames path last ∧
      path.map (·.label) = [.free 0x40007000, .free 0x40007000, .free 0x40000000] ∧
      (∃ transition ∈ path, transition.label.writes transition.source = [8] ∧
        transition.source.stackCapacity = 8 ∧ transition.source.usedFrames = 0 ∧
        transition.target.usedFrames = 2 ^ 32 - 1) ∧
      ¬ ∀ transition ∈ path, StackSafe transition := by
  let first := Request.perform (.free 0x40007000) eightFrames
  let second := Request.perform (.free 0x40007000) first
  let third := Request.perform (.free 0x40000000) second
  have run : Execution RequestStep eightFrames _ third :=
    ((Execution.single (show RequestStep eightFrames (.free 0x40007000) first from rfl)).snoc
      (show RequestStep first (.free 0x40007000) second from rfl)).snoc
      (show RequestStep second (.free 0x40000000) third from rfl)
  have writes : Request.writes (.free 0x40000000) second = [8] := by decide +kernel
  have capacity : second.stackCapacity = 8 := by decide +kernel
  refine ⟨_, _, run, rfl, ⟨⟨second, .free 0x40000000, third⟩, by simp, writes, capacity, ?_, ?_⟩, ?_⟩
  · decide +kernel
  · decide +kernel
  · intro safe
    have bad := (safe ⟨second, .free 0x40000000, third⟩ (by simp)).writes 8
      (by simp only [writes, List.mem_singleton])
    simp only [capacity] at bad
    exact absurd bad (by decide)

end UniKernel.Pmm
