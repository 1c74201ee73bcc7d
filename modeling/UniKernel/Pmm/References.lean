import UniKernel.Pmm.Requests

/-!
Owns the references to a frame: what `pmm_inc_ref` adds since the
`pmm_alloc_frame` that returned the frame, `pmm_free_frame` takes away, and the
frame is not put back before all of them are gone. The count has 8 bits, so
this holds as long as no reference is taken to a frame that has 255 already.
-/

namespace UniKernel.Pmm

open UniKernel.Lib

/-- The allocator, and for each frame how many more calls of `pmm_free_frame`
it takes to give back what `pmm_alloc_frame` and the calls of `pmm_inc_ref`
behind it took: `n + 1` of them after `n` calls. -/
structure Referenced where
  pmm : State
  owed : Nat → Nat

/-- The owed calls after a call. -/
def Request.owed (s : State) (owed : Nat → Nat) : Request → Nat → Nat
  | .alloc =>
      if s.stackTop = 0 then owed else Function.update owed (s.frameStack (s.stackTop - 1)) 1
  | .incRef addr =>
      if owed (physToIndex s addr) = 0 then owed
      else Function.update owed (physToIndex s addr) (owed (physToIndex s addr) + 1)
  | .free addr => Function.update owed (physToIndex s addr) (owed (physToIndex s addr) - 1)
  | .markUsed _ _ => owed

def Referenced.after (m : Referenced) (request : Request) : Referenced :=
  ⟨request.perform m.pmm, request.owed m.pmm m.owed⟩

def ReferenceStep (m : Referenced) (request : Request) (m' : Referenced) : Prop :=
  m' = m.after request

/-- A frame for which calls are owed is not on the free stack, and is not what
`pmm_alloc_frame` takes. -/
structure FramesKept (transition : Transition Referenced Request) : Prop where
  notFree : ∀ idx, 0 < transition.target.owed idx → idx ∉ transition.target.pmm.freeStack
  notTaken : transition.label = .alloc → ∀ idx, 0 < transition.source.owed idx →
    (pmmAllocFrame transition.source.pmm).1 ≠ indexToPhys idx

/-- The call leaves room on the stack, adds no reference to a frame that has 255,
and `pmm_alloc_frame` takes no frame that is on the stack once more. -/
structure Counted (transition : Transition Referenced Request) : Prop where
  leavesRoom : LeavesRoom ⟨transition.source.pmm, transition.label, transition.target.pmm⟩
  unsaturated : ∀ addr, transition.label = .incRef addr →
    0 < transition.source.owed (physToIndex transition.source.pmm addr) →
    transition.source.pmm.refCounts (physToIndex transition.source.pmm addr) < 255
  once : transition.label = .alloc → ∀ slot, slot + 1 < transition.source.pmm.stackTop →
    transition.source.pmm.frameStack slot ≠
      transition.source.pmm.frameStack (transition.source.pmm.stackTop - 1)

/-! ### The invariant -/

/-- What is owed for a frame is its count, and the frame is not on the stack. -/
structure Owing (m : Referenced) : Prop where
  accounted : Accounted m.pmm
  tables : m.pmm.refCountsAddr ≠ 0
  onStack : ∀ idx ∈ m.pmm.freeStack, idx < m.pmm.totalFrames
  inRam : ∀ idx, 0 < m.owed idx → idx < m.pmm.totalFrames
  counts : ∀ idx, 0 < m.owed idx → m.pmm.refCounts idx = m.owed idx
  notFree : ∀ idx, 0 < m.owed idx → idx ∉ m.pmm.freeStack

section Step

variable {m m' : Referenced} {request : Request} {s : State} {addr idx target : Nat}

theorem mem_freeStack_iff : idx ∈ s.freeStack ↔ ∃ slot, slot < s.stackTop ∧ s.frameStack slot = idx := by
  simp [State.freeStack]

/-- Taking a frame off the stack leaves the others. -/
theorem mem_freeStack_markFrame (member : idx ∈ (markFrame target s).freeStack) : idx ∈ s.freeStack := by
  unfold markFrame at member
  split at member
  · next i found =>
      have below := findSlot_below found
      rcases mem_freeStack_iff.mp member with ⟨slot, inside, holds⟩
      dsimp only at inside holds
      rw [Function.update_apply] at holds
      split at holds
      · exact mem_freeStack_iff.mpr ⟨s.stackTop - 1, by omega, holds⟩
      · exact mem_freeStack_iff.mpr ⟨slot, by omega, holds⟩
  · exact member

theorem markFrame_records (target : Nat) (s : State) :
    (markFrame target s).totalFrames = s.totalFrames ∧
      (markFrame target s).refCounts = s.refCounts ∧
      (markFrame target s).refCountsAddr = s.refCountsAddr := by
  unfold markFrame
  split <;> exact ⟨rfl, rfl, rfl⟩

theorem Owing.markFrame (owing : Owing m) (target : Nat) :
    Owing ⟨Pmm.markFrame target m.pmm, m.owed⟩ := by
  rcases markFrame_records target m.pmm with ⟨total, counts, tables⟩
  refine ⟨owing.accounted.markFrame target, ?_, ?_, ?_, ?_, ?_⟩
  · dsimp only
    rw [tables]
    exact owing.tables
  · intro idx member
    dsimp only at member ⊢
    rw [total]
    exact owing.onStack idx (mem_freeStack_markFrame member)
  · intro idx positive
    dsimp only
    rw [total]
    exact owing.inRam idx positive
  · intro idx positive
    dsimp only
    rw [counts]
    exact owing.counts idx positive
  · intro idx positive member
    exact owing.notFree idx positive (mem_freeStack_markFrame member)

theorem Owing.markFrames (owing : Owing m) (startIdx count : Nat) :
    Owing ⟨Pmm.markFrames startIdx count m.pmm, m.owed⟩ := by
  induction count with
  | zero => exact owing
  | succ count inductionHypothesis => exact inductionHypothesis.markFrame _

/-- The counts and the owed calls change together, and no frame comes onto the
stack. -/
theorem Owing.update (owing : Owing m) (idx count owed : Nat) (inside : 0 < owed → idx < m.pmm.totalFrames)
    (same : 0 < owed → count = owed ∧ idx ∉ m.pmm.freeStack) :
    Owing ⟨{ m.pmm with refCounts := Function.update m.pmm.refCounts idx count },
      Function.update m.owed idx owed⟩ := by
  refine ⟨⟨owing.accounted.total, owing.accounted.capacity, owing.accounted.small⟩, owing.tables,
    owing.onStack, ?_, ?_, ?_⟩
  · intro other positive
    dsimp only at positive ⊢
    rw [Function.update_apply] at positive
    split at positive
    · next here => exact here ▸ inside positive
    · exact owing.inRam other positive
  · intro other positive
    dsimp only at positive ⊢
    rw [Function.update_apply] at positive ⊢
    rw [Function.update_apply]
    split at positive
    · next here =>
        rw [if_pos here, if_pos here]
        exact (same positive).1
    · next elsewhere =>
        rw [if_neg elsewhere, if_neg elsewhere]
        exact owing.counts other positive
  · intro other positive
    dsimp only at positive
    rw [Function.update_apply] at positive
    split at positive
    · next here => exact here ▸ (same positive).2
    · exact owing.notFree other positive

/-- A frame whose last reference is given back goes onto the stack. -/
theorem Owing.pushFrame (owing : Owing m) {idx : Nat} (room : m.pmm.stackTop < m.pmm.stackCapacity)
    (inside : idx < m.pmm.totalFrames) (nothing : m.owed idx = 0) :
    Owing ⟨Pmm.pushFrame idx m.pmm, m.owed⟩ := by
  have total := owing.accounted.total
  have capacity := owing.accounted.capacity
  have small := owing.accounted.small
  have pushed := freeStack_pushFrame m.pmm idx (by omega)
  refine ⟨owing.accounted.pushFrame room idx, owing.tables, ?_, owing.inRam, owing.counts, ?_⟩
  · intro other member
    dsimp only at member ⊢
    rw [pushed, List.mem_append, List.mem_singleton] at member
    rcases member with before | rfl
    · exact owing.onStack other before
    · exact inside
  · intro other positive member
    dsimp only at positive member
    rw [pushed, List.mem_append, List.mem_singleton] at member
    rcases member with before | rfl
    · exact owing.notFree other positive before
    · omega

theorem Owing.owed_noIndex (owing : Owing m) : m.owed noIndex = 0 := by
  by_contra positive
  have inside := owing.inRam noIndex (Nat.pos_of_ne_zero positive)
  have small := owing.accounted.small
  unfold noIndex at inside
  omega

theorem Owing.alloc (owing : Owing m)
    (once : ∀ slot, slot + 1 < m.pmm.stackTop →
      m.pmm.frameStack slot ≠ m.pmm.frameStack (m.pmm.stackTop - 1)) :
    Owing ⟨(pmmAllocFrame m.pmm).2, Request.alloc.owed m.pmm m.owed⟩ := by
  unfold Request.owed
  cases nonempty : m.pmm.stackTop with
  | zero =>
      rw [pmmAllocFrame_of_empty nonempty]
      exact owing
  | succ top =>
      rw [pmmAllocFrame_of_nonempty nonempty, if_neg (Nat.succ_ne_zero top), Nat.add_sub_cancel]
      have total := owing.accounted.total
      have small := owing.accounted.small
      have popped := freeStack_succ m.pmm nonempty
      have stays : ∀ other ∈ { m.pmm with stackTop := top }.freeStack, other ∈ m.pmm.freeStack := by
        intro other member
        rw [popped]
        exact List.mem_append_left _ member
      have notBelow : m.pmm.frameStack top ∉ { m.pmm with stackTop := top }.freeStack := by
        intro member
        rcases mem_freeStack_iff.mp member with ⟨slot, below, holds⟩
        dsimp only at below holds
        apply once slot (by omega)
        rw [nonempty, Nat.add_sub_cancel]
        exact holds
      have isFree : m.pmm.frameStack top ∈ m.pmm.freeStack :=
        mem_freeStack_iff.mpr ⟨top, by omega, rfl⟩
      have shrunk : Owing ⟨{ m.pmm with stackTop := top, usedFrames := u32 (m.pmm.usedFrames + 1) },
          m.owed⟩ := by
        refine ⟨⟨?_, owing.accounted.capacity, small⟩, owing.tables, ?_, owing.inRam, owing.counts, ?_⟩
        · dsimp only
          rw [u32_of_lt (by omega)]
          omega
        · exact fun other member => owing.onStack other (stays other member)
        · exact fun other positive member => owing.notFree other positive (stays other member)
      exact shrunk.update _ _ _ (fun _ => owing.onStack _ isFree) fun _ => ⟨rfl, notBelow⟩

theorem Owing.incRef (owing : Owing m)
    (unsaturated : 0 < m.owed (physToIndex m.pmm addr) →
      m.pmm.refCounts (physToIndex m.pmm addr) < 255) :
    Owing ⟨pmmIncRef addr m.pmm, (Request.incRef addr).owed m.pmm m.owed⟩ := by
  unfold Request.owed pmmIncRef
  dsimp only
  generalize physToIndex m.pmm addr = idx at *
  by_cases inRam : idx = noIndex
  · subst inRam
    rw [if_neg (fun both => both.1 rfl), if_pos owing.owed_noIndex]
    exact owing
  · rw [if_pos ⟨inRam, owing.tables⟩]
    by_cases nothing : m.owed idx = 0
    · have updated := owing.update idx (m.pmm.refCounts idx + 1) 0
        (fun positive => absurd positive (Nat.lt_irrefl 0))
        fun positive => absurd positive (Nat.lt_irrefl 0)
      rw [← nothing, Function.update_eq_self] at updated
      rw [if_pos nothing]
      split
      · exact updated
      · exact owing
    · have positive := Nat.pos_of_ne_zero nothing
      rw [if_neg nothing, if_pos (unsaturated positive)]
      apply owing.update
      · exact fun _ => owing.inRam idx positive
      · exact fun _ => ⟨by rw [owing.counts idx positive], owing.notFree idx positive⟩

theorem Owing.free (owing : Owing m)
    (room : Pushes addr m.pmm → m.pmm.stackTop < m.pmm.stackCapacity) :
    Owing ⟨pmmFreeFrame addr m.pmm, (Request.free addr).owed m.pmm m.owed⟩ := by
  unfold Request.owed
  dsimp only
  have counts := owing.counts (physToIndex m.pmm addr)
  have inside := owing.inRam (physToIndex m.pmm addr)
  have notFree := owing.notFree (physToIndex m.pmm addr)
  by_cases pushes : Pushes addr m.pmm
  · have single : m.pmm.refCounts (physToIndex m.pmm addr) ≤ 1 := by
      rcases pushes with ⟨-, -, last | ⟨unused, -⟩⟩
      · exact Nat.le_of_eq last
      · omega
    have nothing : m.owed (physToIndex m.pmm addr) - 1 = 0 := by omega
    rw [pmmFreeFrame_of_pushes pushes, nothing]
    have dropped := owing.update (physToIndex m.pmm addr) 0 0
      (fun positive => absurd positive (Nat.lt_irrefl 0))
      fun positive => absurd positive (Nat.lt_irrefl 0)
    exact dropped.pushFrame (room pushes) pushes.2.1 (Function.update_self ..)
  · have small := owing.accounted.small
    rcases pmmFreeFrame_of_not_pushes pushes with ⟨same, unused⟩ | ⟨shared, changed⟩
    · have nothing : m.owed (physToIndex m.pmm addr) = 0 := by
        by_contra some
        have positive := Nat.pos_of_ne_zero some
        have below := inside positive
        have inRam : physToIndex m.pmm addr ≠ noIndex := by
          unfold noIndex
          omega
        have noCount := unused inRam below
        have same := counts positive
        omega
      have unchanged : Function.update m.owed (physToIndex m.pmm addr) 0 = m.owed := by
        rw [← nothing, Function.update_eq_self]
      rw [same, nothing, Nat.zero_sub, unchanged]
      exact owing
    · rw [changed]
      apply owing.update
      · exact fun positive => inside (by omega)
      · exact fun positive => ⟨by rw [counts (by omega)], notFree (by omega)⟩

theorem Owing.step (owing : Owing m) (step : ReferenceStep m request m')
    (counted : Counted ⟨m, request, m'⟩) : Owing m' := by
  subst step
  cases request with
  | alloc => exact owing.alloc (counted.once rfl)
  | incRef addr => exact owing.incRef (counted.unsaturated addr rfl)
  | free addr => exact owing.free fun pushes => pushes.room counted.leavesRoom
  | markUsed base size =>
      unfold Referenced.after Request.perform Request.owed pmmMarkUsedRegion
      dsimp only
      split
      · exact owing
      · exact owing.markFrames _ _

theorem indexToPhys_of_small (small : idx < 2 ^ 32) :
    indexToPhys idx = phyRamBase + idx * pageSize := by
  unfold indexToPhys
  simp only [phyRamBase, pageShift, pageSize, Nat.shiftLeft_eq]
  rw [u64_of_lt]
  omega

/-- `pmm_alloc_frame` takes a frame from the stack. -/
theorem Owing.framesKept (owing : Owing m) (after : Owing m') :
    FramesKept ⟨m, request, m'⟩ := by
  refine ⟨after.notFree, ?_⟩
  intro _ idx positive
  have small := owing.accounted.small
  have inside : idx < m.pmm.totalFrames := owing.inRam idx positive
  have notFree : idx ∉ m.pmm.freeStack := owing.notFree idx positive
  change (pmmAllocFrame m.pmm).1 ≠ indexToPhys idx
  cases nonempty : m.pmm.stackTop with
  | zero =>
      rw [pmmAllocFrame_of_empty nonempty, indexToPhys_of_small (by omega)]
      unfold phyRamBase
      omega
  | succ top =>
      have onTop : m.pmm.frameStack top ∈ m.pmm.freeStack :=
        mem_freeStack_iff.mpr ⟨top, by omega, rfl⟩
      have topSmall := owing.onStack _ onTop
      rw [pmmAllocFrame_of_nonempty nonempty]
      dsimp only
      rw [indexToPhys_of_small (by omega), indexToPhys_of_small (by omega)]
      intro same
      apply notFree
      have isTop : m.pmm.frameStack top = idx := by
        unfold pageSize at same
        omega
      exact isTop ▸ onTop

end Step

/-! ### Runs -/

theorem initFrames_records (reservedEnd : Nat) {s : State} (empty : s.stackTop = 0) (count : Nat) :
    (∀ slot, slot < (initFrames reservedEnd count s).stackTop →
        (initFrames reservedEnd count s).frameStack slot < count) ∧
      (initFrames reservedEnd count s).refCountsAddr = s.refCountsAddr ∧
      (initFrames reservedEnd count s).totalFrames = s.totalFrames := by
  induction count with
  | zero => exact ⟨fun slot below => absurd below (by rw [initFrames, empty]; omega), rfl, rfl⟩
  | succ count inductionHypothesis =>
      rcases inductionHypothesis with ⟨before, tables, total⟩
      rw [initFrames, initFrame]
      dsimp only
      split
      · exact ⟨fun slot below => Nat.lt_succ_of_lt (before slot below), tables, total⟩
      · split
        · refine ⟨?_, tables, total⟩
          intro slot below
          dsimp only at below ⊢
          rw [Function.update_apply]
          split
          · omega
          · next other =>
              have le := Nat.mod_le ((initFrames reservedEnd count s).stackTop + 1) (2 ^ 32)
              unfold u32 at below
              exact Nat.lt_succ_of_lt (before slot (by omega))
        · exact ⟨fun slot below => Nat.lt_succ_of_lt (before slot below), tables, total⟩

/-- After `pmm_init` nothing is owed. -/
def unowed (kernelEnd ramSize : Nat) : Referenced :=
  ⟨pmmInit kernelEnd ramSize State.zero, fun _ => 0⟩

theorem owing_unowed {kernelEnd ramSize : Nat} (tables : refCountsStart kernelEnd ramSize ≠ 0) :
    Owing (unowed kernelEnd ramSize) := by
  have accounted := accounted_pmmInit kernelEnd ramSize
  have records := initFrames_records (pmmReservedEnd kernelEnd ramSize)
    (s := { State.zero with
      phyRamSize := ramSize
      phyRamEnd := u64 (phyRamBase + ramSize)
      totalFrames := u32 (ramSize / pageSize)
      stackCapacity := u32 (ramSize / pageSize)
      stackTop := 0
      refCountsAddr := refCountsStart kernelEnd ramSize }) rfl (u32 (ramSize / pageSize))
  refine ⟨accounted, ?_, ?_, ?_, ?_, ?_⟩
  · exact records.2.1.symm ▸ tables
  · intro idx member
    rcases mem_freeStack_iff.mp member with ⟨slot, below, rfl⟩
    exact Nat.lt_of_lt_of_le (records.1 slot below) (Nat.le_of_eq records.2.2.symm)
  · exact fun idx positive => absurd positive (Nat.lt_irrefl 0)
  · exact fun idx positive => absurd positive (Nat.lt_irrefl 0)
  · exact fun idx positive => absurd positive (Nat.lt_irrefl 0)

/-- Throughout a run whose calls are all counted, no frame is put back or handed
out again while calls of `pmm_free_frame` are owed for it. -/
theorem references_keep_frames {kernelEnd ramSize : Nat}
    (tables : refCountsStart kernelEnd ramSize ≠ 0)
    {path : List (Transition Referenced Request)} {last : Referenced}
    (run : Execution ReferenceStep (unowed kernelEnd ramSize) path last)
    (counted : ∀ transition ∈ path, Counted transition) :
    ∀ transition ∈ path, FramesKept transition := by
  have reached := run.invariant_at_transition Counted (owing_unowed tables)
    (fun _ _ _ owing step isCounted => owing.step step isCounted) counted
  intro transition member
  exact (reached transition member).1.framesKept (reached transition member).2

/-- Of eight frames, one is allocated and gets a second reference. -/
theorem references_keep_frames_eight_frames :
    ∃ path last, Execution ReferenceStep (unowed 0x40001000 0x8000) path last ∧
      path.map (·.label) = [.alloc, .incRef 0x40007000] ∧ last.owed 7 = 2 ∧
      ∀ transition ∈ path, FramesKept transition := by
  let booted := unowed 0x40001000 0x8000
  have run : Execution ReferenceStep booted
      ([⟨booted, .alloc, booted.after .alloc⟩] ++
        [⟨booted.after .alloc, .incRef 0x40007000, (booted.after .alloc).after (.incRef 0x40007000)⟩])
      ((booted.after .alloc).after (.incRef 0x40007000)) :=
    (Execution.single rfl).snoc rfl
  refine ⟨_, _, run, rfl, by decide +kernel, references_keep_frames (by decide) run ?_⟩
  intro transition member
  rcases List.mem_append.mp member with isFirst | isSecond
  · rw [List.mem_singleton.mp isFirst]
    have onceBelow : ∀ slot < 5, booted.pmm.frameStack slot ≠ booted.pmm.frameStack 5 := by
      decide +kernel
    have six : booted.pmm.stackTop = 6 := by decide +kernel
    refine ⟨?_, ?_, ?_⟩
    · intro addr isFree
      cases isFree
    · intro addr isIncRef
      cases isIncRef
    · intro _ slot below
      simp only [six] at below ⊢
      exact onceBelow slot (by omega)
  · rw [List.mem_singleton.mp isSecond]
    have few : (booted.after .alloc).pmm.refCounts (physToIndex (booted.after .alloc).pmm 0x40007000) <
        255 := by decide +kernel
    refine ⟨?_, ?_, ?_⟩
    · intro addr isFree
      cases isFree
    · intro addr isIncRef _
      cases isIncRef
      exact few
    · intro isAlloc
      cases isAlloc

/-! ### More references than the count holds -/

theorem exists_execution (requests : List Request) (m : Referenced) :
    ∃ path, Execution ReferenceStep m path (requests.foldl Referenced.after m) ∧
      path.map Transition.label = requests := by
  induction requests generalizing m with
  | nil => exact ⟨[], .nil, rfl⟩
  | cons request rest inductionHypothesis =>
      rcases inductionHypothesis (m.after request) with ⟨path, run, labels⟩
      have first : Execution ReferenceStep m [⟨m, request, m.after request⟩] (m.after request) :=
        Execution.single rfl
      refine ⟨_, first.append run, ?_⟩
      rw [List.map_append, labels]
      rfl

section Saturation

variable {m : Referenced} {addr idx : Nat}

/-- Each further reference raises the count up to 255. -/
theorem foldl_incRef (index : physToIndex m.pmm addr = idx) (inRam : idx ≠ noIndex)
    (tables : m.pmm.refCountsAddr ≠ 0) (held : 0 < m.owed idx) (n : Nat) :
    (List.replicate n (Request.incRef addr)).foldl Referenced.after m =
      ⟨{ m.pmm with
          refCounts := Function.update m.pmm.refCounts idx
            (max (m.pmm.refCounts idx) (min 255 (m.pmm.refCounts idx + n))) },
        Function.update m.owed idx (m.owed idx + n)⟩ := by
  induction n with
  | zero =>
      have sameCount : max (m.pmm.refCounts idx) (min 255 (m.pmm.refCounts idx + 0)) =
          m.pmm.refCounts idx := by omega
      rw [sameCount, Nat.add_zero, Function.update_eq_self, Function.update_eq_self]
      rfl
  | succ n inductionHypothesis =>
      rw [List.replicate_succ', List.foldl_append, inductionHypothesis]
      generalize counted : max (m.pmm.refCounts idx) (min 255 (m.pmm.refCounts idx + n)) = count
      have sameIndex : physToIndex
          { m.pmm with refCounts := Function.update m.pmm.refCounts idx count } addr = idx := index
      simp only [List.foldl_cons, List.foldl_nil, Referenced.after, Request.perform, Request.owed,
        pmmIncRef, sameIndex, Function.update_self, Function.update_idem]
      have stillHeld : m.owed idx + n ≠ 0 := by omega
      rw [if_pos ⟨inRam, tables⟩, if_neg stillHeld]
      by_cases room : count < 255
      · rw [if_pos room]
        have next : max (m.pmm.refCounts idx) (min 255 (m.pmm.refCounts idx + (n + 1))) = count + 1 := by
          omega
        rw [next, Nat.add_assoc]
      · have next : max (m.pmm.refCounts idx) (min 255 (m.pmm.refCounts idx + (n + 1))) = count := by
          omega
        rw [if_neg room, next, Nat.add_assoc]

/-- Each free of a frame with other references lowers the count. -/
theorem foldl_free (index : physToIndex m.pmm addr = idx) (inRam : idx ≠ noIndex)
    (inside : idx < m.pmm.totalFrames) {k : Nat} (kept : k < m.pmm.refCounts idx) :
    (List.replicate k (Request.free addr)).foldl Referenced.after m =
      ⟨{ m.pmm with refCounts := Function.update m.pmm.refCounts idx (m.pmm.refCounts idx - k) },
        Function.update m.owed idx (m.owed idx - k)⟩ := by
  induction k with
  | zero =>
      rw [Nat.sub_zero, Nat.sub_zero, Function.update_eq_self, Function.update_eq_self]
      rfl
  | succ k inductionHypothesis =>
      rw [List.replicate_succ', List.foldl_append, inductionHypothesis (by omega)]
      have below : ¬ (idx = noIndex ∨ idx ≥ m.pmm.totalFrames) := by omega
      have positive : m.pmm.refCounts idx - k > 0 := by omega
      have shared : m.pmm.refCounts idx - (k + 1) ≠ 0 := by omega
      have sameIndex : physToIndex
          { m.pmm with
            refCounts := Function.update m.pmm.refCounts idx (m.pmm.refCounts idx - k) } addr =
          idx := index
      simp only [List.foldl_cons, List.foldl_nil, Referenced.after, Request.perform, Request.owed,
        pmmFreeFrame, sameIndex, Function.update_self, Function.update_idem,
        if_neg below, if_pos positive, Nat.sub_sub]
      rw [if_neg shared]

theorem after_free_last (index : physToIndex m.pmm addr = idx) (inRam : idx ≠ noIndex)
    (inside : idx < m.pmm.totalFrames) (last : m.pmm.refCounts idx = 1)
    (room : m.pmm.stackTop + 1 < 2 ^ 32) :
    idx ∈ (m.after (.free addr)).pmm.freeStack ∧
      (m.after (.free addr)).owed idx = m.owed idx - 1 := by
  subst index
  have pushes : Pushes addr m.pmm := ⟨inRam, inside, Or.inl last⟩
  constructor
  · change _ ∈ (pmmFreeFrame addr m.pmm).freeStack
    have pushed := freeStack_pushFrame { m.pmm with
      refCounts := Function.update m.pmm.refCounts (physToIndex m.pmm addr) 0 }
      (physToIndex m.pmm addr) room
    rw [pmmFreeFrame_of_pushes pushes, pushed]
    exact List.mem_append_right _ (List.mem_singleton_self _)
  · exact Function.update_self ..

/-- From 255 further references on, 255 frees put a frame back, whatever is still
owed for it. -/
theorem lost_references (index : physToIndex m.pmm addr = idx) (inRam : idx ≠ noIndex)
    (tables : m.pmm.refCountsAddr ≠ 0) (inside : idx < m.pmm.totalFrames)
    (single : m.pmm.refCounts idx = 1) (held : m.owed idx = 1) (room : m.pmm.stackTop + 1 < 2 ^ 32)
    {n : Nat} (many : 255 ≤ n) :
    idx ∈ ((List.replicate n (Request.incRef addr) ++ List.replicate 255 (Request.free addr)).foldl
        Referenced.after m).pmm.freeStack ∧
      ((List.replicate n (Request.incRef addr) ++ List.replicate 255 (Request.free addr)).foldl
        Referenced.after m).owed idx = n + 1 - 255 := by
  have counted : max (m.pmm.refCounts idx) (min 255 (m.pmm.refCounts idx + n)) = 255 := by omega
  have raised := foldl_incRef index inRam tables (by omega) n
  rw [counted] at raised
  rw [List.foldl_append, List.replicate_succ', List.foldl_append]
  generalize (List.replicate n (Request.incRef addr)).foldl Referenced.after m = m₁ at raised ⊢
  have indexRaised : physToIndex m₁.pmm addr = idx := by
    rw [raised]
    exact index
  have countRaised : m₁.pmm.refCounts idx = 255 := by
    rw [raised]
    exact Function.update_self ..
  have owedRaised : m₁.owed idx = n + 1 := by
    rw [raised]
    exact (Function.update_self ..).trans (by omega)
  have topRaised : m₁.pmm.stackTop = m.pmm.stackTop := by rw [raised]
  have insideRaised : idx < m₁.pmm.totalFrames := by
    rw [raised]
    exact inside
  have lowered := foldl_free indexRaised inRam insideRaised (show 254 < _ by omega)
  generalize (List.replicate 254 (Request.free addr)).foldl Referenced.after m₁ = m₂ at lowered ⊢
  have indexLowered : physToIndex m₂.pmm addr = idx := by
    rw [lowered]
    exact indexRaised
  have last := after_free_last indexLowered inRam (by rw [lowered]; exact insideRaised)
    (by rw [lowered]; exact (Function.update_self ..).trans (by omega))
    (by rw [lowered]; exact topRaised ▸ room)
  refine ⟨last.1, last.2.trans ?_⟩
  have owedLowered : m₂.owed idx = n + 1 - 254 := by
    rw [lowered]
    exact (Function.update_self ..).trans (by omega)
  omega

end Saturation

/-- The last state of a run that is not empty is the target of one of its steps. -/
theorem exists_target {m last : Referenced} {path : List (Transition Referenced Request)}
    (run : Execution ReferenceStep m path last) (nonempty : path ≠ []) :
    ∃ transition ∈ path, transition.target = last := by
  cases run with
  | nil => exact absurd rfl nonempty
  | snoc before taken => exact ⟨_, List.mem_append_right _ (List.mem_singleton_self _), rfl⟩

/-- 255 references beside the first, and 255 frees: the frame is on the free
stack with one free still owed. -/
theorem exists_frame_put_back :
    ∃ path last, Execution ReferenceStep (unowed 0x40001000 0x8000) path last ∧
      path.map (·.label) = .alloc :: (List.replicate 255 (.incRef 0x40007000) ++
        List.replicate 255 (.free 0x40007000)) ∧
      7 ∈ last.pmm.freeStack ∧ last.owed 7 = 1 ∧ ¬ ∀ transition ∈ path, FramesKept transition := by
  have lost := lost_references (m := (unowed 0x40001000 0x8000).after .alloc)
    (show physToIndex _ 0x40007000 = 7 by decide +kernel) (by decide) (by decide +kernel)
    (by decide +kernel) (by decide +kernel) (by decide +kernel) (by decide +kernel) (Nat.le_refl 255)
  generalize List.replicate 255 (Request.incRef 0x40007000) ++
    List.replicate 255 (Request.free 0x40007000) = rest at lost ⊢
  rcases exists_execution (.alloc :: rest) (unowed 0x40001000 0x8000) with ⟨path, run, labels⟩
  rw [List.foldl_cons] at run
  refine ⟨path, _, run, labels, lost.1, lost.2, ?_⟩
  intro kept
  rcases exists_target run (fun empty => by rw [empty] at labels; cases labels) with
    ⟨transition, member, target⟩
  apply (kept transition member).notFree 7
  · rw [target]
    exact Nat.lt_of_lt_of_le Nat.zero_lt_one (Nat.le_of_eq lost.2.symm)
  · rw [target]
    exact lost.1

end UniKernel.Pmm
