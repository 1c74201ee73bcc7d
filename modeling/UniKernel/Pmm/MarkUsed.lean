import Mathlib.Data.List.Perm.Basic
import UniKernel.Pmm.References

/-!
Owns `pmm_mark_used_region`. Each iteration of the outer loop takes one index
off the stack, so a region that starts in RAM loses exactly the frames that it
overlaps. The counts stay as they are: a frame that was free has no reference
afterwards, unlike the frames that `pmm_init` reserves.
-/

namespace UniKernel.Pmm

open UniKernel.Lib

/-! ### States after `pmm_init` -/

/-- What `pmm_init` sets up and no call changes: RAM has `totalFrames` whole
frames, the stack holds indices of them, and there is a table of counts. -/
structure Ready (s : State) : Prop where
  ram : (s.phyRamEnd - phyRamBase) / pageSize = s.totalFrames
  small : s.totalFrames < 2 ^ 32
  counter : s.usedFrames < 2 ^ 32
  tables : s.refCountsAddr ≠ 0
  onStack : ∀ idx ∈ s.freeStack, idx < s.totalFrames

/-- Nothing but the stack, the counts and the counter changes. -/
structure SameRam (s s' : State) : Prop where
  ramEnd : s'.phyRamEnd = s.phyRamEnd
  total : s'.totalFrames = s.totalFrames
  tables : s'.refCountsAddr = s.refCountsAddr

section Ready

variable {s s' : State} {idx target : Nat}

theorem Ready.keeps (ready : Ready s) (same : SameRam s s') (counter : s'.usedFrames < 2 ^ 32)
    (onStack : ∀ idx ∈ s'.freeStack, idx < s.totalFrames) : Ready s' := by
  refine ⟨?_, ?_, counter, ?_, ?_⟩
  · rw [same.ramEnd, same.total]
    exact ready.ram
  · rw [same.total]
    exact ready.small
  · rw [same.tables]
    exact ready.tables
  · rw [same.total]
    exact onStack

theorem u32_lt (value : Nat) : u32 value < 2 ^ 32 := Nat.mod_lt _ (by decide)

/-- A push puts one index on the stack, or empties it when the top wraps. -/
theorem mem_freeStack_pushFrame (member : idx ∈ (pushFrame target s).freeStack) :
    idx ∈ s.freeStack ∨ idx = target := by
  rcases mem_freeStack_iff.mp member with ⟨slot, below, holds⟩
  have wraps : u32 (s.stackTop + 1) ≤ s.stackTop + 1 := Nat.mod_le _ _
  change slot < u32 (s.stackTop + 1) at below
  change Function.update s.frameStack s.stackTop target slot = idx at holds
  rw [Function.update_apply] at holds
  split at holds
  · exact Or.inr holds.symm
  · exact Or.inl (mem_freeStack_iff.mpr ⟨slot, by omega, holds⟩)

theorem Ready.pushFrame (ready : Ready s) (inside : idx < s.totalFrames) :
    Ready (pushFrame idx s) := by
  refine ready.keeps ⟨rfl, rfl, rfl⟩ (u32_lt _) ?_
  intro other member
  rcases mem_freeStack_pushFrame member with before | rfl
  · exact ready.onStack other before
  · exact inside

theorem Ready.setCounts (ready : Ready s) (counts : Nat → Nat) :
    Ready { s with refCounts := counts } :=
  ⟨ready.ram, ready.small, ready.counter, ready.tables, ready.onStack⟩

theorem Ready.markFrame (ready : Ready s) (target : Nat) : Ready (markFrame target s) := by
  have shrinks : ∀ idx ∈ (Pmm.markFrame target s).freeStack, idx < s.totalFrames :=
    fun idx member => ready.onStack idx (mem_freeStack_markFrame member)
  unfold Pmm.markFrame at shrinks ⊢
  generalize findSlot s target s.stackTop 0 = found at shrinks ⊢
  cases found with
  | none => exact ready
  | some slot => exact ready.keeps ⟨rfl, rfl, rfl⟩ (u32_lt _) shrinks

theorem Ready.step {request : Request} (ready : Ready s) (step : RequestStep s request s') :
    Ready s' := by
  subst step
  cases request with
  | alloc =>
      unfold Request.perform pmmAllocFrame
      dsimp only
      split
      · exact ready
      · next nonempty =>
          refine ready.keeps ⟨rfl, rfl, rfl⟩ (u32_lt _) ?_
          intro idx member
          rcases mem_freeStack_iff.mp member with ⟨slot, below, holds⟩
          dsimp only at below holds
          exact ready.onStack idx (mem_freeStack_iff.mpr ⟨slot, by omega, holds⟩)
  | incRef addr =>
      unfold Request.perform pmmIncRef
      dsimp only
      split
      · split
        · exact ready.setCounts _
        · exact ready
      · exact ready
  | free addr =>
      unfold Request.perform
      by_cases pushes : Pushes addr s
      · dsimp only
        rw [pmmFreeFrame_of_pushes pushes]
        exact (ready.setCounts _).pushFrame pushes.2.1
      · rcases pmmFreeFrame_of_not_pushes pushes with ⟨same, -⟩ | ⟨-, same⟩
        · dsimp only
          rw [same]
          exact ready
        · dsimp only
          rw [same]
          exact ready.setCounts _
  | markUsed base size =>
      unfold Request.perform pmmMarkUsedRegion
      dsimp only
      split
      · exact ready
      · generalize physToIndex s (u64 (base + size + pageSize - 1)) - physToIndex s base = count
        induction count with
        | zero => exact ready
        | succ count inductionHypothesis => exact inductionHypothesis.markFrame _

theorem Ready.initFrame (ready : Ready s) (reservedEnd : Nat) (inside : idx < s.totalFrames) :
    Ready (initFrame reservedEnd idx s) ∧ SameRam s (initFrame reservedEnd idx s) := by
  unfold Pmm.initFrame
  dsimp only
  split
  · exact ⟨ready.keeps ⟨rfl, rfl, rfl⟩ (u32_lt _) ready.onStack, rfl, rfl, rfl⟩
  · split
    · refine ⟨ready.keeps ⟨rfl, rfl, rfl⟩ ready.counter ?_, rfl, rfl, rfl⟩
      intro other member
      rcases mem_freeStack_pushFrame (s := s) member with before | rfl
      · exact ready.onStack other before
      · exact inside
    · exact ⟨ready.setCounts _, rfl, rfl, rfl⟩

end Ready

/-- RAM that ends below the last 44 bits of addresses. -/
theorem ready_pmmInit {kernelEnd ramSize : Nat} (fits : ramSize / pageSize < 2 ^ 32)
    (tables : refCountsStart kernelEnd ramSize ≠ 0) :
    Ready (pmmInit kernelEnd ramSize State.zero) := by
  unfold pmmInit
  simp only [pageSize] at fits
  have noWrap : u64 (phyRamBase + ramSize) = phyRamBase + ramSize :=
    u64_of_lt (by simp only [phyRamBase]; omega)
  have total : u32 (ramSize / pageSize) = ramSize / pageSize := u32_of_lt fits
  dsimp only
  rw [noWrap, total]
  generalize isStart : ({ State.zero with
    phyRamSize := ramSize
    phyRamEnd := phyRamBase + ramSize
    totalFrames := ramSize / pageSize
    stackCapacity := ramSize / pageSize
    stackTop := 0
    refCountsAddr := refCountsStart kernelEnd ramSize } : State) = start
  have ready : Ready start := by
    rw [← isStart]
    refine ⟨?_, fits, Nat.two_pow_pos 32, tables, fun idx member => absurd member List.not_mem_nil⟩
    dsimp only
    rw [Nat.add_sub_cancel_left]
  have isTotal : start.totalFrames = ramSize / pageSize := by rw [← isStart]
  have loop : ∀ count ≤ ramSize / pageSize,
      Ready (initFrames (pmmReservedEnd kernelEnd ramSize) count start) ∧
        (initFrames (pmmReservedEnd kernelEnd ramSize) count start).totalFrames =
          ramSize / pageSize := by
    intro count le
    induction count with
    | zero => exact ⟨ready, isTotal⟩
    | succ count inductionHypothesis =>
        rcases inductionHypothesis (Nat.le_of_succ_le le) with ⟨before, isBefore⟩
        have step := before.initFrame (pmmReservedEnd kernelEnd ramSize)
          (Nat.lt_of_lt_of_le le (Nat.le_of_eq isBefore.symm))
        exact ⟨step.1, step.2.total.trans isBefore⟩
  exact (loop _ (Nat.le_refl _)).1

/-- Whatever is called after `pmm_init`. -/
theorem ready_of_run {kernelEnd ramSize : Nat} (fits : ramSize / pageSize < 2 ^ 32)
    (tables : refCountsStart kernelEnd ramSize ≠ 0) {path : List (Transition State Request)}
    {last : State} (run : Execution RequestStep (pmmInit kernelEnd ramSize State.zero) path last) :
    Ready last :=
  run.invariant (ready_pmmInit fits tables) fun _ _ _ ready step => ready.step step

/-! ### One frame -/

/-- `s'` is `s` without the marked indices on its stack, and the counter grew by
their number. -/
structure Unstacked (s s' : State) (marked : Nat → Prop) : Prop where
  distinct : s'.freeStack.Nodup
  free_iff : ∀ idx, idx ∈ s'.freeStack ↔ idx ∈ s.freeStack ∧ ¬ marked idx
  top : s'.stackTop ≤ s.stackTop
  used : s'.usedFrames = u32 (s.usedFrames + (s.stackTop - s'.stackTop))
  counts : s'.refCounts = s.refCounts
  ram : SameRam s s'

section Marking

variable {s middle s' : State} {idx target base size : Nat} {marked also : Nat → Prop}

theorem Unstacked.none (distinct : s.freeStack.Nodup) (counter : s.usedFrames < 2 ^ 32)
    (absent : ∀ idx ∈ s.freeStack, ¬ marked idx) : Unstacked s s marked := by
  refine ⟨distinct, ?_, Nat.le_refl _, ?_, rfl, rfl, rfl, rfl⟩
  · exact fun idx => ⟨fun member => ⟨member, absent idx member⟩, fun both => both.1⟩
  · rw [Nat.sub_self, Nat.add_zero, u32_of_lt counter]

theorem Unstacked.trans (first : Unstacked s middle marked) (second : Unstacked middle s' also) :
    Unstacked s s' fun idx => marked idx ∨ also idx := by
  refine ⟨second.distinct, ?_, Nat.le_trans second.top first.top, ?_,
    second.counts.trans first.counts, ?_⟩
  · intro idx
    rw [second.free_iff, first.free_iff, not_or, and_assoc]
  · have lower := first.top
    have lowest := second.top
    rw [second.used, first.used]
    unfold u32
    omega
  · exact ⟨second.ram.ramEnd.trans first.ram.ramEnd, second.ram.total.trans first.ram.total,
      second.ram.tables.trans first.ram.tables⟩

theorem Unstacked.congr (unstacked : Unstacked s s' marked)
    (same : ∀ idx ∈ s.freeStack, marked idx ↔ also idx) : Unstacked s s' also := by
  refine ⟨unstacked.distinct, ?_, unstacked.top, unstacked.used, unstacked.counts, unstacked.ram⟩
  intro idx
  rw [unstacked.free_iff]
  exact and_congr_right fun member => not_congr (same idx member)

theorem findSlot_eq_none {remaining start : Nat} (missed : findSlot s target remaining start = none) :
    ∀ slot, start ≤ slot → slot < start + remaining → s.frameStack slot ≠ target := by
  induction remaining generalizing start with
  | zero =>
      intro slot above below
      omega
  | succ remaining inductionHypothesis =>
      intro slot above below
      rw [findSlot] at missed
      split at missed
      · cases missed
      · next elsewhere =>
          by_cases here : slot = start
          · rw [here]
            exact elsewhere
          · exact inductionHypothesis missed slot (by omega) (by omega)

/-- No slot below the top holds what another one does. -/
theorem nodup_freeStack_iff : s.freeStack.Nodup ↔
    ∀ slot < s.stackTop, ∀ other < s.stackTop, s.frameStack slot = s.frameStack other → slot = other := by
  unfold State.freeStack
  rw [List.nodup_map_iff_inj_on List.nodup_range]
  simp only [List.mem_range]

/-- The last slot moves into the one of the index that is taken off. -/
theorem markFrame_unstacked (distinct : s.freeStack.Nodup) (counter : s.usedFrames < 2 ^ 32)
    (target : Nat) : Unstacked s (markFrame target s) (· = target) := by
  unfold markFrame
  cases found : findSlot s target s.stackTop 0 with
  | none =>
      apply Unstacked.none distinct counter
      rintro idx member rfl
      rcases mem_freeStack_iff.mp member with ⟨slot, below, holds⟩
      exact findSlot_eq_none found slot (Nat.zero_le _) (by omega) holds
  | some slot =>
      have below := findSlot_below found
      have holds := (findSlot_eq_some found).2.2
      have once := nodup_freeStack_iff.mp distinct
      have moved : ∀ other < s.stackTop - 1,
          Function.update s.frameStack slot (s.frameStack (s.stackTop - 1)) other =
            s.frameStack (if other = slot then s.stackTop - 1 else other) := by
        intro other _
        rw [Function.update_apply]
        split
        · rfl
        · rfl
      refine ⟨?_, ?_, Nat.sub_le _ _, ?_, rfl, rfl, rfl, rfl⟩
      · rw [nodup_freeStack_iff]
        dsimp only
        intro first firstBelow second secondBelow same
        rw [moved first firstBelow, moved second secondBelow] at same
        have sameSlot := once _ (by split <;> omega) _ (by split <;> omega) same
        split at sameSlot <;> split at sameSlot <;> omega
      · intro idx
        rw [mem_freeStack_iff, mem_freeStack_iff]
        dsimp only
        constructor
        · rintro ⟨other, otherBelow, isIdx⟩
          rw [moved other otherBelow] at isIdx
          refine ⟨⟨_, by split <;> omega, isIdx⟩, ?_⟩
          intro isTarget
          have sameSlot := once _ (by split <;> omega) slot below (isIdx.trans (isTarget.trans holds.symm))
          split at sameSlot <;> omega
        · rintro ⟨⟨other, otherBelow, isIdx⟩, notTarget⟩
          have elsewhere : other ≠ slot := by
            intro here
            exact notTarget (isIdx.symm.trans (here ▸ holds))
          by_cases isLast : other = s.stackTop - 1
          · refine ⟨slot, by omega, ?_⟩
            rw [Function.update_self, ← isLast]
            exact isIdx
          · refine ⟨other, by omega, ?_⟩
            rw [Function.update_of_ne elsewhere]
            exact isIdx
      · dsimp only
        rw [Nat.sub_sub_self (by omega)]

theorem markFrames_unstacked (distinct : s.freeStack.Nodup) (counter : s.usedFrames < 2 ^ 32)
    (startIdx count : Nat) :
    Unstacked s (markFrames startIdx count s) fun idx => startIdx ≤ idx ∧ idx < startIdx + count := by
  induction count with
  | zero => exact Unstacked.none distinct counter fun idx _ within => by omega
  | succ count inductionHypothesis =>
      have counterNow : (markFrames startIdx count s).usedFrames < 2 ^ 32 := by
        rw [inductionHypothesis.used]
        exact u32_lt _
      have last := markFrame_unstacked inductionHypothesis.distinct counterNow (startIdx + count)
      apply (inductionHypothesis.trans last).congr
      intro idx _
      omega

/-! ### A region -/

/-- Frame `idx` has a byte in the `size` bytes from `base` on. -/
def Overlaps (base size idx : Nat) : Prop :=
  phyRamBase + idx * pageSize < base + size ∧ base < phyRamBase + (idx + 1) * pageSize

instance (base size idx : Nat) : Decidable (Overlaps base size idx) :=
  inferInstanceAs (Decidable (_ ∧ _))

/-- A frame in use, like those that `pmm_init` reserves: it has a reference, and
taking one more and giving it back does not free the frame. -/
structure Held (s : State) (idx : Nat) : Prop where
  referenced : 0 < s.refCounts idx
  kept : idx ∉ (pmmFreeFrame (indexToPhys idx) (pmmIncRef (indexToPhys idx) s)).freeStack

/-- Exactly the free frames that overlap the region are taken, and are held from
then on. The counter has 32 bits. -/
structure MarksUsed (base size : Nat) (s s' : State) : Prop where
  distinct : s'.freeStack.Nodup
  free_iff : ∀ idx, idx ∈ s'.freeStack ↔ idx ∈ s.freeStack ∧ ¬ Overlaps base size idx
  used : s'.usedFrames =
    u32 (s.usedFrames + (s.freeStack.filter fun idx => Overlaps base size idx).length)
  held : ∀ idx ∈ s.freeStack, idx ∉ s'.freeStack → Held s' idx

theorem Ready.physToIndex_eq (ready : Ready s) {addr : Nat} (above : phyRamBase ≤ addr)
    (below : addr < s.phyRamEnd) : physToIndex s addr = (addr - phyRamBase) / pageSize := by
  have ram := ready.ram
  have small := ready.small
  unfold physToIndex
  simp only [phyRamBase, pageSize, pageShift, Nat.shiftRight_eq_div_pow] at *
  rw [if_neg (by omega), u32_of_lt]
  omega

theorem physToIndex_outside {addr : Nat} (outside : addr < phyRamBase ∨ s.phyRamEnd ≤ addr) :
    physToIndex s addr = noIndex := if_pos outside

/-- In RAM, the loops of `pmm_mark_used_region` go over the overlapping frames. -/
theorem Ready.marked_iff (ready : Ready s) (above : phyRamBase ≤ base) (below : base < s.phyRamEnd)
    (positive : 0 < size) (noWrap : base + size < 2 ^ 64) (inside : idx < s.totalFrames) :
    physToIndex s base ≤ idx ∧ idx < physToIndex s (u64 (base + size + pageSize - 1)) ↔
      Overlaps base size idx := by
  have ram := ready.ram
  have small := ready.small
  rw [ready.physToIndex_eq above below]
  by_cases endInside : base + size + pageSize - 1 < s.phyRamEnd
  · have ramEnd : s.phyRamEnd < 2 ^ 64 := by
      simp only [phyRamBase, pageSize] at ram
      omega
    rw [u64_of_lt (Nat.lt_trans endInside ramEnd), ready.physToIndex_eq _ endInside]
    · unfold Overlaps
      simp only [phyRamBase, pageSize] at *
      omega
    · simp only [phyRamBase, pageSize] at *
      omega
  · have outside : u64 (base + size + pageSize - 1) < phyRamBase ∨
        s.phyRamEnd ≤ u64 (base + size + pageSize - 1) := by
      unfold u64
      simp only [phyRamBase, pageSize] at *
      omega
    rw [physToIndex_outside outside]
    unfold Overlaps
    simp only [phyRamBase, pageSize, noIndex] at *
    omega

/-- The free frames that a call takes: none if the region starts below RAM. -/
theorem pmmMarkUsedRegion_unstacked (ready : Ready s) (distinct : s.freeStack.Nodup)
    (positive : 0 < size) (noWrap : base + size < 2 ^ 64) :
    Unstacked s (pmmMarkUsedRegion base size s) fun idx =>
      phyRamBase ≤ base ∧ Overlaps base size idx := by
  have ram := ready.ram
  have small := ready.small
  unfold pmmMarkUsedRegion
  dsimp only
  by_cases start : physToIndex s base = noIndex
  · rw [if_pos start]
    apply Unstacked.none distinct ready.counter
    rintro idx member ⟨above, overlaps⟩
    have inside := ready.onStack idx member
    by_cases below : base < s.phyRamEnd
    · have marked := (ready.marked_iff above below positive noWrap inside).mpr overlaps
      rw [start] at marked
      simp only [noIndex] at marked
      omega
    · unfold Overlaps at overlaps
      simp only [phyRamBase, pageSize] at *
      omega
  · have inRam : phyRamBase ≤ base ∧ base < s.phyRamEnd := by
      by_contra outside
      exact start (physToIndex_outside (by omega))
    rw [if_neg start]
    apply (markFrames_unstacked distinct ready.counter _ _).congr
    intro idx member
    have marked := ready.marked_iff inRam.1 inRam.2 positive noWrap (ready.onStack idx member)
    rw [← marked]
    omega

/-- A pair of calls on a frame with a reference changes no more than its count. -/
theorem Ready.held (ready : Ready s) (inside : idx < s.totalFrames) (used : idx ∉ s.freeStack)
    (referenced : 0 < s.refCounts idx) : Held s idx := by
  have ram := ready.ram
  have small := ready.small
  have index : physToIndex s (indexToPhys idx) = idx := by
    rw [indexToPhys_of_small (by omega), ready.physToIndex_eq]
    · simp only [phyRamBase, pageSize]
      omega
    · simp only [phyRamBase, pageSize]
      omega
    · simp only [phyRamBase, pageSize] at *
      omega
  have isIndex : idx ≠ noIndex := by
    simp only [noIndex]
    omega
  refine ⟨referenced, ?_⟩
  have kept : ∀ s' : State, s'.freeStack = s.freeStack → physToIndex s' (indexToPhys idx) = idx →
      1 < s'.refCounts idx → idx ∉ (pmmFreeFrame (indexToPhys idx) s').freeStack := by
    intro s' same isSame shared
    have notPushes : ¬ Pushes (indexToPhys idx) s' := by
      rintro ⟨-, -, last | ⟨unused, -⟩⟩
      · rw [isSame] at last
        omega
      · rw [isSame] at unused
        omega
    rcases pmmFreeFrame_of_not_pushes notPushes with ⟨unchanged, -⟩ | ⟨-, changed⟩
    · rw [unchanged, same]
      exact used
    · rw [changed]
      change idx ∉ s'.freeStack
      rw [same]
      exact used
  unfold pmmIncRef
  dsimp only
  rw [index, if_pos ⟨isIndex, ready.tables⟩]
  by_cases room : s.refCounts idx < 255
  · rw [if_pos room]
    have shared : 1 < Function.update s.refCounts idx (s.refCounts idx + 1) idx := by
      rw [Function.update_self]
      omega
    exact kept { s with refCounts := Function.update s.refCounts idx (s.refCounts idx + 1) } rfl index
      shared
  · rw [if_neg room]
    exact kept s rfl index (by omega)

/-- A region is marked as used exactly when each free frame that it overlaps has
a reference already, and the region does not start below RAM. -/
theorem marks_used_iff (ready : Ready s) (distinct : s.freeStack.Nodup) (positive : 0 < size)
    (noWrap : base + size < 2 ^ 64) :
    MarksUsed base size s (pmmMarkUsedRegion base size s) ↔
      ∀ idx ∈ s.freeStack, Overlaps base size idx → phyRamBase ≤ base ∧ 0 < s.refCounts idx := by
  have taken := pmmMarkUsedRegion_unstacked ready distinct positive noWrap
  have counts := taken.counts
  constructor
  · intro marks idx member overlaps
    have gone : idx ∉ (pmmMarkUsedRegion base size s).freeStack :=
      fun stays => ((marks.free_iff idx).mp stays).2 overlaps
    have referenced := (marks.held idx member gone).referenced
    rw [counts] at referenced
    refine ⟨?_, referenced⟩
    by_contra below
    exact gone ((taken.free_iff idx).mpr ⟨member, fun both => below both.1⟩)
  · intro condition
    have exact : Unstacked s (pmmMarkUsedRegion base size s) (Overlaps base size) := by
      apply taken.congr
      exact fun idx member => ⟨fun both => both.2, fun overlaps => ⟨(condition idx member overlaps).1, overlaps⟩⟩
    have stays : Ready (pmmMarkUsedRegion base size s) :=
      Ready.step ready (show RequestStep s (.markUsed base size) _ from rfl)
    refine ⟨taken.distinct, exact.free_iff, ?_, ?_⟩
    · have left : (s.freeStack.filter fun idx => ¬ Overlaps base size idx).length =
          (pmmMarkUsedRegion base size s).stackTop := by
        rw [← length_freeStack]
        apply List.Perm.length_eq
        rw [List.perm_ext_iff_of_nodup (distinct.filter _) exact.distinct]
        intro idx
        rw [List.mem_filter, decide_eq_true_iff, exact.free_iff]
      have both := List.length_eq_length_filter_add (l := s.freeStack)
        fun idx => decide (Overlaps base size idx)
      rw [length_freeStack] at both
      rw [exact.used, ← left]
      congr 2
      simp only [decide_not] at left ⊢
      omega
    · intro idx member gone
      have overlaps : Overlaps base size idx := by
        by_contra apart
        exact gone ((exact.free_iff idx).mpr ⟨member, apart⟩)
      apply stays.held _ gone
      · rw [counts]
        exact (condition idx member overlaps).2
      · rw [taken.ram.total]
        exact ready.onStack idx member

end Marking

/-- Frame 4 of eight is free and has a reference when it is marked as used. -/
theorem marks_used_referenced_frame :
    4 ∈ (pmmIncRef 0x40004000 eightFrames).freeStack ∧
      MarksUsed 0x40004800 0x100 (pmmIncRef 0x40004000 eightFrames)
        (pmmMarkUsedRegion 0x40004800 0x100 (pmmIncRef 0x40004000 eightFrames)) := by
  have ready : Ready (pmmIncRef 0x40004000 eightFrames) :=
    (ready_pmmInit (by decide) (by decide)).step
      (show RequestStep eightFrames (.incRef 0x40004000) _ from rfl)
  refine ⟨by decide +kernel, ?_⟩
  apply (marks_used_iff ready (by decide +kernel) (by decide) (by decide)).mpr
  decide +kernel

/-- Frame 4 of eight is marked as used. A reference to it, taken and given back,
puts it onto the free stack. -/
theorem exists_marked_frame_freed :
    4 ∈ eightFrames.freeStack ∧
      4 ∉ (pmmMarkUsedRegion 0x40004000 0x1000 eightFrames).freeStack ∧
      4 ∈ (pmmFreeFrame 0x40004000 (pmmIncRef 0x40004000
        (pmmMarkUsedRegion 0x40004000 0x1000 eightFrames))).freeStack ∧
      ¬ MarksUsed 0x40004000 0x1000 eightFrames (pmmMarkUsedRegion 0x40004000 0x1000 eightFrames) := by
  have taken : 4 ∉ (pmmMarkUsedRegion 0x40004000 0x1000 eightFrames).freeStack := by decide +kernel
  have again : 4 ∈ (pmmFreeFrame 0x40004000 (pmmIncRef 0x40004000
      (pmmMarkUsedRegion 0x40004000 0x1000 eightFrames))).freeStack := by decide +kernel
  refine ⟨by decide +kernel, taken, again, ?_⟩
  intro marks
  exact (marks.held 4 (by decide +kernel) taken).kept again

end UniKernel.Pmm
