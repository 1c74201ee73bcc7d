import UniKernel.Net.Rings
import UniKernel.Pmm.Popped

/-!
Owns `net_rx_fill` with its stores at the addresses of the rings, for every queue size and
every number of free frames: how far its loop gets, what the avail index it then writes
publishes, and from which entry on the available ring overwrites the descriptors. The index
is that of a loop that got to the end.
-/

namespace UniKernel.Net

open UniKernel.Lib
open UniKernel.Pmm (Popped Consistent indexToPhys)

/-! ### `net_rx_fill` -/

/-- `VIRTIO_REG_QUEUE_NOTIFY` -/
@[simp] def regQueueNotify : Nat := 0x050

/-- `rxq.desc[i] = desc;`, field by field. -/
def writeDesc (addr : Nat) (desc : Desc) : InitM Unit :=
  modify fun s => { s with mem := storeDesc addr desc s.mem }

/-- A store to a 16-bit field of the rings. -/
def writeRing (addr value : Nat) : InitM Unit :=
  modify fun s => { s with mem := s.mem.store addr 2 value }

namespace Rings

/-- The body of the loop of `net_rx_fill`, and whether it goes on. -/
def rxFillOnce (rxq : QueueBase) (i : Nat) : InitM Bool := do
  let phys ← allocFrame
  if phys = 0 then return false
  writeDesc (rxq.descAt i) ⟨phys, 4096, descFlagWrite, 0⟩
  writeRing (rxq.availAt (i % rxq.qsize)) i
  return true

/-- The loop after `count` iterations. -/
def rxFillLoop (rxq : QueueBase) : Nat → InitM Bool
  | 0 => pure true
  | i + 1 => do
      if ← rxFillLoop rxq i then rxFillOnce rxq i
      else return false

def netRxFill (rxq : QueueBase) : InitM Unit := do
  let _ ← rxFillLoop rxq rxq.qsize
  writeRing rxq.availIdxAt rxq.qsize
  write32 regQueueNotify 0

end Rings

section Loop

variable {rxq : QueueBase} {s filled : InitState} {count : Nat}

/-- The frame the loop gets after `count` others. -/
def InitState.rxFrame (s : InitState) (count : Nat) : Nat :=
  indexToPhys (s.frames.pmm.frameStack (s.frames.pmm.stackTop - 1 - count))

/-- The loop went through `count` descriptors. The entries are in the available ring; as long
as they fit into its page, each descriptor holds its frame. -/
structure Given (rxq : QueueBase) (before : InitState) (count : Nat) (after : InitState) : Prop where
  stack : after.frames.pmm.frameStack = before.frames.pmm.frameStack
  top : after.frames.pmm.stackTop + count = before.frames.pmm.stackTop
  entry : ∀ i < count, after.mem.load (rxq.availAt i) 2 = u16 i
  desc : count ≤ 2046 → ∀ i < count,
    loadDesc after.mem (rxq.descAt i) = ⟨before.rxFrame i, 4096, descFlagWrite, 0⟩

theorem rxDesc_fits (s : InitState) (i : Nat) : Desc.Fits ⟨s.rxFrame i, 4096, descFlagWrite, 0⟩ :=
  ⟨Nat.mod_lt _ (by decide), show 4096 < 2 ^ 32 by decide, show 2 < 2 ^ 16 by decide,
    show 0 < 2 ^ 16 by decide⟩

theorem Given.none (rxq : QueueBase) (s : InitState) : Given rxq s 0 s :=
  ⟨rfl, rfl, fun i below => absurd below (Nat.not_lt_zero i),
    fun _ i below => absurd below (Nat.not_lt_zero i)⟩

/-- The memory behind one iteration that finds a frame. -/
def Given.memory (rxq : QueueBase) (s filled : InitState) (count : Nat) : Memory :=
  (storeDesc (rxq.descAt count) ⟨s.rxFrame count, 4096, descFlagWrite, 0⟩ filled.mem).store
    (rxq.availAt count) 2 count

/-- One iteration that finds a frame. -/
theorem Given.succ (adjacent : rxq.Adjacent) (before : Given rxq s count filled)
    {after : InitState} (mem : after.mem = Given.memory rxq s filled count)
    (stack : after.frames.pmm.frameStack = filled.frames.pmm.frameStack)
    (top : after.frames.pmm.stackTop + 1 = filled.frames.pmm.stackTop) :
    Given rxq s (count + 1) after := by
  have bounds := adjacent.bounds
  have sum := before.top
  refine ⟨stack.trans before.stack, by omega, ?_, ?_⟩
  · intro i below
    rw [mem]
    unfold Given.memory
    rcases Nat.lt_succ_iff_lt_or_eq.mp below with earlier | rfl
    · rw [Memory.load_store_disjoint, load_storeDesc_apart, before.entry i earlier]
      · unfold QueueBase.availAt QueueBase.descAt
        omega
      · unfold QueueBase.availAt
        omega
    · exact Memory.load_store_same _ _ _ _
  · intro inPage i below
    rw [mem]
    unfold Given.memory
    -- the entry written last ends where the descriptors begin, or before
    have entryApart : rxq.availAt count + 2 ≤ rxq.descAt i := by
      unfold QueueBase.availAt QueueBase.descAt
      omega
    rw [loadDesc_store_apart (.inl entryApart)]
    rcases Nat.lt_succ_iff_lt_or_eq.mp below with earlier | rfl
    · rw [loadDesc_storeDesc_apart, before.desc (by omega) i earlier]
      unfold QueueBase.descAt
      omega
    · exact loadDesc_storeDesc (rxDesc_fits s i)

theorem rxFillLoop_succ (rxq : QueueBase) (count : Nat) (s : InitState) :
    Rings.rxFillLoop rxq (count + 1) s =
      if (Rings.rxFillLoop rxq count s).1 then
        Rings.rxFillOnce rxq count (Rings.rxFillLoop rxq count s).2
      else (false, (Rings.rxFillLoop rxq count s).2) := by
  have step : Rings.rxFillLoop rxq (count + 1) s =
      (if (Rings.rxFillLoop rxq count s).1 then Rings.rxFillOnce rxq count
        else pure false : InitM Bool) (Rings.rxFillLoop rxq count s).2 := rfl
  rw [step]
  split <;> rfl

theorem rxFillOnce_found (rxq : QueueBase) (count : Nat)
    (found : (Pmm.pmmAllocFrame filled.frames.pmm).1 ≠ 0) :
    Rings.rxFillOnce rxq count filled =
      (true, { filled with
        frames := allocHeld filled.frames
        mem := (storeDesc (rxq.descAt count)
          ⟨(Pmm.pmmAllocFrame filled.frames.pmm).1, 4096, descFlagWrite, 0⟩ filled.mem).store
            (rxq.availAt (count % rxq.qsize)) 2 count }) := by
  unfold Rings.rxFillOnce
  rw [allocFrame_bind, if_neg found]
  rfl

theorem rxFillOnce_empty (rxq : QueueBase) (count : Nat)
    (none : (Pmm.pmmAllocFrame filled.frames.pmm).1 = 0) :
    Rings.rxFillOnce rxq count filled =
      (false, { filled with frames := allocHeld filled.frames }) := by
  unfold Rings.rxFillOnce
  rw [allocFrame_bind, if_pos none]
  rfl

/-- The loop gives every descriptor a frame until there are none left. -/
theorem rxFillLoop_given
    (available : rxq.qsize ≠ 0 → s.frames.pmm.stackTop ≠ 0 → rxq.Adjacent)
    (consistent : Consistent s.frames.pmm) (inQueue : count ≤ rxq.qsize) :
    ∃ filled, Rings.rxFillLoop rxq count s =
        (decide (count ≤ s.frames.pmm.stackTop), filled) ∧
      Given rxq s (min count s.frames.pmm.stackTop) filled := by
  induction count with
  | zero =>
      refine ⟨s, ?_, ?_⟩
      · rw [decide_eq_true (Nat.zero_le _)]
        rfl
      · rw [Nat.zero_min]
        exact Given.none rxq s
  | succ count inductionHypothesis =>
      obtain ⟨filled, run, before⟩ := inductionHypothesis (by omega)
      have sum := before.top
      rw [rxFillLoop_succ, run]
      dsimp only
      rcases Nat.lt_trichotomy count s.frames.pmm.stackTop with frames | noFrame | stopped
      · have adjacent := available (by omega) (by omega)
        rw [Nat.min_eq_left (Nat.le_of_lt frames)] at before sum
        have nonempty : filled.frames.pmm.stackTop = (s.frames.pmm.stackTop - 1 - count) + 1 := by
          omega
        have allocated := Pmm.pmmAllocFrame_of_nonempty nonempty
        have small := consistent.frame_lt
          (show s.frames.pmm.stackTop - 1 - count < s.frames.pmm.stackTop by omega)
        have frame : (Pmm.pmmAllocFrame filled.frames.pmm).1 = s.rxFrame count := by
          rw [allocated, before.stack]
          rfl
        have slot : count % rxq.qsize = count := Nat.mod_eq_of_lt (by omega)
        have found : (Pmm.pmmAllocFrame filled.frames.pmm).1 ≠ 0 := by
          rw [frame]
          exact Pmm.indexToPhys_ne_zero small
        rw [decide_eq_true (Nat.le_of_lt frames), if_pos rfl, rxFillOnce_found rxq count found,
          decide_eq_true (Nat.succ_le_of_lt frames), Nat.min_eq_left (Nat.succ_le_of_lt frames),
          frame, slot]
        refine ⟨_, rfl, before.succ adjacent rfl ?_ ?_⟩
        · dsimp only
          rw [allocHeld_pmm, allocated]
        · dsimp only
          rw [allocHeld_pmm, allocated, nonempty]
      · rw [Nat.min_eq_left (Nat.le_of_eq noFrame)] at before sum
        have empty : filled.frames.pmm.stackTop = 0 := by omega
        have none := Pmm.pmmAllocFrame_of_empty empty
        rw [decide_eq_true (Nat.le_of_eq noFrame), if_pos rfl,
          rxFillOnce_empty rxq count (congrArg Prod.fst none), decide_eq_false (by omega),
          Nat.min_eq_right (by omega), ← noFrame]
        refine ⟨_, rfl, ?_, ?_, before.entry, before.desc⟩
        · dsimp only
          rw [allocHeld_pmm, none]
          exact before.stack
        · dsimp only
          rw [allocHeld_pmm, none]
          exact before.top
      · rw [Nat.min_eq_right (Nat.le_of_lt stopped)] at before
        rw [decide_eq_false (by omega), decide_eq_false (by omega), Nat.min_eq_right (by omega)]
        exact ⟨filled, rfl, before⟩

end Loop

/-! ### The arrays of `State` -/

section Arrays

variable {rxq : QueueBase} {s : InitState} {net : State} {count : Nat}

/-- The rings and the allocator of the driver's state are those of the memory. -/
structure DriverInMemory (rxq : QueueBase) (s : InitState) (net : State) : Prop where
  rings : InMemory s.mem rxq net.rxq
  pmm : net.pmm = s.frames.pmm

theorem rxFillLoop_inMemory (adjacent : rxq.Adjacent) (small : rxq.qsize ≤ 1024)
    (same : DriverInMemory rxq s net) (inQueue : count ≤ rxq.qsize) :
    ((rxFillLoop count).run net).1 = (Rings.rxFillLoop rxq count s).1 ∧
      DriverInMemory rxq (Rings.rxFillLoop rxq count s).2 ((rxFillLoop count).run net).2 := by
  induction count with
  | zero => exact ⟨rfl, same⟩
  | succ count inductionHypothesis =>
      obtain ⟨goesOn, before⟩ := inductionHypothesis (by omega)
      rw [rxFillLoop_succ]
      rcases known : (rxFillLoop count).run net with ⟨goes, filled⟩
      rw [known] at goesOn before
      dsimp only at goesOn before
      rw [rxFillLoop, run_bind_of_eq known, goesOn]
      by_cases continues : (Rings.rxFillLoop rxq count s).1 = true
      · rw [if_pos continues, if_pos continues, run_get_bind]
        by_cases none : (Pmm.pmmAllocFrame (Rings.rxFillLoop rxq count s).2.frames.pmm).1 = 0
        · rw [rxFillOnce_empty rxq count none, before.pmm]
          simp only [none]
          refine ⟨rfl, before.rings, ?_⟩
          exact (allocHeld_pmm _).symm
        · rw [rxFillOnce_found rxq count none, before.pmm]
          simp only [none]
          have slot : count % rxq.qsize < rxq.qsize := Nat.mod_lt _ (by omega)
          have desc := before.rings.storeDesc adjacent (show count < 1024 by omega)
            ⟨(Pmm.pmmAllocFrame (Rings.rxFillLoop rxq count s).2.frames.pmm).1, 4096,
              descFlagWrite, 0⟩
            ⟨pmmAllocFrame_lt _, show 4096 < 2 ^ 32 by decide, show 2 < 2 ^ 16 by decide,
              show 0 < 2 ^ 16 by decide⟩
          have entry := desc.storeAvail adjacent (show count % rxq.qsize < 1024 by omega) (u16 count)
            (u16_lt _)
          rw [u16_of_lt (by omega)] at entry
          have isEntry : u16 count = count := u16_of_lt (by omega)
          refine ⟨rfl, ?_, (allocHeld_pmm _).symm⟩
          have size := before.rings.qsize
          rw [← size] at entry ⊢
          simp only [isEntry]
          exact entry
      · rw [if_neg continues, if_neg continues]
        exact ⟨rfl, before⟩

/-- Up to 1024 entries the arrays that the other modules use for a queue are what the stores
by address leave in memory. -/
theorem netRxFill_inMemory (adjacent : rxq.Adjacent) (small : rxq.qsize ≤ 1024)
    (same : DriverInMemory rxq s net) :
    DriverInMemory rxq (Rings.netRxFill rxq s).2 (netRxFill.run net).2 := by
  have isRun : (netRxFill.run net).2 =
      { ((rxFillLoop net.rxq.qsize).run net).2 with
        rxq.availIdx := u16 ((rxFillLoop net.rxq.qsize).run net).2.rxq.qsize
        notified := ((rxFillLoop net.rxq.qsize).run net).2.notified ++ [0] } := rfl
  have filled := (rxFillLoop_inMemory adjacent small same (Nat.le_refl _)).2
  have published := filled.rings.storeAvailIdx adjacent rxq.qsize (by omega)
  have size := filled.rings.qsize
  rw [isRun, same.rings.qsize]
  refine ⟨?_, filled.pmm⟩
  rw [size, u16_of_lt (by omega)]
  exact published

end Arrays

/-! ### What is published -/

/-- The entries `0 .. avail->idx - 1` in memory name pairwise distinct descriptors, and each
of these was given a frame of its own, of 4096 bytes and for the device to write. -/
structure PublishesFilled (rxq : QueueBase) (before after : InitState) : Prop where
  distinct : ∀ i j, i < j → j < rxq.published after.mem →
    rxq.entry after.mem i ≠ rxq.entry after.mem j
  given : ∀ i < rxq.published after.mem, ∃ frame,
    Popped before.frames.pmm after.frames.pmm frame ∧
      rxq.descOf after.mem (rxq.entry after.mem i) = ⟨frame, 4096, descFlagWrite, 0⟩
  own : ∀ i j, i < j → j < rxq.published after.mem →
    (rxq.descOf after.mem (rxq.entry after.mem i)).addr ≠
      (rxq.descOf after.mem (rxq.entry after.mem j)).addr

section Publish

variable {rxq : QueueBase} {s after : InitState} {count : Nat}

/-- The index lies in front of the entries. -/
theorem Given.publish (available : count ≠ 0 → rxq.Adjacent) (given : Given rxq s count after)
    (value : Nat) :
    Given rxq s count { after with mem := after.mem.store rxq.availIdxAt 2 value } := by
  refine ⟨given.stack, given.top, ?_, ?_⟩
  · intro i below
    dsimp only
    rw [Memory.load_store_disjoint, given.entry i below]
    unfold QueueBase.availIdxAt QueueBase.availAt
    omega
  · intro inPage i below
    have bounds := (available (by omega)).bounds
    rw [loadDesc_store_apart, given.desc inPage i below]
    unfold QueueBase.descAt QueueBase.availIdxAt
    omega

theorem netRxFill_given
    (available : rxq.qsize ≠ 0 → s.frames.pmm.stackTop ≠ 0 → rxq.Adjacent)
    (consistent : Consistent s.frames.pmm) :
    Given rxq s (min rxq.qsize s.frames.pmm.stackTop) (Rings.netRxFill rxq s).2 ∧
      rxq.published (Rings.netRxFill rxq s).2.mem = u16 rxq.qsize := by
  obtain ⟨filled, run, given⟩ := rxFillLoop_given available consistent (Nat.le_refl _)
  have published : (Rings.netRxFill rxq s).2 =
      { filled with
        mem := filled.mem.store rxq.availIdxAt 2 rxq.qsize
        written := filled.written ++ [(regQueueNotify, 0)] } := by
    have steps : (Rings.netRxFill rxq s).2 =
        { (Rings.rxFillLoop rxq rxq.qsize s).2 with
          mem := (Rings.rxFillLoop rxq rxq.qsize s).2.mem.store rxq.availIdxAt 2 rxq.qsize
          written := (Rings.rxFillLoop rxq rxq.qsize s).2.written ++ [(regQueueNotify, 0)] } := rfl
    rw [steps, run]
  rw [published]
  have kept := given.publish (fun some => available (by omega) (by omega)) rxq.qsize
  exact ⟨⟨kept.stack, kept.top, kept.entry, kept.desc⟩, Memory.load_store_same _ _ _ _⟩

/-- What a filled entry names. -/
theorem Given.named {i : Nat} (given : Given rxq s count after) (below : i < count)
    (inPage : count ≤ 2046) :
    rxq.entry after.mem i = i ∧
      rxq.descOf after.mem i = ⟨s.rxFrame i, 4096, descFlagWrite, 0⟩ :=
  ⟨(given.entry i below).trans (u16_of_lt (by omega)), given.desc inPage i below⟩

/-- With frames for every published entry, and entries within their page, all of them are
filled. -/
theorem Given.publishesFilled (given : Given rxq s count after)
    (consistent : Consistent s.frames.pmm) (covered : rxq.published after.mem ≤ count)
    (inPage : count ≤ 2046) : PublishesFilled rxq s after := by
  have sum := given.top
  constructor
  · intro i j less below
    rw [(given.named (by omega) inPage).1, (given.named (by omega) inPage).1]
    omega
  · intro i below
    obtain ⟨entry, desc⟩ := given.named (show i < count by omega) inPage
    rw [entry]
    exact ⟨_, ⟨s.frames.pmm.stackTop - 1 - i, by omega, by omega, rfl⟩, desc⟩
  · intro i j less below same
    obtain ⟨entry, desc⟩ := given.named (show i < count by omega) inPage
    obtain ⟨otherEntry, otherDesc⟩ := given.named (show j < count by omega) inPage
    rw [entry, otherEntry, desc, otherDesc] at same
    have position := consistent.frame_inj (by omega) (by omega) same
    omega

/-- A published entry behind the last filled one names a descriptor that was not
filled, or one that was published before. -/
theorem Given.not_publishesFilled (given : Given rxq s count after)
    (exhausted : count = s.frames.pmm.stackTop) (beyond : count < rxq.published after.mem)
    (inPage : count ≤ 2046) : ¬ PublishesFilled rxq s after := by
  intro filled
  obtain ⟨frame, ⟨position, _, inStack, isFrame⟩, isDesc⟩ := filled.given count beyond
  have earlier : s.frames.pmm.stackTop - 1 - position < count := by omega
  obtain ⟨entry, desc⟩ := given.named earlier inPage
  apply filled.own _ _ earlier beyond
  have sameStack : s.frames.pmm.stackTop - 1 - (s.frames.pmm.stackTop - 1 - position) = position := by
    omega
  rw [isDesc, entry, desc]
  dsimp only
  unfold InitState.rxFrame
  rw [sameStack]
  exact isFrame.symm

/-- The low two bytes of a load. -/
theorem load_mod_two (mem : Memory) (addr width : Nat) :
    mem.load addr (width + 2) % 2 ^ 16 = mem.load addr 2 := by
  have first := (mem addr).toNat_lt
  have second := (mem (addr + 1)).toNat_lt
  simp only [Memory.load]
  omega

/-- Entry 2046 overwrites the address of the first descriptor, which then is no page. -/
theorem Given.overwritten (given : Given rxq s count after) (adjacent : rxq.Adjacent)
    (consistent : Consistent s.frames.pmm) (beyondPage : 2046 < count)
    (some : 0 < rxq.published after.mem) : ¬ PublishesFilled rxq s after := by
  intro filled
  obtain ⟨frame, ⟨position, _, inStack, isFrame⟩, isDesc⟩ := filled.given 0 some
  have first : rxq.entry after.mem 0 = 0 := given.entry 0 (by omega)
  have low : after.mem.load (rxq.descAt 0) 2 = 2046 := by
    rw [← adjacent.availAt_overlap]
    exact given.entry 2046 beyondPage
  have isAddr : after.mem.load (rxq.descAt 0) (6 + 2) = frame := by
    rw [first] at isDesc
    exact congrArg Desc.addr isDesc
  have lowAddr := load_mod_two after.mem (rxq.descAt 0) 6
  rw [isAddr, low, isFrame, Pmm.indexToPhys_of_lt (consistent.frame_lt inStack)] at lowAddr
  simp only [Pmm.phyRamBase, Pmm.pageSize] at lowAddr
  omega

end Publish

/-- For every queue size and every number of free frames: what `net_rx_fill` publishes is
filled if and only if there are frames for the entries of the 16-bit index it writes and,
unless that is 0, no entry is written behind the page of the available ring. -/
theorem netRxFill_publishesFilled_iff {rxq : QueueBase} {s : InitState}
    (available : rxq.qsize ≠ 0 → s.frames.pmm.stackTop ≠ 0 → rxq.Adjacent)
    (consistent : Consistent s.frames.pmm) :
    PublishesFilled rxq s (Rings.netRxFill rxq s).2 ↔
      u16 rxq.qsize ≤ s.frames.pmm.stackTop ∧
        (u16 rxq.qsize = 0 ∨ min rxq.qsize s.frames.pmm.stackTop ≤ 2046) := by
  obtain ⟨given, published⟩ := netRxFill_given available consistent
  have small := u16_lt rxq.qsize
  have shorter : u16 rxq.qsize ≤ rxq.qsize := Nat.mod_le _ _
  by_cases nothing : u16 rxq.qsize = 0
  · rw [nothing] at published
    refine iff_of_true ⟨?_, ?_, ?_⟩ ⟨by omega, .inl nothing⟩
    · intro i j _ below
      omega
    · intro i below
      omega
    · intro i j _ below
      omega
  · constructor
    · intro filled
      have inPage : min rxq.qsize s.frames.pmm.stackTop ≤ 2046 := by
        by_contra beyondPage
        have adjacent := available (by omega) (by omega)
        exact given.overwritten adjacent consistent (by omega) (by omega) filled
      refine ⟨?_, .inr inPage⟩
      by_contra beyond
      exact given.not_publishesFilled (by omega) (by omega) inPage filled
    · rintro ⟨enough, none | inPage⟩
      · exact absurd none nothing
      · exact given.publishesFilled consistent (by omega) inPage

/-- Both queues set up in 32 pages of RAM, with `rxMax` receive descriptors: 14 frames are
left for `net_rx_fill`. -/
def smallInit (rxMax : Nat) : (QueueBase × QueueBase) × InitState :=
  initQueues rxMax 16 ⟨0, 0, 0, 0, 0⟩ ⟨0, 0, 0, 0, 0⟩
    ⟨fun _ => 0, Pmm.booted 0x40001000 0x20000, []⟩

theorem smallInit_frames {rxMax : Nat} (some : rxMax ≠ 0) :
    (smallInit rxMax).1.1.Adjacent ∧ (smallInit rxMax).1.1.qsize = rxMax ∧
      Consistent (smallInit rxMax).2.frames.pmm ∧ (smallInit rxMax).2.frames.pmm.stackTop = 14 := by
  have layout : Pmm.BootLayout 0x40001000 0x20000 :=
    ⟨by decide, by decide, by decide, by decide, by decide⟩
  have top : (Pmm.booted 0x40001000 0x20000).pmm.stackTop = 14 + 16 := by
    have progress := Pmm.pmmInit_progress layout
    change (Pmm.pmmInit 0x40001000 0x20000 Pmm.State.zero).stackTop = _
    rw [progress.top]
    decide
  unfold smallInit
  exact (booted_ascending layout).initQueues top some (show 16 ≠ 0 by decide) _ _ rfl

/-- Four descriptors, and frames for all of them. -/
theorem netRxFill_publishesFilled_iff_four :
    PublishesFilled (smallInit 4).1.1 (smallInit 4).2
        (Rings.netRxFill (smallInit 4).1.1 (smallInit 4).2).2 ↔
      u16 (smallInit 4).1.1.qsize ≤ (smallInit 4).2.frames.pmm.stackTop ∧
        (u16 (smallInit 4).1.1.qsize = 0 ∨
          min (smallInit 4).1.1.qsize (smallInit 4).2.frames.pmm.stackTop ≤ 2046) := by
  obtain ⟨adjacent, -, consistent, -⟩ := smallInit_frames (show 4 ≠ 0 by decide)
  exact netRxFill_publishesFilled_iff (fun _ _ => adjacent) consistent

/-- Sixteen descriptors, and frames for fourteen of them. -/
theorem exists_unfilled_published :
    ¬ PublishesFilled (smallInit 16).1.1 (smallInit 16).2
      (Rings.netRxFill (smallInit 16).1.1 (smallInit 16).2).2 := by
  obtain ⟨adjacent, qsize, consistent, top⟩ := smallInit_frames (show 16 ≠ 0 by decide)
  obtain ⟨given, published⟩ := netRxFill_given (fun _ _ => adjacent) consistent
  have isIndex : u16 16 = 16 := rfl
  rw [qsize, isIndex] at published
  exact given.not_publishesFilled (by omega) (by omega) (by omega)

end UniKernel.Net
