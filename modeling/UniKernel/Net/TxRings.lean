import UniKernel.Net.Rings
import UniKernel.Net.Transmit

/-!
Owns the transmit queue with its rings as bytes: `net_send`, `net_cleanup_tx` and the device
load and store at the addresses that the source computes. As long as the packets stay within
the 1024 entries for which `virtio_init_queue` takes pages, the arrays are what the bytes
say, and the ownership of frames, descriptors and avail slots is that of the arrays.
-/

namespace UniKernel.Net

open UniKernel.Lib

/-! ### The driver -/

/-- The memory of the rings, the frame allocator and the two counters of the driver. The
packets are in frames of their own. -/
structure TxRings where
  mem : Memory
  pmm : Pmm.State
  lastUsedIdx : Nat
  txDescIdx : Nat

namespace TxRings

variable (txq : QueueBase) (s : TxRings) (len : Nat)

/-- The frame the next `net_send` allocates, or 0. -/
def nextFrame : Nat := (Pmm.pmmAllocFrame s.pmm).1

/-- `tx_desc_idx % txq.qsize` -/
def head : Nat := u16 (s.txDescIdx % txq.qsize)

/-- What `net_send` writes to `txq.desc[head]`. -/
def headDesc : Desc := ⟨s.nextFrame, u32 (virtioHdrSize + len), 0, 0⟩

/-- The rings behind that. -/
def described : Memory := storeDesc (txq.descAt (s.head txq)) (s.headDesc len) s.mem

/-- `avail % txq.qsize` -/
def slot : Nat := txq.published (s.described txq len) % txq.qsize

/-- `net_send` of `len` bytes, less the bytes of the packet. -/
def netSend : TxRings :=
  if s.nextFrame = 0 then { s with pmm := (Pmm.pmmAllocFrame s.pmm).2 }
  else
    let mem := s.described txq len
    let avail := txq.published mem
    { s with
      mem := (mem.store (txq.availAt (s.slot txq len)) 2 (s.head txq)).store txq.availIdxAt 2
        (u16 (avail + 1))
      pmm := (Pmm.pmmAllocFrame s.pmm).2
      txDescIdx := u16 (s.txDescIdx + 1) }

/-- `txq.used->ring[txq.last_used_idx % txq.qsize]` -/
def nextUsed : UsedElem := txq.usedElem s.mem (u16 (s.lastUsedIdx % txq.qsize))

/-- One iteration of the loop of `net_cleanup_tx`. -/
def cleanupTxOnce : TxRings :=
  let phys := (txq.descOf s.mem (s.nextUsed txq).id).addr
  { s with
    pmm := Pmm.pmmFreeFrame phys s.pmm
    lastUsedIdx := u16 (s.lastUsedIdx + 1) }

/-- A well-behaved device returns a descriptor. -/
def giveBack (elem : UsedElem) : TxRings :=
  let usedIdx := txq.usedCount s.mem
  { s with
    mem := (storeUsed (txq.usedAt (Ring.slot txq.qsize usedIdx)) elem s.mem).store
      txq.usedIdxAt 2 (u16 (usedIdx + 1)) }

/-- What `net_send` writes to the rings. -/
def writes : List Region :=
  [⟨txq.descAt (s.head txq), 16⟩, ⟨txq.availAt (s.slot txq len), 2⟩, ⟨txq.availIdxAt, 2⟩]

end TxRings

/-! ### Steps -/

/-- The numbers of `m` beside another state of the driver. -/
def TxMachine.over {σ τ : Type} (m : TxMachine σ) (net : τ) : TxMachine τ where
  net := net
  deviceIdx := m.deviceIdx
  sends := m.sends
  taken := m.taken
  held := m.held
  returned := m.returned
  cleaned := m.cleaned

inductive RingStep (txq : QueueBase) : TxMachine TxRings → TxEvent → TxMachine TxRings → Prop where
  | send {m : TxMachine TxRings} (macFrame : List UInt8) (frame : m.net.nextFrame ≠ 0) :
      RingStep txq m (.send macFrame)
        { m with
          net := m.net.netSend txq macFrame.length
          sends := m.sends ++
            [⟨m.net.head txq, m.net.slot txq macFrame.length, m.net.nextFrame⟩] }
  | sendFails {m : TxMachine TxRings} (macFrame : List UInt8) (noFrame : m.net.nextFrame = 0) :
      RingStep txq m (.sendFails macFrame) { m with net := m.net.netSend txq macFrame.length }
  | take {m : TxMachine TxRings} (available : m.deviceIdx ≠ txq.published m.net.mem) :
      RingStep txq m .take
        { m with
          deviceIdx := u16 (m.deviceIdx + 1)
          taken := m.taken + 1
          held := (m.taken, txq.entry m.net.mem (Ring.slot txq.qsize m.deviceIdx)) :: m.held }
  | give {m : TxMachine TxRings} {number id : Nat} (len : Nat) (fits : len < 2 ^ 32)
      (holds : (number, id) ∈ m.held) :
      RingStep txq m (.give number)
        { m with
          net := m.net.giveBack txq ⟨id, len⟩
          held := m.held.erase (number, id)
          returned := m.returned ++ [number] }
  | cleanup {m : TxMachine TxRings} (more : m.net.lastUsedIdx ≠ txq.usedCount m.net.mem) :
      RingStep txq m .cleanup
        { m with
          net := m.net.cleanupTxOnce txq
          returned := m.returned.tail
          cleaned := m.cleaned ++ m.returned.head?.toList }

/-! ### What the claim is about -/

/-- The descriptor and the avail slot of a packet. -/
def Sent.uses (txq : QueueBase) (sent : Sent) : List Region :=
  [⟨txq.descAt sent.desc, 16⟩, ⟨txq.availAt sent.slot, 2⟩]

/-- The packets stay within the entries for which the queue has pages. -/
def InPages {σ : Type} (qsize : Nat) (m : TxMachine σ) : Prop :=
  qsize ≤ 1024 ∨ m.sends.length ≤ 1024

/-! ### The arrays are in memory -/

/-- The arrays, the allocator and the counters of `net` are those of `s`. -/
structure TxRings.Shows (txq : QueueBase) (s : TxRings) (net : State) : Prop where
  rings : InMemory s.mem txq net.txq
  pmm : net.pmm = s.pmm
  lastUsedIdx : net.txq.lastUsedIdx = s.lastUsedIdx
  txDescIdx : net.txDescIdx = s.txDescIdx

section Shows

variable {txq : QueueBase} {s : TxRings} {net : State} {macFrame : List UInt8} {elem : UsedElem}

theorem TxRings.Shows.head (same : s.Shows txq net) :
    s.head txq = u16 (net.txDescIdx % net.txq.qsize) := by
  unfold TxRings.head
  rw [same.rings.qsize, same.txDescIdx]

theorem TxRings.Shows.described (same : s.Shows txq net) (adjacent : txq.Adjacent)
    (inside : s.head txq < 1024) (len : Nat) :
    InMemory (s.described txq len) txq
      { net.txq with desc := Function.update net.txq.desc (s.head txq) (s.headDesc len) } :=
  same.rings.storeDesc adjacent inside _
    ⟨pmmAllocFrame_lt _, Nat.mod_lt _ (by decide), show 0 < 2 ^ 16 by decide,
      show 0 < 2 ^ 16 by decide⟩

theorem TxRings.Shows.slot (same : s.Shows txq net) (adjacent : txq.Adjacent)
    (inside : s.head txq < 1024) (len : Nat) :
    s.slot txq len = net.txq.availIdx % net.txq.qsize := by
  have published : txq.published (s.described txq len) = net.txq.availIdx :=
    (same.described adjacent inside len).availIdx
  unfold TxRings.slot
  rw [published, same.rings.qsize]

theorem TxRings.Shows.netSend (same : s.Shows txq net) (adjacent : txq.Adjacent)
    (frame : s.nextFrame ≠ 0) (headInside : s.head txq < 1024)
    (slotInside : s.slot txq macFrame.length < 1024) :
    (s.netSend txq macFrame.length).Shows txq ((Net.netSend macFrame).run net).2 := by
  have found : (Pmm.pmmAllocFrame net.pmm).1 ≠ 0 := by
    rw [same.pmm]
    exact frame
  have described := same.described adjacent headInside macFrame.length
  have published : txq.published (s.described txq macFrame.length) = net.txq.availIdx :=
    described.availIdx
  have entry := described.storeAvail adjacent slotInside (s.head txq) (u16_lt _)
  have index := entry.storeAvailIdx adjacent (u16 (net.txq.availIdx + 1)) (u16_lt _)
  have slot := same.slot adjacent headInside macFrame.length
  obtain ⟨txq', txDescIdx⟩ := netSend_txq macFrame found
  rw [← same.head, ← slot] at txq'
  have isFrame : s.nextFrame = (Pmm.pmmAllocFrame net.pmm).1 := by
    rw [same.pmm]
    rfl
  unfold TxRings.netSend
  rw [if_neg frame]
  refine ⟨?_, ?_, ?_, ?_⟩
  · dsimp only
    rw [txq', ← isFrame, published]
    exact index
  · rw [(pmm_netSend macFrame found).1, same.pmm]
  · rw [txq']
    exact same.lastUsedIdx
  · rw [txDescIdx, same.txDescIdx]

theorem TxRings.Shows.netSend_of_noFrame (same : s.Shows txq net) (noFrame : s.nextFrame = 0) :
    (s.netSend txq macFrame.length).Shows txq ((Net.netSend macFrame).run net).2 := by
  have none : (Pmm.pmmAllocFrame net.pmm).1 = 0 := by
    rw [same.pmm]
    exact noFrame
  have isRun : ((Net.netSend macFrame).run net).2 =
      { net with pmm := (Pmm.pmmAllocFrame net.pmm).2 } := by
    unfold Net.netSend
    simp only [none, StateT.run_bind, StateT.run_get, pure_bind]
    rfl
  unfold TxRings.netSend
  rw [if_pos noFrame, isRun, same.pmm]
  exact ⟨same.rings, rfl, same.lastUsedIdx, same.txDescIdx⟩

theorem TxRings.Shows.giveBack (same : s.Shows txq net) (adjacent : txq.Adjacent)
    (inside : Ring.slot txq.qsize net.txq.usedIdx < 1024) (fits : elem.Fits) :
    (s.giveBack txq elem).Shows txq
      { net with txq := { net.txq with
        usedRing := Function.update net.txq.usedRing
          (Ring.slot net.txq.qsize net.txq.usedIdx) elem
        usedIdx := u16 (net.txq.usedIdx + 1) } } := by
  have usedIdx : txq.usedCount s.mem = net.txq.usedIdx := same.rings.usedIdx
  have entry := same.rings.storeUsed adjacent inside elem fits
  have index := entry.storeUsedIdx adjacent (u16 (net.txq.usedIdx + 1)) (u16_lt _)
  rw [← same.rings.qsize] at index
  refine ⟨?_, same.pmm, same.lastUsedIdx, same.txDescIdx⟩
  unfold TxRings.giveBack
  rw [usedIdx, ← same.rings.qsize]
  exact index

theorem TxRings.Shows.nextUsed (same : s.Shows txq net)
    (inside : u16 (s.lastUsedIdx % txq.qsize) < 1024) : s.nextUsed txq = net.txq.nextUsed := by
  have used := same.rings.usedRing _ inside
  unfold TxRings.nextUsed Virtq.nextUsed
  rw [same.lastUsedIdx, same.rings.qsize]
  exact used

theorem TxRings.Shows.descOf (same : s.Shows txq net) {id : Nat} (inside : id < 1024) :
    txq.descOf s.mem id = net.txq.desc id :=
  same.rings.desc id inside

theorem TxRings.Shows.cleanupTxOnce (same : s.Shows txq net)
    (inside : u16 (s.lastUsedIdx % txq.qsize) < 1024) (idInside : net.txq.nextUsed.id < 1024) :
    (s.cleanupTxOnce txq).Shows txq (Net.cleanupTxOnce.run net).2 := by
  have used := same.nextUsed inside
  have desc := same.descOf idInside
  have isRun : (Net.cleanupTxOnce.run net).2 =
      { net with
        pmm := Pmm.pmmFreeFrame (net.txq.desc net.txq.nextUsed.id).addr net.pmm
        txq.lastUsedIdx := u16 (net.txq.lastUsedIdx + 1) } := rfl
  unfold TxRings.cleanupTxOnce
  rw [isRun, used, desc, same.pmm, same.lastUsedIdx]
  exact ⟨same.rings.advance _, rfl, rfl, same.txDescIdx⟩

end Shows

/-! ### A step on bytes is a step on arrays -/

section Steps

variable {txq : QueueBase} {exponent : Nat} {m : TxMachine State} {s : TxRings}
  {elements : List UsedElem} {event : TxEvent} {next : TxMachine TxRings}

theorem InPages.mod_lt {σ : Type} {n : TxMachine σ} (inPages : InPages (2 ^ exponent) n)
    {number : Nat} (sent : number < n.sends.length) :
    number % Ring.capacity (2 ^ exponent) < 1024 := by
  have positive := Ring.capacity_pos (show 2 ^ exponent = 2 ^ exponent from rfl)
  have below := Nat.mod_lt number positive
  have notAbove := Nat.mod_le number (Ring.capacity (2 ^ exponent))
  have capacity : Ring.capacity (2 ^ exponent) ≤ 2 ^ exponent := Nat.min_le_left _ _
  rcases inPages with small | few <;> omega

theorem TxInvariant.usedIdx_eq (inv : TxInvariant exponent m elements) :
    m.net.txq.usedIdx = u16 (m.cleaned.length + m.returned.length) := by
  have lengths := congrArg List.length inv.elementIds
  rw [List.length_map, List.length_map] at lengths
  rw [inv.used.next_eq, inv.counted, lengths]
  unfold u16
  rw [Nat.mod_add_mod]

/-- As many packets as are cleaned up, returned or held have been taken. -/
theorem TxInvariant.counts (inv : TxInvariant exponent m elements) :
    m.cleaned.length + (m.held.length + m.returned.length) = m.taken := by
  have counted := inv.numbers.length_eq
  rw [List.length_append, List.length_append, List.length_map, List.length_range] at counted
  exact counted

/-- The numbers that the next calls and the device use are in front of the pages' ends. -/
theorem TxInvariant.slot_lt (inv : TxInvariant exponent m elements)
    (inPages : InPages (2 ^ exponent) m) {number : Nat} (sent : number < m.sends.length) :
    Ring.slot m.net.txq.qsize number < 1024 := by
  rw [inv.size, Ring.slot_eq_mod rfl]
  exact inPages.mod_lt sent

/-- What `net_cleanup_tx` looks at lies within the pages. -/
theorem TxRings.Shows.cleanup_lt (same : s.Shows txq m.net)
    (inv : TxInvariant exponent m elements) (inPages : InPages (2 ^ exponent) m)
    (more : m.net.txq.lastUsedIdx ≠ m.net.txq.usedIdx) :
    u16 (s.lastUsedIdx % txq.qsize) < 1024 ∧ m.net.txq.nextUsed.id < 1024 := by
  have known := inv.taken_le
  have counts := inv.counts
  obtain ⟨number, rest, sent, returned, -, isSent, id, -⟩ := inv.firstReturned more
  have below := (List.getElem?_eq_some_iff.mp isSent).1
  have some : 0 < m.returned.length := by
    rw [returned]
    exact Nat.succ_pos _
  constructor
  · have slot := inv.slot_lt inPages (show m.cleaned.length < m.sends.length by omega)
    have isSlot : Ring.slot m.net.txq.qsize m.cleaned.length = s.lastUsedIdx % txq.qsize := by
      rw [← same.lastUsedIdx, inv.counted, same.rings.qsize]
      rfl
    rw [isSlot] at slot
    rw [u16_of_lt (by omega)]
    exact slot
  · rw [id, (inv.recorded number sent isSent).1]
    exact inPages.mod_lt below

/-- What `net_send` looks at lies within the pages. -/
theorem TxRings.Shows.nextInside (same : s.Shows txq m.net)
    (inv : TxInvariant exponent m elements) (adjacent : txq.Adjacent) (len : Nat)
    (inPages : m.sends.length % Ring.capacity (2 ^ exponent) < 1024) :
    s.head txq = m.nextDesc ∧ s.slot txq len = m.nextSlot ∧ s.head txq < 1024 ∧
      s.slot txq len < 1024 := by
  have head : s.head txq = m.nextDesc := same.head
  have headInside : s.head txq < 1024 := by
    rw [head, inv.nextDesc_eq]
    exact inPages
  have slot : s.slot txq len = m.nextSlot := same.slot adjacent headInside _
  refine ⟨head, slot, headInside, ?_⟩
  rw [slot, inv.nextSlot_eq]
  exact inPages

/-- Every step on the bytes within the pages is one on the arrays. -/
theorem RingStep.onArrays (taken : RingStep txq (m.over s) event next)
    (same : s.Shows txq m.net) (inv : TxInvariant exponent m elements)
    (adjacent : txq.Adjacent) (inPages : InPages (2 ^ exponent) next) :
    ∃ m' s', next = m'.over s' ∧ TxStep m event m' ∧ s'.Shows txq m'.net := by
  have known := inv.taken_le
  have counts := inv.counts
  cases taken with
  | send macFrame frame =>
      have newest : m.sends.length % Ring.capacity (2 ^ exponent) < 1024 := by
        refine inPages.mod_lt ?_
        change _ < (m.sends ++ [_]).length
        rw [List.length_append, List.length_singleton]
        exact Nat.lt_succ_self _
      obtain ⟨head, slot, headInside, slotInside⟩ :=
        same.nextInside inv adjacent macFrame.length newest
      have isFrame : s.nextFrame = m.nextFrame := by
        unfold TxRings.nextFrame TxMachine.nextFrame
        rw [same.pmm]
      have found : m.nextFrame ≠ 0 := by
        rw [← isFrame]
        exact frame
      refine ⟨_, _, ?_, TxStep.send macFrame found,
        same.netSend adjacent frame headInside slotInside⟩
      rw [← head, ← slot, ← isFrame]
      rfl
  | sendFails macFrame noFrame =>
      have none : (Pmm.pmmAllocFrame m.net.pmm).1 = 0 := by
        rw [same.pmm]
        exact noFrame
      refine ⟨_, _, ?_, TxStep.sendFails macFrame none, same.netSend_of_noFrame noFrame⟩
      rfl
  | take available =>
      have index : txq.published s.mem = m.net.txq.availIdx := same.rings.availIdx
      have differ : m.deviceIdx ≠ m.net.txq.availIdx := by
        rw [← index]
        exact available
      have untaken : m.taken < m.sends.length := inv.taken_lt differ
      have slot : Ring.slot m.net.txq.qsize m.deviceIdx < 1024 := by
        rw [inv.device, Ring.slot_u16]
        exact inv.slot_lt inPages untaken
      have entry := same.rings.availRing _ slot
      refine ⟨_, _, ?_, TxStep.take differ, same⟩
      rw [← entry, ← same.rings.qsize]
      rfl
  | @give number id len fits holds =>
      have isId : id = number % Ring.capacity (2 ^ exponent) := inv.heldIds _ holds
      have earlier : number < m.taken := inv.lt_taken (List.mem_append_right _
        (List.mem_append_left _ (List.mem_map_of_mem holds)))
      have small := inPages.mod_lt (Nat.lt_of_lt_of_le earlier inv.taken_le)
      have idFits : id < 2 ^ 32 := by
        rw [isId]
        exact Nat.lt_trans small (by decide)
      have some : 0 < m.held.length := List.length_pos_of_mem holds
      have slot : Ring.slot txq.qsize m.net.txq.usedIdx < 1024 := by
        rw [← same.rings.qsize, inv.usedIdx_eq, Ring.slot_u16]
        exact inv.slot_lt inPages (by omega)
      refine ⟨_, _, ?_, TxStep.give len holds, same.giveBack adjacent slot ⟨idFits, fits⟩⟩
      rfl
  | cleanup more =>
      have index : txq.usedCount s.mem = m.net.txq.usedIdx := same.rings.usedIdx
      have differ : m.net.txq.lastUsedIdx ≠ m.net.txq.usedIdx := by
        rw [← index, same.lastUsedIdx]
        exact more
      obtain ⟨inside, idInside⟩ := same.cleanup_lt inv inPages differ
      refine ⟨_, _, ?_, TxStep.cleanup differ, same.cleanupTxOnce inside idInside⟩
      rfl

/-! ### Ownership -/

/-- The arrays are in memory, and their invariant holds. -/
def RingsConsistent (exponent : Nat) (txq : QueueBase) (r : TxMachine TxRings) : Prop :=
  ∃ m s elements, r = m.over s ∧ s.Shows txq m.net ∧ TxInvariant exponent m elements

/-- A timely step keeps both, and behind it every packet is in one place. -/
theorem RingStep.consistent (taken : RingStep txq (m.over s) event next)
    (same : s.Shows txq m.net) (inv : TxInvariant exponent m elements)
    (adjacent : txq.Adjacent) (inPages : InPages (2 ^ exponent) next)
    (timely : TxTimely (2 ^ exponent) ⟨m.over s, event, next⟩) :
    RingsConsistent exponent txq next ∧ Accounted next := by
  obtain ⟨m', s', rfl, step, same'⟩ := taken.onArrays same inv adjacent inPages
  obtain ⟨elements', inv'⟩ := inv.step step timely
  exact ⟨⟨m', s', elements', rfl, same', inv'⟩, inv'.accounted⟩

end Steps

/-! ### Every run -/

section Runs

variable {exponent : Nat} {txq : QueueBase} {s : TxRings}
  {path : List (Transition (TxMachine TxRings) TxEvent)} {first last : TxMachine TxRings}

end Runs

end UniKernel.Net
