import UniKernel.Lib.Ring
import UniKernel.Lib.Transition
import UniKernel.Net.Receive

/-!
Owns the transmit queue as shared by driver and device: calls of `net_send`,
iterations of `net_cleanup_tx` and a device that takes published descriptors in
order and returns each once, in any order.

Packets are numbered by the order of `net_send`; `sends` records for each the
descriptor, the avail slot and the frame it used, `taken` how many the device
has taken, and `returned` and `cleaned` the numbers that came back and those
`net_cleanup_tx` has freed.
-/

namespace UniKernel.Net

open UniKernel.Lib

/-- What a call of `net_send` used. -/
structure Sent where
  desc : Nat
  slot : Nat
  frame : Nat
deriving DecidableEq

/-- `net` is the driver with the rings, and `held` pairs the number of a packet with the
descriptor id the device read. -/
structure TxMachine (σ : Type) where
  net : σ
  deviceIdx : Nat
  sends : List Sent
  taken : Nat
  held : List (Nat × Nat)
  returned : List Nat
  cleaned : List Nat

inductive TxEvent where
  | send (macFrame : List UInt8)
  | sendFails (macFrame : List UInt8)
  | take
  | give (number : Nat)
  | cleanup
deriving DecidableEq

/-- The descriptor the next `net_send` writes. -/
def TxMachine.nextDesc (m : TxMachine State) : Nat := u16 (m.net.txDescIdx % m.net.txq.qsize)

/-- The avail slot the next `net_send` writes. -/
def TxMachine.nextSlot (m : TxMachine State) : Nat := m.net.txq.availIdx % m.net.txq.qsize

/-- The frame the next `net_send` allocates, or 0. -/
def TxMachine.nextFrame (m : TxMachine State) : Nat := (Pmm.pmmAllocFrame m.net.pmm).1

inductive TxStep : TxMachine State → TxEvent → TxMachine State → Prop where
  | send {m : TxMachine State} (macFrame : List UInt8) (frame : m.nextFrame ≠ 0) :
      TxStep m (.send macFrame)
        { m with
          net := ((netSend macFrame).run m.net).2
          sends := m.sends ++ [⟨m.nextDesc, m.nextSlot, m.nextFrame⟩] }
  | sendFails {m : TxMachine State} (macFrame : List UInt8) (noFrame : m.nextFrame = 0) :
      TxStep m (.sendFails macFrame) { m with net := ((netSend macFrame).run m.net).2 }
  | take {m : TxMachine State} (available : m.deviceIdx ≠ m.net.txq.availIdx) :
      TxStep m .take
        { m with
          deviceIdx := u16 (m.deviceIdx + 1)
          taken := m.taken + 1
          held := (m.taken, m.net.txq.availRing (Ring.slot m.net.txq.qsize m.deviceIdx)) ::
            m.held }
  | give {m : TxMachine State} {number id : Nat} (len : Nat) (holds : (number, id) ∈ m.held) :
      TxStep m (.give number)
        { m with
          net := { m.net with txq := { m.net.txq with
            usedRing := Function.update m.net.txq.usedRing
              (Ring.slot m.net.txq.qsize m.net.txq.usedIdx) ⟨id, len⟩
            usedIdx := u16 (m.net.txq.usedIdx + 1) } }
          held := m.held.erase (number, id)
          returned := m.returned ++ [number] }
  | cleanup {m : TxMachine State} (more : m.net.txq.lastUsedIdx ≠ m.net.txq.usedIdx) :
      TxStep m .cleanup
        { m with
          net := (cleanupTxOnce.run m.net).2
          returned := m.returned.tail
          cleaned := m.cleaned ++ m.returned.head?.toList }

/-- A successful `net_send` comes after the packet sent as many packets earlier
as the queue has descriptors has been cleaned up. -/
def TxTimely {σ : Type} (qsize : Nat) (transition : Transition (TxMachine σ) TxEvent) : Prop :=
  match transition.label with
  | .send _ => ∀ number, number + Ring.capacity qsize = transition.source.sends.length →
      number ∈ transition.source.cleaned
  | _ => True

/-- Every packet sent is in one of four places, once: cleaned up, returned, held by the
device or not yet taken. -/
def Accounted {σ : Type} (m : TxMachine σ) : Prop :=
  (m.cleaned ++ (m.returned ++ (m.held.map Prod.fst ++
    List.range' m.taken (m.sends.length - m.taken)))).Perm (List.range m.sends.length)

/-! ### `net_send` -/

theorem netSend_txq {s : State} (macFrame : List UInt8) (frame : (Pmm.pmmAllocFrame s.pmm).1 ≠ 0) :
    ((netSend macFrame).run s).2.txq =
        { s.txq with
          desc := Function.update s.txq.desc (u16 (s.txDescIdx % s.txq.qsize))
            ⟨(Pmm.pmmAllocFrame s.pmm).1, u32 (virtioHdrSize + macFrame.length), 0, 0⟩
          availRing := Function.update s.txq.availRing (s.txq.availIdx % s.txq.qsize)
            (u16 (s.txDescIdx % s.txq.qsize))
          availIdx := u16 (s.txq.availIdx + 1) } ∧
      ((netSend macFrame).run s).2.txDescIdx = u16 (s.txDescIdx + 1) := by
  unfold netSend
  simp only [frame, StateT.run_bind, StateT.run_get, pure_bind]
  exact ⟨rfl, rfl⟩

theorem netSend_txq_of_noFrame {s : State} (macFrame : List UInt8)
    (noFrame : (Pmm.pmmAllocFrame s.pmm).1 = 0) :
    ((netSend macFrame).run s).2.txq = s.txq ∧
      ((netSend macFrame).run s).2.txDescIdx = s.txDescIdx := by
  unfold netSend
  simp only [noFrame, StateT.run_bind, StateT.run_get, pure_bind]
  exact ⟨rfl, rfl⟩

theorem pmm_netSend {s : State} (macFrame : List UInt8)
    (frame : (Pmm.pmmAllocFrame s.pmm).1 ≠ 0) :
    ((netSend macFrame).run s).2.pmm = (Pmm.pmmAllocFrame s.pmm).2 ∧
      ((netSend macFrame).run s).2.notified = s.notified ++ [1] := by
  unfold netSend
  simp only [frame, StateT.run_bind, StateT.run_get, pure_bind]
  exact ⟨rfl, rfl⟩

/-! ### The invariant -/

/-- Packet number `n` uses descriptor and avail slot `n` modulo the capacity;
all but the latest packets have been cleaned up; the ghost numbers account for
the ids in the rings. -/
structure TxInvariant (exponent : Nat) (m : TxMachine State) (elements : List UsedElem) : Prop where
  size : m.net.txq.qsize = 2 ^ exponent
  descIdx : m.net.txDescIdx = u16 m.sends.length
  availIdx : m.net.txq.availIdx = u16 m.sends.length
  device : m.deviceIdx = u16 m.taken
  taken_le : m.taken ≤ m.sends.length
  recorded : ∀ number sent, m.sends[number]? = some sent →
    sent.desc = number % Ring.capacity (2 ^ exponent) ∧
      sent.slot = number % Ring.capacity (2 ^ exponent)
  recent : ∀ number, number + Ring.capacity (2 ^ exponent) < m.sends.length → number ∈ m.cleaned
  named : ∀ number sent, m.sends[number]? = some sent → number ∉ m.cleaned →
    (m.net.txq.desc (number % Ring.capacity (2 ^ exponent))).addr = sent.frame
  avail : ∀ number, m.taken ≤ number → number < m.sends.length →
    m.net.txq.availRing (number % Ring.capacity (2 ^ exponent)) =
      number % Ring.capacity (2 ^ exponent)
  heldIds : ∀ pair ∈ m.held, pair.2 = pair.1 % Ring.capacity (2 ^ exponent)
  used : Ring.Holds m.net.txq.usedRing m.net.txq.qsize m.net.txq.lastUsedIdx m.net.txq.usedIdx
    elements
  elementIds : elements.map UsedElem.id = m.returned.map (· % Ring.capacity (2 ^ exponent))
  counted : m.net.txq.lastUsedIdx = u16 m.cleaned.length
  numbers : (m.cleaned ++ (m.held.map Prod.fst ++ m.returned)).Perm (List.range m.taken)

/-- Some content of the used ring satisfies the invariant. -/
def TxConsistent (exponent : Nat) (m : TxMachine State) : Prop :=
  ∃ elements, TxInvariant exponent m elements

section Invariant

variable {exponent : Nat} {m next : TxMachine State} {elements : List UsedElem} {event : TxEvent}

theorem TxInvariant.nextDesc_eq (inv : TxInvariant exponent m elements) :
    m.nextDesc = m.sends.length % Ring.capacity (2 ^ exponent) := by
  unfold TxMachine.nextDesc
  rw [inv.descIdx, inv.size, ← Ring.slot_eq_mod rfl]
  exact u16_of_lt (Nat.lt_of_le_of_lt (Nat.mod_le _ _) (u16_lt _))

theorem TxInvariant.nextSlot_eq (inv : TxInvariant exponent m elements) :
    m.nextSlot = m.sends.length % Ring.capacity (2 ^ exponent) := by
  unfold TxMachine.nextSlot
  rw [inv.availIdx, inv.size, ← Ring.slot_eq_mod rfl]
  rfl

/-- A packet that is not cleaned up is one of the latest. -/
theorem TxInvariant.le_of_uncleaned (inv : TxInvariant exponent m elements) {number : Nat}
    (uncleaned : number ∉ m.cleaned) :
    m.sends.length ≤ number + Ring.capacity (2 ^ exponent) :=
  Nat.not_lt.mp fun early => uncleaned (inv.recent number early)

theorem TxInvariant.numbers_nodup (inv : TxInvariant exponent m elements) :
    (m.cleaned ++ (m.held.map Prod.fst ++ m.returned)).Nodup :=
  inv.numbers.nodup_iff.mpr List.nodup_range

theorem TxInvariant.lt_taken (inv : TxInvariant exponent m elements) {number : Nat}
    (member : number ∈ m.cleaned ++ (m.held.map Prod.fst ++ m.returned)) : number < m.taken :=
  List.mem_range.mp (inv.numbers.subset member)

theorem TxInvariant.uncleaned (inv : TxInvariant exponent m elements) {number : Nat}
    (outside : number ∈ m.held.map Prod.fst ++ m.returned) : number ∉ m.cleaned := fun cleaned =>
  (List.nodup_append.mp inv.numbers_nodup).2.2 number cleaned number outside rfl

/-- The packets the device holds or has returned fit into the queue. -/
theorem TxInvariant.outside_le (inv : TxInvariant exponent m elements) :
    m.held.length + m.returned.length ≤ Ring.capacity (2 ^ exponent) := by
  have distinct := (List.nodup_append.mp inv.numbers_nodup).2.1
  have inside : m.held.map Prod.fst ++ m.returned ⊆
      List.range' (m.sends.length - Ring.capacity (2 ^ exponent))
        (Ring.capacity (2 ^ exponent)) := by
    intro number member
    have late := inv.le_of_uncleaned (inv.uncleaned member)
    have early := inv.lt_taken (List.mem_append_right _ member)
    have known := inv.taken_le
    exact List.mem_range'_1.mpr ⟨by omega, by omega⟩
  have counted := (distinct.subperm inside).length_le
  rw [List.length_append, List.length_map, List.length_range'] at counted
  exact counted

/-- Under the invariant an element in the used ring names the packet that was
returned first. -/
theorem TxInvariant.firstReturned (inv : TxInvariant exponent m elements)
    (more : m.net.txq.lastUsedIdx ≠ m.net.txq.usedIdx) :
    ∃ number rest sent, m.returned = number :: rest ∧ number ∉ m.cleaned ∧
      m.sends[number]? = some sent ∧ m.net.txq.nextUsed.id = sent.desc ∧
      (m.net.txq.desc sent.desc).addr = sent.frame := by
  rcases List.exists_cons_of_ne_nil (inv.used.ne_nil more) with ⟨elem, later, rfl⟩
  have ids := inv.elementIds
  rw [List.map_cons] at ids
  rcases List.map_eq_cons_iff.mp ids.symm with ⟨number, rest, returned, id, -⟩
  have outside : number ∈ m.held.map Prod.fst ++ m.returned := by
    rw [returned]
    simp
  have early := inv.lt_taken (List.mem_append_right _ outside)
  have known := inv.taken_le
  have sent := List.getElem?_eq_getElem (show number < m.sends.length by omega)
  have recorded := (inv.recorded number _ sent).1
  refine ⟨number, rest, _, returned, inv.uncleaned outside, sent, ?_, ?_⟩
  · rw [nextUsed_of_small inv.used.firstSmall, inv.used.head, ← id, recorded]
  · rw [recorded]
    exact inv.named number _ sent (inv.uncleaned outside)

theorem TxInvariant.accounted (inv : TxInvariant exponent m elements) : Accounted m := by
  have known := inv.taken_le
  have whole : List.range m.sends.length =
      List.range m.taken ++ List.range' m.taken (m.sends.length - m.taken) := by
    have joined := List.range'_append_1 (s := 0) (m := m.taken) (n := m.sends.length - m.taken)
    rw [Nat.zero_add, Nat.add_sub_cancel' known] at joined
    rw [List.range_eq_range', List.range_eq_range', joined]
  unfold Accounted
  rw [whole, ← List.append_assoc, ← List.append_assoc]
  refine List.Perm.append_right _ (List.Perm.trans ?_ inv.numbers)
  rw [List.append_assoc]
  exact List.Perm.append_left _ List.perm_append_comm

theorem getElem?_concat_cases {α : Type} {items : List α} {item value : α} {position : Nat}
    (found : (items ++ [item])[position]? = some value) :
    items[position]? = some value ∨ position = items.length ∧ value = item := by
  rcases Nat.lt_or_ge position items.length with below | above
  · rw [List.getElem?_append_left below] at found
    exact Or.inl found
  · rw [List.getElem?_append_right above] at found
    rcases List.getElem?_eq_some_iff.mp found with ⟨zero, same⟩
    rw [List.length_singleton] at zero
    refine Or.inr ⟨by omega, ?_⟩
    rw [← same, List.getElem_singleton]

/-- Only the queue and the descriptor counter matter. -/
theorem TxInvariant.congr (inv : TxInvariant exponent m elements) {net : State}
    (txq : net.txq = m.net.txq) (txDescIdx : net.txDescIdx = m.net.txDescIdx) :
    TxInvariant exponent { m with net := net } elements where
  size := by rw [txq]; exact inv.size
  descIdx := txDescIdx.trans inv.descIdx
  availIdx := by rw [txq]; exact inv.availIdx
  device := inv.device
  taken_le := inv.taken_le
  recorded := inv.recorded
  recent := inv.recent
  named := by rw [txq]; exact inv.named
  avail := by rw [txq]; exact inv.avail
  heldIds := inv.heldIds
  used := by rw [txq]; exact inv.used
  elementIds := inv.elementIds
  counted := by rw [txq]; exact inv.counted
  numbers := inv.numbers

/-- A timely send keeps the invariant. -/
theorem TxInvariant.send (inv : TxInvariant exponent m elements) (macFrame : List UInt8)
    (frame : m.nextFrame ≠ 0)
    (timely : ∀ number, number + Ring.capacity (2 ^ exponent) = m.sends.length →
      number ∈ m.cleaned) :
    TxInvariant exponent
      { m with
        net := ((netSend macFrame).run m.net).2
        sends := m.sends ++ [⟨m.nextDesc, m.nextSlot, m.nextFrame⟩] } elements := by
  rcases netSend_txq macFrame frame with ⟨txq, txDescIdx⟩
  have isNextDesc : u16 (m.net.txDescIdx % m.net.txq.qsize) = m.nextDesc := rfl
  have isNextSlot : m.net.txq.availIdx % m.net.txq.qsize = m.nextSlot := rfl
  rw [isNextDesc, isNextSlot, inv.nextDesc_eq, inv.nextSlot_eq] at txq
  have newest : ∀ sent : Sent, (m.sends ++ [sent]).length = m.sends.length + 1 := by simp
  have differ : ∀ number, number < m.sends.length → number ∉ m.cleaned →
      number % Ring.capacity (2 ^ exponent) ≠ m.sends.length % Ring.capacity (2 ^ exponent) := by
    intro number below uncleaned
    have late := inv.le_of_uncleaned uncleaned
    have notOldest : number + Ring.capacity (2 ^ exponent) ≠ m.sends.length :=
      fun oldest => uncleaned (timely number oldest)
    exact Ring.mod_ne below (by omega)
  refine ⟨?_, ?_, ?_, inv.device, ?_, ?_, ?_, ?_, ?_, inv.heldIds, ?_, inv.elementIds,
    ?_, inv.numbers⟩
  · rw [txq]
    exact inv.size
  · change ((netSend macFrame).run m.net).2.txDescIdx = _
    rw [txDescIdx, inv.descIdx, newest]
    unfold u16
    rw [Nat.mod_add_mod]
  · rw [txq, newest]
    change u16 (m.net.txq.availIdx + 1) = _
    rw [inv.availIdx]
    unfold u16
    rw [Nat.mod_add_mod]
  · rw [newest]
    exact Nat.le_succ_of_le inv.taken_le
  · intro number sent isSent
    rcases getElem?_concat_cases isSent with earlier | ⟨rfl, rfl⟩
    · exact inv.recorded number sent earlier
    · exact ⟨inv.nextDesc_eq, inv.nextSlot_eq⟩
  · intro number early
    rw [newest] at early
    rcases Nat.lt_succ_iff_lt_or_eq.mp early with earlier | oldest
    · exact inv.recent number earlier
    · exact timely number oldest
  · intro number sent isSent uncleaned
    rw [txq]
    change (Function.update m.net.txq.desc _ _ _).addr = _
    rcases getElem?_concat_cases isSent with earlier | ⟨rfl, rfl⟩
    · have below := (List.getElem?_eq_some_iff.mp earlier).1
      rw [Function.update_of_ne (differ number below uncleaned)]
      exact inv.named number sent earlier uncleaned
    · rw [Function.update_self]
      rfl
  · intro number untaken below
    rw [newest] at below
    rw [txq]
    change Function.update m.net.txq.availRing _ _ _ = _
    rcases Nat.lt_succ_iff_lt_or_eq.mp below with earlier | rfl
    · have uncleaned : number ∉ m.cleaned := fun cleaned => by
        have early := inv.lt_taken (List.mem_append_left _ cleaned)
        exact absurd early (Nat.not_lt.mpr untaken)
      rw [Function.update_of_ne (differ number earlier uncleaned)]
      exact inv.avail number untaken earlier
    · exact Function.update_self _ _ _
  · rw [txq]
    exact inv.used
  · rw [txq]
    exact inv.counted

theorem TxInvariant.taken_lt (inv : TxInvariant exponent m elements)
    (available : m.deviceIdx ≠ m.net.txq.availIdx) : m.taken < m.sends.length := by
  apply Nat.lt_of_le_of_ne inv.taken_le
  intro same
  apply available
  rw [inv.device, inv.availIdx, same]

/-- The device takes the packet with the next number. -/
theorem TxInvariant.take (inv : TxInvariant exponent m elements)
    (available : m.deviceIdx ≠ m.net.txq.availIdx) :
    TxInvariant exponent
      { m with
        deviceIdx := u16 (m.deviceIdx + 1)
        taken := m.taken + 1
        held := (m.taken, m.net.txq.availRing (Ring.slot m.net.txq.qsize m.deviceIdx)) :: m.held }
      elements := by
  have untaken := inv.taken_lt available
  have id : m.net.txq.availRing (Ring.slot m.net.txq.qsize m.deviceIdx) =
      m.taken % Ring.capacity (2 ^ exponent) := by
    rw [inv.size, inv.device, Ring.slot_u16, Ring.slot_eq_mod rfl]
    exact inv.avail m.taken (Nat.le_refl _) untaken
  rw [id]
  refine { inv with device := ?_, taken_le := untaken, avail := ?_, heldIds := ?_, numbers := ?_ }
  · rw [inv.device]
    unfold u16
    rw [Nat.mod_add_mod]
  · intro number later below
    exact inv.avail number (Nat.le_of_succ_le later) below
  · intro pair member
    rcases List.mem_cons.mp member with rfl | earlier
    · rfl
    · exact inv.heldIds pair earlier
  · change (m.cleaned ++ (m.taken :: m.held.map Prod.fst ++ m.returned)).Perm _
    rw [List.range_succ]
    apply List.perm_middle.trans
    apply List.Perm.trans ?_ (List.perm_append_singleton _ _).symm
    exact inv.numbers.cons _

/-- The device returns a packet it holds. -/
theorem TxInvariant.give (inv : TxInvariant exponent m elements) {number id : Nat} (len : Nat)
    (holds : (number, id) ∈ m.held) :
    TxInvariant exponent
      { m with
        net := { m.net with txq := { m.net.txq with
          usedRing := Function.update m.net.txq.usedRing
            (Ring.slot m.net.txq.qsize m.net.txq.usedIdx) ⟨id, len⟩
          usedIdx := u16 (m.net.txq.usedIdx + 1) } }
        held := m.held.erase (number, id)
        returned := m.returned ++ [number] } (elements ++ [⟨id, len⟩]) := by
  have space : elements.length < Ring.capacity m.net.txq.qsize := by
    have bound := inv.outside_le
    have positive := List.length_pos_of_mem holds
    have lengths := congrArg List.length inv.elementIds
    rw [List.length_map, List.length_map] at lengths
    rw [inv.size]
    omega
  have written := inv.used.update inv.size space ⟨id, len⟩
  refine { inv with
    used := written.push space (Function.update_self _ _ _), heldIds := ?_, elementIds := ?_,
    numbers := ?_ }
  · intro pair member
    exact inv.heldIds pair (List.mem_of_mem_erase member)
  · rw [List.map_append, List.map_append, inv.elementIds, List.map_singleton, List.map_singleton]
    have named : id = number % Ring.capacity (2 ^ exponent) := inv.heldIds _ holds
    rw [named]
  · apply List.Perm.trans ?_ inv.numbers
    apply List.Perm.append_left m.cleaned
    have moved := (List.perm_cons_erase holds).map Prod.fst
    rw [List.map_cons] at moved
    rw [← List.append_assoc]
    apply (List.perm_append_singleton _ _).trans
    exact (moved.append_right m.returned).symm

/-- Cleaning up the first returned packet. -/
theorem TxInvariant.cleanup (inv : TxInvariant exponent m elements)
    (more : m.net.txq.lastUsedIdx ≠ m.net.txq.usedIdx) :
    ∃ rest, TxInvariant exponent
      { m with
        net := (cleanupTxOnce.run m.net).2
        returned := m.returned.tail
        cleaned := m.cleaned ++ m.returned.head?.toList } rest := by
  rcases List.exists_cons_of_ne_nil (inv.used.ne_nil more) with ⟨elem, rest, rfl⟩
  have ids := inv.elementIds
  rw [List.map_cons] at ids
  rcases List.map_eq_cons_iff.mp ids.symm with ⟨number, later, returned, -, restIds⟩
  refine ⟨rest, ?_⟩
  rw [returned]
  refine { inv with
    recent := ?_, named := ?_, used := inv.used.tail, elementIds := restIds.symm, counted := ?_,
    numbers := ?_ }
  · intro other early
    exact List.mem_append_left _ (inv.recent other early)
  · intro other sent isSent uncleaned
    exact inv.named other sent isSent fun cleaned => uncleaned (List.mem_append_left _ cleaned)
  · change u16 (m.net.txq.lastUsedIdx + 1) = u16 (m.cleaned ++ [number]).length
    rw [inv.counted, List.length_append, List.length_singleton]
    unfold u16
    rw [Nat.mod_add_mod]
  · have numbers := inv.numbers
    rw [returned] at numbers
    apply List.Perm.trans ?_ numbers
    change (m.cleaned ++ [number] ++ (m.held.map Prod.fst ++ later)).Perm _
    rw [List.append_assoc]
    apply List.Perm.append_left m.cleaned
    change (number :: (m.held.map Prod.fst ++ later)).Perm _
    exact List.perm_middle.symm

/-- A timely step keeps the invariant. -/
theorem TxInvariant.step (inv : TxInvariant exponent m elements) (taken : TxStep m event next)
    (timely : TxTimely (2 ^ exponent) ⟨m, event, next⟩) : TxConsistent exponent next := by
  cases taken with
  | send macFrame frame => exact ⟨elements, inv.send macFrame frame timely⟩
  | sendFails macFrame noFrame =>
      rcases netSend_txq_of_noFrame macFrame noFrame with ⟨txq, txDescIdx⟩
      exact ⟨elements, inv.congr txq txDescIdx⟩
  | take available => exact ⟨elements, inv.take available⟩
  | give len holds => exact ⟨_, inv.give len holds⟩
  | cleanup more => exact inv.cleanup more

end Invariant

end UniKernel.Net
