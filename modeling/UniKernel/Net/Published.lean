import UniKernel.Net.Irq

/-!
Owns what a sequence of `net_send` calls leaves in the transmit queue: the calls
take consecutive descriptors and consecutive slots of the available ring, and
none writes over another as long as there are no more of them than descriptors.
-/

namespace UniKernel.Net

open UniKernel.Lib
open UniKernel.Pmm (pmmAllocFrame)

/-- The counters of the transmit side are 16 bits wide and the queue size is a
power of two. -/
structure TxCounters (exponent : Nat) (s : State) : Prop where
  size : s.txq.qsize = 2 ^ exponent
  availIdx : s.txq.availIdx < 2 ^ 16
  txDescIdx : s.txDescIdx < 2 ^ 16

/-- Between `s` and `s'` the packets `sents` were put into the queue, in order. -/
structure Published (s s' : State) (sents : List Sent) : Prop where
  size : s'.txq.qsize = s.txq.qsize
  availIdx : s'.txq.availIdx = u16 (s.txq.availIdx + sents.length)
  txDescIdx : s'.txDescIdx = u16 (s.txDescIdx + sents.length)
  place : ∀ i sent, sents[i]? = some sent →
    sent.desc = Ring.slot s.txq.qsize (s.txDescIdx + i) ∧
      sent.slot = Ring.slot s.txq.qsize (s.txq.availIdx + i)
  desc : ∀ sent ∈ sents, (s'.txq.desc sent.desc).addr = sent.frame
  ring : ∀ sent ∈ sents, s'.txq.availRing sent.slot = sent.desc
  otherDesc : ∀ d, (∀ sent ∈ sents, sent.desc ≠ d) → s'.txq.desc d = s.txq.desc d
  otherSlot : ∀ slot, (∀ sent ∈ sents, sent.slot ≠ slot) →
    s'.txq.availRing slot = s.txq.availRing slot

section Published

variable {exponent : Nat} {s s' middle : State} {sents later : List Sent}

theorem TxCounters.published (counters : TxCounters exponent s) (published : Published s s' sents) :
    TxCounters exponent s' where
  size := published.size.trans counters.size
  availIdx := by
    rw [published.availIdx]
    exact u16_lt _
  txDescIdx := by
    rw [published.txDescIdx]
    exact u16_lt _

/-- Only the rings and the counters matter. -/
theorem Published.congr (published : Published s middle sents)
    (size : s'.txq.qsize = middle.txq.qsize) (availIdx : s'.txq.availIdx = middle.txq.availIdx)
    (desc : s'.txq.desc = middle.txq.desc) (availRing : s'.txq.availRing = middle.txq.availRing)
    (txDescIdx : s'.txDescIdx = middle.txDescIdx) : Published s s' sents where
  size := size.trans published.size
  availIdx := availIdx.trans published.availIdx
  txDescIdx := txDescIdx.trans published.txDescIdx
  place := published.place
  desc := by
    rw [desc]
    exact published.desc
  ring := by
    rw [availRing]
    exact published.ring
  otherDesc := by
    rw [desc]
    exact published.otherDesc
  otherSlot := by
    rw [availRing]
    exact published.otherSlot

theorem Published.nothing (counters : TxCounters exponent s) (same : SameTx s s') :
    Published s s' [] where
  size := by rw [same.txq]
  availIdx := by
    rw [same.txq, List.length_nil, Nat.add_zero, u16_of_lt counters.availIdx]
  txDescIdx := by
    rw [same.txDescIdx, List.length_nil, Nat.add_zero, u16_of_lt counters.txDescIdx]
  place := by
    intro i sent isSent
    cases isSent
  desc := by simp
  ring := by simp
  otherDesc := by
    intro d _
    rw [same.txq]
  otherSlot := by
    intro slot _
    rw [same.txq]

/-- Packets in different places of a sequence have different descriptors and slots. -/
theorem Published.place_ne (counters : TxCounters exponent s) (published : Published s s' sents)
    (room : sents.length ≤ Ring.capacity (2 ^ exponent)) {i j : Nat} {sent other : Sent}
    (isSent : sents[i]? = some sent) (isOther : sents[j]? = some other) (ordered : i < j) :
    sent.desc ≠ other.desc ∧ sent.slot ≠ other.slot := by
  have below := (List.getElem?_eq_some_iff.mp isOther).1
  rw [(published.place i sent isSent).1, (published.place j other isOther).1,
    (published.place i sent isSent).2, (published.place j other isOther).2]
  exact ⟨Ring.slot_ne counters.size (by omega) (by rw [counters.size]; omega),
    Ring.slot_ne counters.size (by omega) (by rw [counters.size]; omega)⟩

/-- Sequences one after the other. -/
theorem Published.append (counters : TxCounters exponent s) (first : Published s middle sents)
    (second : Published middle s' later)
    (room : sents.length + later.length ≤ Ring.capacity (2 ^ exponent)) :
    Published s s' (sents ++ later) := by
  have place : ∀ i sent, (sents ++ later)[i]? = some sent →
      sent.desc = Ring.slot s.txq.qsize (s.txDescIdx + i) ∧
        sent.slot = Ring.slot s.txq.qsize (s.txq.availIdx + i) := by
    intro i sent isSent
    rcases Nat.lt_or_ge i sents.length with early | late
    · rw [List.getElem?_append_left early] at isSent
      exact first.place i sent isSent
    · rw [List.getElem?_append_right late] at isSent
      have isPlace := second.place _ sent isSent
      rw [first.size, first.txDescIdx, first.availIdx, Ring.slot_u16_add, Ring.slot_u16_add] at isPlace
      have total : ∀ counter, counter + sents.length + (i - sents.length) = counter + i := by omega
      rw [total, total] at isPlace
      exact isPlace
  have apart : ∀ sent ∈ sents, ∀ other ∈ later,
      other.desc ≠ sent.desc ∧ other.slot ≠ sent.slot := by
    intro sent isEarly other isLater
    rcases List.getElem?_of_mem isEarly with ⟨i, isSent⟩
    rcases List.getElem?_of_mem isLater with ⟨j, isOther⟩
    have iBelow := (List.getElem?_eq_some_iff.mp isSent).1
    have jBelow := (List.getElem?_eq_some_iff.mp isOther).1
    have firstPlace := first.place i sent isSent
    have secondPlace := place (sents.length + j) other (by
      rw [List.getElem?_append_right (Nat.le_add_right _ _), Nat.add_sub_cancel_left]
      exact isOther)
    rw [firstPlace.1, firstPlace.2, secondPlace.1, secondPlace.2]
    exact ⟨(Ring.slot_ne counters.size (by omega) (by rw [counters.size]; omega)).symm,
      (Ring.slot_ne counters.size (by omega) (by rw [counters.size]; omega)).symm⟩
  refine ⟨second.size.trans first.size, ?_, ?_, place, ?_, ?_, ?_, ?_⟩
  · rw [second.availIdx, first.availIdx, List.length_append]
    unfold u16
    rw [Nat.mod_add_mod, Nat.add_assoc]
  · rw [second.txDescIdx, first.txDescIdx, List.length_append]
    unfold u16
    rw [Nat.mod_add_mod, Nat.add_assoc]
  · intro sent member
    rcases List.mem_append.mp member with early | late
    · rw [second.otherDesc sent.desc fun other isLater => (apart sent early other isLater).1]
      exact first.desc sent early
    · exact second.desc sent late
  · intro sent member
    rcases List.mem_append.mp member with early | late
    · rw [second.otherSlot sent.slot fun other isLater => (apart sent early other isLater).2]
      exact first.ring sent early
    · exact second.ring sent late
  · intro d noSent
    rw [second.otherDesc d fun sent late => noSent sent (List.mem_append_right _ late),
      first.otherDesc d fun sent early => noSent sent (List.mem_append_left _ early)]
  · intro slot noSent
    rw [second.otherSlot slot fun sent late => noSent sent (List.mem_append_right _ late),
      first.otherSlot slot fun sent early => noSent sent (List.mem_append_left _ early)]

theorem TxCounters.head_eq (counters : TxCounters exponent s) :
    u16 (s.txDescIdx % s.txq.qsize) = Ring.slot s.txq.qsize s.txDescIdx := by
  have small : s.txDescIdx % s.txq.qsize < 2 ^ 16 :=
    Nat.lt_of_le_of_lt (Nat.mod_le _ _) counters.txDescIdx
  rw [u16_of_lt small, Ring.slot, u16_of_lt counters.txDescIdx]

theorem TxCounters.slot_eq (counters : TxCounters exponent s) :
    s.txq.availIdx % s.txq.qsize = Ring.slot s.txq.qsize s.txq.availIdx := by
  rw [Ring.slot, u16_of_lt counters.availIdx]

/-- One packet: its descriptor, its slot, and both counters. -/
theorem published_one {frame : Nat} {entry : Desc} (counters : TxCounters exponent s)
    (isFrame : entry.addr = frame)
    (txq : s'.txq =
      { s.txq with
        desc := Function.update s.txq.desc (u16 (s.txDescIdx % s.txq.qsize)) entry
        availRing := Function.update s.txq.availRing (s.txq.availIdx % s.txq.qsize)
          (u16 (s.txDescIdx % s.txq.qsize))
        availIdx := u16 (s.txq.availIdx + 1) })
    (txDescIdx : s'.txDescIdx = u16 (s.txDescIdx + 1)) :
    Published s s'
      [⟨u16 (s.txDescIdx % s.txq.qsize), s.txq.availIdx % s.txq.qsize, frame⟩] where
  size := by rw [txq]
  availIdx := by rw [txq, List.length_singleton]
  txDescIdx := by rw [txDescIdx, List.length_singleton]
  place := by
    intro i sent isSent
    rcases List.getElem?_eq_some_iff.mp isSent with ⟨isFirst, isOnly⟩
    have isZero : i = 0 := Nat.lt_one_iff.mp isFirst
    subst isZero
    rw [← isOnly]
    exact ⟨counters.head_eq, counters.slot_eq⟩
  desc := by
    intro sent member
    rw [List.mem_singleton.mp member, txq]
    dsimp only
    rw [Function.update_self, isFrame]
  ring := by
    intro sent member
    rw [List.mem_singleton.mp member, txq]
    dsimp only
    rw [Function.update_self]
  otherDesc := by
    intro d noSent
    rw [txq]
    exact Function.update_of_ne (Ne.symm (noSent _ List.mem_cons_self)) _ _
  otherSlot := by
    intro slot noSent
    rw [txq]
    exact Function.update_of_ne (Ne.symm (noSent _ List.mem_cons_self)) _ _

/-- A single `net_send`. -/
theorem netSend_published (counters : TxCounters exponent s) (macFrame : List UInt8)
    (frame : (pmmAllocFrame s.pmm).1 ≠ 0) :
    Published s ((netSend macFrame).run s).2 [s.nextSent] :=
  published_one counters rfl (netSend_txq macFrame frame).1 (netSend_txq macFrame frame).2

/-- The replies of a handler. -/
theorem Sending.published (counters : TxCounters exponent s) (sending : Sending s sents s')
    (room : sents.length ≤ Ring.capacity (2 ^ exponent)) : Published s s' sents := by
  induction sending with
  | none same => exact Published.nothing counters same
  | @send sents middle s' before macFrame frame same inductionHypothesis =>
      rw [List.length_append, List.length_singleton] at room
      have first := inductionHypothesis (by omega)
      have second := netSend_published (counters.published first) macFrame frame
      have both := first.append counters second room
      exact both.congr (congrArg Virtq.qsize same.txq) (congrArg Virtq.availIdx same.txq)
        (congrArg Virtq.desc same.txq) (congrArg Virtq.availRing same.txq) same.txDescIdx

end Published

end UniKernel.Net
