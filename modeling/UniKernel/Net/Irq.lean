import UniKernel.Net.Transmit
import UniKernel.Vmm.Frames

/-!
Owns the interrupt handler of the network device: the loops of `net_poll_rx` and
`net_cleanup_tx` as they run to completion, and what they do to the transmit side.
Whatever the packets are, `net_poll_rx` sends some replies, one after the other,
and `net_cleanup_tx` frees the frames of the returned packets.
-/

namespace UniKernel.Net

open UniKernel.Lib
open UniKernel.Pmm (pmmAllocFrame pmmFreeFrame indexToPhys)
open UniKernel.Vmm (allocFrames)

/-! ### The handler -/

/-- The loop of `net_poll_rx`, and its `received`. The counters are 16 bits wide,
so `2^16` iterations are enough. -/
def pollRxLoop : Nat → NetM Bool
  | 0 => pure false
  | fuel + 1 => do
      let s ← get
      if s.rxq.lastUsedIdx = s.rxq.usedIdx then return false
      pollRxOnce
      let _ ← pollRxLoop fuel
      return true

def netPollRx : NetM Unit := do
  if ← pollRxLoop (2 ^ 16) then
    modify fun s => { s with notified := s.notified ++ [0] }

/-- The loop of `net_cleanup_tx`. -/
def cleanupTxLoop : Nat → NetM Unit
  | 0 => pure ()
  | fuel + 1 => do
      let s ← get
      if s.txq.lastUsedIdx = s.txq.usedIdx then return
      cleanupTxOnce
      cleanupTxLoop fuel

def netCleanupTx : NetM Unit := cleanupTxLoop (2 ^ 16)

/-- `status` is the value of `VIRTIO_REG_INTERRUPT_STATUS`. -/
def virtioNetHandleIrq (status : Nat) : NetM Unit := do
  if status &&& 1 ≠ 0 then
    netPollRx
    netCleanupTx

/-! ### Replies -/

/-- The transmit side is the same. -/
structure SameTx (s s' : State) : Prop where
  pmm : s'.pmm = s.pmm
  txq : s'.txq = s.txq
  txDescIdx : s'.txDescIdx = s.txDescIdx
  notified : s'.notified.count 1 = s.notified.count 1

/-- What a successful `net_send` uses in state `s`. -/
def State.nextSent (s : State) : Sent :=
  ⟨u16 (s.txDescIdx % s.txq.qsize), s.txq.availIdx % s.txq.qsize, (pmmAllocFrame s.pmm).1⟩

/-- Code that leaves the transmit side alone but for the `net_send` calls that
used `sents`. -/
inductive Sending (s : State) : List Sent → State → Prop where
  | none {s' : State} (same : SameTx s s') : Sending s [] s'
  | send {sents : List Sent} {middle s' : State} (before : Sending s sents middle)
      (macFrame : List UInt8) (frame : (pmmAllocFrame middle.pmm).1 ≠ 0)
      (same : SameTx ((netSend macFrame).run middle).2 s') :
      Sending s (sents ++ [middle.nextSent]) s'

section Sending

variable {s s' middle : State} {sents later : List Sent}

theorem SameTx.refl (s : State) : SameTx s s := ⟨rfl, rfl, rfl, rfl⟩

theorem SameTx.trans (first : SameTx s middle) (second : SameTx middle s') : SameTx s s' :=
  ⟨second.pmm.trans first.pmm, second.txq.trans first.txq, second.txDescIdx.trans first.txDescIdx,
    second.notified.trans first.notified⟩

theorem Sending.same (sending : Sending s sents middle) (same : SameTx middle s') :
    Sending s sents s' := by
  cases sending with
  | none before => exact Sending.none (before.trans same)
  | send before macFrame frame after => exact Sending.send before macFrame frame (after.trans same)

theorem Sending.trans (first : Sending s sents middle) (second : Sending middle later s') :
    Sending s (sents ++ later) s' := by
  induction second with
  | none same =>
      rw [List.append_nil]
      exact first.same same
  | send _ macFrame frame same inductionHypothesis =>
      rw [← List.append_assoc]
      exact Sending.send inductionHypothesis macFrame frame same

/-- Every index on the stack is that of a frame. -/
def EntriesSmall (pmm : Pmm.State) : Prop :=
  ∀ position < pmm.stackTop, pmm.frameStack position < 2 ^ 31

theorem allocFrames_succ (count : Nat) (pmm : Pmm.State) :
    allocFrames (count + 1) pmm = (pmmAllocFrame (allocFrames count pmm)).2 :=
  Vmm.allocFrames_add count 1 pmm

theorem EntriesSmall.allocFrames {pmm : Pmm.State} (small : EntriesSmall pmm) (count : Nat) :
    EntriesSmall (Vmm.allocFrames count pmm) := by
  intro position below
  rcases Vmm.allocFrames_stack count pmm with ⟨stack, top⟩
  rw [stack]
  exact small position (by omega)

/-- The frame that `pmm_alloc_frame` returns after `count` other calls. -/
theorem frame_allocFrames {pmm : Pmm.State} {count : Nat} (enough : count < pmm.stackTop) :
    (pmmAllocFrame (allocFrames count pmm)).1 =
      indexToPhys (pmm.frameStack (pmm.stackTop - 1 - count)) := by
  rcases Vmm.allocFrames_stack count pmm with ⟨stack, top⟩
  have nonempty : (allocFrames count pmm).stackTop = pmm.stackTop - 1 - count + 1 := by omega
  rw [Pmm.pmmAllocFrame_of_nonempty nonempty, stack]

/-- A call of `pmm_alloc_frame` that returns 0 changes nothing. -/
theorem pmmAllocFrame_of_zero {pmm : Pmm.State} (small : EntriesSmall pmm)
    (noFrame : (pmmAllocFrame pmm).1 = 0) : pmm.stackTop = 0 ∧ (pmmAllocFrame pmm).2 = pmm := by
  cases nonempty : pmm.stackTop with
  | zero => exact ⟨rfl, by rw [Pmm.pmmAllocFrame_of_empty nonempty]⟩
  | succ top =>
      rw [Pmm.pmmAllocFrame_of_nonempty nonempty] at noFrame
      exact absurd noFrame (Pmm.indexToPhys_ne_zero (small top (by omega)))

/-- The frames that the replies use. -/
structure PopsFrames (pmm pmm' : Pmm.State) (sents : List Sent) : Prop where
  after : pmm' = allocFrames sents.length pmm
  enough : sents.length ≤ pmm.stackTop
  frame : ∀ i sent, sents[i]? = some sent →
    sent.frame = indexToPhys (pmm.frameStack (pmm.stackTop - 1 - i))

theorem Sending.pops (sending : Sending s sents s') : PopsFrames s.pmm s'.pmm sents := by
  induction sending with
  | none same =>
      refine ⟨same.pmm, Nat.zero_le _, ?_⟩
      intro i sent isSent
      cases isSent
  | @send sents middle s' before macFrame frame same inductionHypothesis =>
      have nonempty : middle.pmm.stackTop ≠ 0 := by
        intro empty
        rw [Pmm.pmmAllocFrame_of_empty empty] at frame
        exact frame rfl
      have after := inductionHypothesis.after
      have enough : sents.length < s.pmm.stackTop := by
        rw [after, (Vmm.allocFrames_stack _ _).2] at nonempty
        omega
      refine ⟨?_, ?_, ?_⟩
      · rw [same.pmm, (pmm_netSend macFrame frame).1, after, List.length_append,
          List.length_singleton, allocFrames_succ]
      · rw [List.length_append]
        exact enough
      · intro i sent isSent
        rcases getElem?_concat_cases isSent with earlier | ⟨rfl, rfl⟩
        · exact inductionHypothesis.frame i sent earlier
        · change (pmmAllocFrame middle.pmm).1 = _
          rw [after, frame_allocFrames enough]

/-- The number of replies is the number of notifications. -/
theorem Sending.count_notified (sending : Sending s sents s') :
    s'.notified.count 1 = s.notified.count 1 + sents.length := by
  induction sending with
  | none same => exact same.notified
  | send before macFrame frame same inductionHypothesis =>
      rw [same.notified, (pmm_netSend macFrame frame).2, List.count_append, inductionHypothesis,
        List.length_append, Nat.add_assoc]
      rfl

/-- A call of `net_send` that finds no frame changes nothing. -/
theorem netSend_sameTx {s : State} (small : EntriesSmall s.pmm) (macFrame : List UInt8)
    (noFrame : (pmmAllocFrame s.pmm).1 = 0) : SameTx s ((netSend macFrame).run s).2 := by
  have unchanged : ((netSend macFrame).run s).2 = { s with pmm := (pmmAllocFrame s.pmm).2 } := by
    unfold netSend
    simp only [noFrame, StateT.run_bind, StateT.run_get, pure_bind]
    rfl
  rw [unchanged]
  exact ⟨(pmmAllocFrame_of_zero small noFrame).2, rfl, rfl, rfl⟩

/-- Whatever a handler does to packets, its `net_send` calls are all it does to
the transmit side. -/
theorem tolerates_sending :
    Tolerates fun s s' => EntriesSmall s.pmm → ∃ sents, Sending s sents s' where
  refl := fun s _ => ⟨[], Sending.none (SameTx.refl s)⟩
  trans := by
    intro first second third early late small
    rcases early small with ⟨sents, early⟩
    have smallLater : EntriesSmall second.pmm := by
      rw [early.pops.after]
      exact small.allocFrames _
    rcases late smallLater with ⟨later, late⟩
    exact ⟨sents ++ later, early.trans late⟩
  access := fun s _ _ _ _ => ⟨[], Sending.none ⟨rfl, rfl, rfl, rfl⟩⟩
  send := by
    intro macFrame s small
    by_cases noFrame : (pmmAllocFrame s.pmm).1 = 0
    · exact ⟨[], Sending.none (netSend_sameTx small macFrame noFrame)⟩
    · exact ⟨_, Sending.send (Sending.none (SameTx.refl s)) macFrame noFrame (SameTx.refl _)⟩

theorem pollRxOnce_sending (small : EntriesSmall s.pmm) :
    ∃ sents, Sending s sents (pollRxOnce.run s).2 := by
  rcases tolerates_sending.receivePacket s.rxq.nextUsed s small with ⟨sents, sending⟩
  exact ⟨sents, sending.same ⟨rfl, rfl, rfl, rfl⟩⟩

/-- One iteration of the loop of `net_poll_rx`, and that it stops. -/
theorem pollRxLoop_succ (fuel : Nat) (s : State) :
    (pollRxLoop (fuel + 1)).run s =
      if s.rxq.lastUsedIdx = s.rxq.usedIdx then (false, s)
      else (true, ((pollRxLoop fuel).run (pollRxOnce.run s).2).2) := by
  rw [pollRxLoop]
  by_cases done : s.rxq.lastUsedIdx = s.rxq.usedIdx
  · simp only [done, if_true, StateT.run_bind, StateT.run_get, pure_bind]
    rfl
  · simp only [done, if_false, StateT.run_bind, StateT.run_get, pure_bind]
    rfl

theorem pollRxLoop_sending (fuel : Nat) (small : EntriesSmall s.pmm) :
    ∃ sents, Sending s sents ((pollRxLoop fuel).run s).2 := by
  induction fuel generalizing s with
  | zero => exact ⟨[], Sending.none (SameTx.refl s)⟩
  | succ fuel inductionHypothesis =>
      rw [pollRxLoop_succ]
      by_cases done : s.rxq.lastUsedIdx = s.rxq.usedIdx
      · rw [if_pos done]
        exact ⟨[], Sending.none (SameTx.refl s)⟩
      · rw [if_neg done]
        rcases pollRxOnce_sending small with ⟨sents, first⟩
        have smallLater : EntriesSmall (pollRxOnce.run s).2.pmm := by
          rw [first.pops.after]
          exact small.allocFrames _
        rcases inductionHypothesis smallLater with ⟨later, others⟩
        exact ⟨sents ++ later, first.trans others⟩

theorem netPollRx_run (s : State) :
    (netPollRx.run s).2 = ((pollRxLoop (2 ^ 16)).run s).2 ∨
      (netPollRx.run s).2 = { ((pollRxLoop (2 ^ 16)).run s).2 with
        notified := ((pollRxLoop (2 ^ 16)).run s).2.notified ++ [0] } := by
  unfold netPollRx
  rw [StateT.run_bind]
  cases received : ((pollRxLoop (2 ^ 16)).run s).1 with
  | false =>
      refine Or.inl ?_
      simp only [bind, received]
      rfl
  | true =>
      refine Or.inr ?_
      simp only [bind, received]
      rfl

theorem netPollRx_sending (small : EntriesSmall s.pmm) :
    ∃ sents, Sending s sents (netPollRx.run s).2 := by
  rcases pollRxLoop_sending (2 ^ 16) small with ⟨sents, sending⟩
  refine ⟨sents, ?_⟩
  rcases netPollRx_run s with silent | notified
  · rw [silent]
    exact sending
  · rw [notified]
    refine sending.same ⟨rfl, rfl, rfl, ?_⟩
    rw [List.count_append]
    rfl

/-! ### Freeing -/

/-- The frames of the returned packets, freed in order. -/
def freeReturned (desc : Nat → Desc) (elements : List UsedElem) (pmm : Pmm.State) : Pmm.State :=
  elements.foldl (fun pmm elem => pmmFreeFrame (desc elem.id).addr pmm) pmm

theorem cleanupTxLoop_succ (fuel : Nat) (s : State) :
    ((cleanupTxLoop (fuel + 1)).run s).2 =
      if s.txq.lastUsedIdx = s.txq.usedIdx then s
      else ((cleanupTxLoop fuel).run (cleanupTxOnce.run s).2).2 := by
  rw [cleanupTxLoop]
  by_cases done : s.txq.lastUsedIdx = s.txq.usedIdx
  · simp only [done, if_true, StateT.run_bind, StateT.run_get, pure_bind]
    rfl
  · simp only [done, if_false, StateT.run_bind, StateT.run_get, pure_bind]
    rfl

/-- `net_cleanup_tx` frees the frame of every returned packet. -/
theorem cleanupTxLoop_run {fuel : Nat} {s : State} {elements : List UsedElem}
    (used : Ring.Holds s.txq.usedRing s.txq.qsize s.txq.lastUsedIdx s.txq.usedIdx elements)
    (short : elements.length < 2 ^ 16) (enough : elements.length ≤ fuel) :
    ((cleanupTxLoop fuel).run s).2 =
      { s with
        pmm := freeReturned s.txq.desc elements s.pmm
        txq := { s.txq with lastUsedIdx := s.txq.usedIdx } } := by
  induction fuel generalizing s elements with
  | zero =>
      have empty : elements = [] := List.length_eq_zero_iff.mp (Nat.le_zero.mp enough)
      have done : s.txq.lastUsedIdx = s.txq.usedIdx := by
        by_contra more
        exact (used.ne_iff short).mp more empty
      rw [empty, ← done]
      rfl
  | succ fuel inductionHypothesis =>
      rw [cleanupTxLoop_succ]
      cases elements with
      | nil =>
          have done : s.txq.lastUsedIdx = s.txq.usedIdx := by
            by_contra more
            exact (used.ne_iff short).mp more rfl
          rw [if_pos done, ← done]
          rfl
      | cons elem rest =>
          have more := (used.ne_iff short).mpr (List.cons_ne_nil elem rest)
          have isNext : s.txq.nextUsed = elem := by
            rw [nextUsed_of_small used.firstSmall, used.head]
          rw [if_neg more]
          have later := inductionHypothesis (s := (cleanupTxOnce.run s).2) used.tail
            (Nat.lt_of_succ_lt short) (Nat.le_of_succ_le_succ enough)
          rw [later]
          have once : (cleanupTxOnce.run s).2 =
              { s with
                pmm := pmmFreeFrame (s.txq.desc s.txq.nextUsed.id).addr s.pmm
                txq := { s.txq with lastUsedIdx := u16 (s.txq.lastUsedIdx + 1) } } := rfl
          rw [once, isNext]
          rfl

end Sending

/-! ### The whole handler -/

/-- The counters of the used ring of the transmit queue are the same. -/
structure SameCounters (s s' : State) : Prop where
  qsize : s'.txq.qsize = s.txq.qsize
  usedIdx : s'.txq.usedIdx = s.txq.usedIdx
  lastUsedIdx : s'.txq.lastUsedIdx = s.txq.lastUsedIdx

theorem SameCounters.refl (s : State) : SameCounters s s := ⟨rfl, rfl, rfl⟩

theorem sameCounters_netSend (macFrame : List UInt8) (s : State) :
    SameCounters s ((netSend macFrame).run s).2 := by
  by_cases noFrame : (Pmm.pmmAllocFrame s.pmm).1 = 0
  · have same := (netSend_txq_of_noFrame macFrame noFrame).1
    refine ⟨?_, ?_, ?_⟩ <;> rw [same]
  · have txq := (netSend_txq macFrame noFrame).1
    refine ⟨?_, ?_, ?_⟩ <;> rw [txq]

/-- Handling a packet leaves them alone, whatever it sends. -/
theorem tolerates_counters : Tolerates SameCounters where
  refl := SameCounters.refl
  trans := fun first second => ⟨second.qsize.trans first.qsize, second.usedIdx.trans first.usedIdx,
    second.lastUsedIdx.trans first.lastUsedIdx⟩
  access := fun _ _ _ _ => ⟨rfl, rfl, rfl⟩
  send := fun macFrame s => sameCounters_netSend macFrame s

/-- One round of `net_poll_rx` takes one entry and gives one buffer back. -/
theorem pollRxOnce_counters (s : State) :
    (pollRxOnce.run s).2.rxq.lastUsedIdx = u16 (s.rxq.lastUsedIdx + 1) ∧
      (pollRxOnce.run s).2.rxq.availIdx = u16 (s.rxq.availIdx + 1) ∧
      (pollRxOnce.run s).2.rxq.usedIdx = s.rxq.usedIdx ∧
      SameCounters s (pollRxOnce.run s).2 := by
  have received : ((receivePacket s.rxq.nextUsed).run s).2.rxq = s.rxq :=
    tolerates_rxq.receivePacket s.rxq.nextUsed s
  have counters := tolerates_counters.receivePacket s.rxq.nextUsed s
  refine ⟨?_, ?_, ?_, counters.qsize, counters.usedIdx, counters.lastUsedIdx⟩
  · change u16 (((receivePacket s.rxq.nextUsed).run s).2.rxq.lastUsedIdx + 1) = _
    rw [received]
  · change u16 (((receivePacket s.rxq.nextUsed).run s).2.rxq.availIdx + 1) = _
    rw [received]
  · change ((receivePacket s.rxq.nextUsed).run s).2.rxq.usedIdx = _
    rw [received]

/-- The loop of `net_poll_rx` makes one round for each entry, and then stops of its own. -/
theorem pollRxLoop_run {s : State} (small : s.rxq.lastUsedIdx < 2 ^ 16)
    (usedSmall : s.rxq.usedIdx < 2 ^ 16) :
    ((pollRxLoop (2 ^ 16)).run s).2 =
      (fun s => (pollRxOnce.run s).2)^[Ring.count s.rxq.lastUsedIdx s.rxq.usedIdx] s := by
  refine Ring.loop_eq_iterate (·.rxq.lastUsedIdx) (·.rxq.usedIdx) (fun s => (pollRxOnce.run s).2)
    (fun fuel s => ((pollRxLoop fuel).run s).2) (fun _ => rfl) ?_
    (fun s => (pollRxOnce_counters s).1) (fun s => (pollRxOnce_counters s).2.2.1) small usedSmall
    (Nat.le_of_lt (u16_lt _))
  intro fuel s
  rw [pollRxLoop_succ]
  split <;> rfl

/-- So does that of `net_cleanup_tx`. -/
theorem netCleanupTx_run {s : State} (small : s.txq.lastUsedIdx < 2 ^ 16)
    (usedSmall : s.txq.usedIdx < 2 ^ 16) :
    (netCleanupTx.run s).2 =
      (fun s => (cleanupTxOnce.run s).2)^[Ring.count s.txq.lastUsedIdx s.txq.usedIdx] s := by
  unfold netCleanupTx
  exact Ring.loop_eq_iterate (fun s : State => s.txq.lastUsedIdx) (fun s : State => s.txq.usedIdx)
    (fun s => (cleanupTxOnce.run s).2) (fun fuel s => ((cleanupTxLoop fuel).run s).2)
    (fun _ => rfl) cleanupTxLoop_succ (fun _ => rfl) (fun _ => rfl) small usedSmall
    (Nat.le_of_lt (u16_lt _))

/-- The counters fit into their fields. -/
structure CountersFit (s : State) : Prop where
  rxLast : s.rxq.lastUsedIdx < 2 ^ 16
  rxUsed : s.rxq.usedIdx < 2 ^ 16
  rxAvail : s.rxq.availIdx < 2 ^ 16
  txLast : s.txq.lastUsedIdx < 2 ^ 16
  txUsed : s.txq.usedIdx < 2 ^ 16

/-- Both queues are served: the driver went through all used entries, and gave back a receive
buffer for each that it received. -/
structure Served (s s' : State) : Prop where
  rxLast : s'.rxq.lastUsedIdx = s.rxq.usedIdx
  rxUsed : s'.rxq.usedIdx = s.rxq.usedIdx
  rxAvail : s'.rxq.availIdx =
    u16 (s.rxq.availIdx + Ring.count s.rxq.lastUsedIdx s.rxq.usedIdx)
  txLast : s'.txq.lastUsedIdx = s.txq.usedIdx
  txUsed : s'.txq.usedIdx = s.txq.usedIdx

theorem netPollRx_counters {s : State} (fit : CountersFit s) :
    (netPollRx.run s).2.rxq.lastUsedIdx = s.rxq.usedIdx ∧
      (netPollRx.run s).2.rxq.usedIdx = s.rxq.usedIdx ∧
      (netPollRx.run s).2.rxq.availIdx =
        u16 (s.rxq.availIdx + Ring.count s.rxq.lastUsedIdx s.rxq.usedIdx) ∧
      (netPollRx.run s).2.txq.lastUsedIdx = s.txq.lastUsedIdx ∧
      (netPollRx.run s).2.txq.usedIdx = s.txq.usedIdx := by
  have loop : (netPollRx.run s).2.rxq = ((pollRxLoop (2 ^ 16)).run s).2.rxq ∧
      (netPollRx.run s).2.txq = ((pollRxLoop (2 ^ 16)).run s).2.txq := by
    rcases netPollRx_run s with silent | notified
    · rw [silent]
      exact ⟨rfl, rfl⟩
    · rw [notified]
      exact ⟨rfl, rfl⟩
  rw [loop.1, loop.2, pollRxLoop_run fit.rxLast fit.rxUsed]
  generalize rounds : Ring.count s.rxq.lastUsedIdx s.rxq.usedIdx = count
  have last := Ring.counter_iterate (·.rxq.lastUsedIdx) (fun s => (pollRxOnce_counters s).1) count
    fit.rxLast
  have avail := Ring.counter_iterate (·.rxq.availIdx) (fun s => (pollRxOnce_counters s).2.1) count
    fit.rxAvail
  refine ⟨last.trans ?_, ?_, avail, ?_, ?_⟩
  · rw [← rounds]
    exact Ring.u16_add_count fit.rxLast fit.rxUsed
  · exact Ring.kept_iterate (·.rxq.usedIdx) (fun s => (pollRxOnce_counters s).2.2.1) count s
  · exact Ring.kept_iterate (·.txq.lastUsedIdx)
      (fun s => (pollRxOnce_counters s).2.2.2.lastUsedIdx) count s
  · exact Ring.kept_iterate (·.txq.usedIdx)
      (fun s => (pollRxOnce_counters s).2.2.2.usedIdx) count s

/-- Whatever the packets are, the handler returns: without the bit for the queues it does
nothing, and with it both queues are served. -/
theorem virtioNetHandleIrq_serves {s : State} (fit : CountersFit s) (status : Nat) :
    (status &&& 1 = 0 → ((virtioNetHandleIrq status).run s).2 = s) ∧
      (status &&& 1 ≠ 0 → Served s ((virtioNetHandleIrq status).run s).2) := by
  constructor
  · intro silent
    unfold virtioNetHandleIrq
    rw [if_neg (not_not.mpr silent)]
    rfl
  · intro bit
    obtain ⟨rxLast, rxUsed, rxAvail, txLast, txUsed⟩ := netPollRx_counters fit
    have run : ((virtioNetHandleIrq status).run s).2 =
        (netCleanupTx.run (netPollRx.run s).2).2 := by
      unfold virtioNetHandleIrq
      rw [if_pos bit]
      rfl
    rw [run, netCleanupTx_run (by rw [txLast]; exact fit.txLast) (by rw [txUsed]; exact fit.txUsed),
      txLast, txUsed]
    have sameRx := Ring.kept_iterate (·.rxq) (fun s => (rfl : (cleanupTxOnce.run s).2.rxq = s.rxq))
      (Ring.count s.txq.lastUsedIdx s.txq.usedIdx) (netPollRx.run s).2
    have last := Ring.counter_iterate (·.txq.lastUsedIdx)
      (fun s => (rfl : (cleanupTxOnce.run s).2.txq.lastUsedIdx = u16 (s.txq.lastUsedIdx + 1)))
      (Ring.count s.txq.lastUsedIdx s.txq.usedIdx)
      (show (netPollRx.run s).2.txq.lastUsedIdx < 2 ^ 16 by rw [txLast]; exact fit.txLast)
    have used := Ring.kept_iterate (·.txq.usedIdx)
      (fun s => (rfl : (cleanupTxOnce.run s).2.txq.usedIdx = s.txq.usedIdx))
      (Ring.count s.txq.lastUsedIdx s.txq.usedIdx) (netPollRx.run s).2
    refine ⟨?_, ?_, ?_, last.trans ?_, used.trans txUsed⟩
    · rw [sameRx, rxLast]
    · rw [sameRx, rxUsed]
    · rw [sameRx, rxAvail]
    · rw [txLast]
      exact Ring.u16_add_count fit.txLast fit.txUsed

/-- One packet was received, of no bytes. -/
theorem virtioNetHandleIrq_serves_one_packet : ∃ s : State,
    s.rxq.lastUsedIdx = 0 ∧ s.rxq.usedIdx = 1 ∧
      ((virtioNetHandleIrq 1).run s).2.rxq.lastUsedIdx = 1 ∧
      ((virtioNetHandleIrq 1).run s).2.rxq.availIdx = 1 := by
  let s : State :=
    { rxBoot (Pmm.pmmInit 0x40001000 0x8000 Pmm.State.zero) 2 with
      rxq := { Virtq.fresh 2 with usedIdx := 1 } }
  have fit : CountersFit s := by constructor <;> decide
  have served := (virtioNetHandleIrq_serves fit 1).2 (by decide)
  have given : u16 (s.rxq.availIdx + Ring.count s.rxq.lastUsedIdx s.rxq.usedIdx) = 1 := by decide
  exact ⟨s, rfl, rfl, served.rxLast, served.rxAvail.trans given⟩

end UniKernel.Net
