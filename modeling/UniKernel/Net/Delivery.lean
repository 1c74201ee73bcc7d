import UniKernel.Net.Irq

/-!
Owns the network interrupt as a whole: `el1_irq_handler` on core 0 with the
statements of `virtio_net_handle_irq`, the interrupt status of the device and
the active state of interrupt 48 in the interrupt controller, interleaved with
the device and with code that is interrupted.

The device owes an interrupt from the time it returns a buffer until it sets bit
0 of its interrupt status. The driver clears the status before it looks at the
rings, so whatever it has not served when it leaves is announced once more.
-/

namespace UniKernel.Net

open UniKernel.Lib

/-! ### The machine -/

/-- Where core 0 is: in code that can be interrupted, or in `el1_irq_handler`. -/
inductive IrqPoint where
  | thread
  | entered
  | acknowledged
  | readStatus (status : BitVec 32)
  | polling
  | cleaning
  | ending (id : Nat)
deriving DecidableEq

/-- `announced` is the avail index at the last notification of the receive queue;
`txReturned` and `txCleaned` count the packets the device returned and those
whose frames `net_cleanup_tx` freed. -/
structure Board where
  rx : RxMachine
  point : IrqPoint
  interruptStatus : BitVec 32
  owed : Bool
  active : Bool
  announced : Nat
  txReturned : Nat
  txCleaned : Nat

/-- What the device does to the receive queue; the rest is the driver's. -/
def RxEvent.byDevice : RxEvent → Bool
  | .take | .write _ | .give _ => true
  | _ => false

def RxEvent.isGive : RxEvent → Bool
  | .give _ => true
  | _ => false

inductive BoardEvent where
  | device (event : RxEvent)
  | giveTx (elem : UsedElem)
  | signal
  | configure
  | threadSend (macFrame : List UInt8)
  | interrupt
  | gicAoi
  | readStatus
  | ackStatus
  | poll (event : RxEvent)
  | polled
  | cleanup
  | cleaned
  | gicEoi

inductive BoardStep : Board → BoardEvent → Board → Prop where
  | device {b : Board} {event : RxEvent} {rx : RxMachine} (byDevice : event.byDevice = true)
      (taken : RxStep b.rx event rx) :
      BoardStep b (.device event) { b with rx := rx, owed := b.owed || event.isGive }
  /-- the device returns no more packets than the transmit queue has descriptors -/
  | giveTx {b : Board} (elem : UsedElem)
      (room : b.txReturned < b.txCleaned + b.rx.net.txq.qsize) :
      BoardStep b (.giveTx elem)
        { b with
          rx.net.txq.usedRing := Function.update b.rx.net.txq.usedRing
            (Ring.slot b.rx.net.txq.qsize b.rx.net.txq.usedIdx) elem
          rx.net.txq.usedIdx := u16 (b.rx.net.txq.usedIdx + 1)
          owed := true
          txReturned := b.txReturned + 1 }
  | signal {b : Board} (owed : b.owed = true) :
      BoardStep b .signal { b with interruptStatus := b.interruptStatus ||| 1, owed := false }
  /-- the device changed its configuration -/
  | configure {b : Board} :
      BoardStep b .configure { b with interruptStatus := b.interruptStatus ||| 2 }
  /-- a call of `net_send` in interrupted code -/
  | threadSend {b : Board} (macFrame : List UInt8) (atThread : b.point = .thread) :
      BoardStep b (.threadSend macFrame) { b with rx.net := ((netSend macFrame).run b.rx.net).2 }
  /-- the interrupt line is high and the controller signals it -/
  | interrupt {b : Board} (atThread : b.point = .thread) (line : b.interruptStatus ≠ 0)
      (inactive : b.active = false) :
      BoardStep b .interrupt { b with point := .entered }
  /-- `gic_aoi`, and the `switch` on what it returns; 1023 is a spurious interrupt -/
  | gicAoi {b : Board} (atPoint : b.point = .entered) :
      BoardStep b .gicAoi
        { b with
          active := if b.interruptStatus ≠ 0 then true else b.active
          point := if b.interruptStatus ≠ 0 ∧ b.active = false then .acknowledged
            else .ending 1023 }
  | readStatus {b : Board} (atPoint : b.point = .acknowledged) :
      BoardStep b .readStatus { b with point := .readStatus b.interruptStatus }
  /-- writing the status back clears its bits; then `if (status & 1)` -/
  | ackStatus {b : Board} {status : BitVec 32} (atPoint : b.point = .readStatus status) :
      BoardStep b .ackStatus
        { b with
          interruptStatus := b.interruptStatus &&& ~~~status
          point := if status &&& 1 ≠ 0 then .polling else .ending 48 }
  | poll {b : Board} {event : RxEvent} {rx : RxMachine} (atPoint : b.point = .polling)
      (byDriver : event.byDevice = false) (inLoop : event ≠ .finish)
      (taken : RxStep b.rx event rx) :
      BoardStep b (.poll event) { b with rx := rx }
  | polled {b : Board} {rx : RxMachine} (atPoint : b.point = .polling)
      (taken : RxStep b.rx .finish rx) :
      BoardStep b .polled
        { b with
          rx := rx
          point := .cleaning
          announced := if b.rx.received then b.rx.net.rxq.availIdx else b.announced }
  | cleanup {b : Board} (atPoint : b.point = .cleaning)
      (more : b.rx.net.txq.lastUsedIdx ≠ b.rx.net.txq.usedIdx) :
      BoardStep b .cleanup
        { b with rx.net := (cleanupTxOnce.run b.rx.net).2, txCleaned := b.txCleaned + 1 }
  | cleaned {b : Board} (atPoint : b.point = .cleaning)
      (empty : b.rx.net.txq.lastUsedIdx = b.rx.net.txq.usedIdx) :
      BoardStep b .cleaned { b with point := .ending 48 }
  | gicEoi {b : Board} {id : Nat} (atPoint : b.point = .ending id) :
      BoardStep b .gicEoi
        { b with active := if id = 48 then false else b.active, point := .thread }

/-- After `net_init`: the receive queue is filled and announced. -/
def boardStart (s : State) : Board where
  rx := rxStart s
  point := .thread
  interruptStatus := 0
  owed := false
  active := false
  announced := (rxStart s).net.rxq.availIdx
  txReturned := 0
  txCleaned := 0

/-! ### The transmit counters -/

variable {b b' : Board} {s s' : State} {exponent : Nat} {rx : RxMachine} {event : RxEvent}

/-- No step on the receive queue touches the counters of the transmit queue. -/
theorem RxStep.sameCounters {m : RxMachine} (taken : RxStep m event rx) :
    SameCounters m.net rx.net := by
  cases taken with
  | @handle elem atPoint => exact tolerates_counters.receivePacket elem m.net
  | finish => cases m.received <;> exact ⟨rfl, rfl, rfl⟩
  | _ => exact ⟨rfl, rfl, rfl⟩

/-! ### The receive queue -/

/-- Changes outside the receive queue keep its invariant. -/
theorem RxInvariant.withNet {m : RxMachine} {published : List Nat} {pending : List UsedElem}
    (inv : RxInvariant exponent m published pending) {net : State} (same : net.rxq = m.net.rxq) :
    RxInvariant exponent { m with net := net } published pending := by
  refine ⟨?_, ?_, ?_, ?_, inv.places, inv.order, ?_⟩
  · rw [same]
    exact inv.size
  · rw [same]
    exact inv.avail
  · have used := inv.used
    unfold RxMachine.firstPending at used ⊢
    rw [same]
    exact used
  · rw [same]
    exact inv.lastSmall
  · rw [same]
    exact inv.reposted

/-- The driver is at the head of its loop and has received nothing in it. -/
def RxMachine.Rests (m : RxMachine) : Prop := m.point = .loopHead ∧ m.received = false

/-- All published buffers have been announced, unless the driver has published some
in the loop it is in. -/
def RxMachine.Announced (m : RxMachine) (announced : Nat) : Prop :=
  m.received = false → m.point ≠ .published → announced = m.net.rxq.availIdx

/-- There is a returned buffer that the driver has not advanced over. -/
def RxMachine.Waiting (m : RxMachine) : Prop := m.net.rxq.lastUsedIdx ≠ m.net.rxq.usedIdx

section RxSteps

variable {m : RxMachine} {announced : Nat}

theorem RxMachine.Announced.step (isAnnounced : m.Announced announced) (taken : RxStep m event rx)
    (inLoop : event ≠ .finish) : rx.Announced announced := by
  cases taken with
  | fetch atHead =>
      intro received _
      refine isAnnounced received ?_
      rw [atHead]
      exact RxPoint.noConfusion
  | @handle elem atPoint =>
      intro received _
      have same := tolerates_rxq.receivePacket elem m.net
      dsimp only at same ⊢
      rw [same]
      refine isAnnounced received ?_
      rw [atPoint]
      exact RxPoint.noConfusion
  | repost atPoint =>
      intro received _
      refine isAnnounced received ?_
      rw [atPoint]
      exact RxPoint.noConfusion
  | publish => exact fun _ notPublished => absurd rfl notPublished
  | advance => exact fun received => nomatch received
  | finish => exact absurd rfl inLoop
  | take => exact isAnnounced
  | write => exact isAnnounced
  | give => exact isAnnounced

/-- The device keeps the driver where it is. -/
theorem RxStep.rests (taken : RxStep m event rx) (byDevice : event.byDevice = true)
    (rests : m.Rests) : rx.Rests := by
  cases taken with
  | take => exact rests
  | write => exact rests
  | give => exact rests
  | _ => cases byDevice

/-- Only returning a buffer gives the driver something to wait for. -/
theorem RxStep.waiting (taken : RxStep m event rx) (byDevice : event.byDevice = true)
    (waiting : rx.Waiting) : m.Waiting ∨ event.isGive = true := by
  cases taken with
  | take => exact Or.inl waiting
  | write => exact Or.inl waiting
  | give => exact Or.inr rfl
  | _ => cases byDevice

end RxSteps

/-! ### The invariant -/

/-- The device will announce what it returned, or has done so. -/
def Board.Announcing (b : Board) : Prop := b.owed = true ∨ b.interruptStatus &&& 1 ≠ 0

/-- Interrupt 48 is active between `gic_aoi` and `gic_eoi`. -/
def IrqPoint.active : IrqPoint → Bool
  | .thread | .entered => false
  | _ => true

/-- Whatever the driver has not served and does not look at any more is announced. -/
structure Delivers (exponent : Nat) (b : Board) : Prop where
  queue : ∃ published pending, RxInvariant exponent b.rx published pending
  rests : b.point ≠ .polling → b.rx.Rests
  rxSeen : b.rx.Waiting → b.point ≠ .polling → b.Announcing
  txSeen : b.txCleaned ≠ b.txReturned → b.point ≠ .polling → b.point ≠ .cleaning → b.Announcing
  txSmall : b.rx.net.txq.qsize ≤ 2 ^ 15
  txUsed : b.rx.net.txq.usedIdx = u16 b.txReturned
  txLast : b.rx.net.txq.lastUsedIdx = u16 b.txCleaned
  txOrder : b.txCleaned ≤ b.txReturned
  txRoom : b.txReturned ≤ b.txCleaned + b.rx.net.txq.qsize
  announced : b.rx.Announced b.announced
  active : b.active = b.point.active
  line : b.point = .entered → b.interruptStatus ≠ 0
  served : ∀ id, b.point = .ending id → id = 48

theorem Delivers.txCounters_eq (delivers : Delivers exponent b) :
    b.rx.net.txq.lastUsedIdx = b.rx.net.txq.usedIdx ↔ b.txCleaned = b.txReturned := by
  have small := delivers.txSmall
  have order := delivers.txOrder
  have room := delivers.txRoom
  rw [delivers.txUsed, delivers.txLast]
  refine ⟨?_, fun same => congrArg u16 same⟩
  intro same
  unfold u16 at same
  omega

/-- `status & 1` -/
theorem and_one_ne_zero_iff (status : BitVec 32) : status &&& 1 ≠ 0 ↔ status.getLsbD 0 = true := by
  have bit : status &&& 1#32 = (BitVec.ofBool (status.getLsbD 0)).setWidth 32 :=
    BitVec.and_one_eq_setWidth_ofBool_getLsbD
  have one : (1 : BitVec 32) = 1#32 := rfl
  rw [one, bit]
  cases status.getLsbD 0 <;> decide

theorem Board.Announcing.set (announcing : b.Announcing) (mask : BitVec 32) :
    b.owed = true ∨ (b.interruptStatus ||| mask) &&& 1 ≠ 0 := by
  obtain owed | status := announcing
  · exact Or.inl owed
  · right
    rw [and_one_ne_zero_iff] at status ⊢
    rw [BitVec.getLsbD_or, status, Bool.true_or]

/-- Acknowledging a status without bit 0 leaves bit 0 alone. -/
theorem Board.Announcing.ack (announcing : b.Announcing) {status : BitVec 32}
    (unset : ¬ status &&& 1 ≠ 0) :
    b.owed = true ∨ (b.interruptStatus &&& ~~~status) &&& 1 ≠ 0 := by
  obtain owed | line := announcing
  · exact Or.inl owed
  · right
    rw [and_one_ne_zero_iff] at unset line ⊢
    rw [Bool.not_eq_true] at unset
    rw [BitVec.getLsbD_and, line, BitVec.getLsbD_not, unset]
    rfl

theorem or_ne_zero {status mask : BitVec 32} (set : status ≠ 0) : status ||| mask ≠ 0 := by
  intro zero
  exact set (BitVec.or_eq_zero_iff.mp zero).1

/-! ### Steps -/

theorem Delivers.device (small : exponent ≤ 15) (delivers : Delivers exponent b)
    (byDevice : event.byDevice = true) (taken : RxStep b.rx event rx) :
    Delivers exponent { b with rx := rx, owed := b.owed || event.isGive } := by
  obtain ⟨published, pending, inv⟩ := delivers.queue
  have same := taken.sameCounters
  have inLoop : event ≠ .finish := by
    rintro rfl
    cases byDevice
  have announcing : b.Announcing → Board.Announcing { b with rx := rx, owed := b.owed || event.isGive } := by
    rintro (owed | line)
    · left
      change (b.owed || event.isGive) = true
      rw [owed, Bool.true_or]
    · exact Or.inr line
  refine ⟨inv.step small taken, fun other => taken.rests byDevice (delivers.rests other), ?_,
    fun more other another => announcing (delivers.txSeen more other another), ?_, ?_, ?_,
    delivers.txOrder, ?_, delivers.announced.step taken inLoop, delivers.active, delivers.line,
    delivers.served⟩
  · intro waiting other
    obtain before | given := taken.waiting byDevice waiting
    · exact announcing (delivers.rxSeen before other)
    · left
      change (b.owed || event.isGive) = true
      rw [given, Bool.or_true]
  · exact same.qsize.symm ▸ delivers.txSmall
  · exact same.usedIdx.trans delivers.txUsed
  · exact same.lastUsedIdx.trans delivers.txLast
  · exact same.qsize.symm ▸ delivers.txRoom

theorem Delivers.giveTx (delivers : Delivers exponent b) (elem : UsedElem)
    (room : b.txReturned < b.txCleaned + b.rx.net.txq.qsize) :
    Delivers exponent
      { b with
        rx.net.txq.usedRing := Function.update b.rx.net.txq.usedRing
          (Ring.slot b.rx.net.txq.qsize b.rx.net.txq.usedIdx) elem
        rx.net.txq.usedIdx := u16 (b.rx.net.txq.usedIdx + 1)
        owed := true
        txReturned := b.txReturned + 1 } := by
  obtain ⟨published, pending, inv⟩ := delivers.queue
  have used := delivers.txUsed
  have order := delivers.txOrder
  exact { delivers with
    queue := ⟨published, pending, inv.withNet rfl⟩
    rxSeen := fun _ _ => Or.inl rfl
    txSeen := fun _ _ _ => Or.inl rfl
    txUsed := by
      change u16 (b.rx.net.txq.usedIdx + 1) = u16 (b.txReturned + 1)
      rw [used]
      exact Nat.mod_add_mod ..
    txOrder := Nat.le_succ_of_le order
    txRoom := room }

theorem Delivers.signal (delivers : Delivers exponent b) :
    Delivers exponent { b with interruptStatus := b.interruptStatus ||| 1, owed := false } := by
  have announcing : Board.Announcing
      { b with interruptStatus := b.interruptStatus ||| 1, owed := false } := by
    right
    rw [and_one_ne_zero_iff, BitVec.getLsbD_or]
    exact Bool.or_true _
  exact { delivers with
    rxSeen := fun _ _ => announcing
    txSeen := fun _ _ _ => announcing
    line := fun atPoint => or_ne_zero (delivers.line atPoint) }

theorem Delivers.configure (delivers : Delivers exponent b) :
    Delivers exponent { b with interruptStatus := b.interruptStatus ||| 2 } :=
  { delivers with
    rxSeen := fun waiting other => (delivers.rxSeen waiting other).set 2
    txSeen := fun more other another => (delivers.txSeen more other another).set 2
    line := fun atPoint => or_ne_zero (delivers.line atPoint) }

theorem Delivers.threadSend (delivers : Delivers exponent b) (macFrame : List UInt8) :
    Delivers exponent { b with rx.net := ((netSend macFrame).run b.rx.net).2 } := by
  obtain ⟨published, pending, inv⟩ := delivers.queue
  have same := sameCounters_netSend macFrame b.rx.net
  have rxq := rxq_netSend macFrame b.rx.net
  exact { delivers with
    queue := ⟨published, pending, inv.withNet rxq⟩
    rxSeen := by
      intro waiting
      rw [RxMachine.Waiting, rxq] at waiting
      exact delivers.rxSeen waiting
    txSmall := same.qsize.symm ▸ delivers.txSmall
    txUsed := same.usedIdx.trans delivers.txUsed
    txLast := same.lastUsedIdx.trans delivers.txLast
    txRoom := same.qsize.symm ▸ delivers.txRoom
    announced := by
      rw [RxMachine.Announced, rxq]
      exact delivers.announced }

theorem Delivers.gicAoi (delivers : Delivers exponent b) (atPoint : b.point = .entered) :
    Delivers exponent
      { b with
        active := if b.interruptStatus ≠ 0 then true else b.active
        point := if b.interruptStatus ≠ 0 ∧ b.active = false then .acknowledged
          else .ending 1023 } := by
  have inactive : b.active = false := by
    rw [delivers.active, atPoint]
    rfl
  have elsewhere : b.point ≠ .polling ∧ b.point ≠ .cleaning := by
    rw [atPoint]
    exact ⟨IrqPoint.noConfusion, IrqPoint.noConfusion⟩
  -- the line stays high until the driver acknowledges, so the interrupt is not spurious
  rw [if_pos (delivers.line atPoint), if_pos ⟨delivers.line atPoint, inactive⟩]
  exact { delivers with
    rests := fun _ => delivers.rests elsewhere.1
    rxSeen := fun waiting _ => delivers.rxSeen waiting elsewhere.1
    txSeen := fun more _ _ => delivers.txSeen more elsewhere.1 elsewhere.2
    active := rfl
    line := fun absurd => nomatch absurd
    served := fun _ absurd => nomatch absurd }

/-- The status is cleared before the rings are looked at. -/
theorem Delivers.ackStatus (delivers : Delivers exponent b) {status : BitVec 32}
    (atPoint : b.point = .readStatus status) :
    Delivers exponent
      { b with
        interruptStatus := b.interruptStatus &&& ~~~status
        point := if status &&& 1 ≠ 0 then .polling else .ending 48 } := by
  have elsewhere : b.point ≠ .polling ∧ b.point ≠ .cleaning := by
    rw [atPoint]
    exact ⟨IrqPoint.noConfusion, IrqPoint.noConfusion⟩
  have active : b.active = true := by
    rw [delivers.active, atPoint]
    rfl
  by_cases used : status &&& 1 ≠ 0
  · rw [if_pos used]
    exact { delivers with
      rests := fun other => absurd rfl other
      rxSeen := fun _ other => absurd rfl other
      txSeen := fun _ other => absurd rfl other
      active := active
      line := fun absurd => nomatch absurd
      served := fun _ absurd => nomatch absurd }
  · rw [if_neg used]
    exact { delivers with
      rests := fun _ => delivers.rests elsewhere.1
      rxSeen := fun waiting _ => (delivers.rxSeen waiting elsewhere.1).ack used
      txSeen := fun more _ _ => (delivers.txSeen more elsewhere.1 elsewhere.2).ack used
      active := active
      line := fun absurd => nomatch absurd
      served := by
        rintro id ⟨⟩
        rfl }

theorem Delivers.poll (small : exponent ≤ 15) (delivers : Delivers exponent b)
    (atPoint : b.point = .polling) (inLoop : event ≠ .finish) (taken : RxStep b.rx event rx) :
    Delivers exponent { b with rx := rx } := by
  obtain ⟨published, pending, inv⟩ := delivers.queue
  have same := taken.sameCounters
  exact { delivers with
    queue := inv.step small taken
    rests := fun other => absurd atPoint other
    rxSeen := fun _ other => absurd atPoint other
    txSmall := same.qsize.symm ▸ delivers.txSmall
    txUsed := same.usedIdx.trans delivers.txUsed
    txLast := same.lastUsedIdx.trans delivers.txLast
    txRoom := same.qsize.symm ▸ delivers.txRoom
    announced := delivers.announced.step taken inLoop }

/-- The loop of `net_poll_rx` ends with an empty ring, and announces what it
published. -/
theorem Delivers.polled (small : exponent ≤ 15) (delivers : Delivers exponent b)
    (atPoint : b.point = .polling) (taken : RxStep b.rx .finish rx) :
    Delivers exponent
      { b with
        rx := rx
        point := .cleaning
        announced := if b.rx.received then b.rx.net.rxq.availIdx else b.announced } := by
  obtain ⟨published, pending, inv⟩ := delivers.queue
  have same := taken.sameCounters
  have active : b.active = true := by
    rw [delivers.active, atPoint]
    rfl
  have isAnnounced := delivers.announced
  have queue := inv.step small taken
  cases taken with
  | finish atHead empty =>
      have rxq : (if b.rx.received then { b.rx.net with notified := b.rx.net.notified ++ [0] }
          else b.rx.net).rxq = b.rx.net.rxq := by
        split <;> rfl
      refine ⟨queue, fun _ => ⟨atHead, rfl⟩, ?_, fun _ _ other => absurd rfl other,
        same.qsize.symm ▸ delivers.txSmall, same.usedIdx.trans delivers.txUsed,
        same.lastUsedIdx.trans delivers.txLast, delivers.txOrder,
        same.qsize.symm ▸ delivers.txRoom, ?_, active, fun absurd => (nomatch absurd),
        fun _ absurd => (nomatch absurd)⟩
      · intro waiting
        rw [RxMachine.Waiting] at waiting
        dsimp only at waiting
        rw [rxq] at waiting
        exact absurd empty waiting
      · intro _ _
        dsimp only
        rw [rxq]
        cases received : b.rx.received with
        | true => rfl
        | false =>
            refine isAnnounced received ?_
            rw [atHead]
            exact RxPoint.noConfusion

theorem Delivers.cleanup (delivers : Delivers exponent b) (atPoint : b.point = .cleaning)
    (more : b.rx.net.txq.lastUsedIdx ≠ b.rx.net.txq.usedIdx) :
    Delivers exponent
      { b with rx.net := (cleanupTxOnce.run b.rx.net).2, txCleaned := b.txCleaned + 1 } := by
  obtain ⟨published, pending, inv⟩ := delivers.queue
  have last := delivers.txLast
  have order := delivers.txOrder
  have room := delivers.txRoom
  have pendingTx : b.txCleaned ≠ b.txReturned := fun same =>
    more (delivers.txCounters_eq.mpr same)
  exact { delivers with
    queue := ⟨published, pending, inv.withNet rfl⟩
    txSeen := fun _ _ other => absurd atPoint other
    txLast := by
      change u16 (b.rx.net.txq.lastUsedIdx + 1) = u16 (b.txCleaned + 1)
      rw [last]
      exact Nat.mod_add_mod ..
    txOrder := by
      change b.txCleaned + 1 ≤ b.txReturned
      omega
    txRoom := by
      change b.txReturned ≤ b.txCleaned + 1 + b.rx.net.txq.qsize
      omega }

/-- A point from which the driver does not look at the rings. -/
theorem Delivers.moveTo (delivers : Delivers exponent b) {point : IrqPoint}
    (left : b.point ≠ .polling) (leftTx : b.point ≠ .cleaning ∨ b.txCleaned = b.txReturned)
    (active : b.active = point.active) (line : point = .entered → b.interruptStatus ≠ 0)
    (served : ∀ id, point = .ending id → id = 48) :
    Delivers exponent { b with point := point } := by
  exact { delivers with
    rests := fun _ => delivers.rests left
    rxSeen := fun waiting _ => delivers.rxSeen waiting left
    txSeen := by
      intro more _ _
      obtain notCleaning | done := leftTx
      · exact delivers.txSeen more left notCleaning
      · exact absurd done more
    active := active
    line := line
    served := served }

theorem Delivers.gicEoi (delivers : Delivers exponent b) {id : Nat} (atPoint : b.point = .ending id) :
    Delivers exponent
      { b with active := if id = 48 then false else b.active, point := .thread } := by
  have isId := delivers.served id atPoint
  have elsewhere : b.point ≠ .polling ∧ b.point ≠ .cleaning := by
    rw [atPoint]
    exact ⟨IrqPoint.noConfusion, IrqPoint.noConfusion⟩
  rw [if_pos isId]
  exact { delivers with
    rests := fun _ => delivers.rests elsewhere.1
    rxSeen := fun waiting _ => delivers.rxSeen waiting elsewhere.1
    txSeen := fun more _ _ => delivers.txSeen more elsewhere.1 elsewhere.2
    active := rfl
    line := fun absurd => nomatch absurd
    served := fun _ absurd => nomatch absurd }

theorem Delivers.step (small : exponent ≤ 15) (delivers : Delivers exponent b)
    {label : BoardEvent} (taken : BoardStep b label b') : Delivers exponent b' := by
  cases taken with
  | device byDevice taken => exact delivers.device small byDevice taken
  | giveTx elem room => exact delivers.giveTx elem room
  | signal => exact delivers.signal
  | configure => exact delivers.configure
  | threadSend macFrame => exact delivers.threadSend macFrame
  | interrupt atThread line inactive =>
      apply delivers.moveTo
      · rw [atThread]
        exact IrqPoint.noConfusion
      · left
        rw [atThread]
        exact IrqPoint.noConfusion
      · exact inactive
      · exact fun _ => line
      · exact fun _ absurd => nomatch absurd
  | gicAoi atPoint => exact delivers.gicAoi atPoint
  | readStatus atPoint =>
      apply delivers.moveTo
      · rw [atPoint]
        exact IrqPoint.noConfusion
      · left
        rw [atPoint]
        exact IrqPoint.noConfusion
      · rw [delivers.active, atPoint]
        rfl
      · exact fun absurd => nomatch absurd
      · exact fun _ absurd => nomatch absurd
  | ackStatus atPoint => exact delivers.ackStatus atPoint
  | poll atPoint _ inLoop taken => exact delivers.poll small atPoint inLoop taken
  | polled atPoint taken => exact delivers.polled small atPoint taken
  | cleanup atPoint more => exact delivers.cleanup atPoint more
  | cleaned atPoint empty =>
      apply delivers.moveTo
      · rw [atPoint]
        exact IrqPoint.noConfusion
      · exact Or.inr (delivers.txCounters_eq.mp empty)
      · rw [delivers.active, atPoint]
        rfl
      · exact fun absurd => nomatch absurd
      · rintro id ⟨⟩
        rfl
  | gicEoi atPoint => exact delivers.gicEoi atPoint

/-! ### Runs -/

/-- `net_rx_fill` leaves the transmit queue alone. -/
theorem rxFillLoop_txq (count : Nat) (s : State) : ((rxFillLoop count).run s).2.txq = s.txq := by
  induction count with
  | zero => rfl
  | succ count inductionHypothesis =>
      rcases known : (rxFillLoop count).run s with ⟨goesOn, middle⟩
      rw [known] at inductionHypothesis
      rw [rxFillLoop, run_bind_of_eq known]
      cases goesOn with
      | false => exact inductionHypothesis
      | true =>
          rw [if_pos rfl, run_get_bind]
          dsimp only at inductionHypothesis ⊢
          by_cases noFrame : (Pmm.pmmAllocFrame middle.pmm).1 = 0
          · rw [if_pos noFrame]
            exact inductionHypothesis
          · rw [if_neg noFrame]
            exact inductionHypothesis

theorem rxStart_txq (s : State) : (rxStart s).net.txq = s.txq := rxFillLoop_txq _ s

theorem boardStart_delivers (small : exponent ≤ 15) (queue : s.rxq = Virtq.fresh (2 ^ exponent))
    (frames : Pmm.Consistent s.pmm) (enough : 2 ^ exponent ≤ s.pmm.stackTop) {txSize : Nat}
    (txQueue : s.txq = Virtq.fresh txSize) (txSmall : txSize ≤ 2 ^ 15) :
    Delivers exponent (boardStart s) := by
  have txq : (boardStart s).rx.net.txq = Virtq.fresh txSize := (rxStart_txq s).trans txQueue
  have rxq := rxStart_rxq queue frames enough
  exact {
    queue := ⟨_, _, rxStart_invariant small queue frames enough⟩
    rests := fun _ => ⟨rfl, rfl⟩
    rxSeen := by
      intro waiting
      exact absurd (rxq.2.1.trans rxq.2.2.1.symm) waiting
    txSeen := fun more => absurd rfl more
    txSmall := by
      rw [txq]
      exact txSmall
    txUsed := by
      rw [txq]
      rfl
    txLast := by
      rw [txq]
      rfl
    txOrder := Nat.le_refl _
    txRoom := Nat.zero_le _
    announced := fun _ _ => rfl
    active := rfl
    line := fun absurd => nomatch absurd
    served := fun _ absurd => nomatch absurd }

/-- In every run of the device, the interrupt handler and the code it interrupts,
whenever the core is outside of the handler: what the driver has not served will
be announced or interrupts the core now, all buffers it published are announced
to the device, and once the device has nothing to announce, every returned packet
has been processed, in order and once, `net_cleanup_tx` has gone through every
transmit descriptor that was returned, and every receive buffer is back with the
device. -/
theorem nothing_left_behind (small : exponent ≤ 15) (queue : s.rxq = Virtq.fresh (2 ^ exponent))
    (frames : Pmm.Consistent s.pmm) (enough : 2 ^ exponent ≤ s.pmm.stackTop) {txSize : Nat}
    (txQueue : s.txq = Virtq.fresh txSize) (txSmall : txSize ≤ 2 ^ 15)
    {path : List (Transition Board BoardEvent)} {last : Board}
    (run : Execution BoardStep (boardStart s) path last) (atThread : last.point = .thread) :
    (last.rx.returned ≠ last.rx.processed ∨ last.txReturned ≠ last.txCleaned →
      last.owed = true ∨ ∃ next, BoardStep last .interrupt next) ∧
    last.announced = last.rx.net.rxq.availIdx ∧
    (last.owed = false → last.interruptStatus = 0 →
      last.rx.returned = last.rx.processed ∧ last.txReturned = last.txCleaned ∧
        (last.rx.published ++ last.rx.held).Perm (List.range (2 ^ exponent))) := by
  have start := boardStart_delivers small queue frames enough txQueue txSmall
  have delivers := run.invariant start fun _ _ _ holds taken => holds.step small taken
  have outside : last.point ≠ .polling ∧ last.point ≠ .cleaning := by
    rw [atThread]
    exact ⟨IrqPoint.noConfusion, IrqPoint.noConfusion⟩
  have inactive : last.active = false := by
    rw [delivers.active, atThread]
    rfl
  have rests := delivers.rests outside.1
  obtain ⟨published, pending, inv⟩ := delivers.queue
  have notWaiting : ¬ last.rx.Waiting → pending = [] := by
    intro idle
    have used := inv.used
    have total := inv.total
    have fits := two_pow_lt small
    unfold RxMachine.firstPending at used
    rw [rests.1] at used
    by_contra some
    exact idle ((used.ne_iff (by omega)).mpr some)
  have processed : ¬ last.rx.Waiting → last.rx.returned = last.rx.processed := by
    intro idle
    rw [inv.order, notWaiting idle, List.append_nil]
  have announcing : last.rx.returned ≠ last.rx.processed ∨ last.txReturned ≠ last.txCleaned →
      last.Announcing := by
    rintro (rx | tx)
    · apply delivers.rxSeen _ outside.1
      by_contra idle
      exact rx (processed idle)
    · exact delivers.txSeen (Ne.symm tx) outside.1 outside.2
  refine ⟨?_, delivers.announced rests.2 ?_, ?_⟩
  · intro unserved
    obtain owed | line := announcing unserved
    · exact Or.inl owed
    · right
      refine ⟨_, .interrupt atThread ?_ inactive⟩
      intro zero
      rw [zero] at line
      exact line rfl
  · rw [rests.1]
    exact RxPoint.noConfusion
  · intro notOwed quiet
    have silent : ¬ last.Announcing := by
      rintro (owed | line)
      · rw [notOwed] at owed
        cases owed
      · rw [quiet] at line
        exact line rfl
    have idle : ¬ last.rx.Waiting := fun waiting => silent (delivers.rxSeen waiting outside.1)
    refine ⟨processed idle, ?_, ?_⟩
    · by_contra unserved
      exact silent (announcing (Or.inr unserved))
    · have places := inv.places
      rw [notWaiting idle, rests.1] at places
      rw [(inv.windows small).1]
      simpa [RxPoint.processing] using places

/-- A driver with two buffers, of which the device takes one and returns it with an
empty packet: one interrupt, and it is processed. -/
theorem nothing_left_behind_one_packet :
    ∃ path last,
      Execution BoardStep
        (boardStart (rxBoot (Pmm.pmmInit 0x40001000 0x8000 Pmm.State.zero) (2 ^ 1))) path last ∧
      path.length = 15 ∧ last.point = .thread ∧ last.rx.returned = [⟨0, 10⟩] ∧
      last.rx.returned = last.rx.processed ∧
      (last.rx.published ++ last.rx.held).Perm (List.range (2 ^ 1)) := by
  have layout : Pmm.BootLayout 0x40001000 0x8000 := by constructor <;> decide
  let start := boardStart (rxBoot (Pmm.pmmInit 0x40001000 0x8000 Pmm.State.zero) (2 ^ 1))
  have took : BoardStep start _ _ := .device rfl (.take (by decide))
  have given := (Execution.single took).snoc
    (.device rfl (@RxStep.give _ ⟨0, 10⟩ (by decide) (by decide)))
  have acknowledged := ((((given.snoc (.signal rfl)).snoc
    (.interrupt rfl (by decide) rfl)).snoc (.gicAoi rfl)).snoc (.readStatus (by decide))).snoc
    (.ackStatus (by decide : _ = IrqPoint.readStatus 1))
  have polled := (((((acknowledged.snoc (.poll (by decide) rfl (by decide) (.fetch rfl (by decide)))).snoc
    (.poll (by decide) rfl (by decide) (.handle rfl))).snoc
    (.poll (by decide) rfl (by decide) (.repost rfl))).snoc
    (.poll (by decide) rfl (by decide) (.publish rfl))).snoc
    (.poll (by decide) rfl (by decide) (.advance rfl))).snoc
    (.polled (by decide) (.finish rfl (by decide)))
  have run := (polled.snoc (.cleaned rfl (by decide))).snoc (.gicEoi rfl)
  have served := nothing_left_behind (by decide) rfl (Pmm.pmmInit_consistent layout) (by decide)
    rfl (by decide) run rfl
  have quiet := served.2.2 rfl (by decide)
  exact ⟨_, _, run, rfl, rfl, rfl, quiet.1, quiet.2.2⟩

end UniKernel.Net
