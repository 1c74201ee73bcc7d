import UniKernel.Net.EntryPoints
import UniKernel.Net.Recording

/-!
Owns where the uses of `EntryPoints` come from: the code with each use recorded before the
statement that it is part of. It records the lists of `EntryPoints`, and does what it does
without recording: `Driver.recordedCall_run` for the calls, `Uses.netRxFill_records` for what
`net_init` does to the rings.
-/

namespace UniKernel.Net

open UniKernel.Lib
open UniKernel.Pmm (Consistent pmmAllocFrame)

namespace Uses

variable (rx tx : QueueBase)

/-! ### The code -/

def netSend (macFrame : List UInt8) : Recording RingUse Unit := do
  let s ← (get : NetM State)
  let (phys, pmm) := pmmAllocFrame s.pmm
  (set { s with pmm := pmm } : NetM Unit)
  if phys = 0 then return
  (modify fun s => { s with mem := CString.memset phys 0 virtioHdrSize s.mem } : NetM Unit)
  (modify fun s => { s with mem := s.mem.storeBytes (phys + virtioHdrSize) macFrame } : NetM Unit)
  -- uint16_t head = tx_desc_idx % txq.qsize;
  record (.modulo tx.qsize)
  record (.desc tx.desc)
  (modify fun s =>
    let head := u16 (s.txDescIdx % s.txq.qsize)
    let desc := ⟨phys, u32 (virtioHdrSize + macFrame.length), 0, 0⟩
    { s with txq.desc := Function.update s.txq.desc head desc } : NetM Unit)
  -- uint16_t avail = txq.avail->idx;
  record (.avail tx.avail)
  record (.modulo tx.qsize)
  record (.avail tx.avail)
  (modify fun s =>
    let head := u16 (s.txDescIdx % s.txq.qsize)
    { s with
      txq.availRing := Function.update s.txq.availRing (s.txq.availIdx % s.txq.qsize) head } :
    NetM Unit)
  record (.avail tx.avail)
  (modify fun s => { s with txq.availIdx := u16 (s.txq.availIdx + 1) } : NetM Unit)
  (modify fun s => { s with notified := s.notified ++ [1] } : NetM Unit)
  (modify fun s => { s with txDescIdx := u16 (s.txDescIdx + 1) } : NetM Unit)

/-- The handlers of a packet reach the rings through `net_send` only. -/
def calls : Calls RingUse := ⟨netSend tx, pure ()⟩

def arpRequestGateway : Recording RingUse Unit := do
  let netMac := (← (get : NetM State)).netMac.toList
  netSend tx (gatewayRequest netMac)

/-- One iteration of the loop of `net_poll_rx`. -/
def pollRxOnce : Recording RingUse Unit := do
  record (.modulo rx.qsize)
  -- the `id` and the `len` of the used element
  record (.used rx.used)
  record (.used rx.used)
  let elem := (← (get : NetM State)).rxq.nextUsed
  record (.desc rx.desc)
  (calls tx).receivePacket elem
  -- uint16_t avail_idx = rxq.avail->idx;
  record (.avail rx.avail)
  record (.modulo rx.qsize)
  record (.avail rx.avail)
  repost elem.id
  record (.avail rx.avail)
  publish
  advance

def pollRxLoop : Nat → Recording RingUse Bool
  | 0 => pure false
  | fuel + 1 => do
      record (.used rx.used)
      let s ← (get : NetM State)
      if s.rxq.lastUsedIdx = s.rxq.usedIdx then return false
      pollRxOnce rx tx
      let _ ← pollRxLoop fuel
      return true

def netPollRx : Recording RingUse Unit := do
  if ← pollRxLoop rx tx (2 ^ 16) then
    (modify fun s => { s with notified := s.notified ++ [0] } : NetM Unit)

def cleanupTxLoop : Nat → Recording RingUse Unit
  | 0 => pure ()
  | fuel + 1 => do
      record (.used tx.used)
      let s ← (get : NetM State)
      if s.txq.lastUsedIdx = s.txq.usedIdx then return
      record (.modulo tx.qsize)
      record (.used tx.used)
      record (.desc tx.desc)
      cleanupTxOnce
      cleanupTxLoop fuel

def virtioNetHandleIrq (status : Nat) : Recording RingUse Unit := do
  if status &&& 1 ≠ 0 then
    netPollRx rx tx
    cleanupTxLoop tx (2 ^ 16)

/-- The loop of `net_rx_fill` after `count` iterations, and whether it goes on. -/
def rxFillLoop : Nat → Recording RingUse Bool
  | 0 => pure true
  | i + 1 => do
      if ← rxFillLoop i then
        let s ← (get : NetM State)
        let (phys, pmm) := pmmAllocFrame s.pmm
        (set { s with pmm := pmm } : NetM Unit)
        if phys = 0 then return false
        record (.desc rx.desc)
        record (.modulo rx.qsize)
        record (.avail rx.avail)
        (modify fun s =>
          { s with
            rxq.desc := Function.update s.rxq.desc i ⟨phys, 4096, descFlagWrite, 0⟩
            rxq.availRing := Function.update s.rxq.availRing (i % s.rxq.qsize) (u16 i) } :
          NetM Unit)
        return true
      else return false

def netRxFill : Recording RingUse Unit := do
  let _ ← rxFillLoop rx (← (get : NetM State)).rxq.qsize
  record (.avail rx.avail)
  (modify fun s => { s with rxq.availIdx := u16 s.rxq.qsize } : NetM Unit)
  (modify fun s => { s with notified := s.notified ++ [0] } : NetM Unit)

/-! ### What it records -/

variable {rx tx}

theorem netSend_logs (macFrame : List UInt8) :
    Logs (netSend tx macFrame) (Net.netSend macFrame) (sendUses tx) := by
  intro before s
  unfold netSend Net.netSend sendUses
  rw [run_lift_bind (run_get s), run_get_bind]
  generalize pmmAllocFrame s.pmm = allocated
  rcases allocated with ⟨phys, pmm⟩
  dsimp only
  by_cases none : phys = 0
  · rw [if_pos none, if_pos none, if_pos none, List.append_nil]
    rfl
  · rw [if_neg none, if_neg none, if_neg none, List.append_cons, List.append_cons, List.append_cons,
      List.append_cons, List.append_cons]
    rfl

theorem calls_records (tx : QueueBase) : (calls tx).Records (sendUses tx) [] where
  netSend frame before s := netSend_logs frame before s
  withMem _ _ _ := rfl
  unknownEtherType before s := by rw [List.append_nil]; rfl

theorem arpRequestGateway_logs :
    Logs (arpRequestGateway tx) Net.arpRequestGateway (sendUses tx) := by
  intro before s
  unfold arpRequestGateway Net.arpRequestGateway
  rw [run_lift_bind (run_get s), run_get_bind]
  exact netSend_logs _ before s

/-- A packet uses the transmit queue for its reply. -/
theorem packetRecords_replyTo (elem : UsedElem) (s : State) :
    (if packetLength elem > 0 then
        Calls.packetRecords (sendUses tx s) [] s ((s.rxq.desc elem.id).addr + virtioHdrSize)
          (packetLength elem)
      else []) = if (s.replyTo elem).isSome then sendUses tx s else [] := by
  unfold State.replyTo
  by_cases nonempty : packetLength elem > 0
  · rw [if_pos nonempty, if_pos nonempty]
    generalize (s.rxq.desc elem.id).addr + virtioHdrSize = packet
    generalize packetLength elem = len
    unfold Calls.packetRecords
    by_cases short : len < 14
    · rw [if_pos short, ethernetReply, if_pos short]
      rfl
    · rw [if_neg short]
      by_cases known : etherType s.mem packet = 0x0806 ∨ etherType s.mem packet = 0x0800
      · rw [if_pos known]
      · rw [if_neg known, ethernetReply, if_neg short, if_neg fun arp => known (.inl arp),
          if_neg fun ipv4 => known (.inr ipv4)]
        rfl
  · rw [if_neg nonempty, if_neg nonempty]
    rfl

theorem pollRxOnce_logs : Logs (pollRxOnce rx tx) Net.pollRxOnce (receiveUses rx tx) := by
  intro before s
  let front := before ++ [.modulo rx.qsize] ++ [.used rx.used] ++ [.used rx.used] ++ [.desc rx.desc]
  let received := (((calls tx).receivePacket s.rxq.nextUsed).run front).run s
  have steps : ((pollRxOnce rx tx).run before).run s =
      (((), received.1.2 ++ [.avail rx.avail] ++ [.modulo rx.qsize] ++ [.avail rx.avail] ++
        [.avail rx.avail]),
        ((do repost s.rxq.nextUsed.id; publish; advance : NetM Unit).run received.2).2) := rfl
  have silent : (Net.pollRxOnce.run s).2 =
      ((do repost s.rxq.nextUsed.id; publish; advance : NetM Unit).run
        ((Net.receivePacket s.rxq.nextUsed).run s).2).2 := rfl
  have recorded : received.1 = _ := (calls_records tx).receivePacket_events s.rxq.nextUsed s
  have same := ((calls_records tx).erases_receivePacket s.rxq.nextUsed front s).2
  rw [packetRecords_replyTo] at recorded
  rw [steps, silent, recorded, same]
  unfold receiveUses
  simp only [front, List.append_assoc, List.cons_append, List.nil_append]

theorem pollRxLoop_logs (rx tx : QueueBase) (fuel : Nat) :
    Logs (pollRxLoop rx tx fuel) (Net.pollRxLoop fuel) (pollRxUses rx tx fuel) := by
  induction fuel with
  | zero =>
      intro before s
      rw [pollRxUses, List.append_nil]
      rfl
  | succ fuel inductionHypothesis =>
      intro before s
      have round : ((pollRxLoop rx tx (fuel + 1)).run before).run s =
          if s.rxq.lastUsedIdx = s.rxq.usedIdx then ((false, before ++ [.used rx.used]), s)
          else
            let once := ((pollRxOnce rx tx).run (before ++ [.used rx.used])).run s
            let rest := ((pollRxLoop rx tx fuel).run once.1.2).run once.2
            ((true, rest.1.2), rest.2) := by
        change ((ite _ _ _ : Recording RingUse Bool).run (before ++ [.used rx.used])).run s = _
        split <;> rfl
      rw [round, pollRxLoop_succ, pollRxUses]
      by_cases done : s.rxq.lastUsedIdx = s.rxq.usedIdx
      · rw [if_pos done, if_pos done, if_pos done]
      · rw [if_neg done, if_neg done, if_neg done, pollRxOnce_logs]
        dsimp only
        rw [inductionHypothesis]
        simp only [List.append_assoc, List.cons_append, List.nil_append]

theorem notify_logs (received : Bool) :
    Logs (if received then
        (modify fun s => { s with notified := s.notified ++ [0] } : NetM Unit) else pure ())
      (if received then modify fun s => { s with notified := s.notified ++ [0] } else pure ())
      fun _ => ([] : List RingUse) := by
  cases received with
  | false => exact Logs.lift (pure ())
  | true => exact Logs.lift (modify fun s => { s with notified := s.notified ++ [0] })

theorem netPollRx_logs :
    Logs (netPollRx rx tx) Net.netPollRx (pollRxUses rx tx (2 ^ 16)) := by
  have logs := (pollRxLoop_logs rx tx (2 ^ 16)).bind notify_logs
  exact logs.congr fun s => List.append_nil _

theorem cleanupTxLoop_logs (fuel : Nat) :
    Logs (cleanupTxLoop tx fuel) (Net.cleanupTxLoop fuel) (cleanupTxUses tx fuel) := by
  induction fuel with
  | zero =>
      intro before s
      rw [cleanupTxUses, List.append_nil]
      rfl
  | succ fuel inductionHypothesis =>
      intro before s
      have round : ((cleanupTxLoop tx (fuel + 1)).run before).run s =
          if s.txq.lastUsedIdx = s.txq.usedIdx then (((), before ++ [.used tx.used]), s)
          else
            ((cleanupTxLoop tx fuel).run (before ++ [.used tx.used] ++ [.modulo tx.qsize] ++
              [.used tx.used] ++ [.desc tx.desc])).run (cleanupTxOnce.run s).2 := by
        change ((ite _ _ _ : Recording RingUse Unit).run (before ++ [.used tx.used])).run s = _
        split <;> rfl
      rw [round, cleanupTxLoop_succ, cleanupTxUses]
      by_cases done : s.txq.lastUsedIdx = s.txq.usedIdx
      · rw [if_pos done, if_pos done, if_pos done]
      · rw [if_neg done, if_neg done, if_neg done, inductionHypothesis]
        simp only [List.append_assoc, List.cons_append, List.nil_append]

theorem virtioNetHandleIrq_logs (status : Nat) :
    Logs (virtioNetHandleIrq rx tx status) (Net.virtioNetHandleIrq status)
      (irqUses rx tx status) := by
  unfold virtioNetHandleIrq Net.virtioNetHandleIrq irqUses
  by_cases bit : status &&& 1 ≠ 0
  · rw [if_pos bit, if_pos bit]
    refine (netPollRx_logs.bind fun _ => cleanupTxLoop_logs (2 ^ 16)).congr fun s => ?_
    rw [if_pos bit]
  · rw [if_neg bit, if_neg bit]
    exact (Logs.lift (pure ())).congr fun s => (if_neg bit).symm

/-! ### `net_rx_fill` -/

/-- What an iteration uses that finds a frame. -/
def fillOnceUses (rx : QueueBase) : List RingUse := [.desc rx.desc, .modulo rx.qsize, .avail rx.avail]

/-- What `count` iterations use. -/
def fillUses (rx : QueueBase) : Nat → State → List RingUse
  | 0, _ => []
  | i + 1, s =>
      let (goesOn, filled) := (Net.rxFillLoop i).run s
      fillUses rx i s ++
        if goesOn ∧ (pmmAllocFrame filled.pmm).1 ≠ 0 then fillOnceUses rx else []

theorem rxFillLoop_logs (rx : QueueBase) (count : Nat) :
    Logs (rxFillLoop rx count) (Net.rxFillLoop count) (fillUses rx count) := by
  induction count with
  | zero =>
      intro before s
      rw [fillUses, List.append_nil]
      rfl
  | succ count inductionHypothesis =>
      intro before s
      have recorded := inductionHypothesis before s
      rw [fillUses]
      rcases known : (Net.rxFillLoop count).run s with ⟨goesOn, filled⟩
      rw [known] at recorded
      rw [rxFillLoop, Net.rxFillLoop, run_recorded_bind recorded, run_bind_of_eq known]
      dsimp only
      cases goesOn with
      | false =>
          rw [if_neg Bool.false_ne_true, if_neg Bool.false_ne_true,
            if_neg fun both => Bool.false_ne_true both.1, List.append_nil]
          rfl
      | true =>
          rw [if_pos rfl, if_pos rfl, run_lift_bind (run_get filled), run_get_bind]
          generalize pmmAllocFrame filled.pmm = allocated
          rcases allocated with ⟨phys, pmm⟩
          dsimp only
          by_cases none : phys = 0
          · rw [if_pos none, if_pos none, if_neg (fun both => both.2 none), List.append_nil]
            rfl
          · rw [if_neg none, if_neg none, if_pos ⟨rfl, none⟩, fillOnceUses, ← List.append_assoc,
              List.append_cons, List.append_cons]
            rfl

/-- Behind the last frame the loop has ended. -/
theorem rxFillLoop_stops {s : State} (frames : Consistent s.pmm) {count : Nat}
    (few : s.pmm.stackTop < count) (inQueue : count ≤ s.rxq.qsize) :
    ((Net.rxFillLoop count).run s).1 = false := by
  induction count with
  | zero => exact absurd few (Nat.not_lt_zero _)
  | succ count inductionHypothesis =>
      by_cases enough : count ≤ s.pmm.stackTop
      · obtain ⟨filled, run, after⟩ := Net.rxFillLoop_run frames enough (by omega)
        have top := after.top
        have empty : filled.pmm.stackTop = 0 := by omega
        rw [Net.rxFillLoop, run_bind_of_eq run, if_pos rfl, run_get_bind,
          Pmm.pmmAllocFrame_of_empty empty]
        rfl
      · rcases known : (Net.rxFillLoop count).run s with ⟨goesOn, filled⟩
        have ended := inductionHypothesis (by omega) (by omega)
        rw [known] at ended
        change goesOn = false at ended
        rw [Net.rxFillLoop, run_bind_of_eq known, ended]
        rfl

/-- The loop finds as many frames as there are, at most one for each descriptor. -/
theorem fillUses_eq {s : State} (frames : Consistent s.pmm) {count : Nat}
    (inQueue : count ≤ s.rxq.qsize) :
    fillUses rx count s =
      (List.range (min count s.pmm.stackTop)).flatMap fun _ => fillOnceUses rx := by
  induction count with
  | zero => rw [Nat.zero_min]; rfl
  | succ count inductionHypothesis =>
      rw [fillUses, inductionHypothesis (by omega)]
      by_cases enough : count ≤ s.pmm.stackTop
      · obtain ⟨filled, run, after⟩ := Net.rxFillLoop_run frames enough (by omega)
        have top := after.top
        have found := frame_ne_zero_iff after.frames 0
        rw [run]
        dsimp only
        by_cases more : count < s.pmm.stackTop
        · rw [if_pos ⟨rfl, found.mpr (by omega)⟩, Nat.min_eq_left more, Nat.min_eq_left enough,
            List.range_succ, List.flatMap_append, List.flatMap_singleton]
        · rw [if_neg (fun both => absurd (found.mp both.2) (by omega)), List.append_nil,
            Nat.min_eq_right (by omega), Nat.min_eq_right (by omega)]
      · have ended := rxFillLoop_stops frames (Nat.lt_of_not_le enough) (by omega)
        rcases known : (Net.rxFillLoop count).run s with ⟨goesOn, filled⟩
        rw [known] at ended
        change goesOn = false at ended
        dsimp only
        rw [ended, if_neg (fun both => Bool.false_ne_true both.1), List.append_nil,
          Nat.min_eq_right (by omega), Nat.min_eq_right (by omega)]

/-- `net_rx_fill` on the queue that `net_init` has set up. -/
theorem netRxFill_records {s : State} (frames : Consistent s.pmm) (size : s.rxq.qsize = rx.qsize)
    (before : List RingUse) :
    ((netRxFill rx).run before).run s =
      (((), before ++ rxFillUses rx s), (Net.netRxFill.run s).2) := by
  have recorded := rxFillLoop_logs rx s.rxq.qsize before s
  rw [fillUses_eq frames (Nat.le_refl _), size] at recorded
  unfold netRxFill Net.netRxFill rxFillUses
  rw [run_lift_bind (run_get s), run_get_bind, size, run_recorded_bind recorded, ← List.append_assoc]
  rfl

end Uses

/-! ### The entry points -/

/-- A call with its uses recorded. -/
def Driver.recordedCall (d : Driver) : NetCall → Recording RingUse Unit
  | .arpRequestGateway => Uses.arpRequestGateway d.tx
  | .virtioNetHandleIrq status => Uses.virtioNetHandleIrq d.rx d.tx status
  | .device writes => (modify fun s => s.written writes : NetM Unit)

/-- In every state a call does what it does without recording, and what it records are its
uses. -/
theorem Driver.recordedCall_run (d : Driver) (call : NetCall) :
    ((d.recordedCall call).run []).run d.net = (((), d.uses call), (d.call call).net) := by
  cases call with
  | arpRequestGateway => exact Uses.arpRequestGateway_logs [] d.net
  | virtioNetHandleIrq status => exact Uses.virtioNetHandleIrq_logs status [] d.net
  | device writes => rfl

end UniKernel.Net
