import UniKernel.Net.Init
import UniKernel.Net.Preempt

/-!
Owns `net_init` with its failure exits and the entry points called after it. Each
entry point has a list of what it divides by and which ring pointers it goes
through, in the source's order (`RingUses` records them in the code); nothing remembers
that the initialisation failed, so the entry points use queues that were never set up.
-/

namespace UniKernel.Net

open UniKernel.Lib
open UniKernel.Pmm (Consistent pmmAllocFrame)
open UniKernel.Vmm (allocFrames)

/-! ### `net_init` -/

/-- What the device answers during `net_init`. -/
structure DeviceAnswers where
  features : Nat
  status : Nat
  rxMax : Nat
  txMax : Nat
  mac : Vector UInt8 6

/-- The driver's variables; `rx` and `tx` are the fields of `rxq` and `txq`. -/
structure Driver where
  net : State
  rx : QueueBase
  tx : QueueBase
  held : Nat → Nat
  written : List (Nat × Nat)

/-- The driver before `net_init`: its variables are zero. -/
def Driver.boot (mem : Memory) (pmm : Pmm.State) : Driver where
  net := ⟨mem, pmm, Virtq.fresh 0, Virtq.fresh 0, Vector.replicate 6 0, 0, [], []⟩
  rx := ⟨0, 0, 0, 0, 0⟩
  tx := ⟨0, 0, 0, 0, 0⟩
  held := fun _ => 0
  written := []

/-- The start of `net_init`, up to both queues, and whether it goes on. -/
def initDevice (answers : DeviceAnswers) (rx tx : QueueBase) :
    InitM (Bool × QueueBase × QueueBase) := do
  negotiate answers.features
  if answers.status &&& statusFeaturesOk = 0 then
    write32 regStatus statusFailed
    return (false, rx, tx)
  let queues ← initQueues answers.rxMax answers.txMax rx tx
  return (true, queues)

def netInit (answers : DeviceAnswers) (d : Driver) : Driver :=
  let ((goesOn, rx, tx), init) :=
    (initDevice answers d.rx d.tx).run ⟨d.net.mem, ⟨d.net.pmm, d.held⟩, d.written⟩
  if goesOn then
    let net :=
      { d.net with
        mem := init.mem
        pmm := init.frames.pmm
        rxq := Virtq.fresh rx.qsize
        txq := Virtq.fresh tx.qsize }
    let status := statusAcknowledge ||| statusDriver ||| statusFeaturesOk ||| statusDriverOk
    { net := { (netRxFill.run net).2 with netMac := answers.mac }
      rx := rx
      tx := tx
      held := init.frames.held
      written := init.written ++ [(regStatus, status)] }
  else { d with written := init.written }

/-! ### Divisors and pointers -/

/-- A modulo by `qsize`, or an access through one of the ring pointers. -/
inductive RingUse where
  | modulo (qsize : Nat)
  | desc (base : Nat)
  | avail (base : Nat)
  | used (base : Nat)
deriving DecidableEq

def RingUse.Ok : RingUse → Prop
  | .modulo qsize => qsize ≠ 0
  | .desc base | .avail base | .used base => base ≠ 0

/-- `net_send` in state `s`. -/
def sendUses (tx : QueueBase) (s : State) : List RingUse :=
  if (pmmAllocFrame s.pmm).1 = 0 then []
  else [.modulo tx.qsize, .desc tx.desc, .avail tx.avail, .modulo tx.qsize, .avail tx.avail,
    .avail tx.avail]

/-- One iteration of the loop of `net_poll_rx`. -/
def receiveUses (rx tx : QueueBase) (s : State) : List RingUse :=
  [.modulo rx.qsize, .used rx.used, .used rx.used, .desc rx.desc] ++
    (if (s.replyTo s.rxq.nextUsed).isSome then sendUses tx s else []) ++
    [.avail rx.avail, .modulo rx.qsize, .avail rx.avail, .avail rx.avail]

def pollRxUses (rx tx : QueueBase) : Nat → State → List RingUse
  | 0, _ => []
  | fuel + 1, s =>
      .used rx.used ::
        if s.rxq.lastUsedIdx = s.rxq.usedIdx then []
        else receiveUses rx tx s ++ pollRxUses rx tx fuel (pollRxOnce.run s).2

def cleanupTxUses (tx : QueueBase) : Nat → State → List RingUse
  | 0, _ => []
  | fuel + 1, s =>
      .used tx.used ::
        if s.txq.lastUsedIdx = s.txq.usedIdx then []
        else [.modulo tx.qsize, .used tx.used, .desc tx.desc] ++
          cleanupTxUses tx fuel (cleanupTxOnce.run s).2

/-- `virtio_net_handle_irq` -/
def irqUses (rx tx : QueueBase) (status : Nat) (s : State) : List RingUse :=
  if status &&& 1 ≠ 0 then
    pollRxUses rx tx (2 ^ 16) s ++ cleanupTxUses tx (2 ^ 16) (netPollRx.run s).2
  else []

/-- The loop of `net_rx_fill` and the publication behind it. -/
def rxFillUses (rx : QueueBase) (s : State) : List RingUse :=
  (List.range (min rx.qsize s.pmm.stackTop)).flatMap
    (fun _ => [.desc rx.desc, .modulo rx.qsize, .avail rx.avail]) ++ [.avail rx.avail]

/-- `net_init` -/
def initUses (answers : DeviceAnswers) (d : Driver) : List RingUse :=
  let ((goesOn, rx, _), init) :=
    (initDevice answers d.rx d.tx).run ⟨d.net.mem, ⟨d.net.pmm, d.held⟩, d.written⟩
  if goesOn then rxFillUses rx { d.net with pmm := init.frames.pmm } else []

/-! ### Calls after `net_init` -/

inductive NetCall where
  | arpRequestGateway
  | virtioNetHandleIrq (status : Nat)
  | device (writes : DeviceWrites)

def Driver.call (d : Driver) : NetCall → Driver
  | .arpRequestGateway => { d with net := (Net.arpRequestGateway.run d.net).2 }
  | .virtioNetHandleIrq status => { d with net := ((Net.virtioNetHandleIrq status).run d.net).2 }
  | .device writes => { d with net := d.net.written writes }

def Driver.uses (d : Driver) : NetCall → List RingUse
  | .arpRequestGateway => sendUses d.tx d.net
  | .virtioNetHandleIrq status => irqUses d.rx d.tx status d.net
  | .device _ => []

def CallAfterInit (d : Driver) (call : NetCall) (next : Driver) : Prop := next = d.call call

/-- No modulo by zero and no access through NULL, in `net_init` and in every
sequence of calls after it. -/
def NetSafe (answers : DeviceAnswers) (d : Driver) : Prop :=
  (∀ use ∈ initUses answers d, use.Ok) ∧
    ∀ path last, Execution CallAfterInit (netInit answers d) path last →
      ∀ transition ∈ path, ∀ use ∈ transition.source.uses transition.label, use.Ok

/-- Both queues are set up. -/
def QueueBase.Ready (queue : QueueBase) : Prop :=
  queue.qsize ≠ 0 ∧ queue.desc ≠ 0 ∧ queue.avail ≠ 0 ∧ queue.used ≠ 0

def Driver.Ready (d : Driver) : Prop := d.rx.Ready ∧ d.tx.Ready

section Uses

variable {rx tx : QueueBase} {s : State} {use : RingUse}

theorem sendUses_ok (ready : tx.Ready) (member : use ∈ sendUses tx s) : use.Ok := by
  rcases ready with ⟨qsize, desc, avail, -⟩
  unfold sendUses at member
  split at member
  · cases member
  · simp only [List.mem_cons, List.not_mem_nil, or_false] at member
    rcases member with rfl | rfl | rfl | rfl | rfl | rfl <;> assumption

theorem receiveUses_ok (rxReady : rx.Ready) (txReady : tx.Ready)
    (member : use ∈ receiveUses rx tx s) : use.Ok := by
  rcases rxReady with ⟨qsize, desc, avail, used⟩
  unfold receiveUses at member
  rw [List.mem_append, List.mem_append] at member
  rcases member with (front | reply) | back
  · simp only [List.mem_cons, List.not_mem_nil, or_false] at front
    rcases front with rfl | rfl | rfl | rfl <;> assumption
  · split at reply
    · exact sendUses_ok txReady reply
    · cases reply
  · simp only [List.mem_cons, List.not_mem_nil, or_false] at back
    rcases back with rfl | rfl | rfl | rfl <;> assumption

theorem pollRxUses_ok (rxReady : rx.Ready) (txReady : tx.Ready) {fuel : Nat}
    (member : use ∈ pollRxUses rx tx fuel s) : use.Ok := by
  induction fuel generalizing s with
  | zero => cases member
  | succ fuel inductionHypothesis =>
      rw [pollRxUses] at member
      rcases List.mem_cons.mp member with rfl | member
      · exact rxReady.2.2.2
      · split at member
        · cases member
        · rcases List.mem_append.mp member with first | later
          · exact receiveUses_ok rxReady txReady first
          · exact inductionHypothesis later

theorem cleanupTxUses_ok (ready : tx.Ready) {fuel : Nat}
    (member : use ∈ cleanupTxUses tx fuel s) : use.Ok := by
  induction fuel generalizing s with
  | zero => cases member
  | succ fuel inductionHypothesis =>
      rw [cleanupTxUses] at member
      rcases List.mem_cons.mp member with rfl | member
      · exact ready.2.2.2
      · split at member
        · cases member
        · rcases List.mem_append.mp member with first | later
          · simp only [List.mem_cons, List.not_mem_nil, or_false] at first
            rcases first with rfl | rfl | rfl
            · exact ready.1
            · exact ready.2.2.2
            · exact ready.2.1
          · exact inductionHypothesis later

theorem rxFillUses_ok (ready : rx.Ready) (member : use ∈ rxFillUses rx s) : use.Ok := by
  unfold rxFillUses at member
  rcases List.mem_append.mp member with filled | published
  · rcases List.mem_flatMap.mp filled with ⟨_, -, inIteration⟩
    simp only [List.mem_cons, List.not_mem_nil, or_false] at inIteration
    rcases inIteration with rfl | rfl | rfl
    · exact ready.2.1
    · exact ready.1
    · exact ready.2.2.1
  · rw [List.mem_singleton.mp published]
    exact ready.2.2.1

theorem Driver.Ready.uses_ok {d : Driver} (ready : d.Ready) {call : NetCall}
    (member : use ∈ d.uses call) : use.Ok := by
  rcases ready with ⟨rxReady, txReady⟩
  cases call with
  | arpRequestGateway => exact sendUses_ok txReady member
  | virtioNetHandleIrq status =>
      change use ∈ irqUses d.rx d.tx status d.net at member
      unfold irqUses at member
      split at member
      · rcases List.mem_append.mp member with polled | cleaned
        · exact pollRxUses_ok rxReady txReady polled
        · exact cleanupTxUses_ok txReady cleaned
      · cases member
  | device writes => cases member

/-- The handler reads both used rings. -/
theorem mem_irqUses (rx tx : QueueBase) (s : State) :
    RingUse.used rx.used ∈ irqUses rx tx 1 s ∧ RingUse.used tx.used ∈ irqUses rx tx 1 s := by
  have fuel : 2 ^ 16 = 65535 + 1 := rfl
  unfold irqUses
  rw [if_pos (by decide), fuel, pollRxUses, cleanupTxUses]
  constructor
  · exact List.mem_append_left _ (List.mem_cons_self ..)
  · exact List.mem_append_right _ (List.mem_cons_self ..)

end Uses

/-! ### What `net_init` leaves -/

section Init

variable {pmm : Pmm.State} {queueMax : Nat} {s : InitState}

theorem pmm_iterate_allocHeld (count : Nat) (m : Pmm.Holders) :
    (allocHeld^[count] m).pmm = allocFrames count m.pmm := by
  induction count generalizing m with
  | zero => rfl
  | succ count inductionHypothesis =>
      rw [Function.iterate_succ_apply, inductionHypothesis, allocHeld_pmm]
      rfl

/-- Whether the call after `count` others finds a frame. -/
theorem frame_ne_zero_iff (consistent : Consistent pmm) (count : Nat) :
    (pmmAllocFrame (allocFrames count pmm)).1 ≠ 0 ↔ count < pmm.stackTop := by
  constructor
  · intro found
    by_contra none
    have empty : (allocFrames count pmm).stackTop = 0 := by
      rw [(Vmm.allocFrames_stack count pmm).2]
      omega
    rw [Pmm.pmmAllocFrame_of_empty empty] at found
    exact found rfl
  · intro enough
    rw [frame_allocFrames enough]
    exact Pmm.indexToPhys_ne_zero (consistent.frame_lt (by omega))

/-- A queue set up after `count` calls of `pmm_alloc_frame`. -/
structure SetUp (pmm : Pmm.State) (count queueMax : Nat) (queue : QueueBase) (after : InitState) :
    Prop where
  qsize : queue.qsize = queueMax
  desc : queue.desc ≠ 0 ↔ count + 3 < pmm.stackTop
  avail : queue.avail ≠ 0 ↔ count + 4 < pmm.stackTop
  used : queue.used ≠ 0 ↔ count + 7 < pmm.stackTop
  frames : after.frames.pmm = allocFrames (count + 8) pmm

theorem virtioInitQueue_setUp (consistent : Consistent pmm) (queueIndex : Nat)
    (available : queueMax ≠ 0) (queue : QueueBase) {count : Nat}
    (isFrames : s.frames.pmm = allocFrames count pmm) :
    SetUp pmm count queueMax (virtioInitQueue queueIndex queueMax queue s).1
      (virtioInitQueue queueIndex queueMax queue s).2 := by
  rcases virtioInitQueue_frames queueIndex available queue s with ⟨isQueue, frames⟩
  have later : ∀ more, (allocHeld^[more] s.frames).pmm = allocFrames (count + more) pmm := by
    intro more
    rw [pmm_iterate_allocHeld, isFrames, ← Vmm.allocFrames_add]
  rw [isQueue]
  refine ⟨rfl, ?_, ?_, ?_, ?_⟩
  · dsimp only
    rw [later, frame_ne_zero_iff consistent]
  · dsimp only
    rw [later, frame_ne_zero_iff consistent]
  · dsimp only
    rw [later, frame_ne_zero_iff consistent]
  · rw [frames, later]

/-- The state in which `net_init` sets up the queues. -/
def Driver.negotiated (d : Driver) (answers : DeviceAnswers) : InitState :=
  ((negotiate answers.features).run ⟨d.net.mem, ⟨d.net.pmm, d.held⟩, d.written⟩).2

theorem initDevice_refused {answers : DeviceAnswers} (d : Driver)
    (refused : answers.status &&& statusFeaturesOk = 0) :
    ((initDevice answers d.rx d.tx).run ⟨d.net.mem, ⟨d.net.pmm, d.held⟩, d.written⟩).1 =
      (false, d.rx, d.tx) := by
  unfold initDevice
  rw [if_pos refused]
  rfl

theorem initDevice_accepted {answers : DeviceAnswers} (d : Driver)
    (accepted : answers.status &&& statusFeaturesOk ≠ 0) :
    (initDevice answers d.rx d.tx).run ⟨d.net.mem, ⟨d.net.pmm, d.held⟩, d.written⟩ =
      ((true, (initQueues answers.rxMax answers.txMax d.rx d.tx (d.negotiated answers)).1),
        (initQueues answers.rxMax answers.txMax d.rx d.tx (d.negotiated answers)).2) := by
  unfold initDevice
  rw [if_neg accepted]
  rfl

theorem netInit_refused {answers : DeviceAnswers} (d : Driver)
    (refused : answers.status &&& statusFeaturesOk = 0) :
    (netInit answers d).rx = d.rx ∧ initUses answers d = [] := by
  have stops := initDevice_refused d refused
  unfold netInit initUses
  generalize (initDevice answers d.rx d.tx).run _ = result at stops
  rcases result with ⟨⟨goesOn, rx, tx⟩, init⟩
  cases stops
  exact ⟨rfl, rfl⟩

theorem netInit_accepted {answers : DeviceAnswers} (d : Driver)
    (accepted : answers.status &&& statusFeaturesOk ≠ 0) :
    (netInit answers d).rx =
        (virtioInitQueue 0 answers.rxMax d.rx (d.negotiated answers)).1 ∧
      (netInit answers d).tx = (virtioInitQueue 1 answers.txMax d.tx
        (virtioInitQueue 0 answers.rxMax d.rx (d.negotiated answers)).2).1 ∧
      ∃ pmm, initUses answers d = rxFillUses (netInit answers d).rx { d.net with pmm := pmm } := by
  have goes := initDevice_accepted d accepted
  unfold netInit initUses
  rw [goes]
  exact ⟨rfl, rfl, _, rfl⟩

end Init

/-! ### The entry points -/

/-- The device accepts the features, both queues are available, and there are
frames for their rings. -/
def InitSucceeds (answers : DeviceAnswers) (pmm : Pmm.State) : Prop :=
  answers.status &&& statusFeaturesOk ≠ 0 ∧ answers.rxMax ≠ 0 ∧ answers.txMax ≠ 0 ∧
    16 ≤ pmm.stackTop

section Entry

variable {answers : DeviceAnswers} {pmm : Pmm.State}

theorem netInit_ready (mem : Memory) (consistent : Consistent pmm) (succeeds : InitSucceeds answers pmm) :
    (netInit answers (Driver.boot mem pmm)).Ready := by
  rcases succeeds with ⟨accepted, rxAvailable, txAvailable, enough⟩
  rcases netInit_accepted (Driver.boot mem pmm) accepted with ⟨isRx, isTx, -⟩
  have start : ((Driver.boot mem pmm).negotiated answers).frames.pmm = allocFrames 0 pmm := rfl
  have rx := virtioInitQueue_setUp consistent 0 rxAvailable (Driver.boot mem pmm).rx start
  have tx := virtioInitQueue_setUp consistent 1 txAvailable (Driver.boot mem pmm).tx rx.frames
  rw [← isRx] at rx
  rw [← isTx] at tx
  refine ⟨⟨?_, rx.desc.mpr (by omega), rx.avail.mpr (by omega), rx.used.mpr (by omega)⟩,
    ⟨?_, tx.desc.mpr (by omega), tx.avail.mpr (by omega), tx.used.mpr (by omega)⟩⟩
  · rw [rx.qsize]
    exact rxAvailable
  · rw [tx.qsize]
    exact txAvailable

theorem netInit_not_ready (mem : Memory) (consistent : Consistent pmm) (fails : ¬ InitSucceeds answers pmm) :
    (netInit answers (Driver.boot mem pmm)).rx.used = 0 ∨
      (netInit answers (Driver.boot mem pmm)).tx.used = 0 := by
  by_cases accepted : answers.status &&& statusFeaturesOk ≠ 0
  · rcases netInit_accepted (Driver.boot mem pmm) accepted with ⟨isRx, isTx, -⟩
    by_cases rxAvailable : answers.rxMax ≠ 0
    · by_cases txAvailable : answers.txMax ≠ 0
      · have few : ¬ 16 ≤ pmm.stackTop := fun enough =>
          fails ⟨accepted, rxAvailable, txAvailable, enough⟩
        have start : ((Driver.boot mem pmm).negotiated answers).frames.pmm = allocFrames 0 pmm := rfl
        have rx := virtioInitQueue_setUp consistent 0 rxAvailable (Driver.boot mem pmm).rx start
        have tx := virtioInitQueue_setUp consistent 1 txAvailable (Driver.boot mem pmm).tx rx.frames
        rw [isTx]
        exact Or.inr (not_not.mp (mt tx.used.mp (by omega)))
      · rw [isTx, not_not.mp txAvailable]
        exact Or.inr rfl
    · rw [isRx, not_not.mp rxAvailable]
      exact Or.inl rfl
  · rw [(netInit_refused (Driver.boot mem pmm) (not_not.mp accepted)).1]
    exact Or.inl rfl

/-- Calls change the rings, never the pointers or the sizes. -/
theorem Driver.Ready.call {d next : Driver} {call : NetCall} (ready : d.Ready)
    (called : CallAfterInit d call next) : next.Ready := by
  rw [called]
  cases call with
  | arpRequestGateway => exact ready
  | virtioNetHandleIrq status => exact ready
  | device writes => exact ready

/-- After a failed initialisation the first interrupt goes through a pointer that
was never set. -/
theorem not_netSafe (mem : Memory) (consistent : Consistent pmm)
    (fails : ¬ InitSucceeds answers pmm) : ¬ NetSafe answers (Driver.boot mem pmm) := by
  intro safe
  have called : CallAfterInit (netInit answers (Driver.boot mem pmm)) (.virtioNetHandleIrq 1) _ := rfl
  have interrupt := safe.2 _ _ (Execution.single called) _ (List.mem_singleton_self _)
  have reads := mem_irqUses (netInit answers (Driver.boot mem pmm)).rx
    (netInit answers (Driver.boot mem pmm)).tx (netInit answers (Driver.boot mem pmm)).net
  rcases netInit_not_ready mem consistent fails with noRx | noTx
  · exact interrupt _ reads.1 noRx
  · exact interrupt _ reads.2 noTx

/-- Whatever the device answers during `net_init`: no modulo by zero is evaluated
and no ring is accessed through NULL, then and in any sequence of calls, if and
only if the initialisation succeeds. -/
theorem netSafe_iff_initSucceeds (answers : DeviceAnswers) (mem : Memory)
    (consistent : Consistent pmm) :
    NetSafe answers (Driver.boot mem pmm) ↔ InitSucceeds answers pmm := by
  constructor
  · intro safe
    by_contra fails
    exact not_netSafe mem consistent fails safe
  · intro succeeds
    have ready := netInit_ready mem consistent succeeds
    constructor
    · rcases netInit_accepted (Driver.boot mem pmm) succeeds.1 with ⟨-, -, _, isFill⟩
      intro use member
      rw [isFill] at member
      exact rxFillUses_ok ready.1 member
    · intro path last run transition member use inUses
      have before := (run.invariant_transitions ready
        (fun _ _ _ ready called => Driver.Ready.call ready called) transition member).1
      exact before.uses_ok inUses

end Entry

/-- 32 pages of RAM, and a device that works. -/
theorem netSafe_iff_initSucceeds_32_pages :
    NetSafe ⟨0, 11, 256, 256, Vector.replicate 6 2⟩
        (Driver.boot (fun _ => 0) (Pmm.pmmInit 0x40001000 0x20000 Pmm.State.zero)) ↔
      InitSucceeds ⟨0, 11, 256, 256, Vector.replicate 6 2⟩
        (Pmm.pmmInit 0x40001000 0x20000 Pmm.State.zero) :=
  netSafe_iff_initSucceeds _ _ (Pmm.pmmInit_consistent (by constructor <;> decide))

/-- The device does not accept the features. -/
theorem exists_null_access :
    ¬ NetSafe ⟨0, 3, 256, 256, Vector.replicate 6 2⟩
      (Driver.boot (fun _ => 0) (Pmm.pmmInit 0x40001000 0x20000 Pmm.State.zero)) := by
  apply not_netSafe _ (Pmm.pmmInit_consistent (by constructor <;> decide))
  intro succeeds
  exact succeeds.1 (by decide)

end UniKernel.Net
