import UniKernel.Net.SendSteps

/-!
Owns `net_send` with the network interrupt taken between two of its statements.
The handler sends replies of its own and frees returned frames. That goes wrong
in two places: between the choice of a descriptor and `tx_desc_idx++`, where any
reply takes the same descriptor, and between `stack_top--` and the read of the
stack, where the slot that is read moves with the stack.
-/

namespace UniKernel.Net

open UniKernel.Lib
open UniKernel.Pmm (Consistent indexToPhys pmmAllocFrame)
open UniKernel.Vmm (allocFrames)

/-! ### The interrupted call -/

/-- What the device may have written when the interrupt is taken: packets and
both used rings. -/
structure DeviceWrites where
  mem : Memory
  rxUsedRing : Nat → UsedElem
  rxUsedIdx : Nat
  txUsedRing : Nat → UsedElem
  txUsedIdx : Nat

def State.written (s : State) (device : DeviceWrites) : State :=
  { s with
    mem := device.mem
    rxq := { s.rxq with usedRing := device.rxUsedRing, usedIdx := device.rxUsedIdx }
    txq := { s.txq with usedRing := device.txUsedRing, usedIdx := device.txUsedIdx } }

/-- The point and the state at which the interrupt is taken, after `count`
statements of the call. -/
def interruptedAt (macFrame : List UInt8) (count : Nat) (device : DeviceWrites) (s : State) :
    SendPoint × State :=
  ((sendSteps macFrame count (.checkStack, s)).1,
    (sendSteps macFrame count (.checkStack, s)).2.written device)

/-- The call, with the handler run to completion at that point. -/
def interrupted (macFrame : List UInt8) (count : Nat) (device : DeviceWrites) (status : Nat)
    (s : State) : SendPoint × State :=
  finish macFrame ((interruptedAt macFrame count device s).1,
    ((virtioNetHandleIrq status).run (interruptedAt macFrame count device s).2).2)

/-- The returned packets that `net_cleanup_tx` finds: their frames are held
once, and their descriptors are not among those of the next `replies` packets. -/
structure Returned (s : State) (replies : Nat) (elements : List UsedElem) (frames : List Nat) :
    Prop where
  used : Ring.Holds s.txq.usedRing s.txq.qsize s.txq.lastUsedIdx s.txq.usedIdx elements
  short : elements.length < 2 ^ 16
  addrs : elements.map (fun elem => (s.txq.desc elem.id).addr) = frames.map indexToPhys
  held : HeldOnce s.pmm frames
  apart : ∀ elem ∈ elements, ∀ i < replies, Ring.slot s.txq.qsize (s.txDescIdx + i) ≠ elem.id

/-- The packets of the interrupted call and of the handler have frames and
descriptors of their own, each is in the available ring exactly once, and the
frame allocator is in order. -/
structure SendsApart (s s' : State) (own : Sent) (replies : List Sent) : Prop where
  frames : ((own :: replies).map Sent.frame).Nodup
  descs : ((own :: replies).map Sent.desc).Nodup
  published : ∀ sent ∈ own :: replies, (s'.txq.desc sent.desc).addr = sent.frame ∧
    ∃! i, i < replies.length + 1 ∧
      s'.txq.availRing (Ring.slot s.txq.qsize (s.txq.availIdx + i)) = sent.desc
  availIdx : s'.txq.availIdx = u16 (s.txq.availIdx + (replies.length + 1))
  stack : Consistent s'.pmm

/-- The interrupted call sends its packet, apart from those of the handler. -/
def InterruptOk (s : State) (c : SendPoint × State) (replies : List Sent) : Prop :=
  ∃ own, c.1 = .done (some own) ∧ SendsApart s c.2 own replies

/-- An interrupt does no harm at `point`: between the choice of a descriptor and
`tx_desc_idx++` the handler sends nothing, and between `stack_top--` and the read
of the stack, the slot that will be on top holds the frame that is there now. -/
def Harmless (pmm : Pmm.State) (replies freed : Nat) : SendPoint → Prop
  | .readStack => pmm.frameStack (pmm.stackTop - replies + freed) = pmm.frameStack pmm.stackTop
  | .setAddr _ _ | .setLen _ _ | .setFlags _ _ | .setNext _ _ | .readAvail _ _ => replies = 0
  | .setRing _ _ _ | .setIdx _ _ _ | .notify _ _ _ | .incrementHead _ _ _ => replies = 0
  | _ => True

/-! ### What the handler does -/

section Handler

variable {exponent status : Nat} {s s' : State} {replies : List Sent} {elements : List UsedElem}
  {frames : List Nat}

/-- The handler sends `replies` and frees `frames`. -/
structure Handled (s s' : State) (replies : List Sent) (frames : List Nat) : Prop where
  pmm : s'.pmm = freeAll frames (allocFrames replies.length s.pmm)
  pops : PopsFrames s.pmm (allocFrames replies.length s.pmm) replies
  published : Published s s' replies

/-- The replies leave the used ring alone. -/
theorem Sending.keepsUsed (sending : Sending s replies s') :
    s'.txq.usedRing = s.txq.usedRing ∧ s'.txq.usedIdx = s.txq.usedIdx ∧
      s'.txq.lastUsedIdx = s.txq.lastUsedIdx := by
  induction sending with
  | none same =>
      rw [same.txq]
      exact ⟨rfl, rfl, rfl⟩
  | send before macFrame frame same inductionHypothesis =>
      rw [same.txq, (netSend_txq macFrame frame).1]
      exact inductionHypothesis

theorem freeReturned_eq {desc : Nat → Desc} {pmm : Pmm.State}
    (addrs : elements.map (fun elem => (desc elem.id).addr) = frames.map indexToPhys) :
    freeReturned desc elements pmm = freeAll frames pmm := by
  have folded : freeReturned desc elements pmm =
      (elements.map fun elem => (desc elem.id).addr).foldl
        (fun pmm addr => Pmm.pmmFreeFrame addr pmm) pmm := by
    unfold freeReturned
    rw [List.foldl_map]
  rw [folded, addrs, List.foldl_map]
  rfl

theorem handler_run (bit : status &&& 1 ≠ 0) (s : State) :
    ((virtioNetHandleIrq status).run s).2 = ((cleanupTxLoop (2 ^ 16)).run (netPollRx.run s).2).2 := by
  unfold virtioNetHandleIrq netCleanupTx
  rw [if_pos bit]
  rfl

theorem handler_handled (bit : status &&& 1 ≠ 0) (counters : TxCounters exponent s)
    (returned : Returned s replies.length elements frames)
    (room : replies.length ≤ Ring.capacity (2 ^ exponent))
    (sending : Sending s replies (netPollRx.run s).2) :
    Handled s ((virtioNetHandleIrq status).run s).2 replies frames := by
  have pops := sending.pops
  have published := sending.published counters room
  rcases sending.keepsUsed with ⟨usedRing, usedIdx, lastUsedIdx⟩
  have used : Ring.Holds (netPollRx.run s).2.txq.usedRing (netPollRx.run s).2.txq.qsize
      (netPollRx.run s).2.txq.lastUsedIdx (netPollRx.run s).2.txq.usedIdx elements := by
    rw [usedRing, usedIdx, lastUsedIdx, published.size]
    exact returned.used
  have cleaned := cleanupTxLoop_run used returned.short (Nat.le_of_lt returned.short)
  have keptDesc : ∀ elem ∈ elements,
      (netPollRx.run s).2.txq.desc elem.id = s.txq.desc elem.id := by
    intro elem isElem
    apply published.otherDesc
    intro sent isSent
    rcases List.getElem?_of_mem isSent with ⟨i, isPlace⟩
    rw [(published.place i sent isPlace).1]
    exact returned.apart elem isElem i (List.getElem?_eq_some_iff.mp isPlace).1
  have addrs : elements.map (fun elem => ((netPollRx.run s).2.txq.desc elem.id).addr) =
      frames.map indexToPhys := by
    rw [← returned.addrs]
    apply List.map_congr_left
    intro elem isElem
    rw [keptDesc elem isElem]
  rw [handler_run bit, cleaned]
  refine ⟨?_, ⟨rfl, pops.enough, pops.frame⟩, published.congr rfl rfl rfl rfl rfl⟩
  dsimp only
  rw [freeReturned_eq addrs, pops.after]

end Handler

/-! ### Where the call is interrupted -/

section Points

variable {exponent : Nat} {macFrame : List UInt8} {s s' : State} {point : SendPoint}

/-- The state after `stack_top--`. -/
def State.popped (s : State) : State :=
  { s with pmm := { s.pmm with stackTop := s.pmm.stackTop - 1 } }

/-- The call has its frame and no descriptor yet. -/
structure Claimed (s : State) (point : SendPoint) (s' : State) : Prop where
  claims : point.claims = some s.nextSent.frame
  txq : s'.txq = s.txq
  txDescIdx : s'.txDescIdx = s.txDescIdx
  pmm : point.bookkeeping s'.pmm = (pmmAllocFrame s.pmm).2
  fresh : ∀ idx, point.uncounted = some idx → s'.pmm.refCounts idx = 0

/-- The call has its descriptor and has not returned. -/
structure Writing (s : State) (point : SendPoint) (s' : State) : Prop where
  head : point.head? = some s.nextSent.desc
  running : 0 < point.rank
  size : s'.txq.qsize = s.txq.qsize
  availIdx : s'.txq.availIdx < 2 ^ 16
  txDescIdx : s'.txDescIdx = s.txDescIdx
  pmm : s'.pmm = (pmmAllocFrame s.pmm).2

/-- How far the call has come. -/
inductive At (macFrame : List UInt8) (s : State) : SendPoint → State → Prop where
  | early {point : SendPoint} (isEarly : point = .checkStack ∨ point = .decrementTop) :
      At macFrame s point s
  | popped : At macFrame s .readStack s.popped
  | claimed {point : SendPoint} {s' : State} (claimed : Claimed s point s') : At macFrame s point s'
  | writing {point : SendPoint} {s' : State} (writing : Writing s point s') : At macFrame s point s'
  | finished {sent : Option Sent} {s' : State} : At macFrame s (.done sent) s'

/-- The state before the call: a consistent allocator that is not empty. -/
structure CanSend (exponent : Nat) (s : State) : Prop where
  counters : TxCounters exponent s
  consistent : Consistent s.pmm
  nonempty : s.pmm.stackTop ≠ 0

namespace CanSend

theorem topSmall (can : CanSend exponent s) : s.pmm.stackTop < 2 ^ 32 := by
  have accounted := can.consistent.accounted
  have small := can.consistent.small
  omega

theorem nonnull (can : CanSend exponent s) : s.nextSent.frame ≠ 0 :=
  (Pmm.Drawn.refl s.pmm).allocates can.consistent can.nonempty

/-- The frame on top of the stack. -/
theorem top (can : CanSend exponent s) :
    s.nextSent.frame = indexToPhys (s.pmm.frameStack (s.pmm.stackTop - 1)) := by
  have nonempty := can.nonempty
  have isTop : s.pmm.stackTop = s.pmm.stackTop - 1 + 1 := by omega
  exact congrArg Prod.fst (Pmm.pmmAllocFrame_of_nonempty isTop)

/-- What the statements up to `readStack` leave for the frame on top. -/
theorem claimed_countUsed (can : CanSend exponent s) :
    Claimed s (.countUsed (s.pmm.frameStack (s.pmm.stackTop - 1))) s.popped := by
  have nonempty := can.nonempty
  have isTop : s.pmm.stackTop = s.pmm.stackTop - 1 + 1 := by omega
  refine ⟨congrArg some can.top.symm, rfl, rfl, ?_, ?_⟩
  · rw [Pmm.pmmAllocFrame_of_nonempty isTop]
    rfl
  · intro idx isIdx
    rw [← Option.some.inj isIdx]
    exact (can.consistent.top_free isTop).2

end CanSend

theorem Claimed.step (can : CanSend exponent s) (claimed : Claimed s point s')
    (more : point ≠ .readHead s.nextSent.frame) :
    Claimed s (point.step macFrame s').1 (point.step macFrame s').2 := by
  rcases SendPoint.claims_step macFrame s' claimed.claims can.nonnull more with
    ⟨claims, txq, txDescIdx, bookkeeping⟩
  refine ⟨claims, txq.trans claimed.txq, txDescIdx.trans claimed.txDescIdx,
    bookkeeping.trans claimed.pmm, ?_⟩
  intro idx isUncounted
  cases point with
  | countUsed other => exact claimed.fresh idx isUncounted
  | checkFrame phys =>
      by_cases isNull : phys = 0
      · simp [SendPoint.step, isNull, SendPoint.uncounted] at isUncounted
      · simp [SendPoint.step, isNull, SendPoint.uncounted] at isUncounted
  | setRefCount other => cases isUncounted
  | returnFrame other => cases isUncounted
  | clearHeader phys => cases isUncounted
  | copyFrame phys => cases isUncounted
  | readHead phys => cases isUncounted
  | _ => cases claimed.claims

theorem Writing.step (macFrame : List UInt8) (writing : Writing s point s') :
    At macFrame s (point.step macFrame s').1 (point.step macFrame s').2 := by
  have head := (SendPoint.head_step macFrame s' writing.head).1
  rcases writing with ⟨isHead, running, size, availIdx, txDescIdx, pmm⟩
  cases point with
  | done sent => exact absurd running (Nat.lt_irrefl 0)
  | setAddr phys other =>
      exact At.writing ⟨head, Nat.succ_pos _, size, availIdx, txDescIdx, pmm⟩
  | setLen phys other =>
      exact At.writing ⟨head, Nat.succ_pos _, size, availIdx, txDescIdx, pmm⟩
  | setFlags phys other =>
      exact At.writing ⟨head, Nat.succ_pos _, size, availIdx, txDescIdx, pmm⟩
  | setNext phys other =>
      exact At.writing ⟨head, Nat.succ_pos _, size, availIdx, txDescIdx, pmm⟩
  | readAvail phys other =>
      exact At.writing ⟨head, Nat.succ_pos _, size, availIdx, txDescIdx, pmm⟩
  | setRing phys other avail =>
      exact At.writing ⟨head, Nat.succ_pos _, size, availIdx, txDescIdx, pmm⟩
  | setIdx phys other avail =>
      exact At.writing ⟨head, Nat.succ_pos _, size, u16_lt _, txDescIdx, pmm⟩
  | notify phys other avail =>
      exact At.writing ⟨head, Nat.succ_pos _, size, availIdx, txDescIdx, pmm⟩
  | incrementHead phys other avail => exact At.finished
  | _ => cases isHead

theorem At.step (can : CanSend exponent s) (at_ : At macFrame s point s') :
    At macFrame s (point.step macFrame s').1 (point.step macFrame s').2 := by
  cases at_ with
  | early isEarly =>
      rcases isEarly with isCheck | isDecrement
      · have goesOn : point.step macFrame s = (.decrementTop, s) := by
          rw [isCheck]
          exact if_neg can.nonempty
        rw [goesOn]
        exact At.early (Or.inr rfl)
      · have goesOn : point.step macFrame s = (.readStack, s.popped) := by
          rw [isDecrement]
          unfold State.popped
          rw [← pred32_of_pos (Nat.pos_of_ne_zero can.nonempty) can.topSmall]
          rfl
        rw [goesOn]
        exact At.popped
  | popped => exact At.claimed can.claimed_countUsed
  | claimed claimed =>
      by_cases last : point = .readHead s.nextSent.frame
      · subst last
        refine At.writing ⟨?_, Nat.succ_pos _, ?_, ?_, claimed.txDescIdx, claimed.pmm⟩
        · change some (u16 (s'.txDescIdx % s'.txq.qsize)) = _
          rw [claimed.txDescIdx, claimed.txq]
          rfl
        · exact congrArg Virtq.qsize claimed.txq
        · change s'.txq.availIdx < 2 ^ 16
          rw [claimed.txq]
          exact can.counters.availIdx
      · exact At.claimed (claimed.step can last)
  | writing writing => exact writing.step macFrame
  | finished => exact At.finished

theorem At.writing_of_head {h : Nat} (isAt : At macFrame s point s')
    (head : point.head? = some h) (running : 0 < point.rank) : Writing s point s' := by
  cases isAt with
  | early isEarly => rcases isEarly with rfl | rfl <;> cases head
  | popped => cases head
  | claimed claimed =>
      have claims := claimed.claims
      cases point <;> first | (cases claims; done) | cases head
  | writing writing => exact writing
  | finished => exact absurd running (Nat.lt_irrefl 0)

/-- Every interrupted call is at one of these points. -/
theorem at_sendSteps (can : CanSend exponent s) (macFrame : List UInt8) (count : Nat) :
    At macFrame s (sendSteps macFrame count (.checkStack, s)).1
      (sendSteps macFrame count (.checkStack, s)).2 := by
  induction count with
  | zero => exact At.early (Or.inl rfl)
  | succ count inductionHypothesis =>
      rw [sendSteps_succ]
      exact inductionHypothesis.step can

end Points

/-! ### What the rest of the call makes of it -/

section Outcome

variable {exponent : Nat} {macFrame : List UInt8} {device : DeviceWrites}
  {s s' middle : State} {point : SendPoint} {own : Sent} {replies order : List Sent}
  {frames : List Nat}

/-- Only the rings and counters of the first state matter. -/
theorem Published.congr_start (published : Published middle s' order) (same : SameRings s middle) :
    Published s s' order where
  size := published.size.trans same.size
  availIdx := by rw [published.availIdx, same.availIdx]
  txDescIdx := by rw [published.txDescIdx, same.txDescIdx]
  place := by
    intro i sent isSent
    have place := published.place i sent isSent
    rw [same.size, same.availIdx, same.txDescIdx] at place
    exact place
  desc := published.desc
  ring := published.ring
  otherDesc := by
    intro d noSent
    rw [published.otherDesc d noSent, same.desc]
  otherSlot := by
    intro slot noSent
    rw [published.otherSlot slot noSent, same.availRing]

theorem sameRings_written (s : State) (device : DeviceWrites) : SameRings s (s.written device) :=
  ⟨rfl, rfl, rfl, rfl, rfl⟩

theorem SameRings.trans (first : SameRings s middle) (second : SameRings middle s') :
    SameRings s s' :=
  ⟨second.size.trans first.size, second.availIdx.trans first.availIdx,
    second.desc.trans first.desc, second.availRing.trans first.availRing,
    second.txDescIdx.trans first.txDescIdx⟩

/-- Packets that were published in some order. -/
theorem SendsApart.of_published (counters : TxCounters exponent s)
    (published : Published s s' order) (perm : order.Perm (own :: replies))
    (room : order.length ≤ Ring.capacity (2 ^ exponent)) (distinct : (order.map Sent.frame).Nodup)
    (stack : Consistent s'.pmm) : SendsApart s s' own replies := by
  have total : order.length = replies.length + 1 := perm.length_eq
  have differ : ∀ (i j : Nat) (sent other : Sent), order[i]? = some sent → order[j]? = some other →
      sent.desc = other.desc → i = j := by
    intro i j sent other isSent isOther same
    rcases Nat.lt_trichotomy i j with early | equal | late
    · exact absurd same (published.place_ne counters room isSent isOther early).1
    · exact equal
    · exact absurd same.symm (published.place_ne counters room isOther isSent late).1
  refine ⟨(perm.map _).nodup_iff.mp distinct, (perm.map _).nodup_iff.mp ?_, ?_, ?_, stack⟩
  · rw [List.nodup_iff_getElem?_ne_getElem?]
    intro i j ordered below same
    rw [List.length_map] at below
    rw [List.getElem?_map, List.getElem?_map, List.getElem?_eq_getElem below,
      List.getElem?_eq_getElem (Nat.lt_trans ordered below)] at same
    have equal := differ i j _ _ (List.getElem?_eq_getElem (Nat.lt_trans ordered below))
      (List.getElem?_eq_getElem below) (Option.some.inj same)
    omega
  · intro sent member
    have isIn : sent ∈ order := perm.mem_iff.mpr member
    refine ⟨published.desc sent isIn, ?_⟩
    rcases List.getElem?_of_mem isIn with ⟨i, isSent⟩
    have below := (List.getElem?_eq_some_iff.mp isSent).1
    refine ⟨i, ⟨by omega, ?_⟩, ?_⟩
    · rw [← (published.place i sent isSent).2]
      exact published.ring sent isIn
    · rintro j ⟨jBelow, isDesc⟩
      have isOther := List.getElem?_eq_getElem (show j < order.length by omega)
      have written := published.ring _ (List.getElem_mem (show j < order.length by omega))
      rw [(published.place j _ isOther).2, isDesc] at written
      exact (differ i j _ _ isSent isOther written).symm
  · rw [published.availIdx, total]

/-- Frames from different positions of a stack. -/
theorem frames_nodup {pmm : Pmm.State} {top : Nat} (consistent : Consistent pmm)
    (inStack : top < pmm.stackTop) (few : order.length ≤ top + 1)
    (positions : ∀ i sent, order[i]? = some sent →
      sent.frame = indexToPhys (pmm.frameStack (top - i))) : (order.map Sent.frame).Nodup := by
  rw [List.nodup_iff_getElem?_ne_getElem?]
  intro i j ordered below same
  rw [List.length_map] at below
  have iSent := List.getElem?_eq_getElem (Nat.lt_trans ordered below)
  have jSent := List.getElem?_eq_getElem below
  rw [List.getElem?_map, List.getElem?_map, iSent, jSent] at same
  have sameFrame := Option.some.inj same
  rw [positions i _ iSent, positions j _ jSent] at sameFrame
  have equal := consistent.frame_inj (by omega) (by omega) sameFrame
  omega

/-- The frame of the call and those of the replies, when the call popped first. -/
theorem frames_nodup_own {pmm : Pmm.State} (can : CanSend exponent s)
    (stack : pmm.frameStack = s.pmm.frameStack) (top : pmm.stackTop = s.pmm.stackTop - 1)
    (enough : replies.length + 1 ≤ s.pmm.stackTop) (isOwn : own.frame = s.nextSent.frame)
    (frame : ∀ i sent, replies[i]? = some sent →
      sent.frame = indexToPhys (pmm.frameStack (pmm.stackTop - 1 - i))) :
    ((own :: replies).map Sent.frame).Nodup := by
  have nonempty := can.nonempty
  apply frames_nodup can.consistent (show s.pmm.stackTop - 1 < s.pmm.stackTop by omega)
  · rw [List.length_cons]
    omega
  · intro i sent isSent
    cases i with
    | zero =>
        rw [← Option.some.inj isSent, isOwn]
        exact can.top
    | succ i =>
        rw [frame i sent isSent, stack, top, Nat.sub_sub _ 1 i, Nat.add_comm 1 i]

/-- The bookkeeping leaves the stack alone. -/
theorem SendPoint.bookkeeping_stack (point : SendPoint) (pmm : Pmm.State) :
    (point.bookkeeping pmm).frameStack = pmm.frameStack ∧
      (point.bookkeeping pmm).stackTop = pmm.stackTop ∧
      (point.bookkeeping pmm).totalFrames = pmm.totalFrames := by
  cases point <;> exact ⟨rfl, rfl, rfl⟩

/-- Setting the count of a frame that the handler does not touch. -/
theorem handler_setCount {base : Pmm.State} {idx : Nat}
    (consistent : Consistent (Net.setCount idx 1 base)) (held : HeldOnce base frames)
    (isFree : base.refCounts idx = 0) (value count : Nat) :
    HeldOnce (Net.setCount idx 1 base) frames ∧
      Net.setCount idx value (freeAll frames (allocFrames count base)) =
        freeAll frames (allocFrames count (Net.setCount idx value base)) := by
  have outside : idx ∉ frames := by
    intro member
    have once := (held.held idx member).2
    omega
  have heldCounted : HeldOnce (Net.setCount idx 1 base) frames := by
    refine ⟨held.distinct, ?_⟩
    intro other member
    have differ : other ≠ idx := by
      rintro rfl
      exact outside member
    change other < base.totalFrames ∧ Function.update base.refCounts idx 1 other = 1
    rw [Function.update_of_ne differ]
    exact held.held other member
  have notOnStack : ∀ position < base.stackTop, base.frameStack position ≠ idx := by
    intro position below same
    have onStack : idx ∈ (Net.setCount idx 1 base).freeStack :=
      Pmm.mem_freeStack.mpr ⟨position, below, same⟩
    have free := ((consistent.free_iff idx).mp onStack).2
    change Function.update base.refCounts idx 1 idx = 0 at free
    rw [Function.update_self] at free
    cases free
  have popsConsistent := consistent_allocFrames consistent count
  have popsHeld := heldCounted.allocFrames consistent count
  rw [allocFrames_setCount notOnStack 1 count] at popsConsistent popsHeld
  refine ⟨heldCounted, ?_⟩
  rw [allocFrames_setCount notOnStack value count]
  exact (freeAll_setCount popsConsistent popsHeld outside value).symm

/-- The bookkeeping of an interrupted allocation may as well be done first. -/
theorem SendPoint.bookkeeping_commutes {pmm : Pmm.State}
    (consistent : Consistent (point.bookkeeping pmm)) (held : HeldOnce pmm frames)
    (fresh : ∀ idx, point.uncounted = some idx → pmm.refCounts idx = 0) (count : Nat) :
    HeldOnce (point.bookkeeping pmm) frames ∧
      point.bookkeeping (freeAll frames (allocFrames count pmm)) =
        freeAll frames (allocFrames count (point.bookkeeping pmm)) := by
  cases point with
  | countUsed idx =>
      have heldUsed : HeldOnce (Net.countUsed pmm) frames := ⟨held.distinct, held.held⟩
      have both := handler_setCount consistent heldUsed (fresh idx rfl) 1 count
      rw [allocFrames_countUsed, freeAll_countUsed] at both
      exact both
  | setRefCount idx => exact handler_setCount consistent held (fresh idx rfl) 1 count
  | _ => exact ⟨held, rfl⟩

end Outcome

section Cases

variable {exponent : Nat} {device : DeviceWrites} {s s' handledState : State}
  {point : SendPoint} {replies : List Sent} {frames : List Nat}

/-- One more packet after the replies. -/
theorem Sends.published {macFrame : List UInt8} {phys : Nat} {pmm : Pmm.State}
    (counters : TxCounters exponent s) (sends : Sends macFrame s s' phys pmm) :
    Published s s' [⟨u16 (s.txDescIdx % s.txq.qsize), s.txq.availIdx % s.txq.qsize, phys⟩] :=
  published_one counters rfl sends.txq sends.txDescIdx

theorem TxCounters.sameRings (counters : TxCounters exponent s) (same : SameRings s s') :
    TxCounters exponent s' :=
  ⟨same.size.trans counters.size, by rw [same.availIdx]; exact counters.availIdx,
    by rw [same.txDescIdx]; exact counters.txDescIdx⟩

/-- A frame that a reply popped is not on top of the stack afterwards. -/
theorem CanSend.top_ne_reply {pmm : Pmm.State} (canLater : CanSend exponent s')
    (can : CanSend exponent s) (held : HeldOnce s.pmm frames)
    (freed : Freed (allocFrames replies.length s.pmm) s'.pmm frames)
    (pops : PopsFrames s.pmm pmm replies) {i : Nat} {reply : Sent}
    (isReply : replies[i]? = some reply) : reply.frame ≠ s'.nextSent.frame := by
  intro same
  have below := (List.getElem?_eq_some_iff.mp isReply).1
  have enough := pops.enough
  have nonempty := canLater.nonempty
  have inStack : s.pmm.stackTop - 1 - i < s.pmm.stackTop := by omega
  have isTop : s'.pmm.stackTop = s'.pmm.stackTop - 1 + 1 := by omega
  rw [pops.frame i reply isReply, canLater.top] at same
  have sameIdx := congrArg Pmm.frameOf same
  rw [Pmm.frameOf_indexToPhys (can.consistent.frame_lt inStack),
    Pmm.frameOf_indexToPhys (canLater.consistent.frame_lt (by omega))] at sameIdx
  have isFree := (canLater.consistent.top_free isTop).2
  have wasFree := ((can.consistent.free_iff _).mp
    (Pmm.mem_freeStack.mpr ⟨_, inStack, rfl⟩)).2
  have outside : s.pmm.frameStack (s.pmm.stackTop - 1 - i) ∉ frames := by
    intro member
    have once := (held.held _ member).2
    omega
  rw [← sameIdx, freed.other _ outside,
    refCounts_allocFrames_of_popped can.consistent inStack (by omega)] at isFree
  cases isFree

/-- The interrupt comes before the call has touched the stack. -/
theorem early_ok (can : CanSend exponent s)
    (room : replies.length + 1 ≤ Ring.capacity (2 ^ exponent))
    (enough : replies.length + 1 ≤ s.pmm.stackTop) (held : HeldOnce s.pmm frames)
    (handled : Handled (s.written device) handledState replies frames)
    (early : point = .checkStack ∨ point = .decrementTop) (macFrame : List UInt8) :
    InterruptOk s (finish macFrame (point, handledState)) replies := by
  have consistentPops := consistent_allocFrames can.consistent replies.length
  have heldPops := held.allocFrames can.consistent replies.length
  have freed := freeAll_freed consistentPops heldPops
  have isPmm : handledState.pmm = freeAll frames (allocFrames replies.length s.pmm) := handled.pmm
  rw [← isPmm] at freed
  have counters : TxCounters exponent handledState :=
    (can.counters.sameRings (sameRings_written s device)).published handled.published
  have top : handledState.pmm.stackTop = s.pmm.stackTop - replies.length + frames.length := by
    rw [freed.top, (Vmm.allocFrames_stack replies.length s.pmm).2]
  have canHandled : CanSend exponent handledState := ⟨counters, freed.consistent, by omega⟩
  rcases finish_checkStack macFrame canHandled.nonempty canHandled.topSmall canHandled.nonnull early
    with ⟨last, isDone, sends⟩
  have published : Published s last (replies ++ [handledState.nextSent]) :=
    ((handled.published.append (can.counters.sameRings (sameRings_written s device))
      (sends.published counters) room).congr_start (sameRings_written s device))
  refine ⟨handledState.nextSent, by rw [isDone], ?_⟩
  rw [isDone]
  apply SendsApart.of_published can.counters published (List.perm_append_singleton _ _)
  · rw [List.length_append]
    exact room
  · have enoughReplies : replies.length ≤ s.pmm.stackTop - 1 + 1 := by omega
    have distinct := frames_nodup can.consistent (show s.pmm.stackTop - 1 < s.pmm.stackTop by omega)
      enoughReplies handled.pops.frame
    rw [List.map_append, List.map_singleton]
    refine distinct.append (List.nodup_singleton _) ?_
    rw [List.disjoint_singleton]
    intro member
    rcases List.mem_map.mp member with ⟨reply, isReply, sameFrame⟩
    rcases List.getElem?_of_mem isReply with ⟨i, isPlace⟩
    have below := (List.getElem?_eq_some_iff.mp isPlace).1
    exact canHandled.top_ne_reply can held freed handled.pops isPlace sameFrame
  · rw [sends.pmm]
    exact freed.consistent.pmmAllocFrame

/-- The interrupt comes when the call has its frame but no descriptor. -/
theorem claimed_ok (can : CanSend exponent s)
    (room : replies.length + 1 ≤ Ring.capacity (2 ^ exponent))
    (enough : replies.length + 1 ≤ s.pmm.stackTop) (claimed : Claimed s point s')
    (held : HeldOnce s'.pmm frames)
    (handled : Handled (s'.written device) handledState replies frames) (macFrame : List UInt8) :
    InterruptOk s (finish macFrame (point, handledState)) replies := by
  have allocated := can.consistent.pmmAllocFrame
  rw [← claimed.pmm] at allocated
  rcases SendPoint.bookkeeping_commutes allocated held claimed.fresh replies.length with
    ⟨heldCounted, commutes⟩
  have isPmm : handledState.pmm = freeAll frames (allocFrames replies.length s'.pmm) := handled.pmm
  have freed := freeAll_freed (consistent_allocFrames allocated replies.length)
    (heldCounted.allocFrames allocated replies.length)
  rw [← commutes, ← isPmm] at freed
  have same : SameRings s (s'.written device) := by
    refine SameRings.trans ?_ (sameRings_written s' device)
    exact ⟨congrArg Virtq.qsize claimed.txq, congrArg Virtq.availIdx claimed.txq,
      congrArg Virtq.desc claimed.txq, congrArg Virtq.availRing claimed.txq, claimed.txDescIdx⟩
  have counters : TxCounters exponent handledState :=
    (can.counters.sameRings same).published handled.published
  rcases finish_claims macFrame handledState claimed.claims can.nonnull with ⟨last, isDone, sends⟩
  have published := (handled.published.append (can.counters.sameRings same)
      (sends.published counters) room).congr_start same
  refine ⟨_, by rw [isDone], ?_⟩
  rw [isDone]
  apply SendsApart.of_published can.counters published (List.perm_append_singleton _ _)
  · rw [List.length_append]
    exact room
  · rcases SendPoint.bookkeeping_stack point s'.pmm with ⟨stack, top, -⟩
    rcases Vmm.pmmAllocFrame_stack s.pmm with ⟨popStack, popTop, -⟩
    rw [claimed.pmm] at stack top
    rw [((List.perm_append_singleton _ _).map Sent.frame).nodup_iff]
    exact frames_nodup_own can (stack.symm.trans popStack) (top.symm.trans popTop) enough rfl
      handled.pops.frame
  · rw [sends.pmm]
    exact freed.consistent

/-- The interrupt comes after the call. -/
theorem finished_ok (can : CanSend exponent s)
    (room : replies.length + 1 ≤ Ring.capacity (2 ^ exponent))
    (enough : replies.length + 1 ≤ s.pmm.stackTop) {macFrame : List UInt8}
    (sends : Sends macFrame s s' s.nextSent.frame (pmmAllocFrame s.pmm).2)
    (held : HeldOnce s'.pmm frames)
    (handled : Handled (s'.written device) handledState replies frames) :
    SendsApart s handledState s.nextSent replies := by
  have first : Published s (s'.written device) [s.nextSent] :=
    (sends.published can.counters).congr rfl rfl rfl rfl rfl
  have published := first.append can.counters handled.published (by
    rw [List.length_singleton, Nat.add_comm]
    exact room)
  have isPmm : handledState.pmm = freeAll frames (allocFrames replies.length s'.pmm) := handled.pmm
  rw [sends.pmm] at held isPmm
  have allocated := can.consistent.pmmAllocFrame
  have freed := freeAll_freed (consistent_allocFrames allocated replies.length)
    (held.allocFrames allocated replies.length)
  apply SendsApart.of_published can.counters published (List.Perm.refl _)
  · rw [List.length_append, List.length_singleton, Nat.add_comm]
    exact room
  · rcases Vmm.pmmAllocFrame_stack s.pmm with ⟨popStack, popTop, -⟩
    have frame := handled.pops.frame
    change ∀ i sent, replies[i]? = some sent →
      sent.frame = indexToPhys (s'.pmm.frameStack (s'.pmm.stackTop - 1 - i)) at frame
    rw [sends.pmm] at frame
    exact frames_nodup_own can popStack popTop enough rfl frame
  · rw [isPmm]
    exact freed.consistent

/-- A handler without replies leaves the rings alone. -/
theorem Published.sameRings (counters : TxCounters exponent s) (published : Published s s' []) :
    SameRings s s' where
  size := published.size
  availIdx := by
    rw [published.availIdx, List.length_nil, Nat.add_zero, u16_of_lt counters.availIdx]
  desc := by
    funext d
    exact published.otherDesc d (by simp)
  availRing := by
    funext slot
    exact published.otherSlot slot (by simp)
  txDescIdx := by
    rw [published.txDescIdx, List.length_nil, Nat.add_zero, u16_of_lt counters.txDescIdx]

/-- While the call writes its descriptor, an interrupt does no harm exactly when
the handler sends nothing. -/
theorem writing_ok_iff (can : CanSend exponent s)
    (room : replies.length + 1 ≤ Ring.capacity (2 ^ exponent))
    (enough : replies.length + 1 ≤ s.pmm.stackTop) (writing : Writing s point s')
    {macFrame : List UInt8}
    (rest : finish macFrame (point, s') = finish macFrame (.checkStack, s))
    (held : HeldOnce s'.pmm frames)
    (handled : Handled (s'.written device) handledState replies frames) :
    InterruptOk s (finish macFrame (point, handledState)) replies ↔ replies = [] := by
  have counters : TxCounters exponent (s'.written device) :=
    ⟨writing.size.trans can.counters.size, writing.availIdx, by
      change s'.txDescIdx < 2 ^ 16
      rw [writing.txDescIdx]
      exact can.counters.txDescIdx⟩
  rcases sendSteps_head (c := (point, handledState)) macFrame 19 writing.head with
    ⟨head, pmm⟩
  constructor
  · rintro ⟨own, isDone, apart⟩
    by_contra replied
    rcases List.exists_cons_of_ne_nil replied with ⟨first, rest, rfl⟩
    have isDone : (sendSteps macFrame 19 (point, handledState)).1 = .done (some own) := isDone
    rw [isDone] at head
    have isOwn : own.desc = s.nextSent.desc := Option.some.inj head
    have isFirst := (handled.published.place 0 first rfl).1
    change first.desc = Ring.slot s'.txq.qsize (s'.txDescIdx + 0) at isFirst
    rw [writing.size, writing.txDescIdx, Nat.add_zero, ← can.counters.head_eq] at isFirst
    have descs := apart.descs
    rw [List.map_cons, List.map_cons] at descs
    apply (List.nodup_cons.mp descs).1
    rw [isOwn, isFirst]
    exact List.mem_cons_self
  · rintro rfl
    rcases finish_checkStack macFrame can.nonempty can.topSmall can.nonnull (Or.inl rfl) with
      ⟨last, isDone, sends⟩
    have same := SameRings.trans (sameRings_written s' device) (handled.published.sameRings counters)
    rcases sendSteps_sameRings macFrame 19 writing.head same with ⟨samePoint, sameLast⟩
    have uninterrupted : sendSteps macFrame 19 (point, s') = (.done (some s.nextSent), last) :=
      rest.trans isDone
    rw [uninterrupted] at samePoint sameLast
    refine ⟨s.nextSent, samePoint, ?_⟩
    have published : Published s (sendSteps macFrame 19 (point, handledState)).2 [s.nextSent] :=
      (sends.published can.counters).congr sameLast.size sameLast.availIdx sameLast.desc
        sameLast.availRing sameLast.txDescIdx
    apply SendsApart.of_published can.counters published (List.Perm.refl _) room
    · exact List.nodup_singleton _
    · have isPmm : handledState.pmm = freeAll frames s'.pmm := handled.pmm
      have allocated := can.consistent.pmmAllocFrame
      rw [← writing.pmm] at allocated
      change Consistent (sendSteps macFrame 19 (point, handledState)).2.pmm
      rw [pmm]
      change Consistent handledState.pmm
      rw [isPmm]
      exact (freeAll_freed allocated held).consistent

/-- What the handler leaves when the interrupt comes after `stack_top--`. -/
structure HandledPopped (s handledState : State) (replies : List Sent) (frames : List Nat) :
    Prop where
  freed : Freed (allocFrames replies.length (pmmAllocFrame s.pmm).2)
    (Net.setCount (s.pmm.frameStack (s.pmm.stackTop - 1)) 1 (Net.countUsed handledState.pmm)) frames
  top : handledState.pmm.stackTop = s.pmm.stackTop - 1 - replies.length + frames.length
  read : handledState.pmm.frameStack handledState.pmm.stackTop =
    s.pmm.frameStack (s.pmm.stackTop - 1 - replies.length + frames.length)
  uncounted : handledState.pmm.refCounts (s.pmm.frameStack (s.pmm.stackTop - 1)) = 0
  total : handledState.pmm.totalFrames = s.pmm.totalFrames

theorem handledPopped (can : CanSend exponent s) (held : HeldOnce s.popped.pmm frames)
    (handled : Handled (s.popped.written device) handledState replies frames) :
    HandledPopped s handledState replies frames := by
  have claimed := can.claimed_countUsed
  have isPmm : handledState.pmm = freeAll frames (allocFrames replies.length s.popped.pmm) :=
    handled.pmm
  have isFree := claimed.fresh _ rfl
  have heldUsed : HeldOnce (Net.countUsed s.popped.pmm) frames := ⟨held.distinct, held.held⟩
  have allocated := can.consistent.pmmAllocFrame
  have isCounted : Net.setCount (s.pmm.frameStack (s.pmm.stackTop - 1)) 1
      (Net.countUsed s.popped.pmm) = (pmmAllocFrame s.pmm).2 := claimed.pmm
  rw [← isCounted] at allocated
  have counts := fun value => handler_setCount allocated heldUsed isFree value replies.length
  have sameUsed : freeAll frames (allocFrames replies.length (Net.countUsed s.popped.pmm)) =
      Net.countUsed handledState.pmm := by
    rw [allocFrames_countUsed, freeAll_countUsed, isPmm]
  have freed := freeAll_freed (consistent_allocFrames allocated replies.length)
    ((counts 1).1.allocFrames allocated replies.length)
  rw [← (counts 1).2, sameUsed, isCounted] at freed
  rcases Vmm.allocFrames_stack replies.length (pmmAllocFrame s.pmm).2 with ⟨stack, lowered⟩
  rcases Vmm.pmmAllocFrame_stack s.pmm with ⟨popStack, popTop, -⟩
  have top : handledState.pmm.stackTop = s.pmm.stackTop - 1 - replies.length + frames.length := by
    rw [← popTop, ← lowered]
    exact freed.top
  refine ⟨freed, top, ?_, ?_, ?_⟩
  · have above := freed.above handledState.pmm.stackTop (Nat.le_refl _)
    rw [stack, popStack] at above
    rw [← top]
    exact above
  · have unset : Net.setCount (s.pmm.frameStack (s.pmm.stackTop - 1)) 0
        (Net.countUsed s.popped.pmm) = Net.countUsed s.popped.pmm := setCount_of_eq isFree
    have zero := (counts 0).2
    rw [unset, sameUsed] at zero
    have count := congrFun (congrArg Pmm.State.refCounts zero)
      (s.pmm.frameStack (s.pmm.stackTop - 1))
    exact count.symm.trans (Function.update_self _ _ _)
  · have total := freed.total
    rw [totalFrames_allocFrames, totalFrames_pmmAllocFrame] at total
    exact total

/-- Between `stack_top--` and the read of the stack, an interrupt does no harm
exactly when the slot that is read then holds the same frame. -/
theorem popped_ok_iff (can : CanSend exponent s)
    (room : replies.length + 1 ≤ Ring.capacity (2 ^ exponent))
    (enough : replies.length + 1 ≤ s.pmm.stackTop) (held : HeldOnce s.popped.pmm frames)
    (handled : Handled (s.popped.written device) handledState replies frames)
    (macFrame : List UInt8) :
    InterruptOk s (finish macFrame (.readStack, handledState)) replies ↔
      s.popped.pmm.frameStack (s.popped.pmm.stackTop - replies.length + frames.length) =
        s.popped.pmm.frameStack s.popped.pmm.stackTop := by
  have reads : finish macFrame (.readStack, handledState) =
      finish macFrame (.countUsed (handledState.pmm.frameStack handledState.pmm.stackTop),
        handledState) := (finish_step macFrame (.readStack, handledState)).symm
  have popped := handledPopped can held handled
  change _ ↔ s.pmm.frameStack (s.pmm.stackTop - 1 - replies.length + frames.length) =
    s.pmm.frameStack (s.pmm.stackTop - 1)
  rw [reads, ← popped.read]
  constructor
  · rintro ⟨own, isDone, apart⟩
    by_contra differs
    by_cases isNull : indexToPhys (handledState.pmm.frameStack handledState.pmm.stackTop) = 0
    · rw [finish_null macFrame handledState isNull] at isDone
      cases isDone
    · rcases finish_claims macFrame handledState
        (show (SendPoint.countUsed _).claims = _ from rfl) isNull with ⟨last, isLast, sends⟩
      have consistent := apart.stack
      rw [isLast, sends.pmm] at consistent
      have isTop : s.pmm.stackTop = s.pmm.stackTop - 1 + 1 := by omega
      have inRam := (can.consistent.top_free isTop).1
      rw [← popped.total] at inRam
      have lost := (consistent.free_iff (s.pmm.frameStack (s.pmm.stackTop - 1))).mpr
        ⟨inRam, (Function.update_of_ne (Ne.symm differs) _ _).trans popped.uncounted⟩
      have counted := ((popped.freed.consistent.free_iff _).mp lost).2
      rw [show (Net.setCount (s.pmm.frameStack (s.pmm.stackTop - 1)) 1
        (Net.countUsed handledState.pmm)).refCounts (s.pmm.frameStack (s.pmm.stackTop - 1)) = 1 from
          Function.update_self _ _ _] at counted
      cases counted
  · intro same
    rw [same]
    exact claimed_ok can room enough can.claimed_countUsed held handled macFrame

end Cases

/-! ### Every point -/

section Every

variable {exponent status : Nat} {s s' : State} {point : SendPoint} {macFrame : List UInt8}
  {replies : List Sent} {elements : List UsedElem} {frames : List Nat}

/-- A call that has returned has sent its packet. -/
theorem CanSend.finished {sent : Option Sent} (can : CanSend exponent s)
    (rest : finish macFrame (.done sent, s') = finish macFrame (.checkStack, s)) :
    sent = some s.nextSent ∧
      Sends macFrame s s' s.nextSent.frame (pmmAllocFrame s.pmm).2 := by
  rcases finish_checkStack macFrame can.nonempty can.topSmall can.nonnull (Or.inl rfl) with
    ⟨last, isDone, sends⟩
  have same : (SendPoint.done sent, s') = (.done (some s.nextSent), last) :=
    (sendSteps_done 19 sent s').symm.trans (rest.trans isDone)
  rw [(Prod.mk.inj same).2]
  exact ⟨SendPoint.done.inj (Prod.mk.inj same).1, sends⟩

theorem At.entriesSmall (can : CanSend exponent s) (at_ : At macFrame s point s')
    (rest : finish macFrame (point, s') = finish macFrame (.checkStack, s)) :
    EntriesSmall s'.pmm ∧ TxCounters exponent s' := by
  have small : EntriesSmall s.pmm := fun _ inStack => can.consistent.frame_lt inStack
  rcases Vmm.pmmAllocFrame_stack s.pmm with ⟨popStack, popTop, -⟩
  have smallPopped : ∀ pmm : Pmm.State, pmm.frameStack = s.pmm.frameStack →
      pmm.stackTop = s.pmm.stackTop - 1 → EntriesSmall pmm := by
    intro pmm stack top position below
    rw [stack]
    exact small position (by omega)
  cases at_ with
  | early isEarly => exact ⟨small, can.counters⟩
  | popped =>
      exact ⟨smallPopped _ rfl rfl, can.counters.sameRings ⟨rfl, rfl, rfl, rfl, rfl⟩⟩
  | claimed claimed =>
      rcases SendPoint.bookkeeping_stack point s'.pmm with ⟨stack, top, -⟩
      rw [claimed.pmm] at stack top
      refine ⟨smallPopped _ (stack.symm.trans popStack) (top.symm.trans popTop), ?_⟩
      exact can.counters.sameRings ⟨congrArg Virtq.qsize claimed.txq,
        congrArg Virtq.availIdx claimed.txq, congrArg Virtq.desc claimed.txq,
        congrArg Virtq.availRing claimed.txq, claimed.txDescIdx⟩
  | writing writing =>
      rw [writing.pmm]
      refine ⟨smallPopped _ popStack popTop, writing.size.trans can.counters.size, writing.availIdx, ?_⟩
      rw [writing.txDescIdx]
      exact can.counters.txDescIdx
  | finished =>
      rcases can.finished rest with ⟨-, sends⟩
      rw [sends.pmm]
      exact ⟨smallPopped _ popStack popTop, can.counters.published (sends.published can.counters)⟩

theorem harmless_of_head {pmm : Pmm.State} {head replied freed : Nat}
    (isHead : point.head? = some head) (running : 0 < point.rank) :
    Harmless pmm replied freed point ↔ replied = 0 := by
  cases point with
  | done sent => exact absurd running (Nat.lt_irrefl 0)
  | _ => first | exact Iff.rfl | cases isHead

theorem harmless_of_claims {pmm : Pmm.State} {phys replied freed : Nat}
    (claims : point.claims = some phys) : Harmless pmm replied freed point := by
  cases point with
  | readStack => cases claims
  | _ => first | exact trivial | cases claims

/-- The handler's replies, whatever it receives. -/
theorem exists_replies (can : CanSend exponent s) (macFrame : List UInt8) (count : Nat)
    (device : DeviceWrites) :
    ∃ replies, Sending (interruptedAt macFrame count device s).2 replies
      (netPollRx.run (interruptedAt macFrame count device s).2).2 := by
  have small := ((at_sendSteps can macFrame count).entriesSmall can
    (finish_sendSteps macFrame count (.checkStack, s))).1
  exact netPollRx_sending small

/-- For every point of `net_send`, every state of the rings and every number of
pending packets and returned frames: with enough frames and descriptors, and with
the descriptors and the rings apart in memory, as they are up to 1024 entries, an
interrupt leaves the packets apart and the frame stack in order exactly when it
is harmless. -/
theorem interrupted_send_ok_iff (can : CanSend exponent s) (macFrame : List UInt8) (count : Nat)
    (device : DeviceWrites) (bit : status &&& 1 ≠ 0)
    (sending : Sending (interruptedAt macFrame count device s).2 replies
      (netPollRx.run (interruptedAt macFrame count device s).2).2)
    (returned : Returned (interruptedAt macFrame count device s).2 replies.length elements frames)
    (enough : replies.length + 1 ≤ s.pmm.stackTop)
    (room : replies.length + 1 ≤ Ring.capacity (2 ^ exponent)) :
    InterruptOk s (interrupted macFrame count device status s) replies ↔
      Harmless (interruptedAt macFrame count device s).2.pmm replies.length frames.length
        (interruptedAt macFrame count device s).1 := by
  have isAt := at_sendSteps can macFrame count
  have rest := finish_sendSteps macFrame count (.checkStack, s)
  unfold interrupted
  unfold interruptedAt at sending returned ⊢
  generalize sendSteps macFrame count (.checkStack, s) = c at isAt rest sending returned ⊢
  rcases c with ⟨point, middle⟩
  dsimp only at isAt sending returned ⊢
  have counters := (isAt.entriesSmall can rest).2.sameRings (sameRings_written middle device)
  have handled := handler_handled bit counters returned (by omega) sending
  have held : HeldOnce middle.pmm frames := returned.held
  cases isAt with
  | early isEarly =>
      have ok := early_ok can room enough held handled isEarly macFrame
      rcases isEarly with rfl | rfl
      · exact iff_of_true ok trivial
      · exact iff_of_true ok trivial
  | popped => exact popped_ok_iff can room enough held handled macFrame
  | claimed claimed =>
      exact iff_of_true (claimed_ok can room enough claimed held handled macFrame)
        (harmless_of_claims claimed.claims)
  | writing writing =>
      rw [writing_ok_iff can room enough writing rest held handled,
        harmless_of_head writing.head writing.running, List.length_eq_zero_iff]
  | @finished sent _ =>
      rcases can.finished rest with ⟨isSent, sends⟩
      have returnedAlready : ∀ last : State, finish macFrame (.done sent, last) = (.done sent, last) :=
        sendSteps_done 19 sent
      rw [returnedAlready]
      exact iff_of_true ⟨s.nextSent, congrArg SendPoint.done isSent,
        finished_ok can room enough sends held handled⟩ trivial

end Every

/-! ### One ARP request -/

/-- An ARP request for the kernel's address. -/
def arpRequest : List UInt8 :=
  ethernetFrame [0xff, 0xff, 0xff, 0xff, 0xff, 0xff] [2, 0, 0, 0, 0, 1] (ntohs 0x0806)
    (arpPacket 1 [2, 0, 0, 0, 0, 1] [10, 0, 2, 2] [0, 0, 0, 0, 0, 0] myIp)

/-- Eight pages of RAM and queues of four; the receive buffer is a page of its own. -/
def idle : State :=
  let fresh := rxBoot (Pmm.pmmInit 0x40001000 0x8000 Pmm.State.zero) (2 ^ 2)
  { fresh with rxq := { fresh.rxq with desc := fun _ => ⟨0x50000000, 4096, descFlagWrite, 0⟩ } }

/-- The device has received the request and returned nothing. -/
def requestArrives : DeviceWrites where
  mem := Memory.storeBytes (fun _ => 0) (0x50000000 + virtioHdrSize) arpRequest
  rxUsedRing := fun _ => ⟨0, virtioHdrSize + arpRequest.length⟩
  rxUsedIdx := 1
  txUsedRing := fun _ => ⟨0, 0⟩
  txUsedIdx := 0

theorem idle_canSend : CanSend 2 idle :=
  ⟨⟨rfl, by decide, by decide⟩, Pmm.pmmInit_consistent (by constructor <;> decide), by decide⟩

/-- The handler answers the request once. -/
theorem length_of_notified {s : State} {replies : List Sent}
    (sending : Sending s replies (netPollRx.run s).2) (silent : s.notified.count 1 = 0)
    (notified : (netPollRx.run s).2.notified.count 1 = 1) : replies.length = 1 := by
  have counted := sending.count_notified
  omega

theorem returned_nothing (macFrame : List UInt8) (count : Nat)
    (nothing : (interruptedAt macFrame count requestArrives idle).2.txq.lastUsedIdx = 0)
    (replies : Nat) :
    Returned (interruptedAt macFrame count requestArrives idle).2 replies [] [] where
  used := by
    rw [nothing]
    exact Ring.Holds.nil _ _ (by decide)
  short := by decide
  addrs := rfl
  held := ⟨List.nodup_nil, by simp⟩
  apart := by simp

/-- The request arrives just before the call chooses its descriptor. -/
theorem interrupted_send_ok_one_request : ∃ replies, replies.length = 1 ∧
    Harmless (interruptedAt [1] 9 requestArrives idle).2.pmm 1 0
      (interruptedAt [1] 9 requestArrives idle).1 ∧
    InterruptOk idle (interrupted [1] 9 requestArrives 1 idle) replies := by
  rcases exists_replies idle_canSend [1] 9 requestArrives with ⟨replies, sending⟩
  have one := length_of_notified sending (by decide +kernel) (by decide +kernel)
  have harmless : Harmless (interruptedAt [1] 9 requestArrives idle).2.pmm 1 0
      (interruptedAt [1] 9 requestArrives idle).1 := trivial
  have ok := interrupted_send_ok_iff idle_canSend [1] 9 requestArrives (show 1 &&& 1 ≠ 0 by decide)
    sending (returned_nothing [1] 9 (by decide) replies.length) (by rw [one]; decide)
    (by rw [one]; decide)
  refine ⟨replies, one, harmless, ok.mpr ?_⟩
  rw [one]
  exact harmless

/-- The request arrives just after the call has chosen its descriptor: the reply
takes the same one. -/
theorem exists_descriptor_shared : ∃ replies,
    Sending (interruptedAt [1] 10 requestArrives idle).2 replies
      (netPollRx.run (interruptedAt [1] 10 requestArrives idle).2).2 ∧
    Returned (interruptedAt [1] 10 requestArrives idle).2 replies.length [] [] ∧
    replies.length + 1 ≤ idle.pmm.stackTop ∧ replies.length + 1 ≤ Ring.capacity (2 ^ 2) ∧
    ¬ InterruptOk idle (interrupted [1] 10 requestArrives 1 idle) replies := by
  rcases exists_replies idle_canSend [1] 10 requestArrives with ⟨replies, sending⟩
  have one := length_of_notified sending (by decide +kernel) (by decide +kernel)
  have returned := returned_nothing [1] 10 (by decide) replies.length
  have enough : replies.length + 1 ≤ idle.pmm.stackTop := by
    rw [one]
    decide
  have room : replies.length + 1 ≤ Ring.capacity (2 ^ 2) := by
    rw [one]
    decide
  refine ⟨replies, sending, returned, enough, room, ?_⟩
  have rest := finish_sendSteps [1] 10 (.checkStack, idle)
  have isAt := at_sendSteps idle_canSend [1] 10
  have writing := isAt.writing_of_head (h := 0) (by decide) (by decide)
  have counters := (isAt.entriesSmall idle_canSend rest).2.sameRings
    (sameRings_written _ requestArrives)
  have handled := handler_handled (show 1 &&& 1 ≠ 0 by decide) counters returned (by omega) sending
  intro ok
  have none := (writing_ok_iff idle_canSend room enough writing rest returned.held handled).mp ok
  rw [none] at one
  cases one

end UniKernel.Net
