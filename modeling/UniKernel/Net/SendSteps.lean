import UniKernel.Net.FrameBatch
import UniKernel.Net.Published

/-!
Owns `net_send` statement by statement, with the statements of the
`pmm_alloc_frame` it calls. Run without a break the statements do what `netSend`
does; what is proved here is what they do from each point on.
-/

namespace UniKernel.Net

open UniKernel.Lib
open UniKernel.Pmm (indexToPhys pmmAllocFrame)

/-- The next statement, with the local variables that are set. -/
inductive SendPoint where
  /-- `if (stack_top == 0)` -/
  | checkStack
  /-- `stack_top--;` -/
  | decrementTop
  /-- `u32 idx = frame_stack[stack_top];` -/
  | readStack
  /-- `used_frames++;` -/
  | countUsed (idx : Nat)
  /-- `ref_counts[idx] = 1;` -/
  | setRefCount (idx : Nat)
  /-- `return index_to_phys(idx);` -/
  | returnFrame (idx : Nat)
  /-- `if (!phys)` -/
  | checkFrame (phys : Nat)
  /-- `memset((void*)phys, 0, sizeof(virtio_net_hdr));` -/
  | clearHeader (phys : Nat)
  /-- `memcpy((void*)dst, mac_frame, len);` -/
  | copyFrame (phys : Nat)
  /-- `uint16_t head = tx_desc_idx % txq.qsize;` -/
  | readHead (phys : Nat)
  /-- `txq.desc[head].addr = phys;` -/
  | setAddr (phys head : Nat)
  /-- `txq.desc[head].len = sizeof(virtio_net_hdr) + len;` -/
  | setLen (phys head : Nat)
  /-- `txq.desc[head].flags = 0;` -/
  | setFlags (phys head : Nat)
  /-- `txq.desc[head].next = 0;` -/
  | setNext (phys head : Nat)
  /-- `uint16_t avail = txq.avail->idx;` -/
  | readAvail (phys head : Nat)
  /-- `txq.avail->ring[avail % txq.qsize] = head;` -/
  | setRing (phys head avail : Nat)
  /-- `txq.avail->idx = avail + 1;` -/
  | setIdx (phys head avail : Nat)
  /-- `write32(VIRTIO_REG_QUEUE_NOTIFY, 1);` -/
  | notify (phys head avail : Nat)
  /-- `tx_desc_idx++;` -/
  | incrementHead (phys head avail : Nat)
  /-- The call has returned; what it used, if it had a frame. -/
  | done (sent : Option Sent)
deriving DecidableEq

/-- `txq.desc[head]` changes. -/
def State.setDesc (s : State) (head : Nat) (change : Desc → Desc) : State :=
  { s with txq := { s.txq with
    desc := Function.update s.txq.desc head (change (s.txq.desc head)) } }

namespace SendPoint

/-- One statement. -/
def step (macFrame : List UInt8) (s : State) : SendPoint → SendPoint × State
  | checkStack => if s.pmm.stackTop = 0 then (done none, s) else (decrementTop, s)
  | decrementTop =>
      (readStack, { s with pmm := { s.pmm with stackTop := pred32 s.pmm.stackTop } })
  | readStack => (countUsed (s.pmm.frameStack s.pmm.stackTop), s)
  | countUsed idx => (setRefCount idx, { s with pmm := Net.countUsed s.pmm })
  | setRefCount idx => (returnFrame idx, { s with pmm := Net.setCount idx 1 s.pmm })
  | returnFrame idx => (checkFrame (indexToPhys idx), s)
  | checkFrame phys => if phys = 0 then (done none, s) else (clearHeader phys, s)
  | clearHeader phys =>
      (copyFrame phys, { s with mem := CString.memset phys 0 virtioHdrSize s.mem })
  | copyFrame phys =>
      (readHead phys, { s with mem := s.mem.storeBytes (phys + virtioHdrSize) macFrame })
  | readHead phys => (setAddr phys (u16 (s.txDescIdx % s.txq.qsize)), s)
  | setAddr phys head => (setLen phys head, s.setDesc head fun desc => { desc with addr := phys })
  | setLen phys head =>
      (setFlags phys head,
        s.setDesc head fun desc => { desc with len := u32 (virtioHdrSize + macFrame.length) })
  | setFlags phys head => (setNext phys head, s.setDesc head fun desc => { desc with flags := 0 })
  | setNext phys head => (readAvail phys head, s.setDesc head fun desc => { desc with next := 0 })
  | readAvail phys head => (setRing phys head s.txq.availIdx, s)
  | setRing phys head avail =>
      (setIdx phys head avail, { s with txq := { s.txq with
        availRing := Function.update s.txq.availRing (avail % s.txq.qsize) head } })
  | setIdx phys head avail =>
      (notify phys head avail, { s with txq := { s.txq with availIdx := u16 (avail + 1) } })
  | notify phys head avail =>
      (incrementHead phys head avail, { s with notified := s.notified ++ [1] })
  | incrementHead phys head avail =>
      (done (some ⟨head, avail % s.txq.qsize, phys⟩), { s with txDescIdx := u16 (s.txDescIdx + 1) })
  | done sent => (done sent, s)

/-- How many statements are left at most. -/
def rank : SendPoint → Nat
  | checkStack => 19
  | decrementTop => 18
  | readStack => 17
  | countUsed _ => 16
  | setRefCount _ => 15
  | returnFrame _ => 14
  | checkFrame _ => 13
  | clearHeader _ => 12
  | copyFrame _ => 11
  | readHead _ => 10
  | setAddr _ _ => 9
  | setLen _ _ => 8
  | setFlags _ _ => 7
  | setNext _ _ => 6
  | readAvail _ _ => 5
  | setRing _ _ _ => 4
  | setIdx _ _ _ => 3
  | notify _ _ _ => 2
  | incrementHead _ _ _ => 1
  | done _ => 0

end SendPoint

/-- `count` statements in a row. -/
def sendSteps (macFrame : List UInt8) : Nat → SendPoint × State → SendPoint × State
  | 0, c => c
  | count + 1, c => sendSteps macFrame count (c.1.step macFrame c.2)

/-- The rest of the call. -/
def finish (macFrame : List UInt8) (c : SendPoint × State) : SendPoint × State :=
  sendSteps macFrame 19 c

section Steps

variable {macFrame : List UInt8} {point : SendPoint} {s s' : State} {c : SendPoint × State}

theorem SendPoint.rank_step (macFrame : List UInt8) (s : State) (point : SendPoint) :
    (point.step macFrame s).1.rank ≤ point.rank - 1 := by
  cases point with
  | checkStack => by_cases empty : s.pmm.stackTop = 0 <;> simp [step, rank, empty]
  | checkFrame phys => by_cases isNull : phys = 0 <;> simp [step, rank, isNull]
  | _ => exact Nat.le_refl _

theorem SendPoint.rank_le (point : SendPoint) : point.rank ≤ 19 := by
  cases point <;> simp [rank]

theorem rank_sendSteps (macFrame : List UInt8) (count : Nat) (c : SendPoint × State) :
    (sendSteps macFrame count c).1.rank ≤ c.1.rank - count := by
  induction count generalizing c with
  | zero => exact Nat.le_refl _
  | succ count inductionHypothesis =>
      have once := SendPoint.rank_step macFrame c.2 c.1
      have later := inductionHypothesis (c.1.step macFrame c.2)
      rw [sendSteps]
      omega

theorem sendSteps_succ (count : Nat) (c : SendPoint × State) :
    sendSteps macFrame (count + 1) c =
      (sendSteps macFrame count c).1.step macFrame (sendSteps macFrame count c).2 := by
  induction count generalizing c with
  | zero => rfl
  | succ count inductionHypothesis =>
      rw [sendSteps, inductionHypothesis]
      rfl

theorem SendPoint.eq_done (last : point.rank = 0) : ∃ sent, point = done sent := by
  cases point with
  | done sent => exact ⟨sent, rfl⟩
  | _ => cases last

/-- The call returns. -/
theorem finish_done (macFrame : List UInt8) (c : SendPoint × State) :
    ∃ sent, (finish macFrame c).1 = .done sent := by
  have bound := c.1.rank_le
  have left := rank_sendSteps macFrame 19 c
  exact SendPoint.eq_done (show (sendSteps macFrame 19 c).1.rank = 0 by omega)

/-- The rest of the call is the next statement and the rest after it. -/
theorem finish_step (macFrame : List UInt8) (c : SendPoint × State) :
    finish macFrame (c.1.step macFrame c.2) = finish macFrame c := by
  rcases finish_done macFrame c with ⟨sent, isDone⟩
  have more : finish macFrame (c.1.step macFrame c.2) =
      (finish macFrame c).1.step macFrame (finish macFrame c).2 := sendSteps_succ 19 c
  rw [more, isDone]
  change (SendPoint.done sent, (finish macFrame c).2) = finish macFrame c
  rw [← isDone]

theorem finish_sendSteps (macFrame : List UInt8) (count : Nat) (c : SendPoint × State) :
    finish macFrame (sendSteps macFrame count c) = finish macFrame c := by
  induction count generalizing c with
  | zero => rfl
  | succ count inductionHypothesis => rw [sendSteps, inductionHypothesis, finish_step]

theorem sendSteps_done (count : Nat) (sent : Option Sent) (s : State) :
    sendSteps macFrame count (.done sent, s) = (.done sent, s) := by
  induction count with
  | zero => rfl
  | succ count inductionHypothesis =>
      rw [sendSteps]
      exact inductionHypothesis

/-- A call that returns after `count` more statements. -/
theorem finish_of_sendSteps {count : Nat} {sent : Option Sent}
    (returns : sendSteps macFrame count c = (.done sent, s')) :
    finish macFrame c = (.done sent, s') := by
  rw [← finish_sendSteps macFrame count c, returns]
  exact sendSteps_done 19 sent s'

/-! ### With a frame in hand -/

namespace SendPoint

/-- The frame that the call has read from the stack but not yet put to use. -/
def claims : SendPoint → Option Nat
  | countUsed idx | setRefCount idx | returnFrame idx => some (indexToPhys idx)
  | checkFrame phys | clearHeader phys | copyFrame phys | readHead phys => some phys
  | _ => none

/-- The index whose count is not set yet. -/
def uncounted : SendPoint → Option Nat
  | countUsed idx | setRefCount idx => some idx
  | _ => none

/-- What the call still does to the frame allocator. -/
def bookkeeping (pmm : Pmm.State) : SendPoint → Pmm.State
  | countUsed idx => Net.setCount idx 1 (Net.countUsed pmm)
  | setRefCount idx => Net.setCount idx 1 pmm
  | _ => pmm

/-- The descriptor that the call writes or has written. -/
def head? : SendPoint → Option Nat
  | setAddr _ head | setLen _ head | setFlags _ head | setNext _ head | readAvail _ head => some head
  | setRing _ head _ | setIdx _ head _ | notify _ head _ | incrementHead _ head _ => some head
  | done sent => sent.map Sent.desc
  | _ => none

end SendPoint

/-- The rings and the counters are the same. -/
structure SameRings (s s' : State) : Prop where
  size : s'.txq.qsize = s.txq.qsize
  availIdx : s'.txq.availIdx = s.txq.availIdx
  desc : s'.txq.desc = s.txq.desc
  availRing : s'.txq.availRing = s.txq.availRing
  txDescIdx : s'.txDescIdx = s.txDescIdx

/-- The state after the statements from `readHead` on. -/
def State.queued (s : State) (phys len : Nat) : State :=
  { s with
    txq := { s.txq with
      desc := Function.update s.txq.desc (u16 (s.txDescIdx % s.txq.qsize)) ⟨phys, len, 0, 0⟩
      availRing := Function.update s.txq.availRing (s.txq.availIdx % s.txq.qsize)
        (u16 (s.txDescIdx % s.txq.qsize))
      availIdx := u16 (s.txq.availIdx + 1) }
    notified := s.notified ++ [1]
    txDescIdx := u16 (s.txDescIdx + 1) }

/-- A packet in frame `phys` is in the queue, and the frame allocator is `pmm`. -/
structure Sends (macFrame : List UInt8) (s s' : State) (phys : Nat) (pmm : Pmm.State) : Prop where
  txq : s'.txq =
    { s.txq with
      desc := Function.update s.txq.desc (u16 (s.txDescIdx % s.txq.qsize))
        ⟨phys, u32 (virtioHdrSize + macFrame.length), 0, 0⟩
      availRing := Function.update s.txq.availRing (s.txq.availIdx % s.txq.qsize)
        (u16 (s.txDescIdx % s.txq.qsize))
      availIdx := u16 (s.txq.availIdx + 1) }
  txDescIdx : s'.txDescIdx = u16 (s.txDescIdx + 1)
  pmm : s'.pmm = pmm

theorem finish_readHead (macFrame : List UInt8) (phys : Nat) (s : State) :
    ∃ s', finish macFrame (.readHead phys, s) =
        (.done (some ⟨u16 (s.txDescIdx % s.txq.qsize), s.txq.availIdx % s.txq.qsize, phys⟩), s') ∧
      Sends macFrame s s' phys s.pmm := by
  have returns : sendSteps macFrame 10 (.readHead phys, s) =
      (.done (some ⟨u16 (s.txDescIdx % s.txq.qsize), s.txq.availIdx % s.txq.qsize, phys⟩),
        s.queued phys (u32 (virtioHdrSize + macFrame.length))) := by
    simp only [sendSteps, SendPoint.step, State.setDesc, Function.update_self,
      Function.update_idem, State.queued]
  exact ⟨_, finish_of_sendSteps returns, rfl, rfl, rfl⟩

/-- A statement of the call that has its frame but has not chosen a descriptor. -/
theorem SendPoint.claims_step {phys : Nat} (macFrame : List UInt8) (s : State)
    (claims : point.claims = some phys) (nonnull : phys ≠ 0) (more : point ≠ .readHead phys) :
    (point.step macFrame s).1.claims = some phys ∧
      (point.step macFrame s).2.txq = s.txq ∧ (point.step macFrame s).2.txDescIdx = s.txDescIdx ∧
      (point.step macFrame s).1.bookkeeping (point.step macFrame s).2.pmm =
        point.bookkeeping s.pmm := by
  cases point with
  | countUsed idx => exact ⟨claims, rfl, rfl, rfl⟩
  | setRefCount idx => exact ⟨claims, rfl, rfl, rfl⟩
  | returnFrame idx => exact ⟨claims, rfl, rfl, rfl⟩
  | checkFrame other =>
      have isPhys : other = phys := Option.some.inj claims
      subst isPhys
      have goesOn : (SendPoint.checkFrame other).step macFrame s = (.clearHeader other, s) :=
        if_neg nonnull
      rw [goesOn]
      exact ⟨claims, rfl, rfl, rfl⟩
  | clearHeader other => exact ⟨claims, rfl, rfl, rfl⟩
  | copyFrame other => exact ⟨claims, rfl, rfl, rfl⟩
  | readHead other => exact absurd (congrArg SendPoint.readHead (Option.some.inj claims)) more
  | _ => cases claims

theorem SendPoint.rank_pos_of_claims {phys : Nat} (point : SendPoint)
    (claims : point.claims = some phys) : 0 < point.rank := by
  cases point with
  | done sent => cases claims
  | _ => exact Nat.succ_pos _

/-- The rest of a call that has its frame. -/
theorem finish_claims {phys : Nat} (macFrame : List UInt8) (s : State)
    (claims : point.claims = some phys) (nonnull : phys ≠ 0) :
    ∃ s', finish macFrame (point, s) =
        (.done (some ⟨u16 (s.txDescIdx % s.txq.qsize), s.txq.availIdx % s.txq.qsize, phys⟩), s') ∧
      Sends macFrame s s' phys (point.bookkeeping s.pmm) := by
  induction isRank : point.rank using Nat.strong_induction_on generalizing point s with
  | _ rank inductionHypothesis =>
      by_cases last : point = .readHead phys
      · subst last
        exact finish_readHead macFrame phys s
      · rcases SendPoint.claims_step macFrame s claims nonnull last with
          ⟨claimsNext, txq, txDescIdx, bookkeeping⟩
        have fewer : (point.step macFrame s).1.rank < rank := by
          have bound := SendPoint.rank_step macFrame s point
          have positive := point.rank_pos_of_claims claims
          omega
        rcases inductionHypothesis _ fewer _ claimsNext rfl with ⟨s', isDone, sends⟩
        rw [txq, txDescIdx] at isDone
        refine ⟨s', ?_, ?_, ?_, ?_⟩
        · rw [← isDone]
          exact (finish_step macFrame (point, s)).symm
        · rw [sends.txq, txq, txDescIdx]
        · rw [sends.txDescIdx, txDescIdx]
        · rw [sends.pmm, bookkeeping]

/-- An index that denotes address 0 counts as no frame. -/
theorem finish_null {idx : Nat} (macFrame : List UInt8) (s : State)
    (isNull : indexToPhys idx = 0) :
    finish macFrame (.countUsed idx, s) =
      (.done none, { s with pmm := Net.setCount idx 1 (Net.countUsed s.pmm) }) := by
  have returns : sendSteps macFrame 4 (.countUsed idx, s) =
      (.done none, { s with pmm := Net.setCount idx 1 (Net.countUsed s.pmm) }) := by
    simp only [sendSteps, SendPoint.step, if_pos isNull]
  exact finish_of_sendSteps returns

/-- The whole call on a stack that is not empty. -/
theorem finish_checkStack (macFrame : List UInt8) {s : State} (nonempty : s.pmm.stackTop ≠ 0)
    (small : s.pmm.stackTop < 2 ^ 32) (nonnull : (pmmAllocFrame s.pmm).1 ≠ 0)
    (early : point = .checkStack ∨ point = .decrementTop) :
    ∃ s', finish macFrame (point, s) = (.done (some s.nextSent), s') ∧
      Sends macFrame s s' s.nextSent.frame (pmmAllocFrame s.pmm).2 := by
  rcases Nat.exists_eq_succ_of_ne_zero nonempty with ⟨top, isTop⟩
  have pops := Pmm.pmmAllocFrame_of_nonempty isTop
  rw [pops] at nonnull
  have lowered : pred32 s.pmm.stackTop = top := by
    rw [pred32_of_pos (by omega) small, isTop]
    rfl
  have fromTop : finish macFrame (.decrementTop, s) =
      finish macFrame (.countUsed (s.pmm.frameStack top),
        { s with pmm := { s.pmm with stackTop := top } }) := by
    rw [← finish_sendSteps macFrame 2 (.decrementTop, s)]
    simp only [sendSteps, SendPoint.step, lowered]
  have fromStart : finish macFrame (point, s) = finish macFrame (.decrementTop, s) := by
    rcases early with isCheck | isDecrement
    · rw [isCheck, ← finish_step macFrame (.checkStack, s)]
      simp only [SendPoint.step, if_neg nonempty]
    · rw [isDecrement]
  rcases finish_claims macFrame { s with pmm := { s.pmm with stackTop := top } }
    (show (SendPoint.countUsed (s.pmm.frameStack top)).claims = _ from rfl) nonnull with
    ⟨s', isDone, sends⟩
  have isNext : s.nextSent.frame = indexToPhys (s.pmm.frameStack top) := congrArg Prod.fst pops
  refine ⟨s', ?_, ?_⟩
  · rw [fromStart, fromTop, isDone]
    unfold State.nextSent
    rw [pops]
  · rw [isNext, pops]
    exact ⟨sends.txq, sends.txDescIdx, sends.pmm⟩

/-- Run without a break the statements are `net_send`. -/
theorem finish_eq_netSend (macFrame : List UInt8) {s : State} (nonempty : s.pmm.stackTop ≠ 0)
    (small : s.pmm.stackTop < 2 ^ 32) (nonnull : (pmmAllocFrame s.pmm).1 ≠ 0) :
    (finish macFrame (.checkStack, s)).2 = ((netSend macFrame).run s).2 := by
  rcases Nat.exists_eq_succ_of_ne_zero nonempty with ⟨top, isTop⟩
  have pops := Pmm.pmmAllocFrame_of_nonempty isTop
  have lowered : pred32 s.pmm.stackTop = top := by
    rw [pred32_of_pos (by omega) small, isTop]
    rfl
  have isFrame : indexToPhys (s.pmm.frameStack top) ≠ 0 := by
    rw [pops] at nonnull
    exact nonnull
  have returns : sendSteps macFrame 19 (.checkStack, s) =
      (.done (some s.nextSent), ((netSend macFrame).run s).2) := by
    unfold netSend State.nextSent
    simp only [sendSteps, SendPoint.step, if_neg nonempty, lowered, if_neg isFrame, State.setDesc,
      Function.update_self, Function.update_idem, StateT.run_bind, StateT.run_get, pure_bind, pops]
    rfl
  rw [finish, returns]

/-! ### With a descriptor chosen -/

/-- A statement of the call that has chosen its descriptor. -/
theorem SendPoint.head_step {head : Nat} (macFrame : List UInt8) (s : State)
    (isHead : point.head? = some head) :
    (point.step macFrame s).1.head? = some head ∧ (point.step macFrame s).2.pmm = s.pmm := by
  cases point with
  | done sent => exact ⟨isHead, rfl⟩
  | setAddr phys other => exact ⟨isHead, rfl⟩
  | setLen phys other => exact ⟨isHead, rfl⟩
  | setFlags phys other => exact ⟨isHead, rfl⟩
  | setNext phys other => exact ⟨isHead, rfl⟩
  | readAvail phys other => exact ⟨isHead, rfl⟩
  | setRing phys other avail => exact ⟨isHead, rfl⟩
  | setIdx phys other avail => exact ⟨isHead, rfl⟩
  | notify phys other avail => exact ⟨isHead, rfl⟩
  | incrementHead phys other avail => exact ⟨isHead, rfl⟩
  | _ => cases isHead

theorem sendSteps_head {head : Nat} (macFrame : List UInt8) (count : Nat) (isHead : c.1.head? = some head) :
    (sendSteps macFrame count c).1.head? = some head ∧
      (sendSteps macFrame count c).2.pmm = c.2.pmm := by
  induction count generalizing c with
  | zero => exact ⟨isHead, rfl⟩
  | succ count inductionHypothesis =>
      rcases SendPoint.head_step macFrame c.2 isHead with ⟨next, pmm⟩
      rcases inductionHypothesis next with ⟨last, later⟩
      exact ⟨last, later.trans pmm⟩

/-- The rest of the call depends on nothing but the rings and the counters. -/
theorem SendPoint.step_sameRings {head : Nat} (macFrame : List UInt8)
    (isHead : point.head? = some head) (same : SameRings s s') :
    (point.step macFrame s').1 = (point.step macFrame s).1 ∧
      SameRings (point.step macFrame s).2 (point.step macFrame s').2 := by
  rcases same with ⟨size, availIdx, desc, availRing, txDescIdx⟩
  cases point with
  | done sent => exact ⟨rfl, size, availIdx, desc, availRing, txDescIdx⟩
  | setAddr phys other =>
      exact ⟨rfl, size, availIdx, by simp only [step, State.setDesc, desc], availRing, txDescIdx⟩
  | setLen phys other =>
      exact ⟨rfl, size, availIdx, by simp only [step, State.setDesc, desc], availRing, txDescIdx⟩
  | setFlags phys other =>
      exact ⟨rfl, size, availIdx, by simp only [step, State.setDesc, desc], availRing, txDescIdx⟩
  | setNext phys other =>
      exact ⟨rfl, size, availIdx, by simp only [step, State.setDesc, desc], availRing, txDescIdx⟩
  | readAvail phys other =>
      exact ⟨by simp only [step, availIdx], size, availIdx, desc, availRing, txDescIdx⟩
  | setRing phys other avail =>
      exact ⟨rfl, size, availIdx, desc, by simp only [step, availRing, size], txDescIdx⟩
  | setIdx phys other avail => exact ⟨rfl, size, rfl, desc, availRing, txDescIdx⟩
  | notify phys other avail => exact ⟨rfl, size, availIdx, desc, availRing, txDescIdx⟩
  | incrementHead phys other avail =>
      exact ⟨by simp only [step, size], size, availIdx, desc, availRing,
        by simp only [step, txDescIdx]⟩
  | _ => cases isHead

theorem sendSteps_sameRings {head : Nat} (macFrame : List UInt8) (count : Nat)
    (isHead : point.head? = some head) (same : SameRings s s') :
    (sendSteps macFrame count (point, s')).1 = (sendSteps macFrame count (point, s)).1 ∧
      SameRings (sendSteps macFrame count (point, s)).2 (sendSteps macFrame count (point, s')).2 := by
  induction count generalizing point s s' with
  | zero => exact ⟨rfl, same⟩
  | succ count inductionHypothesis =>
      rcases SendPoint.step_sameRings macFrame isHead same with ⟨samePoint, sameNext⟩
      have next := (SendPoint.head_step macFrame s isHead).1
      have later := inductionHypothesis next sameNext
      rw [sendSteps, sendSteps]
      dsimp only
      rw [← Prod.mk.eta (p := point.step macFrame s'), samePoint]
      exact later

end Steps

end UniKernel.Net
