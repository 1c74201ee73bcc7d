import UniKernel.Lib.Ring
import UniKernel.Lib.Transition
import UniKernel.Net.Handlers
import UniKernel.Pmm.Runs

/-!
Owns the receive queue as shared by driver and device: `net_rx_fill`, then the
statements of the loop of `net_poll_rx` interleaved with a device that takes
published buffers in order and returns them in any order.

`held` are the buffers the device has taken; `returned` and `processed` record
the elements it returned and the elements the driver read, in order.
-/

namespace UniKernel.Net

open UniKernel.Lib

/-- A queue as `virtio_init_queue` leaves it. -/
def Virtq.fresh (qsize : Nat) : Virtq where
  desc := fun _ => ⟨0, 0, 0, 0⟩
  availIdx := 0
  availRing := fun _ => 0
  usedIdx := 0
  usedRing := fun _ => ⟨0, 0⟩
  qsize := qsize
  lastUsedIdx := 0

/-- Where the driver is in the loop of `net_poll_rx`. -/
inductive RxPoint where
  | loopHead
  | fetched (elem : UsedElem)
  | handled (elem : UsedElem)
  | reposted (elem : UsedElem)
  | published

structure RxMachine where
  net : State
  point : RxPoint
  received : Bool
  deviceIdx : Nat
  held : List Nat
  returned : List UsedElem
  processed : List UsedElem

inductive RxEvent where
  | take
  | write (id : Nat)
  | give (elem : UsedElem)
  | fetch
  | handle
  | repost
  | publish
  | advance
  | finish
deriving DecidableEq

/-- `desc[id]` names the buffer `addr` lies in. -/
def InBuffer (queue : Virtq) (id addr : Nat) : Prop :=
  (queue.desc id).addr ≤ addr ∧ addr < (queue.desc id).addr + 4096

/-- One step of the device (`take`, `write`, `give`) or one statement of the
loop of `net_poll_rx`. -/
inductive RxStep : RxMachine → RxEvent → RxMachine → Prop where
  | take {m : RxMachine} (available : m.deviceIdx ≠ m.net.rxq.availIdx) :
      RxStep m .take
        { m with
          held := m.net.rxq.availRing (Ring.slot m.net.rxq.qsize m.deviceIdx) :: m.held
          deviceIdx := u16 (m.deviceIdx + 1) }
  | write {m : RxMachine} {id : Nat} {mem : Memory} (holds : id ∈ m.held)
      (inside : ∀ addr, ¬ InBuffer m.net.rxq id addr → mem addr = m.net.mem addr) :
      RxStep m (.write id) { m with net := { m.net with mem := mem } }
  | give {m : RxMachine} {elem : UsedElem} (holds : elem.id ∈ m.held) (short : elem.len ≤ 4096) :
      RxStep m (.give elem)
        { m with
          net := { m.net with rxq := { m.net.rxq with
            usedRing := Function.update m.net.rxq.usedRing
              (Ring.slot m.net.rxq.qsize m.net.rxq.usedIdx) elem
            usedIdx := u16 (m.net.rxq.usedIdx + 1) } }
          held := m.held.erase elem.id
          returned := m.returned ++ [elem] }
  | fetch {m : RxMachine} (atHead : m.point = .loopHead)
      (more : m.net.rxq.lastUsedIdx ≠ m.net.rxq.usedIdx) :
      RxStep m .fetch
        { m with
          point := .fetched m.net.rxq.nextUsed
          processed := m.processed ++ [m.net.rxq.nextUsed] }
  | handle {m : RxMachine} {elem : UsedElem} (atPoint : m.point = .fetched elem) :
      RxStep m .handle
        { m with net := ((receivePacket elem).run m.net).2, point := .handled elem }
  | repost {m : RxMachine} {elem : UsedElem} (atPoint : m.point = .handled elem) :
      RxStep m .repost
        { m with net := ((repost elem.id).run m.net).2, point := .reposted elem }
  | publish {m : RxMachine} {elem : UsedElem} (atPoint : m.point = .reposted elem) :
      RxStep m .publish { m with net := (publish.run m.net).2, point := .published }
  | advance {m : RxMachine} (atPoint : m.point = .published) :
      RxStep m .advance
        { m with net := (advance.run m.net).2, point := .loopHead, received := true }
  | finish {m : RxMachine} (atHead : m.point = .loopHead)
      (empty : m.net.rxq.lastUsedIdx = m.net.rxq.usedIdx) :
      RxStep m .finish
        { m with
          net := if m.received then { m.net with notified := m.net.notified ++ [0] } else m.net
          received := false }

/-- The machine when `net_rx_fill` returns. -/
def rxStart (s : State) : RxMachine where
  net := (netRxFill.run s).2
  point := .loopHead
  received := false
  deviceIdx := 0
  held := []
  returned := []
  processed := []

theorem RxStep.repost_point {m next : RxMachine} (taken : RxStep m .repost next) :
    ∃ elem, m.point = .handled elem := by
  cases taken with
  | repost atPoint => exact ⟨_, atPoint⟩

/-! ### The four places of a buffer -/

/-- Published and not yet taken. -/
def RxMachine.published (m : RxMachine) : List Nat :=
  Ring.window m.net.rxq.availRing m.net.rxq.qsize m.deviceIdx m.net.rxq.availIdx

/-- The number of the first used element the driver has not read. -/
def RxMachine.firstPending (m : RxMachine) : Nat :=
  match m.point with
  | .loopHead => m.net.rxq.lastUsedIdx
  | _ => u16 (m.net.rxq.lastUsedIdx + 1)

/-- Returned and not yet processed. -/
def RxMachine.pending (m : RxMachine) : List UsedElem :=
  Ring.window m.net.rxq.usedRing m.net.rxq.qsize m.firstPending m.net.rxq.usedIdx

/-- Being processed by the driver: read and not yet published again. -/
def RxPoint.processing : RxPoint → List Nat
  | .fetched elem | .handled elem | .reposted elem => [elem.id]
  | .loopHead | .published => []

/-- Every descriptor id is in exactly one of the four places. -/
def BuffersPartitioned (qsize : Nat) (m : RxMachine) : Prop :=
  (m.published ++ m.held ++ m.pending.map UsedElem.id ++ m.point.processing).Perm
    (List.range qsize)

/-- The avail slot the repost writes holds no entry the device has yet to take. -/
def RepostSlotFree (m : RxMachine) : Prop :=
  ∀ i, i < Ring.count m.deviceIdx m.net.rxq.availIdx →
    Ring.slot m.net.rxq.qsize (m.deviceIdx + i) ≠ m.net.rxq.availIdx % m.net.rxq.qsize

/-! ### The invariant -/

/-- The two rings hold lists that, with the other two places, make up all ids. -/
structure RxInvariant (exponent : Nat) (m : RxMachine) (published : List Nat)
    (pending : List UsedElem) : Prop where
  size : m.net.rxq.qsize = 2 ^ exponent
  avail : Ring.Holds m.net.rxq.availRing m.net.rxq.qsize m.deviceIdx m.net.rxq.availIdx published
  used : Ring.Holds m.net.rxq.usedRing m.net.rxq.qsize m.firstPending m.net.rxq.usedIdx pending
  lastSmall : m.net.rxq.lastUsedIdx < 2 ^ 16
  places : (published ++ m.held ++ pending.map UsedElem.id ++ m.point.processing).Perm
    (List.range (2 ^ exponent))
  order : m.returned = m.processed ++ pending
  reposted : ∀ elem, m.point = .reposted elem →
    m.net.rxq.availRing (Ring.slot m.net.rxq.qsize m.net.rxq.availIdx) = elem.id

section Invariant

variable {exponent : Nat} {m next : RxMachine} {published : List Nat} {pending : List UsedElem}
  {event : RxEvent}

theorem two_pow_lt (small : exponent ≤ 15) : 2 ^ exponent < 2 ^ 16 :=
  Nat.lt_of_le_of_lt (Nat.pow_le_pow_right (by decide) small) (by decide)

theorem capacity_two_pow (small : exponent ≤ 15) : Ring.capacity (2 ^ exponent) = 2 ^ exponent :=
  Nat.min_eq_left (Nat.le_of_lt (two_pow_lt small))

/-- All ids are accounted for. -/
theorem RxInvariant.total (inv : RxInvariant exponent m published pending) :
    published.length + m.held.length + pending.length + m.point.processing.length =
      2 ^ exponent := by
  have lengths := inv.places.length_eq
  simp only [List.length_append, List.length_map, List.length_range] at lengths
  exact lengths

theorem slot_of_small {q number : Nat} (small : number < 2 ^ 16) :
    Ring.slot q number = number % q := by
  unfold Ring.slot
  rw [u16_of_lt small]

theorem nextUsed_of_small {queue : Virtq} (small : queue.lastUsedIdx < 2 ^ 16) :
    queue.nextUsed = queue.usedRing (Ring.slot queue.qsize queue.lastUsedIdx) := by
  unfold Virtq.nextUsed
  rw [slot_of_small small, u16_of_lt (Nat.lt_of_le_of_lt (Nat.mod_le _ _) small)]

/-- The device takes the first published buffer. -/
theorem RxInvariant.take (inv : RxInvariant exponent m published pending)
    (available : m.deviceIdx ≠ m.net.rxq.availIdx) :
    ∃ rest, RxInvariant exponent
      { m with
        held := m.net.rxq.availRing (Ring.slot m.net.rxq.qsize m.deviceIdx) :: m.held
        deviceIdx := u16 (m.deviceIdx + 1) } rest pending := by
  rcases List.exists_cons_of_ne_nil (inv.avail.ne_nil available) with ⟨id, rest, rfl⟩
  have head := inv.avail.head
  refine ⟨rest, { inv with avail := inv.avail.tail, places := ?_ }⟩
  rw [head]
  have places := inv.places
  simp only [List.append_assoc, List.cons_append] at places ⊢
  exact List.perm_middle.trans places

/-- The device returns a buffer it holds. -/
theorem RxInvariant.give (small : exponent ≤ 15) (inv : RxInvariant exponent m published pending)
    {elem : UsedElem} (holds : elem.id ∈ m.held) :
    RxInvariant exponent
      { m with
        net := { m.net with rxq := { m.net.rxq with
          usedRing := Function.update m.net.rxq.usedRing
            (Ring.slot m.net.rxq.qsize m.net.rxq.usedIdx) elem
          usedIdx := u16 (m.net.rxq.usedIdx + 1) } }
        held := m.held.erase elem.id
        returned := m.returned ++ [elem] } published (pending ++ [elem]) := by
  have total := inv.total
  have positive := List.length_pos_of_mem holds
  have space : pending.length < Ring.capacity m.net.rxq.qsize := by
    rw [inv.size, capacity_two_pow small]
    omega
  have written := inv.used.update inv.size space elem
  refine { inv with used := written.push space (Function.update_self _ _ _), places := ?_, order := ?_ }
  · apply List.Perm.trans ?_ inv.places
    have moved := List.perm_cons_erase holds
    rw [List.map_append, List.map_singleton]
    simp only [List.append_assoc, List.singleton_append]
    apply List.Perm.append_left published
    have middle : (m.held.erase elem.id ++ (pending.map UsedElem.id ++
        (elem.id :: m.point.processing))).Perm
        (elem.id :: (m.held.erase elem.id ++ (pending.map UsedElem.id ++ m.point.processing))) := by
      rw [← List.append_assoc, ← List.append_assoc]
      exact List.perm_middle
    exact middle.trans (moved.symm.append_right _)
  · change m.returned ++ [elem] = _
    rw [inv.order, List.append_assoc]

/-- The driver reads the first pending element. -/
theorem RxInvariant.fetch (inv : RxInvariant exponent m published pending)
    (atHead : m.point = .loopHead) (more : m.net.rxq.lastUsedIdx ≠ m.net.rxq.usedIdx) :
    ∃ rest, RxInvariant exponent
      { m with
        point := .fetched m.net.rxq.nextUsed
        processed := m.processed ++ [m.net.rxq.nextUsed] } published rest := by
  have used := inv.used
  have places := inv.places
  unfold RxMachine.firstPending at used
  rw [atHead] at used places
  rcases List.exists_cons_of_ne_nil (used.ne_nil more) with ⟨elem, rest, rfl⟩
  have next : m.net.rxq.nextUsed = elem := by
    rw [nextUsed_of_small inv.lastSmall]
    exact used.head
  rw [next]
  refine ⟨rest, { inv with used := used.tail, places := ?_, order := ?_, reposted := ?_ }⟩
  · simp only [RxPoint.processing, List.map_cons, List.append_nil] at places ⊢
    apply List.Perm.trans ?_ places
    rw [List.append_assoc, List.append_assoc, List.append_assoc]
    apply List.Perm.append_left published
    apply List.Perm.append_left m.held
    exact List.perm_append_singleton _ _
  · rw [inv.order, List.append_assoc]
    rfl
  · intro other isReposted
    cases isReposted

/-- Handling a packet leaves the queue alone. -/
theorem RxInvariant.handle (inv : RxInvariant exponent m published pending) {elem : UsedElem}
    (atPoint : m.point = .fetched elem) {net : State} (same : net.rxq = m.net.rxq) :
    RxInvariant exponent { m with net := net, point := .handled elem } published pending := by
  have used := inv.used
  have places := inv.places
  unfold RxMachine.firstPending at used
  rw [atPoint] at used places
  refine ⟨?_, ?_, ?_, ?_, places, inv.order, ?_⟩
  · rw [same]
    exact inv.size
  · rw [same]
    exact inv.avail
  · unfold RxMachine.firstPending
    rw [same]
    exact used
  · rw [same]
    exact inv.lastSmall
  · intro other isReposted
    cases isReposted

/-- While the driver processes a buffer there is room for it in the avail ring. -/
theorem RxInvariant.space (small : exponent ≤ 15) (inv : RxInvariant exponent m published pending)
    {id : Nat} (processing : m.point.processing = [id]) :
    published.length < Ring.capacity m.net.rxq.qsize := by
  have total := inv.total
  rw [processing, List.length_singleton] at total
  rw [inv.size, capacity_two_pow small]
  omega

/-- The repost writes a slot that holds no published entry. -/
theorem RxInvariant.repost (small : exponent ≤ 15) (inv : RxInvariant exponent m published pending)
    {elem : UsedElem} (atPoint : m.point = .handled elem) :
    RxInvariant exponent
      { m with net := ((Net.repost elem.id).run m.net).2, point := .reposted elem }
      published pending := by
  have used := inv.used
  have places := inv.places
  have processing : m.point.processing = [elem.id] := by rw [atPoint]; rfl
  have space := inv.space small processing
  have known : elem.id < 2 ^ exponent := by
    apply List.mem_range.mp
    apply inv.places.subset
    rw [processing]
    simp
  unfold RxMachine.firstPending at used
  rw [atPoint] at used places
  have written : ((Net.repost elem.id).run m.net).2.rxq.availRing =
      Function.update m.net.rxq.availRing
        (Ring.slot m.net.rxq.qsize m.net.rxq.availIdx) elem.id := by
    rw [slot_of_small inv.avail.nextSmall]
    change Function.update m.net.rxq.availRing (m.net.rxq.availIdx % m.net.rxq.qsize)
      (u16 elem.id) = _
    rw [u16_of_lt (Nat.lt_trans known (two_pow_lt small))]
  refine ⟨inv.size, ?_, used, inv.lastSmall, places, inv.order, ?_⟩
  · change Ring.Holds ((Net.repost elem.id).run m.net).2.rxq.availRing _ _ _ _
    rw [written]
    exact inv.avail.update inv.size space elem.id
  · intro other isReposted
    cases isReposted
    change ((Net.repost elem.id).run m.net).2.rxq.availRing _ = _
    rw [written]
    exact Function.update_self _ _ _

/-- The buffer the driver processed is published again. -/
theorem RxInvariant.publish (small : exponent ≤ 15) (inv : RxInvariant exponent m published pending)
    {elem : UsedElem} (atPoint : m.point = .reposted elem) :
    RxInvariant exponent { m with net := (Net.publish.run m.net).2, point := .published }
      (published ++ [elem.id]) pending := by
  have used := inv.used
  have places := inv.places
  have space := inv.space small (show m.point.processing = [elem.id] by rw [atPoint]; rfl)
  unfold RxMachine.firstPending at used
  rw [atPoint] at used places
  refine ⟨inv.size, inv.avail.push space (inv.reposted elem atPoint), used, inv.lastSmall, ?_,
    inv.order, ?_⟩
  · simp only [RxPoint.processing, List.append_nil] at places ⊢
    apply List.Perm.trans ?_ places
    rw [List.append_assoc, List.append_assoc, List.append_assoc, List.append_assoc]
    apply List.Perm.append_left published
    rw [← List.append_assoc m.held]
    exact (List.perm_append_singleton _ _).symm
  · intro other isReposted
    cases isReposted

/-- One step keeps the invariant. -/
theorem RxInvariant.step (small : exponent ≤ 15) (inv : RxInvariant exponent m published pending)
    (taken : RxStep m event next) :
    ∃ published' pending', RxInvariant exponent next published' pending' := by
  cases taken with
  | take available => exact ⟨_, pending, (inv.take available).choose_spec⟩
  | write holds inside => exact ⟨published, pending, { inv with }⟩
  | give holds short => exact ⟨published, _, inv.give small holds⟩
  | fetch atHead more => exact ⟨published, _, (inv.fetch atHead more).choose_spec⟩
  | @handle elem atPoint =>
      exact ⟨published, pending, inv.handle atPoint (tolerates_rxq.receivePacket elem m.net)⟩
  | repost atPoint => exact ⟨published, pending, inv.repost small atPoint⟩
  | publish atPoint => exact ⟨_, pending, inv.publish small atPoint⟩
  | advance atPoint =>
      have used := inv.used
      have places := inv.places
      unfold RxMachine.firstPending at used
      rw [atPoint] at used places
      refine ⟨published, pending, inv.size, inv.avail, used, u16_lt _, places, inv.order, ?_⟩
      intro elem isReposted
      cases isReposted
  | finish atHead empty =>
      refine ⟨published, pending, ?_⟩
      cases m.received
      · exact { inv with }
      · exact { inv with }

end Invariant

/-! ### `net_rx_fill` -/

/-- The loop of `net_rx_fill` has filled the first `count` descriptors. -/
structure RxFilled (before : State) (count : Nat) (after : State) : Prop where
  frames : Pmm.Consistent after.pmm
  top : after.pmm.stackTop = before.pmm.stackTop - count
  qsize : after.rxq.qsize = before.rxq.qsize
  usedIdx : after.rxq.usedIdx = before.rxq.usedIdx
  lastUsedIdx : after.rxq.lastUsedIdx = before.rxq.lastUsedIdx
  entry : ∀ i, i < count → after.rxq.availRing i = u16 i

theorem rxFillLoop_run {s : State} (frames : Pmm.Consistent s.pmm) {count : Nat}
    (enough : count ≤ s.pmm.stackTop) (inQueue : count ≤ s.rxq.qsize) :
    ∃ filled, (rxFillLoop count).run s = (true, filled) ∧ RxFilled s count filled := by
  induction count with
  | zero =>
      exact ⟨s, rfl, frames, rfl, rfl, rfl, rfl, fun i below => absurd below (Nat.not_lt_zero i)⟩
  | succ count inductionHypothesis =>
      rcases inductionHypothesis (by omega) (by omega) with ⟨filled, run, before⟩
      have top := before.top
      have nonempty : filled.pmm.stackTop = (s.pmm.stackTop - (count + 1)) + 1 := by omega
      rcases before.frames.top_free nonempty with ⟨below, free⟩
      have small := before.frames.small
      have allocated := Pmm.pmmAllocFrame_of_nonempty nonempty
      have frame : Pmm.indexToPhys (filled.pmm.frameStack (s.pmm.stackTop - (count + 1))) ≠ 0 :=
        Pmm.indexToPhys_ne_zero (by omega)
      have consistent := before.frames.pmmAllocFrame
      rw [rxFillLoop, run_bind_of_eq run, if_pos rfl, run_get_bind, allocated]
      rw [allocated] at consistent
      dsimp only
      rw [if_neg frame]
      refine ⟨_, rfl, consistent, rfl, before.qsize, before.usedIdx, before.lastUsedIdx, ?_⟩
      intro i early
      have slot : count % filled.rxq.qsize = count := Nat.mod_eq_of_lt (by rw [before.qsize]; omega)
      change Function.update filled.rxq.availRing (count % filled.rxq.qsize) (u16 count) i = u16 i
      rw [slot]
      rcases Nat.lt_succ_iff_lt_or_eq.mp early with earlier | last
      · rw [Function.update_of_ne (by omega)]
        exact before.entry i earlier
      · rw [last]
        exact Function.update_self _ _ _

/-- `net_rx_fill` publishes every descriptor when there are enough frames. -/
theorem netRxFill_run {s : State} (frames : Pmm.Consistent s.pmm)
    (enough : s.rxq.qsize ≤ s.pmm.stackTop) :
    ∃ filled, RxFilled s s.rxq.qsize filled ∧ (netRxFill.run s).2.rxq =
      { filled.rxq with availIdx := u16 s.rxq.qsize } := by
  rcases rxFillLoop_run frames enough (Nat.le_refl _) with ⟨filled, run, after⟩
  refine ⟨filled, after, ?_⟩
  unfold netRxFill
  rw [run_get_bind, run_bind_of_eq run, ← after.qsize]
  rfl

section Fill

variable {exponent : Nat} {s : State}

theorem rxStart_rxq (queue : s.rxq = Virtq.fresh (2 ^ exponent)) (frames : Pmm.Consistent s.pmm)
    (enough : 2 ^ exponent ≤ s.pmm.stackTop) :
    (rxStart s).net.rxq.qsize = 2 ^ exponent ∧ (rxStart s).net.rxq.lastUsedIdx = 0 ∧
      (rxStart s).net.rxq.usedIdx = 0 ∧ (rxStart s).net.rxq.availIdx = u16 (2 ^ exponent) ∧
      ∀ i, i < 2 ^ exponent → (rxStart s).net.rxq.availRing i = u16 i := by
  have size : s.rxq.qsize = 2 ^ exponent := by rw [queue]; rfl
  rcases netRxFill_run frames (by rwa [size]) with ⟨filled, after, rxq⟩
  have qsize := after.qsize
  have usedIdx := after.usedIdx
  have lastUsedIdx := after.lastUsedIdx
  have entry := after.entry
  unfold rxStart
  dsimp only
  rw [rxq]
  rw [queue] at qsize usedIdx lastUsedIdx entry
  exact ⟨qsize, lastUsedIdx, usedIdx, by rw [size], entry⟩

/-- After `net_rx_fill` every buffer is published. -/
theorem rxStart_invariant (small : exponent ≤ 15) (queue : s.rxq = Virtq.fresh (2 ^ exponent))
    (frames : Pmm.Consistent s.pmm) (enough : 2 ^ exponent ≤ s.pmm.stackTop) :
    RxInvariant exponent (rxStart s) (List.range (2 ^ exponent)) [] := by
  rcases rxStart_rxq queue frames enough with ⟨size, lastUsedIdx, usedIdx, availIdx, entry⟩
  have fits := two_pow_lt small
  refine ⟨size, ?_, ?_, by rw [lastUsedIdx]; decide, ?_, rfl, ?_⟩
  · rw [size, availIdx]
    refine ⟨show 0 < 2 ^ 16 by decide, ?_, ?_, ?_⟩
    · rw [List.length_range]
      exact congrArg u16 (Nat.zero_add _).symm
    · intro i below
      rw [List.length_range] at below
      have slot : Ring.slot (2 ^ exponent) (0 + i) = i := by
        rw [Nat.zero_add, slot_of_small (by omega)]
        exact Nat.mod_eq_of_lt below
      change some ((rxStart s).net.rxq.availRing (Ring.slot (2 ^ exponent) (0 + i))) = _
      rw [slot, entry i below, u16_of_lt (by omega)]
      simp [below]
    · rw [List.length_range, capacity_two_pow small]
  · rw [size, usedIdx]
    have first : (rxStart s).firstPending = 0 := lastUsedIdx
    rw [first]
    exact Ring.Holds.nil _ _ (by decide)
  · change (List.range (2 ^ exponent) ++ [] ++ List.map UsedElem.id [] ++ []).Perm _
    simp
  · intro elem isReposted
    cases isReposted

end Fill

/-! ### Every run -/

section Runs

variable {exponent : Nat} {m : RxMachine} {published : List Nat} {pending : List UsedElem}

theorem RxInvariant.windows (small : exponent ≤ 15)
    (inv : RxInvariant exponent m published pending) :
    m.published = published ∧ m.pending = pending := by
  have total := inv.total
  have fits := two_pow_lt small
  exact ⟨inv.avail.window_eq (by omega), inv.used.window_eq (by omega)⟩

theorem RxInvariant.partitioned (small : exponent ≤ 15)
    (inv : RxInvariant exponent m published pending) : BuffersPartitioned (2 ^ exponent) m := by
  rcases inv.windows small with ⟨isPublished, isPending⟩
  unfold BuffersPartitioned
  rw [isPublished, isPending]
  exact inv.places

theorem RxInvariant.repostSlotFree (small : exponent ≤ 15)
    (inv : RxInvariant exponent m published pending) {elem : UsedElem}
    (atPoint : m.point = .handled elem) : RepostSlotFree m := by
  have space := inv.space small (show m.point.processing = [elem.id] by rw [atPoint]; rfl)
  have total := inv.total
  have fits := two_pow_lt small
  intro i below
  rw [inv.avail.count_eq (by omega)] at below
  rw [← slot_of_small inv.avail.nextSmall]
  exact inv.avail.slot_free inv.size space below

end Runs

/-- For a receive queue of at most `2 ^ 15` buffers, in every run after
`net_rx_fill`: each buffer is in exactly one place, the driver has processed the
returned elements in order and each once, and no repost overwrites an entry the
device has not taken. -/
theorem rx_buffers_conserved {exponent : Nat} (small : exponent ≤ 15) {s : State}
    (queue : s.rxq = Virtq.fresh (2 ^ exponent)) (frames : Pmm.Consistent s.pmm)
    (enough : 2 ^ exponent ≤ s.pmm.stackTop) {path : List (Transition RxMachine RxEvent)}
    {last : RxMachine} (run : Execution RxStep (rxStart s) path last) :
    BuffersPartitioned (2 ^ exponent) last ∧ last.returned = last.processed ++ last.pending ∧
      ∀ transition ∈ path, transition.label = .repost → RepostSlotFree transition.source := by
  have start : ∃ published pending, RxInvariant exponent (rxStart s) published pending :=
    ⟨_, _, rxStart_invariant small queue frames enough⟩
  have keeps : ∀ source label target,
      (∃ published pending, RxInvariant exponent source published pending) →
        RxStep source label target →
          ∃ published pending, RxInvariant exponent target published pending := by
    rintro source label target ⟨published, pending, inv⟩ taken
    exact inv.step small taken
  rcases run.invariant start keeps with ⟨published, pending, inv⟩
  refine ⟨inv.partitioned small, ?_, fun transition member isRepost => ?_⟩
  · rw [(inv.windows small).2]
    exact inv.order
  · rcases (run.invariant_transitions start keeps transition member).1 with ⟨_, _, before⟩
    have taken := run.step_of_mem member
    rw [isRepost] at taken
    rcases taken.repost_point with ⟨elem, atPoint⟩
    exact before.repostSlotFree small atPoint

/-- A driver state with a queue of `qsize` buffers, before `net_rx_fill`. -/
def rxBoot (pmm : Pmm.State) (qsize : Nat) : State where
  mem := fun _ => 0
  pmm := pmm
  rxq := Virtq.fresh qsize
  txq := Virtq.fresh qsize
  netMac := emulatedMac
  txDescIdx := 0
  notified := []
  accesses := []

/-- A queue of two buffers: the device takes one and returns it with 10 bytes,
and the driver reads the element. -/
theorem rx_buffers_conserved_one_element :
    ∃ path last,
      Execution RxStep (rxStart (rxBoot (Pmm.pmmInit 0x40001000 0x8000 Pmm.State.zero) (2 ^ 1)))
        path last ∧ path.length = 3 ∧ BuffersPartitioned (2 ^ 1) last ∧ last.processed = [⟨0, 10⟩] := by
  have layout : Pmm.BootLayout 0x40001000 0x8000 := by constructor <;> decide
  have run := ((Execution.single (RxStep.take
    (m := rxStart (rxBoot (Pmm.pmmInit 0x40001000 0x8000 Pmm.State.zero) (2 ^ 1)))
    (by decide))).snoc (@RxStep.give _ ⟨0, 10⟩ (by decide) (by decide))).snoc
    (RxStep.fetch rfl (by decide))
  have conserved := rx_buffers_conserved (by decide) rfl (Pmm.pmmInit_consistent layout) (by decide)
    run
  exact ⟨_, _, run, rfl, conserved.1, by decide⟩

/-- RAM of 2 GiB has frames for a queue of `2 ^ 16` buffers. -/
theorem exists_frames : ∃ pmm, Pmm.Consistent pmm ∧ 2 ^ 16 ≤ pmm.stackTop := by
  have layout : Pmm.BootLayout 0x40200000 0x80000000 := by constructor <;> decide
  refine ⟨_, Pmm.pmmInit_consistent layout, ?_⟩
  rw [(Pmm.pmmInit_progress layout).top]
  decide

/-- With `2 ^ 16` buffers the avail index wraps to zero in `net_rx_fill`, and no
buffer is in any of the four places. -/
theorem rxStart_not_partitioned {s : State} (queue : s.rxq = Virtq.fresh (2 ^ 16))
    (frames : Pmm.Consistent s.pmm) (enough : 2 ^ 16 ≤ s.pmm.stackTop) :
    ¬ BuffersPartitioned (2 ^ 16) (rxStart s) := by
  rcases rxStart_rxq queue frames enough with ⟨-, lastUsedIdx, usedIdx, availIdx, -⟩
  have published : (rxStart s).published = [] := by
    apply Ring.window_of_count_eq_zero
    rw [availIdx, show (rxStart s).deviceIdx = 0 from rfl]
    decide
  have pending : (rxStart s).pending = [] := by
    apply Ring.window_of_count_eq_zero
    rw [usedIdx, show (rxStart s).firstPending = 0 from lastUsedIdx]
    decide
  intro partitioned
  have lengths := partitioned.length_eq
  rw [published, pending, show (rxStart s).held = [] from rfl,
    show (rxStart s).point = .loopHead from rfl, List.length_range] at lengths
  simp [RxPoint.processing] at lengths

/-- A queue of `2 ^ 16` buffers is not partitioned after `net_rx_fill`. -/
theorem exists_buffers_lost :
    ∃ s : State, s.rxq = Virtq.fresh (2 ^ 16) ∧ Pmm.Consistent s.pmm ∧ 2 ^ 16 ≤ s.pmm.stackTop ∧
      ¬ BuffersPartitioned (2 ^ 16) (rxStart s) := by
  rcases exists_frames with ⟨pmm, frames, enough⟩
  exact ⟨rxBoot pmm (2 ^ 16), rfl, frames, enough, rxStart_not_partitioned rfl frames enough⟩

end UniKernel.Net
