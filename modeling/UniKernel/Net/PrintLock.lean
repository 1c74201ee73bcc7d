import UniKernel.Lib.Transition
import UniKernel.Net.Printing

/-!
Owns `print_lock` on core 0. Nothing masks the network interrupt while a thread
is inside `printf`, and the handler prints in three cases; then it spins on the
lock of the code it interrupted. An iteration of a loop of the handler is one
step, and everything else that changes memory, the queues or the allocator may
happen at any time. An exception taken inside the handler, whose own handler prints
too, is not a step here.
-/

namespace UniKernel.Net

open UniKernel.Lib

/-! ### The core -/

/-- Where core 0 stands: in a thread's code, in a loop of the handler, or in the
loop of `pthread_spin_lock` for the lock of the thread it interrupted. -/
inductive Point where
  | thread
  | pollRx
  | cleanupTx
  | spinning
deriving DecidableEq, Repr

/-- Core 0. `holds` says that the thread's code is inside `printf`, behind
`pthread_spin_lock(&print_lock)`. -/
structure PrintCore where
  net : State
  holds : Bool
  point : Point

/-- The loop that an interrupt leads to; `status` is the value of
`VIRTIO_REG_INTERRUPT_STATUS`. -/
def el1IrqHandler (irqId status : Nat) : Point :=
  if irqId = 48 ∧ status &&& 1 ≠ 0 then .pollRx else .thread

/-- What an iteration of the handler leaves, when it printed `printed`. A call of
`printf` does not return while the interrupted code holds the lock. -/
def PrintCore.afterIteration (core : PrintCore) (printed : List String) (net : State) :
    PrintCore :=
  if core.holds = true ∧ printed ≠ [] then { core with point := .spinning }
  else { core with net := net }

inductive PrintEvent where
  | change
  | lock
  | unlock
  | interrupt (irqId status : Nat)
  | pollRx
  | cleanupTx
deriving DecidableEq, Repr

inductive PrintStep : PrintCore → PrintEvent → PrintCore → Prop where
  /-- the device, the other core or the thread's own code -/
  | change {core : PrintCore} {net : State} : PrintStep core .change { core with net := net }
  /-- the start of `printf` -/
  | lock {core : PrintCore} (here : core.point = .thread) (free : core.holds = false) :
      PrintStep core .lock { core with holds := true }
  /-- the end of `printf` -/
  | unlock {core : PrintCore} (here : core.point = .thread) (held : core.holds = true) :
      PrintStep core .unlock { core with holds := false }
  | interrupt {core : PrintCore} {irqId status : Nat} (here : core.point = .thread) :
      PrintStep core (.interrupt irqId status) { core with point := el1IrqHandler irqId status }
  /-- an iteration of `net_poll_rx` -/
  | pollRx {core : PrintCore} (here : core.point = .pollRx)
      (pending : core.net.rxq.lastUsedIdx ≠ core.net.rxq.usedIdx) :
      PrintStep core .pollRx
        (core.afterIteration ((Printing.pollRxOnce.run []).run core.net).1.2
          ((Printing.pollRxOnce.run []).run core.net).2)
  | pollRxDone {core : PrintCore} (here : core.point = .pollRx)
      (done : core.net.rxq.lastUsedIdx = core.net.rxq.usedIdx) :
      PrintStep core .pollRx { core with point := .cleanupTx }
  /-- an iteration of `net_cleanup_tx` -/
  | cleanupTx {core : PrintCore} (here : core.point = .cleanupTx)
      (pending : core.net.txq.lastUsedIdx ≠ core.net.txq.usedIdx) :
      PrintStep core .cleanupTx
        (core.afterIteration ((Printing.cleanupTxOnce.run []).run core.net).1.2
          ((Printing.cleanupTxOnce.run []).run core.net).2)
  | cleanupTxDone {core : PrintCore} (here : core.point = .cleanupTx)
      (done : core.net.txq.lastUsedIdx = core.net.txq.usedIdx) :
      PrintStep core .cleanupTx { core with point := .thread }

/-! ### When the handler prints -/

/-- A frame of `len` bytes at `packet` asks for an answer. -/
def AsksReply (mem : Memory) (packet len : Nat) : Prop :=
  (etherType mem packet = 0x0806 ∧ ArpRequest mem (packet + 14) (len - 14)) ∨
    (etherType mem packet = 0x0800 ∧ EchoRequest mem (packet + 14) (len - 14))

/-- The next packet is too short to be looked at, or of a known EtherType and
there is a free frame if it asks for an answer. -/
def PacketQuiet (s : State) : Prop :=
  let packet := (s.rxq.desc s.rxq.nextUsed.id).addr + virtioHdrSize
  packetLength s.rxq.nextUsed < 14 ∨
    (etherType s.mem packet = 0x0806 ∨ etherType s.mem packet = 0x0800) ∧
      (AsksReply s.mem packet (packetLength s.rxq.nextUsed) → s.pmm.stackTop ≠ 0)

theorem ethernetReply_ne_none_iff {mac : List UInt8} {mem : Memory} {packet len : Nat}
    (long : ¬ len < 14) : ethernetReply mac mem packet len ≠ none ↔ AsksReply mem packet len := by
  unfold ethernetReply AsksReply
  rw [if_neg long]
  by_cases arp : etherType mem packet = 0x0806
  · have notIpv4 : ¬ etherType mem packet = 0x0800 := by
      rw [arp]
      decide
    rw [if_pos arp, arpReply]
    simp [arp]
  · rw [if_neg arp]
    by_cases ipv4 : etherType mem packet = 0x0800
    · rw [if_pos ipv4, ipv4Reply]
      simp [ipv4]
    · rw [if_neg ipv4]
      simp [arp, ipv4]

theorem replyPrints_eq_nil_iff {pmm : Pmm.State} {reply : Option (Memory × List UInt8)} :
    replyPrints pmm reply = [] ↔ (reply ≠ none → pmm.stackTop ≠ 0) := by
  unfold replyPrints
  rw [← Option.isSome_iff_ne_none]
  split
  · next both => simp [both.1, both.2]
  · next notBoth => simpa using notBoth

theorem pollPrints_eq_nil_iff {s : State} : pollPrints s = [] ↔ PacketQuiet s := by
  unfold pollPrints PacketQuiet packetPrints
  dsimp only
  generalize packetLength s.rxq.nextUsed = len
  generalize (s.rxq.desc s.rxq.nextUsed.id).addr + virtioHdrSize = packet
  by_cases short : len < 14
  · by_cases nonempty : len > 0
    · rw [if_pos nonempty, if_pos short]
      exact iff_of_true rfl (Or.inl short)
    · rw [if_neg nonempty]
      exact iff_of_true rfl (Or.inl short)
  · have nonempty : len > 0 := by omega
    rw [if_pos nonempty, if_neg short]
    by_cases known : etherType s.mem packet = 0x0806 ∨ etherType s.mem packet = 0x0800
    · rw [if_pos known, replyPrints_eq_nil_iff, ethernetReply_ne_none_iff short]
      simp only [short, known, false_or, true_and]
    · rw [if_neg known]
      simp only [short, known, false_or, false_and, List.cons_ne_nil]

theorem cleanupPrints_eq_nil_iff {s : State} :
    cleanupPrints s = [] ↔ ¬ FreeOverflows s.pmm (s.txq.desc s.txq.nextUsed.id).addr := by
  unfold cleanupPrints
  split
  · next overflows => simp [overflows]
  · next fits => simp [fits]

/-- If the interrupted code holds the lock, an iteration of the handler has
nothing to print. -/
def Quiet (transition : Transition PrintCore PrintEvent) : Prop :=
  transition.source.holds = true →
    (transition.label = .pollRx →
      transition.source.net.rxq.lastUsedIdx ≠ transition.source.net.rxq.usedIdx →
      PacketQuiet transition.source.net) ∧
    (transition.label = .cleanupTx →
      transition.source.net.txq.lastUsedIdx ≠ transition.source.net.txq.usedIdx →
      ¬ FreeOverflows transition.source.net.pmm
        (transition.source.net.txq.desc transition.source.net.txq.nextUsed.id).addr)

/-! ### Runs -/

/-- Core 0 does not wait for the code it interrupted. -/
def PrintCore.Goes (core : PrintCore) : Prop := core.point ≠ .spinning

variable {core core' first last : PrintCore} {event : PrintEvent}
  {path : List (Transition PrintCore PrintEvent)}

theorem goes_afterIteration (goes : core.Goes) (printed : List String) (net : State) :
    (core.afterIteration printed net).Goes ↔ (core.holds = true → printed = []) := by
  unfold PrintCore.afterIteration
  split
  · next attempts => exact iff_of_false (fun moves => moves rfl) fun quiet => attempts.2 (quiet attempts.1)
  · next quiet =>
      refine iff_of_true goes ?_
      intro holds
      by_contra prints
      exact quiet ⟨holds, prints⟩

theorem el1IrqHandler_ne_spinning (irqId status : Nat) : el1IrqHandler irqId status ≠ .spinning := by
  unfold el1IrqHandler
  split <;> simp

/-- One step leads to spinning exactly when an iteration prints under the lock. -/
theorem PrintStep.goes_iff (goes : core.Goes) (taken : PrintStep core event core') :
    core'.Goes ↔ Quiet ⟨core, event, core'⟩ := by
  have always : ∀ {next : PrintCore} {event : PrintEvent}, next.Goes → event ≠ .pollRx →
      event ≠ .cleanupTx → (next.Goes ↔ Quiet ⟨core, event, next⟩) := by
    intro next event nextGoes notPoll notCleanup
    exact iff_of_true nextGoes fun _ =>
      ⟨fun isPoll => absurd isPoll notPoll, fun isCleanup => absurd isCleanup notCleanup⟩
  cases taken with
  | change => exact always goes (by simp) (by simp)
  | lock here free => exact always goes (by simp) (by simp)
  | unlock here held => exact always goes (by simp) (by simp)
  | interrupt here => exact always (el1IrqHandler_ne_spinning _ _) (by simp) (by simp)
  | pollRx here pending =>
      rw [goes_afterIteration goes, Printing.pollRxOnce_prints, List.nil_append,
        pollPrints_eq_nil_iff]
      simp [Quiet, pending]
  | pollRxDone here done =>
      refine iff_of_true (by simp [PrintCore.Goes]) ?_
      simp [Quiet, done]
  | cleanupTx here pending =>
      rw [goes_afterIteration goes, Printing.cleanupTxOnce_prints, List.nil_append,
        cleanupPrints_eq_nil_iff]
      simp [Quiet, pending]
  | cleanupTxDone here done =>
      refine iff_of_true (by simp [PrintCore.Goes]) ?_
      simp [Quiet, done]

/-- The handler never waits for the code it interrupted if and only if it has
nothing to print whenever it interrupted code that holds the lock. -/
theorem never_spins_iff (start : first.point = .thread)
    (run : Execution PrintStep first path last) :
    (∀ transition ∈ path, transition.target.point ≠ .spinning) ↔
      ∀ transition ∈ path, Quiet transition := by
  have goes : first.Goes := by
    rw [PrintCore.Goes, start]
    simp
  have exact : ∀ source label target, source.Goes → PrintStep source label target →
      (target.Goes ↔ Quiet ⟨source, label, target⟩) := fun _ _ _ moves taken => taken.goes_iff moves
  exact run.forall_good_iff goes exact fun source label target moves taken quiet =>
    (exact source label target moves taken).mpr quiet

/-- A packet of 14 bytes whose EtherType is 0x86dd, in the buffer `cutOffState` receives into. -/
def unknownTypeState : State :=
  { cutOffState 24 with mem := Memory.store (fun _ => 0) (cutOffBuffer + virtioHdrSize + 12) 2 0xdd86 }

/-- The same buffer with an EtherType of IPv4 and nothing behind it. -/
def bareIpv4State : State :=
  { cutOffState 24 with mem := Memory.store (fun _ => 0) (cutOffBuffer + virtioHdrSize + 12) 2 0x0008 }

/-- Interrupted inside `printf` with `received` pending, core 0 gets to the
handler's loop. -/
theorem exists_execution_pollRx (received : State)
    (pending : received.rxq.lastUsedIdx ≠ received.rxq.usedIdx) :
    Execution PrintStep ⟨received, false, .thread⟩
      [⟨⟨received, false, .thread⟩, .lock, ⟨received, true, .thread⟩⟩,
        ⟨⟨received, true, .thread⟩, .interrupt 48 1, ⟨received, true, .pollRx⟩⟩,
        ⟨⟨received, true, .pollRx⟩, .pollRx,
          (PrintCore.mk received true .pollRx).afterIteration
            ((Printing.pollRxOnce.run []).run received).1.2
            ((Printing.pollRxOnce.run []).run received).2⟩]
      ((PrintCore.mk received true .pollRx).afterIteration
        ((Printing.pollRxOnce.run []).run received).1.2
        ((Printing.pollRxOnce.run []).run received).2) := by
  have locked : Execution PrintStep ⟨received, false, .thread⟩ _ _ :=
    Execution.nil.snoc (PrintStep.lock rfl rfl)
  have interrupt : PrintStep ⟨received, true, .thread⟩ (.interrupt 48 1) ⟨received, true, .pollRx⟩ :=
    PrintStep.interrupt rfl
  exact (locked.snoc interrupt).snoc (PrintStep.pollRx rfl pending)

/-- A pending packet of unknown EtherType: the handler spins on the lock of the
`printf` it interrupted. -/
theorem exists_run_spinning : ∃ path last,
    Execution PrintStep ⟨unknownTypeState, false, .thread⟩ path last ∧ last.point = .spinning := by
  refine ⟨_, _, exists_execution_pollRx unknownTypeState (by decide), ?_⟩
  have prints : ((Printing.pollRxOnce.run []).run unknownTypeState).1.2 ≠ [] := by
    rw [Printing.pollRxOnce_prints]
    decide +kernel
  rw [PrintCore.afterIteration, if_pos ⟨rfl, prints⟩]

/-- A pending IPv4 packet without a payload is handled under the lock. -/
theorem never_spins_bareIpv4 : ∃ path last,
    Execution PrintStep ⟨bareIpv4State, false, .thread⟩ path last ∧ path.length = 3 ∧
      ∀ transition ∈ path, transition.target.point ≠ .spinning := by
  have run := exists_execution_pollRx bareIpv4State (by decide)
  refine ⟨_, _, run, rfl, (never_spins_iff rfl run).mpr ?_⟩
  have quiet : PacketQuiet bareIpv4State := by
    rw [← pollPrints_eq_nil_iff]
    decide +kernel
  intro transition member
  simp only [List.mem_cons, List.not_mem_nil, or_false] at member
  rcases member with rfl | rfl | rfl
  · intro holds
    cases holds
  · exact fun _ => ⟨by simp, by simp⟩
  · exact fun _ => ⟨fun _ _ => quiet, by simp⟩

end UniKernel.Net
