import UniKernel.Net.Recording

/-!
Owns the calls of `printf` in the network interrupt handler. The handler prints for a packet
of unknown EtherType, for a reply with no free frame, and for a frame that does not fit on the
stack; apart from that it does what it does without printing.
-/

namespace UniKernel.Net

open UniKernel.Lib

/-- A computation that prints: the formats of the calls of `printf` so far. -/
abbrev PrintM := Recording String

def printf (format : String) : PrintM Unit := record format

/-- The message of `pmm_alloc_frame`. -/
def outOfMemory : String := "[ [CPMM [W] CRITICAL: Out of Memory!\n"

/-- The message of `pmm_free_frame`. -/
def stackOverflow : String := "[ [CPMM [W] Error: Stack overflow on free!\n"

/-- The message of `ethernet_handle_packet`. -/
def unknownEtherType : String := "Unknown EtherType: 0x%04x\n"

namespace Printing

def netSend (macFrame : List UInt8) : PrintM Unit := do
  let s ← (get : NetM State)
  if s.pmm.stackTop = 0 then printf outOfMemory
  Net.netSend macFrame

/-- The handlers of a packet with their calls of `printf`. -/
def calls : Calls String := ⟨netSend, printf unknownEtherType⟩

def receivePacket (elem : UsedElem) : PrintM Unit := calls.receivePacket elem

/-- One iteration of the loop of `net_poll_rx`. -/
def pollRxOnce : PrintM Unit := do
  let elem := (← (get : NetM State)).rxq.nextUsed
  receivePacket elem
  repost elem.id
  publish
  advance

/-- The branches of `pmm_free_frame`. -/
def pmmFreeFrame (addr : Nat) : PrintM Unit := do
  let pmm := (← (get : NetM State)).pmm
  let idx := Pmm.physToIndex pmm addr
  let free : NetM Unit := modify fun s => { s with pmm := Pmm.pmmFreeFrame addr s.pmm }
  if idx = Pmm.noIndex ∨ idx ≥ pmm.totalFrames then return
  else if pmm.refCounts idx > 0 then free
  else if pmm.stackTop ≥ pmm.stackCapacity then printf stackOverflow
  else free

/-- One iteration of the loop of `net_cleanup_tx`. -/
def cleanupTxOnce : PrintM Unit := do
  let s ← (get : NetM State)
  pmmFreeFrame (s.txq.desc s.txq.nextUsed.id).addr
  (modify fun s => { s with txq.lastUsedIdx := u16 (s.txq.lastUsedIdx + 1) } : NetM Unit)

end Printing

/-! ### What is printed -/

/-- What the `net_send` of a reply prints. -/
def replyPrints (pmm : Pmm.State) (reply : Option (Memory × List UInt8)) : List String :=
  if reply.isSome ∧ pmm.stackTop = 0 then [outOfMemory] else []

/-- What `ethernet_handle_packet` prints. -/
def packetPrints (s : State) (packet len : Nat) : List String :=
  if len < 14 then []
  else if etherType s.mem packet = 0x0806 ∨ etherType s.mem packet = 0x0800 then
    replyPrints s.pmm (ethernetReply s.netMac.toList s.mem packet len)
  else [unknownEtherType]

/-- `pmm_free_frame` finds a frame without references and the stack full. -/
def FreeOverflows (pmm : Pmm.State) (addr : Nat) : Prop :=
  ¬ (Pmm.physToIndex pmm addr = Pmm.noIndex ∨ Pmm.physToIndex pmm addr ≥ pmm.totalFrames) ∧
    ¬ pmm.refCounts (Pmm.physToIndex pmm addr) > 0 ∧ pmm.stackTop ≥ pmm.stackCapacity

instance (pmm : Pmm.State) (addr : Nat) : Decidable (FreeOverflows pmm addr) :=
  inferInstanceAs (Decidable (¬ _ ∧ ¬ _ ∧ _))

/-- The events of a packet are its messages. -/
theorem packetPrints_eq (s : State) (packet len : Nat) :
    Calls.packetRecords (if s.pmm.stackTop = 0 then [outOfMemory] else []) [unknownEtherType] s
      packet len = packetPrints s packet len := by
  unfold Calls.packetRecords packetPrints replyPrints
  rw [ite_and]

theorem Printing.records : Printing.calls.Records
    (fun s => if s.pmm.stackTop = 0 then [outOfMemory] else []) [unknownEtherType] where
  netSend frame printed s := by
    change ((Printing.netSend frame).run printed).run s = _
    unfold Printing.netSend
    rw [run_lift_bind (run_get s)]
    by_cases empty : s.pmm.stackTop = 0
    · rw [if_pos empty, if_pos empty]
      rfl
    · rw [if_neg empty, if_neg empty, List.append_nil]
      rfl
  withMem _ _ _ := rfl
  unknownEtherType _ _ := rfl

/-! ### Apart from printing -/

theorem Printing.erases_pollRxOnce : Erases Printing.pollRxOnce Net.pollRxOnce := by
  apply Erases.bind (Erases.lift _)
  intro s
  apply Erases.bind (records.erases_receivePacket _)
  intro _
  apply Erases.bind (Erases.lift _)
  intro _
  exact Erases.bind (Erases.lift _) fun _ => Erases.lift _

theorem Printing.erases_pmmFreeFrame (addr : Nat) :
    Erases (Printing.pmmFreeFrame addr)
      (modify fun s => { s with pmm := Pmm.pmmFreeFrame addr s.pmm }) := by
  intro printed s
  unfold Printing.pmmFreeFrame
  rw [run_lift_bind (run_get s)]
  dsimp only
  by_cases outside : Pmm.physToIndex s.pmm addr = Pmm.noIndex ∨
      Pmm.physToIndex s.pmm addr ≥ s.pmm.totalFrames
  · have kept : Pmm.pmmFreeFrame addr s.pmm = s.pmm := by
      rw [Pmm.pmmFreeFrame, if_pos outside]
    rw [if_pos outside]
    refine ⟨rfl, ?_⟩
    change s = { s with pmm := Pmm.pmmFreeFrame addr s.pmm }
    rw [kept]
  · rw [if_neg outside]
    by_cases counted : s.pmm.refCounts (Pmm.physToIndex s.pmm addr) > 0
    · rw [if_pos counted]
      exact ⟨rfl, rfl⟩
    · rw [if_neg counted]
      by_cases full : s.pmm.stackTop ≥ s.pmm.stackCapacity
      · have kept : Pmm.pmmFreeFrame addr s.pmm = s.pmm := by
          rw [Pmm.pmmFreeFrame, if_neg outside, if_neg counted, if_pos full]
        rw [if_pos full]
        refine ⟨rfl, ?_⟩
        change s = { s with pmm := Pmm.pmmFreeFrame addr s.pmm }
        rw [kept]
      · rw [if_neg full]
        exact ⟨rfl, rfl⟩

theorem Printing.erases_cleanupTxOnce : Erases Printing.cleanupTxOnce Net.cleanupTxOnce := by
  intro printed s
  rcases erases_pmmFreeFrame (s.txq.desc s.txq.nextUsed.id).addr printed s with ⟨-, freed⟩
  have steps : ((Printing.cleanupTxOnce.run printed).run s).2 =
      (fun s : State => { s with txq.lastUsedIdx := u16 (s.txq.lastUsedIdx + 1) })
        (((Printing.pmmFreeFrame (s.txq.desc s.txq.nextUsed.id).addr).run printed).run s).2 := rfl
  refine ⟨rfl, ?_⟩
  rw [steps, freed]
  rfl

/-! ### One iteration -/

/-- What an iteration of `net_poll_rx` prints. -/
def pollPrints (s : State) : List String :=
  if packetLength s.rxq.nextUsed > 0 then
    packetPrints s ((s.rxq.desc s.rxq.nextUsed.id).addr + virtioHdrSize)
      (packetLength s.rxq.nextUsed)
  else []

theorem Printing.receivePacket_prints (elem : UsedElem) (s : State) (printed : List String) :
    (((Printing.receivePacket elem).run printed).run s).1 =
      ((), printed ++
        if packetLength elem > 0 then
          packetPrints s ((s.rxq.desc elem.id).addr + virtioHdrSize) (packetLength elem)
        else []) := by
  rw [← packetPrints_eq]
  exact records.receivePacket_events elem s

theorem Printing.pollRxOnce_prints (s : State) (printed : List String) :
    (((Printing.pollRxOnce).run printed).run s).1 = ((), printed ++ pollPrints s) := by
  have received := receivePacket_prints s.rxq.nextUsed s printed
  have steps : (((Printing.pollRxOnce).run printed).run s).1 =
      ((), (((Printing.receivePacket s.rxq.nextUsed).run printed).run s).1.2) := rfl
  rw [steps, received, pollPrints]

/-- What an iteration of `net_cleanup_tx` prints. -/
def cleanupPrints (s : State) : List String :=
  if FreeOverflows s.pmm (s.txq.desc s.txq.nextUsed.id).addr then [stackOverflow] else []

theorem Printing.pmmFreeFrame_prints (addr : Nat) (s : State) (printed : List String) :
    (((Printing.pmmFreeFrame addr).run printed).run s).1 =
      ((), printed ++ if FreeOverflows s.pmm addr then [stackOverflow] else []) := by
  unfold Printing.pmmFreeFrame
  rw [run_lift_bind (run_get s)]
  dsimp only
  by_cases outside : Pmm.physToIndex s.pmm addr = Pmm.noIndex ∨
      Pmm.physToIndex s.pmm addr ≥ s.pmm.totalFrames
  · rw [if_pos outside, if_neg fun overflows : FreeOverflows s.pmm addr => overflows.1 outside,
      List.append_nil]
    rfl
  · rw [if_neg outside]
    by_cases counted : s.pmm.refCounts (Pmm.physToIndex s.pmm addr) > 0
    · rw [if_pos counted, if_neg fun overflows : FreeOverflows s.pmm addr => overflows.2.1 counted,
        List.append_nil]
      rfl
    · rw [if_neg counted]
      by_cases full : s.pmm.stackTop ≥ s.pmm.stackCapacity
      · rw [if_pos full, if_pos (show FreeOverflows s.pmm addr from ⟨outside, counted, full⟩)]
        rfl
      · rw [if_neg full, if_neg fun overflows : FreeOverflows s.pmm addr => full overflows.2.2,
          List.append_nil]
        rfl

theorem Printing.cleanupTxOnce_prints (s : State) (printed : List String) :
    (((Printing.cleanupTxOnce).run printed).run s).1 = ((), printed ++ cleanupPrints s) := by
  have freed := pmmFreeFrame_prints (s.txq.desc s.txq.nextUsed.id).addr s printed
  have steps : (((Printing.cleanupTxOnce).run printed).run s).1 =
      ((), (((Printing.pmmFreeFrame (s.txq.desc s.txq.nextUsed.id).addr).run printed).run s).1.2) :=
    rfl
  rw [steps, freed, cleanupPrints]

end UniKernel.Net
