import UniKernel.Net.Lengths
import UniKernel.Net.QueueMemory

/-!
Owns `net_init`: the feature negotiation as the device sees it, its failure exits
and the state it leaves. From the negotiated features follows where a virtio
device puts a frame behind its header; the driver's header has one size.
-/

namespace UniKernel.Net

open UniKernel.Lib

/-- `VIRTIO_REG_STATUS` -/
@[simp] def regStatus : Nat := 0x070

/-- `VIRTIO_REG_DEV_FEAT_SEL` -/
@[simp] def regDevFeatSel : Nat := 0x014

/-- `VIRTIO_REG_DRV_FEAT_SEL` -/
@[simp] def regDrvFeatSel : Nat := 0x024

/-- `VIRTIO_REG_DRV_FEAT` -/
@[simp] def regDrvFeat : Nat := 0x020

/-- `STATUS_ACKNOWLEDGE` -/
@[simp] def statusAcknowledge : Nat := 1

/-- `STATUS_DRIVER` -/
@[simp] def statusDriver : Nat := 2

/-- `STATUS_DRIVER_OK` -/
@[simp] def statusDriverOk : Nat := 4

/-- `STATUS_FEATURES_OK` -/
@[simp] def statusFeaturesOk : Nat := 8

/-- `STATUS_FAILED` -/
@[simp] def statusFailed : Nat := 128

/-! ### Negotiation -/

/-- The start of `net_init`; `offered` is the 64-bit feature word of the device. -/
def negotiate (offered : Nat) : InitM Unit := do
  write32 regStatus 0
  write32 regStatus statusAcknowledge
  write32 regStatus (statusAcknowledge ||| statusDriver)
  write32 regDevFeatSel 0
  let featuresLow := u32 offered &&& 0
  write32 regDrvFeatSel 0
  write32 regDrvFeat featuresLow
  write32 regDevFeatSel 1
  let featuresHigh := u32 (offered >>> 32) &&& 1
  write32 regDrvFeatSel 1
  write32 regDrvFeat featuresHigh
  write32 regStatus (statusAcknowledge ||| statusDriver ||| statusFeaturesOk)

/-- What the device has been told about features. -/
structure DriverFeatures where
  select : Nat
  low : Nat
  high : Nat

/-- A register write as the device takes it. -/
def DriverFeatures.write (told : DriverFeatures) : Nat × Nat → DriverFeatures
  | (offset, value) =>
      if offset = regDrvFeatSel then { told with select := value }
      else if offset = regDrvFeat then
        if told.select = 0 then { told with low := value } else { told with high := value }
      else told

/-- The features the device takes as negotiated. -/
def negotiatedFeatures (written : List (Nat × Nat)) : Nat :=
  let told := written.foldl DriverFeatures.write ⟨0, 0, 0⟩
  told.high <<< 32 ||| told.low

/-- The device's header: 12 bytes, with `num_buffers`, under `VIRTIO_F_VERSION_1`. -/
def deviceHdrSize (features : Nat) : Nat := if features.testBit 32 then 12 else 10

theorem negotiatedFeatures_negotiate (offered : Nat) (s : InitState) :
    negotiatedFeatures ((negotiate offered).run s).2.written =
      (u32 (offered >>> 32) &&& 1) <<< 32 := by
  have writes : ((negotiate offered).run s).2.written = s.written ++
      [(regStatus, 0)] ++ [(regStatus, statusAcknowledge)] ++
      [(regStatus, statusAcknowledge ||| statusDriver)] ++ [(regDevFeatSel, 0)] ++
      [(regDrvFeatSel, 0)] ++ [(regDrvFeat, u32 offered &&& 0)] ++ [(regDevFeatSel, 1)] ++
      [(regDrvFeatSel, 1)] ++ [(regDrvFeat, u32 (offered >>> 32) &&& 1)] ++
      [(regStatus, statusAcknowledge ||| statusDriver ||| statusFeaturesOk)] := rfl
  unfold negotiatedFeatures
  rw [writes]
  simp [List.foldl_append, DriverFeatures.write]

/-- The driver accepts `VIRTIO_F_VERSION_1` whenever it is offered. -/
theorem deviceHdrSize_negotiate (offered : Nat) (s : InitState) :
    deviceHdrSize (negotiatedFeatures ((negotiate offered).run s).2.written) =
      if offered.testBit 32 then 12 else 10 := by
  have bit : ((u32 (offered >>> 32) &&& 1) <<< 32).testBit 32 = offered.testBit 32 := by
    unfold u32
    simp [Nat.testBit_shiftLeft]
  unfold deviceHdrSize
  rw [negotiatedFeatures_negotiate, bit]

/-! ### Framing -/

/-- The device has put `frame` behind a header of `hdrSize` bytes into the buffer
of a used element. -/
structure Delivered (s : State) (elem : UsedElem) (hdrSize : Nat) (frame : List UInt8) : Prop where
  len : elem.len = hdrSize + frame.length
  bytes : bytesAt s.mem ((s.rxq.desc elem.id).addr + hdrSize) frame.length = frame

/-- The bytes `net_poll_rx` passes to `ethernet_handle_packet`. -/
def State.passed (s : State) (elem : UsedElem) : Option (List UInt8) :=
  if packetLength elem > 0 then
    some (bytesAt s.mem ((s.rxq.desc elem.id).addr + virtioHdrSize) (packetLength elem))
  else none

/-- The call that these are the bytes of; `net_poll_rx` then clears the header. -/
theorem receivePacket_passed (s : State) (elem : UsedElem) :
    (∀ frame, s.passed elem = some frame →
      frame = bytesAt s.mem ((s.rxq.desc elem.id).addr + virtioHdrSize) (packetLength elem)) ∧
    (receivePacket elem).run s =
      (do
        if (s.passed elem).isSome then
          ethernetHandlePacket ((s.rxq.desc elem.id).addr + virtioHdrSize) (packetLength elem)
        modify fun t => { t with
          mem := CString.memset (s.rxq.desc elem.id).addr 0 virtioHdrSize t.mem } : NetM Unit).run s
    := by
  have handed : (s.passed elem).isSome ↔ packetLength elem > 0 := by
    unfold State.passed
    split <;> simp [*]
  constructor
  · intro frame passed
    unfold State.passed at passed
    split at passed
    · exact (Option.some.inj passed).symm
    · cases passed
  · simp only [handed]
    rfl

/-- The frame the device takes out of a transmit buffer. -/
def State.extracted (s : State) (id hdrSize : Nat) : List UInt8 :=
  bytesAt s.mem ((s.txq.desc id).addr + hdrSize) ((s.txq.desc id).len - hdrSize)

section Framing

variable {frame : List UInt8} {s : State} {elem : UsedElem} {hdrSize : Nat}

theorem bytesAt_storeBytes (mem : Memory) (addr : Nat) (bytes : List UInt8) :
    bytesAt (mem.storeBytes addr bytes) addr bytes.length = bytes := by
  apply List.ext_getElem?
  intro i
  rcases Nat.lt_or_ge i bytes.length with inside | beyond
  · have offset : addr + i - addr = i := by omega
    rw [getElem?_bytesAt _ _ inside, Memory.storeBytes, if_pos (by omega), offset,
      List.getD_eq_getElem?_getD, List.getElem?_eq_getElem inside, Option.getD_some]
  · rw [List.getElem?_eq_none beyond, List.getElem?_eq_none (by rw [length_bytesAt]; exact beyond)]

/-- With headers of one size the frame is passed on; with a longer one it is not. -/
theorem passed_eq_iff (delivered : Delivered s elem hdrSize frame) (nonempty : 0 < frame.length)
    (short : hdrSize + frame.length ≤ 4096) (header : virtioHdrSize ≤ hdrSize) :
    s.passed elem = some frame ↔ hdrSize = virtioHdrSize := by
  have length : packetLength elem = hdrSize - virtioHdrSize + frame.length := by
    unfold packetLength u32
    rw [delivered.len]
    simp only [virtioHdrSize] at *
    omega
  unfold State.passed
  rw [if_pos (by omega), Option.some_inj]
  constructor
  · intro same
    have lengths := congrArg List.length same
    rw [length_bytesAt] at lengths
    omega
  · intro agree
    rw [length, agree, Nat.sub_self, Nat.zero_add, ← agree]
    exact delivered.bytes

/-- What a successful `net_send` leaves in its buffer. -/
theorem netSend_buffer (available : (Pmm.pmmAllocFrame s.pmm).1 ≠ 0)
    (short : virtioHdrSize + frame.length ≤ 4096) :
    (((netSend frame).run s).2.txq.desc s.nextSent.desc).len = virtioHdrSize + frame.length ∧
      bytesAt ((netSend frame).run s).2.mem
          ((((netSend frame).run s).2.txq.desc s.nextSent.desc).addr + virtioHdrSize) frame.length =
        frame := by
  have txq := (netSend_txq frame available).1
  have written : ((netSend frame).run s).2.mem =
      (CString.memset (Pmm.pmmAllocFrame s.pmm).1 0 virtioHdrSize s.mem).storeBytes
        ((Pmm.pmmAllocFrame s.pmm).1 + virtioHdrSize) frame := by
    unfold netSend
    simp only [available, StateT.run_bind, StateT.run_get, pure_bind]
    rfl
  have desc : ((netSend frame).run s).2.txq.desc s.nextSent.desc =
      ⟨(Pmm.pmmAllocFrame s.pmm).1, u32 (virtioHdrSize + frame.length), 0, 0⟩ := by
    rw [txq]
    exact Function.update_self _ _ _
  rw [desc, written]
  exact ⟨u32_of_lt (by omega), bytesAt_storeBytes _ _ _⟩

/-- The device takes the frame out of the buffer when its header is the driver's,
and something shorter when its header is longer. -/
theorem extracted_eq_iff (available : (Pmm.pmmAllocFrame s.pmm).1 ≠ 0)
    (nonempty : 0 < frame.length) (short : hdrSize + frame.length ≤ 4096)
    (header : virtioHdrSize ≤ hdrSize) :
    ((netSend frame).run s).2.extracted s.nextSent.desc hdrSize = frame ↔ hdrSize = virtioHdrSize := by
  rcases netSend_buffer available (show virtioHdrSize + frame.length ≤ 4096 by omega) with
    ⟨len, bytes⟩
  unfold State.extracted
  constructor
  · intro same
    have lengths := congrArg List.length same
    rw [length_bytesAt, len] at lengths
    omega
  · intro agree
    rw [len, agree, Nat.add_sub_cancel_left]
    exact bytes

end Framing

/-- For every feature word the device offers, every received frame and every frame
sent: driver and device agree where the frame is if and only if the device does
not offer `VIRTIO_F_VERSION_1`. -/
theorem framing_agrees_iff {offered : Nat} {boot : InitState} {hdrSize : Nat} {frame : List UInt8}
    {s : State} {elem : UsedElem}
    (negotiated : hdrSize = deviceHdrSize (negotiatedFeatures ((negotiate offered).run boot).2.written))
    (ethernet : ethernetHdrSize ≤ frame.length) (fits : hdrSize + frame.length ≤ 4096)
    (delivered : Delivered s elem hdrSize frame) {sender : State}
    (available : (Pmm.pmmAllocFrame sender.pmm).1 ≠ 0) :
    (s.passed elem = some frame ∧
        ((netSend frame).run sender).2.extracted sender.nextSent.desc hdrSize = frame) ↔
      offered.testBit 32 = false := by
  rw [deviceHdrSize_negotiate] at negotiated
  have header : virtioHdrSize ≤ hdrSize := by
    rw [negotiated]
    split <;> decide
  have nonempty : 0 < frame.length := by
    simp only [ethernetHdrSize] at ethernet
    omega
  rw [passed_eq_iff delivered nonempty fits header,
    extracted_eq_iff available nonempty fits header, and_self, negotiated]
  cases offered.testBit 32 <;> decide

/-- Sixty zeros behind the header, in a queue that names their buffer. -/
def delivering (hdrSize : Nat) : State :=
  { rxBoot (Pmm.pmmInit 0x40001000 0x8000 Pmm.State.zero) 4 with
    rxq := oneReceived (hdrSize + 60) }

theorem delivered_zeros (hdrSize : Nat) :
    Delivered (delivering hdrSize) ⟨0, hdrSize + 60⟩ hdrSize (List.replicate 60 0) where
  len := by rw [List.length_replicate]
  bytes := by
    rw [List.length_replicate]
    exact List.map_const' ..

/-- A device that offers nothing. -/
theorem framing_agrees_iff_legacy :
    ((delivering 10).passed ⟨0, 70⟩ = some (List.replicate 60 0) ∧
        ((netSend (List.replicate 60 0)).run (delivering 10)).2.extracted
          (delivering 10).nextSent.desc 10 = List.replicate 60 0) ↔
      Nat.testBit 0 32 = false := by
  have negotiated : 10 = deviceHdrSize (negotiatedFeatures ((negotiate 0).run
      ⟨fun _ => 0, Pmm.booted 0x40001000 0x8000, []⟩).2.written) := by
    rw [deviceHdrSize_negotiate]
    decide
  exact framing_agrees_iff negotiated (by decide) (by decide) (delivered_zeros 10) (by decide)

/-- A device that offers `VIRTIO_F_VERSION_1`: two bytes of its header are passed
on as part of the frame. -/
theorem exists_frame_shifted :
    deviceHdrSize (negotiatedFeatures ((negotiate (2 ^ 32)).run
        ⟨fun _ => 0, Pmm.booted 0x40001000 0x8000, []⟩).2.written) = 12 ∧
      Delivered (delivering 12) ⟨0, 72⟩ 12 (List.replicate 60 0) ∧
      (delivering 12).passed ⟨0, 72⟩ ≠ some (List.replicate 60 0) := by
  refine ⟨?_, delivered_zeros 12, fun passed => ?_⟩
  · rw [deviceHdrSize_negotiate]
    decide
  · have agree := (passed_eq_iff (delivered_zeros 12) (by decide) (by decide) (by decide)).mp passed
    exact absurd agree (by decide)

end UniKernel.Net
