import UniKernel.Net.Echo

/-!
Owns the lengths on the receive path: the length `net_poll_rx` passes on, the
ICMP length and the accumulator of the checksum, and the length of the frames
handed to `net_send`, which have one page behind the header.
-/

namespace UniKernel.Net

open UniKernel.Lib

/-- The packet of a used element is an echo request that is answered. -/
def EchoReceived (s : State) (elem : UsedElem) : Prop :=
  14 ≤ packetLength elem ∧
    etherType s.mem ((s.rxq.desc elem.id).addr + virtioHdrSize) = 0x0800 ∧
      EchoRequest s.mem ((s.rxq.desc elem.id).addr + virtioHdrSize + 14) (packetLength elem - 14)

instance (s : State) (elem : UsedElem) : Decidable (EchoReceived s elem) :=
  inferInstanceAs (Decidable (_ ∧ _ ∧ _))

/-- The IPv4 header of a received packet. -/
def ipOf (s : State) (elem : UsedElem) : Nat := (s.rxq.desc elem.id).addr + virtioHdrSize + 14

/-! ### Replies -/

section Replies

variable {s : State} {elem : UsedElem}

theorem length_arpPacket (opcode : Nat) {senderMac senderIp targetMac targetIp : List UInt8}
    (senderMacLength : senderMac.length = 6) (senderIpLength : senderIp.length = 4)
    (targetMacLength : targetMac.length = 6) (targetIpLength : targetIp.length = 4) :
    (arpPacket opcode senderMac senderIp targetMac targetIp).length = 28 := by
  unfold arpPacket
  simp only [List.length_append, senderMacLength, senderIpLength, targetMacLength, targetIpLength]
  rfl

theorem length_arpFrame {mac : List UInt8} (macLength : mac.length = 6) (mem : Memory)
    (arp srcMac : Nat) : (arpFrame mac mem arp srcMac).length = 42 := by
  unfold arpFrame
  rw [length_ethernetFrame _ _ _ (length_bytesAt _ _ _) macLength,
    length_arpPacket 2 macLength rfl (length_bytesAt _ _ _) (length_bytesAt _ _ _)]

theorem length_gatewayRequest {mac : List UInt8} (macLength : mac.length = 6) :
    (gatewayRequest mac).length = 42 := by
  unfold gatewayRequest
  rw [length_ethernetFrame _ _ _ rfl macLength, length_arpPacket 1 macLength rfl rfl rfl]

theorem length_echoFrame {mac : List UInt8} (macLength : mac.length = 6) (mem : Memory)
    (ip srcMac : Nat) : (echoFrame mac mem ip srcMac).length = 14 + ipLength mem ip := by
  unfold echoFrame
  rw [length_ethernetFrame _ _ _ (length_bytesAt _ _ _) macLength, length_bytesAt]

/-- The reply to an answered echo request is the frame of the rewritten packet. -/
theorem replyTo_of_echo (echo : EchoReceived s elem) :
    s.replyTo elem = some (echoMemory s.mem (ipOf s elem),
      echoFrame s.netMac.toList s.mem (ipOf s elem)
        ((s.rxq.desc elem.id).addr + virtioHdrSize + 6)) := by
  rcases echo with ⟨long, ipv4, request⟩
  have notArp : ¬ etherType s.mem ((s.rxq.desc elem.id).addr + virtioHdrSize) = 0x0806 := by
    rw [ipv4]
    decide
  rw [State.replyTo, if_pos (by omega), ethernetReply, if_neg (by omega), if_neg notArp,
    if_pos ipv4, ipv4Reply, if_pos request]
  rfl

/-- Any other reply is an ARP reply. -/
theorem length_of_replyTo {mem : Memory} {frame : List UInt8} (notEcho : ¬ EchoReceived s elem)
    (isReply : s.replyTo elem = some (mem, frame)) : frame.length = 42 := by
  unfold State.replyTo ethernetReply arpReply ipv4Reply at isReply
  split at isReply
  · split at isReply
    · cases isReply
    · rename_i long
      split at isReply
      · split at isReply
        · cases isReply
          exact length_arpFrame s.netMac.size_toArray _ _ _
        · cases isReply
      · split at isReply
        · rename_i ipv4
          split at isReply
          · rename_i request
            exact absurd ⟨Nat.le_of_not_lt long, ipv4, request⟩ notEcho
          · cases isReply
        · cases isReply
  · cases isReply

/-- Every frame that is passed to `net_send` in answer to a received packet, or by
`arp_request_gateway`, fits behind the header into one page. -/
def SendsFit (s : State) (elem : UsedElem) : Prop :=
  (∀ mem frame, s.replyTo elem = some (mem, frame) → virtioHdrSize + frame.length ≤ 4096) ∧
    virtioHdrSize + (gatewayRequest s.netMac.toList).length ≤ 4096

theorem sendsFit_iff : SendsFit s elem ↔ (EchoReceived s elem → ipLength s.mem (ipOf s elem) ≤ 4072) := by
  have macLength : s.netMac.toList.length = 6 := s.netMac.size_toArray
  have gateway := length_gatewayRequest macLength
  unfold SendsFit
  rw [gateway]
  constructor
  · rintro ⟨fits, -⟩ echo
    have frame := fits _ _ (replyTo_of_echo echo)
    rw [length_echoFrame macLength] at frame
    simp only [virtioHdrSize] at frame
    omega
  · intro short
    refine ⟨?_, by decide⟩
    intro mem frame isReply
    by_cases echo : EchoReceived s elem
    · have small := short echo
      rw [replyTo_of_echo echo] at isReply
      cases isReply
      rw [length_echoFrame macLength]
      simp only [virtioHdrSize]
      omega
    · rw [length_of_replyTo echo isReply]
      decide

end Replies

/-- A received packet is answered by the frame of `replyTo`, and every frame sent
fits into its page if and only if no answered echo request claims more than 4072
bytes. -/
theorem receivePacket_sendsFit_iff (s : State) (elem : UsedElem) :
    (∃ accesses, (receivePacket elem).run s =
      ((), { (s.answer (s.replyTo elem) accesses).2 with
        mem := CString.memset (s.rxq.desc elem.id).addr 0 virtioHdrSize
          (s.answer (s.replyTo elem) accesses).2.mem })) ∧
      (SendsFit s elem ↔ (EchoReceived s elem → ipLength s.mem (ipOf s elem) ≤ 4072)) :=
  ⟨receivePacket_run elem s, sendsFit_iff⟩

/-- A ping of 60 bytes whose total length field is 65535. -/
def longPing : List UInt8 :=
  ethernetFrame [0x52, 0x54, 0, 0x12, 0x34, 0x56] [2, 0, 0, 0, 0, 1] (ntohs 0x0800)
    ([0x45, 0, 0xff, 0xff, 0, 1, 0, 0, 64, 1, 0, 0] ++ [10, 0, 2, 2] ++ myIp ++
      [8, 0, 0, 0, 0x12, 0x34, 0, 1])

def longPinged : State :=
  { cutOffState 60 with
    mem := Memory.storeBytes (fun _ => 0) (cutOffBuffer + virtioHdrSize) longPing }

/-- The reply to that ping does not fit into its page. -/
theorem exists_reply_over_page : (longPinged.rxq.nextUsed).len = 60 ∧
    ¬ SendsFit longPinged longPinged.rxq.nextUsed := by
  refine ⟨by decide, fun fits => ?_⟩
  have echo : EchoReceived longPinged longPinged.rxq.nextUsed := by decide +kernel
  have long : ¬ ipLength longPinged.mem (ipOf longPinged longPinged.rxq.nextUsed) ≤ 4072 := by
    decide +kernel
  exact long (sendsFit_iff.mp fits echo)

/-! ### Subtractions -/

/-- Every length computed for a received packet is the integer it stands for, and
the sum over the ICMP message does not overflow its accumulator. -/
def LengthsExact (s : State) (elem : UsedElem) : Prop :=
  (0 < packetLength elem → (packetLength elem : Int) = elem.len - virtioHdrSize) ∧
    (EchoReceived s elem →
      (icmpLength s.mem (ipOf s elem) : Int) =
          (ipLength s.mem (ipOf s elem) : Int) - ipHeaderLength s.mem (ipOf s elem) ∧
        checksumTotal (echoCleared s.mem (ipOf s elem)) (ipOf s elem + 20)
          (icmpLength s.mem (ipOf s elem)) < 2 ^ 32)

theorem icmpLength_exact_iff (mem : Memory) (ip : Nat) :
    (icmpLength mem ip : Int) = (ipLength mem ip : Int) - ipHeaderLength mem ip ↔
      ipHeaderLength mem ip ≤ ipLength mem ip := by
  have small : ntohs (mem.load (ip + 2) 2) < 2 ^ 16 := u16_lt _
  have field : mem.load ip 1 &&& 0x0F ≤ 0x0F := Nat.and_le_right
  unfold icmpLength ipLength ipHeaderLength u32
  omega

theorem packetLength_exact_iff {elem : UsedElem} (small : elem.len < 2 ^ 32) :
    (0 < packetLength elem → (packetLength elem : Int) = elem.len - virtioHdrSize) ↔
      virtioHdrSize ≤ elem.len := by
  unfold packetLength u32
  simp only [virtioHdrSize]
  omega

/-- The lengths computed for a received packet do not wrap if and only if the
device wrote a whole header and the header length of an answered echo request is
at most its total length. -/
theorem lengthsExact_iff (s : State) {elem : UsedElem} (small : elem.len < 2 ^ 32) :
    LengthsExact s elem ↔ virtioHdrSize ≤ elem.len ∧
      (EchoReceived s elem → ipHeaderLength s.mem (ipOf s elem) ≤ ipLength s.mem (ipOf s elem)) := by
  unfold LengthsExact
  rw [packetLength_exact_iff small]
  apply and_congr_right
  intro header
  apply forall_congr'
  intro echo
  rw [icmpLength_exact_iff]
  apply and_iff_left_of_imp
  intro inside
  have exact := (icmpLength_exact_iff _ _).mpr inside
  have total : ipLength s.mem (ipOf s elem) < 2 ^ 16 := u16_lt _
  exact checksumTotal_lt _ _ (by omega)

theorem lengthsExact_iff_padded :
    LengthsExact longPinged ⟨0, 60⟩ ↔ virtioHdrSize ≤ 60 ∧
      (EchoReceived longPinged ⟨0, 60⟩ →
        ipHeaderLength longPinged.mem (ipOf longPinged ⟨0, 60⟩) ≤
          ipLength longPinged.mem (ipOf longPinged ⟨0, 60⟩)) :=
  lengthsExact_iff longPinged (by decide)

/-- A frame of four bytes is passed on as a packet of almost 4 GiB. -/
theorem exists_length_wraps : (cutOffState 4).rxq.nextUsed = ⟨0, 4⟩ ∧
    ¬ LengthsExact (cutOffState 4) ⟨0, 4⟩ := by
  refine ⟨rfl, fun exact => ?_⟩
  have header := (packetLength_exact_iff (show (UsedElem.mk 0 4).len < 2 ^ 32 by decide)).mp exact.1
  exact absurd header (by decide)

end UniKernel.Net
