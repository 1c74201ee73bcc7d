import UniKernel.Net.Init

/-!
Owns what the driver does with frames of its own that come back to it. A reply is
never answered again, except one that carries a bare IPv4 header from `my_ip`: the
ICMP type is then read from what the buffer held before. So without such packets
a wire that loops, repeats and reorders the driver's frames makes it send no more
than the frames from outside ask for.
-/

namespace UniKernel.Net

open UniKernel.Lib

variable {mem mem' : Memory} {mac frame reply : List UInt8} {s : State} {elem : UsedElem}

/-- Where `ethernet_handle_packet` finds the packet of a used element. -/
def State.packet (s : State) (elem : UsedElem) : Nat := (s.rxq.desc elem.id).addr + virtioHdrSize

/-- Whenever and wherever it is received, the frame is not answered. -/
def NeverAnswered (frame : List UInt8) : Prop :=
  ∀ s elem, Delivered s elem virtioHdrSize frame → s.replyTo elem = none

/-- An IPv4 packet from `my_ip` that its total length ends behind the fixed header. -/
def BareFromMyIp (mem : Memory) (packet : Nat) : Prop :=
  etherType mem packet = 0x0800 ∧ ipLength mem (packet + 14) = 20 ∧
    ∀ i, i < 4 → mem (packet + 14 + 12 + i) = myIp.getD i 0

instance (mem : Memory) (packet : Nat) : Decidable (BareFromMyIp mem packet) :=
  inferInstanceAs (Decidable (_ ∧ _ ∧ ∀ i, i < 4 → _))

/-! ### Fields of a delivered frame -/

theorem Delivered.packetLength_eq (delivered : Delivered s elem virtioHdrSize frame)
    (short : frame.length < 2 ^ 31) : packetLength elem = frame.length := by
  unfold packetLength u32
  rw [delivered.len]
  simp only [virtioHdrSize]
  omega

theorem Delivered.byte (delivered : Delivered s elem virtioHdrSize frame) {i : Nat}
    (inside : i < frame.length) : frame[i]? = some (s.mem (s.packet elem + i)) := by
  rw [← getElem?_bytesAt s.mem (s.packet elem) inside]
  exact congrArg (fun bytes => bytes[i]?) delivered.bytes.symm

/-- A 16-bit field is read back as it was written. -/
theorem load_of_bytes16 {addr value : Nat} (small : value < 2 ^ 16)
    (bytes : bytesAt mem addr 2 = bytes16 value) : mem.load addr 2 = value := by
  have both : [mem addr, mem (addr + 1)] = [UInt8.ofNat value, UInt8.ofNat (value / 256)] := bytes
  obtain ⟨low, high⟩ := List.cons_eq_cons.mp both
  have high := (List.cons_eq_cons.mp high).1
  simp only [Memory.load, low, high, UInt8.toNat_ofNat']
  omega

/-- A field of a delivered frame. -/
theorem Delivered.field (delivered : Delivered s elem virtioHdrSize frame) {offset value : Nat}
    (inside : offset + 2 ≤ frame.length) (small : value < 2 ^ 16)
    (isField : (frame.drop offset).take 2 = bytes16 value) :
    s.mem.load (s.packet elem + offset) 2 = value := by
  apply load_of_bytes16 small
  rw [← isField, ← slice_bytesAt s.mem (s.packet elem) offset inside]
  exact congrArg (fun bytes => (bytes.drop offset).take 2) delivered.bytes

/-! ### An ARP reply -/

theorem arpFrame_fields (mac : List UInt8) (mem : Memory) (arp srcMac : Nat)
    (macLength : mac.length = 6) :
    ((arpFrame mac mem arp srcMac).drop 12).take 2 = bytes16 (ntohs 0x0806) ∧
      ((arpFrame mac mem arp srcMac).drop 20).take 2 = bytes16 (ntohs 2) := by
  have addressed : (bytesAt mem srcMac 6).length = 6 := length_bytesAt _ _ _
  unfold arpFrame
  refine ⟨(ethernetFrame_header _ _ _ addressed macLength).2.2, ?_⟩
  rw [drop_ethernetFrame _ _ _ addressed macLength 6]
  rfl

theorem replyTo_of_notRequest (isArp : etherType s.mem (s.packet elem) = 0x0806)
    (notRequest : ¬ ArpRequest s.mem (s.packet elem + 14) (packetLength elem - 14)) :
    s.replyTo elem = none := by
  unfold State.packet at isArp notRequest
  unfold State.replyTo ethernetReply
  rw [if_pos isArp, arpReply, if_neg notRequest]
  split
  · split <;> rfl
  · rfl

/-- An ARP reply is no request. -/
theorem arpFrame_neverAnswered (mac : List UInt8) (mem : Memory) (arp srcMac : Nat)
    (macLength : mac.length = 6) : NeverAnswered (arpFrame mac mem arp srcMac) := by
  intro s elem delivered
  have length := length_arpFrame macLength mem arp srcMac
  obtain ⟨ethertype, opcode⟩ := arpFrame_fields mac mem arp srcMac macLength
  have isArp : etherType s.mem (s.packet elem) = 0x0806 := by
    unfold etherType
    rw [delivered.field (by omega) (by decide) ethertype]
    rfl
  apply replyTo_of_notRequest isArp
  intro request
  have isReply := delivered.field (by omega) (by decide) opcode
  have isRequest := request.2.1
  rw [Nat.add_assoc, isReply] at isRequest
  exact absurd isRequest (by decide)

/-! ### An echo reply -/

section Echo

variable {ip srcMac : Nat}

/-- A delivered echo reply lies in memory as `ipv4_handle` left it. -/
theorem Delivered.echo (delivered : Delivered s elem virtioHdrSize (echoFrame mac mem ip srcMac))
    (macLength : mac.length = 6) {i : Nat} (inside : i < ipLength mem ip) :
    s.mem (s.packet elem + 14 + i) = echoMemory mem ip (ip + i) := by
  have length := length_echoFrame macLength mem ip srcMac
  have here := delivered.byte (i := 14 + i) (by omega)
  rw [getElem?_echoFrame macLength inside, Option.some_inj, ← Nat.add_assoc] at here
  exact here.symm

/-- The packet of a delivered echo reply is IPv4, of the length that it has. -/
theorem Delivered.echoReply (delivered : Delivered s elem virtioHdrSize (echoFrame mac mem ip srcMac))
    (macLength : mac.length = 6) :
    s.replyTo elem = ipv4Reply s.netMac.toList s.mem (s.packet elem + 14) (ipLength mem ip)
      (s.packet elem + 6) := by
  have length : (echoFrame mac mem ip srcMac).length = 14 + ipLength mem ip :=
    length_echoFrame macLength mem ip srcMac
  have small : ipLength mem ip < 2 ^ 16 := u16_lt _
  have received : packetLength elem = 14 + ipLength mem ip := by
    rw [delivered.packetLength_eq (by omega), length]
  have ethertype := (ethernetFrame_header (bytesAt (echoMemory mem ip) srcMac 6)
    (bytesAt (echoMemory mem ip) ip (ipLength mem ip)) (ntohs 0x0800) (length_bytesAt _ _ _)
    macLength).2.2
  have isIpv4 : etherType s.mem (s.packet elem) = 0x0800 := by
    unfold etherType
    rw [delivered.field (by omega) (by decide) ethertype]
    rfl
  have offset : 14 + ipLength mem ip - 14 = ipLength mem ip := Nat.add_sub_cancel_left _ _
  unfold State.replyTo ethernetReply
  rw [received, if_pos (by omega), if_neg (by omega), offset]
  change (if etherType s.mem (s.packet elem) = 0x0806 then _ else
    if etherType s.mem (s.packet elem) = 0x0800 then _ else _) = _
  rw [isIpv4, if_neg (by decide), if_pos rfl]
  rfl

/-- An echo reply is not answered unless it ends behind the fixed header. -/
theorem echoFrame_neverAnswered (macLength : mac.length = 6)
    (notBare : ipLength mem ip ≠ 20 ∨ ¬ ∀ i, i < 4 → mem (ip + 12 + i) = myIp.getD i 0) :
    NeverAnswered (echoFrame mac mem ip srcMac) := by
  intro s elem delivered
  rw [delivered.echoReply macLength, ipv4Reply, if_neg]
  intro again
  obtain ⟨long, toMyIp, -, echo⟩ := again
  obtain notTwenty | notMine := notBare
  · have isZero := delivered.echo macLength (i := 20) (by omega)
    rw [echoMemory_type] at isZero
    rw [Memory.load, Memory.load, isZero] at echo
    cases echo
  · apply notMine
    intro i inside
    have destination := delivered.echo macLength (i := 16 + i) (by omega)
    rw [← Nat.add_assoc, ← Nat.add_assoc, echoMemory_destination mem inside] at destination
    rw [← destination]
    exact toMyIp i inside

/-- The buffer of a used element once the device has put `frame` there, with the
byte 8 behind it. -/
def State.refilled (s : State) (elem : UsedElem) (frame : List UInt8) : State :=
  { s with
    mem := Memory.storeBytes (Function.update s.mem (s.packet elem + frame.length) 8)
      (s.packet elem) frame }

theorem refilled_delivered (s : State) (elem : UsedElem) (frame : List UInt8) :
    Delivered (s.refilled elem frame) ⟨elem.id, virtioHdrSize + frame.length⟩ virtioHdrSize frame :=
  ⟨rfl, bytesAt_storeBytes _ _ _⟩

/-- Behind a bare header the type is what the buffer held before: here 8. -/
theorem echoFrame_answered (s : State) (elem : UsedElem) (macLength : mac.length = 6)
    (icmp : mem.load (ip + 9) 1 = 1) (bare : ipLength mem ip = 20)
    (mine : ∀ i, i < 4 → mem (ip + 12 + i) = myIp.getD i 0) :
    ¬ NeverAnswered (echoFrame mac mem ip srcMac) := by
  intro never
  have delivered := refilled_delivered s elem (echoFrame mac mem ip srcMac)
  have length : (echoFrame mac mem ip srcMac).length = 34 := by
    rw [length_echoFrame macLength, bare]
  have unanswered := never _ _ delivered
  rw [delivered.echoReply macLength, ipv4Reply, bare, if_pos] at unanswered
  · cases unanswered
  refine ⟨Nat.le_refl 20, ?_, ?_, ?_⟩
  · intro i inside
    have destination := delivered.echo macLength (i := 16 + i) (by omega)
    rw [← Nat.add_assoc, ← Nat.add_assoc, echoMemory_destination mem inside, mine i inside]
      at destination
    exact destination
  · have protocol := delivered.echo macLength (i := 9) (by omega)
    rw [echoMemory_outside mem (by omega) (by omega)] at protocol
    rw [Memory.load, Memory.load, protocol]
    exact icmp
  · have stale : (s.refilled elem (echoFrame mac mem ip srcMac)).mem (s.packet elem + 34) = 8 := by
      unfold State.refilled
      dsimp only
      rw [Memory.storeBytes, if_neg (by omega), length, Function.update_self]
    rw [Memory.load, Memory.load]
    exact congrArg (fun byte : UInt8 => byte.toNat + 256 * 0) stale

end Echo

/-- `arp_request_gateway` asks for another address. -/
theorem gatewayRequest_neverAnswered (macLength : mac.length = 6) : NeverAnswered (gatewayRequest mac) := by
  intro s elem delivered
  have length := length_gatewayRequest macLength
  have ethertype := (ethernetFrame_header [0xff, 0xff, 0xff, 0xff, 0xff, 0xff]
    (arpPacket 1 mac myIp [0, 0, 0, 0, 0, 0] [10, 0, 2, 2]) (ntohs 0x0806) rfl macLength).2.2
  have last : (gatewayRequest mac)[41]? = some 2 := by
    simp [gatewayRequest, ethernetFrame, arpPacket, bytes16, myIp, macLength]
  have asked : s.mem (s.packet elem + 41) = 2 := by
    rw [delivered.byte (by omega), Option.some_inj] at last
    exact last
  have isArp : etherType s.mem (s.packet elem) = 0x0806 := by
    unfold etherType
    rw [delivered.field (by omega) (by decide) ethertype]
    rfl
  exact replyTo_of_notRequest isArp fun request => by
    have mine := request.2.2 3 (by decide)
    rw [Nat.add_assoc, Nat.add_assoc, asked] at mine
    exact absurd mine (by decide)

/-- The two packets that are answered. -/
theorem replyTo_cases (answered : s.replyTo elem = some (mem, reply)) :
    (etherType s.mem (s.packet elem) = 0x0806 ∧
      reply = arpFrame s.netMac.toList s.mem (s.packet elem + 14) (s.packet elem + 6)) ∨
    (etherType s.mem (s.packet elem) = 0x0800 ∧
      EchoRequest s.mem (s.packet elem + 14) (packetLength elem - 14) ∧
      reply = echoFrame s.netMac.toList s.mem (s.packet elem + 14) (s.packet elem + 6)) := by
  unfold State.replyTo ethernetReply arpReply ipv4Reply at answered
  split at answered
  · split at answered
    · cases answered
    · split at answered
      · next isArp =>
          split at answered
          · cases answered
            exact .inl ⟨isArp, rfl⟩
          · cases answered
      · split at answered
        · next isIpv4 =>
            split at answered
            · next request =>
                cases answered
                exact .inr ⟨isIpv4, request, rfl⟩
            · cases answered
        · cases answered
  · cases answered

/-- A reply is never answered, exactly unless the packet it answers is a bare
header from `my_ip`. -/
theorem reply_neverAnswered_iff (answered : s.replyTo elem = some (mem, reply)) :
    NeverAnswered reply ↔ ¬ BareFromMyIp s.mem (s.packet elem) := by
  have macLength : s.netMac.toList.length = 6 := s.netMac.size_toArray
  obtain ⟨isArp, rfl⟩ | ⟨isIpv4, request, rfl⟩ := replyTo_cases answered
  · constructor
    · intro _ bare
      have isIpv4 := isArp.symm.trans bare.1
      exact absurd isIpv4 (by decide)
    · exact fun _ => arpFrame_neverAnswered _ _ _ _ macLength
  · constructor
    · intro never bare
      exact echoFrame_answered s elem macLength request.2.2.1 bare.2.1 bare.2.2 never
    · intro notBare
      apply echoFrame_neverAnswered macLength
      by_contra both
      obtain ⟨isTwenty, mine⟩ := not_or.mp both
      exact notBare ⟨isIpv4, not_not.mp isTwenty, not_not.mp mine⟩

/-- The ping of `oddPing` in the first buffer. -/
def pingElem : UsedElem := ⟨0, virtioHdrSize + oddPing.length⟩

def pingMemory : Memory := (pinged.refilled pingElem oddPing).mem

/-- The reply to the ping is not answered. -/
theorem reply_neverAnswered_iff_ping : ∃ mem reply,
    State.replyTo { pinged with mem := pingMemory } pingElem = some (mem, reply) ∧
      (NeverAnswered reply ↔
        ¬ BareFromMyIp pingMemory (State.packet { pinged with mem := pingMemory } pingElem)) := by
  have echo : EchoReceived { pinged with mem := pingMemory } pingElem := by decide +kernel
  exact ⟨_, _, replyTo_of_echo echo, reply_neverAnswered_iff (replyTo_of_echo echo)⟩

/-! ### A wire that gives frames back -/

/-- The driver and the frames it has passed to `net_send`. -/
structure Wire where
  net : State
  sent : List (List UInt8)

/-- A packet comes in, with `mem` as the device left memory. -/
def Wire.receive (w : Wire) (mem : Memory) (elem : UsedElem) : Wire :=
  let s := { w.net with mem := mem }
  { net := ((receivePacket elem).run s).2
    sent := w.sent ++ ((s.replyTo elem).map Prod.snd).toList }

/-- A frame from outside, a frame that the driver sent before, or a call of
`arp_request_gateway`. -/
inductive WireEvent where
  | outside (mem : Memory) (elem : UsedElem)
  | own (mem : Memory) (elem : UsedElem)
  | request

def WireEvent.isOwn : WireEvent → Bool
  | .own _ _ => true
  | _ => false

inductive WireStep : Wire → WireEvent → Wire → Prop where
  | outside {w : Wire} (mem : Memory) (elem : UsedElem) :
      WireStep w (.outside mem elem) (w.receive mem elem)
  | own {w : Wire} {mem : Memory} {elem : UsedElem} {frame : List UInt8} (wasSent : frame ∈ w.sent)
      (delivered : Delivered { w.net with mem := mem } elem virtioHdrSize frame) :
      WireStep w (.own mem elem) (w.receive mem elem)
  | request {w : Wire} :
      WireStep w .request
        { net := (arpRequestGateway.run w.net).2
          sent := w.sent ++ [gatewayRequest w.net.netMac.toList] }

/-- A frame from outside is no bare header from `my_ip`. -/
def NotBare (transition : Transition Wire WireEvent) : Prop :=
  match transition.label with
  | .outside mem elem =>
      ¬ BareFromMyIp mem (State.packet { transition.source.net with mem := mem } elem)
  | _ => True

/-- How often the transmit queue was notified. -/
def Wire.transmitted (w : Wire) : Nat := w.net.notified.count 1

/-- What was sent is never answered. -/
def Wire.Settled (w : Wire) : Prop := ∀ frame ∈ w.sent, NeverAnswered frame

/-- The frames that the step may send. -/
def WireEvent.allowed (event : WireEvent) : Nat := (!event.isOwn).toNat

theorem count_netSend (frame : List UInt8) (s : State) :
    ((netSend frame).run s).2.notified.count 1 ≤ s.notified.count 1 + 1 := by
  by_cases available : (Pmm.pmmAllocFrame s.pmm).1 = 0
  · unfold netSend
    simp only [available, StateT.run_bind, StateT.run_get, pure_bind]
    exact Nat.le_succ _
  · rw [(pmm_netSend frame available).2, List.count_append]
    exact Nat.le_refl _

/-- A packet makes the driver transmit one frame at most, and none without a reply. -/
theorem Wire.transmitted_receive (w : Wire) (mem : Memory) (elem : UsedElem) :
    (w.receive mem elem).transmitted ≤ w.transmitted +
      if State.replyTo { w.net with mem := mem } elem = none then 0 else 1 := by
  obtain ⟨accesses, handled⟩ := receivePacket_run elem { w.net with mem := mem }
  unfold Wire.transmitted Wire.receive
  dsimp only
  rw [handled]
  cases answer : State.replyTo { w.net with mem := mem } elem with
  | none =>
      rw [if_pos rfl]
      exact Nat.le_refl _
  | some reply =>
      rw [if_neg (by simp)]
      exact count_netSend _ _

theorem Wire.Settled.step {w w' : Wire} {event : WireEvent} (settled : w.Settled)
    (taken : WireStep w event w') (notBare : NotBare ⟨w, event, w'⟩) :
    w'.Settled ∧ w'.sent.length ≤ w.sent.length + event.allowed ∧
      w'.transmitted ≤ w.transmitted + event.allowed := by
  cases taken with
  | outside mem elem =>
      refine ⟨?_, ?_, (w.transmitted_receive mem elem).trans ?_⟩
      · intro frame member
        obtain old | new := List.mem_append.mp member
        · exact settled frame old
        · obtain ⟨⟨_, reply⟩, answered, rfl⟩ :=
            Option.map_eq_some_iff.mp (Option.mem_toList.mp new)
          exact (reply_neverAnswered_iff answered).mpr notBare
      · rw [Wire.receive, List.length_append]
        apply Nat.add_le_add_left
        exact Option.length_toList_le
      · apply Nat.add_le_add_left
        split
        · exact Nat.zero_le _
        · exact Nat.le_refl _
  | @own mem elem frame wasSent delivered =>
      have unanswered := settled frame wasSent _ elem delivered
      have transmitted := w.transmitted_receive mem elem
      rw [if_pos unanswered] at transmitted
      have sameSent : (w.receive mem elem).sent = w.sent := by
        rw [Wire.receive, unanswered]
        exact List.append_nil _
      rw [Wire.Settled, sameSent]
      exact ⟨settled, Nat.le_refl _, transmitted⟩
  | request =>
      refine ⟨?_, ?_, count_netSend _ _⟩
      · intro frame member
        obtain old | new := List.mem_append.mp member
        · exact settled frame old
        · rw [List.mem_singleton.mp new]
          exact gatewayRequest_neverAnswered w.net.netMac.size_toArray
      · rw [List.length_append]
        exact Nat.le_refl _

/-- However often and in whatever order the wire gives frames of the driver back,
these frames make it send nothing: it passes to `net_send`, and transmits, at most
one frame for each frame from outside and each call of `arp_request_gateway`. No frame
from outside is one whose answer the driver would answer itself. -/
theorem no_reply_storm {first last : Wire} {path : List (Transition Wire WireEvent)}
    (nothingSent : first.sent = []) (run : Execution WireStep first path last)
    (notBare : ∀ transition ∈ path, NotBare transition) :
    (last.sent.length ≤ path.countP fun transition => !transition.label.isOwn) ∧
      (last.transmitted ≤ first.transmitted +
        path.countP fun transition => !transition.label.isOwn) ∧
      ∀ transition ∈ path, transition.label.isOwn = true →
        transition.target.sent.length ≤ transition.source.sent.length ∧
          transition.target.transmitted ≤ transition.source.transmitted := by
  have settledStart : first.Settled := by
    intro frame wasSent
    rw [nothingSent] at wasSent
    cases wasSent
  have settled := run.invariant_at_transition NotBare settledStart
    (fun _ _ _ settled taken notBare => (settled.step taken notBare).1) notBare
  have bounds : (∀ transition ∈ path, transition.target.sent.length ≤
      transition.source.sent.length + transition.label.allowed ∧
      transition.target.transmitted ≤ transition.source.transmitted + transition.label.allowed) := by
    intro transition member
    exact ((settled transition member).1.step (run.step_of_mem member) (notBare transition member)).2
  refine ⟨?_, run.measure_le_countP fun transition member => (bounds transition member).2, ?_⟩
  · have sent := run.measure_le_countP (f := fun w => w.sent.length)
      fun transition member => (bounds transition member).1
    rw [nothingSent, List.length_nil, Nat.zero_add] at sent
    exact sent
  · intro transition member isOwn
    have both := bounds transition member
    rw [WireEvent.allowed, isOwn] at both
    exact both

/-- A ping comes in, and its reply comes back. -/
theorem no_reply_storm_one_ping : ∃ (path : List (Transition Wire WireEvent)) (last : Wire),
    Execution WireStep ⟨pinged, []⟩ path last ∧ path.length = 2 ∧
      last.sent.length ≤ 1 ∧ last.transmitted ≤ pinged.notified.count 1 + 1 := by
  have echo : EchoReceived { pinged with mem := pingMemory } pingElem := by decide +kernel
  have answered := replyTo_of_echo echo
  obtain ⟨reply, isReply⟩ : ∃ reply, State.replyTo { pinged with mem := pingMemory } pingElem =
      some reply := ⟨_, answered⟩
  have wasSent : reply.2 ∈ (Wire.receive ⟨pinged, []⟩ pingMemory pingElem).sent := by
    rw [Wire.receive, isReply]
    exact List.mem_singleton.mpr rfl
  have first : WireStep ⟨pinged, []⟩ (.outside pingMemory pingElem)
      (Wire.receive ⟨pinged, []⟩ pingMemory pingElem) := .outside _ _
  have run := (Execution.single first).snoc (.own wasSent
    (refilled_delivered (Wire.receive ⟨pinged, []⟩ pingMemory pingElem).net pingElem reply.2))
  have notBare : ¬ BareFromMyIp pingMemory (State.packet { pinged with mem := pingMemory } pingElem) := by
    decide +kernel
  have bounds := no_reply_storm rfl run (List.forall_mem_append.mpr
    ⟨List.forall_mem_singleton.mpr notBare, List.forall_mem_singleton.mpr trivial⟩)
  exact ⟨_, _, run, rfl, bounds.1, bounds.2.1⟩

end UniKernel.Net
