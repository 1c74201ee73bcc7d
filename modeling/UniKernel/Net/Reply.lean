import UniKernel.Net.Accesses
import UniKernel.Net.Checksum
import UniKernel.Net.Irq

/-!
Owns the reply to a received packet as a function of memory: which packets the
handlers answer, what they rewrite in place and the frame they pass to
`net_send`. Every handler either records accesses only, or is that one
`net_send`.
-/

namespace UniKernel.Net

open UniKernel.Lib

/-- The state with other memory and other recorded accesses. -/
def State.withMem (s : State) (mem : Memory) (accesses : List Nat) : State :=
  { s with mem := mem, accesses := accesses }

/-- What a handler does: with a reply, it leaves memory `mem` and sends `frame`. -/
def State.answer (s : State) (reply : Option (Memory × List UInt8)) (accesses : List Nat) :
    Unit × State :=
  match reply with
  | none => ((), s.withMem s.mem accesses)
  | some (mem, frame) => (netSend frame).run (s.withMem mem accesses)

/-! ### ARP -/

/-- `arp_handle` answers: a request for `my_ip`. -/
def ArpRequest (mem : Memory) (arp len : Nat) : Prop :=
  28 ≤ len ∧ ntohs (mem.load (arp + 6) 2) = 1 ∧ ∀ i, i < 4 → mem (arp + 24 + i) = myIp.getD i 0

instance (mem : Memory) (arp len : Nat) : Decidable (ArpRequest mem arp len) :=
  inferInstanceAs (Decidable (_ ∧ _ ∧ ∀ i, i < 4 → _))

/-- The frame `arp_handle` sends. -/
def arpFrame (mac : List UInt8) (mem : Memory) (arp srcMac : Nat) : List UInt8 :=
  ethernetFrame (bytesAt mem srcMac 6) mac (ntohs 0x0806)
    (arpPacket 2 mac myIp (bytesAt mem (arp + 8) 6) (bytesAt mem (arp + 14) 4))

def arpReply (mac : List UInt8) (mem : Memory) (arp len srcMac : Nat) :
    Option (Memory × List UInt8) :=
  if ArpRequest mem arp len then some (mem, arpFrame mac mem arp srcMac) else none

/-- The frame `arp_request_gateway` sends. -/
def gatewayRequest (mac : List UInt8) : List UInt8 :=
  ethernetFrame [0xff, 0xff, 0xff, 0xff, 0xff, 0xff] mac (ntohs 0x0806)
    (arpPacket 1 mac myIp [0, 0, 0, 0, 0, 0] [10, 0, 2, 2])

def arpRequestGateway : NetM Unit := do
  let netMac := (← get).netMac.toList
  netSend (gatewayRequest netMac)

/-! ### ICMP -/

/-- `ipv4_handle` answers: protocol ICMP for `my_ip`, and 8 behind the fixed header. -/
def EchoRequest (mem : Memory) (ip len : Nat) : Prop :=
  20 ≤ len ∧ (∀ i, i < 4 → mem (ip + 16 + i) = myIp.getD i 0) ∧ mem.load (ip + 9) 1 = 1 ∧
    mem.load (ip + 20) 1 = 8

instance (mem : Memory) (ip len : Nat) : Decidable (EchoRequest mem ip len) :=
  inferInstanceAs (Decidable (_ ∧ (∀ i, i < 4 → _) ∧ _ ∧ _))

/-- Type and checksum field are zero. -/
def echoCleared (mem : Memory) (ip : Nat) : Memory :=
  (mem.store (ip + 20) 1 0).store (ip + 20 + 2) 2 0

/-- The checksum of the reply is in its field. -/
def echoMarked (mem : Memory) (ip : Nat) : Memory :=
  (echoCleared mem ip).store (ip + 20 + 2) 2
    (ntohs (checksumOf (echoCleared mem ip) (ip + 20) (icmpLength mem ip)))

/-- The packet when `ipv4_handle` copies it behind the new Ethernet header. -/
def echoMemory (mem : Memory) (ip : Nat) : Memory :=
  ((echoMarked mem ip).storeBytes (ip + 12) myIp).storeBytes (ip + 16)
    (bytesAt (echoMarked mem ip) (ip + 12) 4)

/-- `ntohs(ip->length)` -/
def ipLength (mem : Memory) (ip : Nat) : Nat := ntohs (mem.load (ip + 2) 2)

/-- The frame `ipv4_handle` sends. -/
def echoFrame (mac : List UInt8) (mem : Memory) (ip srcMac : Nat) : List UInt8 :=
  ethernetFrame (bytesAt (echoMemory mem ip) srcMac 6) mac (ntohs 0x0800)
    (bytesAt (echoMemory mem ip) ip (ipLength mem ip))

def ipv4Reply (mac : List UInt8) (mem : Memory) (ip len srcMac : Nat) :
    Option (Memory × List UInt8) :=
  if EchoRequest mem ip len then some (echoMemory mem ip, echoFrame mac mem ip srcMac) else none

/-! ### Ethernet and the receive queue -/

/-- The EtherType of a packet. -/
def etherType (mem : Memory) (packet : Nat) : Nat := ntohs (mem.load (packet + 12) 2)

def ethernetReply (mac : List UInt8) (mem : Memory) (packet len : Nat) :
    Option (Memory × List UInt8) :=
  if len < 14 then none
  else if etherType mem packet = 0x0806 then
    arpReply mac mem (packet + 14) (len - 14) (packet + 6)
  else if etherType mem packet = 0x0800 then
    ipv4Reply mac mem (packet + 14) (len - 14) (packet + 6)
  else none

/-- The length `net_poll_rx` passes on for a used element. -/
def packetLength (elem : UsedElem) : Nat := u32 (2 ^ 32 - virtioHdrSize + elem.len)

/-- The reply to the packet of a used element. -/
def State.replyTo (s : State) (elem : UsedElem) : Option (Memory × List UInt8) :=
  if packetLength elem > 0 then
    ethernetReply s.netMac.toList s.mem ((s.rxq.desc elem.id).addr + virtioHdrSize)
      (packetLength elem)
  else none

/-! ### The handlers -/

section Handlers

variable {ip srcMac : Nat}

theorem load_echoCleared_header (mem : Memory) {other width : Nat} (header : other + width ≤ ip + 20) :
    (echoCleared mem ip).load other width = mem.load other width := by
  unfold echoCleared
  rw [Memory.load_store_disjoint _ (by omega), Memory.load_store_disjoint _ (by omega)]

theorem load_echoMemory_header (mem : Memory) {other width : Nat} (header : other + width ≤ ip + 12) :
    (echoMemory mem ip).load other width = mem.load other width := by
  unfold echoMemory echoMarked
  rw [Memory.load_storeBytes_disjoint _ (by omega), Memory.load_storeBytes_disjoint _ (by omega),
    Memory.load_store_disjoint _ (by omega), load_echoCleared_header _ (by omega)]

theorem echoReply_run (ip srcMac : Nat) (s : State) :
    ∃ accesses, (echoReply ip (ip + 20) srcMac).run s =
      s.answer (some (echoMemory s.mem ip, echoFrame s.netMac.toList s.mem ip srcMac)) accesses := by
  have length : (echoCleared s.mem ip).load (ip + 2) 2 = s.mem.load (ip + 2) 2 :=
    load_echoCleared_header _ (by omega)
  have versionIhl : (echoCleared s.mem ip).load ip 1 = s.mem.load ip 1 :=
    load_echoCleared_header _ (by omega)
  have lengthAgain : (echoMemory s.mem ip).load (ip + 2) 2 = s.mem.load (ip + 2) 2 :=
    load_echoMemory_header _ (by omega)
  have known : checksumOf (echoCleared s.mem ip) (ip + 20) (icmpLength s.mem ip) =
      checksumOf (echoCleared s.mem ip) (ip + 20) (icmpLength (echoCleared s.mem ip) ip) := by
    unfold icmpLength
    rw [length, versionIhl]
  unfold echoReply
  rw [run_bind_of_eq (run_write8 _ _ _), run_bind_of_eq (run_write16 _ _ _),
    run_bind_of_eq (run_read16 _ _), run_bind_of_eq (run_read8 _ _),
    run_bind_of_eq (calculateChecksum_run _ _ _), run_bind_of_eq (run_write16 _ _ _),
    run_bind_of_eq (run_readBytes _ _ _), run_bind_of_eq (run_writeBytes _ _ _),
    run_bind_of_eq (run_writeBytes _ _ _), run_bind_of_eq (run_read16 _ _),
    run_bind_of_eq (run_readBytes _ _ _), run_bind_of_eq (run_readBytes _ _ _), run_get_bind]
  unfold State.answer echoFrame ipLength
  dsimp only
  rw [← lengthAgain]
  unfold echoMemory echoMarked
  rw [known]
  exact ⟨_, rfl⟩

theorem ipv4Handle_run (ip len srcMac : Nat) (s : State) :
    ∃ accesses, (ipv4Handle ip len srcMac).run s =
      s.answer (ipv4Reply s.netMac.toList s.mem ip len srcMac) accesses := by
  unfold ipv4Handle ipv4Reply
  by_cases short : len < ipv4HdrSize
  · rw [if_pos short, if_neg fun request : EchoRequest s.mem ip len =>
      absurd request.1 (Nat.not_le_of_lt short)]
    exact ⟨s.accesses, rfl⟩
  · have long : 20 ≤ len := Nat.le_of_not_lt short
    obtain ⟨order, count, -, compared, equal, -⟩ := memcmp_run (ip + 16) myIp s
    rw [if_neg short, run_bind_of_eq compared]
    by_cases mine : order = 0
    · have toMyIp := equal.mp mine
      rw [if_neg (not_not.mpr mine), run_bind_of_eq (run_read8 _ _), mem_hasRead]
      by_cases icmp : s.mem.load (ip + 9) 1 = 1
      · rw [if_neg (not_not.mpr icmp)]
        dsimp only [ipv4HdrSize]
        rw [run_bind_of_eq (run_read8 _ _), mem_hasRead, mem_hasRead]
        by_cases echo : s.mem.load (ip + 20) 1 = 8
        · rw [if_neg (not_not.mpr echo), if_pos (show EchoRequest s.mem ip len from ⟨long, toMyIp, icmp, echo⟩)]
          exact echoReply_run ip srcMac (((s.hasRead _ _).hasRead _ _).hasRead _ _)
        · rw [if_pos echo, if_neg fun request : EchoRequest s.mem ip len => echo request.2.2.2]
          exact ⟨_, rfl⟩
      · rw [if_pos icmp, if_neg fun request : EchoRequest s.mem ip len => icmp request.2.2.1]
        exact ⟨_, rfl⟩
    · rw [if_pos mine, if_neg fun request : EchoRequest s.mem ip len => mine (equal.mpr request.2.1)]
      exact ⟨_, rfl⟩

theorem arpHandle_run (arp len srcMac : Nat) (s : State) :
    ∃ accesses, (arpHandle arp len srcMac).run s =
      s.answer (arpReply s.netMac.toList s.mem arp len srcMac) accesses := by
  unfold arpHandle arpReply
  by_cases short : len < arpPacketSize
  · rw [if_pos short, if_neg fun asked : ArpRequest s.mem arp len =>
      absurd asked.1 (Nat.not_le_of_lt short)]
    exact ⟨s.accesses, rfl⟩
  · have long : 28 ≤ len := Nat.le_of_not_lt short
    rw [if_neg short, run_bind_of_eq (run_read16 _ _)]
    dsimp only
    by_cases request : ntohs (s.mem.load (arp + 6) 2) = 1
    · obtain ⟨order, count, -, compared, equal, -⟩ := memcmp_run (arp + 24) myIp (s.hasRead (arp + 6) 2)
      rw [if_neg (not_not.mpr request), run_bind_of_eq compared]
      by_cases mine : order = 0
      · rw [if_neg (not_not.mpr mine), if_pos (show ArpRequest s.mem arp len from ⟨long, request, equal.mp mine⟩),
          run_bind_of_eq (run_readBytes _ _ _), run_bind_of_eq (run_readBytes _ _ _),
          run_bind_of_eq (run_readBytes _ _ _), run_get_bind]
        exact ⟨_, rfl⟩
      · rw [if_pos mine, if_neg fun asked : ArpRequest s.mem arp len => mine (equal.mpr asked.2.2)]
        exact ⟨_, rfl⟩
    · rw [if_pos request, if_neg fun asked : ArpRequest s.mem arp len => request asked.2.1]
      exact ⟨_, rfl⟩

theorem ethernetHandlePacket_run (packet len : Nat) (s : State) :
    ∃ accesses, (ethernetHandlePacket packet len).run s =
      s.answer (ethernetReply s.netMac.toList s.mem packet len) accesses := by
  unfold ethernetHandlePacket ethernetReply etherType
  by_cases short : len < ethernetHdrSize
  · rw [if_pos short, if_pos (show len < 14 from short)]
    exact ⟨s.accesses, rfl⟩
  · rw [if_neg short, if_neg (show ¬ len < 14 from short), run_bind_of_eq (run_read16 _ _)]
    dsimp only [ethernetHdrSize]
    by_cases arp : ntohs (s.mem.load (packet + 12) 2) = 0x0806
    · rw [if_pos arp, if_pos arp]
      exact arpHandle_run _ _ _ (s.hasRead _ _)
    · rw [if_neg arp, if_neg arp]
      by_cases ipv4 : ntohs (s.mem.load (packet + 12) 2) = 0x0800
      · rw [if_pos ipv4, if_pos ipv4]
        exact ipv4Handle_run _ _ _ (s.hasRead _ _)
      · rw [if_neg ipv4, if_neg ipv4]
        exact ⟨_, rfl⟩

/-- A received packet is answered by one `net_send`, or none; then the receive
header is cleared. -/
theorem receivePacket_run (elem : UsedElem) (s : State) :
    ∃ accesses, (receivePacket elem).run s =
      ((), { (s.answer (s.replyTo elem) accesses).2 with
        mem := CString.memset (s.rxq.desc elem.id).addr 0 virtioHdrSize
          (s.answer (s.replyTo elem) accesses).2.mem }) := by
  unfold receivePacket State.replyTo
  rw [run_get_bind]
  unfold packetLength
  by_cases nonempty : u32 (2 ^ 32 - virtioHdrSize + elem.len) > 0
  · obtain ⟨accesses, handled⟩ := ethernetHandlePacket_run
      ((s.rxq.desc elem.id).addr + virtioHdrSize) (u32 (2 ^ 32 - virtioHdrSize + elem.len)) s
    refine ⟨accesses, ?_⟩
    rw [if_pos nonempty, if_pos nonempty, StateT.run_bind, handled]
    rfl
  · rw [if_neg nonempty, if_neg nonempty]
    exact ⟨s.accesses, rfl⟩

end Handlers

end UniKernel.Net
