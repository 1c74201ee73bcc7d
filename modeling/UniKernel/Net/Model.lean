import UniKernel.CString.Model
import UniKernel.Pmm.Model

/-!
Owns the network driver of `src/net.c`: the two virtqueues, transmission and
receive, and the Ethernet, ARP, IPv4 and ICMP handlers, as state-passing
functions in the source's order of effects.

Packet bytes are bytes of physical memory; `accesses` records, in order, every
address a handler reads or writes through a pointer into the packet. The
descriptor tables and rings are arrays of their own; a reply that the source
assembles in a buffer on the stack is a list of bytes.
-/

namespace UniKernel.Net

open UniKernel.Lib

/-- `virtq_desc` -/
structure Desc where
  addr : Nat
  len : Nat
  flags : Nat
  next : Nat
deriving DecidableEq, Repr

/-- `virtq_used_elem` -/
structure UsedElem where
  id : Nat
  len : Nat
deriving DecidableEq, Repr

/-- `virtq` with the memory behind its three pointers. -/
structure Virtq where
  desc : Nat → Desc
  availIdx : Nat
  availRing : Nat → Nat
  usedIdx : Nat
  usedRing : Nat → UsedElem
  qsize : Nat
  lastUsedIdx : Nat

/-- The address an emulated device reports unless told otherwise. -/
def emulatedMac : Vector UInt8 6 := #v[0x52, 0x54, 0, 0x12, 0x34, 0x56]

/-- Memory, the frame allocator, the variables of `net.c`, the values written
to `VIRTIO_REG_QUEUE_NOTIFY` and the addresses of packets accessed so far. -/
structure State where
  mem : Memory
  pmm : Pmm.State
  rxq : Virtq
  txq : Virtq
  netMac : Vector UInt8 6
  txDescIdx : Nat
  notified : List Nat
  accesses : List Nat

abbrev NetM := StateM State

/-- `my_ip` -/
def myIp : List UInt8 := [10, 0, 2, 15]

/-- `sizeof(virtio_net_hdr)` -/
@[simp] def virtioHdrSize : Nat := 10

/-- `sizeof(ethernet_frame)` -/
@[simp] def ethernetHdrSize : Nat := 14

/-- `sizeof(arp_packet)` -/
@[simp] def arpPacketSize : Nat := 28

/-- `sizeof(ipv4_packet)` -/
@[simp] def ipv4HdrSize : Nat := 20

/-- `VIRTQ_DESC_F_WRITE` -/
@[simp] def descFlagWrite : Nat := 2

def ntohs (netshort : Nat) : Nat := u16 (netshort >>> 8 ||| netshort <<< 8)

/-- The two bytes of a 16-bit field, as the CPU stores it. -/
def bytes16 (value : Nat) : List UInt8 := [UInt8.ofNat value, UInt8.ofNat (value / 256)]

/-! ### Access to packet memory -/

def touch (addr len : Nat) : NetM Unit :=
  modify fun s => { s with accesses := s.accesses ++ List.range' addr len }

def read8 (addr : Nat) : NetM Nat := do
  touch addr 1
  return ((← get).mem.load addr 1)

def read16 (addr : Nat) : NetM Nat := do
  touch addr 2
  return ((← get).mem.load addr 2)

def readBytes (addr len : Nat) : NetM (List UInt8) := do
  touch addr len
  let s ← get
  return (List.range len).map fun i => s.mem (addr + i)

def write8 (addr value : Nat) : NetM Unit := do
  touch addr 1
  modify fun s => { s with mem := s.mem.store addr 1 value }

def write16 (addr value : Nat) : NetM Unit := do
  touch addr 2
  modify fun s => { s with mem := s.mem.store addr 2 value }

def writeBytes (addr : Nat) (bytes : List UInt8) : NetM Unit := do
  touch addr bytes.length
  modify fun s => { s with mem := s.mem.storeBytes addr bytes }

/-- `memcmp(packet, bytes, bytes.length)` -/
def memcmp (addr : Nat) : List UInt8 → NetM Int
  | [] => pure 0
  | byte :: rest => do
      let first ← read8 addr
      if first ≠ byte.toNat then return (first : Int) - byte.toNat
      else memcmp (addr + 1) rest

/-! ### Checksum -/

/-- The word loop of `calculate_checksum` after `count` iterations. -/
def sumWords (data : Nat) : Nat → NetM Nat
  | 0 => pure 0
  | count + 1 => do
      let acc ← sumWords data count
      let high ← read8 (data + count * 2)
      let low ← read8 (data + (count * 2 + 1))
      return u32 (acc + (high <<< 8 ||| low))

/-- `while (acc >> 16) acc = (acc & 0xffff) + (acc >> 16);` -/
def foldCarries (acc : Nat) : Nat :=
  if acc >>> 16 = 0 then acc else foldCarries ((acc &&& 0xffff) + acc >>> 16)
termination_by acc
decreasing_by
  rename_i carries
  rw [Nat.shiftRight_eq_div_pow] at carries ⊢
  rw [show 0xffff = 2 ^ 16 - 1 by rfl, Nat.and_two_pow_sub_one_eq_mod]
  omega

def calculateChecksum (data length : Nat) : NetM Nat := do
  let acc ← sumWords data (length / 2)
  let acc ←
    if length % 2 ≠ 0 then do
      let last ← read8 (data + (length - 1))
      pure (u32 (acc + last <<< 8))
    else pure acc
  return u16 (2 ^ 32 - 1 - foldCarries acc)

/-! ### Transmission -/

def netSend (macFrame : List UInt8) : NetM Unit := do
  let s ← get
  let (phys, pmm) := Pmm.pmmAllocFrame s.pmm
  set { s with pmm := pmm }
  if phys = 0 then return
  modify fun s => { s with mem := CString.memset phys 0 virtioHdrSize s.mem }
  modify fun s => { s with mem := s.mem.storeBytes (phys + virtioHdrSize) macFrame }
  modify fun s =>
    let head := u16 (s.txDescIdx % s.txq.qsize)
    let desc := ⟨phys, u32 (virtioHdrSize + macFrame.length), 0, 0⟩
    { s with txq.desc := Function.update s.txq.desc head desc }
  modify fun s =>
    let head := u16 (s.txDescIdx % s.txq.qsize)
    { s with txq.availRing := Function.update s.txq.availRing (s.txq.availIdx % s.txq.qsize) head }
  modify fun s => { s with txq.availIdx := u16 (s.txq.availIdx + 1) }
  modify fun s => { s with notified := s.notified ++ [1] }
  modify fun s => { s with txDescIdx := u16 (s.txDescIdx + 1) }

/-- The fields of an `ethernet_frame` in order, then its payload. -/
def ethernetFrame (dstMac srcMac : List UInt8) (ethertype : Nat) (payload : List UInt8) :
    List UInt8 :=
  dstMac ++ srcMac ++ bytes16 ethertype ++ payload

/-- The fields of an `arp_packet` in order. -/
def arpPacket (opcode : Nat) (senderMac senderIp targetMac targetIp : List UInt8) : List UInt8 :=
  bytes16 (ntohs 1) ++ bytes16 (ntohs 0x0800) ++ [6, 4] ++ bytes16 (ntohs opcode) ++
    senderMac ++ senderIp ++ targetMac ++ targetIp

/-! ### Handlers -/

def arpHandle (payload len srcMac : Nat) : NetM Unit := do
  if len < arpPacketSize then return
  let opcode := ntohs (← read16 (payload + 6))
  if opcode ≠ 1 then return
  if (← memcmp (payload + 24) myIp) ≠ 0 then return
  let dstMac ← readBytes srcMac 6
  let senderMac ← readBytes (payload + 8) 6
  let senderIp ← readBytes (payload + 14) 4
  let netMac := (← get).netMac.toList
  netSend (ethernetFrame dstMac netMac (ntohs 0x0806)
    (arpPacket 2 netMac myIp senderMac senderIp))

/-- The reply to an ICMP echo request: the packet is rewritten in place and
copied behind a new Ethernet header. -/
def echoReply (ip icmp srcMac : Nat) : NetM Unit := do
  write8 icmp 0
  write16 (icmp + 2) 0
  let length := ntohs (← read16 (ip + 2))
  let versionIhl ← read8 ip
  let icmpLen := u32 (2 ^ 32 - (versionIhl &&& 0x0F) * 4 + length)
  let checksum ← calculateChecksum icmp icmpLen
  write16 (icmp + 2) (ntohs checksum)
  let tempIp ← readBytes (ip + 12) 4
  writeBytes (ip + 12) myIp
  writeBytes (ip + 16) tempIp
  let length := ntohs (← read16 (ip + 2))
  let dstMac ← readBytes srcMac 6
  let payload ← readBytes ip length
  netSend (ethernetFrame dstMac (← get).netMac.toList (ntohs 0x0800) payload)

def ipv4Handle (payload len srcMac : Nat) : NetM Unit := do
  if len < ipv4HdrSize then return
  if (← memcmp (payload + 16) myIp) ≠ 0 then return
  if (← read8 (payload + 9)) ≠ 1 then return
  let icmp := payload + ipv4HdrSize
  if (← read8 icmp) ≠ 8 then return
  echoReply payload icmp srcMac

def ethernetHandlePacket (packet len : Nat) : NetM Unit := do
  if len < ethernetHdrSize then return
  let type := ntohs (← read16 (packet + 12))
  if type = 0x0806 then
    arpHandle (packet + ethernetHdrSize) (len - ethernetHdrSize) (packet + 6)
  else if type = 0x0800 then
    ipv4Handle (packet + ethernetHdrSize) (len - ethernetHdrSize) (packet + 6)

/-! ### Receive -/

/-- `rxq.used->ring[rxq.last_used_idx % rxq.qsize]` -/
def Virtq.nextUsed (queue : Virtq) : UsedElem :=
  queue.usedRing (u16 (queue.lastUsedIdx % queue.qsize))

/-- What one iteration of the loop of `net_poll_rx` does with the packet of a
used element, up to the repost. -/
def receivePacket (elem : UsedElem) : NetM Unit := do
  let hdr := ((← get).rxq.desc elem.id).addr
  let packetLen := u32 (2 ^ 32 - virtioHdrSize + elem.len)
  if packetLen > 0 then ethernetHandlePacket (hdr + virtioHdrSize) packetLen
  modify fun s => { s with mem := CString.memset hdr 0 virtioHdrSize s.mem }

/-- `rxq.avail->ring[avail_idx % rxq.qsize] = desc_id;` -/
def repost (descId : Nat) : NetM Unit :=
  modify fun s =>
    let slot := s.rxq.availIdx % s.rxq.qsize
    { s with rxq.availRing := Function.update s.rxq.availRing slot (u16 descId) }

/-- `rxq.avail->idx = avail_idx + 1;` -/
def publish : NetM Unit :=
  modify fun s => { s with rxq.availIdx := u16 (s.rxq.availIdx + 1) }

/-- `rxq.last_used_idx++;` -/
def advance : NetM Unit :=
  modify fun s => { s with rxq.lastUsedIdx := u16 (s.rxq.lastUsedIdx + 1) }

/-- One iteration of the loop of `net_poll_rx`. -/
def pollRxOnce : NetM Unit := do
  let elem := (← get).rxq.nextUsed
  receivePacket elem
  repost elem.id
  publish
  advance

/-- One iteration of the loop of `net_cleanup_tx`. -/
def cleanupTxOnce : NetM Unit :=
  modify fun s =>
    let elem := s.txq.nextUsed
    { s with
      pmm := Pmm.pmmFreeFrame (s.txq.desc elem.id).addr s.pmm
      txq.lastUsedIdx := u16 (s.txq.lastUsedIdx + 1) }

/-- The loop of `net_rx_fill` after `count` iterations, and whether it goes on. -/
def rxFillLoop : Nat → NetM Bool
  | 0 => pure true
  | i + 1 => do
      if ← rxFillLoop i then
        let s ← get
        let (phys, pmm) := Pmm.pmmAllocFrame s.pmm
        set { s with pmm := pmm }
        if phys = 0 then return false
        modify fun s =>
          { s with
            rxq.desc := Function.update s.rxq.desc i ⟨phys, 4096, descFlagWrite, 0⟩
            rxq.availRing := Function.update s.rxq.availRing (i % s.rxq.qsize) (u16 i) }
        return true
      else return false

def netRxFill : NetM Unit := do
  let _ ← rxFillLoop (← get).rxq.qsize
  modify fun s => { s with rxq.availIdx := u16 s.rxq.qsize }
  modify fun s => { s with notified := s.notified ++ [0] }

end UniKernel.Net
