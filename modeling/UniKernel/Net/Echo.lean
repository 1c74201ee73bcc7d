import UniKernel.Net.Reply

/-!
Owns the echo reply: what `ipv4_handle` rewrites in a request, byte by byte, and
that the frame it sends is the matching reply. The header checksum is not
computed again: swapping the addresses leaves its sum alone. The ICMP part is
taken to start behind a header of 20 bytes, whatever the header length says.
-/

namespace UniKernel.Net

open UniKernel.Lib

/-! ### Bytes of a buffer -/

section Bytes

variable {mem mem' : Memory} {data length : Nat}

@[simp] theorem length_bytesAt (mem : Memory) (data length : Nat) :
    (bytesAt mem data length).length = length := by
  simp [bytesAt]

theorem getElem?_bytesAt (mem : Memory) (data : Nat) {i : Nat} (inside : i < length) :
    (bytesAt mem data length)[i]? = some (mem (data + i)) := by
  simp [bytesAt, inside]

theorem bytesAt_congr (same : ∀ i, i < length → mem' (data + i) = mem (data + i)) :
    bytesAt mem' data length = bytesAt mem data length :=
  List.map_congr_left fun i member => same i (List.mem_range.mp member)

theorem bytesAt_append (mem : Memory) (data first second : Nat) :
    bytesAt mem data (first + second) = bytesAt mem data first ++ bytesAt mem (data + first) second := by
  induction first generalizing data with
  | zero => simp [bytesAt]
  | succ first inductionHypothesis =>
      have next : data + 1 + first = data + (first + 1) := by omega
      rw [Nat.add_right_comm, bytesAt_succ, inductionHypothesis, bytesAt_succ, List.cons_append, next]

theorem drop_bytesAt (mem : Memory) (data first second : Nat) :
    (bytesAt mem data (first + second)).drop first = bytesAt mem (data + first) second := by
  rw [bytesAt_append]
  exact List.drop_left' (length_bytesAt _ _ _)

theorem take_bytesAt (mem : Memory) (data first second : Nat) :
    (bytesAt mem data (first + second)).take first = bytesAt mem data first := by
  rw [bytesAt_append]
  exact List.take_left' (length_bytesAt _ _ _)

/-- A field of a buffer. -/
theorem slice_bytesAt (mem : Memory) (data offset : Nat) {count : Nat}
    (inside : offset + count ≤ length) :
    ((bytesAt mem data length).drop offset).take count = bytesAt mem (data + offset) count := by
  obtain ⟨rest, isRest⟩ : ∃ rest, length = offset + (count + rest) :=
    ⟨length - offset - count, by omega⟩
  rw [isRest, drop_bytesAt, take_bytesAt]

end Bytes

/-! ### What is rewritten -/

section Rewrite

variable {mem : Memory} {ip addr : Nat}

theorem echoCleared_outside (mem : Memory) (outside : addr < ip + 20 ∨ addr = ip + 21 ∨ ip + 24 ≤ addr) :
    echoCleared mem ip addr = mem addr := by
  unfold echoCleared
  rw [Memory.store_outside _ (by omega), Memory.store_outside _ (by omega)]

theorem echoMarked_outside (mem : Memory) (outside : addr < ip + 20 ∨ addr = ip + 21 ∨ ip + 24 ≤ addr) :
    echoMarked mem ip addr = mem addr := by
  unfold echoMarked
  rw [Memory.store_outside _ (by omega), echoCleared_outside mem outside]

/-- Behind the addresses only the mark is left. -/
theorem echoMemory_icmp (mem : Memory) (outside : addr < ip + 12 ∨ ip + 20 ≤ addr) :
    echoMemory mem ip addr = echoMarked mem ip addr := by
  unfold echoMemory
  rw [Memory.storeBytes, if_neg (by rw [length_bytesAt]; omega), Memory.storeBytes,
    if_neg (by rw [show myIp.length = 4 by rfl]; omega)]

theorem echoMemory_source (mem : Memory) {i : Nat} (inside : i < 4) :
    echoMemory mem ip (ip + 12 + i) = myIp.getD i 0 := by
  have offset : ip + 12 + i - (ip + 12) = i := by omega
  unfold echoMemory
  rw [Memory.storeBytes, if_neg (by rw [length_bytesAt]; omega), Memory.storeBytes,
    if_pos (by rw [show myIp.length = 4 by rfl]; omega), offset]

theorem echoMemory_destination (mem : Memory) {i : Nat} (inside : i < 4) :
    echoMemory mem ip (ip + 16 + i) = mem (ip + 12 + i) := by
  have offset : ip + 16 + i - (ip + 16) = i := by omega
  unfold echoMemory
  rw [Memory.storeBytes, if_pos (by rw [length_bytesAt]; omega), offset, List.getD_eq_getElem?_getD,
    getElem?_bytesAt _ _ inside, Option.getD_some, echoMarked_outside mem (by omega)]

theorem echoMemory_type (mem : Memory) : echoMemory mem ip (ip + 20) = 0 := by
  rw [echoMemory_icmp mem (by omega)]
  unfold echoMarked echoCleared
  rw [Memory.store_outside _ (by omega), Memory.store_outside _ (by omega)]
  exact Function.update_self _ _ _

/-- Everything else is the request's. -/
theorem echoMemory_outside (mem : Memory) (header : addr < ip + 12 ∨ ip + 20 ≤ addr)
    (outside : addr < ip + 20 ∨ addr = ip + 21 ∨ ip + 24 ≤ addr) :
    echoMemory mem ip addr = mem addr := by
  rw [echoMemory_icmp mem header, echoMarked_outside mem outside]

/-- The ICMP checksum of the reply verifies. -/
theorem checksumOf_echoMemory (mem : Memory) (long : 4 ≤ icmpLength mem ip)
    (short : icmpLength mem ip ≤ 131074) :
    checksumOf (echoMemory mem ip) (ip + 20) (icmpLength mem ip) = 0 := by
  have cleared : wordAt (echoCleared mem ip) (ip + 20 + 2) = 0 := wordAt_store_zero _ _
  have marked : wordAt (echoMemory mem ip) (ip + 20 + 2) =
      checksumOf (echoCleared mem ip) (ip + 20) (icmpLength mem ip) := by
    unfold wordAt
    rw [echoMemory_icmp mem (by omega), echoMemory_icmp mem (by omega)]
    exact wordAt_store_ntohs _ _ (checksumOf_lt _ _ _)
  apply checksumOf_eq_zero short (by decide) (by omega) cleared marked
  intro i _ notHigh notLow
  rw [echoMemory_icmp mem (by omega)]
  exact Memory.store_outside _ (by omega)

/-- Swapping the addresses of the header leaves its sum alone. -/
theorem checksumTotal_echoMemory (toMyIp : ∀ i, i < 4 → mem (ip + 16 + i) = myIp.getD i 0) :
    checksumTotal (echoMemory mem ip) ip 20 = checksumTotal mem ip 20 := by
  have front : wordTotal (echoMemory mem ip) ip 6 = wordTotal mem ip 6 :=
    wordTotal_congr fun i below => echoMemory_outside mem (by omega) (by omega)
  have source : ∀ i, i < 4 → echoMemory mem ip (ip + 12 + i) = mem (ip + 16 + i) := by
    intro i inside
    rw [echoMemory_source mem inside, toMyIp i inside]
  have destination : ∀ i, i < 4 → echoMemory mem ip (ip + 16 + i) = mem (ip + 12 + i) :=
    fun i inside => echoMemory_destination mem inside
  have swapped : ∀ i, i < 3 →
      wordAt (echoMemory mem ip) (ip + 12 + i) = wordAt mem (ip + 16 + i) ∧
        wordAt (echoMemory mem ip) (ip + 16 + i) = wordAt mem (ip + 12 + i) := by
    intro i inside
    unfold wordAt
    rw [source i (by omega), destination i (by omega), Nat.add_assoc (ip + 12),
      source (i + 1) (by omega), Nat.add_assoc (ip + 16), destination (i + 1) (by omega)]
    exact ⟨rfl, rfl⟩
  have first := swapped 0 (by decide)
  have second := swapped 2 (by decide)
  simp only [Nat.add_zero, Nat.add_assoc, Nat.reduceAdd] at first second
  change wordTotal (echoMemory mem ip) ip 6 + wordAt _ (ip + 12) + wordAt _ (ip + 14) +
      wordAt _ (ip + 16) + wordAt _ (ip + 18) + 0 =
    wordTotal mem ip 6 + wordAt mem (ip + 12) + wordAt mem (ip + 14) + wordAt mem (ip + 16) +
      wordAt mem (ip + 18) + 0
  rw [front, first.1, first.2, second.1, second.2]
  omega

end Rewrite

/-! ### The matching reply -/

/-- `reply` is the Ethernet frame from `mac` to `srcMac` that answers the IPv4
packet `request`: addresses swapped, type 0, both checksums right and every other
byte as in the request. -/
structure MatchingReply (mac srcMac request reply : List UInt8) : Prop where
  length : reply.length = 14 + request.length
  dstMac : reply.take 6 = srcMac
  srcMac : (reply.drop 6).take 6 = mac
  ethertype : (reply.drop 12).take 2 = [0x08, 0x00]
  srcIp : (reply.drop 26).take 4 = (request.drop 16).take 4
  dstIp : (reply.drop 30).take 4 = (request.drop 12).take 4
  header : internetChecksum ((reply.drop 14).take 20) = 0 ↔ internetChecksum (request.take 20) = 0
  type : reply[34]? = some 0
  icmp : internetChecksum (reply.drop 34) = 0
  other : ∀ i < request.length, ¬ (12 ≤ i ∧ i < 21) → i ≠ 22 → i ≠ 23 → reply[14 + i]? = request[i]?

section Reply

variable {mem : Memory} {ip srcMac total : Nat} {mac : List UInt8}

theorem drop_ethernetFrame (dstMac payload : List UInt8) (ethertype : Nat)
    (dstLength : dstMac.length = 6) (macLength : mac.length = 6) (count : Nat) :
    (ethernetFrame dstMac mac ethertype payload).drop (14 + count) = payload.drop count := by
  have header : (dstMac ++ mac ++ bytes16 ethertype).length = 14 := by
    rw [List.length_append, List.length_append, dstLength, macLength]
    rfl
  unfold ethernetFrame
  rw [← List.drop_drop, List.drop_left' header]

/-- The fields of the Ethernet header. -/
theorem ethernetFrame_header (dstMac payload : List UInt8) (ethertype : Nat)
    (dstLength : dstMac.length = 6) (macLength : mac.length = 6) :
    (ethernetFrame dstMac mac ethertype payload).take 6 = dstMac ∧
      ((ethernetFrame dstMac mac ethertype payload).drop 6).take 6 = mac ∧
      ((ethernetFrame dstMac mac ethertype payload).drop 12).take 2 = bytes16 ethertype := by
  have both : (dstMac ++ mac).length = 12 := by rw [List.length_append, dstLength, macLength]
  unfold ethernetFrame
  refine ⟨?_, ?_, ?_⟩
  · rw [List.append_assoc, List.append_assoc, List.take_left' dstLength]
  · rw [List.append_assoc, List.append_assoc, List.drop_left' dstLength, List.take_left' macLength]
  · rw [List.append_assoc (dstMac ++ mac), List.drop_left' both]
    exact List.take_left' rfl

theorem length_ethernetFrame (dstMac payload : List UInt8) (ethertype : Nat)
    (dstLength : dstMac.length = 6) (macLength : mac.length = 6) :
    (ethernetFrame dstMac mac ethertype payload).length = 14 + payload.length := by
  unfold ethernetFrame
  rw [List.length_append, List.length_append, List.length_append, dstLength, macLength]
  rfl

/-- The frame behind its Ethernet header is the rewritten packet. -/
theorem drop_echoFrame (macLength : mac.length = 6) (count : Nat) :
    (echoFrame mac mem ip srcMac).drop (14 + count) =
      (bytesAt (echoMemory mem ip) ip (ipLength mem ip)).drop count :=
  drop_ethernetFrame _ _ _ (length_bytesAt _ _ _) macLength count

theorem getElem?_echoFrame (macLength : mac.length = 6) {i : Nat} (inside : i < ipLength mem ip) :
    (echoFrame mac mem ip srcMac)[14 + i]? = some (echoMemory mem ip (ip + i)) := by
  have dropped : ((echoFrame mac mem ip srcMac).drop (14 + i))[0]? =
      ((bytesAt (echoMemory mem ip) ip (ipLength mem ip)).drop i)[0]? :=
    congrArg (fun bytes => bytes[0]?) (drop_echoFrame macLength i)
  rw [List.getElem?_drop, List.getElem?_drop, Nat.add_zero, Nat.add_zero] at dropped
  rw [dropped, getElem?_bytesAt _ _ inside]

theorem slice_echoFrame (macLength : mac.length = 6) (offset : Nat) {count : Nat}
    (inside : offset + count ≤ ipLength mem ip) :
    ((echoFrame mac mem ip srcMac).drop (14 + offset)).take count =
      bytesAt (echoMemory mem ip) (ip + offset) count := by
  rw [drop_echoFrame macLength, slice_bytesAt _ _ _ inside]

theorem internetChecksum_bytesAt {length : Nat} (mem : Memory) (data : Nat)
    (short : length ≤ 131074) :
    internetChecksum (bytesAt mem data length) = 0xffff - onesResidue (checksumTotal mem data length) := by
  rw [← checksumOf_eq_internetChecksum mem data short, checksumOf_eq (checksumTotal_lt mem data short)]

/-- Without options the ICMP part is what follows the fixed header. -/
theorem icmpLength_of_no_options (noOptions : mem.load ip 1 &&& 0x0F = 5)
    (long : 20 ≤ ipLength mem ip) : icmpLength mem ip = ipLength mem ip - 20 := by
  have small : ipLength mem ip < 2 ^ 16 := u16_lt _
  unfold ipLength at *
  unfold icmpLength u32
  rw [noOptions]
  omega

/-- With no options, the frame is the matching reply. -/
theorem echoFrame_matching (macLength : mac.length = 6) (before : srcMac + 6 ≤ ip)
    (toMyIp : ∀ i, i < 4 → mem (ip + 16 + i) = myIp.getD i 0)
    (noOptions : mem.load ip 1 &&& 0x0F = 5) (long : 28 ≤ ipLength mem ip) :
    MatchingReply mac (bytesAt mem srcMac 6) (bytesAt mem ip (ipLength mem ip))
      (echoFrame mac mem ip srcMac) := by
  have small : ipLength mem ip < 2 ^ 16 := u16_lt _
  have icmpIs := icmpLength_of_no_options noOptions (by omega)
  have addressed : bytesAt (echoMemory mem ip) srcMac 6 = bytesAt mem srcMac 6 :=
    bytesAt_congr fun i below => echoMemory_outside mem (by omega) (by omega)
  rcases ethernetFrame_header (bytesAt (echoMemory mem ip) srcMac 6)
    (bytesAt (echoMemory mem ip) ip (ipLength mem ip)) (ntohs 0x0800) (length_bytesAt _ _ _)
    macLength with ⟨dstMac, srcMac, ethertype⟩
  constructor
  · rw [echoFrame, length_ethernetFrame _ _ _ (length_bytesAt _ _ _) macLength, length_bytesAt,
      length_bytesAt]
  · exact dstMac.trans addressed
  · exact srcMac
  · exact ethertype.trans (by decide)
  · rw [slice_echoFrame macLength 12 (by omega), slice_bytesAt _ _ _ (by omega)]
    apply List.map_congr_left
    intro i member
    have inside := List.mem_range.mp member
    rw [echoMemory_source mem inside, toMyIp i inside]
  · rw [slice_echoFrame macLength 16 (by omega), slice_bytesAt _ _ _ (by omega)]
    apply List.map_congr_left
    intro i member
    exact echoMemory_destination mem (List.mem_range.mp member)
  · have request := slice_bytesAt mem ip 0 (show 0 + 20 ≤ ipLength mem ip by omega)
    rw [slice_echoFrame macLength 0 (by omega), ← List.drop_zero (l := bytesAt mem ip _),
      request, internetChecksum_bytesAt _ _ (by decide), internetChecksum_bytesAt _ _ (by decide),
      Nat.add_zero, checksumTotal_echoMemory toMyIp]
  · rw [getElem?_echoFrame macLength (i := 20) (by omega), echoMemory_type]
  · have whole : ipLength mem ip = 20 + icmpLength mem ip := by omega
    rw [drop_echoFrame macLength 20, whole, drop_bytesAt,
      ← checksumOf_eq_internetChecksum _ _ (by omega)]
    exact checksumOf_echoMemory mem (by omega) (by omega)
  · intro i inside header notHigh notLow
    rw [length_bytesAt] at inside
    rw [getElem?_echoFrame macLength inside, getElem?_bytesAt _ _ inside,
      echoMemory_outside mem (by omega) (by omega)]

end Reply

/-- For every echo request to `my_ip` without options that lies within the received
bytes, `ipv4_handle` sends one frame, the matching reply. -/
theorem ipv4Handle_sends_matchingReply {packet len : Nat} (s : State)
    (toMyIp : ∀ i, i < 4 → s.mem (packet + 14 + 16 + i) = myIp.getD i 0)
    (noOptions : s.mem.load (packet + 14) 1 &&& 0x0F = 5)
    (long : 28 ≤ ipLength s.mem (packet + 14)) (whole : ipLength s.mem (packet + 14) ≤ len)
    (icmp : s.mem.load (packet + 14 + 9) 1 = 1) (echo : s.mem.load (packet + 14 + 20) 1 = 8) :
    ∃ mem accesses frame, (ipv4Handle (packet + 14) len (packet + 6)).run s =
        (netSend frame).run (s.withMem mem accesses) ∧
      MatchingReply s.netMac.toList (bytesAt s.mem (packet + 6) 6)
        (bytesAt s.mem (packet + 14) (ipLength s.mem (packet + 14))) frame := by
  obtain ⟨accesses, handled⟩ := ipv4Handle_run (packet + 14) len (packet + 6) s
  have request : EchoRequest s.mem (packet + 14) len := ⟨by omega, toMyIp, icmp, echo⟩
  rw [ipv4Reply, if_pos request] at handled
  refine ⟨_, accesses, _, handled, ?_⟩
  exact echoFrame_matching s.netMac.size_toArray (by omega) toMyIp noOptions long

/-- An echo request with an odd number of data bytes, at the start of RAM. -/
def oddPing : List UInt8 :=
  ethernetFrame [0x52, 0x54, 0, 0x12, 0x34, 0x56] [2, 0, 0, 0, 0, 1] (ntohs 0x0800)
    ([0x45, 0, 0, 31, 0, 1, 0, 0, 64, 1, 0x62, 0xcd] ++ [10, 0, 2, 2] ++ myIp ++
      [8, 0, 0x82, 0xbd, 0x12, 0x34, 0, 1, 0x61, 0x62, 0x63])

def oddPinged : State :=
  { pinged with mem := Memory.storeBytes (fun _ => 0) 0x40000000 oddPing }

theorem ipv4Handle_sends_matchingReply_oddPing :
    ∃ mem accesses frame, (ipv4Handle (0x40000000 + 14) 31 (0x40000000 + 6)).run oddPinged =
        (netSend frame).run (oddPinged.withMem mem accesses) ∧
      MatchingReply oddPinged.netMac.toList (bytesAt oddPinged.mem (0x40000000 + 6) 6)
        (bytesAt oddPinged.mem (0x40000000 + 14) (ipLength oddPinged.mem (0x40000000 + 14))) frame :=
  ipv4Handle_sends_matchingReply oddPinged (by decide +kernel) (by decide +kernel)
    (by decide +kernel) (by decide +kernel) (by decide +kernel) (by decide +kernel)

/-! ### Headers with options -/

/-- `(ip->version_ihl & 0x0F) * 4` -/
def ipHeaderLength (mem : Memory) (ip : Nat) : Nat := (mem.load ip 1 &&& 0x0F) * 4

/-- An ICMP message of at least eight bytes with type 8 starts behind the header. -/
def EchoBehindHeader (mem : Memory) (ip : Nat) : Prop :=
  mem.load (ip + 9) 1 = 1 ∧ ipHeaderLength mem ip + 8 ≤ ipLength mem ip ∧
    mem.load (ip + ipHeaderLength mem ip) 1 = 8

instance (mem : Memory) (ip : Nat) : Decidable (EchoBehindHeader mem ip) :=
  inferInstanceAs (Decidable (_ ∧ _ ∧ _))

/-- From `mem` to `mem'` the handler rewrites the addresses and the ICMP message
that starts behind the header, which then carries its checksum. -/
structure RewritesBehindHeader (mem mem' : Memory) (ip : Nat) : Prop where
  within : ∀ addr, mem' addr ≠ mem addr →
    (ip + 12 ≤ addr ∧ addr < ip + 20) ∨ ip + ipHeaderLength mem ip ≤ addr
  verifies : checksumOf mem' (ip + ipHeaderLength mem ip)
    (ipLength mem ip - ipHeaderLength mem ip) = 0

/-- The handler answers exactly the echo requests behind the header, and takes
them for ICMP where they are. -/
def TakesOptions (mem : Memory) (ip : Nat) (reply : Option (Memory × List UInt8)) : Prop :=
  (reply.isSome ↔ EchoBehindHeader mem ip) ∧
    ∀ mem' frame, reply = some (mem', frame) → RewritesBehindHeader mem mem' ip

/-- For an ICMP packet: when the byte at offset 20 is 8 there are no options and
the message has eight bytes; otherwise there is no echo request behind the header. -/
def OptionsHarmless (mem : Memory) (ip : Nat) : Prop :=
  mem.load (ip + 9) 1 = 1 →
    if mem.load (ip + 20) 1 = 8 then ipHeaderLength mem ip = 20 ∧ 28 ≤ ipLength mem ip
    else ¬ EchoBehindHeader mem ip

section Options

variable {mem : Memory} {ip len srcMac : Nat} {mac : List UInt8}

/-- Rewriting at offset 20 is rewriting behind the header when there are no options. -/
theorem rewritesBehindHeader_iff (answered : mem.load (ip + 20) 1 = 8)
    (header : 20 ≤ ipHeaderLength mem ip) (long : 28 ≤ ipLength mem ip) :
    RewritesBehindHeader mem (echoMemory mem ip) ip ↔ ipHeaderLength mem ip = 20 := by
  constructor
  · intro rewrites
    have changed : echoMemory mem ip (ip + 20) ≠ mem (ip + 20) := by
      intro same
      rw [load_one, ← same, echoMemory_type] at answered
      cases answered
    have behind := rewrites.within (ip + 20) changed
    omega
  · intro noOptions
    have ihl : mem.load ip 1 &&& 0x0F = 5 := by
      unfold ipHeaderLength at noOptions
      omega
    have icmpIs := icmpLength_of_no_options ihl (by omega)
    have small : ipLength mem ip < 2 ^ 16 := u16_lt _
    constructor
    · intro addr changed
      rw [noOptions]
      by_contra outside
      exact changed (echoMemory_outside mem (by omega) (by omega))
    · rw [noOptions, ← icmpIs]
      exact checksumOf_echoMemory mem (by omega) (by omega)

end Options

/-- For every packet to `my_ip` with consistent lengths: the handler's reply takes
the header length into account if and only if the options are harmless. -/
theorem ipv4Handle_takesOptions_iff {ip len srcMac : Nat} (s : State)
    (toMyIp : ∀ i, i < 4 → s.mem (ip + 16 + i) = myIp.getD i 0)
    (header : 20 ≤ ipHeaderLength s.mem ip) (inside : ipHeaderLength s.mem ip ≤ ipLength s.mem ip)
    (whole : ipLength s.mem ip ≤ len) :
    (∃ accesses, (ipv4Handle ip len srcMac).run s =
        s.answer (ipv4Reply s.netMac.toList s.mem ip len srcMac) accesses) ∧
      (TakesOptions s.mem ip (ipv4Reply s.netMac.toList s.mem ip len srcMac) ↔
        OptionsHarmless s.mem ip) := by
  refine ⟨ipv4Handle_run ip len srcMac s, ?_⟩
  unfold ipv4Reply OptionsHarmless TakesOptions
  by_cases icmp : s.mem.load (ip + 9) 1 = 1
  · rw [forall_prop_of_true icmp]
    by_cases echo : s.mem.load (ip + 20) 1 = 8
    · have request : EchoRequest s.mem ip len := ⟨by omega, toMyIp, icmp, echo⟩
      rw [if_pos request, if_pos echo]
      constructor
      · rintro ⟨answers, rewrites⟩
        have long : ipHeaderLength s.mem ip + 8 ≤ ipLength s.mem ip := (answers.mp rfl).2.1
        have noOptions := (rewritesBehindHeader_iff echo header (by omega)).mp (rewrites _ _ rfl)
        exact ⟨noOptions, by omega⟩
      · rintro ⟨noOptions, long⟩
        refine ⟨iff_of_true rfl ⟨icmp, by omega, by rwa [noOptions]⟩, ?_⟩
        intro mem' frame isReply
        cases isReply
        exact (rewritesBehindHeader_iff echo header long).mpr noOptions
    · rw [if_neg echo, if_neg fun request : EchoRequest s.mem ip len => echo request.2.2.2]
      simp
  · rw [if_neg fun request : EchoRequest s.mem ip len => icmp request.2.2.1,
      forall_prop_of_false icmp]
    have notBehind : ¬ EchoBehindHeader s.mem ip := fun behind => icmp behind.1
    simp [notBehind]

/-- A ping whose header has one option word of zeros, at the start of RAM. -/
def optionPing : List UInt8 :=
  [0x46, 0, 0, 32, 0, 1, 0, 0, 64, 1, 0, 0] ++ [10, 0, 2, 2] ++ myIp ++ [0, 0, 0, 0] ++
    [8, 0, 0, 0, 0x12, 0x34, 0, 1]

def optionPinged : State :=
  { pinged with mem := Memory.storeBytes (fun _ => 0) 0x40000000 optionPing }

theorem ipv4Handle_takesOptions_iff_oddPing :
    (∃ accesses, (ipv4Handle 0x4000000e 31 0x40000006).run oddPinged =
        oddPinged.answer (ipv4Reply oddPinged.netMac.toList oddPinged.mem 0x4000000e 31 0x40000006)
          accesses) ∧
      (TakesOptions oddPinged.mem 0x4000000e
          (ipv4Reply oddPinged.netMac.toList oddPinged.mem 0x4000000e 31 0x40000006) ↔
        OptionsHarmless oddPinged.mem 0x4000000e) :=
  ipv4Handle_takesOptions_iff oddPinged (by decide +kernel) (by decide +kernel) (by decide +kernel)
    (by decide +kernel)

/-- The ping with options gets no answer. -/
theorem exists_echo_not_answered :
    (∀ i, i < 4 → optionPinged.mem (0x40000000 + 16 + i) = myIp.getD i 0) ∧
      ipHeaderLength optionPinged.mem 0x40000000 = 24 ∧ ipLength optionPinged.mem 0x40000000 = 32 ∧
      ¬ TakesOptions optionPinged.mem 0x40000000
        (ipv4Reply optionPinged.netMac.toList optionPinged.mem 0x40000000 32 0x3ffffff8) := by
  refine ⟨by decide +kernel, by decide +kernel, by decide +kernel, fun takes => ?_⟩
  have behind : EchoBehindHeader optionPinged.mem 0x40000000 := by decide +kernel
  have silent : ¬ EchoRequest optionPinged.mem 0x40000000 32 := by decide +kernel
  have answers := takes.1.mpr behind
  rw [ipv4Reply, if_neg silent] at answers
  cases answers

end UniKernel.Net
