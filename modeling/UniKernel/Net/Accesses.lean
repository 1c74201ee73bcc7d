import UniKernel.Net.Handlers

/-!
Owns which bytes of a received packet the handlers access. Each handler has
one lemma that says when everything it accesses lies in a given address range;
the lemmas compose along the calls, and `receivePacket` is within the bytes the
device wrote exactly under `LengthsFit`.
-/

namespace UniKernel.Net

open UniKernel.Lib

/-! ### Accesses in a range of addresses -/

/-- Everything accessed so far lies in `[lo, hi)`. -/
def InRange (lo hi : Nat) (s : State) : Prop :=
  ∀ addr ∈ s.accesses, lo ≤ addr ∧ addr < hi

section Ranges

variable {lo hi : Nat}

theorem inRange_after (s : State) (mem : Memory) (addr len : Nat) :
    InRange lo hi (s.after mem addr len) ↔
      InRange lo hi s ∧ (len = 0 ∨ lo ≤ addr ∧ addr + len ≤ hi) := by
  simp only [InRange, State.after, List.forall_mem_append, List.mem_range'_1]
  apply and_congr_right
  rintro -
  constructor
  · intro all
    rcases Nat.eq_zero_or_pos len with empty | nonempty
    · exact Or.inl empty
    · have first := all addr ⟨Nat.le_refl addr, by omega⟩
      have last := all (addr + (len - 1)) ⟨by omega, by omega⟩
      omega
  · intro inside other member
    omega

theorem inRange_hasRead (s : State) (addr len : Nat) :
    InRange lo hi (s.hasRead addr len) ↔
      InRange lo hi s ∧ (len = 0 ∨ lo ≤ addr ∧ addr + len ≤ hi) :=
  inRange_after s s.mem addr len

theorem inRange_netSend (macFrame : List UInt8) (s : State) :
    InRange lo hi ((netSend macFrame).run s).2 ↔ InRange lo hi s := by
  unfold InRange
  rw [accesses_netSend]

/-- What the rest of a handler has to know about the state after one access. -/
theorem exists_after (lo hi : Nat) (s : State) (mem : Memory) (addr len : Nat) :
    ∃ next, s.after mem addr len = next ∧ next.mem = mem ∧
      (InRange lo hi next ↔ InRange lo hi s ∧ (len = 0 ∨ lo ≤ addr ∧ addr + len ≤ hi)) :=
  ⟨_, rfl, rfl, inRange_after s mem addr len⟩

theorem exists_hasRead (lo hi : Nat) (s : State) (addr len : Nat) :
    ∃ next, s.hasRead addr len = next ∧ next.mem = s.mem ∧
      (InRange lo hi next ↔ InRange lo hi s ∧ (len = 0 ∨ lo ≤ addr ∧ addr + len ≤ hi)) :=
  ⟨_, rfl, rfl, inRange_hasRead s addr len⟩

/-- The ICMP length the handler computes from an IPv4 header. -/
def icmpLength (mem : Memory) (ip : Nat) : Nat :=
  u32 (2 ^ 32 - (mem.load ip 1 &&& 0x0F) * 4 + ntohs (mem.load (ip + 2) 2))

theorem echoReply_inRange {ip srcMac : Nat} (header : lo ≤ ip ∧ ip + 20 ≤ hi)
    (mac : lo ≤ srcMac ∧ srcMac + 6 ≤ hi) (s : State) :
    InRange lo hi ((echoReply ip (ip + 20) srcMac).run s).2 ↔
      InRange lo hi s ∧ ip + 24 ≤ hi ∧ ip + ntohs (s.mem.load (ip + 2) 2) ≤ hi ∧
        ip + 20 + icmpLength s.mem ip ≤ hi := by
  unfold echoReply
  obtain ⟨typed, isTyped, typedMem, typedRange⟩ :=
    exists_after lo hi s (s.mem.store (ip + 20) 1 0) (ip + 20) 1
  rw [run_bind_of_eq (run_write8 _ _ _), isTyped]
  obtain ⟨cleared, isCleared, clearedMem, clearedRange⟩ :=
    exists_after lo hi typed (typed.mem.store (ip + 20 + 2) 2 0) (ip + 20 + 2) 2
  rw [run_bind_of_eq (run_write16 _ _ _), isCleared]
  have sameLength : cleared.mem.load (ip + 2) 2 = s.mem.load (ip + 2) 2 := by
    rw [clearedMem, typedMem, Memory.load_store_disjoint _ (by omega),
      Memory.load_store_disjoint _ (by omega)]
  have sameIhl : cleared.mem.load ip 1 = s.mem.load ip 1 := by
    rw [clearedMem, typedMem, Memory.load_store_disjoint _ (by omega),
      Memory.load_store_disjoint _ (by omega)]
  obtain ⟨sized, isSized, sizedMem, sizedRange⟩ := exists_hasRead lo hi cleared (ip + 2) 2
  rw [run_bind_of_eq (run_read16 _ _), isSized]
  dsimp only
  obtain ⟨parsed, isParsed, parsedMem, parsedRange⟩ := exists_hasRead lo hi sized ip 1
  rw [run_bind_of_eq (run_read8 _ _), isParsed, sizedMem, sameLength, sameIhl]
  obtain ⟨summed, isSummed, summedMem, summedRange⟩ :=
    exists_hasRead lo hi parsed (ip + 20) (icmpLength s.mem ip)
  unfold icmpLength at isSummed
  rw [run_bind_of_eq (calculateChecksum_run _ _ _), isSummed]
  generalize checksumOf _ _ _ = checksum
  obtain ⟨marked, isMarked, markedMem, markedRange⟩ :=
    exists_after lo hi summed (summed.mem.store (ip + 20 + 2) 2 (ntohs checksum)) (ip + 20 + 2) 2
  rw [run_bind_of_eq (run_write16 _ _ _), isMarked]
  obtain ⟨saved, isSaved, savedMem, savedRange⟩ := exists_hasRead lo hi marked (ip + 12) 4
  rw [run_bind_of_eq (run_readBytes _ _ _), isSaved]
  have tempLength : ((List.range 4).map fun i => marked.mem (ip + 12 + i)).length = 4 := by simp
  generalize (List.range 4).map _ = tempIp at tempLength ⊢
  obtain ⟨sourced, isSourced, sourcedMem, sourcedRange⟩ :=
    exists_after lo hi saved (saved.mem.storeBytes (ip + 12) myIp) (ip + 12) myIp.length
  rw [run_bind_of_eq (run_writeBytes _ _ _), isSourced]
  obtain ⟨swapped, isSwapped, swappedMem, swappedRange⟩ :=
    exists_after lo hi sourced (sourced.mem.storeBytes (ip + 16) tempIp) (ip + 16) tempIp.length
  rw [run_bind_of_eq (run_writeBytes _ _ _), isSwapped]
  have stillLength : swapped.mem.load (ip + 2) 2 = s.mem.load (ip + 2) 2 := by
    rw [swappedMem, Memory.load_storeBytes_disjoint _ (by omega), sourcedMem,
      Memory.load_storeBytes_disjoint _ (by omega), savedMem, markedMem,
      Memory.load_store_disjoint _ (by omega), summedMem, parsedMem, sizedMem, sameLength]
  obtain ⟨sized', isSized', -, sizedRange'⟩ := exists_hasRead lo hi swapped (ip + 2) 2
  rw [run_bind_of_eq (run_read16 _ _), isSized', stillLength]
  obtain ⟨addressed, isAddressed, -, addressedRange⟩ := exists_hasRead lo hi sized' srcMac 6
  rw [run_bind_of_eq (run_readBytes _ _ _), isAddressed]
  obtain ⟨copied, isCopied, -, copiedRange⟩ :=
    exists_hasRead lo hi addressed ip (ntohs (s.mem.load (ip + 2) 2))
  rw [run_bind_of_eq (run_readBytes _ _ _), isCopied, run_get_bind, inRange_netSend, copiedRange,
    addressedRange, sizedRange', swappedRange, sourcedRange, savedRange, markedRange, summedRange,
    parsedRange, sizedRange, clearedRange, typedRange, tempLength, show myIp.length = 4 by rfl]
  constructor
  · intro within
    have inRange := within.1.1.1.1.1.1.1.1.1.1.1.1
    refine ⟨inRange, ?_⟩
    omega
  · rintro ⟨inRange, icmpHeader, whole, icmp⟩
    simp only [inRange, true_and]
    omega

/-- When `ipv4_handle` stays in range: an ICMP packet to `my_ip` has a type byte
and, if it is an echo request, its length fields end inside the range. -/
def Ipv4Fits (mem : Memory) (ip hi : Nat) : Prop :=
  (∀ i, i < 4 → mem (ip + 16 + i) = myIp.getD i 0) → mem.load (ip + 9) 1 = 1 →
    ip + 21 ≤ hi ∧ (mem.load (ip + 20) 1 = 8 →
      ip + 24 ≤ hi ∧ ip + ntohs (mem.load (ip + 2) 2) ≤ hi ∧
        ip + 20 + icmpLength mem ip ≤ hi)

theorem ipv4Handle_inRange {ip len srcMac : Nat} (header : lo ≤ ip ∧ ip + 20 ≤ hi)
    (mac : lo ≤ srcMac ∧ srcMac + 6 ≤ hi) (long : 20 ≤ len) (s : State) :
    InRange lo hi ((ipv4Handle ip len srcMac).run s).2 ↔
      InRange lo hi s ∧ Ipv4Fits s.mem ip hi := by
  unfold ipv4Handle Ipv4Fits
  rw [if_neg (show ¬ len < ipv4HdrSize from Nat.not_lt.mpr long)]
  obtain ⟨order, count, short, compared, equal, -⟩ := memcmp_run (ip + 16) myIp s
  rw [run_bind_of_eq compared, show myIp.length = 4 by rfl] at *
  obtain ⟨matched, isMatched, matchedMem, matchedRange⟩ := exists_hasRead lo hi s (ip + 16) count
  rw [isMatched]
  by_cases mine : order = 0
  · obtain ⟨typed, isTyped, typedMem, typedRange⟩ := exists_hasRead lo hi matched (ip + 9) 1
    rw [if_neg (not_not.mpr mine), run_bind_of_eq (run_read8 _ _), isTyped, matchedMem,
      forall_prop_of_true (equal.mp mine)]
    by_cases icmp : s.mem.load (ip + 9) 1 = 1
    · obtain ⟨parsed, isParsed, parsedMem, parsedRange⟩ := exists_hasRead lo hi typed (ip + 20) 1
      rw [if_neg (not_not.mpr icmp), forall_prop_of_true icmp]
      dsimp only [ipv4HdrSize]
      rw [run_bind_of_eq (run_read8 _ _), isParsed, typedMem, matchedMem]
      by_cases echo : s.mem.load (ip + 20) 1 = 8
      · rw [if_neg (not_not.mpr echo), forall_prop_of_true echo, echoReply_inRange header mac,
          parsedMem, typedMem, matchedMem, parsedRange, typedRange, matchedRange]
        simp only [and_assoc]
        apply and_congr_right
        rintro -
        omega
      · rw [if_pos echo, forall_prop_of_false echo]
        change InRange lo hi parsed ↔ _
        rw [parsedRange, typedRange, matchedRange]
        simp only [and_assoc, and_true]
        apply and_congr_right
        rintro -
        omega
    · rw [if_pos icmp, forall_prop_of_false icmp]
      change InRange lo hi typed ↔ _
      rw [typedRange, matchedRange, and_assoc]
      apply and_congr_right
      rintro -
      simp only [iff_true]
      omega
  · rw [if_pos mine, forall_prop_of_false (mt equal.mpr mine)]
    change InRange lo hi matched ↔ _
    rw [matchedRange]
    apply and_congr_right
    rintro -
    simp only [iff_true]
    omega

/-- `arp_handle` checks the length of the packet, so it stays in range. -/
theorem arpHandle_inRange {arp len srcMac : Nat} (header : lo ≤ arp ∧ (28 ≤ len → arp + 28 ≤ hi))
    (mac : lo ≤ srcMac ∧ srcMac + 6 ≤ hi) (s : State) :
    InRange lo hi ((arpHandle arp len srcMac).run s).2 ↔ InRange lo hi s := by
  unfold arpHandle
  by_cases short : len < arpPacketSize
  · rw [if_pos short]
    rfl
  · have whole : arp + 28 ≤ hi := header.2 (by simp only [arpPacketSize] at short; omega)
    obtain ⟨opened, isOpened, openedMem, openedRange⟩ := exists_hasRead lo hi s (arp + 6) 2
    rw [if_neg short, run_bind_of_eq (run_read16 _ _), isOpened]
    dsimp only
    by_cases request : ntohs (s.mem.load (arp + 6) 2) = 1
    · obtain ⟨order, count, few, compared, -⟩ := memcmp_run (arp + 24) myIp opened
      rw [show myIp.length = 4 by rfl] at few
      obtain ⟨matched, isMatched, -, matchedRange⟩ := exists_hasRead lo hi opened (arp + 24) count
      rw [if_neg (not_not.mpr request), run_bind_of_eq compared, isMatched]
      by_cases mine : order = 0
      · obtain ⟨addressed, isAddressed, -, addressedRange⟩ := exists_hasRead lo hi matched srcMac 6
        obtain ⟨named, isNamed, -, namedRange⟩ := exists_hasRead lo hi addressed (arp + 8) 6
        obtain ⟨located, isLocated, -, locatedRange⟩ := exists_hasRead lo hi named (arp + 14) 4
        rw [if_neg (not_not.mpr mine), run_bind_of_eq (run_readBytes _ _ _), isAddressed,
          run_bind_of_eq (run_readBytes _ _ _), isNamed, run_bind_of_eq (run_readBytes _ _ _),
          isLocated, run_get_bind, inRange_netSend, locatedRange, namedRange, addressedRange,
          matchedRange, openedRange]
        simp only [and_assoc]
        exact and_iff_left (by omega)
      · rw [if_pos mine]
        change InRange lo hi matched ↔ _
        rw [matchedRange, openedRange, and_assoc]
        exact and_iff_left (by omega)
    · rw [if_pos request]
      change InRange lo hi opened ↔ _
      rw [openedRange]
      exact and_iff_left (by omega)

end Ranges

/-! ### A received packet -/

/-- An IPv4 packet to `my_ip` that carries ICMP, behind the receive header in
the buffer at `buf`. -/
def CarriesIcmp (mem : Memory) (buf : Nat) : Prop :=
  ntohs (mem.load (buf + 22) 2) = 0x0800 ∧ (∀ i, i < 4 → mem (buf + 40 + i) = myIp.getD i 0) ∧
    mem.load (buf + 33) 1 = 1

instance (mem : Memory) (buf : Nat) : Decidable (CarriesIcmp mem buf) :=
  inferInstanceAs (Decidable (_ ∧ (∀ i, i < 4 → _) ∧ _))

/-- `ip->length` -/
def totalLength (mem : Memory) (buf : Nat) : Nat := ntohs (mem.load (buf + 26) 2)

/-- The header length field of the IPv4 header, in bytes. -/
def headerLength (mem : Memory) (buf : Nat) : Nat := (mem.load (buf + 24) 1 &&& 0x0F) * 4

/-- The lengths of a received frame of `len` bytes are consistent: it holds the
receive header, an ICMP packet has a type byte, and the total length and the
ICMP length of an echo request end inside the frame. -/
def LengthsFit (mem : Memory) (buf len : Nat) : Prop :=
  10 ≤ len ∧ (44 ≤ len → CarriesIcmp mem buf →
    45 ≤ len ∧ (mem.load (buf + 44) 1 = 8 →
      48 ≤ len ∧ 24 + totalLength mem buf ≤ len ∧ headerLength mem buf ≤ totalLength mem buf ∧
        44 + (totalLength mem buf - headerLength mem buf) ≤ len))

instance (mem : Memory) (buf len : Nat) : Decidable (LengthsFit mem buf len) :=
  inferInstanceAs (Decidable (_ ∧ (_ → _ → _ ∧ (_ → _))))

theorem icmpLength_le_iff {mem : Memory} {buf len : Nat} (short : len ≤ 4096) :
    buf + 24 + 20 + icmpLength mem (buf + 24) ≤ buf + len ↔
      headerLength mem buf ≤ totalLength mem buf ∧
        44 + (totalLength mem buf - headerLength mem buf) ≤ len := by
  have field : mem.load (buf + 24) 1 &&& 0x0F ≤ 0x0F := Nat.and_le_right
  have total : ntohs (mem.load (buf + 26) 2) < 2 ^ 16 := u16_lt _
  unfold icmpLength headerLength totalLength u32
  generalize mem.load (buf + 24) 1 &&& 0x0F = ihl at field ⊢
  rw [show buf + 24 + 2 = buf + 26 by omega]
  generalize ntohs (mem.load (buf + 26) 2) = length at total ⊢
  omega

theorem ipv4Fits_iff {mem : Memory} {buf len : Nat} (short : len ≤ 4096) (long : 44 ≤ len)
    (ipv4 : ntohs (mem.load (buf + 22) 2) = 0x0800) :
    Ipv4Fits mem (buf + 24) (buf + len) ↔ LengthsFit mem buf len := by
  unfold Ipv4Fits LengthsFit CarriesIcmp
  rw [icmpLength_le_iff short]
  simp only [totalLength, Nat.add_assoc, Nat.reduceAdd, ipv4, show 10 ≤ len by omega, long,
    true_and, true_implies, and_imp, Nat.add_le_add_iff_left]

/-- Without an ICMP packet for `my_ip` only the receive header has to fit. -/
theorem lengthsFit_of_not_icmp {mem : Memory} {buf len : Nat} (header : 10 ≤ len)
    (other : 44 ≤ len → ¬ CarriesIcmp mem buf) : LengthsFit mem buf len :=
  ⟨header, fun long icmp => absurd icmp (other long)⟩

/-- A frame that holds the receive header is handled within its bytes exactly
when its lengths fit. -/
theorem ethernetHandlePacket_inRange {buf len : Nat} (header : 10 ≤ len) (short : len ≤ 4096)
    (s : State) (fresh : s.accesses = []) :
    InRange buf (buf + len) ((ethernetHandlePacket (buf + 10) (len - 10)).run s).2 ↔
      LengthsFit s.mem buf len := by
  have start : InRange buf (buf + len) s := by
    intro addr member
    rw [fresh] at member
    cases member
  unfold ethernetHandlePacket
  by_cases runt : len - 10 < ethernetHdrSize
  · rw [if_pos runt]
    simp only [ethernetHdrSize] at runt
    exact iff_of_true start (lengthsFit_of_not_icmp header fun long => by omega)
  · simp only [ethernetHdrSize] at runt
    obtain ⟨opened, isOpened, openedMem, openedRange⟩ :=
      exists_hasRead buf (buf + len) s (buf + 10 + 12) 2
    have inRange : InRange buf (buf + len) opened := openedRange.mpr ⟨start, by omega⟩
    have mac : buf ≤ buf + 10 + 6 ∧ buf + 10 + 6 + 6 ≤ buf + len := by omega
    rw [if_neg (show ¬ len - 10 < ethernetHdrSize from runt), run_bind_of_eq (run_read16 _ _),
      isOpened]
    dsimp only [ethernetHdrSize]
    by_cases arp : ntohs (s.mem.load (buf + 10 + 12) 2) = 0x0806
    · have notIpv4 : ¬ CarriesIcmp s.mem buf := fun icmp => absurd (arp.symm.trans icmp.1) (by decide)
      rw [if_pos arp, arpHandle_inRange (by omega) mac]
      exact iff_of_true inRange (lengthsFit_of_not_icmp header fun _ => notIpv4)
    · rw [if_neg arp]
      by_cases ipv4 : ntohs (s.mem.load (buf + 10 + 12) 2) = 0x0800
      · rw [if_pos ipv4]
        rcases Nat.lt_or_ge len 44 with tooShort | long
        · have stops : (ipv4Handle (buf + 10 + 14) (len - 10 - 14) (buf + 10 + 6)).run opened =
              ((), opened) := by
            unfold ipv4Handle
            rw [if_pos (by simp only [ipv4HdrSize]; omega)]
            rfl
          rw [stops]
          exact iff_of_true inRange (lengthsFit_of_not_icmp header fun long => by omega)
        · rw [ipv4Handle_inRange (by omega) mac (by omega), openedMem, and_iff_right inRange]
          exact ipv4Fits_iff short long ipv4
      · rw [if_neg ipv4]
        exact iff_of_true inRange (lengthsFit_of_not_icmp header fun _ icmp => ipv4 icmp.1)

/-- The steps of an iteration behind the handler access no packet. -/
theorem accesses_pollRxOnce (s : State) :
    (pollRxOnce.run s).2.accesses = ((receivePacket s.rxq.nextUsed).run s).2.accesses := by
  unfold pollRxOnce
  rw [run_get_bind, StateT.run_bind]
  generalize (receivePacket _).run _ = received
  rfl

theorem accesses_receivePacket_of_skip {elem : UsedElem} (s : State)
    (skip : ¬ u32 (2 ^ 32 - virtioHdrSize + elem.len) > 0) :
    ((receivePacket elem).run s).2.accesses = s.accesses := by
  unfold receivePacket
  rw [run_get_bind, if_neg skip]
  rfl

theorem accesses_receivePacket_of_handle {elem : UsedElem} (s : State)
    (handle : u32 (2 ^ 32 - virtioHdrSize + elem.len) > 0) :
    ((receivePacket elem).run s).2.accesses =
      ((ethernetHandlePacket ((s.rxq.desc elem.id).addr + virtioHdrSize)
        (u32 (2 ^ 32 - virtioHdrSize + elem.len))).run s).2.accesses := by
  unfold receivePacket
  rw [run_get_bind, if_pos handle, StateT.run_bind]
  generalize (ethernetHandlePacket _ _).run _ = handled
  rfl

/-- A packet that is long enough has its EtherType read. -/
theorem ethertype_mem_accesses {packet len : Nat} (long : 14 ≤ len) (s : State) :
    packet + 12 ∈ ((ethernetHandlePacket packet len).run s).2.accesses := by
  have opened : packet + 12 ∈ (s.hasRead (packet + 12) 2).accesses :=
    List.mem_append_right _ (by simp)
  unfold ethernetHandlePacket
  rw [if_neg (show ¬ len < ethernetHdrSize from Nat.not_lt.mpr long),
    run_bind_of_eq (run_read16 _ _)]
  dsimp only
  split
  · exact (tolerates_accesses.arpHandle _ _ _ _).subset opened
  · split
    · exact (tolerates_accesses.ipv4Handle _ _ _ _).subset opened
    · exact opened

/-- The property of one received element, for a state that has recorded no
access yet. -/
theorem receivePacket_inRange {elem : UsedElem} (short : elem.len ≤ 4096) (s : State)
    (fresh : s.accesses = []) :
    InRange (s.rxq.desc elem.id).addr ((s.rxq.desc elem.id).addr + elem.len)
        ((receivePacket elem).run s).2 ↔
      LengthsFit s.mem (s.rxq.desc elem.id).addr elem.len := by
  rcases Nat.lt_trichotomy elem.len 10 with runt | empty | longer
  · -- the length wraps, and the EtherType behind the frame is read
    have wraps : u32 (2 ^ 32 - virtioHdrSize + elem.len) = 2 ^ 32 - 10 + elem.len := by
      simp only [u32, virtioHdrSize]
      omega
    refine iff_of_false (fun within => ?_) (fun fits => absurd fits.1 (by omega))
    unfold InRange at within
    rw [accesses_receivePacket_of_handle s (by rw [wraps]; omega), wraps] at within
    have outside := within _ (ethertype_mem_accesses (by omega) s)
    simp only [virtioHdrSize] at outside
    omega
  · have skip : ¬ u32 (2 ^ 32 - virtioHdrSize + elem.len) > 0 := by rw [empty]; decide
    refine iff_of_true ?_ (lengthsFit_of_not_icmp (by omega) fun long => by omega)
    unfold InRange
    rw [accesses_receivePacket_of_skip s skip, fresh]
    intro addr member
    cases member
  · have exact : u32 (2 ^ 32 - virtioHdrSize + elem.len) = elem.len - 10 := by
      simp only [u32, virtioHdrSize]
      omega
    unfold InRange
    rw [accesses_receivePacket_of_handle s (by rw [exact]; omega), exact]
    exact ethernetHandlePacket_inRange (by omega) short s fresh

/-- The buffer of the next used element. -/
def nextBuffer (s : State) : Nat := (s.rxq.desc s.rxq.nextUsed.id).addr

/-- In the next iteration of `net_poll_rx` every byte treated as packet content
is one of the bytes the device wrote into the buffer. -/
def ReadsReceivedBytes (s : State) : Prop :=
  ∀ addr ∈ (pollRxOnce.run { s with accesses := [] }).2.accesses,
    nextBuffer s ≤ addr ∧ addr < nextBuffer s + s.rxq.nextUsed.len

theorem readsReceivedBytes_iff {s : State} (short : s.rxq.nextUsed.len ≤ 4096) :
    ReadsReceivedBytes s ↔ LengthsFit s.mem (nextBuffer s) s.rxq.nextUsed.len := by
  unfold ReadsReceivedBytes
  rw [accesses_pollRxOnce]
  exact receivePacket_inRange short { s with accesses := [] } rfl

/-- Handling a received packet accesses only bytes the device wrote if and only
if the lengths of the frame are consistent. -/
theorem poll_reads_received_bytes_iff (s : State) (short : s.rxq.nextUsed.len ≤ 4096) :
    ReadsReceivedBytes s ↔ LengthsFit s.mem (nextBuffer s) s.rxq.nextUsed.len :=
  readsReceivedBytes_iff short

/-! ### A frame cut off behind the IPv4 header -/

/-- The buffer of descriptor 0 in the state below. -/
def cutOffBuffer : Nat := 0x41000000

/-- Memory whose buffer holds an IPv4 header for `my_ip` with protocol ICMP. -/
def cutOffMemory : Memory := fun addr =>
  if addr = cutOffBuffer + 22 then 8
  else if addr = cutOffBuffer + 33 then 1
  else if cutOffBuffer + 40 ≤ addr ∧ addr < cutOffBuffer + 44 then
    myIp.getD (addr - (cutOffBuffer + 40)) 0
  else 0

/-- A queue of 256 buffers; the device returned the first with `len` bytes. -/
def oneReceived (len : Nat) : Virtq where
  desc := fun id => ⟨cutOffBuffer + id * 4096, 4096, descFlagWrite, 0⟩
  availIdx := 256
  availRing := fun slot => slot
  usedIdx := 1
  usedRing := fun _ => ⟨0, len⟩
  qsize := 256
  lastUsedIdx := 0

def cutOffState (len : Nat) : State where
  mem := cutOffMemory
  pmm := Pmm.State.zero
  rxq := oneReceived len
  txq := oneReceived 0
  netMac := emulatedMac
  txDescIdx := 0
  notified := []
  accesses := []

/-- With 60 bytes the same packet is handled within them. -/
theorem poll_reads_received_bytes_iff_padded :
    ReadsReceivedBytes (cutOffState 60) ↔ LengthsFit cutOffMemory cutOffBuffer 60 :=
  poll_reads_received_bytes_iff (cutOffState 60) (by decide)

/-- With 44 bytes the ICMP type is read behind the frame. -/
theorem exists_read_behind_frame :
    (cutOffState 44).rxq.nextUsed.id < (cutOffState 44).rxq.qsize ∧
      (cutOffState 44).rxq.nextUsed.len ≤ 4096 ∧ ¬ ReadsReceivedBytes (cutOffState 44) := by
  refine ⟨by decide, by decide, ?_⟩
  rw [readsReceivedBytes_iff (by decide)]
  decide

end UniKernel.Net
