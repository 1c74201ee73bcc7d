import UniKernel.Net.Reply

/-!
Owns the handlers of received packets with events: `net_send` and the branch of an unknown
EtherType record what is of interest there and are parameters. The handlers are written out
again with these two; apart from the events they do what they do without them.
-/

namespace UniKernel.Net

open UniKernel.Lib

/-- A computation that records events, with the events so far. -/
abbrev Recording (ε : Type) := StateT (List ε) NetM

def record {ε : Type} (event : ε) : Recording ε Unit := modify fun events => events ++ [event]

/-- What the handlers call, with its events. -/
structure Calls (ε : Type) where
  netSend : List UInt8 → Recording ε Unit
  unknownEtherType : Recording ε Unit

namespace Calls

variable {ε : Type} (calls : Calls ε)

def arpHandle (payload len srcMac : Nat) : Recording ε Unit := do
  if len < arpPacketSize then return
  let opcode := ntohs (← read16 (payload + 6))
  if opcode ≠ 1 then return
  if (← memcmp (payload + 24) myIp) ≠ 0 then return
  let dstMac ← readBytes srcMac 6
  let senderMac ← readBytes (payload + 8) 6
  let senderIp ← readBytes (payload + 14) 4
  let netMac := (← (get : NetM State)).netMac.toList
  calls.netSend (ethernetFrame dstMac netMac (ntohs 0x0806)
    (arpPacket 2 netMac myIp senderMac senderIp))

def echoReply (ip icmp srcMac : Nat) : Recording ε Unit := do
  write8 icmp 0
  write16 (icmp + 2) 0
  let length := ntohs (← read16 (ip + 2))
  let versionIhl ← read8 ip
  let icmpLen := u32 (2 ^ 32 - (versionIhl &&& 0x0F) * 4 + length)
  let checksum ← calculateChecksum icmp icmpLen
  write16 (icmp + 2) (ntohs checksum)
  let tempIp ← readBytes (ip + 12) 4
  writeBytes (ip + 12) myIp
  writeBytes (ip + 16) tempIp
  let length := ntohs (← read16 (ip + 2))
  let dstMac ← readBytes srcMac 6
  let payload ← readBytes ip length
  calls.netSend (ethernetFrame dstMac (← (get : NetM State)).netMac.toList (ntohs 0x0800) payload)

def ipv4Handle (payload len srcMac : Nat) : Recording ε Unit := do
  if len < ipv4HdrSize then return
  if (← memcmp (payload + 16) myIp) ≠ 0 then return
  if (← read8 (payload + 9)) ≠ 1 then return
  let icmp := payload + ipv4HdrSize
  if (← read8 icmp) ≠ 8 then return
  calls.echoReply payload icmp srcMac

def ethernetHandlePacket (packet len : Nat) : Recording ε Unit := do
  if len < ethernetHdrSize then return
  let type := ntohs (← read16 (packet + 12))
  if type = 0x0806 then
    calls.arpHandle (packet + ethernetHdrSize) (len - ethernetHdrSize) (packet + 6)
  else if type = 0x0800 then
    calls.ipv4Handle (packet + ethernetHdrSize) (len - ethernetHdrSize) (packet + 6)
  else calls.unknownEtherType

def receivePacket (elem : UsedElem) : Recording ε Unit := do
  let hdr := ((← (get : NetM State)).rxq.desc elem.id).addr
  let packetLen := u32 (2 ^ 32 - virtioHdrSize + elem.len)
  if packetLen > 0 then calls.ethernetHandlePacket (hdr + virtioHdrSize) packetLen
  (modify fun s => { s with mem := CString.memset hdr 0 virtioHdrSize s.mem } : NetM Unit)

end Calls

/-! ### What is recorded -/

section Handlers

variable {ε : Type} {s middle : State} {events : List ε}

/-- A step without events comes first. -/
theorem run_lift_bind {α β : Type} {first : NetM α} {rest : α → Recording ε β} {value : α}
    (known : first.run s = (value, middle)) :
    (((first : Recording ε α) >>= rest).run events).run s =
      ((rest value).run events).run middle := by
  have steps : (((first : Recording ε α) >>= rest).run events).run s =
      ((rest (first.run s).1).run events).run (first.run s).2 := rfl
  rw [steps, known]

/-- A step whose events are known comes first. -/
theorem run_recorded_bind {α β : Type} {first : Recording ε α} {rest : α → Recording ε β}
    {after : List ε} {value : α} (known : (first.run events).run s = ((value, after), middle)) :
    ((first >>= rest).run events).run s = ((rest value).run after).run middle := by
  have steps : ((first >>= rest).run events).run s =
      ((rest ((first.run events).run s).1.1).run ((first.run events).run s).1.2).run
        ((first.run events).run s).2 := rfl
  rw [steps, known]

/-- What the calls record: `sent` is for `net_send`, and does not depend on memory. -/
structure Calls.Records (calls : Calls ε) (sent : State → List ε) (unknown : List ε) : Prop where
  netSend : ∀ frame events s, ((calls.netSend frame).run events).run s =
    (((), events ++ sent s), ((Net.netSend frame).run s).2)
  withMem : ∀ (s : State) mem accesses, sent (s.withMem mem accesses) = sent s
  unknownEtherType : ∀ events s, (calls.unknownEtherType.run events).run s =
    (((), events ++ unknown), s)

/-- What a handler does and records: with a reply, it leaves memory `mem` and sends `frame`. -/
def State.records (s : State) (sent : List ε) (reply : Option (Memory × List UInt8))
    (accesses : List Nat) (events : List ε) : (Unit × List ε) × State :=
  (((), events ++ if reply.isSome then sent else []), (s.answer reply accesses).2)

/-- Nothing more is done, and nothing is recorded. -/
theorem exists_records_none {sent : List ε} {reply : Option (Memory × List UInt8)}
    (noReply : reply = none) (accesses : List Nat) :
    ∃ accesses', (((), events), s.withMem s.mem accesses) =
      s.records sent reply accesses' events := by
  refine ⟨accesses, ?_⟩
  rw [noReply]
  simp [State.records, State.answer]

theorem run_get (s : State) : (get : NetM State).run s = (s, s) := rfl

namespace Calls

variable {calls : Calls ε} {sent : State → List ε} {unknown : List ε}

theorem Records.hasRead (known : calls.Records sent unknown) (s : State) (addr count : Nat) :
    sent (s.hasRead addr count) = sent s := known.withMem s s.mem _

theorem Records.reply (known : calls.Records sent unknown) (s : State) (mem : Memory)
    (frame : List UInt8) (accesses : List Nat) :
    ((calls.netSend frame).run events).run (s.withMem mem accesses) =
      s.records (sent s) (some (mem, frame)) accesses events := by
  rw [known.netSend, known.withMem]
  rfl

theorem Records.echoReply_run (known : calls.Records sent unknown) (ip srcMac : Nat) (s : State) :
    ∃ accesses, ((calls.echoReply ip (ip + 20) srcMac).run events).run s =
      s.records (sent s) (some (echoMemory s.mem ip, echoFrame s.netMac.toList s.mem ip srcMac)) accesses
        events := by
  have length : (echoCleared s.mem ip).load (ip + 2) 2 = s.mem.load (ip + 2) 2 :=
    load_echoCleared_header _ (by omega)
  have versionIhl : (echoCleared s.mem ip).load ip 1 = s.mem.load ip 1 :=
    load_echoCleared_header _ (by omega)
  have lengthAgain : (echoMemory s.mem ip).load (ip + 2) 2 = s.mem.load (ip + 2) 2 :=
    load_echoMemory_header _ (by omega)
  have sameChecksum : checksumOf (echoCleared s.mem ip) (ip + 20) (icmpLength s.mem ip) =
      checksumOf (echoCleared s.mem ip) (ip + 20) (icmpLength (echoCleared s.mem ip) ip) := by
    unfold icmpLength
    rw [length, versionIhl]
  unfold Calls.echoReply
  rw [run_lift_bind (run_write8 _ _ _), run_lift_bind (run_write16 _ _ _),
    run_lift_bind (run_read16 _ _), run_lift_bind (run_read8 _ _),
    run_lift_bind (calculateChecksum_run _ _ _), run_lift_bind (run_write16 _ _ _),
    run_lift_bind (run_readBytes _ _ _), run_lift_bind (run_writeBytes _ _ _),
    run_lift_bind (run_writeBytes _ _ _), run_lift_bind (run_read16 _ _),
    run_lift_bind (run_readBytes _ _ _), run_lift_bind (run_readBytes _ _ _),
    run_lift_bind (run_get _)]
  unfold echoFrame ipLength
  rw [← lengthAgain]
  unfold echoMemory echoMarked
  rw [sameChecksum]
  exact ⟨_, known.reply s _ _ _⟩

theorem Records.ipv4Handle_run (known : calls.Records sent unknown) (ip len srcMac : Nat) (s : State) :
    ∃ accesses, ((calls.ipv4Handle ip len srcMac).run events).run s =
      s.records (sent s) (ipv4Reply s.netMac.toList s.mem ip len srcMac) accesses events := by
  unfold Calls.ipv4Handle ipv4Reply
  by_cases short : len < ipv4HdrSize
  · rw [if_pos short, if_neg fun request : EchoRequest s.mem ip len =>
      absurd request.1 (Nat.not_le_of_lt short)]
    exact exists_records_none rfl s.accesses
  · have long : 20 ≤ len := Nat.le_of_not_lt short
    obtain ⟨order, count, -, compared, equal, -⟩ := memcmp_run (ip + 16) myIp s
    rw [if_neg short, run_lift_bind compared]
    by_cases mine : order = 0
    · have toMyIp := equal.mp mine
      rw [if_neg (not_not.mpr mine), run_lift_bind (run_read8 _ _), mem_hasRead]
      by_cases icmp : s.mem.load (ip + 9) 1 = 1
      · rw [if_neg (not_not.mpr icmp)]
        dsimp only [ipv4HdrSize]
        rw [run_lift_bind (run_read8 _ _), mem_hasRead, mem_hasRead]
        by_cases echo : s.mem.load (ip + 20) 1 = 8
        · rw [if_neg (not_not.mpr echo), if_pos (show EchoRequest s.mem ip len from ⟨long, toMyIp, icmp, echo⟩)]
          obtain ⟨accesses, replied⟩ :=
            known.echoReply_run ip srcMac (((s.hasRead (ip + 16) count).hasRead _ _).hasRead _ _)
          rw [known.hasRead, known.hasRead, known.hasRead] at replied
          exact ⟨accesses, replied⟩
        · rw [if_pos echo, if_neg fun request : EchoRequest s.mem ip len => echo request.2.2.2]
          exact exists_records_none rfl _
      · rw [if_pos icmp, if_neg fun request : EchoRequest s.mem ip len => icmp request.2.2.1]
        exact exists_records_none rfl _
    · rw [if_pos mine, if_neg fun request : EchoRequest s.mem ip len => mine (equal.mpr request.2.1)]
      exact exists_records_none rfl _

theorem Records.arpHandle_run (known : calls.Records sent unknown) (arp len srcMac : Nat) (s : State) :
    ∃ accesses, ((calls.arpHandle arp len srcMac).run events).run s =
      s.records (sent s) (arpReply s.netMac.toList s.mem arp len srcMac) accesses events := by
  unfold Calls.arpHandle arpReply
  by_cases short : len < arpPacketSize
  · rw [if_pos short, if_neg fun asked : ArpRequest s.mem arp len =>
      absurd asked.1 (Nat.not_le_of_lt short)]
    exact exists_records_none rfl s.accesses
  · have long : 28 ≤ len := Nat.le_of_not_lt short
    rw [if_neg short, run_lift_bind (run_read16 _ _)]
    dsimp only
    by_cases request : ntohs (s.mem.load (arp + 6) 2) = 1
    · obtain ⟨order, count, -, compared, equal, -⟩ := memcmp_run (arp + 24) myIp (s.hasRead (arp + 6) 2)
      rw [if_neg (not_not.mpr request), run_lift_bind compared]
      by_cases mine : order = 0
      · rw [if_neg (not_not.mpr mine), if_pos (show ArpRequest s.mem arp len from ⟨long, request, equal.mp mine⟩),
          run_lift_bind (run_readBytes _ _ _), run_lift_bind (run_readBytes _ _ _),
          run_lift_bind (run_readBytes _ _ _), run_lift_bind (run_get _)]
        exact ⟨_, known.reply s s.mem _ _⟩
      · rw [if_pos mine, if_neg fun asked : ArpRequest s.mem arp len => mine (equal.mpr asked.2.2)]
        exact exists_records_none rfl _
    · rw [if_pos request, if_neg fun asked : ArpRequest s.mem arp len => request asked.2.1]
      exact exists_records_none rfl _

/-- What `ethernet_handle_packet` records. -/
def packetRecords (sent unknown : List ε) (s : State) (packet len : Nat) : List ε :=
  if len < 14 then []
  else if etherType s.mem packet = 0x0806 ∨ etherType s.mem packet = 0x0800 then
    if (ethernetReply s.netMac.toList s.mem packet len).isSome then sent else []
  else unknown

theorem Records.ethernetHandlePacket_events (known : calls.Records sent unknown)
    (packet len : Nat) (s : State) :
    (((calls.ethernetHandlePacket packet len).run events).run s).1 =
      ((), events ++ packetRecords (sent s) unknown s packet len) := by
  unfold Calls.ethernetHandlePacket packetRecords ethernetReply etherType
  by_cases short : len < ethernetHdrSize
  · rw [if_pos short, if_pos (show len < 14 from short), List.append_nil]
    rfl
  · rw [if_neg short, if_neg (show ¬ len < 14 from short), run_lift_bind (run_read16 _ _)]
    dsimp only [ethernetHdrSize]
    by_cases arp : ntohs (s.mem.load (packet + 12) 2) = 0x0806
    · rcases known.arpHandle_run (packet + 14) (len - 14) (packet + 6)
        (s.hasRead (packet + 12) 2) with ⟨accesses, handled⟩
      rw [if_pos arp, handled, known.hasRead, if_pos (Or.inl arp), if_neg (show ¬ len < 14 from short),
        if_pos arp]
      rfl
    · by_cases ipv4 : ntohs (s.mem.load (packet + 12) 2) = 0x0800
      · rcases known.ipv4Handle_run (packet + 14) (len - 14) (packet + 6)
          (s.hasRead (packet + 12) 2) with ⟨accesses, handled⟩
        rw [if_neg arp, if_pos ipv4, handled, known.hasRead, if_pos (Or.inr ipv4),
          if_neg (show ¬ len < 14 from short), if_neg arp, if_pos ipv4]
        rfl
      · rw [if_neg arp, if_neg ipv4, if_neg (fun either => either.elim arp ipv4),
          known.unknownEtherType]

/-- Steps without events behind a computation do not change what it recorded. -/
theorem events_bind_lift {first : Recording ε Unit} {rest : Unit → NetM Unit} {after : List ε}
    (known : ((first.run events).run s).1 = ((), after)) :
    (((first >>= fun value => (rest value : Recording ε Unit)).run events).run s).1 =
      ((), after) := by
  have steps : (((first >>= fun value => (rest value : Recording ε Unit)).run events).run s).1 =
      ((), ((first.run events).run s).1.2) := rfl
  rw [steps, known]

theorem Records.receivePacket_events (known : calls.Records sent unknown) (elem : UsedElem)
    (s : State) :
    (((calls.receivePacket elem).run events).run s).1 =
      ((), events ++
        if packetLength elem > 0 then
          packetRecords (sent s) unknown s ((s.rxq.desc elem.id).addr + virtioHdrSize)
            (packetLength elem)
        else []) := by
  unfold Calls.receivePacket
  rw [run_lift_bind (run_get s)]
  unfold packetLength
  generalize u32 (2 ^ 32 - virtioHdrSize + elem.len) = len
  by_cases nonempty : len > 0
  · rw [if_pos nonempty, if_pos nonempty]
    exact events_bind_lift (known.ethernetHandlePacket_events _ _ s)
  · rw [if_neg nonempty, if_neg nonempty, List.append_nil]
    rfl

end Calls

end Handlers

/-! ### Apart from the events -/

/-- `recorded` does to the state what `silent` does. -/
def Erases {ε α : Type} (recorded : Recording ε α) (silent : NetM α) : Prop :=
  ∀ events s, ((recorded.run events).run s).1.1 = (silent.run s).1 ∧
    ((recorded.run events).run s).2 = (silent.run s).2

namespace Erases

variable {ε α β : Type} {recorded : Recording ε α} {silent : NetM α}

theorem lift (silent : NetM α) : Erases (silent : Recording ε α) silent :=
  fun _ _ => ⟨rfl, rfl⟩

theorem pure (value : α) : Erases (Pure.pure value : Recording ε α) (Pure.pure value) :=
  fun _ _ => ⟨rfl, rfl⟩

theorem bind {rest : α → Recording ε β} {silentRest : α → NetM β} (first : Erases recorded silent)
    (later : ∀ value, Erases (rest value) (silentRest value)) :
    Erases (recorded >>= rest) (silent >>= silentRest) := by
  intro events s
  rcases known : (recorded.run events).run s with ⟨⟨value, after⟩, middle⟩
  have same := first events s
  rw [known] at same
  obtain ⟨rfl, rfl⟩ := same
  rw [run_recorded_bind known]
  exact later _ _ _

theorem ite {condition : Prop} [Decidable condition] {other : Recording ε α} {silentOther : NetM α}
    (first : Erases recorded silent) (second : Erases other silentOther) :
    Erases (if condition then recorded else other) (if condition then silent else silentOther) := by
  split
  · exact first
  · exact second

end Erases

namespace Calls

variable {ε : Type} {calls : Calls ε} {sent : State → List ε} {unknown : List ε}

theorem Records.erases_netSend (known : calls.Records sent unknown) (frame : List UInt8) :
    Erases (calls.netSend frame) (Net.netSend frame) := by
  intro events s
  rw [known.netSend]
  exact ⟨rfl, rfl⟩

theorem Records.erases_unknownEtherType (known : calls.Records sent unknown) :
    Erases calls.unknownEtherType (pure ()) := by
  intro events s
  rw [known.unknownEtherType]
  exact ⟨rfl, rfl⟩

theorem Records.erases_arpHandle (known : calls.Records sent unknown) (payload len srcMac : Nat) :
    Erases (calls.arpHandle payload len srcMac) (Net.arpHandle payload len srcMac) := by
  apply Erases.ite (Erases.pure _)
  apply Erases.bind (Erases.lift _)
  intro opcode
  apply Erases.ite (Erases.pure _)
  apply Erases.bind (Erases.lift _)
  intro order
  apply Erases.ite (Erases.pure _)
  apply Erases.bind (Erases.lift _)
  intro dstMac
  apply Erases.bind (Erases.lift _)
  intro senderMac
  apply Erases.bind (Erases.lift _)
  intro senderIp
  apply Erases.bind (Erases.lift _)
  intro s
  exact known.erases_netSend _

theorem Records.erases_echoReply (known : calls.Records sent unknown) (ip icmp srcMac : Nat) :
    Erases (calls.echoReply ip icmp srcMac) (Net.echoReply ip icmp srcMac) := by
  unfold Calls.echoReply Net.echoReply
  iterate 13
    apply Erases.bind (Erases.lift _)
    intro value
  exact known.erases_netSend _

theorem Records.erases_ipv4Handle (known : calls.Records sent unknown) (payload len srcMac : Nat) :
    Erases (calls.ipv4Handle payload len srcMac) (Net.ipv4Handle payload len srcMac) := by
  apply Erases.ite (Erases.pure _)
  apply Erases.bind (Erases.lift _)
  intro order
  apply Erases.ite (Erases.pure _)
  apply Erases.bind (Erases.lift _)
  intro protocol
  apply Erases.ite (Erases.pure _)
  apply Erases.bind (Erases.lift _)
  intro type
  apply Erases.ite (Erases.pure _)
  exact known.erases_echoReply _ _ _

theorem Records.erases_ethernetHandlePacket (known : calls.Records sent unknown) (packet len : Nat) :
    Erases (calls.ethernetHandlePacket packet len) (Net.ethernetHandlePacket packet len) := by
  apply Erases.ite (Erases.pure _)
  apply Erases.bind (Erases.lift _)
  intro type
  apply Erases.ite (known.erases_arpHandle _ _ _)
  exact Erases.ite (known.erases_ipv4Handle _ _ _) known.erases_unknownEtherType

theorem Records.erases_receivePacket (known : calls.Records sent unknown) (elem : UsedElem) :
    Erases (calls.receivePacket elem) (Net.receivePacket elem) := by
  apply Erases.bind (Erases.lift _)
  intro s
  exact Erases.ite (Erases.bind (known.erases_ethernetHandlePacket _ _) fun _ => Erases.lift _)
    (Erases.lift _)

end Calls

/-! ### Both -/

/-- `recorded` records `log`, and does what `silent` does. -/
def Logs {ε α : Type} (recorded : Recording ε α) (silent : NetM α) (log : State → List ε) : Prop :=
  ∀ before s, (recorded.run before).run s =
    (((silent.run s).1, before ++ log s), (silent.run s).2)

namespace Logs

variable {ε α β : Type} {recorded : Recording ε α} {silent : NetM α} {log log' : State → List ε}

theorem lift (silent : NetM α) : Logs (silent : Recording ε α) silent fun _ => [] := by
  intro before s
  rw [List.append_nil]
  rfl

theorem congr (logs : Logs recorded silent log) (same : ∀ s, log s = log' s) :
    Logs recorded silent log' := by
  intro before s
  rw [logs, same]

theorem bind {rest : α → Recording ε β} {silentRest : α → NetM β} {later : α → State → List ε}
    (first : Logs recorded silent log)
    (second : ∀ value, Logs (rest value) (silentRest value) (later value)) :
    Logs (recorded >>= rest) (silent >>= silentRest)
      fun s => log s ++ later (silent.run s).1 (silent.run s).2 := by
  intro before s
  have silentSteps : (silent >>= silentRest).run s =
      (silentRest (silent.run s).1).run (silent.run s).2 := rfl
  rw [run_recorded_bind (first before s), second, silentSteps, List.append_assoc]

end Logs

end UniKernel.Net
