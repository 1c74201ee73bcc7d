import UniKernel.Net.Model

/-!
Owns what the packet handlers do to the driver's state: each primitive access
as an equation, and the one induction over the handlers' code. A relation that
every access to packet memory and every `net_send` respects is respected by all
of them.
-/

namespace UniKernel.Net

open UniKernel.Lib

/-- The state with other memory and more recorded accesses. -/
def State.after (s : State) (mem : Memory) (addr len : Nat) : State :=
  { s with mem := mem, accesses := s.accesses ++ List.range' addr len }

/-- The state after reading `len` bytes from `addr`. -/
def State.hasRead (s : State) (addr len : Nat) : State := s.after s.mem addr len

@[simp] theorem mem_after (s : State) (mem : Memory) (addr len : Nat) :
    (s.after mem addr len).mem = mem := rfl

@[simp] theorem mem_hasRead (s : State) (addr len : Nat) : (s.hasRead addr len).mem = s.mem := rfl

theorem hasRead_hasRead (s : State) (addr first second : Nat) :
    (s.hasRead addr first).hasRead (addr + first) second = s.hasRead addr (first + second) := by
  simp [State.hasRead, State.after, List.range'_append_1]

theorem hasRead_zero (s : State) (addr : Nat) : s.hasRead addr 0 = s := by
  simp [State.hasRead, State.after]

/-! ### What the primitives do -/

theorem run_read8 (addr : Nat) (s : State) :
    (read8 addr).run s = (s.mem.load addr 1, s.hasRead addr 1) := rfl

theorem run_read16 (addr : Nat) (s : State) :
    (read16 addr).run s = (s.mem.load addr 2, s.hasRead addr 2) := rfl

theorem run_readBytes (addr len : Nat) (s : State) :
    (readBytes addr len).run s =
      ((List.range len).map fun i => s.mem (addr + i), s.hasRead addr len) := rfl

theorem run_write8 (addr value : Nat) (s : State) :
    (write8 addr value).run s = ((), s.after (s.mem.store addr 1 value) addr 1) := rfl

theorem run_write16 (addr value : Nat) (s : State) :
    (write16 addr value).run s = ((), s.after (s.mem.store addr 2 value) addr 2) := rfl

theorem run_writeBytes (addr : Nat) (bytes : List UInt8) (s : State) :
    (writeBytes addr bytes).run s =
      ((), s.after (s.mem.storeBytes addr bytes) addr bytes.length) := rfl

/-- Running a sequence whose first part is known. -/
theorem run_bind_of_eq {α β : Type} {first : NetM α} {rest : α → NetM β} {s middle : State}
    {value : α} (known : first.run s = (value, middle)) :
    (first >>= rest).run s = (rest value).run middle := by
  rw [StateT.run_bind, known]
  rfl

/-- The value of the word loop as a function of memory. -/
def wordSum (mem : Memory) (data : Nat) : Nat → Nat
  | 0 => 0
  | count + 1 =>
      u32 (wordSum mem data count +
        (mem.load (data + count * 2) 1 <<< 8 ||| mem.load (data + (count * 2 + 1)) 1))

theorem run_get_bind {β : Type} (rest : State → NetM β) (s : State) :
    ((get : NetM State) >>= rest).run s = (rest s).run s := rfl

theorem sumWords_run (data count : Nat) (s : State) :
    (sumWords data count).run s = (wordSum s.mem data count, s.hasRead data (2 * count)) := by
  induction count with
  | zero => rw [Nat.mul_zero, hasRead_zero]; rfl
  | succ count inductionHypothesis =>
      have highByte := hasRead_hasRead s data (count * 2) 1
      have lowByte := hasRead_hasRead s data (count * 2 + 1) 1
      rw [Nat.mul_comm] at inductionHypothesis
      rw [sumWords, run_bind_of_eq inductionHypothesis, run_bind_of_eq (run_read8 _ _),
        run_bind_of_eq (run_read8 _ _), highByte, lowByte, Nat.mul_comm 2,
        Nat.succ_mul, wordSum]
      rfl

/-- The value of `calculate_checksum` as a function of memory. -/
def checksumOf (mem : Memory) (data length : Nat) : Nat :=
  let acc := wordSum mem data (length / 2)
  let acc :=
    if length % 2 ≠ 0 then u32 (acc + mem.load (data + (length - 1)) 1 <<< 8) else acc
  u16 (2 ^ 32 - 1 - foldCarries acc)

/-- `calculate_checksum` reads exactly the bytes it is given. -/
theorem calculateChecksum_run (data length : Nat) (s : State) :
    (calculateChecksum data length).run s =
      (checksumOf s.mem data length, s.hasRead data length) := by
  rw [calculateChecksum, run_bind_of_eq (sumWords_run data (length / 2) s), checksumOf]
  rcases Nat.mod_two_eq_zero_or_one length with even | odd
  · have words : 2 * (length / 2) = length := by omega
    rw [words, even]
    rfl
  · have words : 2 * (length / 2) = length - 1 := by omega
    have whole : length - 1 + 1 = length := by omega
    have last := hasRead_hasRead s data (length - 1) 1
    rw [whole] at last
    rw [words, odd, ← last]
    rfl

/-- `memcmp` reads no byte behind the range it compares, and all of it when the
bytes are equal. -/
theorem memcmp_run (addr : Nat) (bytes : List UInt8) (s : State) :
    ∃ order count, count ≤ bytes.length ∧
      (memcmp addr bytes).run s = (order, s.hasRead addr count) ∧
      (order = 0 ↔ ∀ i, i < bytes.length → s.mem (addr + i) = bytes.getD i 0) ∧
      (order = 0 → count = bytes.length) := by
  induction bytes generalizing addr s with
  | nil => exact ⟨0, 0, Nat.le_refl 0, by rw [hasRead_zero]; rfl, by simp, fun _ => rfl⟩
  | cons byte rest inductionHypothesis =>
      have first : s.mem.load addr 1 = (s.mem addr).toNat := by simp [Memory.load]
      rw [memcmp, run_bind_of_eq (run_read8 addr s), first]
      by_cases same : s.mem addr = byte
      · obtain ⟨order, count, short, run, equal, whole⟩ :=
          inductionHypothesis (addr + 1) (s.hasRead addr 1)
        refine ⟨order, 1 + count, by simp only [List.length_cons]; omega, ?_, ?_, ?_⟩
        · rw [if_neg (by simp [same]), run, hasRead_hasRead]
        · rw [equal]
          constructor
          · intro rest i below
            cases i with
            | zero => simpa using same
            | succ i =>
                have shifted := rest i (by simpa using below)
                simpa [Nat.add_assoc, Nat.add_comm 1 i] using shifted
          · intro all i below
            have shifted := all (i + 1) (by simpa using below)
            simpa [Nat.add_assoc, Nat.add_comm 1 i] using shifted
        · intro zero
          rw [whole zero, List.length_cons, Nat.add_comm]
      · have differ : (s.mem addr).toNat ≠ byte.toNat := fun equal => same (UInt8.toNat_inj.mp equal)
        have nonzero : ((s.mem addr).toNat : Int) - byte.toNat ≠ 0 := by omega
        refine ⟨_, 1, by simp, by rw [if_pos differ]; rfl, ?_, fun zero => absurd zero nonzero⟩
        refine ⟨fun zero => absurd zero nonzero, fun all => absurd ?_ same⟩
        simpa using all 0 (by simp)

/-- `net_send` accesses no packet: it copies from the stack into a new frame. -/
theorem accesses_netSend (macFrame : List UInt8) (s : State) :
    ((netSend macFrame).run s).2.accesses = s.accesses := by
  unfold netSend
  by_cases empty : (Pmm.pmmAllocFrame s.pmm).1 = 0
  · simp only [empty, StateT.run_bind, StateT.run_get, pure_bind]
    rfl
  · simp only [empty, StateT.run_bind, StateT.run_get, pure_bind]
    rfl

/-! ### Relations the handlers respect -/

/-- The step relates every state to the one it leaves. -/
def Respects {α : Type} (R : State → State → Prop) (step : NetM α) : Prop :=
  ∀ s : State, R s (step.run s).2

/-- A preorder on states that packet accesses and `net_send` respect. -/
structure Tolerates (R : State → State → Prop) : Prop where
  refl : ∀ s, R s s
  trans : ∀ {first second third}, R first second → R second third → R first third
  access : ∀ s mem addr len, R s (s.after mem addr len)
  send : ∀ macFrame, Respects R (netSend macFrame)

namespace Tolerates

variable {α β : Type} {R : State → State → Prop} (tolerates : Tolerates R)
include tolerates

theorem pure (value : α) : Respects R (Pure.pure value) := fun s => tolerates.refl s

theorem bind {first : NetM α} {rest : α → NetM β} (early : Respects R first)
    (late : ∀ value, Respects R (rest value)) : Respects R (first >>= rest) :=
  fun s => tolerates.trans (early s) (late (first.run s).1 (first.run s).2)

omit tolerates in
theorem ite {condition : Prop} [Decidable condition] {yes no : NetM α} (first : Respects R yes)
    (second : Respects R no) : Respects R (if condition then yes else no) := by
  split
  · exact first
  · exact second

theorem get : Respects R (MonadState.get : NetM State) := fun s => tolerates.refl s

theorem read8 (addr : Nat) : Respects R (read8 addr) := fun s => tolerates.access s _ _ _

theorem read16 (addr : Nat) : Respects R (read16 addr) := fun s => tolerates.access s _ _ _

theorem readBytes (addr len : Nat) : Respects R (readBytes addr len) :=
  fun s => tolerates.access s _ _ _

theorem write8 (addr value : Nat) : Respects R (write8 addr value) :=
  fun s => tolerates.access s _ _ _

theorem write16 (addr value : Nat) : Respects R (write16 addr value) :=
  fun s => tolerates.access s _ _ _

theorem writeBytes (addr : Nat) (bytes : List UInt8) : Respects R (writeBytes addr bytes) :=
  fun s => tolerates.access s _ _ _

theorem setMem (update : Memory → Memory) :
    Respects R (modify fun s : State => { s with mem := update s.mem } : NetM Unit) := by
  intro s
  have written := tolerates.access s (update s.mem) 0 0
  unfold State.after at written
  rwa [List.range'_zero, List.append_nil] at written

theorem memcmp (addr : Nat) (bytes : List UInt8) : Respects R (memcmp addr bytes) := by
  intro s
  rcases memcmp_run addr bytes s with ⟨order, count, -, compared, -⟩
  rw [compared]
  exact tolerates.access s _ _ _

theorem calculateChecksum (data length : Nat) : Respects R (calculateChecksum data length) := by
  intro s
  rw [calculateChecksum_run]
  exact tolerates.access s _ _ _

theorem arpHandle (payload len srcMac : Nat) : Respects R (arpHandle payload len srcMac) := by
  unfold Net.arpHandle
  apply ite (tolerates.pure _)
  apply tolerates.bind (tolerates.read16 _)
  intro opcode
  apply ite (tolerates.pure _)
  apply tolerates.bind (tolerates.memcmp _ _)
  intro order
  apply ite (tolerates.pure _)
  apply tolerates.bind (tolerates.readBytes _ _)
  intro dstMac
  apply tolerates.bind (tolerates.readBytes _ _)
  intro senderMac
  apply tolerates.bind (tolerates.readBytes _ _)
  intro senderIp
  exact tolerates.bind tolerates.get fun _ => tolerates.send _

theorem echoReply (ip icmp srcMac : Nat) : Respects R (echoReply ip icmp srcMac) := by
  unfold Net.echoReply
  apply tolerates.bind (tolerates.write8 _ _)
  intro typed
  apply tolerates.bind (tolerates.write16 _ _)
  intro cleared
  apply tolerates.bind (tolerates.read16 _)
  intro length
  apply tolerates.bind (tolerates.read8 _)
  intro versionIhl
  apply tolerates.bind (tolerates.calculateChecksum _ _)
  intro checksum
  apply tolerates.bind (tolerates.write16 _ _)
  intro marked
  apply tolerates.bind (tolerates.readBytes _ _)
  intro tempIp
  apply tolerates.bind (tolerates.writeBytes _ _)
  intro sourced
  apply tolerates.bind (tolerates.writeBytes _ _)
  intro swapped
  apply tolerates.bind (tolerates.read16 _)
  intro length
  apply tolerates.bind (tolerates.readBytes _ _)
  intro dstMac
  apply tolerates.bind (tolerates.readBytes _ _)
  intro payload
  exact tolerates.bind tolerates.get fun _ => tolerates.send _

theorem ipv4Handle (payload len srcMac : Nat) : Respects R (ipv4Handle payload len srcMac) := by
  unfold Net.ipv4Handle
  apply ite (tolerates.pure _)
  apply tolerates.bind (tolerates.memcmp _ _)
  intro order
  apply ite (tolerates.pure _)
  apply tolerates.bind (tolerates.read8 _)
  intro protocol
  apply ite (tolerates.pure _)
  apply tolerates.bind (tolerates.read8 _)
  intro type
  exact ite (tolerates.pure _) (tolerates.echoReply _ _ _)

theorem ethernetHandlePacket (packet len : Nat) : Respects R (ethernetHandlePacket packet len) := by
  unfold Net.ethernetHandlePacket
  apply ite (tolerates.pure _)
  apply tolerates.bind (tolerates.read16 _)
  intro type
  apply ite (tolerates.arpHandle _ _ _)
  exact ite (tolerates.ipv4Handle _ _ _) (tolerates.pure _)

theorem receivePacket (elem : UsedElem) : Respects R (receivePacket elem) := by
  unfold Net.receivePacket
  apply tolerates.bind tolerates.get
  intro s
  apply ite
  · exact tolerates.bind (tolerates.ethernetHandlePacket _ _) fun _ => tolerates.setMem _
  · exact tolerates.setMem _

end Tolerates

/-- Accesses are only added. -/
theorem tolerates_accesses : Tolerates fun before after => before.accesses <+: after.accesses where
  refl := fun _ => List.prefix_rfl
  trans := List.IsPrefix.trans
  access := fun _ _ _ _ => List.prefix_append _ _
  send := by
    intro macFrame s
    exact (accesses_netSend macFrame s).symm ▸ List.prefix_rfl

theorem rxq_netSend (macFrame : List UInt8) (s : State) :
    ((netSend macFrame).run s).2.rxq = s.rxq := by
  unfold netSend
  by_cases empty : (Pmm.pmmAllocFrame s.pmm).1 = 0
  · simp only [empty, StateT.run_bind, StateT.run_get, pure_bind]
    rfl
  · simp only [empty, StateT.run_bind, StateT.run_get, pure_bind]
    rfl

/-- The receive queue is left to `net_poll_rx` itself. -/
theorem tolerates_rxq : Tolerates fun before after => after.rxq = before.rxq where
  refl := fun _ => rfl
  trans := fun first second => second.trans first
  access := fun _ _ _ _ => rfl
  send := rxq_netSend

end UniKernel.Net
