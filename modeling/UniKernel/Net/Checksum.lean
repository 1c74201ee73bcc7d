import UniKernel.Lib.InternetChecksum
import UniKernel.Net.Receive

/-!
Owns what `calculate_checksum` computes: the exact sum its 32-bit accumulator
stands for, the lengths for which it cannot overflow, and its agreement with the
Internet checksum. A packet whose checksum field was cleared, summed and stored
in network order verifies.
-/

namespace UniKernel.Net

open UniKernel.Lib

/-- The `length` bytes from `data` on. -/
def bytesAt (mem : Memory) (data length : Nat) : List UInt8 :=
  (List.range length).map fun i => mem (data + i)

/-- The big-endian word at `addr`. -/
def wordAt (mem : Memory) (addr : Nat) : Nat := (mem addr).toNat * 256 + (mem (addr + 1)).toNat

/-- What the word loop of `calculate_checksum` adds up, without overflow. -/
def wordTotal (mem : Memory) (data : Nat) : Nat → Nat
  | 0 => 0
  | count + 1 => wordTotal mem data count + wordAt mem (data + 2 * count)

/-- The accumulator of `calculate_checksum` before the fold, without overflow. -/
def checksumTotal (mem : Memory) (data length : Nat) : Nat :=
  wordTotal mem data (length / 2) +
    if length % 2 ≠ 0 then (mem (data + (length - 1))).toNat * 256 else 0

section Total

variable {mem mem' : Memory} {data length count : Nat}

theorem wordAt_lt (mem : Memory) (addr : Nat) : wordAt mem addr < 2 ^ 16 := by
  have high := (mem addr).toNat_lt
  have low := (mem (addr + 1)).toNat_lt
  unfold wordAt
  omega

theorem wordTotal_le (mem : Memory) (data count : Nat) :
    wordTotal mem data count ≤ 0xffff * count := by
  induction count with
  | zero => exact Nat.le_refl 0
  | succ count inductionHypothesis =>
      have word := wordAt_lt mem (data + 2 * count)
      rw [wordTotal]
      omega

/-- No sum over at most 131074 bytes overflows. -/
theorem checksumTotal_lt (mem : Memory) (data : Nat) (short : length ≤ 131074) :
    checksumTotal mem data length < 2 ^ 32 := by
  have words := wordTotal_le mem data (length / 2)
  have last := (mem (data + (length - 1))).toNat_lt
  unfold checksumTotal
  split <;> omega

theorem wordTotal_congr (same : ∀ i, i < 2 * count → mem' (data + i) = mem (data + i)) :
    wordTotal mem' data count = wordTotal mem data count := by
  induction count with
  | zero => rfl
  | succ count inductionHypothesis =>
      have earlier := inductionHypothesis fun i below => same i (by omega)
      have high := same (2 * count) (by omega)
      have low := same (2 * count + 1) (by omega)
      rw [wordTotal, wordTotal, earlier, wordAt, wordAt, Nat.add_assoc data, high, low]

/-- Changing one word changes the sum by the difference of the words. -/
theorem wordTotal_update {index : Nat} (inside : index < count)
    (same : ∀ i, i < 2 * count → i ≠ 2 * index → i ≠ 2 * index + 1 →
      mem' (data + i) = mem (data + i)) :
    wordTotal mem' data count + wordAt mem (data + 2 * index) =
      wordTotal mem data count + wordAt mem' (data + 2 * index) := by
  induction count with
  | zero => exact absurd inside (Nat.not_lt_zero index)
  | succ count inductionHypothesis =>
      rw [wordTotal, wordTotal]
      rcases Nat.lt_succ_iff_lt_or_eq.mp inside with earlier | last
      · have high := same (2 * count) (by omega) (by omega) (by omega)
        have low := same (2 * count + 1) (by omega) (by omega) (by omega)
        have word : wordAt mem' (data + 2 * count) = wordAt mem (data + 2 * count) := by
          rw [wordAt, wordAt, Nat.add_assoc data, high, low]
        have before := inductionHypothesis earlier fun i below => same i (by omega)
        omega
      · have before : wordTotal mem' data count = wordTotal mem data count :=
          wordTotal_congr fun i below => same i (by omega) (by omega) (by omega)
        rw [last, before]
        omega

theorem checksumTotal_update {offset : Nat} (even : offset % 2 = 0) (inside : offset + 2 ≤ length)
    (same : ∀ i, i < length → i ≠ offset → i ≠ offset + 1 → mem' (data + i) = mem (data + i)) :
    checksumTotal mem' data length + wordAt mem (data + offset) =
      checksumTotal mem data length + wordAt mem' (data + offset) := by
  obtain ⟨index, isDouble⟩ : ∃ index, offset = 2 * index := ⟨offset / 2, by omega⟩
  subst isDouble
  have words : wordTotal mem' data (length / 2) + wordAt mem (data + 2 * index) =
      wordTotal mem data (length / 2) + wordAt mem' (data + 2 * index) :=
    wordTotal_update (by omega) fun i below => same i (by omega)
  unfold checksumTotal
  split
  · rw [same (length - 1) (by omega) (by omega) (by omega)]
    omega
  · omega

end Total

/-! ### What the code computes -/

section Code

variable {mem mem' : Memory} {data length count : Nat}

theorem load_one (mem : Memory) (addr : Nat) : mem.load addr 1 = (mem addr).toNat := by
  simp [Memory.load]

/-- `(data[i * 2] << 8) | data[i * 2 + 1]` is the big-endian word. -/
theorem shift_or_eq_wordAt (mem : Memory) (addr : Nat) :
    mem.load addr 1 <<< 8 ||| mem.load (addr + 1) 1 = wordAt mem addr := by
  have low := (mem (addr + 1)).toNat_lt
  rw [load_one, load_one, ← Nat.shiftLeft_add_eq_or_of_lt low, Nat.shiftLeft_eq]
  rfl

theorem wordSum_eq (mem : Memory) (data : Nat) (fits : wordTotal mem data count < 2 ^ 32) :
    wordSum mem data count = wordTotal mem data count := by
  induction count with
  | zero => rfl
  | succ count inductionHypothesis =>
      rw [wordTotal] at fits ⊢
      have word := shift_or_eq_wordAt mem (data + count * 2)
      rw [wordSum, inductionHypothesis (by omega), ← Nat.add_assoc data, word, Nat.mul_comm count,
        u32_of_lt fits]

/-- Folding the carries gives the residue. -/
theorem foldCarries_eq (acc : Nat) : foldCarries acc = onesResidue acc := by
  induction acc using foldCarries.induct with
  | case1 acc noCarry =>
      rw [Nat.shiftRight_eq_div_pow] at noCarry
      rw [foldCarries, if_pos (by rwa [Nat.shiftRight_eq_div_pow]), onesResidue_of_lt (by omega)]
  | case2 acc carries inductionHypothesis =>
      rw [foldCarries, if_neg carries, inductionHypothesis]
      rw [Nat.shiftRight_eq_div_pow] at carries ⊢
      rw [show 0xffff = 2 ^ 16 - 1 by rfl, Nat.and_two_pow_sub_one_eq_mod]
      apply onesResidue_congr <;> omega

/-- Without overflow the checksum is the complement of the residue. -/
theorem checksumOf_eq (fits : checksumTotal mem data length < 2 ^ 32) :
    checksumOf mem data length = 0xffff - onesResidue (checksumTotal mem data length) := by
  have bound := onesResidue_lt (checksumTotal mem data length)
  have complement : u16 (2 ^ 32 - 1 - onesResidue (checksumTotal mem data length)) =
      0xffff - onesResidue (checksumTotal mem data length) := by
    unfold u16
    omega
  rw [← complement, ← foldCarries_eq]
  unfold checksumOf checksumTotal at *
  have words : wordTotal mem data (length / 2) < 2 ^ 32 := by omega
  rw [wordSum_eq mem data words]
  dsimp only
  by_cases odd : length % 2 ≠ 0
  · rw [if_pos odd] at fits
    rw [if_pos odd, if_pos odd, load_one, Nat.shiftLeft_eq, u32_of_lt fits]
  · rw [if_neg odd, if_neg odd]
    rfl

end Code

/-! ### The Internet checksum -/

section Rfc

variable {mem : Memory} {data length : Nat}

theorem bytesAt_succ (mem : Memory) (data length : Nat) :
    bytesAt mem data (length + 1) = mem data :: bytesAt mem (data + 1) length := by
  unfold bytesAt
  rw [List.range_succ_eq_map, List.map_cons, List.map_map]
  refine congrArg₂ List.cons rfl (List.map_congr_left fun i _ => ?_)
  have next : data + (i + 1) = data + 1 + i := by omega
  exact congrArg mem next

theorem wordTotal_front (mem : Memory) (data count : Nat) :
    wordTotal mem data (count + 1) = wordAt mem data + wordTotal mem (data + 2) count := by
  induction count with
  | zero => exact Nat.add_comm _ _
  | succ count inductionHypothesis =>
      have next : data + 2 * (count + 1) = data + 2 + 2 * count := by omega
      rw [wordTotal, inductionHypothesis, wordTotal, next, Nat.add_assoc]

/-- The words of the buffer add up to the accumulator. -/
theorem sum_bigEndianWords (mem : Memory) (data length : Nat) :
    (bigEndianWords (bytesAt mem data length)).sum = checksumTotal mem data length := by
  induction length using Nat.twoStepInduction generalizing data with
  | zero => rfl
  | one => simp [bytesAt, bigEndianWords, checksumTotal, wordTotal, List.range_succ]
  | more length inductionHypothesis _ =>
      have parity : (length + 2) % 2 = length % 2 := Nat.add_mod_right length 2
      have half : (length + 2) / 2 = length / 2 + 1 := Nat.add_div_right length (by decide)
      rw [bytesAt_succ, bytesAt_succ, bigEndianWords, List.sum_cons, inductionHypothesis,
        checksumTotal, checksumTotal, parity, half, wordTotal_front]
      by_cases odd : length % 2 ≠ 0
      · have last : data + 1 + 1 + (length - 1) = data + (length + 2 - 1) := by omega
        rw [if_pos odd, if_pos odd, last]
        exact (Nat.add_assoc _ _ _).symm
      · rw [if_neg odd, if_neg odd]
        exact (Nat.add_assoc _ _ _).symm

theorem checksumOf_eq_internetChecksum (mem : Memory) (data : Nat) (short : length ≤ 131074) :
    checksumOf mem data length = internetChecksum (bytesAt mem data length) := by
  rw [checksumOf_eq (checksumTotal_lt mem data short), internetChecksum_eq, sum_bigEndianWords]

end Rfc

/-! ### A checksum that was stored verifies -/

section Verify

variable {mem mem' : Memory} {data length offset : Nat}

theorem ntohs_eq {value : Nat} (small : value < 2 ^ 16) :
    ntohs value = value % 256 * 256 + value / 256 := by
  have high : value >>> 8 < 2 ^ 8 := by
    rw [Nat.shiftRight_eq_div_pow]
    omega
  rw [ntohs, Nat.or_comm, ← Nat.shiftLeft_add_eq_or_of_lt high, Nat.shiftLeft_eq,
    Nat.shiftRight_eq_div_pow, u16]
  omega

/-- Two bytes stored in network order are that big-endian word. -/
theorem wordAt_store_ntohs (mem : Memory) (addr : Nat) {value : Nat} (small : value < 2 ^ 16) :
    wordAt (mem.store addr 2 (ntohs value)) addr = value := by
  have first : mem.store addr 2 (ntohs value) addr = UInt8.ofNat (ntohs value) := by
    rw [Memory.store, Memory.store_outside _ (by omega), Function.update_self]
  have second : mem.store addr 2 (ntohs value) (addr + 1) = UInt8.ofNat (ntohs value / 256) := by
    rw [Memory.store, Memory.store, Memory.store, Function.update_self]
  have low : (value % 256 * 256 + value / 256) % 256 = value / 256 := by omega
  have high : (value % 256 * 256 + value / 256) / 256 = value % 256 := by omega
  rw [wordAt, first, second, UInt8.toNat_ofNat', UInt8.toNat_ofNat', ntohs_eq small, low, high]
  omega

theorem wordAt_store_zero (mem : Memory) (addr : Nat) : wordAt (mem.store addr 2 0) addr = 0 := by
  have stored := wordAt_store_ntohs mem addr (show 0 < 2 ^ 16 by decide)
  rwa [show ntohs 0 = 0 by decide] at stored

theorem checksumOf_lt (mem : Memory) (data length : Nat) : checksumOf mem data length < 2 ^ 16 :=
  u16_lt _

/-- A buffer that carries the checksum of the buffer with a zero field verifies. -/
theorem checksumOf_eq_zero (short : length ≤ 131074) (even : offset % 2 = 0)
    (inside : offset + 2 ≤ length) (cleared : wordAt mem (data + offset) = 0)
    (marked : wordAt mem' (data + offset) = checksumOf mem data length)
    (same : ∀ i, i < length → i ≠ offset → i ≠ offset + 1 → mem' (data + i) = mem (data + i)) :
    checksumOf mem' data length = 0 := by
  have total := checksumTotal_update even inside same
  rw [cleared, marked, checksumOf_eq (checksumTotal_lt mem data short), Nat.add_zero] at total
  rw [checksumOf_eq (checksumTotal_lt mem' data short), total, onesResidue_add_complement]

/-- Clear the field, sum the buffer, store the result in network order, and sum
the buffer again. -/
def markThenVerify (data length offset : Nat) : NetM Nat := do
  write16 (data + offset) 0
  let checksum ← calculateChecksum data length
  write16 (data + offset) (ntohs checksum)
  calculateChecksum data length

theorem markThenVerify_run (s : State) (short : length ≤ 131074) (even : offset % 2 = 0)
    (inside : offset + 2 ≤ length) : ((markThenVerify data length offset).run s).1 = 0 := by
  unfold markThenVerify
  rw [run_bind_of_eq (run_write16 _ _ _), run_bind_of_eq (calculateChecksum_run _ _ _),
    run_bind_of_eq (run_write16 _ _ _), calculateChecksum_run]
  apply checksumOf_eq_zero short even inside
  · exact wordAt_store_zero s.mem (data + offset)
  · exact wordAt_store_ntohs _ _ (checksumOf_lt _ _ _)
  · intro i below notHigh notLow
    exact Memory.store_outside _ (by omega)

/-- For every buffer of at most 131074 bytes: a checksum field at an even offset that
was cleared, computed and stored in network order verifies, and the checksum is
that of RFC 1071, the complement of the one's-complement sum. -/
theorem checksum_verifies (s : State) (short : length ≤ 131074)
    (even : offset % 2 = 0) (inside : offset + 2 ≤ length) :
    ((markThenVerify data length offset).run s).1 = 0 ∧
      ((calculateChecksum data length).run s).1 =
        internetChecksum (bytesAt s.mem data length) := by
  refine ⟨markThenVerify_run s short even inside, ?_⟩
  rw [calculateChecksum_run]
  exact checksumOf_eq_internetChecksum s.mem data short

/-- An echo request of eleven bytes at the start of RAM. -/
def pinged : State :=
  { rxBoot Pmm.State.zero 4 with
    mem := Memory.storeBytes (fun _ => 0) 0x40000000 [8, 0, 0, 0, 0x12, 0x34, 0, 1, 0x61, 0x62, 0x63] }

theorem checksum_verifies_eleven_bytes :
    ((markThenVerify 0x40000000 11 2).run pinged).1 = 0 ∧
      ((calculateChecksum 0x40000000 11).run pinged).1 =
        internetChecksum (bytesAt pinged.mem 0x40000000 11) :=
  checksum_verifies pinged (by decide) (by decide) (by decide)

end Verify

end UniKernel.Net
