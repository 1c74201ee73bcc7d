import UniKernel.Lib.Memory

/-!
Owns the memory functions of `src/string.c` that the allocator and the network
driver call: `memcpy` and `memset` with their 16-byte vector loops, and
`memcmp`. For ranges that do not overlap, `memcpy` copies byte by byte.
-/

namespace UniKernel.CString

open UniKernel.Lib

/-- One 16-byte vector load at `src` followed by the store at `dst`. -/
def copyChunk (dst src : Nat) (mem : Memory) : Memory := fun addr =>
  if dst ≤ addr ∧ addr < dst + 16 then mem (src + (addr - dst)) else mem addr

/-- The tail loop `while (n--) *d++ = *s++;`. -/
def copyBytes (mem : Memory) (dst src : Nat) : Nat → Memory
  | 0 => mem
  | n + 1 => copyBytes (Function.update mem dst (mem src)) (dst + 1) (src + 1) n

/-- The loop `while (n >= 16)` of `memcpy`, `chunks` times. -/
def copyChunks (mem : Memory) (dst src : Nat) : Nat → Memory
  | 0 => mem
  | chunks + 1 => copyChunks (copyChunk dst src mem) (dst + 16) (src + 16) chunks

def memcpy (dst src n : Nat) (mem : Memory) : Memory :=
  let chunks := n / 16
  copyBytes (copyChunks mem dst src chunks) (dst + 16 * chunks) (src + 16 * chunks) (n % 16)

/-- The loop `while (n--) *a++ = (unsigned char)c;`. -/
def setBytes (mem : Memory) (dst : Nat) (value : UInt8) : Nat → Memory
  | 0 => mem
  | n + 1 => setBytes (Function.update mem dst value) (dst + 1) value n

/-- One 16-byte vector store of the repeated byte. -/
def setChunk (dst : Nat) (value : UInt8) (mem : Memory) : Memory := fun addr =>
  if dst ≤ addr ∧ addr < dst + 16 then value else mem addr

/-- The loop `while (n >= 16)` of `memset`, `chunks` times. -/
def setChunks (mem : Memory) (dst : Nat) (value : UInt8) : Nat → Memory
  | 0 => mem
  | chunks + 1 => setChunks (setChunk dst value mem) (dst + 16) value chunks

def memset (dst c n : Nat) (mem : Memory) : Memory :=
  let chunks := n / 16
  setBytes (setChunks mem dst (UInt8.ofNat c) chunks) (dst + 16 * chunks) (UInt8.ofNat c) (n % 16)

/-! ### Effect on memory -/

/-- From the first byte up, no byte is overwritten before it is read. -/
theorem copyBytes_apply (mem : Memory) (dst src n : Nat)
    (apart : src + n ≤ dst ∨ dst ≤ src) (addr : Nat) :
    copyBytes mem dst src n addr =
      if dst ≤ addr ∧ addr < dst + n then mem (src + (addr - dst)) else mem addr := by
  induction n generalizing mem dst src with
  | zero => rw [copyBytes, if_neg (by omega)]
  | succ n inductionHypothesis =>
      rw [copyBytes, inductionHypothesis _ _ _ (by omega)]
      by_cases first : addr = dst
      · subst first
        rw [if_neg (by omega), if_pos (by omega), Function.update_self, Nat.sub_self, Nat.add_zero]
      · by_cases inside : dst ≤ addr ∧ addr < dst + (n + 1)
        · rw [if_pos (by omega), if_pos inside, Function.update_of_ne (by omega)]
          congr 1
          omega
        · rw [if_neg (by omega), if_neg inside, Function.update_of_ne first]

theorem copyChunks_apply (mem : Memory) (dst src chunks : Nat)
    (apart : src + 16 * chunks ≤ dst ∨ dst + 16 * chunks ≤ src) (addr : Nat) :
    copyChunks mem dst src chunks addr =
      if dst ≤ addr ∧ addr < dst + 16 * chunks then mem (src + (addr - dst)) else mem addr := by
  induction chunks generalizing mem dst src with
  | zero => rw [copyChunks, if_neg (by omega)]
  | succ chunks inductionHypothesis =>
      rw [copyChunks, inductionHypothesis _ _ _ (by omega)]
      unfold copyChunk
      by_cases later : dst + 16 ≤ addr ∧ addr < dst + 16 + 16 * chunks
      · rw [if_pos later, if_neg (by omega), if_pos (by omega)]
        congr 1
        omega
      · rw [if_neg later]
        by_cases first : dst ≤ addr ∧ addr < dst + 16
        · rw [if_pos first, if_pos (by omega)]
        · rw [if_neg first, if_neg (by omega)]

/-- On ranges that do not overlap, `memcpy` copies exactly `n` bytes. -/
theorem memcpy_apply {dst src n : Nat} (apart : src + n ≤ dst ∨ dst + n ≤ src)
    (mem : Memory) (addr : Nat) :
    memcpy dst src n mem addr =
      if dst ≤ addr ∧ addr < dst + n then mem (src + (addr - dst)) else mem addr := by
  simp only [memcpy]
  rw [copyBytes_apply _ _ _ _ (by omega)]
  by_cases tail : dst + 16 * (n / 16) ≤ addr ∧ addr < dst + 16 * (n / 16) + n % 16
  · rw [if_pos tail, copyChunks_apply _ _ _ _ (by omega), if_neg (by omega), if_pos (by omega)]
    congr 1
    omega
  · rw [if_neg tail, copyChunks_apply _ _ _ _ (by omega)]
    by_cases body : dst ≤ addr ∧ addr < dst + 16 * (n / 16)
    · rw [if_pos body, if_pos (by omega)]
    · rw [if_neg body, if_neg (by omega)]

theorem setBytes_apply (mem : Memory) (dst : Nat) (value : UInt8) (n addr : Nat) :
    setBytes mem dst value n addr = if dst ≤ addr ∧ addr < dst + n then value else mem addr := by
  induction n generalizing mem dst with
  | zero => rw [setBytes, if_neg (by omega)]
  | succ n inductionHypothesis =>
      rw [setBytes, inductionHypothesis]
      by_cases first : addr = dst
      · subst first
        rw [if_neg (by omega), if_pos (by omega), Function.update_self]
      · rw [Function.update_of_ne first]
        by_cases inside : dst ≤ addr ∧ addr < dst + (n + 1)
        · rw [if_pos (by omega), if_pos inside]
        · rw [if_neg (by omega), if_neg inside]

theorem setChunks_apply (mem : Memory) (dst : Nat) (value : UInt8) (chunks addr : Nat) :
    setChunks mem dst value chunks addr =
      if dst ≤ addr ∧ addr < dst + 16 * chunks then value else mem addr := by
  induction chunks generalizing mem dst with
  | zero => rw [setChunks, if_neg (by omega)]
  | succ chunks inductionHypothesis =>
      rw [setChunks, inductionHypothesis]
      unfold setChunk
      by_cases inside : dst ≤ addr ∧ addr < dst + 16 * (chunks + 1)
      · rw [if_pos inside]
        split
        · rfl
        · rw [if_pos (by omega)]
      · rw [if_neg (by omega), if_neg (by omega), if_neg inside]

/-- `memset` fills exactly `n` bytes. -/
theorem memset_apply (dst c n : Nat) (mem : Memory) (addr : Nat) :
    memset dst c n mem addr =
      if dst ≤ addr ∧ addr < dst + n then UInt8.ofNat c else mem addr := by
  simp only [memset]
  rw [setBytes_apply, setChunks_apply]
  by_cases inside : dst ≤ addr ∧ addr < dst + n
  · rw [if_pos inside]
    split
    · rfl
    · rw [if_pos (by omega)]
  · rw [if_neg (by omega), if_neg (by omega), if_neg inside]

end UniKernel.CString
