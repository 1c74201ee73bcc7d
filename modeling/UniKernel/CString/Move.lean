import UniKernel.CString.Model

/-!
Owns `memmove` of `src/string.c`. The direction of the copy is chosen so that no
byte of the source is overwritten before it is read; on ranges that do not overlap
the result is that of `memcpy`.
-/

namespace UniKernel.CString

open UniKernel.Lib

/-- The loop `while (n--) *(--d) = *(--s);`. -/
def copyBytesBack (mem : Memory) (d s : Nat) : Nat → Memory
  | 0 => mem
  | n + 1 => copyBytesBack (Function.update mem (d - 1) (mem (s - 1))) (d - 1) (s - 1) n

def memmove (dst src n : Nat) (mem : Memory) : Memory :=
  if dst < src then copyBytes mem dst src n else copyBytesBack mem (dst + n) (src + n) n

/-- From the last byte down, the bytes that are still to be read lie below the ones
that are written. -/
theorem copyBytesBack_apply (mem : Memory) {dst src n : Nat} (above : src ≤ dst) (addr : Nat) :
    copyBytesBack mem (dst + n) (src + n) n addr =
      if dst ≤ addr ∧ addr < dst + n then mem (src + (addr - dst)) else mem addr := by
  induction n generalizing mem with
  | zero => rw [copyBytesBack, if_neg (by omega)]
  | succ n inductionHypothesis =>
      rw [copyBytesBack, ← Nat.add_assoc, ← Nat.add_assoc, Nat.add_sub_cancel, Nat.add_sub_cancel,
        inductionHypothesis]
      by_cases later : dst ≤ addr ∧ addr < dst + n
      · rw [if_pos later, if_pos (by omega), Function.update_of_ne (by omega)]
      · rw [if_neg later]
        by_cases last : addr = dst + n
        · rw [last, if_pos (by omega), Function.update_self, Nat.add_sub_cancel_left]
        · rw [if_neg (by omega), Function.update_of_ne last]

/-- Wherever the ranges lie, the source as it was is copied. -/
theorem memmove_apply (dst src n : Nat) (mem : Memory) (addr : Nat) :
    memmove dst src n mem addr =
      if dst ≤ addr ∧ addr < dst + n then mem (src + (addr - dst)) else mem addr := by
  unfold memmove
  split
  · next below => exact copyBytes_apply mem dst src n (Or.inr (Nat.le_of_lt below)) addr
  · next above => exact copyBytesBack_apply mem (Nat.not_lt.mp above) addr

/-- `memmove` copies the source as it was and changes nothing else, and `memcpy`
leaves the same memory if the ranges do not overlap. -/
theorem memmove_copies (mem : Memory) (dst src n : Nat) :
    (∀ i < n, memmove dst src n mem (dst + i) = mem (src + i)) ∧
      (∀ addr, addr < dst ∨ dst + n ≤ addr → memmove dst src n mem addr = mem addr) ∧
      (src + n ≤ dst ∨ dst + n ≤ src → memcpy dst src n mem = memmove dst src n mem) := by
  refine ⟨?_, ?_, ?_⟩
  · intro i below
    rw [memmove_apply, if_pos (by omega), Nat.add_sub_cancel_left]
  · intro addr outside
    rw [memmove_apply, if_neg (by omega)]
  · intro apart
    funext addr
    rw [memcpy_apply apart, memmove_apply]

end UniKernel.CString
