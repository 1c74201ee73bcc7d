import Mathlib.Algebra.Ring.Nat
import Mathlib.Data.Nat.Init
import Mathlib.Logic.Function.Basic
import Mathlib.Tactic.Ring

/-!
Owns byte-addressed memory: little-endian loads and stores of any width, what
a store does to loads inside and outside its range, and agreement of two
memories on a set of addresses. Nothing here names the kernel.
-/

namespace UniKernel.Lib

/-- A byte for every address. -/
abbrev Memory := Nat → UInt8

namespace Memory

/-- The little-endian value of the `width` bytes from `addr`. -/
def load (mem : Memory) (addr : Nat) : Nat → Nat
  | 0 => 0
  | width + 1 => (mem addr).toNat + 256 * load mem (addr + 1) width

/-- Write the low `width` bytes of `value` from `addr`, least significant first. -/
def store (mem : Memory) (addr : Nat) : Nat → Nat → Memory
  | 0, _ => mem
  | width + 1, value =>
      store (Function.update mem addr (UInt8.ofNat value)) (addr + 1) width (value / 256)

/-- Write the given bytes from `addr` on. -/
def storeBytes (mem : Memory) (addr : Nat) (bytes : List UInt8) : Memory := fun other =>
  if addr ≤ other ∧ other < addr + bytes.length then bytes.getD (other - addr) 0 else mem other

/-- Two memories hold the same bytes at every address of `region`. -/
def AgreeOn (region : Nat → Prop) (left right : Memory) : Prop :=
  ∀ addr, region addr → left addr = right addr

variable {mem left right : Memory}

/-- A store changes nothing outside its range. -/
theorem store_outside {addr width : Nat} (value : Nat) {other : Nat}
    (outside : other < addr ∨ addr + width ≤ other) :
    store mem addr width value other = mem other := by
  induction width generalizing mem addr value with
  | zero => rfl
  | succ width inductionHypothesis =>
      rw [store, inductionHypothesis _ (by omega)]
      exact Function.update_of_ne (by omega) _ _

/-- A store of zero clears the bytes in its range. -/
theorem store_zero (mem : Memory) (addr width other : Nat) :
    store mem addr width 0 other =
      if addr ≤ other ∧ other < addr + width then 0 else mem other := by
  induction width generalizing mem addr with
  | zero => exact (if_neg (by omega)).symm
  | succ width inductionHypothesis =>
      rw [store, Nat.zero_div, inductionHypothesis, Function.update_apply]
      -- the first byte is the updated one, the others are those of the rest
      by_cases inRest : addr + 1 ≤ other ∧ other < addr + 1 + width
      · rw [if_pos inRest, if_pos (by omega)]
      · by_cases first : other = addr
        · rw [if_neg inRest, if_pos first, if_pos (by omega)]
          rfl
        · rw [if_neg inRest, if_neg first, if_neg (by omega)]

/-- A load depends only on the bytes it reads. -/
theorem load_congr {addr width : Nat}
    (same : ∀ offset, offset < width → left (addr + offset) = right (addr + offset)) :
    load left addr width = load right addr width := by
  induction width generalizing addr with
  | zero => rfl
  | succ width inductionHypothesis =>
      have first := same 0 (Nat.zero_lt_succ width)
      have rest : load left (addr + 1) width = load right (addr + 1) width := by
        apply inductionHypothesis
        intro offset below
        have shifted := same (offset + 1) (by omega)
        rwa [show addr + (offset + 1) = addr + 1 + offset by omega] at shifted
      rw [Nat.add_zero] at first
      rw [load, load, first, rest]

/-- Zero bytes load as zero. -/
theorem load_eq_zero {addr width : Nat} (zero : ∀ offset, offset < width → mem (addr + offset) = 0) :
    load mem addr width = 0 := by
  induction width generalizing addr with
  | zero => rfl
  | succ width inductionHypothesis =>
      have first := zero 0 (Nat.zero_lt_succ width)
      have rest : load mem (addr + 1) width = 0 := by
        apply inductionHypothesis
        intro offset below
        have shifted := zero (offset + 1) (by omega)
        rwa [show addr + (offset + 1) = addr + 1 + offset by omega] at shifted
      rw [Nat.add_zero] at first
      rw [load, first, rest]
      rfl

theorem load_lt (mem : Memory) (addr width : Nat) : load mem addr width < 256 ^ width := by
  induction width generalizing addr with
  | zero => simp [load]
  | succ width inductionHypothesis =>
      have rest := inductionHypothesis (addr + 1)
      have first := (mem addr).toNat_lt
      rw [load, pow_succ]
      omega

/-- Reading back a store gives the stored value, truncated to its width. -/
theorem load_store_same (mem : Memory) (addr width value : Nat) :
    load (store mem addr width value) addr width = value % 256 ^ width := by
  induction width generalizing mem addr value with
  | zero => simp [load, Nat.mod_one]
  | succ width inductionHypothesis =>
      have digits : value % 256 ^ (width + 1) =
          value % 256 + 256 * (value / 256 % 256 ^ width) := by rw [pow_succ', Nat.mod_mul]
      rw [load, store, inductionHypothesis, store_outside _ (Or.inl (Nat.lt_succ_self addr)),
        Function.update_self, UInt8.toNat_ofNat', digits]

/-- A store leaves loads outside its range alone. -/
theorem load_store_disjoint {addr width other otherWidth : Nat} (value : Nat)
    (apart : other + otherWidth ≤ addr ∨ addr + width ≤ other) :
    load (store mem addr width value) other otherWidth = load mem other otherWidth :=
  load_congr fun _ below => store_outside value (by omega)

/-- Writing bytes leaves loads outside their range alone. -/
theorem load_storeBytes_disjoint {addr : Nat} (bytes : List UInt8) {other width : Nat}
    (apart : other + width ≤ addr ∨ addr + bytes.length ≤ other) :
    load (storeBytes mem addr bytes) other width = load mem other width := by
  apply load_congr
  intro offset below
  rw [storeBytes, if_neg (by omega)]

end Memory

end UniKernel.Lib
