import Mathlib.Algebra.Ring.Int.Defs
import Mathlib.Algebra.Ring.Nat
import Mathlib.Data.Nat.Init

/-!
Owns fixed-width unsigned arithmetic over `Nat`: truncation to 8, 16, 32 and
64 bits and rounding to a power-of-two granule. A machine word is the natural
number it denotes; every place where the width matters truncates explicitly.
Signed words are integers, truncated in the same way.
-/

namespace UniKernel.Lib

def u16 (value : Nat) : Nat := value % 2 ^ 16

def u32 (value : Nat) : Nat := value % 2 ^ 32

def u64 (value : Nat) : Nat := value % 2 ^ 64

theorem u16_of_lt {value : Nat} (small : value < 2 ^ 16) : u16 value = value :=
  Nat.mod_eq_of_lt small

theorem u32_of_lt {value : Nat} (small : value < 2 ^ 32) : u32 value = value :=
  Nat.mod_eq_of_lt small

theorem u64_of_lt {value : Nat} (small : value < 2 ^ 64) : u64 value = value :=
  Nat.mod_eq_of_lt small

theorem u16_le (value : Nat) : u16 value ≤ value := Nat.mod_le _ _

theorem u16_lt (value : Nat) : u16 value < 2 ^ 16 := Nat.mod_lt _ (by decide)

/-- The predecessor of a 32-bit word, wrapping at zero (`x--` on a `u32`). -/
def pred32 (value : Nat) : Nat := u32 (2 ^ 32 - 1 + value)

theorem pred32_of_pos {value : Nat} (positive : 0 < value) (small : value < 2 ^ 32) :
    pred32 value = value - 1 := by
  unfold pred32 u32
  omega

/-- `value & ~(granule - 1)` for a power-of-two granule. -/
def alignDown (value granule : Nat) : Nat := value / granule * granule

/-- The signed word with the low 32 bits of `value`. -/
def i32 (value : Int) : Int := value.bmod (2 ^ 32)

/-- The signed word with the low 64 bits of `value`. -/
def i64 (value : Int) : Int := value.bmod (2 ^ 64)

theorem i32_add (left right : Int) : i32 (i32 left + right) = i32 (left + right) :=
  Int.bmod_add_bmod

theorem i32_i32 (value : Int) : i32 (i32 value) = i32 value := Int.bmod_bmod

theorem le_i32 (value : Int) : -2 ^ 31 ≤ i32 value := Int.le_bmod (by decide)

theorem i32_lt (value : Int) : i32 value < 2 ^ 31 := Int.bmod_lt (by decide)

theorem le_i64 (value : Int) : -2 ^ 63 ≤ i64 value := Int.le_bmod (by decide)

theorem i64_lt (value : Int) : i64 value < 2 ^ 63 := Int.bmod_lt (by decide)

theorem i32_of_range {value : Int} (above : -2 ^ 31 ≤ value) (below : value < 2 ^ 31) :
    i32 value = value := by
  unfold i32
  rw [Int.bmod_def]
  split <;> omega

theorem i64_of_range {value : Int} (above : -2 ^ 63 ≤ value) (below : value < 2 ^ 63) :
    i64 value = value := by
  unfold i64
  rw [Int.bmod_def]
  split <;> omega

end UniKernel.Lib
