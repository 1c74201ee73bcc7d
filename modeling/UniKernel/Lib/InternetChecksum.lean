import Mathlib.Algebra.BigOperators.Group.List.Basic
import Mathlib.Algebra.Ring.Nat
import Mathlib.Data.Nat.Init

/-!
Owns the Internet checksum of RFC 1071: one's-complement addition of 16-bit
words, the sum of a list of words as a residue of its integer sum, and the law
that a packet which carries the complement of its own sum verifies. Nothing here
names the kernel.
-/

namespace UniKernel.Lib

/-- One's-complement addition of 16-bit words: a carry goes around. -/
def onesAdd (left right : Nat) : Nat :=
  if left + right < 2 ^ 16 then left + right else left + right - 2 ^ 16 + 1

def onesSum : List Nat → Nat
  | [] => 0
  | word :: rest => onesAdd word (onesSum rest)

/-- The big-endian 16-bit words of a packet, padded with a zero byte. -/
def bigEndianWords : List UInt8 → List Nat
  | [] => []
  | [last] => [last.toNat * 256]
  | high :: low :: rest => (high.toNat * 256 + low.toNat) :: bigEndianWords rest

/-- The checksum field that belongs to a packet whose field is zero. -/
def internetChecksum (bytes : List UInt8) : Nat := 0xffff - onesSum (bigEndianWords bytes)

/-- The representative of an integer sum among 0 .. 65535; only the empty sum
is represented by 0. -/
def onesResidue (total : Nat) : Nat := if total = 0 then 0 else (total - 1) % 0xffff + 1

theorem onesResidue_of_lt {total : Nat} (small : total < 2 ^ 16) : onesResidue total = total := by
  unfold onesResidue
  split <;> omega

theorem onesResidue_lt (total : Nat) : onesResidue total < 2 ^ 16 := by
  unfold onesResidue
  split <;> omega

/-- Residues that agree modulo 65535 are equal when neither sum is empty. -/
theorem onesResidue_congr {left right : Nat} (mod : left % 0xffff = right % 0xffff)
    (zero : left = 0 ↔ right = 0) : onesResidue left = onesResidue right := by
  unfold onesResidue
  by_cases empty : left = 0
  · rw [if_pos empty, if_pos (zero.mp empty)]
  · rw [if_neg empty, if_neg (mt zero.mpr empty)]
    omega

theorem onesResidue_eq_zero {total : Nat} : onesResidue total = 0 ↔ total = 0 := by
  unfold onesResidue
  split <;> omega

theorem onesResidue_mod (total : Nat) : onesResidue total % 0xffff = total % 0xffff := by
  unfold onesResidue
  split <;> omega

theorem onesResidue_add (left right : Nat) :
    onesResidue (left + onesResidue right) = onesResidue (left + right) := by
  have mod := onesResidue_mod right
  have zero := @onesResidue_eq_zero right
  apply onesResidue_congr <;> omega

theorem onesAdd_eq_residue {left right : Nat} (leftSmall : left < 2 ^ 16)
    (rightSmall : right < 2 ^ 16) : onesAdd left right = onesResidue (left + right) := by
  unfold onesAdd onesResidue
  split <;> split <;> omega

/-- The one's-complement sum is the residue of the integer sum. -/
theorem onesSum_eq_residue {words : List Nat} (small : ∀ word ∈ words, word < 2 ^ 16) :
    onesSum words = onesResidue words.sum := by
  induction words with
  | nil => rfl
  | cons word rest inductionHypothesis =>
      have first := small word (List.mem_cons_self ..)
      have later := inductionHypothesis fun other member => small other (List.mem_cons_of_mem _ member)
      rw [onesSum, later, onesAdd_eq_residue first (onesResidue_lt _), onesResidue_add,
        List.sum_cons]

/-- Adding the complement of a sum to it gives all ones. -/
theorem onesResidue_add_complement (total : Nat) :
    onesResidue (total + (0xffff - onesResidue total)) = 0xffff := by
  have mod := onesResidue_mod total
  have bound := onesResidue_lt total
  have below : onesResidue total ≤ total := by
    unfold onesResidue
    split <;> omega
  generalize onesResidue total = residue at mod bound below ⊢
  unfold onesResidue
  split <;> omega

theorem bigEndianWords_lt {bytes : List UInt8} {word : Nat} (member : word ∈ bigEndianWords bytes) :
    word < 2 ^ 16 := by
  induction bytes using bigEndianWords.induct with
  | case1 => cases member
  | case2 last =>
      have small := last.toNat_lt
      rw [bigEndianWords, List.mem_singleton] at member
      omega
  | case3 high low rest inductionHypothesis =>
      have highSmall := high.toNat_lt
      have lowSmall := low.toNat_lt
      rw [bigEndianWords, List.mem_cons] at member
      rcases member with first | later
      · omega
      · exact inductionHypothesis later

theorem internetChecksum_eq (bytes : List UInt8) :
    internetChecksum bytes = 0xffff - onesResidue (bigEndianWords bytes).sum := by
  rw [internetChecksum, onesSum_eq_residue fun word member => bigEndianWords_lt member]

end UniKernel.Lib
