import Mathlib.Data.List.Lex
import Mathlib.Data.UInt

/-!
Owns the lexicographic order of byte texts as a number: the difference of the
first bytes in which they differ, where the end of a text counts as 0. Its sign
decides the order if only ends count as 0. Nothing here names the kernel.
-/

namespace UniKernel.Lib

/-- The difference of two texts in the first place where they differ. -/
def firstDifference : List UInt8 → List UInt8 → Int
  | [], [] => 0
  | [], d :: _ => -d.toNat
  | c :: _, [] => c.toNat
  | c :: left, d :: right => if c = d then firstDifference left right else c.toNat - d.toNat

/-- The end of a text is not taken for a byte of the other one. -/
def EndsDiffer (left right : List UInt8) : Prop :=
  left.length = right.length ∨ ((∀ c ∈ left, c ≠ 0) ∧ ∀ d ∈ right, d ≠ 0)

/-- A number is negative, 0 or positive as a text is below, equal to or above another. -/
structure Decides (value : Int) (left right : List UInt8) : Prop where
  neg_iff : value < 0 ↔ left < right
  zero_iff : value = 0 ↔ left = right
  pos_iff : 0 < value ↔ right < left

variable {left right : List UInt8} {c d : UInt8}

theorem EndsDiffer.symm (ends : EndsDiffer left right) : EndsDiffer right left := by
  obtain same | nonzero := ends
  · exact .inl same.symm
  · exact .inr nonzero.symm

theorem EndsDiffer.tail (ends : EndsDiffer (c :: left) (d :: right)) : EndsDiffer left right := by
  obtain same | ⟨nonzero, nonzero'⟩ := ends
  · exact .inl (Nat.succ.inj same)
  · exact .inr ⟨fun other member => nonzero other (List.mem_cons_of_mem _ member),
      fun other member => nonzero' other (List.mem_cons_of_mem _ member)⟩

theorem EndsDiffer.head (ends : EndsDiffer [] (d :: right)) : 0 < d.toNat := by
  obtain same | ⟨-, nonzero⟩ := ends
  · cases same
  · have notZero := nonzero d List.mem_cons_self
    apply Nat.pos_of_ne_zero
    intro isZero
    exact notZero (UInt8.toNat_inj.mp isZero)

theorem firstDifference_swap (left right : List UInt8) :
    firstDifference right left = -firstDifference left right := by
  induction left, right using firstDifference.induct with
  | case1 => rfl
  | case2 d rest => simp [firstDifference]
  | case3 c rest => simp [firstDifference]
  | case4 left c right inductionHypothesis => simp [firstDifference, inductionHypothesis]
  | case5 c left d right differ => simp [firstDifference, differ, Ne.symm differ]

theorem firstDifference_neg_iff (ends : EndsDiffer left right) :
    firstDifference left right < 0 ↔ left < right := by
  induction left, right using firstDifference.induct with
  | case1 => simp [firstDifference]
  | case2 d rest =>
      have positive := ends.head
      simp [firstDifference]
      omega
  | case3 c rest => simp [firstDifference]
  | case4 left c right inductionHypothesis =>
      rw [firstDifference, if_pos rfl, inductionHypothesis ends.tail, List.cons_lt_cons_iff]
      simp
  | case5 c left d right differ =>
      rw [firstDifference, if_neg differ, List.cons_lt_cons_iff, UInt8.lt_iff_toNat_lt]
      simp [differ]

theorem firstDifference_zero_iff (ends : EndsDiffer left right) :
    firstDifference left right = 0 ↔ left = right := by
  induction left, right using firstDifference.induct with
  | case1 => simp [firstDifference]
  | case2 d rest =>
      have positive := ends.head
      simp [firstDifference]
      omega
  | case3 c rest =>
      have positive := ends.symm.head
      simp [firstDifference]
      omega
  | case4 left c right inductionHypothesis =>
      rw [firstDifference, if_pos rfl, inductionHypothesis ends.tail]
      simp
  | case5 c left d right differ =>
      have apart : c.toNat ≠ d.toNat := fun same => differ (UInt8.toNat_inj.mp same)
      rw [firstDifference, if_neg differ]
      simp [differ]
      omega

/-- The sign of the first difference is the lexicographic order. -/
theorem firstDifference_decides (ends : EndsDiffer left right) :
    Decides (firstDifference left right) left right where
  neg_iff := firstDifference_neg_iff ends
  zero_iff := firstDifference_zero_iff ends
  pos_iff := by
    have swapped := firstDifference_neg_iff ends.symm
    rw [firstDifference_swap] at swapped
    rw [← swapped]
    omega

end UniKernel.Lib
