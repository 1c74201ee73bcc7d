import Mathlib.Algebra.Order.Group.Nat
import Mathlib.Data.Nat.Init

/-!
Owns change of units in two parts: a count of ticks as whole units and what is left
over in finer units. Nothing here names the kernel.
-/

namespace UniKernel.Lib

variable {ticks ticks' rate scale whole fine whole' fine' : Nat}

/-- Quotient and remainder are rescaled together to what the count is rescaled to. -/
theorem rescale_split (positive : 0 < rate) :
    ticks / rate * scale + ticks % rate * scale / rate = ticks * scale / rate := by
  have parts : ticks * scale = ticks % rate * scale + ticks / rate * scale * rate := by
    rw [Nat.mul_right_comm, ← Nat.add_mul, Nat.mul_comm (ticks / rate), Nat.mod_add_div]
  rw [parts, Nat.add_mul_div_right _ _ positive, Nat.add_comm]

/-- What is left over is less than a whole unit. -/
theorem rescale_rest_lt (positive : 0 < rate) (scaled : 0 < scale) :
    ticks % rate * scale / rate < scale := by
  rw [Nat.div_lt_iff_lt_mul positive, Nat.mul_comm scale]
  exact Nat.mul_lt_mul_of_pos_right (Nat.mod_lt _ positive) scaled

theorem rescale_mono (le : ticks ≤ ticks') : ticks * scale / rate ≤ ticks' * scale / rate :=
  Nat.div_le_div_right (Nat.mul_le_mul_right _ le)

/-- Two parts are ordered as the whole count is. -/
theorem lex_of_total_le (below : fine' < scale) (le : whole * scale + fine ≤ whole' * scale + fine') :
    whole < whole' ∨ whole = whole' ∧ fine ≤ fine' := by
  rcases Nat.lt_trichotomy whole whole' with less | rfl | more
  · exact Or.inl less
  · exact Or.inr ⟨rfl, Nat.le_of_add_le_add_left le⟩
  · have oneMore : (whole' + 1) * scale ≤ whole * scale := Nat.mul_le_mul_right _ more
    rw [Nat.add_mul, Nat.one_mul] at oneMore
    omega

end UniKernel.Lib
