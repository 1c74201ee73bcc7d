import Mathlib.Algebra.Ring.Nat
import Mathlib.Data.Nat.Digits.Lemmas

/-!
Owns positional numerals: the digits of a natural number in a base, most
significant first, and the number that such digits denote. The digits of 0 are
a single 0, and no other numeral starts with one.

Nothing here names the kernel.
-/

namespace UniKernel.Lib

/-- The digits of `n`, most significant first. -/
def numeral (base n : Nat) : List Nat := if n = 0 then [0] else (Nat.digits base n).reverse

/-- The number that digits denote, read from the left and behind `high`. -/
def numeralValue (base high : Nat) (digits : List Nat) : Nat :=
  digits.foldl (fun value digit => value * base + digit) high

/-- Digits of the base, without a leading zero. -/
structure CanonicalNumeral (base : Nat) (digits : List Nat) : Prop where
  nonempty : digits ≠ []
  below : ∀ digit ∈ digits, digit < base
  noLeadingZero : digits.head? = some 0 → digits = [0]

variable {base n : Nat}

theorem numeralValue_append (high : Nat) (front back : List Nat) :
    numeralValue base high (front ++ back) =
      numeralValue base (numeralValue base high front) back :=
  List.foldl_append

theorem numeralValue_reverse (digits : List Nat) :
    numeralValue base 0 digits.reverse = Nat.ofDigits base digits := by
  induction digits with
  | nil => rfl
  | cons digit rest inductionHypothesis =>
      rw [List.reverse_cons, numeralValue_append, inductionHypothesis, Nat.ofDigits_cons]
      change Nat.ofDigits base rest * base + digit = digit + base * Nat.ofDigits base rest
      rw [Nat.mul_comm, Nat.add_comm]

/-- A numeral denotes its number. -/
theorem numeralValue_numeral (base n : Nat) : numeralValue base 0 (numeral base n) = n := by
  unfold numeral
  split
  · next isZero => simp [numeralValue, isZero]
  · rw [numeralValue_reverse, Nat.ofDigits_digits]

theorem numeral_canonical (large : 1 < base) (n : Nat) : CanonicalNumeral base (numeral base n) := by
  unfold numeral
  split
  · refine ⟨List.cons_ne_nil _ _, ?_, fun _ => rfl⟩
    intro digit member
    rw [List.mem_singleton.mp member]
    exact Nat.lt_trans Nat.zero_lt_one large
  · next nonzero =>
      have someDigit : Nat.digits base n ≠ [] := Nat.digits_ne_nil_iff_ne_zero.mpr nonzero
      refine ⟨fun empty => someDigit (List.reverse_eq_nil_iff.mp empty), ?_, ?_⟩
      · intro digit member
        exact Nat.digits_lt_base large (List.mem_reverse.mp member)
      · intro leading
        rw [List.head?_reverse, List.getLast?_eq_some_getLast someDigit] at leading
        exact absurd (Option.some.inj leading) (Nat.getLast_digit_ne_zero base nonzero)

theorem numeral_of_lt (small : n < base) : numeral base n = [n] := by
  unfold numeral
  split
  · next isZero => rw [isZero]
  · next nonzero => rw [Nat.digits_of_lt base n nonzero small, List.reverse_singleton]

/-- The last digit of a numeral is the remainder. -/
theorem numeral_step (large : 1 < base) (above : base ≤ n) :
    numeral base n = numeral base (n / base) ++ [n % base] := by
  have nonzero : n ≠ 0 := by omega
  have quotient : n / base ≠ 0 := Nat.div_ne_zero_iff.mpr ⟨by omega, above⟩
  rw [numeral, if_neg nonzero, numeral, if_neg quotient,
    Nat.digits_def' large (Nat.pos_of_ne_zero nonzero), List.reverse_cons]

theorem length_numeral_le (large : 1 < base) {k : Nat} (positive : 0 < k) (small : n < base ^ k) :
    (numeral base n).length ≤ k := by
  unfold numeral
  split
  · exact positive
  · rw [List.length_reverse]
    exact (Nat.digits_length_le_iff large n).mpr small

end UniKernel.Lib
