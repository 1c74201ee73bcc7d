import UniKernel.Stdio.Model
import UniKernel.Stdlib.Atoi

/-!
Owns the texts of the decimal converters. The digits are stored least significant
first and sent from the last one down, so a number is sent as its numeral. The
magnitude of the most negative number does not fit into its width: it has no
digits, and only the minus sign is sent.
-/

namespace UniKernel.Stdio

open UniKernel.Lib
open UniKernel.Stdlib (Cells atoi atoi_digits atoi_minus_digits digitChar digitChar_range stringCells)

/-- `text` is the numeral of `n`, with its digits spelled by `char`. -/
def IsNumeral (base : Nat) (char : Nat → UInt8) (text : List UInt8) (n : Nat) : Prop :=
  ∃ digits, CanonicalNumeral base digits ∧ numeralValue base 0 digits = n ∧ text = digits.map char

/-- `text` is the decimal numeral of `n`, with a minus sign for a negative one. -/
def IsDecimal (text : List UInt8) (n : Int) : Prop :=
  if n < 0 then ∃ rest, text = chr '-' :: rest ∧ IsNumeral 10 digitChar rest n.natAbs
  else IsNumeral 10 digitChar text n.natAbs

/-- The decimal digits of `n` as characters. -/
def decimal (n : Nat) : List UInt8 := (numeral 10 n).map digitChar

/-- The decimal numeral of an integer. -/
def signedDecimal (n : Int) : List UInt8 :=
  if n < 0 then chr '-' :: decimal n.natAbs else decimal n.natAbs

theorem decimal_isNumeral (n : Nat) : IsNumeral 10 digitChar (decimal n) n :=
  ⟨numeral 10 n, numeral_canonical (by decide) n, numeralValue_numeral 10 n, rfl⟩

theorem signedDecimal_isDecimal (n : Int) : IsDecimal (signedDecimal n) n := by
  unfold IsDecimal signedDecimal
  split
  · exact ⟨_, rfl, decimal_isNumeral _⟩
  · exact decimal_isNumeral _

theorem decimal_ascii (n : Nat) : ∀ c ∈ decimal n, c ≤ 127 := by
  intro c member
  rcases List.mem_map.mp member with ⟨digit, isDigit, rfl⟩
  have below := (numeral_canonical (show 1 < 10 by decide) n).below digit isDigit
  exact UInt8.le_trans (digitChar_range below).2 (by decide)

/-! ### The loops -/

section Loops

variable {n : Nat} {buffer : List UInt8} {sent : Uart}

/-- The digits of a number, as a loop stores them. -/
theorem digits_cons (positive : 0 < n) :
    (Nat.digits 10 n).map digitChar = digitChar (n % 10) :: (Nat.digits 10 (n / 10)).map digitChar := by
  rw [Nat.digits_def' (by decide) positive]
  rfl

theorem digitLoop_eq (n : Nat) (buffer : List UInt8) :
    digitLoop n buffer = buffer ++ (Nat.digits 10 n).map digitChar := by
  induction n using Nat.strongRecOn generalizing buffer with
  | ind n inductionHypothesis =>
      rw [digitLoop]
      by_cases positive : 0 < n
      · have stored : UInt8.ofNat (48 + (n : Int).tmod 10).toNat = digitChar (n % 10) := by
          unfold digitChar
          congr 1
        have next : (n : Int).tdiv 10 = (n / 10 : Nat) := rfl
        rw [if_pos (by omega), stored, next,
          inductionHypothesis (n / 10) (Nat.div_lt_self positive (by decide)), digits_cons positive,
          List.append_assoc]
        rfl
      · have isZero : n = 0 := by omega
        rw [if_neg (by omega), isZero, Nat.digits_zero, List.map_nil, List.append_nil]

theorem digitLoop_of_not_pos {num : Int} (notPositive : ¬ num > 0) (buffer : List UInt8) :
    digitLoop num buffer = buffer := by
  rw [digitLoop, if_neg notPositive]

theorem digitLoopUnsigned_eq (n : Nat) (buffer : List UInt8) :
    digitLoopUnsigned n buffer = buffer ++ (Nat.digits 10 n).map digitChar := by
  induction n using Nat.strongRecOn generalizing buffer with
  | ind n inductionHypothesis =>
      rw [digitLoopUnsigned]
      by_cases positive : 0 < n
      · rw [if_pos (by omega), inductionHypothesis (n / 10) (Nat.div_lt_self positive (by decide)),
          digits_cons positive, List.append_assoc]
        rfl
      · have isZero : n = 0 := by omega
        rw [if_neg (by omega), isZero, Nat.digits_zero, List.map_nil, List.append_nil]

theorem decimal_of_ne_zero (nonzero : n ≠ 0) :
    decimal n = ((Nat.digits 10 n).map digitChar).reverse := by
  rw [decimal, numeral, if_neg nonzero, List.map_reverse]

/-- The stored digits of a number are sent as its numeral. -/
theorem flush_digits (nonzero : n ≠ 0) (sent : Uart) :
    flush ((Nat.digits 10 n).map digitChar) ((Nat.digits 10 n).map digitChar).length sent =
      sent ++ decimal n := by
  have ascii : ∀ c ∈ (Nat.digits 10 n).map digitChar, c ≤ 127 := by
    intro c member
    apply decimal_ascii n
    rw [decimal_of_ne_zero nonzero]
    exact List.mem_reverse.mpr member
  rw [flush_ascii ascii (Nat.le_refl _), List.take_length, decimal_of_ne_zero nonzero]

theorem length_digits (nonzero : n ≠ 0) :
    ((Nat.digits 10 n).map digitChar).length = (decimal n).length := by
  rw [decimal_of_ne_zero nonzero, List.length_reverse]

/-! ### The converters -/

theorem printlu_eq (n : Nat) (sent : Uart) :
    printlu n sent = (((decimal n).length : Int), sent ++ decimal n) := by
  unfold printlu
  by_cases isZero : n = 0
  · rw [if_pos isZero, putchar_ascii (by decide), isZero]
    rfl
  · rw [if_neg isZero]
    dsimp only
    rw [digitLoopUnsigned_eq, List.nil_append, flush_digits isZero, length_digits isZero]

variable {wrap : Int → Int} {num : Int}

/-- A number whose magnitude fits into its width. -/
theorem printSigned_eq (fits : num < 0 → wrap (-num) = -num) (sent : Uart) :
    printSigned wrap num sent = (((signedDecimal num).length : Int), sent ++ signedDecimal num) := by
  unfold printSigned signedDecimal magnitude
  by_cases isZero : num = 0
  · rw [if_pos isZero, putchar_ascii (by decide), isZero]
    rfl
  · have nonzero : num.natAbs ≠ 0 := Int.natAbs_ne_zero.mpr isZero
    rw [if_neg isZero]
    dsimp only
    by_cases negative : num < 0
    · have isMagnitude : -num = num.natAbs := by omega
      rw [if_pos negative, if_pos negative, if_pos negative, if_pos negative, fits negative,
        isMagnitude, digitLoop_eq, List.nil_append, flush_digits nonzero, length_digits nonzero,
        putchar_ascii (by decide), List.append_assoc, List.length_cons, Nat.cast_succ, Int.add_comm]
      rfl
    · have isMagnitude : num = num.natAbs := by omega
      rw [if_neg negative, if_neg negative, if_neg negative, if_neg negative]
      rw [isMagnitude, digitLoop_eq, List.nil_append, Int.natAbs_natCast, flush_digits nonzero,
        length_digits nonzero, Int.zero_add]

/-- The most negative number, whose magnitude is negative again. -/
theorem printSigned_of_overflow (negative : num < 0) (overflows : wrap (-num) < 0) (sent : Uart) :
    printSigned wrap num sent = (1, sent ++ [chr '-']) := by
  unfold printSigned magnitude
  rw [if_neg (by omega)]
  dsimp only
  rw [if_pos negative, if_pos negative, if_pos negative, digitLoop_of_not_pos (by omega),
    putchar_ascii (by decide)]
  rfl

/-- A loop stores no more digits than its number has. -/
theorem length_digitLoop_le {k : Nat} (small : num < 10 ^ k) : (digitLoop num []).length ≤ k := by
  by_cases positive : num > 0
  · have isNat : num = num.natAbs := by omega
    have smallNat : num.natAbs < 10 ^ k := by
      apply Int.ofNat_lt.mp
      rw [← isNat]
      push_cast
      exact small
    rw [isNat, digitLoop_eq, List.nil_append, List.length_map]
    exact (Nat.digits_length_le_iff (by decide) _).mpr smallNat
  · rw [digitLoop_of_not_pos positive]
    exact Nat.zero_le k

theorem length_digitLoopUnsigned_le {k : Nat} (small : n < 10 ^ k) :
    (digitLoopUnsigned n []).length ≤ k := by
  rw [digitLoopUnsigned_eq, List.nil_append, List.length_map]
  exact (Nat.digits_length_le_iff (by decide) n).mpr small

end Loops

/-! ### Reading back -/

theorem atoi_signedDecimal {n : Int} (above : -2 ^ 31 ≤ n) (below : n < 2 ^ 31) :
    atoi (some (stringCells (signedDecimal n))) = some n := by
  have canonical := numeral_canonical (show 1 < 10 by decide) n.natAbs
  unfold signedDecimal
  by_cases negative : n < 0
  · have isValue : -((n.natAbs : Nat) : Int) = n := by omega
    rw [if_pos negative, decimal]
    change atoi (some (stringCells (45 :: (numeral 10 n.natAbs).map digitChar))) = some n
    rw [atoi_minus_digits canonical.nonempty canonical.below, numeralValue_numeral, isValue,
      i32_of_range above below]
  · have isValue : ((n.natAbs : Nat) : Int) = n := by omega
    rw [if_neg negative, decimal, atoi_digits canonical.nonempty canonical.below,
      numeralValue_numeral, isValue, i32_of_range above below]

/-- `atoi` reads back what `printd` sends, `printld` and `printlu` send numerals,
and all store their digits inside their buffers of 12, 20 and 20 characters. -/
structure DecimalConverters (int long : Int) (unsignedLong : Nat) : Prop where
  readBack : atoi (some (stringCells (printd int []).2)) = some int
  longNumeral : IsDecimal (printld long []).2 long
  unsignedNumeral : IsDecimal (printlu unsignedLong []).2 unsignedLong
  intBuffer : (digitLoop (magnitude i32 int) []).length ≤ 12
  longBuffer : (digitLoop (magnitude i64 long) []).length ≤ 20
  unsignedBuffer : (digitLoopUnsigned unsignedLong []).length ≤ 20

section Converters

variable {int long : Int} {unsignedLong : Nat}

theorem printd_min (sent : Uart) : printd (-2 ^ 31) sent = (1, sent ++ [chr '-']) :=
  printSigned_of_overflow (by decide) (by decide) sent

theorem printld_min (sent : Uart) : printld (-2 ^ 63) sent = (1, sent ++ [chr '-']) :=
  printSigned_of_overflow (by decide) (by decide) sent

theorem printd_eq (above : -2 ^ 31 < int) (below : int < 2 ^ 31) (sent : Uart) :
    printd int sent = (((signedDecimal int).length : Int), sent ++ signedDecimal int) :=
  printSigned_eq (fun negative => i32_of_range (by omega) (by omega)) sent

theorem printld_eq (above : -2 ^ 63 < long) (below : long < 2 ^ 63) (sent : Uart) :
    printld long sent = (((signedDecimal long).length : Int), sent ++ signedDecimal long) :=
  printSigned_eq (fun negative => i64_of_range (by omega) (by omega)) sent

/-- A minus sign alone is no numeral. -/
theorem not_isDecimal_minus : ¬ IsDecimal [chr '-'] (-2 ^ 63) := by
  unfold IsDecimal
  rw [if_pos (by decide)]
  rintro ⟨rest, isRest, digits, canonical, -, isText⟩
  rw [List.cons.inj isRest |>.2.symm] at isText
  exact canonical.nonempty (List.map_eq_nil_iff.mp isText.symm)

/-- The decimal converters are right exactly for numbers other than the most
negative one of their width. -/
theorem decimal_converters_iff (intAbove : -2 ^ 31 ≤ int) (intBelow : int < 2 ^ 31)
    (longAbove : -2 ^ 63 ≤ long) (longBelow : long < 2 ^ 63) (unsignedBelow : unsignedLong < 2 ^ 64) :
    DecimalConverters int long unsignedLong ↔ int ≠ -2 ^ 31 ∧ long ≠ -2 ^ 63 := by
  constructor
  · intro converters
    constructor
    · intro isMin
      have readBack := converters.readBack
      rw [isMin, printd_min] at readBack
      exact absurd readBack (by decide)
    · intro isMin
      have isNumeral := converters.longNumeral
      rw [isMin, printld_min] at isNumeral
      exact not_isDecimal_minus isNumeral
  · rintro ⟨intNotMin, longNotMin⟩
    refine ⟨?_, ?_, ?_, ?_, ?_, ?_⟩
    · rw [printd_eq (by omega) intBelow, List.nil_append]
      exact atoi_signedDecimal intAbove intBelow
    · rw [printld_eq (by omega) longBelow, List.nil_append]
      exact signedDecimal_isDecimal long
    · rw [printlu_eq, List.nil_append]
      exact signedDecimal_isDecimal unsignedLong
    · apply length_digitLoop_le
      have bound := i32_lt (-int)
      unfold magnitude
      split <;> omega
    · apply length_digitLoop_le
      have bound := i64_lt (-long)
      unfold magnitude
      split <;> omega
    · apply length_digitLoopUnsigned_le
      omega

end Converters

/-- The numbers next to the most negative ones, and the largest. -/
theorem decimal_converters_extremes :
    DecimalConverters (-2147483647) (-9223372036854775807) 18446744073709551615 :=
  (decimal_converters_iff (by decide) (by decide) (by decide) (by decide) (by decide)).mpr
    ⟨by decide, by decide⟩

/-- `printd` sends a minus sign for the most negative number, and `atoi` reads it
as 0. -/
theorem exists_int_not_read_back :
    (printd (-2147483648) []).2 = [chr '-'] ∧
      atoi (some (stringCells (printd (-2147483648) []).2)) = some 0 ∧
      (printld (-9223372036854775808) []).2 = [chr '-'] ∧
      ¬ DecimalConverters (-2147483648) 0 0 := by
  have isMinus : (printd (-2147483648) []).2 = [chr '-'] := by
    rw [show (-2147483648 : Int) = -2 ^ 31 by decide, printd_min]
    rfl
  have readsZero : atoi (some (stringCells (printd (-2147483648) []).2)) = some 0 := by
    rw [isMinus]
    decide
  refine ⟨isMinus, readsZero, ?_, ?_⟩
  · rw [show (-9223372036854775808 : Int) = -2 ^ 63 by decide, printld_min]
    rfl
  · intro converters
    have readBack := converters.readBack
    rw [readsZero] at readBack
    exact absurd readBack (by decide)

end UniKernel.Stdio
