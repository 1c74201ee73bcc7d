import UniKernel.Lib.Numerals
import UniKernel.Lib.Words

/-!
Owns `atoi` of `src/stdlib.c`. The function reads the bytes at a pointer one by
one; a byte that was never written, or lies behind what the pointer points to,
must not be read, and then there is no result.
-/

namespace UniKernel.Stdlib

open UniKernel.Lib

/-- The bytes from a pointer on; `none` for one that was never written. -/
abbrev Cells := List (Option UInt8)

/-- `*str` -/
def read : Cells → Option UInt8
  | some c :: _ => some c
  | _ => none

/-- The loop `while (*str == ' ' || *str == '\t') str++;`. -/
def skipBlanks : Cells → Option Cells
  | some c :: rest => if c = 32 ∨ c = 9 then skipBlanks rest else some (some c :: rest)
  | _ => none

/-- The loop `while (*str >= '0' && *str <= '9')`. -/
def digitsFrom (ret : Int) : Cells → Option Int
  | some c :: rest =>
      if 48 ≤ c ∧ c ≤ 57 then digitsFrom (i32 (i32 (ret * 10) + (c.toNat - 48))) rest else some ret
  | _ => none

/-- The function on a pointer that may be NULL. -/
def atoi : Option Cells → Option Int
  | none => some 0
  | some str => do
      let str ← skipBlanks str
      let isNegative := (← read str) = 45
      let str := if isNegative then str.tail else str
      let c ← read str
      if c < 48 ∨ c > 57 then some 0
      else
        let ret ← digitsFrom 0 str
        some (if isNegative then i32 (ret * -1) else ret)

/-- A text and the 0 that ends it. -/
def stringCells (text : List UInt8) : Cells := (text ++ [0]).map some

/-! ### Texts -/

/-- The digits at the start of a text end within it. -/
theorem exists_digitsFrom (ret : Int) (text : List UInt8) :
    ∃ value, ∀ behind, digitsFrom ret (stringCells text ++ behind) = some value := by
  induction text generalizing ret with
  | nil => exact ⟨ret, fun behind => rfl⟩
  | cons c rest inductionHypothesis =>
      by_cases isDigit : 48 ≤ c ∧ c ≤ 57
      · rcases inductionHypothesis (i32 (i32 (ret * 10) + (c.toNat - 48))) with ⟨value, reads⟩
        exact ⟨value, fun behind => (if_pos isDigit).trans (reads behind)⟩
      · exact ⟨ret, fun behind => if_neg isDigit⟩

/-- The blanks at the start of a text end within it. -/
theorem exists_skipBlanks (text : List UInt8) :
    ∃ rest, ∀ behind, skipBlanks (stringCells text ++ behind) = some (stringCells rest ++ behind) := by
  induction text with
  | nil => exact ⟨[], fun behind => rfl⟩
  | cons c rest inductionHypothesis =>
      by_cases isBlank : c = 32 ∨ c = 9
      · rcases inductionHypothesis with ⟨found, skips⟩
        exact ⟨found, fun behind => (if_pos isBlank).trans (skips behind)⟩
      · exact ⟨c :: rest, fun behind => if_neg isBlank⟩

theorem exists_read (text : List UInt8) : ∃ c, ∀ behind, read (stringCells text ++ behind) = some c := by
  cases text with
  | nil => exact ⟨0, fun behind => rfl⟩
  | cons c rest => exact ⟨c, fun behind => rfl⟩

/-- Behind the sign, nothing behind the 0 of a text is read. -/
theorem exists_magnitude (isNegative : Prop) [Decidable isNegative] (text : List UInt8) :
    ∃ value : Int, ∀ behind, (do
      let c ← read (stringCells text ++ behind)
      if c < 48 ∨ c > 57 then some 0
      else
        let ret ← digitsFrom 0 (stringCells text ++ behind)
        some (if isNegative then i32 (ret * -1) else ret)) = some value := by
  rcases exists_read text with ⟨c, reads⟩
  rcases exists_digitsFrom 0 text with ⟨ret, digits⟩
  simp only [reads, digits, Option.bind_eq_bind, Option.bind_some]
  by_cases other : c < 48 ∨ c > 57
  · exact ⟨0, fun _ => if_pos other⟩
  · exact ⟨if isNegative then i32 (ret * -1) else ret, fun _ => if_neg other⟩

/-- `atoi` reads nothing behind the 0 of a text. -/
theorem exists_atoi (text : List UInt8) :
    ∃ value, ∀ behind, atoi (some (stringCells text ++ behind)) = some value := by
  rcases exists_skipBlanks text with ⟨rest, skips⟩
  simp only [atoi, skips, Option.bind_eq_bind, Option.bind_some]
  rcases rest with _ | ⟨c, rest⟩
  · exact exists_magnitude (0 = (45 : UInt8)) []
  · by_cases isMinus : c = 45
    · subst isMinus
      exact exists_magnitude ((45 : UInt8) = 45) rest
    · rcases exists_magnitude (c = 45) (c :: rest) with ⟨value, reads⟩
      refine ⟨value, fun behind => Eq.trans ?_ (reads behind)⟩
      have isHead : read (stringCells (c :: rest) ++ behind) = some c := rfl
      rw [isHead, Option.bind_some, if_neg isMinus]
      rfl

theorem isSome_atoi (text : List UInt8) : (atoi (some (stringCells text))).isSome := by
  rcases exists_atoi text with ⟨value, reads⟩
  have whole := reads []
  rw [List.append_nil] at whole
  rw [whole]
  rfl

/-- What lies behind a text does not matter. -/
theorem atoi_append (text : List UInt8) (behind : Cells) :
    atoi (some (stringCells text ++ behind)) = atoi (some (stringCells text)) := by
  rcases exists_atoi text with ⟨value, reads⟩
  have whole := reads []
  rw [List.append_nil] at whole
  rw [reads, whole]

/-! ### Numerals -/

/-- The character of a decimal digit. -/
def digitChar (digit : Nat) : UInt8 := UInt8.ofNat (48 + digit)

theorem toNat_digitChar {digit : Nat} (below : digit < 10) : (digitChar digit).toNat = 48 + digit := by
  rw [digitChar, UInt8.toNat_ofNat']
  omega

theorem digitChar_range {digit : Nat} (below : digit < 10) :
    48 ≤ digitChar digit ∧ digitChar digit ≤ 57 := by
  rw [UInt8.le_iff_toNat_le, UInt8.le_iff_toNat_le, toNat_digitChar below]
  exact ⟨Nat.le_add_right _ _, by change 48 + digit ≤ 57; omega⟩

variable {digits : List Nat} {value : Nat}

/-- Digits are added to what was read, in 32 bits. -/
theorem digitsFrom_digits (below : ∀ digit ∈ digits, digit < 10) (value : Nat) :
    digitsFrom (i32 value) (stringCells (digits.map digitChar)) =
      some (i32 (numeralValue 10 value digits)) := by
  induction digits generalizing value with
  | nil => rfl
  | cons digit digits inductionHypothesis =>
      have digitBelow : digit < 10 := below digit List.mem_cons_self
      have accumulated : i32 (i32 (i32 value * 10) + ((digitChar digit).toNat - 48)) =
          i32 ((value * 10 + digit : Nat) : Int) := by
        rw [toNat_digitChar digitBelow]
        unfold i32
        rw [Int.bmod_mul_bmod, Int.bmod_add_bmod]
        congr 1
        omega
      have rest := inductionHypothesis
        (fun other member => below other (List.mem_cons_of_mem _ member)) (value * 10 + digit)
      change (if 48 ≤ digitChar digit ∧ digitChar digit ≤ 57 then
          digitsFrom (i32 (i32 (i32 value * 10) + ((digitChar digit).toNat - 48)))
            (stringCells (digits.map digitChar))
        else some (i32 value)) = _
      rw [if_pos (digitChar_range digitBelow), accumulated, rest]
      rfl

theorem skipBlanks_of_ne {c : UInt8} (space : c ≠ 32) (tab : c ≠ 9) (rest : Cells) :
    skipBlanks (some c :: rest) = some (some c :: rest) :=
  if_neg (not_or.mpr ⟨space, tab⟩)

/-- A numeral without a sign. -/
theorem atoi_digits (nonempty : digits ≠ []) (below : ∀ digit ∈ digits, digit < 10) :
    atoi (some (stringCells (digits.map digitChar))) = some (i32 (numeralValue 10 0 digits)) := by
  have read := digitsFrom_digits below 0
  cases digits with
  | nil => exact absurd rfl nonempty
  | cons digit digits =>
      have range := digitChar_range (below digit List.mem_cons_self)
      change digitsFrom 0 (some (digitChar digit) :: stringCells (digits.map digitChar)) = _ at read
      change atoi (some (some (digitChar digit) :: stringCells (digits.map digitChar))) = _
      generalize digitChar digit = c at range read ⊢
      have notSpace : c ≠ 32 := by
        rintro rfl
        exact absurd range.1 (by decide)
      have notTab : c ≠ 9 := by
        rintro rfl
        exact absurd range.1 (by decide)
      have notMinus : c ≠ 45 := by
        rintro rfl
        exact absurd range.1 (by decide)
      have isDigit : ¬ (c < 48 ∨ c > 57) :=
        not_or.mpr ⟨UInt8.not_lt.mpr range.1, UInt8.not_lt.mpr range.2⟩
      simp only [atoi, skipBlanks_of_ne notSpace notTab, Option.bind_eq_bind, Option.bind_some,
        Stdlib.read, notMinus, if_false, isDigit, read]

/-- A numeral behind a minus sign. -/
theorem atoi_minus_digits (nonempty : digits ≠ []) (below : ∀ digit ∈ digits, digit < 10) :
    atoi (some (stringCells (45 :: digits.map digitChar))) =
      some (i32 (-numeralValue 10 0 digits)) := by
  have read := digitsFrom_digits below 0
  have negated : i32 (i32 (numeralValue 10 0 digits) * -1) = i32 (-numeralValue 10 0 digits) := by
    unfold i32
    rw [Int.bmod_mul_bmod, Int.mul_neg_one]
  cases digits with
  | nil => exact absurd rfl nonempty
  | cons digit digits =>
      have range := digitChar_range (below digit List.mem_cons_self)
      change digitsFrom 0 (some (digitChar digit) :: stringCells (digits.map digitChar)) = _ at read
      change atoi (some (some 45 :: some (digitChar digit) ::
        stringCells (digits.map digitChar))) = _
      generalize digitChar digit = c at range read ⊢
      have isDigit : ¬ (c < 48 ∨ c > 57) :=
        not_or.mpr ⟨UInt8.not_lt.mpr range.1, UInt8.not_lt.mpr range.2⟩
      simp only [atoi, skipBlanks_of_ne (c := 45) (by decide) (by decide), Option.bind_eq_bind,
        Option.bind_some, Stdlib.read, if_true, List.tail_cons, isDigit, if_false, read, negated]

end UniKernel.Stdlib
