import UniKernel.Stdio.Decimal

/-!
Owns the texts of the hexadecimal converters. They work on signed words: a word
without its sign bit is sent as its numeral, and for any other the loop is left
after one character, as its quotient is not positive.
-/

namespace UniKernel.Stdio

open UniKernel.Lib

/-- The character of a hexadecimal digit. -/
def hexDigit (uppercase : Bool) (digit : Nat) : UInt8 :=
  UInt8.ofNat (if digit < 10 then 48 + digit else (if uppercase then 65 else 97) + (digit - 10))

/-- The letter that `printlx` and `printx` count from. -/
def hexLetter (uppercase : Bool) : UInt8 := if uppercase then chr 'A' else chr 'a'

/-- The hexadecimal numeral of `n`. -/
def hexText (uppercase : Bool) (n : Nat) : List UInt8 := (numeral 16 n).map (hexDigit uppercase)

theorem hexChar_eq (uppercase : Bool) {digit : Nat} (below : digit < 16) :
    hexChar (hexLetter uppercase) digit = hexDigit uppercase digit := by
  have all : ∀ uppercase : Bool, ∀ digit < 16,
      hexChar (hexLetter uppercase) (digit : Nat) = hexDigit uppercase digit := by decide
  exact all uppercase digit below

theorem hexDigit_plain (uppercase : Bool) {digit : Nat} (below : digit < 16) :
    hexDigit uppercase digit ≠ 0 ∧ hexDigit uppercase digit ≤ 127 := by
  have all : ∀ uppercase : Bool, ∀ digit < 16,
      hexDigit uppercase digit ≠ 0 ∧ hexDigit uppercase digit ≤ 127 := by decide
  exact all uppercase digit below

theorem hexText_plain (uppercase : Bool) (n : Nat) : ∀ c ∈ hexText uppercase n, c ≠ 0 ∧ c ≤ 127 := by
  intro c member
  rcases List.mem_map.mp member with ⟨digit, isDigit, rfl⟩
  exact hexDigit_plain uppercase ((numeral_canonical (show 1 < 16 by decide) n).below digit isDigit)

/-! ### The loops -/

section Loops

variable {buf text : List UInt8} {sent : Uart} {j k limit : Nat} {a : UInt8}

/-- The loop stores the numeral of a number from its last digit on. -/
theorem hexLoop_eq (uppercase : Bool) (n : Nat) (buf : List UInt8)
    (room : buf.length + (numeral 16 n).length ≤ limit) :
    hexLoop (hexLetter uppercase) limit n buf = buf ++ (hexText uppercase n).reverse := by
  induction n using Nat.strongRecOn generalizing buf with
  | ind n inductionHypothesis =>
      have remainder : (n : Int).tmod 16 = (n % 16 : Nat) := rfl
      have quotient : (n : Int).tdiv 16 = (n / 16 : Nat) := rfl
      have stored := hexChar_eq uppercase (Nat.mod_lt n (show 0 < 16 by decide))
      rw [hexLoop, remainder, quotient, stored]
      by_cases more : 16 ≤ n
      · have step := numeral_step (show 1 < 16 by decide) more
        rw [step, List.length_append, List.length_singleton] at room
        have someDigit : 0 < (numeral 16 (n / 16)).length :=
          List.length_pos_of_ne_nil (numeral_canonical (by decide) _).nonempty
        have isText : hexText uppercase n =
            hexText uppercase (n / 16) ++ [hexDigit uppercase (n % 16)] := by
          rw [hexText, step, List.map_append]
          rfl
        rw [if_pos ⟨by omega, by omega⟩, inductionHypothesis (n / 16) (by omega) _ (by
          rw [List.length_append, List.length_singleton]
          omega), isText, List.reverse_append, List.append_assoc]
        rfl
      · have small : n < 16 := by omega
        have isText : hexText uppercase n = [hexDigit uppercase (n % 16)] := by
          rw [hexText, numeral_of_lt small, Nat.mod_eq_of_lt small]
          rfl
        rw [if_neg (by omega), isText, List.reverse_singleton]

/-- For a number that is not positive one character is stored. -/
theorem hexLoop_of_not_pos {num : Int} (notPositive : num ≤ 0) (buf : List UInt8) :
    hexLoop a limit num buf = buf ++ [hexChar a (num.tmod 16)] := by
  have opposite : 0 ≤ (-num).tdiv 16 := Int.tdiv_nonneg (by omega) (by decide)
  rw [Int.neg_tdiv] at opposite
  rw [hexLoop, if_neg (by omega)]

theorem length_reverseLoop (buf : List UInt8) (j k : Nat) :
    (reverseLoop buf j k).length = buf.length := by
  induction buf, j, k using reverseLoop.induct with
  | case1 buf j k more inductionHypothesis =>
      rw [reverseLoop, if_pos more, inductionHypothesis, List.length_set, List.length_set]
  | case2 buf j k done => rw [reverseLoop, if_neg done]

theorem getD_set (inside : j < buf.length) (c : UInt8) (i : Nat) :
    (buf.set j c).getD i 0 = if i = j then c else buf.getD i 0 := by
  rw [List.getD_eq_getElem?_getD, List.getElem?_set, List.getD_eq_getElem?_getD]
  by_cases here : i = j
  · rw [if_pos here, if_pos here.symm, if_pos inside]
    rfl
  · rw [if_neg here, if_neg (Ne.symm here)]

/-- The loop reverses what lies between its ends. -/
theorem getD_reverseLoop (below : k < buf.length ∨ k ≤ j) (i : Nat) :
    (reverseLoop buf j k).getD i 0 =
      if j ≤ i ∧ i ≤ k then buf.getD (j + k - i) 0 else buf.getD i 0 := by
  induction buf, j, k using reverseLoop.induct with
  | case1 buf j k more inductionHypothesis =>
      have swapped : ∀ i, ((buf.set j (buf.getD k 0)).set k (buf.getD j 0)).getD i 0 =
          if i = k then buf.getD j 0 else if i = j then buf.getD k 0 else buf.getD i 0 := by
        intro i
        rw [getD_set (by rw [List.length_set]; omega), getD_set (by omega)]
      rw [reverseLoop, if_pos more, inductionHypothesis (by simp only [List.length_set]; omega),
        swapped, swapped]
      by_cases inside : j ≤ i ∧ i ≤ k
      · rw [if_pos inside]
        by_cases inner : j + 1 ≤ i ∧ i ≤ k - 1
        · rw [if_pos inner, if_neg (by omega), if_neg (by omega)]
          congr 1
          omega
        · rw [if_neg inner]
          by_cases isLast : i = k
          · rw [if_pos isLast]
            congr 1
            omega
          · rw [if_neg isLast, if_pos (by omega)]
            congr 1
            omega
      · rw [if_neg inside, if_neg (by omega), if_neg (by omega), if_neg (by omega)]
  | case2 buf j k done =>
      rw [reverseLoop, if_neg done]
      split
      · congr 1
        omega
      · rfl

theorem reverseLoop_eq (buf : List UInt8) : reverseLoop buf 0 (buf.length - 1) = buf.reverse := by
  apply List.ext_getElem
  · rw [length_reverseLoop, List.length_reverse]
  · intro i below other
    rw [length_reverseLoop] at below
    have value : (reverseLoop buf 0 (buf.length - 1)).getD i 0 = _ := getD_reverseLoop (by omega) i
    have mirrored : 0 + (buf.length - 1) - i < buf.length := by omega
    rw [if_pos (by omega), List.getD_eq_getElem _ _ mirrored,
      List.getD_eq_getElem _ _ (by rw [length_reverseLoop]; exact below)] at value
    rw [value, List.getElem_reverse]
    congr 1
    omega

/-- `__puts` sends a text of plain characters. -/
theorem putsText_plain (plain : ∀ c ∈ text, c ≠ 0 ∧ c ≤ 127) (ret : Int) (sent : Uart) :
    (putsText ret (text ++ [0]) sent).2 = sent ++ text := by
  have allAscii : text.filter (· ≤ 127) = text :=
    List.filter_eq_self.mpr fun c member => decide_eq_true (plain c member).2
  rw [putsText_terminated, putsText_sent fun c member => (plain c member).1, allAscii]

/-! ### The converters -/

/-- The stored characters are sent from the last one down. -/
theorem printHex_sends {num : Int} {uppercase : Bool}
    (stored : hexLoop (hexLetter uppercase) limit num [] = buf) (sent : Uart) :
    printHex limit num uppercase sent =
      ((buf.length : Int) - 1, (putsText 0 (buf.reverse ++ [0]) sent).2) := by
  rw [← stored, ← reverseLoop_eq]
  rfl

/-- The text that `printlx` and `printx` send: a numeral, or for a negative number
one character. -/
def hexSent (uppercase : Bool) (num : Int) : List UInt8 :=
  if num < 0 then [hexChar (hexLetter uppercase) (num.tmod 16)] else hexText uppercase num.toNat

theorem hexSent_natCast (uppercase : Bool) (n : Nat) : hexSent uppercase n = hexText uppercase n := by
  rw [hexSent, if_neg (by omega), Int.toNat_natCast]

theorem hexSent_plain (uppercase : Bool) (num : Int) : ∀ c ∈ hexSent uppercase num, c ≠ 0 ∧ c ≤ 127 := by
  unfold hexSent
  split
  · next negative =>
      have remainder : -16 < num.tmod 16 ∧ num.tmod 16 ≤ 0 := by
        have opposite : (-num).tmod 16 = -num.tmod 16 := Int.neg_tmod num 16
        have below := Int.tmod_lt_of_pos (-num) (show (0 : Int) < 16 by decide)
        have above := Int.tmod_nonneg 16 (show 0 ≤ -num by omega)
        omega
      intro c member
      rw [List.mem_singleton.mp member]
      generalize num.tmod 16 = digit at remainder
      have all : ∀ uppercase : Bool, ∀ digit < 16,
          hexChar (hexLetter uppercase) (-(digit : Nat)) ≠ 0 ∧
            hexChar (hexLetter uppercase) (-(digit : Nat)) ≤ 127 := by decide
      have isOpposite : digit = -(digit.natAbs : Nat) := by omega
      rw [isOpposite]
      exact all uppercase digit.natAbs (by omega)
  · exact hexText_plain uppercase num.toNat

theorem hexLoop_sent (uppercase : Bool) {num : Int} (room : (numeral 16 num.toNat).length ≤ limit) :
    hexLoop (hexLetter uppercase) limit num [] = (hexSent uppercase num).reverse := by
  unfold hexSent
  split
  · next negative => exact hexLoop_of_not_pos (Int.le_of_lt negative) []
  · next notNegative =>
      have stored : hexLoop (hexLetter uppercase) limit (num.toNat : Nat) [] =
          [] ++ (hexText uppercase num.toNat).reverse :=
        hexLoop_eq uppercase num.toNat [] (by rwa [List.length_nil, Nat.zero_add])
      rwa [Int.toNat_of_nonneg (Int.not_lt.mp notNegative), List.nil_append] at stored

/-- The count that is returned leaves out the last character. -/
theorem printHex_eq (uppercase : Bool) {num : Int} (room : (numeral 16 num.toNat).length ≤ limit)
    (sent : Uart) :
    printHex limit num uppercase sent =
      (((hexSent uppercase num).length : Int) - 1, sent ++ hexSent uppercase num) := by
  rw [printHex_sends (hexLoop_sent uppercase room), List.length_reverse, List.reverse_reverse,
    putsText_plain (hexSent_plain uppercase num)]

end Loops

/-! ### The directives -/

/-- The hexadecimal directives, with the width of their arguments. -/
def hexDirectives : List (Conversion × Nat × Bool) :=
  [(.x, 32, false), (.upperX, 32, true), (.lx, 64, false), (.upperLx, 64, true)]

theorem i32_of_low {arg : Nat} (small : arg % 2 ^ 32 < 2 ^ 31) : i32 arg = (arg % 2 ^ 32 : Nat) := by
  unfold i32
  rw [Int.bmod_def]
  omega

theorem i32_of_high {arg : Nat} (large : 2 ^ 31 ≤ arg % 2 ^ 32) : i32 arg < 0 := by
  unfold i32
  rw [Int.bmod_def]
  omega

theorem i64_of_low {arg : Nat} (small : arg % 2 ^ 64 < 2 ^ 63) : i64 arg = (arg % 2 ^ 64 : Nat) := by
  unfold i64
  rw [Int.bmod_def]
  omega

theorem i64_of_high {arg : Nat} (large : 2 ^ 63 ≤ arg % 2 ^ 64) : i64 arg < 0 := by
  unfold i64
  rw [Int.bmod_def]
  omega

theorem printx_eq (uppercase : Bool) {num : Int} (below : num < 2 ^ 31) (sent : Uart) :
    printx num uppercase sent =
      (((hexSent uppercase num).length : Int) - 1, sent ++ hexSent uppercase num) := by
  have eight : (numeral 16 num.toNat).length ≤ 8 :=
    length_numeral_le (by decide) (by decide) (by omega)
  exact printHex_eq uppercase (Nat.le_trans eight (by decide)) sent

theorem printlx_eq (uppercase : Bool) {num : Int} (below : num < 2 ^ 63) (sent : Uart) :
    printlx num uppercase sent =
      (((hexSent uppercase num).length : Int) - 1, sent ++ hexSent uppercase num) := by
  have sixteen : (numeral 16 num.toNat).length ≤ 16 :=
    length_numeral_le (by decide) (by decide) (by omega)
  exact printHex_eq uppercase (Nat.le_trans sixteen (by decide)) sent

/-- What a hexadecimal directive sends: a numeral, or for a set sign bit one
character. -/
theorem convert_hex {conversion : Conversion} {width : Nat} {uppercase : Bool}
    (isHex : (conversion, width, uppercase) ∈ hexDirectives) (arg : Nat) (sent : Uart) :
    (arg % 2 ^ width < 2 ^ (width - 1) →
      convert conversion arg sent =
        (((hexText uppercase (arg % 2 ^ width)).length : Int) - 1,
          sent ++ hexText uppercase (arg % 2 ^ width))) ∧
      (2 ^ (width - 1) ≤ arg % 2 ^ width → ∃ c, convert conversion arg sent = (0, sent ++ [c])) := by
  have isOne : ∀ {num : Int}, num < 0 → ∃ c,
      (((hexSent uppercase num).length : Int) - 1, sent ++ hexSent uppercase num) =
        (0, sent ++ [c]) := by
    intro num negative
    refine ⟨hexChar (hexLetter uppercase) (num.tmod 16), ?_⟩
    rw [hexSent, if_pos negative]
    rfl
  simp only [hexDirectives, List.mem_cons, Prod.mk.injEq, List.not_mem_nil, or_false] at isHex
  rcases isHex with ⟨rfl, rfl, rfl⟩ | ⟨rfl, rfl, rfl⟩ | ⟨rfl, rfl, rfl⟩ | ⟨rfl, rfl, rfl⟩
  · rw [convert, printx_eq false (i32_lt _)]
    refine ⟨fun small => ?_, fun large => isOne (i32_of_high large)⟩
    rw [i32_of_low small, hexSent_natCast]
  · rw [convert, printx_eq true (i32_lt _)]
    refine ⟨fun small => ?_, fun large => isOne (i32_of_high large)⟩
    rw [i32_of_low small, hexSent_natCast]
  · rw [convert, printlx_eq false (i64_lt _)]
    refine ⟨fun small => ?_, fun large => isOne (i64_of_high large)⟩
    rw [i64_of_low small, hexSent_natCast]
  · rw [convert, printlx_eq true (i64_lt _)]
    refine ⟨fun small => ?_, fun large => isOne (i64_of_high large)⟩
    rw [i64_of_low small, hexSent_natCast]

/-- One character is no numeral of a number from 16 on. -/
theorem not_isNumeral_singleton {char : Nat → UInt8} {c : UInt8} {n : Nat} (large : 16 ≤ n) :
    ¬ IsNumeral 16 char [c] n := by
  rintro ⟨digits, canonical, isValue, isText⟩
  have single : digits.length = 1 := by
    rw [← List.length_map char, ← isText, List.length_singleton]
  rcases List.length_eq_one_iff.mp single with ⟨digit, rfl⟩
  have below := canonical.below digit (List.mem_singleton_self _)
  simp [numeralValue] at isValue
  omega

/-- A hexadecimal directive sends the numeral of its argument, read as unsigned,
exactly when the sign bit of the argument is clear. -/
theorem hex_numeral_iff {conversion : Conversion} {width : Nat} {uppercase : Bool}
    (isHex : (conversion, width, uppercase) ∈ hexDirectives) (arg : Nat) :
    IsNumeral 16 (hexDigit uppercase) (convert conversion arg []).2 (arg % 2 ^ width) ↔
      arg % 2 ^ width < 2 ^ (width - 1) := by
  rcases convert_hex isHex arg [] with ⟨clear, set⟩
  constructor
  · intro isNumeral
    by_contra large
    rcases set (Nat.not_lt.mp large) with ⟨c, isChar⟩
    rw [isChar] at isNumeral
    have wide : 16 ≤ 2 ^ (width - 1) := by
      simp only [hexDirectives, List.mem_cons, Prod.mk.injEq, List.not_mem_nil, or_false] at isHex
      rcases isHex with ⟨-, rfl, -⟩ | ⟨-, rfl, -⟩ | ⟨-, rfl, -⟩ | ⟨-, rfl, -⟩ <;> decide
    exact not_isNumeral_singleton (Nat.le_trans wide (Nat.not_lt.mp large)) isNumeral
  · intro small
    rw [clear small, List.nil_append]
    exact ⟨numeral 16 _, numeral_canonical (by decide) _, numeralValue_numeral 16 _, rfl⟩

/-- The largest word that is not negative. -/
theorem hex_numeral_max :
    IsNumeral 16 (hexDigit true) (convert .upperLx 0x7fffffffffffffff []).2
      (0x7fffffffffffffff % 2 ^ 64) :=
  (hex_numeral_iff (show (.upperLx, 64, true) ∈ hexDirectives by decide) 0x7fffffffffffffff).mpr
    (by decide)

/-- The fault address 0xffffffffffffffff is sent as a slash. -/
theorem exists_word_not_numeral :
    (convert .lx 0xffffffffffffffff []).2 = [chr '/'] ∧
      ¬ IsNumeral 16 (hexDigit false) (convert .lx 0xffffffffffffffff []).2
        (0xffffffffffffffff % 2 ^ 64) := by
  refine ⟨by decide +kernel, ?_⟩
  have isSlash : (convert .lx 0xffffffffffffffff []).2 = [chr '/'] := by decide +kernel
  rw [isSlash]
  exact not_isNumeral_singleton (by decide)

end UniKernel.Stdio
