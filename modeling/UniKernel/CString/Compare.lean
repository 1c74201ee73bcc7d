import UniKernel.CString.Bounded
import UniKernel.Lib.Lexicographic

/-!
Owns the comparisons of `src/string.c`: `memcmp`, `strcmp` and `strncmp`. All three
return the difference of the first bytes that differ, so that they decide one order,
and none reads behind what it compares.
-/

namespace UniKernel.CString

open UniKernel.Lib

/-! ### The functions -/

/-- `(int)(*a - *b)` -/
def byteDifference (mem : Memory) (a b : Nat) : Int := (mem a).toNat - (mem b).toNat

/-- The loop `for (; n > 0; --n, ++a1, ++a2)` of `memcmp`. -/
def memcmp : (a1 a2 n : Nat) → Tracked → Int × Tracked
  | _, _, 0, t => (0, t)
  | a1, a2, n + 1, t =>
      let t := (t.read a1).read a2
      if t.mem a1 ≠ t.mem a2 then
        (byteDifference t.mem a1 a2, (t.read a1).read a2)
      else memcmp (a1 + 1) (a2 + 1) n t

/-- `s ? s : ""`, where the literal lies at `empty`. -/
def orEmpty (empty s : Nat) : Nat := if s ≠ 0 then s else empty

/-- The loop `while (*a && (*a == *b))` of `strcmp` and the difference behind it, with
`left` bytes behind `a` and `b`; none if it runs out of the address space. -/
def strcmpFrom : (left a b : Nat) → Tracked → Option (Int × Tracked)
  | 0, _, _, _ => none
  | left + 1, a, b, t =>
      let t := t.read a
      if t.mem a ≠ 0 then
        let t := (t.read a).read b
        if t.mem a = t.mem b then strcmpFrom left (a + 1) (b + 1) t
        else some (byteDifference t.mem a b, (t.read a).read b)
      else some (byteDifference t.mem a b, (t.read a).read b)

def strcmp (empty s1 s2 : Nat) (t : Tracked) : Option (Int × Tracked) :=
  let a := orEmpty empty s1
  let b := orEmpty empty s2
  strcmpFrom (min (bytesBehind a) (bytesBehind b)) a b t

/-- The loop `for (; n > 0; --n, ++a, ++b)` of `strncmp`. -/
def strncmpFrom : (a b n : Nat) → Tracked → Int × Tracked
  | _, _, 0, t => (0, t)
  | a, b, n + 1, t =>
      let t := (t.read a).read b
      if t.mem a ≠ t.mem b then (byteDifference t.mem a b, (t.read a).read b)
      else
        let t := t.read a
        if t.mem a = 0 then (0, t) else strncmpFrom (a + 1) (b + 1) n t

def strncmp (empty s1 s2 n : Nat) (t : Tracked) : Int × Tracked :=
  strncmpFrom (orEmpty empty s1) (orEmpty empty s2) n t

/-! ### The loops -/

/-- From `t` to `t'` nothing was written, and only bytes of two ranges were read. -/
structure Looked (t t' : Tracked) (a b first second : Nat) : Prop where
  mem : t'.mem = t.mem
  writes : t'.writes = t.writes
  reads : ∀ addr ∈ t'.reads, addr ∈ t.reads ∨ (a ≤ addr ∧ addr < a + first) ∨
    (b ≤ addr ∧ addr < b + second)

namespace Looked

variable {t t' t'' : Tracked} {a b first second addr : Nat}

theorem refl (t : Tracked) (a b first second : Nat) : Looked t t a b first second :=
  ⟨rfl, rfl, fun _ => Or.inl⟩

theorem read (looked : Looked t t' a b first second)
    (inside : (a ≤ addr ∧ addr < a + first) ∨ (b ≤ addr ∧ addr < b + second)) :
    Looked t (t'.read addr) a b first second where
  mem := looked.mem
  writes := looked.writes
  reads := by
    intro other isRead
    rw [Tracked.read_reads, List.mem_append, List.mem_singleton] at isRead
    obtain before | rfl := isRead
    · exact looked.reads other before
    · exact .inr inside

theorem readFirst (looked : Looked t t' a b (first + 1) second) :
    Looked t (t'.read a) a b (first + 1) second :=
  looked.read (.inl ⟨Nat.le_refl a, Nat.lt_add_of_pos_right (Nat.succ_pos first)⟩)

theorem readSecond (looked : Looked t t' a b first (second + 1)) :
    Looked t (t'.read b) a b first (second + 1) :=
  looked.read (.inr ⟨Nat.le_refl b, Nat.lt_add_of_pos_right (Nat.succ_pos second)⟩)

/-- What is looked at behind the first bytes. -/
theorem behind (looked : Looked t t' a b (first + 1) (second + 1))
    (later : Looked t' t'' (a + 1) (b + 1) first second) :
    Looked t t'' a b (first + 1) (second + 1) where
  mem := later.mem.trans looked.mem
  writes := later.writes.trans looked.writes
  reads := by
    intro addr isRead
    obtain before | inside := later.reads addr isRead
    · exact looked.reads addr before
    · right
      omega

end Looked

/-- The `n` bytes at `addr`. -/
def bytesFrom (mem : Memory) : (n addr : Nat) → List UInt8
  | 0, _ => []
  | n + 1, addr => mem addr :: bytesFrom mem n (addr + 1)

theorem length_bytesFrom (mem : Memory) (n addr : Nat) : (bytesFrom mem n addr).length = n := by
  induction n generalizing addr with
  | zero => rfl
  | succ n inductionHypothesis => rw [bytesFrom, List.length_cons, inductionHypothesis]

variable {t : Tracked} {a b n left : Nat} {leftText rightText : List UInt8}

theorem memcmp_eq (a1 a2 n : Nat) (t : Tracked) :
    (memcmp a1 a2 n t).1 = firstDifference (bytesFrom t.mem n a1) (bytesFrom t.mem n a2) ∧
      Looked t (memcmp a1 a2 n t).2 a1 a2 n n := by
  induction n generalizing a1 a2 t with
  | zero => exact ⟨rfl, Looked.refl t a1 a2 0 0⟩
  | succ n inductionHypothesis =>
      have read : Looked t ((t.read a1).read a2) a1 a2 (n + 1) (n + 1) :=
        (Looked.refl t a1 a2 _ _).readFirst.readSecond
      rw [memcmp, bytesFrom, bytesFrom, firstDifference]
      by_cases same : t.mem a1 = t.mem a2
      · have later := inductionHypothesis (a1 + 1) (a2 + 1) ((t.read a1).read a2)
        simp only [Tracked.read_mem, same, ne_eq, not_true_eq_false, if_false, if_true] at later ⊢
        exact ⟨later.1, read.behind later.2⟩
      · simp only [Tracked.read_mem, ne_eq, same, not_false_eq_true, if_true, if_false]
        exact ⟨rfl, read.readFirst.readSecond⟩

/-- At the end of one of the strings, or where they differ, the result is the difference
of the two bytes there. -/
theorem strcmpFrom_of_stop (left : Nat) (stop : t.mem a = 0 ∨ t.mem a ≠ t.mem b) :
    ∃ t', strcmpFrom (left + 1) a b t = some (byteDifference t.mem a b, t') ∧
      ∀ first second, Looked t t' a b (first + 1) (second + 1) := by
  have readFirst : ∀ first second, Looked t (t.read a) a b (first + 1) (second + 1) :=
    fun first second => (Looked.refl t a b _ _).readFirst
  by_cases isEnd : t.mem a = 0
  · refine ⟨((t.read a).read a).read b, ?_, fun first second =>
      (readFirst first second).readFirst.readSecond⟩
    simp only [strcmpFrom, Tracked.read_mem, ne_eq, isEnd, not_true_eq_false, if_false]
  · have differ := stop.resolve_left isEnd
    refine ⟨((((t.read a).read a).read b).read a).read b, ?_, fun first second =>
      (readFirst first second).readFirst.readSecond.readFirst.readSecond⟩
    simp only [strcmpFrom, Tracked.read_mem, ne_eq, isEnd, not_false_eq_true, if_true, differ,
      if_false]

theorem strcmpFrom_eq (leftString : IsString t.mem a leftText)
    (rightString : IsString t.mem b rightText)
    (fits : min leftText.length rightText.length < left) :
    ∃ t', strcmpFrom left a b t = some (firstDifference leftText rightText, t') ∧
      Looked t t' a b (leftText.length + 1) (rightText.length + 1) := by
  obtain ⟨left, rfl⟩ := Nat.exists_eq_add_one_of_ne_zero (Nat.ne_zero_of_lt fits)
  induction leftText, rightText using firstDifference.induct generalizing a b left t with
  | case1 =>
      have isEnd : t.mem a = 0 := leftString
      have isEnd' : t.mem b = 0 := rightString
      obtain ⟨t', stopped, looked⟩ := strcmpFrom_of_stop (b := b) left (.inl isEnd)
      refine ⟨t', ?_, looked 0 0⟩
      rw [stopped, byteDifference, isEnd, isEnd']
      rfl
  | case2 d rest =>
      have isEnd : t.mem a = 0 := leftString
      obtain ⟨t', stopped, looked⟩ := strcmpFrom_of_stop (b := b) left (.inl isEnd)
      refine ⟨t', ?_, looked 0 _⟩
      rw [stopped, byteDifference, isEnd, rightString.head]
      simp [firstDifference]
  | case3 c rest =>
      have isEnd : t.mem b = 0 := rightString
      have differ : t.mem a ≠ t.mem b := by
        rw [isEnd, leftString.head]
        exact leftString.2.1
      obtain ⟨t', stopped, looked⟩ := strcmpFrom_of_stop left (.inr differ)
      refine ⟨t', ?_, looked _ 0⟩
      rw [stopped, byteDifference, isEnd, leftString.head]
      simp [firstDifference]
  | case4 leftText c rightText inductionHypothesis =>
      have nonzero : t.mem a ≠ 0 := leftString.head ▸ leftString.2.1
      have same : t.mem a = t.mem b := leftString.head.trans rightString.head.symm
      rw [List.length_cons, List.length_cons] at fits
      obtain ⟨left, rfl⟩ := Nat.exists_eq_add_one_of_ne_zero (show left ≠ 0 by omega)
      obtain ⟨t', found, later⟩ := inductionHypothesis (t := ((t.read a).read a).read b)
        leftString.tail rightString.tail left (by omega)
      refine ⟨t', ?_, ?_⟩
      · rw [strcmpFrom, firstDifference, if_pos rfl, ← found]
        exact (if_pos nonzero).trans (if_pos same)
      · exact (Looked.refl t a b _ _).readFirst.readFirst.readSecond.behind later
  | case5 c leftText d rightText apart =>
      have differ : t.mem a ≠ t.mem b := by
        rw [leftString.head, rightString.head]
        exact apart
      obtain ⟨t', stopped, looked⟩ := strcmpFrom_of_stop left (.inr differ)
      refine ⟨t', ?_, looked _ _⟩
      rw [stopped, byteDifference, leftString.head, rightString.head, firstDifference, if_neg apart]

theorem strncmpFrom_of_differ (n : Nat) (differ : t.mem a ≠ t.mem b) (first second : Nat) :
    (strncmpFrom a b (n + 1) t).1 = byteDifference t.mem a b ∧
      Looked t (strncmpFrom a b (n + 1) t).2 a b (first + 1) (second + 1) := by
  have result : strncmpFrom a b (n + 1) t =
      (byteDifference t.mem a b, (((t.read a).read b).read a).read b) := if_pos differ
  rw [result]
  exact ⟨rfl, (Looked.refl t a b _ _).readFirst.readSecond.readFirst.readSecond⟩

theorem strncmpFrom_eq (leftSource : IsSource t.mem n a leftText)
    (rightSource : IsSource t.mem n b rightText) :
    (strncmpFrom a b n t).1 = firstDifference (leftText.take n) (rightText.take n) ∧
      Looked t (strncmpFrom a b n t).2 a b (min n (leftText.length + 1))
        (min n (rightText.length + 1)) := by
  induction n generalizing a b t leftText rightText with
  | zero => exact ⟨rfl, Looked.refl t a b _ _⟩
  | succ n inductionHypothesis =>
      rw [Nat.add_min_add_right, Nat.add_min_add_right]
      have read : ∀ first second, Looked t (((t.read a).read b).read a) a b (first + 1)
          (second + 1) :=
        fun first second => (Looked.refl t a b _ _).readFirst.readSecond.readFirst
      -- the four cases: one of the texts ends here, or both have a byte
      match leftText, rightText with
      | [], [] =>
          have isEnd : t.mem a = 0 := leftSource
          have isEnd' : t.mem b = 0 := rightSource
          have result : strncmpFrom a b (n + 1) t = (0, ((t.read a).read b).read a) :=
            (if_neg (not_not_intro (isEnd.trans isEnd'.symm))).trans (if_pos isEnd)
          rw [result]
          exact ⟨rfl, read _ _⟩
      | [], d :: rest =>
          obtain ⟨isChar, nonzero, -⟩ := rightSource
          have isEnd : t.mem a = 0 := leftSource
          have differ : t.mem a ≠ t.mem b := by
            rw [isEnd, isChar]
            exact Ne.symm nonzero
          obtain ⟨value, looked⟩ := strncmpFrom_of_differ n differ (min n 0) (min n (rest.length + 1))
          refine ⟨?_, looked⟩
          rw [value, byteDifference, isEnd, isChar]
          simp [firstDifference]
      | c :: rest, [] =>
          obtain ⟨isChar, nonzero, -⟩ := leftSource
          have isEnd : t.mem b = 0 := rightSource
          have differ : t.mem a ≠ t.mem b := by
            rw [isEnd, isChar]
            exact nonzero
          obtain ⟨value, looked⟩ := strncmpFrom_of_differ n differ (min n (rest.length + 1)) (min n 0)
          refine ⟨?_, looked⟩
          rw [value, byteDifference, isEnd, isChar]
          simp [firstDifference]
      | c :: leftText, d :: rightText =>
          obtain ⟨isLeft, nonzero, leftLater⟩ := leftSource
          obtain ⟨isRight, -, rightLater⟩ := rightSource
          rw [List.take_succ_cons, List.take_succ_cons, firstDifference]
          by_cases same : c = d
          · have goesOn : strncmpFrom a b (n + 1) t =
                strncmpFrom (a + 1) (b + 1) n (((t.read a).read b).read a) := by
              have equal : t.mem a = t.mem b := isLeft.trans (same.trans isRight.symm)
              have notEnd : t.mem a ≠ 0 := isLeft ▸ nonzero
              exact (if_neg (not_not_intro equal)).trans (if_neg notEnd)
            have later := inductionHypothesis (t := ((t.read a).read b).read a) leftLater rightLater
            rw [goesOn, if_pos same]
            exact ⟨later.1, (read _ _).behind later.2⟩
          · have differ : t.mem a ≠ t.mem b := by
              rw [isLeft, isRight]
              exact same
            obtain ⟨value, looked⟩ := strncmpFrom_of_differ n differ
              (min n (leftText.length + 1)) (min n (rightText.length + 1))
            refine ⟨?_, looked⟩
            rw [value, byteDifference, isLeft, isRight, if_neg same]

/-! ### One order -/

/-- Two strings; a null pointer stands for the literal at `empty`. -/
structure CompareInput where
  mem : Memory
  empty : Nat
  s1 : Nat
  s2 : Nat
  left : List UInt8
  right : List UInt8
  literal : mem empty = 0
  leftString : IsString mem (orEmpty empty s1) left
  rightString : IsString mem (orEmpty empty s2) right
  leftFits : orEmpty empty s1 + left.length < 2 ^ 64
  rightFits : orEmpty empty s2 + right.length < 2 ^ 64

theorem orEmpty_null {mem : Memory} {empty s : Nat} {text : List UInt8} (literal : mem empty = 0)
    (string : IsString mem (orEmpty empty s) text) (null : s = 0) : text = [] := by
  subst null
  cases text with
  | nil => rfl
  | cons c rest =>
      have isChar : mem empty = c := string.head
      exact absurd (isChar.symm.trans literal) string.2.1

/-- The three functions decide one order, the lexicographic one of unsigned bytes:
`strcmp` for the strings, `strncmp` for their first `n` characters, `memcmp` for `n`
bytes. Null pointers count as empty strings, nothing is written, and nothing is read
behind a string or a bound. -/
theorem comparisons_order (input : CompareInput) (n a1 a2 : Nat) :
    (∃ value t, strcmp input.empty input.s1 input.s2 (Tracked.start input.mem) = some (value, t) ∧
      Decides value input.left input.right ∧
      Looked (Tracked.start input.mem) t (orEmpty input.empty input.s1)
        (orEmpty input.empty input.s2) (input.left.length + 1) (input.right.length + 1)) ∧
    (Decides (strncmp input.empty input.s1 input.s2 n (Tracked.start input.mem)).1
        (input.left.take n) (input.right.take n) ∧
      Looked (Tracked.start input.mem)
        (strncmp input.empty input.s1 input.s2 n (Tracked.start input.mem)).2
        (orEmpty input.empty input.s1) (orEmpty input.empty input.s2)
        (min n (input.left.length + 1)) (min n (input.right.length + 1))) ∧
    (Decides (memcmp a1 a2 n (Tracked.start input.mem)).1 (bytesFrom input.mem n a1)
        (bytesFrom input.mem n a2) ∧
      Looked (Tracked.start input.mem) (memcmp a1 a2 n (Tracked.start input.mem)).2 a1 a2 n n) ∧
    (input.s1 = 0 → input.left = []) ∧ (input.s2 = 0 → input.right = []) := by
  have leftNonzero : ∀ c ∈ input.left, c ≠ 0 := fun c => input.leftString.nonzero
  have rightNonzero : ∀ d ∈ input.right, d ≠ 0 := fun d => input.rightString.nonzero
  refine ⟨?_, ?_, ?_, orEmpty_null input.literal input.leftString,
    orEmpty_null input.literal input.rightString⟩
  · have fits : min input.left.length input.right.length <
        min (bytesBehind (orEmpty input.empty input.s1))
          (bytesBehind (orEmpty input.empty input.s2)) := by
      have leftFits := input.leftFits
      have rightFits := input.rightFits
      unfold bytesBehind
      omega
    obtain ⟨t, found, looked⟩ := strcmpFrom_eq (t := Tracked.start input.mem) input.leftString
      input.rightString fits
    exact ⟨_, t, found, firstDifference_decides (.inr ⟨leftNonzero, rightNonzero⟩), looked⟩
  · have compared := strncmpFrom_eq (t := Tracked.start input.mem) (input.leftString.source n)
      (input.rightString.source n)
    refine ⟨?_, compared.2⟩
    rw [strncmp, compared.1]
    apply firstDifference_decides
    exact .inr ⟨fun c member => leftNonzero c (List.mem_of_mem_take member),
      fun d member => rightNonzero d (List.mem_of_mem_take member)⟩
  · have compared := memcmp_eq a1 a2 n (Tracked.start input.mem)
    refine ⟨?_, compared.2⟩
    rw [compared.1]
    apply firstDifference_decides
    left
    rw [length_bytesFrom, length_bytesFrom]

/-- "ab" is above "a". -/
theorem comparisons_order_two_texts : ∃ input : CompareInput, input.left = [97, 98] ∧
    input.right = [97] ∧ ∃ value t,
      strcmp input.empty input.s1 input.s2 (Tracked.start input.mem) = some (value, t) ∧
        0 < value := by
  let input : CompareInput := {
    mem := fun addr => [97, 98, 0, 97, 0].getD (addr - 16) 0
    empty := 20
    s1 := 16
    s2 := 19
    left := [97, 98]
    right := [97]
    literal := rfl
    leftString := by decide
    rightString := by decide
    leftFits := by decide
    rightFits := by decide }
  obtain ⟨value, t, found, decides, -⟩ := (comparisons_order input 0 0 0).1
  exact ⟨input, rfl, rfl, value, t, found, decides.pos_iff.mpr (by decide)⟩

end UniKernel.CString
