import UniKernel.Lib.Strings
import UniKernel.Lib.Tracked

/-!
Owns the functions of `src/string.c` on strings with a bound: `strncpy`, `stpncpy` and
`strnlen`. The two copies write the same bytes, but `stpncpy` returns the end of the
destination where the end of the text is meant, and `strnlen` reads the byte at the
bound and one behind it.
-/

namespace UniKernel.CString

open UniKernel.Lib

/-! ### The functions -/

/-- The loop `while (n && (*d++ = *src++)) n--;`: `n`, `d` and the memory behind it. -/
def copyString : (n d src : Nat) → Tracked → Nat × Nat × Tracked
  | 0, d, _, t => (0, d, t)
  | n + 1, d, src, t =>
      let c := t.mem src
      let t := (t.read src).write d c
      if c = 0 then (n + 1, d + 1, t) else copyString n (d + 1) (src + 1) t

/-- A loop that writes `count` zero bytes from `d` on. -/
def zeroBytes : (count d : Nat) → Tracked → Tracked
  | 0, _, t => t
  | count + 1, d, t => zeroBytes count (d + 1) (t.write d 0)

def strncpy (dest src n : Nat) (t : Tracked) : Nat × Tracked :=
  let (n, d, t) := copyString n dest src t
  (dest, if n ≠ 0 then zeroBytes (n - 1) d t else t)

/-- The loop `for (; i < n && s[i] != '\0'; ++i) d[i] = s[i];` with `left` = `n - i`. -/
def copyUntil (d s : Nat) : (left i : Nat) → Tracked → Nat × Tracked
  | 0, i, t => (i, t)
  | left + 1, i, t =>
      let c := t.mem (s + i)
      let t := t.read (s + i)
      if c = 0 then (i, t) else copyUntil d s left (i + 1) ((t.read (s + i)).write (d + i) c)

def stpncpy (s1 s2 n : Nat) (t : Tracked) : Nat × Tracked :=
  let (i, t) := copyUntil s1 s2 n 0 t
  (s1 + n, if i < n then zeroBytes (n - (i + 1)) (s1 + (i + 1)) (t.write (s1 + i) 0) else t)

/-- The bytes from `addr` to the end of the address space. -/
def bytesBehind (addr : Nat) : Nat := 2 ^ 64 - addr

/-- The loop `for (; s[ret] != '\0' && ret <= maxlen; ret++);` with `left` bytes behind
`s + ret`; none if it runs out of the address space. -/
def strnlenFrom (s maxlen : Nat) : (left ret : Nat) → Tracked → Option (Nat × Tracked)
  | 0, _, _ => none
  | left + 1, ret, t =>
      if t.mem (s + ret) ≠ 0 ∧ ret ≤ maxlen then
        strnlenFrom s maxlen left (ret + 1) (t.read (s + ret))
      else some (ret, t.read (s + ret))

def strnlen (s maxlen : Nat) (t : Tracked) : Option (Nat × Tracked) :=
  strnlenFrom s maxlen (bytesBehind s) 0 t

/-! ### The loops -/

variable {t t' : Tracked} {n d src s i left maxlen ret : Nat} {text : List UInt8}

/-- The copy goes on to the 0 of the source or to the bound, and counts down only
what it has copied before the 0. -/
theorem copyString_eq (source : IsSource t.mem n src text)
    (apart : src + min n (text.length + 1) ≤ d ∨ d + min n (text.length + 1) ≤ src) :
    ∃ t', copyString n d src t =
        (n - text.length, d + min n (text.length + 1), t') ∧
      t.Wrote t' d ((text ++ [0]).take n) := by
  induction n generalizing d src t text with
  | zero => exact ⟨t, by simp [copyString], Tracked.Wrote.of_same rfl rfl⟩
  | succ n inductionHypothesis =>
      cases text with
      | nil =>
          have isEnd : t.mem src = 0 := source
          have wrote : t.Wrote ((t.read src).write d 0) d [0] := (Tracked.Wrote.single 0).of_read
          refine ⟨(t.read src).write d 0, by simp [copyString, isEnd], ?_⟩
          rwa [List.nil_append, List.take_succ_cons, List.take_nil]
      | cons c rest =>
          rcases source with ⟨isChar, nonzero, later⟩
          rw [List.length_cons] at apart
          have kept : IsSource ((t.read src).write d c).mem n (src + 1) rest :=
            later.update (by omega)
          rcases inductionHypothesis (d := d + 1) kept (by omega) with ⟨t', copied, wrote⟩
          have first : t.Wrote ((t.read src).write d c) d [c] := (Tracked.Wrote.single c).of_read
          refine ⟨t', ?_, first.trans wrote⟩
          have counted : n + 1 - (rest.length + 1) = n - rest.length := by omega
          have moved : d + min (n + 1) (rest.length + 1 + 1) = d + 1 + min n (rest.length + 1) := by
            omega
          have taken : copyString (n + 1) d src t =
              copyString n (d + 1) (src + 1) ((t.read src).write d c) := by
            rw [copyString]
            simp only [isChar, if_neg nonzero]
          rw [taken, copied, List.length_cons, counted, moved]

theorem zeroBytes_wrote (count d : Nat) (t : Tracked) :
    t.Wrote (zeroBytes count d t) d (List.replicate count 0) := by
  induction count generalizing d t with
  | zero => exact Tracked.Wrote.of_same rfl rfl
  | succ count inductionHypothesis =>
      exact (Tracked.Wrote.single 0).trans (inductionHypothesis (d + 1) (t.write d 0))

theorem copyUntil_eq (source : IsSource t.mem left (s + i) text)
    (apart : s + i + min left (text.length + 1) ≤ d + i ∨ d + i + left ≤ s + i) :
    ∃ t', copyUntil d s left i t = (i + min left text.length, t') ∧
      t.Wrote t' (d + i) (text.take left) := by
  induction left generalizing i t text with
  | zero => exact ⟨t, by simp [copyUntil], Tracked.Wrote.of_same rfl rfl⟩
  | succ left inductionHypothesis =>
      cases text with
      | nil =>
          have isEnd : t.mem (s + i) = 0 := source
          refine ⟨t.read (s + i), ?_, Tracked.Wrote.of_same rfl rfl⟩
          simp [copyUntil, isEnd]
      | cons c rest =>
          rcases source with ⟨isChar, nonzero, later⟩
          rw [List.length_cons] at apart
          let next := ((t.read (s + i)).read (s + i)).write (d + i) c
          have kept : IsSource next.mem left (s + (i + 1)) rest := later.update (by omega)
          rcases inductionHypothesis kept (by omega) with ⟨t', copied, wrote⟩
          have first : t.Wrote next (d + i) [c] := (Tracked.Wrote.single c).of_read.of_read
          refine ⟨t', ?_, first.trans wrote⟩
          have taken : copyUntil d s (left + 1) i t = copyUntil d s left (i + 1) next := by
            rw [copyUntil]
            simp only [isChar, if_neg nonzero]
            rfl
          rw [taken, copied, List.length_cons]
          congr 1
          omega

/-! ### Copies with padding -/

/-- The first `n` characters of a text, and zero bytes as far as `n`. -/
def padded (text : List UInt8) (n : Nat) : List UInt8 :=
  text.take n ++ List.replicate (n - text.length) 0

theorem strncpy_wrote (source : IsSource t.mem n src text)
    (apart : src + min n (text.length + 1) ≤ d ∨ d + n ≤ src) :
    t.Wrote (strncpy d src n t).2 d (padded text n) := by
  rcases copyString_eq (d := d) source (by omega) with ⟨t', copied, wrote⟩
  simp only [strncpy, copied]
  by_cases whole : n ≤ text.length
  · have noPadding : padded text n = (text ++ [0]).take n := by
      rw [padded, Nat.sub_eq_zero_of_le whole, List.replicate_zero, List.append_nil,
        List.take_append_of_le_length whole]
    rw [if_neg (by omega), noPadding]
    exact wrote
  · -- the 0 that the loop copies is the first byte of the padding
    have copiedEnd : (text ++ [0]).take n = text ++ [0] :=
      List.take_of_length_le (by rw [List.length_append, List.length_singleton]; omega)
    have padding : padded text n = (text ++ [0]) ++ List.replicate (n - text.length - 1) 0 := by
      rw [padded, List.take_of_length_le (by omega), List.append_assoc, List.singleton_append,
        ← List.replicate_succ, show n - text.length - 1 + 1 = n - text.length by omega]
    rw [copiedEnd] at wrote
    rw [if_pos (by omega), padding]
    apply wrote.trans
    rw [List.length_append, List.length_singleton, Nat.min_eq_right (by omega)]
    exact zeroBytes_wrote _ _ _

theorem stpncpy_wrote (source : IsSource t.mem n src text)
    (apart : src + min n (text.length + 1) ≤ d ∨ d + n ≤ src) :
    t.Wrote (stpncpy d src n t).2 d (padded text n) := by
  rcases copyUntil_eq (d := d) (i := 0) source (by omega) with ⟨t', copied, wrote⟩
  simp only [stpncpy, copied, Nat.zero_add]
  by_cases whole : n ≤ text.length
  · have noPadding : padded text n = text.take n := by
      rw [padded, Nat.sub_eq_zero_of_le whole, List.replicate_zero, List.append_nil]
    rw [if_neg (by omega), noPadding]
    exact wrote
  · have copiedText : text.take n = text := List.take_of_length_le (by omega)
    have padding : padded text n = text ++ ([0] ++ List.replicate (n - (text.length + 1)) 0) := by
      rw [padded, copiedText, List.singleton_append, ← List.replicate_succ,
        show n - (text.length + 1) + 1 = n - text.length by omega]
    rw [copiedText] at wrote
    rw [Nat.min_eq_right (by omega), if_pos (by omega), padding]
    apply wrote.trans
    exact (Tracked.Wrote.single 0).trans (zeroBytes_wrote _ _ _)

/-! ### The length -/

/-- A 0 before the bound ends the loop, which has read no further. -/
theorem strnlenFrom_eq (source : IsSource t.mem n (src + ret) text) (short : text.length < n)
    (inBound : ret + text.length ≤ maxlen) (fits : text.length < left) :
    ∃ t', strnlenFrom src maxlen left ret t = some (ret + text.length, t') ∧
      t'.reads = t.reads ++ List.range' (src + ret) (text.length + 1) := by
  induction text generalizing n left ret t with
  | nil =>
      obtain ⟨n, rfl⟩ := Nat.exists_eq_add_one_of_ne_zero (Nat.ne_zero_of_lt short)
      obtain ⟨left, rfl⟩ := Nat.exists_eq_add_one_of_ne_zero (Nat.ne_zero_of_lt fits)
      have isEnd : t.mem (src + ret) = 0 := source
      refine ⟨t.read (src + ret), ?_, rfl⟩
      rw [strnlenFrom, if_neg (fun goesOn => goesOn.1 isEnd)]
      rfl
  | cons c rest inductionHypothesis =>
      obtain ⟨n, rfl⟩ := Nat.exists_eq_add_one_of_ne_zero (Nat.ne_zero_of_lt short)
      obtain ⟨left, rfl⟩ := Nat.exists_eq_add_one_of_ne_zero (Nat.ne_zero_of_lt fits)
      rcases source with ⟨isChar, nonzero, later⟩
      rw [List.length_cons] at short inBound fits
      have taken : strnlenFrom src maxlen (left + 1) ret t =
          strnlenFrom src maxlen left (ret + 1) (t.read (src + ret)) := by
        rw [strnlenFrom, if_pos ⟨isChar ▸ nonzero, by omega⟩]
      have goesOn : ∃ t', strnlenFrom src maxlen left (ret + 1) (t.read (src + ret)) =
            some (ret + 1 + rest.length, t') ∧
          t'.reads = (t.read (src + ret)).reads ++
            List.range' (src + (ret + 1)) (rest.length + 1) :=
        inductionHypothesis (n := n) later (by omega) (by omega) (by omega)
      rcases goesOn with ⟨t', found, reads⟩
      refine ⟨t', ?_, ?_⟩
      · rw [taken, found, List.length_cons, Nat.add_assoc, Nat.add_comm 1 rest.length]
      · rw [reads, Tracked.read_reads, List.append_assoc, List.length_cons,
          List.range'_succ (n := rest.length + 1)]
        rfl

/-- The loop forgets nothing that has been read. -/
theorem reads_strnlenFrom {result : Nat × Tracked}
    (ends : strnlenFrom src maxlen left ret t = some result) {addr : Nat} (before : addr ∈ t.reads) :
    addr ∈ result.2.reads := by
  induction left generalizing ret t with
  | zero => cases ends
  | succ left inductionHypothesis =>
      have kept : addr ∈ (t.read (src + ret)).reads := List.mem_append_left _ before
      rw [strnlenFrom] at ends
      split at ends
      · exact inductionHypothesis ends kept
      · rw [← Option.some.inj ends]
        exact kept

/-- Without a 0 before the bound, the loop does not end before it has read the byte
at the bound. -/
theorem bound_mem_reads (source : IsSource t.mem n (src + ret) text) (long : n ≤ text.length)
    (atBound : ret + n = maxlen) {result : Nat × Tracked}
    (ends : strnlenFrom src maxlen left ret t = some result) :
    src + maxlen ∈ result.2.reads := by
  induction n generalizing left ret t text with
  | zero =>
      rw [Nat.add_zero] at atBound
      subst atBound
      cases left with
      | zero => cases ends
      | succ left =>
          have isRead : src + ret ∈ (t.read (src + ret)).reads := by simp
          rw [strnlenFrom] at ends
          split at ends
          · exact reads_strnlenFrom ends isRead
          · rw [← Option.some.inj ends]
            exact isRead
  | succ n inductionHypothesis =>
      cases text with
      | nil => cases long
      | cons c rest =>
          rcases source with ⟨isChar, nonzero, later⟩
          cases left with
          | zero => cases ends
          | succ left =>
              rw [strnlenFrom, if_pos ⟨isChar ▸ nonzero, by omega⟩] at ends
              exact inductionHypothesis later (Nat.le_of_succ_le_succ long) (by omega) ends

/-! ### The three functions on one source -/

/-- A source and a destination of `n` bytes that do not overlap. The text is what lies
before the first 0 of the source, or any `n` bytes or more of it without one. -/
structure BoundedInput where
  mem : Memory
  dest : Nat
  src : Nat
  n : Nat
  text : List UInt8
  source : IsSource mem n src text
  apart : src + min n (text.length + 1) ≤ dest ∨ dest + n ≤ src
  fits : text.length < n → src + text.length < 2 ^ 64

namespace BoundedInput

variable (input : BoundedInput)

/-- `strncpy` and `stpncpy` write the text and its padding, the same `n` bytes, and
nothing else. -/
def Copies : Prop :=
  (Tracked.start input.mem).Wrote
      (strncpy input.dest input.src input.n (Tracked.start input.mem)).2 input.dest
      (padded input.text input.n) ∧
    (Tracked.start input.mem).Wrote
      (stpncpy input.dest input.src input.n (Tracked.start input.mem)).2 input.dest
      (padded input.text input.n)

/-- `stpncpy` returns the end of what it has copied of the text. -/
def ReturnsEnd : Prop :=
  (stpncpy input.dest input.src input.n (Tracked.start input.mem)).1 =
    input.dest + min input.text.length input.n

/-- `strnlen` returns the length up to the bound and reads nothing from the bound on. -/
def Measures : Prop :=
  ∃ t, strnlen input.src input.n (Tracked.start input.mem) = some (min input.text.length input.n, t) ∧
    ∀ addr ∈ t.reads, addr < input.src + input.n

theorem copies : input.Copies :=
  ⟨strncpy_wrote input.source input.apart, stpncpy_wrote input.source input.apart⟩

theorem returnsEnd_iff : input.ReturnsEnd ↔ input.n ≤ input.text.length := by
  unfold ReturnsEnd stpncpy
  constructor
  · intro returned
    have same : input.n = min input.text.length input.n := Nat.add_left_cancel returned
    omega
  · intro long
    rw [Nat.min_eq_right long]

theorem measures_iff : input.Measures ↔ input.text.length < input.n := by
  constructor
  · rintro ⟨t, ends, confined⟩
    by_contra long
    have isRead : input.src + input.n ∈ t.reads :=
      bound_mem_reads (by exact input.source) (Nat.not_lt.mp long) (Nat.zero_add _) ends
    exact absurd (confined _ isRead) (Nat.lt_irrefl _)
  · intro short
    have fits : input.text.length < bytesBehind input.src := by
      have inMemory := input.fits short
      unfold bytesBehind
      omega
    have measured : ∃ t, strnlen input.src input.n (Tracked.start input.mem) =
          some (0 + input.text.length, t) ∧
        t.reads = [] ++ List.range' (input.src + 0) (input.text.length + 1) :=
      strnlenFrom_eq (by exact input.source) short (by omega) fits
    rcases measured with ⟨t, found, reads⟩
    refine ⟨t, ?_, ?_⟩
    · rw [Nat.min_eq_left (Nat.le_of_lt short), found, Nat.zero_add]
    · intro addr isRead
      rw [reads] at isRead
      have inside := List.mem_range'_1.mp isRead
      omega

end BoundedInput

/-- The copies agree for every source, but `stpncpy` returns what it should only if the
text reaches the bound, and `strnlen` measures as it should only if it does not. -/
theorem not_copies_returnsEnd_measures (input : BoundedInput) :
    input.Copies ∧ (input.ReturnsEnd ↔ input.n ≤ input.text.length) ∧
      (input.Measures ↔ input.text.length < input.n) ∧
      ¬ (input.Copies ∧ input.ReturnsEnd ∧ input.Measures) := by
  refine ⟨input.copies, input.returnsEnd_iff, input.measures_iff, ?_⟩
  rintro ⟨-, returned, measured⟩
  have long := input.returnsEnd_iff.mp returned
  have short := input.measures_iff.mp measured
  omega

/-- With the source "a" and two bytes of room, `stpncpy` returns the end of the room. -/
theorem exists_source_not_returned : ∃ input : BoundedInput, input.text = [97] ∧ input.n = 2 ∧
    ¬ (input.Copies ∧ input.ReturnsEnd ∧ input.Measures) := by
  let input : BoundedInput := {
    mem := textMemory [97]
    dest := 16
    src := 0
    n := 2
    text := [97]
    source := ⟨rfl, by decide, rfl⟩
    apart := by decide
    fits := by decide }
  have elsewhere : ¬ input.ReturnsEnd := by
    unfold BoundedInput.ReturnsEnd
    decide
  exact ⟨input, rfl, rfl, fun claimed => elsewhere claimed.2.1⟩

end UniKernel.CString
