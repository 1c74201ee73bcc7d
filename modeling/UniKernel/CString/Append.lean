import UniKernel.CString.Bounded

/-!
Owns `strlen`, `strncat` and `strlcat` of `src/string.c`. `strncat` ends its result
with a 0 only where the loop has copied one, and then writes another one behind it.
`strlcat` writes up to the offset of its bound, and returns nothing.
-/

namespace UniKernel.CString

open UniKernel.Lib

/-! ### The functions -/

/-- The loop `for (; s[ret] != '\0'; ret++);` with `left` bytes behind `s + ret`; none
if it runs out of the address space. -/
def strlenFrom (s : Nat) : (left ret : Nat) → Tracked → Option (Nat × Tracked)
  | 0, _, _ => none
  | left + 1, ret, t =>
      if t.mem (s + ret) ≠ 0 then strlenFrom s left (ret + 1) (t.read (s + ret))
      else some (ret, t.read (s + ret))

def strlen (s : Nat) (t : Tracked) : Option (Nat × Tracked) := strlenFrom s (bytesBehind s) 0 t

def strncat (dest src n : Nat) (t : Tracked) : Option (Nat × Tracked) := do
  let (length, t) ← strlen dest t
  let (n, d, t) := copyString n (dest + length) src t
  some (dest, if n ≠ 0 then t.write d 0 else t)

/-- The largest `int`. -/
def intMax : Nat := 2 ^ 31 - 1

/-- The loop `while (*d && i++ < n) d++;` with `left` = `intMax - i`: `left`, `d` and the
memory behind it. There is no result if `i` overflows. -/
def strlcatSkip (n : Nat) : (left d : Nat) → Tracked → Option (Nat × Nat × Tracked)
  | 0, d, t => if t.mem d = 0 then some (0, d, t.read d) else none
  | left + 1, d, t =>
      if t.mem d = 0 then some (left + 1, d, t.read d)
      else if intMax - (left + 1) < n then strlcatSkip n left (d + 1) (t.read d)
      else some (left, d, t.read d)

/-- The loop `while ((*d++ = *source++) != '\0' && i++ < n);` with `left` = `intMax - i`. -/
def strlcatCopy (n : Nat) : (left d source : Nat) → Tracked → Option Tracked
  | 0, d, source, t =>
      if t.mem source = 0 then some ((t.read source).write d 0) else none
  | left + 1, d, source, t =>
      let c := t.mem source
      let t := (t.read source).write d c
      if c = 0 then some t
      else if intMax - (left + 1) < n then strlcatCopy n left (d + 1) (source + 1) t
      else some t

/-- The function ends without a `return`, so that it has no value. -/
def strlcat (destination source n : Nat) (t : Tracked) : Option (Option Nat × Tracked) := do
  let (left, d, t) ← strlcatSkip n intMax destination t
  let t ← strlcatCopy n left d source t
  some (none, t)

variable {t t' : Tracked} {n s d src left ret : Nat} {old text : List UInt8}

/-! ### `strncat` -/

theorem strlenFrom_eq (string : IsString t.mem (s + ret) text) (fits : text.length < left) :
    ∃ t', strlenFrom s left ret t = some (ret + text.length, t') ∧ t'.mem = t.mem ∧
      t'.writes = t.writes := by
  induction text generalizing left ret t with
  | nil =>
      obtain ⟨left, rfl⟩ := Nat.exists_eq_add_one_of_ne_zero (Nat.ne_zero_of_lt fits)
      have isEnd : t.mem (s + ret) = 0 := string
      exact ⟨t.read (s + ret), by rw [strlenFrom, if_neg (not_not_intro isEnd)]; rfl, rfl, rfl⟩
  | cons c rest inductionHypothesis =>
      obtain ⟨left, rfl⟩ := Nat.exists_eq_add_one_of_ne_zero (Nat.ne_zero_of_lt fits)
      rcases string with ⟨isChar, nonzero, later⟩
      have below : rest.length < left := Nat.lt_of_succ_lt_succ fits
      have goesOn : ∃ t', strlenFrom s left (ret + 1) (t.read (s + ret)) =
          some (ret + 1 + rest.length, t') ∧ t'.mem = t.mem ∧ t'.writes = t.writes :=
        inductionHypothesis later below
      rcases goesOn with ⟨t', found, same⟩
      refine ⟨t', ?_, same⟩
      rw [strlenFrom, if_pos (isChar ▸ nonzero), found, List.length_cons, Nat.add_assoc,
        Nat.add_comm 1 rest.length]

/-- Two strings that a call of `strncat` gets: the result does not reach the source. -/
structure StrncatInput where
  mem : Memory
  dest : Nat
  src : Nat
  n : Nat
  old : List UInt8
  text : List UInt8
  destString : IsString mem dest old
  srcString : IsString mem src text
  apart : dest + old.length + min n text.length < src ∨ src + text.length < dest
  fits : dest + old.length < 2 ^ 64

namespace StrncatInput

variable (input : StrncatInput)

/-- The old string and the first `n` characters of the source are the string at the
destination, and nothing behind its 0 has been written. -/
def Appends : Prop :=
  ∃ t, strncat input.dest input.src input.n (Tracked.start input.mem) = some (input.dest, t) ∧
    IsString t.mem input.dest (input.old ++ input.text.take input.n) ∧
    ∀ addr ∈ t.writes, addr ≤ input.dest + input.old.length + min input.n input.text.length

/-- The memory behind a call: a 0 has been copied and another one written, or none. -/
theorem exists_strncat : ∃ t,
    strncat input.dest input.src input.n (Tracked.start input.mem) = some (input.dest, t) ∧
      (Tracked.start input.mem).Wrote t (input.dest + input.old.length)
        (if input.n ≤ input.text.length then input.text.take input.n
          else input.text ++ [0, 0]) := by
  have fits : input.old.length < bytesBehind input.dest := by
    have inMemory := input.fits
    unfold bytesBehind
    omega
  have measured : ∃ t, strlen input.dest (Tracked.start input.mem) =
      some (0 + input.old.length, t) ∧ t.mem = input.mem ∧ t.writes = [] :=
    strlenFrom_eq (by exact input.destString) fits
  rcases measured with ⟨t, isLength, sameMem, noWrites⟩
  have apart := input.apart
  have source : IsSource t.mem input.n input.src input.text := by
    rw [sameMem]
    exact input.srcString.source input.n
  rcases copyString_eq (d := input.dest + input.old.length) source (by omega) with
    ⟨t', copied, wrote⟩
  have fromStart : (Tracked.start input.mem).Wrote t' (input.dest + input.old.length)
      ((input.text ++ [0]).take input.n) := wrote.of_reads sameMem noWrites
  simp only [strncat, isLength, Option.bind_eq_bind, Option.bind_some, Nat.zero_add, copied]
  by_cases whole : input.n ≤ input.text.length
  · refine ⟨t', ?_, ?_⟩
    · rw [if_neg (by omega)]
    · have cut : (input.text ++ [0]).take input.n = input.text.take input.n :=
        List.take_append_of_le_length whole
      rwa [if_pos whole, ← cut]
  · have copiedEnd : (input.text ++ [0]).take input.n = input.text ++ [0] :=
      List.take_of_length_le (by rw [List.length_append, List.length_singleton]; omega)
    rw [copiedEnd] at fromStart
    refine ⟨_, by rw [if_pos (by omega)], ?_⟩
    rw [if_neg whole, List.append_cons, Nat.min_eq_right (by omega)]
    apply fromStart.trans
    rw [List.length_append, List.length_singleton]
    exact Tracked.Wrote.single 0

/-- Exactly when the bound is reached in the source and a 0 already lies behind the room. -/
theorem appends_iff : input.Appends ↔
    input.n ≤ input.text.length ∧ input.mem (input.dest + input.old.length + input.n) = 0 := by
  rcases input.exists_strncat with ⟨t, isResult, wrote⟩
  have apart := input.apart
  constructor
  · rintro ⟨t', isResult', string, confined⟩
    have same : t' = t := by
      rw [isResult] at isResult'
      exact (Prod.mk.inj (Option.some.inj isResult')).2.symm
    subst same
    have whole : input.n ≤ input.text.length := by
      by_contra short
      rw [if_neg short] at wrote
      have isWritten : input.dest + input.old.length + input.text.length + 1 ∈ t'.writes := by
        rw [wrote.mem_writes, List.length_append]
        exact Or.inr ⟨by omega, Nat.lt_succ_self _⟩
      have bound := confined _ isWritten
      omega
    rw [if_pos whole] at wrote
    have lengthIs : (input.text.take input.n).length = input.n := List.length_take_of_le whole
    have isEnd := string.apply (k := input.old.length + input.n)
      (by rw [List.length_append, lengthIs])
    rw [List.getD_eq_default _ _ (by rw [List.length_append, lengthIs]), ← Nat.add_assoc,
      wrote.outside (Or.inr (by rw [lengthIs]))] at isEnd
    exact ⟨whole, isEnd⟩
  · rintro ⟨whole, isEnd⟩
    rw [if_pos whole] at wrote
    have lengthIs : (input.text.take input.n).length = input.n := List.length_take_of_le whole
    refine ⟨t, isResult, ?_, ?_⟩
    · apply input.destString.append
      · exact fun k below => wrote.outside (Or.inl (Nat.add_lt_add_left below _))
      · apply wrote.isString
        · exact fun c member => input.srcString.nonzero (List.mem_of_mem_take member)
        · rw [lengthIs, wrote.outside (Or.inr (by rw [lengthIs]))]
          exact isEnd
    · intro addr isWritten
      rcases wrote.mem_writes.mp isWritten with none | ⟨above, below⟩
      · cases none
      · rw [lengthIs] at below
        omega

end StrncatInput

/-- Room for one character and its 0, a source of one character and a bound of 2: a byte
behind the 0 is written. -/
theorem exists_strncat_not_confined : ∃ input : StrncatInput, input.old = [] ∧
    input.text = [97] ∧ input.n = 2 ∧ ¬ input.Appends := by
  let input : StrncatInput := {
    mem := textMemory [97]
    dest := 16
    src := 0
    n := 2
    old := []
    text := [97]
    destString := rfl
    srcString := by decide
    apart := by decide
    fits := by decide }
  refine ⟨input, rfl, rfl, rfl, ?_⟩
  rintro ⟨t, isResult, -, confined⟩
  rcases input.exists_strncat with ⟨t', isResult', wrote⟩
  rw [isResult] at isResult'
  have same : t = t' := (Prod.mk.inj (Option.some.inj isResult')).2
  have isWritten : 18 ∈ t'.writes := wrote.mem_writes.mpr (Or.inr ⟨by decide, by decide⟩)
  exact absurd (confined 18 (same ▸ isWritten)) (by decide)

/-! ### `strlcat` -/

theorem strlcatSkip_of_end (isEnd : t.mem d = 0) :
    strlcatSkip n left d t = some (left, d, t.read d) := by
  cases left with
  | zero => exact if_pos isEnd
  | succ left => exact if_pos isEnd

theorem strlcatCopy_of_end (isEnd : t.mem src = 0) :
    strlcatCopy n left d src t = some ((t.read src).write d 0) := by
  cases left with
  | zero => exact if_pos isEnd
  | succ left => simp [strlcatCopy, isEnd]

theorem strlcatSkip_eq (string : IsString t.mem d old) (fits : old.length ≤ left)
    (below : intMax - left + old.length ≤ n) (start : left ≤ intMax) :
    ∃ t', strlcatSkip n left d t = some (left - old.length, d + old.length, t') ∧
      t'.mem = t.mem ∧ t'.writes = t.writes := by
  induction old generalizing left d t with
  | nil => exact ⟨t.read d, strlcatSkip_of_end string, rfl, rfl⟩
  | cons c rest inductionHypothesis =>
      obtain ⟨left, rfl⟩ := Nat.exists_eq_add_one_of_ne_zero (Nat.ne_zero_of_lt fits)
      rcases string with ⟨isChar, nonzero, tail⟩
      rw [List.length_cons] at fits below
      rcases inductionHypothesis (t := t.read d) (d := d + 1) tail (Nat.le_of_succ_le_succ fits)
        (by omega) (by omega) with ⟨t', found, same⟩
      refine ⟨t', ?_, same⟩
      rw [strlcatSkip, if_neg (isChar ▸ nonzero), if_pos (by omega), found, List.length_cons,
        Nat.add_sub_add_right, Nat.add_assoc, Nat.add_comm 1 rest.length]

/-- The first loop ends at the 0 of the string, or with `d` at the bound. -/
theorem strlcatSkip_cases (string : IsString t.mem d old) (start : left ≤ intMax) {left' d' : Nat}
    (found : strlcatSkip n left d t = some (left', d', t')) :
    t'.mem = t.mem ∧ t'.writes = t.writes ∧
      (left' + old.length = left ∧ d' = d + old.length ∨ d + (n - (intMax - left)) ≤ d') := by
  induction old generalizing left d t with
  | nil =>
      rw [strlcatSkip_of_end string] at found
      cases found
      exact ⟨rfl, rfl, Or.inl ⟨rfl, rfl⟩⟩
  | cons c rest inductionHypothesis =>
      rcases string with ⟨isChar, nonzero, tail⟩
      have notEnd : t.mem d ≠ 0 := isChar ▸ nonzero
      cases left with
      | zero =>
          rw [strlcatSkip, if_neg notEnd] at found
          cases found
      | succ left =>
          rw [strlcatSkip, if_neg notEnd] at found
          by_cases goesOn : intMax - (left + 1) < n
          · rw [if_pos goesOn] at found
            rcases inductionHypothesis (t := t.read d) tail (by omega) found with ⟨sameMem, sameWrites, place⟩
            refine ⟨sameMem, sameWrites, ?_⟩
            rw [List.length_cons]
            omega
          · rw [if_neg goesOn] at found
            cases found
            exact ⟨rfl, rfl, Or.inr (by omega)⟩

theorem strlcatCopy_eq (string : IsString t.mem src text) (fits : text.length ≤ left)
    (below : intMax - left + text.length < n) (start : left ≤ intMax)
    (apart : d + text.length < src ∨ src + text.length < d) :
    ∃ t', strlcatCopy n left d src t = some t' ∧ t.Wrote t' d (text ++ [0]) := by
  induction text generalizing left d src t with
  | nil =>
      exact ⟨(t.read src).write d 0, strlcatCopy_of_end string, (Tracked.Wrote.single 0).of_read⟩
  | cons c rest inductionHypothesis =>
      obtain ⟨left, rfl⟩ := Nat.exists_eq_add_one_of_ne_zero (Nat.ne_zero_of_lt fits)
      rcases string with ⟨isChar, nonzero, tail⟩
      rw [List.length_cons] at fits below apart
      have kept : IsString ((t.read src).write d c).mem (src + 1) rest := tail.update (by omega)
      rcases inductionHypothesis (d := d + 1) kept (Nat.le_of_succ_le_succ fits) (by omega)
        (by omega) (by omega) with ⟨t', copied, wrote⟩
      have first : t.Wrote ((t.read src).write d c) d [c] := (Tracked.Wrote.single c).of_read
      refine ⟨t', ?_, first.trans wrote⟩
      rw [strlcatCopy]
      simp only [isChar, if_neg nonzero]
      rw [if_pos (by omega), copied]

/-- The second loop copies the whole source below the bound, or writes a byte at the
bound. -/
theorem strlcatCopy_cases (string : IsString t.mem src text) (start : left ≤ intMax)
    (apart : d + (n - (intMax - left)) ≤ src ∨ src + text.length < d)
    (copied : strlcatCopy n left d src t = some t') :
    text.length ≤ left ∧ intMax - left + text.length < n ∨
      ∃ addr ∈ t'.writes, d + (n - (intMax - left)) ≤ addr := by
  have writesHere : ∀ (s : Tracked) (c : UInt8), d ∈ (s.write d c).writes := by simp
  induction text generalizing left d src t with
  | nil =>
      rw [strlcatCopy_of_end string] at copied
      cases copied
      by_cases inside : intMax - left < n
      · exact Or.inl ⟨Nat.zero_le _, inside⟩
      · exact Or.inr ⟨d, writesHere _ _, by omega⟩
  | cons c rest inductionHypothesis =>
      rcases string with ⟨isChar, nonzero, tail⟩
      have notEnd : t.mem src ≠ 0 := isChar ▸ nonzero
      rw [List.length_cons] at apart ⊢
      cases left with
      | zero =>
          rw [strlcatCopy, if_neg notEnd] at copied
          cases copied
      | succ left =>
          rw [strlcatCopy] at copied
          simp only [isChar, if_neg nonzero] at copied
          by_cases goesOn : intMax - (left + 1) < n
          · rw [if_pos goesOn] at copied
            have kept : IsString ((t.read src).write d c).mem (src + 1) rest :=
              tail.update (by omega)
            rcases inductionHypothesis (d := d + 1) kept (by omega) (by omega) copied (by simp) with
              ⟨fits, below⟩ | ⟨addr, isWritten, above⟩
            · exact Or.inl ⟨by omega, by omega⟩
            · exact Or.inr ⟨addr, isWritten, by omega⟩
          · rw [if_neg goesOn] at copied
            cases copied
            exact Or.inr ⟨d, writesHere _ _, by omega⟩

/-- The second loop writes the byte at `d` before it looks at the bound. -/
theorem mem_writes_strlcatCopy (copied : strlcatCopy n left d src t = some t') {addr : Nat}
    (isWritten : addr ∈ t.writes ∨ addr = d) : addr ∈ t'.writes := by
  induction left generalizing d src t with
  | zero =>
      rw [strlcatCopy] at copied
      split at copied
      · cases copied
        simpa using isWritten
      · cases copied
  | succ left inductionHypothesis =>
      have written : addr ∈ ((t.read src).write d (t.mem src)).writes := by simpa using isWritten
      simp only [strlcatCopy] at copied
      split at copied
      · cases copied
        exact written
      · split at copied
        · exact inductionHypothesis copied (Or.inl written)
        · cases copied
          exact written

/-- Two strings that a call of `strlcat` gets: the room of `n` bytes and the old string
in it do not reach the source. -/
structure StrlcatInput where
  mem : Memory
  destination : Nat
  source : Nat
  n : Nat
  old : List UInt8
  text : List UInt8
  destString : IsString mem destination old
  sourceString : IsString mem source text
  apart : destination + max n (old.length + 1) ≤ source ∨ source + text.length < destination

namespace StrlcatInput

variable (input : StrlcatInput)

/-- The call, on memory in which nothing has been read or written yet. -/
def call : Option (Option Nat × Tracked) :=
  strlcat input.destination input.source input.n (Tracked.start input.mem)

/-- Only the room is written; the result is the longest prefix that fits, or the old
string where that fills the room. -/
structure Appends (t : Tracked) : Prop where
  confined : ∀ addr ∈ t.writes, input.destination ≤ addr ∧ addr < input.destination + input.n
  appended : input.old.length < input.n →
    IsString t.mem input.destination (input.old ++ input.text.take (input.n - 1 - input.old.length))
  unchanged : input.n ≤ input.old.length →
    ∀ k ≤ input.old.length, t.mem (input.destination + k) = input.mem (input.destination + k)

/-- The two loops of a call that has a result. -/
theorem exists_loops {value : Option Nat} {t : Tracked} (isResult : input.call = some (value, t)) :
    ∃ left d s, strlcatSkip input.n intMax input.destination (Tracked.start input.mem) =
        some (left, d, s) ∧ strlcatCopy input.n left d input.source s = some t ∧ value = none := by
  unfold call strlcat at isResult
  rcases skipped : strlcatSkip input.n intMax input.destination (Tracked.start input.mem) with
    _ | ⟨left, d, s⟩
  · rw [skipped] at isResult
    cases isResult
  · simp only [skipped, Option.bind_eq_bind, Option.bind_some] at isResult
    rcases copied : strlcatCopy input.n left d input.source s with _ | t'
    · rw [copied] at isResult
      cases isResult
    · rw [copied, Option.bind_some] at isResult
      cases isResult
      exact ⟨left, d, s, rfl, copied, rfl⟩

/-- Where the two strings and the 0 fill less than the room, and their length is an
`int`, the bytes are right. -/
theorem exists_appends (room : input.old.length + input.text.length < input.n)
    (isInt : input.old.length + input.text.length ≤ intMax) :
    ∃ t, input.call = some (none, t) ∧ input.Appends t := by
  have apart := input.apart
  have skipped : ∃ s, strlcatSkip input.n intMax input.destination (Tracked.start input.mem) =
        some (intMax - input.old.length, input.destination + input.old.length, s) ∧
      s.mem = input.mem ∧ s.writes = [] :=
    strlcatSkip_eq input.destString (by omega) (by omega) (Nat.le_refl _)
  rcases skipped with ⟨s, skips, sameMem, noWrites⟩
  have sourceString : IsString s.mem input.source input.text := by
    rw [sameMem]
    exact input.sourceString
  have copied : ∃ t, strlcatCopy input.n (intMax - input.old.length)
        (input.destination + input.old.length) input.source s = some t ∧
      s.Wrote t (input.destination + input.old.length) (input.text ++ [0]) :=
    strlcatCopy_eq sourceString (by omega) (by omega) (by omega) (by omega)
  rcases copied with ⟨t, copies, wrote⟩
  have wrote : (Tracked.start input.mem).Wrote t (input.destination + input.old.length)
      (input.text ++ [0]) := wrote.of_reads sameMem noWrites
  refine ⟨t, by simp [call, strlcat, skips, copies], ?_, ?_, ?_⟩
  · intro addr isWritten
    rcases wrote.mem_writes.mp isWritten with none | ⟨above, below⟩
    · cases none
    · rw [List.length_append, List.length_singleton] at below
      omega
  · intro _
    rw [List.take_of_length_le (by omega)]
    apply input.destString.append
    · exact fun k below => wrote.outside (Or.inl (Nat.add_lt_add_left below _))
    · exact wrote.isString_of_ended fun c member => input.sourceString.nonzero member
  · intro full
    omega

/-- The bytes are right in no other case: the byte at the bound is written, or `i`
overflows. -/
theorem room_of_appends {value : Option Nat} {t : Tracked} (isResult : input.call = some (value, t))
    (appends : input.Appends t) : input.old.length + input.text.length < input.n ∧
      input.old.length + input.text.length ≤ intMax := by
  have apart := input.apart
  rcases input.exists_loops isResult with ⟨left, d, s, skips, copies, -⟩
  rcases strlcatSkip_cases input.destString (Nat.le_refl _) skips with
    ⟨sameMem, -, ⟨counted, place⟩ | outside⟩
  · have sourceString : IsString s.mem input.source input.text := by
      rw [sameMem]
      exact input.sourceString
    have start : left ≤ intMax := by omega
    rcases strlcatCopy_cases sourceString start (by omega) copies with
      ⟨fits, below⟩ | ⟨addr, isWritten, above⟩
    · omega
    · have inRoom := appends.confined addr isWritten
      omega
  · have inRoom := appends.confined d (mem_writes_strlcatCopy copies (Or.inr rfl))
    omega

end StrlcatInput

/-- `strlcat` leaves the right bytes exactly where the two strings and the 0 fill less
than the room and their length is an `int`, and never returns the length it has tried
to make. -/
theorem strlcat_appends_iff (input : StrlcatInput) :
    ((∃ value t, input.call = some (value, t) ∧ input.Appends t) ↔
      input.old.length + input.text.length < input.n ∧
        input.old.length + input.text.length ≤ intMax) ∧
      ¬ ∃ t, input.call =
          some (some (min input.n input.old.length + input.text.length), t) ∧ input.Appends t := by
  refine ⟨⟨?_, ?_⟩, ?_⟩
  · rintro ⟨value, t, isResult, appends⟩
    exact input.room_of_appends isResult appends
  · rintro ⟨room, isInt⟩
    rcases input.exists_appends room isInt with ⟨t, isResult, appends⟩
    exact ⟨none, t, isResult, appends⟩
  · rintro ⟨t, isResult, -⟩
    rcases input.exists_loops isResult with ⟨-, -, -, -, -, noValue⟩
    cases noValue

/-- A string of one character appended to the empty one in room for the character
alone: the 0 is written behind the room. -/
theorem exists_strlcat_not_confined : ∃ input : StrlcatInput, input.old = [] ∧
    input.text = [97] ∧ input.n = 1 ∧
      ¬ ∃ t, input.call =
          some (some (min input.n input.old.length + input.text.length), t) ∧ input.Appends t := by
  let input : StrlcatInput := {
    mem := textMemory [97]
    destination := 16
    source := 0
    n := 1
    old := []
    text := [97]
    destString := rfl
    sourceString := by decide
    apart := by decide }
  refine ⟨input, rfl, rfl, rfl, ?_⟩
  rintro ⟨t, isResult, appends⟩
  exact absurd (input.room_of_appends isResult appends).1 (by decide)

end UniKernel.CString
