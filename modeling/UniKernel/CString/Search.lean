import UniKernel.CString.Compare

/-!
Owns the searches of `src/string.c`: `memchr`, `strchr`, `strrchr` and `strcspn`. The
0 behind a string is one of the places that `strchr` and `strrchr` search, so that
`strcspn` stops where `strchr` first finds the character in the rejected ones.
-/

namespace UniKernel.CString

open UniKernel.Lib

/-! ### The functions -/

/-- The loop `for (size_t i = 0; i < n; i++)` of `memchr` with `left` = `n - i`; none for
`NULL`. -/
def memchrFrom (s : Nat) (c : UInt8) : (left i : Nat) → Tracked → Option Nat × Tracked
  | 0, _, t => (none, t)
  | left + 1, i, t =>
      let t := t.read (s + i)
      if t.mem (s + i) = c then (some (s + i), t) else memchrFrom s c left (i + 1) t

def memchr (s c n : Nat) (t : Tracked) : Option Nat × Tracked :=
  memchrFrom s (UInt8.ofNat c) n 0 t

/-- The loop `for (size_t i = 0;; ++i)` of `strchr` with `left` bytes behind `s + i`. -/
def strchrFrom (s : Nat) (c : UInt8) : (left i : Nat) → Tracked → Option (Option Nat × Tracked)
  | 0, _, _ => none
  | left + 1, i, t =>
      let t := t.read (s + i)
      if t.mem (s + i) = c then some (some (s + i), t)
      else
        let t := t.read (s + i)
        if t.mem (s + i) = 0 then some (none, t) else strchrFrom s c left (i + 1) t

def strchr (s c : Nat) (t : Tracked) : Option (Option Nat × Tracked) :=
  strchrFrom s (UInt8.ofNat c) (bytesBehind s) 0 t

/-- The loop `for (;;)` of `strrchr` with `left` bytes behind `p`. -/
def strrchrFrom (c : UInt8) : (left p : Nat) → (last : Option Nat) → Tracked →
    Option (Option Nat × Tracked)
  | 0, _, _, _ => none
  | left + 1, p, last, t =>
      let t := t.read p
      let last := if t.mem p = c then some p else last
      let t := t.read p
      if t.mem p = 0 then some (last, t) else strrchrFrom c left (p + 1) last t

def strrchr (str c : Nat) (t : Tracked) : Option (Option Nat × Tracked) :=
  strrchrFrom (UInt8.ofNat c) (bytesBehind str) str none t

/-- The loop `while (*r)` of `strcspn`, with `left` bytes behind `r`: whether one of the
characters is that at `s`. -/
def strcspnRejects (s : Nat) : (left r : Nat) → Tracked → Option (Bool × Tracked)
  | 0, _, _ => none
  | left + 1, r, t =>
      let t := t.read r
      if t.mem r ≠ 0 then
        let t := (t.read s).read r
        if t.mem s = t.mem r then some (true, t) else strcspnRejects s left (r + 1) t
      else some (false, t)

/-- The loop `while (*s)` of `strcspn` and `s - str` behind it, with `left` bytes behind
`s`. -/
def strcspnFrom (str reject : Nat) : (left s : Nat) → Tracked → Option (Nat × Tracked)
  | 0, _, _ => none
  | left + 1, s, t =>
      let t := t.read s
      if t.mem s ≠ 0 then
        match strcspnRejects s (bytesBehind reject) reject t with
        | none => none
        | some (true, t) => some (s - str, t)
        | some (false, t) => strcspnFrom str reject left (s + 1) t
      else some (s - str, t)

def strcspn (str reject : Nat) (t : Tracked) : Option (Nat × Tracked) :=
  strcspnFrom str reject (bytesBehind str) str t

/-! ### Places -/

/-- The first of the places below `bound` with the character `c`, if there is one. -/
def IsFirst (char : Nat → UInt8) (c : UInt8) (bound : Nat) : Option Nat → Prop
  | some k => k < bound ∧ char k = c ∧ ∀ j < k, char j ≠ c
  | none => ∀ j < bound, char j ≠ c

/-- The last of the places below `bound` with the character `c`, if there is one. -/
def IsLast (char : Nat → UInt8) (c : UInt8) (bound : Nat) : Option Nat → Prop
  | some k => k < bound ∧ char k = c ∧ ∀ j < bound, k < j → char j ≠ c
  | none => ∀ j < bound, char j ≠ c

section Places

variable {char : Nat → UInt8} {c : UInt8} {bound : Nat} {place : Option Nat}

/-- One more place without the character. -/
theorem passed_succ {i : Nat} (passed : ∀ j < i, char j ≠ c) (here : char i ≠ c) :
    ∀ j < i + 1, char j ≠ c := by
  intro j below
  obtain before | rfl := Nat.lt_succ_iff_lt_or_eq.mp below
  · exact passed j before
  · exact here

/-- One more place that is searched. -/
theorem IsLast.succ (isLast : IsLast char c bound place) :
    IsLast char c (bound + 1) (if char bound = c then some bound else place) := by
  by_cases here : char bound = c
  · rw [if_pos here]
    refine ⟨Nat.lt_succ_self bound, here, ?_⟩
    intro j below above
    omega
  · rw [if_neg here]
    cases place with
    | none => exact passed_succ isLast here
    | some k =>
        obtain ⟨below, isChar, others⟩ := isLast
        refine ⟨Nat.lt_succ_of_lt below, isChar, ?_⟩
        intro j inside above
        obtain before | rfl := Nat.lt_succ_iff_lt_or_eq.mp inside
        · exact others j before above
        · exact here

theorem IsFirst.isSome_iff (isFirst : IsFirst char c bound place) :
    place.isSome = true ↔ ∃ k < bound, char k = c := by
  cases place with
  | none =>
      simp only [Option.isSome_none, Bool.false_eq_true, false_iff, not_exists, not_and]
      exact isFirst
  | some k =>
      simp only [Option.isSome_some, true_iff]
      exact ⟨k, isFirst.1, isFirst.2.1⟩

end Places

/-- Only the place behind a string holds 0. -/
theorem isString_zero_iff {mem : Memory} {addr k : Nat} {text : List UInt8}
    (string : IsString mem addr text) (inside : k ≤ text.length) :
    mem (addr + k) = 0 ↔ k = text.length := by
  rw [string.apply inside]
  constructor
  · intro isZero
    by_contra before
    have below : k < text.length := by omega
    rw [List.getD_eq_getElem _ _ below] at isZero
    exact string.nonzero (List.getElem_mem below) isZero
  · intro atEnd
    exact List.getD_eq_default _ _ (by omega)

/-! ### The loops -/

namespace Looked

variable {t t' : Tracked} {a b first second addr : Nat}

/-- A byte that is read before. -/
theorem of_read (looked : Looked (t.read addr) t' a b first second)
    (inside : (a ≤ addr ∧ addr < a + first) ∨ (b ≤ addr ∧ addr < b + second)) :
    Looked t t' a b first second where
  mem := looked.mem
  writes := looked.writes
  reads := by
    intro other isRead
    obtain before | later := looked.reads other isRead
    · rw [Tracked.read_reads, List.mem_append, List.mem_singleton] at before
      obtain before | rfl := before
      · exact .inl before
      · exact .inr inside
    · exact .inr later

theorem trans {middle : Tracked} (before : Looked t middle a b first second)
    (later : Looked middle t' a b first second) : Looked t t' a b first second where
  mem := later.mem.trans before.mem
  writes := later.writes.trans before.writes
  reads := by
    intro other isRead
    obtain early | inside := later.reads other isRead
    · exact before.reads other early
    · exact .inr inside

end Looked

variable {t : Tracked} {s r i left : Nat} {c : UInt8} {text chars : List UInt8}

theorem memchrFrom_eq (s : Nat) (c : UInt8) (left i : Nat) (t : Tracked)
    (passed : ∀ j < i, t.mem (s + j) ≠ c) :
    ∃ place t', memchrFrom s c left i t = (place.map (s + ·), t') ∧
      IsFirst (fun j => t.mem (s + j)) c (i + left) place ∧
      Looked t t' s 0 (min (place.getD (i + left) + 1) (i + left)) 0 := by
  induction left generalizing i t with
  | zero => exact ⟨none, t, rfl, passed, Looked.refl t s 0 _ _⟩
  | succ left inductionHypothesis =>
      by_cases here : t.mem (s + i) = c
      · refine ⟨some i, t.read (s + i), if_pos here, ⟨by omega, here, passed⟩, ?_⟩
        apply (Looked.refl t s 0 _ _).read
        left
        simp only [Option.getD_some]
        omega
      · have passedNow : ∀ j < i + 1, t.mem (s + j) ≠ c := passed_succ passed here
        obtain ⟨place, t', found, isFirst, later⟩ := inductionHypothesis (i + 1) (t.read (s + i))
          passedNow
        have bound : i + 1 + left = i + (left + 1) := by omega
        rw [bound] at isFirst later
        refine ⟨place, t', (if_neg here).trans found, isFirst, later.of_read ?_⟩
        left
        cases place with
        | none =>
            simp only [Option.getD_none]
            omega
        | some k =>
            have behind : i < k := by
              by_contra before
              obtain earlier | rfl := Nat.lt_or_eq_of_le (Nat.not_lt.mp before)
              · exact passed k earlier isFirst.2.1
              · exact here isFirst.2.1
            simp only [Option.getD_some]
            omega

/-- From a place on that the search has reached, it goes on to the first place with the
character, or to the end. -/
theorem strchrFrom_eq (string : IsString t.mem s text) (fits : text.length < left + i)
    (inside : i ≤ text.length) (passed : ∀ j < i, text.getD j 0 ≠ c) :
    ∃ place t', strchrFrom s c left i t = some (place.map (s + ·), t') ∧
      IsFirst (fun j => text.getD j 0) c (text.length + 1) place ∧
      Looked t t' s 0 (place.getD text.length + 1) 0 := by
  induction left generalizing i t with
  | zero => omega
  | succ left inductionHypothesis =>
      have isChar := string.apply inside
      by_cases here : text.getD i 0 = c
      · have hit : t.mem (s + i) = c := isChar.trans here
        refine ⟨some i, t.read (s + i), if_pos hit, ⟨by omega, here, passed⟩, ?_⟩
        apply (Looked.refl t s 0 _ _).read
        left
        simp only [Option.getD_some]
        omega
      · have miss : t.mem (s + i) ≠ c := fun hit => here (isChar.symm.trans hit)
        have passedNow : ∀ j < i + 1, text.getD j 0 ≠ c := passed_succ passed here
        by_cases atEnd : i = text.length
        · have isEnd : t.mem (s + i) = 0 := (isString_zero_iff string inside).mpr atEnd
          refine ⟨none, (t.read (s + i)).read (s + i), (if_neg miss).trans (if_pos isEnd), ?_, ?_⟩
          · rw [← atEnd]
            exact passedNow
          · apply ((Looked.refl t s 0 _ _).read _).read
            all_goals
              left
              simp only [Option.getD_none]
              omega
        · have goesOn : t.mem (s + i) ≠ 0 := fun isEnd =>
            atEnd ((isString_zero_iff string inside).mp isEnd)
          obtain ⟨place, t', found, isFirst, later⟩ := inductionHypothesis (i := i + 1)
            (t := (t.read (s + i)).read (s + i)) string (by omega) (by omega) passedNow
          have reached : i ≤ place.getD text.length := by
            cases place with
            | none => exact inside
            | some k =>
                by_contra before
                exact passed k (Nat.not_le.mp before) isFirst.2.1
          refine ⟨place, t', ((if_neg miss).trans (if_neg goesOn)).trans found, isFirst, ?_⟩
          apply (later.of_read _).of_read
          all_goals
            left
            omega

/-- The search keeps the last place with the character so far. -/
theorem strrchrFrom_eq (string : IsString t.mem s text) (fits : text.length < left + i)
    (inside : i ≤ text.length) {place : Option Nat}
    (isLast : IsLast (fun j => text.getD j 0) c i place) :
    ∃ place' t', strrchrFrom c left (s + i) (place.map (s + ·)) t =
        some (place'.map (s + ·), t') ∧
      IsLast (fun j => text.getD j 0) c (text.length + 1) place' ∧
      Looked t t' s 0 (text.length + 1) 0 := by
  induction left generalizing i t place with
  | zero => omega
  | succ left inductionHypothesis =>
      have isChar := string.apply inside
      have now : (if t.mem (s + i) = c then some (s + i) else place.map (s + ·)) =
          (if text.getD i 0 = c then some i else place).map (s + ·) := by
        rw [isChar]
        split <;> rfl
      have taken : strrchrFrom c (left + 1) (s + i) (place.map (s + ·)) t =
          if t.mem (s + i) = 0 then
            some ((if text.getD i 0 = c then some i else place).map (s + ·),
              (t.read (s + i)).read (s + i))
          else strrchrFrom c left (s + i + 1)
            ((if text.getD i 0 = c then some i else place).map (s + ·))
            ((t.read (s + i)).read (s + i)) := by
        rw [← now]
        rfl
      have reads : Looked t ((t.read (s + i)).read (s + i)) s 0 (text.length + 1) 0 := by
        apply ((Looked.refl t s 0 _ _).read _).read
        all_goals
          left
          omega
      rw [taken]
      by_cases atEnd : i = text.length
      · rw [if_pos ((isString_zero_iff string inside).mpr atEnd)]
        refine ⟨_, _, rfl, ?_, reads⟩
        rw [← atEnd]
        exact isLast.succ
      · rw [if_neg fun isEnd => atEnd ((isString_zero_iff string inside).mp isEnd)]
        obtain ⟨place', t', found, isLast', later⟩ := inductionHypothesis (i := i + 1)
          (t := (t.read (s + i)).read (s + i)) string (by omega) (by omega) isLast.succ
        exact ⟨place', t', found, isLast', reads.trans later⟩

theorem strcspnRejects_eq (string : IsString t.mem r chars) (fits : chars.length < left) :
    ∃ t', strcspnRejects s left r t = some (decide (t.mem s ∈ chars), t') ∧
      Looked t t' s r 1 (chars.length + 1) := by
  induction chars generalizing r left t with
  | nil =>
      obtain ⟨left, rfl⟩ := Nat.exists_eq_add_one_of_ne_zero (Nat.ne_zero_of_lt fits)
      have isEnd : t.mem r = 0 := string
      refine ⟨t.read r, if_neg (not_not_intro isEnd), ?_⟩
      exact (Looked.refl t s r _ _).readSecond
  | cons c rest inductionHypothesis =>
      obtain ⟨left, rfl⟩ := Nat.exists_eq_add_one_of_ne_zero (Nat.ne_zero_of_lt fits)
      obtain ⟨isChar, nonzero, tail⟩ := string
      have notEnd : t.mem r ≠ 0 := isChar ▸ nonzero
      have reads : Looked t (((t.read r).read s).read r) s r 1 (rest.length + 1 + 1) :=
        (Looked.refl t s r _ _).readSecond.readFirst.readSecond
      by_cases same : t.mem s = c
      · have hit : t.mem s = t.mem r := same.trans isChar.symm
        refine ⟨((t.read r).read s).read r, ?_, reads⟩
        have member : t.mem s ∈ c :: rest := by simp [same]
        rw [decide_eq_true member]
        exact (if_pos notEnd).trans (if_pos hit)
      · have miss : t.mem s ≠ t.mem r := fun hit => same (hit.trans isChar)
        obtain ⟨t', found, later⟩ := inductionHypothesis (t := ((t.read r).read s).read r) tail
          (Nat.lt_of_succ_lt_succ fits)
        refine ⟨t', ?_, ?_⟩
        · have member : (t.mem s ∈ c :: rest) = (t.mem s ∈ rest) := by simp [same]
          simp only [member]
          exact ((if_pos notEnd).trans (if_neg miss)).trans found
        · exact {
            mem := later.mem
            writes := later.writes
            reads := by
              intro addr isRead
              obtain before | inside := later.reads addr isRead
              · exact reads.reads addr before
              · right
                rw [List.length_cons]
                omega }

/-- The places before the result hold characters that are not rejected. -/
structure Spans (text chars : List UInt8) (k : Nat) : Prop where
  inside : k ≤ text.length
  accepted : ∀ j < k, text.getD j 0 ∉ chars
  stopped : k < text.length → text.getD k 0 ∈ chars

theorem strcspnFrom_eq (string : IsString t.mem s text) (rejected : IsString t.mem r chars)
    (rejectedFits : chars.length < bytesBehind r) (fits : text.length < left + i)
    (inside : i ≤ text.length) (accepted : ∀ j < i, text.getD j 0 ∉ chars) :
    ∃ k t', strcspnFrom s r left (s + i) t = some (k, t') ∧ Spans text chars k ∧
      Looked t t' s r (text.length + 1) (chars.length + 1) := by
  induction left generalizing i t with
  | zero => omega
  | succ left inductionHypothesis =>
      have isChar := string.apply inside
      have reads : Looked t (t.read (s + i)) s r (text.length + 1) (chars.length + 1) := by
        apply (Looked.refl t s r _ _).read
        left
        omega
      by_cases atEnd : i = text.length
      · have isEnd : t.mem (s + i) = 0 := (isString_zero_iff string inside).mpr atEnd
        refine ⟨i, t.read (s + i), ?_, ⟨inside, accepted, fun below => absurd atEnd (by omega)⟩,
          reads⟩
        have distance : s + i - s = i := Nat.add_sub_cancel_left s i
        exact (if_neg (not_not_intro isEnd)).trans (by rw [distance])
      · have goesOn : t.mem (s + i) ≠ 0 := fun isEnd =>
          atEnd ((isString_zero_iff string inside).mp isEnd)
        have inner : ∃ t', strcspnRejects (s + i) (bytesBehind r) r (t.read (s + i)) =
              some (decide (t.mem (s + i) ∈ chars), t') ∧
            Looked (t.read (s + i)) t' (s + i) r 1 (chars.length + 1) :=
          strcspnRejects_eq (t := t.read (s + i)) rejected rejectedFits
        obtain ⟨t', decided, looked⟩ := inner
        have wide : Looked t t' s r (text.length + 1) (chars.length + 1) := {
          mem := looked.mem
          writes := looked.writes
          reads := by
            intro addr isRead
            obtain before | here | there := looked.reads addr isRead
            · exact reads.reads addr before
            · right
              left
              omega
            · exact .inr (.inr there) }
        have taken : strcspnFrom s r (left + 1) (s + i) t =
            if text.getD i 0 ∈ chars then some (s + i - s, t')
            else strcspnFrom s r left (s + i + 1) t' := by
          refine (if_pos goesOn).trans ?_
          rw [decided, isChar]
          by_cases member : text.getD i 0 ∈ chars
          · rw [decide_eq_true member, if_pos member]
          · rw [decide_eq_false member, if_neg member]
        rw [taken]
        by_cases member : text.getD i 0 ∈ chars
        · rw [if_pos member, Nat.add_sub_cancel_left]
          exact ⟨i, t', rfl, ⟨inside, accepted, fun _ => member⟩, wide⟩
        · rw [if_neg member]
          have sameMem : t'.mem = t.mem := wide.mem
          have acceptedNow : ∀ j < i + 1, text.getD j 0 ∉ chars := by
            intro j below
            obtain before | rfl := Nat.lt_succ_iff_lt_or_eq.mp below
            · exact accepted j before
            · exact member
          obtain ⟨k, last, found, spans, later⟩ := inductionHypothesis (i := i + 1) (t := t')
            (sameMem ▸ string) (sameMem ▸ rejected) (by omega) (by omega) acceptedNow
          exact ⟨k, last, found, spans, wide.trans later⟩

/-! ### What the searches find -/

/-- A string, and a string of characters to reject. -/
structure SearchInput where
  mem : Memory
  str : Nat
  reject : Nat
  text : List UInt8
  chars : List UInt8
  string : IsString mem str text
  rejected : IsString mem reject chars
  fits : str + text.length < 2 ^ 64
  rejectedFits : reject + chars.length < 2 ^ 64

namespace SearchInput

variable (input : SearchInput)

theorem strchr_finds (c : Nat) : ∃ place t,
    strchr input.str c (Tracked.start input.mem) = some (place.map (input.str + ·), t) ∧
      IsFirst (fun j => input.text.getD j 0) (UInt8.ofNat c) (input.text.length + 1) place ∧
      Looked (Tracked.start input.mem) t input.str 0 (place.getD input.text.length + 1) 0 := by
  have fits : input.text.length < bytesBehind input.str + 0 := by
    have inMemory := input.fits
    unfold bytesBehind
    omega
  exact strchrFrom_eq (t := Tracked.start input.mem) input.string fits (Nat.zero_le _)
    fun j below => absurd below (Nat.not_lt_zero j)

/-- The other string, searched in. -/
def swapped : SearchInput where
  mem := input.mem
  str := input.reject
  reject := input.str
  text := input.chars
  chars := input.text
  string := input.rejected
  rejected := input.string
  fits := input.rejectedFits
  rejectedFits := input.fits

/-- `strchr(reject, c)` does not return `NULL`. -/
def Finds (c : UInt8) : Prop :=
  ∃ addr t, strchr input.reject c.toNat (Tracked.start input.mem) = some (some addr, t)

theorem finds_iff (c : UInt8) : input.Finds c ↔ c ∈ input.chars ∨ c = 0 := by
  obtain ⟨place, t, found, isFirst, -⟩ := input.swapped.strchr_finds c.toNat
  rw [UInt8.ofNat_toNat] at isFirst
  have isSome : input.Finds c ↔ place.isSome = true := by
    have result : strchr input.reject c.toNat (Tracked.start input.mem) =
        some (place.map (input.reject + ·), t) := found
    unfold Finds
    rw [result]
    cases place with
    | none => simp
    | some k => simp
  rw [isSome, isFirst.isSome_iff]
  change (∃ k < input.chars.length + 1, input.chars.getD k 0 = c) ↔ _
  constructor
  · intro somewhere
    obtain ⟨k, below, isChar⟩ := somewhere
    obtain inside | atEnd := Nat.lt_succ_iff_lt_or_eq.mp below
    · rw [List.getD_eq_getElem _ _ inside] at isChar
      exact .inl (isChar ▸ List.getElem_mem inside)
    · rw [List.getD_eq_default _ _ (Nat.le_of_eq atEnd.symm)] at isChar
      exact .inr isChar.symm
  · intro known
    obtain member | rfl := known
    · obtain ⟨k, inside, isChar⟩ := List.getElem_of_mem member
      exact ⟨k, Nat.lt_succ_of_lt inside, (List.getD_eq_getElem _ _ inside).trans isChar⟩
    · exact ⟨input.chars.length, Nat.lt_succ_self _, List.getD_eq_default _ _ (Nat.le_refl _)⟩

/-- The characters before the result are those that `strchr` does not find. -/
theorem finds_iff_of_spans {k : Nat} (spans : Spans input.text input.chars k) :
    ∀ j ≤ k, input.Finds (input.text.getD j 0) ↔ j = k := by
  intro j upTo
  rw [input.finds_iff]
  constructor
  · intro known
    by_contra before
    have below : j < k := by omega
    have inside : j < input.text.length := Nat.lt_of_lt_of_le below spans.inside
    obtain member | isZero := known
    · exact spans.accepted j below member
    · rw [List.getD_eq_getElem _ _ inside] at isZero
      exact input.string.nonzero (List.getElem_mem inside) isZero
  · intro here
    subst here
    by_cases inside : j < input.text.length
    · exact .inl (spans.stopped inside)
    · exact .inr (List.getD_eq_default _ _ (Nat.le_of_not_lt inside))

end SearchInput

/-- `strchr` returns the first and `strrchr` the last place of a character in the string
with its 0, `memchr` the first among `n` bytes, and `strcspn` the first place whose
character `strchr` finds in the rejected ones. `NULL` is returned if there is none,
nothing is written, and nothing is read behind the place, the string or the bound. -/
theorem searches_find (input : SearchInput) (c n : Nat) :
    (∃ place t, strchr input.str c (Tracked.start input.mem) =
        some (place.map (input.str + ·), t) ∧
      IsFirst (fun j => input.text.getD j 0) (UInt8.ofNat c) (input.text.length + 1) place ∧
      Looked (Tracked.start input.mem) t input.str 0 (place.getD input.text.length + 1) 0) ∧
    (∃ place t, strrchr input.str c (Tracked.start input.mem) =
        some (place.map (input.str + ·), t) ∧
      IsLast (fun j => input.text.getD j 0) (UInt8.ofNat c) (input.text.length + 1) place ∧
      Looked (Tracked.start input.mem) t input.str 0 (input.text.length + 1) 0) ∧
    (∃ k t, strcspn input.str input.reject (Tracked.start input.mem) = some (k, t) ∧
      k ≤ input.text.length ∧ (∀ j ≤ k, input.Finds (input.text.getD j 0) ↔ j = k) ∧
      Looked (Tracked.start input.mem) t input.str input.reject (input.text.length + 1)
        (input.chars.length + 1)) ∧
    ∃ place t, memchr input.str c n (Tracked.start input.mem) =
        (place.map (input.str + ·), t) ∧
      IsFirst (fun j => input.mem (input.str + j)) (UInt8.ofNat c) n place ∧
      Looked (Tracked.start input.mem) t input.str 0 (min (place.getD n + 1) n) 0 := by
  have fits : input.text.length < bytesBehind input.str + 0 := by
    have inMemory := input.fits
    unfold bytesBehind
    omega
  have rejectedFits : input.chars.length < bytesBehind input.reject := by
    have inMemory := input.rejectedFits
    unfold bytesBehind
    omega
  refine ⟨input.strchr_finds c, ?_, ?_, ?_⟩
  · have nothing : IsLast (fun j => input.text.getD j 0) (UInt8.ofNat c) 0 none :=
      fun j below => absurd below (Nat.not_lt_zero j)
    exact strrchrFrom_eq (t := Tracked.start input.mem) input.string fits (Nat.zero_le _) nothing
  · obtain ⟨k, t, found, spans, looked⟩ := strcspnFrom_eq (t := Tracked.start input.mem)
      input.string input.rejected rejectedFits fits (Nat.zero_le _)
      fun j below => absurd below (Nat.not_lt_zero j)
    exact ⟨k, t, found, spans.inside, input.finds_iff_of_spans spans, looked⟩
  · have searched := memchrFrom_eq input.str (UInt8.ofNat c) n 0 (Tracked.start input.mem)
      fun j below => absurd below (Nat.not_lt_zero j)
    rw [Nat.zero_add] at searched
    exact searched

/-- "abb" has its first 'b' at place 1. -/
theorem searches_find_abb : ∃ input : SearchInput, input.text = [97, 98, 98] ∧
    ∃ t, strchr input.str 98 (Tracked.start input.mem) = some (some (input.str + 1), t) ∧
      t.mem = input.mem := by
  let input : SearchInput := {
    mem := fun addr => [97, 98, 98, 0, 98, 0].getD (addr - 16) 0
    str := 16
    reject := 20
    text := [97, 98, 98]
    chars := [98]
    string := by decide
    rejected := by decide
    fits := by decide
    rejectedFits := by decide }
  obtain ⟨⟨place, t, found, first, looked⟩, -⟩ := searches_find input 98 1
  have isPlace : place = some 1 := by
    cases place with
    | none => exact absurd rfl (first 1 (by decide))
    | some k =>
        obtain ⟨-, isChar, accepted⟩ := first
        rcases Nat.lt_trichotomy k 1 with before | here | behind
        · rw [Nat.lt_one_iff.mp before] at isChar
          exact absurd isChar (by decide)
        · rw [here]
        · exact absurd rfl (accepted 1 behind)
  rw [isPlace] at found
  exact ⟨input, rfl, t, found, looked.mem⟩

end UniKernel.CString
