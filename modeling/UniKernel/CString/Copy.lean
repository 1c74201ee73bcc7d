import UniKernel.CString.Search

/-!
Owns the copies of `src/string.c` without a bound on the result: `strcpy`, `stpcpy` and
`strcat`, and `memccpy`. A text put together from pieces is the same, whether `strcat`
looks for the end of the string each time or `stpcpy` and `memccpy` return it.
-/

namespace UniKernel.CString

open UniKernel.Lib

/-! ### The functions -/

/-- The loop of `memccpy` with `left` = `n - i`; none for `NULL`. -/
def memccpyFrom (d s : Nat) (uc : UInt8) : (left i : Nat) → Tracked → Option Nat × Tracked
  | 0, _, t => (none, t)
  | left + 1, i, t =>
      let t := (t.read (s + i)).write (d + i) (t.mem (s + i))
      let t := t.read (d + i)
      if t.mem (d + i) = uc then (some (d + i + 1), t) else memccpyFrom d s uc left (i + 1) t

def memccpy (s1 s2 c n : Nat) (t : Tracked) : Option Nat × Tracked :=
  memccpyFrom s1 s2 (UInt8.ofNat c) n 0 t

/-- The loop `while ((*d++ = *s++) != '\0');` with `left` bytes behind `s`: `d` and the
memory behind it. -/
def copyAll : (left d s : Nat) → Tracked → Option (Nat × Tracked)
  | 0, _, _, _ => none
  | left + 1, d, s, t =>
      let c := t.mem s
      let t := (t.read s).write d c
      if c = 0 then some (d + 1, t) else copyAll left (d + 1) (s + 1) t

def strcpy (dest src : Nat) (t : Tracked) : Option (Nat × Tracked) := do
  let (_, t) ← copyAll (bytesBehind src) dest src t
  some (dest, t)

def stpcpy (s1 s2 : Nat) (t : Tracked) : Option (Nat × Tracked) := do
  let (d, t) ← copyAll (bytesBehind s2) s1 s2 t
  some (d - 1, t)

/-- The loop `while (*d) d++;` with `left` bytes behind `d`. -/
def skipString : (left d : Nat) → Tracked → Option (Nat × Tracked)
  | 0, _, _ => none
  | left + 1, d, t =>
      if t.mem d ≠ 0 then skipString left (d + 1) (t.read d) else some (d, t.read d)

def strcat (s1 s2 : Nat) (t : Tracked) : Option (Nat × Tracked) := do
  let (d, t) ← skipString (bytesBehind s1) s1 t
  let (_, t) ← copyAll (bytesBehind s2) d s2 t
  some (s1, t)

/-! ### The loops -/

section Loops

variable {t t' : Tracked} {d s left i n : Nat} {c : UInt8} {text done : List UInt8}

/-- Some bytes are copied, up to the first `c` and with it. -/
theorem memccpyFrom_eq {mem : Memory} {place : Option Nat} {count : Nat}
    (isFirst : IsFirst (fun j => mem (s + j)) c (i + left) place)
    (isCount : count = min (place.getD (i + left) + 1) (i + left))
    (apart : s + count ≤ d ∨ d + count ≤ s) (passed : ∀ j < i, mem (s + j) ≠ c)
    (same : ∀ j < count, i ≤ j → t.mem (s + j) = mem (s + j)) :
    ∃ t', memccpyFrom d s c left i t = (place.map (d + · + 1), t') ∧
      t.Wrote t' (d + i) (bytesFrom mem (count - i) (s + i)) := by
  induction left generalizing i t with
  | zero =>
      have nowhere : place = none := by
        cases place with
        | none => rfl
        | some k => exact absurd isFirst.2.1 (passed k isFirst.1)
      subst nowhere
      have nothing : count - i = 0 := by
        simp only [Option.getD_none] at isCount
        omega
      rw [nothing]
      exact ⟨t, rfl, Tracked.Wrote.of_same rfl rfl⟩
  | succ left inductionHypothesis =>
      have reached : i ≤ place.getD (i + (left + 1)) := by
        cases place with
        | none =>
            simp only [Option.getD_none]
            omega
        | some k =>
            by_contra before
            exact passed k (Nat.not_le.mp before) isFirst.2.1
      have inside : i < count := by omega
      have isChar := same i inside (Nat.le_refl i)
      let next := ((t.read (s + i)).write (d + i) (t.mem (s + i))).read (d + i)
      have copied : next.mem (d + i) = mem (s + i) := (Function.update_self ..).trans isChar
      have first : t.Wrote next (d + i) [mem (s + i)] := by
        have wrote : t.Wrote ((t.read (s + i)).write (d + i) (t.mem (s + i))) (d + i)
            [t.mem (s + i)] := (Tracked.Wrote.single _).of_read
        exact ⟨wrote.mem.trans (by rw [isChar]), wrote.writes⟩
      have split : bytesFrom mem (count - i) (s + i) =
          [mem (s + i)] ++ bytesFrom mem (count - (i + 1)) (s + i + 1) := by
        have more : count - i = count - (i + 1) + 1 := by omega
        rw [more]
        rfl
      by_cases here : mem (s + i) = c
      · have isPlace : place = some i := by
          cases place with
          | none => exact absurd here (isFirst i (by omega))
          | some k =>
              have notBefore : ¬ i < k := fun before => isFirst.2.2 i before here
              have notBehind : ¬ k < i := fun behind => passed k behind isFirst.2.1
              rw [Nat.le_antisymm (Nat.not_lt.mp notBefore) (Nat.not_lt.mp notBehind)]
        subst isPlace
        have last : count - (i + 1) = 0 := by
          simp only [Option.getD_some] at isCount
          omega
        rw [split, last]
        exact ⟨next, if_pos (copied.trans here), first⟩
      · have bound : i + 1 + left = i + (left + 1) := by omega
        have kept : ∀ j < count, i + 1 ≤ j → next.mem (s + j) = mem (s + j) := by
          intro j below above
          rw [← same j below (by omega)]
          exact Function.update_of_ne (by omega) _ _
        obtain ⟨t', found, wrote⟩ := inductionHypothesis (i := i + 1) (t := next)
          (bound ▸ isFirst) (bound ▸ isCount)
          (passed_succ passed here) kept
        refine ⟨t', ?_, ?_⟩
        · exact (if_neg (fun hit => here (copied.symm.trans hit))).trans found
        · rw [split]
          exact first.trans wrote

theorem copyAll_eq (string : IsString t.mem s text) (fits : text.length < left)
    (apart : d + text.length < s ∨ s + text.length < d) :
    ∃ t', copyAll left d s t = some (d + text.length + 1, t') ∧ t.Wrote t' d (text ++ [0]) := by
  induction text generalizing left d s t with
  | nil =>
      obtain ⟨left, rfl⟩ := Nat.exists_eq_add_one_of_ne_zero (Nat.ne_zero_of_lt fits)
      have isEnd : t.mem s = 0 := string
      refine ⟨(t.read s).write d 0, ?_, (Tracked.Wrote.single 0).of_read⟩
      simp [copyAll, isEnd]
  | cons c rest inductionHypothesis =>
      obtain ⟨left, rfl⟩ := Nat.exists_eq_add_one_of_ne_zero (Nat.ne_zero_of_lt fits)
      obtain ⟨isChar, nonzero, tail⟩ := string
      rw [List.length_cons] at apart
      have kept : IsString ((t.read s).write d c).mem (s + 1) rest := tail.update (by omega)
      obtain ⟨t', copied, wrote⟩ := inductionHypothesis (d := d + 1) kept
        (Nat.lt_of_succ_lt_succ fits) (by omega)
      have first : t.Wrote ((t.read s).write d c) d [c] := (Tracked.Wrote.single c).of_read
      refine ⟨t', ?_, first.trans wrote⟩
      have taken : copyAll (left + 1) d s t = copyAll left (d + 1) (s + 1) ((t.read s).write d c) := by
        rw [copyAll]
        simp only [isChar, if_neg nonzero]
      rw [taken, copied, List.length_cons]
      congr 2
      omega

theorem skipString_eq (string : IsString t.mem d text) (fits : text.length < left) :
    ∃ t', skipString left d t = some (d + text.length, t') ∧ t'.mem = t.mem ∧
      t'.writes = t.writes := by
  induction text generalizing left d t with
  | nil =>
      obtain ⟨left, rfl⟩ := Nat.exists_eq_add_one_of_ne_zero (Nat.ne_zero_of_lt fits)
      have isEnd : t.mem d = 0 := string
      exact ⟨t.read d, if_neg (not_not_intro isEnd), rfl, rfl⟩
  | cons c rest inductionHypothesis =>
      obtain ⟨left, rfl⟩ := Nat.exists_eq_add_one_of_ne_zero (Nat.ne_zero_of_lt fits)
      obtain ⟨isChar, nonzero, tail⟩ := string
      have goesOn : t.mem d ≠ 0 := isChar ▸ nonzero
      obtain ⟨t', found, same⟩ := inductionHypothesis (t := t.read d) tail
        (Nat.lt_of_succ_lt_succ fits)
      refine ⟨t', (if_pos goesOn).trans (found.trans ?_), same⟩
      rw [List.length_cons, Nat.add_assoc, Nat.add_comm 1]

/-! ### Texts from pieces -/

/-- A string to copy. -/
structure Piece where
  addr : Nat
  text : List UInt8

/-- The text of the pieces, one behind the other. -/
def wholeText (pieces : List Piece) : List UInt8 := pieces.flatMap Piece.text

/-- `strcat(dest, piece)` for each piece. -/
def strcatAll (dest : Nat) : List Piece → Tracked → Option Tracked
  | [], t => some t
  | piece :: rest, t => do
      let (_, t) ← strcat dest piece.addr t
      strcatAll dest rest t

/-- `strcpy` for the first piece and `strcat` for the others. -/
def strcpyStrcat (dest : Nat) (first : Piece) (rest : List Piece) (t : Tracked) : Option Tracked := do
  let (_, t) ← strcpy dest first.addr t
  strcatAll dest rest t

/-- `p = copy(p, piece)` for each piece. -/
def copyPieces (copy : Nat → Nat → Tracked → Option (Nat × Tracked)) :
    (p : Nat) → List Piece → Tracked → Option (Nat × Tracked)
  | p, [], t => some (p, t)
  | p, piece :: rest, t => do
      let (p, t) ← copy p piece.addr t
      copyPieces copy p rest t

/-- `(char *)memccpy(p, src, '\0', n) - 1`; no result if it is `NULL`. -/
def memccpyEnd (n p src : Nat) (t : Tracked) : Option (Nat × Tracked) :=
  match memccpy p src 0 n t with
  | (some q, t) => some (q - 1, t)
  | (none, _) => none

/-- The bytes written over a text from its 0 on continue it. -/
theorem storeBytes_continue (mem : Memory) (addr : Nat) (done text : List UInt8) :
    ((mem.storeBytes addr (done ++ [0])).storeBytes (addr + done.length) (text ++ [0])) =
      mem.storeBytes addr (done ++ text ++ [0]) := by
  funext other
  simp only [Memory.storeBytes, List.length_append, List.length_singleton]
  by_cases later : addr + done.length ≤ other ∧ other < addr + done.length + (text.length + 1)
  · rw [if_pos later, if_pos (by omega), List.append_assoc,
      List.getD_append_right done (text ++ [0]) _ _ (by omega), Nat.sub_add_eq]
  · rw [if_neg later]
    by_cases before : addr ≤ other ∧ other < addr + (done.length + 1)
    · rw [if_pos before, if_pos (by omega), List.append_assoc,
        List.getD_append _ _ _ _ (by omega), List.getD_append _ _ _ _ (by omega)]
    · rw [if_neg before, if_neg (by omega)]

/-- A string behind which other strings are put. -/
theorem isString_storeBytes (mem : Memory) (addr : Nat) (nonzero : ∀ c ∈ text, c ≠ 0) :
    IsString (mem.storeBytes addr (text ++ [0])) addr text := by
  apply IsString.of_apply _ nonzero
  intro k inside
  rw [Memory.storeBytes, List.length_append, List.length_singleton, if_pos (by omega),
    Nat.add_sub_cancel_left]
  obtain below | atEnd := Nat.lt_or_eq_of_le inside
  · exact List.getD_append _ _ _ _ below
  · rw [atEnd, List.getD_append_right _ _ _ _ (Nat.le_refl _), Nat.sub_self,
      List.getD_eq_default text _ (Nat.le_refl _)]
    rfl

/-- A piece lies beside the `room` bytes for the result and their 0. -/
structure Beside (mem : Memory) (dest room : Nat) (piece : Piece) : Prop where
  string : IsString mem piece.addr piece.text
  apart : dest + room < piece.addr ∨ piece.addr + piece.text.length < dest
  fits : piece.addr + piece.text.length < 2 ^ 64

section Pieces

variable {mem : Memory} {dest room : Nat} {piece : Piece} {pieces : List Piece}

/-- What is written into the room leaves a piece as it was. -/
theorem Beside.kept (beside : Beside mem dest room piece) (within : text.length ≤ room + 1) :
    IsString (mem.storeBytes dest text) piece.addr piece.text := by
  have apart := beside.apart
  apply beside.string.congr
  intro k inside
  rw [Memory.storeBytes, if_neg (by omega)]

/-- A copy of a piece, with its 0, to the address `p`; the address of this 0 is returned. -/
def CopiesPiece (copy : Nat → Nat → Tracked → Option (Nat × Tracked)) (piece : Piece) : Prop :=
  ∀ p t, IsString t.mem piece.addr piece.text →
    (p + piece.text.length < piece.addr ∨ piece.addr + piece.text.length < p) →
    ∃ t', copy p piece.addr t = some (p + piece.text.length, t') ∧
      t.Wrote t' p (piece.text ++ [0])

theorem stpcpy_copiesPiece (fits : piece.addr + piece.text.length < 2 ^ 64) :
    CopiesPiece stpcpy piece := by
  intro p t string apart
  have inMemory : piece.text.length < bytesBehind piece.addr := by
    unfold bytesBehind
    omega
  obtain ⟨t', copied, wrote⟩ := copyAll_eq (d := p) string inMemory apart
  refine ⟨t', ?_, wrote⟩
  simp only [stpcpy, copied, Option.bind_eq_bind, Option.bind_some, Nat.add_sub_cancel]

theorem bytesFrom_string (string : IsString mem s text) :
    bytesFrom mem (text.length + 1) s = text ++ [0] := by
  induction text generalizing s with
  | nil =>
      have isEnd : mem s = 0 := string
      simp [bytesFrom, isEnd]
  | cons c rest inductionHypothesis =>
      rw [List.length_cons, bytesFrom, inductionHypothesis string.tail, string.head]
      rfl

theorem memccpyEnd_copiesPiece (long : piece.text.length < n) :
    CopiesPiece (memccpyEnd n) piece := by
  intro p t string apart
  have isFirst : IsFirst (fun j => t.mem (piece.addr + j)) 0 (0 + n) (some piece.text.length) := by
    refine ⟨by omega, (isString_zero_iff string (Nat.le_refl _)).mpr rfl, ?_⟩
    intro j below isZero
    have atEnd := (isString_zero_iff string (Nat.le_of_lt below)).mp isZero
    omega
  have isCount : piece.text.length + 1 =
      min ((some piece.text.length).getD (0 + n) + 1) (0 + n) := by
    simp only [Option.getD_some]
    omega
  obtain ⟨t', copied, wrote⟩ := memccpyFrom_eq (d := p) (t := t) isFirst isCount (by omega)
    (fun j below => absurd below (Nat.not_lt_zero j)) fun _ _ _ => rfl
  have result : memccpy p piece.addr 0 n t = (some (p + piece.text.length + 1), t') := copied
  refine ⟨t', ?_, ?_⟩
  · rw [memccpyEnd, result]
    rfl
  · rw [← bytesFrom_string string]
    exact wrote

/-- The rest of the pieces, behind what is done. -/
theorem copyPieces_eq {copy : Nat → Nat → Tracked → Option (Nat × Tracked)}
    (copies : ∀ piece ∈ pieces, CopiesPiece copy piece)
    (beside : ∀ piece ∈ pieces, Beside mem dest room piece)
    (within : done.length + (wholeText pieces).length ≤ room)
    (isDone : t.mem = mem.storeBytes dest (done ++ [0])) :
    ∃ t', copyPieces copy (dest + done.length) pieces t =
        some (dest + (done ++ wholeText pieces).length, t') ∧
      t'.mem = mem.storeBytes dest (done ++ wholeText pieces ++ [0]) := by
  induction pieces generalizing done t with
  | nil =>
      have nothing : done ++ wholeText [] = done := List.append_nil done
      rw [nothing]
      exact ⟨t, rfl, isDone⟩
  | cons piece rest inductionHypothesis =>
      have whole : wholeText (piece :: rest) = piece.text ++ wholeText rest := rfl
      rw [whole, List.length_append] at within
      have here := beside piece List.mem_cons_self
      have apart := here.apart
      have string : IsString t.mem piece.addr piece.text := by
        rw [isDone]
        apply here.kept
        rw [List.length_append, List.length_singleton]
        omega
      obtain ⟨t', copied, wrote⟩ := copies piece List.mem_cons_self (dest + done.length) t string
        (by omega)
      have continued : t'.mem = mem.storeBytes dest (done ++ piece.text ++ [0]) := by
        rw [wrote.mem, isDone, storeBytes_continue]
      obtain ⟨last, others, result⟩ := inductionHypothesis (t := t')
        (fun other member => copies other (List.mem_cons_of_mem _ member))
        (fun other member => beside other (List.mem_cons_of_mem _ member))
        (by rw [List.length_append]; omega) continued
      rw [List.length_append, ← Nat.add_assoc, List.append_assoc] at others
      rw [List.append_assoc done] at result
      refine ⟨last, ?_, result⟩
      simp only [copyPieces, copied, Option.bind_eq_bind, Option.bind_some, others]
      rfl

/-- A piece put behind the string at `dest`. -/
theorem strcat_eq (beside : Beside mem dest room piece) (nonzero : ∀ c ∈ done, c ≠ 0)
    (within : done.length + piece.text.length ≤ room) (fits : dest + done.length < 2 ^ 64)
    (isDone : t.mem = mem.storeBytes dest (done ++ [0])) :
    ∃ t', strcat dest piece.addr t = some (dest, t') ∧
      t'.mem = mem.storeBytes dest (done ++ piece.text ++ [0]) := by
  have apart := beside.apart
  have pieceFits := beside.fits
  have inMemory : done.length < bytesBehind dest := by
    unfold bytesBehind
    omega
  have pieceInMemory : piece.text.length < bytesBehind piece.addr := by
    unfold bytesBehind
    omega
  have isString : IsString t.mem dest done := by
    rw [isDone]
    exact isString_storeBytes mem dest nonzero
  obtain ⟨skipped, found, sameMem, -⟩ := skipString_eq isString inMemory
  have string : IsString skipped.mem piece.addr piece.text := by
    rw [sameMem, isDone]
    apply beside.kept
    rw [List.length_append, List.length_singleton]
    omega
  obtain ⟨t', copied, wrote⟩ := copyAll_eq (d := dest + done.length) string pieceInMemory (by omega)
  refine ⟨t', ?_, ?_⟩
  · simp only [strcat, found, copied, Option.bind_eq_bind, Option.bind_some]
  · rw [wrote.mem, sameMem, isDone, storeBytes_continue]

theorem strcatAll_eq (beside : ∀ piece ∈ pieces, Beside mem dest room piece)
    (nonzero : ∀ c ∈ done, c ≠ 0) (within : done.length + (wholeText pieces).length ≤ room)
    (fits : dest + room < 2 ^ 64) (isDone : t.mem = mem.storeBytes dest (done ++ [0])) :
    ∃ t', strcatAll dest pieces t = some t' ∧
      t'.mem = mem.storeBytes dest (done ++ wholeText pieces ++ [0]) := by
  induction pieces generalizing done t with
  | nil =>
      have nothing : done ++ wholeText [] = done := List.append_nil done
      rw [nothing]
      exact ⟨t, rfl, isDone⟩
  | cons piece rest inductionHypothesis =>
      have whole : wholeText (piece :: rest) = piece.text ++ wholeText rest := rfl
      rw [whole, List.length_append] at within
      have here := beside piece List.mem_cons_self
      obtain ⟨t', copied, continued⟩ := strcat_eq here nonzero (by omega) (by omega) isDone
      have nonzeroNow : ∀ c ∈ done ++ piece.text, c ≠ 0 := by
        intro c member
        obtain before | new := List.mem_append.mp member
        · exact nonzero c before
        · exact here.string.nonzero new
      obtain ⟨last, others, result⟩ := inductionHypothesis (t := t')
        (fun other member => beside other (List.mem_cons_of_mem _ member)) nonzeroNow
        (by rw [List.length_append]; omega) continued
      rw [List.append_assoc done] at result
      refine ⟨last, ?_, result⟩
      simp only [strcatAll, copied, Option.bind_eq_bind, Option.bind_some, others]

end Pieces

end Loops

/-- Strings to put together, beside the room for the result. -/
structure BuildInput where
  mem : Memory
  dest : Nat
  first : Piece
  rest : List Piece
  beside : ∀ piece ∈ first :: rest,
    Beside mem dest (wholeText (first :: rest)).length piece
  fits : dest + (wholeText (first :: rest)).length < 2 ^ 64

namespace BuildInput

variable (input : BuildInput)

def text : List UInt8 := wholeText (input.first :: input.rest)

/-- The memory with the whole text at `dest`, and nothing else changed. -/
def result : Memory := input.mem.storeBytes input.dest (input.text ++ [0])

theorem length_text :
    input.text.length = input.first.text.length + (wholeText input.rest).length :=
  List.length_append

theorem nonzero : ∀ c ∈ input.text, c ≠ 0 := by
  intro c member
  obtain ⟨piece, isPiece, inPiece⟩ := List.mem_flatMap.mp member
  exact (input.beside piece isPiece).string.nonzero inPiece

/-- The first piece is copied to `dest`, the others behind it. -/
theorem copyPieces_result {copy : Nat → Nat → Tracked → Option (Nat × Tracked)}
    (copies : ∀ piece ∈ input.first :: input.rest, CopiesPiece copy piece) :
    ∃ t, copyPieces copy input.dest (input.first :: input.rest) (Tracked.start input.mem) =
        some (input.dest + input.text.length, t) ∧ t.mem = input.result := by
  have here := input.beside input.first List.mem_cons_self
  have apart := here.apart
  have length := input.length_text
  change input.dest + input.text.length < _ ∨ _ at apart
  obtain ⟨t, copied, wrote⟩ := copies input.first List.mem_cons_self input.dest
    (Tracked.start input.mem) here.string (by omega)
  obtain ⟨last, others, result⟩ := copyPieces_eq (t := t)
    (fun piece member => copies piece (List.mem_cons_of_mem _ member))
    (fun piece member => input.beside piece (List.mem_cons_of_mem _ member))
    (Nat.le_of_eq length.symm) wrote.mem
  refine ⟨last, ?_, result⟩
  simp only [copyPieces, copied, Option.bind_eq_bind, Option.bind_some, others]
  rfl

theorem strcpyStrcat_result : ∃ t,
    strcpyStrcat input.dest input.first input.rest (Tracked.start input.mem) = some t ∧
      t.mem = input.result := by
  have here := input.beside input.first List.mem_cons_self
  have apart := here.apart
  have pieceFits := here.fits
  have length := input.length_text
  change input.dest + input.text.length < _ ∨ _ at apart
  have inMemory : input.first.text.length < bytesBehind input.first.addr := by
    unfold bytesBehind
    omega
  obtain ⟨t, copied, wrote⟩ := copyAll_eq (t := Tracked.start input.mem) (d := input.dest)
    here.string inMemory (by omega)
  obtain ⟨last, others, result⟩ := strcatAll_eq (t := t)
    (fun piece member => input.beside piece (List.mem_cons_of_mem _ member))
    (fun c => here.string.nonzero) (Nat.le_of_eq length.symm) input.fits wrote.mem
  refine ⟨last, ?_, result⟩
  simp only [strcpyStrcat, strcpy, copied, Option.bind_eq_bind, Option.bind_some, others]

end BuildInput

/-- However many pieces there are, `strcpy` with `strcat`, `stpcpy` alone and `memccpy`
alone put together the same text: it lies at the destination with a 0 behind it, no other
byte is changed, and the last two return the address of this 0. -/
theorem built_text (input : BuildInput) (n : Nat)
    (long : ∀ piece ∈ input.first :: input.rest, piece.text.length < n) :
    (∃ t, strcpyStrcat input.dest input.first input.rest (Tracked.start input.mem) = some t ∧
      t.mem = input.result) ∧
    (∃ t, copyPieces stpcpy input.dest (input.first :: input.rest) (Tracked.start input.mem) =
        some (input.dest + input.text.length, t) ∧ t.mem = input.result) ∧
    (∃ t, copyPieces (memccpyEnd n) input.dest (input.first :: input.rest)
        (Tracked.start input.mem) = some (input.dest + input.text.length, t) ∧
      t.mem = input.result) ∧
    IsString input.result input.dest input.text ∧
    ∀ addr, addr < input.dest ∨ input.dest + input.text.length < addr →
      input.result addr = input.mem addr := by
  refine ⟨input.strcpyStrcat_result, ?_, ?_, isString_storeBytes _ _ input.nonzero, ?_⟩
  · apply input.copyPieces_result
    exact fun piece member => stpcpy_copiesPiece (input.beside piece member).fits
  · apply input.copyPieces_result
    exact fun piece member => memccpyEnd_copiesPiece (long piece member)
  · intro addr outside
    unfold BuildInput.result Memory.storeBytes
    rw [List.length_append, List.length_singleton, if_neg (by omega)]

/-- "a" and "b" make "ab". -/
theorem built_text_two_pieces : ∃ input : BuildInput, input.text = [97, 98] ∧
    ∃ t, copyPieces (memccpyEnd 2) input.dest (input.first :: input.rest)
        (Tracked.start input.mem) = some (input.dest + 2, t) ∧
      IsString t.mem input.dest [97, 98] := by
  let input : BuildInput := {
    mem := fun addr => [97, 0, 98, 0].getD (addr - 16) 0
    dest := 32
    first := ⟨16, [97]⟩
    rest := [⟨18, [98]⟩]
    beside := by
      intro piece member
      rw [List.mem_cons, List.mem_singleton] at member
      obtain rfl | rfl := member
      · exact ⟨by decide, by decide, by decide⟩
      · exact ⟨by decide, by decide, by decide⟩
    fits := by decide }
  have long : ∀ piece ∈ input.first :: input.rest, piece.text.length < 2 := by
    intro piece member
    change piece ∈ [⟨16, [97]⟩, ⟨18, [98]⟩] at member
    rw [List.mem_cons, List.mem_singleton] at member
    obtain rfl | rfl := member
    · decide
    · decide
  obtain ⟨-, -, ⟨t, built, isResult⟩, isString, -⟩ := built_text input 2 long
  refine ⟨input, rfl, t, built, ?_⟩
  rw [isResult]
  exact isString

end UniKernel.CString
