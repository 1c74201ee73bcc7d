import UniKernel.Lib.Loop
import UniKernel.Stdio.Input

/-!
Owns the runs of `scanf`. A call goes through its format and takes a line for each
`%d`; it returns, and is defined, exactly if the format has no other directive and
each of these lines is neither empty nor longer than 63 characters.
-/

namespace UniKernel.Stdio

open UniKernel.Lib UniKernel.Stdlib StateTransition

/-- Nothing is undefined so far. -/
def Defined (s : Scanf) : Prop := s.point ≠ .outside ∧ s.point ≠ .unwritten

/-- The call gets to a state that leads to itself, or is undefined. -/
def Fails (call : Call) (s : Scanf) : Prop :=
  ∃ t, Reaches (Scanf.step call) s t ∧
    (Scanf.step call t = some t ∨ t.point = .outside ∨ t.point = .unwritten)

theorem Fails.behind {call : Call} {P : Scanf → Prop} {s t : Scanf} (fails : Fails call t)
    (passes : Passes (Scanf.step call) P s t) : Fails call s := by
  rcases fails with ⟨last, reaches, how⟩
  exact ⟨last, passes.reaches.trans reaches, how⟩

theorem Fails.next {call : Call} {s t : Scanf} (fails : Fails call t)
    (taken : Scanf.step call s = some t) : Fails call s :=
  fails.behind (P := fun _ => True) (Passes.single trivial taken)

theorem Fails.now {call : Call} {s : Scanf}
    (how : Scanf.step call s = some s ∨ s.point = .outside ∨ s.point = .unwritten) : Fails call s :=
  ⟨s, Relation.ReflTransGen.refl, how⟩

/-! ### The loop of `gets` -/

/-- `buf` when `gets` has stored the characters of `text`. -/
def filled (text : List UInt8) : Cells :=
  text.map some ++ List.replicate (bufSize - text.length) none

theorem set_filled {text : List UInt8} (room : text.length < bufSize) (c : UInt8) :
    (filled text).set text.length (some c) = filled (text ++ [c]) := by
  have split : bufSize - text.length = bufSize - (text.length + 1) + 1 := by omega
  unfold filled
  rw [List.set_append_right _ _ (by rw [List.length_map]), List.length_map, Nat.sub_self, split,
    List.replicate_succ, List.set_cons_zero, List.map_append, List.length_append,
    List.length_singleton, List.append_assoc]
  rfl

section Gets

variable {call : Call} {s : Scanf} {num : Nat} {c : UInt8} {front text behind : List UInt8}

theorem step_gets {i : Nat} (here : s.point = .gets num i) :
    Scanf.step call s = some (s.getsIteration num i) := by
  unfold Scanf.step
  rw [here]

theorem defined_gets {i : Nat} (here : s.point = .gets num i) : Defined s := by
  rw [Defined, here]
  constructor <;> (intro atEnd; cases atEnd)

/-- The characters of a line are stored one behind the other. -/
theorem passes_gets (call : Call) (here : s.point = .gets num front.length) (isBuf : s.buf = filled front)
    (isInput : s.input = text ++ behind) (plain : ∀ c ∈ text, ¬ EndsLine c)
    (room : front.length + text.length ≤ bufSize) :
    ∃ sent, Passes (Scanf.step call) Defined s
      { s with
        point := .gets num (front ++ text).length
        input := behind
        sent := sent
        buf := filled (front ++ text) } := by
  induction text generalizing s front with
  | nil =>
      refine ⟨s.sent, ?_⟩
      rw [List.append_nil, ← here, ← isBuf, ← show s.input = behind from isInput]
      exact Passes.refl s
  | cons c rest inductionHypothesis =>
      rw [List.length_cons] at room
      have isNext : Scanf.step call s = some { s with
          point := .gets num (front ++ [c]).length
          input := rest ++ behind
          sent := (putchar c s.sent).2
          buf := filled (front ++ [c]) } := by
        have small : front.length + 1 < 2 ^ 32 := by
          unfold bufSize at room
          omega
        rw [step_gets here, Scanf.getsIteration, isInput, List.cons_append]
        dsimp only [getchar]
        rw [if_neg (plain c List.mem_cons_self), Scanf.write, if_pos (by omega), u32_of_lt small,
          List.length_append, List.length_singleton]
        dsimp only
        rw [isBuf, set_filled (by omega)]
      rcases inductionHypothesis (s := { s with
          point := .gets num (front ++ [c]).length
          input := rest ++ behind
          sent := (putchar c s.sent).2
          buf := filled (front ++ [c]) }) rfl rfl rfl
        (fun other member => plain other (List.mem_cons_of_mem _ member))
        (by rw [List.length_append, List.length_singleton]; omega) with ⟨sent, passes⟩
      refine ⟨sent, (Passes.single (defined_gets here) isNext).trans ?_⟩
      rw [List.append_assoc] at passes
      exact passes

/-- A line with a character that fits into `buf` together with the 0 behind it. -/
def Fits (line : Line) : Prop := 1 ≤ line.text.length ∧ line.text.length < bufSize

instance (line : Line) : Decidable (Fits line) := inferInstanceAs (Decidable (_ ∧ _))

/-- The call has come back to the head of the loop, with a line taken. -/
structure Taken (s t : Scanf) (num : Nat) (line : Line) (behind : List UInt8) : Prop where
  point : t.point = .format
  p : t.p = s.p + 2
  ap : t.ap = s.ap
  readLock : t.readLock = s.readLock
  input : t.input = behind
  stored : t.stored = s.stored ++ [(num, line.value)]

/-- Behind the characters of a line that fits, a 0 is stored. -/
theorem step_ending {line : Line} (fits : Fits line) (here : s.point = .gets num line.text.length)
    (isBuf : s.buf = filled line.text) (isInput : s.input = line.ending :: behind) :
    Scanf.step call s = some { s with
      point := .atoi num
      input := behind
      sent := (putchar line.ending s.sent).2
      buf := filled (line.text ++ [0]) } := by
  rcases fits with ⟨nonempty, room⟩
  rw [step_gets here, Scanf.getsIteration, isInput]
  dsimp only [getchar]
  rw [if_pos line.isEnd, if_neg (by omega), Scanf.write, if_pos room]
  dsimp only
  rw [isBuf, set_filled room]

theorem step_atoi {line : Line} {rest : Cells} (here : s.point = .atoi num)
    (isBuf : s.buf = stringCells line.text ++ rest) :
    Scanf.step call s = some { s with
      point := .format
      p := s.p + 2
      stored := s.stored ++ [(num, line.value)]
      ret := i32 (s.ret + 1) } := by
  unfold Scanf.step
  rw [here]
  dsimp only
  rw [isBuf, line.atoi_eq]

theorem defined_atoi (here : s.point = .atoi num) : Defined s := by
  rw [Defined, here]
  constructor <;> (intro atEnd; cases atEnd)

/-- A line that fits is stored as a string, and its value through the pointer. -/
theorem passes_line (call : Call) {line : Line} (fits : Fits line) (here : s.point = .gets num 0)
    (isBuf : s.buf = filled []) (isInput : s.input = line.bytes ++ behind) :
    ∃ t, Passes (Scanf.step call) Defined s t ∧ Taken s t num line behind := by
  rw [Line.bytes, List.append_assoc] at isInput
  have whole : ([] : List UInt8).length + line.text.length ≤ bufSize := by
    rw [List.length_nil, Nat.zero_add]
    exact Nat.le_of_lt fits.2
  rcases passes_gets call here isBuf isInput line.plain whole with ⟨sent, stores⟩
  have terminated := stores.trans
    (Passes.single (defined_gets rfl) (step_ending fits rfl rfl rfl))
  have taken := terminated.trans (Passes.single (defined_atoi rfl) (step_atoi rfl rfl))
  exact ⟨_, taken, rfl, rfl, rfl, rfl, rfl, rfl⟩

/-- The value of an empty line is taken from bytes that were never written. -/
theorem fails_empty (call : Call) {line : Line} (empty : line.text = []) (here : s.point = .gets num 0)
    (isBuf : s.buf = filled []) (isInput : s.input = line.bytes ++ behind) : Fails call s := by
  have ends : Scanf.step call s = some { s with
      point := .atoi num
      input := behind
      sent := (putchar line.ending s.sent).2 } := by
    rw [Line.bytes, empty] at isInput
    rw [step_gets here, Scanf.getsIteration, isInput]
    dsimp only [getchar, List.nil_append, List.cons_append]
    rw [if_pos line.isEnd, if_pos rfl]
  have reads : ∀ t : Scanf, t.point = .atoi num → t.buf = filled [] →
      Scanf.step call t = some { t with point := .unwritten } := by
    intro t atAtoi noByte
    unfold Scanf.step
    rw [atAtoi, noByte]
    rfl
  have unwritten : Fails call { s with
      point := .atoi num
      input := behind
      sent := (putchar line.ending s.sent).2 } :=
    Fails.next (Fails.now (Or.inr (Or.inr rfl))) (reads _ rfl isBuf)
  exact unwritten.next ends

/-- At the end of `buf`, whatever comes in is written behind it. -/
theorem fails_at_end (call : Call) (here : s.point = .gets num bufSize)
    (isInput : s.input = c :: behind) : Fails call s := by
  have write_outside : ∀ (t : Scanf) (c : UInt8) (next : ScanfPoint),
      t.write bufSize c next = { t with point := .outside } :=
    fun t c next => if_neg (Nat.lt_irrefl bufSize)
  have taken : ∃ t, Scanf.step call s = some t ∧ t.point = .outside := by
    rw [step_gets here, Scanf.getsIteration, isInput]
    dsimp only [getchar]
    rw [if_neg (show ¬ bufSize = 0 by decide), write_outside, write_outside]
    split
    · exact ⟨_, rfl, rfl⟩
    · exact ⟨_, rfl, rfl⟩
  rcases taken with ⟨t, isNext, outside⟩
  exact (Fails.now (Or.inr (Or.inl outside))).next isNext

/-- A line of 64 characters is written over the end of `buf`. -/
theorem fails_long (call : Call) {line : Line} (long : bufSize ≤ line.text.length)
    (here : s.point = .gets num 0) (isBuf : s.buf = filled [])
    (isInput : s.input = line.bytes ++ behind) : Fails call s := by
  have isFront : (line.text.take bufSize).length = bufSize := List.length_take_of_le long
  rw [Line.bytes, List.append_assoc, ← List.take_append_drop bufSize line.text,
    List.append_assoc] at isInput
  have whole : ([] : List UInt8).length + (line.text.take bufSize).length ≤ bufSize := by
    rw [isFront, List.length_nil, Nat.zero_add]
  rcases passes_gets call here isBuf isInput
    (fun c member => line.plain c (List.mem_of_mem_take member)) whole with ⟨sent, stores⟩
  have more : ∃ c later, line.text.drop bufSize ++ ([line.ending] ++ behind) = c :: later := by
    cases line.text.drop bufSize with
    | nil => exact ⟨_, _, rfl⟩
    | cons c rest => exact ⟨_, _, rfl⟩
  rcases more with ⟨c, later, isMore⟩
  rw [List.nil_append, isFront] at stores
  exact (fails_at_end call rfl isMore).behind stores

theorem fails_line (call : Call) {line : Line} (misfit : ¬ Fits line) (here : s.point = .gets num 0)
    (isBuf : s.buf = filled []) (isInput : s.input = line.bytes ++ behind) : Fails call s := by
  rcases Nat.eq_zero_or_pos line.text.length with empty | nonempty
  · exact fails_empty call (List.length_eq_zero_iff.mp empty) here isBuf isInput
  · have long : bufSize ≤ line.text.length := Nat.not_lt.mp fun room => misfit ⟨nonempty, room⟩
    exact fails_long call long here isBuf isInput

end Gets

/-! ### Formats -/

/-- How often `%d` stands in a text. -/
def directives : List UInt8 → Nat
  | [] => 0
  | c :: text =>
      if c = chr '%' ∧ text.head? = some (chr 'd') then directives text + 1 else directives text

/-- Every percent sign of the format has d behind it, and the line for each `%d` has
a character and fits into `buf`. -/
structure Served (text : List UInt8) (lines : List Line) : Prop where
  percents : ∀ front back, text = front ++ chr '%' :: back → back.head? = some (chr 'd')
  fit : ∀ line ∈ lines.take (directives text), Fits line

section Formats

variable {text : List UInt8} {c : UInt8} {lines : List Line} {line : Line}

theorem served_nil : Served [] lines := by
  constructor
  · intro front back isText
    cases front <;> cases isText
  · intro line member
    rw [directives, List.take_zero] at member
    cases member

theorem directives_literal (plain : c ≠ chr '%') : directives (c :: text) = directives text := by
  rw [directives, if_neg fun both => plain both.1]

theorem directives_directive : directives (chr '%' :: chr 'd' :: text) = directives text + 1 := by
  rw [directives, if_pos ⟨rfl, rfl⟩, directives_literal (by decide)]

theorem percents_cons :
    (∀ front back, c :: text = front ++ chr '%' :: back → back.head? = some (chr 'd')) ↔
      (c = chr '%' → text.head? = some (chr 'd')) ∧
        ∀ front back, text = front ++ chr '%' :: back → back.head? = some (chr 'd') := by
  constructor
  · intro all
    constructor
    · rintro rfl
      exact all [] text rfl
    · rintro front back rfl
      exact all (c :: front) back rfl
  · rintro ⟨first, rest⟩ front back isText
    rcases front with _ | ⟨other, front⟩
    · rcases List.cons.inj isText with ⟨isPercent, rfl⟩
      exact first isPercent
    · exact rest front back (List.cons.inj isText).2

theorem served_literal (plain : c ≠ chr '%') : Served (c :: text) lines ↔ Served text lines := by
  constructor
  · rintro ⟨percents, fit⟩
    rw [directives_literal plain] at fit
    exact ⟨(percents_cons.mp percents).2, fit⟩
  · rintro ⟨percents, fit⟩
    rw [← directives_literal plain] at fit
    exact ⟨percents_cons.mpr ⟨fun isPercent => absurd isPercent plain, percents⟩, fit⟩

theorem served_directive :
    Served (chr '%' :: chr 'd' :: text) (line :: lines) ↔ Fits line ∧ Served text lines := by
  constructor
  · rintro ⟨percents, fit⟩
    rw [directives_directive, List.take_succ_cons] at fit
    exact ⟨fit line List.mem_cons_self,
      (percents_cons.mp (percents_cons.mp percents).2).2,
      fun other member => fit other (List.mem_cons_of_mem _ member)⟩
  · rintro ⟨first, percents, fit⟩
    refine ⟨percents_cons.mpr ⟨fun _ => rfl, percents_cons.mpr ⟨?_, percents⟩⟩, ?_⟩
    · intro isPercent
      exact absurd isPercent (by decide)
    · rw [directives_directive, List.take_succ_cons]
      intro other member
      rcases List.mem_cons.mp member with rfl | later
      · exact first
      · exact fit other later

theorem not_served (other : text.head? ≠ some (chr 'd')) : ¬ Served (chr '%' :: text) lines :=
  fun served => other (served.percents [] text rfl)

end Formats

/-! ### The loop over the format -/

/-- What a call stores for the lines, from argument `ap` on. -/
def storedValues (call : Call) (ap : Nat) (lines : List Line) : List (Nat × Int) :=
  (lines.zipIdx ap).map fun entry => (u64 (call.args entry.2), entry.1.value)

theorem storedValues_cons (call : Call) (ap : Nat) (line : Line) (lines : List Line) :
    storedValues call ap (line :: lines) =
      (u64 (call.args ap), line.value) :: storedValues call (ap + 1) lines := rfl

section Loop

variable {call : Call} {s : Scanf} {c : UInt8} {text : List UInt8} {lines : List Line}

/-- The call is behind the format, with a line taken for each `%d`. -/
structure Served.End (call : Call) (s t : Scanf) (text : List UInt8) (lines : List Line) : Prop where
  point : t.point = .format
  isEnd : call.mem t.p = 0
  readLock : t.readLock = s.readLock
  input : t.input = (lines.drop (directives text)).flatMap Line.bytes
  stored : t.stored = s.stored ++ storedValues call s.ap (lines.take (directives text))

theorem scanf_step_format (here : s.point = .format) :
    Scanf.step call s = some (s.iteration call) := by
  unfold Scanf.step
  rw [here]

theorem defined_format (here : s.point = .format) : Defined s := by
  rw [Defined, here]
  constructor <;> (intro atEnd; cases atEnd)

/-- The call has taken a pointer, and is in `gets` with nothing stored yet. -/
def Scanf.taking (s : Scanf) (call : Call) : Scanf :=
  { s with point := .gets (u64 (call.args s.ap)) 0, ap := s.ap + 1, buf := filled [] }

theorem scanf_literal (here : s.point = .format) (plain : c ≠ chr '%')
    (string : IsString call.mem s.p (c :: text)) :
    Scanf.step call s = some { s with p := s.p + 1 } := by
  rcases string with ⟨isChar, nonzero, -⟩
  rw [scanf_step_format here, Scanf.iteration, isChar, if_neg nonzero, if_neg plain]

theorem scanf_directive (here : s.point = .format)
    (string : IsString call.mem s.p (chr '%' :: chr 'd' :: text)) :
    Scanf.step call s = some (s.taking call) := by
  rcases string with ⟨isPercent, nonzero, isD, -⟩
  rw [scanf_step_format here, Scanf.iteration, isPercent, if_neg nonzero, if_pos rfl, isD,
    if_neg (by decide), if_pos rfl]
  rfl

/-- Without d behind it, a percent sign is never passed. -/
theorem scanf_stuck (here : s.point = .format) (other : text.head? ≠ some (chr 'd'))
    (string : IsString call.mem s.p (chr '%' :: text)) : Scanf.step call s = some s := by
  rcases string with ⟨isPercent, nonzero, rest⟩
  have notD : call.mem (s.p + 1) ≠ chr 'd' := by
    cases text with
    | nil =>
        rw [show call.mem (s.p + 1) = 0 from rest]
        decide
    | cons k rest' =>
        rw [rest.head]
        exact fun isD => other (congrArg some isD)
  rw [scanf_step_format here, Scanf.iteration, isPercent, if_neg nonzero, if_pos rfl, if_neg notD,
    ite_self]

/-- A call gets through its format, or fails on it. -/
theorem scanf_outcome (here : s.point = .format) (string : IsString call.mem s.p text)
    (isInput : s.input = lines.flatMap Line.bytes) (enough : directives text ≤ lines.length) :
    (Served text lines ∧
      ∃ t, Passes (Scanf.step call) Defined s t ∧ Served.End call s t text lines) ∨
    (¬ Served text lines ∧ Fails call s) := by
  induction length : text.length using Nat.strongRecOn generalizing s text lines with
  | ind n inductionHypothesis =>
      subst length
      rcases text with _ | ⟨c, text⟩
      · refine Or.inl ⟨served_nil, s, Passes.refl s, here, string, rfl, isInput, ?_⟩
        rw [directives, List.take_zero]
        exact (List.append_nil _).symm
      · by_cases isPercent : c = chr '%'
        · subst isPercent
          by_cases isD : text.head? = some (chr 'd')
          · rcases text with _ | ⟨d, text⟩
            · cases isD
            · cases isD
              rw [directives_directive] at enough
              rcases lines with _ | ⟨line, lines⟩
              · cases enough
              · have enters := scanf_directive here string
                have shorter : text.length < (chr '%' :: chr 'd' :: text).length := by
                  rw [List.length_cons, List.length_cons]
                  omega
                by_cases fits : Fits line
                · rcases passes_line (s := s.taking call) call fits rfl rfl isInput with
                    ⟨m, passes, taken⟩
                  have rest : IsString call.mem m.p text := by
                    rw [taken.p]
                    exact string.tail.tail
                  rcases inductionHypothesis text.length shorter taken.point rest taken.input
                    (Nat.le_of_succ_le_succ enough) rfl with
                    ⟨served, t, later, ends⟩ | ⟨notServed, fails⟩
                  · refine Or.inl ⟨served_directive.mpr ⟨fits, served⟩, t,
                      ((Passes.single (defined_format here) enters).trans passes).trans later,
                      ends.point, ends.isEnd, ends.readLock.trans taken.readLock, ?_, ?_⟩
                    · rw [directives_directive, List.drop_succ_cons]
                      exact ends.input
                    · rw [directives_directive, List.take_succ_cons, storedValues_cons, ends.stored,
                        taken.stored, taken.ap, List.append_assoc]
                      rfl
                  · exact Or.inr ⟨fun served => notServed (served_directive.mp served).2,
                      (fails.behind passes).next enters⟩
                · exact Or.inr ⟨fun served => fits (served_directive.mp served).1,
                    (fails_line (s := s.taking call) call fits rfl rfl isInput).next enters⟩
          · exact Or.inr ⟨not_served isD, Fails.now (Or.inl (scanf_stuck here isD string))⟩
        · have taken := scanf_literal here isPercent string
          rw [directives_literal isPercent] at enough
          rcases inductionHypothesis text.length (Nat.lt_succ_self _)
            (show ({ s with p := s.p + 1 } : Scanf).point = .format from here) string.tail isInput
            enough rfl with ⟨served, t, passes, ends⟩ | ⟨notServed, fails⟩
          · refine Or.inl ⟨(served_literal isPercent).mpr served, t,
              (Passes.single (defined_format here) taken).trans passes, ?_⟩
            rcases ends with ⟨point, isEnd, readLock, input, stored⟩
            rw [← directives_literal isPercent] at input stored
            exact ⟨point, isEnd, readLock, input, stored⟩
          · exact Or.inr ⟨fun served => notServed ((served_literal isPercent).mp served),
              fails.next taken⟩

end Loop

/-! ### Calls -/

section Calls

variable {call : Call} {fmt : Nat} {text : List UInt8} {lines : List Line}

/-- The call is defined in every state, and returns with `read_lock` released, when
it has taken `count` lines and stored their values. -/
structure ReadsLines (call : Call) (fmt : Nat) (lines : List Line) (count : Nat) : Prop where
  inside : ∀ s, Reaches (Scanf.step call) (Scanf.start fmt (lines.flatMap Line.bytes)) s →
    s.point ≠ .outside
  written : ∀ s, Reaches (Scanf.step call) (Scanf.start fmt (lines.flatMap Line.bytes)) s →
    s.point ≠ .unwritten
  returns : ∃ last ∈ eval (Scanf.step call) (Scanf.start fmt (lines.flatMap Line.bytes)),
    last.point = .returned ∧ last.readLock = 0 ∧
      last.input = (lines.drop count).flatMap Line.bytes ∧
      last.stored = storedValues call 0 (lines.take count)

/-- The head of the loop, when a call first comes to it. -/
def Scanf.entered (call : Call) (fmt : Nat) (input : List UInt8) : Scanf :=
  { Scanf.start fmt input with point := .format, readLock := if call.mmuEnabled then 1 else 0 }

theorem scanf_enter (call : Call) (fmt : Nat) (input : List UInt8) :
    Scanf.step call (Scanf.start fmt input) = some (Scanf.entered call fmt input) := by
  rcases call with ⟨mem, args, _ | _⟩ <;> rfl

/-- A call that fails on its format or on a line does not read the lines. -/
theorem not_readsLines (string : IsString call.mem fmt text)
    (enough : directives text ≤ lines.length) (notServed : ¬ Served text lines) :
    ¬ ReadsLines call fmt lines (directives text) := by
  rintro ⟨inside, written, last, ends, -⟩
  rcases scanf_outcome (s := Scanf.entered call fmt (lines.flatMap Line.bytes)) rfl string
    rfl enough with ⟨served, -⟩ | ⟨-, fails⟩
  · exact notServed served
  · rcases fails.next (scanf_enter call fmt _) with ⟨t, reaches, stuck | outside | unwritten⟩
    · exact not_mem_eval_of_stuck reaches stuck last ends
    · exact inside t reaches outside
    · exact written t reaches unwritten

/-- From the 0 behind the format a call releases the lock and returns. -/
theorem scanf_return {t : Scanf} (here : t.point = .format) (isEnd : call.mem t.p = 0)
    (locked : t.readLock = if call.mmuEnabled then 1 else 0) :
    Passes (Scanf.step call) Defined t { t with point := .returned, readLock := 0 } := by
  have leaves : Scanf.step call t = some { t with point := .unlock } := by
    rw [scanf_step_format here, Scanf.iteration, if_pos isEnd]
  have unlocks : Scanf.step call { t with point := .unlock } =
      some { t with point := .returned, readLock := 0 } := by
    rcases call with ⟨mem, args, _ | _⟩
    · rw [show t.readLock = 0 from locked]
      rfl
    · rfl
  have defined : Defined { t with point := .unlock } := by
    constructor <;> (intro atEnd; cases atEnd)
  exact (Passes.single (defined_format here) leaves).trans (Passes.single defined unlocks)

/-- `scanf` takes a line for each `%d`, stores its value and returns exactly if the
format is made of these and of characters other than a percent sign, and each of the
lines has between 1 and 63 characters. -/
theorem scanf_reads_iff (string : IsString call.mem fmt text)
    (enough : directives text ≤ lines.length) :
    ReadsLines call fmt lines (directives text) ↔ Served text lines := by
  constructor
  · intro reads
    by_contra notServed
    exact not_readsLines string enough notServed reads
  · intro served
    rcases scanf_outcome (s := Scanf.entered call fmt (lines.flatMap Line.bytes)) rfl string
      rfl enough with ⟨-, t, passes, ends⟩ | ⟨notServed, -⟩
    · have enters : Passes (Scanf.step call) Defined
          (Scanf.start fmt (lines.flatMap Line.bytes)) _ :=
        Passes.single (by constructor <;> (intro atEnd; cases atEnd)) (scanf_enter call fmt _)
      have whole := (enters.trans passes).trans
        (scanf_return ends.point ends.isEnd ends.readLock)
      have always := whole.always (Always.stop
        (by constructor <;> (intro atEnd; cases atEnd)) rfl)
      exact ⟨fun s reaches => (always s reaches).1, fun s reaches => (always s reaches).2, _,
        mem_eval.mpr ⟨whole.reaches, rfl⟩, rfl, rfl, ends.input, ends.stored⟩
    · exact absurd served notServed

end Calls

/-- The call `scanf("%d", &x)`, with x at 0x4000. -/
def numberCall : Call := ⟨textMemory (bytes "%d"), fun _ => 0x4000, true⟩

theorem numberCall_string : IsString numberCall.mem 0 (bytes "%d") := by decide +kernel

def line42 : Line := ⟨bytes "42", chr '\n', by decide +kernel, by decide⟩

theorem served_percentD {line : Line} : Served (bytes "%d") [line] ↔ Fits line := by
  have isText : bytes "%d" = [chr '%', chr 'd'] := by decide +kernel
  rw [isText, served_directive]
  exact and_iff_left served_nil

theorem scanf_reads_line42 : ReadsLines numberCall 0 [line42] 1 :=
  (scanf_reads_iff numberCall_string (by decide +kernel)).mpr
    (served_percentD.mpr (by decide +kernel))

def emptyLine : Line := ⟨[], chr '\n', List.forall_mem_nil _, by decide⟩

def longLine : Line where
  text := List.replicate 64 (chr '9')
  ending := chr '\n'
  plain := by
    intro c member
    rw [List.eq_of_mem_replicate member]
    decide
  isEnd := by decide

/-- The call `scanf("%x", &x)`. -/
def otherCall : Call := ⟨textMemory (bytes "%x"), fun _ => 0x4000, true⟩

/-- The call fails on an empty line and on a line of 64 digits, and a call with `%x`
on its format. -/
theorem exists_line_not_read :
    ¬ ReadsLines numberCall 0 [emptyLine] 1 ∧ ¬ ReadsLines numberCall 0 [longLine] 1 ∧
      ¬ ReadsLines otherCall 0 [line42] 0 := by
  refine ⟨?_, ?_, ?_⟩
  · apply not_readsLines numberCall_string (by decide +kernel)
    rw [served_percentD]
    decide +kernel
  · apply not_readsLines numberCall_string (by decide +kernel)
    rw [served_percentD, Fits, longLine, List.length_replicate]
    decide
  · have string : IsString otherCall.mem 0 (chr '%' :: [chr 'x']) := by decide +kernel
    have enough : directives (chr '%' :: [chr 'x']) ≤ [line42].length := by decide
    exact not_readsLines string enough (not_served (by decide))

end UniKernel.Stdio
