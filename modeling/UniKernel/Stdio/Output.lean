import Mathlib.Algebra.Order.BigOperators.Group.List
import UniKernel.Stdio.Hex
import UniKernel.Stdio.Printf

/-!
Owns what a call of `printf` sends and returns, for formats that are sequences of
characters and directives. Each piece of the format has its own part of what is
sent, in order, and each directive takes the next argument. What is returned adds
up what the pieces report; a hexadecimal directive reports one character less than
it sends, and a byte that `putchar` refuses is counted.
-/

namespace UniKernel.Stdio

open UniKernel.Lib StateTransition

/-! ### What the converters send -/

/-- The text that `printd` and `printld` send: a numeral, and for the most negative
number a minus sign alone. -/
def signedText (limit num : Int) : List UInt8 :=
  if num = -limit then [chr '-'] else signedDecimal num

/-- The text that a directive for an integer sends. -/
def Conversion.sends (conversion : Conversion) (arg : Nat) : List UInt8 :=
  match conversion with
  | .d => signedText (2 ^ 31) (i32 arg)
  | .x => hexSent false (i32 arg)
  | .upperX => hexSent true (i32 arg)
  | .ld => signedText (2 ^ 63) (i64 arg)
  | .lu => decimal (u64 arg)
  | .lx => hexSent false (i64 arg)
  | .upperLx => hexSent true (i64 arg)

/-- The characters that a directive sends and does not report. -/
def Conversion.omitted : Conversion → Int
  | .d | .ld | .lu => 0
  | .x | .upperX | .lx | .upperLx => 1

theorem printd_sends {num : Int} (above : -2 ^ 31 ≤ num) (below : num < 2 ^ 31) (sent : Uart) :
    printd num sent = (((signedText (2 ^ 31) num).length : Int), sent ++ signedText (2 ^ 31) num) := by
  unfold signedText
  split
  · next isMin =>
      rw [isMin]
      exact printd_min sent
  · next other => exact printd_eq (by omega) below sent

theorem printld_sends {num : Int} (above : -2 ^ 63 ≤ num) (below : num < 2 ^ 63) (sent : Uart) :
    printld num sent =
      (((signedText (2 ^ 63) num).length : Int), sent ++ signedText (2 ^ 63) num) := by
  unfold signedText
  split
  · next isMin =>
      rw [isMin]
      exact printld_min sent
  · next other => exact printld_eq (by omega) below sent

/-- What a directive for an integer sends and reports does not depend on what was
sent before. -/
theorem convert_eq (conversion : Conversion) (arg : Nat) (sent : Uart) :
    convert conversion arg sent =
      (((conversion.sends arg).length : Int) - conversion.omitted,
        sent ++ conversion.sends arg) := by
  have whole : ∀ text : List UInt8,
      ((text.length : Int), sent ++ text) = ((text.length : Int) - 0, sent ++ text) := by
    intro text
    rw [Int.sub_zero]
  cases conversion with
  | d => exact (printd_sends (le_i32 _) (i32_lt _) sent).trans (whole _)
  | x => exact printx_eq false (i32_lt _) sent
  | upperX => exact printx_eq true (i32_lt _) sent
  | ld => exact (printld_sends (le_i64 _) (i64_lt _) sent).trans (whole _)
  | lu => exact (printlu_eq _ sent).trans (whole _)
  | lx => exact printlx_eq false (i64_lt _) sent
  | upperLx => exact printlx_eq true (i64_lt _) sent

/-! ### Pieces -/

/-- The text of a piece in a format. -/
def Piece.text : Piece → List UInt8
  | .literal c => [c]
  | .directive kind => kind.text

/-- The pieces, each with the number of the next argument. -/
def numbered : (ap : Nat) → List Piece → List (Piece × Nat)
  | _, [] => []
  | ap, .literal c :: pieces => (.literal c, ap) :: numbered ap pieces
  | ap, .directive kind :: pieces => (.directive kind, ap) :: numbered (ap + 1) pieces

/-- What the case of a piece adds to `ret`, and what it sends: a character goes to
`putchar`, a string to `__puts` and an integer to its converter. -/
def effect (call : Call) (strings : Nat → List UInt8) : Piece × Nat → Int × List UInt8
  | (.literal c, _) => (1, (putchar c []).2)
  | (.directive .s, ap) => putsText 0 (strings ap) []
  | (.directive (.integer conversion), ap) => convert conversion (call.args ap) []

/-- The characters are no percent signs. -/
def Plain (pieces : List Piece) : Prop := ∀ c, .literal c ∈ pieces → c ≠ chr '%'

section Calls

variable {call : Call} {strings : Nat → List UInt8} {fmt ap : Nat} {s : Printf}
  {pieces : List Piece}

theorem Plain.tail {piece : Piece} (plain : Plain (piece :: pieces)) : Plain pieces :=
  fun c member => plain c (List.mem_cons_of_mem _ member)

/-- A format is split into its pieces, whatever stands behind a directive. -/
theorem scans_pieces (plain : Plain pieces) :
    Scans (pieces.flatMap Piece.text) (pieces.map .piece) := by
  induction pieces with
  | nil => exact .done
  | cons piece rest inductionHypothesis =>
      have later := inductionHypothesis plain.tail
      rcases piece with c | (_ | conversion)
      · exact .literal (plain c List.mem_cons_self) later
      · exact .short (show shortCase (chr 's') = some .s by decide) later
      · cases conversion with
        | d => exact .short (show shortCase (chr 'd') = some (.integer .d) by decide) later
        | x => exact .short (show shortCase (chr 'x') = some (.integer .x) by decide) later
        | upperX => exact .short (show shortCase (chr 'X') = some (.integer .upperX) by decide) later
        | ld => exact .long (show longCase (chr 'd') = some .ld by decide) later
        | lu => exact .long (show longCase (chr 'u') = some .lu by decide) later
        | lx => exact .long (show longCase (chr 'x') = some .lx by decide) later
        | upperLx => exact .long (show longCase (chr 'X') = some .upperLx by decide) later

/-- What was sent before a piece stays, and the piece adds its part. -/
theorem after_piece (call : Call) (strings : Nat → List UInt8) (s : Printf) (piece : Piece) :
    (s.after call strings (.piece piece)).sent =
        s.sent ++ (effect call strings (piece, s.ap)).2 ∧
      (s.after call strings (.piece piece)).ret =
        i32 (s.ret + (effect call strings (piece, s.ap)).1) := by
  rcases piece with c | (_ | conversion)
  · refine ⟨?_, rfl⟩
    change (putchar c s.sent).2 = s.sent ++ (putchar c []).2
    rw [putchar_sent, putchar_sent, List.nil_append]
  · have appended := putsText_append 0 (strings s.ap) s.sent
    refine ⟨congrArg Prod.snd appended, ?_⟩
    change i32 (s.ret + (putsText 0 (strings s.ap) s.sent).1) = _
    rw [appended]
    rfl
  · have appended : convert conversion (call.args s.ap) s.sent =
        ((convert conversion (call.args s.ap) []).1,
          s.sent ++ (convert conversion (call.args s.ap) []).2) := by
      rw [convert_eq, convert_eq, List.nil_append]
    refine ⟨congrArg Prod.snd appended, ?_⟩
    change i32 (s.ret + (convert conversion (call.args s.ap) s.sent).1) = _
    rw [appended]
    rfl

/-- Each directive takes the next argument. -/
theorem numbered_after (call : Call) (strings : Nat → List UInt8) (s : Printf) (piece : Piece)
    (rest : List Piece) :
    numbered s.ap (piece :: rest) =
      (piece, s.ap) :: numbered (s.after call strings (.piece piece)).ap rest := by
  rcases piece with c | (_ | conversion) <;> rfl

/-- The pieces of a format add their parts in order. -/
theorem foldl_after_pieces (pieces : List Piece) (s : Printf) (isInt : i32 s.ret = s.ret) :
    ((pieces.map .piece).foldl (Printf.after call strings) s).sent =
        s.sent ++ (numbered s.ap pieces).flatMap (fun entry => (effect call strings entry).2) ∧
      ((pieces.map .piece).foldl (Printf.after call strings) s).ret =
        i32 (s.ret + ((numbered s.ap pieces).map (fun entry => (effect call strings entry).1)).sum) := by
  induction pieces generalizing s with
  | nil =>
      refine ⟨(List.append_nil s.sent).symm, ?_⟩
      change s.ret = i32 (s.ret + 0)
      rw [Int.add_zero, isInt]
  | cons piece rest inductionHypothesis =>
      rcases after_piece call strings s piece with ⟨sent, ret⟩
      rcases inductionHypothesis (s.after call strings (.piece piece))
        (by rw [ret, i32_i32]) with ⟨restSent, restRet⟩
      rw [numbered_after call strings]
      constructor
      · rw [List.flatMap_cons, ← List.append_assoc, ← sent]
        exact restSent
      · rw [List.map_cons, List.map_cons, List.sum_cons, ← Int.add_assoc, ← i32_add, ← ret]
        exact restRet

/-- The bytes that a call sends. -/
def output (call : Call) (strings : Nat → List UInt8) (pieces : List Piece) : List UInt8 :=
  (numbered 0 pieces).flatMap fun entry => (effect call strings entry).2

/-- The sum of what the pieces report. -/
def reported (call : Call) (strings : Nat → List UInt8) (pieces : List Piece) : Int :=
  ((numbered 0 pieces).map fun entry => (effect call strings entry).1).sum

/-- A call for a sequence of pieces ends, and this is what it has sent and returns. -/
theorem call_ends (plain : Plain pieces)
    (string : IsString call.mem fmt (pieces.flatMap Piece.text))
    (args : StringArgs call strings 0 (pieces.map .piece)) :
    ∃ last ∈ eval (Printf.step call) (Printf.start fmt),
      last.point = .returned ∧ last.sent = output call strings pieces ∧
        last.ret = i32 (reported call strings pieces) := by
  have noStuck : Item.stuck ∉ pieces.map .piece := by simp
  have passes := ((scans_pieces plain).call_passes noStuck string args).1
  rcases foldl_after_pieces pieces (Printf.entered call fmt) rfl with ⟨sent, ret⟩
  refine ⟨_, mem_eval.mpr ⟨passes.reaches, rfl⟩, rfl, sent, ret.trans ?_⟩
  congr 1
  exact Int.zero_add _

/-! ### The text of a call -/

/-- What a piece stands for: a character for itself, a directive for what its
converter sends on its argument. -/
def meaning (call : Call) (strings : Nat → List UInt8) : Piece × Nat → List UInt8
  | (.literal c, _) => [c]
  | (.directive .s, ap) => (putsText 0 (strings ap) []).2
  | (.directive (.integer conversion), ap) => (convert conversion (call.args ap) []).2

theorem mem_of_mem_numbered {entry : Piece × Nat} (member : entry ∈ numbered ap pieces) :
    entry.1 ∈ pieces := by
  induction pieces generalizing ap with
  | nil => cases member
  | cons piece rest inductionHypothesis =>
      have split : entry = (piece, ap) ∨ ∃ next, entry ∈ numbered next rest := by
        rcases piece with c | kind
        · exact (List.mem_cons.mp member).imp id fun later => ⟨_, later⟩
        · exact (List.mem_cons.mp member).imp id fun later => ⟨_, later⟩
      rcases split with rfl | ⟨next, later⟩
      · exact List.mem_cons_self
      · exact List.mem_cons_of_mem _ (inductionHypothesis later)

/-- The characters that a call sends are the meanings of the pieces, in order. -/
theorem printf_concatenates (plain : Plain pieces) (ascii : ∀ c, .literal c ∈ pieces → c ≤ 127)
    (string : IsString call.mem fmt (pieces.flatMap Piece.text))
    (args : StringArgs call strings 0 (pieces.map .piece)) :
    ∃ last ∈ eval (Printf.step call) (Printf.start fmt),
      last.point = .returned ∧
        last.sent = (numbered 0 pieces).flatMap (meaning call strings) := by
  rcases call_ends plain string args with ⟨last, ends, returned, sent, -⟩
  refine ⟨last, ends, returned, sent.trans ?_⟩
  apply List.flatMap_congr
  intro entry member
  have inFormat := mem_of_mem_numbered member
  rcases entry with ⟨c | (_ | conversion), k⟩
  · change (putchar c []).2 = [c]
    rw [putchar_ascii (ascii c inFormat), List.nil_append]
  · rfl
  · rfl

/-- A format in which a letter of a directive follows each directive, and two
arguments. -/
def adjacentPieces : List Piece :=
  [.directive .s, .directive (.integer .d), .literal (chr 'l'), .literal (chr 'x')]

def adjacentCall : Call :=
  ⟨textMemory (bytes "%s%dlx" ++ 0 :: bytes "ds"), fun k => if k = 0 then 7 else 42, true⟩

theorem adjacent_literals {c : UInt8} (member : .literal c ∈ adjacentPieces) :
    c ≠ chr '%' ∧ c ≤ 127 := by
  have isLetter : c = chr 'l' ∨ c = chr 'x' := by simpa [adjacentPieces] using member
  rcases isLetter with rfl | rfl <;> decide

theorem adjacent_string :
    IsString adjacentCall.mem 0 (adjacentPieces.flatMap Piece.text) := by decide +kernel

theorem adjacent_args :
    StringArgs adjacentCall (fun _ => bytes "ds") 0 (adjacentPieces.map .piece) :=
  And.intro (show IsString adjacentCall.mem 7 (bytes "ds") by decide +kernel) trivial

theorem printf_concatenates_adjacent :
    ∃ last ∈ eval (Printf.step adjacentCall) (Printf.start 0),
      last.point = .returned ∧ last.sent = bytes "ds42lx" := by
  have text : (numbered 0 adjacentPieces).flatMap (meaning adjacentCall fun _ => bytes "ds") =
      bytes "ds42lx" := by decide +kernel
  rcases printf_concatenates (fun _ member => (adjacent_literals member).1)
    (fun _ member => (adjacent_literals member).2) adjacent_string adjacent_args with
    ⟨last, ends, returned, sent⟩
  exact ⟨last, ends, returned, sent.trans text⟩

/-! ### The count of a call -/

/-- The strings that `%s` is given have no 0 inside. -/
theorem StringArgs.nonzero (args : StringArgs call strings ap (pieces.map .piece)) {k : Nat}
    (member : (.directive .s, k) ∈ numbered ap pieces) : ∀ c ∈ strings k, c ≠ 0 := by
  induction pieces generalizing ap with
  | nil => cases member
  | cons piece rest inductionHypothesis =>
      rcases piece with c | (_ | conversion)
      · rcases List.mem_cons.mp member with same | later
        · cases same
        · exact inductionHypothesis args later
      · rcases List.mem_cons.mp member with same | later
        · cases same
          intro c isChar
          exact args.1.nonzero isChar
        · exact inductionHypothesis args.2 later
      · rcases List.mem_cons.mp member with same | later
        · cases same
        · exact inductionHypothesis args later

/-- The number of characters that a piece sends, if its character is ASCII. -/
def width (call : Call) (strings : Nat → List UInt8) : Piece × Nat → Nat
  | (.literal _, _) => 1
  | (.directive .s, ap) => (strings ap).countP (· ≤ 127)
  | (.directive (.integer conversion), ap) => (conversion.sends (call.args ap)).length

/-- No character is refused and none is left out: a directive is decimal, and the
refused bytes of a string do not show in an `int`. -/
def Counted (strings : Nat → List UInt8) : Piece × Nat → Prop
  | (.literal c, _) => c ≤ 127
  | (.directive .s, ap) => 2 ^ 32 ∣ (strings ap).countP (127 < ·)
  | (.directive (.integer conversion), _) => conversion ∈ [.d, .ld, .lu]

instance (strings : Nat → List UInt8) : DecidablePred (Counted strings)
  | (.literal c, _) => inferInstanceAs (Decidable (c ≤ 127))
  | (.directive .s, ap) => inferInstanceAs (Decidable (2 ^ 32 ∣ (strings ap).countP (127 < ·)))
  | (.directive (.integer conversion), _) =>
      inferInstanceAs (Decidable (conversion ∈ [.d, .ld, .lu]))

/-- Each piece reports the characters that `putchar` accepts, and the call returns
how many were sent. -/
structure Reports (call : Call) (strings : Nat → List UInt8) (fmt : Nat) (pieces : List Piece) :
    Prop where
  each : ∀ entry ∈ numbered 0 pieces,
    (effect call strings entry).1 = (effect call strings entry).2.length
  total : ∃ last ∈ eval (Printf.step call) (Printf.start fmt),
    last.point = .returned ∧ last.ret = last.sent.length

theorem countP_refused (text : List UInt8) :
    text.length = text.countP (· ≤ 127) + text.countP (127 < ·) := by
  have refused : ∀ c : UInt8, (127 < c) ↔ ¬ (c ≤ 127) := fun c => UInt8.not_le.symm
  simpa only [refused, decide_eq_true_eq] using
    List.length_eq_countP_add_countP (fun c : UInt8 => decide (c ≤ 127)) (l := text)

theorem effect_string {text : List UInt8} (nonzero : ∀ c ∈ text, c ≠ 0) :
    (putsText 0 text []).1 = i32 text.length ∧
      (putsText 0 text []).2.length = text.countP (· ≤ 127) := by
  rw [putsText_sent nonzero, putsText_ret nonzero rfl, Int.zero_add, List.nil_append,
    List.countP_eq_length_filter]
  exact ⟨rfl, rfl⟩

theorem omitted_eq_zero_iff (conversion : Conversion) :
    conversion.omitted = 0 ↔ conversion ∈ [.d, .ld, .lu] := by
  cases conversion <;> decide

section Entries

variable {entry : Piece × Nat}
  (nonzero : ∀ k, entry = (.directive .s, k) → ∀ c ∈ strings k, c ≠ 0)

include nonzero

theorem length_effect (counted : Counted strings entry) :
    (effect call strings entry).2.length = width call strings entry := by
  rcases entry with ⟨c | (_ | conversion), k⟩
  · change (putchar c []).2.length = 1
    rw [putchar_ascii counted]
    rfl
  · exact (effect_string (nonzero k rfl)).2
  · change (convert conversion (call.args k) []).2.length = (conversion.sends (call.args k)).length
    rw [convert_eq, List.nil_append]

theorem effect_counted (counted : Counted strings entry) (small : width call strings entry < 2 ^ 31) :
    (effect call strings entry).1 = (effect call strings entry).2.length := by
  rw [length_effect nonzero counted]
  rcases entry with ⟨c | (_ | conversion), k⟩
  · rfl
  · change (putsText 0 (strings k) []).1 = ((strings k).countP (· ≤ 127) : Nat)
    have few : (strings k).countP (· ≤ 127) < 2 ^ 31 := small
    have refused : 2 ^ 32 ∣ (strings k).countP (127 < ·) := counted
    have length := countP_refused (strings k)
    rw [(effect_string (nonzero k rfl)).1]
    unfold i32
    rw [Int.bmod_def]
    omega
  · change (convert conversion (call.args k) []).1 = ((conversion.sends (call.args k)).length : Nat)
    rw [convert_eq, (omitted_eq_zero_iff conversion).mpr counted, Int.sub_zero]

theorem counted_of_effect
    (reports : (effect call strings entry).1 = (effect call strings entry).2.length) :
    Counted strings entry := by
  rcases entry with ⟨c | (_ | conversion), k⟩
  · change c ≤ 127
    change 1 = (((putchar c []).2.length : Nat) : Int) at reports
    by_contra refused
    rw [putchar_sent, if_pos (UInt8.not_le.mp refused)] at reports
    cases reports
  · change 2 ^ 32 ∣ (strings k).countP (127 < ·)
    change (putsText 0 (strings k) []).1 = ((putsText 0 (strings k) []).2.length : Int) at reports
    have length := countP_refused (strings k)
    rw [(effect_string (nonzero k rfl)).1, (effect_string (nonzero k rfl)).2] at reports
    unfold i32 at reports
    rw [Int.bmod_def] at reports
    omega
  · change (convert conversion (call.args k) []).1 =
      ((convert conversion (call.args k) []).2.length : Int) at reports
    rw [convert_eq, List.nil_append] at reports
    dsimp only at reports
    exact (omitted_eq_zero_iff conversion).mp (by omega)

end Entries

theorem reported_eq (each : ∀ entry ∈ numbered 0 pieces,
    (effect call strings entry).1 = (effect call strings entry).2.length) :
    reported call strings pieces = (output call strings pieces).length := by
  unfold reported output
  rw [List.map_congr_left each, List.length_flatMap]
  induction numbered 0 pieces with
  | nil => rfl
  | cons entry rest inductionHypothesis =>
      rw [List.map_cons, List.sum_cons, inductionHypothesis, List.map_cons, List.sum_cons]
      rfl

theorem length_output
    (lengths : ∀ entry ∈ numbered 0 pieces,
      (effect call strings entry).2.length = width call strings entry) :
    (output call strings pieces).length =
      ((numbered 0 pieces).map (width call strings)).sum := by
  unfold output
  rw [List.length_flatMap, List.map_congr_left lengths]

/-- `printf` returns the number of characters it sends exactly if it is given no
hexadecimal directive and no byte that is not ASCII, and sends fewer than 2^31. -/
theorem printf_reports_iff (plain : Plain pieces)
    (string : IsString call.mem fmt (pieces.flatMap Piece.text))
    (args : StringArgs call strings 0 (pieces.map .piece)) :
    Reports call strings fmt pieces ↔
      (∀ entry ∈ numbered 0 pieces, Counted strings entry) ∧
        ((numbered 0 pieces).map (width call strings)).sum < 2 ^ 31 := by
  have nonzero : ∀ entry ∈ numbered 0 pieces, ∀ k, entry = (.directive .s, k) →
      ∀ c ∈ strings k, c ≠ 0 := by
    rintro entry member k rfl
    exact args.nonzero member
  rcases call_ends plain string args with ⟨last, ends, returned, sent, ret⟩
  constructor
  · rintro ⟨each, other, otherEnds, -, total⟩
    have counted : ∀ entry ∈ numbered 0 pieces, Counted strings entry :=
      fun entry member => counted_of_effect (nonzero entry member) (each entry member)
    refine ⟨counted, ?_⟩
    rw [← length_output fun entry member =>
      length_effect (nonzero entry member) (counted entry member)]
    rw [Part.mem_unique otherEnds ends, ret, sent] at total
    have below := i32_lt (reported call strings pieces)
    omega
  · rintro ⟨counted, small⟩
    have each : ∀ entry ∈ numbered 0 pieces,
        (effect call strings entry).1 = (effect call strings entry).2.length := by
      intro entry member
      have part : width call strings entry ≤ ((numbered 0 pieces).map (width call strings)).sum :=
        List.le_sum_of_mem (List.mem_map_of_mem member)
      exact effect_counted (nonzero entry member) (counted entry member) (by omega)
    refine ⟨each, last, ends, returned, ?_⟩
    have length : (output call strings pieces).length =
        ((numbered 0 pieces).map (width call strings)).sum :=
      length_output fun entry member =>
        length_effect (nonzero entry member) (counted entry member)
    rw [ret, sent, reported_eq each]
    exact i32_of_range (by omega) (by omega)

end Calls

theorem printf_reports_adjacent :
    Reports adjacentCall (fun _ => bytes "ds") 0 adjacentPieces :=
  (printf_reports_iff (fun _ member => (adjacent_literals member).1) adjacent_string
    adjacent_args).mpr (by decide +kernel)

/-- The call `printf("%x", 5)`. -/
def hexPieces : List Piece := [.directive (.integer .x)]

def hexCall : Call := ⟨textMemory (bytes "%x"), fun _ => 5, true⟩

/-- One character is sent, and 0 is returned. -/
theorem exists_character_not_reported :
    (∃ last ∈ eval (Printf.step hexCall) (Printf.start 0), last.sent = [chr '5'] ∧ last.ret = 0) ∧
      ¬ Reports hexCall (fun _ => []) 0 hexPieces := by
  constructor
  · have plain : Plain hexPieces := by
      intro c member
      cases List.mem_singleton.mp member
    have string : IsString hexCall.mem 0 (hexPieces.flatMap Piece.text) := by decide +kernel
    have args : StringArgs hexCall (fun _ => []) 0 (hexPieces.map .piece) := trivial
    rcases call_ends plain string args with ⟨last, ends, -, sent, ret⟩
    exact ⟨last, ends, sent.trans (by decide +kernel), ret.trans (by decide +kernel)⟩
  · intro reports
    exact absurd (reports.each _ List.mem_cons_self) (by decide +kernel)

end UniKernel.Stdio
