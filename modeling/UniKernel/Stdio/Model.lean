import Mathlib.Data.List.GetD
import UniKernel.Lib.Strings
import UniKernel.Lib.Words

/-!
Owns the output half of `src/stdio.c`: `putchar`, `__puts`, the converters of
integers, and `printf` as a machine whose steps are the iterations of its loop
and of the loop of `__puts` inside it. `char` is unsigned. What is sent to the
UART is the list of bytes stored to its data register; the wait for room in the
FIFO is over when a byte is stored.
-/

namespace UniKernel.Stdio

open UniKernel.Lib

/-- A character constant. -/
def chr (c : Char) : UInt8 := UInt8.ofNat c.toNat

/-- The characters of a string constant. -/
def bytes (text : String) : List UInt8 := text.toList.map chr

/-- The bytes stored to the data register, in order. -/
abbrev Uart := List UInt8

def eof : Int := -1

def putchar (c : UInt8) (sent : Uart) : Int × Uart :=
  if c > 127 then (eof, sent) else (c.toNat, sent ++ [c])

/-- The loop of `__puts` on a text that is not in memory, up to its first 0. -/
def putsText (ret : Int) : List UInt8 → Uart → Int × Uart
  | [], sent => (ret, sent)
  | c :: rest, sent =>
      if c = 0 then (ret, sent) else putsText (i32 (ret + 1)) rest (putchar c sent).2

/-! ### Decimal converters -/

/-- The loop `while (i > 0) putchar(buffer[--i]);`. -/
def flush (buffer : List UInt8) : (i : Nat) → Uart → Uart
  | 0, sent => sent
  | i + 1, sent => flush buffer i (putchar (buffer.getD i 0) sent).2

/-- The loop `while (num > 0)` of `printd` and `printld`; `i` is the length of
what the buffer holds. -/
def digitLoop (num : Int) (buffer : List UInt8) : List UInt8 :=
  if num > 0 then digitLoop (num.tdiv 10) (buffer ++ [UInt8.ofNat (48 + num.tmod 10).toNat])
  else buffer
termination_by num.toNat
decreasing_by
  rw [Int.tdiv_eq_ediv_of_nonneg (by omega)]
  omega

/-- `if (num < 0) num = -num;` in the width of `num`. -/
def magnitude (wrap : Int → Int) (num : Int) : Int := if num < 0 then wrap (-num) else num

/-- `printd` and `printld`; `wrap` is the width of `num`. -/
def printSigned (wrap : Int → Int) (num : Int) (sent : Uart) : Int × Uart :=
  if num = 0 then (1, (putchar (chr '0') sent).2)
  else
    let sent := if num < 0 then (putchar (chr '-') sent).2 else sent
    let ret : Int := if num < 0 then 1 else 0
    let buffer := digitLoop (magnitude wrap num) []
    (ret + buffer.length, flush buffer buffer.length sent)

def printd (num : Int) (sent : Uart) : Int × Uart := printSigned i32 num sent

def printld (num : Int) (sent : Uart) : Int × Uart := printSigned i64 num sent

/-- The loop `while (num != 0)` of `printlu`. -/
def digitLoopUnsigned (num : Nat) (buffer : List UInt8) : List UInt8 :=
  if num ≠ 0 then digitLoopUnsigned (num / 10) (buffer ++ [UInt8.ofNat (48 + num % 10)])
  else buffer
termination_by num

def printlu (num : Nat) (sent : Uart) : Int × Uart :=
  if num = 0 then (1, (putchar (chr '0') sent).2)
  else
    let buffer := digitLoopUnsigned num []
    (buffer.length, flush buffer buffer.length sent)

/-! ### Hexadecimal converters -/

/-- `digit < 10 ? '0' + digit : a + digit - 10` as a `char`. -/
def hexChar (a : UInt8) (digit : Int) : UInt8 :=
  UInt8.ofNat (if digit < 10 then 48 + digit else a.toNat + digit - 10).toNat

/-- The loop `do { ... } while (num > 0 && i < limit);`. -/
def hexLoop (a : UInt8) (limit : Nat) (num : Int) (buf : List UInt8) : List UInt8 :=
  if num.tdiv 16 > 0 ∧ buf.length + 1 < limit then
    hexLoop a limit (num.tdiv 16) (buf ++ [hexChar a (num.tmod 16)])
  else buf ++ [hexChar a (num.tmod 16)]
termination_by num.toNat
decreasing_by
  next both =>
    have positive : 0 < num := by
      by_contra notPositive
      have opposite : 0 ≤ (-num).tdiv 16 := Int.tdiv_nonneg (by omega) (by decide)
      rw [Int.neg_tdiv] at opposite
      omega
    rw [Int.tdiv_eq_ediv_of_nonneg (by omega)]
    omega

/-- The loop that swaps `buf[j]` and `buf[k]` from both ends. -/
def reverseLoop (buf : List UInt8) (j k : Nat) : List UInt8 :=
  if j < k then
    reverseLoop ((buf.set j (buf.getD k 0)).set k (buf.getD j 0)) (j + 1) (k - 1)
  else buf
termination_by k - j

/-- `printlx` and `printx`, which differ in the width of `num` and the limit. -/
def printHex (limit : Nat) (num : Int) (uppercase : Bool) (sent : Uart) : Int × Uart :=
  let a := if uppercase then chr 'A' else chr 'a'
  let buf := hexLoop a limit num []
  let text := reverseLoop buf 0 (buf.length - 1) ++ [0]
  (buf.length - 1, (putsText 0 text sent).2)

def printlx (num : Int) (uppercase : Bool) (sent : Uart) : Int × Uart :=
  printHex 31 num uppercase sent

def printx (num : Int) (uppercase : Bool) (sent : Uart) : Int × Uart :=
  printHex 15 num uppercase sent

/-! ### What is sent -/

theorem putchar_sent (c : UInt8) (sent : Uart) :
    (putchar c sent).2 = sent ++ if c > 127 then [] else [c] := by
  unfold putchar
  split
  · rw [List.append_nil]
  · rfl

theorem putchar_ascii {c : UInt8} (ascii : c ≤ 127) (sent : Uart) :
    (putchar c sent).2 = sent ++ [c] := by
  rw [putchar_sent, if_neg (UInt8.not_lt.mpr ascii)]

/-- `__puts` keeps what was sent before, and does not depend on it. -/
theorem putsText_append (ret : Int) (text : List UInt8) (sent : Uart) :
    putsText ret text sent = ((putsText ret text []).1, sent ++ (putsText ret text []).2) := by
  induction text generalizing ret sent with
  | nil => rw [putsText, putsText, List.append_nil]
  | cons c rest inductionHypothesis =>
      rw [putsText, putsText]
      split
      · rw [List.append_nil]
      · rw [inductionHypothesis, inductionHypothesis _ (putchar c []).2, putchar_sent,
          putchar_sent c [], List.nil_append, List.append_assoc]

/-- `__puts` sends the ASCII characters of a text. -/
theorem putsText_sent {text : List UInt8} (nonzero : ∀ c ∈ text, c ≠ 0) (ret : Int) (sent : Uart) :
    (putsText ret text sent).2 = sent ++ text.filter (· ≤ 127) := by
  induction text generalizing ret sent with
  | nil => exact (List.append_nil sent).symm
  | cons c rest inductionHypothesis =>
      have later := inductionHypothesis fun other member => nonzero other (List.mem_cons_of_mem _ member)
      rw [putsText, if_neg (nonzero c List.mem_cons_self), later, putchar_sent, List.append_assoc]
      by_cases ascii : c ≤ 127
      · rw [if_neg (UInt8.not_lt.mpr ascii), List.filter_cons, if_pos (decide_eq_true ascii)]
        rfl
      · rw [if_pos (UInt8.not_le.mp ascii), List.filter_cons, if_neg (by simpa using ascii)]
        rfl

/-- `__puts` counts the characters of a text, whether they are sent or not. -/
theorem putsText_ret {text : List UInt8} (nonzero : ∀ c ∈ text, c ≠ 0) {ret : Int}
    (isInt : i32 ret = ret) (sent : Uart) :
    (putsText ret text sent).1 = i32 (ret + text.length) := by
  induction text generalizing ret sent with
  | nil =>
      rw [List.length_nil, Int.natCast_zero, Int.add_zero, isInt]
      rfl
  | cons c rest inductionHypothesis =>
      have later := inductionHypothesis
        (fun other member => nonzero other (List.mem_cons_of_mem _ member)) (i32_i32 (ret + 1))
      rw [putsText, if_neg (nonzero c List.mem_cons_self), later, i32_add, List.length_cons]
      congr 1
      omega

/-- A 0 ends the text. -/
theorem putsText_terminated (ret : Int) (text : List UInt8) (sent : Uart) :
    putsText ret (text ++ [0]) sent = putsText ret text sent := by
  induction text generalizing ret sent with
  | nil => rfl
  | cons c rest inductionHypothesis =>
      rw [List.cons_append, putsText, putsText, inductionHypothesis]

/-- ASCII characters are sent from the last one down. -/
theorem flush_ascii {buffer : List UInt8} (ascii : ∀ c ∈ buffer, c ≤ 127) {i : Nat}
    (inside : i ≤ buffer.length) (sent : Uart) :
    flush buffer i sent = sent ++ (buffer.take i).reverse := by
  induction i generalizing sent with
  | zero => rw [flush, List.take_zero, List.reverse_nil, List.append_nil]
  | succ i inductionHypothesis =>
      have here : buffer.getD i 0 = buffer[i] := List.getD_eq_getElem buffer 0 (by omega)
      rw [flush, here, putchar_ascii (ascii _ (List.getElem_mem _)), inductionHypothesis (by omega),
        List.take_succ_eq_append_getElem (by omega), List.reverse_append, List.append_assoc]
      rfl

/-! ### Directives -/

/-- A directive of `printf` for an integer. -/
inductive Conversion where
  | d
  | x
  | upperX
  | ld
  | lu
  | lx
  | upperLx
deriving DecidableEq, Repr

/-- A directive of `printf`: a string, or an integer. -/
inductive Directive where
  | s
  | integer (conversion : Conversion)
deriving DecidableEq, Repr

/-- The cases of `switch (*(p + 2))`, behind `%l`. -/
def longCase (c : UInt8) : Option Conversion :=
  if c = chr 'x' then some .lx
  else if c = chr 'X' then some .upperLx
  else if c = chr 'd' then some .ld
  else if c = chr 'u' then some .lu
  else none

/-- The cases of `switch (*(p + 1))`; `none` is its default. -/
def shortCase (c : UInt8) : Option Directive :=
  if c = chr 'd' then some (.integer .d)
  else if c = chr 's' then some .s
  else if c = chr 'x' then some (.integer .x)
  else if c = chr 'X' then some (.integer .upperX)
  else none

/-- `va_arg` in the type of the case, and the call of its converter. -/
def convert (conversion : Conversion) (arg : Nat) (sent : Uart) : Int × Uart :=
  match conversion with
  | .d => printd (i32 arg) sent
  | .x => printx (i32 arg) false sent
  | .upperX => printx (i32 arg) true sent
  | .ld => printld (i64 arg) sent
  | .lu => printlu (u64 arg) sent
  | .lx => printlx (i64 arg) false sent
  | .upperLx => printlx (i64 arg) true sent

/-! ### `printf` -/

/-- What a call of `printf` reads: memory, the 64-bit slots of its variable
arguments, and `mmu_enabled`. -/
structure Call where
  mem : Memory
  args : Nat → Nat
  mmuEnabled : Bool

/-- Where a call stands: before `pthread_spin_lock`, at the head of the loop over
the format, at the head of the loop of `__puts`, or behind the loops. -/
inductive Point where
  | lock
  | format
  | puts (str : Nat) (count : Int)
  | unlock
  | returned
deriving DecidableEq, Repr

/-- The state of a call of `printf`: `ap` counts the arguments taken. -/
structure Printf where
  point : Point
  printLock : Nat
  p : Nat
  ap : Nat
  sent : Uart
  ret : Int
deriving DecidableEq, Repr

/-- The case of a conversion whose directive has `length` characters. -/
def Printf.converted (s : Printf) (call : Call) (conversion : Conversion) (length : Nat) : Printf :=
  let printed := convert conversion (call.args s.ap) s.sent
  { s with
    p := s.p + length
    ap := s.ap + 1
    sent := printed.2
    ret := i32 (s.ret + printed.1) }

/-- One iteration of the loop over the format, as far as the loop of `__puts`. -/
def Printf.iteration (s : Printf) (call : Call) : Printf :=
  if call.mem s.p = 0 then { s with point := .unlock }
  else if call.mem s.p = chr '%' then
    if call.mem (s.p + 1) = chr 'l' then
      match longCase (call.mem (s.p + 2)) with
      | some conversion => s.converted call conversion 3
      | none => s
    else
      match shortCase (call.mem (s.p + 1)) with
      | some (.integer conversion) => s.converted call conversion 2
      | some .s => { s with point := .puts (u64 (call.args s.ap)) 0, ap := s.ap + 1 }
      | none => { s with p := s.p + 1 }
  else
    { s with p := s.p + 1, sent := (putchar (call.mem s.p) s.sent).2, ret := i32 (s.ret + 1) }

/-- One step of a call; a lock that is held is tried again. -/
def Printf.step (call : Call) (s : Printf) : Option Printf :=
  match s.point with
  | .lock =>
      if call.mmuEnabled then
        if s.printLock = 0 then some { s with point := .format, printLock := 1 } else some s
      else some { s with point := .format }
  | .format => some (s.iteration call)
  | .puts str count =>
      if call.mem str = 0 then
        some { s with point := .format, p := s.p + 2, ret := i32 (s.ret + count) }
      else
        some { s with
          point := .puts (str + 1) (i32 (count + 1))
          sent := (putchar (call.mem str) s.sent).2 }
  | .unlock =>
      some { s with point := .returned, printLock := if call.mmuEnabled then 0 else s.printLock }
  | .returned => none

/-- `printf(fmt, ...)` is called while no one holds `print_lock`. -/
def Printf.start (fmt : Nat) : Printf := ⟨.lock, 0, fmt, 0, [], 0⟩

end UniKernel.Stdio
