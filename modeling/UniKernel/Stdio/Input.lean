import UniKernel.Stdio.Model
import UniKernel.Stdlib.Atoi

/-!
Owns the input half of `src/stdio.c`: `getchar`, `gets`, `scand` and `scanf`, as a
machine whose steps are the iterations of their loops. A call goes no further when
it is about to write outside `buf`, or has used a byte of `buf` that was never
written. What is stored through the pointers of a call is a list, in order.
-/

namespace UniKernel.Stdio

open UniKernel.Lib UniKernel.Stdlib

/-- The characters at which `gets` stops. -/
abbrev EndsLine (c : UInt8) : Prop := c = chr '\n' ∨ c = chr '\r'

/-- A character that has come in, what comes in behind it, and the echo; `none`
while nothing has. -/
def getchar (sent : Uart) : (input : List UInt8) → Option (UInt8 × List UInt8 × Uart)
  | [] => none
  | c :: input => some (c, input, (putchar c sent).2)

/-- The size of `buf` in `scand`. -/
def bufSize : Nat := 64

/-- Where a call stands: before `pthread_spin_lock`, at the head of the loop over
the format, at the head of the loop of `gets`, at the `atoi` of `scand`, or behind
the loop. A call that is undefined goes no further. -/
inductive ScanfPoint where
  | lock
  | format
  | gets (num i : Nat)
  | atoi (num : Nat)
  | unlock
  | returned
  | outside
  | unwritten
deriving DecidableEq, Repr

/-- The state of a call of `scanf`: `ap` counts the arguments taken. -/
structure Scanf where
  point : ScanfPoint
  readLock : Nat
  p : Nat
  ap : Nat
  input : List UInt8
  sent : Uart
  buf : Cells
  stored : List (Nat × Int)
  ret : Int
deriving DecidableEq, Repr

/-- `str[i] = c`, and on to the next point. -/
def Scanf.write (s : Scanf) (i : Nat) (c : UInt8) (next : ScanfPoint) : Scanf :=
  if i < bufSize then { s with point := next, buf := s.buf.set i (some c) }
  else { s with point := .outside }

/-- One iteration of the loop over the format, as far as the loop of `gets`. There
is no case behind `%` for another character than d. -/
def Scanf.iteration (s : Scanf) (call : Call) : Scanf :=
  if call.mem s.p = 0 then { s with point := .unlock }
  else if call.mem s.p = chr '%' then
    if call.mem (s.p + 1) = chr 'l' then s
    else if call.mem (s.p + 1) = chr 'd' then
      { s with
        point := .gets (u64 (call.args s.ap)) 0
        ap := s.ap + 1
        buf := List.replicate bufSize none }
    else s
  else { s with p := s.p + 1 }

/-- One iteration of the loop of `gets`, which waits for a character. An empty line
leaves `str` as it was. -/
def Scanf.getsIteration (s : Scanf) (num i : Nat) : Scanf :=
  match getchar s.sent s.input with
  | none => s
  | some (c, input, sent) =>
      let s := { s with input := input, sent := sent }
      if EndsLine c then
        if i = 0 then { s with point := .atoi num } else s.write i 0 (.atoi num)
      else s.write i c (.gets num (u32 (i + 1)))

/-- One step of a call; a lock that is held is tried again. -/
def Scanf.step (call : Call) (s : Scanf) : Option Scanf :=
  match s.point with
  | .lock =>
      if call.mmuEnabled then
        if s.readLock = 0 then some { s with point := .format, readLock := 1 } else some s
      else some { s with point := .format }
  | .format => some (s.iteration call)
  | .gets num i => some (s.getsIteration num i)
  | .atoi num =>
      match atoi (some s.buf) with
      | some value =>
          some { s with
            point := .format
            p := s.p + 2
            stored := s.stored ++ [(num, value)]
            ret := i32 (s.ret + 1) }
      | none => some { s with point := .unwritten }
  | .unlock =>
      some { s with point := .returned, readLock := if call.mmuEnabled then 0 else s.readLock }
  | .returned | .outside | .unwritten => none

/-- `scanf(format, ...)` is called while no one holds `read_lock`. -/
def Scanf.start (format : Nat) (input : List UInt8) : Scanf :=
  ⟨.lock, 0, format, 0, input, [], [], [], 0⟩

/-! ### Lines -/

/-- A line of input, with the newline or carriage return that ends it. -/
structure Line where
  text : List UInt8
  ending : UInt8
  plain : ∀ c ∈ text, ¬ EndsLine c
  isEnd : EndsLine ending

/-- The characters of a line, in the order in which they come in. -/
def Line.bytes (line : Line) : List UInt8 := line.text ++ [line.ending]

/-- The value that `atoi` gives for the characters of a line. -/
def Line.value (line : Line) : Int :=
  (atoi (some (stringCells line.text))).get (isSome_atoi line.text)

theorem Line.atoi_eq (line : Line) (behind : Cells) :
    atoi (some (stringCells line.text ++ behind)) = some line.value := by
  rw [atoi_append, Line.value, Option.some_get]

end UniKernel.Stdio
