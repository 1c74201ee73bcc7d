import UniKernel.Lib.Loop
import UniKernel.Lib.Runs
import UniKernel.Lib.Strings

/-!
Owns `strtok_r` of `src/string.c`, with `strchr` inside it, and the calls by which a
client takes the tokens of a string: the first with the string, the others with NULL.
The loops are steps of one machine, so that a step reads one byte of memory at most.
-/

namespace UniKernel.CString

open UniKernel.Lib

/-! ### The calls -/

/-- The loops of `strtok_r`: over the delimiters in front of a token, and over the
token. -/
inductive TokenLoop where
  | delimiters
  | token
deriving DecidableEq, Repr

/-- Where the machine stands: between two calls, at the start of a call, at the head
of a loop, in the loop of `strchr(delim, *str)`, or behind a loop. -/
inductive StrtokPoint where
  | client
  | entry
  | loop (which : TokenLoop)
  | strchr (which : TokenLoop) (c : UInt8) (i : Nat)
  | behind (which : TokenLoop)
deriving DecidableEq, Repr

/-- What the client passes, and how often it calls. -/
structure Client where
  s : Nat
  delim : Nat
  calls : Nat
deriving DecidableEq, Repr

structure Strtok where
  point : StrtokPoint
  mem : Memory
  saveptr : Nat
  str : Nat
  start : Nat
  results : List Nat

/-- `return` -/
def Strtok.returned (t : Strtok) (result : Nat) : Strtok :=
  { t with point := .client, results := t.results ++ [result] }

/-- The condition of a loop, when `strchr` has returned: the first loop goes on if
the character was found, the second one if it was not. -/
def TokenLoop.goesOn : TokenLoop → (found : Bool) → Bool
  | .delimiters, found => found
  | .token, found => !found

/-- Behind `strchr` in the condition of a loop. -/
def Strtok.answered (t : Strtok) (which : TokenLoop) (found : Bool) : Strtok :=
  if which.goesOn found then { t with point := .loop which, str := t.str + 1 }
  else { t with point := .behind which }

/-- One step of a client that calls `strtok_r`. -/
def Strtok.step (client : Client) (t : Strtok) : Option Strtok :=
  match t.point with
  | .client =>
      if t.results.length < client.calls then
        some { t with point := .entry, str := if t.results = [] then client.s else 0 }
      else none
  | .entry =>
      let str := if t.str = 0 then t.saveptr else t.str
      if str = 0 then some (t.returned 0) else some { t with point := .loop .delimiters, str := str }
  | .loop which =>
      if t.mem t.str = 0 then some { t with point := .behind which }
      else some { t with point := .strchr which (t.mem t.str) 0 }
  | .strchr which c i =>
      if t.mem (client.delim + i) = c then some (t.answered which true)
      else if t.mem (client.delim + i) = 0 then some (t.answered which false)
      else some { t with point := .strchr which c (i + 1) }
  | .behind .delimiters =>
      if t.mem t.str = 0 then some (t.returned 0)
      else some { t with point := .loop .token, start := t.str }
  | .behind .token =>
      if t.mem t.str = 0 then some { t.returned t.start with saveptr := t.str }
      else some { t.returned t.start with
        mem := Function.update t.mem t.str 0
        saveptr := t.str + 1 }

/-- The address of the byte that the next step reads; NULL and the pointers have none. -/
def Strtok.reads (client : Client) (t : Strtok) : Option Nat :=
  match t.point with
  | .client | .entry => none
  | .loop _ | .behind _ => some t.str
  | .strchr _ _ i => some (client.delim + i)

/-- The client has not called yet; `saveptr` holds anything. -/
def Strtok.first (mem : Memory) (saveptr : Nat) : Strtok := ⟨.client, mem, saveptr, 0, 0, []⟩

/-! ### Strings and their tokens -/

/-- A string and the string of the delimiters, which do not overlap. -/
structure TokenInput where
  mem : Memory
  s : Nat
  delim : Nat
  text : List UInt8
  delims : List UInt8
  string : IsString mem s text
  delimString : IsString mem delim delims
  apart : s + text.length < delim ∨ delim + delims.length < s
  notNull : s ≠ 0

namespace TokenInput

/-- At position `k` of the text is a character that is no delimiter. -/
def InToken (input : TokenInput) (k : Nat) : Prop := ∃ c ∈ input.text[k]?, c ∉ input.delims

/-- Memory is as it was, but for delimiters of the text that are 0 now. -/
def Modifies (input : TokenInput) (mem : Memory) : Prop :=
  ∀ addr, mem addr = input.mem addr ∨
    mem addr = 0 ∧ ∃ k, addr = input.s + k ∧ ∃ c ∈ input.text[k]?, c ∈ input.delims

/-- The addresses of the text and of the delimiters, with the 0 behind each. -/
def Covers (input : TokenInput) (addr : Nat) : Prop :=
  input.s ≤ addr ∧ addr ≤ input.s + input.text.length ∨
    input.delim ≤ addr ∧ addr ≤ input.delim + input.delims.length

def client (input : TokenInput) (calls : Nat) : Client := ⟨input.s, input.delim, calls⟩

end TokenInput

/-- The next step reads a byte of the strings, and nothing but delimiters has been
modified. -/
structure Confined (input : TokenInput) (calls : Nat) (t : Strtok) : Prop where
  reads : ∀ addr, t.reads (input.client calls) = some addr → input.Covers addr
  modifies : input.Modifies t.mem

end UniKernel.CString
