import UniKernel.Lib.Strings

/-!
Owns memory that remembers which bytes were read and written, and what it means
that exactly the bytes of a text were written from an address on. Nothing here names
the kernel.
-/

namespace UniKernel.Lib

/-- Memory with the addresses read and written so far, in order. -/
structure Tracked where
  mem : Memory
  reads : List Nat
  writes : List Nat

namespace Tracked

/-- Nothing has been read or written yet. -/
def start (mem : Memory) : Tracked := ⟨mem, [], []⟩

def read (t : Tracked) (addr : Nat) : Tracked := { t with reads := t.reads ++ [addr] }

def write (t : Tracked) (addr : Nat) (value : UInt8) : Tracked :=
  { t with mem := Function.update t.mem addr value, writes := t.writes ++ [addr] }

section Fields

variable (t : Tracked) (addr : Nat) (value : UInt8)

@[simp] theorem read_mem : (t.read addr).mem = t.mem := rfl

@[simp] theorem read_reads : (t.read addr).reads = t.reads ++ [addr] := rfl

@[simp] theorem read_writes : (t.read addr).writes = t.writes := rfl

@[simp] theorem write_mem : (t.write addr value).mem = Function.update t.mem addr value := rfl

@[simp] theorem write_reads : (t.write addr value).reads = t.reads := rfl

@[simp] theorem write_writes : (t.write addr value).writes = t.writes ++ [addr] := rfl

end Fields

/-- From `t` to `t'` the bytes of `text` were written from `addr` on, in order, and
nothing else was. -/
structure Wrote (t t' : Tracked) (addr : Nat) (text : List UInt8) : Prop where
  mem : t'.mem = t.mem.storeBytes addr text
  writes : t'.writes = t.writes ++ List.range' addr text.length

namespace Wrote

variable {t t' t'' : Tracked} {addr : Nat} {text rest : List UInt8}

theorem of_same (sameMem : t'.mem = t.mem) (sameWrites : t'.writes = t.writes) :
    Wrote t t' addr [] where
  mem := by
    funext other
    rw [Memory.storeBytes, if_neg (by rw [List.length_nil]; omega), sameMem]
  writes := by simp [sameWrites]

theorem single (value : UInt8) : Wrote t (t.write addr value) addr [value] where
  mem := by
    funext other
    rw [write_mem, Function.update_apply, Memory.storeBytes, List.length_singleton]
    by_cases here : other = addr
    · rw [if_pos here, if_pos (by omega), here, Nat.sub_self]
      rfl
    · rw [if_neg here, if_neg (by omega)]
  writes := rfl

/-- What is read does not matter. -/
theorem of_reads {s : Tracked} (wrote : Wrote s t' addr text) (sameMem : s.mem = t.mem)
    (sameWrites : s.writes = t.writes) : Wrote t t' addr text where
  mem := by rw [wrote.mem, sameMem]
  writes := by rw [wrote.writes, sameWrites]

theorem of_read {other : Nat} (wrote : Wrote (t.read other) t' addr text) : Wrote t t' addr text :=
  wrote.of_reads rfl rfl

theorem trans (first : Wrote t t' addr text) (second : Wrote t' t'' (addr + text.length) rest) :
    Wrote t t'' addr (text ++ rest) where
  mem := by
    funext other
    rw [second.mem, first.mem, Memory.storeBytes, Memory.storeBytes, Memory.storeBytes,
      List.length_append]
    by_cases later : addr + text.length ≤ other ∧ other < addr + text.length + rest.length
    · rw [if_pos later, if_pos (by omega), List.getD_append_right _ _ _ _ (by omega),
        Nat.sub_add_eq]
    · rw [if_neg later]
      by_cases inside : addr ≤ other ∧ other < addr + text.length
      · rw [if_pos inside, if_pos (by omega), List.getD_append _ _ _ _ (by omega)]
      · rw [if_neg inside, if_neg (by omega)]
  writes := by
    rw [second.writes, first.writes, List.append_assoc, List.length_append, List.range'_append_1]

theorem byte (wrote : Wrote t t' addr text) {i : Nat} (inside : i < text.length) :
    t'.mem (addr + i) = text.getD i 0 := by
  rw [wrote.mem, Memory.storeBytes, if_pos (by omega), Nat.add_sub_cancel_left]

theorem outside (wrote : Wrote t t' addr text) {other : Nat}
    (apart : other < addr ∨ addr + text.length ≤ other) : t'.mem other = t.mem other := by
  rw [wrote.mem, Memory.storeBytes, if_neg (by omega)]

theorem mem_writes (wrote : Wrote t t' addr text) {other : Nat} :
    other ∈ t'.writes ↔ other ∈ t.writes ∨ addr ≤ other ∧ other < addr + text.length := by
  rw [wrote.writes, List.mem_append, List.mem_range'_1]

/-- A text is a string where it is written, if a 0 lies behind it. -/
theorem isString (wrote : Wrote t t' addr text) (nonzero : ∀ c ∈ text, c ≠ 0)
    (ended : t'.mem (addr + text.length) = 0) : IsString t'.mem addr text := by
  apply IsString.of_apply _ nonzero
  intro k inside
  rcases Nat.lt_or_eq_of_le inside with below | atEnd
  · exact wrote.byte below
  · rw [atEnd, ended, List.getD_eq_default _ _ (Nat.le_refl _)]

/-- A text that is written with a 0 behind it is a string. -/
theorem isString_of_ended (wrote : Wrote t t' addr (text ++ [0])) (nonzero : ∀ c ∈ text, c ≠ 0) :
    IsString t'.mem addr text := by
  apply IsString.of_apply _ nonzero
  intro k inside
  rw [wrote.byte (by rw [List.length_append, List.length_singleton]; omega)]
  rcases Nat.lt_or_eq_of_le inside with below | atEnd
  · exact List.getD_append _ _ _ _ below
  · rw [atEnd, List.getD_append_right _ _ _ _ (Nat.le_refl _), Nat.sub_self,
      List.getD_eq_default text _ (Nat.le_refl _)]
    rfl

end Wrote

end Tracked

end UniKernel.Lib
