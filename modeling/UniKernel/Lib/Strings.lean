import Mathlib.Data.List.GetD
import UniKernel.Lib.Memory

/-!
Owns strings in memory that a zero byte ends. Nothing here names the kernel.
-/

namespace UniKernel.Lib

/-- The bytes of `text`, none of them 0, lie at `addr`, and a 0 behind them. -/
def IsString (mem : Memory) : (addr : Nat) → (text : List UInt8) → Prop
  | addr, [] => mem addr = 0
  | addr, c :: rest => mem addr = c ∧ c ≠ 0 ∧ IsString mem (addr + 1) rest

instance decidableIsString (mem : Memory) :
    (addr : Nat) → (text : List UInt8) → Decidable (IsString mem addr text)
  | addr, [] => inferInstanceAs (Decidable (mem addr = 0))
  | addr, c :: rest =>
      have := decidableIsString mem (addr + 1) rest
      inferInstanceAs (Decidable (mem addr = c ∧ c ≠ 0 ∧ IsString mem (addr + 1) rest))

namespace IsString

variable {mem : Memory} {addr : Nat} {c : UInt8} {text front back : List UInt8}

theorem head (string : IsString mem addr (c :: text)) : mem addr = c := string.1

theorem tail (string : IsString mem addr (c :: text)) : IsString mem (addr + 1) text := string.2.2

/-- The character of the text at each place, and the 0 behind it. -/
theorem apply (string : IsString mem addr text) {k : Nat} (inside : k ≤ text.length) :
    mem (addr + k) = text.getD k 0 := by
  induction text generalizing addr k with
  | nil =>
      rw [Nat.le_zero.mp inside]
      exact string
  | cons c rest inductionHypothesis =>
      cases k with
      | zero => exact string.head
      | succ k =>
          have later := inductionHypothesis string.tail (Nat.le_of_succ_le_succ inside)
          rwa [Nat.add_assoc, Nat.add_comm 1 k] at later

/-- Memory that agrees on a string holds it as well. -/
theorem congr {other : Memory} (string : IsString mem addr text)
    (same : ∀ k ≤ text.length, other (addr + k) = mem (addr + k)) : IsString other addr text := by
  induction text generalizing addr with
  | nil => exact (same 0 (Nat.le_refl 0)).trans string
  | cons c rest inductionHypothesis =>
      rcases string with ⟨isChar, nonzero, tail⟩
      refine ⟨(same 0 (Nat.zero_le _)).trans isChar, nonzero, inductionHypothesis tail ?_⟩
      intro k inside
      have shifted := same (k + 1) (Nat.succ_le_succ inside)
      rwa [Nat.add_comm k 1, ← Nat.add_assoc] at shifted

/-- A byte beside a string can change. -/
theorem update {other : Nat} {value : UInt8} (string : IsString mem addr text)
    (apart : other < addr ∨ addr + text.length < other) :
    IsString (Function.update mem other value) addr text := by
  apply string.congr
  intro k inside
  exact Function.update_of_ne (by omega) _ _

/-- The end of a string is a string. -/
theorem drop (string : IsString mem addr text) {k : Nat} (inside : k ≤ text.length) :
    IsString mem (addr + k) (text.drop k) := by
  induction text generalizing addr k with
  | nil =>
      rw [Nat.le_zero.mp inside]
      exact string
  | cons c rest inductionHypothesis =>
      cases k with
      | zero => exact string
      | succ k =>
          have later := inductionHypothesis string.tail (Nat.le_of_succ_le_succ inside)
          rwa [Nat.add_assoc, Nat.add_comm 1 k] at later

/-- A 0 behind the start of a string ends it there. -/
theorem take {other : Memory} (string : IsString mem addr text) {k : Nat} (inside : k ≤ text.length)
    (same : ∀ i < k, other (addr + i) = mem (addr + i)) (ended : other (addr + k) = 0) :
    IsString other addr (text.take k) := by
  induction k generalizing addr text with
  | zero =>
      rw [List.take_zero]
      exact ended
  | succ k inductionHypothesis =>
      cases text with
      | nil => cases inside
      | cons c rest =>
          rcases string with ⟨isChar, nonzero, tail⟩
          refine ⟨(same 0 (Nat.zero_lt_succ k)).trans isChar, nonzero,
            inductionHypothesis tail (Nat.le_of_succ_le_succ inside) ?_ ?_⟩
          · intro i below
            have shifted := same (i + 1) (Nat.succ_lt_succ below)
            rwa [Nat.add_comm i 1, ← Nat.add_assoc] at shifted
          · rwa [Nat.add_comm k 1, ← Nat.add_assoc] at ended

/-- A string by its bytes. -/
theorem of_apply (bytes : ∀ k ≤ text.length, mem (addr + k) = text.getD k 0)
    (nonzero : ∀ c ∈ text, c ≠ 0) : IsString mem addr text := by
  induction text generalizing addr with
  | nil => exact bytes 0 (Nat.le_refl 0)
  | cons c rest inductionHypothesis =>
      refine ⟨bytes 0 (Nat.zero_le _), nonzero c List.mem_cons_self, inductionHypothesis ?_ ?_⟩
      · intro k inside
        have shifted := bytes (k + 1) (Nat.succ_le_succ inside)
        rwa [Nat.add_comm k 1, ← Nat.add_assoc, Nat.add_comm 1 k, List.getD_cons_succ] at shifted
      · exact fun other member => nonzero other (List.mem_cons_of_mem c member)

/-- A string behind the characters of another one. -/
theorem append {other : Memory} (string : IsString mem addr front)
    (same : ∀ k < front.length, other (addr + k) = mem (addr + k))
    (behind : IsString other (addr + front.length) back) : IsString other addr (front ++ back) := by
  induction front generalizing addr with
  | nil => exact behind
  | cons c rest inductionHypothesis =>
      rcases string with ⟨isChar, nonzero, tail⟩
      refine ⟨(same 0 (Nat.zero_lt_succ _)).trans isChar, nonzero, inductionHypothesis tail ?_ ?_⟩
      · intro k below
        have shifted := same (k + 1) (Nat.succ_lt_succ below)
        rwa [Nat.add_comm k 1, ← Nat.add_assoc] at shifted
      · rwa [List.length_cons, Nat.add_comm rest.length 1, ← Nat.add_assoc] at behind

theorem nonzero (string : IsString mem addr text) (member : c ∈ text) : c ≠ 0 := by
  induction text generalizing addr with
  | nil => cases member
  | cons first rest inductionHypothesis =>
      rcases List.mem_cons.mp member with rfl | later
      · exact string.2.1
      · exact inductionHypothesis string.tail later

end IsString

/-- The first `n` bytes at `addr` are those of `text`, as far as the 0 behind it. -/
def IsSource (mem : Memory) : (n addr : Nat) → (text : List UInt8) → Prop
  | 0, _, _ => True
  | _ + 1, addr, [] => mem addr = 0
  | n + 1, addr, c :: rest => mem addr = c ∧ c ≠ 0 ∧ IsSource mem n (addr + 1) rest

namespace IsSource

variable {mem : Memory} {n addr : Nat} {text : List UInt8}

theorem congr {other : Memory} (source : IsSource mem n addr text)
    (same : ∀ k < min n (text.length + 1), other (addr + k) = mem (addr + k)) :
    IsSource other n addr text := by
  induction n generalizing addr text with
  | zero => trivial
  | succ n inductionHypothesis =>
      cases text with
      | nil => exact (same 0 (by simp)).trans source
      | cons c rest =>
          rcases source with ⟨isChar, nonzero, later⟩
          refine ⟨(same 0 (by simp)).trans isChar, nonzero, inductionHypothesis later ?_⟩
          intro k below
          have shifted := same (k + 1) (by rw [List.length_cons]; omega)
          rwa [Nat.add_comm k 1, ← Nat.add_assoc] at shifted

/-- A byte beside a source can change. -/
theorem update {other : Nat} {value : UInt8} (source : IsSource mem n addr text)
    (apart : other < addr ∨ addr + min n (text.length + 1) ≤ other) :
    IsSource (Function.update mem other value) n addr text := by
  apply source.congr
  intro k below
  exact Function.update_of_ne (by omega) _ _

end IsSource

theorem IsString.source {mem : Memory} {addr : Nat} {text : List UInt8}
    (string : IsString mem addr text) (n : Nat) : IsSource mem n addr text := by
  induction n generalizing addr text with
  | zero => trivial
  | succ n inductionHypothesis =>
      cases text with
      | nil => exact string
      | cons c rest => exact ⟨string.1, string.2.1, inductionHypothesis string.2.2⟩

/-- Memory with a text at address 0. -/
def textMemory (text : List UInt8) : Memory := fun addr => text.getD addr 0

theorem isString_textMemory {text : List UInt8} (nonzero : ∀ c ∈ text, c ≠ 0) :
    IsString (textMemory text) 0 text := by
  have from_suffix : ∀ front back, text = front ++ back →
      IsString (textMemory text) front.length back := by
    intro front back isText
    induction back generalizing front with
    | nil =>
        rw [List.append_nil] at isText
        rw [IsString, textMemory, isText, List.getD_eq_default _ _ (Nat.le_refl _)]
    | cons c rest inductionHypothesis =>
        refine ⟨?_, nonzero c (by rw [isText]; simp), ?_⟩
        · simp [textMemory, isText]
        · have shifted := inductionHypothesis (front ++ [c]) (by rw [isText]; simp)
          rwa [List.length_append] at shifted
  exact from_suffix [] text rfl

end UniKernel.Lib
