import Mathlib.Algebra.Ring.Nat
import Mathlib.Data.List.Perm.Basic
import Mathlib.Data.Nat.GCD.Basic
import Mathlib.Logic.Function.Basic
import UniKernel.Lib.Words

/-!
Owns ring buffers indexed by free-running 16-bit counters: a ring of `q` slots
in which entry number `n` sits in slot `n mod 2^16 mod q`. `Holds` says that
the slots between two counters hold a list; taking the first entry and
appending a new one are its two operations.

A ring of `q` slots has room for `capacity q` entries, and for a power of two
below `2^16` that is all of its slots. Nothing here names the kernel.
-/

namespace UniKernel.Lib.Ring

open UniKernel.Lib

/-- The slot of the entry with the given (16-bit or unbounded) number. -/
def slot (q number : Nat) : Nat := u16 number % q

/-- How many entries with consecutive numbers have different slots. -/
def capacity (q : Nat) : Nat := min q (2 ^ 16)

/-- The number of entries between two counters. -/
def count (first next : Nat) : Nat := u16 (2 ^ 16 - first + next)

/-- The entries between two counters, as read from the slots. -/
def window {α : Type} (ring : Nat → α) (q first next : Nat) : List α :=
  (List.range (count first next)).map fun i => ring (slot q (first + i))

/-- The slots from counter `first` up to counter `next` hold `entries`. -/
structure Holds {α : Type} (ring : Nat → α) (q first next : Nat) (entries : List α) : Prop where
  firstSmall : first < 2 ^ 16
  next_eq : next = u16 (first + entries.length)
  entry : ∀ i, i < entries.length → some (ring (slot q (first + i))) = entries[i]?
  room : entries.length ≤ capacity q

theorem slot_u16 (q number : Nat) : slot q (u16 number) = slot q number := by
  unfold slot u16
  rw [Nat.mod_mod]

theorem slot_u16_add (q number more : Nat) : slot q (u16 number + more) = slot q (number + more) := by
  unfold slot u16
  rw [Nat.mod_add_mod]

/-- For a power of two the slot is the number modulo the capacity. -/
theorem slot_eq_mod {q exponent : Nat} (power : q = 2 ^ exponent) (number : Nat) :
    slot q number = number % capacity q := by
  unfold slot capacity u16
  rcases Nat.le_total exponent 16 with small | large
  · have divides : q ∣ 2 ^ 16 := by
      rw [power]
      exact Nat.pow_dvd_pow 2 small
    rw [Nat.min_eq_left (Nat.le_of_dvd (by decide) divides), Nat.mod_mod_of_dvd _ divides]
  · have bound : 2 ^ 16 ≤ q := by
      rw [power]
      exact Nat.pow_le_pow_right (by decide) large
    rw [Nat.min_eq_right bound]
    exact Nat.mod_eq_of_lt (Nat.lt_of_lt_of_le (Nat.mod_lt _ (by decide)) bound)

/-- Numbers less than the modulus apart have different remainders. -/
theorem mod_ne {modulus first second : Nat} (ordered : first < second)
    (near : second < first + modulus) : first % modulus ≠ second % modulus := by
  intro same
  have multiple := Nat.dvd_of_mod_eq_zero (Nat.sub_mod_eq_zero_of_mod_eq same.symm)
  have tooFar := Nat.le_of_dvd (by omega) multiple
  omega

/-- Entries less than the capacity apart have different slots. -/
theorem slot_ne {q exponent first second : Nat} (power : q = 2 ^ exponent) (ordered : first < second)
    (near : second < first + capacity q) : slot q first ≠ slot q second := by
  rw [slot_eq_mod power, slot_eq_mod power]
  exact mod_ne ordered near

theorem capacity_pos {q exponent : Nat} (power : q = 2 ^ exponent) : 0 < capacity q := by
  have positive := Nat.two_pow_pos exponent
  unfold capacity
  omega

theorem window_of_count_eq_zero {α : Type} {ring : Nat → α} {q first next : Nat}
    (empty : count first next = 0) : window ring q first next = [] := by
  unfold window
  rw [empty]
  rfl

namespace Holds

variable {α : Type} {ring : Nat → α} {q first next : Nat} {entries rest : List α} {value : α}

theorem nil (ring : Nat → α) (q : Nat) (firstSmall : first < 2 ^ 16) :
    Holds ring q first first [] where
  firstSmall := firstSmall
  next_eq := (u16_of_lt firstSmall).symm
  entry := fun i below => absurd below (Nat.not_lt_zero i)
  room := Nat.zero_le _

theorem nextSmall (holds : Holds ring q first next entries) : next < 2 ^ 16 := by
  rw [holds.next_eq]
  exact u16_lt _

theorem count_eq (holds : Holds ring q first next entries) (short : entries.length < 2 ^ 16) :
    count first next = entries.length := by
  have firstSmall := holds.firstSmall
  rw [holds.next_eq]
  unfold count u16
  omega

/-- The counters differ exactly when there is an entry, as long as the counters
can tell an empty ring from a full one. -/
theorem ne_iff (holds : Holds ring q first next entries) (short : entries.length < 2 ^ 16) :
    first ≠ next ↔ entries ≠ [] := by
  have firstSmall := holds.firstSmall
  have next_eq := holds.next_eq
  unfold u16 at next_eq
  rw [← List.length_pos_iff]
  omega

theorem ne_nil (holds : Holds ring q first next entries) (differ : first ≠ next) :
    entries ≠ [] := by
  rintro rfl
  have next_eq := holds.next_eq
  rw [List.length_nil, Nat.add_zero, u16_of_lt holds.firstSmall] at next_eq
  exact differ next_eq.symm

theorem window_eq (holds : Holds ring q first next entries) (short : entries.length < 2 ^ 16) :
    window ring q first next = entries := by
  unfold window
  rw [holds.count_eq short]
  apply List.ext_getElem?
  intro i
  rcases Nat.lt_or_ge i entries.length with below | above
  · rw [← holds.entry i below]
    simp [below]
  · simp [above]

/-- The first entry is in the slot of the first counter. -/
theorem head (holds : Holds ring q first next (value :: rest)) : ring (slot q first) = value := by
  have entry := holds.entry 0 (by simp)
  simpa using entry

/-- Taking the first entry. -/
theorem tail (holds : Holds ring q first next (value :: rest)) :
    Holds ring q (u16 (first + 1)) next rest where
  firstSmall := u16_lt _
  next_eq := by
    rw [holds.next_eq, List.length_cons]
    unfold u16
    rw [Nat.mod_add_mod]
    congr 1
    omega
  entry := by
    intro i below
    have entry := holds.entry (i + 1) (by simpa using below)
    rw [slot_u16_add, Nat.add_assoc, Nat.add_comm 1 i]
    simpa using entry
  room := Nat.le_trans (Nat.le_succ _) holds.room

/-- No entry sits in the slot of the next counter while there is room. -/
theorem slot_free {exponent : Nat} (holds : Holds ring q first next entries)
    (power : q = 2 ^ exponent) (space : entries.length < capacity q) {i : Nat}
    (below : i < entries.length) : slot q (first + i) ≠ slot q next := by
  rw [holds.next_eq, slot_u16]
  exact slot_ne power (by omega) (by omega)

/-- A write to the slot of the next counter keeps the entries. -/
theorem update {exponent : Nat} (holds : Holds ring q first next entries)
    (power : q = 2 ^ exponent) (space : entries.length < capacity q) (value : α) :
    Holds (Function.update ring (slot q next) value) q first next entries where
  firstSmall := holds.firstSmall
  next_eq := holds.next_eq
  entry := by
    intro i below
    rw [Function.update_of_ne (holds.slot_free power space below)]
    exact holds.entry i below
  room := holds.room

/-- Publishing the entry written to the slot of the next counter. -/
theorem push (holds : Holds ring q first next entries) (space : entries.length < capacity q)
    (written : ring (slot q next) = value) :
    Holds ring q first (u16 (next + 1)) (entries ++ [value]) where
  firstSmall := holds.firstSmall
  next_eq := by
    rw [holds.next_eq, List.length_append, List.length_singleton]
    unfold u16
    rw [Nat.mod_add_mod]
    rfl
  entry := by
    intro i below
    rw [List.length_append, List.length_singleton] at below
    rcases Nat.lt_or_ge i entries.length with early | late
    · rw [List.getElem?_append_left early]
      exact holds.entry i early
    · have last : i = entries.length := by omega
      rw [last, List.getElem?_append_right (Nat.le_refl _), Nat.sub_self, List.getElem?_cons_zero,
        ← written, holds.next_eq, slot_u16]
  room := by
    rw [List.length_append, List.length_singleton]
    exact space

end Holds

section Drain

universe u

variable {σ : Type u}

theorem count_eq_zero_iff {low high : Nat} (lowSmall : low < 2 ^ 16) (highSmall : high < 2 ^ 16) :
    count low high = 0 ↔ low = high := by
  unfold count u16
  omega

theorem count_succ {low high : Nat} (lowSmall : low < 2 ^ 16) (highSmall : high < 2 ^ 16)
    (differ : low ≠ high) : count low high = count (u16 (low + 1)) high + 1 := by
  unfold count u16
  omega

/-- A loop that takes one entry a round, as long as the counters differ, makes as many rounds
as there are entries. -/
theorem loop_eq_iterate (first next : σ → Nat) (once : σ → σ) (loop : Nat → σ → σ)
    (stops : ∀ s, loop 0 s = s)
    (goesOn : ∀ fuel s, loop (fuel + 1) s = if first s = next s then s else loop fuel (once s))
    (takes : ∀ s, first (once s) = u16 (first s + 1)) (keeps : ∀ s, next (once s) = next s)
    {fuel : Nat} {s : σ} (firstSmall : first s < 2 ^ 16) (nextSmall : next s < 2 ^ 16)
    (enough : count (first s) (next s) ≤ fuel) :
    loop fuel s = once^[count (first s) (next s)] s := by
  induction fuel generalizing s with
  | zero =>
      rw [Nat.le_zero.mp enough]
      exact stops s
  | succ fuel inductionHypothesis =>
      rw [goesOn]
      by_cases done : first s = next s
      · rw [if_pos done, (count_eq_zero_iff firstSmall nextSmall).mpr done]
        rfl
      · have rounds : count (first s) (next s) = count (first (once s)) (next (once s)) + 1 := by
          rw [takes, keeps]
          exact count_succ firstSmall nextSmall done
        rw [if_neg done, rounds, Function.iterate_succ_apply]
        apply inductionHypothesis
        · rw [takes]
          exact u16_lt _
        · rw [keeps]
          exact nextSmall
        · omega

/-- A counter that a round raises. -/
theorem counter_iterate (counter : σ → Nat) {once : σ → σ}
    (raises : ∀ s, counter (once s) = u16 (counter s + 1)) (rounds : Nat) {s : σ}
    (small : counter s < 2 ^ 16) :
    counter (once^[rounds] s) = u16 (counter s + rounds) := by
  induction rounds with
  | zero => exact (u16_of_lt small).symm
  | succ rounds inductionHypothesis =>
      rw [Function.iterate_succ_apply', raises, inductionHypothesis]
      unfold u16
      rw [Nat.mod_add_mod, Nat.add_assoc]

theorem kept_iterate {τ : Type u} (kept : σ → τ) {once : σ → σ}
    (keeps : ∀ s, kept (once s) = kept s) (rounds : Nat) (s : σ) : kept (once^[rounds] s) = kept s := by
  induction rounds with
  | zero => rfl
  | succ rounds inductionHypothesis =>
      rw [Function.iterate_succ_apply', keeps, inductionHypothesis]

/-- Behind as many rounds as there are entries the first counter is where the next one was. -/
theorem u16_add_count {low high : Nat} (lowSmall : low < 2 ^ 16) (highSmall : high < 2 ^ 16) :
    u16 (low + count low high) = high := by
  unfold count u16
  omega

end Drain

end UniKernel.Lib.Ring
