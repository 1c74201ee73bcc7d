import Mathlib.Algebra.Ring.Nat
import Mathlib.Data.List.Basic

/-!
Owns first fit: the lowest run of `count` free slots among the first `total`, and
what a single pass over the slots knows that counts the free ones in a row.
Nothing here names the kernel.
-/

namespace UniKernel.Lib

/-- The `count` slots from `start` on are free and among the first `total`. -/
def Fits (free : Nat → Prop) (total count start : Nat) : Prop :=
  start + count ≤ total ∧ ∀ offset, offset < count → free (start + offset)

instance (free : Nat → Prop) [DecidablePred free] (total count start : Nat) :
    Decidable (Fits free total count start) :=
  inferInstanceAs (Decidable (_ ∧ ∀ offset, offset < count → _))

/-- The lowest slot from which `count` slots are free. -/
def firstFit (free : Nat → Prop) [DecidablePred free] (total count : Nat) : Option Nat :=
  if count = 0 then none else (List.range total).find? fun start => Fits free total count start

variable {free free' : Nat → Prop} [DecidablePred free] [DecidablePred free']
  {total count start : Nat}

theorem firstFit_eq_some_iff (positive : count ≠ 0) :
    firstFit free total count = some start ↔
      Fits free total count start ∧ ∀ earlier, earlier < start → ¬ Fits free total count earlier := by
  rw [firstFit, if_neg positive, List.find?_range_eq_some]
  constructor
  · rintro ⟨fits, -, none⟩
    exact ⟨by simpa using fits, fun earlier below => by simpa using none earlier below⟩
  · rintro ⟨fits, none⟩
    have inside : start < total := by
      have bound := fits.1
      omega
    exact ⟨by simpa using fits, List.mem_range.mpr inside, fun earlier below => by simpa using none earlier below⟩

theorem firstFit_eq_none_iff (positive : count ≠ 0) :
    firstFit free total count = none ↔ ∀ start, ¬ Fits free total count start := by
  rw [firstFit, if_neg positive, List.find?_range_eq_none]
  constructor
  · intro none start fits
    have bound := fits.1
    have absent := none start (by omega)
    simp [fits] at absent
  · intro none start below
    simpa using none start

theorem fits_of_firstFit (found : firstFit free total count = some start) :
    count ≠ 0 ∧ Fits free total count start := by
  have positive : count ≠ 0 := by
    intro isZero
    rw [firstFit, if_pos isZero] at found
    cases found
  exact ⟨positive, ((firstFit_eq_some_iff positive).mp found).1⟩

omit [DecidablePred free] [DecidablePred free'] in
/-- Only the first `total` slots matter. -/
theorem fits_congr (same : ∀ slot, slot < total → (free slot ↔ free' slot)) (count start : Nat) :
    Fits free total count start ↔ Fits free' total count start := by
  apply and_congr_right
  intro bound
  exact forall_congr' fun offset => imp_congr_right fun below => same _ (by omega)

theorem firstFit_congr (same : ∀ slot, slot < total → (free slot ↔ free' slot)) (count : Nat) :
    firstFit free total count = firstFit free' total count := by
  have sameSearch : (fun start => decide (Fits free total count start)) =
      fun start => decide (Fits free' total count start) :=
    funext fun start => decide_eq_decide.mpr (fits_congr same count start)
  rw [firstFit, firstFit, sameSearch]

/-! ### One pass -/

/-- A pass over the first `seen` slots: the last `run` of them are free, fewer than
`count`, and begin at `first`; no run of `count` free slots begins before them. -/
structure Scanned (free : Nat → Prop) (total count seen run first : Nat) : Prop where
  le : run ≤ seen
  short : run < count
  begins : run ≠ 0 → first + run = seen
  isFree : ∀ slot, seen ≤ slot + run → slot < seen → free slot
  noEarlier : ∀ start, start + run < seen → ¬ Fits free total count start

namespace Scanned

omit [DecidablePred free]

variable {seen run first : Nat}

theorem zero (positive : count ≠ 0) (first : Nat) : Scanned free total count 0 0 first where
  le := Nat.le_refl 0
  short := Nat.pos_of_ne_zero positive
  begins := fun nonzero => absurd rfl nonzero
  isFree := fun slot _ below => absurd below (Nat.not_lt_zero slot)
  noEarlier := fun _ below => absurd below (Nat.not_lt_zero _)

/-- Where the run begins once the next slot is free as well. -/
theorem begins_next (scan : Scanned free total count seen run first) :
    (if run = 0 then seen else first) + run = seen := by
  split
  · next isZero => omega
  · next nonzero => exact scan.begins nonzero

theorem isFree_next (scan : Scanned free total count seen run first) (nextFree : free seen) :
    ∀ slot, seen + 1 ≤ slot + (run + 1) → slot < seen + 1 → free slot := by
  intro slot above below
  by_cases last : slot = seen
  · rw [last]
    exact nextFree
  · exact scan.isFree slot (by omega) (by omega)

/-- A free slot that does not complete the run. -/
theorem extend (scan : Scanned free total count seen run first) (nextFree : free seen)
    (incomplete : run + 1 ≠ count) :
    Scanned free total count (seen + 1) (run + 1) (if run = 0 then seen else first) where
  le := Nat.succ_le_succ scan.le
  short := by
    have short := scan.short
    omega
  begins := by
    intro _
    have begins := scan.begins_next
    omega
  isFree := scan.isFree_next nextFree
  noEarlier := fun start earlier => scan.noEarlier start (by omega)

/-- A slot that is not free: a run that contains it does not fit. -/
theorem reset (scan : Scanned free total count seen run first) (used : ¬ free seen) (first' : Nat) :
    Scanned free total count (seen + 1) 0 first' where
  le := Nat.zero_le _
  short := Nat.lt_of_le_of_lt (Nat.zero_le run) scan.short
  begins := fun nonzero => absurd rfl nonzero
  isFree := by
    intro slot above below
    omega
  noEarlier := by
    intro start earlier fits
    by_cases before : start + run < seen
    · exact scan.noEarlier start before fits
    · have short := scan.short
      have isFree := fits.2 (seen - start) (by omega)
      rw [show start + (seen - start) = seen by omega] at isFree
      exact used isFree

end Scanned

/-- A free slot that completes the run: the run is the first fit. -/
theorem Scanned.complete {seen run first : Nat} (scan : Scanned free total count seen run first)
    (nextFree : free seen) (inside : seen < total) (complete : run + 1 = count) :
    firstFit free total count = some (if run = 0 then seen else first) := by
  have begins := scan.begins_next
  rw [firstFit_eq_some_iff (by omega)]
  refine ⟨⟨by omega, ?_⟩, ?_⟩
  · intro offset below
    exact scan.isFree_next nextFree _ (by omega) (by omega)
  · intro earlier below
    exact scan.noEarlier earlier (by omega)

/-- All slots seen without a complete run: nothing fits. -/
theorem Scanned.exhausted {run first : Nat} (scan : Scanned free total count total run first) :
    firstFit free total count = none := by
  have short := scan.short
  rw [firstFit_eq_none_iff (by omega)]
  intro start fits
  by_cases earlier : start + run < total
  · exact scan.noEarlier start earlier fits
  · have bound := fits.1
    omega

end UniKernel.Lib
