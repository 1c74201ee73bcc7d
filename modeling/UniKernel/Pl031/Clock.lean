import UniKernel.Lib.Rescale
import UniKernel.Lib.Words

/-!
Owns the clock of `src/pl031.c`: the time since boot as seconds and nanoseconds of the
counter, and the time of day, which adds the seconds that the PL031 showed at boot.
The registers are what the functions read.
-/

namespace UniKernel.Pl031

open UniKernel.Lib

/-- `pl031` -/
def pl031 : Nat := 0x09010000

/-- The variables `boot_epoch` and `boot_time`. -/
structure State where
  bootEpoch : Nat
  bootTime : Nat
deriving DecidableEq, Repr

/-- The values of `cntpct_el0` and `cntfrq_el0`. -/
structure Counter where
  now : Nat
  frq : Nat
deriving DecidableEq, Repr

/-- `pl031_init_time`, with the value of the data register. -/
def pl031InitTime (dr : Nat) (s : State) : State :=
  if pl031 ≠ 0 then { s with bootEpoch := u32 dr } else s

/-- `now - boot_time` -/
def elapsed (s : State) (counter : Counter) : Nat := u64 (counter.now + (2 ^ 64 - s.bootTime))

/-- `*sec` and `*nsec`. -/
def getMonotonicTime (s : State) (counter : Counter) : Nat × Nat :=
  (elapsed s counter / counter.frq,
    u64 (elapsed s counter % counter.frq * 1000000000) / counter.frq)

def getRealtime (s : State) (counter : Counter) : Nat × Nat :=
  let (monoSec, monoNsec) := getMonotonicTime s counter
  (u64 (s.bootEpoch + monoSec), monoNsec)

/-! ### One reading -/

/-- A reading of the counter that is not before boot. -/
structure Counter.Reads (counter : Counter) (s : State) : Prop where
  afterBoot : s.bootTime ≤ counter.now
  inRange : counter.now < 2 ^ 64
  positive : 0 < counter.frq
  small : counter.frq < 2 ^ 32

/-- The time since boot is exact, and the time of day is `boot_epoch` seconds more
exactly as long as that is a 64-bit number. -/
structure Exact (s : State) (counter : Counter) : Prop where
  noOverflow : elapsed s counter % counter.frq * 1000000000 < 2 ^ 64
  total : (getMonotonicTime s counter).1 * 10 ^ 9 + (getMonotonicTime s counter).2 =
    (counter.now - s.bootTime) * 10 ^ 9 / counter.frq
  below : (getMonotonicTime s counter).2 < 10 ^ 9
  realtime : getRealtime s counter =
    (u64 (s.bootEpoch + (getMonotonicTime s counter).1), (getMonotonicTime s counter).2)
  ofDay : (getRealtime s counter).1 = s.bootEpoch + (getMonotonicTime s counter).1 ↔
    s.bootEpoch + (getMonotonicTime s counter).1 < 2 ^ 64

variable {s : State} {counter counter₁ counter₂ : Counter}

namespace Counter.Reads

theorem elapsed_eq (reads : counter.Reads s) : elapsed s counter = counter.now - s.bootTime := by
  have afterBoot := reads.afterBoot
  have inRange := reads.inRange
  unfold elapsed u64
  omega

/-- A remainder is below 2 ^ 32, so its nanoseconds times the rate fit. -/
theorem product_lt (reads : counter.Reads s) :
    elapsed s counter % counter.frq * 1000000000 < 2 ^ 64 := by
  have remainder := Nat.mod_lt (elapsed s counter) reads.positive
  have small := reads.small
  omega

theorem nsec_eq (reads : counter.Reads s) : (getMonotonicTime s counter).2 =
    elapsed s counter % counter.frq * 10 ^ 9 / counter.frq := by
  unfold getMonotonicTime
  rw [u64_of_lt reads.product_lt]
  rfl

theorem total_eq (reads : counter.Reads s) :
    (getMonotonicTime s counter).1 * 10 ^ 9 + (getMonotonicTime s counter).2 =
      (counter.now - s.bootTime) * 10 ^ 9 / counter.frq := by
  rw [reads.nsec_eq, ← reads.elapsed_eq]
  exact rescale_split reads.positive

theorem nsec_lt (reads : counter.Reads s) : (getMonotonicTime s counter).2 < 10 ^ 9 := by
  rw [reads.nsec_eq]
  exact rescale_rest_lt reads.positive (by decide)

theorem exact (reads : counter.Reads s) : Exact s counter where
  noOverflow := reads.product_lt
  total := reads.total_eq
  below := reads.nsec_lt
  realtime := rfl
  ofDay := Nat.mod_eq_iff_lt (by decide)

/-- A later reading of the same counter gives no earlier time. -/
theorem total_le (reads₁ : counter₁.Reads s) (reads₂ : counter₂.Reads s)
    (sameRate : counter₁.frq = counter₂.frq) (later : counter₁.now ≤ counter₂.now) :
    (getMonotonicTime s counter₁).1 * 10 ^ 9 + (getMonotonicTime s counter₁).2 ≤
      (getMonotonicTime s counter₂).1 * 10 ^ 9 + (getMonotonicTime s counter₂).2 := by
  rw [reads₁.total_eq, reads₂.total_eq, sameRate]
  exact rescale_mono (Nat.sub_le_sub_right later _)

end Counter.Reads

/-- Seconds and nanoseconds that are not before others. -/
def NotBefore (earlier later : Nat × Nat) : Prop :=
  earlier.1 < later.1 ∨ earlier.1 = later.1 ∧ earlier.2 ≤ later.2

/-- The times of two readings are exact, and that of the later one is not before the
other. -/
theorem monotonic_time_exact {now₁ now₂ frq : Nat} (afterBoot : s.bootTime ≤ now₁)
    (later : now₁ ≤ now₂) (inRange : now₂ < 2 ^ 64) (positive : 0 < frq) (small : frq < 2 ^ 32) :
    Exact s ⟨now₁, frq⟩ ∧ Exact s ⟨now₂, frq⟩ ∧
      NotBefore (getMonotonicTime s ⟨now₁, frq⟩) (getMonotonicTime s ⟨now₂, frq⟩) := by
  have reads₁ : Counter.Reads ⟨now₁, frq⟩ s :=
    ⟨afterBoot, Nat.lt_of_le_of_lt later inRange, positive, small⟩
  have reads₂ : Counter.Reads ⟨now₂, frq⟩ s :=
    ⟨Nat.le_trans afterBoot later, inRange, positive, small⟩
  refine ⟨reads₁.exact, reads₂.exact, ?_⟩
  exact lex_of_total_le reads₂.nsec_lt (reads₁.total_le reads₂ rfl later)

/-- At 62.5 MHz, two readings before and behind the end of the first second. -/
theorem monotonic_time_exact_second :
    Exact ⟨1000, 0⟩ ⟨62499999, 62500000⟩ ∧ Exact ⟨1000, 0⟩ ⟨62500001, 62500000⟩ ∧
      NotBefore (getMonotonicTime ⟨1000, 0⟩ ⟨62499999, 62500000⟩)
        (getMonotonicTime ⟨1000, 0⟩ ⟨62500001, 62500000⟩) :=
  monotonic_time_exact (by decide) (by decide) (by decide) (by decide) (by decide)

/-- At 1 Hz the seconds since boot can be so many that adding the time of boot wraps. -/
theorem exists_realtime_wraps : ∃ (s : State) (counter : Counter), s = pl031InitTime 1 ⟨0, 0⟩ ∧
    counter.Reads s ∧
      (getRealtime s counter).1 ≠ s.bootEpoch + (getMonotonicTime s counter).1 := by
  refine ⟨⟨1, 0⟩, ⟨2 ^ 64 - 1, 1⟩, by decide, ?_, by decide⟩
  exact ⟨by decide, by decide, by decide, by decide⟩

end UniKernel.Pl031
