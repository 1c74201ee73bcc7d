import Mathlib.Data.List.Basic
import Mathlib.Data.Nat.Find
import Mathlib.Order.Basic

/-!
Owns the maximal runs of a predicate on positions: intervals in which it holds, and
which cannot be made longer. From a position that no run reaches across, they are
found one after the other. Nothing here names the kernel.
-/

namespace UniKernel.Lib

/-- The positions from `first` up to, but not including, `stop` have `P`, and the
ones next to them have not. -/
structure MaximalRun (P : Nat → Prop) (first stop : Nat) : Prop where
  nonempty : first < stop
  inside : ∀ k, first ≤ k → k < stop → P k
  before : first = 0 ∨ ¬ P (first - 1)
  behind : ¬ P stop

/-- The maximal runs from position `start` on, in order. -/
inductive RunsFrom (P : Nat → Prop) : (start : Nat) → List (Nat × Nat) → Prop where
  | none {start : Nat} (noMore : ∀ k, start ≤ k → ¬ P k) : RunsFrom P start []
  | run {start first stop : Nat} {runs : List (Nat × Nat)} (fromStart : start ≤ first)
      (between : ∀ k, start ≤ k → k < first → ¬ P k) (isRun : MaximalRun P first stop)
      (rest : RunsFrom P stop runs) : RunsFrom P start ((first, stop) :: runs)

variable {P : Nat → Prop} {start first stop limit : Nat} {runs : List (Nat × Nat)}

/-- Two maximal runs with a position in common are the same. -/
theorem MaximalRun.eq_of_inside {other otherStop : Nat} (isRun : MaximalRun P first stop)
    (isOther : MaximalRun P other otherStop) (above : first ≤ other) (below : other < stop) :
    other = first ∧ otherStop = stop := by
  have sameFirst : other = first := by
    rcases isOther.before with isZero | absent
    · omega
    · by_contra different
      exact absent (isRun.inside (other - 1) (by omega) (by omega))
  subst sameFirst
  refine ⟨rfl, ?_⟩
  rcases Nat.lt_trichotomy otherStop stop with less | same | more
  · exact absurd (isRun.inside otherStop (Nat.le_of_lt isOther.nonempty) less) isOther.behind
  · exact same
  · exact absurd (isOther.inside stop (Nat.le_of_lt isRun.nonempty) more) isRun.behind

/-- The first position from `start` on that has `P`. -/
theorem exists_first (found : P limit) (below : start ≤ limit) :
    ∃ k, start ≤ k ∧ k ≤ limit ∧ P k ∧ ∀ other, start ≤ other → other < k → ¬ P other := by
  classical
  have exists_offset : ∃ offset, P (start + offset) :=
    ⟨limit - start, by rwa [Nat.add_sub_cancel' below]⟩
  refine ⟨start + Nat.find exists_offset, Nat.le_add_right _ _, ?_, Nat.find_spec exists_offset, ?_⟩
  · have least : Nat.find exists_offset ≤ limit - start :=
      Nat.find_min' exists_offset (by rwa [Nat.add_sub_cancel' below])
    omega
  · intro other above less isHere
    have least : Nat.find exists_offset ≤ other - start :=
      Nat.find_min' exists_offset (by rwa [Nat.add_sub_cancel' above])
    omega

/-- A predicate that does not hold from some position on has a list of runs. -/
theorem exists_runsFrom (bounded : ∀ k, limit ≤ k → ¬ P k)
    (boundary : P start → start = 0 ∨ ¬ P (start - 1)) : ∃ runs, RunsFrom P start runs := by
  induction left : limit - start using Nat.strongRecOn generalizing start with
  | ind n inductionHypothesis =>
      subst left
      by_cases more : ∃ k, start ≤ k ∧ P k
      · rcases more with ⟨k, above, isHere⟩
        rcases exists_first isHere above with ⟨first, fromStart, -, isFirst, between⟩
        have small : first < limit := by
          by_contra large
          exact bounded first (Nat.not_lt.mp large) isFirst
        have ends : ¬ P limit := bounded limit (Nat.le_refl limit)
        rcases exists_first (P := fun k => ¬ P k) ends (Nat.le_of_lt small) with
          ⟨stop, above', -, isStop, inside⟩
        have nonempty : first < stop := by
          rcases Nat.lt_or_eq_of_le above' with less | same
          · exact less
          · exact absurd (same ▸ isFirst) isStop
        have before : first = 0 ∨ ¬ P (first - 1) := by
          rcases Nat.lt_or_eq_of_le fromStart with less | same
          · exact Or.inr (between (first - 1) (by omega) (by omega))
          · subst same
            exact boundary isFirst
        rcases inductionHypothesis (limit - stop) (by omega)
          (fun isHere => absurd isHere isStop) rfl with ⟨runs, rest⟩
        refine ⟨_, .run fromStart between ⟨nonempty, ?_, before, isStop⟩ rest⟩
        intro k above below
        exact Classical.not_not.mp (inside k above below)
      · exact ⟨[], .none fun k above isHere => more ⟨k, above, isHere⟩⟩

namespace RunsFrom

/-- Where `P` does not hold, no run starts. -/
theorem skip (runsFrom : RunsFrom P start runs) (absent : ¬ P start) :
    RunsFrom P (start + 1) runs := by
  cases runsFrom with
  | none noMore => exact .none fun k above => noMore k (Nat.le_of_succ_le above)
  | @run _ first stop _ fromStart between isRun rest =>
      have later : start ≠ first := by
        rintro rfl
        exact absent (isRun.inside start (Nat.le_refl start) isRun.nonempty)
      exact .run (by omega) (fun k above => between k (Nat.le_of_succ_le above)) isRun rest

/-- The list has the maximal runs and nothing else. -/
theorem mem_iff (runsFrom : RunsFrom P start runs) :
    (first, stop) ∈ runs ↔ MaximalRun P first stop ∧ start ≤ first := by
  induction runsFrom with
  | none noMore =>
      refine iff_of_false List.not_mem_nil ?_
      rintro ⟨isRun, above⟩
      exact noMore first above (isRun.inside first (Nat.le_refl first) isRun.nonempty)
  | @run start head headStop runs fromStart between isRun rest inductionHypothesis =>
      rw [List.mem_cons, inductionHypothesis, Prod.mk.injEq]
      constructor
      · rintro (⟨rfl, rfl⟩ | ⟨other, above⟩)
        · exact ⟨isRun, fromStart⟩
        · have nonempty := isRun.nonempty
          exact ⟨other, by omega⟩
      · rintro ⟨other, above⟩
        by_cases below : headStop ≤ first
        · exact Or.inr ⟨other, below⟩
        · have inFirst : head ≤ first := by
            by_contra early
            exact between first above (Nat.not_le.mp early)
              (other.inside first (Nat.le_refl first) other.nonempty)
          exact Or.inl (isRun.eq_of_inside other inFirst (Nat.not_le.mp below))

/-- The runs are in order, with a position between two of them. -/
theorem pairwise (runsFrom : RunsFrom P start runs) :
    runs.Pairwise fun run later => run.2 < later.1 := by
  induction runsFrom with
  | none noMore => exact List.Pairwise.nil
  | @run start first stop runs fromStart between isRun rest inductionHypothesis =>
      refine List.Pairwise.cons ?_ inductionHypothesis
      rintro ⟨later, laterStop⟩ member
      rcases rest.mem_iff.mp member with ⟨isLater, above⟩
      have different : stop ≠ later := by
        rintro rfl
        exact isRun.behind (isLater.inside stop (Nat.le_refl stop) isLater.nonempty)
      exact Nat.lt_of_le_of_ne above different

end RunsFrom

end UniKernel.Lib
