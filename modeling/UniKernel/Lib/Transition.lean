import Mathlib.Algebra.Ring.Nat
import Mathlib.Data.List.Basic

/-!
Owns labelled transitions, finite executions and the two rules every invariant
proof of the development uses: an invariant that each allowed step keeps holds
at the end of every allowed execution, and at the source of each of its steps.

Nothing here names the kernel. A step relation is any `σ → ι → σ → Prop`.
-/

namespace UniKernel.Lib

universe u v

/-- One step of an execution together with the states on both of its sides. -/
structure Transition (σ : Type u) (ι : Type v) where
  source : σ
  label : ι
  target : σ

/-- `Execution step first path last`: the transitions of `path` are steps, each
starting where the one before it ended. -/
inductive Execution {σ : Type u} {ι : Type v} (step : σ → ι → σ → Prop) (first : σ) :
    List (Transition σ ι) → σ → Prop where
  | nil : Execution step first [] first
  | snoc {path : List (Transition σ ι)} {middle last : σ} {label : ι}
      (before : Execution step first path middle) (taken : step middle label last) :
      Execution step first (path ++ [⟨middle, label, last⟩]) last

namespace Execution

variable {σ : Type u} {ι : Type v} {step : σ → ι → σ → Prop} {first last : σ}
  {path : List (Transition σ ι)}

/-- Every transition of an execution is a step. -/
theorem step_of_mem (run : Execution step first path last)
    {transition : Transition σ ι} (member : transition ∈ path) :
    step transition.source transition.label transition.target := by
  induction run with
  | nil => cases member
  | snoc before taken inductionHypothesis =>
      rcases List.mem_append.mp member with inPrefix | isLast
      · exact inductionHypothesis inPrefix
      · rw [List.mem_singleton.mp isLast]
        exact taken

/-- The invariant rule for executions whose steps are all `Allowed`. -/
theorem invariant_of_allowed (Allowed : Transition σ ι → Prop) {Inv : σ → Prop}
    (run : Execution step first path last) (start : Inv first)
    (keeps : ∀ source label target, Inv source → step source label target →
      Allowed ⟨source, label, target⟩ → Inv target)
    (allowed : ∀ transition ∈ path, Allowed transition) :
    Inv last := by
  induction run with
  | nil => exact start
  | snoc before taken inductionHypothesis =>
      have earlier := inductionHypothesis fun transition member =>
        allowed transition (List.mem_append_left _ member)
      exact keeps _ _ _ earlier taken (allowed _ (by simp))

/-- Along an allowed execution the invariant holds on both sides of every step. -/
theorem invariant_at_transition (Allowed : Transition σ ι → Prop) {Inv : σ → Prop}
    (run : Execution step first path last) (start : Inv first)
    (keeps : ∀ source label target, Inv source → step source label target →
      Allowed ⟨source, label, target⟩ → Inv target)
    (allowed : ∀ transition ∈ path, Allowed transition) :
    ∀ transition ∈ path, Inv transition.source ∧ Inv transition.target := by
  induction run with
  | nil => simp
  | snoc before taken inductionHypothesis =>
      have allowedBefore : ∀ transition ∈ _, Allowed transition := fun transition member =>
        allowed transition (List.mem_append_left _ member)
      have middleInv := before.invariant_of_allowed Allowed start keeps allowedBefore
      intro transition member
      rcases List.mem_append.mp member with inPrefix | isLast
      · exact inductionHypothesis allowedBefore transition inPrefix
      · rw [List.mem_singleton.mp isLast]
        exact ⟨middleInv, keeps _ _ _ middleInv taken (allowed _ (by simp))⟩

/-- The invariant rule when no step is excluded. -/
theorem invariant {Inv : σ → Prop} (run : Execution step first path last)
    (start : Inv first)
    (keeps : ∀ source label target, Inv source → step source label target → Inv target) :
    Inv last :=
  run.invariant_of_allowed (fun _ => True) start
    (fun source label target holds taken _ => keeps source label target holds taken)
    (fun _ _ => trivial)

/-- Without excluded steps, the invariant holds on both sides of every step. -/
theorem invariant_transitions {Inv : σ → Prop} (run : Execution step first path last)
    (start : Inv first)
    (keeps : ∀ source label target, Inv source → step source label target → Inv target) :
    ∀ transition ∈ path, Inv transition.source ∧ Inv transition.target :=
  run.invariant_at_transition (fun _ => True) start
    (fun source label target holds taken _ => keeps source label target holds taken)
    (fun _ _ => trivial)

/-- The rule for an exact condition: as long as the condition holds the invariant
does, and under the invariant an allowed step is good if and only if it meets the
condition. Then an allowed run is good throughout if and only if it meets it
throughout. -/
theorem forall_good_iff_of_allowed (Allowed : Transition σ ι → Prop) {Inv : σ → Prop}
    {Good Condition : Transition σ ι → Prop} (run : Execution step first path last)
    (start : Inv first)
    (exact : ∀ source label target, Inv source → step source label target →
      Allowed ⟨source, label, target⟩ →
      (Good ⟨source, label, target⟩ ↔ Condition ⟨source, label, target⟩))
    (keeps : ∀ source label target, Inv source → step source label target →
      Allowed ⟨source, label, target⟩ → Condition ⟨source, label, target⟩ → Inv target)
    (allowed : ∀ transition ∈ path, Allowed transition) :
    (∀ transition ∈ path, Good transition) ↔ ∀ transition ∈ path, Condition transition := by
  induction run with
  | nil => simp
  | snoc before taken inductionHypothesis =>
      rw [List.forall_mem_append, List.forall_mem_singleton] at allowed
      simp only [List.forall_mem_append, List.forall_mem_singleton]
      rw [inductionHypothesis allowed.1]
      apply and_congr_right
      intro earlier
      have middleInv := before.invariant_of_allowed
        (fun transition => Allowed transition ∧ Condition transition) start
        (fun source label target holds step both => keeps source label target holds step both.1 both.2)
        (fun transition member => ⟨allowed.1 transition member, earlier transition member⟩)
      exact exact _ _ _ middleInv taken allowed.2

/-- The rule for an exact condition when no step is excluded. -/
theorem forall_good_iff {Inv : σ → Prop} {Good Condition : Transition σ ι → Prop}
    (run : Execution step first path last) (start : Inv first)
    (exact : ∀ source label target, Inv source → step source label target →
      (Good ⟨source, label, target⟩ ↔ Condition ⟨source, label, target⟩))
    (keeps : ∀ source label target, Inv source → step source label target →
      Condition ⟨source, label, target⟩ → Inv target) :
    (∀ transition ∈ path, Good transition) ↔ ∀ transition ∈ path, Condition transition :=
  run.forall_good_iff_of_allowed (fun _ => True) start
    (fun source label target holds taken _ => exact source label target holds taken)
    (fun source label target holds taken _ => keeps source label target holds taken)
    (fun _ _ => trivial)

/-- A measure that only the `counted` steps raise, by one, is raised as often as
there are such steps. -/
theorem measure_le_countP {f : σ → Nat} {counted : Transition σ ι → Bool}
    (run : Execution step first path last)
    (raises : ∀ transition ∈ path,
      f transition.target ≤ f transition.source + (counted transition).toNat) :
    f last ≤ f first + path.countP counted := by
  induction run with
  | nil => exact Nat.le_refl _
  | @snoc path middle last label before taken inductionHypothesis =>
      rw [List.forall_mem_append, List.forall_mem_singleton] at raises
      have earlier := inductionHypothesis raises.1
      have now := raises.2
      have count : [(⟨middle, label, last⟩ : Transition σ ι)].countP counted =
          (counted ⟨middle, label, last⟩).toNat := by
        cases isCounted : counted ⟨middle, label, last⟩ <;> simp [isCounted]
      rw [List.countP_append, count]
      dsimp only at now
      omega

/-- Two executions one after the other. -/
theorem append {earlier : List (Transition σ ι)} {middle : σ}
    (before : Execution step first earlier middle) (after : Execution step middle path last) :
    Execution step first (earlier ++ path) last := by
  induction after with
  | nil => rwa [List.append_nil]
  | snoc _ taken inductionHypothesis =>
      rw [← List.append_assoc]
      exact inductionHypothesis.snoc taken

/-- An execution of one step. -/
theorem single {label : ι} (taken : step first label last) :
    Execution step first [⟨first, label, last⟩] last :=
  (Execution.nil).snoc taken

/-- An execution is cut at any of its states. -/
theorem cut {front back : List (Transition σ ι)} (run : Execution step first (front ++ back) last) :
    ∃ middle, Execution step first front middle ∧ Execution step middle back last := by
  generalize isPath : front ++ back = path at run
  induction run generalizing back with
  | nil =>
      rcases List.append_eq_nil_iff.mp isPath with ⟨rfl, rfl⟩
      exact ⟨_, .nil, .nil⟩
  | @snoc path middle last label before taken inductionHypothesis =>
      rcases List.eq_nil_or_concat back with rfl | ⟨rest, final, rfl⟩
      · rw [List.append_nil] at isPath
        rw [isPath]
        exact ⟨last, before.snoc taken, .nil⟩
      · rw [List.concat_eq_append, ← List.append_assoc] at isPath
        rcases List.append_inj' isPath rfl with ⟨isBefore, isFinal⟩
        rcases inductionHypothesis isBefore with ⟨state, frontRun, backRun⟩
        rw [List.concat_eq_append, isFinal]
        exact ⟨state, frontRun, backRun.snoc taken⟩

/-- What follows a step of an execution starts at the target of the step. -/
theorem after_step {front back : List (Transition σ ι)} {transition : Transition σ ι}
    (run : Execution step first (front ++ transition :: back) last) :
    Execution step transition.target back last := by
  rw [List.append_cons] at run
  rcases run.cut with ⟨middle, frontRun, backRun⟩
  have ends : middle = transition.target := by
    generalize isPath : front ++ [transition] = path at frontRun
    cases frontRun with
    | nil => exact absurd isPath (by simp)
    | snoc before taken =>
        rcases List.append_inj' isPath rfl with ⟨-, isLast⟩
        rw [List.cons.inj isLast |>.1]
  rw [← ends]
  exact backRun

/-- The simulation rule: steps that are matched with the same label match every
execution with one of the same labels. -/
theorem matched {τ : Type u} {step' : τ → ι → τ → Prop} {Sim : σ → τ → Prop} {other : τ}
    (run : Execution step first path last) (start : Sim first other)
    (matchStep : ∀ source label target image, Sim source image → step source label target →
      ∃ imageTarget, step' image label imageTarget ∧ Sim target imageTarget) :
    ∃ otherPath otherLast, Execution step' other otherPath otherLast ∧
      otherPath.map Transition.label = path.map Transition.label ∧ Sim last otherLast := by
  induction run with
  | nil => exact ⟨[], other, .nil, rfl, start⟩
  | snoc before taken inductionHypothesis =>
      rcases inductionHypothesis with ⟨earlier, middle, run, sameLabels, related⟩
      rcases matchStep _ _ _ _ related taken with ⟨target, step, relatedTarget⟩
      refine ⟨_, target, run.snoc step, ?_, relatedTarget⟩
      rw [List.map_append, List.map_append, sameLabels]
      rfl

/-- What can be done once from each state with `P`, and ends in one, can be done
again and again. -/
theorem repeated {P : σ → Prop} {labels : List ι}
    (once : ∀ state, P state → ∃ path last, Execution step state path last ∧
      path.map Transition.label = labels ∧ P last) (start : P first) (rounds : Nat) :
    ∃ path last, Execution step first path last ∧
      path.map Transition.label = (List.replicate rounds labels).flatten ∧ P last := by
  induction rounds generalizing first with
  | zero => exact ⟨[], first, .nil, rfl, start⟩
  | succ rounds inductionHypothesis =>
      rcases once first start with ⟨path, middle, run, sameLabels, again⟩
      rcases inductionHypothesis again with ⟨rest, last, restRun, restLabels, ends⟩
      refine ⟨path ++ rest, last, run.append restRun, ?_, ends⟩
      rw [List.map_append, sameLabels, restLabels, List.replicate_succ, List.flatten_cons]

end Execution

end UniKernel.Lib
