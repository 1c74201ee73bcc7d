import UniKernel.Lib.Transition

/-!
Owns refinement between two transition systems: each step of the lower one is
either seen as a step of the upper one or not seen at all. Then what is seen of
an execution is an execution of the upper system.

Nothing here names the kernel.
-/

namespace UniKernel.Lib

universe u v w

/-- What is seen of a path. -/
def observed {σ : Type u} {ι : Type v} {κ : Type w} (seen : ι → Option κ)
    (path : List (Transition σ ι)) : List κ :=
  path.filterMap fun transition => seen transition.label

section Refinement

variable {σ τ : Type u} {ι : Type v} {κ : Type w} {step : σ → ι → σ → Prop}
  {spec : τ → κ → τ → Prop} {seen : ι → Option κ} {first last : σ}
  {path : List (Transition σ ι)}

theorem observed_append (earlier later : List (Transition σ ι)) :
    observed seen (earlier ++ later) = observed seen earlier ++ observed seen later :=
  List.filterMap_append ..

theorem observed_single (source target : σ) (label : ι) :
    observed seen [⟨source, label, target⟩] = (seen label).toList := by
  unfold observed
  cases isSeen : seen label <;> simp [isSeen]

/-- A step of the upper system, or none. -/
def Answers (spec : τ → κ → τ → Prop) (image : τ) : Option κ → τ → Prop
  | none, target => target = image
  | some label, target => spec image label target

/-- The refinement rule. -/
theorem Execution.refines {Rel : σ → τ → Prop} {image : τ} (run : Execution step first path last)
    (start : Rel first image)
    (answers : ∀ source label target image, Rel source image → step source label target →
      ∃ imageTarget, Answers spec image (seen label) imageTarget ∧ Rel target imageTarget) :
    ∃ imagePath imageLast, Execution spec image imagePath imageLast ∧
      imagePath.map Transition.label = observed seen path ∧ Rel last imageLast := by
  induction run with
  | nil => exact ⟨[], image, .nil, rfl, start⟩
  | @snoc path middle last label before taken inductionHypothesis =>
      obtain ⟨imagePath, imageMiddle, imageRun, sameLabels, related⟩ := inductionHypothesis
      obtain ⟨imageLast, isAnswer, relatedLast⟩ := answers _ _ _ _ related taken
      rw [observed_append, observed_single]
      cases isSeen : seen label with
      | none =>
          rw [isSeen, Answers] at isAnswer
          subst isAnswer
          refine ⟨imagePath, imageLast, imageRun, ?_, relatedLast⟩
          rw [Option.toList_none, List.append_nil]
          exact sameLabels
      | some specLabel =>
          rw [isSeen, Answers] at isAnswer
          refine ⟨_, imageLast, imageRun.snoc isAnswer, ?_, relatedLast⟩
          rw [List.map_append, sameLabels]
          rfl

/-- The refinement rule when what is seen of an allowed step is an execution of
the upper system. -/
theorem Execution.refines_of_allowed {Rel : σ → τ → Prop} {image : τ}
    (seen : Transition σ ι → List κ) (Allowed : Transition σ ι → Prop)
    (run : Execution step first path last) (start : Rel first image)
    (answers : ∀ source label target image, Rel source image → step source label target →
      Allowed ⟨source, label, target⟩ → ∃ imagePath imageTarget,
        Execution spec image imagePath imageTarget ∧
        imagePath.map Transition.label = seen ⟨source, label, target⟩ ∧ Rel target imageTarget)
    (allowed : ∀ transition ∈ path, Allowed transition) :
    ∃ imagePath imageLast, Execution spec image imagePath imageLast ∧
      imagePath.map Transition.label = path.flatMap seen ∧ Rel last imageLast := by
  induction run with
  | nil => exact ⟨[], image, .nil, rfl, start⟩
  | snoc before taken inductionHypothesis =>
      rw [List.forall_mem_append, List.forall_mem_singleton] at allowed
      obtain ⟨earlier, imageMiddle, imageRun, sameLabels, related⟩ := inductionHypothesis allowed.1
      obtain ⟨later, imageLast, stepRun, stepLabels, relatedLast⟩ :=
        answers _ _ _ _ related taken allowed.2
      refine ⟨earlier ++ later, imageLast, imageRun.append stepRun, ?_, relatedLast⟩
      rw [List.map_append, sameLabels, stepLabels, List.flatMap_append, List.flatMap_singleton]

end Refinement

end UniKernel.Lib
