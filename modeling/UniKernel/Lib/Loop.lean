import Mathlib.Computability.StateTransition

/-!
Owns loops as functions from a state to the next one, or to none when the loop
is over: what holds of every state of a loop, and a state that leads to itself
as the reason why a loop does not end.

Nothing here names the kernel. The meaning of a loop is `StateTransition.eval`.
-/

namespace UniKernel.Lib

open StateTransition

universe u

variable {σ : Type u} {step : σ → Option σ} {s s' last : σ} {P Q : σ → Prop}

/-- Every state of the loop from `s` on has `P`. -/
def Always (step : σ → Option σ) (P : σ → Prop) (s : σ) : Prop := ∀ t, Reaches step s t → P t

namespace Always

/-- What holds now, and always after the next step, always holds. -/
theorem next (now : P s) (taken : step s = some s') (later : Always step P s') :
    Always step P s := by
  intro t reaches
  rcases reaches.cases_head with rfl | ⟨other, isNext, rest⟩
  · exact now
  · rw [Option.mem_unique isNext taken] at rest
    exact later t rest

theorem stop (now : P s) (isOver : step s = none) : Always step P s := by
  intro t reaches
  rcases reaches.cases_head with rfl | ⟨other, isNext, -⟩
  · exact now
  · rw [isOver] at isNext
    cases isNext

end Always

/-- The loop gets from `s` to `s'`, and the states before `s'` have `P`. -/
def Passes (step : σ → Option σ) (P : σ → Prop) : σ → σ → Prop :=
  Relation.ReflTransGen fun a b => P a ∧ step a = some b

namespace Passes

theorem refl (s : σ) : Passes step P s s := Relation.ReflTransGen.refl

theorem single (now : P s) (taken : step s = some s') : Passes step P s s' :=
  Relation.ReflTransGen.single ⟨now, taken⟩

theorem trans (first : Passes step P s s') (second : Passes step P s' last) :
    Passes step P s last :=
  Relation.ReflTransGen.trans first second

theorem reaches (passes : Passes step P s s') : Reaches step s s' :=
  Relation.ReflTransGen.mono (fun _ _ both => both.2) _ _ passes

/-- What always holds behind a path always holds from its start on. -/
theorem always (passes : Passes step P s s') (later : Always step P s') : Always step P s := by
  induction passes using Relation.ReflTransGen.head_induction_on with
  | refl => exact later
  | head first _ inductionHypothesis => exact Always.next first.1 first.2 inductionHypothesis

end Passes

/-- A loop that comes to a state which leads to itself does not end. -/
theorem not_mem_eval_of_stuck (reaches : Reaches step s s') (stuck : step s' = some s') (last : σ) :
    last ∉ eval step s := by
  have stays : ∀ t, Reaches step s' t → t = s' := by
    intro t later
    induction later with
    | refl => rfl
    | tail _ taken inductionHypothesis =>
        rw [inductionHypothesis] at taken
        exact Option.mem_unique taken stuck
  intro ends
  rw [reaches_eval reaches] at ends
  rcases mem_eval.mp ends with ⟨later, isOver⟩
  rw [stays last later, stuck] at isOver
  cases isOver

end UniKernel.Lib
