import Mathlib.Logic.Function.Basic
import UniKernel.Lib.Refinement

/-!
Owns a queue with levels as such: an item is put behind the others of its level,
and the front of the highest level that is not empty is taken. Each level is
first in, first out over a whole execution.

Nothing here names the kernel.
-/

namespace UniKernel.Lib.PriorityQueue

open UniKernel.Lib

universe u v

inductive Event (κ : Type u) (α : Type v) where
  | push (level : κ) (item : α)
  | pop (level : κ) (item : α)
deriving DecidableEq

variable {κ : Type u} {α : Type v} [LT κ] [DecidableEq κ]

inductive Step : (κ → List α) → Event κ α → (κ → List α) → Prop where
  | push {queue : κ → List α} {level : κ} {item : α} :
      Step queue (.push level item) (Function.update queue level (queue level ++ [item]))
  | pop {queue : κ → List α} {level : κ} {item : α} {rest : List α}
      (front : queue level = item :: rest) (higher : ∀ above, level < above → queue above = []) :
      Step queue (.pop level item) (Function.update queue level rest)

namespace Event

/-- The item put into `level`. -/
def pushed (level : κ) : Event κ α → Option α
  | .push place item => if place = level then some item else none
  | .pop _ _ => none

/-- The item taken from `level`. -/
def popped (level : κ) : Event κ α → Option α
  | .push _ _ => none
  | .pop place item => if place = level then some item else none

end Event

variable {queue queue' : κ → List α} {event : Event κ α}
  {path : List (Transition (κ → List α) (Event κ α))}

theorem Step.balance (taken : Step queue event queue') (level : κ) :
    queue level ++ (event.pushed level).toList = (event.popped level).toList ++ queue' level := by
  cases taken with
  | @push place item =>
      by_cases here : place = level
      · subst here
        simp [Event.pushed, Event.popped]
      · simp [Event.pushed, Event.popped, here, Function.update_of_ne (Ne.symm here)]
  | @pop place item rest front higher =>
      by_cases here : place = level
      · subst here
        simp [Event.pushed, Event.popped, front]
      · simp [Event.pushed, Event.popped, here, Function.update_of_ne (Ne.symm here)]

/-- What was in a level and what was put there is what was taken from it and
what is there, in this order. -/
theorem balance (run : Execution Step queue path queue') (level : κ) :
    queue level ++ (path.map Transition.label).filterMap (Event.pushed level) =
      (path.map Transition.label).filterMap (Event.popped level) ++ queue' level := by
  induction run with
  | nil => exact List.append_nil _
  | @snoc path middle last label before taken inductionHypothesis =>
      have single : ∀ f : Event κ α → Option α, [label].filterMap f = (f label).toList := by
        intro f
        cases isSome : f label <;> simp [isSome]
      rw [List.map_append, List.filterMap_append, List.filterMap_append, ← List.append_assoc,
        inductionHypothesis, List.append_assoc, List.append_assoc]
      congr 1
      simp only [List.map_cons, List.map_nil, single]
      exact taken.balance level

/-- An item with `index` others in front of it is taken after exactly these. -/
theorem taken_in_turn (run : Execution Step queue path queue') (level : κ) {index : Nat} {item : α}
    (place : (queue level)[index]? = some item)
    (late : index < ((path.map Transition.label).filterMap (Event.popped level)).length) :
    ((path.map Transition.label).filterMap (Event.popped level))[index]? = some item := by
  obtain ⟨inside, -⟩ := List.getElem?_eq_some_iff.mp place
  rw [← List.getElem?_append_left late, ← balance run level, List.getElem?_append_left inside]
  exact place

end UniKernel.Lib.PriorityQueue
