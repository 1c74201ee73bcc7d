import Mathlib.Data.Option.Basic
import UniKernel.Lib.Refinement

/-!
Owns a lock as such: nobody or one client owns it, a client takes it when nobody
owns it, the owner gives it back, and whoever asks is told whether it is owned.

Nothing here names the kernel.
-/

namespace UniKernel.Lib.Lock

open UniKernel.Lib

universe u

inductive Event (ι : Type u) where
  | acquire (client : ι)
  | release (client : ι)
  | foundOwned (client : ι)
  | foundFree (client : ι)

inductive Step {ι : Type u} : Option ι → Event ι → Option ι → Prop where
  | acquire {client : ι} : Step none (.acquire client) (some client)
  | release {client : ι} : Step (some client) (.release client) none
  | foundOwned {client owner : ι} : Step (some owner) (.foundOwned client) (some owner)
  | foundFree {client : ι} : Step none (.foundFree client) none

variable {ι : Type u}

/-- The changes of ownership among the events. -/
def Event.change : Event ι → Option (ι × Bool)
  | .acquire client => some (client, true)
  | .release client => some (client, false)
  | .foundOwned _ | .foundFree _ => none

/-- A critical section. -/
def criticalSection (client : ι) : List (ι × Bool) := [(client, true), (client, false)]

/-- The sections of a lock come one after the other; the last one may be open. -/
theorem serial {path : List (Transition (Option ι) (Event ι))} {last : Option ι}
    (run : Execution Step none path last) :
    ∃ clients : List ι, path.filterMap (fun transition => transition.label.change) =
      clients.flatMap criticalSection ++ last.toList.map fun client => (client, true) := by
  induction run with
  | nil => exact ⟨[], rfl⟩
  | @snoc path middle last label before taken inductionHypothesis =>
      obtain ⟨clients, sections⟩ := inductionHypothesis
      rw [List.filterMap_append, sections]
      cases taken with
      | @acquire client => exact ⟨clients, by simp [Event.change]⟩
      | @release client => exact ⟨clients ++ [client], by simp [Event.change, criticalSection]⟩
      | foundOwned => exact ⟨clients, by simp [Event.change]⟩
      | foundFree => exact ⟨clients, by simp [Event.change]⟩

end UniKernel.Lib.Lock
