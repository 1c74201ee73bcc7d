import Mathlib.Algebra.Ring.Nat
import Mathlib.Data.List.Rotate

/-!
Owns taking turns: at each turn the item at the front of a list is taken and
put back at its end. The items taken then follow the list over and over, and
any stretch of as many turns as the list is long takes each of its items once.
-/

namespace UniKernel.Lib

universe u

variable {α : Type u} {order turns rest : List α} {item : α} {first turn : Nat}

/-- The items `turns` are those of `order`, from the first on, over and over. -/
def RoundRobin (order turns : List α) : Prop :=
  ∀ turn < turns.length, turns[turn]? = order[turn % order.length]?

/-- The list behind one more turn. -/
theorem rotate_succ_of_cons (isFront : order.rotate turn = item :: rest) :
    order.rotate (turn + 1) = rest ++ [item] := by
  rw [← List.rotate_rotate, isFront, List.rotate_cons_succ, List.rotate_zero]

namespace RoundRobin

theorem nil (order : List α) : RoundRobin order [] := by
  intro turn inside
  exact absurd inside (Nat.not_lt_zero turn)

/-- One more turn takes what has come to the front. -/
theorem snoc (earlier : RoundRobin order turns)
    (isFront : order.rotate turns.length = item :: rest) : RoundRobin order (turns ++ [item]) := by
  intro turn inside
  rw [List.length_append, List.length_singleton] at inside
  rcases Nat.lt_succ_iff_lt_or_eq.mp inside with before | now
  · rw [List.getElem?_append_left before]
    exact earlier turn before
  · have positive : 0 < order.length := by
      have length := congrArg List.length isFront
      rw [List.length_rotate, List.length_cons] at length
      omega
    have front : (order.rotate turns.length)[0]? = some item := by
      rw [isFront, List.getElem?_cons_zero]
    rw [List.getElem?_rotate positive, Nat.zero_add] at front
    rw [now, List.getElem?_concat_length, front]

/-- A stretch of as many turns as there are items. -/
theorem window (earlier : RoundRobin order turns)
    (inside : first + order.length ≤ turns.length) :
    (turns.drop first).take order.length = order.rotate first := by
  apply List.ext_getElem?
  intro turn
  by_cases small : turn < order.length
  · rw [List.getElem?_take_of_lt small, List.getElem?_drop, List.getElem?_rotate small,
      earlier _ (by omega), Nat.add_comm]
  · rw [List.getElem?_eq_none, List.getElem?_eq_none]
    · rw [List.length_rotate]
      omega
    · rw [List.length_take]
      omega

/-- Such a stretch takes each item once. -/
theorem window_perm (earlier : RoundRobin order turns)
    (inside : first + order.length ≤ turns.length) :
    ((turns.drop first).take order.length).Perm order := by
  rw [earlier.window inside]
  exact List.rotate_perm order first

end RoundRobin

end UniKernel.Lib
