import Mathlib.Algebra.Ring.Nat
import Mathlib.Logic.Basic

/-!
Owns address spaces as functions: what each virtual address is translated to,
and the mapping of a range, which replaces what was there. Ranges that follow
one another with the same attributes are one range.

Nothing here names the kernel. Attributes are any type.
-/

namespace UniKernel.Lib

universe u

/-- The physical address and the attributes of each mapped virtual address. -/
abbrev AddressSpace (α : Type u) := Nat → Option (Nat × α)

namespace AddressSpace

variable {α : Type u} {virt phys size first second address : Nat} {attributes : α}

/-- The space in which nothing is mapped. -/
def empty : AddressSpace α := fun _ => none

/-- The range of `size` addresses from `virt` on is mapped to that from `phys` on. -/
def map (space : AddressSpace α) (virt phys size : Nat) (attributes : α) : AddressSpace α :=
  fun address =>
    if virt ≤ address ∧ address < virt + size then some (phys + (address - virt), attributes)
    else space address

theorem map_inside (space : AddressSpace α) (above : virt ≤ address)
    (below : address < virt + size) :
    space.map virt phys size attributes address = some (phys + (address - virt), attributes) :=
  if_pos ⟨above, below⟩

theorem map_outside (space : AddressSpace α) (outside : address < virt ∨ virt + size ≤ address) :
    space.map virt phys size attributes address = space address := by
  apply if_neg
  rintro ⟨above, below⟩
  rcases outside with before | behind
  · exact absurd above (Nat.not_le.mpr before)
  · exact absurd below (Nat.not_lt.mpr behind)

@[simp] theorem map_zero (space : AddressSpace α) : space.map virt phys 0 attributes = space := by
  funext address
  apply map_outside
  exact Nat.lt_or_ge address virt

/-- The range that follows another continues it. -/
theorem map_map (space : AddressSpace α) :
    (space.map virt phys first attributes).map (virt + first) (phys + first) second attributes =
      space.map virt phys (first + second) attributes := by
  funext address
  by_cases behind : virt + first ≤ address
  · by_cases inside : address < virt + first + second
    · rw [map_inside _ behind inside, map_inside _ (Nat.le_of_add_right_le behind) (by omega)]
      congr 2
      omega
    · rw [map_outside _ (Or.inr (Nat.not_lt.mp inside)), map_outside _ (Or.inr (by omega)),
        map_outside _ (Or.inr (by omega))]
  · rw [map_outside _ (Or.inl (Nat.not_le.mp behind))]
    by_cases above : virt ≤ address
    · rw [map_inside _ above (Nat.not_le.mp behind), map_inside _ above (by omega)]
    · rw [map_outside _ (Or.inl (Nat.not_le.mp above)), map_outside _ (Or.inl (Nat.not_le.mp above))]

/-- Spaces that agree below a bound still do when the same range is mapped. -/
theorem map_congr {space other : AddressSpace α} {bound : Nat}
    (same : ∀ address < bound, space address = other address) :
    ∀ address < bound, space.map virt phys size attributes address =
      other.map virt phys size attributes address := by
  intro address below
  unfold map
  rw [same address below]

end AddressSpace

end UniKernel.Lib
