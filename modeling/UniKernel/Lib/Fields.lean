import UniKernel.Lib.Memory

/-!
Owns families of named fields in byte memory. The valid fields of a family do
not overlap, so that storing one of them changes what a load of that field
returns and no other. Nothing here names the kernel.
-/

namespace UniKernel.Lib

universe u

/-- Where each field of a data structure lies. -/
structure Fields (ι : Type u) where
  addr : ι → Nat
  width : ι → Nat
  Valid : ι → Prop
  apart : ∀ {first second : ι}, Valid first → Valid second → first ≠ second →
    addr first + width first ≤ addr second ∨ addr second + width second ≤ addr first

namespace Fields

variable {ι : Type u} {fields : Fields ι} {first second : ι} {mem left right : Memory}

def get (fields : Fields ι) (mem : Memory) (field : ι) : Nat :=
  mem.load (fields.addr field) (fields.width field)

def put (fields : Fields ι) (mem : Memory) (field : ι) (value : Nat) : Memory :=
  mem.store (fields.addr field) (fields.width field) value

/-- `addr` is a byte of the field. -/
def Covers (fields : Fields ι) (field : ι) (addr : Nat) : Prop :=
  fields.addr field ≤ addr ∧ addr < fields.addr field + fields.width field

/-- A field reads back what was stored, truncated to its width. -/
theorem get_put_same (value : Nat) :
    fields.get (fields.put mem first value) first = value % 256 ^ fields.width first :=
  Memory.load_store_same _ _ _ _

theorem get_put_other (validFirst : fields.Valid first) (validSecond : fields.Valid second)
    (different : second ≠ first) (value : Nat) :
    fields.get (fields.put mem first value) second = fields.get mem second := by
  apply Memory.load_store_disjoint
  exact fields.apart validSecond validFirst different

theorem get_put [DecidableEq ι] (validFirst : fields.Valid first) (validSecond : fields.Valid second)
    (value : Nat) :
    fields.get (fields.put mem first value) second =
      if second = first then value % 256 ^ fields.width first else fields.get mem second := by
  split
  · next same => rw [same, get_put_same]
  · next different => exact get_put_other validFirst validSecond different value

/-- Storing a field changes its own bytes only. -/
theorem put_apply {addr : Nat} (outside : ¬ fields.Covers first addr) (value : Nat) :
    fields.put mem first value addr = mem addr := by
  apply Memory.store_outside
  unfold Covers at outside
  omega

end Fields

end UniKernel.Lib
