import Mathlib.Data.List.Nodup
import UniKernel.Heap.Model
import UniKernel.Lib.Fields

/-!
Owns the geometry of the heap region: its pages, the objects of a slab page and
the fields that the allocator keeps in the region itself. Distinct fields do not
overlap, whichever pages they belong to.
-/

namespace UniKernel.Heap

open UniKernel.Lib

/-- The region `heap_init` works on: whole pages of the 64-bit address space. -/
structure Region where
  base : Nat
  total : Nat
  aligned : base % 4096 = 0
  fits : base + total * 4096 ≤ 2 ^ 64
  atLeast : 2 ≤ total
  atMost : total < 2 ^ 32

namespace Region

/-- `heap_end_addr`. The size of the region is computed in 32 bits. -/
def endAddr (r : Region) : Nat := u64 (r.base + u32 (r.total * 4096))

/-- The pages below `heap_end_addr`. -/
def reach (r : Region) : Nat := (r.endAddr - r.base) / 4096

/-- `heap_end_addr` is the end of the region, and every page count has 16 bits. -/
def Small (r : Region) : Prop := r.total ≤ 65535 ∧ r.base + r.total * 4096 < 2 ^ 64

/-- The pages under the page table. -/
def metaPages (r : Region) : Nat := (r.total * 4 + 4095) / 4096

def page (r : Region) (i : Nat) : Nat := r.base + i * 4096

/-- The page an address lies in. -/
def index (r : Region) (addr : Nat) : Nat := (addr - r.base) / 4096

/-- `slab` is the address of a page behind the page table. -/
def IsPage (r : Region) (slab : Nat) : Prop :=
  slab % 4096 = 0 ∧ r.page r.metaPages ≤ slab ∧ slab < r.page r.total

/-- `obj` may be an object of a slab page. -/
def IsObject (r : Region) (obj : Nat) : Prop :=
  obj % 8 = 0 ∧ 40 ≤ obj % 4096 ∧ r.page r.metaPages ≤ obj ∧ obj < r.page r.total

variable {r : Region} {slab obj i j : Nat}

theorem metaPages_pos (r : Region) : 0 < r.metaPages := by
  have atLeast := r.atLeast
  unfold metaPages
  omega

theorem metaPages_lt (r : Region) : r.metaPages < r.total := by
  have atLeast := r.atLeast
  unfold metaPages
  omega

/-- The page table lies in the pages reserved for it. -/
theorem table_le (r : Region) : r.base + r.total * 4 ≤ r.page r.metaPages := by
  unfold metaPages page
  omega

/-- `heap_end_addr` ends the pages it reaches, or wraps around to 0. -/
theorem endAddr_cases (r : Region) :
    r.endAddr = r.page r.reach ∧ r.reach = u32 (r.total * 4096) / 4096 ∨
      r.endAddr = 0 ∧ r.reach = 0 := by
  have fits := r.fits
  have offset : u32 (r.total * 4096) = u32 (r.total * 4096) / 4096 * 4096 := by
    unfold u32
    omega
  have offsetLe : u32 (r.total * 4096) ≤ r.total * 4096 := Nat.mod_le _ _
  unfold reach endAddr page
  by_cases wraps : r.base + u32 (r.total * 4096) = 2 ^ 64
  · right
    rw [wraps, u64, Nat.mod_self]
    exact ⟨rfl, by omega⟩
  · left
    rw [u64_of_lt (by omega)]
    generalize u32 (r.total * 4096) = bytes at *
    omega

theorem reach_le (r : Region) : r.reach ≤ r.total := by
  have offsetLe : u32 (r.total * 4096) ≤ r.total * 4096 := Nat.mod_le _ _
  rcases r.endAddr_cases with ⟨-, reach⟩ | ⟨-, reach⟩
  · rw [reach]
    omega
  · rw [reach]
    exact Nat.zero_le _

theorem endAddr_of_small (small : r.Small) : r.endAddr = r.page r.total := by
  have pages := small.1
  rw [endAddr, u32_of_lt (by omega)]
  exact u64_of_lt small.2

theorem reach_of_small (small : r.Small) : r.reach = r.total := by
  rw [reach, endAddr_of_small small, page]
  omega

theorem page_inj : r.page i = r.page j ↔ i = j := by
  unfold page
  omega

theorem index_page (r : Region) (i : Nat) : r.index (r.page i) = i := by
  unfold index page
  omega

theorem isPage_page_iff : r.IsPage (r.page i) ↔ r.metaPages ≤ i ∧ i < r.total := by
  have baseAligned := r.aligned
  unfold IsPage page
  omega

theorem page_total_le (r : Region) : r.page r.total ≤ 2 ^ 64 := r.fits

theorem page_lt (inside : i < r.total) : r.page i < 2 ^ 64 := by
  have fits := r.fits
  unfold page
  omega

theorem IsPage.ne_zero (isPage : r.IsPage slab) : slab ≠ 0 := by
  have positive := r.metaPages_pos
  rcases isPage with ⟨-, above, -⟩
  unfold page at above
  omega

theorem IsPage.lt (isPage : r.IsPage slab) : slab < 2 ^ 64 :=
  Nat.lt_of_lt_of_le isPage.2.2 r.page_total_le

theorem IsObject.ne_zero (isObject : r.IsObject obj) : obj ≠ 0 := by
  have positive := r.metaPages_pos
  rcases isObject with ⟨-, -, above, -⟩
  unfold page at above
  omega

theorem IsObject.lt (isObject : r.IsObject obj) : obj < 2 ^ 64 :=
  Nat.lt_of_lt_of_le isObject.2.2.2 r.page_total_le

end Region

/-! ### Size classes -/

/-- The object size of a cache. -/
def classSize (c : Nat) : Nat := slabSizes.getD c 0

/-- The number of objects in a slab of a cache. -/
def capacity (c : Nat) : Nat := (4096 - 40) / classSize c

/-- What is needed of the eight sizes: multiples of `HEAP_ALIGN`, and the
objects fill at most the page behind the header. -/
theorem class_facts : ∀ c, c < numCacheSizes →
    classSize c % 8 = 0 ∧ 16 ≤ classSize c ∧ classSize c ≤ 2048 ∧ 0 < capacity c ∧
      40 + capacity c * classSize c ≤ 4096 ∧ capacity c ≤ 253 := by
  decide

/-- The objects of a slab of cache `c`, in the order `slab_init_page` links them. -/
def objects (c slab : Nat) : List Nat :=
  (List.range (capacity c)).map fun k => slab + 40 + k * classSize c

section Objects

variable {r : Region} {c slab obj : Nat}

theorem mem_objects_iff : obj ∈ objects c slab ↔
    ∃ k, k < capacity c ∧ obj = slab + 40 + k * classSize c := by
  simp only [objects, List.mem_map, List.mem_range, eq_comm]

theorem length_objects (c slab : Nat) : (objects c slab).length = capacity c := by
  simp [objects]

theorem nodup_objects (known : c < numCacheSizes) (slab : Nat) : (objects c slab).Nodup := by
  rcases class_facts c known with ⟨-, positive, -⟩
  apply List.Nodup.map ?_ List.nodup_range
  intro first second same
  have products : first * classSize c = second * classSize c := by
    simp only at same
    omega
  exact Nat.eq_of_mul_eq_mul_right (by omega) products

/-- Where an object of a slab lies in its page. -/
theorem object_bounds (known : c < numCacheSizes) (member : obj ∈ objects c slab) :
    slab + 40 ≤ obj ∧ obj + classSize c ≤ slab + 4096 ∧ (obj - slab) % 8 = 0 := by
  rcases class_facts c known with ⟨granule, -, -, -, fill, -⟩
  rcases mem_objects_iff.mp member with ⟨k, below, rfl⟩
  have last : (k + 1) * classSize c ≤ capacity c * classSize c := Nat.mul_le_mul_right _ below
  have multiple : k * classSize c % 8 = 0 := by
    rw [Nat.mul_mod, granule, Nat.mul_zero, Nat.zero_mod]
  rw [Nat.add_mul, Nat.one_mul] at last
  omega

/-- Two objects of a slab do not overlap. -/
theorem objects_apart {other : Nat} (member : obj ∈ objects c slab) (otherMember : other ∈ objects c slab)
    (different : obj ≠ other) : obj + classSize c ≤ other ∨ other + classSize c ≤ obj := by
  rcases mem_objects_iff.mp member with ⟨k, -, rfl⟩
  rcases mem_objects_iff.mp otherMember with ⟨l, -, rfl⟩
  rcases Nat.lt_trichotomy k l with below | same | above
  · have gap : (k + 1) * classSize c ≤ l * classSize c := Nat.mul_le_mul_right _ below
    rw [Nat.add_mul, Nat.one_mul] at gap
    omega
  · rw [same] at different
    exact absurd rfl different
  · have gap : (l + 1) * classSize c ≤ k * classSize c := Nat.mul_le_mul_right _ above
    rw [Nat.add_mul, Nat.one_mul] at gap
    omega

theorem isObject_of_mem (known : c < numCacheSizes) (isPage : r.IsPage slab)
    (member : obj ∈ objects c slab) : r.IsObject obj := by
  rcases class_facts c known with ⟨-, large, -⟩
  rcases object_bounds known member with ⟨above, below, granule⟩
  rcases isPage with ⟨aligned, first, last⟩
  have baseAligned := r.aligned
  unfold Region.page at first last
  unfold Region.IsObject Region.page
  refine ⟨by omega, by omega, by omega, by omega⟩

/-- Rounding an object down gives its slab. -/
theorem alignDown_object (known : c < numCacheSizes) (isPage : r.IsPage slab)
    (member : obj ∈ objects c slab) : alignDown obj pageSize = slab := by
  rcases class_facts c known with ⟨-, large, -⟩
  rcases object_bounds known member with ⟨above, below, -⟩
  have aligned := isPage.1
  unfold alignDown pageSize
  omega

end Objects

/-! ### Fields -/

/-- What the allocator keeps in the region: entries of the page table, fields of
slab headers and the link in a free object. -/
inductive Field where
  | pageType (i : Nat)
  | pageCount (i : Nat)
  | next (slab : Nat)
  | prev (slab : Nat)
  | cache (slab : Nat)
  | freeList (slab : Nat)
  | inUse (slab : Nat)
  | magic (slab : Nat)
  | link (obj : Nat)
deriving DecidableEq

namespace Field

def addr (table : Nat) : Field → Nat
  | .pageType i => table + i * pageInfoSize
  | .pageCount i => table + i * pageInfoSize + 2
  | .next slab => slab
  | .prev slab => slab + 8
  | .cache slab => slab + 16
  | .freeList slab => slab + 24
  | .inUse slab => slab + 32
  | .magic slab => slab + 36
  | .link obj => obj

def width : Field → Nat
  | .pageType _ => 1
  | .pageCount _ => 2
  | .inUse _ => 4
  | .magic _ => 4
  | _ => 8

/-- A field of the table of `r`, of a page of `r`, or of an object. -/
def Valid (r : Region) : Field → Prop
  | .pageType i => i < r.total
  | .pageCount i => i < r.total
  | .link obj => r.IsObject obj
  | .next slab => r.IsPage slab
  | .prev slab => r.IsPage slab
  | .cache slab => r.IsPage slab
  | .freeList slab => r.IsPage slab
  | .inUse slab => r.IsPage slab
  | .magic slab => r.IsPage slab

end Field

/-- The fields of a region. -/
def Region.fields (r : Region) : Fields Field where
  addr := Field.addr r.base
  width := Field.width
  Valid := Field.Valid r
  apart := by
    intro first second validFirst validSecond different
    have tableLe := r.table_le
    cases first <;> cases second <;>
      simp only [Field.Valid, Region.IsPage, Region.IsObject, ne_eq, Field.pageType.injEq,
        Field.pageCount.injEq, Field.next.injEq, Field.prev.injEq, Field.cache.injEq,
        Field.freeList.injEq, Field.inUse.injEq, Field.magic.injEq, Field.link.injEq,
        Field.addr, Field.width, pageInfoSize] at validFirst validSecond different ⊢ <;> omega

end UniKernel.Heap
