import UniKernel.Heap.Region
import UniKernel.Lib.FirstFit

/-!
Owns the abstract heap: what each page is used for, the free objects of each
slab and the slab lists, with `malloc`, `free` and `realloc` as functions on it.
No memory and no pointer chasing occurs here; `Heap.Represents` says when bytes
stand for a layout.
-/

namespace UniKernel.Heap

open UniKernel.Lib

/-- What a page is used for. A page of a large block names the block's first
page and its number of pages. -/
inductive PageUse where
  | free
  | metadata
  | slab (c : Nat)
  | large (first count : Nat)
deriving DecidableEq

/-- The heap without its bytes. Slabs and objects go by their addresses. -/
structure Layout where
  use : Nat → PageUse
  freeObjects : Nat → List Nat
  slabs : Nat → SlabList → List Nat

namespace Layout

/-! ### Updates -/

def setUse (lay : Layout) (first count : Nat) (use : PageUse) : Layout :=
  { lay with use := fun i => if first ≤ i ∧ i < first + count then use else lay.use i }

def setFree (lay : Layout) (slab : Nat) (nodes : List Nat) : Layout :=
  { lay with freeObjects := Function.update lay.freeObjects slab nodes }

def setSlabs (lay : Layout) (c : Nat) (which : SlabList) (nodes : List Nat) : Layout :=
  { lay with
    slabs := fun other list => if other = c ∧ list = which then nodes else lay.slabs other list }

def unlink (c : Nat) (which : SlabList) (slab : Nat) (lay : Layout) : Layout :=
  lay.setSlabs c which ((lay.slabs c which).erase slab)

def push (c : Nat) (which : SlabList) (slab : Nat) (lay : Layout) : Layout :=
  lay.setSlabs c which (slab :: lay.slabs c which)

section Updates

variable (lay : Layout) (first count : Nat) (use : PageUse) (slab c : Nat) (nodes : List Nat)
  (which : SlabList)

@[simp] theorem setUse_use (i : Nat) : (lay.setUse first count use).use i =
    if first ≤ i ∧ i < first + count then use else lay.use i := rfl

@[simp] theorem setUse_freeObjects :
    (lay.setUse first count use).freeObjects = lay.freeObjects := rfl

@[simp] theorem setUse_slabs : (lay.setUse first count use).slabs = lay.slabs := rfl

@[simp] theorem setFree_use : (lay.setFree slab nodes).use = lay.use := rfl

@[simp] theorem setFree_slabs : (lay.setFree slab nodes).slabs = lay.slabs := rfl

theorem setFree_freeObjects (other : Nat) : (lay.setFree slab nodes).freeObjects other =
    if other = slab then nodes else lay.freeObjects other := by
  simp [setFree, Function.update_apply]

@[simp] theorem setFree_freeObjects_same :
    (lay.setFree slab nodes).freeObjects slab = nodes := by
  simp [setFree]

@[simp] theorem unlink_use : (lay.unlink c which slab).use = lay.use := rfl

@[simp] theorem unlink_freeObjects : (lay.unlink c which slab).freeObjects = lay.freeObjects := rfl

@[simp] theorem push_use : (lay.push c which slab).use = lay.use := rfl

@[simp] theorem push_freeObjects : (lay.push c which slab).freeObjects = lay.freeObjects := rfl

theorem unlink_slabs (other : Nat) (list : SlabList) : (lay.unlink c which slab).slabs other list =
    if other = c ∧ list = which then (lay.slabs c which).erase slab else lay.slabs other list := rfl

theorem push_slabs (other : Nat) (list : SlabList) : (lay.push c which slab).slabs other list =
    if other = c ∧ list = which then slab :: lay.slabs c which else lay.slabs other list := rfl

end Updates

/-! ### The operations -/

/-- Where `alloc_pages_backend` finds `count` pages. -/
def findPages (r : Region) (count : Nat) (lay : Layout) : Option Nat :=
  firstFit (fun i => lay.use i = .free) r.total count

def allocLarge (r : Region) (count : Nat) (lay : Layout) : Nat × Layout :=
  match lay.findPages r count with
  | some first => (r.page first, lay.setUse first count (.large first count))
  | none => (0, lay)

/-- A page becomes a slab whose objects are all free. -/
def initSlab (r : Region) (c i : Nat) (lay : Layout) : Layout :=
  (lay.setUse i 1 (.slab c)).setFree (r.page i) (objects c (r.page i))

/-- Take the first free object of a slab. -/
def take (c slab : Nat) (lay : Layout) : Nat × Layout :=
  match lay.freeObjects slab with
  | [] => (0, lay)
  | obj :: rest =>
      let taken := lay.setFree slab rest
      (obj, if rest = [] then (taken.unlink c .partlyUsed slab).push c .full slab else taken)

def cacheAlloc (r : Region) (c : Nat) (lay : Layout) : Nat × Layout :=
  match lay.slabs c .partlyUsed with
  | slab :: _ => lay.take c slab
  | [] =>
      match lay.findPages r 1 with
      | some i => ((lay.initSlab r c i).push c .partlyUsed (r.page i)).take c (r.page i)
      | none => (0, lay)

/-- An object is free again. -/
def give (slab obj : Nat) (lay : Layout) : Layout :=
  lay.setFree slab (obj :: lay.freeObjects slab)

/-- The list a slab with these free objects is in. -/
def listOf (nodes : List Nat) : SlabList := if nodes = [] then .full else .partlyUsed

/-- The page of a slab is free again. -/
def releaseSlab (r : Region) (slab : Nat) (lay : Layout) : Layout :=
  (lay.setUse (r.index slab) 1 .free).setFree slab []

def cacheFree (r : Region) (c slab obj : Nat) (lay : Layout) : Layout :=
  let given := lay.give slab obj
  if (given.freeObjects slab).length = capacity c then
    (given.unlink c (listOf (lay.freeObjects slab)) slab).releaseSlab r slab
  else if lay.freeObjects slab = [] then (given.unlink c .full slab).push c .partlyUsed slab
  else given

/-- The cache for a size. -/
def classFor (size : Nat) : Option Nat :=
  (List.range numCacheSizes).find? fun c => size ≤ classSize c

def malloc (r : Region) (size : Nat) (lay : Layout) : Nat × Layout :=
  if size = 0 then (0, lay)
  else if size ≤ 2048 then
    match classFor size with
    | some c => lay.cacheAlloc r c
    | none => (0, lay)
  else lay.allocLarge r (u64 (size + 4095) / 4096)

/-- As many pages of a block are free again as the table's 16-bit count says. The
others stay marked, as a block that nobody holds. -/
def freeLarge (first count : Nat) (lay : Layout) : Layout :=
  (lay.setUse first count (.large (first + u16 count) (count - u16 count))).setUse first (u16 count) .free

def free (r : Region) (ptr : Nat) (lay : Layout) : Layout :=
  if ptr = 0 then lay
  else if r.reach ≤ r.index ptr then lay
  else
    match lay.use (r.index ptr) with
    | .slab c => lay.cacheFree r c (r.page (r.index ptr)) ptr
    | .large first count => lay.freeLarge first count
    | _ => lay

/-- The size of the block at `ptr` as far as the table tells it. -/
def sizeAt (r : Region) (ptr : Nat) (lay : Layout) : Nat :=
  if r.reach ≤ r.index ptr then 0
  else
    match lay.use (r.index ptr) with
    | .slab c => classSize c
    | .large _ count => u16 count * 4096
    | _ => 0

def realloc (r : Region) (ptr newSize : Nat) (lay : Layout) : Nat × Layout :=
  if ptr = 0 then lay.malloc r newSize
  else if newSize = 0 then (0, lay.free r ptr)
  else if lay.sizeAt r ptr ≥ newSize then (ptr, lay)
  else
    let (newPtr, lay) := lay.malloc r newSize
    if newPtr ≠ 0 then (newPtr, lay.free r ptr) else (newPtr, lay)

/-- The layout after `heap_init`. -/
def initial (r : Region) : Layout where
  use i := if i < r.metaPages then .metadata else .free
  freeObjects _ := []
  slabs _ _ := []

/-! ### Well-formed layouts -/

structure WellFormed (r : Region) (lay : Layout) : Prop where
  metadata : ∀ i, lay.use i = .metadata ↔ i < r.metaPages
  outside : ∀ i, r.total ≤ i → lay.use i = .free
  known : ∀ i c, lay.use i = .slab c → c < numCacheSizes
  large : ∀ i first count, lay.use i = .large first count → first ≤ i ∧ i < first + count ∧
    ∀ j, first ≤ j → j < first + count → lay.use j = .large first count
  nodupFree : ∀ i c, lay.use i = .slab c → (lay.freeObjects (r.page i)).Nodup
  isObject : ∀ i c, lay.use i = .slab c → ∀ obj ∈ lay.freeObjects (r.page i),
    obj ∈ objects c (r.page i)
  noObjects : ∀ slab, (∀ i c, slab = r.page i → lay.use i ≠ .slab c) → lay.freeObjects slab = []
  listed : ∀ c which slab, slab ∈ lay.slabs c which ↔
    ∃ i, slab = r.page i ∧ lay.use i = .slab c ∧ which = listOf (lay.freeObjects slab)
  nodupSlabs : ∀ c which, (lay.slabs c which).Nodup

/-- Every slab has an object in use. -/
def Used (r : Region) (lay : Layout) : Prop :=
  ∀ i c, lay.use i = .slab c → (lay.freeObjects (r.page i)).length < capacity c

/-- The block of `size` bytes at `addr` is allocated. -/
inductive Occupied (r : Region) (lay : Layout) : (addr size : Nat) → Prop where
  | object {i c obj : Nat} (use : lay.use i = .slab c) (member : obj ∈ objects c (r.page i))
      (taken : obj ∉ lay.freeObjects (r.page i)) : Occupied r lay obj (classSize c)
  | pages {i count : Nat} (use : lay.use i = .large i count) :
      Occupied r lay (r.page i) (count * 4096)

/-- `addr` is a byte of an allocated block. -/
def Guarded (r : Region) (lay : Layout) (addr : Nat) : Prop :=
  ∃ start size, Occupied r lay start size ∧ start ≤ addr ∧ addr < start + size

theorem wellFormed_initial (r : Region) : WellFormed r (initial r) := by
  have metaLt := r.metaPages_lt
  refine ⟨?_, ?_, ?_, ?_, ?_, ?_, ?_, ?_, ?_⟩
  · intro i
    simp [initial]
  · intro i outside
    simp only [initial, if_neg (show ¬ i < r.metaPages by omega)]
  · intro i c isSlab
    simp only [initial] at isSlab
    split at isSlab <;> cases isSlab
  · intro i first count isLarge
    simp only [initial] at isLarge
    split at isLarge <;> cases isLarge
  · exact fun _ _ _ => List.nodup_nil
  · intro i c _ obj member
    cases member
  · exact fun _ _ => rfl
  · intro c which slab
    refine iff_of_false (by simp [initial]) ?_
    rintro ⟨i, -, isSlab, -⟩
    simp only [initial] at isSlab
    split at isSlab <;> cases isSlab
  · exact fun _ _ => List.nodup_nil

namespace WellFormed

variable {r : Region} {lay : Layout} {i c slab first count addr size : Nat}

theorem isPage (wellFormed : WellFormed r lay) (isSlab : lay.use i = .slab c) :
    r.IsPage (r.page i) := by
  rw [Region.isPage_page_iff]
  constructor
  · by_contra below
    rw [(wellFormed.metadata i).mpr (by omega)] at isSlab
    cases isSlab
  · by_contra outside
    rw [wellFormed.outside i (by omega)] at isSlab
    cases isSlab

/-- The pages of a large block lie behind the page table. -/
theorem large_bounds (wellFormed : WellFormed r lay) (isLarge : lay.use i = .large first count) :
    r.metaPages ≤ first ∧ first + count ≤ r.total := by
  rcases wellFormed.large i first count isLarge with ⟨above, below, whole⟩
  constructor
  · by_contra inTable
    have isMetadata := (wellFormed.metadata first).mpr (by omega)
    rw [whole first (Nat.le_refl _) (by omega)] at isMetadata
    cases isMetadata
  · by_contra outside
    have isFree := wellFormed.outside (first + count - 1) (by omega)
    rw [whole (first + count - 1) (by omega) (by omega)] at isFree
    cases isFree

theorem free_bounds (wellFormed : WellFormed r lay) (isFree : lay.use i = .free) :
    r.metaPages ≤ i := by
  by_contra below
  rw [(wellFormed.metadata i).mpr (by omega)] at isFree
  cases isFree

end WellFormed

end Layout

end UniKernel.Heap
