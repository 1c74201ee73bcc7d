import Mathlib.Data.List.Perm.Subperm
import UniKernel.Heap.Steps

/-!
Owns `malloc` and `free` on layouts: `malloc` adds one new block or fails and
changes nothing, `free` takes its block away, and in between every slab has an
object in use.
-/

namespace UniKernel.Heap.Layout

open UniKernel.Lib

variable {r : Region} {lay lay' : Layout} {i c first count addr size obj slab : Nat}
  {rest nodes : List Nat}

/-! ### Objects of one slab -/

theorem Occupied.congr (sameUse : lay'.use = lay.use) (sameFree : lay'.freeObjects = lay.freeObjects) :
    Occupied r lay' addr size ↔ Occupied r lay addr size := by
  constructor
  · intro occupied
    cases occupied with
    | object use member taken => exact .object (sameUse ▸ use) member (sameFree ▸ taken)
    | pages use => exact .pages (sameUse ▸ use)
  · intro occupied
    cases occupied with
    | object use member taken => exact .object (sameUse ▸ use) member (sameFree ▸ taken)
    | pages use => exact .pages (sameUse ▸ use)

/-- The page of an object. -/
theorem index_of_mem (known : c < numCacheSizes) (member : addr ∈ objects c (r.page i)) :
    r.index addr = i := by
  have bounds := object_bounds known member
  have large := (class_facts c known).2.1
  unfold Region.index
  unfold Region.page at bounds
  omega

/-- A page does not start with an object. -/
theorem page_not_mem_objects (known : c < numCacheSizes) (j : Nat) :
    r.page j ∉ objects c (r.page i) := by
  intro member
  have bounds := object_bounds known member
  have large := (class_facts c known).2.1
  unfold Region.page at bounds
  omega

theorem occupied_object_iff (wellFormed : WellFormed r lay) (isSlab : lay.use i = .slab c)
    (member : addr ∈ objects c (r.page i)) :
    Occupied r lay addr size ↔ addr ∉ lay.freeObjects (r.page i) ∧ size = classSize c := by
  have known := wellFormed.known i c isSlab
  constructor
  · intro occupied
    cases occupied with
    | @object j c' _ use member' taken =>
        have same : i = j :=
          (index_of_mem known member).symm.trans (index_of_mem (wellFormed.known j c' use) member')
        rw [← same, isSlab] at use
        cases use
        rw [← same] at taken
        exact ⟨taken, rfl⟩
    | pages use => exact absurd member (page_not_mem_objects known _)
  · rintro ⟨taken, rfl⟩
    exact .object isSlab member taken

/-- Other blocks do not depend on the free objects of a slab. -/
theorem occupied_setFree_other (isSlab : lay.use i = .slab c)
    (notMember : addr ∉ objects c (r.page i)) :
    Occupied r (lay.setFree (r.page i) nodes) addr size ↔ Occupied r lay addr size := by
  have otherSlab : ∀ {j c'}, lay.use j = .slab c' → addr ∈ objects c' (r.page j) →
      (lay.setFree (r.page i) nodes).freeObjects (r.page j) = lay.freeObjects (r.page j) := by
    intro j c' use member
    rw [setFree_freeObjects, if_neg]
    intro samePage
    rw [Region.page_inj.mp samePage] at use member
    rw [isSlab] at use
    cases use
    exact notMember member
  constructor
  · intro occupied
    cases occupied with
    | object use member taken =>
        rw [otherSlab use member] at taken
        exact .object use member taken
    | pages use => exact .pages use
  · intro occupied
    cases occupied with
    | object use member taken =>
        refine .object use member ?_
        rwa [otherSlab use member]
    | pages use => exact .pages use

/-- An object is taken. -/
theorem occupied_take_iff (wellFormed : WellFormed r lay) (after : WellFormed r lay')
    (isSlab : lay.use i = .slab c) (someFree : lay.freeObjects (r.page i) = obj :: rest)
    (sameUse : lay'.use = lay.use)
    (sameFree : lay'.freeObjects = (lay.setFree (r.page i) rest).freeObjects) :
    Occupied r lay' addr size ↔ Occupied r lay addr size ∨ (addr = obj ∧ size = classSize c) := by
  have nodup := wellFormed.nodupFree i c isSlab
  have isMember := wellFormed.isObject i c isSlab obj (by simp [someFree])
  rw [someFree, List.nodup_cons] at nodup
  by_cases member : addr ∈ objects c (r.page i)
  · have isSlab' : lay'.use i = .slab c := by rw [sameUse, isSlab]
    rw [occupied_object_iff wellFormed isSlab member, occupied_object_iff after isSlab' member,
      sameFree, setFree_freeObjects_same, someFree, List.mem_cons, not_or]
    constructor
    · rintro ⟨taken, sizeEq⟩
      by_cases same : addr = obj
      · exact Or.inr ⟨same, sizeEq⟩
      · exact Or.inl ⟨⟨same, taken⟩, sizeEq⟩
    · rintro (⟨⟨-, taken⟩, sizeEq⟩ | ⟨rfl, sizeEq⟩)
      · exact ⟨taken, sizeEq⟩
      · exact ⟨nodup.1, sizeEq⟩
  · have same : Occupied r lay' addr size ↔ Occupied r (lay.setFree (r.page i) rest) addr size :=
      Occupied.congr sameUse sameFree
    rw [same, occupied_setFree_other isSlab member]
    have notObj : ¬ (addr = obj ∧ size = classSize c) := fun same => member (same.1 ▸ isMember)
    simp only [notObj, or_false]

/-- An object is given back. -/
theorem occupied_give_iff (wellFormed : WellFormed r lay) (after : WellFormed r lay')
    (isSlab : lay.use i = .slab c) (isMember : obj ∈ objects c (r.page i))
    (sameUse : lay'.use = lay.use)
    (sameFree : lay'.freeObjects = (lay.give (r.page i) obj).freeObjects) :
    Occupied r lay' addr size ↔ Occupied r lay addr size ∧ addr ≠ obj := by
  by_cases member : addr ∈ objects c (r.page i)
  · have isSlab' : lay'.use i = .slab c := by rw [sameUse, isSlab]
    rw [occupied_object_iff wellFormed isSlab member, occupied_object_iff after isSlab' member,
      sameFree, give, setFree_freeObjects_same, List.mem_cons, not_or]
    constructor
    · rintro ⟨⟨different, taken⟩, sizeEq⟩
      exact ⟨⟨taken, sizeEq⟩, different⟩
    · rintro ⟨⟨taken, sizeEq⟩, different⟩
      exact ⟨⟨different, taken⟩, sizeEq⟩
  · have same : Occupied r lay' addr size ↔ Occupied r (lay.give (r.page i) obj) addr size :=
      Occupied.congr sameUse sameFree
    rw [same, give, occupied_setFree_other isSlab member]
    have different : addr ≠ obj := fun same => member (same ▸ isMember)
    simp only [ne_eq, different, not_false_eq_true, and_true]

/-- A slab in which only `obj` is in use gives its page back. -/
theorem occupied_release_iff (wellFormed : WellFormed r lay) (isSlab : lay.use i = .slab c)
    (all : ∀ other ∈ objects c (r.page i), other ∈ lay.freeObjects (r.page i) ∨ other = obj)
    (isMember : obj ∈ objects c (r.page i))
    (useIs : ∀ j, lay'.use j = if j = i then .free else lay.use j)
    (freeIs : ∀ slab, lay'.freeObjects slab =
      if slab = r.page i then [] else lay.freeObjects slab) :
    Occupied r lay' addr size ↔ Occupied r lay addr size ∧ addr ≠ obj := by
  have known := wellFormed.known i c isSlab
  constructor
  · intro occupied
    cases occupied with
    | @object j c' _ use member taken =>
        rw [useIs] at use
        split at use
        · cases use
        · next different =>
            rw [freeIs, if_neg (fun same => different (Region.page_inj.mp same))] at taken
            refine ⟨.object use member taken, ?_⟩
            rintro rfl
            apply different
            rw [← index_of_mem known isMember, index_of_mem (wellFormed.known j c' use) member]
    | @pages j pages use =>
        rw [useIs] at use
        split at use
        · cases use
        · refine ⟨.pages use, ?_⟩
          rintro rfl
          exact page_not_mem_objects known _ isMember
  · rintro ⟨occupied, different⟩
    cases occupied with
    | @object j c' _ use member taken =>
        have otherPage : j ≠ i := by
          rintro rfl
          rw [isSlab] at use
          cases use
          rcases all addr member with free | same
          · exact taken free
          · exact different same
        refine .object ?_ member ?_
        · rw [useIs, if_neg otherPage, use]
        · rwa [freeIs, if_neg (fun same => otherPage (Region.page_inj.mp same))]
    | @pages j pages use =>
        refine .pages ?_
        rw [useIs, if_neg ?_, use]
        rintro rfl
        rw [isSlab] at use
        cases use

/-! ### Allocation -/

/-- `result` is a new block of `size` bytes, or NULL and nothing changed. -/
structure Allocates (r : Region) (lay : Layout) (size : Nat) (result : Nat × Layout) : Prop where
  wellFormed : WellFormed r result.2
  used : Used r result.2
  fails : result.1 = 0 → result.2 = lay
  fresh : ∀ before, ¬ Occupied r lay result.1 before
  occupied : result.1 ≠ 0 → ∀ addr bytes, Occupied r result.2 addr bytes ↔
    Occupied r lay addr bytes ∨ (addr = result.1 ∧ bytes = size)

theorem Occupied.ne_zero (wellFormed : WellFormed r lay) (occupied : Occupied r lay addr size) :
    addr ≠ 0 := by
  have inside := occupied.inside wellFormed
  have positive := r.metaPages_pos
  unfold Region.page at inside
  omega

theorem allocates_none (wellFormed : WellFormed r lay) (used : Used r lay) (size : Nat) :
    Allocates r lay size (0, lay) where
  wellFormed := wellFormed
  used := used
  fails _ := rfl
  fresh _ occupied := occupied.ne_zero wellFormed rfl
  occupied some := absurd rfl some

theorem allocLarge_allocates (wellFormed : WellFormed r lay) (used : Used r lay) (count : Nat) :
    Allocates r lay (count * 4096) (lay.allocLarge r count) := by
  unfold allocLarge
  split
  · next first found =>
      rcases findPages_spec wellFormed found with ⟨positive, above, bound, isFree⟩
      have firstFree := isFree first (Nat.le_refl _) (by omega)
      refine ⟨wellFormed_allocLarge wellFormed found, ?_, ?_, ?_, ?_⟩
      · intro j c isSlab
        dsimp only at isSlab ⊢
        rw [setUse_use] at isSlab
        split at isSlab
        · cases isSlab
        · exact used j c isSlab
      · intro isNull
        have page := Region.isPage_page_iff.mpr ⟨above, show first < r.total by omega⟩
        exact absurd isNull page.ne_zero
      · intro before occupied
        have positive := occupied.positive wellFormed
        apply not_guarded_free wellFormed firstFree (Nat.le_refl _) (by omega)
        exact ⟨_, _, occupied, Nat.le_refl _, by omega⟩
      · exact fun _ addr bytes => occupied_allocLarge_iff wellFormed found
  · exact allocates_none wellFormed used _

/-- A slab of cache `c` with a free object serves an allocation, whether or not
another object of it is in use already. -/
theorem take_allocates (wellFormed : WellFormed r lay) (isSlab : lay.use i = .slab c)
    (hasFree : listOf (lay.freeObjects (r.page i)) = .partlyUsed)
    (used : ∀ j c', j ≠ i → lay.use j = .slab c' →
      (lay.freeObjects (r.page j)).length < capacity c') :
    (lay.take c (r.page i)).1 ≠ 0 ∧ Allocates r lay (classSize c) (lay.take c (r.page i)) := by
  cases someFree : lay.freeObjects (r.page i) with
  | nil =>
      rw [someFree] at hasFree
      cases hasFree
  | cons obj rest =>
      have known := wellFormed.known i c isSlab
      have nodup := wellFormed.nodupFree i c isSlab
      have isObject := wellFormed.isObject i c isSlab
      rw [someFree] at nodup isObject
      have isMember := isObject obj (by simp)
      have nonzero : obj ≠ 0 := (isObject_of_mem known (wellFormed.isPage isSlab) isMember).ne_zero
      have length : rest.length < capacity c := by
        have bound := (List.subperm_of_subset nodup isObject).length_le
        rw [length_objects] at bound
        exact bound
      have after : WellFormed r (lay.take c (r.page i)).2 := by
        simp only [take, someFree]
        split
        · next last =>
            subst last
            exact wellFormed_relist wellFormed isSlab List.nodup_nil (by simp) hasFree rfl (by simp)
        · next more =>
            apply wellFormed_setFree wellFormed isSlab (List.nodup_cons.mp nodup).2
            · exact fun other member => isObject other (List.mem_cons_of_mem _ member)
            · rw [hasFree, listOf, if_neg more]
      have sameUse : (lay.take c (r.page i)).2.use = lay.use := by
        simp only [take, someFree]
        split <;> rfl
      have sameFree : (lay.take c (r.page i)).2.freeObjects =
          (lay.setFree (r.page i) rest).freeObjects := by
        simp only [take, someFree]
        split <;> rfl
      have result : (lay.take c (r.page i)).1 = obj := by simp only [take, someFree]
      refine ⟨by rwa [result], after, ?_, ?_, ?_, ?_⟩
      · intro j c' isSlab'
        rw [sameUse] at isSlab'
        rw [sameFree, setFree_freeObjects]
        split
        · next samePage =>
            rw [Region.page_inj.mp samePage, isSlab] at isSlab'
            cases isSlab'
            exact length
        · next otherPage => exact used j c' (fun same => otherPage (Region.page_inj.mpr same)) isSlab'
      · intro isNull
        rw [result] at isNull
        exact absurd isNull nonzero
      · intro before occupied
        rw [result, occupied_object_iff wellFormed isSlab isMember, someFree] at occupied
        exact occupied.1 (by simp)
      · intro _ addr bytes
        rw [result]
        exact occupied_take_iff wellFormed after isSlab someFree sameUse sameFree

/-- A slab without an object in use holds no block. -/
theorem occupied_initSlab_iff (isFree : lay.use i = .free) :
    Occupied r ((lay.initSlab r c i).push c .partlyUsed (r.page i)) addr size ↔
      Occupied r lay addr size := by
  have useIs : ∀ j, ((lay.initSlab r c i).push c .partlyUsed (r.page i)).use j =
      if j = i then .slab c else lay.use j := by
    intro j
    simp only [push_use, initSlab, setFree_use, setUse_use]
    congr 1
    exact propext ⟨fun between => by omega, fun same => by omega⟩
  have freeIs : ∀ {j : Nat}, j ≠ i →
      ((lay.initSlab r c i).push c .partlyUsed (r.page i)).freeObjects (r.page j) =
        lay.freeObjects (r.page j) := by
    intro j different
    rw [push_freeObjects, initSlab, setFree_freeObjects,
      if_neg (fun same => different (Region.page_inj.mp same))]
    rfl
  constructor
  · intro occupied
    cases occupied with
    | @object j c' _ use member taken =>
        by_cases same : j = i
        · rw [useIs, if_pos same] at use
          cases use
          rw [push_freeObjects, initSlab, same, setFree_freeObjects_same] at taken
          rw [same] at member
          exact absurd member taken
        · rw [freeIs same] at taken
          rw [useIs, if_neg same] at use
          exact .object use member taken
    | pages use =>
        rw [useIs] at use
        split at use
        · cases use
        · exact .pages use
  · intro occupied
    cases occupied with
    | @object j c' _ use member taken =>
        have different : j ≠ i := by
          rintro rfl
          rw [isFree] at use
          cases use
        refine .object ?_ member ?_
        · rw [useIs, if_neg different, use]
        · rwa [freeIs different]
    | @pages j pages use =>
        refine .pages ?_
        rw [useIs, if_neg ?_, use]
        rintro rfl
        rw [isFree] at use
        cases use

/-- `cache_alloc` fails only without a partly used slab and without a free page. -/
theorem cacheAlloc_allocates (wellFormed : WellFormed r lay) (used : Used r lay)
    (known : c < numCacheSizes) : Allocates r lay (classSize c) (lay.cacheAlloc r c) ∧
      ((lay.cacheAlloc r c).1 = 0 → lay.slabs c .partlyUsed = [] ∧ lay.findPages r 1 = none) := by
  unfold cacheAlloc
  split
  · next slab others nonempty =>
      have member : slab ∈ lay.slabs c .partlyUsed := by simp [nonempty]
      rcases (wellFormed.listed c _ slab).mp member with ⟨i, rfl, isSlab, isPartly⟩
      rcases take_allocates wellFormed isSlab isPartly.symm fun j c' _ => used j c' with ⟨nonzero, taken⟩
      exact ⟨taken, fun isNull => absurd isNull nonzero⟩
  · split
    · next i found =>
        rcases findPages_spec wellFormed found with ⟨-, above, bound, allFree⟩
        have isFree := allFree i (Nat.le_refl _) (by omega)
        have fresh := wellFormed_initSlab (c := c) wellFormed isFree (by omega) known
        have isSlab : ((lay.initSlab r c i).push c .partlyUsed (r.page i)).use i = .slab c := by
          rw [push_use, initSlab, setFree_use, setUse_use, if_pos (by omega)]
        have isPartly : listOf (((lay.initSlab r c i).push c .partlyUsed (r.page i)).freeObjects
            (r.page i)) = .partlyUsed := by
          have member : r.page i ∈ ((lay.initSlab r c i).push c .partlyUsed (r.page i)).slabs c
              .partlyUsed := by simp [push_slabs]
          rcases (fresh.listed c _ _).mp member with ⟨-, -, -, isPartly⟩
          exact isPartly.symm
        have usedBefore : ∀ j c', j ≠ i →
            ((lay.initSlab r c i).push c .partlyUsed (r.page i)).use j = .slab c' →
            (((lay.initSlab r c i).push c .partlyUsed (r.page i)).freeObjects (r.page j)).length <
              capacity c' := by
          intro j c' different isSlab'
          rw [push_use, initSlab, setFree_use, setUse_use, if_neg (by omega)] at isSlab'
          rw [push_freeObjects, initSlab, setFree_freeObjects,
            if_neg (fun same => different (Region.page_inj.mp same))]
          exact used j c' isSlab'
        rcases take_allocates fresh isSlab isPartly usedBefore with ⟨nonzero, taken⟩
        refine ⟨⟨taken.wellFormed, taken.used, fun isNull => absurd isNull nonzero, ?_, ?_⟩,
          fun isNull => absurd isNull nonzero⟩
        · intro before occupied
          exact taken.fresh before ((occupied_initSlab_iff isFree).mpr occupied)
        · intro _ addr bytes
          rw [taken.occupied nonzero, occupied_initSlab_iff isFree]
    · next noPage => exact ⟨allocates_none wellFormed used _, fun _ => ⟨‹_›, noPage⟩⟩

/-- The size of the block that `malloc` returns for a request. -/
def blockSize (size : Nat) : Nat :=
  if size ≤ 2048 then
    match classFor size with
    | some c => classSize c
    | none => 0
  else u64 (size + 4095) / 4096 * 4096

theorem classFor_spec (small : size ≤ 2048) :
    ∃ c, classFor size = some c ∧ c < numCacheSizes ∧ size ≤ classSize c := by
  cases found : classFor size with
  | none =>
      rw [classFor, List.find?_range_eq_none] at found
      have last := found 7 (by decide)
      have largest : classSize 7 = 2048 := rfl
      rw [largest] at last
      simp [small] at last
  | some c =>
      rw [classFor, List.find?_range_eq_some] at found
      rcases found with ⟨fits, below, -⟩
      exact ⟨c, rfl, List.mem_range.mp below, by simpa using fits⟩

theorem malloc_allocates (wellFormed : WellFormed r lay) (used : Used r lay) (size : Nat) :
    Allocates r lay (blockSize size) (lay.malloc r size) := by
  unfold malloc
  split
  · exact allocates_none wellFormed used _
  · unfold blockSize
    split
    · next small =>
        rcases classFor_spec small with ⟨c, found, known, -⟩
        rw [found]
        exact (cacheAlloc_allocates wellFormed used known).1
    · exact allocLarge_allocates wellFormed used _

/-- The rounded size of a large block does not wrap around: 0 pages are never found. -/
theorem noWrap (large : 2048 < size) (small : size < 2 ^ 64) (some : (lay.malloc r size).1 ≠ 0) :
    size + 4095 < 2 ^ 64 := by
  by_contra wraps
  have noPages : u64 (size + 4095) / 4096 = 0 := by
    unfold u64
    omega
  apply absurd ?_ some
  rw [malloc, if_neg (by omega), if_neg (by omega), noPages]
  rfl

/-- A block has at least the requested size. -/
theorem le_blockSize (small : size < 2 ^ 64) (some : (lay.malloc r size).1 ≠ 0) :
    size ≤ blockSize size := by
  unfold blockSize
  split
  · next inClass =>
      rcases classFor_spec inClass with ⟨c, found, -, fits⟩
      rw [found]
      exact fits
  · next large =>
      rw [u64_of_lt (noWrap (Nat.not_le.mp large) small some)]
      omega

/-! ### Freeing -/

theorem cacheFree_spec (wellFormed : WellFormed r lay) (used : Used r lay)
    (isSlab : lay.use i = .slab c) (isMember : obj ∈ objects c (r.page i))
    (taken : obj ∉ lay.freeObjects (r.page i)) :
    WellFormed r (lay.cacheFree r c (r.page i) obj) ∧ Used r (lay.cacheFree r c (r.page i) obj) ∧
      ∀ addr size, Occupied r (lay.cacheFree r c (r.page i) obj) addr size ↔
        Occupied r lay addr size ∧ addr ≠ obj := by
  have nodup : (obj :: lay.freeObjects (r.page i)).Nodup :=
    List.nodup_cons.mpr ⟨taken, wellFormed.nodupFree i c isSlab⟩
  have isObject : ∀ other ∈ obj :: lay.freeObjects (r.page i), other ∈ objects c (r.page i) := by
    intro other member
    rcases List.mem_cons.mp member with rfl | earlier
    · exact isMember
    · exact wellFormed.isObject i c isSlab other earlier
  have usedAfter : ∀ {nodes : List Nat} {after : Layout}, nodes.length < capacity c →
      after.use = lay.use → after.freeObjects = (lay.setFree (r.page i) nodes).freeObjects →
      Used r after := by
    intro nodes after length sameUse sameFree j c' isSlab'
    rw [sameUse] at isSlab'
    rw [sameFree, setFree_freeObjects]
    split
    · next samePage =>
        rw [Region.page_inj.mp samePage, isSlab] at isSlab'
        cases isSlab'
        exact length
    · exact used j c' isSlab'
  have bound : (obj :: lay.freeObjects (r.page i)).length ≤ capacity c := by
    rw [← length_objects c (r.page i)]
    exact (List.subperm_of_subset nodup isObject).length_le
  simp only [cacheFree, give, setFree_freeObjects_same]
  by_cases last : (obj :: lay.freeObjects (r.page i)).length = capacity c
  · rw [if_pos last]
    have all : ∀ other ∈ objects c (r.page i), other ∈ lay.freeObjects (r.page i) ∨ other = obj := by
      intro other member
      have everything := (List.subperm_of_subset nodup isObject).perm_of_length_le
        (by rw [last, length_objects])
      rcases List.mem_cons.mp (everything.mem_iff.mpr member) with same | free
      · exact Or.inr same
      · exact Or.inl free
    have useIs : ∀ j, (((lay.setFree (r.page i) (obj :: lay.freeObjects (r.page i))).unlink c
        (listOf (lay.freeObjects (r.page i))) (r.page i)).releaseSlab r (r.page i)).use j =
          if j = i then .free else lay.use j := by
      intro j
      simp only [releaseSlab, setFree_use, setUse_use, Region.index_page, unlink_use]
      congr 1
      exact propext ⟨fun between => by omega, fun same => by omega⟩
    have freeIs : ∀ slab, (((lay.setFree (r.page i) (obj :: lay.freeObjects (r.page i))).unlink c
        (listOf (lay.freeObjects (r.page i))) (r.page i)).releaseSlab r (r.page i)).freeObjects slab =
          if slab = r.page i then [] else lay.freeObjects slab := by
      intro slab
      rw [releaseSlab, setFree_freeObjects]
      split
      · rfl
      · next different =>
          rw [setUse_freeObjects, unlink_freeObjects, setFree_freeObjects, if_neg different]
    refine ⟨wellFormed_releaseSlab wellFormed isSlab, ?_, ?_⟩
    · intro j c' isSlab'
      rw [useIs] at isSlab'
      split at isSlab'
      · cases isSlab'
      · next different =>
          rw [freeIs, if_neg (fun same => different (Region.page_inj.mp same))]
          exact used j c' isSlab'
    · exact fun addr size => occupied_release_iff wellFormed isSlab all isMember useIs freeIs
  · rw [if_neg last]
    have length : (obj :: lay.freeObjects (r.page i)).length < capacity c := by omega
    split
    · next wasFull =>
        have after := wellFormed_relist wellFormed isSlab nodup isObject
          (show listOf (lay.freeObjects (r.page i)) = .full by rw [wasFull]; rfl)
          (show listOf (obj :: lay.freeObjects (r.page i)) = .partlyUsed from rfl) (by simp)
        exact ⟨after, usedAfter length rfl rfl,
          fun addr size => occupied_give_iff wellFormed after isSlab isMember rfl rfl⟩
    · next someFree =>
        have after := wellFormed_setFree wellFormed isSlab nodup isObject
          (show listOf (obj :: lay.freeObjects (r.page i)) = listOf (lay.freeObjects (r.page i)) by
            rw [listOf, if_neg (by simp), listOf, if_neg someFree])
        exact ⟨after, usedAfter length rfl rfl,
          fun addr size => occupied_give_iff wellFormed after isSlab isMember rfl rfl⟩

/-- `free` takes the block it is given away, at most. -/
theorem free_spec (wellFormed : WellFormed r lay) (used : Used r lay)
    (occupied : Occupied r lay obj size) :
    WellFormed r (lay.free r obj) ∧ Used r (lay.free r obj) ∧
      ∀ addr bytes, Occupied r lay addr bytes → addr ≠ obj → Occupied r (lay.free r obj) addr bytes := by
  rw [free, if_neg (occupied.ne_zero wellFormed)]
  by_cases behind : r.reach ≤ r.index obj
  · rw [if_pos behind]
    exact ⟨wellFormed, used, fun addr bytes before _ => before⟩
  · rw [if_neg behind]
    cases occupied with
    | @object i c _ isSlab member taken =>
        rw [index_of_mem (wellFormed.known i c isSlab) member, isSlab]
        rcases cacheFree_spec wellFormed used isSlab member taken with ⟨after, stillUsed, remaining⟩
        exact ⟨after, stillUsed, fun addr bytes before different =>
          (remaining addr bytes).mpr ⟨before, different⟩⟩
    | @pages i count isLarge =>
        rw [Region.index_page, isLarge]
        refine ⟨wellFormed_freeLarge wellFormed isLarge, ?_, ?_⟩
        · intro j c isSlab
          rw [freeLarge_use] at isSlab
          split at isSlab
          · cases isSlab
          · split at isSlab
            · cases isSlab
            · exact used j c isSlab
        · exact fun addr bytes before different => occupied_freeLarge wellFormed isLarge before different

/-- The index of the page a block starts in. -/
theorem Occupied.index_lt (wellFormed : WellFormed r lay) (occupied : Occupied r lay obj size) :
    r.index obj < r.total := by
  have inside := occupied.inside wellFormed
  have positive := occupied.positive wellFormed
  unfold Region.index
  unfold Region.page at inside
  omega

/-- In a region whose counts fit the table, it takes the block away. -/
theorem of_occupied_free (small : r.Small) (wellFormed : WellFormed r lay) (used : Used r lay)
    (occupied : Occupied r lay obj size) {addr bytes : Nat}
    (remaining : Occupied r (lay.free r obj) addr bytes) :
    Occupied r lay addr bytes ∧ addr ≠ obj := by
  have inside := occupied.index_lt wellFormed
  rw [free, if_neg (occupied.ne_zero wellFormed), Region.reach_of_small small,
    if_neg (Nat.not_le.mpr inside)] at remaining
  cases occupied with
  | @object i c _ isSlab member taken =>
      rw [index_of_mem (wellFormed.known i c isSlab) member, isSlab] at remaining
      exact ((cacheFree_spec wellFormed used isSlab member taken).2.2 addr bytes).mp remaining
  | @pages i count isLarge =>
      have bounds := wellFormed.large_bounds isLarge
      rw [Region.index_page, isLarge] at remaining
      have pages := small.1
      exact of_occupied_freeLarge wellFormed isLarge (by omega) remaining

/-- The size `realloc` sees is at most the block's. -/
theorem sizeAt_le (wellFormed : WellFormed r lay) (occupied : Occupied r lay obj size) :
    lay.sizeAt r obj ≤ size := by
  unfold sizeAt
  split
  · exact Nat.zero_le size
  · cases occupied with
    | @object i c _ isSlab member taken =>
        rw [index_of_mem (wellFormed.known i c isSlab) member, isSlab]
    | @pages i count isLarge =>
        rw [Region.index_page, isLarge]
        exact Nat.mul_le_mul_right _ (u16_le count)

/-- In a region whose counts fit the table, it is the block's. -/
theorem sizeAt_eq (small : r.Small) (wellFormed : WellFormed r lay)
    (occupied : Occupied r lay obj size) : lay.sizeAt r obj = size := by
  have inside := occupied.index_lt wellFormed
  rw [sizeAt, Region.reach_of_small small, if_neg (Nat.not_le.mpr inside)]
  cases occupied with
  | @object i c _ isSlab member taken =>
      rw [index_of_mem (wellFormed.known i c isSlab) member, isSlab]
  | @pages i count isLarge =>
      have bounds := wellFormed.large_bounds isLarge
      have pages := small.1
      rw [Region.index_page, isLarge]
      dsimp only
      rw [u16_of_lt (by omega)]

/-- Without blocks the layout is the one `heap_init` leaves. -/
theorem eq_initial (wellFormed : WellFormed r lay) (used : Used r lay)
    (none : ∀ addr size, ¬ Occupied r lay addr size) : lay = initial r := by
  have noSlab : ∀ i c, lay.use i ≠ .slab c := by
    intro i c isSlab
    apply absurd (used i c isSlab)
    have known := wellFormed.known i c isSlab
    have allFree : ∀ obj ∈ objects c (r.page i), obj ∈ lay.freeObjects (r.page i) := by
      intro obj member
      by_contra taken
      exact none _ _ (.object isSlab member taken)
    have bound := (List.subperm_of_subset (nodup_objects known _) allFree).length_le
    rw [length_objects] at bound
    omega
  have noLarge : ∀ i first count, lay.use i ≠ .large first count := by
    intro i first count isLarge
    have run := wellFormed.large i first count isLarge
    exact none _ _ (.pages (run.2.2 first (Nat.le_refl _) (by omega)))
  have useIs : lay.use = (initial r).use := by
    funext i
    show lay.use i = if i < r.metaPages then .metadata else .free
    split
    · next inTable => exact (wellFormed.metadata i).mpr inTable
    · next behind =>
        cases use : lay.use i with
        | free => rfl
        | metadata => exact absurd ((wellFormed.metadata i).mp use) behind
        | slab c => exact absurd use (noSlab i c)
        | large first count => exact absurd use (noLarge i first count)
  have freeIs : lay.freeObjects = (initial r).freeObjects := by
    funext slab
    exact wellFormed.noObjects slab fun i c _ => noSlab i c
  have slabsAre : lay.slabs = (initial r).slabs := by
    funext c which
    apply List.eq_nil_iff_forall_not_mem.mpr
    intro slab member
    rcases (wellFormed.listed c which slab).mp member with ⟨i, -, isSlab, -⟩
    exact noSlab i c isSlab
  cases lay
  cases useIs
  cases freeIs
  cases slabsAre
  rfl

end UniKernel.Heap.Layout
