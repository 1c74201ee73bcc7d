import UniKernel.Heap.Occupied

/-!
Owns what the operations do to a layout: each keeps it well formed, and each
adds or removes the one block it is about.
-/

namespace UniKernel.Heap.Layout

open UniKernel.Lib

variable {r : Region} {lay lay' : Layout} {i c first count addr size obj : Nat} {rest nodes : List Nat}

/-! ### Large blocks -/

/-- Only pages that are no slabs change their use. -/
theorem WellFormed.of_sameSlabs (wellFormed : WellFormed r lay)
    (sameSlabs : ∀ i c, lay'.use i = .slab c ↔ lay.use i = .slab c)
    (sameFree : lay'.freeObjects = lay.freeObjects) (sameLists : lay'.slabs = lay.slabs)
    (metadata : ∀ i, lay'.use i = .metadata ↔ i < r.metaPages)
    (outside : ∀ i, r.total ≤ i → lay'.use i = .free)
    (large : ∀ i first count, lay'.use i = .large first count → first ≤ i ∧ i < first + count ∧
      ∀ j, first ≤ j → j < first + count → lay'.use j = .large first count) :
    WellFormed r lay' where
  metadata := metadata
  outside := outside
  large := large
  known i c isSlab := wellFormed.known i c ((sameSlabs i c).mp isSlab)
  nodupFree i c isSlab := by
    rw [sameFree]
    exact wellFormed.nodupFree i c ((sameSlabs i c).mp isSlab)
  isObject i c isSlab := by
    rw [sameFree]
    exact wellFormed.isObject i c ((sameSlabs i c).mp isSlab)
  noObjects slab noSlab := by
    rw [sameFree]
    apply wellFormed.noObjects
    intro i c isPage isSlab
    exact noSlab i c isPage ((sameSlabs i c).mpr isSlab)
  listed c which slab := by
    simp only [sameLists, sameFree, wellFormed.listed, sameSlabs]
  nodupSlabs c which := by
    rw [sameLists]
    exact wellFormed.nodupSlabs c which

/-- The pages that `findPages` finds are free pages of the region. -/
theorem findPages_spec (wellFormed : WellFormed r lay) (found : lay.findPages r count = some first) :
    0 < count ∧ r.metaPages ≤ first ∧ first + count ≤ r.total ∧
      ∀ j, first ≤ j → j < first + count → lay.use j = .free := by
  rcases fits_of_firstFit found with ⟨positive, bound, allFree⟩
  have isFree : ∀ j, first ≤ j → j < first + count → lay.use j = .free := by
    intro j above below
    have offset := allFree (j - first) (by omega)
    rwa [show first + (j - first) = j by omega] at offset
  refine ⟨by omega, ?_, bound, isFree⟩
  exact wellFormed.free_bounds (isFree first (Nat.le_refl _) (by omega))

theorem wellFormed_allocLarge (wellFormed : WellFormed r lay)
    (found : lay.findPages r count = some first) :
    WellFormed r (lay.setUse first count (.large first count)) := by
  rcases findPages_spec wellFormed found with ⟨positive, above, bound, isFree⟩
  refine wellFormed.of_sameSlabs ?_ rfl rfl ?_ ?_ ?_
  · intro j c
    rw [setUse_use]
    split
    · next inRun => simp [isFree j inRun.1 inRun.2]
    · exact Iff.rfl
  · intro j
    rw [setUse_use]
    split
    · next inRun => exact iff_of_false (by simp) (by omega)
    · exact wellFormed.metadata j
  · intro j outside
    rw [setUse_use, if_neg (by omega)]
    exact wellFormed.outside j outside
  · intro j start pages isLarge
    rw [setUse_use] at isLarge
    split at isLarge
    · next inRun =>
        cases isLarge
        refine ⟨inRun.1, inRun.2, ?_⟩
        intro k fromStart toEnd
        rw [setUse_use, if_pos ⟨fromStart, toEnd⟩]
    · rcases wellFormed.large j start pages isLarge with ⟨fromStart, toEnd, whole⟩
      refine ⟨fromStart, toEnd, ?_⟩
      intro k fromStart toEnd
      have useOf := whole k fromStart toEnd
      rw [setUse_use, if_neg ?_, useOf]
      intro inRun
      rw [isFree k inRun.1 inRun.2] at useOf
      cases useOf

theorem occupied_allocLarge_iff (wellFormed : WellFormed r lay)
    (found : lay.findPages r count = some first) :
    Occupied r (lay.setUse first count (.large first count)) addr size ↔
      Occupied r lay addr size ∨ (addr = r.page first ∧ size = count * 4096) := by
  rcases findPages_spec wellFormed found with ⟨positive, above, bound, isFree⟩
  have notFirst : ∀ {j : Nat}, lay.use j ≠ .free → ¬ (first ≤ j ∧ j < first + count) :=
    fun notFree inRun => notFree (isFree _ inRun.1 inRun.2)
  constructor
  · intro occupied
    cases occupied with
    | @object j c _ use member taken =>
        rw [setUse_use] at use
        split at use
        · cases use
        · exact Or.inl (.object use member taken)
    | @pages j pages use =>
        rw [setUse_use] at use
        split at use
        · cases use
          exact Or.inr ⟨rfl, rfl⟩
        · exact Or.inl (.pages use)
  · rintro (occupied | ⟨rfl, rfl⟩)
    · cases occupied with
      | @object j c _ use member taken =>
          refine .object ?_ member taken
          rw [setUse_use, if_neg (notFirst (by simp [use])), use]
      | @pages j pages use =>
          refine .pages ?_
          rw [setUse_use, if_neg (notFirst (by simp [use])), use]
    · refine .pages ?_
      rw [setUse_use, if_pos (by omega)]

theorem freeLarge_use (lay : Layout) (first count j : Nat) : (lay.freeLarge first count).use j =
    if first ≤ j ∧ j < first + u16 count then .free
    else if first ≤ j ∧ j < first + count then .large (first + u16 count) (count - u16 count)
    else lay.use j := rfl

theorem wellFormed_freeLarge (wellFormed : WellFormed r lay)
    (isLarge : lay.use first = .large first count) : WellFormed r (lay.freeLarge first count) := by
  rcases wellFormed.large_bounds isLarge with ⟨above, bound⟩
  have whole := (wellFormed.large first first count isLarge).2.2
  have le := u16_le count
  refine wellFormed.of_sameSlabs ?_ rfl rfl ?_ ?_ ?_
  · intro j c
    rw [freeLarge_use]
    split
    · next inRun => simp [whole j inRun.1 (by omega)]
    · split
      · next inRest => simp [whole j inRest.1 inRest.2]
      · exact Iff.rfl
  · intro j
    rw [freeLarge_use]
    split
    · next inRun => exact iff_of_false (by simp) (by omega)
    · split
      · next inRest => exact iff_of_false (by simp) (by omega)
      · exact wellFormed.metadata j
  · intro j outside
    rw [freeLarge_use]
    split
    · rfl
    · rw [if_neg (by omega)]
      exact wellFormed.outside j outside
  · intro j start pages use
    rw [freeLarge_use] at use
    split at use
    · cases use
    · next notFreed =>
        split at use
        · next inRest =>
            cases use
            refine ⟨by omega, by omega, ?_⟩
            intro k fromStart toEnd
            rw [freeLarge_use, if_neg (by omega), if_pos (by omega)]
        · next notInRun =>
            rcases wellFormed.large j start pages use with ⟨fromStart, toEnd, all⟩
            refine ⟨fromStart, toEnd, ?_⟩
            intro k fromStart toEnd
            have notInBlock : ¬ (first ≤ k ∧ k < first + count) := by
              intro inRun
              -- a page of both runs makes them one
              have common := whole k inRun.1 inRun.2
              rw [all k fromStart toEnd] at common
              cases common
              omega
            rw [freeLarge_use, if_neg (by omega), if_neg notInBlock, all k fromStart toEnd]

/-- The other blocks stay. -/
theorem occupied_freeLarge (wellFormed : WellFormed r lay)
    (isLarge : lay.use first = .large first count) (occupied : Occupied r lay addr size)
    (different : addr ≠ r.page first) : Occupied r (lay.freeLarge first count) addr size := by
  have run := wellFormed.large first first count isLarge
  have le := u16_le count
  have outside : ∀ {j : Nat} {use : PageUse}, lay.use j = use → use ≠ .large first count →
      (lay.freeLarge first count).use j = use := by
    intro j use useIs other
    have notInRun : ¬ (first ≤ j ∧ j < first + count) := by
      intro inRun
      rw [run.2.2 j inRun.1 inRun.2] at useIs
      exact other useIs.symm
    rw [freeLarge_use, if_neg (by omega), if_neg notInRun, useIs]
  cases occupied with
  | @object j c _ use member taken => exact .object (outside use (by simp)) member taken
  | @pages j pages use =>
      refine .pages (outside use ?_)
      intro same
      cases same
      exact different rfl

/-- A block with few enough pages for their count is freed whole. -/
theorem of_occupied_freeLarge (wellFormed : WellFormed r lay)
    (isLarge : lay.use first = .large first count) (few : count ≤ 65535)
    (occupied : Occupied r (lay.freeLarge first count) addr size) :
    Occupied r lay addr size ∧ addr ≠ r.page first := by
  have run := wellFormed.large first first count isLarge
  have whole : u16 count = count := u16_of_lt (by omega)
  have before : ∀ {j : Nat} {use : PageUse}, (lay.freeLarge first count).use j = use → use ≠ .free →
      lay.use j = use ∧ ¬ (first ≤ j ∧ j < first + count) := by
    intro j use useIs notFree
    rw [freeLarge_use, whole] at useIs
    split at useIs
    · exact absurd useIs.symm notFree
    · next outside =>
        exact ⟨useIs, outside⟩
  cases occupied with
  | @object j c _ use member taken =>
      have useBefore := (before use (by simp)).1
      have occupied : Occupied r lay addr (classSize c) := .object useBefore member taken
      refine ⟨occupied, ?_⟩
      rintro rfl
      have bounds := object_bounds (wellFormed.known j c useBefore) member
      have large := (class_facts c (wellFormed.known j c useBefore)).2.1
      have same : first = j := by
        unfold Region.page at bounds
        omega
      rw [same, useBefore] at isLarge
      cases isLarge
  | @pages j pages use =>
      rcases before use (by simp) with ⟨useBefore, outside⟩
      refine ⟨.pages useBefore, ?_⟩
      rw [ne_eq, Region.page_inj]
      rintro rfl
      exact outside ⟨run.1, run.2.1⟩

/-! ### Slabs -/

/-- What page `i` is behind a change: free, or a slab whose free objects are its own. -/
inductive NewPage (r : Region) (i : Nat) (lay : Layout) : Prop where
  | free (isFree : lay.use i = .free) (noObjects : lay.freeObjects (r.page i) = []) : NewPage r i lay
  | slab {c : Nat} (known : c < numCacheSizes) (isSlab : lay.use i = .slab c)
      (nodup : (lay.freeObjects (r.page i)).Nodup)
      (isObject : ∀ obj ∈ lay.freeObjects (r.page i), obj ∈ objects c (r.page i)) : NewPage r i lay

/-- Nothing changes but page `i`, its free objects and its place in the lists. -/
structure ChangesPage (r : Region) (i : Nat) (lay lay' : Layout) : Prop where
  use : ∀ j, j ≠ i → lay'.use j = lay.use j
  freeObjects : ∀ slab, slab ≠ r.page i → lay'.freeObjects slab = lay.freeObjects slab
  slabs : ∀ c which slab, slab ≠ r.page i → (slab ∈ lay'.slabs c which ↔ slab ∈ lay.slabs c which)

theorem exists_page_iff {P : Nat → Prop} : (∃ j, r.page i = r.page j ∧ P j) ↔ P i := by
  constructor
  · rintro ⟨j, samePage, holds⟩
    rwa [Region.page_inj.mp samePage]
  · exact fun holds => ⟨i, rfl, holds⟩

/-- A change of a page that is free or a slab keeps a layout well formed if the page is
in the one list that its free objects ask for. -/
theorem WellFormed.changePage (wellFormed : WellFormed r lay) (only : ChangesPage r i lay lay')
    (inside : r.metaPages ≤ i ∧ i < r.total) (notLarge : ∀ first count, lay.use i ≠ .large first count)
    (newPage : NewPage r i lay')
    (listed : ∀ c which, r.page i ∈ lay'.slabs c which ↔
      lay'.use i = .slab c ∧ which = listOf (lay'.freeObjects (r.page i)))
    (nodup : ∀ c which, (lay'.slabs c which).Nodup) : WellFormed r lay' where
  metadata j := by
    by_cases same : j = i
    · subst same
      refine iff_of_false ?_ (by omega)
      intro isMetadata
      cases newPage with
      | free isFree _ => exact absurd (isFree.symm.trans isMetadata) (by simp)
      | slab _ isSlab _ _ => exact absurd (isSlab.symm.trans isMetadata) (by simp)
    · rw [only.use j same]
      exact wellFormed.metadata j
  outside j beyond := by
    rw [only.use j (by omega)]
    exact wellFormed.outside j beyond
  known j c isSlab := by
    by_cases same : j = i
    · subst same
      cases newPage with
      | free isFree _ => exact absurd (isFree.symm.trans isSlab) (by simp)
      | slab known isNew _ _ =>
          cases isNew.symm.trans isSlab
          exact known
    · rw [only.use j same] at isSlab
      exact wellFormed.known j c isSlab
  large j first count isLarge := by
    have different : ∀ k, lay.use k = .large first count → k ≠ i := by
      rintro k isLarge rfl
      exact notLarge first count isLarge
    have before : lay.use j = .large first count := by
      by_cases same : j = i
      · subst same
        cases newPage with
        | free isFree _ => exact absurd (isFree.symm.trans isLarge) (by simp)
        | slab _ isSlab _ _ => exact absurd (isSlab.symm.trans isLarge) (by simp)
      · rwa [only.use j same] at isLarge
    rcases wellFormed.large j first count before with ⟨fromStart, toEnd, whole⟩
    refine ⟨fromStart, toEnd, ?_⟩
    intro k above below
    rw [only.use k (different k (whole k above below))]
    exact whole k above below
  nodupFree j c isSlab := by
    by_cases same : j = i
    · subst same
      cases newPage with
      | free isFree _ => exact absurd (isFree.symm.trans isSlab) (by simp)
      | slab _ _ nodup _ => exact nodup
    · rw [only.use j same] at isSlab
      rw [only.freeObjects _ fun samePage => same (Region.page_inj.mp samePage)]
      exact wellFormed.nodupFree j c isSlab
  isObject j c isSlab := by
    by_cases same : j = i
    · subst same
      cases newPage with
      | free isFree _ => exact absurd (isFree.symm.trans isSlab) (by simp)
      | slab _ isNew _ isObject =>
          cases isNew.symm.trans isSlab
          exact isObject
    · rw [only.use j same] at isSlab
      rw [only.freeObjects _ fun samePage => same (Region.page_inj.mp samePage)]
      exact wellFormed.isObject j c isSlab
  noObjects slab noSlab := by
    by_cases same : slab = r.page i
    · subst same
      cases newPage with
      | free _ noObjects => exact noObjects
      | slab _ isSlab _ _ => exact absurd isSlab (noSlab i _ rfl)
    · rw [only.freeObjects slab same]
      apply wellFormed.noObjects
      intro j c isPage
      rw [← only.use j fun sameIndex => same (sameIndex ▸ isPage)]
      exact noSlab j c isPage
  listed c which slab := by
    by_cases same : slab = r.page i
    · subst same
      exact (listed c which).trans (exists_page_iff
        (P := fun j => lay'.use j = .slab c ∧ which = listOf (lay'.freeObjects (r.page i)))).symm
    · rw [only.slabs c which slab same, wellFormed.listed, only.freeObjects slab same]
      apply exists_congr
      intro j
      apply and_congr_right
      intro isPage
      rw [only.use j fun sameIndex => same (sameIndex ▸ isPage)]
  nodupSlabs := nodup

/-- A page is in the list of its class that its free objects ask for. -/
theorem WellFormed.page_listed (wellFormed : WellFormed r lay) (c : Nat) (which : SlabList) :
    r.page i ∈ lay.slabs c which ↔
      lay.use i = .slab c ∧ which = listOf (lay.freeObjects (r.page i)) :=
  (wellFormed.listed c which _).trans
    (exists_page_iff (P := fun j => lay.use j = .slab c ∧ which = listOf (lay.freeObjects (r.page i))))

/-- A page that is not used yet, and that a slab can be made of. -/
theorem WellFormed.not_listed (wellFormed : WellFormed r lay) (isFree : lay.use i = .free) (c : Nat)
    (which : SlabList) : r.page i ∉ lay.slabs c which := by
  rw [wellFormed.page_listed, isFree]
  rintro ⟨isSlab, -⟩
  cases isSlab

/-- The pages of slabs are pages of the region behind its metadata. -/
theorem WellFormed.slab_bounds (wellFormed : WellFormed r lay) (isSlab : lay.use i = .slab c) :
    r.metaPages ≤ i ∧ i < r.total := Region.isPage_page_iff.mp (wellFormed.isPage isSlab)

/-- The free objects of a slab change, but not whether there are any. -/
theorem wellFormed_setFree (wellFormed : WellFormed r lay) (isSlab : lay.use i = .slab c)
    (nodup : nodes.Nodup) (isObject : ∀ obj ∈ nodes, obj ∈ objects c (r.page i))
    (sameList : listOf nodes = listOf (lay.freeObjects (r.page i))) :
    WellFormed r (lay.setFree (r.page i) nodes) := by
  have only : ChangesPage r i lay (lay.setFree (r.page i) nodes) := {
    use := fun _ _ => rfl
    freeObjects := by
      intro slab different
      rw [setFree_freeObjects, if_neg different]
    slabs := fun _ _ _ _ => Iff.rfl }
  apply wellFormed.changePage only (wellFormed.slab_bounds isSlab) (by simp [isSlab])
  · refine .slab (wellFormed.known i c isSlab) isSlab ?_ ?_
    · rwa [setFree_freeObjects_same]
    · rwa [setFree_freeObjects_same]
  · intro c' which
    rw [setFree_slabs, wellFormed.page_listed, setFree_freeObjects_same, sameList]
    exact Iff.rfl
  · exact wellFormed.nodupSlabs

/-- The free objects of a slab change and the slab moves to the other list. -/
theorem wellFormed_relist {old new : SlabList} (wellFormed : WellFormed r lay)
    (isSlab : lay.use i = .slab c) (nodup : nodes.Nodup)
    (isObject : ∀ obj ∈ nodes, obj ∈ objects c (r.page i))
    (oldList : listOf (lay.freeObjects (r.page i)) = old) (newList : listOf nodes = new)
    (moves : new ≠ old) :
    WellFormed r (((lay.setFree (r.page i) nodes).unlink c old (r.page i)).push c new (r.page i)) := by
  have slabsAre : ∀ c' which,
      (((lay.setFree (r.page i) nodes).unlink c old (r.page i)).push c new (r.page i)).slabs c' which =
        if c' = c ∧ which = new then r.page i :: lay.slabs c new
        else if c' = c ∧ which = old then (lay.slabs c old).erase (r.page i)
        else lay.slabs c' which := by
    intro c' which
    rw [push_slabs, unlink_slabs, unlink_slabs,
      if_neg (show ¬ (c = c ∧ new = old) from fun isOld => moves isOld.2)]
    rfl
  have notNew : r.page i ∉ lay.slabs c new := by
    rw [wellFormed.page_listed, oldList]
    exact fun isNew => moves isNew.2
  have only : ChangesPage r i lay
      (((lay.setFree (r.page i) nodes).unlink c old (r.page i)).push c new (r.page i)) := {
    use := fun _ _ => rfl
    freeObjects := by
      intro slab different
      rw [push_freeObjects, unlink_freeObjects, setFree_freeObjects, if_neg different]
    slabs := by
      intro c' which slab different
      rw [slabsAre]
      split
      · next toNew => simp [toNew.1, toNew.2, different]
      · split
        · next toOld =>
            rw [toOld.1, toOld.2]
            exact List.mem_erase_of_ne different
        · exact Iff.rfl }
  apply wellFormed.changePage only (wellFormed.slab_bounds isSlab) (by simp [isSlab])
  · refine .slab (wellFormed.known i c isSlab) isSlab ?_ ?_
    · rwa [push_freeObjects, unlink_freeObjects, setFree_freeObjects_same]
    · rwa [push_freeObjects, unlink_freeObjects, setFree_freeObjects_same]
  · -- the slab is in the new list only
    intro c' which
    rw [slabsAre, push_freeObjects, unlink_freeObjects, setFree_freeObjects_same, newList, push_use,
      unlink_use, setFree_use, isSlab, PageUse.slab.injEq, @eq_comm _ c]
    split
    · next toNew => exact iff_of_true List.mem_cons_self toNew
    · next notToNew =>
        refine iff_of_false ?_ notToNew
        split
        · exact (wellFormed.nodupSlabs c old).not_mem_erase
        · next notOld =>
            rw [wellFormed.page_listed, isSlab, oldList]
            rintro ⟨isClass, isOld⟩
            cases isClass
            exact notOld ⟨rfl, isOld⟩
  · intro c' which
    rw [slabsAre]
    split
    · exact List.nodup_cons.mpr ⟨notNew, wellFormed.nodupSlabs c new⟩
    · split
      · exact (wellFormed.nodupSlabs c old).erase _
      · exact wellFormed.nodupSlabs c' which

/-- A free page becomes a slab with all objects free. -/
theorem wellFormed_initSlab (wellFormed : WellFormed r lay) (isFree : lay.use i = .free)
    (inside : i < r.total) (known : c < numCacheSizes) :
    WellFormed r ((lay.initSlab r c i).push c .partlyUsed (r.page i)) := by
  have useIs : ∀ j, ((lay.initSlab r c i).push c .partlyUsed (r.page i)).use j =
      if j = i then .slab c else lay.use j := by
    intro j
    simp only [push_use, initSlab, setFree_use, setUse_use]
    congr 1
    exact propext ⟨fun between => by omega, fun same => by omega⟩
  have isSlab : ((lay.initSlab r c i).push c .partlyUsed (r.page i)).use i = .slab c := by
    rw [useIs, if_pos rfl]
  have freeIs : ∀ slab, ((lay.initSlab r c i).push c .partlyUsed (r.page i)).freeObjects slab =
      if slab = r.page i then objects c (r.page i) else lay.freeObjects slab := by
    intro slab
    rw [push_freeObjects, initSlab, setFree_freeObjects]
    rfl
  have allFree : ((lay.initSlab r c i).push c .partlyUsed (r.page i)).freeObjects (r.page i) =
      objects c (r.page i) := by
    rw [freeIs, if_pos rfl]
  have slabsAre : ∀ c' which, ((lay.initSlab r c i).push c .partlyUsed (r.page i)).slabs c' which =
      if c' = c ∧ which = .partlyUsed then r.page i :: lay.slabs c .partlyUsed
      else lay.slabs c' which := fun _ _ => rfl
  have someFree : listOf (objects c (r.page i)) = .partlyUsed := by
    have positive := (class_facts c known).2.2.2.1
    rw [listOf, if_neg]
    intro none
    have length := length_objects c (r.page i)
    rw [none, List.length_nil] at length
    omega
  have only : ChangesPage r i lay ((lay.initSlab r c i).push c .partlyUsed (r.page i)) := {
    use := by
      intro j different
      rw [useIs, if_neg different]
    freeObjects := by
      intro slab different
      rw [freeIs, if_neg different]
    slabs := by
      intro c' which slab different
      rw [slabsAre]
      split
      · next toNew => simp [toNew.1, toNew.2, different]
      · exact Iff.rfl }
  apply wellFormed.changePage only ⟨wellFormed.free_bounds isFree, inside⟩ (by simp [isFree])
  · refine .slab known isSlab ?_ ?_
    · rw [allFree]
      exact nodup_objects known _
    · rw [allFree]
      exact fun obj member => member
  · intro c' which
    rw [slabsAre, allFree, someFree, isSlab, PageUse.slab.injEq, @eq_comm _ c]
    split
    · next toNew => exact iff_of_true List.mem_cons_self toNew
    · next notToNew => exact iff_of_false (wellFormed.not_listed isFree c' which) notToNew
  · intro c' which
    rw [slabsAre]
    split
    · exact List.nodup_cons.mpr
        ⟨wellFormed.not_listed isFree c _, wellFormed.nodupSlabs c _⟩
    · exact wellFormed.nodupSlabs c' which

/-- A slab without an object in use leaves its list and gives its page back. -/
theorem wellFormed_releaseSlab (wellFormed : WellFormed r lay) (isSlab : lay.use i = .slab c) :
    WellFormed r (((lay.setFree (r.page i) nodes).unlink c (listOf (lay.freeObjects (r.page i)))
      (r.page i)).releaseSlab r (r.page i)) := by
  generalize layEq : ((lay.setFree (r.page i) nodes).unlink c (listOf (lay.freeObjects (r.page i)))
      (r.page i)).releaseSlab r (r.page i) = released
  have useIs : ∀ j, released.use j = if j = i then .free else lay.use j := by
    intro j
    rw [← layEq]
    simp only [releaseSlab, setFree_use, setUse_use, Region.index_page, unlink_use]
    congr 1
    exact propext ⟨fun between => by omega, fun same => by omega⟩
  have isFree : released.use i = .free := by
    rw [useIs, if_pos rfl]
  have freeIs : ∀ slab, released.freeObjects slab =
      if slab = r.page i then [] else lay.freeObjects slab := by
    intro slab
    rw [← layEq, releaseSlab, setFree_freeObjects]
    split
    · rfl
    · next different =>
        rw [setUse_freeObjects, unlink_freeObjects, setFree_freeObjects, if_neg different]
  have slabsAre : ∀ c' which, released.slabs c' which =
      if c' = c ∧ which = listOf (lay.freeObjects (r.page i)) then (lay.slabs c' which).erase (r.page i)
      else lay.slabs c' which := by
    intro c' which
    rw [← layEq, releaseSlab, setFree_slabs, setUse_slabs, unlink_slabs]
    split
    · next inList => rw [inList.1, inList.2]; rfl
    · rfl
  have only : ChangesPage r i lay released := {
    use := by
      intro j different
      rw [useIs, if_neg different]
    freeObjects := by
      intro slab different
      rw [freeIs, if_neg different]
    slabs := by
      intro c' which slab different
      rw [slabsAre]
      split
      · exact List.mem_erase_of_ne different
      · exact Iff.rfl }
  apply wellFormed.changePage only (wellFormed.slab_bounds isSlab) (by simp [isSlab])
  · exact NewPage.free isFree (by rw [freeIs, if_pos rfl])
  · intro c' which
    rw [slabsAre, isFree]
    refine iff_of_false ?_ fun isSlab' => by cases isSlab'.1
    split
    · exact (wellFormed.nodupSlabs _ _).not_mem_erase
    · next notOld =>
        rw [wellFormed.page_listed, isSlab]
        rintro ⟨isClass, isOld⟩
        cases isClass
        exact notOld ⟨rfl, isOld⟩
  · intro c' which
    rw [slabsAre]
    split
    · exact (wellFormed.nodupSlabs c' which).erase _
    · exact wellFormed.nodupSlabs c' which

end UniKernel.Heap.Layout
