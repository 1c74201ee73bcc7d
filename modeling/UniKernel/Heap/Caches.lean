import UniKernel.Heap.Slabs

/-!
Owns `cache_alloc` and `cache_free` over memory that stands for a layout: they
return what the layout's functions return, leave a memory that stands for the
layout's result, and store outside allocated blocks.
-/

namespace UniKernel.Heap

open UniKernel.Lib

variable {r : Region} {lay lay' other : Layout} {s s' s₁ : State} {c i slab obj : Nat}
  {which : SlabList} {nodes rest : List Nat}

/-! ### Fields of other pages -/

theorem not_inPage_header {field : Field} (ofOther : field.headerOf = some obj)
    (different : obj ≠ slab) : ¬ field.InPage slab := by
  rintro (ofSlab | ⟨link, rfl, -⟩)
  · rw [ofOther] at ofSlab
    exact different (Option.some.inj ofSlab)
  · cases ofOther

theorem not_inPage_link {j : Nat} (known : c < numCacheSizes) (member : obj ∈ objects c (r.page j))
    (different : j ≠ i) : ¬ (Field.link obj).InPage (r.page i) := by
  have bounds := object_bounds known member
  have large := (class_facts c known).2.1
  rintro (ofSlab | ⟨link, same, above, below⟩)
  · cases ofSlab
  · cases same
    unfold Region.page at *
    omega

theorem not_inPage_table {field : Field} (noHeader : field.headerOf = none)
    (notLink : ∀ obj, field ≠ .link obj) : ¬ field.InPage slab := by
  rintro (ofSlab | ⟨link, same, -⟩)
  · rw [noHeader] at ofSlab
    cases ofSlab
  · exact notLink link same

/-- The header of another slab is as before. -/
theorem Header.ofOtherPage {j : Nat} (header : Header s c (r.page j) nodes)
    (cachesAddr : s'.cachesAddr = s.cachesAddr) (isPage : r.IsPage (r.page j))
    (known : c < numCacheSizes) (isObject : ∀ obj ∈ nodes, obj ∈ objects c (r.page j))
    (different : j ≠ i)
    (outside : ∀ field, field.Valid r → ¬ field.InPage (r.page i) → s'.field field = s.field field) :
    Header s' c (r.page j) nodes := by
  have otherPage : r.page j ≠ r.page i := fun same => different (Region.page_inj.mp same)
  apply header.congr cachesAddr
  · exact outside (.cache (r.page j)) isPage (not_inPage_header rfl otherPage)
  · exact outside (.magic (r.page j)) isPage (not_inPage_header rfl otherPage)
  · exact outside (.inUse (r.page j)) isPage (not_inPage_header rfl otherPage)
  · exact outside (.freeList (r.page j)) isPage (not_inPage_header rfl otherPage)
  · intro obj member
    exact outside (.link obj) (isObject_of_mem known isPage (isObject obj member))
      (not_inPage_link known (isObject obj member) different)

/-- The free list and the counter of one slab change. -/
theorem Represents.setFree (rep : Represents r lay s) (inRegion : lay.InRegion r)
    (isSlab : lay.use i = .slab c) (statics : SameStatics s s') (caches : s'.caches = s.caches)
    (outside : ∀ field, field.Valid r → ¬ field.InPage (r.page i) → s'.field field = s.field field)
    (next : s'.field (.next (r.page i)) = s.field (.next (r.page i)))
    (prev : s'.field (.prev (r.page i)) = s.field (.prev (r.page i)))
    (header : Header s' c (r.page i) nodes) : Represents r (lay.setFree (r.page i) nodes) s' where
  statics := rep.statics.of_same statics
  noFreeSlabs c known := by
    rw [caches]
    exact rep.noFreeSlabs c known
  pageType j inside := by
    have valid : (Field.pageType j).Valid r := inside
    rw [outside _ valid (not_inPage_table rfl (by simp)), Layout.setFree_use, rep.pageType j inside]
  pageCount j inside := by
    have valid : (Field.pageCount j).Valid r := inside
    rw [outside _ valid (not_inPage_table rfl (by simp)), Layout.setFree_use, rep.pageCount j inside]
  header j c' inside isSlab' := by
    rw [Layout.setFree_use] at isSlab'
    rw [Layout.setFree_freeObjects]
    by_cases same : j = i
    · subst same
      rw [isSlab] at isSlab'
      cases isSlab'
      rwa [if_pos rfl]
    · rw [if_neg (fun samePage => same (Region.page_inj.mp samePage))]
      exact (rep.header j c' inside isSlab').ofOtherPage statics.cachesAt (inRegion.isPage j c' isSlab')
        (inRegion.known j c' isSlab') (inRegion.isObject j c' isSlab') same outside
  lists c' which known := by
    apply (rep.lists c' which known).congr
    · rw [State.head, State.head, caches]
    · intro node member
      by_cases same : node = r.page i
      · rw [same, next]
      · exact outside (.next node) (inRegion.listed c' which node member) (not_inPage_header rfl same)
    · intro node member
      by_cases same : node = r.page i
      · rw [same, prev]
      · exact outside (.prev node) (inRegion.listed c' which node member) (not_inPage_header rfl same)

/-- A page is marked as a slab and initialised. -/
theorem Represents.initSlab (rep : Represents r lay s) (inRegion : lay.InRegion r)
    (set : TableSet r i 1 (.slab c) s s₁) (statics : SameStatics s₁ s') (caches : s'.caches = s₁.caches)
    (outside : ∀ field, field.Valid r → ¬ field.InPage (r.page i) → s'.field field = s₁.field field)
    (notListed : ∀ c which, r.page i ∉ lay.slabs c which)
    (header : Header s' c (r.page i) (objects c (r.page i))) :
    Represents r (lay.initSlab r c i) s' := by
  have useIs : ∀ j, (lay.initSlab r c i).use j = if i ≤ j ∧ j < i + 1 then .slab c else lay.use j :=
    fun _ => rfl
  have same : ∀ field, field.Valid r → ¬ field.InPage (r.page i) → (∀ j, field ≠ .pageType j) →
      (∀ j, field ≠ .pageCount j) → s'.field field = s.field field := by
    intro field valid notIn notType notCount
    rw [outside field valid notIn, set.field field valid]
    cases field with
    | pageType j => exact absurd rfl (notType j)
    | pageCount j => exact absurd rfl (notCount j)
    | _ => rfl
  refine ⟨(rep.statics.of_same set.statics).of_same statics, ?_, ?_, ?_, ?_, ?_⟩
  · intro c known
    rw [caches, set.caches]
    exact rep.noFreeSlabs c known
  · intro j inside
    have valid : (Field.pageType j).Valid r := inside
    rw [outside _ valid (not_inPage_table rfl (by simp)), set.field _ valid, useIs, tableField,
      rep.pageType j inside]
    split <;> rfl
  · intro j inside
    have valid : (Field.pageCount j).Valid r := inside
    rw [outside _ valid (not_inPage_table rfl (by simp)), set.field _ valid, useIs, tableField,
      rep.pageCount j inside]
    split <;> rfl
  · intro j c' inside isSlab'
    rw [Layout.initSlab, Layout.setFree_freeObjects]
    rw [useIs] at isSlab'
    by_cases isNew : j = i
    · subst isNew
      rw [if_pos (by omega)] at isSlab'
      cases isSlab'
      rwa [if_pos rfl]
    · rw [if_neg (by omega)] at isSlab'
      rw [if_neg (fun samePage => isNew (Region.page_inj.mp samePage))]
      have isPage := inRegion.isPage j c' isSlab'
      have known := inRegion.known j c' isSlab'
      have otherPage : r.page j ≠ r.page i := fun samePage => isNew (Region.page_inj.mp samePage)
      apply (rep.header j c' inside isSlab').congr (statics.cachesAt.trans set.statics.cachesAt)
      · exact same (.cache (r.page j)) isPage (not_inPage_header rfl otherPage) (by simp) (by simp)
      · exact same (.magic (r.page j)) isPage (not_inPage_header rfl otherPage) (by simp) (by simp)
      · exact same (.inUse (r.page j)) isPage (not_inPage_header rfl otherPage) (by simp) (by simp)
      · exact same (.freeList (r.page j)) isPage (not_inPage_header rfl otherPage) (by simp) (by simp)
      · intro obj member
        have isMember := inRegion.isObject j c' isSlab' obj member
        exact same (.link obj) (isObject_of_mem known isPage isMember)
          (not_inPage_link known isMember isNew) (by simp) (by simp)
  · intro c' which known
    have notNew : ∀ node ∈ lay.slabs c' which, node ≠ r.page i := by
      rintro node member rfl
      exact notListed c' which member
    apply (rep.lists c' which known).congr
    · rw [State.head, State.head, caches, set.caches]
    · exact fun node member => same (.next node) (inRegion.listed c' which node member)
        (not_inPage_header rfl (notNew node member)) (by simp) (by simp)
    · exact fun node member => same (.prev node) (inRegion.listed c' which node member)
        (not_inPage_header rfl (notNew node member)) (by simp) (by simp)

/-! ### Layouts in the middle of an operation -/

theorem Layout.InRegion.setFree (inRegion : lay.InRegion r) (isSlab : lay.use i = .slab c)
    (isObject : ∀ obj ∈ nodes, obj ∈ objects c (r.page i)) :
    (lay.setFree (r.page i) nodes).InRegion r where
  isPage := inRegion.isPage
  known := inRegion.known
  listed := inRegion.listed
  isObject j c' isSlab' := by
    rw [Layout.setFree_use] at isSlab'
    rw [Layout.setFree_freeObjects]
    split
    · next samePage =>
        rw [Region.page_inj.mp samePage] at isSlab' ⊢
        rw [isSlab] at isSlab'
        cases isSlab'
        exact isObject
    · exact inRegion.isObject j c' isSlab'

theorem Layout.mem_unlink {node c' : Nat} {which' : SlabList}
    (member : node ∈ (lay.unlink c which slab).slabs c' which') : node ∈ lay.slabs c' which' := by
  rw [Layout.unlink_slabs] at member
  split at member
  · next same =>
      rw [same.1, same.2]
      exact List.mem_of_mem_erase member
  · exact member

theorem Layout.InRegion.unlink (inRegion : lay.InRegion r) (c : Nat) (which : SlabList) (slab : Nat) :
    (lay.unlink c which slab).InRegion r where
  isPage := inRegion.isPage
  known := inRegion.known
  isObject := inRegion.isObject
  listed c' which' node member := inRegion.listed c' which' node (Layout.mem_unlink member)

theorem Layout.ListsApart.unlink (apart : lay.ListsApart) (c : Nat) (which : SlabList) (slab : Nat) :
    (lay.unlink c which slab).ListsApart :=
  fun _ _ _ _ _ member member' => apart _ _ _ _ _ (Layout.mem_unlink member) (Layout.mem_unlink member')

/-- A slab that was taken out of its list is in no list. -/
theorem Layout.not_mem_unlink {c' : Nat} {which' : SlabList} (apart : lay.ListsApart)
    (nodup : (lay.slabs c which).Nodup) (member : slab ∈ lay.slabs c which) :
    slab ∉ (lay.unlink c which slab).slabs c' which' := by
  intro still
  rcases apart _ _ _ _ _ member (Layout.mem_unlink still) with ⟨rfl, rfl⟩
  rw [Layout.unlink_slabs, if_pos ⟨rfl, rfl⟩] at still
  exact nodup.not_mem_erase still

theorem ListedUnguarded.unlink (unguarded : ListedUnguarded r lay other) (c : Nat) (which : SlabList)
    (slab : Nat) : ListedUnguarded r (lay.unlink c which slab) other :=
  fun _ _ _ member => unguarded _ _ _ (Layout.mem_unlink member)

/-- A slab moves from one list to the other. -/
theorem moveSlab_refines {old : SlabList} (new : SlabList) (rep : Represents r lay s) (inRegion : lay.InRegion r)
    (apart : lay.ListsApart) (known : c < numCacheSizes) (member : slab ∈ lay.slabs c old)
    (nodup : (lay.slabs c old).Nodup) :
    Represents r ((lay.unlink c old slab).push c new slab)
        (pushSlab c new slab (unlinkSlab c old slab s)) ∧
      ∀ other, ListedUnguarded r lay other →
        Keeps r other s (pushSlab c new slab (unlinkSlab c old slab s)) := by
  have isPage := inRegion.listed c old slab member
  have unlinked := unlinkSlab_represents rep inRegion apart known member
  constructor
  · apply pushSlab_represents unlinked (inRegion.unlink c old slab) (apart.unlink c old slab) known isPage
    exact fun _ _ => Layout.not_mem_unlink apart nodup member
  · intro other unguarded
    have first := (unlinkSlab_effect rep inRegion known member).2.2.2.2 other unguarded
    have second : Keeps r other (unlinkSlab c old slab s)
        (pushSlab c new slab (unlinkSlab c old slab s)) :=
      (pushSlab_effect unlinked (inRegion.unlink c old slab) known isPage).2.2.2.2 other
        (unguarded.unlink c old slab) (unguarded c old slab member)
    exact first.trans second

/-! ### Taking an object -/

/-- Only the free list, the counter and links of a page differ. -/
theorem not_inPage_ne {field header : Field} (outside : ¬ field.InPage slab)
    (ofSlab : header.headerOf = some slab) : field ≠ header := by
  rintro rfl
  exact outside (Or.inl ofSlab)

/-- A slab whose counter, free list and links may differ, and nothing else. -/
theorem Represents.setFreeList (rep : Represents r lay s) (wellFormed : lay.WellFormed r)
    (isSlab : lay.use i = .slab c) (statics : SameStatics s s') (caches : s'.caches = s.caches)
    (same : ∀ field, field.Valid r → field ≠ .inUse (r.page i) → field ≠ .freeList (r.page i) →
      (∀ obj, field = .link obj → ¬ field.InPage (r.page i)) → s'.field field = s.field field)
    (counted : s'.field (.inUse (r.page i)) + nodes.length = capacity c)
    (chain : Chain (fun obj => s'.field (.link obj)) (s'.field (.freeList (r.page i))) nodes) :
    Represents r (lay.setFree (r.page i) nodes) s' := by
  have isPage := wellFormed.isPage isSlab
  have header := rep.header i c (Region.isPage_page_iff.mp isPage).2 isSlab
  have nextValid : (Field.next (r.page i)).Valid r := isPage
  have prevValid : (Field.prev (r.page i)).Valid r := isPage
  have cacheValid : (Field.cache (r.page i)).Valid r := isPage
  have magicValid : (Field.magic (r.page i)).Valid r := isPage
  refine rep.setFree wellFormed.inRegion isSlab statics caches ?_ ?_ ?_ ⟨?_, ?_, counted, chain⟩
  · intro field valid outside
    exact same field valid (not_inPage_ne outside rfl) (not_inPage_ne outside rfl) fun _ _ => outside
  · exact same _ nextValid (by simp) (by simp) (by simp)
  · exact same _ prevValid (by simp) (by simp) (by simp)
  · rw [same _ cacheValid (by simp) (by simp) (by simp), header.cache]
    unfold State.cachePtr
    rw [statics.cachesAt]
  · rw [same _ magicValid (by simp) (by simp) (by simp), header.magic]

theorem takeObject_refines (rep : Represents r lay s) (wellFormed : lay.WellFormed r)
    (isSlab : lay.use i = .slab c) (someFree : lay.freeObjects (r.page i) = obj :: rest) :
    (takeObject c (r.page i) s).1 = (lay.take c (r.page i)).1 ∧
      Represents r (lay.take c (r.page i)).2 (takeObject c (r.page i) s).2 ∧
      ∀ other, ListedUnguarded r lay other → Keeps r other s (takeObject c (r.page i) s).2 := by
  have inRegion := wellFormed.inRegion
  have isPage := wellFormed.isPage isSlab
  have known := wellFormed.known i c isSlab
  have inside := (Region.isPage_page_iff.mp isPage).2
  have header := rep.header i c inside isSlab
  have table := rep.statics.table
  rw [someFree] at header
  have listedHere : r.page i ∈ lay.slabs c .partlyUsed := by
    rw [wellFormed.page_listed, someFree]
    exact ⟨isSlab, rfl⟩
  have isObject : ∀ node ∈ rest, node ∈ objects c (r.page i) := by
    intro node member
    apply wellFormed.isObject i c isSlab
    rw [someFree]
    exact List.mem_cons_of_mem _ member
  have firstFree : s.slabFreeList (r.page i) = obj := header.chain.2.1
  have restChain : Chain (fun node => s.field (.link node)) (s.load64 obj) rest := header.chain.2.2
  have inUseNow : s.slabInUse (r.page i) + (rest.length + 1) = capacity c := header.inUse
  have small := (class_facts c known).2.2.2.2.2
  have count : u32 (s.slabInUse (r.page i) + 1) = s.slabInUse (r.page i) + 1 :=
    u32_of_lt (by omega)
  have linkFits : s.load64 obj < 256 ^ 8 := field_lt s (.link obj)
  have countFits : s.slabInUse (r.page i) + 1 < 256 ^ 4 := by
    have bound : (254 : Nat) < 256 ^ 4 := by decide
    omega
  have freeListValid : (Field.freeList (r.page i)).Valid r := isPage
  have inUseValid : (Field.inUse (r.page i)).Valid r := isPage
  let s₁ := s.setField (.freeList (r.page i)) (s.load64 obj)
  let s₂ := s₁.setField (.inUse (r.page i)) (s.slabInUse (r.page i) + 1)
  have table₁ : s₁.pageMetadata = r.base := table
  have sameCount : s₁.slabInUse (r.page i) = s.slabInUse (r.page i) :=
    field_setField_other table freeListValid inUseValid (by simp) _
  have fields : ∀ field, field.Valid r → s₂.field field =
      if field = .inUse (r.page i) then s.slabInUse (r.page i) + 1
      else if field = .freeList (r.page i) then s.load64 obj else s.field field := by
    intro field valid
    rw [field_setField (s := s₁) table₁ inUseValid valid countFits,
      field_setField (s := s) table freeListValid valid linkFits]
  have keeps : ∀ other, ListedUnguarded r lay other → Keeps r other s s₂ := by
    intro other unguarded
    have first := keeps_setField (s := s) table (unguarded c _ _ listedHere (.freeList (r.page i)) rfl)
      (s.load64 obj)
    exact first.trans (keeps_setField (s := s₁) table₁
      (unguarded c _ _ listedHere (.inUse (r.page i)) rfl) (s.slabInUse (r.page i) + 1))
  have freeListField : s₂.field (.freeList (r.page i)) = s.load64 obj := by
    rw [fields _ freeListValid, if_neg (by simp), if_pos rfl]
  have freeListNow : s₂.slabFreeList (r.page i) = s.load64 obj := freeListField
  have statics₂ : SameStatics s s₂ := ⟨rfl, rfl, rfl, rfl, rfl, fun _ => rfl⟩
  have caches₂ : s₂.caches = s.caches := rfl
  have taken : Represents r (lay.setFree (r.page i) rest) s₂ := by
    apply rep.setFreeList wellFormed isSlab statics₂ caches₂
    · intro field valid notInUse notFreeList _
      rw [fields field valid, if_neg notInUse, if_neg notFreeList]
    · rw [fields _ inUseValid, if_pos rfl]
      omega
    · rw [freeListField]
      apply restChain.congr
      intro node member
      have valid : (Field.link node).Valid r := isObject_of_mem known isPage (isObject node member)
      rw [fields _ valid, if_neg (by simp), if_neg (by simp)]
  have steps : takeObject c (r.page i) s =
      if s₂.slabFreeList (r.page i) = 0 then
        (obj, pushSlab c .full (r.page i) (unlinkSlab c .partlyUsed (r.page i) s₂))
      else (obj, s₂) := by
    unfold takeObject
    simp only [firstFree]
    have counted : (s.setSlabFreeList (r.page i) (s.load64 obj)).setSlabInUse (r.page i)
        (u32 ((s.setSlabFreeList (r.page i) (s.load64 obj)).slabInUse (r.page i) + 1)) = s₂ := by
      have sameCount' : (s.setSlabFreeList (r.page i) (s.load64 obj)).slabInUse (r.page i) =
          s.slabInUse (r.page i) := sameCount
      rw [sameCount', count]
      rfl
    rw [counted]
  have result : lay.take c (r.page i) = (obj, if rest = [] then
      ((lay.setFree (r.page i) rest).unlink c .partlyUsed (r.page i)).push c .full (r.page i)
      else lay.setFree (r.page i) rest) := by
    simp only [Layout.take, someFree]
  rw [steps, result, freeListNow]
  by_cases last : rest = []
  · rw [if_pos (restChain.eq_zero_iff.mpr last), if_pos last]
    rcases moveSlab_refines .full taken (inRegion.setFree isSlab isObject)
      wellFormed.listsApart known listedHere (wellFormed.nodupSlabs c .partlyUsed) with ⟨moved, moveKeeps⟩
    exact ⟨rfl, moved, fun other unguarded => (keeps other unguarded).trans (moveKeeps other unguarded)⟩
  · rw [if_neg (fun isZero => last (restChain.eq_zero_iff.mp isZero)), if_neg last]
    exact ⟨rfl, taken, keeps⟩

theorem slabsPartial_eq (s : State) (c : Nat) : (s.caches c).slabsPartial = s.head c .partlyUsed := rfl

theorem takeSlab_eq (noFree : (s.caches c).slabsFree = 0) : takeSlab c s =
    if (allocPagesBackend 1 pageTypeSlab s).1 = 0 then (0, (allocPagesBackend 1 pageTypeSlab s).2)
    else ((allocPagesBackend 1 pageTypeSlab s).1,
      slabInitPage (allocPagesBackend 1 pageTypeSlab s).1 c (allocPagesBackend 1 pageTypeSlab s).2) := by
  unfold takeSlab
  rw [if_neg (not_not.mpr noFree)]

theorem cacheAlloc_of_head (some : (s.caches c).slabsPartial ≠ 0) :
    cacheAlloc c s = takeObject c (s.caches c).slabsPartial s := by
  unfold cacheAlloc
  exact if_neg some

theorem cacheAlloc_of_empty (none : (s.caches c).slabsPartial = 0) : cacheAlloc c s =
    if (takeSlab c s).1 = 0 then (0, (takeSlab c s).2)
    else takeObject c (takeSlab c s).1 (pushSlab c .partlyUsed (takeSlab c s).1 (takeSlab c s).2) := by
  unfold cacheAlloc
  exact if_pos none

theorem cacheAlloc_refines (rep : Represents r lay s) (wellFormed : lay.WellFormed r)
    (known : c < numCacheSizes) :
    (cacheAlloc c s).1 = (lay.cacheAlloc r c).1 ∧
      Represents r (lay.cacheAlloc r c).2 (cacheAlloc c s).2 ∧
      Keeps r lay s (cacheAlloc c s).2 := by
  have inRegion := wellFormed.inRegion
  have list := rep.lists c .partlyUsed known
  unfold Layout.cacheAlloc
  cases slabs : lay.slabs c .partlyUsed with
  | cons slab others =>
      have member : slab ∈ lay.slabs c .partlyUsed := by simp [slabs]
      have isHead : (s.caches c).slabsPartial = slab := by
        rw [slabsPartial_eq, list.head_eq, slabs]
        rfl
      have nonzero := (inRegion.listed c _ slab member).ne_zero
      rw [cacheAlloc_of_head (isHead ▸ nonzero), isHead]
      rcases (wellFormed.listed c _ slab).mp member with ⟨i, rfl, isSlab, isPartly⟩
      cases someFree : lay.freeObjects (r.page i) with
      | nil =>
          rw [someFree] at isPartly
          cases isPartly
      | cons obj rest =>
          rcases takeObject_refines rep wellFormed isSlab someFree with ⟨result, taken, keeps⟩
          exact ⟨result, taken, keeps lay wellFormed.listedUnguarded⟩
  | nil =>
      have isHead : (s.caches c).slabsPartial = 0 := list.head_eq_zero_iff.mpr slabs
      have noFree := rep.noFreeSlabs c known
      rw [cacheAlloc_of_empty isHead, takeSlab_eq noFree]
      dsimp only
      cases found : lay.findPages r 1 with
      | none =>
          rw [allocPagesBackend_none rep found]
          exact ⟨rfl, rep, .refl s⟩
      | some i =>
          rcases Layout.findPages_spec wellFormed found with ⟨-, above, bound, allFree⟩
          have isFree := allFree i (Nat.le_refl _) (by omega)
          have isPage : r.IsPage (r.page i) := Region.isPage_page_iff.mpr ⟨above, by omega⟩
          have counts : ∀ j, i ≤ j → j < i + 1 → (PageUse.slab c).count j = if j = i then 1 else 0 := by
            intro j fromFirst toEnd
            exact (if_pos (by omega)).symm
          rcases allocPagesBackend_some rep wellFormed found (show (PageUse.slab c).type = pageTypeSlab
            from rfl) counts with ⟨address, set⟩
          rw [address, if_neg isPage.ne_zero]
          dsimp only
          rw [if_neg isPage.ne_zero]
          generalize (allocPagesBackend 1 pageTypeSlab s).2 = s₁ at *
          have statics₁ := rep.statics.of_same set.statics
          rcases slabInitPage_effect statics₁ isPage known with ⟨caches, outside, header, initKeeps⟩
          have statics₂ := slabInitPage_statics (r.page i) c s₁
          generalize slabInitPage (r.page i) c s₁ = s₂ at *
          have fresh := Layout.wellFormed_initSlab (c := c) wellFormed isFree (by omega) known
          have notListed := wellFormed.not_listed isFree
          have inPage : ∀ field : Field, field.InPage (r.page i) → Unguarded r lay field :=
            fun field inPage => unguarded_freePage wellFormed isFree inPage
          have inRegion₂ : (lay.initSlab r c i).InRegion r :=
            ⟨fresh.inRegion.isPage, fresh.inRegion.known, fresh.inRegion.isObject, inRegion.listed⟩
          have rep₂ := rep.initSlab inRegion set statics₂ caches outside notListed header
          have rep₃ : Represents r ((lay.initSlab r c i).push c .partlyUsed (r.page i))
              (pushSlab c .partlyUsed (r.page i) s₂) :=
            pushSlab_represents rep₂ inRegion₂ wellFormed.listsApart known isPage notListed
          have keeps₃ : Keeps r lay s (pushSlab c .partlyUsed (r.page i) s₂) := by
            refine ((set.keeps lay wellFormed).trans (initKeeps lay inPage)).trans ?_
            exact (pushSlab_effect rep₂ inRegion₂ known isPage).2.2.2.2 lay wellFormed.listedUnguarded
              fun field ofSlab => inPage field (Or.inl ofSlab)
          have isSlab : ((lay.initSlab r c i).push c .partlyUsed (r.page i)).use i = .slab c := by
            rw [Layout.push_use, Layout.initSlab, Layout.setFree_use, Layout.setUse_use,
              if_pos (by omega)]
          have member : r.page i ∈ ((lay.initSlab r c i).push c .partlyUsed (r.page i)).slabs c
              .partlyUsed := by simp [Layout.push_slabs]
          rcases (fresh.listed c _ _).mp member with ⟨-, -, -, isPartly⟩
          cases someFree : ((lay.initSlab r c i).push c .partlyUsed (r.page i)).freeObjects (r.page i) with
          | nil =>
              rw [someFree] at isPartly
              cases isPartly
          | cons obj rest =>
              rcases takeObject_refines rep₃ fresh isSlab someFree with ⟨result, taken, takeKeeps⟩
              refine ⟨result, taken, keeps₃.trans (takeKeeps lay ?_)⟩
              intro c' which node member field ofSlab
              rw [Layout.push_slabs] at member
              split at member
              · rcases List.mem_cons.mp member with rfl | earlier
                · exact inPage field (Or.inl ofSlab)
                · exact wellFormed.listedUnguarded _ _ node earlier field ofSlab
              · exact wellFormed.listedUnguarded _ _ node member field ofSlab

/-! ### Returning an object -/

/-- What `cache_free` makes of the slab's page: it is free, or the object is. -/
theorem cacheFree_page (lay : Layout) (r : Region) (c i obj : Nat) :
    ((lay.cacheFree r c (r.page i) obj).use i = .free ∨
      ((lay.cacheFree r c (r.page i) obj).use i = lay.use i ∧
        obj ∈ (lay.cacheFree r c (r.page i) obj).freeObjects (r.page i))) ∧
      ∀ j, j ≠ i → (lay.cacheFree r c (r.page i) obj).use j = lay.use j := by
  unfold Layout.cacheFree
  dsimp only
  split
  · constructor
    · refine Or.inl ?_
      rw [Layout.releaseSlab, Layout.setFree_use, Layout.setUse_use, Region.index_page,
        if_pos (by omega)]
    · intro j different
      rw [Layout.releaseSlab, Layout.setFree_use, Layout.setUse_use, Region.index_page,
        if_neg (by omega)]
      rfl
  · split
    · refine ⟨Or.inr ⟨rfl, ?_⟩, fun _ _ => rfl⟩
      rw [Layout.push_freeObjects, Layout.unlink_freeObjects, Layout.give,
        Layout.setFree_freeObjects_same]
      simp
    · refine ⟨Or.inr ⟨rfl, ?_⟩, fun _ _ => rfl⟩
      rw [Layout.give, Layout.setFree_freeObjects_same]
      simp

/-- Free objects of a page that is no slab are not in memory. -/
theorem Represents.setFree_of_notSlab (rep : Represents r lay s) (notSlab : ∀ c, lay.use i ≠ .slab c) :
    Represents r (lay.setFree (r.page i) nodes) s where
  statics := rep.statics
  noFreeSlabs := rep.noFreeSlabs
  pageType := rep.pageType
  pageCount := rep.pageCount
  header j c inside isSlab := by
    rw [Layout.setFree_freeObjects, if_neg]
    · exact rep.header j c inside isSlab
    · intro samePage
      rw [Region.page_inj.mp samePage] at isSlab
      exact notSlab c isSlab
  lists := rep.lists

/-- The stores of `cache_free` to the object and the header. -/
def giveObject (slab obj : Nat) (s : State) : State :=
  let s := s.store64 obj (s.slabFreeList slab)
  let s := s.setSlabFreeList slab obj
  s.setSlabInUse slab (pred32 (s.slabInUse slab))

theorem giveObject_refines (rep : Represents r lay s) (wellFormed : lay.WellFormed r)
    (isSlab : lay.use i = .slab c) (member : obj ∈ objects c (r.page i))
    (taken : obj ∉ lay.freeObjects (r.page i)) :
    Represents r (lay.give (r.page i) obj) (giveObject (r.page i) obj s) ∧
      (giveObject (r.page i) obj s).slabInUse (r.page i) + (lay.freeObjects (r.page i)).length + 1 =
        capacity c ∧
      ∀ other, Unguarded r other (.link obj) →
        (∀ field : Field, field.headerOf = some (r.page i) → Unguarded r other field) →
        Keeps r other s (giveObject (r.page i) obj s) := by
  have inRegion := wellFormed.inRegion
  have isPage := wellFormed.isPage isSlab
  have known := wellFormed.known i c isSlab
  have inside := (Region.isPage_page_iff.mp isPage).2
  have header := rep.header i c inside isSlab
  have table := rep.statics.table
  have isObject : r.IsObject obj := isObject_of_mem known isPage member
  have length : (lay.freeObjects (r.page i)).length + 1 ≤ capacity c := by
    have nodup : (obj :: lay.freeObjects (r.page i)).Nodup :=
      List.nodup_cons.mpr ⟨taken, wellFormed.nodupFree i c isSlab⟩
    have subset : obj :: lay.freeObjects (r.page i) ⊆ objects c (r.page i) :=
      List.cons_subset.mpr ⟨member, wellFormed.isObject i c isSlab⟩
    have bound := (List.subperm_of_subset nodup subset).length_le
    rwa [length_objects] at bound
  have inUseNow : s.slabInUse (r.page i) + (lay.freeObjects (r.page i)).length = capacity c :=
    header.inUse
  have small := (class_facts c known).2.2.2.2.2
  have linkValid : (Field.link obj).Valid r := isObject
  have freeListValid : (Field.freeList (r.page i)).Valid r := isPage
  have inUseValid : (Field.inUse (r.page i)).Valid r := isPage
  have headFits : s.slabFreeList (r.page i) < 256 ^ 8 := field_lt s (.freeList (r.page i))
  have objFits : obj < 256 ^ 8 := Nat.lt_of_lt_of_eq isObject.lt (by decide)
  have countFits : s.slabInUse (r.page i) - 1 < 256 ^ 4 := by
    have bound : (254 : Nat) < 256 ^ 4 := by decide
    omega
  let s₁ := s.setField (.link obj) (s.slabFreeList (r.page i))
  let s₂ := s₁.setField (.freeList (r.page i)) obj
  let s₃ := s₂.setField (.inUse (r.page i)) (s.slabInUse (r.page i) - 1)
  have sameCount : s₂.slabInUse (r.page i) = s.slabInUse (r.page i) := by
    have first := field_setField_other (s := s₁) table freeListValid inUseValid (by simp) obj
    have second := field_setField_other (s := s) table linkValid inUseValid (by simp)
      (s.slabFreeList (r.page i))
    exact first.trans second
  have steps : giveObject (r.page i) obj s = s₃ := by
    have counted : giveObject (r.page i) obj s =
        s₂.setSlabInUse (r.page i) (pred32 (s₂.slabInUse (r.page i))) := rfl
    rw [counted, sameCount, pred32_of_pos (by omega) (by omega)]
    rfl
  have fields : ∀ field, field.Valid r → s₃.field field =
      if field = .inUse (r.page i) then s.slabInUse (r.page i) - 1
      else if field = .freeList (r.page i) then obj
      else if field = .link obj then s.slabFreeList (r.page i) else s.field field := by
    intro field valid
    rw [field_setField (s := s₂) table inUseValid valid countFits,
      field_setField (s := s₁) table freeListValid valid objFits,
      field_setField (s := s) table linkValid valid headFits]
  have statics₃ : SameStatics s s₃ := ⟨rfl, rfl, rfl, rfl, rfl, fun _ => rfl⟩
  have caches₃ : s₃.caches = s.caches := rfl
  have inUse₃ : s₃.field (.inUse (r.page i)) = s.slabInUse (r.page i) - 1 := by
    rw [fields _ inUseValid, if_pos rfl]
  have bounds := object_bounds known member
  have large := (class_facts c known).2.1
  have inPage : (Field.link obj).InPage (r.page i) := Or.inr ⟨obj, rfl, by omega, by omega⟩
  rw [steps]
  refine ⟨?_, ?_, ?_⟩
  · apply rep.setFreeList wellFormed isSlab statics₃ caches₃
    · intro field valid notInUse notFreeList notLink
      rw [fields field valid, if_neg notInUse, if_neg notFreeList,
        if_neg (fun isLink => notLink obj isLink (isLink ▸ inPage))]
    · rw [inUse₃, List.length_cons]
      omega
    · rw [fields _ freeListValid, if_neg (by simp), if_pos rfl]
      apply header.chain.push isObject.ne_zero
      · rw [fields _ linkValid, if_neg (by simp), if_neg (by simp), if_pos rfl]
        rfl
      · intro node nodeMem
        have valid : (Field.link node).Valid r :=
          isObject_of_mem known isPage (wellFormed.isObject i c isSlab node nodeMem)
        rw [fields _ valid, if_neg (by simp), if_neg (by simp), if_neg]
        intro same
        rw [Field.link.inj same] at nodeMem
        exact taken nodeMem
  · have now : s₃.slabInUse (r.page i) = s.slabInUse (r.page i) - 1 := inUse₃
    rw [now]
    omega
  · intro other linkUnguarded headerUnguarded
    have first := keeps_setField (s := s) table linkUnguarded (s.slabFreeList (r.page i))
    have second := keeps_setField (s := s₁) table (headerUnguarded (.freeList (r.page i)) rfl) obj
    have third := keeps_setField (s := s₂) table (headerUnguarded (.inUse (r.page i)) rfl)
      (s.slabInUse (r.page i) - 1)
    exact (first.trans second).trans third

/-- What `cache_free` stores to is in no block afterwards: the slab's header, the
object's link, and the links between slabs. -/
theorem cacheFree_unguarded (wellFormed : lay.WellFormed r) (isSlab : lay.use i = .slab c)
    (member : obj ∈ objects c (r.page i)) (after : (lay.cacheFree r c (r.page i) obj).WellFormed r) :
    (∀ field : Field, field.headerOf = some (r.page i) →
        Unguarded r (lay.cacheFree r c (r.page i) obj) field) ∧
      Unguarded r (lay.cacheFree r c (r.page i) obj) (.link obj) ∧
      ListedUnguarded r (lay.give (r.page i) obj) (lay.cacheFree r c (r.page i) obj) := by
  have known := wellFormed.known i c isSlab
  rcases cacheFree_page lay r c i obj with ⟨pageAfter, othersAfter⟩
  have headerUnguarded : ∀ field : Field, field.headerOf = some (r.page i) →
      Unguarded r (lay.cacheFree r c (r.page i) obj) field := by
    intro field ofSlab
    rcases pageAfter with isFree | ⟨sameUse, -⟩
    · exact unguarded_freePage after isFree (Or.inl ofSlab)
    · exact unguarded_header after (sameUse.trans isSlab) ofSlab
  refine ⟨headerUnguarded, ?_, ?_⟩
  · rcases pageAfter with isFree | ⟨sameUse, isFree⟩
    · have bounds := object_bounds known member
      have large := (class_facts c known).2.1
      exact unguarded_freePage after isFree (Or.inr ⟨obj, rfl, by omega, by omega⟩)
    · exact unguarded_link after (sameUse.trans isSlab) isFree
  · intro c' which node nodeMem field ofSlab
    rcases (wellFormed.listed c' which node).mp nodeMem with ⟨j, rfl, isSlab', -⟩
    by_cases same : j = i
    · subst same
      exact headerUnguarded field ofSlab
    · exact unguarded_header after ((othersAfter j same).trans isSlab') ofSlab

/-- `cache_free` of an object of a slab: the object is given back, then the slab
is released, moved to the other list or left where it is. -/
theorem cacheFree_eq (rep : Represents r lay s) (wellFormed : lay.WellFormed r)
    (isSlab : lay.use i = .slab c) (member : obj ∈ objects c (r.page i)) :
    cacheFree c obj s =
      if (giveObject (r.page i) obj s).slabInUse (r.page i) = 0 then
        freePagesBackend (r.page i)
          (unlinkSlab c (Layout.listOf (lay.freeObjects (r.page i))) (r.page i)
            (giveObject (r.page i) obj s))
      else if lay.freeObjects (r.page i) = [] then
        pushSlab c .partlyUsed (r.page i)
          (unlinkSlab c .full (r.page i) (giveObject (r.page i) obj s))
      else giveObject (r.page i) obj s := by
  have isPage := wellFormed.isPage isSlab
  have header := rep.header i c (Region.isPage_page_iff.mp isPage).2 isSlab
  have slabIs := alignDown_object (wellFormed.known i c isSlab) isPage member
  have magic : s.slabMagicOf (r.page i) = slabMagic := header.magic
  have wasFull : s.slabFreeList (r.page i) = 0 ↔ lay.freeObjects (r.page i) = [] :=
    header.chain.eq_zero_iff
  have unfolded : cacheFree c obj s =
      if s.slabMagicOf (r.page i) ≠ slabMagic then s
      else if (giveObject (r.page i) obj s).slabInUse (r.page i) = 0 then
        if s.slabFreeList (r.page i) = 0 then
          freePagesBackend (r.page i)
            (unlinkSlab c .full (r.page i) (giveObject (r.page i) obj s))
        else freePagesBackend (r.page i)
          (unlinkSlab c .partlyUsed (r.page i) (giveObject (r.page i) obj s))
      else if s.slabFreeList (r.page i) = 0 then
        pushSlab c .partlyUsed (r.page i)
          (unlinkSlab c .full (r.page i) (giveObject (r.page i) obj s))
      else giveObject (r.page i) obj s := by
    unfold cacheFree
    simp only [slabIs]
    rfl
  rw [unfolded, if_neg (not_not.mpr magic)]
  simp only [wasFull, Layout.listOf]
  split
  · split <;> rfl
  · rfl

theorem cacheFree_refines (rep : Represents r lay s) (wellFormed : lay.WellFormed r)
    (isSlab : lay.use i = .slab c) (member : obj ∈ objects c (r.page i))
    (taken : obj ∉ lay.freeObjects (r.page i)) (inReach : i < r.reach)
    (after : (lay.cacheFree r c (r.page i) obj).WellFormed r) :
    Represents r (lay.cacheFree r c (r.page i) obj) (cacheFree c obj s) ∧
      Keeps r (lay.cacheFree r c (r.page i) obj) s (cacheFree c obj s) := by
  have inRegion := wellFormed.inRegion
  have isPage := wellFormed.isPage isSlab
  have known := wellFormed.known i c isSlab
  have inside := (Region.isPage_page_iff.mp isPage).2
  have givenRegion : (lay.give (r.page i) obj).InRegion r :=
    inRegion.setFree isSlab (List.forall_mem_cons.mpr ⟨member, wellFormed.isObject i c isSlab⟩)
  have listed : r.page i ∈ lay.slabs c (Layout.listOf (lay.freeObjects (r.page i))) :=
    (wellFormed.listed _ _ _).mpr ⟨i, rfl, isSlab, rfl⟩
  have nodup := wellFormed.nodupSlabs c (Layout.listOf (lay.freeObjects (r.page i)))
  rcases cacheFree_unguarded wellFormed isSlab member after with
    ⟨headerUnguarded, linkUnguarded, listedUnguarded⟩
  rcases giveObject_refines rep wellFormed isSlab member taken with ⟨given, count, giveKeeps⟩
  have keeps := giveKeeps _ linkUnguarded headerUnguarded
  have lengthIs : ((lay.give (r.page i) obj).freeObjects (r.page i)).length = capacity c ↔
      (giveObject (r.page i) obj s).slabInUse (r.page i) = 0 := by
    rw [Layout.give, Layout.setFree_freeObjects_same, List.length_cons]
    omega
  rw [cacheFree_eq rep wellFormed isSlab member]
  generalize resultEq : lay.cacheFree r c (r.page i) obj = result at *
  unfold Layout.cacheFree at resultEq
  dsimp only at resultEq
  generalize giveObject (r.page i) obj s = s₃ at *
  by_cases empty : s₃.slabInUse (r.page i) = 0
  · rw [if_pos empty]
    rw [if_pos (lengthIs.mpr empty)] at resultEq
    have unlinked := unlinkSlab_represents given givenRegion wellFormed.listsApart known listed
    have unlinkKeeps := (unlinkSlab_effect given givenRegion known listed).2.2.2.2 result listedUnguarded
    generalize unlinkSlab c (Layout.listOf (lay.freeObjects (r.page i))) (r.page i) s₃ = s₄ at *
    have one : s₄.field (.pageCount i) = 1 := by
      have useIs : (lay.give (r.page i) obj).use i = .slab c := isSlab
      rw [unlinked.pageCount i inside, Layout.unlink_use, useIs]
      rfl
    have set := freePagesBackend_tableSet unlinked.statics inReach one (by decide) (by omega)
    have freed := unlinked.tableSet (givenRegion.unlink c _ _) set (by simp)
    constructor
    · rw [← resultEq, Layout.releaseSlab, Region.index_page]
      apply freed.setFree_of_notSlab
      intro c'
      rw [Layout.setUse_use, if_pos (by omega)]
      simp
    · exact (keeps.trans unlinkKeeps).trans (set.keeps result after)
  · rw [if_neg empty]
    rw [if_neg (fun full => empty (lengthIs.mp full))] at resultEq
    by_cases full : lay.freeObjects (r.page i) = []
    · rw [if_pos full]
      rw [if_pos full] at resultEq
      rw [full] at listed nodup
      rcases moveSlab_refines .partlyUsed given givenRegion wellFormed.listsApart known listed nodup
        with ⟨moved, moveKeeps⟩
      rw [← resultEq] at after keeps listedUnguarded ⊢
      exact ⟨moved, keeps.trans (moveKeeps _ listedUnguarded)⟩
    · rw [if_neg full]
      rw [if_neg full] at resultEq
      rw [← resultEq] at keeps ⊢
      exact ⟨given, keeps⟩

end UniKernel.Heap
