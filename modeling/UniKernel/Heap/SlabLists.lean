import UniKernel.Heap.Pages

/-!
Owns the slab lists over memory: taking a slab out of a list and putting one in
front of a list write `next` and `prev` fields and a list head only, and do to
memory what they do to the layout.
-/

namespace UniKernel.Heap

open UniKernel.Lib

variable {r : Region} {lay other : Layout} {s s' : State} {c slab : Nat} {which : SlabList}

/-- No slab is in two lists. -/
def Layout.ListsApart (lay : Layout) : Prop :=
  ∀ c which c' which' slab, slab ∈ lay.slabs c which → slab ∈ lay.slabs c' which' →
    c' = c ∧ which' = which

theorem Layout.WellFormed.listsApart (wellFormed : lay.WellFormed r) : lay.ListsApart := by
  intro c which c' which' slab member member'
  rcases (wellFormed.listed c which slab).mp member with ⟨i, rfl, isSlab, isList⟩
  rcases (wellFormed.listed c' which' _).mp member' with ⟨j, samePage, isSlab', isList'⟩
  rw [← Region.page_inj.mp samePage, isSlab] at isSlab'
  cases isSlab'
  exact ⟨rfl, isList'.trans isList.symm⟩

/-- Only `next` and `prev` fields and list heads differ. -/
structure Relinks (r : Region) (s s' : State) : Prop where
  statics : SameStatics s s'
  slabsFree : ∀ c, (s'.caches c).slabsFree = (s.caches c).slabsFree
  field : ∀ field, field.Valid r → (∀ slab, field ≠ .next slab) → (∀ slab, field ≠ .prev slab) →
    s'.field field = s.field field

/-! ### Links -/

section Links

variable {node value : Nat} {field : Field}

theorem next_setSlabNext (table : s.pageMetadata = r.base) (isPage : r.IsPage slab)
    (nodePage : r.IsPage node) (fits : value < 256 ^ 8) :
    (s.setSlabNext slab value).field (.next node) = if node = slab then value else s.field (.next node) := by
  have validSlab : (Field.next slab).Valid r := isPage
  have validNode : (Field.next node).Valid r := nodePage
  have set := field_setField (s := s) table validSlab validNode fits
  simp only [Field.next.injEq] at set
  exact set

theorem prev_setSlabPrev (table : s.pageMetadata = r.base) (isPage : r.IsPage slab)
    (nodePage : r.IsPage node) (fits : value < 256 ^ 8) :
    (s.setSlabPrev slab value).field (.prev node) = if node = slab then value else s.field (.prev node) := by
  have validSlab : (Field.prev slab).Valid r := isPage
  have validNode : (Field.prev node).Valid r := nodePage
  have set := field_setField (s := s) table validSlab validNode fits
  simp only [Field.prev.injEq] at set
  exact set

theorem field_setSlabNext (table : s.pageMetadata = r.base) (isPage : r.IsPage slab)
    (valid : field.Valid r) (notNext : field ≠ .next slab) :
    (s.setSlabNext slab value).field field = s.field field := by
  have validSlab : (Field.next slab).Valid r := isPage
  exact field_setField_other table validSlab valid notNext value

theorem field_setSlabPrev (table : s.pageMetadata = r.base) (isPage : r.IsPage slab)
    (valid : field.Valid r) (notPrev : field ≠ .prev slab) :
    (s.setSlabPrev slab value).field field = s.field field := by
  have validSlab : (Field.prev slab).Valid r := isPage
  exact field_setField_other table validSlab valid notPrev value

theorem prev_setSlabNext (table : s.pageMetadata = r.base) (isPage : r.IsPage slab)
    (nodePage : r.IsPage node) :
    (s.setSlabNext slab value).field (.prev node) = s.field (.prev node) :=
  field_setSlabNext table isPage (show (Field.prev node).Valid r from nodePage) (by simp)

theorem next_setSlabPrev (table : s.pageMetadata = r.base) (isPage : r.IsPage slab)
    (nodePage : r.IsPage node) :
    (s.setSlabPrev slab value).field (.next node) = s.field (.next node) :=
  field_setSlabPrev table isPage (show (Field.next node).Valid r from nodePage) (by simp)

theorem keeps_setSlabNext (table : s.pageMetadata = r.base)
    (unguarded : Unguarded r other (.next slab)) : Keeps r other s (s.setSlabNext slab value) :=
  keeps_setField table unguarded value

theorem keeps_setSlabPrev (table : s.pageMetadata = r.base)
    (unguarded : Unguarded r other (.prev slab)) : Keeps r other s (s.setSlabPrev slab value) :=
  keeps_setField table unguarded value

end Links

namespace Relinks

theorem trans {s'' : State} (first : Relinks r s s') (second : Relinks r s' s'') :
    Relinks r s s'' where
  statics := first.statics.trans second.statics
  slabsFree c := (second.slabsFree c).trans (first.slabsFree c)
  field field valid notNext notPrev :=
    (second.field field valid notNext notPrev).trans (first.field field valid notNext notPrev)

theorem setNext (table : s.pageMetadata = r.base) (isPage : r.IsPage slab) (value : Nat) :
    Relinks r s (s.setSlabNext slab value) where
  statics := .write s _
  slabsFree _ := rfl
  field _ valid notNext _ := field_setSlabNext table isPage valid (notNext slab)

theorem setPrev (table : s.pageMetadata = r.base) (isPage : r.IsPage slab) (value : Nat) :
    Relinks r s (s.setSlabPrev slab value) where
  statics := .write s _
  slabsFree _ := rfl
  field _ valid _ notPrev := field_setSlabPrev table isPage valid (notPrev slab)

theorem setHead (s : State) (c : Nat) (which : SlabList) (slab : Nat) :
    Relinks r s (s.setHead c which slab) where
  statics := .setHead s c which slab
  slabsFree other := by
    unfold State.setHead
    dsimp only
    by_cases same : other = c
    · subst same
      rw [Function.update_self]
      cases which <;> rfl
    · rw [Function.update_of_ne same]
  field _ _ _ _ := rfl

/-- The pages and the slab headers still stand for the layout. -/
theorem represents (relinks : Relinks r s s') (rep : Represents r lay s) (inRegion : lay.InRegion r)
    {lay' : Layout} (sameUse : lay'.use = lay.use) (sameFree : lay'.freeObjects = lay.freeObjects)
    (lists : ∀ c which, c < numCacheSizes → ListIs s' c which (lay'.slabs c which)) :
    Represents r lay' s' where
  statics := rep.statics.of_same relinks.statics
  noFreeSlabs c known := (relinks.slabsFree c).trans (rep.noFreeSlabs c known)
  pageType i inside := by
    have valid : (Field.pageType i).Valid r := inside
    rw [sameUse, relinks.field _ valid (by simp) (by simp), rep.pageType i inside]
  pageCount i inside := by
    have valid : (Field.pageCount i).Valid r := inside
    rw [sameUse, relinks.field _ valid (by simp) (by simp), rep.pageCount i inside]
  header i c inside isSlab := by
    rw [sameUse] at isSlab
    rw [sameFree]
    have isPage := inRegion.isPage i c isSlab
    have known := inRegion.known i c isSlab
    apply (rep.header i c inside isSlab).congr relinks.statics.cachesAt
    · exact relinks.field (.cache (r.page i)) isPage (by simp) (by simp)
    · exact relinks.field (.magic (r.page i)) isPage (by simp) (by simp)
    · exact relinks.field (.inUse (r.page i)) isPage (by simp) (by simp)
    · exact relinks.field (.freeList (r.page i)) isPage (by simp) (by simp)
    · intro obj member
      have isObject := isObject_of_mem known isPage (inRegion.isObject i c isSlab obj member)
      exact relinks.field (.link obj) isObject (by simp) (by simp)
  lists := lists

end Relinks

/-- Headers of listed slabs are outside the blocks of `other`. -/
def ListedUnguarded (r : Region) (lay other : Layout) : Prop :=
  ∀ c which slab, slab ∈ lay.slabs c which → ∀ field : Field, field.headerOf = some slab →
    Unguarded r other field

theorem Layout.WellFormed.listedUnguarded (wellFormed : lay.WellFormed r) :
    ListedUnguarded r lay lay := by
  intro c which slab member field ofSlab
  rcases (wellFormed.listed c which slab).mp member with ⟨i, rfl, isSlab, -⟩
  exact unguarded_header wellFormed isSlab ofSlab

/-! ### Taking a slab out -/

/-- The step `if (slab->prev) slab->prev->next = slab->next; else head = slab->next;`
with the two links read. -/
def skipSlab (c : Nat) (which : SlabList) (before after : Nat) (s : State) : State :=
  if before ≠ 0 then s.setSlabNext before after else s.setHead c which after

theorem skipSlab_effect {before after : Nat} (rep : Represents r lay s) (inRegion : lay.InRegion r)
    (beforeMem : before ≠ 0 → before ∈ lay.slabs c which) (fits : after < 256 ^ 8) :
    Relinks r s (skipSlab c which before after s) ∧
      (∀ node, r.IsPage node → (skipSlab c which before after s).field (.next node) =
        if node = before then after else s.field (.next node)) ∧
      (∀ node, r.IsPage node →
        (skipSlab c which before after s).field (.prev node) = s.field (.prev node)) ∧
      (∀ c' which', (skipSlab c which before after s).head c' which' =
        if before = 0 ∧ c' = c ∧ which' = which then after else s.head c' which') ∧
      ∀ other, ListedUnguarded r lay other → Keeps r other s (skipSlab c which before after s) := by
  have table := rep.statics.table
  unfold skipSlab
  by_cases isFirst : before = 0
  · rw [if_neg (not_not.mpr isFirst)]
    refine ⟨.setHead s c which after, ?_, fun _ _ => rfl, ?_, fun _ _ => .refl s⟩
    · intro node isPage
      rw [if_neg (fun same => isPage.ne_zero (same.trans isFirst))]
      rfl
    · intro c' which'
      rw [setHead_head]
      simp only [isFirst, true_and]
  · have beforePage := inRegion.listed c which before (beforeMem isFirst)
    rw [if_pos isFirst]
    refine ⟨.setNext table beforePage after, ?_, ?_, ?_, ?_⟩
    · exact fun node isPage => next_setSlabNext table beforePage isPage fits
    · exact fun node isPage => prev_setSlabNext table beforePage isPage
    · intro c' which'
      rw [if_neg (fun all => isFirst all.1)]
      rfl
    · intro other unguarded
      exact keeps_setSlabNext table (unguarded c which before (beforeMem isFirst) _ rfl)

/-- What `unlinkSlab` leaves in the links and the head of the list. -/
theorem unlinkSlab_effect (rep : Represents r lay s) (inRegion : lay.InRegion r)
    (known : c < numCacheSizes) (member : slab ∈ lay.slabs c which) :
    Relinks r s (unlinkSlab c which slab s) ∧
      (∀ node, r.IsPage node → (unlinkSlab c which slab s).field (.next node) =
        if node = s.slabPrev slab then s.slabNext slab else s.field (.next node)) ∧
      (∀ node, r.IsPage node → (unlinkSlab c which slab s).field (.prev node) =
        if node = s.slabNext slab then s.slabPrev slab else s.field (.prev node)) ∧
      (∀ c' which', (unlinkSlab c which slab s).head c' which' =
        if s.slabPrev slab = 0 ∧ c' = c ∧ which' = which then s.slabNext slab else s.head c' which') ∧
      ∀ other, ListedUnguarded r lay other → Keeps r other s (unlinkSlab c which slab s) := by
  have list := rep.lists c which known
  have slabPage := inRegion.listed c which slab member
  have prevMem : s.slabPrev slab ≠ 0 → s.slabPrev slab ∈ lay.slabs c which := list.prev_mem member
  have nextMem : s.slabNext slab ≠ 0 → s.slabNext slab ∈ lay.slabs c which := list.next_mem member
  have prevNe : s.slabPrev slab ≠ slab := list.prev_ne member
  have nextFits : s.slabNext slab < 256 ^ 8 := field_lt s (.next slab)
  have prevFits : s.slabPrev slab < 256 ^ 8 := field_lt s (.prev slab)
  rcases skipSlab_effect rep inRegion prevMem nextFits with ⟨relinks, next, prev, head, keeps⟩
  have nextHere : (skipSlab c which (s.slabPrev slab) (s.slabNext slab) s).slabNext slab =
      s.slabNext slab := (next slab slabPage).trans (if_neg prevNe.symm)
  have prevHere : (skipSlab c which (s.slabPrev slab) (s.slabNext slab) s).slabPrev slab =
      s.slabPrev slab := prev slab slabPage
  have steps : unlinkSlab c which slab s =
      if s.slabNext slab ≠ 0 then
        (skipSlab c which (s.slabPrev slab) (s.slabNext slab) s).setSlabPrev (s.slabNext slab)
          (s.slabPrev slab)
      else skipSlab c which (s.slabPrev slab) (s.slabNext slab) s := by
    have unfolded : unlinkSlab c which slab s =
        if (skipSlab c which (s.slabPrev slab) (s.slabNext slab) s).slabNext slab ≠ 0 then
          (skipSlab c which (s.slabPrev slab) (s.slabNext slab) s).setSlabPrev
            ((skipSlab c which (s.slabPrev slab) (s.slabNext slab) s).slabNext slab)
            ((skipSlab c which (s.slabPrev slab) (s.slabNext slab) s).slabPrev slab)
        else skipSlab c which (s.slabPrev slab) (s.slabNext slab) s := rfl
    rw [unfolded, nextHere, prevHere]
  have table : (skipSlab c which (s.slabPrev slab) (s.slabNext slab) s).pageMetadata = r.base :=
    relinks.statics.metadata.trans rep.statics.table
  rw [steps]
  generalize skipSlab c which (s.slabPrev slab) (s.slabNext slab) s = skipped at *
  by_cases isLast : s.slabNext slab = 0
  · rw [if_neg (not_not.mpr isLast)]
    refine ⟨relinks, next, ?_, head, keeps⟩
    intro node isPage
    rw [if_neg (fun same => isPage.ne_zero (same.trans isLast)), prev node isPage]
  · have afterPage := inRegion.listed c which _ (nextMem isLast)
    rw [if_pos isLast]
    refine ⟨relinks.trans (.setPrev table afterPage _), ?_, ?_, head, ?_⟩
    · intro node isPage
      rw [next_setSlabPrev table afterPage isPage, next node isPage]
    · intro node isPage
      rw [prev_setSlabPrev table afterPage isPage prevFits, prev node isPage]
    · intro other unguarded
      exact (keeps other unguarded).trans
        (keeps_setSlabPrev table (unguarded c which _ (nextMem isLast) _ rfl))

theorem unlinkSlab_represents (rep : Represents r lay s) (inRegion : lay.InRegion r)
    (apart : lay.ListsApart) (known : c < numCacheSizes) (member : slab ∈ lay.slabs c which) :
    Represents r (lay.unlink c which slab) (unlinkSlab c which slab s) := by
  rcases unlinkSlab_effect rep inRegion known member with ⟨relinks, next, prev, head, -⟩
  have list := rep.lists c which known
  have prevMem : s.slabPrev slab ≠ 0 → s.slabPrev slab ∈ lay.slabs c which := list.prev_mem member
  have nextMem : s.slabNext slab ≠ 0 → s.slabNext slab ∈ lay.slabs c which := list.next_mem member
  refine relinks.represents rep inRegion rfl rfl ?_
  intro c' which' known'
  rw [Layout.unlink_slabs]
  by_cases same : c' = c ∧ which' = which
  · rcases same with ⟨rfl, rfl⟩
    rw [if_pos ⟨rfl, rfl⟩]
    have unlinked : Linked (fun node => (unlinkSlab c' which' slab s).field (.next node))
        (fun node => (unlinkSlab c' which' slab s).field (.prev node))
        (if s.slabPrev slab = 0 then s.slabNext slab else s.head c' which')
        (if s.slabNext slab = 0 then s.slabPrev slab else (lay.slabs c' which').getLastD 0)
        ((lay.slabs c' which').erase slab) := by
      apply list.unlink member
      · intro node nodeMem _ notPrev
        exact (next node (inRegion.listed _ _ node nodeMem)).trans (if_neg notPrev)
      · intro node nodeMem _ notNext
        exact (prev node (inRegion.listed _ _ node nodeMem)).trans (if_neg notNext)
      · intro nonzero
        exact (next _ (inRegion.listed _ _ _ (prevMem nonzero))).trans (if_pos rfl)
      · intro nonzero
        exact (prev _ (inRegion.listed _ _ _ (nextMem nonzero))).trans (if_pos rfl)
    refine ⟨unlinked.segment, ?_, rfl, unlinked.nodup⟩
    rw [← unlinked.head_eq, head]
    simp only [and_self, and_true]
  · rw [if_neg same]
    apply (rep.lists c' which' known').congr
    · rw [head, if_neg (fun all => same all.2)]
    · intro node nodeMem
      have isPage := inRegion.listed _ _ node nodeMem
      rw [next node isPage, if_neg]
      intro isPrev
      rw [isPrev] at nodeMem isPage
      exact same (apart _ _ _ _ _ (prevMem isPage.ne_zero) nodeMem)
    · intro node nodeMem
      have isPage := inRegion.listed _ _ node nodeMem
      rw [prev node isPage, if_neg]
      intro isNext
      rw [isNext] at nodeMem isPage
      exact same (apart _ _ _ _ _ (nextMem isPage.ne_zero) nodeMem)

/-! ### Putting a slab in front -/

theorem pushSlab_effect (rep : Represents r lay s) (inRegion : lay.InRegion r)
    (known : c < numCacheSizes) (isPage : r.IsPage slab) :
    Relinks r s (pushSlab c which slab s) ∧
      (∀ node, r.IsPage node → (pushSlab c which slab s).field (.next node) =
        if node = slab then s.head c which else s.field (.next node)) ∧
      (∀ node, r.IsPage node → (pushSlab c which slab s).field (.prev node) =
        if node = s.head c which then slab
        else if node = slab then 0 else s.field (.prev node)) ∧
      (∀ c' which', (pushSlab c which slab s).head c' which' =
        if c' = c ∧ which' = which then slab else s.head c' which') ∧
      ∀ other, ListedUnguarded r lay other →
        (∀ field : Field, field.headerOf = some slab → Unguarded r other field) →
        Keeps r other s (pushSlab c which slab s) := by
  have list := rep.lists c which known
  have table := rep.statics.table
  have headMem : s.head c which ≠ 0 → s.head c which ∈ lay.slabs c which := list.head_mem
  have headFits : s.head c which < 256 ^ 8 := by
    by_cases isEmpty : s.head c which = 0
    · rw [isEmpty]
      decide
    · have headPage := inRegion.listed c which _ (headMem isEmpty)
      exact Nat.lt_of_lt_of_eq headPage.lt (by decide)
  have slabFits : slab < 256 ^ 8 := Nat.lt_of_lt_of_eq isPage.lt (by decide)
  have table₁ : (s.setSlabNext slab (s.head c which)).pageMetadata = r.base := table
  have table₂ : ((s.setSlabNext slab (s.head c which)).setSlabPrev slab 0).pageMetadata = r.base :=
    table
  -- the slab's own links
  have next₂ : ∀ node, r.IsPage node →
      ((s.setSlabNext slab (s.head c which)).setSlabPrev slab 0).field (.next node) =
        if node = slab then s.head c which else s.field (.next node) := by
    intro node nodePage
    rw [next_setSlabPrev table₁ isPage nodePage, next_setSlabNext table isPage nodePage headFits]
  have prev₂ : ∀ node, r.IsPage node →
      ((s.setSlabNext slab (s.head c which)).setSlabPrev slab 0).field (.prev node) =
        if node = slab then 0 else s.field (.prev node) := by
    intro node nodePage
    rw [prev_setSlabPrev table₁ isPage nodePage (by decide), prev_setSlabNext table isPage nodePage]
  have keeps₂ : ∀ other, (∀ field : Field, field.headerOf = some slab → Unguarded r other field) →
      Keeps r other s ((s.setSlabNext slab (s.head c which)).setSlabPrev slab 0) := by
    intro other unguarded
    exact (keeps_setSlabNext table (unguarded (.next slab) rfl)).trans
      (keeps_setSlabPrev table₁ (unguarded (.prev slab) rfl))
  have head₂ : ∀ c' which', ((s.setSlabNext slab (s.head c which)).setSlabPrev slab 0).head c' which' =
      s.head c' which' := fun _ _ => rfl
  have relinks₂ : Relinks r s ((s.setSlabNext slab (s.head c which)).setSlabPrev slab 0) :=
    (Relinks.setNext table isPage _).trans (.setPrev table₁ isPage 0)
  have steps : pushSlab c which slab s =
      (if s.head c which ≠ 0 then
        ((s.setSlabNext slab (s.head c which)).setSlabPrev slab 0).setSlabPrev (s.head c which) slab
      else (s.setSlabNext slab (s.head c which)).setSlabPrev slab 0).setHead c which slab := rfl
  rw [steps]
  generalize (s.setSlabNext slab (s.head c which)).setSlabPrev slab 0 = s₂ at *
  by_cases isEmpty : s.head c which = 0
  · rw [if_neg (not_not.mpr isEmpty)]
    refine ⟨relinks₂.trans (.setHead s₂ c which slab), next₂, ?_, ?_, ?_⟩
    · intro node nodePage
      rw [if_neg (fun same => nodePage.ne_zero (same.trans isEmpty))]
      exact prev₂ node nodePage
    · intro c' which'
      rw [setHead_head, head₂]
    · exact fun other _ slabUnguarded => keeps₂ other slabUnguarded
  · have oldPage := inRegion.listed c which _ (headMem isEmpty)
    rw [if_pos isEmpty]
    refine ⟨(relinks₂.trans (.setPrev table₂ oldPage slab)).trans (.setHead _ c which slab),
      ?_, ?_, ?_, ?_⟩
    · intro node nodePage
      rw [setHead_field, next_setSlabPrev table₂ oldPage nodePage, next₂ node nodePage]
    · intro node nodePage
      rw [setHead_field, prev_setSlabPrev table₂ oldPage nodePage slabFits, prev₂ node nodePage]
    · intro c' which'
      rw [setHead_head]
      congr 1
      exact head₂ c' which'
    · intro other unguarded slabUnguarded
      exact (keeps₂ other slabUnguarded).trans
        (keeps_setSlabPrev table₂ (unguarded c which _ (headMem isEmpty) _ rfl))

theorem pushSlab_represents (rep : Represents r lay s) (inRegion : lay.InRegion r)
    (apart : lay.ListsApart) (known : c < numCacheSizes) (isPage : r.IsPage slab)
    (fresh : ∀ c' which', slab ∉ lay.slabs c' which') :
    Represents r (lay.push c which slab) (pushSlab c which slab s) := by
  rcases pushSlab_effect rep inRegion known isPage with
    ⟨relinks, next, prev, head, -⟩
  have list := rep.lists c which known
  have headMem : s.head c which ≠ 0 → s.head c which ∈ lay.slabs c which := list.head_mem
  have headNe : ¬ slab = s.head c which := by
    intro same
    apply fresh c which
    rw [same]
    apply headMem
    rw [← same]
    exact isPage.ne_zero
  refine relinks.represents rep inRegion rfl rfl ?_
  intro c' which' known'
  rw [Layout.push_slabs]
  by_cases same : c' = c ∧ which' = which
  · rcases same with ⟨rfl, rfl⟩
    rw [if_pos ⟨rfl, rfl⟩]
    have notSlab : ∀ node ∈ lay.slabs c' which', ¬ node = slab := by
      intro node nodeMem same
      exact fresh _ _ (same ▸ nodeMem)
    have pushed : Linked (fun node => (pushSlab c' which' slab s).field (.next node))
        (fun node => (pushSlab c' which' slab s).field (.prev node)) slab
        (if s.head c' which' = 0 then slab else (lay.slabs c' which').getLastD 0)
        (slab :: lay.slabs c' which') := by
      apply list.pushFront isPage.ne_zero (fresh c' which')
      · intro node nodeMem
        exact (next node (inRegion.listed _ _ node nodeMem)).trans (if_neg (notSlab node nodeMem))
      · intro node nodeMem notHead
        rw [prev node (inRegion.listed _ _ node nodeMem), if_neg notHead, if_neg (notSlab node nodeMem)]
      · intro nonempty
        have nonzero : s.head c' which' ≠ 0 := fun isZero => nonempty (list.head_eq_zero_iff.mp isZero)
        exact (prev _ (inRegion.listed _ _ _ (headMem nonzero))).trans (if_pos rfl)
      · exact (next slab isPage).trans (if_pos rfl)
      · rw [prev slab isPage, if_neg headNe, if_pos rfl]
    refine ⟨pushed.segment, ?_, rfl, pushed.nodup⟩
    rw [head, if_pos ⟨rfl, rfl⟩]
    rfl
  · rw [if_neg same]
    apply (rep.lists c' which' known').congr
    · rw [head, if_neg same]
    · intro node nodeMem
      rw [next node (inRegion.listed _ _ node nodeMem), if_neg]
      rintro rfl
      exact fresh _ _ nodeMem
    · intro node nodeMem
      have nodePage := inRegion.listed _ _ node nodeMem
      rw [prev node nodePage, if_neg, if_neg]
      · rintro rfl
        exact fresh _ _ nodeMem
      · intro isHead
        rw [isHead] at nodeMem nodePage
        exact same (apart _ _ _ _ _ (headMem nodePage.ne_zero) nodeMem)

end UniKernel.Heap
