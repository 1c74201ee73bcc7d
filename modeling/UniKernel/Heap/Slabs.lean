import UniKernel.Heap.SlabLists

/-!
Owns the slabs over memory: `slab_init_page` builds a slab whose objects are all
free, and taking or returning an object changes the slab's free list, its
counter and the lists as it does in the layout.
-/

namespace UniKernel.Heap

open UniKernel.Lib

variable {r : Region} {lay other : Layout} {s s' : State} {c i slab obj : Nat} {which : SlabList}
  {nodes rest : List Nat}

/-! ### The free list of a new slab -/

/-- The field is one of the slab's header or a link in its page. -/
def Field.InPage (slab : Nat) (field : Field) : Prop :=
  field.headerOf = some slab ∨ ∃ obj, field = .link obj ∧ slab ≤ obj ∧ obj + 8 ≤ slab + 4096

/-- What the loop of `slab_init_page` writes. -/
theorem linkObjects_effect {size curr count : Nat} (table : s.pageMetadata = r.base)
    (positive : 0 < size) (isObject : ∀ k, k ≤ count → r.IsObject (curr + k * size)) :
    (linkObjects size curr count s).caches = s.caches ∧
      (∀ k, k < count → (linkObjects size curr count s).field (.link (curr + k * size)) =
        curr + (k + 1) * size) ∧
      (∀ field, field.Valid r → (∀ k, k < count → field ≠ .link (curr + k * size)) →
        (linkObjects size curr count s).field field = s.field field) ∧
      ∀ other, (∀ k, k < count → Unguarded r other (.link (curr + k * size))) →
        Keeps r other s (linkObjects size curr count s) := by
  induction count generalizing curr s with
  | zero =>
      exact ⟨rfl, fun k below => absurd below (Nat.not_lt_zero k), fun _ _ _ => rfl, fun _ _ => .refl s⟩
  | succ count inductionHypothesis =>
      have shift : ∀ k, curr + size + k * size = curr + (k + 1) * size := by
        intro k
        rw [Nat.add_mul, Nat.one_mul]
        omega
      have firstObject : r.IsObject curr := by
        have first := isObject 0 (Nat.zero_le _)
        rwa [Nat.zero_mul, Nat.add_zero] at first
      have secondObject : r.IsObject (curr + size) := by
        have second := isObject 1 (by omega)
        rwa [Nat.one_mul] at second
      have valid : (Field.link curr).Valid r := firstObject
      have fits : curr + size < 256 ^ 8 := Nat.lt_of_lt_of_eq secondObject.lt (by decide)
      have table' : (s.store64 curr (curr + size)).pageMetadata = r.base := table
      have laterObject : ∀ k, k ≤ count → r.IsObject (curr + size + k * size) := by
        intro k below
        rw [shift]
        exact isObject (k + 1) (by omega)
      rcases inductionHypothesis (s := s.store64 curr (curr + size)) table' laterObject
        with ⟨caches, links, others, keeps⟩
      have unfolded : linkObjects size curr (count + 1) s =
          linkObjects size (curr + size) count (s.store64 curr (curr + size)) := rfl
      rw [unfolded]
      refine ⟨caches, ?_, ?_, ?_⟩
      · intro k below
        cases k with
        | zero =>
            rw [Nat.zero_mul, Nat.add_zero, Nat.zero_add, Nat.one_mul]
            have notLater : ∀ k, k < count → Field.link curr ≠ .link (curr + size + k * size) := by
              intro k _ same
              have addrs := Field.link.inj same
              omega
            rw [others _ valid notLater]
            exact (field_setField table valid valid fits).trans (if_pos rfl)
        | succ k =>
            have later := links k (by omega)
            rw [shift, shift] at later
            exact later
      · intro field fieldValid notLink
        rw [others field fieldValid]
        · have notFirst := notLink 0 (by omega)
          rw [Nat.zero_mul, Nat.add_zero] at notFirst
          exact field_setField_other table valid fieldValid notFirst _
        · intro k below
          rw [shift]
          exact notLink (k + 1) (by omega)
      · intro other unguarded
        have first := unguarded 0 (by omega)
        rw [Nat.zero_mul, Nat.add_zero] at first
        refine Keeps.trans (keeps_setField table first (curr + size)) (keeps other ?_)
        intro k below
        rw [shift]
        exact unguarded (k + 1) (by omega)

/-- The stores of `slab_init_page` to the header. -/
def initHeader (slab c : Nat) (s : State) : State :=
  let s := s.setSlabMagic slab slabMagic
  let s := s.setSlabCache slab (s.cachePtr c)
  let s := s.setSlabInUse slab 0
  let s := s.setSlabNext slab 0
  let s := s.setSlabPrev slab 0
  s.setSlabFreeList slab (slab + 40)

theorem IsPage.end_le (isPage : r.IsPage slab) : slab + 4096 ≤ r.page r.total := by
  have baseAligned := r.aligned
  rcases isPage with ⟨aligned, above, below⟩
  unfold Region.page at *
  omega

theorem initHeader_effect (table : s.pageMetadata = r.base) (isPage : r.IsPage slab)
    (pointerFits : s.cachePtr c < 256 ^ 8) :
    (∀ field, field.Valid r → (initHeader slab c s).field field =
      if field = .freeList slab then slab + 40
      else if field = .prev slab then 0
      else if field = .next slab then 0
      else if field = .inUse slab then 0
      else if field = .cache slab then s.cachePtr c
      else if field = .magic slab then slabMagic
      else s.field field) ∧
      ∀ other, (∀ field : Field, field.headerOf = some slab → Unguarded r other field) →
        Keeps r other s (initHeader slab c s) := by
  let s₁ := s.setField (.magic slab) slabMagic
  let s₂ := s₁.setField (.cache slab) (s.cachePtr c)
  let s₃ := s₂.setField (.inUse slab) 0
  let s₄ := s₃.setField (.next slab) 0
  let s₅ := s₄.setField (.prev slab) 0
  have steps : initHeader slab c s = s₅.setField (.freeList slab) (slab + 40) := rfl
  rw [steps]
  constructor
  · intro field valid
    have magic : (Field.magic slab).Valid r := isPage
    have cache : (Field.cache slab).Valid r := isPage
    have inUse : (Field.inUse slab).Valid r := isPage
    have next : (Field.next slab).Valid r := isPage
    have prev : (Field.prev slab).Valid r := isPage
    have freeList : (Field.freeList slab).Valid r := isPage
    have headFits : slab + 40 < 256 ^ 8 := by
      have bound := IsPage.end_le isPage
      have top := r.page_total_le
      exact Nat.lt_of_lt_of_eq (Nat.lt_of_lt_of_le (by omega) top) (by decide)
    have magicFits : slabMagic < 256 ^ 4 := by decide
    have zeroFits : 0 < 256 ^ 4 := by decide
    have nullFits : 0 < 256 ^ 8 := by decide
    rw [field_setField (s := s₅) table freeList valid headFits,
      field_setField (s := s₄) table prev valid nullFits,
      field_setField (s := s₃) table next valid nullFits,
      field_setField (s := s₂) table inUse valid zeroFits,
      field_setField (s := s₁) table cache valid pointerFits,
      field_setField (s := s) table magic valid magicFits]
  · intro other unguarded
    have magic := keeps_setField (s := s) table (unguarded (.magic slab) rfl) slabMagic
    have cache := keeps_setField (s := s₁) table (unguarded (.cache slab) rfl) (s.cachePtr c)
    have inUse := keeps_setField (s := s₂) table (unguarded (.inUse slab) rfl) 0
    have next := keeps_setField (s := s₃) table (unguarded (.next slab) rfl) 0
    have prev := keeps_setField (s := s₄) table (unguarded (.prev slab) rfl) 0
    have freeList := keeps_setField (s := s₅) table (unguarded (.freeList slab) rfl) (slab + 40)
    exact ((((magic.trans cache).trans inUse).trans next).trans prev).trans freeList

/-- The first object lies right behind the header. -/
theorem alignUp_header (isPage : r.IsPage slab) : alignUp (slab + slabHeaderSize) heapAlign = slab + 40 := by
  have aligned := isPage.1
  have bound := IsPage.end_le isPage
  have top := r.page_total_le
  have small : slab + 40 + 8 - 1 < 2 ^ 64 := Nat.lt_of_lt_of_le (by omega) top
  unfold alignUp alignDown slabHeaderSize heapAlign
  rw [u64_of_lt small]
  omega

theorem cachePtr_lt (statics : Statics r s) (known : c < numCacheSizes) : s.cachePtr c < 256 ^ 8 := by
  have fits := statics.cachesFit
  unfold State.cachePtr
  simp only [numCacheSizes, cacheStructSize] at *
  exact Nat.lt_of_lt_of_eq (Nat.lt_of_lt_of_le (by omega) fits) (by decide)

/-- The header, the links of all objects but the last, and NULL in the last one. -/
theorem slabInitPage_eq (statics : Statics r s) (isPage : r.IsPage slab) (known : c < numCacheSizes) :
    slabInitPage slab c s =
      (linkObjects (classSize c) (slab + 40) (capacity c - 1) (initHeader slab c s)).store64
        (slab + 40 + (capacity c - 1) * classSize c) 0 := by
  unfold slabInitPage
  simp only [alignUp_header isPage, statics.objSize c known]
  have available : (pageSize - (slab + 40 - slab)) / classSize c = capacity c := by
    rw [Nat.add_sub_cancel_left]
    rfl
  rw [available]
  rfl

theorem slabInitPage_effect (statics : Statics r s) (isPage : r.IsPage slab)
    (known : c < numCacheSizes) :
    (slabInitPage slab c s).caches = s.caches ∧
      (∀ field, field.Valid r → ¬ field.InPage slab →
        (slabInitPage slab c s).field field = s.field field) ∧
      Header (slabInitPage slab c s) c slab (objects c slab) ∧
      ∀ other, (∀ field : Field, field.InPage slab → Unguarded r other field) →
        Keeps r other s (slabInitPage slab c s) := by
  rcases class_facts c known with ⟨-, large, -, positive, -, -⟩
  have table := statics.table
  have pointerFits := cachePtr_lt statics known
  have isMember : ∀ k, k < capacity c → slab + 40 + k * classSize c ∈ objects c slab :=
    fun k below => mem_objects_iff.mpr ⟨k, below, rfl⟩
  have isObject : ∀ k, k < capacity c → r.IsObject (slab + 40 + k * classSize c) :=
    fun k below => isObject_of_mem known isPage (isMember k below)
  have inPage : ∀ k, k < capacity c → (Field.link (slab + 40 + k * classSize c)).InPage slab := by
    intro k below
    have bounds := object_bounds known (isMember k below)
    exact Or.inr ⟨_, rfl, by omega, by omega⟩
  have table₁ : (initHeader slab c s).pageMetadata = r.base := table
  rcases linkObjects_effect (s := initHeader slab c s) table₁ (show 0 < classSize c by omega)
    (fun k below => isObject k (show k < capacity c by
      have below : k ≤ capacity c - 1 := below
      omega)) with ⟨caches, links, others, keeps⟩
  have steps := slabInitPage_eq statics isPage known
  have statics₁ : SameStatics s (initHeader slab c s) := ⟨rfl, rfl, rfl, rfl, rfl, fun _ => rfl⟩
  have statics₂ := statics₁.trans (linkObjects_statics (classSize c) (slab + 40) (capacity c - 1) _)
  have sameCaches : (initHeader slab c s).caches = s.caches := rfl
  rcases initHeader_effect table isPage pointerFits with ⟨headerField, headerKeeps⟩
  generalize initHeader slab c s = started at *
  generalize linkObjects (classSize c) (slab + 40) (capacity c - 1) started = linked at *
  have table₂ : linked.pageMetadata = r.base := statics₂.metadata.trans table
  have lastValid : (Field.link (slab + 40 + (capacity c - 1) * classSize c)).Valid r :=
    isObject _ (by omega)
  have nullFits : 0 < 256 ^ 8 := by decide
  -- the fields of the header
  have header : ∀ field, field.Valid r → (∀ obj, field ≠ .link obj) →
      (slabInitPage slab c s).field field = started.field field := by
    intro field valid notLink
    rw [steps, ← others field valid fun k _ => notLink _]
    exact field_setField_other table₂ lastValid valid (notLink _) 0
  have link : ∀ k, k < capacity c → (slabInitPage slab c s).field (.link (slab + 40 + k * classSize c)) =
      if k + 1 = capacity c then 0 else slab + 40 + (k + 1) * classSize c := by
    intro k below
    have valid : (Field.link (slab + 40 + k * classSize c)).Valid r := isObject k below
    have set := field_setField (s := linked) table₂ lastValid valid nullFits
    rw [steps]
    refine set.trans ?_
    by_cases isLast : k + 1 = capacity c
    · rw [if_pos isLast, if_pos]
      rw [show capacity c - 1 = k by omega]
    · rw [if_neg isLast, if_neg, links k (by omega)]
      intro same
      have products : k * classSize c = (capacity c - 1) * classSize c :=
        Nat.add_left_cancel (Field.link.inj same)
      have indices := Nat.eq_of_mul_eq_mul_right (show 0 < classSize c by omega) products
      omega
  refine ⟨?_, ?_, ?_, ?_⟩
  · rw [steps]
    exact caches.trans sameCaches
  · intro field valid outside
    have notLink : ∀ k, k < capacity c → field ≠ .link (slab + 40 + k * classSize c) := by
      rintro k below rfl
      exact outside (inPage k below)
    have notHeader : ∀ header : Field, header.headerOf = some slab → field ≠ header := by
      rintro header ofSlab rfl
      exact outside (Or.inl ofSlab)
    have last : (linked.store64 (slab + 40 + (capacity c - 1) * classSize c) 0).field field =
        linked.field field := field_setField_other table₂ lastValid valid (notLink _ (by omega)) 0
    rw [steps, last, others field valid (fun k below => notLink k (by omega)), headerField field valid,
      if_neg (notHeader (.freeList slab) rfl), if_neg (notHeader (.prev slab) rfl),
      if_neg (notHeader (.next slab) rfl), if_neg (notHeader (.inUse slab) rfl),
      if_neg (notHeader (.cache slab) rfl), if_neg (notHeader (.magic slab) rfl)]
  · have cacheValid : (Field.cache slab).Valid r := isPage
    have magicValid : (Field.magic slab).Valid r := isPage
    have inUseValid : (Field.inUse slab).Valid r := isPage
    have freeListValid : (Field.freeList slab).Valid r := isPage
    refine ⟨?_, ?_, ?_, ?_⟩
    · rw [header _ cacheValid (by simp), headerField _ cacheValid]
      simp only [reduceCtorEq, if_false, if_true]
      rw [steps]
      unfold State.cachePtr
      exact congrArg (· + _) statics₂.cachesAt.symm
    · rw [header _ magicValid (by simp), headerField _ magicValid]
      simp only [reduceCtorEq, if_false, if_true]
    · rw [header _ inUseValid (by simp), headerField _ inUseValid, length_objects]
      simp only [reduceCtorEq, if_false, if_true, Nat.zero_add]
    · rw [header _ freeListValid (by simp), headerField _ freeListValid, if_pos rfl]
      have chain : Chain (fun obj => (slabInitPage slab c s).field (.link obj))
          (slab + 40 + 0 * classSize c) (objects c slab) := by
        apply Chain.of_range (f := fun k => slab + 40 + k * classSize c)
        · exact fun k below => (isObject k below).ne_zero
        · intro k below
          exact (link k (by omega)).trans (if_neg (by omega))
        · intro k isLast
          exact (link k (by omega)).trans (if_pos isLast)
        · exact positive
      rwa [Nat.zero_mul, Nat.add_zero] at chain
  · intro other unguarded
    rw [steps]
    refine Keeps.trans (headerKeeps other fun field ofSlab => unguarded field (Or.inl ofSlab)) ?_
    refine Keeps.trans (keeps other fun k below => unguarded _ (inPage k (by omega))) ?_
    exact keeps_setField table₂ (unguarded _ (inPage _ (by omega))) 0

end UniKernel.Heap
