import UniKernel.Pmm.Popped
import UniKernel.Vmm.Walk

/-!
Owns the tree of page tables in memory: which frame holds which table, and that
entries above the leaves point to them. The frames are distinct and were all
popped from the frame allocator, so a write into one table is seen in no other.
Each function of `vmm.c` below `vmm_map_region` has one lemma here that says
what it does to the walk.
-/

namespace UniKernel.Vmm

open UniKernel.Lib
open UniKernel.Pmm (pageSize pmmAllocFrame Popped Drawn InPage)

variable {start : Pmm.State} {s s' : State} {table idx value frame page virt phys flags i j k t : Nat}

/-! ### Words of tables -/

/-- Two tables do not overlap. -/
theorem entryAddress_inj (frameAligned : frame % pageSize = 0) (tableAligned : table % pageSize = 0)
    (kSmall : k < 512) (idxSmall : idx < 512) (same : frame + 8 * k = table + 8 * idx) :
    frame = table ∧ k = idx := by
  simp only [pageSize] at frameAligned tableAligned
  omega

theorem entry_setEntry (frameAligned : frame % pageSize = 0) (tableAligned : table % pageSize = 0)
    (kSmall : k < 512) (idxSmall : idx < 512) :
    (s.setEntry table idx value).entry frame k =
      if frame = table ∧ k = idx then value else s.entry frame k := by
  simp only [State.setEntry, State.entry, Function.update_apply]
  by_cases same : frame = table ∧ k = idx
  · rw [if_pos same, same.1, same.2, if_pos rfl]
  · rw [if_neg same, if_neg]
    exact fun sameAddress => same
      (entryAddress_inj frameAligned tableAligned kSmall idxSmall sameAddress)

theorem entry_zeroPage (frameAligned : frame % pageSize = 0) (pageAligned : page % pageSize = 0)
    (kSmall : k < 512) :
    (s.zeroPage page).entry frame k = if frame = page then 0 else s.entry frame k := by
  simp only [pageSize] at frameAligned pageAligned
  simp only [State.zeroPage, State.entry]
  by_cases same : frame = page
  · rw [if_pos same, if_pos]
    rw [same]
    simp only [pageSize]
    omega
  · rw [if_neg same, if_neg]
    simp only [pageSize]
    omega

/-! ### `get_next_table` -/

/-- Memory outside the frames popped since `start` is as it was. -/
def KeepsMemory (start : Pmm.State) (s s' : State) : Prop :=
  ∀ addr, (∀ frame, Popped start s'.pmm frame → ¬ InPage frame addr) → s'.mem addr = s.mem addr

/-- The entry held nothing, and now points to a new table of invalid entries. -/
structure NewTable (start : Pmm.State) (s s' : State) (table idx new : Nat) : Prop where
  entry : ∀ frame k, frame % pageSize = 0 → k < 512 → s'.entry frame k =
    if frame = table ∧ k = idx then new + 3 else if frame = new then 0 else s.entry frame k
  rootTable : s'.rootTable = s.rootTable
  pops : Pmm.Pops start s.pmm s'.pmm new
  memory : ∀ addr, ¬ InPage new addr → addr ≠ table + 8 * idx → s'.mem addr = s.mem addr

theorem getNextTable_existing (pageAddress : PageAddress t) (isTable : s.entry table idx = t + 3) :
    getNextTable table idx s = (t, s) := by
  have aligned := pageAddress.aligned
  simp only [pageSize] at aligned
  unfold getNextTable
  rw [isTable, if_pos ((and_ptValid _).mpr (by omega)), and_tableMask,
    pageAddress.outputAddress_table]

theorem pageAddress_of_popped {now : Pmm.State} (consistent : Pmm.Consistent start)
    (popped : Popped start now frame) : PageAddress frame := by
  have bounds := popped.page consistent
  exact ⟨bounds.1, by omega⟩

/-- The call of `get_next_table` gets a frame if it asks for one. -/
def NextAllocates (table idx : Nat) (s : State) : Prop :=
  s.entry table idx &&& ptValid = 0 → (pmmAllocFrame s.pmm).1 ≠ 0

/-- An entry that holds nothing gets a new table. -/
theorem getNextTable_new (consistent : Pmm.Consistent start) (drawn : Drawn start s.pmm)
    (isEmpty : s.entry table idx = 0) (tableAligned : table % pageSize = 0) (idxSmall : idx < 512)
    (allocates : NextAllocates table idx s) :
    (getNextTable table idx s).1 ≠ 0 ∧
      NewTable start s (getNextTable table idx s).2 table idx (getNextTable table idx s).1 := by
  have allocated : (pmmAllocFrame s.pmm).1 ≠ 0 := allocates (by rw [isEmpty]; rfl)
  have step : getNextTable table idx s =
      if (pmmAllocFrame s.pmm).1 = 0 then (0, { s with pmm := (pmmAllocFrame s.pmm).2 })
      else ((pmmAllocFrame s.pmm).1,
        ({ s with pmm := (pmmAllocFrame s.pmm).2 }.zeroPage (pmmAllocFrame s.pmm).1).setEntry table idx
          ((pmmAllocFrame s.pmm).1 ||| ptTable ||| ptValid)) := by
    unfold getNextTable
    rw [isEmpty]
    exact if_neg (by simp)
  rw [step, if_neg allocated]
  have pops := drawn.pmmAllocFrame consistent allocated
  have pageAddress := pageAddress_of_popped consistent pops.popped
  generalize pmmAllocFrame s.pmm = outcome at pops pageAddress allocated
  rcases outcome with ⟨new, pmm⟩
  dsimp only at pops pageAddress
  refine ⟨allocated, ?_, rfl, pops, ?_⟩
  · intro frame k frameAligned kSmall
    rw [entry_setEntry frameAligned tableAligned kSmall idxSmall, pageAddress.table_eq,
      entry_zeroPage frameAligned pageAddress.aligned kSmall]
    rfl
  · intro addr outside notSlot
    have notIn : ¬ (new ≤ addr ∧ addr < new + pageSize) := outside
    simp only [State.setEntry, State.zeroPage]
    rw [Function.update_of_ne notSlot, if_neg notIn]

/-! ### The tree -/

/-- A table of the tree: the root, or the one behind an entry of level 1 or 2. -/
inductive TableId where
  | root
  | l2 (i : Nat)
  | l3 (i j : Nat)
deriving DecidableEq

/-- The tables `frames` lie in memory as a tree. Entries of level 1 point to
tables or are 0, and entries of level 2 may be blocks as well. -/
structure TablesOk (start : Pmm.State) (s : State) (frames : TableId → Option Nat) : Prop where
  drawn : Drawn start s.pmm
  root : frames .root = some s.rootTable
  popped : ∀ id frame, frames id = some frame → Popped start s.pmm frame
  distinct : ∀ id id' frame, frames id = some frame → frames id' = some frame → id = id'
  nested : ∀ i j, frames (.l2 i) = none → frames (.l3 i j) = none
  l1Table : ∀ i t, i < 512 → frames (.l2 i) = some t → s.entry s.rootTable i = t + 3
  l1Empty : ∀ i, i < 512 → frames (.l2 i) = none → s.entry s.rootTable i = 0
  l2Table : ∀ i j t t', j < 512 → frames (.l2 i) = some t → frames (.l3 i j) = some t' →
    s.entry t j = t' + 3
  l2Block : ∀ i j t, j < 512 → frames (.l2 i) = some t → frames (.l3 i j) = none →
    s.entry t j = 0 ∨ descriptorKind (s.entry t j) = 1

/-- The leaf of an address, as the tree has it. -/
def lookup (s : State) (frames : TableId → Option Nat) (virt : Nat) : Option Leaf :=
  match frames (.l2 (l1Index virt)) with
  | none => none
  | some t =>
      match frames (.l3 (l1Index virt) (l2Index virt)) with
      | some t' => walkL3 s.mem t' virt
      | none => if s.entry t (l2Index virt) = 0 then none else some ⟨21, s.entry t (l2Index virt)⟩

theorem l1Index_lt (virt : Nat) : l1Index virt < 512 := by
  rw [l1Index_eq]
  exact Nat.mod_lt _ (by decide)

theorem l2Index_lt (virt : Nat) : l2Index virt < 512 := by
  rw [l2Index_eq]
  exact Nat.mod_lt _ (by decide)

theorem l3Index_lt (virt : Nat) : l3Index virt < 512 := by
  rw [l3Index_eq]
  exact Nat.mod_lt _ (by decide)

namespace PageAddress

theorem kind_table (page : PageAddress t) : descriptorKind (t + 3) = 3 := by
  have aligned := page.aligned
  simp only [pageSize] at aligned
  unfold descriptorKind
  omega

end PageAddress

namespace TablesOk

variable {frames : TableId → Option Nat}

theorem pageAddress (ok : TablesOk start s frames) (consistent : Pmm.Consistent start)
    {id : TableId} (isTable : frames id = some t) : PageAddress t :=
  pageAddress_of_popped consistent (ok.popped id t isTable)

/-- The walk finds what the tree has. -/
theorem leaf_eq (ok : TablesOk start s frames) (consistent : Pmm.Consistent start) (virt : Nat) :
    s.leaf virt = lookup s frames virt := by
  unfold State.leaf walk lookup
  dsimp only
  have isL1 : s.mem (s.rootTable + 8 * l1Index virt) = s.entry s.rootTable (l1Index virt) := rfl
  rw [isL1]
  cases isL2 : frames (.l2 (l1Index virt)) with
  | none =>
      rw [ok.l1Empty _ (l1Index_lt virt) isL2]
      rfl
  | some t =>
      have page := ok.pageAddress consistent isL2
      rw [ok.l1Table _ t (l1Index_lt virt) isL2, if_pos page.kind_table, page.outputAddress_table]
      unfold walkL2
      dsimp only
      have isEntry : s.mem (t + 8 * l2Index virt) = s.entry t (l2Index virt) := rfl
      rw [isEntry]
      cases isL3 : frames (.l3 (l1Index virt) (l2Index virt)) with
      | some t' =>
          have page' := ok.pageAddress consistent isL3
          rw [ok.l2Table _ _ t t' (l2Index_lt virt) isL2 isL3, if_pos page'.kind_table,
            page'.outputAddress_table]
      | none =>
          rcases ok.l2Block _ _ t (l2Index_lt virt) isL2 isL3 with isEmpty | isBlock
          · rw [isEmpty]
            rfl
          · have nonzero : s.entry t (l2Index virt) ≠ 0 := by
              intro isZero
              rw [isZero] at isBlock
              cases isBlock
            rw [isBlock, if_neg nonzero]
            rfl

end TablesOk

/-- A word of a table is one of its page. -/
theorem inPage_entry (frame : Nat) {k : Nat} (small : k < 512) : InPage frame (frame + 8 * k) := by
  constructor
  · exact Nat.le_add_right _ _
  · simp only [pageSize]
    omega

/-! ### Writing entries of the tree -/

section Writes

variable {frames frames' : TableId → Option Nat} {id id' : TableId} {new : Nat}

theorem walkL3_congr (same : s'.entry table (l3Index virt) = s.entry table (l3Index virt)) :
    walkL3 s'.mem table virt = walkL3 s.mem table virt := by
  unfold walkL3
  rw [show s'.mem (table + 8 * l3Index virt) = s.mem (table + 8 * l3Index virt) from same]

/-- The tree has the same leaf when the entries on the way to it are the same. -/
theorem lookup_congr (sameL2 : frames' (.l2 (l1Index virt)) = frames (.l2 (l1Index virt)))
    (sameL3 : frames' (.l3 (l1Index virt) (l2Index virt)) =
      frames (.l3 (l1Index virt) (l2Index virt)))
    (entryL2 : ∀ t, frames (.l2 (l1Index virt)) = some t →
      s'.entry t (l2Index virt) = s.entry t (l2Index virt))
    (entryL3 : ∀ t, frames (.l3 (l1Index virt) (l2Index virt)) = some t →
      s'.entry t (l3Index virt) = s.entry t (l3Index virt)) :
    lookup s' frames' virt = lookup s frames virt := by
  unfold lookup
  rw [sameL2, sameL3]
  cases isL2 : frames (.l2 (l1Index virt)) with
  | none => rfl
  | some t =>
      cases isL3 : frames (.l3 (l1Index virt) (l2Index virt)) with
      | some t' => exact walkL3_congr (entryL3 t' isL3)
      | none =>
          dsimp only
          rw [entryL2 t isL2]

namespace TablesOk

/-- A new table goes into no frame of the tree, and only its parent changes. -/
theorem entry_new (ok : TablesOk start s frames) (consistent : Pmm.Consistent start)
    (isNew : NewTable start s s' table idx new) (isTable : frames id = some frame) (small : k < 512)
    (elsewhere : frame = table → k ≠ idx) : s'.entry frame k = s.entry frame k := by
  have notNew : frame ≠ new := by
    rintro rfl
    exact isNew.pops.fresh (ok.popped id frame isTable)
  rw [isNew.entry frame k (ok.pageAddress consistent isTable).aligned small, if_neg, if_neg notNew]
  exact fun both => elsewhere both.1 both.2

theorem popped_new (ok : TablesOk start s frames) (isNew : NewTable start s s' table idx new) :
    ∀ id' frame, Function.update frames id (some new) id' = some frame →
      Popped start s'.pmm frame := by
  intro id' frame isTable
  rw [Function.update_apply] at isTable
  split at isTable
  · rw [← Option.some.inj isTable]
    exact isNew.pops.popped
  · exact (ok.popped id' frame isTable).mono isNew.pops.after

theorem distinct_new (ok : TablesOk start s frames) (isNew : NewTable start s s' table idx new) :
    ∀ id₁ id₂ frame, Function.update frames id (some new) id₁ = some frame →
      Function.update frames id (some new) id₂ = some frame → id₁ = id₂ := by
  have notBefore : ∀ id', frames id' ≠ some new := fun id' isTable =>
    isNew.pops.fresh (ok.popped id' new isTable)
  intro id₁ id₂ frame first second
  rw [Function.update_apply] at first second
  split at first
  · next isFirst =>
      split at second
      · next isSecond => exact isFirst.trans isSecond.symm
      · rw [← first] at second
        exact absurd second (notBefore id₂)
  · split at second
    · rw [← second] at first
      exact absurd first (notBefore id₁)
    · exact ok.distinct id₁ id₂ frame first second

/-- The frames of two tables are different. -/
theorem ne_of_ne (ok : TablesOk start s frames) (isTable : frames id = some t)
    (isOther : frames id' = some frame) (apart : id ≠ id') : t ≠ frame := by
  rintro rfl
  exact apart (ok.distinct id id' t isTable isOther)

/-- The entries of the new table are empty. -/
theorem entry_new_zero (ok : TablesOk start s frames) (consistent : Pmm.Consistent start)
    {id : TableId} {parent k : Nat} (isNew : NewTable start s s' parent i new)
    (isParent : frames id = some parent) (small : k < 512) : s'.entry new k = 0 := by
  have newPage := pageAddress_of_popped consistent isNew.pops.popped
  rw [isNew.entry new k newPage.aligned small, if_neg, if_pos rfl]
  rintro ⟨same, -⟩
  exact isNew.pops.fresh (same ▸ ok.popped id parent isParent)

/-- A new table of level 2 has no leaves. -/
theorem addL2 (ok : TablesOk start s frames) (consistent : Pmm.Consistent start) (small : i < 512)
    (isEmpty : frames (.l2 i) = none) (isNew : NewTable start s s' s.rootTable i new) :
    TablesOk start s' (Function.update frames (.l2 i) (some new)) ∧
      ∀ virt, lookup s' (Function.update frames (.l2 i) (some new)) virt = lookup s frames virt := by
  have newEntry : ∀ k < 512, s'.entry new k = 0 :=
    fun k => ok.entry_new_zero consistent isNew ok.root
  have old : ∀ id, id ≠ .l2 i → Function.update frames (.l2 i) (some new) id = frames id :=
    fun id other => Function.update_of_ne other ..
  have entryL2 : ∀ i' j t, j < 512 → frames (.l2 i') = some t → s'.entry t j = s.entry t j := by
    intro i' j t jSmall isL2
    apply ok.entry_new consistent isNew isL2 jSmall
    exact fun isRoot => absurd isRoot (ok.ne_of_ne isL2 ok.root (by simp))
  have notThis : ∀ {i' t}, frames (.l2 i') = some t → i' ≠ i := by
    rintro i' t isL2 rfl
    rw [isEmpty] at isL2
    cases isL2
  constructor
  · exact {
      drawn := isNew.pops.drawn
      root := by
        rw [old .root (by simp), isNew.rootTable]
        exact ok.root
      popped := ok.popped_new isNew
      distinct := ok.distinct_new isNew
      nested := by
        intro i' j none'
        rw [old _ (by simp)]
        by_cases isThis : i' = i
        · rw [isThis]
          exact ok.nested i j isEmpty
        · rw [old _ (by simpa using isThis)] at none'
          exact ok.nested i' j none'
      l1Table := by
        intro i' t i'Small isL2
        have rootAligned := (ok.pageAddress consistent ok.root).aligned
        rw [isNew.rootTable, isNew.entry _ _ rootAligned i'Small]
        by_cases isThis : i' = i
        · rw [isThis, Function.update_self] at isL2
          rw [if_pos ⟨rfl, isThis⟩, Option.some.inj isL2]
        · rw [old _ (by simpa using isThis)] at isL2
          rw [if_neg fun both => isThis both.2, if_neg, ok.l1Table i' t i'Small isL2]
          intro isRoot
          exact isNew.pops.fresh (isRoot ▸ ok.popped .root _ ok.root)
      l1Empty := by
        intro i' i'Small none'
        by_cases isThis : i' = i
        · rw [isThis, Function.update_self] at none'
          cases none'
        · rw [old _ (by simpa using isThis)] at none'
          rw [isNew.rootTable, ok.entry_new consistent isNew ok.root i'Small fun _ => isThis]
          exact ok.l1Empty i' i'Small none'
      l2Table := by
        intro i' j t t' jSmall isL2 isL3
        rw [old _ (by simp)] at isL3
        by_cases isThis : i' = i
        · rw [isThis, ok.nested i j isEmpty] at isL3
          cases isL3
        · rw [old _ (by simpa using isThis)] at isL2
          rw [entryL2 i' j t jSmall isL2]
          exact ok.l2Table i' j t t' jSmall isL2 isL3
      l2Block := by
        intro i' j t jSmall isL2 isL3
        rw [old _ (by simp)] at isL3
        by_cases isThis : i' = i
        · rw [isThis, Function.update_self] at isL2
          rw [← Option.some.inj isL2]
          exact Or.inl (newEntry j jSmall)
        · rw [old _ (by simpa using isThis)] at isL2
          rw [entryL2 i' j t jSmall isL2]
          exact ok.l2Block i' j t jSmall isL2 isL3 }
  · intro virt
    by_cases isThis : l1Index virt = i
    · unfold lookup
      rw [isThis, isEmpty, Function.update_self, old _ (by simp), ok.nested i _ isEmpty]
      exact if_pos (newEntry _ (l2Index_lt virt))
    · apply lookup_congr
      · exact old _ (by simpa using isThis)
      · exact old _ (by simp)
      · exact fun t isL2 => entryL2 _ _ t (l2Index_lt virt) isL2
      · intro t isL3
        apply ok.entry_new consistent isNew isL3 (l3Index_lt virt)
        exact fun isRoot => absurd isRoot (ok.ne_of_ne isL3 ok.root (by simp))

/-- A new table of level 3 has no leaves. -/
theorem addL3 (ok : TablesOk start s frames) (consistent : Pmm.Consistent start) (small : j < 512)
    (isL2 : frames (.l2 i) = some t) (noTable : frames (.l3 i j) = none)
    (isEmpty : s.entry t j = 0) (isNew : NewTable start s s' t j new) :
    TablesOk start s' (Function.update frames (.l3 i j) (some new)) ∧
      ∀ virt, lookup s' (Function.update frames (.l3 i j) (some new)) virt =
        lookup s frames virt := by
  have tPage := ok.pageAddress consistent isL2
  have newEntry : ∀ k < 512, s'.entry new k = 0 :=
    fun k => ok.entry_new_zero consistent isNew isL2
  have old : ∀ id, id ≠ .l3 i j → Function.update frames (.l3 i j) (some new) id = frames id :=
    fun id other => Function.update_of_ne other ..
  have entryRoot : ∀ k < 512, s'.entry s.rootTable k = s.entry s.rootTable k := by
    intro k kSmall
    apply ok.entry_new consistent isNew ok.root kSmall
    exact fun isParent => absurd isParent (ok.ne_of_ne ok.root isL2 (by simp))
  have entryL2 : ∀ i' j' t', j' < 512 → frames (.l2 i') = some t' → (i' = i → j' ≠ j) →
      s'.entry t' j' = s.entry t' j' := by
    intro i' j' t' j'Small isL2' elsewhere
    apply ok.entry_new consistent isNew isL2' j'Small
    rintro rfl
    exact elsewhere (TableId.l2.inj (ok.distinct _ _ t' isL2' isL2))
  constructor
  · exact {
      drawn := isNew.pops.drawn
      root := by
        rw [old .root (by simp), isNew.rootTable]
        exact ok.root
      popped := ok.popped_new isNew
      distinct := ok.distinct_new isNew
      nested := by
        intro i' j' none'
        rw [old _ (by simp)] at none'
        have isThis : i' ≠ i := by
          rintro rfl
          rw [isL2] at none'
          cases none'
        rw [old _ (by simp [isThis])]
        exact ok.nested i' j' none'
      l1Table := by
        intro i' t' i'Small isL2'
        rw [old _ (by simp)] at isL2'
        rw [isNew.rootTable, entryRoot i' i'Small]
        exact ok.l1Table i' t' i'Small isL2'
      l1Empty := by
        intro i' i'Small none'
        rw [old _ (by simp)] at none'
        rw [isNew.rootTable, entryRoot i' i'Small]
        exact ok.l1Empty i' i'Small none'
      l2Table := by
        intro i' j' t' t'' j'Small isL2' isL3
        rw [old _ (by simp)] at isL2'
        by_cases isThis : i' = i ∧ j' = j
        · rcases isThis with ⟨rfl, rfl⟩
          rw [isL2] at isL2'
          rw [Function.update_self] at isL3
          rw [← Option.some.inj isL2', ← Option.some.inj isL3,
            isNew.entry t j' tPage.aligned j'Small, if_pos ⟨rfl, rfl⟩]
        · rw [old _ (by simpa using isThis)] at isL3
          rw [entryL2 i' j' t' j'Small isL2' fun same => (isThis ⟨same, ·⟩)]
          exact ok.l2Table i' j' t' t'' j'Small isL2' isL3
      l2Block := by
        intro i' j' t' j'Small isL2' isL3
        rw [old _ (by simp)] at isL2'
        by_cases isThis : i' = i ∧ j' = j
        · rw [isThis.1, isThis.2, Function.update_self] at isL3
          cases isL3
        · rw [old _ (by simpa using isThis)] at isL3
          rw [entryL2 i' j' t' j'Small isL2' fun same => (isThis ⟨same, ·⟩)]
          exact ok.l2Block i' j' t' j'Small isL2' isL3 }
  · intro virt
    by_cases isThis : l1Index virt = i ∧ l2Index virt = j
    · unfold lookup
      rw [isThis.1, isThis.2, isL2, noTable, old _ (by simp), isL2, Function.update_self]
      dsimp only
      rw [if_pos isEmpty]
      unfold walkL3
      rw [show s'.mem (new + 8 * l3Index virt) = 0 from newEntry _ (l3Index_lt virt)]
      rfl
    · apply lookup_congr
      · exact old _ (by simp)
      · exact old _ (by simpa using isThis)
      · intro t' isL2'
        exact entryL2 _ _ t' (l2Index_lt virt) isL2' fun same => (isThis ⟨same, ·⟩)
      · intro t' isL3
        apply ok.entry_new consistent isNew isL3 (l3Index_lt virt)
        exact fun isParent => absurd isParent (ok.ne_of_ne isL3 isL2 (by simp))

/-- A write into one table is seen in no other. -/
theorem entry_set (ok : TablesOk start s frames) (consistent : Pmm.Consistent start)
    (isTable : frames id = some table) (isOther : frames id' = some frame) (idxSmall : idx < 512)
    (small : k < 512) (elsewhere : id' = id → k ≠ idx) :
    (s.setEntry table idx value).entry frame k = s.entry frame k := by
  rw [entry_setEntry (ok.pageAddress consistent isOther).aligned
    (ok.pageAddress consistent isTable).aligned small idxSmall, if_neg]
  rintro ⟨rfl, same⟩
  exact elsewhere (ok.distinct id' id frame isOther isTable) same

theorem entry_set_self (ok : TablesOk start s frames) (consistent : Pmm.Consistent start)
    (isTable : frames id = some table) (idxSmall : idx < 512) :
    (s.setEntry table idx value).entry table idx = value := by
  have aligned := (ok.pageAddress consistent isTable).aligned
  rw [entry_setEntry aligned aligned idxSmall idxSmall, if_pos ⟨rfl, rfl⟩]

/-- An entry of level 3 is the leaf of its page. -/
theorem setL3 (ok : TablesOk start s frames) (consistent : Pmm.Consistent start) (small : k < 512)
    (isL3 : frames (.l3 i j) = some t) (isPage : descriptorKind value = 3) :
    TablesOk start (s.setEntry t k value) frames ∧
      ∀ virt, lookup (s.setEntry t k value) frames virt =
        if l1Index virt = i ∧ l2Index virt = j ∧ l3Index virt = k then some ⟨12, value⟩
        else lookup s frames virt := by
  have other : ∀ {id frame k'}, frames id = some frame → id ≠ .l3 i j → k' < 512 →
      (s.setEntry t k value).entry frame k' = s.entry frame k' := by
    intro id frame k' isTable apart k'Small
    exact ok.entry_set consistent isL3 isTable small k'Small fun same => absurd same apart
  constructor
  · exact {
      drawn := ok.drawn
      root := ok.root
      popped := ok.popped
      distinct := ok.distinct
      nested := ok.nested
      l1Table := by
        intro i' t' i'Small isL2
        exact (other ok.root (by simp) i'Small).trans (ok.l1Table i' t' i'Small isL2)
      l1Empty := by
        intro i' i'Small none'
        exact (other ok.root (by simp) i'Small).trans (ok.l1Empty i' i'Small none')
      l2Table := by
        intro i' j' t' t'' j'Small isL2 isL3'
        exact (other isL2 (by simp) j'Small).trans (ok.l2Table i' j' t' t'' j'Small isL2 isL3')
      l2Block := by
        intro i' j' t' j'Small isL2 none'
        rw [other isL2 (by simp) j'Small]
        exact ok.l2Block i' j' t' j'Small isL2 none' }
  · intro virt
    by_cases isThis : l1Index virt = i ∧ l2Index virt = j ∧ l3Index virt = k
    · rw [if_pos isThis]
      unfold lookup
      rw [isThis.1, isThis.2.1, isL3]
      cases isL2 : frames (.l2 i) with
      | none =>
          rw [ok.nested i j isL2] at isL3
          cases isL3
      | some t' =>
          dsimp only
          unfold walkL3
          rw [show (s.setEntry t k value).mem (t + 8 * l3Index virt) = value by
            rw [isThis.2.2]; exact ok.entry_set_self consistent isL3 small]
          exact if_pos isPage
    · rw [if_neg isThis]
      apply lookup_congr rfl rfl
      · exact fun t' isL2 => other isL2 (by simp) (l2Index_lt virt)
      · intro t' isL3'
        apply ok.entry_set consistent isL3 isL3' small (l3Index_lt virt)
        intro same sameK
        exact isThis ⟨(TableId.l3.inj same).1, (TableId.l3.inj same).2, sameK⟩

/-- A block at level 2 replaces the table that was there. -/
theorem setL2 (ok : TablesOk start s frames) (consistent : Pmm.Consistent start) (small : j < 512)
    (isL2 : frames (.l2 i) = some t) (isBlock : descriptorKind value = 1) :
    TablesOk start (s.setEntry t j value) (Function.update frames (.l3 i j) none) ∧
      ∀ virt, lookup (s.setEntry t j value) (Function.update frames (.l3 i j) none) virt =
        if l1Index virt = i ∧ l2Index virt = j then some ⟨21, value⟩
        else lookup s frames virt := by
  have old : ∀ id, id ≠ .l3 i j → Function.update frames (.l3 i j) none id = frames id :=
    fun id other => Function.update_of_ne other ..
  have before : ∀ {id frame}, Function.update frames (.l3 i j) none id = some frame →
      frames id = some frame := by
    intro id frame isTable
    rw [Function.update_apply] at isTable
    split at isTable
    · cases isTable
    · exact isTable
  have root : ∀ k < 512, (s.setEntry t j value).entry s.rootTable k = s.entry s.rootTable k := by
    intro k kSmall
    exact ok.entry_set consistent isL2 ok.root small kSmall (by simp)
  have otherL2 : ∀ i' j' t', j' < 512 → frames (.l2 i') = some t' → ¬ (i' = i ∧ j' = j) →
      (s.setEntry t j value).entry t' j' = s.entry t' j' := by
    intro i' j' t' j'Small isL2' notThis
    apply ok.entry_set consistent isL2 isL2' small j'Small
    exact fun same sameJ => notThis ⟨TableId.l2.inj same, sameJ⟩
  constructor
  · exact {
      drawn := ok.drawn
      root := (old .root (by simp)).trans ok.root
      popped := fun id frame isTable => ok.popped id frame (before isTable)
      distinct := fun id id' frame first second =>
        ok.distinct id id' frame (before first) (before second)
      nested := by
        intro i' j' none'
        rw [old _ (by simp)] at none'
        rw [Function.update_apply]
        split
        · rfl
        · exact ok.nested i' j' none'
      l1Table := by
        intro i' t' i'Small isL2'
        exact (root i' i'Small).trans (ok.l1Table i' t' i'Small (before isL2'))
      l1Empty := by
        intro i' i'Small none'
        rw [old _ (by simp)] at none'
        exact (root i' i'Small).trans (ok.l1Empty i' i'Small none')
      l2Table := by
        intro i' j' t' t'' j'Small isL2' isL3
        have notThis : ¬ (i' = i ∧ j' = j) := by
          rintro ⟨rfl, rfl⟩
          rw [Function.update_self] at isL3
          cases isL3
        rw [otherL2 i' j' t' j'Small (before isL2') notThis]
        exact ok.l2Table i' j' t' t'' j'Small (before isL2') (before isL3)
      l2Block := by
        intro i' j' t' j'Small isL2' none'
        have isL2' := before isL2'
        by_cases isThis : i' = i ∧ j' = j
        · rw [isThis.1, isL2] at isL2'
          right
          rw [← Option.some.inj isL2', isThis.2, ok.entry_set_self consistent isL2 small]
          exact isBlock
        · rw [old _ (by simpa using isThis)] at none'
          rw [otherL2 i' j' t' j'Small isL2' isThis]
          exact ok.l2Block i' j' t' j'Small isL2' none' }
  · intro virt
    by_cases isThis : l1Index virt = i ∧ l2Index virt = j
    · rw [if_pos isThis]
      unfold lookup
      rw [isThis.1, isThis.2, old _ (by simp), isL2, Function.update_self]
      dsimp only
      rw [ok.entry_set_self consistent isL2 small, if_neg]
      rintro rfl
      cases isBlock
    · rw [if_neg isThis]
      apply lookup_congr
      · exact old _ (by simp)
      · exact old _ (by simpa using isThis)
      · exact fun t' isL2' => otherL2 _ _ t' (l2Index_lt virt) isL2' isThis
      · intro t' isL3
        exact ok.entry_set consistent isL2 isL3 small (l3Index_lt virt) (by simp)

end TablesOk

end Writes

/-! ### The mappers -/

/-- The tables lie in memory as some tree. -/
def HasTables (start : Pmm.State) (s : State) : Prop := ∃ frames, TablesOk start s frames

/-- The tables are all that the walk reads. -/
theorem HasTables.leaf_congr (tables : HasTables start s) (consistent : Pmm.Consistent start)
    (root : s'.rootTable = s.rootTable)
    (words : ∀ frame addr, Popped start s.pmm frame → InPage frame addr →
      s'.mem addr = s.mem addr) (virt : Nat) : s'.leaf virt = s.leaf virt := by
  obtain ⟨frames, ok⟩ := tables
  have entry : ∀ {id t k}, k < 512 → frames id = some t → s'.entry t k = s.entry t k :=
    fun {id t k} small isTable => words t _ (ok.popped id t isTable) (inPage_entry t small)
  -- the same tree over the frames that were popped so far
  have ok' : TablesOk start { s' with pmm := s.pmm } frames := {
    drawn := ok.drawn
    root := ok.root.trans (congrArg some root.symm)
    popped := ok.popped
    distinct := ok.distinct
    nested := ok.nested
    l1Table := by
      intro i t small isTable
      have same : s'.entry s'.rootTable i = s.entry s.rootTable i := by
        rw [root]
        exact entry small ok.root
      exact same.trans (ok.l1Table i t small isTable)
    l1Empty := by
      intro i small isEmpty
      have same : s'.entry s'.rootTable i = s.entry s.rootTable i := by
        rw [root]
        exact entry small ok.root
      exact same.trans (ok.l1Empty i small isEmpty)
    l2Table := by
      intro i j t t' small isTable isNext
      exact (entry small isTable).trans (ok.l2Table i j t t' small isTable isNext)
    l2Block := by
      intro i j t small isTable isEmpty
      have same : ({ s' with pmm := s.pmm } : State).entry t j = s.entry t j := entry small isTable
      rw [same]
      exact ok.l2Block i j t small isTable isEmpty }
  have found : lookup { s' with pmm := s.pmm } frames virt = lookup s frames virt := by
    apply lookup_congr rfl rfl
    · exact fun t isTable => entry (l2Index_lt virt) isTable
    · exact fun t isTable => entry (l3Index_lt virt) isTable
  calc s'.leaf virt = ({ s' with pmm := s.pmm } : State).leaf virt := rfl
    _ = lookup { s' with pmm := s.pmm } frames virt := ok'.leaf_eq consistent virt
    _ = lookup s frames virt := found
    _ = s.leaf virt := (ok.leaf_eq consistent virt).symm

/-- The tables of `s'` go on from those of `s`, and the walk changes as `leaf` says. -/
structure Maps (start : Pmm.State) (s s' : State) (leaf : Nat → Option Leaf) : Prop where
  tables : HasTables start s'
  after : Drawn s.pmm s'.pmm
  rootTable : s'.rootTable = s.rootTable
  leaf : ∀ virt, s'.leaf virt = leaf virt
  memory : KeepsMemory start s s'

theorem KeepsMemory.trans {middle : State} (first : KeepsMemory start s middle)
    (second : KeepsMemory start middle s') (drawn : Drawn middle.pmm s'.pmm) :
    KeepsMemory start s s' := by
  intro addr outside
  rw [second addr outside]
  apply first addr
  exact fun frame popped => outside frame (popped.mono drawn)

/-- A word of a popped frame is written. -/
theorem KeepsMemory.setEntry (popped : Popped start s.pmm table) (small : idx < 512) :
    KeepsMemory start s (s.setEntry table idx value) := by
  intro addr outside
  apply Function.update_of_ne
  rintro rfl
  apply outside table popped
  constructor
  · exact Nat.le_add_right _ _
  · simp only [pageSize]
    omega

/-- A step that leaves the walk as it is. -/
theorem Maps.refl {frames : TableId → Option Nat} (ok : TablesOk start s frames) :
    Maps start s s s.leaf :=
  ⟨⟨frames, ok⟩, Drawn.refl s.pmm, rfl, fun _ => rfl, fun _ _ => rfl⟩

theorem NewTable.keepsMemory {new : Nat} (isNew : NewTable start s s' table idx new)
    (popped : Popped start s.pmm table) (small : idx < 512) : KeepsMemory start s s' := by
  intro addr outside
  apply isNew.memory addr (outside new isNew.pops.popped)
  rintro rfl
  apply outside table (popped.mono isNew.pops.after)
  constructor
  · exact Nat.le_add_right _ _
  · simp only [pageSize]
    omega

namespace TablesOk

variable {frames : TableId → Option Nat}

/-- The walk from `root_table` to a table of level 2. -/
theorem nextL2 (ok : TablesOk start s frames) (consistent : Pmm.Consistent start) (small : i < 512)
    (allocates : NextAllocates s.rootTable i s) :
    ∃ frames' t, getNextTable s.rootTable i s = (t, (getNextTable s.rootTable i s).2) ∧ t ≠ 0 ∧
      TablesOk start (getNextTable s.rootTable i s).2 frames' ∧ frames' (.l2 i) = some t ∧
      Maps start s (getNextTable s.rootTable i s).2 s.leaf := by
  cases isL2 : frames (.l2 i) with
  | some t =>
      have pageBounds := (ok.popped _ _ isL2).page consistent
      rw [getNextTable_existing (ok.pageAddress consistent isL2) (ok.l1Table i t small isL2)]
      refine ⟨frames, t, rfl, ?_, ok, isL2, Maps.refl ok⟩
      simp only [Pmm.phyRamBase] at pageBounds
      omega
  | none =>
      rcases getNextTable_new consistent ok.drawn (ok.l1Empty i small isL2)
        (ok.pageAddress consistent ok.root).aligned small allocates with ⟨nonzero, isNew⟩
      rcases ok.addL2 consistent small isL2 isNew with ⟨ok', same⟩
      refine ⟨_, _, rfl, nonzero, ok', Function.update_self .., ⟨_, ok'⟩, isNew.pops.after,
        isNew.rootTable, ?_, isNew.keepsMemory (ok.popped _ _ ok.root) small⟩
      intro virt
      rw [ok'.leaf_eq consistent, same, ok.leaf_eq consistent]

/-- The walk from a table of level 2 to one of level 3, where no block is. -/
theorem nextL3 (ok : TablesOk start s frames) (consistent : Pmm.Consistent start) (small : j < 512)
    (isL2 : frames (.l2 i) = some t) (noBlock : frames (.l3 i j) = none → s.entry t j = 0)
    (allocates : NextAllocates t j s) :
    ∃ frames' t', getNextTable t j s = (t', (getNextTable t j s).2) ∧ t' ≠ 0 ∧
      TablesOk start (getNextTable t j s).2 frames' ∧ frames' (.l3 i j) = some t' ∧
      Maps start s (getNextTable t j s).2 s.leaf := by
  cases isL3 : frames (.l3 i j) with
  | some t' =>
      have pageBounds := (ok.popped _ _ isL3).page consistent
      rw [getNextTable_existing (ok.pageAddress consistent isL3) (ok.l2Table i j t t' small isL2 isL3)]
      refine ⟨frames, t', rfl, ?_, ok, isL3, Maps.refl ok⟩
      simp only [Pmm.phyRamBase] at pageBounds
      omega
  | none =>
      rcases getNextTable_new consistent ok.drawn (noBlock isL3)
        (ok.pageAddress consistent isL2).aligned small allocates with ⟨nonzero, isNew⟩
      rcases ok.addL3 consistent small isL2 isL3 (noBlock isL3) isNew with ⟨ok', same⟩
      refine ⟨_, _, rfl, nonzero, ok', Function.update_self .., ⟨_, ok'⟩, isNew.pops.after,
        isNew.rootTable, ?_, isNew.keepsMemory (ok.popped _ _ isL2) small⟩
      intro virt
      rw [ok'.leaf_eq consistent, same, ok.leaf_eq consistent]

/-- Without a leaf for 2 MiB there, an entry of level 2 without a table is 0. -/
theorem entry_of_noBlock (ok : TablesOk start s frames) (consistent : Pmm.Consistent start)
    (isL2 : frames (.l2 (l1Index virt)) = some t)
    (noTable : frames (.l3 (l1Index virt) (l2Index virt)) = none) (noBlock : ¬ s.HoldsBlock virt) :
    s.entry t (l2Index virt) = 0 := by
  by_contra nonzero
  apply noBlock
  unfold State.HoldsBlock
  rw [ok.leaf_eq consistent, lookup, isL2, noTable]
  dsimp only
  rw [if_neg nonzero]
  rfl

end TablesOk

/-- The calls of `pmm_alloc_frame` in `vmm_map_page` do not fail. -/
def PageAllocates (virt : Nat) (s : State) : Prop :=
  NextAllocates s.rootTable (l1Index virt) s ∧
    NextAllocates (getNextTable s.rootTable (l1Index virt) s).1 (l2Index virt)
      (getNextTable s.rootTable (l1Index virt) s).2

/-- The call of `pmm_alloc_frame` in `vmm_map_block` does not fail. -/
def BlockAllocates (virt : Nat) (s : State) : Prop :=
  NextAllocates s.rootTable (l1Index virt) s

theorem Maps.trans {middle : State} {leaf : Nat → Option Leaf}
    (first : Maps start s middle s.leaf) (second : Maps start middle s' leaf) :
    Maps start s s' leaf where
  tables := second.tables
  after := first.after.trans second.after
  rootTable := second.rootTable.trans first.rootTable
  leaf := second.leaf
  memory := first.memory.trans second.memory second.after

/-- `vmm_map_page` maps the one page, if its slot holds no block. -/
theorem vmmMapPage_maps (consistent : Pmm.Consistent start)
    (tables : HasTables start s) (page : PageAddress phys)
    (noBlock : ¬ s.HoldsBlock virt) (allocates : PageAllocates virt s) :
    Maps start s (vmmMapPage virt phys flags s) fun address =>
      if l1Index address = l1Index virt ∧ l2Index address = l2Index virt ∧
          l3Index address = l3Index virt then
        some ⟨12, leafEntry ptPage phys flags⟩
      else s.leaf address := by
  rcases tables with ⟨frames, ok⟩
  rcases allocates with ⟨allocatesL2, allocatesL3⟩
  rcases ok.nextL2 consistent (l1Index_lt virt) allocatesL2 with
    ⟨frames₁, t, isNext, nonzero, ok₁, isL2, maps₁⟩
  unfold vmmMapPage
  rw [isNext] at allocatesL3 ⊢
  generalize (getNextTable s.rootTable (l1Index virt) s).2 = s₁ at *
  dsimp only at allocatesL3 ⊢
  rw [if_neg nonzero]
  have noBlock₁ : ¬ s₁.HoldsBlock virt := by
    unfold State.HoldsBlock
    rw [maps₁.leaf]
    exact noBlock
  rcases ok₁.nextL3 consistent (l2Index_lt virt) isL2
    (fun noTable => ok₁.entry_of_noBlock consistent isL2 noTable noBlock₁) allocatesL3 with
    ⟨frames₂, t', isNext', nonzero', ok₂, isL3, maps₂⟩
  rw [isNext']
  generalize (getNextTable t (l2Index virt) s₁).2 = s₂ at *
  dsimp only
  rw [if_neg nonzero']
  have isPage : descriptorKind (leafEntry ptPage phys flags) = 3 :=
    descriptorKind_leafEntry flags page (Or.inl rfl)
  rcases ok₂.setL3 consistent (l3Index_lt virt) isL3 isPage with ⟨ok₃, leaf⟩
  refine maps₁.trans (maps₂.trans ⟨⟨_, ok₃⟩, Drawn.refl _, rfl, ?_,
    KeepsMemory.setEntry (ok₂.popped _ _ isL3) (l3Index_lt virt)⟩)
  intro address
  rw [ok₃.leaf_eq consistent, leaf, ← ok₂.leaf_eq consistent, maps₂.leaf, maps₁.leaf]

/-- `vmm_map_block` maps the one block. -/
theorem vmmMapBlock_maps (consistent : Pmm.Consistent start)
    (tables : HasTables start s) (page : PageAddress phys)
    (allocates : BlockAllocates virt s) :
    Maps start s (vmmMapBlock virt phys flags s) fun address =>
      if l1Index address = l1Index virt ∧ l2Index address = l2Index virt then
        some ⟨21, leafEntry ptBlock phys flags⟩
      else s.leaf address := by
  rcases tables with ⟨frames, ok⟩
  rcases ok.nextL2 consistent (l1Index_lt virt) allocates with
    ⟨frames₁, t, isNext, nonzero, ok₁, isL2, maps₁⟩
  unfold vmmMapBlock
  rw [isNext]
  generalize (getNextTable s.rootTable (l1Index virt) s).2 = s₁ at *
  dsimp only
  rw [if_neg nonzero]
  have isBlock : descriptorKind (leafEntry ptBlock phys flags) = 1 :=
    descriptorKind_leafEntry flags page (Or.inr rfl)
  rcases ok₁.setL2 consistent (l2Index_lt virt) isL2 isBlock with ⟨ok₂, leaf⟩
  refine maps₁.trans ⟨⟨_, ok₂⟩, Drawn.refl _, rfl, ?_,
    KeepsMemory.setEntry (ok₁.popped _ _ isL2) (l2Index_lt virt)⟩
  intro address
  rw [ok₂.leaf_eq consistent, leaf, ← ok₁.leaf_eq consistent, maps₁.leaf]

end UniKernel.Vmm
