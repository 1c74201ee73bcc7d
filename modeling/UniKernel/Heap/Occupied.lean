import UniKernel.Heap.Layout

/-!
Owns the geometry of allocated blocks: in a well-formed layout they lie behind
the page table, are aligned and disjoint from each other, from the headers of
slabs, from free objects and from free pages.
-/

namespace UniKernel.Heap.Layout

open UniKernel.Lib

variable {r : Region} {lay : Layout} {i c addr size start other otherSize obj : Nat}

/-- The page of a byte of an allocated block, and the block it belongs to. -/
inductive OwnedByte (r : Region) (lay : Layout) (addr start size : Nat) : Prop where
  | object {c : Nat} (use : lay.use (r.index addr) = .slab c)
      (member : start ∈ objects c (r.page (r.index addr)))
      (taken : start ∉ lay.freeObjects (r.page (r.index addr))) (sizeEq : size = classSize c)
  | pages {first count : Nat} (use : lay.use (r.index addr) = .large first count)
      (startEq : start = r.page first) (sizeEq : size = count * 4096)

theorem Occupied.owned (wellFormed : WellFormed r lay) (occupied : Occupied r lay start size)
    (above : start ≤ addr) (below : addr < start + size) : OwnedByte r lay addr start size := by
  cases occupied with
  | @object i c _ use member taken =>
      have bounds := object_bounds (wellFormed.known i c use) member
      have samePage : r.index addr = i := by
        unfold Region.index
        unfold Region.page at bounds
        omega
      exact .object (by rw [samePage]; exact use) (by rw [samePage]; exact member)
        (by rw [samePage]; exact taken) rfl
  | @pages i count use =>
      have inRun : lay.use (r.index addr) = .large i count := by
        unfold Region.page at above below
        apply (wellFormed.large i i count use).2.2
        · unfold Region.index
          omega
        · unfold Region.index
          omega
      exact .pages inRun rfl rfl

theorem Occupied.positive (wellFormed : WellFormed r lay) (occupied : Occupied r lay start size) :
    8 ≤ size := by
  cases occupied with
  | @object i c _ use member taken =>
      have facts := class_facts c (wellFormed.known i c use)
      omega
  | @pages i count use =>
      have run := wellFormed.large i i count use
      omega

theorem Occupied.inside (wellFormed : WellFormed r lay) (occupied : Occupied r lay start size) :
    r.page r.metaPages ≤ start ∧ start + size ≤ r.page r.total := by
  cases occupied with
  | @object i c _ use member taken =>
      have known := wellFormed.known i c use
      have bounds := object_bounds known member
      have page := Region.isPage_page_iff.mp (wellFormed.isPage use)
      unfold Region.page at bounds ⊢
      omega
  | @pages i count use =>
      have bounds := wellFormed.large_bounds use
      unfold Region.page
      omega

theorem Occupied.aligned (wellFormed : WellFormed r lay) (occupied : Occupied r lay start size) :
    start % 8 = 0 := by
  have baseAligned := r.aligned
  cases occupied with
  | @object i c _ use member taken =>
      have bounds := object_bounds (wellFormed.known i c use) member
      unfold Region.page at bounds
      omega
  | @pages i count use =>
      unfold Region.page
      omega

/-- Blocks with a common byte are the same block. -/
theorem Occupied.eq_of_common (wellFormed : WellFormed r lay) (occupied : Occupied r lay start size)
    (otherOccupied : Occupied r lay other otherSize) (above : start ≤ addr)
    (below : addr < start + size) (otherAbove : other ≤ addr) (otherBelow : addr < other + otherSize) :
    start = other ∧ size = otherSize := by
  cases occupied.owned wellFormed above below with
  | @object c use member taken sizeEq =>
      cases otherOccupied.owned wellFormed otherAbove otherBelow with
      | @object c' use' member' taken' sizeEq' =>
          rw [use] at use'
          cases use'
          refine ⟨?_, by rw [sizeEq, sizeEq']⟩
          by_contra different
          have apart := objects_apart member member' different
          omega
      | pages use' => rw [use] at use'; cases use'
  | @pages first count use startEq sizeEq =>
      cases otherOccupied.owned wellFormed otherAbove otherBelow with
      | object use' => rw [use] at use'; cases use'
      | pages use' startEq' sizeEq' =>
          rw [use] at use'
          cases use'
          exact ⟨by rw [startEq, startEq'], by rw [sizeEq, sizeEq']⟩

/-- Two blocks do not overlap. -/
theorem Occupied.apart (wellFormed : WellFormed r lay) (occupied : Occupied r lay start size)
    (otherOccupied : Occupied r lay other otherSize) (different : start ≠ other) :
    start + size ≤ other ∨ other + otherSize ≤ start := by
  have positive := occupied.positive wellFormed
  have otherPositive := otherOccupied.positive wellFormed
  by_contra overlap
  apply different
  rcases Nat.le_total start other with below | above
  · exact (occupied.eq_of_common wellFormed otherOccupied below (by omega) (Nat.le_refl _) (by omega)).1
  · exact (occupied.eq_of_common wellFormed otherOccupied (Nat.le_refl _) (by omega) above (by omega)).1

theorem Occupied.size_unique (wellFormed : WellFormed r lay) (occupied : Occupied r lay start size)
    (again : Occupied r lay start otherSize) : size = otherSize := by
  have positive := occupied.positive wellFormed
  have otherPositive := again.positive wellFormed
  exact (occupied.eq_of_common wellFormed again (Nat.le_refl _) (by omega) (Nat.le_refl _) (by omega)).2

/-! ### Bytes outside every block -/

/-- A byte of the page table. -/
theorem not_guarded_table (wellFormed : WellFormed r lay) (inTable : addr < r.page r.metaPages) :
    ¬ Guarded r lay addr := by
  rintro ⟨start, size, occupied, above, -⟩
  have inside := occupied.inside wellFormed
  omega

/-- A byte of a free page. -/
theorem not_guarded_free (wellFormed : WellFormed r lay) (isFree : lay.use i = .free)
    (above : r.page i ≤ addr) (below : addr < r.page i + 4096) : ¬ Guarded r lay addr := by
  have samePage : r.index addr = i := by
    unfold Region.index
    unfold Region.page at above below
    omega
  rintro ⟨start, size, occupied, fromStart, toEnd⟩
  cases occupied.owned wellFormed fromStart toEnd with
  | object use => rw [samePage, isFree] at use; cases use
  | pages use => rw [samePage, isFree] at use; cases use

/-- A byte of a slab that is in no object in use. -/
theorem not_guarded_slab (wellFormed : WellFormed r lay) (isSlab : lay.use i = .slab c)
    (above : r.page i ≤ addr) (below : addr < r.page i + 4096)
    (notTaken : ∀ obj ∈ objects c (r.page i), obj ∉ lay.freeObjects (r.page i) →
      addr < obj ∨ obj + classSize c ≤ addr) : ¬ Guarded r lay addr := by
  have samePage : r.index addr = i := by
    unfold Region.index
    unfold Region.page at above below
    omega
  rintro ⟨start, size, occupied, fromStart, toEnd⟩
  cases occupied.owned wellFormed fromStart toEnd with
  | @object c' use member taken sizeEq =>
      rw [samePage] at use member taken
      rw [isSlab] at use
      cases use
      have missed := notTaken start member taken
      omega
  | pages use => rw [samePage, isSlab] at use; cases use

/-- A byte of a slab header. -/
theorem not_guarded_header (wellFormed : WellFormed r lay) (isSlab : lay.use i = .slab c)
    (above : r.page i ≤ addr) (below : addr < r.page i + 40) : ¬ Guarded r lay addr := by
  apply not_guarded_slab wellFormed isSlab above (by omega)
  intro obj member _
  have bounds := object_bounds (wellFormed.known i c isSlab) member
  omega

/-- A byte of a free object. -/
theorem not_guarded_freeObject (wellFormed : WellFormed r lay) (isSlab : lay.use i = .slab c)
    (isFree : obj ∈ lay.freeObjects (r.page i)) (above : obj ≤ addr)
    (below : addr < obj + classSize c) : ¬ Guarded r lay addr := by
  have member := wellFormed.isObject i c isSlab obj isFree
  have bounds := object_bounds (wellFormed.known i c isSlab) member
  apply not_guarded_slab wellFormed isSlab (by omega) (by omega)
  intro taken takenMember notFree
  have apart := objects_apart takenMember member (fun same => notFree (same ▸ isFree))
  omega

end UniKernel.Heap.Layout
