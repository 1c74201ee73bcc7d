import UniKernel.Heap.EntryPoints

/-!
Owns `heap_init`: for a region that it accepts the memory it leaves stands for
the layout in which every page behind the page table is free.
-/

namespace UniKernel.Heap

open UniKernel.Lib

variable {r : Region} {s : State} {start size i : Nat} {field : Field}

/-! ### The region -/

/-- The whole pages in `[start, start + size)`. -/
def wholePages (start size : Nat) : Nat := (start + size) / 4096 - (start + 4095) / 4096

/-- `[start, start + size)` is memory with 2 to 65535 whole pages in it. -/
structure GivenRegion (start size : Nat) : Prop where
  inMemory : start + size < 2 ^ 64
  atLeast : 2 ≤ wholePages start size
  atMost : wholePages start size ≤ 65535

/-- What `heap_init` does not turn away: `total_pages` leaves a page behind the page table. -/
structure AcceptedRegion (start size : Nat) : Prop where
  inMemory : start + size ≤ 2 ^ 64
  atLeast : 2 ≤ u32 (wholePages start size)

namespace AcceptedRegion

theorem end_le (accepted : AcceptedRegion start size) :
    (start + 4095) / 4096 * 4096 + u32 (wholePages start size) * 4096 ≤ start + size := by
  have atLeast := accepted.atLeast
  have atMost : u32 (wholePages start size) ≤ wholePages start size := Nat.mod_le _ _
  generalize u32 (wholePages start size) = total at *
  unfold wholePages at atMost
  omega

/-- The pages `heap_init` keeps of what it is given. -/
def region (accepted : AcceptedRegion start size) : Region where
  base := (start + 4095) / 4096 * 4096
  total := u32 (wholePages start size)
  aligned := Nat.mul_mod_left _ _
  fits := Nat.le_trans accepted.end_le accepted.inMemory
  atLeast := accepted.atLeast
  atMost := Nat.mod_lt _ (by decide)

theorem start_le (accepted : AcceptedRegion start size) : start ≤ accepted.region.base := by
  unfold region
  dsimp only
  omega

end AcceptedRegion

theorem GivenRegion.accepted (given : GivenRegion start size) : AcceptedRegion start size where
  inMemory := Nat.le_of_lt given.inMemory
  atLeast := by
    have atLeast := given.atLeast
    have atMost := given.atMost
    rwa [u32_of_lt (by omega)]

theorem GivenRegion.small (given : GivenRegion start size) : given.accepted.region.Small := by
  have atMost := given.atMost
  have total : given.accepted.region.total = wholePages start size := u32_of_lt (by omega)
  constructor
  · rw [total]
    exact atMost
  · exact Nat.lt_of_le_of_lt given.accepted.end_le given.inMemory

/-- A difference of addresses, computed in 64 bits. -/
theorem u64_sub {high low : Nat} (le : low ≤ high) (small : high < 2 ^ 64) :
    u64 (high + (2 ^ 64 - low)) = high - low := by
  have shifted : high + (2 ^ 64 - low) = high - low + 2 ^ 64 := by
    have lowLe : low ≤ 2 ^ 64 := Nat.le_of_lt (Nat.lt_of_le_of_lt le small)
    generalize 2 ^ 64 = top at *
    omega
  rw [shifted, u64, Nat.add_mod_right]
  exact Nat.mod_eq_of_lt (Nat.lt_of_le_of_lt (Nat.sub_le _ _) small)

/-- The values `heap_init` computes. -/
theorem AcceptedRegion.values (accepted : AcceptedRegion start size) :
    alignDown (u64 (start + pageSize - 1)) pageSize = accepted.region.base ∧
      u64 (accepted.region.base + (2 ^ 64 - start)) = accepted.region.base - start ∧
      accepted.region.base - start ≤ size ∧
      u32 ((size - (accepted.region.base - start)) / pageSize) = accepted.region.total := by
  have startLe := accepted.start_le
  have atLeast := accepted.region.atLeast
  have endLe : accepted.region.base + accepted.region.total * 4096 ≤ start + size := accepted.end_le
  have inMemory := accepted.inMemory
  have pages : (size - (accepted.region.base - start)) / pageSize = wholePages start size := by
    have baseIs : accepted.region.base = (start + 4095) / 4096 * 4096 := rfl
    unfold wholePages pageSize
    omega
  refine ⟨?_, ?_, ?_, ?_⟩
  · have small : start + pageSize - 1 < 2 ^ 64 := by
      refine Nat.lt_of_lt_of_le ?_ inMemory
      simp only [pageSize]
      omega
    rw [u64_of_lt small]
    rfl
  · exact u64_sub startLe (Nat.lt_of_lt_of_le (by omega) inMemory)
  · omega
  · rw [pages]
    rfl

/-! ### The page table -/

/-- The table after `memset`. -/
theorem field_memset (inside : i < r.total)
    (isEntry : field = .pageType i ∨ field = .pageCount i) :
    { s with mem := CString.memset s.pageMetadata 0 (r.total * pageInfoSize) s.mem }.field field = 0 := by
  apply Memory.load_eq_zero
  intro offset below
  dsimp only
  rw [CString.memset_apply, if_pos]
  · rfl
  · rcases isEntry with rfl | rfl
    · simp only [Field.addr, Field.width, pageInfoSize] at below ⊢
      omega
    · simp only [Field.addr, Field.width, pageInfoSize] at below ⊢
      omega

theorem reserveMetadata_field (table : s.pageMetadata = r.base) {count : Nat}
    (bound : count ≤ r.total) : (reserveMetadata count s).caches = s.caches ∧
      ∀ field, field.Valid r → (reserveMetadata count s).field field =
        tableField 0 count pageTypeLarge (fun _ => 1) s.field field := by
  induction count with
  | zero => exact ⟨rfl, fun field _ => (tableField_zero field).symm⟩
  | succ count inductionHypothesis =>
      rcases inductionHypothesis (by omega) with ⟨caches, fields⟩
      have tableHere : (reserveMetadata count s).pageMetadata = r.base :=
        (reserveMetadata_statics count s).metadata.trans table
      refine ⟨caches, ?_⟩
      intro field valid
      have entry : (if field = .pageCount (0 + count) then 1
          else if field = .pageType (0 + count) then pageTypeLarge
          else tableField 0 count pageTypeLarge (fun _ => 1) s.field field) =
            tableField 0 (count + 1) pageTypeLarge (fun _ => 1) s.field field := tableField_succ field
      rw [Nat.zero_add] at entry
      rw [reserveMetadata, setPage_field tableHere (by omega) (by decide) valid,
        fields field valid, ← entry]
      rfl

theorem heapInit_represents (accepted : AcceptedRegion start size) (s : State)
    (cachesNonzero : 0 < s.cachesAddr)
    (cachesFit : s.cachesAddr + numCacheSizes * cacheStructSize ≤ 2 ^ 64) :
    Represents accepted.region (Layout.initial accepted.region) (heapInit start size s) := by
  rcases accepted.values with ⟨alignedStart, lost, enough, whole⟩
  have metaLt := accepted.region.metaPages_lt
  have atLeast := accepted.region.atLeast
  generalize accepted.region = r at *
  have metaPages : (r.total * pageInfoSize + pageSize - 1) / pageSize = r.metaPages := rfl
  let s₁ : State :=
    { s with
      totalPages := r.total
      heapStartAddr := r.base
      heapEndAddr := r.endAddr
      pageMetadata := r.base }
  let s₂ : State := { s₁ with mem := CString.memset s₁.pageMetadata 0 (r.total * pageInfoSize) s₁.mem }
  have steps : heapInit start size s =
      { reserveMetadata r.metaPages s₂ with caches := initCaches (reserveMetadata r.metaPages s₂).caches } := by
    unfold heapInit
    simp only [alignedStart, lost, whole, metaPages]
    rw [if_neg (Nat.not_lt.mpr enough), if_neg (by omega), if_neg (by omega)]
    rfl
  have table₂ : s₂.pageMetadata = r.base := rfl
  rcases reserveMetadata_field table₂ (Nat.le_of_lt metaLt) with ⟨caches, fields⟩
  have statics := reserveMetadata_statics r.metaPages s₂
  rw [steps]
  generalize reserveMetadata r.metaPages s₂ = s₃ at *
  have known : ∀ c, c < numCacheSizes →
      ({ s₃ with caches := initCaches s₃.caches }.caches c) = ⟨0, 0, 0, classSize c⟩ :=
    fun c known => if_pos known
  refine ⟨⟨statics.heapStart, statics.heapEnd, statics.metadata, statics.total, ?_, ?_, ?_⟩,
    ?_, ?_, ?_, ?_, ?_⟩
  · intro c isKnown
    rw [known c isKnown]
  · exact statics.cachesAt ▸ cachesNonzero
  · exact statics.cachesAt ▸ cachesFit
  · intro c isKnown
    rw [known c isKnown]
  · intro i inside
    have valid : (Field.pageType i).Valid r := inside
    have zero : s₂.field (.pageType i) = 0 := field_memset (s := s₁) inside (Or.inl rfl)
    refine (fields _ valid).trans ?_
    rw [tableField, zero]
    simp only [Layout.initial, Nat.zero_le, true_and, Nat.zero_add]
    split <;> rfl
  · intro i inside
    have valid : (Field.pageCount i).Valid r := inside
    have zero : s₂.field (.pageCount i) = 0 := field_memset (s := s₁) inside (Or.inr rfl)
    refine (fields _ valid).trans ?_
    rw [tableField, zero]
    simp only [Layout.initial, Nat.zero_le, true_and, Nat.zero_add]
    split <;> rfl
  · intro i c _ isSlab
    simp only [Layout.initial] at isSlab
    split at isSlab <;> cases isSlab
  · intro c which isKnown
    have head : { s₃ with caches := initCaches s₃.caches }.head c which = 0 := by
      rw [State.head, known c isKnown]
      cases which <;> rfl
    unfold ListIs
    rw [head]
    exact Linked.empty _ _

end UniKernel.Heap
