import UniKernel.Heap.FreeRuns
import UniKernel.Heap.Represents

/-!
Owns `alloc_pages_backend` and `free_pages_backend` over memory that stands for
a layout: the search is first fit, and both loops change the table entries of
their run and nothing else.
-/

namespace UniKernel.Heap

open UniKernel.Lib

variable {r : Region} {lay : Layout} {s s' : State} {first count i type : Nat} {use : PageUse}
  {field : Field}

/-! ### The search -/

theorem type_eq_free_iff (use : PageUse) : use.type = pageTypeFree ↔ use = .free := by
  cases use <;> simp [PageUse.type]

theorem findRun_findPages (statics : Statics r s)
    (pageType : ∀ i, i < r.total → s.field (.pageType i) = (lay.use i).type) (count : Nat) :
    findRun s count s.totalPages 0 0 noIndex = lay.findPages r count := by
  have atMost := r.atMost
  have total := statics.total
  rw [findRun_eq_firstFit (by omega), total]
  apply firstFit_congr
  intro i inside
  have typeIs : s.pageType i = (lay.use i).type := pageType i inside
  rw [typeIs]
  exact type_eq_free_iff _

/-! ### The marking loops -/

/-- The fields after `count` table entries from `first` are set. -/
def tableField (first count type : Nat) (entry : Nat → Nat) (before : Field → Nat) : Field → Nat
  | .pageType i =>
      if first ≤ i ∧ i < first + count then type else before (.pageType i)
  | .pageCount i =>
      if first ≤ i ∧ i < first + count then entry i else before (.pageCount i)
  | field => before field

theorem setPage_field (table : s.pageMetadata = r.base) (inside : i < r.total) {entry : Nat}
    (typeFits : type < 256) (valid : field.Valid r) :
    (s.setPage i type entry).field field =
      if field = .pageCount i then u16 entry
      else if field = .pageType i then type else s.field field := by
  have validType : (Field.pageType i).Valid r := inside
  have validCount : (Field.pageCount i).Valid r := inside
  have steps : s.setPage i type entry =
    (s.setField (.pageType i) type).setField (.pageCount i) entry := rfl
  rw [steps, field_setField_mod (s := s.setField (.pageType i) type) table validCount valid,
    field_setField table validType valid typeFits]
  rfl

/-- One more entry behind a run of entries. -/
theorem tableField_succ {entry : Nat → Nat} {before : Field → Nat} (field : Field) :
    (if field = .pageCount (first + count) then entry (first + count)
      else if field = .pageType (first + count) then type
      else tableField first count type entry before field) =
        tableField first (count + 1) type entry before field := by
  cases field with
  | pageType i =>
      simp only [reduceCtorEq, if_false, Field.pageType.injEq, tableField]
      by_cases last : i = first + count
      · rw [if_pos last, if_pos (by omega)]
      · rw [if_neg last]
        congr 1
        exact propext ⟨fun between => by omega, fun between => by omega⟩
  | pageCount i =>
      simp only [reduceCtorEq, if_false, Field.pageCount.injEq, tableField]
      by_cases last : i = first + count
      · rw [if_pos last, if_pos (by omega), last]
      · rw [if_neg last]
        congr 1
        exact propext ⟨fun between => by omega, fun between => by omega⟩
  | _ => rfl

theorem tableField_zero {entry : Nat → Nat} {before : Field → Nat} (field : Field) :
    tableField first 0 type entry before field = before field := by
  cases field with
  | pageType i => exact if_neg (by omega)
  | pageCount i => exact if_neg (by omega)
  | _ => rfl

/-- `s'` differs from `s` in the table entries of a run, whose pages are now used
as `use` says. -/
structure TableSet (r : Region) (first count : Nat) (use : PageUse) (s s' : State) : Prop where
  statics : SameStatics s s'
  caches : s'.caches = s.caches
  field : ∀ field, field.Valid r →
    s'.field field = tableField first count use.type (fun i => use.count i) s.field field
  keeps : ∀ lay, Layout.WellFormed r lay → Keeps r lay s s'

theorem keeps_setPage (table : s.pageMetadata = r.base) (wellFormed : lay.WellFormed r)
    (inside : i < r.total) (type entry : Nat) : Keeps r lay s (s.setPage i type entry) := by
  have typeStep := keeps_setField table (unguarded_pageType wellFormed inside) type
  exact typeStep.trans (keeps_setField (s := s.setField (.pageType i) type) table
    (unguarded_pageCount wellFormed inside) entry)

theorem markRun_tableSet (table : s.pageMetadata = r.base) (bound : first + count ≤ r.total)
    (typeIs : use.type = type)
    (counts : ∀ i, first ≤ i → i < first + count → use.count i = if i = first then u16 count else 0) :
    TableSet r first count use s (markRun first count type count s) := by
  have atMost := r.atMost
  have typeFits : type < 256 := by
    rw [← typeIs]
    cases use <;> simp [PageUse.type]
  have loop : ∀ done, done ≤ count → (markRun first count type done s).caches = s.caches ∧
      (∀ field, field.Valid r → (markRun first count type done s).field field =
        tableField first done use.type (fun i => use.count i) s.field field) ∧
      ∀ lay, Layout.WellFormed r lay → Keeps r lay s (markRun first count type done s) := by
    intro done
    induction done with
    | zero => exact fun _ => ⟨rfl, fun field _ => (tableField_zero field).symm, fun _ _ => .refl s⟩
    | succ done inductionHypothesis =>
        intro le
        rcases inductionHypothesis (by omega) with ⟨caches, fields, keeps⟩
        have tableHere : (markRun first count type done s).pageMetadata = r.base :=
          (markRun_statics first count type done s).metadata.trans table
        have entry : use.count (first + done) = u16 (if done = 0 then count else 0) := by
          rw [counts _ (Nat.le_add_right _ _) (by omega)]
          by_cases isFirst : done = 0
          · rw [if_pos (by omega), if_pos isFirst]
          · rw [if_neg (by omega), if_neg isFirst]
            rfl
        refine ⟨caches, ?_, ?_⟩
        · intro field valid
          rw [markRun, setPage_field tableHere (by omega) typeFits valid, fields field valid,
            ← tableField_succ, typeIs, entry]
        · intro lay wellFormed
          exact (keeps lay wellFormed).trans
            (keeps_setPage tableHere wellFormed (by omega) _ _)
  rcases loop count (Nat.le_refl _) with ⟨caches, fields, keeps⟩
  exact ⟨markRun_statics _ _ _ _ s, caches, fields, keeps⟩

theorem clearRun_tableSet (statics : Statics r s) (bound : first + count ≤ r.total) :
    TableSet r first count .free s (clearRun first count s) := by
  have loop : ∀ done, done ≤ count → (clearRun first done s).caches = s.caches ∧
      (∀ field, field.Valid r → (clearRun first done s).field field =
        tableField first done 0 (fun _ => 0) s.field field) ∧
      ∀ lay, Layout.WellFormed r lay → Keeps r lay s (clearRun first done s) := by
    intro done
    induction done with
    | zero => exact fun _ => ⟨rfl, fun field _ => (tableField_zero field).symm, fun _ _ => .refl s⟩
    | succ done inductionHypothesis =>
        intro le
        rcases inductionHypothesis (by omega) with ⟨caches, fields, keeps⟩
        have same := clearRun_statics first done s
        have tableHere : (clearRun first done s).pageMetadata = r.base :=
          same.metadata.trans statics.table
        have inside : first + done < (clearRun first done s).totalPages := by
          rw [same.total, statics.total]
          omega
        have steps : clearRun first (done + 1) s =
            (clearRun first done s).setPage (first + done) pageTypeFree 0 := by
          rw [clearRun]
          exact if_pos inside
        rw [steps]
        refine ⟨caches, ?_, ?_⟩
        · intro field valid
          rw [setPage_field tableHere (by omega) (by decide) valid, fields field valid,
            ← tableField_succ]
          rfl
        · intro lay wellFormed
          exact (keeps lay wellFormed).trans
            (keeps_setPage tableHere wellFormed (by omega) _ _)
  rcases loop count (Nat.le_refl _) with ⟨caches, fields, keeps⟩
  exact ⟨clearRun_statics _ _ s, caches, fields, keeps⟩

/-! ### The functions -/

theorem allocPagesBackend_none (rep : Represents r lay s) (none : lay.findPages r count = none)
    (type : Nat) : allocPagesBackend count type s = (0, s) := by
  rw [allocPagesBackend, findRun_findPages rep.statics rep.pageType, none]

theorem allocPagesBackend_some (rep : Represents r lay s) (wellFormed : lay.WellFormed r)
    (found : lay.findPages r count = some first) (typeIs : use.type = type)
    (counts : ∀ i, first ≤ i → i < first + count → use.count i = if i = first then u16 count else 0) :
    (allocPagesBackend count type s).1 = r.page first ∧
      TableSet r first count use s (allocPagesBackend count type s).2 := by
  rcases Layout.findPages_spec wellFormed found with ⟨positive, above, bound, -⟩
  rw [allocPagesBackend, findRun_findPages rep.statics rep.pageType, found]
  exact ⟨pageIdxToVirt_eq rep.statics (by omega),
    markRun_tableSet rep.statics.table bound typeIs counts⟩

theorem freePagesBackend_tableSet (statics : Statics r s) (inReach : first < r.reach)
    (countIs : s.field (.pageCount first) = count) (positive : count ≠ 0)
    (bound : first + count ≤ r.total) :
    TableSet r first count .free s (freePagesBackend (r.page first) s) := by
  have idx : virtToPageIdx s (r.page first) = first := by
    rw [virtToPageIdx_eq statics, Region.index_page]
    · unfold Region.page
      omega
    · unfold Region.page
      omega
  have countHere : s.pageCount first = count := countIs
  have reachLe := r.reach_le
  unfold freePagesBackend
  simp only [idx, countHere, statics.total]
  rw [if_neg (by omega), if_neg positive]
  exact clearRun_tableSet statics bound

/-- The layout after a run of pages gets a use other than a slab's. -/
theorem Represents.tableSet (rep : Represents r lay s) (inRegion : lay.InRegion r)
    (set : TableSet r first count use s s') (notSlab : ∀ c, use ≠ .slab c) :
    Represents r (lay.setUse first count use) s' := by
  have same : ∀ field, field.Valid r → (∀ i, field ≠ .pageType i) → (∀ i, field ≠ .pageCount i) →
      s'.field field = s.field field := by
    intro field valid notType notCount
    rw [set.field field valid]
    cases field with
    | pageType i => exact absurd rfl (notType i)
    | pageCount i => exact absurd rfl (notCount i)
    | _ => rfl
  refine ⟨rep.statics.of_same set.statics, ?_, ?_, ?_, ?_, ?_⟩
  · intro c known
    rw [set.caches]
    exact rep.noFreeSlabs c known
  · intro i inside
    have valid : (Field.pageType i).Valid r := inside
    rw [set.field _ valid, Layout.setUse_use, tableField, rep.pageType i inside]
    split <;> rfl
  · intro i inside
    have valid : (Field.pageCount i).Valid r := inside
    rw [set.field _ valid, Layout.setUse_use, tableField, rep.pageCount i inside]
    split <;> rfl
  · intro i c inside isSlab
    rw [Layout.setUse_use] at isSlab
    split at isSlab
    · exact absurd isSlab (notSlab c)
    · have isPage := inRegion.isPage i c isSlab
      have known := inRegion.known i c isSlab
      apply (rep.header i c inside isSlab).congr set.statics.cachesAt
      · exact same (.cache (r.page i)) isPage (by simp) (by simp)
      · exact same (.magic (r.page i)) isPage (by simp) (by simp)
      · exact same (.inUse (r.page i)) isPage (by simp) (by simp)
      · exact same (.freeList (r.page i)) isPage (by simp) (by simp)
      · intro obj member
        have isObject := isObject_of_mem known isPage (inRegion.isObject i c isSlab obj member)
        exact same (.link obj) isObject (by simp) (by simp)
  · intro c which known
    apply (rep.lists c which known).congr
    · rw [State.head, State.head, set.caches]
    · exact fun slab member => same (.next slab) (inRegion.listed c which slab member) (by simp) (by simp)
    · exact fun slab member => same (.prev slab) (inRegion.listed c which slab member) (by simp) (by simp)

end UniKernel.Heap
