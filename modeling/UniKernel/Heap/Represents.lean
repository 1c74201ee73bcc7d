import UniKernel.Heap.Operations
import UniKernel.Heap.Statics
import UniKernel.Lib.LinkedList

/-!
Owns the relation between memory and layouts: when the page table, the slab
headers, the slab lists and the free lists stand for a layout, what a store to
one field does to it, and which stores miss every allocated block.
-/

namespace UniKernel.Heap

open UniKernel.Lib

/-! ### Fields of a state -/

def State.field (s : State) (field : Field) : Nat :=
  s.mem.load (field.addr s.pageMetadata) field.width

def State.setField (s : State) (field : Field) (value : Nat) : State :=
  { s with mem := s.mem.store (field.addr s.pageMetadata) field.width value }

section Fields

variable {r : Region} {s : State} {field other : Field} {value : Nat}

theorem field_setField_mod (table : s.pageMetadata = r.base) (valid : field.Valid r)
    (otherValid : other.Valid r) (value : Nat) :
    (s.setField field value).field other =
      if other = field then value % 256 ^ field.width else s.field other := by
  have put : r.fields.get (r.fields.put s.mem field value) other =
      if other = field then value % 256 ^ field.width else r.fields.get s.mem other :=
    Fields.get_put valid otherValid value
  simp only [State.field, State.setField, table]
  exact put

theorem field_setField (table : s.pageMetadata = r.base) (valid : field.Valid r)
    (otherValid : other.Valid r) (fits : value < 256 ^ field.width) :
    (s.setField field value).field other = if other = field then value else s.field other := by
  rw [field_setField_mod table valid otherValid, Nat.mod_eq_of_lt fits]

theorem field_setField_other (table : s.pageMetadata = r.base) (valid : field.Valid r)
    (otherValid : other.Valid r) (different : other ≠ field) (value : Nat) :
    (s.setField field value).field other = s.field other := by
  have put : r.fields.get (r.fields.put s.mem field value) other = r.fields.get s.mem other :=
    Fields.get_put_other valid otherValid different value
  simp only [State.field, State.setField, table]
  exact put

@[simp] theorem setField_pageMetadata : (s.setField field value).pageMetadata = s.pageMetadata := rfl

@[simp] theorem setField_caches : (s.setField field value).caches = s.caches := rfl

@[simp] theorem setField_cachesAddr : (s.setField field value).cachesAddr = s.cachesAddr := rfl

@[simp] theorem setField_head (c : Nat) (which : SlabList) :
    (s.setField field value).head c which = s.head c which := rfl

@[simp] theorem setHead_field (c : Nat) (which : SlabList) (slab : Nat) :
    (s.setHead c which slab).field field = s.field field := rfl

@[simp] theorem setHead_pageMetadata (c : Nat) (which : SlabList) (slab : Nat) :
    (s.setHead c which slab).pageMetadata = s.pageMetadata := rfl

theorem setHead_head (c : Nat) (which : SlabList) (slab other : Nat) (list : SlabList) :
    (s.setHead c which slab).head other list =
      if other = c ∧ list = which then slab else s.head other list := by
  unfold State.setHead State.head
  dsimp only
  by_cases same : other = c
  · subst same
    rw [Function.update_self]
    cases which <;> cases list <;> simp [KmemCache.setHead, KmemCache.head]
  · rw [Function.update_of_ne same, if_neg (fun both => same both.1)]

theorem field_lt (s : State) (field : Field) : s.field field < 256 ^ field.width :=
  Memory.load_lt _ _ _

end Fields

/-! ### Representation -/

/-- `page_info_t.type` of a page. -/
def PageUse.type : PageUse → Nat
  | .free => pageTypeFree
  | .slab _ => pageTypeSlab
  | .metadata => pageTypeLarge
  | .large _ _ => pageTypeLarge

/-- `page_info_t.count` of page `i`. -/
def PageUse.count (i : Nat) : PageUse → Nat
  | .free => 0
  | .slab _ => 1
  | .metadata => 1
  | .large first count => if i = first then u16 count else 0

/-- What `heap_init` sets once and for all. -/
structure Statics (r : Region) (s : State) : Prop where
  heapStart : s.heapStartAddr = r.base
  heapEnd : s.heapEndAddr = r.endAddr
  table : s.pageMetadata = r.base
  total : s.totalPages = r.total
  objSize : ∀ c, c < numCacheSizes → (s.caches c).objSize = classSize c
  cachesNonzero : 0 < s.cachesAddr
  cachesFit : s.cachesAddr + numCacheSizes * cacheStructSize ≤ 2 ^ 64

/-- The header and the free list of a slab of cache `c`. -/
structure Header (s : State) (c slab : Nat) (nodes : List Nat) : Prop where
  cache : s.field (.cache slab) = s.cachePtr c
  magic : s.field (.magic slab) = slabMagic
  inUse : s.field (.inUse slab) + nodes.length = capacity c
  chain : Chain (fun obj => s.field (.link obj)) (s.field (.freeList slab)) nodes

/-- The slab list `which` of cache `c` holds `nodes`. -/
def ListIs (s : State) (c : Nat) (which : SlabList) (nodes : List Nat) : Prop :=
  Linked (fun slab => s.field (.next slab)) (fun slab => s.field (.prev slab)) (s.head c which)
    (nodes.getLastD 0) nodes

/-- The memory stands for the layout. -/
structure Represents (r : Region) (lay : Layout) (s : State) : Prop where
  statics : Statics r s
  noFreeSlabs : ∀ c, c < numCacheSizes → (s.caches c).slabsFree = 0
  pageType : ∀ i, i < r.total → s.field (.pageType i) = (lay.use i).type
  pageCount : ∀ i, i < r.total → s.field (.pageCount i) = (lay.use i).count i
  header : ∀ i c, i < r.total → lay.use i = .slab c →
    Header s c (r.page i) (lay.freeObjects (r.page i))
  lists : ∀ c which, c < numCacheSizes → ListIs s c which (lay.slabs c which)

/-- Everything a layout names lies in the region. -/
structure Layout.InRegion (r : Region) (lay : Layout) : Prop where
  isPage : ∀ i c, lay.use i = .slab c → r.IsPage (r.page i)
  known : ∀ i c, lay.use i = .slab c → c < numCacheSizes
  isObject : ∀ i c, lay.use i = .slab c → ∀ obj ∈ lay.freeObjects (r.page i),
    obj ∈ objects c (r.page i)
  listed : ∀ c which, ∀ slab ∈ lay.slabs c which, r.IsPage slab

theorem Layout.WellFormed.inRegion {r : Region} {lay : Layout} (wellFormed : lay.WellFormed r) :
    lay.InRegion r where
  isPage _ _ := wellFormed.isPage
  known := wellFormed.known
  isObject := wellFormed.isObject
  listed c which slab member := by
    rcases (wellFormed.listed c which slab).mp member with ⟨i, rfl, isSlab, -⟩
    exact wellFormed.isPage isSlab

theorem Statics.of_same {r : Region} {s s' : State} (statics : Statics r s)
    (same : SameStatics s s') : Statics r s' where
  heapStart := same.heapStart.trans statics.heapStart
  heapEnd := same.heapEnd.trans statics.heapEnd
  table := same.metadata.trans statics.table
  total := same.total.trans statics.total
  objSize c known := (same.objSizes c).trans (statics.objSize c known)
  cachesNonzero := by
    rw [same.cachesAt]
    exact statics.cachesNonzero
  cachesFit := by
    rw [same.cachesAt]
    exact statics.cachesFit

theorem Header.congr {s s' : State} {c slab : Nat} {nodes : List Nat} (header : Header s c slab nodes)
    (cachesAddr : s'.cachesAddr = s.cachesAddr)
    (cache : s'.field (.cache slab) = s.field (.cache slab))
    (magic : s'.field (.magic slab) = s.field (.magic slab))
    (inUse : s'.field (.inUse slab) = s.field (.inUse slab))
    (freeList : s'.field (.freeList slab) = s.field (.freeList slab))
    (links : ∀ obj ∈ nodes, s'.field (.link obj) = s.field (.link obj)) : Header s' c slab nodes where
  cache := by
    rw [cache, header.cache, State.cachePtr, State.cachePtr, cachesAddr]
  magic := magic.trans header.magic
  inUse := by
    rw [inUse]
    exact header.inUse
  chain := by
    rw [freeList]
    exact header.chain.congr links

theorem ListIs.congr {s s' : State} {c : Nat} {which : SlabList} {nodes : List Nat}
    (list : ListIs s c which nodes) (head : s'.head c which = s.head c which)
    (next : ∀ slab ∈ nodes, s'.field (.next slab) = s.field (.next slab))
    (prev : ∀ slab ∈ nodes, s'.field (.prev slab) = s.field (.prev slab)) :
    ListIs s' c which nodes := by
  unfold ListIs
  rw [head]
  exact Linked.congr list next prev

/-! ### Stores that miss the blocks -/

/-- Every byte of an allocated block keeps its value. -/
def Keeps (r : Region) (lay : Layout) (s s' : State) : Prop :=
  ∀ addr, lay.Guarded r addr → s'.mem addr = s.mem addr

/-- No byte of the field is in an allocated block. -/
def Unguarded (r : Region) (lay : Layout) (field : Field) : Prop :=
  ∀ addr, r.fields.Covers field addr → ¬ lay.Guarded r addr

/-- The slab whose header the field belongs to. -/
def Field.headerOf : Field → Option Nat
  | .next slab => some slab
  | .prev slab => some slab
  | .cache slab => some slab
  | .freeList slab => some slab
  | .inUse slab => some slab
  | .magic slab => some slab
  | _ => none

section Keeps

variable {r : Region} {lay : Layout} {s s' s'' : State} {field : Field} {i c slab obj : Nat}

theorem Keeps.refl (s : State) : Keeps r lay s s := fun _ _ => rfl

theorem Keeps.trans (first : Keeps r lay s s') (second : Keeps r lay s' s'') : Keeps r lay s s'' :=
  fun addr guarded => (second addr guarded).trans (first addr guarded)

theorem keeps_setField (table : s.pageMetadata = r.base) (unguarded : Unguarded r lay field)
    (value : Nat) : Keeps r lay s (s.setField field value) := by
  intro addr guarded
  have missed : ¬ r.fields.Covers field addr := fun covered => unguarded addr covered guarded
  have put : r.fields.put s.mem field value addr = s.mem addr := Fields.put_apply missed value
  rw [State.setField, table]
  exact put

theorem unguarded_pageType (wellFormed : lay.WellFormed r) (inside : i < r.total) :
    Unguarded r lay (.pageType i) := by
  intro addr covered
  have table := r.table_le
  simp only [Fields.Covers, Region.fields, Field.addr, Field.width, pageInfoSize] at covered
  exact Layout.not_guarded_table wellFormed (by omega)

theorem unguarded_pageCount (wellFormed : lay.WellFormed r) (inside : i < r.total) :
    Unguarded r lay (.pageCount i) := by
  intro addr covered
  have table := r.table_le
  simp only [Fields.Covers, Region.fields, Field.addr, Field.width, pageInfoSize] at covered
  exact Layout.not_guarded_table wellFormed (by omega)

theorem covers_header {addr : Nat} (ofSlab : field.headerOf = some slab)
    (covered : r.fields.Covers field addr) : slab ≤ addr ∧ addr < slab + 40 := by
  cases field <;> cases ofSlab <;>
    simp only [Fields.Covers, Region.fields, Field.addr, Field.width] at covered <;> omega

theorem unguarded_header (wellFormed : lay.WellFormed r) (isSlab : lay.use i = .slab c)
    (ofSlab : field.headerOf = some (r.page i)) : Unguarded r lay field := by
  intro addr covered
  rcases covers_header ofSlab covered with ⟨above, below⟩
  exact Layout.not_guarded_header wellFormed isSlab above below

theorem unguarded_freePage (wellFormed : lay.WellFormed r) (isFree : lay.use i = .free)
    (inPage : field.headerOf = some (r.page i) ∨ ∃ obj, field = .link obj ∧ r.page i ≤ obj ∧
      obj + 8 ≤ r.page i + 4096) : Unguarded r lay field := by
  intro addr covered
  rcases inPage with ofSlab | ⟨obj, rfl, fromPage, toPage⟩
  · rcases covers_header ofSlab covered with ⟨above, below⟩
    exact Layout.not_guarded_free wellFormed isFree above (by omega)
  · simp only [Fields.Covers, Region.fields, Field.addr, Field.width] at covered
    exact Layout.not_guarded_free wellFormed isFree (by omega) (by omega)

theorem unguarded_link (wellFormed : lay.WellFormed r) (isSlab : lay.use i = .slab c)
    (isFree : obj ∈ lay.freeObjects (r.page i)) : Unguarded r lay (.link obj) := by
  intro addr covered
  have large := (class_facts c (wellFormed.known i c isSlab)).2.1
  simp only [Fields.Covers, Region.fields, Field.addr, Field.width] at covered
  exact Layout.not_guarded_freeObject wellFormed isSlab isFree covered.1 (by omega)

end Keeps

/-! ### Addresses -/

section Addresses

variable {r : Region} {lay : Layout} {s : State} {i addr : Nat}

theorem pageIdxToVirt_eq (statics : Statics r s) (inside : i < r.total) :
    pageIdxToVirt s i = r.page i := by
  unfold pageIdxToVirt
  rw [statics.heapStart]
  exact u64_of_lt (Region.page_lt inside)

theorem virtToPageIdx_eq (statics : Statics r s) (above : r.base ≤ addr)
    (below : addr < r.page r.reach) : virtToPageIdx s addr = r.index addr := by
  have atMost := r.atMost
  have reachLe := r.reach_le
  have beforeEnd : addr < r.endAddr := by
    rcases r.endAddr_cases with ⟨same, -⟩ | ⟨-, none⟩
    · exact same ▸ below
    · rw [none, Region.page] at below
      omega
  unfold Region.page at below
  have small : (addr - r.base) / 4096 < 2 ^ 32 := by omega
  unfold virtToPageIdx Region.index pageSize
  rw [statics.heapStart, statics.heapEnd, if_neg (by omega)]
  exact u32_of_lt small

/-- Behind `heap_end_addr` no address has a page. -/
theorem virtToPageIdx_behind (statics : Statics r s) (behind : r.page r.reach ≤ addr) :
    virtToPageIdx s addr = noIndex := by
  have pastEnd : r.endAddr ≤ addr := by
    rcases r.endAddr_cases with ⟨same, -⟩ | ⟨zero, -⟩
    · exact same ▸ behind
    · exact zero ▸ Nat.zero_le addr
  unfold virtToPageIdx
  rw [statics.heapEnd, if_pos (Or.inr pastEnd)]

theorem cacheIndex_cachePtr (s : State) (c : Nat) : s.cacheIndex (s.cachePtr c) = c := by
  unfold State.cacheIndex State.cachePtr cacheStructSize
  omega

theorem cachePtr_ne_zero (statics : Statics r s) (c : Nat) : s.cachePtr c ≠ 0 := by
  have nonzero := statics.cachesNonzero
  unfold State.cachePtr
  omega

end Addresses

end UniKernel.Heap
