import UniKernel.CString.Model
import UniKernel.Lib.Words

/-!
Owns the kernel heap of `src/heap.c`: the statics as one record over byte
memory, and every function of the file except the debug print. The page table
`page_metadata`, the slab headers and the free lists are bytes of the heap
region itself, so user data and allocator data share one memory. The array
`caches` lies outside the region and is a field of the record; a pointer to
its element `i` is the number `cachesAddr + 32 * i`.

The lock is left out: `malloc`, `free` and `realloc` run one after another.
-/

namespace UniKernel.Heap

open UniKernel.Lib

/-- `PAGE_SIZE` -/
@[simp] def pageSize : Nat := 4096

/-- `HEAP_ALIGN` -/
@[simp] def heapAlign : Nat := 8

/-- `SLAB_MAGIC` -/
@[simp] def slabMagic : Nat := 0x51AB51AB

/-- `NUM_CACHE_SIZES` -/
@[simp] def numCacheSizes : Nat := 8

/-- `slab_sizes` -/
def slabSizes : List Nat := [16, 32, 64, 128, 256, 512, 1024, 2048]

/-- `page_type_t`, as the byte stored in a table entry. -/
@[simp] def pageTypeFree : Nat := 0
@[simp] def pageTypeSlab : Nat := 1
@[simp] def pageTypeLarge : Nat := 2

/-- `sizeof(page_info_t)` -/
@[simp] def pageInfoSize : Nat := 4

/-- `sizeof(slab_t)` -/
@[simp] def slabHeaderSize : Nat := 40

/-- `sizeof(kmem_cache_t)` -/
@[simp] def cacheStructSize : Nat := 32

/-- `kmem_cache_t`: three list heads (0 is NULL) and the object size. -/
structure KmemCache where
  slabsPartial : Nat
  slabsFull : Nat
  slabsFree : Nat
  objSize : Nat

/-- The memory, the file-scope variables of `heap.c` and the link-time address
of the array `caches`. -/
structure State where
  mem : Memory
  heapStartAddr : Nat
  heapEndAddr : Nat
  pageMetadata : Nat
  totalPages : Nat
  caches : Nat → KmemCache
  cachesAddr : Nat

/-- `(u32)-1` -/
@[simp] def noIndex : Nat := 2 ^ 32 - 1

def alignUp (n align : Nat) : Nat := alignDown (u64 (n + align - 1)) align

def virtToPageIdx (s : State) (addr : Nat) : Nat :=
  if addr < s.heapStartAddr ∨ addr ≥ s.heapEndAddr then noIndex
  else u32 ((addr - s.heapStartAddr) / pageSize)

def pageIdxToVirt (s : State) (idx : Nat) : Nat := u64 (s.heapStartAddr + idx * pageSize)

/-! ### Fields in memory -/

def State.load64 (s : State) (addr : Nat) : Nat := s.mem.load addr 8

def State.store64 (s : State) (addr value : Nat) : State :=
  { s with mem := s.mem.store addr 8 value }

def State.store32 (s : State) (addr value : Nat) : State :=
  { s with mem := s.mem.store addr 4 value }

/-- `page_metadata[idx].type` -/
def State.pageType (s : State) (idx : Nat) : Nat := s.mem.load (s.pageMetadata + idx * pageInfoSize) 1

/-- `page_metadata[idx].count` -/
def State.pageCount (s : State) (idx : Nat) : Nat :=
  s.mem.load (s.pageMetadata + idx * pageInfoSize + 2) 2

/-- `page_metadata[idx].type = type; page_metadata[idx].count = count;` -/
def State.setPage (s : State) (idx type count : Nat) : State :=
  { s with
    mem := (s.mem.store (s.pageMetadata + idx * pageInfoSize) 1 type).store
      (s.pageMetadata + idx * pageInfoSize + 2) 2 count }

/-- `slab->next` -/
def State.slabNext (s : State) (slab : Nat) : Nat := s.load64 slab

/-- `slab->prev` -/
def State.slabPrev (s : State) (slab : Nat) : Nat := s.load64 (slab + 8)

/-- `slab->cache`, a pointer into `caches` or NULL. -/
def State.slabCache (s : State) (slab : Nat) : Nat := s.load64 (slab + 16)

/-- `slab->free_list` -/
def State.slabFreeList (s : State) (slab : Nat) : Nat := s.load64 (slab + 24)

/-- `slab->in_use` -/
def State.slabInUse (s : State) (slab : Nat) : Nat := s.mem.load (slab + 32) 4

/-- `slab->magic` -/
def State.slabMagicOf (s : State) (slab : Nat) : Nat := s.mem.load (slab + 36) 4

def State.setSlabNext (s : State) (slab value : Nat) : State := s.store64 slab value

def State.setSlabPrev (s : State) (slab value : Nat) : State := s.store64 (slab + 8) value

def State.setSlabCache (s : State) (slab value : Nat) : State := s.store64 (slab + 16) value

def State.setSlabFreeList (s : State) (slab value : Nat) : State := s.store64 (slab + 24) value

def State.setSlabInUse (s : State) (slab value : Nat) : State := s.store32 (slab + 32) value

def State.setSlabMagic (s : State) (slab value : Nat) : State := s.store32 (slab + 36) value

/-- `&caches[c]` -/
def State.cachePtr (s : State) (c : Nat) : Nat := s.cachesAddr + c * cacheStructSize

/-- The index of the cache a pointer into `caches` names. -/
def State.cacheIndex (s : State) (ptr : Nat) : Nat := (ptr - s.cachesAddr) / cacheStructSize

/-! ### Pages -/

/-- The search loop of `alloc_pages_backend` over the last `remaining` pages. -/
def findRun (s : State) (numPages : Nat) : (remaining i freeRun startIdx : Nat) → Option Nat
  | 0, _, _, _ => none
  | remaining + 1, i, freeRun, startIdx =>
      if s.pageType i = pageTypeFree then
        let startIdx := if freeRun = 0 then i else startIdx
        let freeRun := u32 (freeRun + 1)
        if freeRun = numPages then some startIdx
        else findRun s numPages remaining (i + 1) freeRun startIdx
      else findRun s numPages remaining (i + 1) 0 startIdx

/-- The marking loop of `alloc_pages_backend` after `count` entries. -/
def markRun (startIdx numPages type : Nat) : Nat → State → State
  | 0, s => s
  | count + 1, s =>
      (markRun startIdx numPages type count s).setPage (startIdx + count) type
        (if count = 0 then numPages else 0)

/-- The address of the run, or 0 (NULL). -/
def allocPagesBackend (numPages type : Nat) (s : State) : Nat × State :=
  match findRun s numPages s.totalPages 0 0 noIndex with
  | some startIdx => (pageIdxToVirt s startIdx, markRun startIdx numPages type numPages s)
  | none => (0, s)

/-- The loop of `free_pages_backend` after `count` entries. -/
def clearRun (idx : Nat) : Nat → State → State
  | 0, s => s
  | count + 1, s =>
      let s := clearRun idx count s
      if idx + count < s.totalPages then s.setPage (idx + count) pageTypeFree 0 else s

def freePagesBackend (ptr : Nat) (s : State) : State :=
  let idx := virtToPageIdx s ptr
  if idx ≥ s.totalPages then s
  else
    let count := s.pageCount idx
    if count = 0 then s else clearRun idx count s

/-! ### Slabs -/

/-- The loop of `slab_init_page` that links `count` objects from `curr`. -/
def linkObjects (objSize curr : Nat) : Nat → State → State
  | 0, s => s
  | count + 1, s => linkObjects objSize (curr + objSize) count (s.store64 curr (curr + objSize))

def slabInitPage (slab c : Nat) (s : State) : State :=
  let objSize := (s.caches c).objSize
  let s := s.setSlabMagic slab slabMagic
  let s := s.setSlabCache slab (s.cachePtr c)
  let s := s.setSlabInUse slab 0
  let s := s.setSlabNext slab 0
  let s := s.setSlabPrev slab 0
  let start := alignUp (slab + slabHeaderSize) heapAlign
  let available := pageSize - (start - slab)
  let maxObjs := available / objSize
  let s := s.setSlabFreeList slab start
  let s := linkObjects objSize start (maxObjs - 1) s
  s.store64 (start + (maxObjs - 1) * objSize) 0

/-- Which of a cache's slab lists a statement works on. -/
inductive SlabList where
  | partlyUsed
  | full
deriving DecidableEq, Repr

def KmemCache.head (cache : KmemCache) : SlabList → Nat
  | .partlyUsed => cache.slabsPartial
  | .full => cache.slabsFull

def KmemCache.setHead (cache : KmemCache) (slab : Nat) : SlabList → KmemCache
  | .partlyUsed => { cache with slabsPartial := slab }
  | .full => { cache with slabsFull := slab }

def State.head (s : State) (c : Nat) (which : SlabList) : Nat := (s.caches c).head which

def State.setHead (s : State) (c : Nat) (which : SlabList) (slab : Nat) : State :=
  { s with caches := Function.update s.caches c ((s.caches c).setHead slab which) }

/-- Take `slab` out of a list: its predecessor (or the head) and its successor
skip it. The slab's own links are left as they are. -/
def unlinkSlab (c : Nat) (which : SlabList) (slab : Nat) (s : State) : State :=
  let s :=
    if s.slabPrev slab ≠ 0 then s.setSlabNext (s.slabPrev slab) (s.slabNext slab)
    else s.setHead c which (s.slabNext slab)
  if s.slabNext slab ≠ 0 then s.setSlabPrev (s.slabNext slab) (s.slabPrev slab) else s

/-- Put `slab` in front of a list. -/
def pushSlab (c : Nat) (which : SlabList) (slab : Nat) (s : State) : State :=
  let s := s.setSlabNext slab (s.head c which)
  let s := s.setSlabPrev slab 0
  let s := if s.head c which ≠ 0 then s.setSlabPrev (s.head c which) slab else s
  s.setHead c which slab

/-- The slab `cache_alloc` takes when `slabs_partial` is empty: the head of
`slabs_free`, or a fresh page. -/
def takeSlab (c : Nat) (s : State) : Nat × State :=
  if (s.caches c).slabsFree ≠ 0 then
    let slab := (s.caches c).slabsFree
    let rest := s.slabNext slab
    let s := { s with caches := Function.update s.caches c { s.caches c with slabsFree := rest } }
    (slab, if rest ≠ 0 then s.setSlabPrev rest 0 else s)
  else
    let (slab, s) := allocPagesBackend 1 pageTypeSlab s
    if slab = 0 then (0, s) else (slab, slabInitPage slab c s)

/-- The second half of `cache_alloc`: take the first free object of `slab`. -/
def takeObject (c slab : Nat) (s : State) : Nat × State :=
  let obj := s.slabFreeList slab
  let s := s.setSlabFreeList slab (s.load64 obj)
  let s := s.setSlabInUse slab (u32 (s.slabInUse slab + 1))
  if s.slabFreeList slab = 0 then
    (obj, pushSlab c .full slab (unlinkSlab c .partlyUsed slab s))
  else (obj, s)

def cacheAlloc (c : Nat) (s : State) : Nat × State :=
  let slab := (s.caches c).slabsPartial
  if slab = 0 then
    let (slab, s) := takeSlab c s
    if slab = 0 then (0, s) else takeObject c slab (pushSlab c .partlyUsed slab s)
  else takeObject c slab s

def cacheFree (c ptr : Nat) (s : State) : State :=
  let slab := alignDown ptr pageSize
  if s.slabMagicOf slab ≠ slabMagic then s
  else
    let wasFull := s.slabFreeList slab = 0
    let s := s.store64 ptr (s.slabFreeList slab)
    let s := s.setSlabFreeList slab ptr
    let s := s.setSlabInUse slab (pred32 (s.slabInUse slab))
    if s.slabInUse slab = 0 then
      if wasFull then freePagesBackend slab (unlinkSlab c .full slab s)
      else freePagesBackend slab (unlinkSlab c .partlyUsed slab s)
    else if wasFull then pushSlab c .partlyUsed slab (unlinkSlab c .full slab s)
    else s

/-! ### The entry points -/

/-- The loop of `heap_init` that reserves the metadata pages. -/
def reserveMetadata : Nat → State → State
  | 0, s => s
  | count + 1, s => (reserveMetadata count s).setPage count pageTypeLarge 1

/-- The loop of `heap_init` over the caches. -/
def initCaches (caches : Nat → KmemCache) : Nat → KmemCache := fun i =>
  if i < numCacheSizes then ⟨0, 0, 0, slabSizes.getD i 0⟩ else caches i

def heapInit (start size : Nat) (s : State) : State :=
  let alignedStart := alignDown (u64 (start + pageSize - 1)) pageSize
  let diff := u64 (alignedStart + (2 ^ 64 - start))
  if size < diff then s
  else
    let size := size - diff
    let totalPages := u32 (size / pageSize)
    if totalPages = 0 then { s with totalPages := totalPages }
    else
      let s :=
        { s with
          totalPages := totalPages
          heapStartAddr := alignedStart
          heapEndAddr := u64 (alignedStart + u32 (totalPages * pageSize)) }
      let metaSize := totalPages * pageInfoSize
      let metaPages := (metaSize + pageSize - 1) / pageSize
      if metaPages ≥ totalPages then s
      else
        let s := { s with pageMetadata := s.heapStartAddr }
        let s := { s with mem := CString.memset s.pageMetadata 0 metaSize s.mem }
        let s := reserveMetadata metaPages s
        { s with caches := initCaches s.caches }

/-- The loop of `malloc` over the last `remaining` caches: the first one whose
objects are large enough. -/
def cacheFor (s : State) (size : Nat) : (remaining i : Nat) → Option Nat
  | 0, _ => none
  | remaining + 1, i =>
      if size ≤ (s.caches i).objSize then some i else cacheFor s size remaining (i + 1)

def malloc (size : Nat) (s : State) : Nat × State :=
  if size = 0 then (0, s)
  else if size ≤ 2048 then
    match cacheFor s size numCacheSizes 0 with
    | some c => cacheAlloc c s
    | none => (0, s)
  else allocPagesBackend (u64 (size + pageSize - 1) / pageSize) pageTypeLarge s

def free (ptr : Nat) (s : State) : State :=
  if ptr = 0 then s
  else
    let idx := virtToPageIdx s ptr
    if idx < s.totalPages then
      if s.pageType idx = pageTypeSlab then
        let slab := alignDown ptr pageSize
        if s.slabCache slab ≠ 0 then cacheFree (s.cacheIndex (s.slabCache slab)) ptr s else s
      else if s.pageType idx = pageTypeLarge then freePagesBackend ptr s
      else s
    else s

def calloc (num size : Nat) (s : State) : Nat × State :=
  let total := u64 (num * size)
  let (ptr, s) := malloc total s
  if ptr ≠ 0 then (ptr, { s with mem := CString.memset ptr 0 total s.mem }) else (ptr, s)

/-- The usable size `realloc` recovers for a block. -/
def oldSize (ptr : Nat) (s : State) : Nat :=
  let idx := virtToPageIdx s ptr
  if idx < s.totalPages then
    if s.pageType idx = pageTypeSlab then
      let slab := alignDown ptr pageSize
      if s.slabCache slab ≠ 0 then (s.caches (s.cacheIndex (s.slabCache slab))).objSize else 0
    else if s.pageType idx = pageTypeLarge then s.pageCount idx * pageSize
    else 0
  else 0

def realloc (ptr newSize : Nat) (s : State) : Nat × State :=
  if ptr = 0 then malloc newSize s
  else if newSize = 0 then (0, free ptr s)
  else
    let old := oldSize ptr s
    if old ≥ newSize then (ptr, s)
    else
      let (newPtr, s) := malloc newSize s
      if newPtr ≠ 0 then (newPtr, free ptr { s with mem := CString.memcpy newPtr ptr old s.mem })
      else (newPtr, s)

end UniKernel.Heap
