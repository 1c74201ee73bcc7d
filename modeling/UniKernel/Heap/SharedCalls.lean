import UniKernel.Heap.Shared

/-!
Owns what a task may rely on at every point of a call, and why it still holds when other
tasks have taken steps: they leave the blocks of the task to it and their bytes alone.
A section under the lock leads from what is known at one point to what is known at the
next, and leaves a sound heap.
-/

namespace UniKernel.Heap

open UniKernel.Lib

universe u

variable {ι : Type u}

/-! ### What is known at a point -/

/-- Task `i` has a block of `size` bytes at `addr`. -/
def Shared.Given (s : Shared ι) (i : ι) (addr size : Nat) : Prop :=
  ∃ block, s.Mine i block ∧ block.addr = addr ∧ size ≤ block.size

/-- The bytes of a block are those from when the call was made. -/
def Unchanged (s : Shared ι) (t : Made) (block : Block) : Prop :=
  ∀ addr, block.Contains addr → s.heap.mem addr = t.before.heap.mem addr

/-- What a call promises. -/
def Answers (s : Shared ι) (i : ι) (t : Made) (result : Nat) : Prop :=
  match t.call with
  | .malloc size => result ≠ 0 → s.Given i result size
  | .free _ => True
  | .calloc num size => result ≠ 0 → s.Given i result (u64 (num * size)) ∧
      ∀ k < u64 (num * size), s.heap.mem (result + k) = 0
  | .realloc ptr newSize =>
      (result ≠ 0 → s.Given i result newSize ∧ ∀ block ∈ t.before.live, block.addr = ptr →
        ∀ k < min block.size newSize, s.heap.mem (result + k) = t.before.heap.mem (ptr + k)) ∧
      (result = 0 → newSize ≠ 0 → ∀ block ∈ t.before.live, block.addr = ptr →
        s.Mine i block ∧ Unchanged s t block)

/-- The task is reallocating `block`, which is still its own. -/
structure Reallocates (s : Shared ι) (i : ι) (t : Made) (newSize : Nat) (block : Block) :
    Prop where
  call : t.call = .realloc block.addr newSize
  positive : newSize ≠ 0
  small : newSize < 2 ^ 64
  only : ∀ other ∈ t.before.live, other.addr = block.addr → other = block
  mine : s.Mine i block

/-- The first `count` bytes have been copied to a larger block. -/
structure Copies (s : Shared ι) (i : ι) (t : Made) (block new : Block) (count : Nat) : Prop where
  mine : s.Mine i new
  apart : new.addr ≠ block.addr
  copied : ∀ k < count, s.heap.mem (new.addr + k) = t.before.heap.mem (block.addr + k)

def SectionOk (s : Shared ι) (i : ι) (t : Made) : Section → Prop
  | .malloc size => size < 2 ^ 64 ∧ (t.call = .malloc size ∨
      t.call = .realloc 0 size ∧ ∀ block ∈ t.before.live, block.addr ≠ 0)
  | .free ptr => (∃ block, s.Mine i block ∧ block.addr = ptr) ∧
      (t.call = .free ptr ∨ t.call = .realloc ptr 0)
  | .callocMalloc total => ∃ num size, t.call = .calloc num size ∧ total = u64 (num * size)
  | .reallocSize ptr newSize => ∃ block, block.addr = ptr ∧ Reallocates s i t newSize block ∧
      Unchanged s t block
  | .reallocMalloc ptr oldSize newSize => ∃ block, block.addr = ptr ∧
      Reallocates s i t newSize block ∧ Unchanged s t block ∧ block.size = oldSize ∧
      oldSize < newSize
  | .reallocFree ptr newPtr => ∃ block new newSize, block.addr = ptr ∧ new.addr = newPtr ∧
      Reallocates s i t newSize block ∧ block.size < newSize ∧ newSize ≤ new.size ∧
      Copies s i t block new block.size

def PointOk (s : Shared ι) (i : ι) (t : Made) : Point → Prop
  | .outside => True
  | .lock work | .inside work => SectionOk s i t work
  | .clear ptr total done => (∃ num size, t.call = .calloc num size ∧ total = u64 (num * size)) ∧
      s.Given i ptr total ∧ done ≤ total ∧ ∀ k < done, s.heap.mem (ptr + k) = 0
  | .copy ptr oldSize newPtr done => ∃ block new newSize, block.addr = ptr ∧ new.addr = newPtr ∧
      Reallocates s i t newSize block ∧ Unchanged s t block ∧ block.size = oldSize ∧
      oldSize < newSize ∧ newSize ≤ new.size ∧ done ≤ oldSize ∧ Copies s i t block new done
  | .ret result => Answers s i t result

/-! ### Steps of others -/

/-- A block stays with its task and keeps its bytes. -/
structure Undisturbed (s s' : Shared ι) (i : ι) (block : Block) : Prop where
  mine : s'.Mine i block
  bytes : ∀ addr, block.Contains addr → s'.heap.mem addr = s.heap.mem addr

section Others

variable {s s' : Shared ι} {i : ι} {t : Made} {block new : Block}

theorem Block.contains_add (block : Block) {k : Nat} (inside : k < block.size) :
    block.Contains (block.addr + k) :=
  ⟨Nat.le_add_right _ _, Nat.add_lt_add_left inside _⟩

theorem Undisturbed.refl (mine : s.Mine i block) : Undisturbed s s i block :=
  ⟨mine, fun _ _ => rfl⟩

theorem Unchanged.mono (unchanged : Unchanged s t block) (still : Undisturbed s s' i block) :
    Unchanged s' t block :=
  fun addr inside => (still.bytes addr inside).trans (unchanged addr inside)

theorem Shared.Given.mono {addr size : Nat} (given : s.Given i addr size)
    (still : ∀ block, s.Mine i block → Undisturbed s s' i block) : s'.Given i addr size := by
  obtain ⟨block, mine, isAddr, enough⟩ := given
  exact ⟨block, (still block mine).mine, isAddr, enough⟩

/-- The bytes at the start of a block. -/
theorem Shared.Given.bytes {addr size k : Nat} (given : s.Given i addr size) (inside : k < size)
    (still : ∀ block, s.Mine i block → Undisturbed s s' i block) :
    s'.heap.mem (addr + k) = s.heap.mem (addr + k) := by
  obtain ⟨block, mine, rfl, enough⟩ := given
  exact (still block mine).bytes _ (block.contains_add (Nat.lt_of_lt_of_le inside enough))

theorem Reallocates.mono {newSize : Nat} (reallocates : Reallocates s i t newSize block)
    (mine : s'.Mine i block) : Reallocates s' i t newSize block :=
  { reallocates with mine := mine }

theorem Copies.mono {count : Nat} (copies : Copies s i t block new count)
    (within : count ≤ new.size) (still : Undisturbed s s' i new) :
    Copies s' i t block new count where
  mine := still.mine
  apart := copies.apart
  copied := by
    intro k below
    rw [still.bytes _ (new.contains_add (Nat.lt_of_lt_of_le below within))]
    exact copies.copied k below

theorem Answers.mono {result : Nat} (answers : Answers s i t result)
    (still : ∀ block, s.Mine i block → Undisturbed s s' i block) : Answers s' i t result := by
  unfold Answers at *
  cases isCall : t.call with
  | malloc size =>
      rw [isCall] at answers
      exact fun some => (answers some).mono still
  | free ptr => trivial
  | calloc num size =>
      rw [isCall] at answers
      intro some
      obtain ⟨given, zero⟩ := answers some
      refine ⟨given.mono still, ?_⟩
      intro k below
      rw [given.bytes below still]
      exact zero k below
  | realloc ptr newSize =>
      rw [isCall] at answers
      refine ⟨?_, ?_⟩
      · intro some
        obtain ⟨given, contents⟩ := answers.1 some
        refine ⟨given.mono still, ?_⟩
        intro block member isAddr k below
        rw [given.bytes (Nat.lt_of_lt_of_le below (Nat.min_le_right _ _)) still]
        exact contents block member isAddr k below
      · intro failed positive block member isAddr
        obtain ⟨mine, unchanged⟩ := answers.2 failed positive block member isAddr
        exact ⟨(still block mine).mine, unchanged.mono (still block mine)⟩

/-- What is freed may change. -/
theorem SectionOk.mono {work : Section} (ok : SectionOk s i t work)
    (mine : ∀ block, s.Mine i block → s'.Mine i block)
    (still : ∀ block, s.Mine i block → work.frees ≠ some block.addr → Undisturbed s s' i block) :
    SectionOk s' i t work := by
  cases work with
  | malloc size => exact ok
  | free ptr =>
      obtain ⟨⟨block, isMine, isAddr⟩, isCall⟩ := ok
      exact ⟨⟨block, mine block isMine, isAddr⟩, isCall⟩
  | callocMalloc total => exact ok
  | reallocSize ptr newSize =>
      obtain ⟨block, isAddr, reallocates, unchanged⟩ := ok
      have kept := still block reallocates.mine nofun
      exact ⟨block, isAddr, reallocates.mono kept.mine, unchanged.mono kept⟩
  | reallocMalloc ptr oldSize newSize =>
      obtain ⟨block, isAddr, reallocates, unchanged, sizes⟩ := ok
      have kept := still block reallocates.mine nofun
      exact ⟨block, isAddr, reallocates.mono kept.mine, unchanged.mono kept, sizes⟩
  | reallocFree ptr newPtr =>
      obtain ⟨block, new, newSize, rfl, isNew, reallocates, grown, room, copies⟩ := ok
      have kept : Undisturbed s s' i new := by
        apply still new copies.mine
        intro same
        exact copies.apart (Option.some.inj same).symm
      exact ⟨block, new, newSize, rfl, isNew, reallocates.mono (mine block reallocates.mine), grown,
        room, copies.mono (by omega) kept⟩

theorem PointOk.mono {point : Point} (ok : PointOk s i t point)
    (still : ∀ block, s.Mine i block → Undisturbed s s' i block) : PointOk s' i t point := by
  cases point with
  | outside => trivial
  | lock work =>
      exact SectionOk.mono ok (fun block mine => (still block mine).mine)
        fun block mine _ => still block mine
  | inside work =>
      exact SectionOk.mono ok (fun block mine => (still block mine).mine)
        fun block mine _ => still block mine
  | clear ptr total done =>
      obtain ⟨isCall, given, within, zero⟩ := ok
      refine ⟨isCall, given.mono still, within, ?_⟩
      intro k below
      rw [given.bytes (Nat.lt_of_lt_of_le below within) still]
      exact zero k below
  | copy ptr oldSize newPtr done =>
      obtain ⟨block, new, newSize, isAddr, isNew, reallocates, unchanged, isOld, grows, room, within,
        copies⟩ := ok
      have kept := still block reallocates.mine
      exact ⟨block, new, newSize, isAddr, isNew, reallocates.mono kept.mine, unchanged.mono kept,
        isOld, grows, room, within, copies.mono (by omega) (still new copies.mine)⟩
  | ret result => exact Answers.mono ok still

end Others

/-! ### The invariant -/

def Point.isInside : Point → Bool
  | .inside _ => true
  | _ => false

/-- Nothing is known of the heap while somebody is inside, but it was sound on entry. -/
structure Sound (r : Region) (s : Shared ι) : Prop where
  valid : ∃ lay, Valid r lay ⟨s.settled, s.live⟩
  inside_iff : ∀ i, s.heapLock = some i ↔ (s.tasks i).point.isInside = true
  tasks : ∀ i, PointOk s i (s.tasks i).made (s.tasks i).point

section Stores

variable {r : Region} {lay : Layout} {h : State} {live : List Block} {s : Shared ι} {i j : ι}
  {block other : Block} {addr : Nat}

/-- A block starts at an address of its own. -/
theorem Valid.eq_of_addr (valid : Valid r lay ⟨h, live⟩) (member : block ∈ live)
    (otherMember : other ∈ live) (same : block.addr = other.addr) : block = other :=
  List.inj_on_of_nodup_map valid.nodup member otherMember same

theorem Valid.not_contains (valid : Valid r lay ⟨h, live⟩) (member : block ∈ live)
    (otherMember : other ∈ live) (different : block ≠ other) (inside : block.Contains addr) :
    ¬ other.Contains addr := by
  have starts : block.addr ≠ other.addr :=
    fun same => different (valid.eq_of_addr member otherMember same)
  have apart := (valid.occupied block member).apart valid.wellFormed
    (valid.occupied other otherMember) starts
  intro inOther
  have inBlock := inside
  unfold Block.Contains at inBlock inOther
  omega

/-- Whatever the blocks hold. -/
theorem Valid.stores {m : Machine} {mem : Memory} (valid : Valid r lay m)
    (same : ∀ addr, (∀ block ∈ m.live, ¬ block.Contains addr) → mem addr = m.heap.mem addr) :
    Valid r lay ⟨{ m.heap with mem := mem }, m.live⟩ where
  rep := by
    apply valid.rep.write valid.wellFormed
    intro addr unguarded
    exact same addr fun block member inside => unguarded (valid.guarded member inside)
  wellFormed := valid.wellFormed
  used := valid.used
  occupied := valid.occupied
  owned := valid.owned
  nodup := valid.nodup
  enough := valid.enough

/-- A store into a block leaves the other blocks alone. -/
theorem undisturbed_storeByte (value : UInt8) (valid : Valid r lay ⟨h, s.live⟩) (target : other ∈ s.live)
    (inside : other.Contains addr) (mine : s.Mine i block) (different : block ≠ other) :
    Undisturbed s (s.storeByte addr value) i block where
  mine := mine
  bytes := by
    intro place here
    apply Function.update_of_ne
    intro same
    subst same
    exact valid.not_contains mine.1 target different here inside

/-- A store into a block keeps the heap sound. -/
theorem valid_storeByte (value : UInt8) (valid : ∃ lay, Valid r lay ⟨s.settled, s.live⟩)
    (target : other ∈ s.live) (inside : other.Contains addr) :
    ∃ lay, Valid r lay ⟨(s.storeByte addr value).settled, s.live⟩ := by
  obtain ⟨lay, valid⟩ := valid
  by_cases unlocked : s.heapLock = none
  · have before : s.settled = s.heap := if_pos unlocked
    have after : (s.storeByte addr value).settled =
        { s.heap with mem := Function.update s.heap.mem addr value } := if_pos unlocked
    rw [before] at valid
    rw [after]
    refine ⟨lay, valid.stores ?_⟩
    intro place free
    apply Function.update_of_ne
    intro same
    subst same
    exact free other target inside
  · have same : (s.storeByte addr value).settled = s.settled :=
      (if_neg unlocked).trans (if_neg unlocked).symm
    rw [same]
    exact ⟨lay, valid⟩

end Stores

/-! ### Sections -/

section Sections

variable {r : Region} {s : Shared ι} {i j : ι} {block : Block} {work : Section}

theorem Section.mem_perform_live {m : Machine} (member : block ∈ m.live)
    (stays : work.frees ≠ some block.addr) : block ∈ (work.perform m).1.live := by
  have kept : ∀ {ptr : Nat}, block.addr ≠ ptr → block ∈ dropBlock ptr m.live :=
    fun different => mem_dropBlock.mpr ⟨member, different⟩
  have added : ∀ ptr size, block ∈ addBlock ptr size m.live := by
    intro ptr size
    unfold addBlock
    split
    · exact member
    · exact List.mem_cons_of_mem _ member
  cases work with
  | malloc size => exact added _ _
  | free ptr => exact kept fun same => stays (congrArg some same.symm)
  | callocMalloc total => exact added _ _
  | reallocSize ptr newSize => exact member
  | reallocMalloc ptr oldSize newSize => exact added _ _
  | reallocFree ptr newPtr => exact kept fun same => stays (congrArg some same.symm)

/-- The lock holder leaves a sound heap. -/
theorem SectionOk.valid_perform {t : Made} {h : State} (ok : SectionOk s i t work)
    (valid : ∃ lay, Valid r lay ⟨h, s.live⟩) :
    ∃ lay, Valid r lay (work.perform ⟨h, s.live⟩).1 := by
  obtain ⟨lay, valid⟩ := valid
  cases work with
  | malloc size => exact ⟨_, (valid_malloc valid ok.1).2.1⟩
  | free ptr =>
      obtain ⟨⟨block, mine, rfl⟩, -⟩ := ok
      exact ⟨_, (valid_free valid mine.1).1⟩
  | callocMalloc total =>
      obtain ⟨num, size, -, rfl⟩ := ok
      exact ⟨_, (valid_malloc valid (Nat.mod_lt _ (by decide))).2.1⟩
  | reallocSize ptr newSize => exact ⟨lay, valid⟩
  | reallocMalloc ptr oldSize newSize =>
      obtain ⟨block, -, reallocates, -⟩ := ok
      exact ⟨_, (valid_malloc valid reallocates.small).2.1⟩
  | reallocFree ptr newPtr =>
      obtain ⟨block, new, newSize, rfl, -, reallocates, -⟩ := ok
      exact ⟨_, (valid_free valid reallocates.mine.1).1⟩

/-- A section does not look at what the blocks hold. -/
theorem SectionOk.perform_stores {t : Made} {h : State} {mem : Memory} (ok : SectionOk s i t work)
    (valid : ∃ lay, Valid r lay ⟨h, s.live⟩)
    (same : ∀ addr, (∀ block ∈ s.live, ¬ block.Contains addr) → mem addr = h.mem addr) :
    (work.perform ⟨{ h with mem := mem }, s.live⟩).2 = (work.perform ⟨h, s.live⟩).2 := by
  obtain ⟨lay, valid⟩ := valid
  have stored := valid.stores same
  have sameMalloc : ∀ size, size < 2 ^ 64 →
      (malloc size { h with mem := mem }).1 = (malloc size h).1 :=
    fun size small => (valid_malloc stored small).1.trans (valid_malloc valid small).1.symm
  cases work with
  | malloc size => exact congrArg Point.ret (sameMalloc size ok.1)
  | free ptr => rfl
  | callocMalloc total =>
      obtain ⟨num, size, -, rfl⟩ := ok
      have same := sameMalloc (u64 (num * size)) (Nat.mod_lt _ (by decide))
      simp only [Section.perform, same]
  | reallocSize ptr newSize =>
      obtain ⟨block, rfl, reallocates, -⟩ := ok
      have occupied := valid.occupied block reallocates.mine.1
      have sameSize : oldSize block.addr { h with mem := mem } = oldSize block.addr h :=
        (oldSize_eq stored.rep valid.wellFormed occupied).trans
          (oldSize_eq valid.rep valid.wellFormed occupied).symm
      simp only [Section.perform, sameSize]
  | reallocMalloc ptr oldSize newSize =>
      obtain ⟨block, -, reallocates, -⟩ := ok
      simp only [Section.perform, sameMalloc newSize reallocates.small]
  | reallocFree ptr newPtr => rfl

theorem SectionOk.mine_of_frees {t : Made} {ptr : Nat} (ok : SectionOk s i t work)
    (frees : work.frees = some ptr) : ∃ block, s.Mine i block ∧ block.addr = ptr := by
  cases work with
  | free other =>
      cases frees
      exact ok.1
  | reallocFree other newPtr =>
      cases frees
      obtain ⟨block, new, newSize, isAddr, -, reallocates, -⟩ := ok
      exact ⟨block, reallocates.mine, isAddr⟩
  | malloc size => cases frees
  | callocMalloc total => cases frees
  | reallocSize ptr newSize => cases frees
  | reallocMalloc ptr oldSize newSize => cases frees

/-- A task frees no block of another. -/
theorem SectionOk.frees_ne {t : Made} (ok : SectionOk s i t work) (mine : s.Mine j block)
    (other : j ≠ i) : work.frees ≠ some block.addr := by
  intro frees
  obtain ⟨freed, isMine, same⟩ := ok.mine_of_frees frees
  have owner := mine.2
  rw [← same, isMine.2] at owner
  exact other (Option.some.inj owner).symm

theorem mallocEntry_isInside (size : Nat) (work : Section) :
    (mallocEntry size work).isInside = false := by
  unfold mallocEntry
  split <;> rfl

theorem UserCall.entry_isInside (call : UserCall) : call.entry.isInside = false := by
  cases call with
  | malloc size => exact mallocEntry_isInside _ _
  | free ptr =>
      simp only [UserCall.entry]
      split <;> rfl
  | calloc num size => exact mallocEntry_isInside _ _
  | realloc ptr newSize =>
      simp only [UserCall.entry]
      split
      · exact mallocEntry_isInside _ _
      · split <;> rfl

theorem Section.perform_isInside (work : Section) (m : Machine) :
    (work.perform m).2.isInside = false := by
  cases work with
  | malloc size => rfl
  | free ptr => rfl
  | callocMalloc total =>
      unfold Section.perform
      dsimp only
      split <;> rfl
  | reallocSize ptr newSize =>
      unfold Section.perform
      dsimp only
      split
      · rfl
      · exact mallocEntry_isInside _ _
  | reallocMalloc ptr oldSize newSize =>
      unfold Section.perform
      dsimp only
      split <;> rfl
  | reallocFree ptr newPtr => rfl

variable [DecidableEq ι]

/-- What the others have stored meanwhile does not matter. -/
theorem valid_commit (valid : ∃ lay, Valid r lay (work.perform ⟨s.entered, s.live⟩).1) :
    ∃ lay, Valid r lay ⟨(s.commit i work).settled, (s.commit i work).live⟩ := by
  obtain ⟨lay, valid⟩ := valid
  refine ⟨lay, valid.stores ?_⟩
  intro addr free
  apply if_neg
  intro common
  obtain ⟨block, -, member, inside⟩ := common
  exact free block member inside

theorem undisturbed_commit (mine : s.Mine j block) (stays : work.frees ≠ some block.addr) :
    Undisturbed s (s.commit i work) j block where
  mine := by
    refine ⟨Section.mem_perform_live mine.1 stays, ?_⟩
    have isOld : (s.live.any fun other => other.addr = block.addr) = true :=
      List.any_eq_true.mpr ⟨block, mine.1, decide_eq_true rfl⟩
    exact (if_pos isOld).trans mine.2
  bytes := by
    intro addr inside
    exact if_pos ⟨block, mine.1, Section.mem_perform_live mine.1 stays, inside⟩

/-- A block that is new after a section is the task's. -/
theorem mine_commit_new (new : block ∈ (work.perform ⟨s.entered, s.live⟩).1.live)
    (fresh : ∀ other ∈ s.live, other.addr ≠ block.addr) : (s.commit i work).Mine i block := by
  refine ⟨new, if_neg ?_⟩
  intro isOld
  obtain ⟨other, member, same⟩ := List.any_eq_true.mp isOld
  exact fresh other member (of_decide_eq_true same)

/-- `malloc` in a section: nothing, or a new block of the task. -/
theorem given_of_malloc {size : Nat} (isLive : (work.perform ⟨s.entered, s.live⟩).1.live =
      addBlock (malloc size s.entered).1 size s.live)
    (valid : ∃ lay, Valid r lay (work.perform ⟨s.entered, s.live⟩).1)
    (some : (malloc size s.entered).1 ≠ 0) :
    (s.commit i work).Mine i (Block.new (malloc size s.entered).1 size) ∧
      size ≤ (Block.new (malloc size s.entered).1 size).size ∧
      ∀ other ∈ s.live, other.addr ≠ (malloc size s.entered).1 := by
  obtain ⟨lay, valid⟩ := valid
  rw [addBlock, if_neg some] at isLive
  have nodup := valid.nodup
  rw [isLive, List.map_cons, List.nodup_cons] at nodup
  have fresh : ∀ other ∈ s.live, other.addr ≠ (malloc size s.entered).1 := by
    intro other member same
    apply nodup.1
    exact List.mem_map.mpr ⟨other, member, same⟩
  have member : Block.new (malloc size s.entered).1 size ∈
      (work.perform ⟨s.entered, s.live⟩).1.live := by
    rw [isLive]
    exact List.mem_cons_self
  exact ⟨mine_commit_new member fresh, valid.enough _ member, fresh⟩

/-- Behind a section the task is where the next point says. -/
theorem SectionOk.pointOk_commit (small : r.Small) {t : Made} (ok : SectionOk s i t work)
    (valid : ∃ lay, Valid r lay ⟨s.entered, s.live⟩) :
    PointOk (s.commit i work) i t (work.perform ⟨s.entered, s.live⟩).2 := by
  have after := ok.valid_perform valid
  obtain ⟨lay, valid⟩ := valid
  cases work with
  | malloc size =>
      change Answers _ i t (malloc size s.entered).1
      have given : (malloc size s.entered).1 ≠ 0 →
          (s.commit i (.malloc size)).Given i (malloc size s.entered).1 size := by
        intro some
        obtain ⟨mine, enough, -⟩ := given_of_malloc rfl after some
        exact ⟨_, mine, rfl, enough⟩
      unfold Answers
      obtain isCall | ⟨isCall, nonzero⟩ := ok.2
      · rw [isCall]
        exact given
      · rw [isCall]
        exact ⟨fun some => ⟨given some, fun block member isAddr => absurd isAddr (nonzero block member)⟩,
          fun _ _ block member isAddr => absurd isAddr (nonzero block member)⟩
  | free ptr =>
      change Answers _ i t 0
      unfold Answers
      obtain isCall | isCall := ok.2
      · rw [isCall]
        trivial
      · rw [isCall]
        exact ⟨fun some => absurd rfl some, fun _ positive => absurd rfl positive⟩
  | callocMalloc total =>
      change PointOk _ i t (if (malloc total s.entered).1 ≠ 0 then
        .clear (malloc total s.entered).1 total 0 else .ret (malloc total s.entered).1)
      by_cases some : (malloc total s.entered).1 ≠ 0
      · rw [if_pos some]
        obtain ⟨mine, enough, -⟩ := given_of_malloc rfl after some
        exact ⟨ok, ⟨_, mine, rfl, enough⟩, Nat.zero_le _, fun k below => absurd below (Nat.not_lt_zero k)⟩
      · rw [if_neg some]
        obtain ⟨num, size, isCall, -⟩ := ok
        change Answers _ i t _
        unfold Answers
        rw [isCall]
        exact fun result => absurd result some
  | reallocSize ptr newSize =>
      obtain ⟨block, rfl, reallocates, unchanged⟩ := ok
      have occupied := valid.occupied block reallocates.mine.1
      have isSize : oldSize block.addr s.entered = block.size := by
        rw [oldSize_eq valid.rep valid.wellFormed occupied,
          Layout.sizeAt_eq small valid.wellFormed occupied]
      have nonzero := occupied.ne_zero valid.wellFormed
      have still : Undisturbed s (s.commit i (.reallocSize block.addr newSize)) i block :=
        undisturbed_commit reallocates.mine nofun
      have kept : Reallocates (s.commit i (.reallocSize block.addr newSize)) i t newSize block :=
        { reallocates with mine := still.mine }
      change PointOk _ i t (if oldSize block.addr s.entered ≥ newSize then .ret block.addr
        else mallocEntry newSize (.reallocMalloc block.addr (oldSize block.addr s.entered) newSize))
      rw [isSize]
      by_cases fits : block.size ≥ newSize
      · rw [if_pos fits]
        change Answers _ i t _
        unfold Answers
        rw [reallocates.call]
        refine ⟨fun _ => ⟨⟨block, still.mine, rfl, fits⟩, ?_⟩, fun isNull => absurd isNull nonzero⟩
        intro other member isAddr k below
        rw [reallocates.only other member isAddr] at below
        have inside := block.contains_add (Nat.lt_of_lt_of_le below (Nat.min_le_left _ _))
        rw [still.bytes _ inside]
        exact unchanged _ inside
      · rw [if_neg fits, mallocEntry, if_neg reallocates.positive]
        exact ⟨block, rfl, kept, unchanged.mono still, rfl, Nat.lt_of_not_le fits⟩
  | reallocMalloc ptr oldSize newSize =>
      obtain ⟨block, rfl, reallocates, unchanged, rfl, grows⟩ := ok
      have still : Undisturbed s (s.commit i (.reallocMalloc block.addr block.size newSize)) i block :=
        undisturbed_commit reallocates.mine nofun
      have kept : Reallocates (s.commit i (.reallocMalloc block.addr block.size newSize)) i t newSize
        block := { reallocates with mine := still.mine }
      change PointOk _ i t (if (malloc newSize s.entered).1 ≠ 0 then
        .copy block.addr block.size (malloc newSize s.entered).1 0
          else .ret (malloc newSize s.entered).1)
      by_cases some : (malloc newSize s.entered).1 ≠ 0
      · rw [if_pos some]
        obtain ⟨mine, enough, fresh⟩ := given_of_malloc rfl after some
        refine ⟨block, _, newSize, rfl, rfl, kept, unchanged.mono still, rfl, grows, enough,
          Nat.zero_le _, mine, ?_, fun k below => absurd below (Nat.not_lt_zero k)⟩
        exact Ne.symm (fresh block reallocates.mine.1)
      · rw [if_neg some]
        change Answers _ i t _
        unfold Answers
        rw [reallocates.call]
        refine ⟨fun result => absurd result some, ?_⟩
        intro _ _ other member isAddr
        rw [reallocates.only other member isAddr]
        exact ⟨still.mine, unchanged.mono still⟩
  | reallocFree ptr newPtr =>
      obtain ⟨block, new, newSize, rfl, rfl, reallocates, grown, room, copies⟩ := ok
      have still : Undisturbed s (s.commit i (.reallocFree block.addr new.addr)) i new := by
        apply undisturbed_commit copies.mine
        intro same
        exact copies.apart (Option.some.inj same).symm
      have nonzero := (valid.occupied new copies.mine.1).ne_zero valid.wellFormed
      change Answers _ i t new.addr
      unfold Answers
      rw [reallocates.call]
      refine ⟨fun _ => ⟨⟨new, still.mine, rfl, room⟩, ?_⟩, fun isNull => absurd isNull nonzero⟩
      intro other member isAddr k below
      rw [reallocates.only other member isAddr] at below
      have inside : k < block.size := Nat.lt_of_lt_of_le below (Nat.min_le_left _ _)
      rw [still.bytes _ (new.contains_add (by omega))]
      exact copies.copied k inside

end Sections

end UniKernel.Heap
