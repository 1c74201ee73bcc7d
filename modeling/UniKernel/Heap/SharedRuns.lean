import UniKernel.Heap.SharedCalls

/-!
Owns runs of tasks that use the heap at once: a block is its task's alone, only its task
changes the bytes, and a call returns what it would alone.
-/

namespace UniKernel.Heap

open UniKernel.Lib

universe u

variable {ι : Type u}

/-! ### Steps -/

section Steps

variable {r : Region} {s s' : Shared ι} {event : SharedEvent ι} {i : ι} {block : Block}
  {work : Section}

/-- A call begins with what the task may ask for. -/
theorem Sound.pointOk_entry (sound : Sound r s) {call : UserCall} (allowed : call.Allowed s i) :
    PointOk s i ⟨call, s.heap, s.live⟩ call.entry := by
  obtain ⟨lay, valid⟩ := sound.valid
  have nonzero : ∀ block ∈ s.live, block.addr ≠ 0 :=
    fun block member => (valid.occupied block member).ne_zero valid.wellFormed
  cases call with
  | malloc size =>
      change PointOk s i _ (mallocEntry size (.malloc size))
      unfold mallocEntry
      split
      · exact fun some => absurd rfl some
      · exact ⟨allowed, Or.inl rfl⟩
  | free ptr =>
      change PointOk s i _ (if ptr = 0 then .ret 0 else .lock (.free ptr))
      split
      · trivial
      · next some => exact ⟨allowed.resolve_left some, Or.inl rfl⟩
  | calloc num size =>
      change PointOk s i _ (mallocEntry (u64 (num * size)) (.callocMalloc (u64 (num * size))))
      unfold mallocEntry
      split
      · exact fun some => absurd rfl some
      · exact ⟨num, size, rfl, rfl⟩
  | realloc ptr newSize =>
      obtain ⟨isBlock, small⟩ := allowed
      change PointOk s i _ (if ptr = 0 then mallocEntry newSize (.malloc newSize)
        else if newSize = 0 then .lock (.free ptr) else .lock (.reallocSize ptr newSize))
      split
      · next isNull =>
          subst isNull
          unfold mallocEntry
          split
          · next nothing =>
              exact ⟨fun some => absurd rfl some, fun _ positive => absurd nothing positive⟩
          · exact ⟨small, Or.inr ⟨rfl, nonzero⟩⟩
      · next some =>
          obtain ⟨block, mine, rfl⟩ := isBlock.resolve_left some
          split
          · next nothing =>
              subst nothing
              exact ⟨⟨block, mine, rfl⟩, Or.inr rfl⟩
          · next positive =>
              refine ⟨block, rfl, ⟨rfl, positive, small, ?_, mine⟩, fun _ _ => rfl⟩
              intro other member same
              exact valid.eq_of_addr member mine.1 same

theorem pointOk_of_tasks {point : Point} (isTask : s'.tasks i = { s.tasks i with point := point })
    (ok : PointOk s' i (s.tasks i).made point) : PointOk s' i (s'.tasks i).made (s'.tasks i).point := by
  rw [isTask]
  exact ok

theorem pointOk_moveTo [DecidableEq ι] (point : Point) (ok : PointOk s i (s.tasks i).made point) :
    PointOk (s.moveTo i point) i ((s.moveTo i point).tasks i).made
      ((s.moveTo i point).tasks i).point :=
  pointOk_of_tasks (Function.update_self _ _ _) (ok.mono fun _ mine => ⟨mine, fun _ _ => rfl⟩)

theorem Sound.pointOk (sound : Sound r s) {point : Point} (here : (s.tasks i).point = point) :
    PointOk s i (s.tasks i).made point := by
  have known := sound.tasks i
  rw [here] at known
  exact known

/-- Whoever is inside has the lock. -/
theorem Sound.settled_of_inside (sound : Sound r s) (here : (s.tasks i).point = .inside work) :
    s.settled = s.entered := by
  have locked : s.heapLock = some i := by
    apply (sound.inside_iff i).mpr
    rw [here]
    rfl
  exact if_neg (by simp [locked])

variable [DecidableEq ι]

/-- A step of another task disturbs no block. -/
theorem Sound.undisturbed (sound : Sound r s) (taken : SharedStep s event s')
    (other : i ≠ event.actor) (mine : s.Mine i block) : Undisturbed s s' i block := by
  obtain ⟨lay, valid⟩ := sound.valid
  -- a store of the actor goes to a block of its own
  have stored : ∀ {j : ι} {target : Block} {addr : Nat} (value : UInt8), i ≠ j →
      s.Mine j target → target.Contains addr → Undisturbed s (s.storeByte addr value) i block := by
    intro j target addr value apart isMine inside
    apply undisturbed_storeByte value valid isMine.1 inside mine
    intro same
    have owner := mine.2
    rw [same, isMine.2] at owner
    exact apart (Option.some.inj owner).symm
  cases taken with
  | call => exact ⟨mine, fun _ _ => rfl⟩
  | lock => exact ⟨mine, fun _ _ => rfl⟩
  | @scratch actor work addr value here apart =>
      have ok : SectionOk s actor (s.tasks actor).made work := by
        have known := sound.tasks actor
        rw [here] at known
        exact known
      refine ⟨mine, ?_⟩
      intro place inside
      apply Function.update_of_ne
      intro same
      subst same
      exact ok.frees_ne mine other (apart block mine.1 inside)
  | @unlock actor work here =>
      have ok : SectionOk s actor (s.tasks actor).made work := by
        have known := sound.tasks actor
        rw [here] at known
        exact known
      exact undisturbed_commit mine (ok.frees_ne mine other)
  | @clearByte actor ptr total done here more =>
      have known := sound.tasks actor
      rw [here] at known
      obtain ⟨-, ⟨target, isMine, rfl, enough⟩, -⟩ := known
      have still := stored 0 other isMine
        (target.contains_add (Nat.lt_of_lt_of_le more enough))
      exact ⟨still.mine, still.bytes⟩
  | cleared => exact ⟨mine, fun _ _ => rfl⟩
  | @copyByte actor ptr oldSize newPtr done here more =>
      have known := sound.tasks actor
      rw [here] at known
      obtain ⟨old, new, newSize, rfl, rfl, -, -, -, grows, room, -, copies⟩ := known
      have inside : done < new.size := by omega
      have still := stored (s.heap.mem (old.addr + done)) other copies.mine (new.contains_add inside)
      exact ⟨still.mine, still.bytes⟩
  | copied => exact ⟨mine, fun _ _ => rfl⟩
  | ret => exact ⟨mine, fun _ _ => rfl⟩
  | store value _ isMine inside => exact stored value other isMine inside
  | @give actor receiver given _ isMine =>
      refine ⟨⟨mine.1, ?_⟩, fun _ _ => rfl⟩
      have apart : block.addr ≠ given.addr := by
        intro same
        have owner := mine.2
        rw [same, isMine.2] at owner
        exact other (Option.some.inj owner).symm
      exact (Function.update_of_ne apart _ _).trans mine.2

/-- Only the actor goes on. -/
theorem SharedStep.tasks_other (taken : SharedStep s event s') (other : i ≠ event.actor) :
    s'.tasks i = s.tasks i := by
  cases taken with
  | call => exact Function.update_of_ne other _ _
  | lock => exact Function.update_of_ne other _ _
  | scratch => rfl
  | unlock => exact Function.update_of_ne other _ _
  | clearByte => exact Function.update_of_ne other _ _
  | cleared => exact Function.update_of_ne other _ _
  | copyByte => exact Function.update_of_ne other _ _
  | copied => exact Function.update_of_ne other _ _
  | ret => exact Function.update_of_ne other _ _
  | store => rfl
  | give => rfl

/-- The actor knows where it is after its step. -/
theorem Sound.pointOk_actor (small : r.Small) (sound : Sound r s) (taken : SharedStep s event s') :
    PointOk s' event.actor (s'.tasks event.actor).made (s'.tasks event.actor).point := by
  cases taken with
  | @call actor call outside allowed =>
      change PointOk _ actor (Function.update s.tasks actor _ actor).made
        (Function.update s.tasks actor _ actor).point
      rw [Function.update_self]
      exact (sound.pointOk_entry allowed).mono fun _ mine => ⟨mine, fun _ _ => rfl⟩
  | @lock actor work here unlocked =>
      apply pointOk_of_tasks (Function.update_self _ _ _)
      exact (sound.pointOk here).mono fun _ mine => ⟨mine, fun _ _ => rfl⟩
  | @scratch actor work addr value here apart =>
      have ok : SectionOk s actor (s.tasks actor).made work := sound.pointOk here
      change PointOk _ actor (s.tasks actor).made (s.tasks actor).point
      rw [here]
      refine SectionOk.mono ok (fun block mine => mine) ?_
      intro block mine kept
      refine ⟨mine, ?_⟩
      intro place inside
      apply Function.update_of_ne
      intro same
      subst same
      exact kept (apart block mine.1 inside)
  | @unlock actor work here =>
      have ok : SectionOk s actor (s.tasks actor).made work := sound.pointOk here
      have valid := sound.valid
      rw [sound.settled_of_inside here] at valid
      exact pointOk_of_tasks (Function.update_self _ _ _) (ok.pointOk_commit small valid)
  | @clearByte actor ptr total done here more =>
      obtain ⟨isCall, given, -, zero⟩ := sound.pointOk here
      have ok : PointOk (s.storeByte (ptr + done) 0) actor (s.tasks actor).made
          (.clear ptr total (done + 1)) := by
        refine ⟨isCall, given, more, ?_⟩
        intro k below
        change Function.update s.heap.mem (ptr + done) 0 (ptr + k) = 0
        by_cases last : k = done
        · rw [last, Function.update_self]
        · rw [Function.update_of_ne (by omega)]
          exact zero k (by omega)
      exact pointOk_moveTo _ ok
  | @cleared actor ptr total done here all =>
      obtain ⟨⟨num, size, isCall, isTotal⟩, given, -, zero⟩ := sound.pointOk here
      have ok : Answers s actor (s.tasks actor).made ptr := by
        unfold Answers
        rw [isCall]
        subst isTotal
        exact fun _ => ⟨given, fun k below => zero k (by omega)⟩
      exact pointOk_moveTo _ ok
  | @copyByte actor ptr oldSize newPtr done here more =>
      obtain ⟨block, new, newSize, rfl, rfl, reallocates, unchanged, rfl, grows, room, -, copies⟩ :=
        sound.pointOk here
      obtain ⟨lay, valid⟩ := sound.valid
      have different : block ≠ new := fun same => copies.apart (congrArg Block.addr same.symm)
      have inside : done < new.size := by omega
      have still := undisturbed_storeByte (s.heap.mem (block.addr + done)) valid
        copies.mine.1 (new.contains_add inside) reallocates.mine different
      have ok : PointOk (s.storeByte (new.addr + done) (s.heap.mem (block.addr + done))) actor
          (s.tasks actor).made (.copy block.addr block.size new.addr (done + 1)) := by
        refine ⟨block, new, newSize, rfl, rfl, reallocates.mono still.mine, unchanged.mono still, rfl,
          grows, room, more, copies.mine, copies.apart, ?_⟩
        intro k below
        change Function.update s.heap.mem (new.addr + done) (s.heap.mem (block.addr + done))
          (new.addr + k) = _
        by_cases last : k = done
        · rw [last, Function.update_self]
          exact unchanged _ (block.contains_add more)
        · rw [Function.update_of_ne (by omega)]
          exact copies.copied k (by omega)
      exact pointOk_moveTo _ ok
  | @copied actor ptr oldSize newPtr done here all =>
      obtain ⟨block, new, newSize, isAddr, isNew, reallocates, -, isOld, grows, room, within, copies⟩ :=
        sound.pointOk here
      have whole : done = block.size := by omega
      rw [whole] at copies
      rw [← isOld] at grows
      have ok : PointOk s actor (s.tasks actor).made (.lock (.reallocFree ptr newPtr)) :=
        ⟨block, new, newSize, isAddr, isNew, reallocates, grows, room, copies⟩
      exact pointOk_moveTo _ ok
  | @ret actor result here => exact pointOk_moveTo .outside trivial
  | @store actor block addr value outside mine inside =>
      change PointOk _ actor (s.tasks actor).made (s.tasks actor).point
      rw [outside]
      trivial
  | @give actor receiver block outside mine =>
      change PointOk _ actor (s.tasks actor).made (s.tasks actor).point
      rw [outside]
      trivial

/-- The lock is taken when nobody has it, and given back by the task inside. -/
theorem SharedStep.lock_cases (taken : SharedStep s event s') :
    (s'.heapLock = s.heapLock ∧ (s'.tasks event.actor).point.isInside =
        (s.tasks event.actor).point.isInside) ∨
      (s.heapLock = none ∧ s'.heapLock = some event.actor ∧
        (s'.tasks event.actor).point.isInside = true) ∨
      ((s.tasks event.actor).point.isInside = true ∧ s'.heapLock = none ∧
        (s'.tasks event.actor).point.isInside = false) := by
  have moved : ∀ (s : Shared ι) (i : ι) (point : Point),
      ((s.moveTo i point).tasks i).point = point := by
    intro s i point
    change (Function.update s.tasks i _ i).point = point
    rw [Function.update_self]
  cases taken with
  | @call actor call outside allowed =>
      refine Or.inl ⟨rfl, ?_⟩
      change (Function.update s.tasks actor _ actor).point.isInside = (s.tasks actor).point.isInside
      rw [Function.update_self, outside]
      exact call.entry_isInside
  | @lock actor work here unlocked =>
      exact Or.inr (Or.inl ⟨unlocked, rfl, congrArg Point.isInside (moved s actor (.inside work))⟩)
  | scratch => exact Or.inl ⟨rfl, rfl⟩
  | @unlock actor work here =>
      refine Or.inr (Or.inr ⟨congrArg Point.isInside here, rfl, ?_⟩)
      have next := congrArg Point.isInside
        (moved s actor (work.perform ⟨s.entered, s.live⟩).2)
      exact next.trans (work.perform_isInside _)
  | clearByte here =>
      exact Or.inl ⟨rfl, (congrArg Point.isInside (moved _ _ _)).trans
        (congrArg Point.isInside here).symm⟩
  | cleared here =>
      exact Or.inl ⟨rfl, (congrArg Point.isInside (moved _ _ _)).trans
        (congrArg Point.isInside here).symm⟩
  | copyByte here =>
      exact Or.inl ⟨rfl, (congrArg Point.isInside (moved _ _ _)).trans
        (congrArg Point.isInside here).symm⟩
  | copied here =>
      exact Or.inl ⟨rfl, (congrArg Point.isInside (moved _ _ _)).trans
        (congrArg Point.isInside here).symm⟩
  | ret here =>
      exact Or.inl ⟨rfl, (congrArg Point.isInside (moved _ _ _)).trans
        (congrArg Point.isInside here).symm⟩
  | store => exact Or.inl ⟨rfl, rfl⟩
  | give => exact Or.inl ⟨rfl, rfl⟩

theorem Sound.inside_iff_target (sound : Sound r s) (taken : SharedStep s event s') (i : ι) :
    s'.heapLock = some i ↔ (s'.tasks i).point.isInside = true := by
  have before := sound.inside_iff i
  by_cases other : i = event.actor
  · subst other
    obtain ⟨sameLock, same⟩ | ⟨-, locked, inside⟩ | ⟨-, unlocked, outside⟩ := taken.lock_cases
    · rw [sameLock, same]
      exact before
    · simp [locked, inside]
    · simp [unlocked, outside]
  · rw [taken.tasks_other other]
    have apart : event.actor ≠ i := fun same => other same.symm
    obtain ⟨sameLock, -⟩ | ⟨wasFree, locked, -⟩ | ⟨wasInside, unlocked, -⟩ := taken.lock_cases
    · rw [sameLock]
      exact before
    · rw [wasFree] at before
      rw [locked]
      simpa [apart] using before
    · rw [(sound.inside_iff event.actor).mpr wasInside] at before
      rw [unlocked]
      simpa [apart] using before

/-- The heap stays sound. -/
theorem Sound.valid_target (sound : Sound r s) (taken : SharedStep s event s') :
    ∃ lay, Valid r lay ⟨s'.settled, s'.live⟩ := by
  have valid := sound.valid
  cases taken with
  | call => exact valid
  | lock here unlocked =>
      have isHeap : s.settled = s.heap := if_pos unlocked
      rw [isHeap] at valid
      exact valid
  | @scratch actor work addr value here apart =>
      have locked : s.heapLock ≠ none := by
        rw [(sound.inside_iff actor).mpr (congrArg Point.isInside here)]
        nofun
      have isEntered : (s.storeByte addr value).settled = s.entered := if_neg locked
      rw [isEntered]
      rw [sound.settled_of_inside here] at valid
      exact valid
  | @unlock actor work here =>
      have ok : SectionOk s actor (s.tasks actor).made work := sound.pointOk here
      rw [sound.settled_of_inside here] at valid
      exact valid_commit (ok.valid_perform valid)
  | @clearByte actor ptr total done here more =>
      obtain ⟨-, ⟨target, mine, rfl, enough⟩, -⟩ := sound.pointOk here
      exact valid_storeByte 0 valid mine.1 (target.contains_add (Nat.lt_of_lt_of_le more enough))
  | cleared => exact valid
  | @copyByte actor ptr oldSize newPtr done here more =>
      obtain ⟨old, new, newSize, rfl, rfl, -, -, -, grows, room, -, copies⟩ := sound.pointOk here
      have inside : done < new.size := by omega
      exact valid_storeByte _ valid copies.mine.1 (new.contains_add inside)
  | copied => exact valid
  | ret => exact valid
  | store value outside mine inside => exact valid_storeByte value valid mine.1 inside
  | give => exact valid

theorem Sound.step (small : r.Small) (sound : Sound r s) (taken : SharedStep s event s') :
    Sound r s' where
  valid := sound.valid_target taken
  inside_iff := sound.inside_iff_target taken
  tasks := by
    intro i
    by_cases other : i = event.actor
    · subst other
      exact sound.pointOk_actor small taken
    · rw [taken.tasks_other other]
      exact (sound.tasks i).mono fun block mine => sound.undisturbed taken other mine

/-- Blocks keep apart, their tasks have them to themselves, and calls answer as alone.
While nobody is inside the blocks are also apart from the metadata. -/
structure SharedSafe (transition : Transition (Shared ι) (SharedEvent ι)) : Prop where
  alone : ∀ i j, (transition.target.tasks i).point.isInside = true →
    (transition.target.tasks j).point.isInside = true → i = j
  apart : transition.target.live.Pairwise Block.Apart
  blocks : transition.target.heapLock = none → ∀ block ∈ transition.target.live,
    BlockSafe transition.target.heap block
  undisturbed : ∀ i block, i ≠ transition.label.actor → transition.source.Mine i block →
    Undisturbed transition.source transition.target i block
  answers : ∀ i result, transition.label = .ret i result →
    Answers transition.source i (transition.source.tasks i).made result
  blind : ∀ i work, (transition.source.tasks i).point = .inside work → ∀ mem : Memory,
    (∀ addr, (∀ block ∈ transition.source.live, ¬ block.Contains addr) →
      mem addr = transition.source.entered.mem addr) →
    (work.perform ⟨{ transition.source.entered with mem := mem }, transition.source.live⟩).2 =
      (work.perform ⟨transition.source.entered, transition.source.live⟩).2

theorem Sound.safe (small : r.Small) (sound : Sound r s) (taken : SharedStep s event s') :
    SharedSafe ⟨s, event, s'⟩ := by
  have after := sound.step small taken
  obtain ⟨lay, valid⟩ := after.valid
  refine ⟨?_, valid.apart, ?_, fun i block other mine => sound.undisturbed taken other mine, ?_, ?_⟩
  · intro i j first second
    rw [← after.inside_iff] at first second
    exact Option.some.inj (first.symm.trans second)
  · intro unlocked block member
    have isHeap : s'.settled = s'.heap := if_pos unlocked
    rw [isHeap] at valid
    exact valid.blockSafe small member
  · intro i result isRet
    cases isRet
    cases taken with
    | ret here => exact sound.pointOk here
  · intro i work here mem same
    have ok : SectionOk s i (s.tasks i).made work := sound.pointOk here
    have entered := sound.valid
    rw [sound.settled_of_inside here] at entered
    exact ok.perform_stores entered same

end Steps

/-! ### Runs -/

variable {start size : Nat}

theorem sound_init (given : GivenRegion start size) (h : State) (cachesNonzero : 0 < h.cachesAddr)
    (cachesFit : h.cachesAddr + numCacheSizes * cacheStructSize ≤ 2 ^ 64) :
    Sound given.accepted.region (Shared.init (heapInit start size h) : Shared ι) where
  valid := ⟨_, valid_init given.accepted h cachesNonzero cachesFit⟩
  inside_iff _ := by simp [Shared.init, Point.isInside]
  tasks _ := trivial

/-- Whatever the tasks do with their blocks, and in whatever order. -/
theorem heap_shared [DecidableEq ι] {path : List (Transition (Shared ι) (SharedEvent ι))}
    {last : Shared ι} (given : GivenRegion start size) (h : State) (cachesNonzero : 0 < h.cachesAddr)
    (cachesFit : h.cachesAddr + numCacheSizes * cacheStructSize ≤ 2 ^ 64)
    (run : Execution SharedStep (Shared.init (heapInit start size h)) path last) :
    ∀ transition ∈ path, SharedSafe transition := by
  have reached := run.invariant_transitions (sound_init given h cachesNonzero cachesFit)
    fun _ _ _ sound taken => sound.step given.small taken
  intro transition member
  exact (reached transition member).1.safe given.small (run.step_of_mem member)

/-- Two tasks allocate at once; one fills its block and the other frees it. -/
theorem exists_shared_run {h : State} (result : (malloc 2048 h).1 = 8232) :
    ∃ path, ∃ last : Shared Bool, Execution SharedStep (Shared.init h) path last ∧
      path.map (·.label) = [.call true (.malloc 2048), .call false (.malloc 0), .lock true,
        .unlock true, .ret false 0, .ret true 8232, .store true, .give true false,
        .call false (.free 8232), .lock false, .unlock false, .ret false 0] := by
  let block := Block.new 8232 2048
  have isLive : block ∈ addBlock (malloc 2048 h).1 2048 [] := by
    rw [result]
    exact List.mem_cons_self
  have run := Execution.single
    (@SharedStep.call Bool _ (.init h) true (.malloc 2048) rfl (show 2048 < 2 ^ 64 by decide))
  replace run := run.snoc
    (@SharedStep.call Bool _ _ false (.malloc 0) rfl (show 0 < 2 ^ 64 by decide))
  replace run := run.snoc (@SharedStep.lock Bool _ _ true _ rfl rfl)
  replace run := run.snoc (@SharedStep.unlock Bool _ _ true _ rfl)
  replace run := run.snoc (@SharedStep.ret Bool _ _ false 0 rfl)
  replace run := run.snoc (@SharedStep.ret Bool _ _ true 8232 (congrArg Point.ret result))
  replace run := run.snoc
    (@SharedStep.store Bool _ _ true block 8240 7 rfl ⟨isLive, rfl⟩ (by decide))
  replace run := run.snoc (@SharedStep.give Bool _ _ true false block rfl ⟨isLive, rfl⟩)
  replace run := run.snoc
    (@SharedStep.call Bool _ _ false (.free 8232) rfl (Or.inr ⟨block, ⟨isLive, rfl⟩, rfl⟩))
  replace run := run.snoc (@SharedStep.lock Bool _ _ false _ rfl rfl)
  replace run := run.snoc (@SharedStep.unlock Bool _ _ false _ rfl)
  exact ⟨_, _, run.snoc (@SharedStep.ret Bool _ _ false 0 rfl), rfl⟩

/-- In a heap of two pages. -/
theorem heap_shared_two_pages :
    ∃ path, ∃ last : Shared Bool,
      Execution SharedStep (Shared.init (heapInit 4096 8192 noHeap)) path last ∧
      path.map (·.label) = [.call true (.malloc 2048), .call false (.malloc 0), .lock true,
        .unlock true, .ret false 0, .ret true 8232, .store true, .give true false,
        .call false (.free 8232), .lock false, .unlock false, .ret false 0] ∧
      ∀ transition ∈ path, SharedSafe transition := by
  obtain ⟨path, last, run, labels⟩ := exists_shared_run malloc_twoPages
  exact ⟨path, last, run, labels,
    heap_shared ⟨by decide, by decide, by decide⟩ noHeap (by decide) (by decide) run⟩

end UniKernel.Heap
