import Mathlib.Algebra.Ring.Nat
import Mathlib.Data.Nat.Bitwise
import UniKernel.Lib.LinkedList
import UniKernel.Pthread.Model

/-!
Owns the runqueues as lists. `Queued s queue` says that the queue of each
priority holds the list `queue p` and that the bits of `active_priorities` name
the queues that are not empty. Enqueueing appends to one list, dequeueing a
member takes it out of its list, and dequeueing a task that is in no queue
changes no list.
-/

namespace UniKernel.Pthread

open UniKernel.Lib

/-- The fields of a task other than its links. -/
def Task.unlinked (task : Task) : Task := { task with next := 0, prev := 0 }

namespace State

variable {s : State} {t a prio value : Nat} {state : TaskState} {context : Context}

/-! ### Fields after the small updates -/

theorem tasks_setTask (task : Task) :
    (s.setTask t task).tasks a = if a = t then task else s.tasks a := by
  simp [setTask, Function.update_apply]

@[simp] theorem tasks_setLock {taken : Bool} : (s.setLock taken).tasks = s.tasks := rfl

@[simp] theorem tasks_setTaskToFree {c : Core} : (s.setTaskToFree c t).tasks = s.tasks := rfl

@[simp] theorem tasks_setCurrent {c : Core} : (s.setCurrent c t).tasks = s.tasks := rfl

/-- A field that an update of one struct leaves alone. -/
theorem field_setTask {α : Type} (field : Task → α) {task : Task}
    (same : field task = field (s.tasks t)) :
    field ((s.setTask t task).tasks a) = field (s.tasks a) := by
  rw [tasks_setTask]
  split
  · next here => rw [here, same]
  · rfl

@[simp] theorem next_setNext : (s.setNext t value).next a = if a = t then value else s.next a := by
  simp only [next, setNext, tasks_setTask]
  split <;> rfl

@[simp] theorem prev_setNext : (s.setNext t value).prev a = s.prev a :=
  field_setTask Task.prev rfl

@[simp] theorem next_setPrev : (s.setPrev t value).next a = s.next a :=
  field_setTask Task.next rfl

@[simp] theorem prev_setPrev : (s.setPrev t value).prev a = if a = t then value else s.prev a := by
  simp only [prev, setPrev, tasks_setTask]
  split <;> rfl

@[simp] theorem next_setHead : (s.setHead prio t).next a = s.next a := rfl

@[simp] theorem prev_setHead : (s.setHead prio t).prev a = s.prev a := rfl

@[simp] theorem next_setTail : (s.setTail prio t).next a = s.next a := rfl

@[simp] theorem prev_setTail : (s.setTail prio t).prev a = s.prev a := rfl

@[simp] theorem next_markActive : (s.markActive prio).next a = s.next a := rfl

@[simp] theorem prev_markActive : (s.markActive prio).prev a = s.prev a := rfl

@[simp] theorem next_markInactive : (s.markInactive prio).next a = s.next a := rfl

@[simp] theorem prev_markInactive : (s.markInactive prio).prev a = s.prev a := rfl

@[simp] theorem unlinked_setNext :
    ((s.setNext t value).tasks a).unlinked = (s.tasks a).unlinked :=
  field_setTask Task.unlinked rfl

@[simp] theorem unlinked_setPrev :
    ((s.setPrev t value).tasks a).unlinked = (s.tasks a).unlinked :=
  field_setTask Task.unlinked rfl

/-! ### Enqueueing, field by field -/

theorem schedEnqueueTask_of_empty (noHead : s.runqueues (s.priority t) = 0) :
    s.schedEnqueueTask t =
      ((((s.setNext t 0).setPrev t 0).setHead (s.priority t) t).setTail (s.priority t) t).markActive
        (s.priority t) := by
  simp only [schedEnqueueTask]
  rw [if_pos (by exact noHead)]

theorem schedEnqueueTask_of_nonempty (someHead : s.runqueues (s.priority t) ≠ 0) :
    s.schedEnqueueTask t =
      (((((s.setNext t 0).setPrev t 0).setPrev t (s.runqueuesTail (s.priority t))).setNext
        (s.runqueuesTail (s.priority t)) t).setTail (s.priority t) t).markActive (s.priority t) := by
  simp only [schedEnqueueTask]
  rw [if_neg (by exact someHead)]
  rfl

theorem next_schedEnqueueTask :
    (s.schedEnqueueTask t).next a =
      if s.runqueues (s.priority t) ≠ 0 ∧ a = s.runqueuesTail (s.priority t) then t
      else if a = t then 0 else s.next a := by
  by_cases noHead : s.runqueues (s.priority t) = 0
  · rw [schedEnqueueTask_of_empty noHead]
    simp [noHead]
  · rw [schedEnqueueTask_of_nonempty noHead]
    simp [noHead]

theorem prev_schedEnqueueTask :
    (s.schedEnqueueTask t).prev a =
      if a = t then (if s.runqueues (s.priority t) = 0 then 0 else s.runqueuesTail (s.priority t))
      else s.prev a := by
  by_cases noHead : s.runqueues (s.priority t) = 0
  · rw [schedEnqueueTask_of_empty noHead]
    simp [noHead]
  · rw [schedEnqueueTask_of_nonempty noHead]
    by_cases here : a = t <;> simp [noHead, here]

theorem runqueues_schedEnqueueTask :
    (s.schedEnqueueTask t).runqueues =
      Function.update s.runqueues (s.priority t)
        (if s.runqueues (s.priority t) = 0 then t else s.runqueues (s.priority t)) := by
  by_cases noHead : s.runqueues (s.priority t) = 0
  · rw [schedEnqueueTask_of_empty noHead, if_pos noHead]
    rfl
  · rw [schedEnqueueTask_of_nonempty noHead, if_neg noHead, Function.update_eq_self]
    rfl

theorem runqueuesTail_schedEnqueueTask :
    (s.schedEnqueueTask t).runqueuesTail = Function.update s.runqueuesTail (s.priority t) t := by
  by_cases noHead : s.runqueues (s.priority t) = 0
  · rw [schedEnqueueTask_of_empty noHead]
    rfl
  · rw [schedEnqueueTask_of_nonempty noHead]
    rfl

theorem activePriorities_schedEnqueueTask :
    (s.schedEnqueueTask t).activePriorities = s.activePriorities ||| 1 <<< s.priority t := by
  by_cases noHead : s.runqueues (s.priority t) = 0
  · rw [schedEnqueueTask_of_empty noHead]
    rfl
  · rw [schedEnqueueTask_of_nonempty noHead]
    rfl

/-- Enqueueing writes links only. -/
theorem unlinked_schedEnqueueTask :
    ((s.schedEnqueueTask t).tasks a).unlinked = (s.tasks a).unlinked := by
  by_cases noHead : s.runqueues (s.priority t) = 0
  · rw [schedEnqueueTask_of_empty noHead]
    exact unlinked_setPrev.trans unlinked_setNext
  · rw [schedEnqueueTask_of_nonempty noHead]
    exact unlinked_setNext.trans (unlinked_setPrev.trans (unlinked_setPrev.trans unlinked_setNext))

@[simp] theorem cores_schedEnqueueTask : (s.schedEnqueueTask t).cores = s.cores := by
  by_cases noHead : s.runqueues (s.priority t) = 0
  · rw [schedEnqueueTask_of_empty noHead]
    rfl
  · rw [schedEnqueueTask_of_nonempty noHead]
    rfl

@[simp] theorem schedLock_schedEnqueueTask : (s.schedEnqueueTask t).schedLock = s.schedLock := by
  by_cases noHead : s.runqueues (s.priority t) = 0
  · rw [schedEnqueueTask_of_empty noHead]
    rfl
  · rw [schedEnqueueTask_of_nonempty noHead]
    rfl

/-! ### Dequeueing, field by field -/

/-- The predecessor of `t`, or the head of its queue, skips `t`. -/
def skipForward (prio t : Nat) (s : State) : State :=
  if s.prev t ≠ 0 then s.setNext (s.prev t) (s.next t)
  else if s.runqueues prio = t then s.setHead prio (s.next t) else s

/-- The successor of `t`, or the tail of its queue, skips `t`. -/
def skipBack (prio t : Nat) (s : State) : State :=
  if s.next t ≠ 0 then s.setPrev (s.next t) (s.prev t)
  else if s.runqueuesTail prio = t then s.setTail prio (s.prev t) else s

/-- The state in which `t` is skipped and its own links are cleared. -/
def detach (t : Nat) (s : State) : State :=
  (((s.skipForward (s.priority t) t).skipBack (s.priority t) t).setNext t 0).setPrev t 0

theorem schedDequeueTask_eq :
    s.schedDequeueTask t =
      if (s.detach t).runqueues (s.priority t) = 0 then (s.detach t).markInactive (s.priority t)
      else s.detach t :=
  rfl

theorem next_skipForward :
    (s.skipForward prio t).next a = if s.prev t ≠ 0 ∧ a = s.prev t then s.next t else s.next a := by
  unfold skipForward
  by_cases noPrev : s.prev t = 0
  · simp only [noPrev, ne_eq, not_true_eq_false, false_and, if_false]
    split <;> rfl
  · simp [noPrev]

theorem prev_skipForward : (s.skipForward prio t).prev a = s.prev a := by
  unfold skipForward
  split_ifs <;> simp

theorem runqueues_skipForward :
    (s.skipForward prio t).runqueues =
      if s.prev t = 0 ∧ s.runqueues prio = t then Function.update s.runqueues prio (s.next t)
      else s.runqueues := by
  unfold skipForward
  by_cases noPrev : s.prev t = 0 <;> by_cases isHead : s.runqueues prio = t <;>
    simp [noPrev, isHead] <;> rfl

theorem runqueuesTail_skipForward : (s.skipForward prio t).runqueuesTail = s.runqueuesTail := by
  unfold skipForward
  split_ifs <;> rfl

theorem next_skipBack : (s.skipBack prio t).next a = s.next a := by
  unfold skipBack
  split_ifs <;> simp

theorem prev_skipBack :
    (s.skipBack prio t).prev a = if s.next t ≠ 0 ∧ a = s.next t then s.prev t else s.prev a := by
  unfold skipBack
  by_cases noNext : s.next t = 0
  · simp only [noNext, ne_eq, not_true_eq_false, false_and, if_false]
    split <;> rfl
  · simp [noNext]

theorem runqueues_skipBack : (s.skipBack prio t).runqueues = s.runqueues := by
  unfold skipBack
  split_ifs <;> rfl

theorem runqueuesTail_skipBack (prio t : Nat) (s : State) :
    (s.skipBack prio t).runqueuesTail =
      if s.next t = 0 ∧ s.runqueuesTail prio = t then
        Function.update s.runqueuesTail prio (s.prev t)
      else s.runqueuesTail := by
  unfold skipBack
  by_cases noNext : s.next t = 0 <;> by_cases isTail : s.runqueuesTail prio = t <;>
    simp [noNext, isTail] <;> rfl

theorem next_skipForward_self : (s.skipForward prio t).next t = s.next t := by
  rw [next_skipForward]
  split
  · rfl
  · rfl

theorem next_schedDequeueTask :
    (s.schedDequeueTask t).next a =
      if a = t then 0 else if s.prev t ≠ 0 ∧ a = s.prev t then s.next t else s.next a := by
  have detached : (s.detach t).next a =
      if a = t then 0 else if s.prev t ≠ 0 ∧ a = s.prev t then s.next t else s.next a := by
    simp only [detach, next_setPrev, next_setNext, next_skipBack, next_skipForward]
  rw [schedDequeueTask_eq]
  split
  · rwa [next_markInactive]
  · exact detached

theorem prev_schedDequeueTask :
    (s.schedDequeueTask t).prev a =
      if a = t then 0 else if s.next t ≠ 0 ∧ a = s.next t then s.prev t else s.prev a := by
  have detached : (s.detach t).prev a =
      if a = t then 0 else if s.next t ≠ 0 ∧ a = s.next t then s.prev t else s.prev a := by
    simp only [detach, prev_setPrev, prev_setNext, prev_skipBack, next_skipForward_self,
      prev_skipForward]
  rw [schedDequeueTask_eq]
  split
  · rwa [prev_markInactive]
  · exact detached

theorem runqueues_detach :
    (s.detach t).runqueues =
      if s.prev t = 0 ∧ s.runqueues (s.priority t) = t then
        Function.update s.runqueues (s.priority t) (s.next t)
      else s.runqueues :=
  runqueues_skipBack.trans runqueues_skipForward

theorem runqueues_schedDequeueTask :
    (s.schedDequeueTask t).runqueues =
      if s.prev t = 0 ∧ s.runqueues (s.priority t) = t then
        Function.update s.runqueues (s.priority t) (s.next t)
      else s.runqueues := by
  rw [← runqueues_detach, schedDequeueTask_eq]
  split <;> rfl

theorem runqueuesTail_schedDequeueTask :
    (s.schedDequeueTask t).runqueuesTail =
      if s.next t = 0 ∧ s.runqueuesTail (s.priority t) = t then
        Function.update s.runqueuesTail (s.priority t) (s.prev t)
      else s.runqueuesTail := by
  have detached : (s.detach t).runqueuesTail =
      if s.next t = 0 ∧ s.runqueuesTail (s.priority t) = t then
        Function.update s.runqueuesTail (s.priority t) (s.prev t)
      else s.runqueuesTail := by
    have skipped := runqueuesTail_skipBack (s.priority t) t (s.skipForward (s.priority t) t)
    rwa [next_skipForward_self, prev_skipForward, runqueuesTail_skipForward] at skipped
  rw [schedDequeueTask_eq]
  split
  · exact detached
  · exact detached

theorem activePriorities_schedDequeueTask :
    (s.schedDequeueTask t).activePriorities =
      if (s.schedDequeueTask t).runqueues (s.priority t) = 0 then
        s.activePriorities &&& ((2 ^ 32 - 1) ^^^ 1 <<< s.priority t)
      else s.activePriorities := by
  have detached : (s.detach t).activePriorities = s.activePriorities := by
    unfold detach skipBack skipForward
    split_ifs <;> rfl
  have sameQueues : (s.schedDequeueTask t).runqueues = (s.detach t).runqueues :=
    runqueues_schedDequeueTask.trans runqueues_detach.symm
  rw [sameQueues, schedDequeueTask_eq, ← detached]
  split <;> rfl

/-- Dequeueing writes links only. -/
theorem unlinked_schedDequeueTask :
    ((s.schedDequeueTask t).tasks a).unlinked = (s.tasks a).unlinked := by
  have forward : ((s.skipForward (s.priority t) t).tasks a).unlinked = (s.tasks a).unlinked := by
    unfold skipForward
    split_ifs
    · exact unlinked_setNext
    · rfl
    · rfl
  have back : (((s.skipForward (s.priority t) t).skipBack (s.priority t) t).tasks a).unlinked =
      (s.tasks a).unlinked := by
    unfold skipBack
    split_ifs
    · exact unlinked_setPrev.trans forward
    · exact forward
    · exact forward
  have detached : ((s.detach t).tasks a).unlinked = (s.tasks a).unlinked :=
    unlinked_setPrev.trans (unlinked_setNext.trans back)
  rw [schedDequeueTask_eq]
  split
  · exact detached
  · exact detached

@[simp] theorem cores_schedDequeueTask : (s.schedDequeueTask t).cores = s.cores := by
  unfold schedDequeueTask
  dsimp only
  split_ifs <;> rfl

@[simp] theorem schedLock_schedDequeueTask : (s.schedDequeueTask t).schedLock = s.schedLock := by
  unfold schedDequeueTask
  dsimp only
  split_ifs <;> rfl

/-! ### Fields that neither of the two changes -/

theorem field_schedEnqueueTask {α : Type} (field : Task → α)
    (noLink : ∀ task, field task.unlinked = field task) :
    field ((s.schedEnqueueTask t).tasks a) = field (s.tasks a) := by
  rw [← noLink, unlinked_schedEnqueueTask, noLink]

theorem field_schedDequeueTask {α : Type} (field : Task → α)
    (noLink : ∀ task, field task.unlinked = field task) :
    field ((s.schedDequeueTask t).tasks a) = field (s.tasks a) := by
  rw [← noLink, unlinked_schedDequeueTask, noLink]

@[simp] theorem state_schedEnqueueTask : (s.schedEnqueueTask t).state a = s.state a :=
  field_schedEnqueueTask Task.state fun _ => rfl

@[simp] theorem priority_schedEnqueueTask : (s.schedEnqueueTask t).priority a = s.priority a :=
  field_schedEnqueueTask Task.priority fun _ => rfl

@[simp] theorem state_schedDequeueTask : (s.schedDequeueTask t).state a = s.state a :=
  field_schedDequeueTask Task.state fun _ => rfl

@[simp] theorem priority_schedDequeueTask : (s.schedDequeueTask t).priority a = s.priority a :=
  field_schedDequeueTask Task.priority fun _ => rfl

end State

/-! ### The queues as lists -/

/-- The runqueue of each priority `p` holds the tasks `queue p`. -/
structure Queued (s : State) (queue : Nat → List Nat) : Prop where
  linked : ∀ p, Linked s.next s.prev (s.runqueues p) (s.runqueuesTail p) (queue p)
  priority : ∀ p, ∀ t ∈ queue p, s.priority t = p
  active : ∀ p, s.activePriorities.testBit p = true ↔ queue p ≠ []
  bounded : ∀ p, priorityCount ≤ p → queue p = []

/-- The lists once `t` is appended to that of priority `prio`. -/
def pushTo (queue : Nat → List Nat) (prio t : Nat) : Nat → List Nat :=
  Function.update queue prio (queue prio ++ [t])

/-- The lists once `t` is taken out of that of priority `prio`. -/
def removeFrom (queue : Nat → List Nat) (prio t : Nat) : Nat → List Nat :=
  Function.update queue prio ((queue prio).erase t)

namespace Queued

variable {s s' : State} {queue : Nat → List Nat} {t a p prio : Nat}

theorem ne_zero (queued : Queued s queue) (member : t ∈ queue p) : t ≠ 0 :=
  (queued.linked p).segment.ne_zero member

/-- A task is in no other queue than that of its priority. -/
theorem notMem (queued : Queued s queue) (member : t ∈ queue prio) (other : p ≠ prio) :
    t ∉ queue p := by
  intro both
  exact other ((queued.priority p t both).symm.trans (queued.priority prio t member))

theorem inRange (queued : Queued s queue) (member : t ∈ queue p) : p < priorityCount := by
  by_contra outside
  rw [queued.bounded p (Nat.le_of_not_lt outside)] at member
  cases member

/-- The queues are read through the links and priorities of their tasks, the
heads, the tails and the bits. -/
theorem congr (queued : Queued s queue)
    (sameNext : ∀ p, ∀ t ∈ queue p, s'.next t = s.next t)
    (samePrev : ∀ p, ∀ t ∈ queue p, s'.prev t = s.prev t)
    (samePriority : ∀ p, ∀ t ∈ queue p, s'.priority t = s.priority t)
    (sameHeads : s'.runqueues = s.runqueues) (sameTails : s'.runqueuesTail = s.runqueuesTail)
    (sameActive : s'.activePriorities = s.activePriorities) :
    Queued s' queue := by
  refine ⟨?_, ?_, ?_, queued.bounded⟩
  · intro p
    rw [sameHeads, sameTails]
    exact (queued.linked p).congr (sameNext p) (samePrev p)
  · intro p t member
    rw [samePriority p t member]
    exact queued.priority p t member
  · intro p
    rw [sameActive]
    exact queued.active p

/-- The bits of `active_priorities &= ~(1 << prio)`. -/
theorem testBit_cleared (word prio p : Nat) :
    (word &&& ((2 ^ 32 - 1) ^^^ 1 <<< prio)).testBit p = true ↔
      if p = prio then word.testBit p = true ∧ 32 ≤ p else word.testBit p = true ∧ p < 32 := by
  rw [Nat.testBit_and, Nat.testBit_xor, Nat.testBit_two_pow_sub_one, Nat.one_shiftLeft,
    Nat.testBit_two_pow]
  by_cases here : p = prio
  · simp [here]
  · simp [here, Ne.symm here]

theorem enqueue (queued : Queued s queue) (nonzero : t ≠ 0) (unqueued : ∀ p, t ∉ queue p)
    (small : s.priority t < priorityCount) :
    Queued (s.schedEnqueueTask t) (pushTo queue (s.priority t) t) := by
  have ownList := queued.linked (s.priority t)
  have tailMem : s.runqueues (s.priority t) ≠ 0 →
      s.runqueuesTail (s.priority t) ∈ queue (s.priority t) := fun someHead =>
    ownList.tail_mem fun isEmpty => someHead (ownList.head_eq_zero_iff.mpr isEmpty)
  have prevNew : (s.schedEnqueueTask t).prev t = s.runqueuesTail (s.priority t) := by
    rw [State.prev_schedEnqueueTask, if_pos rfl]
    split
    · next noHead =>
        rw [ownList.tail_eq, ownList.head_eq_zero_iff.mp noHead]
        rfl
    · rfl
  have prevOld : ∀ p, ∀ a ∈ queue p, (s.schedEnqueueTask t).prev a = s.prev a := by
    intro p a member
    rw [State.prev_schedEnqueueTask, if_neg]
    intro same
    exact unqueued p (same ▸ member)
  refine ⟨?_, ?_, ?_, ?_⟩
  · intro p
    rw [State.runqueues_schedEnqueueTask, State.runqueuesTail_schedEnqueueTask]
    by_cases here : p = s.priority t
    · subst here
      simp only [pushTo, Function.update_self]
      apply ownList.pushBack nonzero (unqueued _)
      · intro a member notTail
        rw [State.next_schedEnqueueTask, if_neg (fun isTail => notTail isTail.2), if_neg]
        intro same
        exact unqueued _ (same ▸ member)
      · exact prevOld _
      · intro nonempty
        rw [State.next_schedEnqueueTask, if_pos]
        exact ⟨fun noHead => nonempty (ownList.head_eq_zero_iff.mp noHead), rfl⟩
      · rw [State.next_schedEnqueueTask, if_neg, if_pos rfl]
        rintro ⟨someHead, isTail⟩
        have queuedTail := tailMem someHead
        rw [← isTail] at queuedTail
        exact unqueued _ queuedTail
      · exact prevNew
    · simp only [pushTo, Function.update_of_ne here]
      apply (queued.linked p).congr
      · intro a member
        rw [State.next_schedEnqueueTask, if_neg, if_neg]
        · intro same
          exact unqueued p (same ▸ member)
        · rintro ⟨someHead, isTail⟩
          exact queued.notMem (tailMem someHead) here (isTail ▸ member)
      · exact prevOld p
  · intro p a member
    rw [State.priority_schedEnqueueTask]
    by_cases here : p = s.priority t
    · subst here
      simp only [pushTo, Function.update_self, List.mem_append, List.mem_singleton] at member
      rcases member with old | rfl
      · exact queued.priority _ a old
      · rfl
    · simp only [pushTo, Function.update_of_ne here] at member
      exact queued.priority p a member
  · intro p
    rw [State.activePriorities_schedEnqueueTask, Nat.testBit_or, Nat.one_shiftLeft,
      Nat.testBit_two_pow, Bool.or_eq_true, queued.active, decide_eq_true_iff]
    by_cases here : p = s.priority t
    · subst here
      simp [pushTo]
    · simp only [pushTo, Function.update_of_ne here]
      exact or_iff_left (Ne.symm here)
  · intro p outside
    have here : p ≠ s.priority t := by omega
    rw [pushTo, Function.update_of_ne here]
    exact queued.bounded p outside

theorem dequeue (queued : Queued s queue) (member : t ∈ queue prio) :
    Queued (s.schedDequeueTask t) (removeFrom queue prio t) := by
  have own : s.priority t = prio := queued.priority prio t member
  subst own
  have ownList := queued.linked (s.priority t)
  have small := queued.inRange member
  have heads : (s.schedDequeueTask t).runqueues =
      Function.update s.runqueues (s.priority t)
        (if s.prev t = 0 then s.next t else s.runqueues (s.priority t)) := by
    rw [State.runqueues_schedDequeueTask]
    by_cases first : s.prev t = 0
    · rw [if_pos ⟨first, (ownList.prev_eq_zero_iff member).mp first⟩, if_pos first]
    · rw [if_neg (fun both => first both.1), if_neg first, Function.update_eq_self]
  have tails : (s.schedDequeueTask t).runqueuesTail =
      Function.update s.runqueuesTail (s.priority t)
        (if s.next t = 0 then s.prev t else s.runqueuesTail (s.priority t)) := by
    rw [State.runqueuesTail_schedDequeueTask]
    by_cases final : s.next t = 0
    · rw [if_pos ⟨final, (ownList.next_eq_zero_iff member).mp final⟩, if_pos final]
    · rw [if_neg (fun both => final both.1), if_neg final, Function.update_eq_self]
  have linked : ∀ p, Linked (s.schedDequeueTask t).next (s.schedDequeueTask t).prev
      ((s.schedDequeueTask t).runqueues p) ((s.schedDequeueTask t).runqueuesTail p)
      (removeFrom queue (s.priority t) t p) := by
    intro p
    rw [heads, tails]
    by_cases here : p = s.priority t
    · subst here
      simp only [removeFrom, Function.update_self]
      apply ownList.unlink member
      · intro a _ notSelf notPrev
        rw [State.next_schedDequeueTask, if_neg notSelf, if_neg (fun both => notPrev both.2)]
      · intro a _ notSelf notNext
        rw [State.prev_schedDequeueTask, if_neg notSelf, if_neg (fun both => notNext both.2)]
      · intro hasPrev
        rw [State.next_schedDequeueTask, if_neg, if_pos ⟨hasPrev, rfl⟩]
        exact ownList.prev_ne member
      · intro hasNext
        rw [State.prev_schedDequeueTask, if_neg, if_pos ⟨hasNext, rfl⟩]
        exact ownList.next_ne member
    · simp only [removeFrom, Function.update_of_ne here]
      have elsewhere : ∀ a ∈ queue p, ∀ other ∈ queue (s.priority t), a ≠ other := by
        intro a inOther other inOwn same
        exact queued.notMem inOwn here (same ▸ inOther)
      apply (queued.linked p).congr
      · intro a inOther
        rw [State.next_schedDequeueTask, if_neg (elsewhere a inOther t member), if_neg]
        rintro ⟨hasPrev, isPrev⟩
        exact elsewhere a inOther _ (ownList.prev_mem member hasPrev) isPrev
      · intro a inOther
        rw [State.prev_schedDequeueTask, if_neg (elsewhere a inOther t member), if_neg]
        rintro ⟨hasNext, isNext⟩
        exact elsewhere a inOther _ (ownList.next_mem member hasNext) isNext
  refine ⟨linked, ?_, ?_, ?_⟩
  · intro p a remaining
    rw [State.priority_schedDequeueTask]
    by_cases here : p = s.priority t
    · subst here
      simp only [removeFrom, Function.update_self] at remaining
      exact queued.priority _ a (List.mem_of_mem_erase remaining)
    · simp only [removeFrom, Function.update_of_ne here] at remaining
      exact queued.priority p a remaining
  · intro p
    rw [State.activePriorities_schedDequeueTask]
    have emptyIff := (linked (s.priority t)).head_eq_zero_iff
    by_cases here : p = s.priority t
    · subst here
      split
      · next noHead =>
          simp only [priorityCount] at small
          rw [testBit_cleared, if_pos rfl]
          exact iff_of_false (by omega) (not_not_intro (emptyIff.mp noHead))
      · next someHead =>
          rw [queued.active]
          apply iff_of_true
          · exact List.ne_nil_of_mem member
          · exact fun isEmpty => someHead (emptyIff.mpr isEmpty)
    · rw [removeFrom, Function.update_of_ne here, ← queued.active p]
      split
      · rw [testBit_cleared, if_neg here]
        constructor
        · exact fun both => both.1
        · intro isSet
          refine ⟨isSet, ?_⟩
          have inside : p < priorityCount := by
            by_contra outside
            exact (queued.active p).mp isSet (queued.bounded p (Nat.le_of_not_lt outside))
          simp only [priorityCount] at inside
          omega
      · rfl
  · intro p outside
    have here : p ≠ s.priority t := by omega
    rw [removeFrom, Function.update_of_ne here]
    exact queued.bounded p outside

/-- Dequeueing a task that is in no queue leaves every list as it is. -/
theorem dequeueOutside (queued : Queued s queue) (nonzero : t ≠ 0) (unqueued : ∀ p, t ∉ queue p)
    (noPrev : s.prev t = 0) (nextFirst : s.prev (s.next t) = 0) :
    Queued (s.schedDequeueTask t) queue := by
  have notHead : s.runqueues (s.priority t) ≠ t := by
    intro isHead
    have headMem := (queued.linked (s.priority t)).head_mem fun noHead =>
      nonzero (isHead.symm.trans noHead)
    rw [isHead] at headMem
    exact unqueued _ headMem
  have sameHeads : (s.schedDequeueTask t).runqueues = s.runqueues := by
    rw [State.runqueues_schedDequeueTask, if_neg (fun both => notHead both.2)]
  apply queued.congr
  · intro p a member
    rw [State.next_schedDequeueTask, if_neg, if_neg (fun both => both.1 noPrev)]
    exact fun same => unqueued p (same ▸ member)
  · intro p a member
    have notSelf : a ≠ t := fun same => unqueued p (same ▸ member)
    rw [State.prev_schedDequeueTask, if_neg notSelf]
    split
    · next isNext => rw [isNext.2, noPrev, nextFirst]
    · rfl
  · exact fun p a _ => State.priority_schedDequeueTask
  · exact sameHeads
  · rw [State.runqueuesTail_schedDequeueTask, if_neg]
    rintro ⟨-, isTail⟩
    by_cases isEmpty : queue (s.priority t) = []
    · apply nonzero
      rw [← isTail, (queued.linked _).tail_eq, isEmpty]
      rfl
    · have tailMem := (queued.linked (s.priority t)).tail_mem isEmpty
      rw [isTail] at tailMem
      exact unqueued _ tailMem
  · rw [State.activePriorities_schedDequeueTask, sameHeads]
    split
    · next noHead =>
        -- the bit to be cleared is clear already
        have isEmpty := (queued.linked (s.priority t)).head_eq_zero_iff.mp noHead
        apply Nat.eq_of_testBit_eq
        intro p
        rw [Bool.eq_iff_iff, testBit_cleared, queued.active]
        split
        · next here => rw [here, isEmpty]; simp
        · apply and_iff_left_of_imp
          intro nonempty
          have inside : p < priorityCount := by
            by_contra outside
            exact nonempty (queued.bounded p (Nat.le_of_not_lt outside))
          simp only [priorityCount] at inside
          omega
    · rfl

theorem inactive_iff (queued : Queued s queue) :
    s.activePriorities = 0 ↔ ∀ p, queue p = [] := by
  constructor
  · intro noBit p
    by_contra nonempty
    have isSet := (queued.active p).mpr nonempty
    rw [noBit, Nat.zero_testBit] at isSet
    cases isSet
  · intro isEmpty
    apply Nat.eq_of_testBit_eq
    intro p
    rw [Nat.zero_testBit, Bool.eq_false_iff, ne_eq, queued.active]
    exact not_not_intro (isEmpty p)

/-- With all queues empty the choice falls on what the core's slot holds. -/
theorem nextTask_of_inactive (noBit : s.activePriorities = 0) (c : Core) :
    s.nextTask c = s.current c := by
  simp [State.nextTask, noBit]

theorem activePriorities_ne_zero (queued : Queued s queue) {p : Nat} (nonempty : queue p ≠ []) :
    s.activePriorities ≠ 0 := by
  rw [ne_eq, queued.inactive_iff]
  exact fun empty => nonempty (empty p)

/-- Otherwise it falls on the head of the highest queue that is not empty. -/
theorem nextTask_of_active (queued : Queued s queue) (someBit : s.activePriorities ≠ 0) (c : Core) :
    ∃ p, s.nextTask c = s.runqueues p ∧ s.runqueues p ∈ queue p ∧ ∀ q, p < q → queue q = [] := by
  have nonempty : queue (Nat.log2 s.activePriorities) ≠ [] :=
    (queued.active _).mp (Nat.testBit_log2 someBit)
  have inside : Nat.log2 s.activePriorities < priorityCount := by
    by_contra outside
    exact nonempty (queued.bounded _ (Nat.le_of_not_lt outside))
  have headNonzero : s.runqueues (Nat.log2 s.activePriorities) ≠ 0 := fun noHead =>
    nonempty ((queued.linked _).head_eq_zero_iff.mp noHead)
  refine ⟨Nat.log2 s.activePriorities, ?_, (queued.linked _).head_mem headNonzero, ?_⟩
  · have highest : s.highestPrio = Nat.log2 s.activePriorities := by
      rw [State.highestPrio, if_neg (by omega)]
    simp only [State.nextTask, highest]
    rw [if_pos (Nat.pos_of_ne_zero someBit), if_neg headNonzero]
  · intro q above
    by_contra qNonempty
    have isSet := (queued.active q).mpr qNonempty
    have tooSmall : s.activePriorities < 2 ^ q :=
      Nat.lt_of_lt_of_le Nat.lt_log2_self (Nat.pow_le_pow_right (by decide) above)
    rw [Nat.testBit_lt_two_pow tooSmall] at isSet
    cases isSet

/-- Nothing in the queues has a higher priority than the next task. -/
theorem priority_le_nextTask (queued : Queued s queue) (someBit : s.activePriorities ≠ 0) (c : Core)
    {p a : Nat} (member : a ∈ queue p) : s.priority a ≤ s.priority (s.nextTask c) := by
  rcases queued.nextTask_of_active someBit c with ⟨q, isNext, nextMember, above⟩
  rw [isNext, queued.priority p a member, queued.priority q _ nextMember]
  by_contra higher
  exact List.ne_nil_of_mem member (above p (Nat.lt_of_not_le higher))

end Queued

end UniKernel.Pthread
