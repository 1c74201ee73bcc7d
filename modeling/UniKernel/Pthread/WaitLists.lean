import UniKernel.Pthread.WakeUp

/-!
Owns the wait lists of tasks that have not exited, over whole runs: the list at
`join_wait_queue` holds the tasks that joined and were not woken, and none of
them is linked into a runqueue. What can break a list is a `sched_yield` from
the loop of `pthread_join` that falls back to its caller: it clears the caller's
link and makes it running, and the next `sched_yield` enqueues it.
-/

namespace UniKernel.Pthread

open UniKernel.Lib

variable {m m' first last : Machine} {action : Action} {queue : Nat → List Nat} {c : Core}
  {a t waiting : Nat} {path : List (Transition Machine Action)}

/-- The tasks linked through `next` from a head of a runqueue on. -/
inductive OnRunqueue (s : State) : Nat → Prop where
  | head {p : Nat} (small : p < priorityCount) (someTask : s.runqueues p ≠ 0) :
      OnRunqueue s (s.runqueues p)
  | next {a : Nat} (before : OnRunqueue s a) (someTask : s.next a ≠ 0) : OnRunqueue s (s.next a)

/-- A set that the heads and the links of the runqueues do not leave. -/
structure HoldsRunqueues (s : State) (tasks : Nat → Prop) : Prop where
  head : ∀ p, s.runqueues p ≠ 0 → tasks (s.runqueues p)
  tail : ∀ p, s.runqueues p ≠ 0 → tasks (s.runqueuesTail p)
  next : ∀ a, tasks a → s.next a ≠ 0 → tasks (s.next a)

theorem OnRunqueue.mem {s : State} {tasks : Nat → Prop} (on : OnRunqueue s a)
    (holds : HoldsRunqueues s tasks) : tasks a := by
  induction on with
  | head small someTask => exact holds.head _ someTask
  | next before someTask inductionHypothesis => exact holds.next _ inductionHypothesis someTask

theorem QueuesOk.holds {s : State} {live : Nat → Bool} (queues : QueuesOk s live queue) :
    HoldsRunqueues s (fun a => ∃ p, a ∈ queue p) where
  head := fun p someTask => ⟨p, (queues.queued.linked p).head_mem someTask⟩
  tail := by
    intro p someTask
    refine ⟨p, (queues.queued.linked p).tail_mem ?_⟩
    exact fun empty => someTask ((queues.queued.linked p).head_eq_zero_iff.mpr empty)
  next := by
    intro a inQueue someTask
    rcases inQueue with ⟨p, member⟩
    exact ⟨p, (queues.queued.linked p).next_mem member someTask⟩

/-- The wait list of `t`: exactly the tasks that joined it and were not woken,
each once and none on a runqueue. -/
structure WaitListOk (m : Machine) (t : Nat) : Prop where
  chain : Chain m.sched.next (m.sched.tasks t).joinWaitQueue (m.history.waiters t)
  nodup : (m.history.waiters t).Nodup
  unqueued : ∀ a ∈ m.history.waiters t, ¬ OnRunqueue m.sched a

/-! ### Consistent machines -/

/-- The lists are linked, and their tasks are blocked. A task of priority IDLE
may be running: no function on the runqueues touches it. -/
structure Links (m : Machine) : Prop where
  chain : ∀ t, Chain m.sched.next (m.sched.tasks t).joinWaitQueue (m.history.waiters t)
  blocked : ∀ t, ∀ a ∈ m.history.waiters t, m.sched.state a = .blocked ∨
    m.sched.state a = .running ∧ m.sched.priority a = idlePriority

namespace Links

theorem unqueued (links : Links m) (consistent : m.Consistent queue)
    (member : a ∈ m.history.waiters t) : ∀ p, a ∉ queue p := by
  intro p queued
  have ready := consistent.queues.ready p a queued
  rcases links.blocked t a member with blocked | ⟨running, -⟩
  · cases ready.symm.trans blocked
  · cases ready.symm.trans running

theorem keep (links : Links m) (consistent : m.Consistent queue)
    (keeps : KeepsWaiters m m' queue) : Links m' where
  chain := by
    intro t
    rw [keeps.joinWaitQueue, keeps.waiters]
    exact (links.chain t).congr fun a member =>
      keeps.next t a member (links.unqueued consistent member)
  blocked := by
    intro t a member
    rw [keeps.waiters] at member
    rw [keeps.state t a member, keeps.priority t a member]
    exact links.blocked t a member

theorem join {call : Join} (links : Links m) (waiters : Waiters m)
    (consistent : m.Consistent queue) (here : m.pc c = .user)
    (notExited : m.sched.state call.target ≠ .exited) : Links (m.join c call) := by
  have online : m.pc c ≠ .offline := by
    rw [here]
    simp
  have notWaiting : ∀ call, (m.pc c).mode ≠ .waiting call := by
    rw [here]
    exact nofun
  have other : ∀ t, ∀ a ∈ m.history.waiters t, a ≠ m.current c := fun t a member =>
    (waiters.waits t a member).ne_current consistent online notWaiting
  have joined := Machine.join_joined (c := c) notExited
  have next : ∀ a, a ≠ m.current c → (m.join c call).sched.next a = m.sched.next a := by
    intro a notSelf
    rw [joined.next, if_neg notSelf]
  constructor
  · intro t
    rw [joined.joinWaitQueue, joined.waiters, Function.update_apply]
    split
    · apply (links.chain call.target).push (consistent.currentNonzero c online)
      · exact (joined.next _).trans (if_pos rfl)
      · exact fun a member => next a (other _ a member)
    · exact (links.chain t).congr fun a member => next a (other t a member)
  · intro t a member
    have cases : a = m.current c ∨ ∃ t', a ∈ m.history.waiters t' := by
      rw [joined.waiters, Function.update_apply] at member
      split at member
      · rcases List.mem_cons.mp member with isSelf | before
        · exact Or.inl isSelf
        · exact Or.inr ⟨_, before⟩
      · exact Or.inr ⟨t, member⟩
    rw [joined.state, joined.priority]
    rcases cases with isSelf | ⟨t', before⟩
    · exact Or.inl (if_pos isSelf)
    · rw [if_neg (other t' a before)]
      exact links.blocked t' a before

/-- A switch that does not fall back to a waiter of a priority above IDLE. -/
theorem switch {caller : Caller} {nextTask : Nat} (links : Links m) (waiters : Waiters m)
    (consistent : m.Consistent queue) (here : m.pc c = .yieldLock caller)
    (switched : Switched m m' c caller queue nextTask)
    (canChoose : ∀ call, caller = .join call →
      m.sched.priority (m.current c) ≠ idlePriority → CanChoose m c) : Links m' := by
  have lists := switched.keepsHistory History.waiters fun _ _ => rfl
  have priority : ∀ a, m'.sched.priority a = m.sched.priority a := fun a =>
    switched.field Task.priority (fun _ => rfl) a
  have notNext : ∀ t, ∀ a ∈ m.history.waiters t, a ≠ m.current c → a ≠ nextTask := by
    intro t a member notPrev isNext
    rcases switched.choice.origin with ⟨p, queued⟩ | same
    · exact links.unqueued consistent member p (isNext ▸ queued)
    · exact notPrev (isNext.trans same)
  -- the caller itself, if it is a waiter
  have own : ∀ t, m.current c ∈ m.history.waiters t →
      m'.sched.next (m.current c) = m.sched.next (m.current c) ∧
      (m'.sched.state (m.current c) = .blocked ∨ m'.sched.state (m.current c) = .running ∧
        m.sched.priority (m.current c) = idlePriority) := by
    intro t member
    have isJoin : ∃ call, caller = .join call := by
      rcases caller with _ | call | _
      · exact absurd rfl ((waiters.waits t _ member).ne_current consistent (by rw [here]; simp)
          (by rw [here]; exact nofun))
      · exact ⟨call, rfl⟩
      · exact absurd rfl ((waiters.waits t _ member).ne_current consistent (by rw [here]; simp)
          (by rw [here]; exact nofun))
    rcases isJoin with ⟨call, isJoin⟩
    by_cases stays : nextTask = m.current c
    · have isIdle : m.sched.priority (m.current c) = idlePriority := by
        by_contra notIdle
        have blocked := (links.blocked t _ member).resolve_right fun both => notIdle both.2
        rcases switched.choice with ⟨p, queued, -⟩ | ⟨-, running⟩ | ⟨-, -, empty⟩
        · rw [stays] at queued
          exact consistent.currentUnqueued c p queued
        · cases blocked.symm.trans running
        · rcases canChoose call isJoin notIdle with running | someBit
          · cases blocked.symm.trans running
          · exact someBit (consistent.queues.queued.inactive_iff.mpr empty)
      refine ⟨switched.prevNext (Or.inr isIdle), Or.inr ⟨?_, isIdle⟩⟩
      rw [← stays]
      exact switched.running
    · rcases links.blocked t _ member with blocked | ⟨running, isIdle⟩
      · have notRunning : m.sched.state (m.current c) ≠ .running := by
          rw [blocked]
          simp
        refine ⟨switched.prevNext (Or.inl ⟨stays, notRunning⟩), Or.inl ?_⟩
        rcases switched.prevState stays with same | ⟨running, -, -⟩
        · exact same.trans blocked
        · exact absurd running notRunning
      · refine ⟨switched.prevNext (Or.inr isIdle), Or.inr ⟨?_, isIdle⟩⟩
        rcases switched.prevState stays with same | ⟨-, notIdle, -⟩
        · exact same.trans running
        · exact absurd isIdle notIdle
  constructor
  · intro t
    have sameHead : (m'.sched.tasks t).joinWaitQueue = (m.sched.tasks t).joinWaitQueue :=
      switched.field Task.joinWaitQueue (fun _ => rfl) t
    rw [lists, sameHead]
    apply (links.chain t).congr
    intro a member
    by_cases isPrev : a = m.current c
    · subst isPrev
      exact (own t member).1
    · exact switched.next a (links.unqueued consistent member) isPrev (notNext t a member isPrev)
  · intro t a member
    rw [lists] at member
    rw [priority]
    by_cases isPrev : a = m.current c
    · subst isPrev
      exact (own t member).2
    · rw [switched.state a isPrev (notNext t a member isPrev)]
      exact links.blocked t a member

theorem waitListOk (links : Links m) (waiters : Waiters m) (consistent : m.Consistent queue)
    (t : Nat) : WaitListOk m t where
  chain := links.chain t
  nodup := waiters.nodup t
  unqueued := by
    intro a member on
    rcases on.mem consistent.queues.holds with ⟨p, queued⟩
    exact links.unqueued consistent member p queued

end Links

/-! ### Beside the wake-up loop -/

/-- Core `c` is in the wake-up loop with the waiter `waiting`. The lists of the
other tasks stay out of the set `tasks` that holds the runqueues. -/
structure KeepsLists (m : Machine) (c : Core) (waiting : Nat) (tasks : Nat → Prop) : Prop where
  waking : Waking m c waiting
  exited : m.sched.state (m.current c) = .exited
  notOwn : waiting ≠ m.current c
  holds : HoldsRunqueues m.sched tasks
  chain : ∀ t, t ≠ m.current c →
    Chain m.sched.next (m.sched.tasks t).joinWaitQueue (m.history.waiters t)
  nodup : ∀ t, t ≠ m.current c → (m.history.waiters t).Nodup
  live : ∀ t, t ≠ m.current c → ∀ a ∈ m.history.waiters t, m.structs a = true
  unfreed : ∀ t, t ≠ m.current c → ∀ a ∈ m.history.waiters t, ∀ c',
    (m.sched.cores c').taskToFree ≠ a
  apart : ∀ t, t ≠ m.current c → ∀ a ∈ m.history.waiters t, ¬ tasks a ∧ a ≠ waiting

theorem Pc.notWaiting_of_reclaiming {place : Pc} (reclaiming : place.reclaiming = true)
    (call : Join) : place.mode ≠ .waiting call := by
  intro waiting
  rcases place with _ | _ | _ | _ | _ | _ | _ | (_ | _ | _) | (_ | _ | _) | (_ | _ | _ | _ | _) | _ | _ <;>
    cases reclaiming <;> cases waiting

namespace KeepsLists

variable {tasks : Nat → Prop}

theorem waitListOk (keeps : KeepsLists m c waiting tasks) (notExited : m.sched.state t ≠ .exited) :
    WaitListOk m t := by
  have other : t ≠ m.current c := by
    intro same
    rw [same] at notExited
    exact notExited keeps.exited
  refine ⟨keeps.chain t other, keeps.nodup t other, ?_⟩
  exact fun a member on => (keeps.apart t other a member).1 (on.mem keeps.holds)

theorem aside (keeps : KeepsLists m c waiting tasks) (taken : Step m action m')
    (aside : Aside m m' c) : KeepsLists m' c waiting tasks := by
  -- a list is that of before, or that of a new task
  have lists : ∀ t, t ≠ m'.current c → Untouched m m' t ∧ t ≠ m.current c ∨
      m'.history.waiters t = [] ∧ (m'.sched.tasks t).joinWaitQueue = 0 := by
    intro t other
    rw [aside.current] at other
    rcases aside.tasks t with untouched | made
    · exact Or.inl ⟨untouched, other⟩
    · exact Or.inr ⟨made.waiters, made.joinWaitQueue⟩
  have member : ∀ t, t ≠ m'.current c → ∀ a ∈ m'.history.waiters t,
      t ≠ m.current c ∧ a ∈ m.history.waiters t := by
    intro t other a isMember
    rcases lists t other with ⟨untouched, other⟩ | ⟨none, -⟩
    · exact ⟨other, untouched.waiters ▸ isMember⟩
    · rw [none] at isMember
      cases isMember
  have waiter : ∀ t, t ≠ m.current c → ∀ a ∈ m.history.waiters t, Untouched m m' a := by
    intro t other a isMember
    rcases aside.tasks a with untouched | made
    · exact untouched
    · cases made.fresh.symm.trans (keeps.live t other a isMember)
  exact {
    waking := keeps.waking.step taken
    exited := by
      rw [aside.current]
      rcases aside.tasks (m.current c) with untouched | made
      · rw [State.state, untouched.task]
        exact keeps.exited
      · exact absurd rfl (made.notCurrent c)
    notOwn := by
      rw [aside.current]
      exact keeps.notOwn
    holds := by
      constructor
      · rw [aside.heads]
        exact keeps.holds.head
      · rw [aside.heads, aside.tails]
        exact keeps.holds.tail
      · intro a inTasks
        rcases aside.tasks a with untouched | made
        · rw [State.next, untouched.task]
          exact keeps.holds.next a inTasks
        · exact fun someTask => absurd made.next someTask
    chain := by
      intro t other
      rcases lists t other with ⟨untouched, other⟩ | ⟨none, noQueue⟩
      · rw [untouched.task, untouched.waiters]
        apply (keeps.chain t other).congr
        intro a isMember
        rw [State.next, (waiter t other a isMember).task]
        rfl
      · rw [none, noQueue]
        rfl
    nodup := by
      intro t other
      rcases lists t other with ⟨untouched, other⟩ | ⟨none, -⟩
      · rw [untouched.waiters]
        exact keeps.nodup t other
      · rw [none]
        exact List.nodup_nil
    live := by
      intro t other a isMember
      rcases member t other a isMember with ⟨other, before⟩
      rcases (waiter t other a before).live (keeps.live t other a before) with isLive | ⟨c', isFreed⟩
      · exact isLive
      · exact absurd isFreed (keeps.unfreed t other a before c')
    unfreed := by
      intro t other a isMember c'
      rcases member t other a isMember with ⟨other, before⟩
      rcases aside.taskToFree c' with same | none
      · rw [same]
        exact keeps.unfreed t other a before c'
      · rw [none]
        exact ((keeps.chain t other).ne_zero before).symm
    apart := by
      intro t other a isMember
      rcases member t other a isMember with ⟨other, before⟩
      exact keeps.apart t other a before }

/-- An iteration of the loop: its waiter is on the runqueues. -/
theorem exitWake (keeps : KeepsLists m c waiting tasks) :
    KeepsLists (m.exitWake c waiting) c waiting (fun a => tasks a ∨ a = waiting) := by
  have taken : Step m (.exitWake c) (m.exitWake c waiting) := Step.exitWake keeps.waking.here
  have woken := Machine.exitWake_woken (m := m) (c := c) keeps.waking.someWaiter
  have lists : ∀ t, t ≠ m.current c →
      (m.exitWake c waiting).history.waiters t = m.history.waiters t := by
    intro t other
    rw [woken.waiters, Function.update_of_ne other]
  generalize m.exitWake c waiting = m' at taken woken lists ⊢
  have holds := keeps.holds
  have headHolds : ∀ p, m'.sched.runqueues p ≠ 0 →
      tasks (m'.sched.runqueues p) ∨ m'.sched.runqueues p = waiting := by
    intro p
    rw [woken.heads, Function.update_apply]
    split
    · split
      · exact fun _ => Or.inr rfl
      · next someTask => exact fun _ => Or.inl (holds.head _ someTask)
    · exact fun someTask => Or.inl (holds.head p someTask)
  have tailHolds : ∀ p, m'.sched.runqueues p ≠ 0 →
      tasks (m'.sched.runqueuesTail p) ∨ m'.sched.runqueuesTail p = waiting := by
    intro p
    rw [woken.heads, woken.tails, Function.update_apply, Function.update_apply]
    split
    · exact fun _ => Or.inr rfl
    · exact fun someTask => Or.inl (holds.tail p someTask)
  have nextHolds : ∀ a, tasks a ∨ a = waiting → m'.sched.next a ≠ 0 →
      tasks (m'.sched.next a) ∨ m'.sched.next a = waiting := by
    intro a inTasks
    rw [woken.next]
    split
    · exact fun _ => Or.inr rfl
    · split
      · exact fun someTask => absurd rfl someTask
      · next notWaiting =>
          exact fun someTask => Or.inl (holds.next a (inTasks.resolve_right notWaiting) someTask)
  exact {
    waking := keeps.waking.step taken
    exited := by
      rw [woken.current, woken.state, if_neg keeps.notOwn.symm]
      exact keeps.exited
    notOwn := by
      rw [woken.current]
      exact keeps.notOwn
    holds := ⟨headHolds, tailHolds, nextHolds⟩
    chain := by
      intro t other
      rw [woken.current] at other
      rw [lists t other, woken.joinWaitQueue]
      apply (keeps.chain t other).congr
      intro a member
      rcases keeps.apart t other a member with ⟨notTask, notWaiting⟩
      rw [woken.next, if_neg, if_neg notWaiting]
      intro isTail
      rw [isTail.2] at notTask
      exact notTask (holds.tail _ isTail.1)
    nodup := by
      intro t other
      rw [woken.current] at other
      rw [lists t other]
      exact keeps.nodup t other
    live := by
      intro t other
      rw [woken.current] at other
      rw [lists t other, woken.structs]
      exact keeps.live t other
    unfreed := by
      intro t other
      rw [woken.current] at other
      rw [lists t other, woken.cores]
      exact keeps.unfreed t other
    apart := by
      intro t other a member
      rw [woken.current] at other
      rw [lists t other] at member
      rcases keeps.apart t other a member with ⟨notTask, notWaiting⟩
      exact ⟨fun either => either.elim notTask notWaiting, notWaiting⟩ }

/-- A `pthread_exit` with a waiter enters the loop. -/
theorem exit {value : Nat} (consistent : m.Consistent queue) (waiters : Waiters m)
    (links : Links m) (here : m.pc c = .user) (lockFree : m.sched.schedLock = false)
    (someWaiter : (m.sched.tasks (m.current c)).joinWaitQueue ≠ 0) :
    KeepsLists (m.exit c value) c (m.sched.tasks (m.current c)).joinWaitQueue
      (fun a => ∃ p, a ∈ queue p) := by
  have online : m.pc c ≠ .offline := by
    rw [here]
    simp
  have notWaiting : ∀ call, (m.pc c).mode ≠ .waiting call := by
    rw [here]
    exact nofun
  have other : ∀ t, ∀ a ∈ m.history.waiters t, a ≠ m.current c := fun t a member =>
    (waiters.waits t a member).ne_current consistent online notWaiting
  have isMember := waiters.head_mem someWaiter
  have exits := m.exit_exits c value
  have waking := @Machine.exit_waking m c value consistent.lock lockFree someWaiter
  generalize m.exit c value = m' at exits waking ⊢
  have notQueued : ∀ p, m.current c ∉ queue p := consistent.currentUnqueued c
  have holds := consistent.queues.holds
  exact {
    waking := waking
    exited := by
      rw [exits.current, exits.state, if_pos rfl]
    notOwn := by
      rw [exits.current]
      exact other _ _ isMember
    holds := by
      constructor
      · rw [exits.heads]
        exact holds.head
      · rw [exits.heads, exits.tails]
        exact holds.tail
      · intro a inQueue
        have notOwn : a ≠ m.current c := by
          intro isOwn
          rcases inQueue with ⟨p, queued⟩
          exact notQueued p (isOwn ▸ queued)
        rw [State.next, exits.task a notOwn]
        exact holds.next a inQueue
    chain := by
      intro t notOwn
      rw [exits.current] at notOwn
      rw [exits.waiters, exits.task t notOwn]
      apply (links.chain t).congr
      intro a member
      rw [State.next, exits.task a (other t a member)]
      rfl
    nodup := by
      rw [exits.waiters]
      exact fun t _ => waiters.nodup t
    live := by
      rw [exits.waiters, exits.structs]
      exact fun t _ a member => (waiters.waits t a member).1
    unfreed := by
      rw [exits.waiters]
      intro t _ a member c'
      rw [exits.taskToFree]
      split
      · exact (other t a member).symm
      · rcases consistent.toFree c' with none | ⟨isCurrent, reclaiming⟩
        · rw [none]
          exact ((links.chain t).ne_zero member).symm
        · rw [isCurrent]
          apply ((waiters.waits t a member).ne_current consistent _ _).symm
          · intro isOffline
            rw [isOffline] at reclaiming
            cases reclaiming
          · intro call
            exact Pc.notWaiting_of_reclaiming reclaiming call
    apart := by
      rw [exits.waiters, exits.current]
      intro t notOwn a member
      refine ⟨?_, ?_⟩
      · intro inQueue
        rcases inQueue with ⟨p, queued⟩
        exact links.unqueued consistent member p queued
      · intro isWaiting
        apply notOwn
        rw [isWaiting] at member
        exact (waiters.waits t _ member).target_unique (waiters.waits _ _ isMember)
          consistent.currentApart }

end KeepsLists

/-! ### Whole runs -/

/-- Before the lock of the `sched_yield` in the loop of `pthread_join`. -/
def Pc.inJoinYield : Pc → Bool
  | .yieldLock (.join _) => true
  | _ => false

/-- A `sched_yield` from the loop of `pthread_join` on core `c` does not fall
back to its caller, unless that has the priority IDLE. -/
def JoinFindsTask (m : Machine) (c : Core) : Prop :=
  (m.pc c).inJoinYield = true → m.sched.priority (m.current c) ≠ idlePriority → CanChoose m c

instance (m : Machine) (c : Core) : Decidable (CanChoose m c) :=
  inferInstanceAs (Decidable (m.sched.state (m.current c) = .running ∨ m.sched.activePriorities ≠ 0))

instance (m : Machine) (c : Core) : Decidable (JoinFindsTask m c) :=
  inferInstanceAs (Decidable ((m.pc c).inJoinYield = true →
    m.sched.priority (m.current c) ≠ idlePriority → CanChoose m c))

/-- The states of all runs in which no struct in use is handed out again and no
`sched_yield` from a `pthread_join` falls back to its caller. -/
def ListsKept (m : Machine) : Prop :=
  (∃ queue, m.Consistent queue ∧ Waiters m ∧ Links m) ∨
    ∃ c waiting tasks, KeepsLists m c waiting tasks

theorem ListsKept.waitListOk (kept : ListsKept m) (notExited : m.sched.state t ≠ .exited) :
    WaitListOk m t := by
  rcases kept with ⟨queue, consistent, waiters, links⟩ | ⟨c, waiting, tasks, keeps⟩
  · exact links.waitListOk waiters consistent t
  · exact keeps.waitListOk notExited

theorem ListsKept.initial (initial : Initial m) : ListsKept m := by
  have waiters := Waiters.initial initial
  rcases initial with ⟨idle, own, init, rfl⟩
  rcases Machine.schedInit_consistent init with ⟨queue, consistent⟩
  refine Or.inl ⟨queue, consistent, waiters, ?_⟩
  rcases Machine.schedInit_starts init with ⟨made, idleTask, task, created, starts⟩
  have none : ∀ t, (Machine.schedInit idle own).history.waiters t = [] := by
    intro t
    rw [starts.waiters, created.history, Function.update_apply]
    split
    · rfl
    · show Function.update (fun _ => []) idle.task [] t = []
      rw [Function.update_apply]
      split <;> rfl
  constructor
  · intro t
    have head := waiters.head t
    rw [none] at head ⊢
    exact head
  · intro t a member
    rw [none] at member
    cases member

theorem ListsKept.step (kept : ListsKept m) (taken : Step m action m')
    (unused : AllocatesUnused ⟨m, action, m'⟩)
    (findsTask : ∀ c, action = .yieldSwitch c → JoinFindsTask m c) : ListsKept m' := by
  rcases kept with ⟨queue, consistent, waiters, links⟩ | ⟨c, waiting, tasks, keeps⟩
  · rcases waiters.step consistent taken unused with
      ⟨queue', consistent', waiters'⟩ | ⟨c, value, here, lockFree, someWaiter, -, rfl⟩
    · left
      refine ⟨queue', consistent', waiters', ?_⟩
      rcases consistent.step_waiters waiters taken unused with
        keeps | ⟨c, call, here, notExited, -, rfl⟩ | ⟨c, value, here, lockFree, someWaiter, -, rfl⟩ |
        ⟨c, caller, here, lockFree, isYield, rfl⟩
      · exact links.keep consistent keeps
      · exact links.join waiters consistent here notExited
      · -- the loop is entered with a waiter, so the machine behind is not consistent
        have inLoop := consistent'.mode c
        rw [Machine.exit_waiters, Function.update_self] at inLoop
        exact absurd inLoop.1 someWaiter
      · rcases consistent.switched here lockFree with ⟨nextTask, switched⟩
        apply links.switch waiters consistent here switched
        intro call isJoin
        apply findsTask c isYield
        rw [here, isJoin]
        rfl
    · exact Or.inr ⟨c, _, _, KeepsLists.exit consistent waiters links here lockFree someWaiter⟩
  · rcases keeps.waking.aside taken unused with aside | ⟨-, rfl⟩
    · exact Or.inr ⟨c, waiting, tasks, keeps.aside taken aside⟩
    · exact Or.inr ⟨c, waiting, _, keeps.exitWake⟩

/-- In every run that hands out no struct in use and in which no `sched_yield`
from the loop of `pthread_join` falls back to its caller, the wait list of each
task that has not exited is intact. -/
theorem wait_lists_ok (initial : Initial first) (run : Execution Step first path last)
    (unused : ∀ transition ∈ path, AllocatesUnused transition)
    (findsTask : ∀ transition ∈ path, ∀ c, transition.label = .yieldSwitch c →
      JoinFindsTask transition.source c) :
    ∀ t, last.structs t = true → last.sched.state t ≠ .exited → WaitListOk last t := by
  intro t _ notExited
  have kept : ListsKept last := by
    apply run.invariant_of_allowed (fun transition => AllocatesUnused transition ∧
      ∀ c, transition.label = .yieldSwitch c → JoinFindsTask transition.source c)
      (ListsKept.initial initial)
    · exact fun source label target kept taken allowed => kept.step taken allowed.1 allowed.2
    · exact fun transition member => ⟨unused transition member, findsTask transition member⟩
  exact kept.waitListOk notExited

/-- Main joins a thread on its own core and is switched away from. -/
theorem wait_lists_ok_one_core : ∃ path last, Execution Step Machine.booted path last ∧
    last.history.waiters 30 = [20] ∧ WaitListOk last 30 := by
  rcases Machine.exists_run Machine.booted
    [.create 0 none (blocksFrom 30), .createEnqueue 0, .unlock 0, .join 0 ⟨30, 3, 0⟩, .unlock 0,
      .joinTest 0, .yieldEnter 0, .yieldSwitch 0, .forkUnlock 0]
    (fun path last => decide ((∀ transition ∈ path, FreshStructs transition) ∧
      (∀ transition ∈ path, ∀ c, JoinFindsTask transition.source c) ∧
      last.history.waiters 30 = [20] ∧ last.structs 30 = true ∧
      last.sched.state 30 ≠ .exited)) (by decide +kernel) with ⟨path, last, run, holds⟩
  rcases of_decide_eq_true holds with ⟨fresh, findsTask, isWaiting, isLive, notExited⟩
  exact ⟨path, last, run, isWaiting, wait_lists_ok Machine.booted_initial run
    (valid_of_fresh Machine.booted_initial run fresh).2
    (fun transition member c _ => findsTask transition member c) 30 isLive notExited⟩

/-- The startup task of core 1 and main join the same thread, with nothing on
the runqueues. The `sched_yield` of main falls back to main and clears its link,
and the startup task is no longer on the list. -/
theorem exists_dropped_waiter : ∃ path last, Execution Step Machine.booted path last ∧
    (∀ transition ∈ path, FreshStructs transition) ∧ last.structs 30 = true ∧
    last.sched.state 30 ≠ .exited ∧ ¬ WaitListOk last 30 := by
  rcases Machine.exists_run Machine.booted
    [.initSecondary 1 (blocksFrom 40) 50, .create 0 (some ⟨4096, 0, 0, true⟩) (blocksFrom 30),
      .join 1 ⟨30, 5, 0⟩, .unlock 1, .join 0 ⟨30, 5, 0⟩, .unlock 0, .joinTest 0, .yieldEnter 0,
      .yieldSwitch 0]
    (fun path last => decide ((∀ transition ∈ path, FreshStructs transition) ∧
      last.structs 30 = true ∧ last.sched.state 30 ≠ .exited ∧
      last.history.waiters 30 = [20, 50] ∧ last.sched.next 20 = 0))
    (by decide +kernel) with ⟨path, last, run, holds⟩
  rcases of_decide_eq_true holds with ⟨fresh, isLive, notExited, waiters, cleared⟩
  refine ⟨path, last, run, fresh, isLive, notExited, ?_⟩
  intro ok
  have chain := ok.chain
  rw [waiters] at chain
  have linked : last.sched.next 20 = 50 := chain.2.2.2.1
  rw [cleared] at linked
  cases linked

end UniKernel.Pthread
