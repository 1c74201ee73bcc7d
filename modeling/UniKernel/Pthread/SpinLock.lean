import Mathlib.Logic.Function.Basic
import UniKernel.Lib.Lock

/-!
Owns `pthread_spinlock_t`: any number of clients that call `pthread_spin_lock`,
`pthread_spin_trylock`, `pthread_spin_unlock` and `pthread_spin_destroy` on one
lock, one atomic access to its word at a time. Seen from outside it is a lock: a
client has it from the exchange that succeeds to the store of 0.
-/

namespace UniKernel.Pthread

open UniKernel.Lib

universe u

/-- `EBUSY` -/
def ebusy : Nat := 10

/-- Where a client is: outside of every call or about to make one, at the exchange
or in the inner loop of `pthread_spin_lock`, or behind a call that took the lock. -/
inductive SpinPoint where
  | outside
  | exchange
  | waiting
  | inside
deriving DecidableEq, Repr

/-- The word of the lock, and its clients. -/
structure SpinLock (ι : Type u) where
  word : Nat
  point : ι → SpinPoint

namespace SpinLock

variable {ι : Type u} [DecidableEq ι]

def moved (s : SpinLock ι) (client : ι) (point : SpinPoint) : SpinLock ι :=
  { s with point := Function.update s.point client point }

/-- `pthread_spin_init` -/
def init : SpinLock ι := ⟨0, fun _ => .outside⟩

inductive Event (ι : Type u) where
  | lock (client : ι)
  | exchange (client : ι) (success : Bool)
  | load (client : ι)
  | trylock (client : ι) (result : Nat)
  | unlock (client : ι)
  | destroy (client : ι) (result : Nat)

/-- Only the client that has the lock calls `pthread_spin_unlock`. -/
inductive Step : SpinLock ι → Event ι → SpinLock ι → Prop where
  | lock {s : SpinLock ι} {client : ι} (here : s.point client = .outside) :
      Step s (.lock client) (s.moved client .exchange)
  /-- `atomic_compare_exchange_weak(lock, &expected, 1)` -/
  | exchange {s : SpinLock ι} {client : ι} (here : s.point client = .exchange) (free : s.word = 0) :
      Step s (.exchange client true) { s.moved client .inside with word := 1 }
  /-- the weak exchange may fail even if the lock is free -/
  | exchangeFails {s : SpinLock ι} {client : ι} (here : s.point client = .exchange) :
      Step s (.exchange client false) (s.moved client .waiting)
  /-- `while (atomic_load_explicit(lock, memory_order_relaxed) == 1)` -/
  | load {s : SpinLock ι} {client : ι} (here : s.point client = .waiting) :
      Step s (.load client) (if s.word = 1 then s else s.moved client .exchange)
  /-- `atomic_compare_exchange_strong(lock, &expected, 1)` -/
  | trylock {s : SpinLock ι} {client : ι} (here : s.point client = .outside) :
      Step s (.trylock client (if s.word = 0 then 0 else ebusy))
        (if s.word = 0 then { s.moved client .inside with word := 1 } else s)
  | unlock {s : SpinLock ι} {client : ι} (here : s.point client = .inside) :
      Step s (.unlock client) { s.moved client .outside with word := 0 }
  | destroy {s : SpinLock ι} {client : ι} (here : s.point client = .outside) :
      Step s (.destroy client (if s.word ≠ 0 then ebusy else 0)) s

/-! ### The lock behind the word -/

/-- What the accesses mean for the lock. -/
def Event.seen : Event ι → Option (Lock.Event ι)
  | .exchange client true => some (.acquire client)
  | .trylock client result => some (if result = 0 then .acquire client else .foundOwned client)
  | .unlock client => some (.release client)
  | .destroy client result => some (if result = 0 then .foundFree client else .foundOwned client)
  | .lock _ | .exchange _ false | .load _ => none

/-- The owner is the one client behind a call that took the lock, and the word
says whether there is one. -/
structure Owned (s : SpinLock ι) (owner : Option ι) : Prop where
  inside : ∀ client, s.point client = .inside ↔ owner = some client
  word : s.word = if owner.isSome then 1 else 0

variable {s s' : SpinLock ι} {owner : Option ι} {client : ι}

theorem Owned.moved (owned : Owned s owner) (outside : s.point client ≠ .inside) {point : SpinPoint}
    (stays : point ≠ .inside) : Owned (s.moved client point) owner where
  inside := by
    intro other
    rw [SpinLock.moved]
    dsimp only
    by_cases same : other = client
    · rw [same, Function.update_self, ← owned.inside client]
      exact ⟨fun isInside => absurd isInside stays, fun isInside => absurd isInside outside⟩
    · rw [Function.update_of_ne same]
      exact owned.inside other
  word := owned.word

omit [DecidableEq ι] in
theorem Owned.word_eq_zero_iff (owned : Owned s owner) : s.word = 0 ↔ owner = none := by
  rw [owned.word]
  cases owner with
  | none => exact ⟨fun _ => rfl, fun _ => rfl⟩
  | some client => exact ⟨fun absurd => (nomatch absurd), fun absurd => (nomatch absurd)⟩

theorem Owned.acquire (owned : Owned s none) (client : ι) :
    Owned { s.moved client .inside with word := 1 } (some client) where
  inside := by
    intro other
    rw [SpinLock.moved]
    dsimp only
    by_cases same : other = client
    · rw [same, Function.update_self]
      exact ⟨fun _ => rfl, fun _ => rfl⟩
    · rw [Function.update_of_ne same, owned.inside other]
      refine ⟨fun absurd => (nomatch absurd), ?_⟩
      intro isOwner
      exact absurd (Option.some.inj isOwner).symm same
  word := rfl

theorem Owned.release (owned : Owned s (some client)) :
    Owned { s.moved client .outside with word := 0 } none where
  inside := by
    intro other
    rw [SpinLock.moved]
    dsimp only
    by_cases same : other = client
    · rw [same, Function.update_self]
      exact ⟨fun absurd => (nomatch absurd), fun absurd => (nomatch absurd)⟩
    · rw [Function.update_of_ne same, owned.inside other]
      refine ⟨?_, fun absurd => (nomatch absurd)⟩
      intro isOwner
      exact absurd (Option.some.inj isOwner).symm same
  word := rfl

/-- Each access is one step of the lock, or none. -/
theorem Owned.step (owned : Owned s owner) {event : Event ι} (taken : Step s event s') :
    ∃ owner', Answers Lock.Step owner event.seen owner' ∧ Owned s' owner' := by
  have notInside : ∀ {client point}, s.point client = point → point ≠ .inside →
      s.point client ≠ .inside := by
    intro client point here other isInside
    exact other (here.symm.trans isInside)
  cases taken with
  | lock here =>
      exact ⟨owner, rfl, owned.moved (notInside here (by decide)) (by decide)⟩
  | @exchange client here free =>
      rw [owned.word_eq_zero_iff] at free
      subst free
      exact ⟨some client, .acquire, owned.acquire client⟩
  | exchangeFails here =>
      exact ⟨owner, rfl, owned.moved (notInside here (by decide)) (by decide)⟩
  | load here =>
      refine ⟨owner, rfl, ?_⟩
      split
      · exact owned
      · exact owned.moved (notInside here (by decide)) (by decide)
  | @trylock client here =>
      by_cases free : s.word = 0
      · rw [if_pos free, if_pos free]
        rw [owned.word_eq_zero_iff] at free
        subst free
        exact ⟨some client, .acquire, owned.acquire client⟩
      · rw [if_neg free, if_neg free]
        rw [owned.word_eq_zero_iff] at free
        obtain ⟨holder, rfl⟩ := Option.ne_none_iff_exists'.mp free
        exact ⟨some holder, .foundOwned, owned⟩
  | unlock here =>
      rw [owned.inside] at here
      subst here
      exact ⟨none, .release, owned.release⟩
  | @destroy client here =>
      by_cases free : s.word = 0
      · rw [if_neg (not_not.mpr free)]
        rw [owned.word_eq_zero_iff] at free
        subst free
        exact ⟨none, .foundFree, owned⟩
      · rw [if_pos free]
        rw [owned.word_eq_zero_iff] at free
        obtain ⟨holder, rfl⟩ := Option.ne_none_iff_exists'.mp free
        exact ⟨some holder, .foundOwned, owned⟩

/-- Every interleaving of the calls is an execution of the lock: `pthread_spin_trylock`
and `pthread_spin_destroy` return `EBUSY` exactly while somebody owns it, at most
one client is behind a call that took it, and their critical sections come one
after the other. Whoever asks for a lock that nobody owns gets it with the next
exchange that does not fail spuriously. -/
theorem spinLock_refines {path : List (Transition (SpinLock ι) (Event ι))} {last : SpinLock ι}
    (run : Execution Step init path last) :
    ∃ (lockPath : List (Transition (Option ι) (Lock.Event ι))) (owner : Option ι),
      Execution Lock.Step none lockPath owner ∧
      lockPath.map Transition.label = observed Event.seen path ∧
      (∀ client, last.point client = .inside ↔ owner = some client) ∧
      (∃ clients : List ι, (observed Event.seen path).filterMap Lock.Event.change =
        clients.flatMap Lock.criticalSection ++ owner.toList.map fun client => (client, true)) ∧
      (owner = none → ∀ client, last.point client = .exchange →
        ∃ next, Step last (.exchange client true) next) := by
  have start : Owned (init : SpinLock ι) none :=
    ⟨fun _ => ⟨fun absurd => (nomatch absurd), fun absurd => (nomatch absurd)⟩, rfl⟩
  obtain ⟨lockPath, owner, lockRun, sameLabels, owned⟩ :=
    run.refines start fun _ _ _ _ related taken => related.step taken
  obtain ⟨clients, sections⟩ := Lock.serial lockRun
  refine ⟨lockPath, owner, lockRun, sameLabels, owned.inside, ⟨clients, ?_⟩, ?_⟩
  · rw [← sameLabels, ← sections, List.filterMap_map]
    rfl
  · intro free client asks
    exact ⟨_, .exchange asks (owned.word_eq_zero_iff.mpr free)⟩

/-- Client 0 takes the lock with its second exchange while client 1 finds it taken. -/
theorem spinLock_refines_two_clients :
    ∃ (path : List (Transition (SpinLock Nat) (Event Nat))) (last : SpinLock Nat)
      (lockPath : List (Transition (Option Nat) (Lock.Event Nat))) (owner : Option Nat),
      Execution Step init path last ∧ Execution Lock.Step none lockPath owner ∧
      observed Event.seen path = [.acquire 0, .foundOwned 1, .release 0] ∧
      lockPath.map Transition.label = [.acquire 0, .foundOwned 1, .release 0] := by
  have asked := (Execution.single (@Step.lock Nat _ init 0 rfl)).snoc (@Step.exchangeFails _ _ _ 0 rfl)
  have taken := (asked.snoc (@Step.load _ _ _ 0 rfl)).snoc (@Step.exchange _ _ _ 0 rfl rfl)
  have run := (taken.snoc (@Step.trylock _ _ _ 1 rfl)).snoc (@Step.unlock _ _ _ 0 rfl)
  obtain ⟨lockPath, owner, lockRun, sameLabels, -⟩ := spinLock_refines run
  exact ⟨_, _, lockPath, owner, run, lockRun, rfl, sameLabels⟩

end SpinLock

end UniKernel.Pthread
