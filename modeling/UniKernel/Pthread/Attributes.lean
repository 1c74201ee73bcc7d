import UniKernel.Pthread.Machine

/-!
Owns the attributes of a thread: `pthread_attr_t`, the functions that fill one
in, and the attributes a program can get from them. An attribute reaches
`pthread_create` as the fields that function reads.
-/

namespace UniKernel.Pthread

/-- `EINVAL` -/
def einval : Nat := 28

/-- `pthread_attr_t`, without `inheritsched`, which nothing reads or writes. -/
structure PthreadAttr where
  detachstate : Int
  stacksize : Nat
  stackaddr : Nat
  schedpolicy : Int
  schedparam : Int
  isInitialized : Bool
deriving DecidableEq, Repr

/-! ### The functions on attributes

Each gets a pointer, `none` for NULL, and returns its result with the attribute
behind the pointer. -/

def pthreadAttrInit : Option PthreadAttr → Nat × Option PthreadAttr
  | none => (einval, none)
  | some _ => (0, some ⟨0, 4096 * 4, 0, 0, 2, true⟩)

def pthreadAttrDestroy : Option PthreadAttr → Nat × Option PthreadAttr
  | none => (einval, none)
  | some attr => (0, some { attr with isInitialized := false })

/-- A setter: it rejects NULL, an attribute that is not initialised, and the
values that do not meet its own test. -/
def setAttr (valid : Prop) [Decidable valid] (set : PthreadAttr → PthreadAttr) :
    Option PthreadAttr → Nat × Option PthreadAttr
  | none => (einval, none)
  | some attr =>
      if attr.isInitialized ∧ valid then (0, some (set attr)) else (einval, some attr)

def pthreadAttrSetstacksize (stacksize : Nat) : Option PthreadAttr → Nat × Option PthreadAttr :=
  setAttr (4096 ≤ stacksize) fun attr => { attr with stacksize := stacksize }

def pthreadAttrSetstack (stackaddr stacksize : Nat) :
    Option PthreadAttr → Nat × Option PthreadAttr :=
  setAttr (4096 ≤ stacksize) fun attr =>
    { attr with stackaddr := stackaddr, stacksize := stacksize }

def pthreadAttrSetdetachstate (detachstate : Int) :
    Option PthreadAttr → Nat × Option PthreadAttr :=
  setAttr (detachstate = 0 ∨ detachstate = 1) fun attr => { attr with detachstate := detachstate }

def pthreadAttrSetschedpolicy (policy : Int) : Option PthreadAttr → Nat × Option PthreadAttr :=
  setAttr True fun attr => { attr with schedpolicy := policy }

/-- The parameter is behind a pointer of its own. -/
def pthreadAttrSetschedparam : Option Int → Option PthreadAttr → Nat × Option PthreadAttr
  | none => setAttr False id
  | some param =>
      setAttr (0 ≤ param ∧ param < priorityCount) fun attr => { attr with schedparam := param }

/-- A call of one of these functions. -/
inductive AttrCall where
  | init
  | destroy
  | setstacksize (stacksize : Nat)
  | setstack (stackaddr stacksize : Nat)
  | setdetachstate (detachstate : Int)
  | setschedpolicy (policy : Int)
  | setschedparam (param : Option Int)
deriving DecidableEq, Repr

def AttrCall.apply : AttrCall → Option PthreadAttr → Nat × Option PthreadAttr
  | .init => pthreadAttrInit
  | .destroy => pthreadAttrDestroy
  | .setstacksize stacksize => pthreadAttrSetstacksize stacksize
  | .setstack stackaddr stacksize => pthreadAttrSetstack stackaddr stacksize
  | .setdetachstate detachstate => pthreadAttrSetdetachstate detachstate
  | .setschedpolicy policy => pthreadAttrSetschedpolicy policy
  | .setschedparam param => pthreadAttrSetschedparam param

/-- The attribute after some calls. -/
def applyAll (calls : List AttrCall) (attr : Option PthreadAttr) : Option PthreadAttr :=
  calls.foldl (fun attr call => (call.apply attr).2) attr

/-! ### Accepted attributes -/

/-- What every accepted value meets. -/
structure PthreadAttr.InRange (attr : PthreadAttr) : Prop where
  detachstate : attr.detachstate = 0 ∨ attr.detachstate = 1
  stacksize : 4096 ≤ attr.stacksize
  schedparam : 0 ≤ attr.schedparam ∧ attr.schedparam < priorityCount

/-- An initialised attribute: `pthread_attr_init` filled it in, and any calls
may have followed, accepted or not. -/
def Accepted (attr : PthreadAttr) : Prop :=
  attr.isInitialized = true ∧
    ∃ memory calls, applyAll (.init :: calls) (some memory) = some attr

/-- A setter keeps what the values it accepts keep. -/
theorem setAttr_keeps {valid : Prop} [Decidable valid] {set : PthreadAttr → PthreadAttr}
    (keeps : valid → ∀ attr : PthreadAttr, attr.InRange → (set attr).InRange) {attr : PthreadAttr}
    (inRange : attr.InRange) : ∀ after ∈ (setAttr valid set (some attr)).2, after.InRange := by
  intro after isAfter
  rw [setAttr] at isAfter
  split at isAfter
  · next accepted =>
      rw [← Option.some.inj isAfter]
      exact keeps accepted.2 attr inRange
  · rw [← Option.some.inj isAfter]
    exact inRange

theorem AttrCall.keeps_inRange (call : AttrCall) {attr : PthreadAttr} (inRange : attr.InRange) :
    ∀ after ∈ (call.apply (some attr)).2, after.InRange := by
  cases call with
  | init =>
      intro after isAfter
      rw [← Option.some.inj isAfter]
      exact ⟨Or.inl rfl, show 4096 ≤ 4096 * 4 by decide, show (0 : Int) ≤ 2 ∧ (2 : Int) < 5 by decide⟩
  | destroy =>
      intro after isAfter
      rw [← Option.some.inj isAfter]
      exact ⟨inRange.detachstate, inRange.stacksize, inRange.schedparam⟩
  | setstacksize stacksize =>
      apply setAttr_keeps _ inRange
      exact fun valid _ before => ⟨before.detachstate, valid, before.schedparam⟩
  | setstack stackaddr stacksize =>
      apply setAttr_keeps _ inRange
      exact fun valid _ before => ⟨before.detachstate, valid, before.schedparam⟩
  | setdetachstate detachstate =>
      apply setAttr_keeps _ inRange
      exact fun valid _ before => ⟨valid, before.stacksize, before.schedparam⟩
  | setschedpolicy policy =>
      apply setAttr_keeps _ inRange
      exact fun _ _ before => ⟨before.detachstate, before.stacksize, before.schedparam⟩
  | setschedparam param =>
      cases param with
      | none =>
          apply setAttr_keeps _ inRange
          exact fun valid => absurd valid id
      | some param =>
          apply setAttr_keeps _ inRange
          exact fun valid _ before => ⟨before.detachstate, before.stacksize, valid⟩

/-- No function makes a pointer NULL. -/
theorem AttrCall.exists_apply (call : AttrCall) (attr : PthreadAttr) :
    ∃ after, (call.apply (some attr)).2 = some after := by
  have setter : ∀ (valid : Prop) [Decidable valid] (set : PthreadAttr → PthreadAttr),
      ∃ after, (setAttr valid set (some attr)).2 = some after := by
    intro valid _ set
    rw [setAttr]
    split
    · exact ⟨_, rfl⟩
    · exact ⟨_, rfl⟩
  cases call with
  | init => exact ⟨_, rfl⟩
  | destroy => exact ⟨_, rfl⟩
  | setstacksize stacksize => exact setter _ _
  | setstack stackaddr stacksize => exact setter _ _
  | setdetachstate detachstate => exact setter _ _
  | setschedpolicy policy => exact setter _ _
  | setschedparam param =>
      cases param with
      | none => exact setter _ _
      | some param => exact setter _ _

theorem inRange_applyAll (calls : List AttrCall) {attr : PthreadAttr} (inRange : attr.InRange) :
    ∀ after ∈ applyAll calls (some attr), after.InRange := by
  induction calls generalizing attr with
  | nil =>
      intro after isAfter
      rw [← Option.some.inj isAfter]
      exact inRange
  | cons call rest inductionHypothesis =>
      rcases call.exists_apply attr with ⟨middle, isMiddle⟩
      have inRangeMiddle := call.keeps_inRange inRange middle isMiddle
      intro after isAfter
      rw [applyAll, List.foldl_cons, isMiddle] at isAfter
      exact inductionHypothesis inRangeMiddle after isAfter

/-- An accepted attribute holds accepted values, whatever was called. -/
theorem Accepted.inRange {attr : PthreadAttr} (accepted : Accepted attr) : attr.InRange := by
  rcases accepted.2 with ⟨memory, calls, isAttr⟩
  have start : PthreadAttr.InRange ⟨0, 4096 * 4, 0, 0, 2, true⟩ :=
    ⟨Or.inl rfl, show 4096 ≤ 4096 * 4 by decide, show (0 : Int) ≤ 2 ∧ (2 : Int) < 5 by decide⟩
  exact inRange_applyAll calls start attr isAttr

/-! ### What `pthread_create` reads -/

/-- The fields `pthread_create` reads. No accepted `schedparam` is negative. -/
def PthreadAttr.fields (attr : PthreadAttr) : Attr :=
  ⟨attr.stacksize, attr.stackaddr, attr.schedparam.toNat, attr.isInitialized⟩

/-- The argument `attr` of `pthread_create`: NULL, not initialised, or accepted. -/
def AcceptedArgument (attr : Option Attr) : Prop :=
  ∀ used ∈ Machine.usedAttr attr, ∃ source : PthreadAttr, Accepted source ∧ used = source.fields

theorem Accepted.argument {attr : PthreadAttr} (accepted : Accepted attr) :
    AcceptedArgument (some attr.fields) := by
  intro used isUsed
  exact ⟨attr, accepted, (Option.some.inj (Option.mem_filter_iff.mp isUsed).1).symm⟩

theorem AcceptedArgument.schedparam_lt {attr : Option Attr} (accepted : AcceptedArgument attr)
    {used : Attr} (isUsed : used ∈ Machine.usedAttr attr) : used.schedparam < priorityCount := by
  rcases accepted used isUsed with ⟨source, isAccepted, rfl⟩
  have inRange := isAccepted.inRange.schedparam
  simp only [PthreadAttr.fields, priorityCount] at inRange ⊢
  omega

theorem AcceptedArgument.stacksize_pos {attr : Option Attr} (accepted : AcceptedArgument attr)
    {used : Attr} (isUsed : used ∈ Machine.usedAttr attr) : 0 < used.stacksize := by
  rcases accepted used isUsed with ⟨source, isAccepted, rfl⟩
  exact Nat.lt_of_lt_of_le (by decide) isAccepted.inRange.stacksize

/-- With an accepted attribute the new task has the priority IDLE exactly when
`schedparam` is 0. -/
theorem AcceptedArgument.createPriority_eq_idle_iff {attr : Option Attr}
    (accepted : AcceptedArgument attr) :
    Machine.createPriority attr false = idlePriority ↔
      ∃ used ∈ Machine.usedAttr attr, used.schedparam = 0 := by
  unfold Machine.createPriority
  rw [if_neg Bool.false_ne_true]
  split
  · next used isUsed =>
      have small : used.schedparam < 5 := accepted.schedparam_lt isUsed
      rw [Nat.mod_eq_of_lt small, isUsed]
      simp
  · next isUsed =>
      rw [isUsed]
      simp

end UniKernel.Pthread
