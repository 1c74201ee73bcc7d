import UniKernel.Context.Switch

/-!
Owns the saved contexts over whole runs: as long as a task does not run, its
context holds the registers with which it entered `cpu_switch_to`, or what
`pthread_create` stored. So a task that is switched to goes on with these
registers, and a new one calls its start routine on its own stack.
-/

namespace UniKernel.Context

open UniKernel.Lib

variable {image : Image} {s s' first last : System} {event : Event} {cpu cpu' : Cpu}
  {mem mem' : Memory} {t next addr : Nat} {thread : NewThread} {origin : Origin}
  {path : List (Transition System Event)}

/-! ### What a saved context holds -/

/-- The context at `t` holds what its origin says. -/
def Origin.Holds (image : Image) (mem : Memory) (t : Nat) : Origin → Prop
  | .entered cpu => ∀ field, fieldAt mem t field = register cpu field
  | .created thread =>
      fieldAt mem t .x19 = thread.startRoutine.toNat ∧ fieldAt mem t .x20 = thread.arg.toNat ∧
        fieldAt mem t .lr = image.retFromFork.toNat ∧ fieldAt mem t .sp = thread.sp.toNat

theorem Origin.Holds.congr (holds : origin.Holds image mem t)
    (same : ∀ addr, InContext t addr → mem' addr = mem addr) : origin.Holds image mem' t := by
  have fields : ∀ field, fieldAt mem' t field = fieldAt mem t field := fieldAt_congr same
  cases origin with
  | entered cpu =>
      intro field
      rw [fields]
      exact holds field
  | created thread =>
      simp only [Holds, fields]
      exact holds

/-- The structs of the tasks lie apart in the address space, and every task that
does not run has a context that holds what its origin says. -/
structure Sound (image : Image) (s : System) : Prop where
  current : s.tasks s.current = true
  room : ∀ t, s.tasks t = true → t + taskSize ≤ 2 ^ 64
  apart : ∀ t, s.tasks t = true → ∀ other, s.tasks other = true → t ≠ other →
    t + taskSize ≤ other ∨ other + taskSize ≤ t
  holds : ∀ t, s.tasks t = true → t ≠ s.current →
    ∃ origin, s.origin t = some origin ∧ origin.Holds image s.cpu.mem t

theorem contextSize_lt : contextSize < taskSize := by decide

theorem Sound.contextRoom (sound : Sound image s) (known : s.tasks t = true) :
    t + contextSize ≤ 2 ^ 64 := by
  have room := sound.room t known
  have smaller := contextSize_lt
  omega

/-- The contexts of two tasks share no byte. -/
theorem Sound.notInContext (sound : Sound image s) {other : Nat} (known : s.tasks t = true)
    (otherKnown : s.tasks other = true) (distinct : t ≠ other) (inside : InContext t addr) :
    ¬ InContext other addr := by
  have apart := sound.apart t known other otherKnown distinct
  have smaller := contextSize_lt
  rw [InContext] at inside ⊢
  omega

theorem Sound.initial (initial : Initial s) : Sound image s where
  current := (initial.tasks s.current).mpr rfl
  room := by
    intro t known
    rw [(initial.tasks t).mp known]
    exact initial.room
  apart := by
    intro t known other otherKnown distinct
    exact absurd (((initial.tasks t).mp known).trans ((initial.tasks other).mp otherKnown).symm)
      distinct
  holds := fun t known other => absurd ((initial.tasks t).mp known) other

/-! ### `pthread_create` -/

/-- A new context holds what `pthread_create` stores. -/
theorem storeContext_holds :
    (Origin.created thread).Holds image (storeContext image.retFromFork thread t mem) t := by
  have word : ∀ value : BitVec 64, value.toNat % 256 ^ 8 = value.toNat := fun value =>
    Nat.mod_eq_of_lt value.isLt
  simp only [Origin.Holds, fieldAt, storeContext, offset_eq, switchOffset, Field.size]
  refine ⟨?_, ?_, ?_, ?_⟩
  · rw [Memory.load_store_same, word]
  · rw [Memory.load_store_disjoint _ (by omega), Memory.load_store_same, word]
  · rw [Memory.load_store_disjoint _ (by omega), Memory.load_store_disjoint _ (by omega),
      Memory.load_store_same, word]
  · rw [Memory.load_store_disjoint _ (by omega), Memory.load_store_disjoint _ (by omega),
      Memory.load_store_disjoint _ (by omega), Memory.load_store_same, word]

theorem storeContext_outside {retFromFork : BitVec 64} (outside : ¬ InContext t addr) :
    storeContext retFromFork thread t mem addr = mem addr := by
  have size : contextSize = 240 := rfl
  rw [InContext, size] at outside
  simp only [storeContext, offset_eq, switchOffset]
  rw [Memory.store_outside _ (by omega), Memory.store_outside _ (by omega),
    Memory.store_outside _ (by omega), Memory.store_outside _ (by omega)]

/-- Clearing the new struct leaves other structs alone. -/
theorem memset_outside (outside : addr < t ∨ t + taskSize ≤ addr) :
    CString.memset t 0 taskSize mem addr = mem addr := by
  rw [CString.memset_apply, if_neg]
  omega

/-! ### Steps -/

theorem Sound.run (sound : Sound image s) (same : Memory.AgreeOn s.Saved s.cpu.mem cpu.mem) :
    Sound image { s with cpu := cpu } where
  current := sound.current
  room := sound.room
  apart := sound.apart
  holds := by
    intro t known other
    rcases sound.holds t known other with ⟨origin, isOrigin, holds⟩
    refine ⟨origin, isOrigin, holds.congr ?_⟩
    intro addr inside
    exact (same addr ⟨t, known, other, inside⟩).symm

theorem FreshTask.ne (fresh : FreshTask s t) {other : Nat} (known : s.tasks other = true) :
    other ≠ t := by
  intro same
  rw [same, fresh.unused] at known
  cases known

/-- `pthread_create` writes no saved context but the new one. -/
theorem FreshTask.create_outside (fresh : FreshTask s t) {middle : Memory}
    (same : Memory.AgreeOn (fun addr => s.Saved addr ∨ InContext t addr)
      (CString.memset t 0 taskSize s.cpu.mem) middle)
    {other : Nat} (known : s.tasks other = true) (notCurrent : other ≠ s.current)
    (inside : InContext other addr) :
    storeContext image.retFromFork thread t middle addr = s.cpu.mem addr := by
  have apart := fresh.apart other known
  have smaller := contextSize_lt
  have notHere : ¬ InContext t addr := by
    rw [InContext] at inside ⊢
    omega
  rw [storeContext_outside notHere, ← same addr (Or.inl ⟨other, known, notCurrent, inside⟩)]
  apply memset_outside
  rw [InContext] at inside
  omega

theorem Sound.create (sound : Sound image s) (fresh : FreshTask s t) {middle : Memory}
    (same : Memory.AgreeOn (fun addr => s.Saved addr ∨ InContext t addr)
      (CString.memset t 0 taskSize s.cpu.mem) middle)
    (stored : cpu.mem = storeContext image.retFromFork thread t middle) :
    Sound image
      { s with
        cpu := cpu
        tasks := Function.update s.tasks t true
        origin := Function.update s.origin t (some (.created thread)) } := by
  have cases : ∀ other, Function.update s.tasks t true other = true →
      other = t ∨ other ≠ t ∧ s.tasks other = true := by
    intro other known
    rw [Function.update_apply] at known
    split at known
    · next here => exact Or.inl here
    · next elsewhere => exact Or.inr ⟨elsewhere, known⟩
  have currentNe : s.current ≠ t := fresh.ne sound.current
  refine ⟨?_, ?_, ?_, ?_⟩
  · dsimp only
    rw [Function.update_of_ne currentNe]
    exact sound.current
  · intro other known
    rcases cases other known with rfl | ⟨-, before⟩
    · exact fresh.room
    · exact sound.room other before
  · intro first known second secondKnown distinct
    rcases cases first known with rfl | ⟨-, before⟩
    · rcases cases second secondKnown with rfl | ⟨-, secondBefore⟩
      · exact absurd rfl distinct
      · exact fresh.apart second secondBefore
    · rcases cases second secondKnown with rfl | ⟨-, secondBefore⟩
      · exact (fresh.apart first before).symm
      · exact sound.apart first before second secondBefore distinct
  · intro other known notCurrent
    dsimp only
    rw [stored]
    rcases cases other known with rfl | ⟨elsewhere, before⟩
    · exact ⟨_, Function.update_self _ _ _, storeContext_holds⟩
    · rcases sound.holds other before notCurrent with ⟨origin, isOrigin, holds⟩
      refine ⟨origin, ?_, holds.congr ?_⟩
      · rw [Function.update_of_ne elsewhere]
        exact isOrigin
      · intro addr inside
        exact fresh.create_outside same before notCurrent inside

theorem Sound.free (sound : Sound image s) (notCurrent : t ≠ s.current) :
    Sound image { s with tasks := Function.update s.tasks t false } := by
  have before : ∀ other, Function.update s.tasks t false other = true → s.tasks other = true := by
    intro other known
    rw [Function.update_apply] at known
    split at known
    · cases known
    · exact known
  refine ⟨?_, ?_, ?_, ?_⟩
  · dsimp only
    rw [Function.update_of_ne notCurrent.symm]
    exact sound.current
  · exact fun other known => sound.room other (before other known)
  · exact fun first known second secondKnown =>
      sound.apart first (before first known) second (before second secondKnown)
  · exact fun other known => sound.holds other (before other known)

/-- What a call of `cpu_switch_to` does, in a sound state. -/
theorem Sound.switched (sound : Sound image s) (prevArg : (s.cpu.x 0).toNat = s.current)
    (nextArg : (s.cpu.x 1).toNat = next) (known : s.tasks next = true) :
    Switched s.cpu (s.cpu.execAll cpuSwitchTo) s.current next := by
  have prevRoom := sound.contextRoom sound.current
  have nextRoom := sound.contextRoom known
  rw [← prevArg] at prevRoom ⊢
  rw [← nextArg] at nextRoom ⊢
  exact Context.switched prevRoom nextRoom

/-- The contexts behind a switch: the outgoing one is new, the others are kept. -/
theorem Sound.holds_switched (sound : Sound image s)
    (switched : Switched s.cpu cpu' s.current next) (known : s.tasks t = true) :
    ∃ origin, Function.update s.origin s.current (some (.entered s.cpu)) t = some origin ∧
      origin.Holds image cpu'.mem t := by
  by_cases isPrev : t = s.current
  · subst isPrev
    exact ⟨.entered s.cpu, Function.update_self _ _ _, switched.saved⟩
  · rcases sound.holds t known isPrev with ⟨origin, isOrigin, holds⟩
    refine ⟨origin, ?_, holds.congr ?_⟩
    · rw [Function.update_of_ne isPrev]
      exact isOrigin
    · intro addr inside
      exact switched.outside addr (sound.notInContext known sound.current isPrev inside)

theorem Sound.step (sound : Sound image s) (taken : Step image s event s') : Sound image s' := by
  cases taken with
  | run same => exact sound.run same
  | create fresh same stored => exact sound.create fresh same stored
  | free notCurrent => exact sound.free notCurrent
  | switchTo here prevArg nextArg known =>
      have switched := sound.switched prevArg nextArg known
      exact {
        current := known
        room := sound.room
        apart := sound.apart
        holds := fun t isTask _ => sound.holds_switched switched isTask }

/-! ### Resuming and starting -/

/-- The registers with which a task goes on are those with which it entered
`cpu_switch_to`, and it goes on behind that call. -/
structure Resumed (entered cpu : Cpu) : Prop where
  x : ∀ number, 19 ≤ number → number ≤ 30 → cpu.x number = entered.x number
  sp : cpu.sp = entered.sp
  q : ∀ number, 8 ≤ number → number ≤ 15 → cpu.q number = entered.q number
  pc : cpu.pc = entered.x 30

/-- From here control calls `sched_unlock_release`, then the start routine with
its argument, then `pthread_exit` with what the routine returned. -/
def CallsStartRoutine (image : Image) (thread : NewThread) (cpu : Cpu) : Prop :=
  ∃ unlock, cpu.steps image.fetch 1 = some unlock ∧ unlock.pc = image.schedUnlockRelease ∧
    ∀ unlocked, AfterCall unlock unlocked →
      ∃ routine, unlocked.steps image.fetch 2 = some routine ∧
        routine.pc = thread.startRoutine ∧ routine.x 0 = thread.arg ∧ routine.sp = cpu.sp ∧
        ∀ finished, AfterCall routine finished →
          ∃ exit, finished.steps image.fetch 1 = some exit ∧ exit.pc = image.pthreadExit ∧
            exit.x 0 = finished.x 0

structure Started (image : Image) (thread : NewThread) (cpu : Cpu) : Prop where
  pc : cpu.pc = image.retFromFork
  aligned : cpu.sp.toNat % 16 = 0
  below : cpu.sp.toNat ≤ thread.stackTop.toNat
  calls : CallsStartRoutine image thread cpu

theorem resumed_of_registers {entered : Cpu}
    (same : ∀ field, register cpu field = register entered field) (isLink : cpu.pc = cpu.x 30) :
    Resumed entered cpu where
  x := by
    intro number above below
    have cases : number = 19 ∨ number = 20 ∨ number = 21 ∨ number = 22 ∨ number = 23 ∨
        number = 24 ∨ number = 25 ∨ number = 26 ∨ number = 27 ∨ number = 28 ∨ number = 29 ∨
        number = 30 := by omega
    apply BitVec.eq_of_toNat_eq
    rcases cases with rfl | rfl | rfl | rfl | rfl | rfl | rfl | rfl | rfl | rfl | rfl | rfl
    · exact same .x19
    · exact same .x20
    · exact same .x21
    · exact same .x22
    · exact same .x23
    · exact same .x24
    · exact same .x25
    · exact same .x26
    · exact same .x27
    · exact same .x28
    · exact same .fp
    · exact same .lr
  sp := BitVec.eq_of_toNat_eq (same .sp)
  q := by
    intro number above below
    have cases : number = 8 ∨ number = 9 ∨ number = 10 ∨ number = 11 ∨ number = 12 ∨
        number = 13 ∨ number = 14 ∨ number = 15 := by omega
    apply BitVec.eq_of_toNat_eq
    rcases cases with rfl | rfl | rfl | rfl | rfl | rfl | rfl | rfl
    · exact same .q8
    · exact same .q9
    · exact same .q10
    · exact same .q11
    · exact same .q12
    · exact same .q13
    · exact same .q14
    · exact same .q15
  pc := isLink.trans (BitVec.eq_of_toNat_eq (same .lr))

theorem NewThread.sp_toNat (thread : NewThread) :
    thread.sp.toNat % 16 = 0 ∧ thread.sp.toNat ≤ thread.stackTop.toNat := by
  have bits : thread.sp.toNat = thread.stackTop.toNat &&& (2 ^ 64 - 16) := BitVec.toNat_and ..
  refine ⟨?_, ?_⟩
  · have low : thread.sp.toNat &&& (2 ^ 4 - 1) = thread.sp.toNat % 2 ^ 4 :=
      Nat.and_two_pow_sub_one_eq_mod _ 4
    have noBit : (2 ^ 64 - 16) &&& (2 ^ 4 - 1) = 0 := by decide
    rw [bits, Nat.and_assoc, noBit, Nat.and_zero] at low
    rw [bits]
    exact low.symm
  · rw [bits]
    exact Nat.and_le_left

/-- The code of `ret_from_fork`, call by call. -/
theorem callsStartRoutine (here : cpu.pc = image.retFromFork)
    (startRoutine : cpu.x 19 = thread.startRoutine) (arg : cpu.x 20 = thread.arg) :
    CallsStartRoutine image thread cpu := by
  rcases image.forkLoaded with ⟨first, second, third, fourth, -⟩
  rw [← here] at first second third fourth
  refine ⟨cpu.exec (.bl image.schedUnlockRelease), Cpu.steps_succ first 0, rfl, ?_⟩
  intro unlocked unlockReturned
  have afterUnlock : unlocked.pc = cpu.pc + 4 := unlockReturned.pc
  have sameX19 : unlocked.x 19 = cpu.x 19 := unlockReturned.kept 19 (by decide) (by decide)
  have sameX20 : unlocked.x 20 = cpu.x 20 := unlockReturned.kept 20 (by decide) (by decide)
  rw [← afterUnlock] at second third fourth
  refine ⟨(unlocked.exec (.mov 0 20)).exec (.blr 19), ?_, ?_, ?_, ?_, ?_⟩
  · rw [Cpu.steps_succ second]
    exact Cpu.steps_succ third 0
  · exact sameX19.trans startRoutine
  · exact sameX20.trans arg
  · exact unlockReturned.sp
  · intro finished routineReturned
    have afterRoutine : finished.pc = unlocked.pc + 4 + 4 := routineReturned.pc
    rw [← afterRoutine] at fourth
    exact ⟨finished.exec (.bl image.pthreadExit), Cpu.steps_succ fourth 0, rfl, rfl⟩

/-! ### Runs -/

/-- Where control goes with a switch, by the origin of the context loaded. -/
def Continues (image : Image) (cpu : Cpu) : Origin → Prop
  | .entered entered => Resumed entered cpu
  | .created thread => Started image thread cpu

theorem continues_of_holds (switched : Switched cpu cpu' s.current next)
    (holds : origin.Holds image cpu'.mem next) : Continues image cpu' origin := by
  cases origin with
  | entered entered =>
      apply resumed_of_registers _ switched.pc
      intro field
      rw [switched.loaded field]
      exact holds field
  | created thread =>
      rcases holds with ⟨startRoutine, arg, link, sp⟩
      have isLink : cpu'.x 30 = image.retFromFork :=
        BitVec.eq_of_toNat_eq ((switched.loaded .lr).trans link)
      have isSp : cpu'.sp = thread.sp := BitVec.eq_of_toNat_eq ((switched.loaded .sp).trans sp)
      have here : cpu'.pc = image.retFromFork := switched.pc.trans isLink
      refine ⟨here, ?_, ?_, ?_⟩
      · rw [isSp]
        exact thread.sp_toNat.1
      · rw [isSp]
        exact thread.sp_toNat.2
      · apply callsStartRoutine here
        · exact BitVec.eq_of_toNat_eq ((switched.loaded .x19).trans startRoutine)
        · exact BitVec.eq_of_toNat_eq ((switched.loaded .x20).trans arg)

/-- In every run of one core among its tasks each call of `cpu_switch_to` runs to
its end, resumes the next task as it was or starts it, and changes the saved
context of no other task. -/
theorem switches_resume (initial : Initial first) (run : Execution (Step image) first path last) :
    ∀ transition ∈ path, ∀ next, transition.label = .switchTo next →
      transition.source.cpu.steps image.fetch cpuSwitchTo.length = some transition.target.cpu ∧
      (∃ origin, transition.target.origin next = some origin ∧
        Continues image transition.target.cpu origin) ∧
      ∀ t, transition.source.tasks t = true → t ≠ transition.source.current →
        ∀ addr, InContext t addr →
          transition.target.cpu.mem addr = transition.source.cpu.mem addr := by
  have start : Sound image first := Sound.initial initial
  have sound := run.invariant_transitions start
    fun _ _ _ holds taken => Sound.step holds taken
  intro transition member next isSwitch
  have taken := run.step_of_mem member
  have before := (sound transition member).1
  rcases transition with ⟨source, label, target⟩
  dsimp only at isSwitch taken before ⊢
  subst isSwitch
  cases taken with
  | switchTo here prevArg nextArg known =>
      have switched := before.switched prevArg nextArg known
      refine ⟨steps_cpuSwitchTo image here, ?_, ?_⟩
      · rcases before.holds_switched switched known with ⟨origin, isOrigin, holds⟩
        exact ⟨origin, isOrigin, continues_of_holds switched holds⟩
      · intro t isTask notCurrent addr inside
        exact switched.outside addr
          (before.notInContext isTask before.current notCurrent inside)

/-- An image with the two functions at 0x1000 and 0x2000. -/
def smallImage : Image where
  fetch := fun addr =>
    if addr.toNat < 0x2000 then Context.cpuSwitchTo[(addr.toNat - 0x1000) / 4]?
    else (Context.retFromFork 0x2000 0x3000 0x4000)[(addr.toNat - 0x2000) / 4]?
  cpuSwitchTo := 0x1000
  retFromFork := 0x2000
  schedUnlockRelease := 0x3000
  pthreadExit := 0x4000
  switchLoaded := by decide +kernel
  forkLoaded := by decide +kernel

/-- A core about to call `cpu_switch_to(prev, next)`. -/
def callingSwitch (prev next : Nat) (mem : Memory) : Cpu where
  x := fun number =>
    if number = 0 then .ofNat 64 prev else if number = 1 then .ofNat 64 next
    else .ofNat 64 number
  sp := 0x8000
  q := fun number => .ofNat 128 number
  pc := 0x1000
  mem := mem

/-- A task creates a second one and switches to it, which switches back. -/
theorem switches_resume_two_tasks : ∃ first path last, Initial first ∧
    Execution (Step smallImage) first path last ∧
    path.map Transition.label =
      [.create 0x20000 ⟨0x5000, 7, 0x30000, 0x1008⟩, .switchTo 0x20000, .run, .switchTo 0x10000] ∧
    ∀ transition ∈ path, ∀ next, transition.label = .switchTo next →
      ∃ origin, transition.target.origin next = some origin ∧
        Continues smallImage transition.target.cpu origin := by
  have size : taskSize = 304 := by decide +kernel
  let start : System :=
    ⟨callingSwitch 0 0 fun _ => 0, 0x10000, fun t => decide (t = 0x10000), fun _ => none⟩
  have initial : Initial start := by
    refine ⟨fun t => decide_eq_true_iff, ?_⟩
    change 0x10000 + taskSize ≤ 2 ^ 64
    omega
  have fresh : FreshTask start 0x20000 := by
    refine ⟨rfl, ?_, ?_⟩
    · omega
    · intro other known
      rw [of_decide_eq_true known]
      omega
  have created := Execution.single (@Step.create smallImage start 0x20000
    ⟨0x5000, 7, 0x30000, 0x1008⟩ _ (callingSwitch 0x10000 0x20000 _) fresh (fun _ _ => rfl) rfl)
  have switched := created.snoc (@Step.switchTo smallImage _ 0x20000 rfl rfl rfl rfl)
  have ran := switched.snoc
    (@Step.run smallImage _ (callingSwitch 0x20000 0x10000 _) fun _ _ => rfl)
  have back := ran.snoc (@Step.switchTo smallImage _ 0x10000 rfl rfl rfl rfl)
  refine ⟨start, _, _, initial, back, rfl, ?_⟩
  intro transition member next isSwitch
  exact (switches_resume initial back transition member next isSwitch).2.1

end UniKernel.Context
