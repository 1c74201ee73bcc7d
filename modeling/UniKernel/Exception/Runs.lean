import UniKernel.Context.Model
import UniKernel.Exception.Frame
import UniKernel.Lib.Transition

/-!
Owns programs that are interrupted between their instructions: an exception
whose handler returns is not noticed, so a program with interrupts does what it
does without them, and an instruction that raises an exception is never passed.
-/

namespace UniKernel.Exception

open UniKernel.Lib

variable {image : Image} {kind : Kind} {touched : Nat → Prop} {before called returned after : Core}

/-! ### One exception -/

/-- What a handler is called with. -/
structure Entered (image : Image) (kind : Kind) (before called : Core) : Prop where
  pc : called.pc = image.handler kind
  arg : called.x 0 = called.sp
  link : called.x 30 = image.entry kind + .ofNat 64 (4 * (callHandler (image.handler kind)).length)
  sp : called.sp = before.sp - 816
  masked : called.pstate &&& Core.daif = Core.daif
  vbarEl1 : called.vbarEl1 = before.vbarEl1
  frame : FrameAt called.mem called.sp.toNat before
  outside : ∀ addr, ¬ InFrame before addr → called.mem addr = before.mem addr

theorem Kind.branch (image : Image) (kind : Kind) :
    image.fetch (image.el1VectorTable + .ofNat 64 kind.vector) =
      some (.cpu (.b (image.entry kind))) := by
  obtain ⟨sync, irq, -⟩ := image.table 1 (by decide)
  cases kind with
  | sync => exact sync
  | irq => exact irq

theorem sub_toNat (room : trapframeSize ≤ before.sp.toNat) :
    (before.sp - 816).toNat = before.sp.toNat - 816 := by
  rw [trapframeSize_eq] at room
  exact BitVec.toNat_sub_of_le room

/-- `callHandler` up to its call. -/
def prepareCall : List CoreInstr := saveContext ++ [.cpu (.movFromSp 0)]

theorem length_callHandler (handler : BitVec 64) :
    (callHandler handler).length = prepareCall.length + 1 := List.length_append

theorem prepareCall_straight : ∀ instr ∈ prepareCall, instr.straight = true := by decide

theorem execAll_callHandler (core : Core) (handler : BitVec 64) :
    core.execAll (callHandler handler) =
      ((core.execAll saveContext).exec (.cpu (.movFromSp 0))).exec (.cpu (.bl handler)) := by
  rw [callHandler, Core.execAll_append, Core.execAll_append]
  rfl

theorem masked_or (pstate mask : BitVec 64) : (pstate ||| mask) &&& mask = mask := by
  ext bit
  rw [BitVec.getElem_and, BitVec.getElem_or, Bool.and_or_distrib_right, Bool.and_self]
  cases pstate[bit] <;> cases mask[bit] <;> rfl

/-- The entry code runs up to the call of the handler. -/
theorem entered (kind : Kind) (isVector : before.vbarEl1 = image.el1VectorTable)
    (room : trapframeSize ≤ before.sp.toNat) :
    ∃ called, (before.takeException kind.vector before.pc).steps image.fetch entrySteps =
        some called ∧
      Entered image kind before called := by
  have branch := Kind.branch image kind
  rw [← isVector] at branch
  obtain ⟨start, isStart⟩ : ∃ start, start =
      (before.takeException kind.vector before.pc).exec (.cpu (.b (image.entry kind))) := ⟨_, rfl⟩
  have startPc : start.pc = image.entry kind := by
    rw [isStart]
    rfl
  have startRoom : trapframeSize ≤ start.sp.toNat := by
    rw [isStart]
    exact room
  have loaded := image.callLoaded kind
  rw [← startPc] at loaded
  have block : start.steps image.fetch (prepareCall.length + 1) = _ :=
    Core.steps_block prepareCall_straight loaded
  obtain ⟨pc, x, isSaved⟩ := execAll_saveContext startRoom
  have saved : Saved (before.takeException kind.vector before.pc) (start.execAll saveContext) := by
    refine ⟨pc, x, isSaved.trans ?_⟩
    rw [isStart]
    rfl
  have linkPc : ((start.execAll saveContext).exec (.cpu (.movFromSp 0))).pc + 4 =
      image.entry kind + .ofNat 64 (4 * (callHandler (image.handler kind)).length) := by
    have four : (4 : BitVec 64) = .ofNat 64 4 := rfl
    have prepared : (start.execAll prepareCall).pc = _ := Core.execAll_pc prepareCall_straight
    rw [prepareCall, Core.execAll_append] at prepared
    rw [length_callHandler, Nat.mul_succ, BitVec.ofNat_add, ← BitVec.add_assoc, ← startPc, four]
    exact congrArg (· + BitVec.ofNat 64 4) prepared
  have frame := frameAt_saved saved
  have outside : ∀ addr, ¬ InFrame before addr →
      (start.execAll saveContext).mem addr = before.mem addr := by
    intro addr notFrame
    apply mem_saved saved
    have base := sub_toNat room
    have size := trapframeSize_eq
    rw [InFrame] at notFrame
    change addr < (before.sp - 816).toNat ∨ (before.sp - 816).toNat + 816 ≤ addr
    omega
  rw [isSaved] at linkPc frame outside
  refine ⟨start.execAll (callHandler (image.handler kind)), ?_, ?_⟩
  · rw [entrySteps, length_callHandler, Nat.add_comm, Core.steps_succ branch, ← isStart]
    exact block
  · rw [execAll_callHandler, isSaved]
    refine ⟨rfl, rfl, linkPc, ?_, ?_, ?_, frame, outside⟩
    · rw [isStart]
      rfl
    · rw [isStart]
      exact masked_or _ _
    · rw [isStart]
      rfl

/-- A handler that keeps the frame returns to the core as it was. -/
theorem Entered.returns (entry : Entered image kind before called)
    (room : trapframeSize ≤ before.sp.toNat)
    (spared : ∀ addr, InFrame before addr → ¬ touched addr)
    (handled : Handled touched called returned) :
    ∃ after, returned.steps image.fetch leaveHandler.length = some after ∧
      Core.Agree (fun addr => ¬ touched addr ∧ ¬ InFrame before addr) before after := by
  have base := sub_toNat room
  have returnedSp : returned.sp = before.sp - 816 := handled.call.sp.trans entry.sp
  have frame : FrameAt returned.mem returned.sp.toNat before := by
    rw [handled.call.sp]
    apply entry.frame.congr
    intro addr above below
    apply handled.outside
    apply spared
    have size := trapframeSize_eq
    rw [entry.sp] at above below
    rw [InFrame]
    omega
  have back := restored (by rw [returnedSp, base]; omega) frame
  have here : returned.pc =
      image.entry kind + .ofNat 64 (4 * (callHandler (image.handler kind)).length) :=
    handled.call.pc.trans entry.link
  have loaded := image.leaveLoaded kind
  rw [← here] at loaded
  have straight : ∀ instr ∈ restoreContext, instr.straight = true := by decide
  refine ⟨returned.execAll leaveHandler, ?_, ?_⟩
  · have length : leaveHandler.length = restoreContext.length + 1 := List.length_append
    rw [length]
    exact Core.steps_block straight loaded
  · exact {
      x := fun number below => (back.x number below).symm
      q := fun number below => (back.q number below).symm
      sp := by
        rw [back.sp, returnedSp, BitVec.sub_add_cancel]
      pc := back.pc.symm
      pstate := back.pstate.symm
      fpsr := back.fpsr.symm
      fpcr := back.fpcr.symm
      spEl0 := back.spEl0.symm
      vbarEl1 := ((back.vbarEl1.trans handled.vbarEl1).trans entry.vbarEl1).symm
      mem := by
        intro addr inside
        rw [back.mem, handled.outside addr inside.1, entry.outside addr inside.2] }

/-- The exception is not noticed: its handler finds a `trapframe_t` of the core,
and however it returns by the call standard without writing to the frame, the
core goes on where it was, with all registers as they were. -/
theorem exception_unnoticed (image : Image) (kind : Kind) (touched : Nat → Prop) (before : Core)
    (isVector : before.vbarEl1 = image.el1VectorTable) (room : trapframeSize ≤ before.sp.toNat)
    (spared : ∀ addr, InFrame before addr → ¬ touched addr) :
    ∃ called, (before.takeException kind.vector before.pc).steps image.fetch entrySteps =
        some called ∧
      Entered image kind before called ∧
      ∀ returned, Handled touched called returned →
        ∃ after, returned.steps image.fetch leaveHandler.length = some after ∧
          Core.Agree (fun addr => ¬ touched addr ∧ ¬ InFrame before addr) before after := by
  obtain ⟨called, isCalled, entry⟩ := entered kind isVector room
  exact ⟨called, isCalled, entry, fun returned => entry.returns room spared⟩

/-- Code with the vectors at 0x800, the entries at 0x1000 and 0x2000 and
`cpu_switch_to` at 0x3000. -/
def smallFetch (addr : BitVec 64) : Option CoreInstr :=
  let addr := addr.toNat
  if addr < 0x800 then none
  else if addr < 0x1000 then
    if addr % 0x80 = 0 then
      [CoreInstr.cpu (.b 0x2000), .cpu (.b 0x1000), .cpu (.b 0x6000), .cpu (.b 0x7000)][
        addr / 0x80 % 4]?
    else none
  else if addr < 0x2000 then (callHandler 0x4000 ++ leaveHandler)[(addr - 0x1000) / 4]?
  else if addr < 0x3000 then (callHandler 0x5000 ++ leaveHandler)[(addr - 0x2000) / 4]?
  else (Context.cpuSwitchTo.map CoreInstr.cpu)[(addr - 0x3000) / 4]?

def smallEntry : Kind → BitVec 64
  | .sync => 0x2000
  | .irq => 0x1000

def smallHandler : Kind → BitVec 64
  | .sync => 0x5000
  | .irq => 0x4000

theorem smallFetch_table (group : Nat) (below : group < 4) :
    smallFetch (0x800 + .ofNat 64 (0x200 * group)) = some (.cpu (.b (smallEntry .sync))) ∧
    smallFetch (0x800 + .ofNat 64 (0x200 * group + 0x80)) = some (.cpu (.b (smallEntry .irq))) ∧
    smallFetch (0x800 + .ofNat 64 (0x200 * group + 0x100)) = some (.cpu (.b 0x6000)) ∧
    smallFetch (0x800 + .ofNat 64 (0x200 * group + 0x180)) = some (.cpu (.b 0x7000)) := by
  match group, below with
  | 0, _ | 1, _ | 2, _ | 3, _ => decide +kernel

theorem smallFetch_callLoaded (kind : Kind) :
    CodeAt smallFetch (smallEntry kind) (callHandler (smallHandler kind)) := by
  cases kind <;> decide +kernel

theorem smallFetch_leaveLoaded (kind : Kind) :
    CodeAt smallFetch
      (smallEntry kind + .ofNat 64 (4 * (callHandler (smallHandler kind)).length)) leaveHandler := by
  cases kind <;> decide +kernel

def smallVectors : Image where
  fetch := smallFetch
  el1VectorTable := 0x800
  entry := smallEntry
  handler := smallHandler
  el1FiqHandler := 0x6000
  el1SerrHandler := 0x7000
  table := smallFetch_table
  callLoaded := smallFetch_callLoaded
  leaveLoaded := smallFetch_leaveLoaded

/-- A core that is about to call `cpu_switch_to(0x10000, 0x11000)` on a stack at
0x20000; the stack of the incoming task is at 0x30000. -/
def smallCore (pc : BitVec 64) : Core where
  x := fun number => if number = 0 then 0x10000 else if number = 1 then 0x11000 else 7
  sp := 0x20000
  q := fun _ => 9
  pc := pc
  mem := Memory.store (fun _ => 0) 0x11060 8 0x30000
  pstate := 0x5
  fpsr := 1
  fpcr := 2
  spEl0 := 3
  elrEl1 := 0
  spsrEl1 := 0
  vbarEl1 := 0x800

theorem exception_unnoticed_small :
    ∃ called, ((smallCore 0x3000).takeException 0x280 0x3000).steps smallVectors.fetch entrySteps =
        some called ∧
      Entered smallVectors .irq (smallCore 0x3000) called ∧
      ∀ returned, Handled (fun addr => addr < 0x1000) called returned →
        ∃ after, returned.steps smallVectors.fetch leaveHandler.length = some after ∧
          Core.Agree (fun addr => ¬ addr < 0x1000 ∧ ¬ InFrame (smallCore 0x3000) addr)
            (smallCore 0x3000) after := by
  have size := trapframeSize_eq
  have sp : (smallCore 0x3000).sp.toNat = 0x20000 := rfl
  refine exception_unnoticed smallVectors .irq (fun addr => addr < 0x1000) (smallCore 0x3000) rfl
    ?_ ?_
  · rw [sp]
    omega
  · intro addr inFrame low
    rw [InFrame, sp] at inFrame
    omega

/-- Every exception can be taken: its handler may return at once. -/
theorem taken_exists (kind : Kind) (isVector : before.vbarEl1 = image.el1VectorTable)
    (room : trapframeSize ≤ before.sp.toNat) :
    ∃ after, Taken image kind (fun _ => False) before after := by
  obtain ⟨called, isCalled, entry⟩ := entered kind isVector room
  have handled : Handled (fun _ => False) called { called with pc := called.x 30 } :=
    ⟨⟨rfl, rfl, fun _ _ _ => rfl⟩, fun _ _ => rfl, rfl⟩
  obtain ⟨after, isAfter, -⟩ := entry.returns room (fun _ _ => not_false) handled
  exact ⟨after, isVector, room, fun _ _ => not_false, called, _, isCalled, handled, isAfter⟩

/-- A core that comes back from an exception looks the same to every program whose
bytes neither the frame nor the handler uses. -/
theorem Taken.agree {own : Nat → Prop} (taken : Taken image kind touched before after)
    (apart : ∀ addr, own addr → ¬ InFrame before addr) (kept : ∀ addr, own addr → ¬ touched addr) :
    Core.Agree own before after := by
  obtain ⟨called, returned, isCalled, handled, isAfter⟩ := taken.passes
  obtain ⟨called', isCalled', entry⟩ := entered kind taken.vbarEl1 taken.room
  rw [isCalled] at isCalled'
  cases isCalled'
  obtain ⟨after', isAfter', agree⟩ := entry.returns taken.room taken.spared handled
  rw [isAfter] at isAfter'
  cases isAfter'
  exact agree.mono fun addr inside => ⟨kept addr inside, apart addr inside⟩

/-! ### Programs with interrupts -/

/-- An interrupt that comes while a program uses the bytes of `own`. -/
def Interrupt (image : Image) (own : Nat → Prop) (before after : Core) : Prop :=
  before.Unmasked ∧ ∃ touched, Taken image .irq touched before after ∧
    ∀ addr, own addr → ¬ touched addr

theorem Interrupt.agree {own : Nat → Prop} {alone : Core} (interrupt : Interrupt image own before after)
    (apart : ∀ addr, own addr → ¬ InFrame alone addr) (same : alone.sp = before.sp) :
    Core.Agree own before after := by
  obtain ⟨-, touched, taken, kept⟩ := interrupt
  refine taken.agree ?_ kept
  intro addr inside
  rw [InFrame, ← same]
  exact apart addr inside

/-- A program with interrupts does what it does without: `alone` is its run by
itself, `own` are the bytes it uses at each point, and what its steps do depends
on the registers and these bytes only. The frames of the interrupts lie below
its stack. -/
theorem interrupted_program {program : Core → Core → Prop} {alone : Nat → Core}
    {own : Nat → Nat → Prop} {count : Nat} {last : Core}
    (confined : ∀ step, step < count → ∀ core core',
      Core.Agree (own step) (alone step) core → program core core' →
        Core.Agree (own (step + 1)) (alone (step + 1)) core')
    (stack : ∀ step, step ≤ count → ∀ addr, own step addr → ¬ InFrame (alone step) addr)
    (run : Interleaved program (fun step => Interrupt image (own step)) (alone 0) count last) :
    Core.Agree (own count) (alone count) last := by
  apply Core.Agree.interleaved alone own run confined
  intro step below core core' agree interrupt
  exact interrupt.agree (stack step below) agree.sp

/-- `mov x2, x3` and an interrupt behind it. -/
theorem interrupted_program_small :
    ∃ last, Interleaved (fun core core' => core' = core.exec (.cpu (.mov 2 3)))
        (fun _ => Interrupt smallVectors fun addr => 0x20000 ≤ addr) (smallCore 0x3000) 1 last ∧
      Core.Agree (fun addr => 0x20000 ≤ addr)
        ((smallCore 0x3000).exec (.cpu (.mov 2 3))) last := by
  have size := trapframeSize_eq
  have sp : (smallCore 0x3000).sp.toNat = 0x20000 := rfl
  have room : trapframeSize ≤ ((smallCore 0x3000).exec (.cpu (.mov 2 3))).sp.toNat := by
    change trapframeSize ≤ 0x20000
    omega
  have isVector : ((smallCore 0x3000).exec (.cpu (.mov 2 3))).vbarEl1 =
      smallVectors.el1VectorTable := rfl
  obtain ⟨last, taken⟩ := taken_exists .irq isVector room
  let alone : Nat → Core := fun step =>
    (fun core => core.exec (.cpu (.mov 2 3)))^[step] (smallCore 0x3000)
  have run : Interleaved (fun core core' => core' = core.exec (.cpu (.mov 2 3)))
      (fun _ => Interrupt smallVectors fun addr => 0x20000 ≤ addr) (alone 0) 1 last :=
    .foreign (.program .start rfl) ⟨by decide, _, taken, fun _ _ => not_false⟩
  have agree : Core.Agree (fun addr => 0x20000 ≤ addr) (alone 1) last := by
    refine interrupted_program ?_ ?_ run
    · rintro step - core core' agree rfl
      dsimp only [alone]
      rw [Function.iterate_succ_apply']
      exact agree.exec (by decide) (by decide) fun _ reads => reads.elim
    · intro step below addr above inFrame
      have sameSp : (alone step).sp.toNat = 0x20000 := by
        obtain rfl | rfl : step = 0 ∨ step = 1 := by omega
        · rfl
        · rfl
      rw [InFrame, sameSp] at inFrame
      omega
  exact ⟨last, run, agree⟩

/-! ### Instructions that raise an exception -/

inductive Event where
  | instr
  | irq
  | sync (esr far : BitVec 64)

/-- A core runs the instruction at its program counter, takes an interrupt, or
raises a synchronous exception where there is no instruction it can run; then it
goes on if the handler returns. -/
inductive Step (image : Image) (own : Nat → Prop) : Core → Event → Core → Prop where
  | instr {core : Core} {instr : CoreInstr} (found : image.fetch core.pc = some instr) :
      Step image own core .instr (core.exec instr)
  | irq {core core' : Core} (interrupt : Interrupt image own core core') :
      Step image own core .irq core'
  | sync {core core' : Core} {esr far : BitVec 64} {touched : Nat → Prop}
      (raises : image.fetch core.pc = none) (returns : el1SyncHandler esr core.pc far = none)
      (taken : Taken image .sync touched core core') (kept : ∀ addr, own addr → ¬ touched addr) :
      Step image own core (.sync esr far) core'

/-- `el1_sync_handler` returns from `brk` only. -/
theorem el1SyncHandler_eq_none {esr elr far : BitVec 64} :
    el1SyncHandler esr elr far = none ↔ (esr >>> 26) &&& 0x3F = 0x3C := by
  rw [el1SyncHandler]
  split
  · next isAbort =>
      refine ⟨fun absurd => (nomatch absurd), ?_⟩
      intro isBrk
      rw [isBrk] at isAbort
      exact absurd isAbort (by decide)
  · split
    · next isBrk => exact ⟨fun _ => isBrk, fun _ => rfl⟩
    · next other => exact ⟨fun absurd => (nomatch absurd), fun isBrk => absurd isBrk other⟩

/-- An instruction that raises an exception is never passed: `el1_sync_handler`
returns for `brk` only, and to the same instruction. -/
theorem never_passed {own : Nat → Prop} {first last : Core} {path : List (Transition Core Event)}
    (raises : image.fetch first.pc = none) (stack : ∀ addr, own addr → ¬ InFrame first addr)
    (run : Execution (Step image own) first path last) :
    Core.Agree own first last ∧
      ∀ transition ∈ path, transition.label = .irq ∨
        ∃ esr far, transition.label = .sync esr far ∧ (esr >>> 26) &&& 0x3F = 0x3C := by
  have steps : ∀ source label target, Core.Agree own first source →
      Step image own source label target →
        Core.Agree own first target ∧
          (label = .irq ∨ ∃ esr far, label = .sync esr far ∧ (esr >>> 26) &&& 0x3F = 0x3C) := by
    intro source label target agree taken
    cases taken with
    | instr found =>
        rw [← agree.pc, raises] at found
        cases found
    | irq interrupt => exact ⟨agree.trans (interrupt.agree stack agree.sp), Or.inl rfl⟩
    | sync _ returns taken kept =>
        have apart : ∀ addr, own addr → ¬ InFrame source addr := by
          intro addr inside
          rw [InFrame, ← agree.sp]
          exact stack addr inside
        exact ⟨agree.trans (taken.agree apart kept),
          Or.inr ⟨_, _, rfl, el1SyncHandler_eq_none.mp returns⟩⟩
  have keeps := fun source label target agree taken => (steps source label target agree taken).1
  refine ⟨run.invariant (Core.Agree.refl own first) keeps, ?_⟩
  intro transition member
  have agree := (run.invariant_transitions (Core.Agree.refl own first) keeps transition member).1
  exact (steps _ _ _ agree (run.step_of_mem member)).2

/-- A `brk` at 0x100, where the image has no instruction: one exception, and the
core is at it again. -/
theorem never_passed_brk :
    ∃ last path, path.length = 1 ∧
      Execution (Step smallVectors fun addr => 0x20000 ≤ addr) (smallCore 0x100) path last ∧
      Core.Agree (fun addr => 0x20000 ≤ addr) (smallCore 0x100) last ∧
      ∀ transition ∈ path, transition.label = .irq ∨
        ∃ esr far, transition.label = .sync esr far ∧ (esr >>> 26) &&& 0x3F = 0x3C := by
  have size := trapframeSize_eq
  have sp : (smallCore 0x100).sp.toNat = 0x20000 := rfl
  have room : trapframeSize ≤ (smallCore 0x100).sp.toNat := by
    rw [sp]
    omega
  have isVector : (smallCore 0x100).vbarEl1 = smallVectors.el1VectorTable := rfl
  obtain ⟨last, taken⟩ := taken_exists .sync isVector room
  have run : Execution (Step smallVectors fun addr => 0x20000 ≤ addr) (smallCore 0x100)
      ([] ++ [⟨smallCore 0x100, .sync 0xF2000000 0, last⟩]) last :=
    .snoc .nil (.sync rfl (by decide) taken fun _ _ => not_false)
  refine ⟨last, _, rfl, run, never_passed rfl ?_ run⟩
  intro addr above inFrame
  rw [InFrame, sp] at inFrame
  omega

end UniKernel.Exception
