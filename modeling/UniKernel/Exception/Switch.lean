import UniKernel.Context.Switch
import UniKernel.Exception.Runs

/-!
Owns `cpu_switch_to` under interrupts: whichever of its instructions are
interrupted, the outgoing context holds the registers with which it was entered
and every register takes the value of its field in the incoming one.
-/

namespace UniKernel.Exception

open UniKernel.Lib
open UniKernel.Context (InContext fieldAt register contextSize cpuSwitchTo)

variable {image : Image} {first last : Core} {own : Nat → Prop}

/-- One instruction of the code that `fetch` finds. -/
def CodeStep (image : Image) (core core' : Core) : Prop :=
  ∃ instr, image.fetch core.pc = some instr ∧ core' = core.exec instr

/-- The core `step` instructions into `cpu_switch_to`, without interrupts. -/
def switching (first : Core) (step : Nat) : Core :=
  first.execAll ((cpuSwitchTo.take step).map .cpu)

theorem switching_succ {step : Nat} (below : step < cpuSwitchTo.length) :
    switching first (step + 1) = (switching first step).exec (.cpu cpuSwitchTo[step]) := by
  rw [switching, switching, ← List.take_append_getElem below, List.map_append,
    Core.execAll_append]
  rfl

/-- Its instructions but the last are straight. -/
theorem switching_pc {step : Nat} (below : step < cpuSwitchTo.length) :
    (switching first step).pc = first.pc + .ofNat 64 (4 * step) := by
  have straight : ∀ step, step < cpuSwitchTo.length →
      ∀ instr ∈ (cpuSwitchTo.take step).map CoreInstr.cpu, instr.straight = true := by
    decide +kernel
  rw [switching, Core.execAll_pc (straight step below), List.length_map, List.length_take,
    Nat.min_eq_left (Nat.le_of_lt below)]

/-- `next` stays in x1. -/
theorem switching_next (step : Nat) : (switching first step).x 1 = first.x 1 := by
  have kept : ∀ instr ∈ cpuSwitchTo, 1 ∉ instr.writes := by decide
  rw [switching, Core.execAll_map]
  exact Cpu.execAll_x_of_notMem fun instr member => kept instr (List.mem_of_mem_take member)

/-- The stack pointer changes once, with the instruction at 19. -/
theorem switching_sp (step : Nat) :
    (switching first step).sp = first.sp ∨
      (switching first step).sp = (switching first cpuSwitchTo.length).sp := by
  have before : ∀ instr ∈ cpuSwitchTo.take 19, instr.writesSp = false := by decide
  have behind : ∀ instr ∈ cpuSwitchTo.drop 20, instr.writesSp = false := by decide
  by_cases early : step ≤ 19
  · left
    rw [switching, Core.execAll_map]
    apply Cpu.execAll_sp
    intro instr member
    exact before instr (List.take_subset_take_left _ early member)
  · right
    have split : cpuSwitchTo = cpuSwitchTo.take step ++ cpuSwitchTo.drop step :=
      (List.take_append_drop ..).symm
    rw [switching, switching, List.take_length, Core.execAll_map, Core.execAll_map]
    dsimp only
    conv => rhs; rw [split, Context.execAll_append]
    symm
    apply Cpu.execAll_sp
    intro instr member
    exact behind instr (List.drop_subset_drop_left _ (by omega) member)

/-- Each instruction of `cpu_switch_to` depends on the registers and the incoming
context. -/
theorem switching_confined {step : Nat} {core core' : Core}
    (loaded : CodeAt image.fetch first.pc (cpuSwitchTo.map .cpu))
    (nextRoom : (first.x 1).toNat + contextSize ≤ 2 ^ 64)
    (uses : ∀ addr, InContext (first.x 1).toNat addr → own addr)
    (below : step < cpuSwitchTo.length) (agree : Core.Agree own (switching first step) core)
    (taken : CodeStep image core core') : Core.Agree own (switching first (step + 1)) core' := by
  have general : ∀ instr ∈ cpuSwitchTo, ∀ register ∈ instr.sources, register < 31 := by decide
  have vector : ∀ instr ∈ cpuSwitchTo, ∀ register ∈ instr.sourcesQ, register < 32 := by decide
  have within : ∀ instr ∈ cpuSwitchTo, instr.readsWithin 1 contextSize = true := by decide
  have member : cpuSwitchTo[step] ∈ cpuSwitchTo := List.getElem_mem below
  have found := loaded.getElem step (by rw [List.length_map]; exact below)
  obtain ⟨instr, fetched, rfl⟩ := taken
  rw [← agree.pc, switching_pc below, found, List.getElem_map] at fetched
  cases fetched
  rw [switching_succ below]
  apply agree.exec (general _ member) (vector _ member)
  intro addr reads
  rw [← switching_next step] at nextRoom uses
  exact uses addr (Instr.reads_inside (within _ member) nextRoom reads)

theorem register_congr {cpu cpu' : Cpu} (x : ∀ number, number < 31 → cpu.x number = cpu'.x number)
    (q : ∀ number, number < 32 → cpu.q number = cpu'.q number) (sp : cpu.sp = cpu'.sp)
    (field : Context.Field) : register cpu field = register cpu' field := by
  cases field with
  | sp => exact congrArg BitVec.toNat sp
  | q8 | q9 | q10 | q11 | q12 | q13 | q14 | q15 =>
      exact congrArg BitVec.toNat (q _ (by decide))
  | _ => exact congrArg BitVec.toNat (x _ (by decide))

/-- A call `cpu_switch_to(prev, next)` that is interrupted anywhere, any number of
times, does what it does without interrupts, provided that the contexts lie
neither in the 816 bytes below the stack it leaves nor in those below the stack
it enters. -/
theorem switch_with_interrupts {prev next : Nat}
    (loaded : CodeAt image.fetch first.pc (cpuSwitchTo.map .cpu))
    (prevArg : (first.x 0).toNat = prev) (nextArg : (first.x 1).toNat = next)
    (prevRoom : prev + contextSize ≤ 2 ^ 64) (nextRoom : next + contextSize ≤ 2 ^ 64)
    (distinct : prev + contextSize ≤ next ∨ next + contextSize ≤ prev)
    (ownPrev : ∀ addr, InContext prev addr → own addr)
    (ownNext : ∀ addr, InContext next addr → own addr)
    (oldStack : ∀ addr, own addr →
      addr < first.sp.toNat - trapframeSize ∨ first.sp.toNat ≤ addr)
    (newStack : ∀ addr, own addr →
      addr < fieldAt first.mem next .sp - trapframeSize ∨ fieldAt first.mem next .sp ≤ addr)
    (run : Interleaved (CodeStep image) (fun _ => Interrupt image own) first cpuSwitchTo.length
      last) :
    (∀ field, fieldAt last.mem prev field = register first.toCpu field) ∧
      (∀ field, register last.toCpu field = fieldAt first.mem next field) ∧
      last.pc = last.x 30 ∧
      ∀ addr, own addr → ¬ InContext prev addr → last.mem addr = first.mem addr := by
  subst prevArg nextArg
  have switched := Context.switched prevRoom nextRoom
  have alone : switching first cpuSwitchTo.length =
      { first with toCpu := first.toCpu.execAll cpuSwitchTo } := by
    rw [switching, List.take_length, Core.execAll_map]
  -- the incoming context is not written
  have incoming : ∀ field, fieldAt (first.toCpu.execAll cpuSwitchTo).mem (first.x 1).toNat field =
      fieldAt first.mem (first.x 1).toNat field := by
    apply Context.fieldAt_congr
    intro addr inside
    apply switched.outside
    rw [InContext] at inside ⊢
    omega
  have newSp : (switching first cpuSwitchTo.length).sp.toNat =
      fieldAt first.mem (first.x 1).toNat .sp := by
    rw [alone, ← incoming]
    exact switched.loaded .sp
  have agree : Core.Agree own (switching first cpuSwitchTo.length) last := by
    apply Core.Agree.interleaved (switching first) (fun _ => own) run
    · intro step below core core' agree taken
      exact switching_confined loaded nextRoom ownNext below agree taken
    · intro step below core core' agree interrupt
      apply interrupt.agree _ agree.sp
      intro addr inside frame
      rw [InFrame] at frame
      rcases switching_sp step with old | new
      · have apart := oldStack addr inside
        rw [old] at frame
        omega
      · have apart := newStack addr inside
        rw [new, newSp] at frame
        omega
  rw [alone] at agree
  refine ⟨?_, ?_, ?_, ?_⟩
  · intro field
    rw [← switched.saved field]
    apply Context.fieldAt_congr
    intro addr inside
    exact (agree.mem addr (ownPrev addr inside)).symm
  · intro field
    rw [← incoming, ← switched.loaded]
    exact (register_congr agree.x agree.q agree.sp field).symm
  · rw [← agree.pc, ← agree.x 30 (by decide)]
    exact switched.pc
  · intro addr inside outside
    rw [← agree.mem addr inside]
    exact switched.outside addr outside

/-- Without interrupts the code runs by itself. -/
theorem interleaved_switching {foreign : Nat → Core → Core → Prop}
    (loaded : CodeAt image.fetch first.pc (cpuSwitchTo.map .cpu)) {step : Nat}
    (below : step ≤ cpuSwitchTo.length) :
    Interleaved (CodeStep image) foreign first step (switching first step) := by
  induction step with
  | zero => exact .start
  | succ step inductionHypothesis =>
      have found := loaded.getElem step (by rw [List.length_map]; exact below)
      rw [← switching_pc below, List.getElem_map] at found
      exact .program (inductionHypothesis (Nat.le_of_succ_le below))
        ⟨_, found, switching_succ below⟩

/-- A switch from the task at 0x10000 to that at 0x11000 with an interrupt behind
its last instruction, on the stack it enters. -/
theorem switch_with_interrupts_small :
    ∃ last, Interleaved (CodeStep smallVectors)
        (fun _ => Interrupt smallVectors fun addr => InContext 0x10000 addr ∨ InContext 0x11000 addr)
        (smallCore 0x3000) cpuSwitchTo.length last ∧
      (∀ field, fieldAt last.mem 0x10000 field = register (smallCore 0x3000).toCpu field) ∧
      (∀ field, register last.toCpu field = fieldAt (smallCore 0x3000).mem 0x11000 field) ∧
      last.pc = last.x 30 := by
  have size := trapframeSize_eq
  have context : contextSize = 240 := by decide
  have loaded : CodeAt smallVectors.fetch (smallCore 0x3000).pc (cpuSwitchTo.map .cpu) := by
    decide +kernel
  have newStack : fieldAt (smallCore 0x3000).mem 0x11000 .sp = 0x30000 := by decide +kernel
  have alone : switching (smallCore 0x3000) cpuSwitchTo.length =
      { smallCore 0x3000 with toCpu := (smallCore 0x3000).toCpu.execAll cpuSwitchTo } := by
    rw [switching, List.take_length, Core.execAll_map]
  have room : trapframeSize ≤ (switching (smallCore 0x3000) cpuSwitchTo.length).sp.toNat := by
    have sp : (switching (smallCore 0x3000) cpuSwitchTo.length).sp = 0x30000 := by decide +kernel
    rw [sp]
    change trapframeSize ≤ 0x30000
    omega
  have isVector : (switching (smallCore 0x3000) cpuSwitchTo.length).vbarEl1 =
      smallVectors.el1VectorTable := by
    rw [alone]
    rfl
  have unmasked : (switching (smallCore 0x3000) cpuSwitchTo.length).Unmasked := by
    rw [alone]
    decide
  obtain ⟨last, taken⟩ := taken_exists .irq isVector room
  have run : Interleaved (CodeStep smallVectors)
      (fun _ => Interrupt smallVectors fun addr => InContext 0x10000 addr ∨ InContext 0x11000 addr)
      (smallCore 0x3000) cpuSwitchTo.length last :=
    .foreign (interleaved_switching loaded (Nat.le_refl _))
      ⟨unmasked, _, taken, fun _ _ => not_false⟩
  have own : ∀ addr, InContext 0x10000 addr ∨ InContext 0x11000 addr → addr < 0x1F000 := by
    intro addr inside
    rw [InContext, InContext] at inside
    omega
  have oldApart : ∀ addr, InContext 0x10000 addr ∨ InContext 0x11000 addr →
      addr < (smallCore 0x3000).sp.toNat - trapframeSize ∨ (smallCore 0x3000).sp.toNat ≤ addr := by
    intro addr inside
    have low := own addr inside
    have sp : (smallCore 0x3000).sp.toNat = 0x20000 := rfl
    rw [sp]
    omega
  have newApart : ∀ addr, InContext 0x10000 addr ∨ InContext 0x11000 addr →
      addr < fieldAt (smallCore 0x3000).mem 0x11000 .sp - trapframeSize ∨
        fieldAt (smallCore 0x3000).mem 0x11000 .sp ≤ addr := by
    intro addr inside
    have low := own addr inside
    rw [newStack]
    omega
  have prevArg : ((smallCore 0x3000).x 0).toNat = 0x10000 := rfl
  have nextArg : ((smallCore 0x3000).x 1).toNat = 0x11000 := rfl
  have result := switch_with_interrupts loaded prevArg nextArg (by decide) (by decide) (by decide)
    (fun _ inside => Or.inl inside) (fun _ inside => Or.inr inside) oldApart newApart run
  exact ⟨last, run, result.1, result.2.1, result.2.2.1⟩

end UniKernel.Exception
