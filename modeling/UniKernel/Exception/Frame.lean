import UniKernel.Exception.Model

/-!
Owns one pass through an exception entry: what the handler finds in its frame,
and that a core that leaves the entry with this frame goes on as it was
interrupted.
-/

namespace UniKernel.Exception

open UniKernel.Lib

variable {core : Core} {frame : Nat} {mem mem' : Memory}

/-! ### Layout -/

/-- The offsets that `boot.S` uses; `none` for padding. -/
def entryOffset : Field → Option Nat
  | .x number => some (8 * number)
  | .spEl0 => some 256
  | .elrEl1 => some 264
  | .spsrEl1 => some 272
  | .q number => some (288 + 16 * number)
  | .fpsr => some 800
  | .fpcr => some 804
  | .padding | .padding2 | .padding3 => none

theorem mem_trapframe (field : Field) : field ∈ trapframe := by
  cases field with
  | x number => simp [trapframe]
  | q number => simp [trapframe]
  | _ => simp [trapframe]

/-- They are those of the struct, the two gaps included. -/
theorem offset_eq : ∀ field ∈ trapframe, ∀ offset, entryOffset field = some offset →
    field.offset = offset := by
  decide +kernel

theorem trapframeSize_eq : trapframeSize = 816 := by decide +kernel

/-! ### Saving -/

/-- The slots of `saveGeneral`, -/
def generalSlots (core : Core) : List Slot :=
  saveGeneral.flatMap (CoreInstr.slots core)

/-- of `saveVector`, -/
def vectorSlots (core : Core) : List Slot :=
  saveVector.flatMap (CoreInstr.slots core)

/-- and of the whole frame of a core that took an exception. -/
def frameSlots (core : Core) : List Slot :=
  generalSlots core ++
    [⟨256, 8, core.spEl0.toNat⟩, ⟨264, 8, core.elrEl1.toNat⟩, ⟨272, 8, core.spsrEl1.toNat⟩] ++
    vectorSlots core ++
    [⟨800, 4, core.fpsr.toNat⟩, ⟨804, 4, core.fpcr.toNat⟩]

/-- A core with its frame on the stack; what the entry code leaves in the general
registers does not matter. -/
def Saved (core saved : Core) : Prop :=
  ∃ pc x, saved =
    { core with
      pc := pc
      x := x
      sp := core.sp - 816
      mem := core.mem.storeSlots (core.sp - 816).toNat (frameSlots core) }

theorem execAll_saveSpecial (room : core.sp.toNat + 816 ≤ 2 ^ 64) :
    ∃ pc x, core.execAll saveSpecial =
      { core with
        pc := pc
        x := x
        mem := core.mem.storeSlots core.sp.toNat
          [⟨256, 8, core.spEl0.toNat⟩, ⟨264, 8, core.elrEl1.toNat⟩,
            ⟨272, 8, core.spsrEl1.toNat⟩] } := by
  have at256 : core.address 256 = core.sp.toNat + 256 :=
    Core.address_of_room room (by decide)
  have at264 : core.address 264 = core.sp.toNat + 264 :=
    Core.address_of_room room (by decide)
  have at272 : core.address 272 = core.sp.toNat + 272 :=
    Core.address_of_room room (by decide)
  refine ⟨(core.execAll saveSpecial).pc, (core.execAll saveSpecial).x, ?_⟩
  simp only [Memory.storeSlots, ← at256, ← at264, ← at272]
  rfl

theorem execAll_saveFloat (room : core.sp.toNat + 816 ≤ 2 ^ 64) :
    ∃ pc x, core.execAll saveFloat =
      { core with
        pc := pc
        x := x
        mem := core.mem.storeSlots core.sp.toNat
          [⟨800, 4, core.fpsr.toNat⟩, ⟨804, 4, core.fpcr.toNat⟩] } := by
  have at800 : core.address 800 = core.sp.toNat + 800 :=
    Core.address_of_room room (by decide)
  have at804 : core.address 804 = core.sp.toNat + 804 :=
    Core.address_of_room room (by decide)
  have status : (core.fpsr.setWidth 64).toNat = core.fpsr.toNat := by
    rw [BitVec.toNat_setWidth]
    omega
  have control : (core.fpcr.setWidth 64).toNat = core.fpcr.toNat := by
    rw [BitVec.toNat_setWidth]
    omega
  refine ⟨(core.execAll saveFloat).pc, (core.execAll saveFloat).x, ?_⟩
  simp only [Memory.storeSlots, ← at800, ← at804, ← status, ← control]
  rfl

theorem saveGeneral_stores :
    (∀ instr ∈ saveGeneral, instr.isStore = true) ∧ ∀ instr ∈ saveGeneral, instr.reach ≤ 816 := by
  decide

theorem saveVector_stores :
    (∀ instr ∈ saveVector, instr.isStore = true) ∧ ∀ instr ∈ saveVector, instr.reach ≤ 816 := by
  decide

theorem execAll_saveContext (room : trapframeSize ≤ core.sp.toNat) :
    Saved core (core.execAll saveContext) := by
  rw [trapframeSize_eq] at room
  have below : (core.sp - 816).toNat + 816 ≤ 2 ^ 64 := by
    have smaller : (core.sp - 816).toNat = core.sp.toNat - 816 := BitVec.toNat_sub_of_le room
    omega
  have room₁ : (core.exec (.subSp 816)).sp.toNat + 816 ≤ 2 ^ 64 := below
  obtain ⟨pc₁, general⟩ := Core.execAll_stores saveGeneral_stores.1 room₁ saveGeneral_stores.2
  have room₂ : ((core.exec (.subSp 816)).execAll saveGeneral).sp.toNat + 816 ≤ 2 ^ 64 := by
    rw [general]
    exact below
  obtain ⟨pc₂, x₂, special⟩ := execAll_saveSpecial room₂
  have room₃ : (((core.exec (.subSp 816)).execAll saveGeneral).execAll saveSpecial).sp.toNat +
      816 ≤ 2 ^ 64 := by
    rw [special]
    exact room₂
  obtain ⟨pc₃, vector⟩ := Core.execAll_stores saveVector_stores.1 room₃ saveVector_stores.2
  have room₄ : ((((core.exec (.subSp 816)).execAll saveGeneral).execAll saveSpecial).execAll
      saveVector).sp.toNat + 816 ≤ 2 ^ 64 := by
    rw [vector]
    exact room₃
  obtain ⟨pc₄, x₄, float⟩ := execAll_saveFloat room₄
  have split : core.execAll saveContext =
      ((((core.exec (.subSp 816)).execAll saveGeneral).execAll saveSpecial).execAll
        saveVector).execAll saveFloat := by
    rw [saveContext, Core.execAll_cons, Core.execAll_append, Core.execAll_append,
      Core.execAll_append]
  refine ⟨pc₄, x₄, ?_⟩
  rw [split, float, vector, special, general, frameSlots, Memory.storeSlots_append,
    Memory.storeSlots_append, Memory.storeSlots_append]
  rfl

/-! ### The frame -/

theorem generalSlots_eq (core : Core) :
    generalSlots core = (List.range 31).map fun number => ⟨8 * number, 8, (core.x number).toNat⟩ :=
  rfl

theorem vectorSlots_eq (core : Core) :
    vectorSlots core =
      (List.range 32).map fun number => ⟨288 + 16 * number, 16, (core.q number).toNat⟩ :=
  rfl

/-- The ranges of the slots do not depend on the core. -/
def frameRanges : List (Nat × Nat) :=
  (List.range 31).map (fun number => (8 * number, 8)) ++ [(256, 8), (264, 8), (272, 8)] ++
    (List.range 32).map (fun number => (288 + 16 * number, 16)) ++ [(800, 4), (804, 4)]

theorem map_frameSlots (core : Core) :
    (frameSlots core).map (fun slot => (slot.offset, slot.width)) = frameRanges := rfl

theorem frameSlots_apart (core : Core) : (frameSlots core).Pairwise Slot.Apart := by
  have ranges : frameRanges.Pairwise fun left right =>
      left.1 + left.2 ≤ right.1 ∨ right.1 + right.2 ≤ left.1 := by
    decide +kernel
  rw [← map_frameSlots core, List.pairwise_map] at ranges
  exact ranges

theorem frameSlots_inside (core : Core) :
    ∀ slot ∈ frameSlots core, slot.offset + slot.width ≤ 816 := by
  have ranges : ∀ range ∈ frameRanges, range.1 + range.2 ≤ 816 := by decide +kernel
  rw [← map_frameSlots core, List.forall_mem_map] at ranges
  exact ranges

/-- Every field has its slot. -/
theorem slot_of_value (vector : Nat) {offset value : Nat} {field : Field}
    (isValue : field.value core = some value) (isOffset : entryOffset field = some offset) :
    (⟨offset, field.size, value⟩ : Slot) ∈
      frameSlots (core.takeException vector core.pc) := by
  cases field with
  | x number =>
      cases isValue
      cases isOffset
      have general : (⟨8 * number, 8, (core.x number).toNat⟩ : Slot) ∈
          generalSlots (core.takeException vector core.pc) := by
        rw [generalSlots_eq]
        exact List.mem_map.mpr ⟨number, List.mem_range.mpr number.isLt, rfl⟩
      exact List.mem_append_left _ (List.mem_append_left _ (List.mem_append_left _ general))
  | q number =>
      cases isValue
      cases isOffset
      have vectors : (⟨288 + 16 * number, 16, (core.q number).toNat⟩ : Slot) ∈
          vectorSlots (core.takeException vector core.pc) := by
        rw [vectorSlots_eq]
        exact List.mem_map.mpr ⟨number, List.mem_range.mpr number.isLt, rfl⟩
      exact List.mem_append_left _ (List.mem_append_right _ vectors)
  | spEl0 | elrEl1 | spsrEl1 | fpsr | fpcr =>
      cases isValue
      cases isOffset
      simp [frameSlots, Field.size, Core.takeException]
  | padding | padding2 | padding3 => cases isValue

theorem value_lt {value : Nat} {field : Field} (isValue : field.value core = some value) :
    value < 256 ^ field.size := by
  cases field <;> cases isValue <;> exact BitVec.isLt _

theorem offset_of_value {value : Nat} {field : Field} (isValue : field.value core = some value) :
    ∃ offset, entryOffset field = some offset := by
  cases field <;> first | exact ⟨_, rfl⟩ | cases isValue

/-- The saved frame is a `trapframe_t` of the core that was interrupted. -/
theorem frameAt_saved {saved : Core} {vector : Nat}
    (isSaved : Saved (core.takeException vector core.pc) saved) :
    FrameAt saved.mem saved.sp.toNat core := by
  obtain ⟨pc, x, rfl⟩ := isSaved
  intro field value isValue
  obtain ⟨offset, isOffset⟩ := offset_of_value isValue
  rw [offset_eq field (mem_trapframe field) offset isOffset]
  have slot := slot_of_value vector isValue isOffset
  exact (Memory.load_storeSlots (frameSlots_apart _) slot).trans
    (Nat.mod_eq_of_lt (value_lt isValue))

/-- Nothing but the frame is written. -/
theorem mem_saved {saved : Core} {addr : Nat} (isSaved : Saved core saved)
    (outside : addr < (core.sp - 816).toNat ∨ (core.sp - 816).toNat + 816 ≤ addr) :
    saved.mem addr = core.mem addr := by
  obtain ⟨pc, x, rfl⟩ := isSaved
  exact Memory.storeSlots_outside (frameSlots_inside core) outside

theorem FrameAt.congr (isFrame : FrameAt mem frame core)
    (same : ∀ addr, frame ≤ addr → addr < frame + trapframeSize → mem' addr = mem addr) :
    FrameAt mem' frame core := by
  intro field value isValue
  obtain ⟨offset, isOffset⟩ := offset_of_value isValue
  rw [← isFrame field value isValue]
  have isOffset := offset_eq field (mem_trapframe field) offset isOffset
  have inside : ∀ field ∈ trapframe, field.offset + field.size ≤ trapframeSize := by
    decide +kernel
  have inside := inside field (mem_trapframe field)
  apply Memory.load_congr
  intro offset below
  exact same _ (by omega) (by omega)

/-! ### Restoring -/

theorem FrameAt.load_of_offset (isFrame : FrameAt mem frame core) (field : Field)
    {offset value : Nat} (isValue : field.value core = some value)
    (isOffset : entryOffset field = some offset) : mem.load (frame + offset) field.size = value := by
  rw [← offset_eq field (mem_trapframe field) offset isOffset]
  exact isFrame field value isValue

theorem execAll_restoreFloat (room : core.sp.toNat + 816 ≤ 2 ^ 64) :
    ∃ pc x, core.execAll restoreFloat =
      { core with
        pc := pc
        x := x
        fpsr := (BitVec.ofNat 64 (core.mem.load (core.sp.toNat + 800) 4)).setWidth 32
        fpcr := (BitVec.ofNat 64 (core.mem.load (core.sp.toNat + 804) 4)).setWidth 32 } := by
  have at800 : core.address 800 = core.sp.toNat + 800 :=
    Core.address_of_room room (by decide)
  have at804 : core.address 804 = core.sp.toNat + 804 :=
    Core.address_of_room room (by decide)
  refine ⟨(core.execAll restoreFloat).pc, (core.execAll restoreFloat).x, ?_⟩
  rw [← at800, ← at804]
  rfl

theorem execAll_restoreSpecial (room : core.sp.toNat + 816 ≤ 2 ^ 64) :
    ∃ pc x, core.execAll restoreSpecial =
      { core with
        pc := pc
        x := x
        elrEl1 := .ofNat 64 (core.mem.load (core.sp.toNat + 264) 8)
        spsrEl1 := .ofNat 64 (core.mem.load (core.sp.toNat + 272) 8)
        spEl0 := .ofNat 64 (core.mem.load (core.sp.toNat + 256) 8) } := by
  have at256 : core.address 256 = core.sp.toNat + 256 :=
    Core.address_of_room room (by decide)
  have at264 : core.address 264 = core.sp.toNat + 264 :=
    Core.address_of_room room (by decide)
  have at272 : core.address 272 = core.sp.toNat + 272 :=
    Core.address_of_room room (by decide)
  refine ⟨(core.execAll restoreSpecial).pc, (core.execAll restoreSpecial).x, ?_⟩
  rw [← at256, ← at264, ← at272]
  rfl

theorem restoreVector_loads :
    (∀ instr ∈ restoreVector, instr.isLoad = true) ∧ ∀ instr ∈ restoreVector, instr.reach ≤ 816 := by
  decide

theorem restoreGeneral_loads :
    (∀ instr ∈ restoreGeneral, instr.isLoad = true) ∧
      ∀ instr ∈ restoreGeneral, instr.reach ≤ 816 := by
  decide

theorem restoreVector_targets :
    restoreVector.flatMap CoreInstr.targetsQ =
      (List.range 32).map fun number => (number, 288 + 16 * number) := rfl

theorem restoreGeneral_targets :
    restoreGeneral.flatMap CoreInstr.targets =
      (List.range 31).map fun number => (number, 0 + 8 * number) := rfl

/-- A core that leaves the entry with the frame of `core` on its stack. -/
structure Restored (core returned after : Core) : Prop where
  x : ∀ number, number < 31 → after.x number = core.x number
  q : ∀ number, number < 32 → after.q number = core.q number
  sp : after.sp = returned.sp + 816
  pc : after.pc = core.pc
  pstate : after.pstate = core.pstate
  fpsr : after.fpsr = core.fpsr
  fpcr : after.fpcr = core.fpcr
  spEl0 : after.spEl0 = core.spEl0
  vbarEl1 : after.vbarEl1 = returned.vbarEl1
  mem : after.mem = returned.mem

/-- Registers that are loaded once each from slots of `step` bytes. -/
theorem loadAll_range {width start step count number : Nat} {file : Nat → BitVec width}
    (below : number < count) :
    loadAll mem frame ((List.range count).map fun number => (number, start + step * number)) file
        number =
      .ofNat width (mem.load (frame + (start + step * number)) (width / 8)) := by
  apply loadAll_of_mem
  · rw [List.map_map]
    exact List.nodup_range.map Function.injective_id
  · exact List.mem_map.mpr ⟨number, List.mem_range.mpr below, rfl⟩

/-- The vector registers come before the special ones, the general ones last. -/
theorem execAll_leaveHandler {returned : Core} (room : returned.sp.toNat + 816 ≤ 2 ^ 64) :
    ∃ x q, returned.execAll leaveHandler =
      { returned with
        x := loadAll returned.mem returned.sp.toNat (restoreGeneral.flatMap CoreInstr.targets) x
        q := loadAll returned.mem returned.sp.toNat (restoreVector.flatMap CoreInstr.targetsQ) q
        sp := returned.sp + 816
        pc := .ofNat 64 (returned.mem.load (returned.sp.toNat + 264) 8)
        pstate := .ofNat 64 (returned.mem.load (returned.sp.toNat + 272) 8)
        fpsr := (BitVec.ofNat 64 (returned.mem.load (returned.sp.toNat + 800) 4)).setWidth 32
        fpcr := (BitVec.ofNat 64 (returned.mem.load (returned.sp.toNat + 804) 4)).setWidth 32
        spEl0 := .ofNat 64 (returned.mem.load (returned.sp.toNat + 256) 8)
        elrEl1 := .ofNat 64 (returned.mem.load (returned.sp.toNat + 264) 8)
        spsrEl1 := .ofNat 64 (returned.mem.load (returned.sp.toNat + 272) 8) } := by
  obtain ⟨pc₁, x₁, float⟩ := execAll_restoreFloat room
  have room₁ : (returned.execAll restoreFloat).sp.toNat + 816 ≤ 2 ^ 64 := by
    rw [float]
    exact room
  obtain ⟨pc₂, vector⟩ := Core.execAll_loads restoreVector_loads.1 room₁ restoreVector_loads.2
  have room₂ : ((returned.execAll restoreFloat).execAll restoreVector).sp.toNat + 816 ≤ 2 ^ 64 := by
    rw [vector]
    exact room₁
  obtain ⟨pc₃, x₃, special⟩ := execAll_restoreSpecial room₂
  have room₃ : (((returned.execAll restoreFloat).execAll restoreVector).execAll
      restoreSpecial).sp.toNat + 816 ≤ 2 ^ 64 := by
    rw [special]
    exact room₂
  obtain ⟨pc₄, general⟩ := Core.execAll_loads restoreGeneral_loads.1 room₃ restoreGeneral_loads.2
  have split : returned.execAll leaveHandler =
      (((((returned.execAll restoreFloat).execAll restoreVector).execAll
        restoreSpecial).execAll restoreGeneral).exec (.addSp 816)).exec .eret := by
    rw [leaveHandler, restoreContext, Core.execAll_append, Core.execAll_append,
      Core.execAll_append, Core.execAll_append, Core.execAll_append]
    rfl
  have noVector : restoreGeneral.flatMap CoreInstr.targetsQ = [] := rfl
  refine ⟨x₃, returned.q, ?_⟩
  rw [split, general, special, vector, float, noVector]
  rfl

/-- Leaving the entry with the frame of `core` restores it. -/
theorem restored {returned : Core} (room : returned.sp.toNat + 816 ≤ 2 ^ 64)
    (isFrame : FrameAt returned.mem returned.sp.toNat core) :
    Restored core returned (returned.execAll leaveHandler) := by
  obtain ⟨x, q, isAfter⟩ := execAll_leaveHandler room
  rw [isAfter]
  refine ⟨?_, ?_, rfl, ?_, ?_, ?_, ?_, ?_, rfl, rfl⟩
  · intro number below
    have saved := isFrame.load_of_offset (.x ⟨number, below⟩) rfl rfl
    rw [← Nat.zero_add (8 * number)] at saved
    dsimp only
    rw [restoreGeneral_targets, loadAll_range below]
    exact (congrArg (BitVec.ofNat 64) saved).trans (BitVec.ofNat_toNat ..)
  · intro number below
    have saved := isFrame.load_of_offset (.q ⟨number, below⟩) rfl rfl
    dsimp only
    rw [restoreVector_targets, loadAll_range below]
    exact (congrArg (BitVec.ofNat 128) saved).trans (BitVec.ofNat_toNat ..)
  · have saved := isFrame.load_of_offset .elrEl1 rfl rfl
    exact (congrArg (BitVec.ofNat 64) saved).trans (BitVec.ofNat_toNat ..)
  · have saved := isFrame.load_of_offset .spsrEl1 rfl rfl
    exact (congrArg (BitVec.ofNat 64) saved).trans (BitVec.ofNat_toNat ..)
  · have saved := isFrame.load_of_offset .fpsr rfl rfl
    have narrow : (BitVec.ofNat 64 core.fpsr.toNat).setWidth 32 = core.fpsr := by
      apply BitVec.eq_of_toNat_eq
      simp
    exact (congrArg (fun value => (BitVec.ofNat 64 value).setWidth 32) saved).trans narrow
  · have saved := isFrame.load_of_offset .fpcr rfl rfl
    have narrow : (BitVec.ofNat 64 core.fpcr.toNat).setWidth 32 = core.fpcr := by
      apply BitVec.eq_of_toNat_eq
      simp
    exact (congrArg (fun value => (BitVec.ofNat 64 value).setWidth 32) saved).trans narrow
  · have saved := isFrame.load_of_offset .spEl0 rfl rfl
    exact (congrArg (BitVec.ofNat 64) saved).trans (BitVec.ofNat_toNat ..)

end UniKernel.Exception
