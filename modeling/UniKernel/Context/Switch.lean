import UniKernel.Context.Model

/-!
Owns one run of `cpu_switch_to`: every field of the outgoing context takes the
value of its register, every register takes the value of its field in the
incoming context, and no other byte of memory changes.
-/

namespace UniKernel.Context

open UniKernel.Lib

variable {cpu : Cpu} {mem mem' : Memory} {t addr : Nat} {image : Image} {field : Field}

/-! ### Fields and registers -/

/-- The register that belongs to a field. -/
def register (cpu : Cpu) : Field → Nat
  | .x19 => (cpu.x 19).toNat
  | .x20 => (cpu.x 20).toNat
  | .x21 => (cpu.x 21).toNat
  | .x22 => (cpu.x 22).toNat
  | .x23 => (cpu.x 23).toNat
  | .x24 => (cpu.x 24).toNat
  | .x25 => (cpu.x 25).toNat
  | .x26 => (cpu.x 26).toNat
  | .x27 => (cpu.x 27).toNat
  | .x28 => (cpu.x 28).toNat
  | .fp => (cpu.x 29).toNat
  | .lr => (cpu.x 30).toNat
  | .sp => cpu.sp.toNat
  | .q8 => (cpu.q 8).toNat
  | .q9 => (cpu.q 9).toNat
  | .q10 => (cpu.q 10).toNat
  | .q11 => (cpu.q 11).toNat
  | .q12 => (cpu.q 12).toNat
  | .q13 => (cpu.q 13).toNat
  | .q14 => (cpu.q 14).toNat
  | .q15 => (cpu.q 15).toNat

/-- The value of a field of the context at `t`. -/
def fieldAt (mem : Memory) (t : Nat) (field : Field) : Nat :=
  mem.load (t + field.offset) field.size

theorem mem_cpuContext (field : Field) : field ∈ cpuContext := by
  cases field <;> decide

theorem field_inside : ∀ field ∈ cpuContext, field.offset + field.size ≤ contextSize := by decide

theorem register_lt (cpu : Cpu) (field : Field) : register cpu field < 256 ^ field.size := by
  cases field <;> exact BitVec.isLt _

/-- A field depends on the bytes of its context only. -/
theorem fieldAt_congr (same : ∀ addr, InContext t addr → mem addr = mem' addr) (field : Field) :
    fieldAt mem t field = fieldAt mem' t field := by
  apply Memory.load_congr
  intro offset below
  have inside := field_inside field (mem_cpuContext field)
  apply same
  exact ⟨by omega, by omega⟩

/-- The offsets that `switch.S` uses. -/
def switchOffset : Field → Nat
  | .x19 => 0
  | .x20 => 8
  | .x21 => 16
  | .x22 => 24
  | .x23 => 32
  | .x24 => 40
  | .x25 => 48
  | .x26 => 56
  | .x27 => 64
  | .x28 => 72
  | .fp => 80
  | .lr => 88
  | .sp => 96
  | .q8 => 112
  | .q9 => 128
  | .q10 => 144
  | .q11 => 160
  | .q12 => 176
  | .q13 => 192
  | .q14 => 208
  | .q15 => 224

/-- They are those of the struct, the padding before `q8` included. -/
theorem offset_eq (field : Field) : field.offset = switchOffset field := by
  cases field <;> rfl

/-! ### Saving -/

/-- The stores of `saveContext`. -/
def contextSlots (cpu : Cpu) : List Slot :=
  cpuContext.map fun field => ⟨field.offset, field.size, register cpu field⟩

theorem contextSlots_apart (cpu : Cpu) : (contextSlots cpu).Pairwise Slot.Apart := by
  have offsets : cpuContext.Pairwise fun left right =>
      left.offset + left.size ≤ right.offset ∨ right.offset + right.size ≤ left.offset := by
    decide
  exact List.pairwise_map.mpr offsets

/-- Addresses inside a struct do not wrap around. -/
theorem add_toNat_of_room {base : BitVec 64} (room : base.toNat + contextSize ≤ 2 ^ 64) :
    ∀ offset, offset < contextSize →
      (base + BitVec.ofNat 64 offset).toNat = base.toNat + offset := by
  intro offset inside
  rw [BitVec.toNat_add, BitVec.toNat_ofNat]
  omega

/-- What the first half leaves: the stores, and `sp` in x9. -/
theorem execAll_saveContext (room : (cpu.x 0).toNat + contextSize ≤ 2 ^ 64) :
    cpu.execAll saveContext =
      { x := Function.update cpu.x 9 cpu.sp
        sp := cpu.sp
        q := cpu.q
        pc := (cpu.execAll saveContext).pc
        mem := Memory.storeSlots (cpu.x 0).toNat (contextSlots cpu) cpu.mem } := by
  simp only [saveContext, Cpu.execAll, List.foldl_cons, List.foldl_nil, Cpu.exec, Cpu.next,
    Cpu.setX, Cpu.address]
  simp (disch := decide) only [Function.update_of_ne, add_toNat_of_room room]
  simp only [contextSlots, cpuContext, List.map_cons, List.map_nil, Memory.storeSlots, offset_eq,
    switchOffset, Field.size, register, Function.update_self]

/-- The outgoing context holds the registers. -/
theorem fieldAt_saved (room : (cpu.x 0).toNat + contextSize ≤ 2 ^ 64) (field : Field) :
    fieldAt (cpu.execAll saveContext).mem (cpu.x 0).toNat field = register cpu field := by
  have member : (⟨field.offset, field.size, register cpu field⟩ : Slot) ∈ contextSlots cpu :=
    List.mem_map.mpr ⟨field, mem_cpuContext field, rfl⟩
  rw [execAll_saveContext room, fieldAt]
  dsimp only
  rw [Memory.load_storeSlots (contextSlots_apart cpu) member]
  exact Nat.mod_eq_of_lt (register_lt cpu field)

/-- Nothing else is written. -/
theorem mem_saveContext (room : (cpu.x 0).toNat + contextSize ≤ 2 ^ 64)
    (outside : ¬ InContext (cpu.x 0).toNat addr) :
    (cpu.execAll saveContext).mem addr = cpu.mem addr := by
  rw [execAll_saveContext room]
  apply Memory.storeSlots_outside
  · intro slot member
    rcases List.mem_map.mp member with ⟨field, known, rfl⟩
    exact field_inside field known
  · rw [InContext] at outside
    omega

/-! ### Loading -/

/-- The second half writes no memory, and every register takes the value of its
field. -/
theorem execAll_loadContext (room : (cpu.x 1).toNat + contextSize ≤ 2 ^ 64) :
    (cpu.execAll loadContext).mem = cpu.mem ∧
      ∀ field, register (cpu.execAll loadContext) field = fieldAt cpu.mem (cpu.x 1).toNat field := by
  have word : ∀ addr, (BitVec.ofNat 64 (cpu.mem.load addr 8)).toNat = cpu.mem.load addr 8 :=
    fun addr => Nat.mod_eq_of_lt (cpu.mem.load_lt addr 8)
  have quad : ∀ addr, (BitVec.ofNat 128 (cpu.mem.load addr 16)).toNat = cpu.mem.load addr 16 :=
    fun addr => Nat.mod_eq_of_lt (cpu.mem.load_lt addr 16)
  simp (disch := decide) only [loadContext, Cpu.execAll, List.foldl_cons, List.foldl_nil, Cpu.exec,
    Cpu.next, Cpu.setX, Cpu.setQ, Cpu.address, Function.update_of_ne, add_toNat_of_room room]
  refine ⟨trivial, ?_⟩
  intro field
  cases field <;>
    simp (disch := decide) only [register, Function.update_self, Function.update_of_ne, word, quad,
      fieldAt, offset_eq, switchOffset, Field.size]

/-! ### The whole function -/

theorem execAll_append (front back : List Instr) :
    cpu.execAll (front ++ back) = (cpu.execAll front).execAll back :=
  List.foldl_append

/-- `cpu_switch_to` runs to its end. -/
theorem steps_cpuSwitchTo (image : Image) (here : cpu.pc = image.cpuSwitchTo) :
    cpu.steps image.fetch cpuSwitchTo.length = some (cpu.execAll cpuSwitchTo) := by
  have straight : ∀ instr ∈ saveContext ++ loadContext, instr.straight = true := by decide
  apply Cpu.steps_block straight
  rw [here]
  exact image.switchLoaded

theorem register_ret : register (cpu.exec .ret) field = register cpu field := by
  cases field <;> rfl

/-- What one call `cpu_switch_to(prev, next)` does. -/
structure Switched (cpu cpu' : Cpu) (prev next : Nat) : Prop where
  saved : ∀ field, fieldAt cpu'.mem prev field = register cpu field
  outside : ∀ addr, ¬ InContext prev addr → cpu'.mem addr = cpu.mem addr
  loaded : ∀ field, register cpu' field = fieldAt cpu'.mem next field
  pc : cpu'.pc = cpu'.x 30

theorem switched (prevRoom : (cpu.x 0).toNat + contextSize ≤ 2 ^ 64)
    (nextRoom : (cpu.x 1).toNat + contextSize ≤ 2 ^ 64) :
    Switched cpu (cpu.execAll cpuSwitchTo) (cpu.x 0).toNat (cpu.x 1).toNat := by
  have sameNext : (cpu.execAll saveContext).x 1 = cpu.x 1 := by
    rw [execAll_saveContext prevRoom]
    exact Function.update_of_ne (show (1 : Nat) ≠ 9 by decide) cpu.sp cpu.x
  have loadRoom : ((cpu.execAll saveContext).x 1).toNat + contextSize ≤ 2 ^ 64 := by
    rw [sameNext]
    exact nextRoom
  rcases execAll_loadContext loadRoom with ⟨sameMem, loaded⟩
  rw [sameNext] at loaded
  have split : cpu.execAll cpuSwitchTo = ((cpu.execAll saveContext).execAll loadContext).exec .ret := by
    rw [cpuSwitchTo, execAll_append, execAll_append]
    rfl
  rw [split]
  refine ⟨?_, ?_, ?_, rfl⟩
  · intro field
    exact (congrArg (fun mem => fieldAt mem (cpu.x 0).toNat field) sameMem).trans
      (fieldAt_saved prevRoom field)
  · intro addr outside
    exact (congrFun sameMem addr).trans (mem_saveContext prevRoom outside)
  · intro field
    rw [register_ret, loaded field, ← sameMem]
    rfl

end UniKernel.Context
