import UniKernel.Boot.Start

/-!
Owns the run of the first core up to `main`: the BSS is cleared in rounds of 8 bytes, and
the loop ends because the alignment in `linker.ld` makes its size a multiple of 8.
-/

namespace UniKernel.Boot

open UniKernel.Lib
open Processor (Loaded fetchFrom steps_succ steps_one steps_trans steps_block loaded_append
  address_succ)

variable {fetch : BitVec 64 → Option SystemInstr} {y : Symbols} {core s t : SystemCore}

namespace Symbols

theorem line_zero : y.line 0 = .ofNat 64 y.entryPoint := BitVec.add_zero _

theorem line_succ (number : Nat) : y.line number + 4 = y.line (number + 1) := by
  unfold line
  rw [BitVec.add_assoc, BitVec.add_comm _ 4, ← BitVec.add_assoc, address_succ]

/-- The code in memory, part by part. -/
structure InMemory (fetch : BitVec 64 → Option SystemInstr) (y : Symbols) : Prop where
  setUp : Loaded fetch (y.line 0) y.setUp
  enterClear : Loaded fetch (y.line 19) y.enterClear
  clear : Loaded fetch (y.line 21) y.clear
  callMain : Loaded fetch (y.line 24) y.callMain

theorem line_add (number count : Nat) :
    y.line number + .ofNat 64 (4 * count) = y.line (number + count) := by
  unfold line
  rw [BitVec.add_assoc, ← BitVec.ofNat_add, Nat.mul_add]

theorem inMemory (loaded : Loaded fetch (y.line 0) y.startCode) : InMemory fetch y := by
  rw [startCode, loaded_append, loaded_append, loaded_append, line_add, line_add, line_add]
    at loaded
  exact ⟨loaded.1, loaded.2.1, loaded.2.2.1, loaded.2.2.2⟩

end Symbols

/-! ### Up to the loop -/

/-- Behind the set-up, before the test for an empty BSS. -/
structure SetUp (y : Symbols) (core s : SystemCore) : Prop where
  pc : s.pc = y.line 19
  place : s.x 1 = .ofNat 64 y.bssStart
  left : s.x 2 = .ofNat 64 y.bssEnd - .ofNat 64 y.bssStart
  sp : s.sp = .ofNat 64 y.stackTop
  sys : s.sys = Function.update (Function.update (Function.update core.sys .vbarEl1
    (.ofNat 64 y.el1VectorTable)) .cpacrEl1 (core.sys .cpacrEl1 ||| 3 <<< 20)) .sctlrEl1
    (core.sys .sctlrEl1 &&& ~~~1)
  pstate : s.pstate = core.pstate &&& ~~~0x80
  mem : s.mem = core.mem.store y.dtbPhysAddr 8 (core.x 0).toNat

theorem setUp_run (code : y.InMemory fetch) (here : core.pc = y.line 0)
    (dtbInMemory : y.dtbPhysAddr < 2 ^ 64) :
    ∃ s, SystemCore.processor.steps fetch 19 core = some s ∧ SetUp y core s := by
  have loaded := code.setUp
  rw [← here] at loaded
  obtain ⟨runs, ends⟩ := steps_block (SystemInstr.straight_of_all rfl) loaded
  have place : ((BitVec.ofNat 64 y.dtbPhysAddr) + BitVec.ofNat 64 0).toNat = y.dtbPhysAddr := by
    rw [BitVec.add_zero, BitVec.toNat_ofNat, Nat.mod_eq_of_lt dtbInMemory]
  refine ⟨_, runs, ?_, rfl, rfl, rfl, rfl, rfl, ?_⟩
  · have isEnd := y.line_add 0 19
    rw [← here] at isEnd
    exact ends.trans isEnd
  · have stored : (SystemCore.processor.execAll core y.setUp).mem =
        core.mem.store ((BitVec.ofNat 64 y.dtbPhysAddr) + BitVec.ofNat 64 0).toNat 8
          (core.x 0).toNat := rfl
    rw [stored, place]

/-! ### The loop -/

/-- Behind `count` rounds of the loop. -/
structure Cleared (y : Symbols) (s t : SystemCore) (count : Nat) : Prop where
  place : t.x 1 = .ofNat 64 (y.bssStart + 8 * count)
  left : t.x 2 = .ofNat 64 (y.bssEnd - (y.bssStart + 8 * count))
  zero : t.x 3 = 0
  sp : t.sp = s.sp
  sys : t.sys = s.sys
  pstate : t.pstate = s.pstate
  mem : ∀ addr, t.mem addr =
    if y.bssStart ≤ addr ∧ addr < y.bssStart + 8 * count then 0 else s.mem addr

/-- The size that is left is zero behind the last round only. -/
theorem left_eq_zero_iff {place : Nat} (below : place ≤ y.bssEnd) (bssInMemory : y.bssEnd < 2 ^ 64) :
    BitVec.ofNat 64 (y.bssEnd - place) = 0 ↔ place = y.bssEnd := by
  rw [← BitVec.toNat_inj, BitVec.toNat_ofNat, Nat.mod_eq_of_lt (by omega)]
  change y.bssEnd - place = 0 ↔ _
  omega

/-- One round, and where it goes. -/
theorem clear_round (code : y.InMemory fetch) (here : t.pc = y.line 21) {count : Nat}
    (cleared : Cleared y s t count) (room : y.bssStart + 8 * (count + 1) ≤ y.bssEnd)
    (bssInMemory : y.bssEnd < 2 ^ 64) :
    ∃ t', SystemCore.processor.steps fetch 3 t = some t' ∧ Cleared y s t' (count + 1) ∧
      t'.pc = if y.bssStart + 8 * (count + 1) = y.bssEnd then y.line 24 else y.line 21 := by
  have loaded := code.clear
  rw [← here] at loaded
  obtain ⟨isStore, isSub, isBranch, -⟩ := loaded
  have runs : SystemCore.processor.steps fetch 3 t =
      some (SystemCore.processor.execAll t y.clear) :=
    (steps_succ (p := SystemCore.processor) isStore 2).trans
      ((steps_succ (p := SystemCore.processor) isSub 1).trans
        (steps_one (p := SystemCore.processor) isBranch))
  have left : t.x 2 - 8 = .ofNat 64 (y.bssEnd - (y.bssStart + 8 * (count + 1))) := by
    have eight : (8 : BitVec 64) = .ofNat 64 8 := rfl
    rw [cleared.left, eight, BitVec.ofNat_sub_ofNat_of_le _ _ (by decide) (by omega),
      Nat.sub_sub]
    rfl
  refine ⟨_, runs, ⟨?_, left, cleared.zero, cleared.sp, cleared.sys, cleared.pstate, ?_⟩, ?_⟩
  · change t.x 1 + .ofNat 64 8 = _
    rw [cleared.place, ← BitVec.ofNat_add]
    rfl
  · intro addr
    have place : (t.x 1).toNat = y.bssStart + 8 * count := by
      rw [cleared.place, BitVec.toNat_ofNat, Nat.mod_eq_of_lt (by omega)]
    change t.mem.store (t.x 1).toNat 8 (t.x 3).toNat addr = _
    rw [place, cleared.zero]
    change t.mem.store _ 8 0 addr = _
    rw [Memory.store_zero, cleared.mem]
    by_cases isNew : y.bssStart + 8 * count ≤ addr ∧ addr < y.bssStart + 8 * count + 8
    · rw [if_pos isNew, if_pos (by omega)]
    · rw [if_neg isNew]
      exact if_congr (by omega) rfl rfl
  · change (if t.x 2 - 8 ≠ 0 then y.line 21 else t.pc + 4 + 4 + 4) = _
    rw [ite_not, left, here, y.line_succ, y.line_succ, y.line_succ]
    exact if_congr (left_eq_zero_iff room bssInMemory) rfl rfl

/-- Rounds that leave something to clear. -/
theorem clear_rounds (code : y.InMemory fetch) (here : t.pc = y.line 21) (enters : Cleared y s t 0)
    (bssInMemory : y.bssEnd < 2 ^ 64) (count : Nat) (more : y.bssStart + 8 * count < y.bssEnd) :
    ∃ t', SystemCore.processor.steps fetch (3 * count) t = some t' ∧ Cleared y s t' count ∧
      t'.pc = y.line 21 := by
  induction count with
  | zero => exact ⟨t, rfl, enters, here⟩
  | succ count inductionHypothesis =>
      obtain ⟨u, runs, cleared, atLoop⟩ := inductionHypothesis (by omega)
      obtain ⟨t', runsRound, cleared', goes⟩ :=
        clear_round code atLoop cleared (Nat.le_of_lt more) bssInMemory
      rw [if_neg (Nat.ne_of_lt more)] at goes
      exact ⟨t', steps_trans runs runsRound, cleared', goes⟩

/-- The loop ends when it has cleared the BSS, whose size is a multiple of 8. -/
theorem clear_run (code : y.InMemory fetch) (here : t.pc = y.line 21) (enters : Cleared y s t 0)
    (bssInMemory : y.bssEnd < 2 ^ 64) {count : Nat}
    (size : y.bssEnd = y.bssStart + 8 * (count + 1)) :
    ∃ t', SystemCore.processor.steps fetch (3 * (count + 1)) t = some t' ∧
      Cleared y s t' (count + 1) ∧ t'.pc = y.line 24 := by
  obtain ⟨u, runs, cleared, atLoop⟩ := clear_rounds code here enters bssInMemory count (by omega)
  obtain ⟨t', runsRound, cleared', goes⟩ := clear_round code atLoop cleared size.ge bssInMemory
  rw [if_pos size.symm] at goes
  exact ⟨t', steps_trans runs runsRound, cleared', goes⟩

/-! ### Up to `main` -/

/-- Where the test for an empty BSS goes. -/
theorem test_pc (setUp : SetUp y core s) (ordered : y.bssStart ≤ y.bssEnd)
    (bssInMemory : y.bssEnd < 2 ^ 64) :
    (SystemCore.processor.exec s (.cbz 2 (y.line 24))).pc =
      if y.bssStart = y.bssEnd then y.line 24 else y.line 20 := by
  change (if s.x 2 = 0 then y.line 24 else s.pc + 4) = _
  rw [setUp.left, BitVec.ofNat_sub_ofNat_of_le _ _ (by omega) ordered, setUp.pc, y.line_succ]
  exact if_congr (left_eq_zero_iff ordered bssInMemory) rfl rfl

/-- A BSS that is not empty is cleared. -/
theorem enter_clear (code : y.InMemory fetch) (setUp : SetUp y core s)
    (nonempty : y.bssStart < y.bssEnd) (bssInMemory : y.bssEnd < 2 ^ 64) :
    ∃ t, SystemCore.processor.steps fetch 2 s = some t ∧ t.pc = y.line 21 ∧ Cleared y s t 0 := by
  have test := test_pc setUp nonempty.le bssInMemory
  rw [if_neg nonempty.ne] at test
  have loaded := code.enterClear
  rw [← setUp.pc] at loaded
  obtain ⟨isTest, isMov, -⟩ := loaded
  rw [setUp.pc, y.line_succ, ← test] at isMov
  have runs : SystemCore.processor.steps fetch 2 s =
      some (SystemCore.processor.execAll s y.enterClear) :=
    (steps_succ (p := SystemCore.processor) isTest 1).trans
      (steps_one (p := SystemCore.processor) isMov)
  refine ⟨_, runs, ?_, setUp.place, ?_, rfl, rfl, rfl, rfl,
    fun addr => (if_neg (by omega)).symm⟩
  · change (SystemCore.processor.exec s (.cbz 2 (y.line 24))).pc + 4 = _
    rw [test, y.line_succ]
  · exact setUp.left.trans
      (BitVec.ofNat_sub_ofNat_of_le _ _ (nonempty.trans bssInMemory) nonempty.le)

/-- Behind the loop: the BSS is zero, and nothing else has changed. -/
structure BssZero (y : Symbols) (s t : SystemCore) : Prop where
  pc : t.pc = y.line 24
  sp : t.sp = s.sp
  sys : t.sys = s.sys
  pstate : t.pstate = s.pstate
  mem : ∀ addr, t.mem addr = if y.bssStart ≤ addr ∧ addr < y.bssEnd then 0 else s.mem addr

/-- From the test for an empty BSS to the end of the loop. -/
theorem bss_run (code : y.InMemory fetch) (setUp : SetUp y core s)
    (bssInMemory : y.bssEnd < 2 ^ 64) {count : Nat} (size : y.bssEnd = y.bssStart + 8 * count) :
    ∃ steps t, SystemCore.processor.steps fetch steps s = some t ∧ BssZero y s t := by
  cases count with
  | zero =>
      have isTest := code.enterClear.1
      rw [← setUp.pc] at isTest
      have test := test_pc setUp size.ge bssInMemory
      rw [if_pos (by omega)] at test
      refine ⟨1, _, steps_one isTest, test, rfl, rfl, rfl, fun addr => ?_⟩
      rw [if_neg (by omega)]
      rfl
  | succ count =>
      obtain ⟨u, enters, atLoop, first⟩ := enter_clear code setUp (by omega) bssInMemory
      obtain ⟨t, runs, cleared, ends⟩ := clear_run code atLoop first bssInMemory size
      refine ⟨_, t, steps_trans enters runs, ends, cleared.sp, cleared.sys, cleared.pstate, ?_⟩
      intro addr
      rw [cleared.mem, ← size]

/-- The code runs up to the call of `main` if the BSS is whole rounds of the loop and the
device tree pointer lies below it. -/
theorem start_run (code : y.InMemory fetch) (here : core.pc = y.line 0)
    (bssInMemory : y.bssEnd < 2 ^ 64) {count : Nat} (size : y.bssEnd = y.bssStart + 8 * count)
    (below : y.dtbPhysAddr + 8 ≤ y.bssStart) :
    ∃ steps core', SystemCore.processor.steps fetch steps core = some core' ∧
      Started y core core' := by
  obtain ⟨s, runsSetUp, setUp⟩ := setUp_run code here (by omega)
  obtain ⟨steps, t, runsBss, bss⟩ := bss_run code setUp bssInMemory size
  have isCall := code.callMain.1
  rw [← bss.pc] at isCall
  have sys := bss.sys.trans setUp.sys
  have outside : ∀ addr, (addr < y.bssStart ∨ y.bssEnd ≤ addr) → t.mem addr =
      core.mem.store y.dtbPhysAddr 8 (core.x 0).toNat addr := by
    intro addr apart
    rw [bss.mem, if_neg (by omega), setUp.mem]
  refine ⟨_, _, steps_trans (steps_trans runsSetUp runsBss) (steps_one isCall),
    rfl, bss.sp.trans setUp.sp, congrFun sys .vbarEl1, congrFun sys .cpacrEl1,
    congrFun sys .sctlrEl1, bss.pstate.trans setUp.pstate, ?_, ?_, ?_, ?_⟩
  · intro register noVectors noFloat noMmu
    change t.sys _ = _
    rw [sys, Function.update_of_ne noMmu, Function.update_of_ne noFloat,
      Function.update_of_ne noVectors]
  · change t.mem.load _ 8 = _
    rw [Memory.load_congr fun offset inside => outside _ (by omega), Memory.load_store_same]
    exact Nat.mod_eq_of_lt (core.x 0).isLt
  · intro addr above under
    change t.mem addr = 0
    rw [bss.mem, if_pos ⟨above, under⟩]
  · intro addr apart noPointer
    change t.mem addr = _
    rw [outside addr apart, Memory.store_outside _ noPointer]

/-! ### What `linker.ld` gives -/

namespace Sections

variable (sections : Sections)

/-- Both ends of the BSS are aligned to 16 bytes, so that rounds of 8 bytes clear it. -/
theorem bss_whole : ∃ count, sections.bssEnd = sections.bssStart + 8 * count := by
  have grows : sections.bssStart ≤ sections.bssEnd :=
    (Nat.le_add_right _ _).trans (le_alignUp _ (by decide))
  have isStart : sections.bssStart = (sections.dataStart + sections.data + 16 - 1) / 16 * 16 := rfl
  have isEnd : sections.bssEnd = (sections.bssStart + sections.bss + 16 - 1) / 16 * 16 := rfl
  exact ⟨(sections.bssEnd - sections.bssStart) / 8, by omega⟩

theorem bssEnd_lt_stackTop : sections.bssEnd < sections.stackTop := by
  have page : sections.bssEnd ≤ sections.dataEnd := le_alignUp _ (by decide)
  have stack : sections.dataEnd + 0x4000 ≤ sections.stackTop :=
    Nat.add_le_add_right (le_alignUp _ (by decide)) _
  omega

theorem data_le_bssStart : sections.dataStart + sections.data ≤ sections.bssStart :=
  le_alignUp _ (by decide)

theorem rodata_le_dataStart : sections.rodataStart + sections.rodata ≤ sections.dataStart :=
  (le_alignUp _ (by decide)).trans (le_alignUp _ (by decide))

/-- The start leaves the code and the constants as they were loaded. -/
theorem start_keeps_code {core' : SystemCore} (started : Started sections.link core core')
    {addr : Nat} (below : addr < sections.rodataStart + sections.rodata) :
    core'.mem addr = core.mem addr := by
  have beforeData := sections.rodata_le_dataStart
  have behind := sections.data_le_bssStart
  refine started.kept addr (.inl ?_) (.inl ?_)
  · change addr < sections.bssStart
    omega
  · change addr < sections.dataStart + sections.dtbPhysAddr
    omega

/-- A kernel linked by `linker.ld` starts: the code from `entry_point` comes to the call of
`main`, in finitely many steps, with the core and memory that `main` needs, and with the code
and the constants as they were loaded. -/
theorem start_calls_main (fit : sections.Fit)
    (loaded : Loaded fetch (.ofNat 64 sections.link.entryPoint) sections.link.startCode)
    (here : core.pc = .ofNat 64 sections.link.entryPoint) :
    ∃ steps core', SystemCore.processor.steps fetch steps core = some core' ∧
      Started sections.link core core' ∧
      ∀ addr, addr < sections.rodataStart + sections.rodata →
        core'.mem addr = core.mem addr := by
  rw [← Symbols.line_zero] at loaded here
  obtain ⟨count, size⟩ := sections.bss_whole
  have inMemory := sections.bssEnd_lt_stackTop.trans fit.inMemory
  have pointer := fit.dtbPhysAddr
  have behind := sections.data_le_bssStart
  have below : sections.link.dtbPhysAddr + 8 ≤ sections.link.bssStart := by
    change sections.dataStart + sections.dtbPhysAddr + 8 ≤ sections.bssStart
    omega
  obtain ⟨steps, core', runs, started⟩ :=
    start_run (Symbols.inMemory loaded) here inMemory size below
  exact ⟨steps, core', runs, started, fun _ => sections.start_keeps_code started⟩

/-- Sections whose sizes are not aligned. -/
def small : Sections where
  text := 0x8124
  rodata := 0x1003
  data := 0x101
  bss := 0x2345
  el1VectorTable := 0x800
  main := 0x1000
  dtbPhysAddr := 8

/-- A core that was handed the device tree at 0x40000000, with memory that is not zero. -/
def smallCore : SystemCore where
  x := fun _ => 0x40000000
  sp := 0
  q := fun _ => 0
  pc := .ofNat 64 small.link.entryPoint
  mem := fun _ => 1
  pstate := 0x3c5
  sys := fun _ => 0x30d00801

theorem start_calls_main_small : ∃ steps core',
    SystemCore.processor.steps (fetchFrom (.ofNat 64 small.link.entryPoint) small.link.startCode)
        steps smallCore = some core' ∧ Started small.link smallCore core' ∧
      ∀ addr, addr < small.rodataStart + small.rodata →
        core'.mem addr = smallCore.mem addr := by
  have fit : small.Fit := ⟨by decide, by decide, by decide⟩
  exact start_calls_main small fit (by decide +kernel) rfl

end Sections

end UniKernel.Boot
