import UniKernel.Lib.Loop
import UniKernel.Stdio.Formats

/-!
Owns the runs of `printf`. A call does for each item of its format what the code
has in the case for it, and comes back to the head of the loop behind the item.
It returns, with `print_lock` released, exactly if the scan of the format does
not get stuck; where it does, the loop goes round without end.
-/

namespace UniKernel.Stdio

open UniKernel.Lib StateTransition

/-! ### The case of an item -/

/-- The case of an item, with the strings that the slots of `%s` point to. -/
def Printf.after (call : Call) (strings : Nat → List UInt8) (s : Printf) : Item → Printf
  | .piece (.literal c) =>
      { s with p := s.p + 1, sent := (putchar c s.sent).2, ret := i32 (s.ret + 1) }
  | .piece (.directive (.integer conversion)) =>
      s.converted call conversion (Directive.text (.integer conversion)).length
  | .piece (.directive .s) =>
      let printed := putsText 0 (strings s.ap) s.sent
      { s with p := s.p + 2, ap := s.ap + 1, sent := printed.2, ret := i32 (s.ret + printed.1) }
  | .skipped => { s with p := s.p + 1 }
  | .stuck => s

/-- From argument `ap` on, the slots of `%s` point to the strings. -/
def StringArgs (call : Call) (strings : Nat → List UInt8) : (ap : Nat) → List Item → Prop
  | _, [] => True
  | ap, .piece (.directive .s) :: items =>
      IsString call.mem (u64 (call.args ap)) (strings ap) ∧ StringArgs call strings (ap + 1) items
  | ap, .piece (.directive (.integer _)) :: items => StringArgs call strings (ap + 1) items
  | ap, _ :: items => StringArgs call strings ap items

/-- The pointer does not go back, stays inside the format, and has advanced
whenever the call comes back to the head of the loop. -/
def Advances (call : Call) (limit : Nat) (s : Printf) : Prop :=
  s.p ≤ limit ∧ ∀ s', Printf.step call s = some s' →
    s.p ≤ s'.p ∧ (s'.point = .format → s.point = .lock ∨ s.p < s'.p)

section Items

variable {call : Call} {strings : Nat → List UInt8} {limit : Nat} {s s' : Printf} {c k : UInt8}
  {text : List UInt8} {items : List Item}

theorem advances_of_step (within : s.p ≤ limit) (taken : Printf.step call s = some s')
    (forward : s.p ≤ s'.p) (back : s'.point = .format → s.point = .lock ∨ s.p < s'.p) :
    Advances call limit s := by
  refine ⟨within, ?_⟩
  intro other isNext
  rw [taken] at isNext
  cases isNext
  exact ⟨forward, back⟩

theorem step_format (here : s.point = .format) :
    Printf.step call s = some (s.iteration call) := by
  unfold Printf.step
  rw [here]

/-- An iteration that takes one step and moves the pointer on. -/
theorem passes_iteration (here : s.point = .format) (within : s.p ≤ limit)
    (iterated : s.iteration call = s') (forward : s.p < s'.p) :
    Passes (Printf.step call) (Advances call limit) s s' := by
  have taken : Printf.step call s = some s' := (step_format here).trans (congrArg some iterated)
  exact Passes.single
    (advances_of_step within taken (Nat.le_of_lt forward) fun _ => Or.inr forward) taken

theorem passes_literal (here : s.point = .format) (within : s.p ≤ limit) (plain : c ≠ chr '%')
    (string : IsString call.mem s.p (c :: text)) :
    Passes (Printf.step call) (Advances call limit) s
      (s.after call strings (.piece (.literal c))) := by
  apply passes_iteration here within _ (Nat.lt_succ_self s.p)
  rcases string with ⟨isChar, nonzero, -⟩
  unfold Printf.iteration
  rw [isChar, if_neg nonzero, if_neg plain]
  rfl

theorem shortCase_length {conversion : Conversion} (isCase : shortCase k = some (.integer conversion)) :
    (Directive.text (.integer conversion)).length = 2 := by
  unfold shortCase at isCase
  split_ifs at isCase <;> cases isCase <;> rfl

theorem longCase_length {conversion : Conversion} (isCase : longCase k = some conversion) :
    (Directive.text (.integer conversion)).length = 3 := by
  unfold longCase at isCase
  split_ifs at isCase <;> cases isCase <;> rfl

theorem iteration_integer {conversion : Conversion}
    (isCase : shortCase k = some (.integer conversion))
    (string : IsString call.mem s.p (chr '%' :: k :: text)) :
    s.iteration call = s.converted call conversion 2 := by
  rcases string with ⟨isPercent, nonzero, isNext, -⟩
  unfold Printf.iteration
  rw [isPercent, if_neg nonzero, if_pos rfl, isNext, if_neg (ne_of_case isCase shortCase_l), isCase]

theorem iteration_string (isCase : shortCase k = some .s)
    (string : IsString call.mem s.p (chr '%' :: k :: text)) :
    s.iteration call = { s with point := .puts (u64 (call.args s.ap)) 0, ap := s.ap + 1 } := by
  rcases string with ⟨isPercent, nonzero, isNext, -⟩
  unfold Printf.iteration
  rw [isPercent, if_neg nonzero, if_pos rfl, isNext, if_neg (ne_of_case isCase shortCase_l), isCase]

theorem iteration_long {conversion : Conversion} (isCase : longCase k = some conversion)
    (string : IsString call.mem s.p (chr '%' :: chr 'l' :: k :: text)) :
    s.iteration call = s.converted call conversion 3 := by
  rcases string with ⟨isPercent, nonzero, isL, -, isNext, -⟩
  unfold Printf.iteration
  rw [isPercent, if_neg nonzero, if_pos rfl, isL, if_pos rfl, isNext, isCase]

theorem after_integer (conversion : Conversion) :
    s.after call strings (.piece (.directive (.integer conversion))) =
      s.converted call conversion (Directive.text (.integer conversion)).length := rfl

theorem passes_short {conversion : Conversion} (here : s.point = .format) (within : s.p ≤ limit)
    (isCase : shortCase k = some (.integer conversion))
    (string : IsString call.mem s.p (chr '%' :: k :: text)) :
    Passes (Printf.step call) (Advances call limit) s
      (s.after call strings (.piece (.directive (.integer conversion)))) := by
  rw [after_integer, shortCase_length isCase]
  exact passes_iteration here within (iteration_integer isCase string)
    (Nat.lt_add_of_pos_right (by decide))

theorem passes_long {conversion : Conversion} (here : s.point = .format) (within : s.p ≤ limit)
    (isCase : longCase k = some conversion)
    (string : IsString call.mem s.p (chr '%' :: chr 'l' :: k :: text)) :
    Passes (Printf.step call) (Advances call limit) s
      (s.after call strings (.piece (.directive (.integer conversion)))) := by
  rw [after_integer, longCase_length isCase]
  exact passes_iteration here within (iteration_long isCase string)
    (Nat.lt_add_of_pos_right (by decide))

theorem passes_skipped (here : s.point = .format) (within : s.p ≤ limit) (other : NoCase text)
    (string : IsString call.mem s.p (chr '%' :: text)) :
    Passes (Printf.step call) (Advances call limit) s (s.after call strings .skipped) := by
  apply passes_iteration here within _ (Nat.lt_succ_self s.p)
  rcases string with ⟨isPercent, nonzero, rest⟩
  have noCase : call.mem (s.p + 1) ≠ chr 'l' ∧ shortCase (call.mem (s.p + 1)) = none := by
    rcases other with ⟨notLong, noShort⟩
    cases text with
    | nil =>
        rw [show call.mem (s.p + 1) = 0 from rest]
        decide
    | cons k rest' =>
        rw [rest.head]
        exact ⟨fun same => notLong (congrArg some same), noShort⟩
  unfold Printf.iteration
  rw [isPercent, if_neg nonzero, if_pos rfl, if_neg noCase.1, noCase.2]
  rfl

/-- The loop of `__puts` inside a call. -/
theorem passes_puts {str : Nat} {count : Int} (here : s.point = .puts str count)
    (within : s.p ≤ limit) (string : IsString call.mem str text) :
    Passes (Printf.step call) (Advances call limit) s
      { s with
        point := .format
        p := s.p + 2
        sent := (putsText count text s.sent).2
        ret := i32 (s.ret + (putsText count text s.sent).1) } := by
  induction text generalizing s str count with
  | nil =>
      have taken : Printf.step call s =
          some { s with point := .format, p := s.p + 2, ret := i32 (s.ret + count) } := by
        unfold Printf.step
        rw [here]
        exact if_pos string
      have forward : s.p < s.p + 2 := Nat.lt_add_of_pos_right (by decide)
      exact Passes.single
        (advances_of_step within taken (Nat.le_of_lt forward) fun _ => Or.inr forward) taken
  | cons c rest inductionHypothesis =>
      rcases string with ⟨isChar, nonzero, tail⟩
      have taken : Printf.step call s =
          some { s with point := .puts (str + 1) (i32 (count + 1)), sent := (putchar c s.sent).2 } := by
        unfold Printf.step
        rw [here]
        dsimp only
        rw [isChar, if_neg nonzero]
      have now : Advances call limit s :=
        advances_of_step within taken (Nat.le_refl s.p) fun atHead => by cases atHead
      rw [putsText, if_neg nonzero]
      exact (Passes.single now taken).trans (inductionHypothesis rfl within tail)

theorem passes_string (here : s.point = .format) (within : s.p ≤ limit)
    (isCase : shortCase k = some .s) (string : IsString call.mem s.p (chr '%' :: k :: text))
    (argument : IsString call.mem (u64 (call.args s.ap)) (strings s.ap)) :
    Passes (Printf.step call) (Advances call limit) s
      (s.after call strings (.piece (.directive .s))) := by
  have taken : Printf.step call s =
      some { s with point := .puts (u64 (call.args s.ap)) 0, ap := s.ap + 1 } :=
    (step_format here).trans (congrArg some (iteration_string isCase string))
  have now : Advances call limit s :=
    advances_of_step within taken (Nat.le_refl s.p) fun atHead => by cases atHead
  have puts := (Passes.single now taken).trans (passes_puts rfl within argument)
  unfold Printf.after
  rw [← here] at puts
  exact puts

/-! ### Formats -/

theorem after_keeps (call : Call) (strings : Nat → List UInt8) (s : Printf) (item : Item) :
    (s.after call strings item).point = s.point ∧
      (s.after call strings item).printLock = s.printLock := by
  rcases item with (c | (_ | conversion)) | _ | _ <;> exact ⟨rfl, rfl⟩

theorem foldl_after_keeps (call : Call) (strings : Nat → List UInt8) (items : List Item)
    (s : Printf) :
    (items.foldl (Printf.after call strings) s).point = s.point ∧
      (items.foldl (Printf.after call strings) s).printLock = s.printLock := by
  induction items generalizing s with
  | nil => exact ⟨rfl, rfl⟩
  | cons item rest inductionHypothesis =>
      rcases after_keeps call strings s item with ⟨point, lock⟩
      rcases inductionHypothesis (s.after call strings item) with ⟨restPoint, restLock⟩
      exact ⟨restPoint.trans point, restLock.trans lock⟩

/-- Where the items of a format lead: to the 0 behind it, or to an iteration without
end. -/
inductive Outcome (call : Call) (limit : Nat) (t : Printf) : List Item → Prop where
  | ends {items : List Item} (noStuck : .stuck ∉ items) (atEnd : t.p = limit)
      (isEnd : call.mem limit = 0) : Outcome call limit t items
  | loops {items : List Item} (isStuck : .stuck ∈ items)
      (stays : Printf.step call t = some t) : Outcome call limit t items

theorem Outcome.cons {t : Printf} {item : Item} (outcome : Outcome call limit t items)
    (other : item ≠ .stuck) : Outcome call limit t (item :: items) := by
  cases outcome with
  | ends noStuck atEnd isEnd =>
      refine .ends ?_ atEnd isEnd
      intro member
      rcases List.mem_cons.mp member with same | later
      · exact other same.symm
      · exact noStuck later
  | loops isStuck stays => exact .loops (List.mem_cons_of_mem _ isStuck) stays

/-- An item that is passed, and the outcome of the items behind it. -/
theorem Outcome.behind {item : Item} (other : item ≠ .stuck)
    (first : Passes (Printf.step call) (Advances call limit) s (s.after call strings item))
    (rest : Passes (Printf.step call) (Advances call limit) (s.after call strings item)
        (items.foldl (Printf.after call strings) (s.after call strings item)) ∧
      Outcome call limit (items.foldl (Printf.after call strings) (s.after call strings item)) items) :
    Passes (Printf.step call) (Advances call limit) s
        ((item :: items).foldl (Printf.after call strings) s) ∧
      Outcome call limit ((item :: items).foldl (Printf.after call strings) s) (item :: items) :=
  ⟨first.trans rest.1, rest.2.cons other⟩

theorem step_stuck (here : s.point = .format) (unknown : text.head?.bind longCase = none)
    (string : IsString call.mem s.p (chr '%' :: chr 'l' :: text)) :
    Printf.step call s = some s := by
  rcases string with ⟨isPercent, nonzero, isL, -, rest⟩
  have noCase : longCase (call.mem (s.p + 2)) = none := by
    cases text with
    | nil =>
        rw [show call.mem (s.p + 2) = 0 from rest]
        decide
    | cons k rest' =>
        rw [show call.mem (s.p + 2) = k from rest.head]
        exact unknown
  rw [step_format here]
  unfold Printf.iteration
  rw [isPercent, if_neg nonzero, if_pos rfl, isL, if_pos rfl, noCase]

/-- The items of a format are gone through in turn. -/
theorem Scans.passes (scans : Scans text items) (here : s.point = .format)
    (string : IsString call.mem s.p text) (args : StringArgs call strings s.ap items)
    (ends : s.p + text.length = limit) :
    Passes (Printf.step call) (Advances call limit) s (items.foldl (Printf.after call strings) s) ∧
      Outcome call limit (items.foldl (Printf.after call strings) s) items := by
  induction scans generalizing s with
  | done =>
      rw [List.length_nil, Nat.add_zero] at ends
      exact ⟨Passes.refl s, .ends List.not_mem_nil ends (ends ▸ string)⟩
  | @literal c text items plain _ inductionHypothesis =>
      rw [List.length_cons] at ends
      apply Outcome.behind (by simp) (passes_literal here (by omega) plain string)
      exact inductionHypothesis here string.tail args (show s.p + 1 + text.length = limit by omega)
  | @short k directive text items isCase _ inductionHypothesis =>
      rw [List.length_cons, List.length_cons] at ends
      cases directive with
      | s =>
          apply Outcome.behind (by simp) (passes_string here (by omega) isCase string args.1)
          exact inductionHypothesis here string.tail.tail args.2
            (show s.p + 2 + text.length = limit by omega)
      | integer conversion =>
          have isEnd : (s.after call strings (.piece (.directive (.integer conversion)))).p = s.p + 2 :=
            congrArg (s.p + ·) (shortCase_length isCase)
          apply Outcome.behind (by simp) (passes_short here (by omega) isCase string)
          exact inductionHypothesis here (by rw [isEnd]; exact string.tail.tail) args
            (by rw [isEnd]; omega)
  | @long k conversion text items isCase _ inductionHypothesis =>
      rw [List.length_cons, List.length_cons, List.length_cons] at ends
      have isEnd : (s.after call strings (.piece (.directive (.integer conversion)))).p = s.p + 3 :=
        congrArg (s.p + ·) (longCase_length isCase)
      apply Outcome.behind (by simp) (passes_long here (by omega) isCase string)
      exact inductionHypothesis here (by rw [isEnd]; exact string.tail.tail.tail) args
        (by rw [isEnd]; omega)
  | @skipped text items other _ inductionHypothesis =>
      rw [List.length_cons] at ends
      apply Outcome.behind (by simp) (passes_skipped here (by omega) other string)
      exact inductionHypothesis here string.tail args (show s.p + 1 + text.length = limit by omega)
  | stuck unknown =>
      exact ⟨Passes.refl s, .loops (List.mem_singleton_self _) (step_stuck here unknown string)⟩

end Items

/-! ### Calls -/

section Calls

variable {call : Call} {strings : Nat → List UInt8} {fmt : Nat} {text : List UInt8}
  {items : List Item}

/-- The head of the loop, when a call first comes to it. -/
def Printf.entered (call : Call) (fmt : Nat) : Printf :=
  { Printf.start fmt with point := .format, printLock := if call.mmuEnabled then 1 else 0 }

/-- What a call returns with, after the items of its format. -/
def Printf.final (call : Call) (strings : Nat → List UInt8) (fmt : Nat) (items : List Item) : Printf :=
  { items.foldl (Printf.after call strings) (Printf.entered call fmt) with
    point := .returned
    printLock := 0 }

/-- A call takes the lock and gets to the head of the loop. -/
theorem passes_enter (call : Call) (fmt limit : Nat) (within : fmt ≤ limit) :
    Passes (Printf.step call) (Advances call limit) (Printf.start fmt) (Printf.entered call fmt) := by
  have taken : Printf.step call (Printf.start fmt) = some (Printf.entered call fmt) := by
    rcases call with ⟨mem, args, _ | _⟩ <;> rfl
  exact Passes.single
    (advances_of_step within taken (Nat.le_refl fmt) fun _ => Or.inl rfl) taken

/-- From the 0 behind the format a call releases the lock and returns. -/
theorem passes_return {s : Printf} {limit : Nat} (here : s.point = .format) (ends : s.p = limit)
    (isEnd : call.mem limit = 0) (locked : s.printLock = if call.mmuEnabled then 1 else 0) :
    Passes (Printf.step call) (Advances call limit) s
      { s with point := .returned, printLock := 0 } := by
  have leaves : Printf.step call s = some { s with point := .unlock } := by
    rw [step_format here]
    unfold Printf.iteration
    rw [ends, if_pos isEnd]
  have unlocks : Printf.step call { s with point := .unlock } =
      some { s with point := .returned, printLock := 0 } := by
    rcases call with ⟨mem, args, _ | _⟩
    · rw [show s.printLock = 0 from locked]
      rfl
    · rfl
  have within : s.p ≤ limit := Nat.le_of_eq ends
  have first : Passes (Printf.step call) (Advances call limit) s { s with point := .unlock } :=
    Passes.single (advances_of_step within leaves (Nat.le_refl s.p) fun atHead => by cases atHead)
      leaves
  exact first.trans (Passes.single
    (advances_of_step within unlocks (Nat.le_refl s.p) fun atHead => by cases atHead) unlocks)

/-- A call comes to the end of its items, or loops there. -/
theorem Scans.entered_passes (scans : Scans text items) (string : IsString call.mem fmt text)
    (args : StringArgs call strings 0 items) :
    Passes (Printf.step call) (Advances call (fmt + text.length)) (Printf.start fmt)
        (items.foldl (Printf.after call strings) (Printf.entered call fmt)) ∧
      Outcome call (fmt + text.length)
        (items.foldl (Printf.after call strings) (Printf.entered call fmt)) items := by
  have body : Passes (Printf.step call) (Advances call (fmt + text.length)) (Printf.entered call fmt)
      _ ∧ _ := scans.passes rfl string args rfl
  exact ⟨(passes_enter call fmt _ (Nat.le_add_right _ _)).trans body.1, body.2⟩

/-- A call whose format has no stuck item returns. -/
theorem Scans.call_passes (scans : Scans text items) (noStuck : .stuck ∉ items)
    (string : IsString call.mem fmt text) (args : StringArgs call strings 0 items) :
    Passes (Printf.step call) (Advances call (fmt + text.length)) (Printf.start fmt)
        (Printf.final call strings fmt items) ∧
      (Printf.final call strings fmt items).p = fmt + text.length := by
  rcases scans.entered_passes string args with ⟨passes, outcome⟩
  have keeps := foldl_after_keeps call strings items (Printf.entered call fmt)
  cases outcome with
  | ends _ atEnd isEnd => exact ⟨passes.trans (passes_return keeps.1 atEnd isEnd keeps.2), atEnd⟩
  | loops isStuck _ => exact absurd isStuck noStuck

/-- A call whose format has a stuck item does not end. -/
theorem Scans.not_mem_eval (scans : Scans text items) (isStuck : .stuck ∈ items)
    (string : IsString call.mem fmt text) (args : StringArgs call strings 0 items) (last : Printf) :
    last ∉ eval (Printf.step call) (Printf.start fmt) := by
  rcases scans.entered_passes string args with ⟨passes, outcome⟩
  cases outcome with
  | ends noStuck _ _ => exact absurd isStuck noStuck
  | loops _ stays => exact not_mem_eval_of_stuck passes.reaches stays last

/-- The pointer advances with each iteration and stays inside the format, and the
call returns with `print_lock` released. -/
structure LoopEnds (call : Call) (fmt length : Nat) : Prop where
  advances : ∀ s, Reaches (Printf.step call) (Printf.start fmt) s → Advances call (fmt + length) s
  returns : ∃ last ∈ eval (Printf.step call) (Printf.start fmt),
    last.point = .returned ∧ last.printLock = 0

/-- The loop of `printf` ends exactly for the formats in which every `%l` has d,
u, x or X behind it. -/
theorem printf_ends_iff (string : IsString call.mem fmt text) (scans : Scans text items)
    (args : StringArgs call strings 0 items) :
    LoopEnds call fmt text.length ↔ LongKnown text := by
  rw [← scans.stuck_iff]
  constructor
  · rintro ⟨-, last, ends, -⟩ isStuck
    exact scans.not_mem_eval isStuck string args last ends
  · intro noStuck
    rcases scans.call_passes noStuck string args with ⟨passes, atEnd⟩
    have isOver : Printf.step call (Printf.final call strings fmt items) = none := rfl
    refine ⟨passes.always (Always.stop ⟨Nat.le_of_eq atEnd, ?_⟩ isOver), _,
      mem_eval.mpr ⟨passes.reaches, isOver⟩, rfl, rfl⟩
    intro s' isNext
    rw [isOver] at isNext
    cases isNext

end Calls

/-! ### Two formats of the kernel -/

theorem scans_literals {front text : List UInt8} {items : List Item}
    (plain : ∀ c ∈ front, c ≠ chr '%') (rest : Scans text items) :
    Scans (front ++ text) (front.map (fun c => .piece (.literal c)) ++ items) := by
  induction front with
  | nil => exact rest
  | cons c front inductionHypothesis =>
      exact .literal (plain c List.mem_cons_self)
        (inductionHypothesis fun other member => plain other (List.mem_cons_of_mem _ member))

/-- Without `%s` there is nothing to ask of the arguments. -/
theorem stringArgs_of_none {call : Call} {strings : Nat → List UInt8} {items : List Item}
    (noString : .piece (.directive .s) ∉ items) (ap : Nat) : StringArgs call strings ap items := by
  induction items generalizing ap with
  | nil => trivial
  | cons item rest inductionHypothesis =>
      have later := inductionHypothesis fun member => noString (List.mem_cons_of_mem _ member)
      rcases item with (c | (_ | conversion)) | _ | _
      · exact later ap
      · exact absurd List.mem_cons_self noString
      · exact later (ap + 1)
      · exact later ap
      · exact later ap

/-- The call that says how many frames `pmm_init` has found. -/
def initComplete : List UInt8 := bytes "[PMM] Initialization complete. Free frames: "

def initCompleteCall : Call := ⟨textMemory (initComplete ++ bytes "%d\n"), fun _ => 523646, true⟩

theorem printf_ends_initComplete :
    LoopEnds initCompleteCall 0 (initComplete ++ bytes "%d\n").length := by
  have scans : Scans (initComplete ++ bytes "%d\n") _ :=
    scans_literals (by decide +kernel)
      (.short (show shortCase (chr 'd') = some (.integer .d) by decide)
        (.literal (show chr '\n' ≠ chr '%' by decide) .done))
  have args : ∀ items, .piece (.directive .s) ∉ items →
      StringArgs initCompleteCall (fun _ => []) 0 items :=
    fun items noString => stringArgs_of_none noString 0
  apply (printf_ends_iff (isString_textMemory (by decide +kernel)) scans
    (args _ (by decide +kernel))).mpr
  exact scans.stuck_iff.mp (by decide +kernel)

/-- The call of `vmm_map_page` without memory for a table, for the address 0x40000000. -/
def mapFailure : List UInt8 := bytes "[ [CVMM [W] Failed to allocate L2 table for 0x"

def mapFailureCall : Call :=
  ⟨textMemory (mapFailure ++ bytes "%llx\n"), fun _ => 0x40000000, true⟩

/-- There is no case for `%llx`, which keeps that call in its loop. -/
theorem exists_format_without_end :
    IsString mapFailureCall.mem 0 (mapFailure ++ bytes "%llx\n") ∧
      (∀ last, last ∉ eval (Printf.step mapFailureCall) (Printf.start 0)) ∧
      ¬ LoopEnds mapFailureCall 0 (mapFailure ++ bytes "%llx\n").length := by
  have string : IsString mapFailureCall.mem 0 (mapFailure ++ bytes "%llx\n") :=
    isString_textMemory (by decide +kernel)
  have scans : Scans (mapFailure ++ bytes "%llx\n") _ :=
    scans_literals (by decide +kernel)
      (.stuck (show (bytes "lx\n").head?.bind longCase = none by decide))
  have args : ∀ items, .piece (.directive .s) ∉ items →
      StringArgs mapFailureCall (fun _ => []) 0 items :=
    fun items noString => stringArgs_of_none noString 0
  have noEnd := scans.not_mem_eval (by simp) string (args _ (by decide +kernel))
  refine ⟨string, noEnd, ?_⟩
  rintro ⟨-, last, ends, -⟩
  exact noEnd last ends

end UniKernel.Stdio
