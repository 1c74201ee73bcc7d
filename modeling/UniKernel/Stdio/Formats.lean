import UniKernel.Stdio.Model

/-!
Owns the texts of formats: what the iterations of the loop of `printf` find in a
text, scanned from the left. There is no case for `%l` with another character
behind it than d, u, x or X, and there the scan gets stuck.
-/

namespace UniKernel.Stdio

open UniKernel.Lib

/-! ### Scanning a format -/

/-- A character that is sent as it is, or a directive. -/
inductive Piece where
  | literal (c : UInt8)
  | directive (directive : Directive)
deriving DecidableEq, Repr

/-- What an iteration finds: a piece, a percent sign that it goes past, or `%l`
without a case. -/
inductive Item where
  | piece (piece : Piece)
  | skipped
  | stuck
deriving DecidableEq, Repr

/-- The characters of a directive. -/
def Directive.text : Directive → List UInt8
  | .s => [chr '%', chr 's']
  | .integer .d => [chr '%', chr 'd']
  | .integer .x => [chr '%', chr 'x']
  | .integer .upperX => [chr '%', chr 'X']
  | .integer .ld => [chr '%', chr 'l', chr 'd']
  | .integer .lu => [chr '%', chr 'l', chr 'u']
  | .integer .lx => [chr '%', chr 'l', chr 'x']
  | .integer .upperLx => [chr '%', chr 'l', chr 'X']

/-- Behind a percent sign comes neither `l` nor a character with a case. -/
def NoCase (text : List UInt8) : Prop :=
  text.head? ≠ some (chr 'l') ∧ text.head?.bind shortCase = none

/-- What the iterations find in a text; behind `%l` without a case they do not go on. -/
inductive Scans : List UInt8 → List Item → Prop where
  | done : Scans [] []
  | literal {c : UInt8} {text : List UInt8} {items : List Item} (plain : c ≠ chr '%')
      (rest : Scans text items) : Scans (c :: text) (.piece (.literal c) :: items)
  | short {k : UInt8} {directive : Directive} {text : List UInt8} {items : List Item}
      (isCase : shortCase k = some directive) (rest : Scans text items) :
      Scans (chr '%' :: k :: text) (.piece (.directive directive) :: items)
  | long {k : UInt8} {conversion : Conversion} {text : List UInt8} {items : List Item}
      (isCase : longCase k = some conversion) (rest : Scans text items) :
      Scans (chr '%' :: chr 'l' :: k :: text) (.piece (.directive (.integer conversion)) :: items)
  | skipped {text : List UInt8} {items : List Item} (other : NoCase text)
      (rest : Scans text items) : Scans (chr '%' :: text) (.skipped :: items)
  | stuck {text : List UInt8} (unknown : text.head?.bind longCase = none) :
      Scans (chr '%' :: chr 'l' :: text) [.stuck]

/-- Every text can be scanned. -/
theorem exists_scan (text : List UInt8) : ∃ items, Scans text items := by
  induction length : text.length using Nat.strongRecOn generalizing text with
  | ind n inductionHypothesis =>
      subst length
      rcases text with _ | ⟨c, rest⟩
      · exact ⟨[], .done⟩
      · have next : ∀ shorter : List UInt8, shorter.length < (c :: rest).length →
            ∃ items, Scans shorter items :=
          fun shorter less => inductionHypothesis _ less shorter rfl
        rcases next rest (Nat.lt_succ_self _) with ⟨items, scans⟩
        by_cases percent : c = chr '%'
        · subst percent
          rcases rest with _ | ⟨k, rest⟩
          · exact ⟨_, .skipped ⟨by decide, rfl⟩ scans⟩
          · by_cases isLong : k = chr 'l'
            · subst isLong
              rcases rest with _ | ⟨k, rest⟩
              · exact ⟨_, .stuck rfl⟩
              · cases isCase : longCase k with
                | none => exact ⟨_, .stuck isCase⟩
                | some conversion =>
                    rcases next rest (by simp only [List.length_cons]; omega) with ⟨items, scans⟩
                    exact ⟨_, .long isCase scans⟩
            · cases isCase : shortCase k with
              | none =>
                  refine ⟨_, .skipped ⟨?_, isCase⟩ scans⟩
                  exact fun same => isLong (Option.some.inj same)
              | some directive =>
                  rcases next rest (by simp only [List.length_cons]; omega) with ⟨items, scans⟩
                  exact ⟨_, .short isCase scans⟩
        · exact ⟨_, .literal percent scans⟩

/-- Every `%l` in the text has d, u, x or X behind it. -/
def LongKnown (text : List UInt8) : Prop :=
  ∀ front back, text = front ++ chr '%' :: chr 'l' :: back →
    ∃ k ∈ [chr 'd', chr 'u', chr 'x', chr 'X'], back.head? = some k

theorem longCase_ne_none_iff {k : UInt8} :
    longCase k ≠ none ↔ k ∈ [chr 'd', chr 'u', chr 'x', chr 'X'] := by
  simp only [longCase, List.mem_cons, List.not_mem_nil, or_false]
  split_ifs <;> simp_all

theorem longKnown_cons {c : UInt8} {text : List UInt8} :
    LongKnown (c :: text) ↔
      (∀ back, c = chr '%' → text = chr 'l' :: back → back.head?.bind longCase ≠ none) ∧
        LongKnown text := by
  have known_iff : ∀ back : List UInt8, back.head?.bind longCase ≠ none ↔
      ∃ k ∈ [chr 'd', chr 'u', chr 'x', chr 'X'], back.head? = some k := by
    intro back
    cases back with
    | nil => simp
    | cons k rest =>
        change longCase k ≠ none ↔ _
        rw [longCase_ne_none_iff]
        simp
  constructor
  · intro known
    constructor
    · rintro back rfl rfl
      exact (known_iff back).mpr (known [] back rfl)
    · rintro front back rfl
      exact known (c :: front) back rfl
  · rintro ⟨first, rest⟩ front back isText
    rcases front with _ | ⟨other, front⟩
    · rw [List.nil_append] at isText
      rcases List.cons.inj isText with ⟨isPercent, isRest⟩
      exact (known_iff back).mp (first back isPercent isRest)
    · exact rest front back (List.cons.inj isText).2

theorem shortCase_l : shortCase (chr 'l') = none := by decide

theorem shortCase_percent : shortCase (chr '%') = none := by decide

theorem longCase_percent : longCase (chr '%') = none := by decide

theorem ne_of_case {α : Type} {cases : UInt8 → Option α} {c k : UInt8} {found : α}
    (isCase : cases k = some found) (noCase : cases c = none) : k ≠ c := by
  rintro rfl
  rw [noCase] at isCase
  cases isCase

/-- The scan gets stuck exactly when some `%l` has another character behind it. -/
theorem Scans.stuck_iff {text : List UInt8} {items : List Item} (scans : Scans text items) :
    .stuck ∉ items ↔ LongKnown text := by
  induction scans with
  | done =>
      refine iff_of_true List.not_mem_nil ?_
      intro front back isText
      rcases front with _ | ⟨c, front⟩ <;> cases isText
  | literal plain _ inductionHypothesis =>
      rw [longKnown_cons, ← inductionHypothesis]
      simp [plain]
  | @short k directive text items isCase _ inductionHypothesis =>
      have notLong : k ≠ chr 'l' := ne_of_case isCase shortCase_l
      have notPercent : k ≠ chr '%' := ne_of_case isCase shortCase_percent
      rw [longKnown_cons, longKnown_cons, ← inductionHypothesis]
      simp [notLong, notPercent]
  | @long k conversion text items isCase _ inductionHypothesis =>
      have notPercent : k ≠ chr '%' := ne_of_case isCase longCase_percent
      have different : chr 'l' ≠ chr '%' := by decide
      rw [longKnown_cons, longKnown_cons, longKnown_cons, ← inductionHypothesis]
      simp [notPercent, different, isCase]
  | @skipped text items other _ inductionHypothesis =>
      have notLong : ∀ back, text ≠ chr 'l' :: back := by
        rintro back rfl
        exact other.1 rfl
      rw [longKnown_cons, ← inductionHypothesis]
      simp [notLong]
  | @stuck text unknown =>
      refine iff_of_false (fun absent => absent (List.mem_singleton_self _)) ?_
      intro known
      exact (longKnown_cons.mp known).1 text rfl rfl unknown

end UniKernel.Stdio
