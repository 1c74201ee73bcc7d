import UniKernel.CString.Strtok

/-!
Owns what the calls of `strtok_r` return for a string: the starts of its tokens in
order, and NULL from then on. Between two calls memory is as it was from the saved
position on, and each token that was returned ends with a 0.
-/

namespace UniKernel.CString

open UniKernel.Lib StateTransition

/-- The characters over which a loop goes on. -/
def TokenLoop.Over (delims : List UInt8) : TokenLoop → UInt8 → Prop
  | .delimiters, c => c ∈ delims
  | .token, c => c ∉ delims

/-- Memory between two calls, when the text has been taken up to position `pos`. -/
structure Untouched (input : TokenInput) (pos : Nat) (mem : Memory) : Prop where
  modifies : input.Modifies mem
  rest : ∀ k, pos ≤ k → mem (input.s + k) = input.mem (input.s + k)

section Memory

variable {input : TokenInput} {pos k calls : Nat} {mem : Memory} {t : Strtok} {which : TokenLoop}
  {c : UInt8}

theorem TokenInput.Modifies.delims (modifies : input.Modifies mem) :
    IsString mem input.delim input.delims := by
  apply input.delimString.congr
  intro i inside
  rcases modifies (input.delim + i) with same | ⟨-, k, isPlace, c, isChar, -⟩
  · exact same
  · have below := (List.getElem?_eq_some_iff.mp isChar).1
    have apart := input.apart
    omega

theorem Untouched.char (untouched : Untouched input pos mem) (above : pos ≤ k)
    (inside : k ≤ input.text.length) : mem (input.s + k) = input.text.getD k 0 := by
  rw [untouched.rest k above, input.string.apply inside]

theorem Untouched.char_of_some (untouched : Untouched input pos mem) (above : pos ≤ k)
    (isChar : input.text[k]? = some c) : mem (input.s + k) = c ∧ c ≠ 0 := by
  have below := (List.getElem?_eq_some_iff.mp isChar).1
  constructor
  · rw [untouched.char above (Nat.le_of_lt below), List.getD_eq_getElem?_getD, isChar]
    rfl
  · exact input.string.nonzero (List.mem_of_getElem? isChar)

/-! ### The loops -/

theorem confined_strchr (modifies : input.Modifies t.mem) {i : Nat}
    (here : t.point = .strchr which c i) (inside : i ≤ input.delims.length) :
    Confined input calls t := by
  refine ⟨?_, modifies⟩
  intro addr isRead
  unfold Strtok.reads at isRead
  rw [here] at isRead
  cases isRead
  exact Or.inr ⟨Nat.le_add_right _ _, Nat.add_le_add_left inside _⟩

theorem step_strchr {client : Client} {i : Nat} {byte : UInt8} (here : t.point = .strchr which c i)
    (isByte : t.mem (client.delim + i) = byte) :
    Strtok.step client t =
      if byte = c then some (t.answered which true)
      else if byte = 0 then some (t.answered which false)
      else some { t with point := .strchr which c (i + 1) } := by
  subst isByte
  unfold Strtok.step
  rw [here]

/-- `strchr` finds exactly the characters of its string. -/
theorem passes_strchr (calls : Nat) (modifies : input.Modifies t.mem) (nonzero : c ≠ 0) {i : Nat}
    (here : t.point = .strchr which c i) {suffix : List UInt8}
    (isSuffix : input.delims.drop i = suffix) (inside : i ≤ input.delims.length) :
    Passes (Strtok.step (input.client calls)) (Confined input calls) t
      (t.answered which (decide (c ∈ suffix))) := by
  induction suffix generalizing t i with
  | nil =>
      have isEnd : t.mem (input.delim + i) = 0 := by
        have ends := modifies.delims.drop inside
        rwa [isSuffix] at ends
      have taken : Strtok.step (input.client calls) t = some (t.answered which false) := by
        rw [step_strchr here isEnd, if_neg (Ne.symm nonzero), if_pos rfl]
      exact Passes.single (confined_strchr modifies here inside) taken
  | cons other rest inductionHypothesis =>
      have string := modifies.delims.drop inside
      rw [isSuffix] at string
      rcases string with ⟨isOther, otherNonzero, -⟩
      by_cases same : other = c
      · have taken : Strtok.step (input.client calls) t = some (t.answered which true) := by
          rw [step_strchr here isOther, if_pos same]
        have found : decide (c ∈ other :: rest) = true := decide_eq_true (by rw [same]; simp)
        rw [found]
        exact Passes.single (confined_strchr modifies here inside) taken
      · have taken : Strtok.step (input.client calls) t =
            some { t with point := .strchr which c (i + 1) } := by
          rw [step_strchr here isOther, if_neg same, if_neg otherNonzero]
        have below : i < input.delims.length := by
          by_contra large
          rw [List.drop_eq_nil_of_le (Nat.not_lt.mp large)] at isSuffix
          cases isSuffix
        have isRest : input.delims.drop (i + 1) = rest := by
          rw [← List.tail_drop, isSuffix, List.tail_cons]
        have later := inductionHypothesis (t := { t with point := .strchr which c (i + 1) })
          modifies rfl isRest below
        have notFirst : decide (c ∈ other :: rest) = decide (c ∈ rest) := by
          simp [Ne.symm same]
        rw [notFirst]
        exact (Passes.single (confined_strchr modifies here inside) taken).trans later

theorem goesOn_iff {delims : List UInt8} :
    which.goesOn (decide (c ∈ delims)) = true ↔ which.Over delims c := by
  cases which <;> simp [TokenLoop.goesOn, TokenLoop.Over]

theorem confined_str (modifies : input.Modifies t.mem)
    (here : t.point = .loop which ∨ t.point = .behind which) (isStr : t.str = input.s + k)
    (inside : k ≤ input.text.length) : Confined input calls t := by
  refine ⟨?_, modifies⟩
  intro addr isRead
  have isStr' : addr = t.str := by
    unfold Strtok.reads at isRead
    rcases here with here | here
    · rw [here] at isRead
      exact (Option.some.inj isRead).symm
    · rw [here] at isRead
      exact (Option.some.inj isRead).symm
  rw [isStr', isStr]
  exact Or.inl ⟨Nat.le_add_right _ _, Nat.add_le_add_left inside _⟩

/-- At a character of the text, the loop goes on or is left. -/
theorem passes_char (calls : Nat) (untouched : Untouched input pos t.mem) (above : pos ≤ k)
    (here : t.point = .loop which) (isStr : t.str = input.s + k) (isChar : input.text[k]? = some c) :
    Passes (Strtok.step (input.client calls)) (Confined input calls) t
      (t.answered which (decide (c ∈ input.delims))) := by
  rcases untouched.char_of_some above isChar with ⟨isByte, nonzero⟩
  have below := (List.getElem?_eq_some_iff.mp isChar).1
  have taken : Strtok.step (input.client calls) t = some { t with point := .strchr which c 0 } := by
    unfold Strtok.step
    rw [here]
    dsimp only
    rw [isStr, isByte, if_neg nonzero]
  have searches := passes_strchr (t := { t with point := .strchr which c 0 }) calls
    untouched.modifies nonzero rfl (List.drop_zero) (Nat.zero_le _)
  exact (Passes.single
    (confined_str untouched.modifies (Or.inl here) isStr (Nat.le_of_lt below)) taken).trans searches

/-- The loop goes on over its characters, and is left at the first other one or at the
end of the text. -/
theorem passes_loop (calls stop : Nat) (untouched : Untouched input pos t.mem)
    (above : pos ≤ k) (here : t.point = .loop which) (isStr : t.str = input.s + k)
    (goes : ∀ i, k ≤ i → i < stop → ∃ c ∈ input.text[i]?, which.Over input.delims c)
    (stops : ∀ c ∈ input.text[stop]?, ¬ which.Over input.delims c)
    (below : k ≤ stop) (inside : stop ≤ input.text.length) :
    Passes (Strtok.step (input.client calls)) (Confined input calls) t
      { t with point := .behind which, str := input.s + stop } := by
  induction left : stop - k generalizing t k with
  | zero =>
      have same : k = stop := by omega
      subst same
      rw [← isStr]
      cases isChar : input.text[k]? with
      | none =>
          have isEnd : t.mem t.str = 0 := by
            rw [isStr, untouched.char above inside, List.getD_eq_getElem?_getD, isChar]
            rfl
          have taken : Strtok.step (input.client calls) t = some { t with point := .behind which } := by
            unfold Strtok.step
            rw [here]
            exact if_pos isEnd
          exact Passes.single (confined_str untouched.modifies (Or.inl here) isStr inside) taken
      | some c =>
          have leaves : which.goesOn (decide (c ∈ input.delims)) ≠ true :=
            fun over' => stops c isChar (goesOn_iff.mp over')
          have passes := passes_char calls untouched above here isStr isChar
          rwa [Strtok.answered, if_neg leaves] at passes
  | succ n inductionHypothesis =>
      rcases goes k (Nat.le_refl k) (by omega) with ⟨c, isChar, isOver⟩
      have passes := passes_char calls untouched above here isStr isChar
      rw [Strtok.answered, if_pos (goesOn_iff.mpr isOver)] at passes
      have later := inductionHypothesis (k := k + 1)
        (t := { t with point := .loop which, str := t.str + 1 }) untouched (Nat.le_succ_of_le above)
        rfl (by rw [isStr]; rfl) (fun i above' => goes i (Nat.le_of_succ_le above')) (by omega)
        (by omega)
      exact passes.trans later

end Memory

/-! ### One call -/

/-- The client has called, and the next call starts at position `pos`. -/
structure Between (input : TokenInput) (pos : Nat) (t : Strtok) : Prop where
  point : t.point = .client
  saveptr : t.saveptr = input.s + pos
  inside : pos ≤ input.text.length
  untouched : Untouched input pos t.mem

/-- A call has returned the token from `first` to `stop`. -/
structure Took (input : TokenInput) (t t' : Strtok) (first stop : Nat) : Prop where
  results : t'.results = t.results ++ [input.s + first]
  between : Between input stop t' ∨ Between input (stop + 1) t'
  ended : t'.mem (input.s + stop) = 0
  zeros : ∀ addr, t.mem addr = 0 → t'.mem addr = 0

section Call

variable {input : TokenInput} {pos first stop : Nat} {t : Strtok}

theorem Untouched.terminate {mem : Memory} {c : UInt8} (untouched : Untouched input pos mem)
    (above : pos ≤ stop) (isChar : input.text[stop]? = some c) (isDelim : c ∈ input.delims) :
    Untouched input (stop + 1) (Function.update mem (input.s + stop) 0) := by
  constructor
  · intro addr
    by_cases here : addr = input.s + stop
    · rw [here, Function.update_self]
      exact Or.inr ⟨rfl, stop, rfl, c, isChar, isDelim⟩
    · rw [Function.update_of_ne here]
      exact untouched.modifies addr
  · intro k behind
    rw [Function.update_of_ne (by omega)]
    exact untouched.rest k (by omega)

theorem TokenInput.InToken.lt {k : Nat} (inToken : input.InToken k) : k < input.text.length := by
  rcases inToken with ⟨c, isChar, -⟩
  exact (List.getElem?_eq_some_iff.mp isChar).1

theorem not_inToken_iff {k : Nat} :
    ¬ input.InToken k ↔ ∀ c ∈ input.text[k]?, c ∈ input.delims := by
  constructor
  · intro absent c isChar
    by_contra other
    exact absent ⟨c, isChar, other⟩
  · rintro all ⟨c, isChar, other⟩
    exact other (all c isChar)

/-- Over a part of the text without a token the first loop goes on. -/
theorem delimiters_of_not_inToken {k limit : Nat} (inside : limit ≤ input.text.length)
    (absent : ∀ i, k ≤ i → i < limit → ¬ input.InToken i) :
    ∀ i, k ≤ i → i < limit →
      ∃ c ∈ input.text[i]?, TokenLoop.Over input.delims .delimiters c := by
  intro i above below
  have isChar : input.text[i]? = some input.text[i] := List.getElem?_eq_getElem (by omega)
  exact ⟨_, isChar, not_inToken_iff.mp (absent i above below) _ isChar⟩

/-- Behind a token its end is made a 0, if it is not the end of the text. -/
theorem passes_end (calls : Nat) (untouched : Untouched input pos t.mem) (above : pos ≤ stop)
    (here : t.point = .behind .token) (isStr : t.str = input.s + stop)
    (isStart : t.start = input.s + first) (inside : stop ≤ input.text.length)
    (ends : ∀ c ∈ input.text[stop]?, c ∈ input.delims) :
    ∃ t', Passes (Strtok.step (input.client calls)) (Confined input calls) t t' ∧
      Took input t t' first stop := by
  have confined : Confined input calls t :=
    confined_str untouched.modifies (Or.inr here) isStr inside
  cases isChar : input.text[stop]? with
  | none =>
      have isEnd : t.mem t.str = 0 := by
        rw [isStr, untouched.char above inside, List.getD_eq_getElem?_getD, isChar]
        rfl
      have taken : Strtok.step (input.client calls) t =
          some { t.returned t.start with saveptr := t.str } := by
        unfold Strtok.step
        rw [here]
        exact if_pos isEnd
      refine ⟨_, Passes.single confined taken, ?_, Or.inl ⟨rfl, isStr, inside, ?_⟩, ?_, ?_⟩
      · rw [← isStart]
        rfl
      · exact ⟨untouched.modifies, fun k behind => untouched.rest k (Nat.le_trans above behind)⟩
      · rw [← isStr]
        exact isEnd
      · exact fun addr zero => zero
  | some c =>
      rcases untouched.char_of_some above isChar with ⟨isByte, nonzero⟩
      have taken : Strtok.step (input.client calls) t =
          some { t.returned t.start with
            mem := Function.update t.mem t.str 0
            saveptr := t.str + 1 } := by
        unfold Strtok.step
        rw [here]
        dsimp only
        rw [if_neg (by rw [isStr, isByte]; exact nonzero)]
      have below := (List.getElem?_eq_some_iff.mp isChar).1
      refine ⟨_, Passes.single confined taken, ?_, Or.inr ⟨rfl, ?_, below, ?_⟩, ?_, ?_⟩
      · rw [← isStart]
        rfl
      · exact congrArg (· + 1) isStr
      · rw [isStr]
        exact untouched.terminate above isChar (ends c isChar)
      · rw [isStr]
        exact Function.update_self _ _ _
      · intro addr zero
        change Function.update t.mem t.str 0 addr = 0
        rw [Function.update_apply]
        split
        · rfl
        · exact zero

/-- A call returns the first token from its position on. -/
theorem passes_token (calls : Nat) (untouched : Untouched input pos t.mem)
    (here : t.point = .loop .delimiters) (isStr : t.str = input.s + pos) (fromStart : pos ≤ first)
    (between : ∀ k, pos ≤ k → k < first → ¬ input.InToken k)
    (isRun : MaximalRun input.InToken first stop) :
    ∃ t', Passes (Strtok.step (input.client calls)) (Confined input calls) t t' ∧
      Took input t t' first stop := by
  have isFirst := isRun.inside first (Nat.le_refl first) isRun.nonempty
  have stopInside : stop ≤ input.text.length := by
    have last := (isRun.inside (stop - 1) (by have := isRun.nonempty; omega)
      (by have := isRun.nonempty; omega)).lt
    omega
  rcases isFirst with ⟨c, isChar, notDelim⟩
  have firstInside := (List.getElem?_eq_some_iff.mp isChar).1
  rcases untouched.char_of_some fromStart isChar with ⟨isByte, nonzero⟩
  have skips := passes_loop calls first untouched (Nat.le_refl pos) here isStr
    (delimiters_of_not_inToken (Nat.le_of_lt firstInside) between)
    (by
      intro other isOther
      rw [Option.mem_unique isOther isChar]
      exact notDelim) fromStart (Nat.le_of_lt firstInside)
  have starts : Strtok.step (input.client calls)
      { t with point := .behind .delimiters, str := input.s + first } =
        some { t with point := .loop .token, str := input.s + first, start := input.s + first } := by
    unfold Strtok.step
    dsimp only
    rw [isByte, if_neg nonzero]
  have goesOver := passes_loop (t := { t with
      point := .loop .token, str := input.s + first, start := input.s + first })
    calls stop untouched fromStart rfl rfl isRun.inside
    (fun other isOther notDelim => isRun.behind ⟨other, isOther, notDelim⟩)
    (Nat.le_of_lt isRun.nonempty) stopInside
  rcases passes_end (t := { t with
      point := .behind .token, str := input.s + stop, start := input.s + first })
    calls untouched (Nat.le_trans fromStart (Nat.le_of_lt isRun.nonempty)) rfl rfl rfl stopInside
    (not_inToken_iff.mp isRun.behind) with ⟨t', ends, took⟩
  have starting : Passes _ (Confined input calls)
      { t with point := .behind .delimiters, str := input.s + first } _ :=
    Passes.single (confined_str untouched.modifies (Or.inr rfl) rfl (Nat.le_of_lt firstInside)) starts
  exact ⟨t', ((skips.trans starting).trans goesOver).trans ends,
    took.results, took.between, took.ended, took.zeros⟩

/-- Without a token from its position on, a call returns NULL and keeps the position. -/
theorem passes_null (calls : Nat) (untouched : Untouched input pos t.mem)
    (here : t.point = .loop .delimiters) (isStr : t.str = input.s + pos)
    (inside : pos ≤ input.text.length) (noMore : ∀ k, pos ≤ k → ¬ input.InToken k) :
    Passes (Strtok.step (input.client calls)) (Confined input calls) t
      { t.returned 0 with str := input.s + input.text.length } := by
  have skips := passes_loop calls input.text.length untouched (Nat.le_refl pos) here isStr
    (delimiters_of_not_inToken (Nat.le_refl _) fun i above _ => noMore i above)
    (by
      intro c isChar
      rw [List.getElem?_eq_none (Nat.le_refl _)] at isChar
      cases isChar) inside (Nat.le_refl _)
  have isEnd : t.mem (input.s + input.text.length) = 0 := by
    rw [untouched.char inside (Nat.le_refl _), List.getD_eq_default _ _ (Nat.le_refl _)]
  have taken : Strtok.step (input.client calls)
      { t with point := .behind .delimiters, str := input.s + input.text.length } =
        some { t.returned 0 with str := input.s + input.text.length } := by
    unfold Strtok.step
    exact if_pos isEnd
  exact skips.trans (Passes.single
    (confined_str untouched.modifies (Or.inr rfl) rfl (Nat.le_refl _)) taken)

end Call

/-! ### The calls of a client -/

section Calls

variable {input : TokenInput} {calls pos : Nat} {t : Strtok} {tokens : List (Nat × Nat)}

theorem confined_entering (modifies : input.Modifies t.mem)
    (here : t.point = .client ∨ t.point = .entry) : Confined input calls t := by
  refine ⟨?_, modifies⟩
  intro addr isRead
  unfold Strtok.reads at isRead
  rcases here with here | here
  · rw [here] at isRead
    cases isRead
  · rw [here] at isRead
    cases isRead

/-- A call with a string, or with NULL and a saved position, starts there. -/
theorem passes_entry (modifies : input.Modifies t.mem) (here : t.point = .client)
    (more : t.results.length < calls)
    (start : t.results = [] ∧ pos = 0 ∨ t.results ≠ [] ∧ t.saveptr = input.s + pos) :
    Passes (Strtok.step (input.client calls)) (Confined input calls) t
      { t with point := .loop .delimiters, str := input.s + pos } := by
  have notNull := input.notNull
  have enters : Strtok.step (input.client calls) t =
      some { t with point := .entry, str := if t.results = [] then input.s else 0 } := by
    unfold Strtok.step
    rw [here]
    exact if_pos more
  have starts : Strtok.step (input.client calls)
      { t with point := .entry, str := if t.results = [] then input.s else 0 } =
        some { t with point := .loop .delimiters, str := input.s + pos } := by
    unfold Strtok.step
    dsimp only
    rcases start with ⟨isFirst, rfl⟩ | ⟨isLater, saved⟩
    · rw [if_pos isFirst, if_neg notNull, if_neg notNull]
      rfl
    · rw [if_neg isLater, if_pos rfl, saved, if_neg (by omega)]
  exact (Passes.single (confined_entering modifies (Or.inl here)) enters).trans
    (Passes.single (confined_entering modifies (Or.inr rfl)) starts)

/-- What `left` calls do: they return the starts of the tokens and then NULL, and each
token that was returned ends with a 0. -/
structure Answers (input : TokenInput) (t last : Strtok) (tokens : List (Nat × Nat)) (left : Nat) :
    Prop where
  point : last.point = .client
  results : last.results = t.results ++ (tokens.map fun token => input.s + token.1).takeD left 0
  modifies : input.Modifies last.mem
  ended : ∀ token ∈ tokens.take left, last.mem (input.s + token.2) = 0
  zeros : ∀ addr, t.mem addr = 0 → last.mem addr = 0

/-- Where the token of a call ends, the next calls go on. -/
theorem Took.runs {t' : Strtok} {first stop : Nat} (took : Took input t t' first stop)
    (isRun : MaximalRun input.InToken first stop) (rest : RunsFrom input.InToken stop tokens) :
    ∃ next, Between input next t' ∧ RunsFrom input.InToken next tokens := by
  rcases took.between with between | between
  · exact ⟨stop, between, rest⟩
  · exact ⟨stop + 1, between, rest.skip isRun.behind⟩

/-- A token in front of the answers to the calls behind it. -/
theorem Took.answers {t' last : Strtok} {first stop left : Nat} (took : Took input t t' first stop)
    (answers : Answers input t' last tokens left) :
    Answers input t last ((first, stop) :: tokens) (left + 1) := by
  refine ⟨answers.point, ?_, answers.modifies, ?_,
    fun addr zero => answers.zeros addr (took.zeros addr zero)⟩
  · rw [answers.results, took.results, List.append_assoc]
    rfl
  · intro token member
    rw [List.take_succ_cons] at member
    rcases List.mem_cons.mp member with rfl | later
    · exact answers.zeros _ took.ended
    · exact answers.ended token later

/-- A call for the first token, and the answers to the calls behind it. -/
theorem answers_token {first stop left : Nat} (untouched : Untouched input pos t.mem)
    (here : t.point = .client)
    (start : t.results = [] ∧ pos = 0 ∨ t.results ≠ [] ∧ t.saveptr = input.s + pos)
    (isLeft : t.results.length + (left + 1) = calls) (fromStart : pos ≤ first)
    (absent : ∀ k, pos ≤ k → k < first → ¬ input.InToken k)
    (isRun : MaximalRun input.InToken first stop) (rest : RunsFrom input.InToken stop tokens)
    (later : ∀ next t', Between input next t' → t'.results ≠ [] →
      RunsFrom input.InToken next tokens → t'.results.length + left = calls →
      ∃ last, Passes (Strtok.step (input.client calls)) (Confined input calls) t' last ∧
        Answers input t' last tokens left) :
    ∃ last, Passes (Strtok.step (input.client calls)) (Confined input calls) t last ∧
      Answers input t last ((first, stop) :: tokens) (left + 1) := by
  have more : t.results.length < calls := by omega
  have enters := passes_entry untouched.modifies here more start
  rcases passes_token (t := { t with point := .loop .delimiters, str := input.s + pos }) calls
    untouched rfl rfl fromStart absent isRun with ⟨t', takes, took⟩
  have tookHere : Took input t t' first stop :=
    ⟨took.results, took.between, took.ended, took.zeros⟩
  rcases took.runs isRun rest with ⟨next, between, runs⟩
  have called : t'.results ≠ [] := by
    rw [tookHere.results]
    exact List.append_ne_nil_of_right_ne_nil _ (List.cons_ne_nil _ _)
  have isLeft' : t'.results.length + left = calls := by
    rw [tookHere.results, List.length_append, List.length_singleton]
    omega
  rcases later next t' between called runs isLeft' with ⟨last, answered, answers⟩
  exact ⟨last, (enters.trans takes).trans answered, tookHere.answers answers⟩

/-- The answers to the calls that come behind the first one. -/
theorem answers_from (between : Between input pos t) (called : t.results ≠ [])
    (runs : RunsFrom input.InToken pos tokens) (left : Nat)
    (isLeft : t.results.length + left = calls) :
    ∃ last, Passes (Strtok.step (input.client calls)) (Confined input calls) t last ∧
      Answers input t last tokens left := by
  induction left generalizing t pos tokens with
  | zero =>
      refine ⟨t, Passes.refl t, between.point, (List.append_nil _).symm, between.untouched.modifies,
        ?_, fun addr zero => zero⟩
      intro token member
      cases member
  | succ left inductionHypothesis =>
      have more : t.results.length < calls := by omega
      have enters := passes_entry between.untouched.modifies between.point more
        (Or.inr ⟨called, between.saveptr⟩)
      cases runs with
      | none noMore =>
          have fails := passes_null
            (t := { t with point := .loop .delimiters, str := input.s + pos }) calls
            between.untouched rfl rfl between.inside noMore
          have between' : Between input pos
              { t.returned 0 with str := input.s + input.text.length } :=
            ⟨rfl, between.saveptr, between.inside, between.untouched⟩
          have called' : t.results ++ [0] ≠ [] :=
            List.append_ne_nil_of_right_ne_nil _ (List.cons_ne_nil _ _)
          have isLeft' : (t.results ++ [0]).length + left = calls := by
            rw [List.length_append, List.length_singleton]
            omega
          rcases inductionHypothesis between' called' (.none noMore) isLeft' with
            ⟨last, rest, answers⟩
          refine ⟨last, (enters.trans fails).trans rest, answers.point, ?_, answers.modifies, ?_,
            answers.zeros⟩
          · rw [answers.results]
            exact List.append_assoc _ _ _
          · intro token member
            cases member
      | run fromStart absent isRun rest =>
          exact answers_token between.untouched between.point (Or.inr ⟨called, between.saveptr⟩)
            isLeft fromStart absent isRun rest fun next t' between called runs isLeft =>
              inductionHypothesis between called runs isLeft

/-- The token in memory, when memory has a 0 where it ends. -/
theorem TokenInput.Modifies.token {mem : Memory} {first stop : Nat} (modifies : input.Modifies mem)
    (isRun : MaximalRun input.InToken first stop) (ended : mem (input.s + stop) = 0) :
    IsString mem (input.s + first) (input.text.extract first stop) := by
  have firstInside := (isRun.inside first (Nat.le_refl first) isRun.nonempty).lt
  have nonempty := isRun.nonempty
  have lastInside := (isRun.inside (stop - 1) (by omega) (by omega)).lt
  apply (input.string.drop (Nat.le_of_lt firstInside)).take
  · rw [List.length_drop]
    omega
  · intro i below
    rcases modifies (input.s + first + i) with same | ⟨-, k, isPlace, c, isChar, isDelim⟩
    · exact same
    · rcases isRun.inside (first + i) (by omega) (by omega) with ⟨other, isOther, notDelim⟩
      rw [show k = first + i by omega] at isChar
      rw [Option.mem_unique isOther isChar] at notDelim
      exact absurd isDelim notDelim
  · rwa [Nat.add_assoc, Nat.add_sub_cancel' (Nat.le_of_lt nonempty)]

/-- The calls of a client stay within the strings, return the tokens and then NULL, and
leave each token that was returned as a string of its own. -/
structure Tokenizes (input : TokenInput) (saveptr : Nat) (tokens : List (Nat × Nat)) (calls : Nat) :
    Prop where
  confined : ∀ t, Reaches (Strtok.step (input.client calls)) (Strtok.first input.mem saveptr) t →
    Confined input calls t
  returns : ∃ last ∈ eval (Strtok.step (input.client calls)) (Strtok.first input.mem saveptr),
    last.results = (tokens.map fun token => input.s + token.1).takeD calls 0 ∧
      ∀ token ∈ tokens.take calls,
        IsString last.mem (input.s + token.1) (input.text.extract token.1 token.2)

theorem runsFrom_tokens (input : TokenInput) : ∃ tokens, RunsFrom input.InToken 0 tokens :=
  exists_runsFrom (fun _ beyond inToken => absurd inToken.lt (Nat.not_lt.mpr beyond))
    fun _ => Or.inl rfl

/-- The answers to the calls of a client, the first of which is given the string. -/
theorem answers_first (saveptr : Nat) (runs : RunsFrom input.InToken 0 tokens)
    (someToken : tokens ≠ []) (calls : Nat) :
    ∃ last, Passes (Strtok.step (input.client calls)) (Confined input calls)
        (Strtok.first input.mem saveptr) last ∧
      Answers input (Strtok.first input.mem saveptr) last tokens calls := by
  have modifies : input.Modifies input.mem := fun addr => Or.inl rfl
  cases calls with
  | zero =>
      refine ⟨_, Passes.refl _, rfl, rfl, modifies, ?_, fun addr zero => zero⟩
      intro token member
      cases member
  | succ left =>
      cases runs with
      | none => exact absurd rfl someToken
      | run fromStart absent isRun rest =>
          exact answers_token ⟨modifies, fun k above => rfl⟩ rfl (Or.inl ⟨rfl, rfl⟩)
            (Nat.zero_add _) fromStart absent isRun rest fun next t' between called runs isLeft =>
              answers_from between called runs left isLeft

/-- The calls of `strtok_r` with a string, and with NULL behind it, return the starts of
the maximal runs of characters that are no delimiters, in order, and then NULL. -/
theorem strtok_r_tokens (input : TokenInput) (someChar : ∃ c ∈ input.text, c ∉ input.delims) :
    ∃ tokens : List (Nat × Nat),
      (∀ first stop, (first, stop) ∈ tokens ↔ MaximalRun input.InToken first stop) ∧
        (tokens.Pairwise fun token later => token.2 < later.1) ∧
        ∀ saveptr calls, Tokenizes input saveptr tokens calls := by
  rcases runsFrom_tokens input with ⟨tokens, runs⟩
  have someToken : tokens ≠ [] := by
    rintro rfl
    cases runs with
    | none noMore =>
        rcases someChar with ⟨c, member, notDelim⟩
        rcases List.mem_iff_getElem?.mp member with ⟨k, isChar⟩
        exact noMore k (Nat.zero_le k) ⟨c, isChar, notDelim⟩
  have maximal : ∀ first stop, (first, stop) ∈ tokens ↔ MaximalRun input.InToken first stop :=
    fun first stop => runs.mem_iff.trans (and_iff_left (Nat.zero_le first))
  refine ⟨tokens, maximal, runs.pairwise, ?_⟩
  intro saveptr calls
  rcases answers_first saveptr runs someToken calls with ⟨last, passes, answers⟩
  have results := answers.results
  rw [show (Strtok.first input.mem saveptr).results = [] from rfl, List.nil_append] at results
  have stops : Strtok.step (input.client calls) last = none := by
    have enough : ¬ last.results.length < calls := by
      rw [results, List.takeD_length]
      exact Nat.lt_irrefl calls
    unfold Strtok.step
    rw [answers.point]
    exact if_neg enough
  refine ⟨passes.always (Always.stop (confined_entering answers.modifies (Or.inl answers.point))
    stops), last, mem_eval.mpr ⟨passes.reaches, stops⟩, results, ?_⟩
  intro token member
  exact answers.modifies.token ((maximal token.1 token.2).mp (List.mem_of_mem_take member))
    (answers.ended token member)

end Calls

/-- The string `,a,,b,` at address 1 and the delimiter `,` at address 8. -/
def commaInput : TokenInput where
  mem := textMemory (0 :: [44, 97, 44, 44, 98, 44] ++ 0 :: [44])
  s := 1
  delim := 8
  text := [44, 97, 44, 44, 98, 44]
  delims := [44]
  string := by decide
  delimString := by decide
  apart := by decide
  notNull := by decide

theorem strtok_r_tokens_commas :
    ∃ tokens : List (Nat × Nat),
      (∀ first stop, (first, stop) ∈ tokens ↔ MaximalRun commaInput.InToken first stop) ∧
        Tokenizes commaInput 0 tokens 3 := by
  rcases strtok_r_tokens commaInput ⟨97, by decide, by decide⟩ with ⟨tokens, maximal, -, calls⟩
  exact ⟨tokens, maximal, calls 0 3⟩

end UniKernel.CString
