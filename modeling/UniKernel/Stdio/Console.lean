import UniKernel.Lib.Refinement
import UniKernel.Stdio.Output

/-!
Owns the console as shared by threads and handlers: each calls `printf` again and
again once `mmu_enabled` is set, and the steps of the calls interleave. `print_lock`
makes each call one piece: the UART receives the texts that the calls send when
they are alone, one whole text after the other, in the order of their unlocks.
-/

namespace UniKernel.Stdio

open UniKernel.Lib
open StateTransition (Reaches eval)

universe u

/-- A call of `printf`; `state` has what is local to it. -/
structure Running where
  call : Call
  fmt : Nat
  state : Printf

/-- `print_lock`, what the UART was sent, and the call each core is in. -/
structure Console (ι : Type u) where
  printLock : Nat
  sent : Uart
  calls : ι → Option Running

inductive ConsoleEvent (ι : Type u) where
  | begin (core : ι) (call : Call) (fmt : Nat)
  | step (core : ι)
  | release (core : ι) (call : Call) (fmt : Nat)
  | finish (core : ι)

/-- The call whose unlock this is. -/
def ConsoleEvent.released {ι : Type u} : ConsoleEvent ι → Option (Call × Nat)
  | .release _ call fmt => some (call, fmt)
  | .begin _ _ _ | .step _ | .finish _ => none

namespace Console

variable {ι : Type u} [DecidableEq ι]

/-- A call with the lock and the UART as they are now. -/
def view (console : Console ι) (state : Printf) : Printf :=
  { state with printLock := console.printLock, sent := console.sent }

/-- The console behind a step of a call. -/
def after (console : Console ι) (core : ι) (running : Running) (next : Printf) : Console ι where
  printLock := next.printLock
  sent := next.sent
  calls := Function.update console.calls core (some { running with state := next })

inductive Step : Console ι → ConsoleEvent ι → Console ι → Prop where
  | begin {console : Console ι} {core : ι} {call : Call} {fmt : Nat}
      (idle : console.calls core = none) (mmuEnabled : call.mmuEnabled = true) :
      Step console (.begin core call fmt)
        { console with
          calls := Function.update console.calls core (some ⟨call, fmt, Printf.start fmt⟩) }
  | step {console : Console ι} {core : ι} {running : Running} {next : Printf}
      (isRunning : console.calls core = some running) (notUnlock : running.state.point ≠ .unlock)
      (taken : Printf.step running.call (console.view running.state) = some next) :
      Step console (.step core) (console.after core running next)
  | release {console : Console ι} {core : ι} {running : Running} {next : Printf}
      (isRunning : console.calls core = some running) (atUnlock : running.state.point = .unlock)
      (taken : Printf.step running.call (console.view running.state) = some next) :
      Step console (.release core running.call running.fmt) (console.after core running next)
  | finish {console : Console ι} {core : ι} {running : Running}
      (isRunning : console.calls core = some running)
      (returned : running.state.point = .returned) :
      Step console (.finish core)
        { console with calls := Function.update console.calls core none }

end Console

/-! ### A call alone -/

/-- The same call, behind other output. -/
def Printf.behind (base : Uart) (s : Printf) : Printf := { s with sent := base ++ s.sent }

variable {call : Call} {s next : Printf} {base : Uart}

theorem putchar_behind (c : UInt8) (base sent : Uart) :
    (putchar c (base ++ sent)).2 = base ++ (putchar c sent).2 := by
  rw [putchar_sent, putchar_sent, List.append_assoc]

theorem convert_behind (conversion : Conversion) (arg : Nat) (base sent : Uart) :
    convert conversion arg (base ++ sent) =
      ((convert conversion arg sent).1, base ++ (convert conversion arg sent).2) := by
  rw [convert_eq, convert_eq, List.append_assoc]

theorem converted_behind (conversion : Conversion) (length : Nat) :
    (s.behind base).converted call conversion length =
      (s.converted call conversion length).behind base := by
  unfold Printf.converted Printf.behind
  dsimp only
  rw [convert_behind]

theorem iteration_behind : (s.behind base).iteration call = (s.iteration call).behind base := by
  have same : (s.behind base).p = s.p ∧ (s.behind base).ap = s.ap := ⟨rfl, rfl⟩
  unfold Printf.iteration
  rw [same.1, same.2]
  split
  · rfl
  · split
    · split
      · split
        · exact converted_behind _ 3
        · rfl
      · split
        · exact converted_behind _ 2
        · rfl
        · rfl
    · unfold Printf.behind
      dsimp only
      rw [putchar_behind]

/-- What was sent before does not matter to a call that has the lock. -/
theorem step_behind (notLock : s.point ≠ .lock) :
    Printf.step call (s.behind base) = (Printf.step call s).map (Printf.behind base) := by
  have same : (s.behind base).point = s.point := rfl
  unfold Printf.step
  rw [same]
  cases here : s.point with
  | lock => exact absurd here notLock
  | format =>
      dsimp only
      rw [iteration_behind]
      rfl
  | puts str count =>
      dsimp only
      split
      · rfl
      · unfold Printf.behind
        dsimp only
        rw [putchar_behind]
        rfl
  | unlock => rfl
  | returned => rfl

/-- The same call with the lock, behind no output but its own. -/
def Printf.holding (text : Uart) (s : Printf) : Printf := { s with printLock := 1, sent := text }

/-- Between taking the lock and giving it back. -/
def Point.inside : Point → Bool
  | .format | .puts _ _ | .unlock => true
  | .lock | .returned => false

/-- Inside, a call keeps the lock and stays inside until its unlock. -/
theorem step_inside (inside : s.point.inside = true) (notUnlock : s.point ≠ .unlock)
    (taken : Printf.step call s = some next) :
    next.point.inside = true ∧ next.printLock = s.printLock := by
  unfold Printf.step at taken
  cases here : s.point with
  | lock =>
      rw [here] at inside
      cases inside
  | format =>
      rw [here] at taken
      dsimp only at taken
      cases taken
      unfold Printf.iteration
      repeat' split
      all_goals exact ⟨by simp [Printf.converted, here, Point.inside], rfl⟩
  | puts str count =>
      rw [here] at taken
      dsimp only at taken
      split at taken <;> cases taken <;> exact ⟨rfl, rfl⟩
  | unlock => exact absurd here notUnlock
  | returned =>
      rw [here] at inside
      cases inside

/-! ### Whose turn it is -/

/-- `text` is all that the call sends when it is alone. -/
def Sends (message : Call × Nat) (text : Uart) : Prop :=
  ∃ last ∈ eval (Printf.step message.1) (Printf.start message.2), last.sent = text

/-- A call that waits for the lock has done nothing yet. -/
structure Running.Fresh (running : Running) : Prop where
  mmuEnabled : running.call.mmuEnabled = true
  waiting : running.state.point = .lock →
    { running.state with printLock := 0, sent := [] } = Printf.start running.fmt

/-- A call inside has sent `text`, as it does alone. -/
structure Running.Has (running : Running) (text : Uart) : Prop where
  inside : running.state.point.inside = true
  alone : Reaches (Printf.step running.call) (Printf.start running.fmt)
    (running.state.holding text)

namespace Console

variable {ι : Type u} [DecidableEq ι] {console console' : Console ι} {core : ι}
  {running : Running}

/-- No core but those in `except` is inside. -/
def Outside (console : Console ι) (except : ι → Prop) : Prop :=
  ∀ core running, console.calls core = some running → ¬ except core →
    running.state.point.inside = false

/-- The lock is free behind `before`, or a core has it and has sent `text` since. -/
inductive Turn (console : Console ι) (before : Uart) : Prop where
  | free (lock : console.printLock = 0) (outside : console.Outside fun _ => False)
      (sent : console.sent = before)
  | held (core : ι) (running : Running) (text : Uart) (lock : console.printLock = 1)
      (isRunning : console.calls core = some running) (has : running.Has text)
      (outside : console.Outside (· = core)) (sent : console.sent = before ++ text)

/-- The texts of the calls that gave the lock back, then what the turn has sent. -/
structure Serial (base : Uart) (console : Console ι) (messages : List (Call × Nat)) : Prop where
  fresh : ∀ core running, console.calls core = some running → running.Fresh
  turn : ∃ texts, List.Forall₂ Sends messages texts ∧ Turn console (base ++ texts.flatten)

variable {base : Uart} {messages : List (Call × Nat)}

theorem calls_update {other : ι} {found : Running} {value : Option Running}
    (isRunning : Function.update console.calls core value other = some found) :
    (other = core ∧ value = some found) ∨ (other ≠ core ∧ console.calls other = some found) := by
  by_cases same : other = core
  · rw [same, Function.update_self] at isRunning
    exact Or.inl ⟨same, isRunning⟩
  · rw [Function.update_of_ne same] at isRunning
    exact Or.inr ⟨same, isRunning⟩

/-- Cores that are not inside may change their calls to others that are not. -/
theorem Turn.update {before : Uart} (turn : Turn console before) {value : Option Running}
    (wasOutside : ∀ running, console.calls core = some running →
      running.state.point.inside = false)
    (isOutside : ∀ running, value = some running → running.state.point.inside = false) :
    Turn { console with calls := Function.update console.calls core value } before := by
  have stays : ∀ except, console.Outside except →
      Outside { console with calls := Function.update console.calls core value } except := by
    intro except outside other found isRunning notExcept
    obtain ⟨-, isNew⟩ | ⟨-, isOld⟩ := calls_update isRunning
    · exact isOutside found isNew
    · exact outside other found isOld notExcept
  cases turn with
  | free lock outside sent => exact .free lock (stays _ outside) sent
  | held holder running text lock isRunning has outside sent =>
      have other : holder ≠ core := by
        rintro rfl
        have contradiction := wasOutside running isRunning
        rw [has.inside] at contradiction
        cases contradiction
      refine .held holder running text lock ?_ has (stays _ outside) sent
      exact (Function.update_of_ne other _ _).trans isRunning

/-- A core that is inside has the lock. -/
theorem Turn.holder {before : Uart} (turn : Turn console before)
    (isRunning : console.calls core = some running) (inside : running.state.point.inside = true) :
    ∃ text, console.printLock = 1 ∧ running.Has text ∧ console.Outside (· = core) ∧
      console.sent = before ++ text := by
  cases turn with
  | free lock outside sent =>
      have contradiction := outside core running isRunning not_false
      rw [inside] at contradiction
      cases contradiction
  | held holder found text lock isFound has outside sent =>
      have same : core = holder := by
        by_contra other
        have contradiction := outside core running isRunning other
        rw [inside] at contradiction
        cases contradiction
      subst same
      rw [isRunning] at isFound
      cases isFound
      exact ⟨text, lock, has, outside, sent⟩

/-- A call that runs elsewhere is what it was. -/
theorem fresh_after (fresh : ∀ core running, console.calls core = some running → running.Fresh)
    {next : Printf} (isFresh : ({ running with state := next } : Running).Fresh) :
    ∀ other found, (console.after core running next).calls other = some found → found.Fresh := by
  intro other found isFound
  obtain ⟨-, isNew⟩ | ⟨-, isOld⟩ := calls_update isFound
  · cases isNew
    exact isFresh
  · exact fresh other found isOld

theorem outside_after {next : Printf} (outside : console.Outside (· = core)) :
    (console.after core running next).Outside (· = core) := by
  intro other found isFound notCore
  obtain ⟨isCore, -⟩ | ⟨-, isOld⟩ := calls_update isFound
  · exact absurd isCore notCore
  · exact outside other found isOld notCore

/-- A core at its lock takes it if it is free, and tries again if not. -/
theorem Serial.tryLock (serial : Serial base console messages)
    (isRunning : console.calls core = some running) (atLock : running.state.point = .lock)
    {next : Printf} (taken : Printf.step running.call (console.view running.state) = some next) :
    Serial base (console.after core running next) messages := by
  have fresh := serial.fresh core running isRunning
  obtain ⟨texts, complete, turn⟩ := serial.turn
  have notInside : ∀ found, console.calls core = some found → found.state.point.inside = false := by
    intro found isFound
    rw [isRunning] at isFound
    cases isFound
    rw [atLock]
    rfl
  have atPoint : (console.view running.state).point = .lock := atLock
  unfold Printf.step at taken
  rw [atPoint, fresh.mmuEnabled] at taken
  dsimp only at taken
  rw [if_pos rfl] at taken
  by_cases lock : console.printLock = 0
  · rw [if_pos (show (console.view running.state).printLock = 0 from lock)] at taken
    cases taken
    cases turn with
    | held _ _ _ isLocked =>
        rw [lock] at isLocked
        cases isLocked
    | free _ outside sent =>
        refine ⟨fresh_after serial.fresh ⟨fresh.mmuEnabled, fun atLock => (nomatch atLock)⟩, texts,
          complete, ?_⟩
        refine .held core _ [] rfl (Function.update_self _ _ _) ⟨rfl, ?_⟩
          (outside_after fun other found isFound _ => outside other found isFound not_false) ?_
        · have start := fresh.waiting atLock
          have entered : Printf.step running.call (Printf.start running.fmt) =
              some ({ running.state with point := .format }.holding []) := by
            rw [← start]
            unfold Printf.step
            dsimp only
            rw [atLock, fresh.mmuEnabled]
            rfl
          exact Relation.ReflTransGen.single entered
        · exact sent.trans (List.append_nil _).symm
  · rw [if_neg (show ¬ (console.view running.state).printLock = 0 from lock)] at taken
    cases taken
    have stays : ({ running with state := console.view running.state } : Running).Fresh :=
      ⟨fresh.mmuEnabled, fresh.waiting⟩
    refine ⟨fresh_after serial.fresh stays, texts, complete, turn.update notInside ?_⟩
    rintro found ⟨⟩
    exact (congrArg Point.inside atPoint).trans rfl

/-- What a step of the call inside is for the call alone. -/
theorem Serial.alone (serial : Serial base console messages)
    (isRunning : console.calls core = some running) (inside : running.state.point.inside = true)
    {next : Printf} (taken : Printf.step running.call (console.view running.state) = some next) :
    ∃ texts text t, List.Forall₂ Sends messages texts ∧ running.Has text ∧
      console.Outside (· = core) ∧
      Printf.step running.call (running.state.holding text) = some t ∧
      next = t.behind (base ++ texts.flatten) := by
  obtain ⟨texts, complete, turn⟩ := serial.turn
  obtain ⟨text, lock, has, outside, sent⟩ := turn.holder isRunning inside
  have notLock : running.state.point ≠ .lock := by
    intro atLock
    rw [atLock] at inside
    cases inside
  have view : console.view running.state =
      (running.state.holding text).behind (base ++ texts.flatten) := by
    unfold Console.view Printf.behind Printf.holding
    rw [lock, sent]
  have notLock : (running.state.holding text).point ≠ .lock := notLock
  rw [view, step_behind notLock] at taken
  obtain ⟨t, isStep, isNext⟩ := Option.map_eq_some_iff.mp taken
  exact ⟨texts, text, t, complete, has, outside, isStep, isNext.symm⟩

theorem Serial.work (serial : Serial base console messages)
    (isRunning : console.calls core = some running) (inside : running.state.point.inside = true)
    (notUnlock : running.state.point ≠ .unlock) {next : Printf}
    (taken : Printf.step running.call (console.view running.state) = some next) :
    Serial base (console.after core running next) messages := by
  have fresh := serial.fresh core running isRunning
  obtain ⟨texts, text, t, complete, has, outside, isStep, rfl⟩ :=
    serial.alone isRunning inside taken
  obtain ⟨staysInside, keepsLock⟩ :=
    step_inside (s := running.state.holding text) inside notUnlock isStep
  have notLock : t.point ≠ .lock := by
    intro atLock
    rw [atLock] at staysInside
    cases staysInside
  refine ⟨fresh_after serial.fresh ⟨fresh.mmuEnabled, fun atLock => absurd atLock notLock⟩, texts,
    complete, ?_⟩
  refine .held core _ t.sent keepsLock (Function.update_self _ _ _) ⟨staysInside, ?_⟩
    (outside_after outside) rfl
  have isT : (t.behind (base ++ texts.flatten)).holding t.sent = t := by
    have isLocked : t.printLock = 1 := keepsLock
    unfold Printf.behind Printf.holding
    rw [← isLocked]
  exact isT.symm ▸ has.alone.tail isStep

theorem Serial.release (serial : Serial base console messages)
    (isRunning : console.calls core = some running) (atUnlock : running.state.point = .unlock)
    {next : Printf} (taken : Printf.step running.call (console.view running.state) = some next) :
    Serial base (console.after core running next)
      (messages ++ [(running.call, running.fmt)]) := by
  have fresh := serial.fresh core running isRunning
  have inside : running.state.point.inside = true := by
    rw [atUnlock]
    rfl
  obtain ⟨texts, text, t, complete, has, outside, isStep, rfl⟩ :=
    serial.alone isRunning inside taken
  have isT : t = { running.state with point := .returned, printLock := 0, sent := text } := by
    have atPoint : (running.state.holding text).point = .unlock := atUnlock
    unfold Printf.step at isStep
    rw [atPoint, fresh.mmuEnabled] at isStep
    cases isStep
    rfl
  have isOver : Printf.step running.call t = none := by
    rw [isT]
    rfl
  have sends : Sends (running.call, running.fmt) text :=
    ⟨t, StateTransition.mem_eval.mpr ⟨has.alone.tail isStep, isOver⟩, by rw [isT]⟩
  refine ⟨fresh_after serial.fresh ⟨fresh.mmuEnabled, ?_⟩, texts ++ [text],
    List.rel_append complete (.cons sends .nil), .free ?_ ?_ ?_⟩
  · intro atLock
    rw [isT] at atLock
    cases atLock
  · rw [isT]
    rfl
  · intro other found isFound _
    obtain ⟨-, isNew⟩ | ⟨notCore, isOld⟩ := calls_update isFound
    · cases isNew
      rw [isT]
      rfl
    · exact outside other found isOld notCore
  · rw [isT, List.flatten_append, List.flatten_singleton, ← List.append_assoc]
    rfl

theorem Serial.step (serial : Serial base console messages) {label : ConsoleEvent ι}
    (taken : Step console label console') :
    Serial base console' (messages ++ label.released.toList) := by
  cases taken with
  | @begin core call fmt idle mmuEnabled =>
      obtain ⟨texts, complete, turn⟩ := serial.turn
      rw [ConsoleEvent.released, Option.toList_none, List.append_nil]
      refine ⟨?_, texts, complete, turn.update ?_ ?_⟩
      · intro other found isFound
        obtain ⟨-, isNew⟩ | ⟨-, isOld⟩ := calls_update isFound
        · cases isNew
          exact ⟨mmuEnabled, fun _ => rfl⟩
        · exact serial.fresh other found isOld
      · intro running isRunning
        rw [idle] at isRunning
        cases isRunning
      · rintro running ⟨⟩
        rfl
  | @step core running next isRunning notUnlock taken =>
      rw [ConsoleEvent.released, Option.toList_none, List.append_nil]
      cases here : running.state.point with
      | lock => exact serial.tryLock isRunning here taken
      | format => exact serial.work isRunning (by rw [here]; rfl) notUnlock taken
      | puts str count => exact serial.work isRunning (by rw [here]; rfl) notUnlock taken
      | unlock => exact absurd here notUnlock
      | returned =>
          have atPoint : (console.view running.state).point = .returned := here
          unfold Printf.step at taken
          rw [atPoint] at taken
          cases taken
  | release isRunning atUnlock taken => exact serial.release isRunning atUnlock taken
  | @finish core running isRunning returned =>
      obtain ⟨texts, complete, turn⟩ := serial.turn
      rw [ConsoleEvent.released, Option.toList_none, List.append_nil]
      refine ⟨?_, texts, complete, turn.update ?_ ?_⟩
      · intro other found isFound
        obtain ⟨-, isNew⟩ | ⟨-, isOld⟩ := calls_update isFound
        · cases isNew
        · exact serial.fresh other found isOld
      · intro found isFound
        rw [isRunning] at isFound
        cases isFound
        rw [returned]
        rfl
      · rintro found ⟨⟩

/-- The text of the call inside, if there is one, and nobody else is inside. -/
def Open (console : Console ι) (text : Uart) : Prop :=
  (console.printLock = 0 ∧ text = [] ∧ console.Outside fun _ => False) ∨
    ∃ core running, console.calls core = some running ∧ console.printLock = 1 ∧
      running.Has text ∧ console.Outside (· = core)

/-- Whatever the order of the steps, the UART gets the texts of the calls that
unlocked, each whole and as the call sends it alone, in the order of the unlocks,
and then what the one call inside has sent so far. -/
theorem printf_serial {first last : Console ι}
    {path : List (Transition (Console ι) (ConsoleEvent ι))}
    (idle : ∀ core, first.calls core = none) (unlocked : first.printLock = 0)
    (run : Execution Step first path last) :
    ∃ texts text, List.Forall₂ Sends (observed ConsoleEvent.released path) texts ∧
      last.Open text ∧ last.sent = first.sent ++ texts.flatten ++ text := by
  have noCall : ∀ core running, first.calls core ≠ some running := by
    intro core running isRunning
    rw [idle core] at isRunning
    cases isRunning
  have serial : Serial first.sent last (observed ConsoleEvent.released path) := by
    induction run with
    | nil =>
        refine ⟨fun core running isRunning => absurd isRunning (noCall core running), [], .nil, ?_⟩
        exact .free unlocked (fun core running isRunning => absurd isRunning (noCall core running))
          (List.append_nil _).symm
    | snoc before taken inductionHypothesis =>
        rw [observed_append, observed_single]
        exact inductionHypothesis.step taken
  obtain ⟨texts, complete, turn⟩ := serial.turn
  cases turn with
  | free lock outside sent =>
      exact ⟨texts, [], complete, .inl ⟨lock, rfl, outside⟩, sent.trans (List.append_nil _).symm⟩
  | held core running text lock isRunning has outside sent =>
      exact ⟨texts, text, complete, .inr ⟨core, running, isRunning, lock, has, outside⟩, sent⟩

/-- A format of one letter. -/
def letterCall (letter : Char) : Call := ⟨textMemory (bytes letter.toString), fun _ => 0, true⟩

/-- The second caller finds the lock taken, and the first one sends its letter. -/
theorem printf_serial_two_callers :
    ∃ (path : List (Transition (Console Nat) (ConsoleEvent Nat))) (last : Console Nat)
      (texts : List Uart) (text : Uart),
      Execution Step ⟨0, [], fun _ => none⟩ path last ∧
      List.Forall₂ Sends (observed ConsoleEvent.released path) texts ∧
      observed ConsoleEvent.released path = [(letterCall 'a', 0)] ∧
      last.sent = [] ++ texts.flatten ++ text := by
  have begun := (Execution.single (@Step.begin Nat _ ⟨0, [], fun _ => none⟩ 0 (letterCall 'a') 0
    rfl rfl)).snoc (@Step.begin Nat _ _ 1 (letterCall 'b') 0 rfl rfl)
  have contended := (begun.snoc (@Step.step Nat _ _ 0 _ _ rfl (by decide) rfl)).snoc
    (@Step.step Nat _ _ 1 _ _ rfl (by decide) rfl)
  have sent := (contended.snoc (@Step.step Nat _ _ 0 _ _ rfl (by decide) rfl)).snoc
    (@Step.step Nat _ _ 0 _ _ rfl (by decide) rfl)
  have run := sent.snoc (@Step.release Nat _ _ 0 _ _ rfl (by decide) rfl)
  obtain ⟨texts, text, complete, -, isSent⟩ := printf_serial (fun _ => rfl) rfl run
  exact ⟨_, _, texts, text, run, complete, rfl, isSent⟩

end Console

end UniKernel.Stdio
