import Mathlib.Algebra.Ring.Nat
import Mathlib.Data.List.Basic

/-!
Owns intrusive doubly linked lists: nodes are addresses, 0 is NULL, and the
links are two functions from a node to its neighbours. `Segment` says that the
links run through a list of nodes, `Linked` that a head and a tail pointer hold
such a list with NULL at both ends.

The rules for the three edits (at the front, at the back, out of the middle)
ask only how the new links read at the nodes of the list, so they apply to
links kept in records as well as to links kept in memory.
-/

namespace UniKernel.Lib

/-- The links run through `nodes`, from `pred` in front of them to `succ` behind. -/
def Segment (next prev : Nat → Nat) (succ : Nat) : (pred : Nat) → List Nat → Prop
  | _, [] => True
  | pred, node :: rest =>
      node ≠ 0 ∧ prev node = pred ∧ next node = rest.headD succ ∧ Segment next prev succ node rest

namespace Segment

variable {next prev next' prev' : Nat → Nat} {succ succ' pred pred' node : Nat}
  {nodes front back : List Nat}

@[simp] theorem nil : Segment next prev succ pred [] := trivial

theorem cons : Segment next prev succ pred (node :: nodes) ↔
    node ≠ 0 ∧ prev node = pred ∧ next node = nodes.headD succ ∧
      Segment next prev succ node nodes :=
  Iff.rfl

theorem ne_zero (segment : Segment next prev succ pred nodes) (member : node ∈ nodes) :
    node ≠ 0 := by
  induction nodes generalizing pred with
  | nil => cases member
  | cons first rest inductionHypothesis =>
      rcases List.mem_cons.mp member with rfl | later
      · exact segment.1
      · exact inductionHypothesis segment.2.2.2 later

theorem headD_ne_zero (segment : Segment next prev succ pred nodes) (nonempty : nodes ≠ []) :
    nodes.headD 0 ≠ 0 := by
  cases nodes with
  | nil => exact absurd rfl nonempty
  | cons first rest => exact segment.1

/-- Two segments that start alike and end at NULL have the same nodes. -/
theorem unique {others : List Nat} (segment : Segment next prev 0 pred nodes)
    (same : Segment next prev 0 pred' others) (start : nodes.headD 0 = others.headD 0) :
    nodes = others := by
  induction nodes generalizing pred pred' others with
  | nil =>
      by_contra other
      exact same.headD_ne_zero (Ne.symm other) start.symm
  | cons first rest inductionHypothesis =>
      cases others with
      | nil => exact absurd start (segment.headD_ne_zero (List.cons_ne_nil first rest))
      | cons first' rest' =>
          have sameFirst : first = first' := start
          subst sameFirst
          have sameNext : rest.headD 0 = rest'.headD 0 :=
            segment.2.2.1.symm.trans same.2.2.1
          rw [inductionHypothesis segment.2.2.2 same.2.2.2 sameNext]

/-- A segment reads the links of its own nodes only. -/
theorem congr (segment : Segment next prev succ pred nodes)
    (sameNext : ∀ node ∈ nodes, next' node = next node)
    (samePrev : ∀ node ∈ nodes, prev' node = prev node) :
    Segment next' prev' succ pred nodes := by
  induction nodes generalizing pred with
  | nil => exact nil
  | cons first rest inductionHypothesis =>
      rcases segment with ⟨nonzero, before, after, tail⟩
      refine ⟨nonzero, ?_, ?_, ?_⟩
      · rw [samePrev first (by simp), before]
      · rw [sameNext first (by simp), after]
      · apply inductionHypothesis tail
        · exact fun node member => sameNext node (List.mem_cons_of_mem _ member)
        · exact fun node member => samePrev node (List.mem_cons_of_mem _ member)

theorem append : Segment next prev succ pred (front ++ back) ↔
    Segment next prev (back.headD succ) pred front ∧
      Segment next prev succ (front.getLastD pred) back := by
  induction front generalizing pred with
  | nil => simp
  | cons first rest inductionHypothesis =>
      have seam : (rest ++ back).headD succ = rest.headD (back.headD succ) := by
        cases rest <;> rfl
      rw [List.cons_append, cons, cons, inductionHypothesis, seam, List.getLastD_cons]
      simp only [and_assoc]

/-- The segment with another node behind it. -/
theorem setSucc (segment : Segment next prev succ pred nodes)
    (samePrev : ∀ node ∈ nodes, prev' node = prev node)
    (sameNext : ∀ node ∈ nodes, node ≠ nodes.getLastD pred → next' node = next node)
    (last : nodes ≠ [] → next' (nodes.getLastD pred) = succ') (nodup : nodes.Nodup) :
    Segment next' prev' succ' pred nodes := by
  induction nodes generalizing pred with
  | nil => exact nil
  | cons first rest inductionHypothesis =>
      rcases segment with ⟨nonzero, before, after, tail⟩
      rw [List.getLastD_cons] at sameNext last
      rcases List.nodup_cons.mp nodup with ⟨notLater, restNodup⟩
      refine ⟨nonzero, ?_, ?_, ?_⟩
      · rw [samePrev first (by simp), before]
      · cases rest with
        | nil => exact last (by simp)
        | cons second others =>
            have notLast : first ≠ (second :: others).getLastD first := by
              intro same
              apply notLater
              rw [same, List.getLastD_eq_getLast?, List.getLast?_eq_some_getLast (by simp)]
              exact List.getLast_mem _
            rw [sameNext first (by simp) notLast, after]
            rfl
      · apply inductionHypothesis tail
        · exact fun node member => samePrev node (List.mem_cons_of_mem _ member)
        · exact fun node member => sameNext node (List.mem_cons_of_mem _ member)
        · exact fun _ => last (by simp)
        · exact restNodup

/-- The segment with another node in front of it. -/
theorem setPred (segment : Segment next prev succ pred nodes)
    (sameNext : ∀ node ∈ nodes, next' node = next node)
    (samePrev : ∀ node ∈ nodes, node ≠ nodes.headD 0 → prev' node = prev node)
    (head : nodes ≠ [] → prev' (nodes.headD 0) = pred') (nodup : nodes.Nodup) :
    Segment next' prev' succ pred' nodes := by
  cases nodes with
  | nil => exact nil
  | cons first rest =>
      rcases segment with ⟨nonzero, before, after, tail⟩
      rcases List.nodup_cons.mp nodup with ⟨notLater, -⟩
      refine ⟨nonzero, head (by simp), ?_, ?_⟩
      · rw [sameNext first (by simp), after]
      · apply tail.congr
        · exact fun node member => sameNext node (List.mem_cons_of_mem _ member)
        · intro node member
          apply samePrev node (List.mem_cons_of_mem _ member)
          intro same
          apply notLater
          rwa [← show node = first from same]

/-- The neighbours of a node in the middle. -/
theorem middle (segment : Segment next prev succ pred (front ++ node :: back)) :
    prev node = front.getLastD pred ∧ next node = back.headD succ := by
  rcases (append.mp segment).2 with ⟨-, before, after, -⟩
  exact ⟨before, after⟩

end Segment

theorem getLastD_mem {nodes : List Nat} {fallback : Nat} (nonempty : nodes ≠ []) :
    nodes.getLastD fallback ∈ nodes := by
  rw [List.getLastD_eq_getLast?, List.getLast?_eq_some_getLast nonempty]
  exact List.getLast_mem nonempty

theorem headD_mem {nodes : List Nat} {fallback : Nat} (nonempty : nodes ≠ []) :
    nodes.headD fallback ∈ nodes := by
  cases nodes with
  | nil => exact absurd rfl nonempty
  | cons first rest => simp

/-- `head` and `tail` hold the list `nodes`. -/
structure Linked (next prev : Nat → Nat) (head tail : Nat) (nodes : List Nat) : Prop where
  segment : Segment next prev 0 0 nodes
  head_eq : head = nodes.headD 0
  tail_eq : tail = nodes.getLastD 0
  nodup : nodes.Nodup

namespace Linked

variable {next prev next' prev' : Nat → Nat} {head tail node : Nat} {nodes front back : List Nat}

theorem empty (next prev : Nat → Nat) : Linked next prev 0 0 [] :=
  ⟨Segment.nil, rfl, rfl, List.nodup_nil⟩

theorem congr (list : Linked next prev head tail nodes)
    (sameNext : ∀ node ∈ nodes, next' node = next node)
    (samePrev : ∀ node ∈ nodes, prev' node = prev node) :
    Linked next' prev' head tail nodes :=
  ⟨list.segment.congr sameNext samePrev, list.head_eq, list.tail_eq, list.nodup⟩

theorem head_eq_zero_iff (list : Linked next prev head tail nodes) : head = 0 ↔ nodes = [] := by
  constructor
  · intro noHead
    by_contra nonempty
    exact list.segment.headD_ne_zero nonempty (list.head_eq.symm.trans noHead)
  · intro isEmpty
    rw [list.head_eq, isEmpty]
    rfl

/-- The links lead through one list only. -/
theorem unique {others : List Nat} {tail' : Nat} (list : Linked next prev head tail nodes)
    (same : Linked next prev head tail' others) : nodes = others :=
  list.segment.unique same.segment (list.head_eq.symm.trans same.head_eq)

theorem head_mem (list : Linked next prev head tail nodes) (some : head ≠ 0) : head ∈ nodes := by
  rw [list.head_eq]
  apply headD_mem
  intro isEmpty
  exact some (list.head_eq_zero_iff.mpr isEmpty)

theorem tail_mem (list : Linked next prev head tail nodes) (nonempty : nodes ≠ []) :
    tail ∈ nodes := by
  rw [list.tail_eq]
  exact getLastD_mem nonempty

/-- Only the first node has no predecessor. -/
theorem prev_eq_zero_iff (list : Linked next prev head tail nodes) (member : node ∈ nodes) :
    prev node = 0 ↔ head = node := by
  rcases List.append_of_mem member with ⟨front, back, rfl⟩
  rcases list.segment.middle with ⟨before, -⟩
  rw [before, list.head_eq]
  cases front with
  | nil => simp
  | cons first rest =>
      have lastNonzero : (first :: rest).getLastD 0 ≠ 0 :=
        list.segment.ne_zero (List.mem_append_left _ (getLastD_mem (by simp)))
      have firstNe : first ≠ node := by
        intro same
        apply (List.nodup_cons.mp list.nodup).1
        rw [same]
        simp
      exact iff_of_false lastNonzero firstNe

/-- Only the last node has no successor. -/
theorem next_eq_zero_iff (list : Linked next prev head tail nodes) (member : node ∈ nodes) :
    next node = 0 ↔ tail = node := by
  rcases List.append_of_mem member with ⟨front, back, rfl⟩
  rcases list.segment.middle with ⟨-, after⟩
  have tailEq : tail = (node :: back).getLastD 0 := by
    rw [list.tail_eq]
    simp [List.getLastD_eq_getLast?, List.getLast?_append, List.getLast?_cons]
  rw [after, tailEq]
  cases back with
  | nil => simp
  | cons first rest =>
      rcases List.nodup_append.mp list.nodup with ⟨-, nodup, -⟩
      have firstNonzero : first ≠ 0 := list.segment.ne_zero (by simp)
      have lastNe : (node :: first :: rest).getLastD 0 ≠ node := by
        intro same
        have lastMem : (first :: rest).getLastD node ∈ first :: rest := getLastD_mem (by simp)
        rw [List.getLastD_cons] at same
        rw [same] at lastMem
        exact (List.nodup_cons.mp nodup).1 lastMem
      exact iff_of_false firstNonzero lastNe

/-- A predecessor is in the list. -/
theorem prev_mem (list : Linked next prev head tail nodes) (member : node ∈ nodes)
    (hasPrev : prev node ≠ 0) : prev node ∈ nodes := by
  rcases List.append_of_mem member with ⟨front, back, rfl⟩
  rcases list.segment.middle with ⟨before, -⟩
  rw [before] at hasPrev ⊢
  apply List.mem_append_left
  apply getLastD_mem
  intro isEmpty
  rw [isEmpty] at hasPrev
  exact hasPrev rfl

/-- No node precedes itself. -/
theorem prev_ne (list : Linked next prev head tail nodes) (member : node ∈ nodes) :
    prev node ≠ node := by
  rcases List.append_of_mem member with ⟨front, back, rfl⟩
  rcases List.nodup_append.mp list.nodup with ⟨-, -, apart⟩
  rw [list.segment.middle.1]
  by_cases isEmpty : front = []
  · rw [isEmpty]
    exact (list.segment.ne_zero member).symm
  · exact apart _ (getLastD_mem isEmpty) node (by simp)

/-- No node follows itself. -/
theorem next_ne (list : Linked next prev head tail nodes) (member : node ∈ nodes) :
    next node ≠ node := by
  rcases List.append_of_mem member with ⟨front, back, rfl⟩
  rcases List.nodup_append.mp list.nodup with ⟨-, nodup, -⟩
  rw [list.segment.middle.2]
  by_cases isEmpty : back = []
  · rw [isEmpty]
    exact (list.segment.ne_zero member).symm
  · intro same
    apply (List.nodup_cons.mp nodup).1
    have inBack : back.headD 0 ∈ back := headD_mem isEmpty
    rwa [same] at inBack

/-- A successor is in the list. -/
theorem next_mem (list : Linked next prev head tail nodes) (member : node ∈ nodes)
    (hasNext : next node ≠ 0) : next node ∈ nodes := by
  rcases List.append_of_mem member with ⟨front, back, rfl⟩
  rcases list.segment.middle with ⟨-, after⟩
  rw [after] at hasNext ⊢
  apply List.mem_append_right
  apply List.mem_cons_of_mem
  apply headD_mem
  intro isEmpty
  rw [isEmpty] at hasNext
  exact hasNext rfl

/-- A new node behind the last one. -/
theorem pushBack (list : Linked next prev head tail nodes) (nonzero : node ≠ 0)
    (fresh : node ∉ nodes)
    (sameNext : ∀ other ∈ nodes, other ≠ tail → next' other = next other)
    (samePrev : ∀ other ∈ nodes, prev' other = prev other)
    (nextTail : nodes ≠ [] → next' tail = node)
    (nextNode : next' node = 0) (prevNode : prev' node = tail) :
    Linked next' prev' (if head = 0 then node else head) node (nodes ++ [node]) := by
  refine ⟨Segment.append.mpr ⟨?_, ?_⟩, ?_, ?_, ?_⟩
  · rw [list.tail_eq] at sameNext nextTail
    exact list.segment.setSucc samePrev sameNext nextTail list.nodup
  · exact ⟨nonzero, by rw [prevNode, list.tail_eq], nextNode, Segment.nil⟩
  · split
    · next noHead => rw [list.head_eq_zero_iff.mp noHead]; rfl
    · next someHead =>
        have nonempty : nodes ≠ [] := fun isEmpty => someHead (list.head_eq_zero_iff.mpr isEmpty)
        rw [list.head_eq]
        cases nodes with
        | nil => exact absurd rfl nonempty
        | cons first rest => rfl
  · simp [List.getLastD_eq_getLast?]
  · rw [List.nodup_append]
    refine ⟨list.nodup, by simp, ?_⟩
    intro first firstMem second secondMem same
    rw [List.mem_singleton] at secondMem
    exact fresh (secondMem ▸ same ▸ firstMem)

/-- A new node in front of the first one. -/
theorem pushFront (list : Linked next prev head tail nodes) (nonzero : node ≠ 0)
    (fresh : node ∉ nodes)
    (sameNext : ∀ other ∈ nodes, next' other = next other)
    (samePrev : ∀ other ∈ nodes, other ≠ head → prev' other = prev other)
    (prevHead : nodes ≠ [] → prev' head = node)
    (nextNode : next' node = head) (prevNode : prev' node = 0) :
    Linked next' prev' node (if head = 0 then node else tail) (node :: nodes) := by
  refine ⟨⟨nonzero, prevNode, by rw [nextNode, list.head_eq], ?_⟩, rfl, ?_, ?_⟩
  · rw [list.head_eq] at samePrev prevHead
    exact list.segment.setPred sameNext samePrev prevHead list.nodup
  · rw [List.getLastD_cons]
    split
    · next noHead => rw [list.head_eq_zero_iff.mp noHead]; rfl
    · next someHead =>
        have nonempty : nodes ≠ [] := fun isEmpty => someHead (list.head_eq_zero_iff.mpr isEmpty)
        rw [list.tail_eq, List.getLastD_eq_getLast?, List.getLastD_eq_getLast?,
          List.getLast?_eq_some_getLast nonempty]
        rfl
  · exact List.nodup_cons.mpr ⟨fresh, list.nodup⟩

/-- A node leaves the list: its neighbours are linked to each other. -/
theorem unlinkMiddle (list : Linked next prev head tail (front ++ node :: back))
    (sameNext : ∀ other ∈ front ++ back, other ≠ prev node → next' other = next other)
    (samePrev : ∀ other ∈ front ++ back, other ≠ next node → prev' other = prev other)
    (nextPred : prev node ≠ 0 → next' (prev node) = next node)
    (prevSucc : next node ≠ 0 → prev' (next node) = prev node) :
    Linked next' prev' (if prev node = 0 then next node else head)
      (if next node = 0 then prev node else tail) (front ++ back) := by
  rcases list.segment.middle with ⟨before, after⟩
  rcases Segment.append.mp list.segment with ⟨frontSegment, -, -, -, backSegment⟩
  rcases List.nodup_append.mp list.nodup with ⟨frontNodup, nodeBackNodup, apart⟩
  rcases List.nodup_cons.mp nodeBackNodup with ⟨nodeNotBack, backNodup⟩
  have frontNonzero : front ≠ [] → front.getLastD 0 ≠ 0 := fun nonempty =>
    frontSegment.ne_zero (getLastD_mem nonempty)
  have backNonzero : back ≠ [] → back.headD 0 ≠ 0 := backSegment.headD_ne_zero
  rw [before] at sameNext nextPred prevSucc ⊢
  rw [after] at samePrev nextPred prevSucc ⊢
  have apartBack : ∀ first ∈ front, ∀ second ∈ back, first ≠ second := by
    intro first firstMem second secondMem
    exact apart first firstMem second (List.mem_cons_of_mem _ secondMem)
  refine ⟨Segment.append.mpr ⟨?_, ?_⟩, ?_, ?_, ?_⟩
  · -- the nodes in front get the successor of the removed node behind them
    apply frontSegment.setSucc
    · intro other member
      apply samePrev other (List.mem_append_left _ member)
      intro same
      by_cases nonempty : back = []
      · rw [nonempty] at same
        exact frontSegment.ne_zero member same
      · exact apartBack other member _ (headD_mem nonempty) same
    · exact fun other member => sameNext other (List.mem_append_left _ member)
    · exact fun nonempty => nextPred (frontNonzero nonempty)
    · exact frontNodup
  · apply backSegment.setPred
    · intro other member
      apply sameNext other (List.mem_append_right _ member)
      intro same
      by_cases nonempty : front = []
      · rw [nonempty] at same
        exact backSegment.ne_zero member same
      · exact apartBack _ (getLastD_mem nonempty) other member same.symm
    · exact fun other member => samePrev other (List.mem_append_right _ member)
    · exact fun nonempty => prevSucc (backNonzero nonempty)
    · exact backNodup
  · cases front with
    | nil => cases back <;> simp
    | cons first rest =>
        rw [if_neg (frontNonzero (by simp)), list.head_eq]
        rfl
  · by_cases nonempty : back = []
    · rw [nonempty]
      simp
    · rw [if_neg (backNonzero nonempty), list.tail_eq]
      simp [List.getLastD_eq_getLast?, List.getLast?_append, List.getLast?_cons,
        List.getLast?_eq_some_getLast nonempty]
  · rw [List.nodup_append]
    exact ⟨frontNodup, backNodup, apartBack⟩

/-- `unlinkMiddle` for a node that is given by its membership. -/
theorem unlink (list : Linked next prev head tail nodes) (member : node ∈ nodes)
    (sameNext : ∀ other ∈ nodes, other ≠ node → other ≠ prev node → next' other = next other)
    (samePrev : ∀ other ∈ nodes, other ≠ node → other ≠ next node → prev' other = prev other)
    (nextPred : prev node ≠ 0 → next' (prev node) = next node)
    (prevSucc : next node ≠ 0 → prev' (next node) = prev node) :
    Linked next' prev' (if prev node = 0 then next node else head)
      (if next node = 0 then prev node else tail) (nodes.erase node) := by
  rcases List.append_of_mem member with ⟨front, back, rfl⟩
  rcases List.nodup_append.mp list.nodup with ⟨-, nodeBackNodup, apart⟩
  have notFront : node ∉ front := fun inFront => apart node inFront node (by simp) rfl
  have notBack : node ∉ back := (List.nodup_cons.mp nodeBackNodup).1
  have kept : ∀ other ∈ front ++ back, other ∈ front ++ node :: back ∧ other ≠ node := by
    intro other otherMem
    rcases List.mem_append.mp otherMem with inFront | inBack
    · exact ⟨List.mem_append_left _ inFront, fun same => notFront (same ▸ inFront)⟩
    · exact ⟨by simp [inBack], fun same => notBack (same ▸ inBack)⟩
  rw [List.erase_append_right _ notFront, List.erase_cons_head]
  apply list.unlinkMiddle
  · exact fun other otherMem => sameNext other (kept other otherMem).1 (kept other otherMem).2
  · exact fun other otherMem => samePrev other (kept other otherMem).1 (kept other otherMem).2
  · exact nextPred
  · exact prevSucc

end Linked

/-! ### Singly linked lists -/

/-- The links lead from `head` through `nodes` to NULL. -/
def Chain (next : Nat → Nat) : (head : Nat) → List Nat → Prop
  | head, [] => head = 0
  | head, node :: rest => node ≠ 0 ∧ head = node ∧ Chain next (next node) rest

namespace Chain

variable {next next' : Nat → Nat} {head node : Nat} {nodes : List Nat}

theorem ne_zero (chain : Chain next head nodes) (member : node ∈ nodes) : node ≠ 0 := by
  induction nodes generalizing head with
  | nil => cases member
  | cons first rest inductionHypothesis =>
      rcases List.mem_cons.mp member with rfl | later
      · exact chain.1
      · exact inductionHypothesis chain.2.2 later

/-- A chain reads the links of its own nodes only. -/
theorem congr (chain : Chain next head nodes) (sameNext : ∀ node ∈ nodes, next' node = next node) :
    Chain next' head nodes := by
  induction nodes generalizing head with
  | nil => exact chain
  | cons first rest inductionHypothesis =>
      refine ⟨chain.1, chain.2.1, ?_⟩
      rw [sameNext first (by simp)]
      exact inductionHypothesis chain.2.2 fun node member =>
        sameNext node (List.mem_cons_of_mem _ member)

theorem eq_zero_iff (chain : Chain next head nodes) : head = 0 ↔ nodes = [] := by
  cases nodes with
  | nil => exact iff_of_true chain rfl
  | cons first rest => exact iff_of_false (fun isZero => chain.1 (chain.2.1 ▸ isZero)) (by simp)

theorem head_mem (chain : Chain next head nodes) (nonzero : head ≠ 0) : head ∈ nodes := by
  cases nodes with
  | nil => exact absurd chain nonzero
  | cons first rest =>
      rw [chain.2.1]
      exact List.mem_cons_self

/-- A chain is closed under its links. -/
theorem next_mem (chain : Chain next head nodes) (member : node ∈ nodes) (nonzero : next node ≠ 0) :
    next node ∈ nodes := by
  induction nodes generalizing head with
  | nil => cases member
  | cons first rest inductionHypothesis =>
      rcases List.mem_cons.mp member with rfl | later
      · exact List.mem_cons_of_mem _ (chain.2.2.head_mem nonzero)
      · exact List.mem_cons_of_mem _ (inductionHypothesis chain.2.2 later)

/-- What holds at the head and along the links holds of every node. -/
theorem forall_mem {holds : Nat → Prop} (chain : Chain next head nodes) (first : head ≠ 0 → holds head)
    (step : ∀ node, holds node → next node ≠ 0 → holds (next node)) : ∀ node ∈ nodes, holds node := by
  induction nodes generalizing head with
  | nil =>
      intro node member
      cases member
  | cons front rest inductionHypothesis =>
      rcases chain with ⟨nonzero, rfl, later⟩
      have here := first nonzero
      intro node member
      rcases List.mem_cons.mp member with rfl | member
      · exact here
      · exact inductionHypothesis later (step _ here) node member

/-- A chain through the first `count` values of a function. -/
theorem of_range {f : Nat → Nat} {count : Nat} (nonzero : ∀ k, k < count → f k ≠ 0)
    (links : ∀ k, k + 1 < count → next (f k) = f (k + 1))
    (last : ∀ k, k + 1 = count → next (f k) = 0) (positive : 0 < count) :
    Chain next (f 0) ((List.range count).map f) := by
  induction count generalizing f with
  | zero => exact absurd positive (Nat.lt_irrefl 0)
  | succ count inductionHypothesis =>
      rw [List.range_succ_eq_map, List.map_cons, List.map_map]
      refine ⟨nonzero 0 positive, rfl, ?_⟩
      by_cases isLast : count = 0
      · subst isLast
        exact last 0 rfl
      · rw [links 0 (by omega)]
        apply inductionHypothesis (f := f ∘ Nat.succ)
        · exact fun k below => nonzero (k + 1) (by omega)
        · exact fun k below => links (k + 1) (by omega)
        · exact fun k isEnd => last (k + 1) (by omega)
        · omega

/-- A new node in front of a chain. -/
theorem push (chain : Chain next head nodes) (nonzero : node ≠ 0) (links : next' node = head)
    (sameNext : ∀ other ∈ nodes, next' other = next other) :
    Chain next' node (node :: nodes) := by
  refine ⟨nonzero, rfl, ?_⟩
  rw [links]
  exact chain.congr sameNext

end Chain

end UniKernel.Lib
