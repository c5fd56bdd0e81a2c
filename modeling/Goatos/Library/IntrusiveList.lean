import Goatos.Library.Loop

namespace Goatos
namespace Library

/-!
# Lists threaded through the nodes they contain

An intrusive list has no storage of its own: each node holds the name of the
next one, and a distinguished value ends the chain.  `Linked` describes such a
chain relative to the function that reads a node's link, so it applies to any
node type and any place where links are kept.  The frame rule `Linked.congr`
is the only fact about memory that it needs: a chain survives every change
that leaves the links of its own nodes alone.
-/

variable {Node : Type}

/-- Following `next` from `head` visits exactly `nodes` and then stops at
`last`, none of the visited nodes being `last` itself. -/
def Linked (next : Node -> Node) (last : Node) : (head : Node) -> (nodes : List Node) -> Prop
  | head, [] => head = last
  | head, node :: rest => head = node ∧ node ≠ last ∧ Linked next last (next node) rest

namespace Linked

variable {next next' : Node -> Node} {last head : Node} {nodes : List Node}

/-- Frame rule: only the links of the visited nodes matter. -/
theorem congr (linked : Linked next last head nodes)
    (same : forall node, node ∈ nodes -> next' node = next node) :
    Linked next' last head nodes := by
  induction nodes generalizing head with
  | nil => exact linked
  | cons node rest inductionHypothesis =>
      refine ⟨linked.1, linked.2.1, ?_⟩
      rw [same node List.mem_cons_self]
      exact inductionHypothesis linked.2.2
        (fun other member => same other (List.mem_cons_of_mem _ member))

/-- The chain from a given head is determined by the links, so two descriptions of a
list agree. -/
theorem unique {others : List Node} (linked : Linked next last head nodes)
    (linked' : Linked next last head others) : nodes = others := by
  induction nodes generalizing head others with
  | nil =>
      cases others with
      | nil => rfl
      | cons other rest => exact absurd (linked'.1.symm.trans linked) linked'.2.1
  | cons node rest inductionHypothesis =>
      cases others with
      | nil => exact absurd (linked.1.symm.trans linked') linked.2.1
      | cons other rest' =>
          have same : node = other := linked.1.symm.trans linked'.1
          subst same
          rw [inductionHypothesis linked.2.2 linked'.2.2]

theorem ne_last {node : Node} (linked : Linked next last head nodes) (member : node ∈ nodes) :
    node ≠ last := by
  induction nodes generalizing head with
  | nil => cases member
  | cons first rest inductionHypothesis =>
      rcases List.mem_cons.mp member with rfl | later
      · exact linked.2.1
      · exact inductionHypothesis linked.2.2 later

/-- Put a node in front of a chain by writing the old head into its link.  The links
of the chain itself have to stay. -/
theorem push {node : Node} (linked : Linked next last head nodes) (real : node ≠ last)
    (link : next' node = head) (same : forall other, other ∈ nodes -> next' other = next other) :
    Linked next' last node (node :: nodes) :=
  ⟨rfl, real, link.symm ▸ linked.congr same⟩

theorem head_eq (linked : Linked next last head nodes) : head = nodes.headD last := by
  cases nodes with
  | nil => exact linked
  | cons node rest => exact linked.1

theorem drop {early : List Node} (linked : Linked next last head (early ++ nodes)) :
    Linked next last (nodes.headD last) nodes := by
  induction early generalizing head with
  | nil =>
      cases nodes with
      | nil => rfl
      | cons node rest => exact ⟨rfl, linked.2⟩
  | cons node rest inductionHypothesis => exact inductionHypothesis linked.2.2

/-- Replace what follows a node by writing the head of another chain into its
link. -/
theorem splice {early late : List Node} {prev newHead : Node}
    (linked : Linked next last head (early ++ prev :: nodes))
    (same : forall node, node ∈ early -> next' node = next node) (relinked : next' prev = newHead)
    (fresh : Linked next' last newHead late) :
    Linked next' last head (early ++ prev :: late) := by
  induction early generalizing head with
  | nil => exact ⟨linked.1, linked.2.1, relinked.symm ▸ fresh⟩
  | cons node rest inductionHypothesis =>
      refine ⟨linked.1, linked.2.1, ?_⟩
      rw [same node List.mem_cons_self]
      exact inductionHypothesis linked.2.2
        (fun other member => same other (List.mem_cons_of_mem _ member))

theorem eq_nil_iff (linked : Linked next last head nodes) : head = last ↔ nodes = [] := by
  cases nodes with
  | nil => exact ⟨fun _ => rfl, fun _ => linked⟩
  | cons node rest =>
      constructor
      · intro atLast
        exact absurd (linked.1.symm.trans atLast) linked.2.1
      · intro impossible
        cases impossible

end Linked

section Walk

variable [DecidableEq Node]

/-- Look for `target` along the links from `current`, giving up at `last` or
after `steps` nodes. -/
def walkFinds (next : Node -> Node) (last target : Node) : (steps : Nat) -> (current : Node) -> Bool
  | 0, _ => false
  | steps + 1, current =>
      if current = last then false
      else if current = target then true
      else walkFinds next last target steps (next current)

/-- A walk bounded by the length of the chain decides membership exactly. -/
theorem walkFinds_iff_mem {next : Node -> Node} {last head : Node} {nodes : List Node}
    (linked : Linked next last head nodes) (target : Node) :
    walkFinds next last target nodes.length head = true ↔ target ∈ nodes := by
  induction nodes generalizing head with
  | nil => simp only [List.length_nil, walkFinds, Bool.false_eq_true, List.not_mem_nil]
  | cons node rest inductionHypothesis =>
      rcases linked with ⟨same, real, tail⟩
      subst same
      rw [List.length_cons, walkFinds, if_neg real]
      by_cases found : head = target
      · rw [if_pos found, found]
        simp only [List.mem_cons, true_or]
      · rw [if_neg found, inductionHypothesis tail, List.mem_cons]
        constructor
        · exact Or.inr
        · rintro (atHead | later)
          · exact absurd atHead.symm found
          · exact later

/-- One pass of a search that keeps a pointer to the node before the current
one. -/
def seekBody (next : Node -> Node) (last : Node) (stop : Node -> Bool) :
    Node × Node -> Pass (Node × Node) (Node × Node)
  | (prev, current) =>
      if current = last then .leave (prev, current)
      else if stop current then .leave (prev, current)
      else .again (current, next current)

/-- Search the chain for a node to stop at, or its end, in at most `fuel`
passes. -/
def seek (next : Node -> Node) (last : Node) (stop : Node -> Bool) (fuel : Nat)
    (start : Node × Node) : Option (Node × Node) :=
  runFor (seekBody next last stop) fuel start

/-- The search passes the nodes it does not stop at and ends with the last of
them and the node after it. -/
theorem seek_eq {next : Node -> Node} {last head prev : Node} {stop : Node -> Bool}
    {passed rest : List Node} {fuel : Nat} (linked : Linked next last head (passed ++ rest))
    (skips : forall node, node ∈ passed -> stop node = false)
    (stops : forall node, rest.head? = some node -> stop node = true)
    (enough : passed.length < fuel) :
    seek next last stop fuel (prev, head) = some (passed.getLastD prev, rest.headD last) := by
  induction passed generalizing head prev fuel with
  | nil =>
      rcases Nat.exists_eq_succ_of_ne_zero (Nat.ne_of_gt enough) with ⟨fuel', rfl⟩
      cases rest with
      | nil =>
          have atEnd : head = last := linked
          simp [seek, runFor, seekBody, atEnd]
      | cons node others =>
          rcases linked with ⟨same, real, _⟩
          simp [seek, runFor, seekBody, same, real, stops node rfl]
  | cons node others inductionHypothesis =>
      rcases Nat.exists_eq_succ_of_ne_zero (Nat.ne_zero_of_lt enough) with ⟨fuel', rfl⟩
      rcases linked with ⟨rfl, real, tail⟩
      have onward := @inductionHypothesis (next head) head fuel' tail
        (fun other member => skips other (List.mem_cons_of_mem _ member))
        (Nat.lt_of_succ_lt_succ enough)
      rw [List.getLastD_cons, ← onward]
      simp [seek, runFor, seekBody, real, skips head List.mem_cons_self]

end Walk

end Library
end Goatos
