import OfxPrimes.Forest.Rose
import Mathlib.Algebra.BigOperators.Group.Finset.Basic
import Mathlib.Algebra.Order.BigOperators.Group.Finset
import Mathlib.Data.List.Count
import Mathlib.Logic.Relation

/-!
# Stripping a graph from its leaves

A graph is stripped of its trees by visiting nodes from the leaves inwards.  The
neighbours of a visited node are its children, which were visited before it, and at
most one more, whose child it may become.  Where every closed part of the graph
holds a node that is not clear, no two nodes are each other's children, and every
tree that hangs from a node is found.
-/

namespace OfxPrimes.Forest

universe u

variable {V : Type u}

/-- A tree of clear nodes hangs from `up`: the neighbours of `node` are `up` and the
nodes whose trees hang from `node`. -/
inductive Hangs (adj : V → List V) (clear : V → Prop) : V → V → Rose → Prop
  | intro {up node : V} {children : List V} {tree : V → Rose} (isClear : clear node)
      (perm : (adj node).Perm (up :: children))
      (each : ∀ child ∈ children, Hangs adj clear node child (tree child)) :
      Hangs adj clear up node (.node (children.map tree))

/-- No part of the graph without an edge to the rest is clear. -/
def Anchored (adj : V → List V) (clear : V → Prop) : Prop :=
  ∀ part : V → Prop, (∃ node, part node) →
    (∀ node, part node → clear node ∧ ∀ next ∈ adj node, part next) → False

/-- The nodes below a node, and the node itself. -/
def Descends (parent : V → Option V) : V → V → Prop :=
  Relation.ReflTransGen fun node up => parent node = some up

variable [DecidableEq V]

/-- The neighbours that are children. -/
def kids (adj : V → List V) (parent : V → Option V) (node : V) : List V :=
  (adj node).filter fun next => parent next = some node

/-- The neighbours that are not children. -/
def others (adj : V → List V) (parent : V → Option V) (node : V) : List V :=
  (adj node).filter fun next => ¬ parent next = some node

/-- What is known of the nodes between two visits. -/
structure Stripped (adj : V → List V) (clear visited : V → Prop) (parent : V → Option V)
    (tree : V → Rose) : Prop where
  credited : ∀ node up, parent node = some up →
    visited node ∧ clear node ∧ others adj parent node = [up]
  tree_eq : ∀ node, visited node → tree node = .node ((kids adj parent node).map tree)

variable {adj : V → List V} {clear visited : V → Prop} {parent : V → Option V} {tree : V → Rose}
  {node next up a b : V}

theorem mem_kids_iff : next ∈ kids adj parent node ↔ next ∈ adj node ∧ parent next = some node := by
  rw [kids, List.mem_filter, decide_eq_true_eq]

theorem mem_others_iff :
    next ∈ others adj parent node ↔ next ∈ adj node ∧ ¬ parent next = some node := by
  rw [others, List.mem_filter, decide_eq_true_eq]

/-- The neighbours of a node are its children and the others. -/
theorem others_append_kids_perm (adj : V → List V) (parent : V → Option V) (node : V) :
    (others adj parent node ++ kids adj parent node).Perm (adj node) := by
  have perm := List.filter_append_perm (fun next => decide (¬ parent next = some node)) (adj node)
  simpa only [others, kids, decide_not, Bool.not_not] using perm

/-! ## A new child -/

theorem kids_update (free : parent a = none) (differ : node ≠ up) :
    kids adj (Function.update parent a (some up)) node = kids adj parent node ∧
      others adj (Function.update parent a (some up)) node = others adj parent node := by
  have same : ∀ next, Function.update parent a (some up) next = some node ↔
      parent next = some node := by
    intro next
    by_cases isA : next = a
    · rw [isA, Function.update_self, free, Option.some_inj]
      exact ⟨fun equal => absurd equal.symm differ, fun impossible => absurd impossible (by simp)⟩
    · rw [Function.update_of_ne isA]
  simp only [kids, others, same, and_self]

/-- The new parent has one more child, and the child has no other parent. -/
theorem length_kids_update (symmetric : ∀ a b, (adj a).count b = (adj b).count a)
    (free : parent a = none) (freeUp : parent up ≠ some a) (only : others adj parent a = [up]) :
    (kids adj (Function.update parent a (some up)) up).length =
      (kids adj parent up).length + 1 := by
  have once : (adj up).count a = 1 := by
    rw [symmetric, ← (others_append_kids_perm adj parent a).count_eq, List.count_append, only,
      List.count_singleton_self]
    have notKid : up ∉ kids adj parent a := fun mem => freeUp (mem_kids_iff.mp mem).2
    rw [List.count_eq_zero_of_not_mem notKid]
  have split : ∀ nodes : List V,
      (nodes.filter fun next => Function.update parent a (some up) next = some up).length =
        (nodes.filter fun next => parent next = some up).length + nodes.count a := by
    intro nodes
    induction nodes with
    | nil => rfl
    | cons first rest ih =>
        by_cases isA : first = a
        · subst isA
          rw [List.filter_cons_of_pos (by simp), List.filter_cons_of_neg (by simp [free]),
            List.count_cons_self, List.length_cons, ih]
          omega
        · rw [List.count_cons_of_ne isA]
          by_cases isKid : parent first = some up
          · rw [List.filter_cons_of_pos (by simpa [Function.update_of_ne isA] using isKid),
              List.filter_cons_of_pos (by simpa using isKid), List.length_cons, List.length_cons,
              ih]
            omega
          · rw [List.filter_cons_of_neg (by simpa [Function.update_of_ne isA] using isKid),
              List.filter_cons_of_neg (by simpa using isKid), ih]
  rw [kids, split, once]
  rfl

namespace Stripped

variable (stripped : Stripped adj clear visited parent tree)
include stripped

/-! ## Closed parts -/

/-- The neighbours of a node below `up` are below `up`. -/
theorem closed (descends : Descends parent node up) (proper : node ≠ up) :
    clear node ∧ ∀ next ∈ adj node, Descends parent next up := by
  cases Relation.ReflTransGen.cases_head descends with
  | inl same => exact absurd same proper
  | inr step =>
      obtain ⟨above, isParent, rest⟩ := step
      obtain ⟨_, isClear, alone⟩ := stripped.credited node above isParent
      refine ⟨isClear, fun next mem => ?_⟩
      by_cases isKid : parent next = some node
      · exact Relation.ReflTransGen.head isKid descends
      · have other : next ∈ others adj parent node := mem_others_iff.mpr ⟨mem, isKid⟩
        rw [alone, List.mem_singleton] at other
        rw [other]
        exact rest

/-- A clear node has neighbours that are not its children. -/
theorem not_lonely (anchored : Anchored adj clear) (isClear : clear a)
    (alone : others adj parent a = []) : False := by
  apply anchored (Descends parent · a) ⟨a, .refl⟩
  intro node below
  by_cases same : node = a
  · subst same
    refine ⟨isClear, fun next mem => ?_⟩
    by_cases isKid : parent next = some node
    · exact .single isKid
    · have other : next ∈ others adj parent node := mem_others_iff.mpr ⟨mem, isKid⟩
      rw [alone] at other
      exact absurd other List.not_mem_nil
  · exact stripped.closed below same

/-- Two clear nodes are not each other's only neighbour that is not a child. -/
theorem not_facing (anchored : Anchored adj clear) (clearA : clear a) (clearB : clear b)
    (onlyA : others adj parent a = [b]) (onlyB : others adj parent b = [a]) : False := by
  have step : ∀ {node other}, clear node → others adj parent node = [other] →
      clear node ∧ ∀ next ∈ adj node, Descends parent next node ∨ next = other := by
    intro node other isClear only
    refine ⟨isClear, fun next mem => ?_⟩
    by_cases isKid : parent next = some node
    · exact Or.inl (.single isKid)
    · have isOther : next ∈ others adj parent node := mem_others_iff.mpr ⟨mem, isKid⟩
      rw [only, List.mem_singleton] at isOther
      exact Or.inr isOther
  apply anchored (fun node => Descends parent node a ∨ Descends parent node b) ⟨a, Or.inl .refl⟩
  rintro node (below | below)
  · by_cases same : node = a
    · rw [same]
      refine ⟨clearA, fun next mem => ?_⟩
      rcases (step clearA onlyA).2 next mem with isBelow | rfl
      · exact Or.inl isBelow
      · exact Or.inr .refl
    · obtain ⟨isClear, all⟩ := stripped.closed below same
      exact ⟨isClear, fun next mem => Or.inl (all next mem)⟩
  · by_cases same : node = b
    · rw [same]
      refine ⟨clearB, fun next mem => ?_⟩
      rcases (step clearB onlyB).2 next mem with isBelow | rfl
      · exact Or.inr isBelow
      · exact Or.inl .refl
    · obtain ⟨isClear, all⟩ := stripped.closed below same
      exact ⟨isClear, fun next mem => Or.inr (all next mem)⟩

/-! ## A node is visited -/

/-- The children of a visited node do not change when another is visited. -/
theorem not_mem_kids (fresh : ¬ visited a) (node : V) : a ∉ kids adj parent node := by
  intro mem
  exact fresh (stripped.credited a node (mem_kids_iff.mp mem).2).1

theorem visit (fresh : ¬ visited a) :
    Stripped adj clear (fun node => visited node ∨ node = a) parent
      (Function.update tree a (.node ((kids adj parent a).map tree))) := by
  have same : ∀ node, (kids adj parent node).map
      (Function.update tree a (.node ((kids adj parent a).map tree))) =
      (kids adj parent node).map tree := by
    intro node
    apply List.map_congr_left
    intro kid mem
    have differ : kid ≠ a := fun isA => stripped.not_mem_kids fresh node (isA ▸ mem)
    rw [Function.update_of_ne differ]
  constructor
  · intro node up isParent
    obtain ⟨isVisited, rest⟩ := stripped.credited node up isParent
    exact ⟨Or.inl isVisited, rest⟩
  · rintro node (isVisited | rfl)
    · have differ : node ≠ a := fun isA => fresh (isA ▸ isVisited)
      rw [same, Function.update_of_ne differ]
      exact stripped.tree_eq node isVisited
    · rw [same, Function.update_self]

/-! ## A node becomes a child -/

theorem credit (isVisited : visited a) (isClear : clear a) (free : parent a = none)
    (only : others adj parent a = [up]) (fresh : ¬ visited up) :
    Stripped adj clear visited (Function.update parent a (some up)) tree := by
  constructor
  · intro node above isParent
    by_cases isA : node = a
    · subst isA
      rw [Function.update_self, Option.some_inj] at isParent
      subst isParent
      have differ : node ≠ up := fun same => fresh (same ▸ isVisited)
      exact ⟨isVisited, isClear, by rw [(kids_update free differ).2, only]⟩
    · rw [Function.update_of_ne isA] at isParent
      obtain ⟨nodeVisited, nodeClear, alone⟩ := stripped.credited node above isParent
      have differ : node ≠ up := fun same => fresh (same ▸ nodeVisited)
      exact ⟨nodeVisited, nodeClear, by rw [(kids_update free differ).2, alone]⟩
  · intro node nodeVisited
    have differ : node ≠ up := fun same => fresh (same ▸ nodeVisited)
    rw [(kids_update free differ).1]
    exact stripped.tree_eq node nodeVisited

/-! ## What hangs from a node -/

theorem size_lt (isVisited : visited node) (mem : next ∈ kids adj parent node) :
    (tree next).size < (tree node).size := by
  rw [stripped.tree_eq node isVisited]
  exact Rose.size_lt_of_mem (List.mem_map_of_mem mem)

/-- The tree of a child hangs from its parent. -/
theorem hangs (isParent : parent node = some up) : Hangs adj clear up node (tree node) := by
  induction size : (tree node).size using Nat.strong_induction_on generalizing node up with
  | _ size ih =>
      obtain ⟨isVisited, isClear, alone⟩ := stripped.credited node up isParent
      have perm := others_append_kids_perm adj parent node
      rw [alone, List.singleton_append] at perm
      rw [stripped.tree_eq node isVisited]
      apply Hangs.intro isClear perm.symm
      intro child mem
      have smaller := stripped.size_lt isVisited mem
      exact ih _ (size ▸ smaller) (mem_kids_iff.mp mem).2 rfl

end Stripped

/-- The nodes around an edge whose lower end hangs and whose upper end is a child of
it. -/
inductive Around (adj : V → List V) (clear : V → Prop) (parent : V → Option V) (up : V) :
    V → Prop
  | upper {node : V} (descends : Descends parent node up) : Around adj clear parent up node
  | lower {node next : V} {tree : Rose} (around : Around adj clear parent up node)
      (hangs : Hangs adj clear node next tree) : Around adj clear parent up next

omit [DecidableEq V] in
theorem Hangs.isClear {tree : Rose} (hangs : Hangs adj clear up node tree) : clear node := by
  cases hangs with
  | intro isClear _ _ => exact isClear

namespace Stripped

variable (stripped : Stripped adj clear visited parent tree)
include stripped

/-- What hangs from a node is not above it. -/
theorem not_above {hung : Rose} (anchored : Anchored adj clear)
    (hangs : Hangs adj clear up node hung) : parent up ≠ some node := by
  intro isParent
  obtain ⟨_, clearUp, alone⟩ := stripped.credited up node isParent
  apply anchored (Around adj clear parent up) ⟨up, .upper .refl⟩
  intro point around
  cases around with
  | upper descends =>
      by_cases same : point = up
      · subst same
        refine ⟨clearUp, fun next mem => ?_⟩
        by_cases isKid : parent next = some point
        · exact .upper (.single isKid)
        · have other : next ∈ others adj parent point := mem_others_iff.mpr ⟨mem, isKid⟩
          rw [alone, List.mem_singleton] at other
          exact other ▸ .lower (.upper .refl) hangs
      · obtain ⟨isClear, all⟩ := stripped.closed descends same
        exact ⟨isClear, fun next mem => .upper (all next mem)⟩
  | lower around' hangs' =>
      cases hangs' with
      | intro isClear perm each =>
          refine ⟨isClear, fun next mem => ?_⟩
          cases perm.mem_iff.mp mem with
          | head => exact around'
          | tail _ isChild =>
              exact .lower (.lower around' (.intro isClear perm each)) (each next isChild)

/-- If no node is left whose children are all good, every tree whose subtrees are good
is found. -/
theorem found {good : Rose → Prop} {hung : Rose} (anchored : Anchored adj clear)
    (congr : ∀ first second, Rose.Reordered first second → good first → good second)
    (hereditary : ∀ children, good (.node children) → ∀ child ∈ children, good child)
    (ready : ∀ node up, clear node → others adj parent node = [up] →
      (∀ kid ∈ kids adj parent node, visited kid ∧ good (tree kid)) → visited node)
    (credits : ∀ node up, visited node → clear node → others adj parent node = [up] →
      good (tree node) → parent node = some up)
    (hangs : Hangs adj clear up node hung) (below : ∀ child ∈ hung.children, good child) :
    others adj parent node = [up] ∧ visited node ∧ Rose.Reordered hung (tree node) := by
  induction hangs with
  | @intro up node children subtree isClear perm each ih =>
      have kidOf : ∀ child ∈ children, visited child ∧ good (tree child) ∧
          parent child = some node ∧ Rose.Reordered (subtree child) (tree child) := by
        intro child mem
        have isGood : good (subtree child) := below _ (List.mem_map_of_mem mem)
        obtain ⟨only, isVisited, reordered⟩ := ih child mem fun grandchild grandMem => by
          cases found : subtree child with
          | node grandchildren =>
              rw [found] at isGood grandMem
              exact hereditary grandchildren isGood grandchild grandMem
        have isGood' := congr _ _ reordered isGood
        exact ⟨isVisited, isGood', credits child node isVisited (each child mem).isClear only
          isGood', reordered⟩
      have notAbove := stripped.not_above anchored (.intro isClear perm each)
      have onlyUp : others adj parent node = [up] := by
        have none : (children.filter fun next => ¬ parent next = some node) = [] :=
          List.filter_eq_nil_iff.mpr fun child mem => by simpa using (kidOf child mem).2.2.1
        have filtered := perm.filter fun next => decide (¬ parent next = some node)
        rw [List.filter_cons_of_pos (by simpa using notAbove), none] at filtered
        exact List.perm_singleton.mp filtered
      have allKids : (kids adj parent node).Perm children := by
        have all : (children.filter fun next => parent next = some node) = children :=
          List.filter_eq_self.mpr fun child mem => by simpa using (kidOf child mem).2.2.1
        have filtered := perm.filter fun next => decide (parent next = some node)
        rwa [List.filter_cons_of_neg (by simpa using notAbove), all] at filtered
      have isVisited := ready node up isClear onlyUp fun kid mem =>
        ⟨(kidOf kid (allKids.mem_iff.mp mem)).1, (kidOf kid (allKids.mem_iff.mp mem)).2.1⟩
      refine ⟨onlyUp, isVisited, ?_⟩
      rw [stripped.tree_eq node isVisited]
      apply Rose.Reordered.trans _ (.children (allKids.symm.map tree))
      apply Rose.Reordered.of_forall₂ _ []
      rw [List.forall₂_map_left_iff, List.forall₂_map_right_iff, List.forall₂_same]
      exact fun child mem => (kidOf child mem).2.2.2

/-! ## The number of nodes -/

/-- The children of a node are in its list once each. -/
theorem kids_nodup (anchored : Anchored adj clear)
    (symmetric : ∀ a b, (adj a).count b = (adj b).count a) (node : V) :
    (kids adj parent node).Nodup := by
  rw [List.nodup_iff_count]
  intro kid
  by_cases mem : kid ∈ kids adj parent node
  · obtain ⟨_, isParent⟩ := mem_kids_iff.mp mem
    obtain ⟨_, clearKid, alone⟩ := stripped.credited kid node isParent
    have notKid : node ∉ kids adj parent kid := by
      intro mem'
      obtain ⟨_, clearNode, alone'⟩ := stripped.credited node kid (mem_kids_iff.mp mem').2
      exact stripped.not_facing anchored clearNode clearKid alone' alone
    calc
      (kids adj parent node).count kid ≤ (adj node).count kid := List.filter_sublist.count_le kid
      _ = (adj kid).count node := symmetric node kid
      _ = (others adj parent kid ++ kids adj parent kid).count node :=
          ((others_append_kids_perm adj parent kid).count_eq node).symm
      _ = 1 := by
          rw [List.count_append, alone, List.count_singleton_self,
            List.count_eq_zero_of_not_mem notKid]
  · rw [List.count_eq_zero_of_not_mem mem]
    exact Nat.zero_le 1

theorem mem_kids (symmetric : ∀ a b, (adj a).count b = (adj b).count a)
    (isParent : parent node = some up) : node ∈ kids adj parent up := by
  obtain ⟨_, _, alone⟩ := stripped.credited node up isParent
  have mem : up ∈ adj node := (mem_others_iff.mp (alone ▸ List.mem_singleton_self up)).1
  refine mem_kids_iff.mpr ⟨?_, isParent⟩
  rw [← List.count_pos_iff, symmetric]
  exact List.count_pos_iff.mpr mem

/-- What is below a visited node is visited, and its tree is no larger. -/
theorem size_le_of_descends (symmetric : ∀ a b, (adj a).count b = (adj b).count a)
    (isVisited : visited up) (descends : Descends parent node up) :
    visited node ∧ (tree node).size ≤ (tree up).size := by
  induction descends using Relation.ReflTransGen.head_induction_on with
  | refl => exact ⟨isVisited, le_rfl⟩
  | head isParent _ ih =>
      refine ⟨(stripped.credited _ _ isParent).1, ?_⟩
      exact (stripped.size_lt ih.1 (stripped.mem_kids symmetric isParent)).le.trans ih.2

/-- A node is not below its children. -/
theorem not_descends_kid (symmetric : ∀ a b, (adj a).count b = (adj b).count a)
    (isParent : parent node = some up) : ¬ Descends parent up node := by
  intro descends
  obtain ⟨isVisited, _, _⟩ := stripped.credited node up isParent
  obtain ⟨visitedUp, le⟩ := stripped.size_le_of_descends symmetric isVisited descends
  exact (stripped.size_lt visitedUp (stripped.mem_kids symmetric isParent)).not_ge le

/-- No node is below two children of one node. -/
theorem apart (symmetric : ∀ a b, (adj a).count b = (adj b).count a) (differ : a ≠ b)
    (parentA : parent a = some up) (parentB : parent b = some up)
    (below : Descends parent node a) : ¬ Descends parent node b := by
  intro below'
  have unique : Relator.RightUnique fun node up => parent node = some up :=
    fun _ _ _ left right => Option.some.inj (left.symm.trans right)
  have climb : ∀ {low high}, parent low = some up → parent high = some up → low ≠ high →
      ¬ Descends parent low high := by
    intro low high parentLow parentHigh different descends
    cases Relation.ReflTransGen.cases_head descends with
    | inl same => exact different same
    | inr step =>
        obtain ⟨above, isParent, rest⟩ := step
        rw [parentLow, Option.some_inj] at isParent
        exact stripped.not_descends_kid symmetric parentHigh (isParent ▸ rest)
  rcases Relation.ReflTransGen.total_of_right_unique unique below below' with lower | lower
  · exact climb parentA parentB differ lower
  · exact climb parentB parentA differ.symm lower

/-- A neighbour that is not a child is not below a node. -/
theorem not_descends_other (symmetric : ∀ a b, (adj a).count b = (adj b).count a)
    (differ : next ≠ node) (other : next ∈ others adj parent node) :
    ¬ Descends parent next node := by
  intro descends
  obtain ⟨mem, notKid⟩ := mem_others_iff.mp other
  cases Relation.ReflTransGen.cases_head descends with
  | inl same => exact differ same
  | inr step =>
      obtain ⟨above, isParent, _⟩ := step
      obtain ⟨_, _, alone⟩ := stripped.credited next above isParent
      have mem' : node ∈ adj next := by
        rw [← List.count_pos_iff, symmetric]
        exact List.count_pos_iff.mpr mem
      by_cases isKid : parent node = some next
      · exact stripped.not_descends_kid symmetric isKid descends
      · have other' : node ∈ others adj parent next := mem_others_iff.mpr ⟨mem', isKid⟩
        rw [alone, List.mem_singleton] at other'
        exact notKid (other' ▸ isParent)

open Classical in
/-- A tree has no more nodes than there are below its root. -/
theorem size_le_card_below (anchored : Anchored adj clear)
    (symmetric : ∀ a b, (adj a).count b = (adj b).count a) {nodes : Finset V}
    (inside : ∀ node, visited node → node ∈ nodes) (isVisited : visited node) :
    (tree node).size ≤ (nodes.filter (Descends parent · node)).card := by
  induction size : (tree node).size using Nat.strong_induction_on generalizing node with
  | _ size ih =>
      have smaller : ∀ kid ∈ kids adj parent node, (tree kid).size < (tree node).size :=
        fun _ mem => stripped.size_lt isVisited mem
      have visitedKid : ∀ kid ∈ kids adj parent node, visited kid := fun kid mem =>
        (stripped.credited kid node (mem_kids_iff.mp mem).2).1
      have disjoint : ∀ kid ∈ (kids adj parent node).toFinset,
          ∀ kid' ∈ (kids adj parent node).toFinset, kid ≠ kid' →
          Disjoint (nodes.filter (Descends parent · kid))
            (nodes.filter (Descends parent · kid')) := by
        intro kid mem kid' mem' differ
        rw [List.mem_toFinset] at mem mem'
        rw [Finset.disjoint_left]
        intro point below below'
        exact stripped.apart symmetric differ (mem_kids_iff.mp mem).2 (mem_kids_iff.mp mem').2
          (Finset.mem_filter.mp below).2 (Finset.mem_filter.mp below').2
      have kidsBelow : (kids adj parent node).toFinset.biUnion
          (fun kid => nodes.filter (Descends parent · kid)) ⊆
          (nodes.filter (Descends parent · node)).erase node := by
        intro point mem
        obtain ⟨kid, kidMem, below⟩ := Finset.mem_biUnion.mp mem
        rw [List.mem_toFinset] at kidMem
        rw [Finset.mem_filter] at below
        have isParent := (mem_kids_iff.mp kidMem).2
        apply Finset.mem_erase.mpr
        constructor
        · rintro rfl
          exact stripped.not_descends_kid symmetric isParent below.2
        · exact Finset.mem_filter.mpr ⟨below.1, below.2.tail isParent⟩
      have selfMem : node ∈ nodes.filter (Descends parent · node) :=
        Finset.mem_filter.mpr ⟨inside node isVisited, .refl⟩
      have sum : ((kids adj parent node).map fun kid => (tree kid).size).sum ≤
          (nodes.filter (Descends parent · node)).card - 1 := by
        calc
          ((kids adj parent node).map fun kid => (tree kid).size).sum =
              ∑ kid ∈ (kids adj parent node).toFinset, (tree kid).size :=
            (List.sum_toFinset _ (stripped.kids_nodup anchored symmetric node)).symm
          _ ≤ ∑ kid ∈ (kids adj parent node).toFinset,
              (nodes.filter (Descends parent · kid)).card := by
            apply Finset.sum_le_sum
            intro kid mem
            rw [List.mem_toFinset] at mem
            exact ih _ (size ▸ smaller kid mem) (visitedKid kid mem) rfl
          _ = ((kids adj parent node).toFinset.biUnion
              fun kid => nodes.filter (Descends parent · kid)).card :=
            (Finset.card_biUnion disjoint).symm
          _ ≤ ((nodes.filter (Descends parent · node)).erase node).card :=
            Finset.card_le_card kidsBelow
          _ = (nodes.filter (Descends parent · node)).card - 1 := Finset.card_erase_of_mem selfMem
      have positive := Finset.card_pos.mpr ⟨node, selfMem⟩
      rw [← size, stripped.tree_eq node isVisited, Rose.size, Rose.sizes_eq_sum, List.map_map]
      have same : ((kids adj parent node).map (Rose.size ∘ tree)).sum =
        ((kids adj parent node).map fun kid => (tree kid).size).sum := rfl
      omega

theorem size_le_card (anchored : Anchored adj clear)
    (symmetric : ∀ a b, (adj a).count b = (adj b).count a) {nodes : Finset V}
    (inside : ∀ node, visited node → node ∈ nodes) (isVisited : visited node) :
    (tree node).size ≤ nodes.card := by
  classical
  have below := stripped.size_le_card_below anchored symmetric inside isVisited
  exact below.trans (Finset.card_filter_le _ _)

end Stripped

end OfxPrimes.Forest
