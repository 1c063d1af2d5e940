import Mathlib.Data.List.Perm.Basic
import Mathlib.Algebra.Order.BigOperators.Group.List
import Mathlib.Algebra.Order.Ring.Nat

/-!
# Ordered trees

Trees whose nodes have any number of children, their measures, and the relation
between trees that differ in the order of children only.
-/

namespace OfxPrimes.Forest

/-- A tree whose nodes have a list of children. -/
inductive Rose where
  | node (children : List Rose)

namespace Rose

/-- The trees below the root. -/
def children : Rose → List Rose
  | node children => children

@[elab_as_elim, induction_eliminator]
theorem induct {motive : Rose → Prop}
    (node : ∀ children, (∀ child ∈ children, motive child) → motive (node children)) :
    ∀ tree, motive tree
  | .node children => node children fun child _ => induct node child

/-! ## Measures -/

mutual

/-- The number of nodes. -/
def size : Rose → ℕ
  | node children => sizes children + 1

/-- The number of nodes of some trees. -/
def sizes : List Rose → ℕ
  | [] => 0
  | tree :: rest => tree.size + sizes rest

end

mutual

/-- The number of edges from the root to a deepest node. -/
def height : Rose → ℕ
  | node children => heights children

/-- The height of a node above some trees. -/
def heights : List Rose → ℕ
  | [] => 0
  | tree :: rest => max (tree.height + 1) (heights rest)

end

mutual

/-- The largest number of children of a node. -/
def degree : Rose → ℕ
  | node children => max children.length (degrees children)

/-- The largest number of children of a node of some trees. -/
def degrees : List Rose → ℕ
  | [] => 0
  | tree :: rest => max tree.degree (degrees rest)

end

theorem sizes_eq_sum (trees : List Rose) : sizes trees = (trees.map size).sum := by
  induction trees with
  | nil => rfl
  | cons tree rest ih => rw [sizes, ih, List.map_cons, List.sum_cons]

theorem size_pos (tree : Rose) : 0 < tree.size := by
  cases tree with
  | node children =>
      rw [size]
      exact Nat.succ_pos _

theorem size_lt_of_mem {tree : Rose} {children : List Rose} (mem : tree ∈ children) :
    tree.size < (node children).size := by
  rw [size, sizes_eq_sum]
  apply Nat.lt_succ_of_le
  exact List.single_le_sum (fun _ _ => Nat.zero_le _) _ (List.mem_map_of_mem mem)

theorem height_lt_of_mem {tree : Rose} {children : List Rose} (mem : tree ∈ children) :
    tree.height < (node children).height := by
  rw [height]
  induction children with
  | nil => exact absurd mem List.not_mem_nil
  | cons first rest ih =>
      rw [heights]
      cases mem with
      | head => exact lt_max_of_lt_left (Nat.lt_succ_self _)
      | tail _ later => exact lt_max_of_lt_right (ih later)

theorem heights_le_iff {trees : List Rose} {bound : ℕ} :
    heights trees ≤ bound ↔ ∀ tree ∈ trees, tree.height + 1 ≤ bound := by
  induction trees with
  | nil => simp [heights]
  | cons tree rest ih => rw [heights, max_le_iff, ih, List.forall_mem_cons]

theorem heights_append (first second : List Rose) :
    heights (first ++ second) = max (heights first) (heights second) := by
  induction first with
  | nil => simp [heights]
  | cons tree rest ih => rw [List.cons_append, heights, heights, ih, max_assoc]

mutual

theorem height_lt_size : ∀ tree : Rose, tree.height < tree.size
  | .node children => by
      rw [height, size]
      exact Nat.lt_succ_of_le (heights_le_sizes children)

theorem heights_le_sizes : ∀ trees : List Rose, heights trees ≤ sizes trees
  | [] => le_rfl
  | tree :: rest => by
      rw [heights, sizes]
      apply max_le
      · exact (Nat.succ_le_of_lt (height_lt_size tree)).trans (Nat.le_add_right _ _)
      · exact (heights_le_sizes rest).trans (Nat.le_add_left _ _)

end

/-! ## The order of children -/

/-- One tree comes from the other by putting the children of some nodes into
another order. -/
inductive Reordered : Rose → Rose → Prop
  | refl (tree : Rose) : Reordered tree tree
  | children {first second : List Rose} (perm : first.Perm second) :
      Reordered (node first) (node second)
  | child {first second : Rose} (before after : List Rose) (reordered : Reordered first second) :
      Reordered (node (before ++ first :: after)) (node (before ++ second :: after))
  | trans {first second third : Rose} (reordered : Reordered first second)
      (reordered' : Reordered second third) : Reordered first third

namespace Reordered

theorem symm {first second : Rose} (reordered : Reordered first second) :
    Reordered second first := by
  induction reordered with
  | refl tree => exact refl tree
  | children perm => exact children perm.symm
  | child before after _ ih => exact child before after ih
  | trans _ _ ih ih' => exact ih'.trans ih

/-- Trees are reordered below a node, one by one. -/
theorem of_forall₂ {first second : List Rose} (each : List.Forall₂ Reordered first second) :
    ∀ before, Reordered (node (before ++ first)) (node (before ++ second)) := by
  induction each with
  | nil => exact fun before => refl _
  | @cons tree tree' rest rest' reordered _ ih =>
      intro before
      have later := ih (before ++ [tree'])
      simp only [List.append_assoc, List.singleton_append] at later
      exact (child before rest reordered).trans later

theorem size_eq {first second : Rose} (reordered : Reordered first second) :
    first.size = second.size := by
  induction reordered with
  | refl _ => rfl
  | children perm => rw [size, size, sizes_eq_sum, sizes_eq_sum, (perm.map size).sum_eq]
  | child before after _ ih =>
      simp only [size, sizes_eq_sum, List.map_append, List.map_cons, List.sum_append,
        List.sum_cons, ih]
  | trans _ _ ih ih' => exact ih.trans ih'

theorem height_eq {first second : Rose} (reordered : Reordered first second) :
    first.height = second.height := by
  induction reordered with
  | refl _ => rfl
  | children perm =>
      apply le_antisymm
      · rw [height, heights_le_iff]
        exact fun tree mem => height_lt_of_mem (perm.mem_iff.mp mem)
      · rw [height, heights_le_iff]
        exact fun tree mem => height_lt_of_mem (perm.mem_iff.mpr mem)
  | child before after _ ih => simp only [height, heights_append, heights, ih]
  | trans _ _ ih ih' => exact ih.trans ih'

end Reordered

end Rose

end OfxPrimes.Forest
