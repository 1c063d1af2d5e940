import Mathlib.Data.Tree.Basic
import OfxPrimes.Search.Comparison

/-!
# Search trees over a three-way comparison

Unbalanced search trees that keep duplicates: an item goes left of the items it
is smaller than and right of all others, the equal ones included.  The order
invariant makes a lookup along one path find every item there is.
-/

namespace OfxPrimes.Search

universe u

/-- A tree with an item at every inner node. -/
abbrev SearchTree (α : Type u) :=
  BinaryTree α

namespace SearchTree

variable {α : Type u}

/-- The items held by a tree. -/
def Mem (item : α) : SearchTree α → Prop
  | .nil => False
  | .node value left right => item = value ∨ Mem item left ∨ Mem item right

/-- Every item on the left of a node is smaller than the node's, no item on its
right is. -/
def Ordered (cmp : α → α → Int) : SearchTree α → Prop
  | .nil => True
  | .node value left right =>
      (∀ item, Mem item left → cmp item value < 0) ∧
        (∀ item, Mem item right → 0 ≤ cmp item value) ∧
          Ordered cmp left ∧ Ordered cmp right

/-- Put an item at the end of the path its comparisons lead along. -/
def insert (cmp : α → α → Int) (item : α) : SearchTree α → SearchTree α
  | .nil => .node item .nil .nil
  | .node value left right =>
      if cmp item value < 0 then .node value (insert cmp item left) right
      else .node value left (insert cmp item right)

/-- Follow the comparisons until an item compares equal or the path ends. -/
def contains (cmp : α → α → Int) (item : α) : SearchTree α → Bool
  | .nil => false
  | .node value left right =>
      if cmp item value = 0 then true
      else if cmp item value < 0 then contains cmp item left
      else contains cmp item right

theorem mem_insert {cmp : α → α → Int} {item other : α} {tree : SearchTree α} :
    Mem other (insert cmp item tree) ↔ other = item ∨ Mem other tree := by
  induction tree with
  | nil => simp [insert, Mem]
  | node value left right leftIh rightIh =>
      by_cases smaller : cmp item value < 0
      · simp only [insert, if_pos smaller, Mem, leftIh]
        rw [or_assoc, or_left_comm]
      · simp only [insert, if_neg smaller, Mem, rightIh]
        rw [or_left_comm (b := other = item), or_left_comm (b := other = item)]

theorem ordered_insert {cmp : α → α → Int} {tree : SearchTree α} (item : α)
    (ordered : Ordered cmp tree) : Ordered cmp (insert cmp item tree) := by
  induction tree with
  | nil => simp [insert, Ordered, Mem]
  | node value left right leftIh rightIh =>
      rcases ordered with ⟨below, above, leftOrdered, rightOrdered⟩
      by_cases smaller : cmp item value < 0
      · rw [insert, if_pos smaller]
        refine ⟨?_, above, leftIh leftOrdered, rightOrdered⟩
        intro other mem
        rcases mem_insert.mp mem with rfl | old
        · exact smaller
        · exact below other old
      · rw [insert, if_neg smaller]
        refine ⟨below, ?_, leftOrdered, rightIh rightOrdered⟩
        intro other mem
        rcases mem_insert.mp mem with rfl | old
        · exact not_lt.mp smaller
        · exact above other old

/-- In an ordered tree the lookup finds exactly the items that compare equal. -/
theorem contains_iff {cmp : α → α → Int} (order : TotalPreorder cmp)
    {tree : SearchTree α} (ordered : Ordered cmp tree) (item : α) :
    contains cmp item tree = true ↔ ∃ held, Mem held tree ∧ cmp item held = 0 := by
  induction tree with
  | nil => simp [contains, Mem]
  | node value left right leftIh rightIh =>
      rcases ordered with ⟨below, above, leftOrdered, rightOrdered⟩
      by_cases equal : cmp item value = 0
      · rw [contains, if_pos equal]
        exact iff_of_true rfl ⟨value, Or.inl rfl, equal⟩
      · rw [contains, if_neg equal]
        by_cases smaller : cmp item value < 0
        · rw [if_pos smaller, leftIh leftOrdered]
          constructor
          · rintro ⟨held, mem, same⟩
            exact ⟨held, Or.inr (Or.inl mem), same⟩
          · rintro ⟨held, rfl | onLeft | onRight, same⟩
            · exact absurd same equal
            · exact ⟨held, onLeft, same⟩
            · -- an item equal to one on the right is not smaller than the node's
              have notAbove : cmp held value ≤ 0 :=
                order.trans ((order.eq_zero_comm _ _).mp same).le smaller.le
              have heldEqual : cmp held value = 0 := le_antisymm notAbove (above held onRight)
              exact absurd (order.trans_eq_zero same heldEqual) equal
        · rw [if_neg smaller, rightIh rightOrdered]
          constructor
          · rintro ⟨held, mem, same⟩
            exact ⟨held, Or.inr (Or.inr mem), same⟩
          · rintro ⟨held, rfl | onLeft | onRight, same⟩
            · exact absurd same equal
            · -- an item equal to one on the left is smaller than the node's
              have isSmaller := below held onLeft
              have notAbove : cmp item value ≤ 0 := order.trans same.le isSmaller.le
              omega
            · exact ⟨held, onRight, same⟩

/-- The tree after inserting the items of a list in order. -/
def ofList (cmp : α → α → Int) (items : List α) : SearchTree α :=
  items.foldl (fun tree item => insert cmp item tree) .nil

theorem ordered_foldl_insert {cmp : α → α → Int} (items : List α) {tree : SearchTree α}
    (ordered : Ordered cmp tree) :
    Ordered cmp (items.foldl (fun tree item => insert cmp item tree) tree) := by
  induction items generalizing tree with
  | nil => exact ordered
  | cons item rest ih => exact ih (ordered_insert item ordered)

theorem mem_foldl_insert {cmp : α → α → Int} {other : α} (items : List α)
    {tree : SearchTree α} :
    Mem other (items.foldl (fun tree item => insert cmp item tree) tree) ↔
      other ∈ items ∨ Mem other tree := by
  induction items generalizing tree with
  | nil => simp
  | cons item rest ih =>
      rw [List.foldl_cons, ih, mem_insert, List.mem_cons, or_left_comm, or_assoc]

/-- A lookup in a tree of inserted items finds an item exactly when one that
compares equal was inserted. -/
theorem contains_ofList_iff {cmp : α → α → Int} (order : TotalPreorder cmp)
    (items : List α) (item : α) :
    contains cmp item (ofList cmp items) = true ↔
      ∃ inserted ∈ items, cmp item inserted = 0 := by
  have ordered : Ordered cmp (ofList cmp items) := ordered_foldl_insert items trivial
  rw [contains_iff order ordered]
  simp only [ofList, mem_foldl_insert, Mem, or_false]

end SearchTree

end OfxPrimes.Search
