import OfxPrimes.Search.Tree

/-!
# The binary tree of dtouch

`BinaryTree<T>` is an unbalanced tree over whatever `cmp` the type `T` has.
Smaller items hang from `_right` and all others from `_left`, and the root has
code of its own in `insert` and in `contains`.  Read with the two pointers
exchanged it is a search tree in the usual sense.
-/

namespace OfxPrimes.Dtouch

open OfxPrimes.Search

universe u

/-- A `TreeNode<T> *`, which may be `NULL`. -/
inductive TreeNode (α : Type u) : Type u
  | null : TreeNode α
  | node (value : α) (right left : TreeNode α) : TreeNode α
  deriving DecidableEq, Repr

/-- `class BinaryTree`. -/
structure BinaryTree (α : Type u) where
  root : TreeNode α
  deriving DecidableEq, Repr

namespace TreeNode

variable {α : Type u}

/-- `insert( TreeNode<T> * newNode, TreeNode<T> ** node )`. -/
def insert (cmp : α → α → Int) (newValue : α) : TreeNode α → TreeNode α
  | null => node newValue null null
  | node value right left =>
      if cmp newValue value < 0 then node value (insert cmp newValue right) left
      else node value right (insert cmp newValue left)

/-- `contains( const T item, TreeNode<T> * node )`. -/
def contains (cmp : α → α → Int) (item : α) : TreeNode α → Bool
  | null => false
  | node value right left =>
      let comparisonResult := cmp item value
      if comparisonResult = 0 then true
      else if comparisonResult < 0 then
        match right with
        | null => false
        | node _ _ _ => contains cmp item right
      else
        match left with
        | null => false
        | node _ _ _ => contains cmp item left

/-- The search tree a node stands for: what hangs from `_right` is smaller. -/
def toTree : TreeNode α → SearchTree α
  | null => .nil
  | node value right left => .node value right.toTree left.toTree

theorem toTree_insert (cmp : α → α → Int) (newValue : α) (tree : TreeNode α) :
    (tree.insert cmp newValue).toTree = SearchTree.insert cmp newValue tree.toTree := by
  induction tree with
  | null => rfl
  | node value right left rightIh leftIh =>
      by_cases smaller : cmp newValue value < 0
      · simp only [insert, toTree, SearchTree.insert, if_pos smaller, rightIh]
      · simp only [insert, toTree, SearchTree.insert, if_neg smaller, leftIh]

theorem contains_eq (cmp : α → α → Int) (item : α) (tree : TreeNode α) :
    tree.contains cmp item = SearchTree.contains cmp item tree.toTree := by
  induction tree with
  | null => rfl
  | node value right left rightIh leftIh =>
      simp only [contains, toTree, SearchTree.contains]
      split
      · rfl
      · split
        · cases right with
          | null => rfl
          | node => exact rightIh
        · cases left with
          | null => rfl
          | node => exact leftIh

end TreeNode

namespace BinaryTree

variable {α : Type u}

/-- `BinaryTree()`. -/
def empty : BinaryTree α :=
  ⟨.null⟩

/-- `insert( const T& item )`. -/
def insert (cmp : α → α → Int) (tree : BinaryTree α) (item : α) : BinaryTree α :=
  match tree.root with
  | .null => ⟨.node item .null .null⟩
  | .node value right left =>
      if cmp item value < 0 then ⟨.node value (right.insert cmp item) left⟩
      else ⟨.node value right (left.insert cmp item)⟩

/-- `contains( const T item )`. -/
def contains (cmp : α → α → Int) (tree : BinaryTree α) (item : α) : Bool :=
  match tree.root with
  | .null => false
  | .node value right left =>
      let comparisonResult := cmp item value
      if comparisonResult = 0 then true
      else if comparisonResult < 0 then
        match right with
        | .null => false
        | .node _ _ _ => right.contains cmp item
      else
        match left with
        | .null => false
        | .node _ _ _ => left.contains cmp item

/-- The tree after a list of insertions into an empty one. -/
def insertAll (cmp : α → α → Int) (items : List α) : BinaryTree α :=
  items.foldl (insert cmp) empty

/-- The code for the root inserts as the code for the other nodes does. -/
theorem root_insert (cmp : α → α → Int) (tree : BinaryTree α) (item : α) :
    (tree.insert cmp item).root = tree.root.insert cmp item := by
  rcases tree with ⟨root⟩
  cases root with
  | null => rfl
  | node value right left =>
      simp only [insert, TreeNode.insert]
      split <;> rfl

/-- The code for the root looks up as the code for the other nodes does. -/
theorem contains_eq_root (cmp : α → α → Int) (tree : BinaryTree α) (item : α) :
    tree.contains cmp item = tree.root.contains cmp item := by
  rcases tree with ⟨root⟩
  cases root <;> rfl

theorem toTree_foldl_insert (cmp : α → α → Int) (items : List α) (tree : BinaryTree α) :
    (items.foldl (insert cmp) tree).root.toTree =
      items.foldl (fun found item => SearchTree.insert cmp item found) tree.root.toTree := by
  induction items generalizing tree with
  | nil => rfl
  | cons item rest ih =>
      rw [List.foldl_cons, ih, root_insert, TreeNode.toTree_insert, List.foldl_cons]

/-- Whatever the order of the insertions, a lookup finds an item exactly when
one that compares equal was inserted. -/
theorem contains_insertAll_iff {cmp : α → α → Int} (order : TotalPreorder cmp)
    (items : List α) (item : α) :
    (insertAll cmp items).contains cmp item = true ↔
      ∃ inserted ∈ items, cmp item inserted = 0 := by
  have sameTree : (insertAll cmp items).root.toTree = SearchTree.ofList cmp items :=
    toTree_foldl_insert cmp items empty
  rw [contains_eq_root, TreeNode.contains_eq, sameTree]
  exact SearchTree.contains_ofList_iff order items item

end BinaryTree

/-- `cmp( const int &a, const int &b )`, while the difference of no two items
overflows. -/
def cmpInt (a b : Int) : Int :=
  a - b

theorem BinaryTree.contains_insertAll_cmpInt :
    (insertAll cmpInt [5, 2, 8, 2, 9]).contains cmpInt 8 = true ↔
      ∃ inserted ∈ [5, 2, 8, 2, 9], cmpInt 8 inserted = 0 :=
  contains_insertAll_iff TotalPreorder.intSub [5, 2, 8, 2, 9] 8

end OfxPrimes.Dtouch
