import OfxPrimes.Forest.Rose
import OfxPrimes.Search.Comparison
import Mathlib.Data.List.Sort

/-!
# Left heavy depth sequences

A tree is written as the depths of its nodes in the order of a walk.  If a node's
children are visited in the order of what is written of them, two trees are
written alike exactly if they differ in the order of children only.
-/

namespace OfxPrimes.Forest

open Search

universe u v

variable {α : Type u} {β : Type v}

/-! ## Blocks -/

/-- The list starts with the mark and holds it nowhere else. -/
def Marked (mark : α) (block : List α) : Prop :=
  ∃ body, block = mark :: body ∧ mark ∉ body

/-- What follows a block starts with the mark. -/
theorem flatten_eq_nil_or_mark {mark : α} {blocks : List (List α)}
    (marked : ∀ block ∈ blocks, Marked mark block) :
    blocks.flatten = [] ∨ ∃ rest, blocks.flatten = mark :: rest := by
  cases blocks with
  | nil => exact Or.inl rfl
  | cons block rest =>
      obtain ⟨body, rfl, _⟩ := marked block List.mem_cons_self
      exact Or.inr ⟨body ++ rest.flatten, rfl⟩

/-- What stands in front of the first mark is determined. -/
theorem append_inj_of_mark {mark : α} {body body' rest rest' : List α} (clean : mark ∉ body)
    (clean' : mark ∉ body') (ends : rest = [] ∨ ∃ more, rest = mark :: more)
    (ends' : rest' = [] ∨ ∃ more, rest' = mark :: more)
    (equal : body ++ rest = body' ++ rest') : body = body' ∧ rest = rest' := by
  induction body generalizing body' with
  | nil =>
      cases body' with
      | nil => exact ⟨rfl, equal⟩
      | cons first' body' =>
          rw [List.nil_append, List.cons_append] at equal
          rcases ends with rfl | ⟨more, rfl⟩
          · exact absurd equal (List.cons_ne_nil _ _).symm
          · exact absurd ((List.cons.inj equal).1 ▸ List.mem_cons_self) clean'
  | cons first body ih =>
      cases body' with
      | nil =>
          rw [List.nil_append, List.cons_append] at equal
          rcases ends' with rfl | ⟨more, rfl⟩
          · exact absurd equal (List.cons_ne_nil _ _)
          · exact absurd ((List.cons.inj equal).1 ▸ List.mem_cons_self) clean
      | cons first' body' =>
          obtain ⟨rfl, later⟩ := List.cons.inj equal
          obtain ⟨rfl, same⟩ := ih (fun mem => clean (List.mem_cons_of_mem _ mem))
            (fun mem => clean' (List.mem_cons_of_mem _ mem)) later
          exact ⟨rfl, same⟩

/-- Blocks with one mark can be told apart. -/
theorem flatten_inj_of_marked {mark : α} {blocks blocks' : List (List α)}
    (marked : ∀ block ∈ blocks, Marked mark block)
    (marked' : ∀ block ∈ blocks', Marked mark block)
    (equal : blocks.flatten = blocks'.flatten) : blocks = blocks' := by
  induction blocks generalizing blocks' with
  | nil =>
      cases blocks' with
      | nil => rfl
      | cons block' rest' =>
          obtain ⟨body', rfl, _⟩ := marked' _ List.mem_cons_self
          exact absurd equal (List.cons_ne_nil _ _).symm
  | cons block rest ih =>
      obtain ⟨body, rfl, clean⟩ := marked _ List.mem_cons_self
      cases blocks' with
      | nil => exact absurd equal (List.cons_ne_nil _ _)
      | cons block' rest' =>
          obtain ⟨body', rfl, clean'⟩ := marked' _ List.mem_cons_self
          have later := fun block mem => marked block (List.mem_cons_of_mem _ mem)
          have later' := fun block mem => marked' block (List.mem_cons_of_mem _ mem)
          obtain ⟨sameBody, sameRest⟩ := append_inj_of_mark clean clean'
            (flatten_eq_nil_or_mark later) (flatten_eq_nil_or_mark later') (List.cons.inj equal).2
          rw [sameBody, ih later later' sameRest]

/-- If two lists have the same values in some order, the items of the second can be
put into the order of the first. -/
theorem exists_perm_of_map_perm {value : β → α} {first second : List β}
    (perm : (first.map value).Perm (second.map value)) :
    ∃ second', second'.Perm second ∧
      List.Forall₂ (fun item item' => value item = value item') first second' := by
  induction first generalizing second with
  | nil =>
      rw [List.map_nil, List.nil_perm, List.map_eq_nil_iff] at perm
      exact ⟨[], by rw [perm], .nil⟩
  | cons item rest ih =>
      have mem : value item ∈ second.map value :=
        perm.subset (List.mem_map_of_mem List.mem_cons_self)
      obtain ⟨item', mem', same⟩ := List.mem_map.mp mem
      obtain ⟨before, after, rfl⟩ := List.append_of_mem mem'
      have others : (rest.map value).Perm ((before ++ after).map value) := by
        rw [← List.perm_cons (value item)]
        apply perm.trans
        rw [← same, ← List.map_cons]
        exact List.perm_middle.map value
      obtain ⟨rest', perm', each⟩ := ih others
      exact ⟨item' :: rest', (perm'.cons item').trans List.perm_middle.symm, .cons same.symm each⟩

/-! ## Depth sequences -/

section Walks

variable (symbol : ℕ → α)

mutual

/-- The depths of the nodes in the order of a walk. -/
def walk (depth : ℕ) : Rose → List α
  | .node children => symbol depth :: walks (depth + 1) children

/-- The walks of some trees, one after the other. -/
def walks (depth : ℕ) : List Rose → List α
  | [] => []
  | tree :: rest => walk depth tree ++ walks depth rest

end

mutual

theorem length_walk : ∀ (tree : Rose) (depth : ℕ), (walk symbol depth tree).length = tree.size
  | .node children, depth => by
      rw [walk, List.length_cons, length_walks children, Rose.size]

theorem length_walks : ∀ (trees : List Rose) (depth : ℕ),
    (walks symbol depth trees).length = Rose.sizes trees
  | [], _ => rfl
  | tree :: rest, depth => by
      rw [walks, List.length_append, length_walk tree, length_walks rest, Rose.sizes]

end

mutual

theorem exists_of_mem_walk : ∀ (tree : Rose) {depth : ℕ} {entry : α},
    entry ∈ walk symbol depth tree →
    ∃ level, depth ≤ level ∧ level ≤ depth + tree.height ∧ entry = symbol level
  | .node children, depth, entry, mem => by
      rw [walk] at mem
      cases mem with
      | head => exact ⟨depth, le_rfl, Nat.le_add_right _ _, rfl⟩
      | tail _ later => exact exists_of_mem_walks children later

theorem exists_of_mem_walks : ∀ (trees : List Rose) {depth : ℕ} {entry : α},
    entry ∈ walks symbol (depth + 1) trees →
    ∃ level, depth ≤ level ∧ level ≤ depth + Rose.heights trees ∧ entry = symbol level
  | [], _, _, mem => absurd mem List.not_mem_nil
  | tree :: rest, depth, entry, mem => by
      rw [walks] at mem
      rw [Rose.heights]
      rcases List.mem_append.mp mem with first | later
      · obtain ⟨level, above, below, equal⟩ := exists_of_mem_walk tree first
        exact ⟨level, by omega, by omega, equal⟩
      · obtain ⟨level, above, below, equal⟩ := exists_of_mem_walks rest later
        exact ⟨level, above, by omega, equal⟩

end

variable (cmp : List α → List α → Int)

mutual

/-- The depths of the nodes, with the children in the order of what is written of
them. -/
def leftHeavy (depth : ℕ) : Rose → List α
  | .node children => symbol depth ::
      ((leftHeavies (depth + 1) children).insertionSort fun first second =>
        cmp first second ≤ 0).flatten

/-- What is written of each of some trees. -/
def leftHeavies (depth : ℕ) : List Rose → List (List α)
  | [] => []
  | tree :: rest => leftHeavy depth tree :: leftHeavies depth rest

end

theorem leftHeavies_eq_map (depth : ℕ) (trees : List Rose) :
    leftHeavies symbol cmp depth trees = trees.map (leftHeavy symbol cmp depth) := by
  induction trees with
  | nil => rfl
  | cons tree rest ih => rw [leftHeavies, ih, List.map_cons]

theorem leftHeavy_node (depth : ℕ) (children : List Rose) :
    leftHeavy symbol cmp depth (.node children) = symbol depth ::
      ((children.map (leftHeavy symbol cmp (depth + 1))).insertionSort fun first second =>
        cmp first second ≤ 0).flatten := by
  rw [leftHeavy, leftHeavies_eq_map]

variable {symbol cmp}

theorem length_leftHeavy (tree : Rose) (depth : ℕ) :
    (leftHeavy symbol cmp depth tree).length = tree.size := by
  induction tree generalizing depth with
  | node children ih =>
      have lengths : (children.map (leftHeavy symbol cmp (depth + 1))).map List.length =
          children.map Rose.size := by
        rw [List.map_map]
        exact List.map_congr_left fun child mem => ih child mem (depth + 1)
      rw [leftHeavy_node, List.length_cons, List.length_flatten,
        ((List.perm_insertionSort _ _).map List.length).sum_eq, lengths, Rose.size,
        Rose.sizes_eq_sum]

/-- A depth sequence holds depths from that of the root to that of a deepest node. -/
theorem exists_of_mem_leftHeavy (tree : Rose) {depth : ℕ} {entry : α}
    (mem : entry ∈ leftHeavy symbol cmp depth tree) :
    ∃ level, depth ≤ level ∧ level ≤ depth + tree.height ∧ entry = symbol level := by
  induction tree generalizing depth with
  | node children ih =>
      rw [leftHeavy_node] at mem
      cases mem with
      | head => exact ⟨depth, le_rfl, Nat.le_add_right _ _, rfl⟩
      | tail _ later =>
          obtain ⟨block, blockMem, entryMem⟩ := List.mem_flatten.mp later
          obtain ⟨child, childMem, rfl⟩ :=
            List.mem_map.mp ((List.mem_insertionSort _).mp blockMem)
          obtain ⟨level, above, below, equal⟩ := ih child childMem entryMem
          have higher := Rose.height_lt_of_mem childMem
          exact ⟨level, by omega, by omega, equal⟩

/-- Depths up to a limit can be told apart, and so can the sequences of them. -/
structure Legible (symbol : ℕ → α) (cmp : List α → List α → Int) (limit : ℕ) : Prop where
  injective : ∀ m ≤ limit, ∀ n ≤ limit, symbol m = symbol n → m = n
  order : TotalPreorder cmp
  zero : ∀ first second : List α, (∀ entry ∈ first, ∃ level ≤ limit, entry = symbol level) →
    (∀ entry ∈ second, ∃ level ≤ limit, entry = symbol level) → cmp first second = 0 →
    first = second

/-- A depth sequence starts with the depth of the root and holds it nowhere else. -/
theorem Legible.marked {limit depth : ℕ} (legible : Legible symbol cmp limit) (tree : Rose)
    (low : depth + tree.height ≤ limit) :
    Marked (symbol depth) (leftHeavy symbol cmp depth tree) := by
  cases tree with
  | node children =>
      refine ⟨_, leftHeavy_node _ _ _ _, ?_⟩
      intro mem
      obtain ⟨block, blockMem, entryMem⟩ := List.mem_flatten.mp mem
      obtain ⟨child, childMem, rfl⟩ := List.mem_map.mp ((List.mem_insertionSort _).mp blockMem)
      obtain ⟨level, above, below, equal⟩ := exists_of_mem_leftHeavy child entryMem
      have higher := Rose.height_lt_of_mem childMem
      have same := legible.injective depth (by omega) level (by omega) equal
      omega

/-- What is written of two trees is equal if the comparison finds no difference. -/
theorem Legible.eq_of_zero {limit depth : ℕ} (legible : Legible symbol cmp limit)
    {first second : Rose} (low : depth + first.height ≤ limit)
    (low' : depth + second.height ≤ limit)
    (zero : cmp (leftHeavy symbol cmp depth first) (leftHeavy symbol cmp depth second) = 0) :
    leftHeavy symbol cmp depth first = leftHeavy symbol cmp depth second := by
  apply legible.zero _ _ _ _ zero
  · intro entry mem
    obtain ⟨level, _, below, equal⟩ := exists_of_mem_leftHeavy first mem
    exact ⟨level, below.trans low, equal⟩
  · intro entry mem
    obtain ⟨level, _, below, equal⟩ := exists_of_mem_leftHeavy second mem
    exact ⟨level, below.trans low', equal⟩

/-- The order that the children are visited in does not depend on theirs. -/
theorem insertionSort_eq_of_perm (order : TotalPreorder cmp) {blocks blocks' : List (List α)}
    (zero : ∀ first ∈ blocks, ∀ second ∈ blocks', cmp first second = 0 → first = second)
    (perm : blocks.Perm blocks') :
    blocks.insertionSort (fun first second => cmp first second ≤ 0) =
      blocks'.insertionSort fun first second => cmp first second ≤ 0 := by
  have total : Std.Total fun first second => cmp first second ≤ 0 := by
    constructor
    intro first second
    have swapped := order.swap second first
    omega
  have transitive : IsTrans (List α) fun first second => cmp first second ≤ 0 :=
    ⟨fun _ _ _ left right => order.trans left right⟩
  apply List.Perm.eq_of_pairwise _ (List.pairwise_insertionSort _ _)
    (List.pairwise_insertionSort _ _)
  · exact (List.perm_insertionSort _ _).trans (perm.trans (List.perm_insertionSort _ _).symm)
  · intro first second firstMem secondMem left right
    apply zero first ((List.mem_insertionSort _).mp firstMem) second
      ((List.mem_insertionSort _).mp secondMem)
    have swapped := order.swap first second
    omega

/-- Trees that differ in the order of children only are written alike. -/
theorem Legible.leftHeavy_eq {limit depth : ℕ} (legible : Legible symbol cmp limit)
    {first second : Rose} (reordered : Rose.Reordered first second)
    (low : depth + first.height ≤ limit) :
    leftHeavy symbol cmp depth first = leftHeavy symbol cmp depth second := by
  induction reordered generalizing depth with
  | refl tree => rfl
  | @children first second perm =>
      rw [leftHeavy_node, leftHeavy_node]
      congr 2
      apply insertionSort_eq_of_perm legible.order _ (perm.map _)
      rintro _ firstMem _ secondMem
      obtain ⟨child, childMem, rfl⟩ := List.mem_map.mp firstMem
      obtain ⟨child', childMem', rfl⟩ := List.mem_map.mp secondMem
      have lower := Rose.height_lt_of_mem childMem
      have lower' := Rose.height_lt_of_mem (perm.mem_iff.mpr childMem')
      exact legible.eq_of_zero (by omega) (by omega)
  | @child first second before after _ ih =>
      have mem : first ∈ before ++ first :: after := List.mem_append_cons_self
      have lower := Rose.height_lt_of_mem mem
      have same := @ih (depth + 1) (by omega)
      rw [leftHeavy_node, leftHeavy_node]
      simp only [List.map_append, List.map_cons, same]
  | trans reordered _ ih ih' => exact (ih low).trans (ih' (reordered.height_eq ▸ low))

/-- Trees that are written alike differ in the order of children only. -/
theorem Legible.reordered {limit : ℕ} (legible : Legible symbol cmp limit) (first : Rose) :
    ∀ {second : Rose} {depth : ℕ}, depth + first.height ≤ limit →
      depth + second.height ≤ limit →
      leftHeavy symbol cmp depth first = leftHeavy symbol cmp depth second →
      Rose.Reordered first second := by
  induction first with
  | node children ih =>
      rintro ⟨children'⟩ depth low low' equal
      have marked : ∀ (trees : List Rose), depth + (Rose.node trees).height ≤ limit →
          ∀ block ∈ (trees.map (leftHeavy symbol cmp (depth + 1))).insertionSort
            (fun first second => cmp first second ≤ 0), Marked (symbol (depth + 1)) block := by
        intro trees bounded block mem
        obtain ⟨child, childMem, rfl⟩ := List.mem_map.mp ((List.mem_insertionSort _).mp mem)
        have lower := Rose.height_lt_of_mem childMem
        exact legible.marked child (by omega)
      rw [leftHeavy_node, leftHeavy_node] at equal
      have sorted := flatten_inj_of_marked (marked children low) (marked children' low')
        (List.cons.inj equal).2
      have perm : (children.map (leftHeavy symbol cmp (depth + 1))).Perm
          (children'.map (leftHeavy symbol cmp (depth + 1))) := by
        have sorts := List.perm_insertionSort fun first second : List α => cmp first second ≤ 0
        exact (sorts _).symm.trans (sorted ▸ sorts _)
      obtain ⟨children'', perm', each⟩ := exists_perm_of_map_perm perm
      apply Rose.Reordered.trans _ (Rose.Reordered.children perm')
      apply Rose.Reordered.of_forall₂ _ []
      apply List.forall₂_iff_get.mpr
      obtain ⟨length, same⟩ := List.forall₂_iff_get.mp each
      refine ⟨length, fun i inside inside' => ?_⟩
      have lower := Rose.height_lt_of_mem (List.get_mem children ⟨i, inside⟩)
      have lower' := Rose.height_lt_of_mem
        (perm'.mem_iff.mp (List.get_mem children'' ⟨i, inside'⟩))
      exact ih _ (List.get_mem children ⟨i, inside⟩) (by omega) (by omega) (same i inside inside')

/-- Two trees are written alike exactly if they differ in the order of children only. -/
theorem Legible.leftHeavy_eq_iff {limit depth : ℕ} (legible : Legible symbol cmp limit)
    {first second : Rose} (low : depth + first.height ≤ limit)
    (low' : depth + second.height ≤ limit) :
    leftHeavy symbol cmp depth first = leftHeavy symbol cmp depth second ↔
      Rose.Reordered first second :=
  ⟨legible.reordered first low low', fun reordered => legible.leftHeavy_eq reordered low⟩

end Walks

end OfxPrimes.Forest
