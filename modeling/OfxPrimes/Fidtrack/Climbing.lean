import OfxPrimes.Fidtrack.RegionGraph

/-!
# Climbing from the leaves

A region that the search visits gets the size and the height of the tree that hangs
from it.  Between two visits the visited regions are the stripped part of the region
graph, and every region knows how many children it has been given.
-/

namespace OfxPrimes.Fidtrack

open Forest

/-! ## Counts in a `short` -/

theorem toShort_add_toShort (a b : ℤ) : toShort (toShort a + toShort b) = toShort (a + b) := by
  simp only [toShort, Int.bmod_add_bmod, Int.add_bmod_bmod]

mutual

/-- What `depth` becomes at the root of a tree. -/
def shortHeight : Rose → ℤ
  | .node children => shortHeights 0 children

/-- What `depth` becomes after some children. -/
def shortHeights (depth : ℤ) : List Rose → ℤ
  | [] => depth
  | child :: rest => shortHeights (toShort (max depth (shortHeight child + 1))) rest

end

mutual

theorem shortHeight_eq : ∀ tree : Rose, tree.height < 2 ^ 15 → shortHeight tree = tree.height
  | .node children, low => by
      have heights := shortHeights_eq children 0 (Nat.zero_lt_succ _) low
      rw [Nat.zero_max, Nat.cast_zero] at heights
      rw [shortHeight, heights, Rose.height]

theorem shortHeights_eq : ∀ (trees : List Rose) (depth : ℕ), depth < 2 ^ 15 →
    Rose.heights trees < 2 ^ 15 →
    shortHeights depth trees = ((max depth (Rose.heights trees) : ℕ) : ℤ)
  | [], depth, _, _ => by
      rw [shortHeights, Rose.heights, Nat.max_zero]
  | tree :: rest, depth, lowDepth, low => by
      rw [Rose.heights] at low
      have lowTree : tree.height < 2 ^ 15 := by omega
      have next : toShort (max (depth : ℤ) (shortHeight tree + 1)) =
          ((max depth (tree.height + 1) : ℕ) : ℤ) := by
        rw [shortHeight_eq tree lowTree]
        rw [toShort_eq_self]
        · omega
        · omega
        · omega
      rw [shortHeights, next, shortHeights_eq rest _ (by omega) (by omega), Rose.heights]
      congr 1
      omega

end

/-- The loop over the list of a region adds up the sizes of its trees. -/
theorem foldl_size (trees : List Rose) (count : ℤ) :
    trees.foldl (fun count tree => toShort (count + toShort (toShort (tree.size - 1) + 1)))
      (toShort count) = toShort (count + Rose.sizes trees) := by
  induction trees generalizing count with
  | nil => simp [Rose.sizes]
  | cons tree rest ih =>
      have one : toShort (toShort ((tree.size : ℤ) - 1) + 1) = toShort tree.size := by
        simp only [toShort, Int.bmod_add_bmod]
        congr 1
        omega
      rw [List.foldl_cons, one, toShort_add_toShort, ih, Rose.sizes]
      congr 1
      omega

theorem foldl_depth (trees : List Rose) (depth : ℤ) :
    trees.foldl (fun depth tree => toShort (max depth (shortHeight tree + 1))) depth =
      shortHeights depth trees := by
  induction trees generalizing depth with
  | nil => rfl
  | cons tree rest ih => rw [List.foldl_cons, ih, shortHeights]

/-! ## The loop over a list -/

/-- The loop goes through if at most one region of the list has not been visited. -/
theorem gather_run (s : Segmenter) (r : ℕ) (list : List ℕ) (gathered : Gathered)
    (mutual' : ∀ a ∈ list, r ∈ (s.regions a).adjacentRegions)
    (few : gathered.parent.toList.length +
      (list.filter fun a => (s.regions a).level ≠ .traversed).length ≤ 1) :
    Transition.run (gather s r) gathered list = some
      { descendentCount := (list.filter fun a => (s.regions a).level = .traversed).foldl
          (fun count a => toShort (count + toShort ((s.regions a).descendentCount + 1)))
          gathered.descendentCount
        depth := (list.filter fun a => (s.regions a).level = .traversed).foldl
          (fun depth a => toShort (max depth ((s.regions a).depth + 1))) gathered.depth
        parent := gathered.parent.or
          (list.filter fun a => (s.regions a).level ≠ .traversed).head? } := by
  induction list generalizing gathered with
  | nil => simp
  | cons a rest ih =>
      have contains : r1AdjacentContainsR2 s a r = true :=
        List.contains_iff_mem.mpr (mutual' a List.mem_cons_self)
      have later := fun b mem => mutual' b (List.mem_cons_of_mem a mem)
      rw [Transition.run_cons]
      by_cases isTraversed : (s.regions a).level = .traversed
      · rw [List.filter_cons_of_neg (by simpa using isTraversed)] at few
        rw [List.filter_cons_of_pos (by simpa using isTraversed),
          List.filter_cons_of_neg (by simpa using isTraversed)]
        simp only [gather, contains, guard_eq_some, if_pos isTraversed, Option.bind_eq_bind,
          Option.bind_some]
        exact ih _ later few
      · rw [List.filter_cons_of_pos (by simpa using isTraversed), List.length_cons] at few
        rw [List.filter_cons_of_neg (by simpa using isTraversed),
          List.filter_cons_of_pos (by simpa using isTraversed)]
        cases isParent : gathered.parent with
        | some p =>
            rw [isParent, Option.toList_some, List.length_singleton] at few
            omega
        | none =>
            simp only [gather, contains, guard_eq_some, if_neg isTraversed, isParent,
              Option.bind_eq_bind, Option.bind_some]
            rw [ih _ later]
            · simp
            · simp only [Option.toList_some, List.length_singleton]
              omega

/-! ## What the search leaves alone -/

/-- A region without what the search fills in. -/
def Region.unvisited (region : Region) : Region :=
  { region with
    level := .notTraversed
    depth := 0
    childrenVisitedCount := 0
    descendentCount := 0
    flags.lostSymbol := false }

/-- The segmenter without what the search fills in. -/
def Segmenter.plan (s : Segmenter) : Segmenter :=
  { s with regions := fun a => (s.regions a).unvisited }

section Plan

variable {s s' : Segmenter}

theorem plan_modifyRegion (s : Segmenter) (r : ℕ) {change : Region → Region}
    (same : ∀ region, (change region).unvisited = region.unvisited) :
    (s.modifyRegion r change).plan = s.plan := by
  have regions : (s.modifyRegion r change).plan.regions = s.plan.regions := by
    funext a
    change ((s.modifyRegion r change).regions a).unvisited = (s.regions a).unvisited
    rw [Segmenter.regions_modifyRegion]
    split
    · exact same _
    · rfl
  exact congrArg (fun regions => { s with regions := regions }) regions

theorem unvisited_eq (same : s'.plan = s.plan) (a : ℕ) :
    (s'.regions a).unvisited = (s.regions a).unvisited :=
  congrFun (congrArg Segmenter.regions same) a

theorem plan_regionCount (same : s'.plan = s.plan) : s'.regionCount = s.regionCount := by
  have equal := congrArg Segmenter.regionCount same
  exact equal

theorem plan_adjacentRegions (same : s'.plan = s.plan) (a : ℕ) :
    (s'.regions a).adjacentRegions = (s.regions a).adjacentRegions := by
  have equal := congrArg Region.adjacentRegions (unvisited_eq same a)
  exact equal

theorem plan_saturated (same : s'.plan = s.plan) (a : ℕ) :
    (s'.regions a).flags.saturated = (s.regions a).flags.saturated := by
  have equal := congrArg (fun region => region.flags.saturated) (unvisited_eq same a)
  exact equal

theorem plan_fragmented (same : s'.plan = s.plan) (a : ℕ) :
    (s'.regions a).flags.fragmented = (s.regions a).flags.fragmented := by
  have equal := congrArg (fun region => region.flags.fragmented) (unvisited_eq same a)
  exact equal

theorem plan_adjacentToRoot (same : s'.plan = s.plan) (a : ℕ) :
    (s'.regions a).flags.adjacentToRoot = (s.regions a).flags.adjacentToRoot := by
  have equal := congrArg (fun region => region.flags.adjacentToRoot) (unvisited_eq same a)
  exact equal

theorem plan_free (same : s'.plan = s.plan) (a : ℕ) :
    (s'.regions a).flags.free = (s.regions a).flags.free := by
  have equal := congrArg (fun region => region.flags.free) (unvisited_eq same a)
  exact equal

end Plan

namespace Search

variable (search : Search) (r a : ℕ)

/-- The region has been visited. -/
def Visited (search : Search) (a : ℕ) : Prop :=
  a < search.segmenter.regionCount ∧ (search.region a).level = .traversed

instance decidableVisited (search : Search) : DecidablePred search.Visited :=
  fun _ => instDecidableAnd

theorem region_modify (change : Region → Region) :
    (search.modify r change).region a =
      if a = r then change (search.region a) else search.region a :=
  Segmenter.regions_modifyRegion search.segmenter r a change

theorem region_modify_of_ne {a r : ℕ} (differ : a ≠ r) (change : Region → Region) :
    (search.modify r change).region a = search.region a := by
  rw [region_modify, if_neg differ]

theorem region_modify_self (change : Region → Region) :
    (search.modify r change).region r = change (search.region r) := by
  rw [region_modify, if_pos rfl]

end Search

namespace FidtrackerX

/-- The search goes on above a tree of this size and height. -/
def Small (ft : FidtrackerX) (descendentCount depth : ℤ) : Prop :=
  descendentCount < ft.maxTargetRootDescendentCount ∧ depth < ft.maxDepth

/-- The search stops at a tree of this size and height. -/
def Exact (ft : FidtrackerX) (descendentCount depth : ℤ) : Prop :=
  descendentCount = ft.maxTargetRootDescendentCount ∧ depth ≥ ft.minDepth ∧ depth ≤ ft.maxDepth

/-- A tree of this size and height may be a marker's. -/
def Qualified (ft : FidtrackerX) (descendentCount depth : ℤ) : Prop :=
  ft.Exact descendentCount depth ∨
    (descendentCount ≥ ft.minTargetRootDescendentCount ∧
      descendentCount < ft.maxTargetRootDescendentCount ∧
      depth ≥ ft.minDepth ∧ depth ≤ ft.maxDepth)

end FidtrackerX

/-! ## The invariant -/

/-- The search between two visits.  The region that `busy` holds of is the one that
the search is at. -/
structure Climbed (s : Segmenter) (ft : FidtrackerX) (busy : ℕ → Prop) (search : Search)
    (parent : ℕ → Option ℕ) (tree : ℕ → Rose) : Prop where
  plan : search.segmenter.plan = s.plan
  tracker : search.tracker = { ft with rootRegions := search.tracker.rootRegions }
  level : ∀ a < s.regionCount,
    (search.region a).level = .notTraversed ∨ (search.region a).level = .traversed
  stripped : Stripped s.graph s.Clear search.Visited parent tree
  count : ∀ a < s.regionCount,
    (search.region a).childrenVisitedCount = (kids s.graph parent a).length
  ends : ∀ a, search.Visited a → (others s.graph parent a = [] ∧ s.Bordered a) ∨
    (s.Clear a ∧ ∃ up, others s.graph parent a = [up])
  descendentCount : ∀ a, search.Visited a →
    (search.region a).descendentCount = toShort ((tree a).size - 1)
  depth : ∀ a, search.Visited a → (search.region a).depth = shortHeight (tree a)
  nodup : search.tracker.rootRegions.Nodup
  roots : ∀ a ∈ search.tracker.rootRegions, search.Visited a
  qualified : ∀ a, (a ∈ search.tracker.rootRegions ∧ (search.region a).flags.lostSymbol = false) ↔
    search.Visited a ∧ ft.Qualified (search.region a).descendentCount (search.region a).depth
  lost : ∀ a < s.regionCount, ¬ search.Visited a → (search.region a).flags.lostSymbol = false
  stuck : ∀ a < s.regionCount, ¬ search.Visited a → ¬ busy a →
    0 < (search.region a).childrenVisitedCount → climbs (search.region a) = true →
    ∃ kid ∈ kids s.graph parent a,
      ¬ ft.Small (search.region kid).descendentCount (search.region kid).depth
  credited : ∀ a up, search.Visited a → ¬ busy a → s.Clear a → others s.graph parent a = [up] →
    parent a = some up ∨ ft.Exact (search.region a).descendentCount (search.region a).depth
  linked : ∀ a, search.Visited a → s.graph a ≠ []
  uncounted : ∀ a < s.regionCount, ¬ search.Visited a →
    (search.region a).descendentCount = 0x7FFF

/-- The search may visit the region: all its neighbours but one are its children, or
all where it may have others. -/
structure Ready (s : Segmenter) (search : Search) (parent : ℕ → Option ℕ) (r : ℕ) : Prop where
  inside : r < s.regionCount
  fresh : ¬ search.Visited r
  ends : (others s.graph parent r = [] ∧ s.Bordered r) ∨
    (s.Clear r ∧ ∃ up, others s.graph parent r = [up])
  linked : s.graph r ≠ []

section Climbed

variable {s : Segmenter} {ft : FidtrackerX} {busy : ℕ → Prop} {search search' : Search}
  {parent : ℕ → Option ℕ} {tree : ℕ → Rose} {r p a : ℕ}

theorem Climbed.regionCount (climbed : Climbed s ft busy search parent tree) :
    search.segmenter.regionCount = s.regionCount :=
  plan_regionCount climbed.plan

theorem Climbed.graph_eq (climbed : Climbed s ft busy search parent tree)
    (inside : a < s.regionCount) : (search.region a).adjacentRegions = s.graph a := by
  rw [Segmenter.graph_of_lt inside]
  exact plan_adjacentRegions climbed.plan a

/-- The neighbour that is left has not been visited. -/
theorem Climbed.not_visited_up (climbed : Climbed s ft busy search parent tree)
    (segmented : Segmented s) (free : parent r ≠ some p) (isClear : s.Clear r)
    (only : others s.graph parent r = [p]) : ¬ search.Visited p := by
  intro visited
  have mem : p ∈ s.graph r := (mem_others_iff.mp (only ▸ List.mem_singleton_self p)).1
  have other : r ∈ others s.graph parent p :=
    mem_others_iff.mpr ⟨segmented.mem_symm mem, free⟩
  rcases climbed.ends p visited with ⟨none, _⟩ | ⟨clearP, up, onlyP⟩
  · rw [none] at other
    exact List.not_mem_nil other
  · rw [onlyP, List.mem_singleton] at other
    exact climbed.stripped.not_facing segmented.anchored isClear clearP only (other ▸ onlyP)

/-- Of the neighbours of a region that is ready, the children are those visited. -/
theorem Climbed.visited_iff (climbed : Climbed s ft busy search parent tree)
    (segmented : Segmented s) (ready : Ready s search parent r) (mem : a ∈ s.graph r) :
    (search.region a).level = .traversed ↔ parent a = some r := by
  have inside : a < search.segmenter.regionCount := by
    rw [climbed.regionCount]
    exact segmented.closed mem
  constructor
  · intro isTraversed
    by_contra notKid
    have other : a ∈ others s.graph parent r := mem_others_iff.mpr ⟨mem, notKid⟩
    rcases ready.ends with ⟨none, _⟩ | ⟨isClear, up, only⟩
    · rw [none] at other
      exact List.not_mem_nil other
    · rw [only, List.mem_singleton] at other
      subst other
      have free : parent r ≠ some a :=
        fun isParent => ready.fresh (climbed.stripped.credited r a isParent).1
      exact climbed.not_visited_up segmented free isClear only ⟨inside, isTraversed⟩
  · exact fun isParent => (climbed.stripped.credited a r isParent).1.2

theorem Climbed.not_mem_graph (climbed : Climbed s ft busy search parent tree)
    (segmented : Segmented s) (ready : Ready s search parent r) : r ∉ s.graph r := by
  intro mem
  have free : ∀ up, parent r ≠ some up :=
    fun up isParent => ready.fresh (climbed.stripped.credited r up isParent).1
  have other : r ∈ others s.graph parent r := mem_others_iff.mpr ⟨mem, free r⟩
  rcases ready.ends with ⟨none, _⟩ | ⟨isClear, up, only⟩
  · rw [none] at other
    exact List.not_mem_nil other
  · rw [only, List.mem_singleton] at other
    subst other
    exact climbed.stripped.not_facing segmented.anchored isClear isClear only only

/-- The tree that hangs from a region that is ready. -/
def treeAt (s : Segmenter) (parent : ℕ → Option ℕ) (tree : ℕ → Rose) (r : ℕ) : Rose :=
  .node ((kids s.graph parent r).map tree)

/-- The search once a region is filled in. -/
def filled (search : Search) (r : ℕ) (tree : Rose) : Search :=
  search.modify r fun region => { region with
    descendentCount := toShort (tree.size - 1)
    depth := shortHeight tree
    level := .traversed }

theorem fillIn_spec (climbed : Climbed s ft busy search parent tree) (segmented : Segmented s)
    (ready : Ready s search parent r) :
    fillIn search r =
      some (filled search r (treeAt s parent tree r), (others s.graph parent r).head?) := by
  have list := climbed.graph_eq ready.inside
  have lengths : (s.graph r).length =
      (others s.graph parent r).length + (kids s.graph parent r).length := by
    rw [← (others_append_kids_perm s.graph parent r).length_eq, List.length_append]
  have few : (others s.graph parent r).length ≤ 1 := by
    rcases ready.ends with ⟨none, _⟩ | ⟨_, up, only⟩
    · rw [none]
      exact Nat.zero_le 1
    · rw [only]
      exact le_rfl
  have isNotTraversed : (search.region r).level = .notTraversed :=
    (climbed.level r ready.inside).resolve_right fun isTraversed =>
      ready.fresh ⟨climbed.regionCount ▸ ready.inside, isTraversed⟩
  have counted : (search.region r).childrenVisitedCount = ((s.graph r).length : ℤ) - 1 ∨
      (search.region r).childrenVisitedCount = (s.graph r).length := by
    rw [climbed.count r ready.inside, lengths]
    omega
  -- the loop reads the region graph with `r` marked `TRAVERSING`
  obtain ⟨marked, isMarked⟩ : ∃ marked : Segmenter, marked =
      (search.modify r fun region => { region with level := .traversing }).segmenter := ⟨_, rfl⟩
  have unmarked : ∀ a ∈ s.graph r, marked.regions a = search.region a := by
    intro a mem
    rw [isMarked]
    apply Search.region_modify_of_ne
    exact fun same => climbed.not_mem_graph segmented ready (same ▸ mem)
  have visitedKids : ((s.graph r).filter fun a => (marked.regions a).level = .traversed) =
      kids s.graph parent r := by
    apply List.filter_congr
    intro a mem
    rw [unmarked a mem]
    exact decide_eq_decide.mpr (climbed.visited_iff segmented ready mem)
  have unvisitedOthers : ((s.graph r).filter fun a => (marked.regions a).level ≠ .traversed) =
      others s.graph parent r := by
    apply List.filter_congr
    intro a mem
    rw [unmarked a mem]
    exact decide_eq_decide.mpr (not_congr (climbed.visited_iff segmented ready mem))
  have counts : (kids s.graph parent r).foldl (fun count a =>
      toShort (count + toShort ((marked.regions a).descendentCount + 1))) 0 =
      toShort ((treeAt s parent tree r).size - 1) := by
    calc
      _ = (kids s.graph parent r).foldl (fun count a =>
          toShort (count + toShort (toShort ((tree a).size - 1) + 1))) 0 := by
        apply List.foldl_ext
        intro count a mem
        obtain ⟨inGraph, isParent⟩ := mem_kids_iff.mp mem
        have visited := (climbed.stripped.credited a r isParent).1
        rw [unmarked a inGraph, climbed.descendentCount a visited]
      _ = toShort (0 + Rose.sizes ((kids s.graph parent r).map tree)) := by
        rw [← foldl_size, List.foldl_map]
        rfl
      _ = toShort ((treeAt s parent tree r).size - 1) := by
        rw [treeAt, Rose.size]
        congr 1
        omega
  have depths : (kids s.graph parent r).foldl (fun depth a =>
      toShort (max depth ((marked.regions a).depth + 1))) 0 =
      shortHeight (treeAt s parent tree r) := by
    rw [treeAt, shortHeight, ← foldl_depth, List.foldl_map]
    apply List.foldl_ext
    intro depth a mem
    obtain ⟨inGraph, isParent⟩ := mem_kids_iff.mp mem
    rw [unmarked a inGraph, climbed.depth a (climbed.stripped.credited a r isParent).1]
  have ran := gather_run marked r (s.graph r) ⟨0, 0, none⟩
    (fun a mem => by
      rw [unmarked a mem, climbed.graph_eq (segmented.closed mem)]
      exact segmented.mem_symm mem)
    (by
      rw [unvisitedOthers, Option.toList_none, List.length_nil, Nat.zero_add]
      exact few)
  rw [visitedKids, unvisitedOthers, counts, depths, Option.none_or] at ran
  simp only [fillIn, isNotTraversed, guard_eq_some counted, list, ← isMarked, ran, guard_eq_some,
    Option.bind_eq_bind, Option.bind_some, filled]

/-! ## A region is visited -/

/-- A region has been filled in, and linked if its tree qualifies. -/
structure Settles (ft : FidtrackerX) (search search' : Search) (r : ℕ) (hung : Rose) : Prop where
  plan : search'.segmenter.plan = search.segmenter.plan
  tracker : search'.tracker = { search.tracker with rootRegions := search'.tracker.rootRegions }
  others : ∀ a, a ≠ r → search'.region a = search.region a
  level : (search'.region r).level = .traversed
  descendentCount : (search'.region r).descendentCount = toShort (hung.size - 1)
  depth : (search'.region r).depth = shortHeight hung
  childrenVisitedCount :
    (search'.region r).childrenVisitedCount = (search.region r).childrenVisitedCount
  roots : search'.tracker.rootRegions = search.tracker.rootRegions ∨
    search'.tracker.rootRegions = search.tracker.rootRegions ++ [r]
  qualified : (r ∈ search'.tracker.rootRegions ∧ (search'.region r).flags.lostSymbol = false) ↔
    ft.Qualified (toShort (hung.size - 1)) (shortHeight hung)

theorem region_filled (search : Search) (r : ℕ) (hung : Rose) :
    (filled search r hung).region r = { search.region r with
      descendentCount := toShort (hung.size - 1)
      depth := shortHeight hung
      level := .traversed } :=
  Search.region_modify_self _ _ _

theorem region_filled_of_ne (search : Search) (hung : Rose) (differ : a ≠ r) :
    (filled search r hung).region a = search.region a :=
  Search.region_modify_of_ne search differ _

theorem plan_filled (search : Search) (r : ℕ) (hung : Rose) :
    (filled search r hung).segmenter.plan = search.segmenter.plan :=
  plan_modifyRegion _ _ fun _ => rfl

theorem settles_link (search : Search) (r : ℕ) (hung : Rose)
    (notLost : (search.region r).flags.lostSymbol = false)
    (qualified : ft.Qualified (toShort (hung.size - 1)) (shortHeight hung)) :
    Settles ft search ((filled search r hung).link r) r hung := by
  have region : ((filled search r hung).link r).region r = _ := region_filled search r hung
  constructor
  · exact plan_filled search r hung
  · rfl
  · exact fun a differ => region_filled_of_ne search hung differ
  · rw [region]
  · rw [region]
  · rw [region]
  · rw [region]
  · exact Or.inr rfl
  · rw [region]
    exact ⟨fun _ => qualified, fun _ =>
      ⟨List.mem_append_right _ (List.mem_singleton_self r), notLost⟩⟩

/-- A tree that only almost qualifies is linked as a lost one. -/
theorem settles_lost (hung : Rose)
    (notQualified : ¬ ft.Qualified (toShort (hung.size - 1)) (shortHeight hung)) :
    Settles ft search (((filled search r hung).modify r Region.markLost).link r) r hung := by
  have region : (((filled search r hung).modify r Region.markLost).link r).region r =
      Region.markLost ((filled search r hung).region r) :=
    Search.region_modify_self (filled search r hung) r Region.markLost
  have markLost : ∀ region : Region, region.markLost.unvisited = region.unvisited := fun _ => rfl
  rw [region_filled] at region
  constructor
  · exact (plan_modifyRegion _ r markLost).trans (plan_filled search r hung)
  · rfl
  · intro a differ
    exact (Search.region_modify_of_ne _ differ _).trans (region_filled_of_ne search hung differ)
  · rw [region]
    rfl
  · rw [region]
    rfl
  · rw [region]
    rfl
  · rw [region]
    rfl
  · exact Or.inr rfl
  · rw [region]
    exact ⟨fun lost => absurd lost.2.symm Bool.false_ne_true, fun qualified =>
      absurd qualified notQualified⟩

theorem settles_filled (hung : Rose) (notRoot : r ∉ search.tracker.rootRegions)
    (notQualified : ¬ ft.Qualified (toShort (hung.size - 1)) (shortHeight hung)) :
    Settles ft search (filled search r hung) r hung := by
  have region := region_filled search r hung
  constructor
  · exact plan_filled search r hung
  · rfl
  · exact fun a differ => region_filled_of_ne search hung differ
  · rw [region]
  · rw [region]
  · rw [region]
  · rw [region]
  · exact Or.inl rfl
  · exact ⟨fun root => absurd root.1 notRoot, fun qualified => absurd qualified notQualified⟩

theorem settles_collect (search : Search) (r : ℕ) (hung : Rose)
    (notLost : (search.region r).flags.lostSymbol = false)
    (notRoot : r ∉ search.tracker.rootRegions)
    (tracker : search.tracker = { ft with rootRegions := search.tracker.rootRegions })
    (notExact : ¬ ft.Exact (toShort (hung.size - 1)) (shortHeight hung)) :
    Settles ft search (collect (filled search r hung) r) r hung := by
  have minCount := congrArg FidtrackerX.minTargetRootDescendentCount tracker
  have maxCount := congrArg FidtrackerX.maxTargetRootDescendentCount tracker
  have minDepth := congrArg FidtrackerX.minDepth tracker
  have maxDepth := congrArg FidtrackerX.maxDepth tracker
  have same : (filled search r hung).tracker = search.tracker := rfl
  simp only [collect, region_filled, same, minCount, maxCount, minDepth, maxDepth]
  by_cases fits : toShort (hung.size - 1) ≥ ft.minTargetRootDescendentCount ∧
      toShort (hung.size - 1) < ft.maxTargetRootDescendentCount ∧
      shortHeight hung ≥ ft.minDepth ∧ shortHeight hung ≤ ft.maxDepth
  · rw [if_pos fits]
    exact settles_link search r hung notLost (Or.inr fits)
  · have notQualified : ¬ ft.Qualified (toShort (hung.size - 1)) (shortHeight hung) := by
      rintro (isExact | isFit)
      · exact notExact isExact
      · exact fits isFit
    rw [if_neg fits]
    split
    · exact settles_lost hung notQualified
    · exact settles_filled hung notRoot notQualified

theorem Settles.visited_iff {hung : Rose} (settles : Settles ft search search' r hung)
    (inside : r < search.segmenter.regionCount) :
    search'.Visited a ↔ search.Visited a ∨ a = r := by
  rw [Search.Visited, Search.Visited, plan_regionCount settles.plan]
  by_cases same : a = r
  · subst same
    simp only [inside, settles.level, and_self, or_true]
  · rw [settles.others a same, or_iff_left same]

theorem Climbed.settle (climbed : Climbed s ft busy search parent tree)
    (ready : Ready s search parent r) (atMost : ∀ a, busy a → a = r)
    (settles : Settles ft search search' r (treeAt s parent tree r)) :
    Climbed s ft (· = r) search' parent (Function.update tree r (treeAt s parent tree r)) := by
  have visitedIff : ∀ a, search'.Visited a ↔ search.Visited a ∨ a = r :=
    fun a => settles.visited_iff (climbed.regionCount ▸ ready.inside)
  have old : ∀ a, search.Visited a → a ≠ r := fun a visited same => ready.fresh (same ▸ visited)
  have notRoot : r ∉ search.tracker.rootRegions := fun mem => ready.fresh (climbed.roots r mem)
  have memRoots : ∀ a, a ≠ r →
      (a ∈ search'.tracker.rootRegions ↔ a ∈ search.tracker.rootRegions) := by
    intro a differ
    rcases settles.roots with same | more
    · rw [same]
    · rw [more, List.mem_append, List.mem_singleton, or_iff_left differ]
  constructor
  · exact settles.plan.trans climbed.plan
  · rw [settles.tracker]
    exact congrArg (fun tracker : FidtrackerX =>
      { tracker with rootRegions := search'.tracker.rootRegions }) climbed.tracker
  · intro a inside
    by_cases same : a = r
    · exact Or.inr (same ▸ settles.level)
    · rw [settles.others a same]
      exact climbed.level a inside
  · have same : search'.Visited = fun a => search.Visited a ∨ a = r :=
      funext fun a => propext (visitedIff a)
    rw [same]
    exact climbed.stripped.visit ready.fresh
  · intro a inside
    by_cases same : a = r
    · rw [same, settles.childrenVisitedCount]
      exact climbed.count r ready.inside
    · rw [settles.others a same]
      exact climbed.count a inside
  · intro a visited
    rcases (visitedIff a).mp visited with isOld | rfl
    · exact climbed.ends a isOld
    · exact ready.ends
  · intro a visited
    rcases (visitedIff a).mp visited with isOld | rfl
    · rw [settles.others a (old a isOld), Function.update_of_ne (old a isOld)]
      exact climbed.descendentCount a isOld
    · rw [Function.update_self]
      exact settles.descendentCount
  · intro a visited
    rcases (visitedIff a).mp visited with isOld | rfl
    · rw [settles.others a (old a isOld), Function.update_of_ne (old a isOld)]
      exact climbed.depth a isOld
    · rw [Function.update_self]
      exact settles.depth
  · rcases settles.roots with same | more
    · rw [same]
      exact climbed.nodup
    · rw [more, ← List.concat_eq_append]
      exact climbed.nodup.concat notRoot
  · intro a mem
    rw [visitedIff]
    by_cases same : a = r
    · exact Or.inr same
    · exact Or.inl (climbed.roots a ((memRoots a same).mp mem))
  · intro a
    by_cases same : a = r
    · subst same
      rw [settles.qualified, settles.descendentCount, settles.depth]
      exact (and_iff_right ((visitedIff a).mpr (Or.inr rfl))).symm
    · rw [memRoots a same, settles.others a same, visitedIff, or_iff_left same]
      exact climbed.qualified a
  · intro a inside notVisited
    have differ : a ≠ r := fun same => notVisited ((visitedIff a).mpr (Or.inr same))
    rw [settles.others a differ]
    exact climbed.lost a inside fun visited => notVisited ((visitedIff a).mpr (Or.inl visited))
  · intro a inside notVisited notBusy
    rw [settles.others a notBusy]
    intro some isReady
    obtain ⟨kid, mem, notSmall⟩ := climbed.stuck a inside
      (fun visited => notVisited ((visitedIff a).mpr (Or.inl visited)))
      (fun isBusy => notBusy (atMost a isBusy)) some isReady
    have kidOld : kid ≠ r :=
      fun same => climbed.stripped.not_mem_kids ready.fresh a (same ▸ mem)
    refine ⟨kid, mem, ?_⟩
    rw [settles.others kid kidOld]
    exact notSmall
  · intro a up visited notBusy isClear only
    have isOld := ((visitedIff a).mp visited).resolve_right notBusy
    rw [settles.others a notBusy]
    exact climbed.credited a up isOld (fun isBusy => notBusy (atMost a isBusy)) isClear only
  · intro a visited
    rcases (visitedIff a).mp visited with isOld | rfl
    · exact climbed.linked a isOld
    · exact ready.linked
  · intro a inside notVisited
    have differ : a ≠ r := fun same => notVisited ((visitedIff a).mpr (Or.inr same))
    rw [settles.others a differ]
    exact climbed.uncounted a inside fun visited => notVisited ((visitedIff a).mpr (Or.inl visited))

/-! ## A region becomes a child -/

/-- The search leaves a region whose tree is exact or that may have other neighbours. -/
theorem Climbed.leave (climbed : Climbed s ft (· = r) search parent tree)
    (visited : search.Visited r)
    (done : ∀ up, s.Clear r → others s.graph parent r = [up] →
      ft.Exact (search.region r).descendentCount (search.region r).depth) :
    Climbed s ft (fun _ => False) search parent tree :=
  { climbed with
    stuck := fun a inside notVisited _ =>
      climbed.stuck a inside notVisited fun same => notVisited (same ▸ visited)
    credited := fun a up visitedA _ isClear only => by
      by_cases same : a = r
      · subst same
        exact Or.inr (done up isClear only)
      · exact climbed.credited a up visitedA same isClear only }

theorem Climbed.credit (climbed : Climbed s ft (· = r) search parent tree)
    (segmented : Segmented s) (visited : search.Visited r) (free : parent r = none)
    (isClear : s.Clear r) (only : others s.graph parent r = [p]) (fresh : ¬ search.Visited p) :
    Climbed s ft (· = p) (search.modify p Region.countChild)
      (Function.update parent r (some p)) tree := by
  have inGraph : p ∈ s.graph r := (mem_others_iff.mp (only ▸ List.mem_singleton_self p)).1
  have regionSame : ∀ a, a ≠ p → (search.modify p Region.countChild).region a = search.region a :=
    fun a differ => Search.region_modify_of_ne search differ _
  have regionUp : (search.modify p Region.countChild).region p =
      Region.countChild (search.region p) := Search.region_modify_self search p _
  have levelSame : ∀ a, ((search.modify p Region.countChild).region a).level =
      (search.region a).level := by
    intro a
    by_cases same : a = p
    · rw [same, regionUp]
      rfl
    · rw [regionSame a same]
  have visitedSame : (search.modify p Region.countChild).Visited = search.Visited := by
    funext a
    rw [Search.Visited, levelSame]
    rfl
  have differ : ∀ a, search.Visited a → a ≠ p := fun a isVisited same => fresh (same ▸ isVisited)
  have freeUp : parent p ≠ some r :=
    fun isParent => fresh (climbed.stripped.credited p r isParent).1
  have countChild : ∀ region : Region, region.countChild.unvisited = region.unvisited :=
    fun _ => rfl
  constructor
  · exact (plan_modifyRegion _ p countChild).trans climbed.plan
  · exact climbed.tracker
  · intro a inside
    rw [levelSame]
    exact climbed.level a inside
  · rw [visitedSame]
    exact climbed.stripped.credit visited isClear free only fresh
  · intro a inside
    by_cases same : a = p
    · subst same
      rw [regionUp, length_kids_update segmented.symmetric free freeUp only, Nat.cast_succ,
        ← climbed.count a inside]
      rfl
    · rw [regionSame a same, (kids_update free same).1]
      exact climbed.count a inside
  · intro a isVisited
    rw [visitedSame] at isVisited
    rw [(kids_update free (differ a isVisited)).2]
    exact climbed.ends a isVisited
  · intro a isVisited
    rw [visitedSame] at isVisited
    rw [regionSame a (differ a isVisited)]
    exact climbed.descendentCount a isVisited
  · intro a isVisited
    rw [visitedSame] at isVisited
    rw [regionSame a (differ a isVisited)]
    exact climbed.depth a isVisited
  · exact climbed.nodup
  · rw [visitedSame]
    exact climbed.roots
  · intro a
    rw [visitedSame]
    by_cases same : a = p
    · subst same
      have notRoot : a ∉ search.tracker.rootRegions := fun mem => fresh (climbed.roots a mem)
      exact ⟨fun root => absurd root.1 notRoot, fun isVisited => absurd isVisited.1 fresh⟩
    · rw [regionSame a same]
      exact climbed.qualified a
  · intro a inside notVisited
    rw [visitedSame] at notVisited
    by_cases same : a = p
    · rw [same, regionUp]
      exact climbed.lost p (same ▸ inside) fresh
    · rw [regionSame a same]
      exact climbed.lost a inside notVisited
  · intro a inside notVisited notBusy
    rw [visitedSame] at notVisited
    rw [regionSame a notBusy, (kids_update free notBusy).1]
    intro some isReady
    obtain ⟨kid, mem, notSmall⟩ := climbed.stuck a inside notVisited
      (fun same => notVisited (same ▸ visited)) some isReady
    refine ⟨kid, mem, ?_⟩
    rw [regionSame kid fun same => climbed.stripped.not_mem_kids fresh a (same ▸ mem)]
    exact notSmall
  · intro a up isVisited notBusy clearA
    rw [visitedSame] at isVisited
    rw [regionSame a notBusy, (kids_update free notBusy).2]
    intro onlyA
    by_cases same : a = r
    · subst same
      rw [only, List.singleton_inj] at onlyA
      rw [Function.update_self, onlyA]
      exact Or.inl rfl
    · rw [Function.update_of_ne same]
      exact climbed.credited a up isVisited same clearA onlyA
  · rw [visitedSame]
    exact climbed.linked
  · intro a inside notVisited
    rw [visitedSame] at notVisited
    by_cases same : a = p
    · rw [same, regionUp]
      exact climbed.uncounted p (same ▸ inside) fresh
    · rw [regionSame a same]
      exact climbed.uncounted a inside notVisited

/-- The search leaves a parent that it does not visit. -/
theorem Climbed.stop (climbed : Climbed s ft (· = p) search parent tree)
    (fresh : ¬ search.Visited p)
    (notSmall : climbs (search.region p) = true → ∃ kid ∈ kids s.graph parent p,
      ¬ ft.Small (search.region kid).descendentCount (search.region kid).depth) :
    Climbed s ft (fun _ => False) search parent tree :=
  { climbed with
    stuck := fun a inside notVisited _ some isReady => by
      by_cases same : a = p
      · subst same
        exact notSmall isReady
      · exact climbed.stuck a inside notVisited same some isReady
    credited := fun a up visitedA _ =>
      climbed.credited a up visitedA fun same => fresh (same ▸ visitedA) }

end Climbed

end OfxPrimes.Fidtrack
