import OfxPrimes.Fidtrack.Climbing
import Mathlib.Data.Finset.Card

/-!
# The roots of the trees

On the regions of an image the search comes to an end and breaks no assertion.  It
visits a region once at most, and leaves none whose children are all as they should
be.
-/

namespace OfxPrimes.Fidtrack

open Forest

variable {s : Segmenter} {ft : FidtrackerX} {busy : ℕ → Prop} {search search' : Search}
  {parent : ℕ → Option ℕ} {tree : ℕ → Rose} {r p a : ℕ}

/-! ## Which regions are ready -/

theorem Climbed.lengths (climbed : Climbed s ft busy search parent tree)
    (inside : a < s.regionCount) :
    (search.region a).adjacentRegions.length =
      (others s.graph parent a).length + (kids s.graph parent a).length := by
  rw [climbed.graph_eq inside, ← (others_append_kids_perm s.graph parent a).length_eq,
    List.length_append]

/-- The search goes on to a region that is ready. -/
theorem Climbed.ready (climbed : Climbed s ft busy search parent tree) (segmented : Segmented s)
    (inside : p < s.regionCount) (fresh : ¬ search.Visited p)
    (some : 0 < (search.region p).childrenVisitedCount)
    (isReady : climbs (search.region p) = true) : Ready s search parent p := by
  have linked : s.graph p ≠ [] := by
    intro none
    rw [climbed.count p inside, kids, none] at some
    exact absurd some (lt_irrefl 0)
  have lengths := climbed.lengths inside
  have count := climbed.count p inside
  have saturated := plan_saturated climbed.plan p
  have adjacentToRoot := plan_adjacentToRoot climbed.plan p
  have fragmented := plan_fragmented climbed.plan p
  rw [climbs, Bool.and_eq_true, Bool.or_eq_true, Bool.and_eq_true, Bool.and_eq_true] at isReady
  obtain ⟨notSaturated, whole⟩ := isReady
  refine ⟨inside, fresh, ?_, linked⟩
  rcases whole with ⟨notBordered, all⟩ | ⟨bordered, all⟩
  · right
    have one : (others s.graph parent p).length = 1 := by
      rw [beq_iff_eq] at all
      omega
    obtain ⟨up, only⟩ := List.length_eq_one_iff.mp one
    have mem : up ∈ s.graph p := (mem_others_iff.mp (only ▸ List.mem_singleton_self up)).1
    rw [Bool.not_eq_true', Bool.or_eq_false_iff] at notBordered
    rw [Bool.not_eq_true'] at notSaturated
    refine ⟨⟨inside, ?_, ?_, ?_, segmented.alive p up mem⟩, up, only⟩
    · exact saturated.symm.trans notSaturated
    · exact fragmented.symm.trans notBordered.2
    · exact adjacentToRoot.symm.trans notBordered.1
  · left
    have zero : (others s.graph parent p).length = 0 := by
      rw [beq_iff_eq] at all
      omega
    refine ⟨List.length_eq_zero_iff.mp zero, ?_⟩
    rw [Bool.or_eq_true] at bordered
    exact bordered.imp adjacentToRoot.symm.trans fragmented.symm.trans

/-- A region is a leaf from the start on. -/
theorem Climbed.isStart_iff (climbed : Climbed s ft busy search parent tree) (a : ℕ) :
    isStart (search.region a) = isStart (s.regions a) := by
  simp only [isStart, Search.region, plan_adjacentRegions climbed.plan,
    plan_saturated climbed.plan, plan_fragmented climbed.plan, plan_adjacentToRoot climbed.plan,
    plan_free climbed.plan]

theorem clear_of_isStart (inside : a < s.regionCount) (start : isStart (s.regions a) = true) :
    s.Clear a := by
  simp only [isStart, Bool.and_eq_true, Bool.not_eq_true', Bool.or_eq_false_iff] at start
  obtain ⟨_, ⟨⟨saturated, fragmented⟩, adjacentToRoot⟩, free⟩ := start
  exact ⟨inside, saturated, fragmented, adjacentToRoot, free⟩

theorem length_of_isStart (start : isStart (s.regions a) = true) :
    (s.regions a).adjacentRegions.length = 1 := by
  simp only [isStart, Bool.and_eq_true, beq_iff_eq] at start
  exact start.1

/-- A leaf is not visited from below. -/
theorem Climbed.not_isStart (climbed : Climbed s ft busy search parent tree)
    (inside : p < s.regionCount) (isReady : climbs (search.region p) = true)
    (some : 0 < (search.region p).childrenVisitedCount) : isStart (s.regions p) = false := by
  by_contra isLeaf
  rw [Bool.not_eq_false] at isLeaf
  have isClear := clear_of_isStart inside isLeaf
  have one := length_of_isStart isLeaf
  have length := congrArg List.length (plan_adjacentRegions climbed.plan p)
  have notRoot := (plan_adjacentToRoot climbed.plan p).trans isClear.adjacentToRoot
  have notFragmented := (plan_fragmented climbed.plan p).trans isClear.fragmented
  rw [climbs, Search.region, notRoot, notFragmented, length, one] at isReady
  simp only [Bool.or_false, Bool.not_false, Bool.true_and, Bool.false_and, Bool.and_eq_true,
    beq_iff_eq] at isReady
  rw [Search.region, isReady.2] at some
  exact absurd some (by decide)

/-- No neighbour of a leaf is its child. -/
theorem Climbed.kids_of_isStart (climbed : Climbed s ft busy search parent tree)
    (segmented : Segmented s) (inside : a < s.regionCount)
    (start : isStart (s.regions a) = true) :
    kids s.graph parent a = [] ∧ ∃ up, others s.graph parent a = [up] := by
  have one := length_of_isStart start
  have lengths := climbed.lengths inside
  have length := congrArg List.length (plan_adjacentRegions climbed.plan a)
  have notNone : (others s.graph parent a).length ≠ 0 := by
    intro zero
    exact climbed.stripped.not_lonely segmented.anchored (clear_of_isStart inside start)
      (List.length_eq_zero_iff.mp zero)
  rw [Search.region, length, one] at lengths
  constructor
  · apply List.length_eq_zero_iff.mp
    omega
  · apply List.length_eq_one_iff.mp
    omega

/-! ## Climbing -/

/-- The regions that are left to visit. -/
def unvisited (s : Segmenter) (search : Search) : Finset ℕ :=
  (Finset.range s.regionCount).filter fun a => ¬ search.Visited a

theorem mem_unvisited_iff : a ∈ unvisited s search ↔ a < s.regionCount ∧ ¬ search.Visited a := by
  rw [unvisited, Finset.mem_filter, Finset.mem_range]

/-- One region fewer is left once it is visited. -/
theorem card_unvisited_lt (inside : r < s.regionCount) (fresh : ¬ search.Visited r)
    (visited : search'.Visited r) (kept : ∀ a, search.Visited a → search'.Visited a) :
    (unvisited s search').card < (unvisited s search).card := by
  apply Finset.card_lt_card
  rw [Finset.ssubset_iff_of_subset]
  · exact ⟨r, mem_unvisited_iff.mpr ⟨inside, fresh⟩, fun mem =>
      (mem_unvisited_iff.mp mem).2 visited⟩
  · intro a mem
    obtain ⟨insideA, notVisited⟩ := mem_unvisited_iff.mp mem
    exact mem_unvisited_iff.mpr ⟨insideA, fun isVisited => notVisited (kept a isVisited)⟩

/-- The search has gone on from `r`: what was visited is, and of the leaves that were
not only `r` may be. -/
structure Passes (s : Segmenter) (r : ℕ) (search search' : Search) : Prop where
  kept : ∀ a, search.Visited a → search'.Visited a
  visited : search'.Visited r
  leaves : ∀ a, isStart (s.regions a) = true → a ≠ r → search'.Visited a → search.Visited a

theorem Settles.passes {hung : Rose} (settles : Settles ft search search' r hung)
    (inside : r < search.segmenter.regionCount) : Passes s r search search' where
  kept _ visited := (settles.visited_iff inside).mpr (Or.inl visited)
  visited := (settles.visited_iff inside).mpr (Or.inr rfl)
  leaves _ _ differ visited := ((settles.visited_iff inside).mp visited).resolve_right differ

theorem visited_countChild (search : Search) (p : ℕ) :
    (search.modify p Region.countChild).Visited = search.Visited := by
  funext a
  rw [Search.Visited, Search.region_modify]
  split <;> rfl

/-- The climb from a region that is ready comes to an end and breaks no assertion. -/
theorem propagateUpwards_spec (segmented : Segmented s) (fuel : ℕ) :
    ∀ {search : Search} {parent : ℕ → Option ℕ} {tree : ℕ → Rose} {r : ℕ} {busy : ℕ → Prop},
      Climbed s ft busy search parent tree → (∀ a, busy a → a = r) → Ready s search parent r →
      (unvisited s search).card ≤ fuel →
      ∃ search' parent' tree', propagateUpwards fuel search r = some search' ∧
        Climbed s ft (fun _ => False) search' parent' tree' ∧ Passes s r search search' := by
  induction fuel with
  | zero =>
      intro search parent tree r busy climbed _ ready few
      have mem := mem_unvisited_iff.mpr ⟨ready.inside, ready.fresh⟩
      rw [Finset.card_eq_zero.mp (Nat.le_zero.mp few)] at mem
      exact absurd mem (Finset.notMem_empty r)
  | succ fuel ih =>
      intro search parent tree r busy climbed atMost ready few
      have insideR : r < search.segmenter.regionCount := climbed.regionCount ▸ ready.inside
      have notLost := climbed.lost r ready.inside ready.fresh
      have notRoot : r ∉ search.tracker.rootRegions := fun mem => ready.fresh (climbed.roots r mem)
      have free : parent r = none := by
        cases isParent : parent r with
        | none => rfl
        | some up => exact absurd (climbed.stripped.credited r up isParent).1 ready.fresh
      have maxCount := congrArg FidtrackerX.maxTargetRootDescendentCount climbed.tracker
      have minDepth := congrArg FidtrackerX.minDepth climbed.tracker
      have maxDepth := congrArg FidtrackerX.maxDepth climbed.tracker
      have tracker : (filled search r (treeAt s parent tree r)).tracker = search.tracker := rfl
      simp only [propagateUpwards, fillIn_spec climbed segmented ready, Option.bind_eq_bind,
        Option.bind_some, tracker, maxCount, minDepth, maxDepth, region_filled]
      by_cases isExact : ft.Exact (toShort ((treeAt s parent tree r).size - 1))
          (shortHeight (treeAt s parent tree r))
      · have settles := settles_link search r _ notLost (Or.inl isExact)
        have passes := settles.passes (s := s) insideR
        refine ⟨_, _, _, if_pos isExact, (climbed.settle ready atMost settles).leave
          passes.visited ?_, passes⟩
        intro _ _ _
        rw [settles.descendentCount, settles.depth]
        exact isExact
      · have settles := settles_collect search r _ notLost notRoot climbed.tracker isExact
        rw [FidtrackerX.Exact] at isExact
        rw [if_neg isExact]
        generalize collect (filled search r (treeAt s parent tree r)) r = after at settles ⊢
        have settled := climbed.settle ready atMost settles
        have passes := settles.passes (s := s) insideR
        rcases ready.ends with ⟨none, _⟩ | ⟨isClear, p, only⟩
        · refine ⟨_, _, _, by rw [none]; rfl, settled.leave passes.visited ?_, passes⟩
          intro up _ only
          rw [none] at only
          exact absurd only (List.cons_ne_nil _ _).symm
        · have mem := (mem_others_iff.mp (only ▸ List.mem_singleton_self p)).1
          have insideP := segmented.closed mem
          have differ : p ≠ r := fun same => climbed.not_mem_graph segmented ready (same ▸ mem)
          have freshP : ¬ after.Visited p := by
            rw [settles.visited_iff insideR]
            rintro (visited | same)
            · have freeP : parent r ≠ some p := by simp [free]
              exact climbed.not_visited_up segmented freeP isClear only visited
            · exact differ same
          have credited := settled.credit segmented passes.visited free isClear only freshP
          have visitedNext := visited_countChild after p
          have regionR : (after.modify p Region.countChild).region r = after.region r :=
            Search.region_modify_of_ne after differ.symm _
          have saturated := (plan_saturated climbed.plan r).trans isClear.saturated
          have adjacentToRoot := (plan_adjacentToRoot climbed.plan r).trans isClear.adjacentToRoot
          have isFree := (plan_free climbed.plan r).trans isClear.free
          have counted :
              0 < ((after.modify p Region.countChild).region p).childrenVisitedCount := by
            rw [credited.count p insideP]
            have isKid : r ∈ kids s.graph (Function.update parent r (some p)) p :=
              mem_kids_iff.mpr ⟨segmented.mem_symm mem, Function.update_self ..⟩
            exact_mod_cast List.length_pos_of_mem isKid
          simp only [only, List.head?_cons, Search.region, saturated, adjacentToRoot, isFree,
            Bool.or_false, Bool.false_eq_true, if_false]
          generalize after.modify p Region.countChild = next
            at credited visitedNext regionR counted ⊢
          have freshNext : ¬ next.Visited p := visitedNext ▸ freshP
          have fewer := card_unvisited_lt ready.inside ready.fresh (visitedNext ▸ passes.visited)
            (visitedNext ▸ passes.kept)
          by_cases goes : (toShort ((treeAt s parent tree r).size - 1) <
              ft.maxTargetRootDescendentCount ∧
              shortHeight (treeAt s parent tree r) < ft.maxDepth) ∧
              climbs (next.segmenter.regions p) = true
          · have contains : r1AdjacentContainsR2 next.segmenter r p = true :=
              List.contains_iff_mem.mpr ((credited.graph_eq ready.inside).symm ▸ mem)
            have contains' : r1AdjacentContainsR2 next.segmenter p r = true :=
              List.contains_iff_mem.mpr
                ((credited.graph_eq insideP).symm ▸ segmented.mem_symm mem)
            obtain ⟨search', parent', tree', ran, climbed', passes'⟩ := ih credited
              (fun _ => id) (credited.ready segmented insideP freshNext counted goes.2) (by omega)
            have notLeaf := credited.not_isStart insideP goes.2 counted
            refine ⟨search', parent', tree', ?_, climbed', ?_, ?_, ?_⟩
            · apply (if_pos goes).trans
              simp only [contains, contains', guard_eq_some, Option.bind_some, ran]
            · exact fun a visited => passes'.kept a (visitedNext ▸ passes.kept a visited)
            · exact passes'.kept r (visitedNext ▸ passes.visited)
            · intro a isLeaf differA visited
              have differP : a ≠ p := by
                rintro rfl
                rw [notLeaf] at isLeaf
                exact Bool.false_ne_true isLeaf
              have before := passes'.leaves a isLeaf differP visited
              rw [visitedNext] at before
              exact passes.leaves a isLeaf differA before
          · refine ⟨next, _, _, if_neg goes, credited.stop freshNext ?_, ?_, ?_, ?_⟩
            · intro isReady
              refine ⟨r, mem_kids_iff.mpr ⟨segmented.mem_symm mem, Function.update_self ..⟩, ?_⟩
              rw [regionR, settles.descendentCount, settles.depth]
              exact fun isSmall => goes ⟨isSmall, isReady⟩
            · rw [visitedNext]
              exact passes.kept
            · rw [visitedNext]
              exact passes.visited
            · rw [visitedNext]
              exact passes.leaves

/-! ## All leaves -/

/-- Nothing has been visited at the start. -/
theorem climbed_start (segmented : Segmented s) (noRoots : ft.rootRegions = []) :
    Climbed s ft (fun _ => False) ⟨s, ft⟩ (fun _ => none) (fun _ => .node []) := by
  have fresh : ∀ a, ¬ (⟨s, ft⟩ : Search).Visited a := by
    rintro a ⟨inside, isTraversed⟩
    have level : (s.regions a).level = .notTraversed := segmented.level a inside
    exact absurd (level.symm.trans isTraversed) (by decide)
  have noKids : ∀ a, kids s.graph (fun _ => none) a = [] := fun a => by simp [kids]
  constructor
  · rfl
  · rfl
  · exact fun a inside => Or.inl (segmented.level a inside)
  · exact ⟨fun a up isParent => by simp at isParent, fun a visited => absurd visited (fresh a)⟩
  · intro a inside
    rw [noKids]
    exact segmented.childrenVisitedCount a inside
  · exact fun a visited => absurd visited (fresh a)
  · exact fun a visited => absurd visited (fresh a)
  · exact fun a visited => absurd visited (fresh a)
  · rw [noRoots]
    exact List.nodup_nil
  · rw [noRoots]
    exact fun a mem => absurd mem List.not_mem_nil
  · intro a
    rw [noRoots]
    exact ⟨fun root => absurd root.1 List.not_mem_nil, fun root => absurd root.1 (fresh a)⟩
  · exact fun a inside _ => segmented.lostSymbol a inside
  · intro a inside _ _ some
    have none : ((⟨s, ft⟩ : Search).region a).childrenVisitedCount = 0 :=
      segmented.childrenVisitedCount a inside
    rw [none] at some
    exact absurd some (lt_irrefl 0)
  · exact fun a up visited => absurd visited (fresh a)
  · exact fun a visited => absurd visited (fresh a)
  · exact fun a inside _ => segmented.descendentCount a inside

theorem sanityCheck_of_segmented (segmented : Segmented s) :
    sanityCheckRegionInitialValues s = true := by
  rw [sanityCheckRegionInitialValues, List.all_eq_true]
  intro a mem
  have inside := List.mem_range.mp mem
  rw [segmented.level a inside, segmented.childrenVisitedCount a inside,
    segmented.descendentCount a inside]
  rfl

/-- Of the leaves those in front of `i` have been visited. -/
def ClimbedTo (s : Segmenter) (ft : FidtrackerX) (i : ℕ) (search : Search) : Prop :=
  ∃ parent tree, Climbed s ft (fun _ => False) search parent tree ∧
    ∀ a < s.regionCount, isStart (s.regions a) = true → (search.Visited a ↔ a < i)

theorem findRootsAt_spec (segmented : Segmented s) {i : ℕ} (inside : i < s.regionCount)
    (climbedTo : ClimbedTo s ft i search) :
    ∃ search', findRootsAt search i = some search' ∧ ClimbedTo s ft (i + 1) search' := by
  obtain ⟨parent, tree, climbed, leaves⟩ := climbedTo
  rw [findRootsAt, climbed.isStart_iff]
  by_cases start : isStart (s.regions i) = true
  · obtain ⟨noKids, up, only⟩ := climbed.kids_of_isStart segmented inside start
    have fresh : ¬ search.Visited i := fun visited =>
      absurd ((leaves i inside start).mp visited) (lt_irrefl i)
    have level : (search.region i).level = .notTraversed :=
      (climbed.level i inside).resolve_right fun isTraversed =>
        fresh ⟨climbed.regionCount ▸ inside, isTraversed⟩
    have count : (search.region i).childrenVisitedCount = 0 := by
      rw [climbed.count i inside, noKids]
      rfl
    have linked : s.graph i ≠ [] := by
      intro none
      rw [others, none] at only
      exact absurd only (List.cons_ne_nil _ _).symm
    have few : (unvisited s search).card ≤ search.segmenter.regionCount := by
      rw [climbed.regionCount]
      exact (Finset.card_filter_le _ _).trans (Finset.card_range _).le
    obtain ⟨search', parent', tree', ran, climbed', passes⟩ := propagateUpwards_spec segmented _
      climbed (fun _ impossible => absurd impossible id)
      ⟨inside, fresh, Or.inr ⟨clear_of_isStart inside start, up, only⟩, linked⟩ few
    refine ⟨search', ?_, parent', tree', climbed', fun a insideA startA => ?_⟩
    · simp only [if_pos start, level, count, guard_eq_some, ran, Option.bind_eq_bind,
        Option.bind_some]
    · rw [Nat.lt_succ_iff_lt_or_eq, ← leaves a insideA startA]
      constructor
      · intro visited
        by_cases same : a = i
        · exact Or.inr same
        · exact Or.inl (passes.leaves a startA same visited)
      · rintro (visited | rfl)
        · exact passes.kept a visited
        · exact passes.visited
  · refine ⟨search, if_neg start, parent, tree, climbed, fun a insideA startA => ?_⟩
    have differ : a ≠ i := fun same => start (same ▸ startA)
    rw [leaves a insideA startA]
    omega

/-- The search for the roots comes to an end and breaks no assertion. -/
theorem findRoots_spec (ft : FidtrackerX) (segmented : Segmented s)
    (noRoots : ft.rootRegions = []) :
    ∃ search parent tree, findRoots ⟨s, ft⟩ = some search ∧
      Climbed s ft (fun _ => False) search parent tree ∧
      ∀ a < s.regionCount, isStart (s.regions a) = true → search.Visited a := by
  have start : ClimbedTo s ft 0 ⟨s, ft⟩ := by
    have climbed := climbed_start segmented noRoots
    refine ⟨_, _, climbed, fun a inside _ => ?_⟩
    constructor
    · rintro ⟨_, isTraversed⟩
      have level : (s.regions a).level = .notTraversed := segmented.level a inside
      exact absurd (level.symm.trans isTraversed) (by decide)
    · exact fun impossible => absurd impossible (Nat.not_lt_zero a)
  obtain ⟨search, ran, parent, tree, climbed, leaves⟩ := Transition.exists_run_range'
    findRootsAt 0 s.regionCount (ClimbedTo s ft)
    (fun i _ below _ climbedTo => findRootsAt_spec segmented (by omega) climbedTo) start
  refine ⟨search, parent, tree, ?_, climbed, fun a inside startA => ?_⟩
  · simp only [findRoots, sanityCheck_of_segmented segmented, guard_eq_some, Option.bind_eq_bind,
      Option.bind_some, List.range_eq_range']
    exact ran
  · rw [leaves a inside startA]
    omega

/-! ## The order of the roots -/

/-- A climb lists what it finds behind the roots that are listed. -/
theorem prefix_propagateUpwards (fuel : ℕ) {search search' : Search} {r : ℕ}
    (ran : propagateUpwards fuel search r = some search') :
    search.tracker.rootRegions <+: search'.tracker.rootRegions := by
  induction fuel generalizing search r with
  | zero => exact absurd ran (Option.some_ne_none search').symm
  | succ fuel ih =>
      obtain ⟨⟨next, above⟩, filledIn, ran⟩ := Option.bind_eq_some_iff.mp ran
      have kept : next.tracker = search.tracker := by
        obtain ⟨_, _, filledIn⟩ := Option.bind_eq_some_iff.mp filledIn
        obtain ⟨_, _, filledIn⟩ := Option.bind_eq_some_iff.mp filledIn
        obtain ⟨_, _, filledIn⟩ := Option.bind_eq_some_iff.mp filledIn
        cases filledIn
        rfl
      have collected : search.tracker.rootRegions <+: (collect next r).tracker.rootRegions := by
        rw [← kept]
        dsimp only [collect]
        split
        · exact List.prefix_append _ _
        · split
          · exact List.prefix_append _ _
          · exact List.prefix_rfl
      dsimp only at ran
      split at ran
      · cases ran
        rw [← kept]
        exact List.prefix_append _ _
      · split at ran
        · cases ran
          exact collected
        · split at ran
          · cases ran
            exact collected
          · split at ran
            · obtain ⟨_, _, ran⟩ := Option.bind_eq_some_iff.mp ran
              obtain ⟨_, _, ran⟩ := Option.bind_eq_some_iff.mp ran
              have onward := ih ran
              exact collected.trans onward
            · cases ran
              exact collected

theorem prefix_findRootsAt {search search' : Search} {i : ℕ}
    (ran : findRootsAt search i = some search') :
    search.tracker.rootRegions <+: search'.tracker.rootRegions := by
  rw [findRootsAt] at ran
  split at ran
  · obtain ⟨_, _, ran⟩ := Option.bind_eq_some_iff.mp ran
    obtain ⟨_, _, ran⟩ := Option.bind_eq_some_iff.mp ran
    exact prefix_propagateUpwards _ ran
  · cases ran
    exact List.prefix_rfl

/-- Some roots are listed in the order in which they are found: those that are found
from the first regions come first. -/
def ListedAsFound (search : Search) (roots : List ℕ) : Prop :=
  ∀ n ≤ search.segmenter.regionCount, ∃ partway,
    Transition.run findRootsAt search (List.range n) = some partway ∧
      partway.tracker.rootRegions <+: roots

theorem listedAsFound_of_findRoots (found : findRoots search = some search') :
    ListedAsFound search search'.tracker.rootRegions := by
  obtain ⟨_, _, ran⟩ := Option.bind_eq_some_iff.mp found
  intro n inside
  have parts : List.range search.segmenter.regionCount =
      List.range n ++ (List.range search.segmenter.regionCount).drop n := by
    have front : (List.range search.segmenter.regionCount).take n = List.range n := by
      rw [List.take_range, min_eq_left inside]
    rw [← front, List.take_append_drop]
  rw [parts, Transition.run_append] at ran
  obtain ⟨partway, first, later⟩ := Option.bind_eq_some_iff.mp ran
  refine ⟨partway, first, ?_⟩
  exact Transition.run_invariant_of_forall_mem (fun _ => True)
    (fun after : Search => partway.tracker.rootRegions <+: after.tracker.rootRegions)
    (fun _ _ _ listed _ stepped => listed.trans (prefix_findRootsAt stepped)) List.prefix_rfl
    (fun _ _ => trivial) later

/-! ## What the search has found -/

/-- The tree of a region: those of its neighbours hang from it, all but one of them
or, if the region may have others, all. -/
inductive Crowned (s : Segmenter) (r : ℕ) : Rose → Prop
  | inner {up : ℕ} {hung : Rose} (hangs : Hangs s.graph s.Clear up r hung) : Crowned s r hung
  | bordered {hung : ℕ → Rose} (isBordered : s.Bordered r) (linked : s.graph r ≠ [])
      (each : ∀ child ∈ s.graph r, Hangs s.graph s.Clear r child (hung child)) :
      Crowned s r (.node ((s.graph r).map hung))

/-- A visited region has the tree that the search gives it. -/
theorem Climbed.crowned (climbed : Climbed s ft busy search parent tree)
    (visited : search.Visited r) : Crowned s r (tree r) := by
  have kidsHang : ∀ kid ∈ kids s.graph parent r, Hangs s.graph s.Clear r kid (tree kid) :=
    fun kid mem => climbed.stripped.hangs (mem_kids_iff.mp mem).2
  rw [climbed.stripped.tree_eq r visited]
  rcases climbed.ends r visited with ⟨none, isBordered⟩ | ⟨isClear, up, only⟩
  · have all : kids s.graph parent r = s.graph r := by
      apply List.filter_eq_self.mpr
      intro a mem
      by_contra notKid
      rw [decide_eq_true_eq] at notKid
      exact List.not_mem_nil (none ▸ mem_others_iff.mpr ⟨mem, notKid⟩)
    rw [all] at kidsHang ⊢
    exact .bordered isBordered (climbed.linked r visited) kidsHang
  · have perm := others_append_kids_perm s.graph parent r
    rw [only, List.singleton_append] at perm
    exact .inner (.intro isClear perm.symm kidsHang)

theorem Climbed.size_le (climbed : Climbed s ft busy search parent tree) (segmented : Segmented s)
    (visited : search.Visited r) : (tree r).size ≤ s.regionCount := by
  have inside : ∀ a, search.Visited a → a ∈ Finset.range s.regionCount := fun a visitedA =>
    Finset.mem_range.mpr (climbed.regionCount ▸ visitedA.1)
  have bound := climbed.stripped.size_le_card segmented.anchored segmented.symmetric inside visited
  rwa [Finset.card_range] at bound

/-- If there are not too many regions, no count is too large for a `short`. -/
theorem Climbed.counts (climbed : Climbed s ft busy search parent tree) (segmented : Segmented s)
    (few : s.regionCount ≤ 2 ^ 15) (visited : search.Visited r) :
    (search.region r).descendentCount = (tree r).size - 1 ∧
      (search.region r).depth = (tree r).height := by
  have low := (climbed.size_le segmented visited).trans few
  have lower := (tree r).height_lt_size
  constructor
  · rw [climbed.descendentCount r visited]
    apply toShort_eq_self <;> omega
  · rw [climbed.depth r visited]
    exact shortHeight_eq _ (lower.trans_le low)

/-- The search goes on above a tree. -/
def Modest (ft : FidtrackerX) (hung : Rose) : Prop :=
  ft.Small (hung.size - 1) hung.height

theorem Modest.congr {first second : Rose} (reordered : Rose.Reordered first second)
    (modest : Modest ft first) : Modest ft second := by
  rw [Modest, ← reordered.size_eq, ← reordered.height_eq]
  exact modest

theorem modest_of_mem {children : List Rose} {child : Rose} (mem : child ∈ children)
    (size : (((Rose.node children).size : ℤ) - 1) ≤ ft.maxTargetRootDescendentCount)
    (height : ((Rose.node children).height : ℤ) ≤ ft.maxDepth) : Modest ft child := by
  have smaller := Rose.size_lt_of_mem mem
  have lower := Rose.height_lt_of_mem mem
  constructor <;> omega

theorem FidtrackerX.Qualified.le {descendentCount depth : ℤ}
    (qualified : ft.Qualified descendentCount depth) :
    descendentCount ≤ ft.maxTargetRootDescendentCount ∧ depth ≤ ft.maxDepth := by
  rcases qualified with ⟨exact, _, low⟩ | ⟨_, smaller, _, low⟩
  · exact ⟨exact.le, low⟩
  · exact ⟨smaller.le, low⟩

section Done

variable (segmented : Segmented s) (few : s.regionCount ≤ 2 ^ 15)
  (climbed : Climbed s ft (fun _ => False) search parent tree)
  (leaves : ∀ a < s.regionCount, isStart (s.regions a) = true → search.Visited a)
include segmented few climbed

/-- A region whose children are all modest is visited once the last of them is. -/
theorem Climbed.visited_of_kids (inside : r < s.regionCount)
    (modest : ∀ kid ∈ kids s.graph parent r, Modest ft (tree kid))
    (some : kids s.graph parent r ≠ []) (isReady : climbs (search.region r) = true) :
    search.Visited r := by
  by_contra fresh
  have counted : 0 < (search.region r).childrenVisitedCount := by
    rw [climbed.count r inside]
    exact_mod_cast List.length_pos_of_ne_nil some
  obtain ⟨kid, mem, notSmall⟩ := climbed.stuck r inside fresh id counted isReady
  have visitedKid := (climbed.stripped.credited kid r (mem_kids_iff.mp mem).2).1
  obtain ⟨size, height⟩ := climbed.counts segmented few visitedKid
  rw [size, height] at notSmall
  exact notSmall (modest kid mem)

include leaves

/-- Modest trees that hang from a region are found. -/
theorem Climbed.found {up : ℕ} {hung : Rose} (hangs : Hangs s.graph s.Clear up r hung)
    (below : ∀ child ∈ hung.children, Modest ft child) :
    others s.graph parent r = [up] ∧ search.Visited r ∧ Rose.Reordered hung (tree r) := by
  have isClear := hangs.isClear
  apply climbed.stripped.found segmented.anchored (fun _ _ => Modest.congr) _ _ _ hangs below
  · intro children modest child mem
    exact modest_of_mem mem modest.1.le modest.2.le
  · intro node above clearNode only modest
    have list := climbed.graph_eq clearNode.inside
    have lengths := climbed.lengths clearNode.inside
    rw [only, List.length_singleton] at lengths
    by_cases noKids : kids s.graph parent node = []
    · apply leaves node clearNode.inside
      rw [noKids, List.length_nil, list, Segmenter.graph_of_lt clearNode.inside] at lengths
      simp only [isStart, lengths, clearNode.saturated, clearNode.fragmented,
        clearNode.adjacentToRoot, clearNode.free, Bool.or_false, Bool.not_false, Nat.add_zero,
        BEq.rfl, Bool.and_self]
    · apply climbed.visited_of_kids segmented few clearNode.inside
        (fun kid mem => (modest kid mem).2) noKids
      have saturated := (plan_saturated climbed.plan node).trans clearNode.saturated
      have adjacentToRoot := (plan_adjacentToRoot climbed.plan node).trans clearNode.adjacentToRoot
      have fragmented := (plan_fragmented climbed.plan node).trans clearNode.fragmented
      have count : (search.region node).childrenVisitedCount =
          ((search.region node).adjacentRegions.length : ℤ) - 1 := by
        rw [climbed.count node clearNode.inside]
        omega
      rw [climbs, count]
      simp only [Search.region, saturated, adjacentToRoot, fragmented, Bool.or_false,
        Bool.not_false, Bool.true_and, BEq.rfl, Bool.false_and]
  · intro node above visited clearNode only modest
    obtain ⟨size, height⟩ := climbed.counts segmented few visited
    rcases climbed.credited node above visited id clearNode only with isParent | isExact
    · exact isParent
    · rw [size, height] at isExact
      exact absurd isExact.1 modest.1.ne

/-- The trees that may be a marker's are found. -/
theorem Climbed.found_of_crowned {hung : Rose} (crowned : Crowned s r hung)
    (size : (hung.size : ℤ) - 1 ≤ ft.maxTargetRootDescendentCount)
    (height : (hung.height : ℤ) ≤ ft.maxDepth) :
    search.Visited r ∧ Rose.Reordered hung (tree r) := by
  cases crowned with
  | inner hangs =>
      apply (climbed.found segmented few leaves hangs _).2
      intro child mem
      cases hung with
      | node children => exact modest_of_mem mem size height
  | @bordered hung isBordered linked each =>
      have modest : ∀ child ∈ s.graph r, Modest ft (hung child) := fun child mem =>
        modest_of_mem (List.mem_map_of_mem mem) size height
      have kidOf : ∀ child ∈ s.graph r,
          parent child = some r ∧ Rose.Reordered (hung child) (tree child) := by
        intro child mem
        obtain ⟨only, visited, reordered⟩ := climbed.found segmented few leaves (each child mem)
          (fun grandchild grandMem => by
            have isModest := modest child mem
            cases isHung : hung child with
            | node grandchildren =>
                rw [isHung] at isModest grandMem
                exact modest_of_mem grandMem isModest.1.le isModest.2.le)
        obtain ⟨sizeEq, heightEq⟩ := climbed.counts segmented few visited
        have isModest := (modest child mem).congr reordered
        refine ⟨?_, reordered⟩
        rcases climbed.credited child r visited id (each child mem).isClear only with
          isParent | isExact
        · exact isParent
        · rw [sizeEq, heightEq] at isExact
          exact absurd isExact.1 isModest.1.ne
      have all : kids s.graph parent r = s.graph r :=
        List.filter_eq_self.mpr fun child mem => by simpa using (kidOf child mem).1
      have inside : r < s.regionCount := by
        obtain ⟨child, mem⟩ := List.exists_mem_of_ne_nil _ linked
        exact Segmenter.lt_of_mem_graph mem
      have notSaturated : (s.regions r).flags.saturated = false := by
        rw [← Bool.not_eq_true]
        exact fun saturated => linked (segmented.saturated r saturated)
      have visited : search.Visited r := by
        apply climbed.visited_of_kids segmented few inside _ (all ▸ linked)
        · have saturated := (plan_saturated climbed.plan r).trans notSaturated
          have edge : ((search.region r).flags.adjacentToRoot ||
              (search.region r).flags.fragmented) = true := by
            rw [Search.region, plan_adjacentToRoot climbed.plan, plan_fragmented climbed.plan,
              Bool.or_eq_true]
            exact isBordered
          have count : (search.region r).childrenVisitedCount =
              (search.region r).adjacentRegions.length := by
            rw [climbed.count r inside, all, climbed.graph_eq inside]
          rw [climbs, count, edge]
          simp only [Search.region, saturated, Bool.not_false, Bool.not_true, Bool.true_and,
            BEq.rfl, Bool.false_and, Bool.false_or]
        · intro kid mem
          rw [all] at mem
          exact (modest kid mem).congr (kidOf kid mem).2
      refine ⟨visited, ?_⟩
      rw [climbed.stripped.tree_eq r visited, all]
      apply Rose.Reordered.of_forall₂ _ []
      rw [List.forall₂_map_left_iff, List.forall₂_map_right_iff, List.forall₂_same]
      exact fun child mem => (kidOf child mem).2

end Done

/-! ## Results -/

/-- Whatever the image, the search for the roots comes to an end and breaks no
assertion.  It collects a region once at most, and a region that it collects has a
tree, whose measures it knows but for the overflow of a `short`. -/
theorem findRoots_safe (s : Segmenter) (frame : Frame s.width s.height) (ft : FidtrackerX) :
    ∃ s' search, stepSegmenter s frame.source = some s' ∧
      findRoots ⟨s', { ft with rootRegions := [] }⟩ = some search ∧
      search.tracker.rootRegions.Nodup ∧
      ∀ r ∈ search.tracker.rootRegions, ∃ hung, Crowned s' r hung ∧
        (search.region r).descendentCount = toShort (hung.size - 1) ∧
        (search.region r).depth = shortHeight hung := by
  obtain ⟨s', label, ran, finished⟩ := buildRegions_spec s frame
  obtain ⟨search, parent, tree, found, climbed, _⟩ :=
    findRoots_spec { ft with rootRegions := [] } (segmented_of_finished finished) rfl
  refine ⟨s', search, ran, found, climbed.nodup, fun r mem => ?_⟩
  have visited := climbed.roots r mem
  exact ⟨tree r, climbed.crowned visited, climbed.descendentCount r visited,
    climbed.depth r visited⟩

/-- The regions that are collected, and are not marked as lost, are those that have a
tree of the right size and height. -/
theorem findRoots_iff {s s' : Segmenter} {frame : Frame s.width s.height} (ft : FidtrackerX)
    (ran : stepSegmenter s frame.source = some s') (few : s'.regionCount ≤ 2 ^ 15) :
    ∃ search, findRoots ⟨s', { ft with rootRegions := [] }⟩ = some search ∧
      ∀ r, (r ∈ search.tracker.rootRegions ∧ (search.region r).flags.lostSymbol = false) ↔
        ∃ hung, Crowned s' r hung ∧ ft.Qualified (hung.size - 1) hung.height := by
  obtain ⟨label, finished⟩ := surveyed_of_stepSegmenter ran
  have segmented := segmented_of_finished finished
  obtain ⟨search, parent, tree, found, climbed, leaves⟩ :=
    findRoots_spec { ft with rootRegions := [] } segmented rfl
  refine ⟨search, found, fun r => (climbed.qualified r).trans ?_⟩
  constructor
  · rintro ⟨visited, qualified⟩
    obtain ⟨size, height⟩ := climbed.counts segmented few visited
    rw [size, height] at qualified
    exact ⟨tree r, climbed.crowned visited, qualified⟩
  · rintro ⟨hung, crowned, qualified⟩
    obtain ⟨visited, reordered⟩ := climbed.found_of_crowned segmented few leaves crowned
      (FidtrackerX.Qualified.le qualified).1 (FidtrackerX.Qualified.le qualified).2
    obtain ⟨size, height⟩ := climbed.counts segmented few visited
    refine ⟨visited, ?_⟩
    rw [size, height, ← reordered.size_eq, ← reordered.height_eq]
    exact qualified

/-- Buffers that hold zeros. -/
def blankSegmenter : Segmenter where
  width := 0
  height := 0
  maxAdjacentRegions := 0
  regions _ := ⟨0, 0, 0, 0, 0, 0, .noRegionFlag, .notTraversed, 0, 0, 0, none, []⟩
  regionCount := 0
  freedRegions := []
  regionRefs _ := ⟨none, 0⟩
  regionRefCount := 0

/-- A white ring on black, with black in it. -/
def ring : Frame 5 5 where
  source :=
    [0, 0, 0, 0, 0,
     0, 255, 255, 255, 0,
     0, 255, 0, 255, 0,
     0, 255, 255, 255, 0,
     0, 0, 0, 0, 0]
  length_eq := rfl
  binary := by simp
  width_pos := by decide
  height_pos := by decide
  width_lt := by omega
  height_lt := by omega

/-- The map of one marker, a white region with a black one in it. -/
def ringMap : TreeIdMap :=
  ⟨[([119, 48, 49], 0)], 2, 2, 1, 1, 2⟩

theorem findRoots_iff_ring :
    ∃ s' search,
      stepSegmenter (initializeSegmenter blankSegmenter 5 5 2) ring.source = some s' ∧
      findRoots ⟨s', initializeFidtrackerX ringMap⟩ = some search ∧
      ∀ r, (r ∈ search.tracker.rootRegions ∧ (search.region r).flags.lostSymbol = false) ↔
        ∃ hung, Crowned s' r hung ∧
          (initializeFidtrackerX ringMap).Qualified (hung.size - 1) hung.height := by
  obtain ⟨s', ran, few⟩ := exists_stepSegmenter (initializeSegmenter blankSegmenter 5 5 2) ring
  have bound : 5 * 5 ≤ 2 ^ 15 := by omega
  obtain ⟨search, found, roots⟩ := findRoots_iff (s := initializeSegmenter blankSegmenter 5 5 2)
    (initializeFidtrackerX ringMap) ran (few.trans bound)
  exact ⟨s', search, ran, found, roots⟩

end OfxPrimes.Fidtrack
