import OfxPrimes.Fidtrack.Markers
import OfxPrimes.Fidtrack.Roots
import OfxPrimes.Fidtrack.Writing

/-!
# Recognition

The fiducials that are reported are those of the roots.  The id of a fiducial is that
of the first marker that has the colour of the root and, but for the order of the
children, the tree that hangs from it.
-/

namespace OfxPrimes.Fidtrack

open Forest

variable {s : Segmenter} {ft : FidtrackerX} {base search search' : Search}
  {visited touched : ℕ → Prop} {parent : ℕ → Option ℕ} {tree : ℕ → Rose} {r a used : ℕ}

/-! ## The end of the climb -/

section Climbed

variable (climbed : Climbed s ft (fun _ => False) search parent tree) (segmented : Segmented s)
include climbed segmented

theorem Climbed.not_self (isVisited : search.Visited a) : a ∉ s.graph a := by
  intro mem
  by_cases isKid : parent a = some a
  · exact climbed.stripped.not_descends_kid segmented.symmetric isKid .refl
  · have other := mem_others_iff.mpr ⟨mem, isKid⟩
    rcases climbed.ends a isVisited with ⟨none, _⟩ | ⟨isClear, up, only⟩
    · rw [none] at other
      exact List.not_mem_nil other
    · rw [only, List.mem_singleton] at other
      subst other
      exact climbed.stripped.not_facing segmented.anchored isClear isClear only only

/-- The regions next to a visited region with fewer descendants are its children. -/
theorem Climbed.explored (few : s.regionCount ≤ 2 ^ 15) :
    Explored s search.Visited parent search := by
  constructor
  · intro a inside
    rw [climbed.graph_eq inside]
  · intro r isVisited a mem
    have countR := (climbed.counts segmented few isVisited).1
    constructor
    · intro smaller
      by_contra notKid
      have other := mem_others_iff.mpr ⟨mem, notKid⟩
      rcases climbed.ends r isVisited with ⟨none, _⟩ | ⟨isClear, up, only⟩
      · rw [none] at other
        exact List.not_mem_nil other
      · rw [only, List.mem_singleton] at other
        subst other
        have inside := segmented.closed mem
        by_cases isParent : parent r = some a
        · have visitedA : search.Visited a := by
            by_contra fresh
            have bound := (climbed.size_le segmented isVisited).trans few
            rw [climbed.uncounted a inside fresh, countR] at smaller
            omega
          have larger := climbed.stripped.size_lt visitedA
            (climbed.stripped.mem_kids segmented.symmetric isParent)
          rw [countR, (climbed.counts segmented few visitedA).1] at smaller
          omega
        · have fresh := climbed.not_visited_up segmented isParent isClear only
          have bound := (climbed.size_le segmented isVisited).trans few
          rw [climbed.uncounted a inside fresh, countR] at smaller
          omega
    · intro isParent
      have isKid := climbed.stripped.mem_kids segmented.symmetric isParent
      have smaller := climbed.stripped.size_lt isVisited isKid
      have visitedA := (climbed.stripped.credited a r isParent).1
      rw [countR, (climbed.counts segmented few visitedA).1]
      omega
  · exact fun a isVisited => isVisited.2

end Climbed

/-! ## One fiducial -/

/-- `r->colour ? 'w' : 'b'` -/
def colourOf (region : Region) : UInt8 :=
  if region.colour ≠ 0 then 119 else 98

/-- Half the sum of the sides of the box. -/
def rootSizeOf (region : Region) : ℤ :=
  ((region.right - region.left) + (region.bottom - region.top)).tdiv 2

/-- A region with one region next to it is taken for a leaf, also if that is below it. -/
def told (s : Segmenter) (r : ℕ) (hung : Rose) : Rose :=
  if (s.graph r).length = 1 then .node [] else hung

/-- What is reported of a region. -/
def report (map : TreeIdMap) (s : Segmenter) (lost : Bool) (r : ℕ) (hung : Rose) : FiducialX where
  id := if lost then -1
    else treestringToId map (colourOf (s.regions r) :: leftHeavyString 0 (told s r hung))
  rootSize := rootSizeOf (s.regions r)

theorem told_of_whole (stripped : Stripped s.graph s.Clear visited parent tree)
    (isVisited : visited r) (whole : (s.graph r).length = 1 → kids s.graph parent r = []) :
    told s r (tree r) = tree r := by
  rw [told]
  split
  · next one =>
      rw [stripped.tree_eq r isVisited, whole one, List.map_nil]
  · rfl

/-- A region with one region next to it is given its depth only. -/
theorem setDepth_of_one {fuel : ℕ} (some : 0 < fuel)
    (one : (search.region r).adjacentRegions.length = 1) (depth : ℤ) :
    setDepth fuel search r depth =
      .some (search.modify r fun region => { region with depth := depth }) := by
  cases fuel with
  | zero => exact absurd some (lt_irrefl 0)
  | succ fuel =>
      rw [setDepth, if_neg]
      rw [Search.region_modify_self]
      exact not_not.mpr one

theorem build_of_one {fuel : ℕ} (some : 0 < fuel)
    (one : (search.region r).adjacentRegions.length = 1) (depthR : (search.region r).depth = 0)
    (room : Room search 1) :
    buildLeftHeavyDepthString fuel search r = .some
      ({ search with tracker.nextDepthString := search.tracker.nextDepthString + 1 },
        leftHeavyString 0 (.node [])) := by
  cases fuel with
  | zero => exact absurd some (lt_irrefl 0)
  | succ fuel =>
      have line : (search.tracker.nextDepthString : ℤ) < search.tracker.depthStringCount := by
        have lines := room.lines
        omega
      have fits : ((([48] : Text).length : ℕ) : ℤ) < search.tracker.depthStringLength := room.length
      have regions : ({ search with tracker.nextDepthString :=
          search.tracker.nextDepthString + 1 } : Search).region r = search.region r := rfl
      have character : UInt8.ofInt (48 + 0) = 48 := rfl
      simp only [buildLeftHeavyDepthString, line, guard_eq_some, Option.bind_eq_bind,
        Option.bind_some, regions, one, depthR, character, fits, ne_eq, not_true_eq_false, if_false]
      rfl

section Fiducial

variable (climbed : Climbed s ft (fun _ => False) base parent tree) (segmented : Segmented s)
  (few : s.regionCount ≤ 2 ^ 15)
include climbed segmented few

/-- The way down gives every region below a root its depth. -/
theorem Climbed.setDepth (isVisited : base.Visited r) (revised : Revised base search) :
    ∃ deep, setDepth search.segmenter.regionCount search r 0 = some deep ∧
      Revised base deep ∧ (deep.region r).depth = 0 ∧
      (((s.graph r).length = 1 → kids s.graph parent r = []) → Levelled parent deep r) := by
  have inside : r < s.regionCount := climbed.regionCount ▸ isVisited.1
  have explored := revised.explored (climbed.explored segmented few)
  have count := revised.regionCount.trans climbed.regionCount
  have size := climbed.size_le segmented isVisited
  rw [count]
  by_cases whole : (s.graph r).length = 1 → kids s.graph parent r = []
  · obtain ⟨deep, ran, deepened, depthR, levelled⟩ := setDepth_spec climbed.stripped segmented
      s.regionCount 0 explored isVisited size whole inside
    exact ⟨deep, ran, revised.trans deepened.revised, depthR, fun _ => levelled⟩
  · rw [Classical.not_imp] at whole
    have one : (search.region r).adjacentRegions.length = 1 :=
      (explored.list r inside).length_eq.trans whole.1
    refine ⟨_, setDepth_of_one (Nat.zero_lt_of_lt inside) one 0, ?_, ?_, ?_⟩
    · apply revised.trans
      refine ⟨rfl, rfl, fun a => ?_⟩
      rw [Search.region_modify]
      split
      · exact ⟨0, _, _, .refl _, rfl⟩
      · exact ⟨_, _, _, .refl _, rfl⟩
    · rw [Search.region_modify_self]
    · exact fun fits => absurd (fits whole.1) whole.2

/-- The string that is written of a root. -/
theorem Climbed.build (isVisited : base.Visited r) (revised : Revised base search)
    (low : (tree r).height ≤ 207) (depthR : (search.region r).depth = 0)
    (levelled : ((s.graph r).length = 1 → kids s.graph parent r = []) →
      Levelled parent search r)
    (room : Room search (tree r).size) :
    ∃ written, buildLeftHeavyDepthString search.segmenter.regionCount search r =
        some (written, leftHeavyString 0 (told s r (tree r))) ∧ Revised base written := by
  have inside : r < s.regionCount := climbed.regionCount ▸ isVisited.1
  have explored := revised.explored (climbed.explored segmented few)
  have count := revised.regionCount.trans climbed.regionCount
  have size := climbed.size_le segmented isVisited
  rw [count]
  by_cases whole : (s.graph r).length = 1 → kids s.graph parent r = []
  · obtain ⟨search', ran, written, _⟩ := build_spec climbed.stripped segmented
      (fun a visitedA => climbed.not_self segmented visitedA) s.regionCount explored isVisited
      inside size (by rwa [Nat.zero_add]) whole depthR (levelled whole) room
    rw [told_of_whole climbed.stripped isVisited whole]
    exact ⟨search', ran, revised.trans written.revised⟩
  · rw [Classical.not_imp] at whole
    have one : (search.region r).adjacentRegions.length = 1 :=
      (explored.list r inside).length_eq.trans whole.1
    have isLeaf : told s r (tree r) = .node [] := if_pos whole.1
    rw [isLeaf]
    refine ⟨_, build_of_one (Nat.zero_lt_of_lt inside) one depthR
      (room.mono (Nat.succ_le_of_lt (tree r).size_pos)), ?_⟩
    exact revised.trans (.of_nextDepthString _ _)

/-- One call of `compute_fiducial_statistics` breaks no assertion, stays in its
buffers and reports the tree that hangs from the root. -/
theorem Climbed.statistics (isVisited : base.Visited r) (revised : Revised base search)
    (fits : (base.region r).flags.lostSymbol = false → (tree r).height ≤ 207 ∧
      ((tree r).size : ℤ) ≤ ft.depthStringCount ∧ ((tree r).size : ℤ) < ft.depthStringLength) :
    ∃ search', computeFiducialStatistics search r = some (search',
        report ft.treeidmap s (base.region r).flags.lostSymbol r (tree r)) ∧
      Revised base search' := by
  obtain ⟨deep, ran, revisedDeep, depthR, levelled⟩ :=
    climbed.setDepth segmented few isVisited revised
  obtain ⟨_, _, _, _, regionR⟩ := revisedDeep.region r
  have lostR : (deep.region r).flags.lostSymbol = (base.region r).flags.lostSymbol := by
    rw [regionR]
  have planned := unvisited_eq climbed.plan r
  have sizeR : rootSizeOf (deep.region r) = rootSizeOf (s.regions r) := by
    rw [regionR]
    have equal := congrArg rootSizeOf planned
    exact equal
  have colourR : colourOf (deep.region r) = colourOf (s.regions r) := by
    rw [regionR]
    have equal := congrArg colourOf planned
    exact equal
  have trackerDeep : ∀ next, ({ deep with tracker.nextDepthString := next } : Search).tracker =
      { ft with rootRegions := base.tracker.rootRegions, nextDepthString := next } := by
    intro next
    change { deep.tracker with nextDepthString := next } = _
    rw [revisedDeep.tracker, climbed.tracker]
  simp only [computeFiducialStatistics, ran, Option.bind_eq_bind, Option.bind_some]
  by_cases lost : (base.region r).flags.lostSymbol = true
  · refine ⟨deep, ?_, revisedDeep⟩
    rw [if_pos (lostR.trans lost), lost, report, if_pos rfl, ← sizeR, rootSizeOf]
  · rw [Bool.not_eq_true] at lost
    obtain ⟨low, lines, length⟩ := fits lost
    obtain ⟨start, isStart⟩ : ∃ start : Search, start =
        { deep with tracker.nextDepthString := 0 } := ⟨_, rfl⟩
    have trackerStart := isStart ▸ trackerDeep 0
    have room : Room start (tree r).size := by
      constructor
      · rw [trackerStart]
        simpa using lines
      · rw [trackerStart]
        exact length
    have revisedStart : Revised base start :=
      revisedDeep.trans (isStart ▸ .of_nextDepthString deep 0)
    have regions : start.region = deep.region := by rw [isStart]; rfl
    obtain ⟨written, ran', revised'⟩ := climbed.build segmented few isVisited revisedStart low
      (by rw [regions, depthR]) (fun whole a up below isParent => by
        rw [regions]
        exact levelled whole a up below isParent) room
    have isStart' : ({ deep with tracker.nextDepthString := 0 } : Search) = start := isStart.symm
    have lowTold : 0 + (told s r (tree r)).height ≤ 207 := by
      rw [told]
      split
      · exact Nat.zero_le _
      · rwa [Nat.zero_add]
    have lengthTold : (told s r (tree r)).size ≤ (tree r).size := by
      rw [told]
      split
      · exact Nat.succ_le_of_lt (tree r).size_pos
      · exact le_rfl
    have trackerWritten : written.tracker.depthStringLength = ft.depthStringLength ∧
        written.tracker.treeidmap = ft.treeidmap := by
      rw [revised'.tracker, climbed.tracker]
      exact ⟨rfl, rfl⟩
    refine ⟨written, ?_, revised'⟩
    have count : deep.segmenter.regionCount = start.segmenter.regionCount := by rw [isStart]
    rw [if_neg (by rw [lostR, lost]; exact Bool.false_ne_true), isStart', count]
    simp only [ran', Option.bind_some, cStr_leftHeavyString lowTold]
    have guardTemp : (((colourOf (s.regions r) :: leftHeavyString 0 (told s r (tree r))).length :
        ℕ) : ℤ) < ft.depthStringLength + 1 := by
      rw [List.length_cons, length_leftHeavy]
      push_cast
      omega
    have colour : (if (deep.region r).colour ≠ 0 then (119 : UInt8) else 98) =
        colourOf (s.regions r) := colourR
    have rootSize : ((deep.region r).right - (deep.region r).left + ((deep.region r).bottom -
        (deep.region r).top)).tdiv 2 = rootSizeOf (s.regions r) := sizeR
    simp only [colour, rootSize, trackerWritten.1, trackerWritten.2, guardTemp, guard_eq_some,
      Option.bind_some, lost, report, Bool.false_eq_true, if_false]

/-! ## All fiducials -/

/-- The roots are reported one after the other, as many as there is room for. -/
theorem Climbed.fiducials (maxCount : ℕ) (roots : List ℕ)
    (visited : ∀ r ∈ roots, base.Visited r)
    (fits : ∀ r ∈ roots, (base.region r).flags.lostSymbol = false → (tree r).height ≤ 207 ∧
      ((tree r).size : ℤ) ≤ ft.depthStringCount ∧ ((tree r).size : ℤ) < ft.depthStringLength) :
    ∀ {search : Search} (found : List FiducialX), Revised base search →
      ∃ search', fiducialsOf maxCount search found roots = some (search',
        found ++ (roots.take (max (maxCount - found.length) 1)).map fun r =>
          report ft.treeidmap s (base.region r).flags.lostSymbol r (tree r)) ∧
        Revised base search' := by
  induction roots with
  | nil =>
      intro search found revised
      exact ⟨search, by simp [fiducialsOf], revised⟩
  | cons r rest ih =>
      intro search found revised
      obtain ⟨middle, ran, revised'⟩ := climbed.statistics segmented few
        (visited r List.mem_cons_self) revised (fits r List.mem_cons_self)
      simp only [fiducialsOf, ran, Option.bind_eq_bind, Option.bind_some, List.length_append,
        List.length_singleton]
      by_cases full : found.length + 1 ≥ maxCount
      · have one : max (maxCount - found.length) 1 = 1 := by omega
        rw [if_pos full, one, List.take_succ_cons, List.take_zero, List.map_singleton]
        exact ⟨middle, rfl, revised'⟩
      · have more : max (maxCount - found.length) 1 =
            max (maxCount - (found.length + 1)) 1 + 1 := by omega
        obtain ⟨search', ran', revised''⟩ := ih
          (fun a mem => visited a (List.mem_cons_of_mem r mem))
          (fun a mem => fits a (List.mem_cons_of_mem r mem))
          (found ++ [report ft.treeidmap s (base.region r).flags.lostSymbol r (tree r)]) revised'
        rw [List.length_append, List.length_singleton] at ran'
        refine ⟨search', ?_, revised''⟩
        rw [if_neg full, ran', more, List.take_succ_cons, List.map_cons, List.append_assoc,
          List.singleton_append]

end Fiducial

/-! ## The markers -/

section Markers

variable {markers : List Marker} {map : TreeIdMap} {hung : Rose}

/-- No marker is deeper than a character can tell. -/
theorem Knows.maxDepth_le (knows : Knows markers map) : map.maxDepth ≤ 79 := by
  rcases knows.maxDepth.1 with isZero | ⟨marker, _, equal⟩
  · rw [isZero]
    exact Int.zero_le_ofNat 79
  · rw [← equal, Marker.depth]
    exact_mod_cast marker.height_le

/-- A tree that qualifies fits the buffers. -/
theorem Knows.fits (knows : Knows markers map)
    (qualified : (initializeFidtrackerX map).Qualified (hung.size - 1) hung.height) :
    hung.height ≤ 207 ∧ (hung.size : ℤ) ≤ (initializeFidtrackerX map).depthStringCount ∧
      (hung.size : ℤ) < (initializeFidtrackerX map).depthStringLength := by
  obtain ⟨size, height⟩ := FidtrackerX.Qualified.le qualified
  have deepest := knows.maxDepth_le
  simp only [initializeFidtrackerX] at size height ⊢
  refine ⟨?_, ?_, ?_⟩ <;> omega

/-- The tree of a marker qualifies. -/
theorem Knows.qualified (knows : Knows markers map) {marker : Marker} (mem : marker ∈ markers) :
    (initializeFidtrackerX map).Qualified (marker.tree.size - 1) marker.tree.height := by
  have inside : ∀ {start : ℤ} (measure : Marker → ℤ),
      measure marker ∈ Insert.insert start (measure '' {m | m ∈ markers}) :=
    fun measure => Set.mem_insert_of_mem _ ⟨marker, mem, rfl⟩
  have minCount := knows.minNodeCount.2 (inside Marker.nodeCount)
  have maxCount := knows.maxNodeCount.2 (inside Marker.nodeCount)
  have minDepth := knows.minDepth.2 (inside Marker.depth)
  have maxDepth := knows.maxDepth.2 (inside Marker.depth)
  simp only [Marker.nodeCount, Marker.depth] at minCount maxCount minDepth maxDepth
  simp only [FidtrackerX.Qualified, FidtrackerX.Exact, initializeFidtrackerX]
  omega

/-- The region without what the search for markers changes. -/
def Region.drawn (region : Region) : Region :=
  { region.unvisited with depthString := none, adjacentRegions := [] }

/-- What a run of `find_fiducialsX` on the regions of an image reports, `base` being
the search after `find_roots`: its first roots, but one of them even if there is room
for none. -/
structure Reported (map : TreeIdMap) (s : Segmenter) (base : Search) (maxCount : ℕ)
    (found : List FiducialX) (hung : ℕ → Rose) : Prop where
  roots : findRoots ⟨s, initializeFidtrackerX map⟩ = some base
  asFound : ListedAsFound ⟨s, initializeFidtrackerX map⟩ base.tracker.rootRegions
  found : found = (base.tracker.rootRegions.take (max maxCount 1)).map fun r =>
    report map s (base.region r).flags.lostSymbol r (hung r)
  nodup : base.tracker.rootRegions.Nodup
  inside : ∀ r ∈ base.tracker.rootRegions, r < s.regionCount
  crowned : ∀ r ∈ base.tracker.rootRegions, Crowned s r (hung r)
  qualified : ∀ r, (r ∈ base.tracker.rootRegions ∧ (base.region r).flags.lostSymbol = false) ↔
    ∃ tree, Crowned s r tree ∧
      (initializeFidtrackerX map).Qualified (tree.size - 1) tree.height
  reordered : ∀ r tree, Crowned s r tree →
    (initializeFidtrackerX map).Qualified (tree.size - 1) tree.height →
    Rose.Reordered tree (hung r)

theorem Knows.reported (knows : Knows markers map) (segmented : Segmented s)
    (few : s.regionCount ≤ 2 ^ 15) (maxCount : ℕ) :
    ∃ base search found hung, findFiducialsX ⟨s, initializeFidtrackerX map⟩ maxCount =
      some (search, found) ∧ Reported map s base maxCount found hung ∧
      search.segmenter.regionCount = s.regionCount ∧
      ∀ a, (search.region a).drawn = (s.regions a).drawn := by
  obtain ⟨base, parent, tree, ran, climbed, leaves⟩ :=
    findRoots_spec (initializeFidtrackerX map) segmented rfl
  have iff : ∀ r, (r ∈ base.tracker.rootRegions ∧
      (base.region r).flags.lostSymbol = false) ↔ base.Visited r ∧
        (initializeFidtrackerX map).Qualified ((tree r).size - 1) (tree r).height := by
    intro r
    rw [climbed.qualified]
    apply and_congr_right
    intro visited
    obtain ⟨size, height⟩ := climbed.counts segmented few visited
    rw [size, height]
  have found : ∀ r hung, Crowned s r hung →
      (initializeFidtrackerX map).Qualified (hung.size - 1) hung.height →
      base.Visited r ∧ Rose.Reordered hung (tree r) := fun r hung crowned qualified =>
    climbed.found_of_crowned segmented few leaves crowned qualified.le.1 qualified.le.2
  obtain ⟨search, reports, revised⟩ := climbed.fiducials segmented few maxCount
    base.tracker.rootRegions climbed.roots
    (fun r mem notLost => knows.fits ((iff r).mp ⟨mem, notLost⟩).2) [] (.refl base)
  refine ⟨base, search, _, tree, ?_,
    ⟨ran, listedAsFound_of_findRoots ran, rfl, climbed.nodup, ?_,
      fun r mem => climbed.crowned (climbed.roots r mem), fun r => ?_,
      fun r hung crowned qualified => (found r hung crowned qualified).2⟩,
    revised.regionCount.trans climbed.regionCount, fun a => ?_⟩
  · simp only [findFiducialsX, Option.bind_eq_bind]
    have same : ({ initializeFidtrackerX map with rootRegions := [] } : FidtrackerX) =
        initializeFidtrackerX map := rfl
    rw [same, ran, Option.bind_some, reports]
    rfl
  · exact fun r mem => climbed.regionCount ▸ (climbed.roots r mem).1
  · rw [iff]
    constructor
    · rintro ⟨visited, qualified⟩
      exact ⟨tree r, climbed.crowned visited, qualified⟩
    · rintro ⟨hung, crowned, qualified⟩
      obtain ⟨visited, reordered⟩ := found r hung crowned qualified
      rw [reordered.size_eq, reordered.height_eq] at qualified
      exact ⟨visited, qualified⟩
  · obtain ⟨_, _, _, _, equal⟩ := revised.region a
    rw [equal]
    have planned := congrArg Region.drawn (unvisited_eq climbed.plan a)
    exact planned

/-! ## The ids -/

/-- The string of the marker is left heavy. -/
def Marker.LeftHeavy (marker : Marker) : Prop :=
  marker.text = marker.colour :: leftHeavyString 0 marker.tree

/-- The marker has the colour and, but for the order of the children, the tree. -/
def Marker.Matches (marker : Marker) (colour : UInt8) (tree : Rose) : Prop :=
  marker.colour = colour ∧ Rose.Reordered marker.tree tree

/-- The marker at place `k` is the first that matches. -/
def FirstMatch (markers : List Marker) (colour : UInt8) (tree : Rose) (k : ℕ) : Prop :=
  (∃ marker, markers[k]? = some marker ∧ marker.Matches colour tree) ∧
    ∀ j < k, ∀ marker, markers[j]? = some marker → ¬ marker.Matches colour tree

theorem Marker.Matches.congr {marker : Marker} {colour : UInt8} {first second : Rose}
    (isMatch : marker.Matches colour first) (reordered : Rose.Reordered first second) :
    marker.Matches colour second :=
  ⟨isMatch.1, isMatch.2.trans reordered⟩

theorem FirstMatch.congr {colour : UInt8} {first second : Rose} {k : ℕ}
    (isFirst : FirstMatch markers colour first k) (reordered : Rose.Reordered first second) :
    FirstMatch markers colour second k := by
  obtain ⟨⟨marker, at_k, isMatch⟩, earlier⟩ := isFirst
  exact ⟨⟨marker, at_k, isMatch.congr reordered⟩, fun j before marker at_j isMatch' =>
    earlier j before marker at_j (isMatch'.congr reordered.symm)⟩

theorem Marker.LeftHeavy.text_eq_iff {marker : Marker} (leftHeavy : marker.LeftHeavy)
    {colour : UInt8} {tree : Rose} (low : tree.height ≤ 207) :
    marker.text = colour :: leftHeavyString 0 tree ↔ marker.Matches colour tree := by
  have lowMarker := marker.height_le
  rw [leftHeavy, List.cons.injEq, Matches, legible.leftHeavy_eq_iff (by omega) (by omega)]

/-- The id of a string is the place of the first marker that matches. -/
theorem Knows.id_eq_iff (knows : Knows markers map) (canonical : ∀ m ∈ markers, m.LeftHeavy)
    (region : Region) {tree : Rose} (low : tree.height ≤ 207) (k : ℕ) :
    treestringToId map (colourOf region :: leftHeavyString 0 tree) = k ↔
      FirstMatch markers (colourOf region) tree k := by
  have colour : colourOf region ≠ 0 := by
    rw [colourOf]
    split <;> decide
  have whole : cStr (colourOf region :: leftHeavyString 0 tree) =
      colourOf region :: leftHeavyString 0 tree := by
    have rest := cStr_leftHeavyString ((Nat.zero_add tree.height).trans_le low)
    rw [cStr] at rest ⊢
    rw [List.takeWhile_cons_of_pos (by simpa using colour), rest]
  have matches_iff : ∀ marker ∈ markers,
      (marker.text = colourOf region :: leftHeavyString 0 tree ↔
        marker.Matches (colourOf region) tree) := fun marker mem =>
    (canonical marker mem).text_eq_iff low
  have place : (markers.map Marker.text).idxOf? (colourOf region :: leftHeavyString 0 tree) =
      some k ↔ FirstMatch markers (colourOf region) tree k := by
    rw [List.idxOf?, List.findIdx?_eq_some_iff_getElem]
    constructor
    · rintro ⟨inside, isText, earlier⟩
      rw [List.length_map] at inside
      rw [List.getElem_map, beq_iff_eq, matches_iff _ (List.getElem_mem inside)] at isText
      refine ⟨⟨_, List.getElem?_eq_getElem inside, isText⟩, fun j before marker at_j isMatch => ?_⟩
      obtain ⟨insideJ, rfl⟩ := List.getElem?_eq_some_iff.mp at_j
      have differs := earlier j before
      rw [List.getElem_map, beq_iff_eq, matches_iff _ (List.getElem_mem insideJ)] at differs
      exact differs isMatch
    · rintro ⟨⟨marker, at_k, isMatch⟩, earlier⟩
      obtain ⟨inside, rfl⟩ := List.getElem?_eq_some_iff.mp at_k
      refine ⟨by rwa [List.length_map], ?_, fun j before => ?_⟩
      · rw [List.getElem_map, beq_iff_eq, matches_iff _ (List.getElem_mem inside)]
        exact isMatch
      · have insideJ := before.trans inside
        rw [List.getElem_map, beq_iff_eq, matches_iff _ (List.getElem_mem insideJ)]
        exact earlier j before _ (List.getElem?_eq_getElem insideJ)
  rw [treestringToId, whole, knows.lookup, ← place]
  cases (markers.map Marker.text).idxOf? (colourOf region :: leftHeavyString 0 tree) with
  | none => simp
  | some i => simp

theorem told_congr {first second : Rose} (s : Segmenter) (r : ℕ)
    (reordered : Rose.Reordered first second) :
    Rose.Reordered (told s r first) (told s r second) := by
  rw [told, told]
  split
  · exact .refl _
  · exact reordered

/-- The region has a tree of the right size and height, and the marker at place `k` is
the first that matches what is told of it. -/
def Recognized (markers : List Marker) (map : TreeIdMap) (s : Segmenter) (r k : ℕ) : Prop :=
  ∃ hung, Crowned s r hung ∧
    (initializeFidtrackerX map).Qualified (hung.size - 1) hung.height ∧
    FirstMatch markers (colourOf (s.regions r)) (told s r hung) k

/-- A tree that is told as it is and matches a marker is of the right size and
height. -/
theorem Knows.recognized (knows : Knows markers map) {r k : ℕ} (crowned : Crowned s r hung)
    (isTold : told s r hung = hung)
    (isFirst : FirstMatch markers (colourOf (s.regions r)) hung k) :
    Recognized markers map s r k := by
  obtain ⟨marker, at_k, isMatch⟩ := isFirst.1
  have qualified := knows.qualified (List.mem_of_getElem? at_k)
  rw [isMatch.2.size_eq, isMatch.2.height_eq] at qualified
  refine ⟨hung, crowned, qualified, ?_⟩
  rwa [isTold]

/-- With room for all of them, the fiducials with an id are those of the markers. -/
theorem Reported.recognizes {base : Search} {maxCount : ℕ} {found : List FiducialX}
    {tree : ℕ → Rose} (reported : Reported map s base maxCount found tree)
    (knows : Knows markers map) (canonical : ∀ m ∈ markers, m.LeftHeavy)
    (enough : s.regionCount ≤ maxCount) (k : ℕ) (size : ℤ) :
    (⟨k, size⟩ : FiducialX) ∈ found ↔
      ∃ r, Recognized markers map s r k ∧ rootSizeOf (s.regions r) = size := by
  have low : ∀ r hung, Crowned s r hung →
      (initializeFidtrackerX map).Qualified (hung.size - 1) hung.height →
      (told s r (tree r)).height ≤ 207 := by
    intro r hung crowned qualified
    have same := told_congr s r (reported.reordered r hung crowned qualified)
    rw [← same.height_eq, told]
    split
    · exact Nat.zero_le _
    · exact (knows.fits qualified).1
  have all : base.tracker.rootRegions.take (max maxCount 1) = base.tracker.rootRegions := by
    have few : base.tracker.rootRegions.length ≤ s.regionCount := by
      have subset : base.tracker.rootRegions ⊆ List.range s.regionCount := fun r mem =>
        List.mem_range.mpr (reported.inside r mem)
      exact (reported.nodup.subperm subset).length_le.trans List.length_range.le
    exact List.take_of_length_le (few.trans (enough.trans (le_max_left _ _)))
  have found := reported.found
  rw [all] at found
  constructor
  · intro mem
    rw [found] at mem
    obtain ⟨r, isRoot, isReport⟩ := List.mem_map.mp mem
    rw [report, FiducialX.mk.injEq] at isReport
    obtain ⟨isId, isSize⟩ := isReport
    have notLost : (base.region r).flags.lostSymbol = false := by
      by_contra isLost
      rw [Bool.not_eq_false] at isLost
      rw [if_pos isLost] at isId
      exact absurd isId (by simp)
    obtain ⟨hung, crowned, qualified⟩ := (reported.qualified r).mp ⟨isRoot, notLost⟩
    rw [notLost, if_neg Bool.false_ne_true,
      knows.id_eq_iff canonical _ (low r hung crowned qualified)] at isId
    have same := told_congr s r (reported.reordered r hung crowned qualified).symm
    exact ⟨r, ⟨hung, crowned, qualified, isId.congr same⟩, isSize⟩
  · rintro ⟨r, ⟨hung, crowned, qualified, isFirst⟩, rfl⟩
    obtain ⟨isRoot, notLost⟩ := (reported.qualified r).mpr ⟨hung, crowned, qualified⟩
    have same := told_congr s r (reported.reordered r hung crowned qualified)
    have isReport : report map s (base.region r).flags.lostSymbol r (tree r) =
        ⟨k, rootSizeOf (s.regions r)⟩ := by
      rw [report, FiducialX.mk.injEq, notLost, if_neg Bool.false_ne_true,
        knows.id_eq_iff canonical _ (low r hung crowned qualified)]
      exact ⟨isFirst.congr same, rfl⟩
    rw [found, ← isReport]
    exact List.mem_map_of_mem isRoot

end Markers

/-! ## Results -/

section Results

variable {s s' : Segmenter} {frame : Frame s.width s.height} {markers : List Marker}
  {map : TreeIdMap}

/-- A white region with a black one in it. -/
def ringMarker : Marker where
  colour := 119
  tree := .node [.node []]
  colour_eq := Or.inl rfl
  height_le := by decide

/-- If the strings of the markers are left heavy and there is room for all regions, a
fiducial gets the id of a marker exactly if a region of its colour and size has its
tree, but for the order of the children, where a region with one region next to it is
taken for a leaf.  A region that is taken for what it is need not be measured. -/
theorem findFiducialsX_recognizes
    (built : initializeTreeidmap (markers.map Marker.text) = some map)
    (canonical : ∀ m ∈ markers, m.LeftHeavy) (ran : stepSegmenter s frame.source = some s')
    (few : s'.regionCount ≤ 2 ^ 15) {maxCount : ℕ} (enough : s'.regionCount ≤ maxCount) :
    ∃ search found,
      findFiducialsX ⟨s', initializeFidtrackerX map⟩ maxCount = some (search, found) ∧
      (∀ (k : ℕ) (size : ℤ), (⟨k, size⟩ : FiducialX) ∈ found ↔
        ∃ r, Recognized markers map s' r k ∧ rootSizeOf (s'.regions r) = size) ∧
      ∀ r hung k, Crowned s' r hung → told s' r hung = hung →
        FirstMatch markers (colourOf (s'.regions r)) hung k → Recognized markers map s' r k := by
  obtain ⟨label, finished⟩ := surveyed_of_stepSegmenter ran
  have knows := knows_of_initializeTreeidmap built
  obtain ⟨base, search, found, hung, reports, reported, _⟩ :=
    knows.reported (segmented_of_finished finished) few maxCount
  exact ⟨search, found, reports, reported.recognizes knows canonical enough,
    fun r hung k crowned isTold isFirst => knows.recognized crowned isTold isFirst⟩

theorem findFiducialsX_recognizes_ring :
    ∃ s' search found,
      stepSegmenter (initializeSegmenter blankSegmenter 5 5 2) ring.source = some s' ∧
      findFiducialsX ⟨s', initializeFidtrackerX ringMap⟩ 25 = some (search, found) ∧
      (∀ (k : ℕ) (size : ℤ), (⟨k, size⟩ : FiducialX) ∈ found ↔
        ∃ r, Recognized [ringMarker] ringMap s' r k ∧ rootSizeOf (s'.regions r) = size) ∧
      ∀ r hung k, Crowned s' r hung → told s' r hung = hung →
        FirstMatch [ringMarker] (colourOf (s'.regions r)) hung k →
          Recognized [ringMarker] ringMap s' r k := by
  obtain ⟨s', ran, few⟩ := exists_stepSegmenter (initializeSegmenter blankSegmenter 5 5 2) ring
  have bound : 5 * 5 ≤ 2 ^ 15 := by omega
  have built : initializeTreeidmap ([ringMarker].map Marker.text) = some ringMap := by decide
  have canonical : ∀ m ∈ [ringMarker], m.LeftHeavy := by
    intro m mem
    rw [List.mem_singleton.mp mem, Marker.LeftHeavy]
    decide
  obtain ⟨search, found, reports, recognizes⟩ :=
    findFiducialsX_recognizes (s := initializeSegmenter blankSegmenter 5 5 2) built canonical ran
      (few.trans bound) few
  exact ⟨s', search, found, ran, reports, recognizes⟩

/-- The black region in the ring is found first and marked as lost, then the ring. -/
example : ((stepSegmenter (initializeSegmenter blankSegmenter 5 5 2) ring.source).bind fun s =>
    (findFiducialsX ⟨s, initializeFidtrackerX ringMap⟩ 25).map Prod.snd) =
      some [⟨-1, 0⟩, ⟨0, 2⟩] := by
  decide +kernel

end Results

end OfxPrimes.Fidtrack
