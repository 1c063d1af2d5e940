import OfxPrimes.Fidtrack.Region
import OfxPrimes.Fidtrack.TreeIdMap

/-!
# The search for markers

The search climbs from the leaves of the region graph and collects the regions
whose trees are as large and as deep as a marker's.  The tree of a region is then
written down and looked up.  A failed assertion, a write past the end of a buffer
and a recursion that does not end are `none`.
-/

namespace OfxPrimes.Fidtrack

/-- `struct FidtrackerX`, without the sums over leaves.  The list of the roots is that
of `root_regions_head`. -/
structure FidtrackerX where
  minTargetRootDescendentCount : ℤ
  maxTargetRootDescendentCount : ℤ
  minDepth : ℤ
  maxDepth : ℤ
  rootRegions : List ℕ
  depthStringCount : ℤ
  depthStringLength : ℤ
  nextDepthString : ℕ
  treeidmap : TreeIdMap

/-- `initialize_fidtrackerX( ft, treeidmap, NULL )`. -/
def initializeFidtrackerX (treeidmap : TreeIdMap) : FidtrackerX where
  minTargetRootDescendentCount := treeidmap.minNodeCount - 1
  maxTargetRootDescendentCount := treeidmap.maxNodeCount - 1
  minDepth := treeidmap.minDepth
  maxDepth := treeidmap.maxDepth
  rootRegions := []
  depthStringCount := treeidmap.maxNodeCount
  depthStringLength := treeidmap.maxNodeCount + 1
  nextDepthString := 0
  treeidmap := treeidmap

/-- Set `LOST_SYMBOL_FLAG`. -/
def Region.markLost (region : Region) : Region :=
  { region with flags.lostSymbol := true }

/-- `++children_visited_count`. -/
def Region.countChild (region : Region) : Region :=
  { region with childrenVisitedCount := region.childrenVisitedCount + 1 }

/-- The segmenter and the search. -/
structure Search where
  segmenter : Segmenter
  tracker : FidtrackerX

namespace Search

/-- The region at a place. -/
def region (search : Search) (r : ℕ) : Region :=
  search.segmenter.regions r

/-- Change the region at a place. -/
def modify (search : Search) (r : ℕ) (change : Region → Region) : Search :=
  { search with segmenter := search.segmenter.modifyRegion r change }

/-- `link_region( &ft->root_regions_head, r )`. -/
def link (search : Search) (r : ℕ) : Search :=
  { search with tracker.rootRegions := search.tracker.rootRegions ++ [r] }

end Search

/-! ## From the leaves upwards -/

/-- What the loop over the list of a region sets. -/
structure Gathered where
  descendentCount : ℤ
  depth : ℤ
  parent : Option ℕ

/-- One turn of the loop over the list of `r`. -/
def gather (s : Segmenter) (r : ℕ) (gathered : Gathered) (adjacent : ℕ) : Option Gathered := do
  guard (r1AdjacentContainsR2 s adjacent r)
  if (s.regions adjacent).level = .traversed then
    some { gathered with
      descendentCount := toShort
        (gathered.descendentCount + toShort ((s.regions adjacent).descendentCount + 1))
      depth := toShort (max gathered.depth ((s.regions adjacent).depth + 1)) }
  else do
    guard (gathered.parent = none)
    some { gathered with parent := some adjacent }

/-- The part of `propagate_descendent_count_and_max_depth_upwards` that fills in `r`,
with the parent it finds.  While the loop runs, `r` itself is `TRAVERSING`. -/
def fillIn (search : Search) (r : ℕ) : Option (Search × Option ℕ) := do
  let region := search.region r
  guard (region.level = .notTraversed)
  guard (region.childrenVisitedCount = (region.adjacentRegions.length : ℤ) - 1 ∨
    region.childrenVisitedCount = region.adjacentRegions.length)
  let traversing := search.modify r fun region => { region with level := .traversing }
  let gathered ← Transition.run (gather traversing.segmenter r) ⟨0, 0, none⟩
    region.adjacentRegions
  some (search.modify r fun region => { region with
    descendentCount := gathered.descendentCount
    depth := gathered.depth
    level := .traversed }, gathered.parent)

/-- The region is linked if its tree is not too small and not too deep, and marked
if it is not quite as it should be. -/
def collect (search : Search) (r : ℕ) : Search :=
  let ft := search.tracker
  let region := search.region r
  if region.descendentCount ≥ ft.minTargetRootDescendentCount ∧
      region.descendentCount < ft.maxTargetRootDescendentCount ∧
      region.depth ≥ ft.minDepth ∧ region.depth ≤ ft.maxDepth then
    search.link r
  else if region.descendentCount ≥ ft.minTargetRootDescendentCount - 3 ∧
      region.descendentCount < ft.maxTargetRootDescendentCount + 3 ∧
      region.depth ≥ ft.minDepth - 1 ∧ region.depth ≤ ft.maxDepth + 1 then
    (search.modify r Region.markLost).link r
  else search

/-- All that hangs from the region, but for its own parent, has been visited. -/
def climbs (parent : Region) : Bool :=
  !parent.flags.saturated &&
    ((!(parent.flags.adjacentToRoot || parent.flags.fragmented) &&
        parent.childrenVisitedCount == (parent.adjacentRegions.length : ℤ) - 1) ||
      ((parent.flags.adjacentToRoot || parent.flags.fragmented) &&
        parent.childrenVisitedCount == parent.adjacentRegions.length))

/-- `propagate_descendent_count_and_max_depth_upwards( s, r, ft )`, which may go as
many regions up as there is `fuel`. -/
def propagateUpwards : ℕ → Search → ℕ → Option Search
  | 0, _, _ => none
  | fuel + 1, search, r => do
      let (search, parent) ← fillIn search r
      let ft := search.tracker
      let region := search.region r
      if region.descendentCount = ft.maxTargetRootDescendentCount ∧
          region.depth ≥ ft.minDepth ∧ region.depth ≤ ft.maxDepth then
        some (search.link r)
      else
        let search := collect search r
        match parent with
        | none => some search
        | some parent =>
            if region.flags.saturated || region.flags.adjacentToRoot || region.flags.free then
              some search
            else
              let search := search.modify parent Region.countChild
              if (region.descendentCount < ft.maxTargetRootDescendentCount ∧
                  region.depth < ft.maxDepth) ∧ climbs (search.region parent) then do
                guard (r1AdjacentContainsR2 search.segmenter r parent)
                guard (r1AdjacentContainsR2 search.segmenter parent r)
                propagateUpwards fuel search parent
              else some search

/-- The region is a leaf that the search starts from. -/
def isStart (region : Region) : Bool :=
  region.adjacentRegions.length == 1 &&
    !(region.flags.saturated || region.flags.fragmented || region.flags.adjacentToRoot ||
      region.flags.free)

/-- `sanity_check_region_initial_values( s )`. -/
def sanityCheckRegionInitialValues (s : Segmenter) : Bool :=
  (List.range s.regionCount).all fun i =>
    (s.regions i).level == .notTraversed && (s.regions i).childrenVisitedCount == 0 &&
      (s.regions i).descendentCount == 0x7FFF

/-- One turn of the loop of `find_roots`. -/
def findRootsAt (search : Search) (i : ℕ) : Option Search :=
  if isStart (search.region i) then do
    guard ((search.region i).level = .notTraversed)
    guard ((search.region i).childrenVisitedCount = 0)
    propagateUpwards search.segmenter.regionCount search i
  else some search

/-- `find_roots( s, ft )`. -/
def findRoots (search : Search) : Option Search := do
  guard (sanityCheckRegionInitialValues search.segmenter)
  Transition.run findRootsAt search (List.range search.segmenter.regionCount)

/-! ## From a root downwards -/

/-- `set_depth( r, depth )`, which may go as deep as there is `fuel`. -/
def setDepth : ℕ → Search → ℕ → ℤ → Option Search
  | 0, _, _, _ => none
  | fuel + 1, search, r, depth =>
      let childDepth := toShort (depth + 1)
      let search := search.modify r fun region => { region with depth := depth }
      if (search.region r).adjacentRegions.length ≠ 1 then
        Transition.run
          (fun search adjacent =>
            if (search.region adjacent).descendentCount < (search.region r).descendentCount then
              setDepth fuel search adjacent childDepth
            else some search)
          search (search.region r).adjacentRegions
      else some search

/-- `strcmp( a, b )`, which compares characters as `unsigned char`. -/
def strcmp : Text → Text → ℤ
  | [], [] => 0
  | [], _ :: _ => -1
  | _ :: _, [] => 1
  | a :: as, b :: bs => if a = b then strcmp as bs else if a < b then -1 else 1

/-- `depth_string_cmp( a, b )`: left heavy order, and what has no string comes last. -/
def depthStringCmp (a b : Option Text) : ℤ :=
  match a, b with
  | none, none => 0
  | none, some _ => 1
  | some _, none => -1
  | some a, some b => -strcmp (cStr a) (cStr b)

/-- The last loop of `build_left_heavy_depth_string`, which copies the string of a
region and forgets it. -/
def appendDepthString (copied : Search × Text) (adjacent : ℕ) : Search × Text :=
  match (copied.1.region adjacent).depthString with
  | none => copied
  | some depthString =>
      (copied.1.modify adjacent fun region => { region with depthString := none },
        copied.2 ++ cStr depthString)

/-- `build_left_heavy_depth_string( ft, r )`, which may go as deep as there is `fuel`.
A string has a line of the buffer `depth_strings`, and `qsort` does not tell equal
strings apart. -/
def buildLeftHeavyDepthString : ℕ → Search → ℕ → Option (Search × Text)
  | 0, _, _ => none
  | fuel + 1, search, r => do
      guard ((search.tracker.nextDepthString : ℤ) < search.tracker.depthStringCount)
      let search := { search with
        tracker.nextDepthString := search.tracker.nextDepthString + 1 }
      let result := [UInt8.ofInt (48 + (search.region r).depth)]
      guard ((result.length : ℤ) < search.tracker.depthStringLength)
      if (search.region r).adjacentRegions.length ≠ 1 then do
        let search ← Transition.run
          (fun search adjacent => do
            if (search.region adjacent).level = .traversed ∧
                (search.region adjacent).descendentCount < (search.region r).descendentCount then
              let (search, depthString) ← buildLeftHeavyDepthString fuel search adjacent
              some (search.modify adjacent fun region => { region with
                depthString := some depthString })
            else
              some (search.modify adjacent fun region => { region with depthString := none }))
          search (search.region r).adjacentRegions
        let search := search.modify r fun region => { region with
          adjacentRegions := region.adjacentRegions.insertionSort fun a b =>
            depthStringCmp (search.region a).depthString (search.region b).depthString ≤ 0 }
        let (search, result) := (search.region r).adjacentRegions.foldl appendDepthString
          (search, result)
        guard ((result.length : ℤ) < search.tracker.depthStringLength)
        some (search, result)
      else some (search, result)

/-- `struct FiducialX`, without what is computed from the sums over leaves. -/
structure FiducialX where
  id : ℤ
  rootSize : ℤ
  deriving DecidableEq, Repr

/-- `compute_fiducial_statistics( ft, f, r, width, height )`. -/
def computeFiducialStatistics (search : Search) (r : ℕ) : Option (Search × FiducialX) := do
  let search ← setDepth search.segmenter.regionCount search r 0
  let region := search.region r
  let rootSize := ((region.right - region.left) + (region.bottom - region.top)).tdiv 2
  if region.flags.lostSymbol then some (search, ⟨-1, rootSize⟩)
  else do
    let search := { search with tracker.nextDepthString := 0 }
    let (search, depthString) ← buildLeftHeavyDepthString search.segmenter.regionCount search r
    let colour : UInt8 := if region.colour ≠ 0 then 119 else 98
    let temp := colour :: cStr depthString
    guard ((temp.length : ℤ) < search.tracker.depthStringLength + 1)
    some (search, ⟨treestringToId search.tracker.treeidmap temp, rootSize⟩)

/-- The loop of `find_fiducialsX` over the roots. -/
def fiducialsOf (maxCount : ℕ) : Search → List FiducialX → List ℕ →
    Option (Search × List FiducialX)
  | search, found, [] => some (search, found)
  | search, found, next :: rest => do
      let (search, fiducial) ← computeFiducialStatistics search next
      let found := found ++ [fiducial]
      if found.length ≥ maxCount then some (search, found)
      else fiducialsOf maxCount search found rest

/-- `find_fiducialsX( fiducials, max_count, ft, segments, width, height )`. -/
def findFiducialsX (search : Search) (maxCount : ℕ) : Option (Search × List FiducialX) := do
  let search := { search with tracker.rootRegions := [] }
  let search ← findRoots search
  fiducialsOf maxCount search [] search.tracker.rootRegions

end OfxPrimes.Fidtrack
