import OfxPrimes.Fiducial.OfxFinger
import OfxPrimes.Fidtrack.Recognition

/-!
# The regions that may be fingers

After the search for markers the white regions of the size of a finger are reported,
with their boxes and the middles of these.  No component of the image that is inside
it and has such a box is missed.
-/

namespace OfxPrimes.Fidtrack

open OfxPrimes.Graph Fiducial

/-! ## The search -/

/-- What is reported of a region. -/
def regionXOf (region : Region) : RegionX where
  top := region.top
  left := region.left
  width := toShort (region.right - region.left + 1)
  height := toShort (region.bottom - region.top + 1)
  x := toShort (region.left + (toShort (region.right - region.left + 1)).tdiv 2)
  y := toShort (region.top + (toShort (region.bottom - region.top + 1)).tdiv 2)
  area := region.area

/-- `max_object_size` is half the height of the image, and `min_object_size` is 2. -/
def isObject (height : ℕ) (region : RegionX) : Bool :=
  region.width > 2 ∧ region.width < ((height / 2 : ℕ) : ℤ) ∧
    region.height > 2 ∧ region.height < ((height / 2 : ℕ) : ℤ)

/-- The loop of `find_regionsX`.  A white region is written to the next place of
`regions`, where the next overwrites it if it does not have the right size. -/
def regionsFrom (s : Segmenter) (height maxCount : ℕ) : List RegionX → List ℕ →
    Option (List RegionX)
  | found, [] => some found
  | found, i :: rest =>
      if (s.regions i).colour = 255 then do
        guard (found.length < maxCount)
        let region := regionXOf (s.regions i)
        if isObject height region then
          let found := found ++ [region]
          if found.length = maxCount then some found
          else regionsFrom s height maxCount found rest
        else regionsFrom s height maxCount found rest
      else regionsFrom s height maxCount found rest

/-- `find_regionsX( regions, max_count, ft, segments, width, height )`, without a
`pixelwarp`. -/
def findRegionsX (search : Search) (height maxCount : ℕ) : Option (Search × List RegionX) := do
  let search := { search with tracker.rootRegions := [] }
  let regions ← regionsFrom search.segmenter height maxCount []
    (List.range search.segmenter.regionCount)
  some (search, regions)

/-! ## The loop -/

variable {s s' : Segmenter} {height maxCount : ℕ}

/-- The region is white and has the size of a finger. -/
def isFinger (s : Segmenter) (height r : ℕ) : Bool :=
  (s.regions r).colour = 255 ∧ isObject height (regionXOf (s.regions r)) = true

/-- The loop ends with the first regions that may be fingers. -/
theorem regionsFrom_spec (s : Segmenter) (height : ℕ) (list : List ℕ) :
    ∀ found : List RegionX, found.length < maxCount →
      regionsFrom s height maxCount found list = some (found ++
        ((list.filter (isFinger s height)).take (maxCount - found.length)).map fun r =>
          regionXOf (s.regions r)) := by
  induction list with
  | nil =>
      intro found _
      simp [regionsFrom]
  | cons i rest ih =>
      intro found room
      rw [regionsFrom]
      by_cases white : (s.regions i).colour = 255
      · simp only [if_pos white, room, guard_eq_some, Option.bind_eq_bind, Option.bind_some]
        by_cases fits : isObject height (regionXOf (s.regions i)) = true
        · have isIn : isFinger s height i = true := by
            rw [isFinger, decide_eq_true_eq]
            exact ⟨white, fits⟩
          have more : maxCount - found.length = maxCount - (found.length + 1) + 1 := by omega
          rw [if_pos fits, List.filter_cons_of_pos isIn, more, List.take_succ_cons, List.map_cons,
            List.length_append, List.length_singleton]
          by_cases full : found.length + 1 = maxCount
          · rw [if_pos full, full, Nat.sub_self, List.take_zero, List.map_nil]
          · rw [if_neg full, ih _ (by rw [List.length_append, List.length_singleton]; omega),
              List.append_assoc, List.length_append, List.length_singleton]
            rfl
        · have isOut : ¬ isFinger s height i = true := by
            rw [isFinger, decide_eq_true_eq]
            exact fun both => fits both.2
          rw [if_neg fits, List.filter_cons_of_neg isOut]
          exact ih found room
      · have isOut : ¬ isFinger s height i = true := by
          rw [isFinger, decide_eq_true_eq]
          exact fun both => white both.1
        rw [if_neg white, List.filter_cons_of_neg isOut]
        exact ih found room

/-- The loop reads of a region what it has of the image. -/
theorem regionXOf_congr {region region' : Region} (same : region'.drawn = region.drawn) :
    region'.colour = region.colour ∧ regionXOf region' = regionXOf region := by
  have colour := congrArg Region.colour same
  have regionX := congrArg regionXOf same
  exact ⟨colour, regionX⟩

theorem isFinger_congr (same : ∀ a, (s'.regions a).drawn = (s.regions a).drawn) :
    isFinger s' height = isFinger s height := by
  funext r
  obtain ⟨colour, regionX⟩ := regionXOf_congr (same r)
  rw [isFinger, isFinger, colour, regionX]

/-! ## The boxes of the components -/

/-- The box of the component of a pixel. -/
structure HasBox {w h : ℕ} (frame : Frame w h) (p : ℕ × ℕ) (left top right bottom : ℤ) :
    Prop where
  left : IsLeast ((fun q => (q.1 : ℤ)) '' frame.component p) left
  top : IsLeast ((fun q => (q.2 : ℤ)) '' frame.component p) top
  right : IsGreatest ((fun q => (q.1 : ℤ)) '' frame.component p) right
  bottom : IsGreatest ((fun q => (q.2 : ℤ)) '' frame.component p) bottom

section Boxes

variable {w h : ℕ} {frame : Frame w h} {label : ℕ × ℕ → ℕ} {p : ℕ × ℕ}
  {left top right bottom : ℤ}

theorem HasBox.range (box : HasBox frame p left top right bottom) :
    (0 ≤ left ∧ right + 1 < 2 ^ 15) ∧ 0 ≤ top ∧ bottom + 1 < 2 ^ 15 := by
  obtain ⟨q, _, isLeft⟩ := box.left.1
  obtain ⟨q', _, isTop⟩ := box.top.1
  obtain ⟨a, memA, isRight⟩ := box.right.1
  obtain ⟨b, memB, isBottom⟩ := box.bottom.1
  have insideA := memA.1.1
  have insideB := memB.1.2
  have width := frame.width_lt
  have height := frame.height_lt
  refine ⟨⟨?_, ?_⟩, ?_, ?_⟩ <;> simp only at isLeft isTop isRight isBottom <;> omega

/-- The region of a component that is inside the image has the box of it. -/
theorem Bounded.regionXOf_eq (bounded : Bounded frame s label) (insideP : Inside w h p)
    (inner : ∀ q ∈ frame.component p, ¬ AtEdge w h q)
    (box : HasBox frame p left top right bottom)
    (wide : 0 ≤ right - left + 1) (high : 0 ≤ bottom - top + 1) :
    regionXOf (s.regions (label p)) =
      { top := top, left := left, width := right - left + 1, height := bottom - top + 1,
        x := left + (right - left + 1) / 2, y := top + (bottom - top + 1) / 2,
        area := (s.regions (label p)).area } := by
  have notRoot : (s.regions (label p)).flags.adjacentToRoot = false := by
    rw [← Bool.not_eq_true, bounded.root p insideP]
    rintro ⟨q, mem, atEdge⟩
    exact inner q mem atEdge
  have isLeft := (bounded.left p insideP).unique box.left
  have isTop := (bounded.top p insideP).unique box.top
  have isRight := (bounded.right p insideP notRoot).unique box.right
  have isBottom := (bounded.bottom p insideP notRoot).unique box.bottom
  obtain ⟨⟨lowX, highX⟩, lowY, highY⟩ := box.range
  have width : toShort (right - left + 1) = right - left + 1 := by
    apply toShort_eq_self <;> omega
  have height : toShort (bottom - top + 1) = bottom - top + 1 := by
    apply toShort_eq_self <;> omega
  have halfWidth : (right - left + 1).tdiv 2 = (right - left + 1) / 2 :=
    Int.tdiv_eq_ediv_of_nonneg wide
  have halfHeight : (bottom - top + 1).tdiv 2 = (bottom - top + 1) / 2 :=
    Int.tdiv_eq_ediv_of_nonneg high
  have x : toShort (left + (right - left + 1) / 2) = left + (right - left + 1) / 2 := by
    apply toShort_eq_self <;> omega
  have y : toShort (top + (bottom - top + 1) / 2) = top + (bottom - top + 1) / 2 := by
    apply toShort_eq_self <;> omega
  rw [regionXOf, isLeft, isTop, isRight, isBottom, width, height, halfWidth, halfHeight, x, y]

end Boxes

/-! ## Results -/

/-- A region that is reported is a white component of the image, or is left over from
one. -/
def FromImage (s s' : Segmenter) (frame : Frame s.width s.height) (region : RegionX) : Prop :=
  ∃ r < s'.regionCount, region = regionXOf (s'.regions r) ∧ (r ∈ s'.freedRegions ∨
    ∃ p, Inside s.width s.height p ∧ frame.colour p = 255 ∧
      IsLeast ((fun q => (q.1 : ℤ)) '' frame.component p) region.left ∧
      IsLeast ((fun q => (q.2 : ℤ)) '' frame.component p) region.top)

/-- A component that is inside the image and has the size of a finger is reported. -/
def Complete (s : Segmenter) (frame : Frame s.width s.height) (regions : List RegionX) : Prop :=
  ∀ p left top right bottom, Inside s.width s.height p → frame.colour p = 255 →
    (∀ q ∈ frame.component p, ¬ AtEdge s.width s.height q) →
    HasBox frame p left top right bottom → 2 < right - left + 1 →
    right - left + 1 < ((s.height / 2 : ℕ) : ℤ) → 2 < bottom - top + 1 →
    bottom - top + 1 < ((s.height / 2 : ℕ) : ℤ) →
    ∃ region ∈ regions, region.left = left ∧ region.top = top ∧
      region.width = right - left + 1 ∧ region.height = bottom - top + 1 ∧
      region.x = left + (right - left + 1) / 2 ∧ region.y = top + (bottom - top + 1) / 2

/-- After the search for markers, the regions that are reported for the fingers have
the right size and come from white components.  Where there is room for more, no such
component is missed that is inside the image. -/
theorem findRegionsX_spec {s s' : Segmenter} {frame : Frame s.width s.height}
    {markers : List Marker} {map : TreeIdMap}
    (built : initializeTreeidmap (markers.map Marker.text) = some map)
    (ran : stepSegmenter s frame.source = some s') (few : s'.regionCount ≤ 2 ^ 15)
    (fiducialCount : ℕ) {maxCount : ℕ} (room : 0 < maxCount) :
    ∃ search found search' regions,
      findFiducialsX ⟨s', initializeFidtrackerX map⟩ fiducialCount = some (search, found) ∧
      findRegionsX search s.height maxCount = some (search', regions) ∧
      regions.length ≤ maxCount ∧
      (∀ region ∈ regions, isObject s.height region = true ∧ FromImage s s' frame region) ∧
      (regions.length < maxCount → Complete s frame regions) := by
  obtain ⟨label, finished⟩ := surveyed_of_stepSegmenter ran
  have knows := knows_of_initializeTreeidmap built
  obtain ⟨_, search, found, _, reports, _, count, same⟩ :=
    knows.reported (segmented_of_finished finished) few fiducialCount
  have same' : (fun r => regionXOf (search.segmenter.regions r)) =
      fun r => regionXOf (s'.regions r) := by
    funext r
    exact (regionXOf_congr (same r)).2
  have listed := regionsFrom_spec search.segmenter s.height
    (List.range search.segmenter.regionCount) [] room
  rw [isFinger_congr same, count, List.length_nil, Nat.sub_zero, List.nil_append, same'] at listed
  have result : findRegionsX search s.height maxCount =
      some ({ search with tracker.rootRegions := [] },
        (((List.range s'.regionCount).filter (isFinger s' s.height)).take maxCount).map
          fun r => regionXOf (s'.regions r)) := by
    simp only [findRegionsX, count, listed, Option.bind_eq_bind, Option.bind_some]
  refine ⟨search, found, _, _, reports, result, ?_, ?_, ?_⟩
  · rw [List.length_map]
    exact List.length_take_le _ _
  · intro region mem
    obtain ⟨r, memR, rfl⟩ := List.mem_map.mp mem
    obtain ⟨inRange, isIn⟩ := List.mem_filter.mp (List.mem_of_mem_take memR)
    rw [isFinger, decide_eq_true_eq] at isIn
    have inside := List.mem_range.mp inRange
    refine ⟨isIn.2, r, inside, rfl, ?_⟩
    by_cases freed : r ∈ s'.freedRegions
    · exact Or.inl freed
    · obtain ⟨p, insideP, rfl⟩ := finished.partition.onto r ⟨inside, freed⟩
      exact Or.inr ⟨p, insideP, (finished.partition.colour p insideP).symm.trans isIn.1,
        finished.bounded.left p insideP, finished.bounded.top p insideP⟩
  · intro enough p left top right bottom insideP white inner box wide narrow high low
    have equal := finished.bounded.regionXOf_eq insideP inner box (by omega) (by omega)
    have live := finished.partition.live p insideP
    have isIn : isFinger s' s.height (label p) = true := by
      rw [isFinger, decide_eq_true_eq]
      refine ⟨(finished.partition.colour p insideP).trans white, ?_⟩
      rw [isObject, decide_eq_true_eq, equal]
      exact ⟨wide, narrow, high, low⟩
    have all : ((List.range s'.regionCount).filter (isFinger s' s.height)).take maxCount =
        (List.range s'.regionCount).filter (isFinger s' s.height) := by
      rw [List.length_map, List.length_take, min_lt_iff] at enough
      exact List.take_of_length_le (enough.resolve_left (lt_irrefl maxCount)).le
    refine ⟨regionXOf (s'.regions (label p)), ?_, ?_⟩
    · rw [all]
      exact List.mem_map_of_mem (List.mem_filter.mpr ⟨List.mem_range.mpr live.1, isIn⟩)
    · rw [equal]
      exact ⟨rfl, rfl, rfl, rfl, rfl, rfl⟩

/-- The white ring, in an image so high that the ring has the size of a finger. -/
def ringApart : Frame 8 8 where
  source :=
    [0, 0, 0, 0, 0, 0, 0, 0,
     0, 0, 0, 0, 0, 0, 0, 0,
     0, 0, 255, 255, 255, 0, 0, 0,
     0, 0, 255, 0, 255, 0, 0, 0,
     0, 0, 255, 255, 255, 0, 0, 0,
     0, 0, 0, 0, 0, 0, 0, 0,
     0, 0, 0, 0, 0, 0, 0, 0,
     0, 0, 0, 0, 0, 0, 0, 0]
  length_eq := rfl
  binary := by simp
  width_pos := by decide
  height_pos := by decide
  width_lt := by omega
  height_lt := by omega

theorem findRegionsX_spec_ring :
    ∃ s' search found search' regions,
      stepSegmenter (initializeSegmenter blankSegmenter 8 8 2) ringApart.source = some s' ∧
      findFiducialsX ⟨s', initializeFidtrackerX ringMap⟩ 12 = some (search, found) ∧
      findRegionsX search 8 12 = some (search', regions) ∧ regions.length ≤ 12 ∧
      (∀ region ∈ regions, isObject 8 region = true ∧
        FromImage (initializeSegmenter blankSegmenter 8 8 2) s' ringApart region) ∧
      (regions.length < 12 →
        Complete (initializeSegmenter blankSegmenter 8 8 2) ringApart regions) := by
  obtain ⟨s', ran, few⟩ :=
    exists_stepSegmenter (initializeSegmenter blankSegmenter 8 8 2) ringApart
  have bound : 8 * 8 ≤ 2 ^ 15 := by omega
  have built : initializeTreeidmap ([ringMarker].map Marker.text) = some ringMap := by decide
  obtain ⟨search, found, search', regions, reports, results⟩ :=
    findRegionsX_spec (s := initializeSegmenter blankSegmenter 8 8 2) built ran (few.trans bound)
      12 (Nat.succ_pos 11)
  exact ⟨s', search, found, search', regions, ran, reports, results⟩

/-- The ring is reported with its box and the middle of it. -/
example :
    ((stepSegmenter (initializeSegmenter blankSegmenter 8 8 2) ringApart.source).bind fun s =>
      (findFiducialsX ⟨s, initializeFidtrackerX ringMap⟩ 12).bind fun found =>
        (findRegionsX found.1 8 12).map Prod.snd) = some [⟨2, 2, 3, 3, 3, 3, 0⟩] := by
  decide +kernel

end OfxPrimes.Fidtrack
