import OfxPrimes.Graph.SwapRemoval
import OfxPrimes.Forest.Redirects
import OfxPrimes.Platform
import OfxPrimes.Transition.Run

/-!
# Regions of the segmenter

The segmenter keeps the regions of an image in a buffer, and points to them by
their places in it.  A region knows its box, its flags and the regions next to
it.  A failed assertion, and whatever the C code leaves undefined, is `none`.
-/

namespace OfxPrimes.Fidtrack

open OfxPrimes.Graph

/-- `(short)n`. -/
def toShort (n : ℤ) : ℤ :=
  Int.bmod n (2 ^ 16)

theorem toShort_eq_self {n : ℤ} (lower : -2 ^ 15 ≤ n) (upper : n < 2 ^ 15) : toShort n = n := by
  rw [toShort]
  apply Int.bmod_eq_of_le <;> omega

/-- An assertion that holds. -/
theorem guard_eq_some {claim : Prop} [Decidable claim] (holds : claim) :
    (guard claim : Option Unit) = some () :=
  if_pos holds

/-- `UNKNOWN_REGION_LEVEL`, which is `NOT_TRAVERSED`, then `TRAVERSED` and `TRAVERSING`. -/
inductive RegionLevel
  | notTraversed
  | traversed
  | traversing
  deriving DecidableEq, Repr

/-- The bits of `flags`. -/
structure RegionFlags where
  /-- `FREE_REGION_FLAG` -/
  free : Bool
  /-- `ADJACENT_TO_ROOT_REGION_FLAG` -/
  adjacentToRoot : Bool
  /-- `SATURATED_REGION_FLAG` -/
  saturated : Bool
  /-- `FRAGMENTED_REGION_FLAG` -/
  fragmented : Bool
  /-- `LOST_SYMBOL_FLAG` -/
  lostSymbol : Bool
  deriving DecidableEq, Repr

/-- `NO_REGION_FLAG`. -/
def RegionFlags.noRegionFlag : RegionFlags :=
  ⟨false, false, false, false, false⟩

/-- `first | second`. -/
def RegionFlags.union (first second : RegionFlags) : RegionFlags where
  free := first.free || second.free
  adjacentToRoot := first.adjacentToRoot || second.adjacentToRoot
  saturated := first.saturated || second.saturated
  fragmented := first.fragmented || second.fragmented
  lostSymbol := first.lostSymbol || second.lostSymbol

/-- `struct Region`.  The links of the lists that a region is in are kept by the
lists, and `adjacent_region_count` is the length of `adjacentRegions`.  It and
`children_visited_count` are a `short` in the code, so `max_adjacent_regions` is taken
to be less than 2^15. -/
structure Region where
  colour : UInt8
  left : ℤ
  top : ℤ
  right : ℤ
  bottom : ℤ
  area : ℤ
  flags : RegionFlags
  level : RegionLevel
  depth : ℤ
  childrenVisitedCount : ℤ
  descendentCount : ℤ
  depthString : Option Text
  adjacentRegions : List ℕ
  deriving DecidableEq, Repr

namespace Region

/-- `FRAGMENTED_REGION_FLAG` is set. -/
def markFragmented (region : Region) : Region :=
  { region with flags.fragmented := true }

/-- `ADJACENT_TO_ROOT_REGION_FLAG` is set. -/
def markAdjacentToRoot (region : Region) : Region :=
  { region with flags.adjacentToRoot := true }

/-- `adjacent_regions` is replaced, and its count with it. -/
def setAdjacent (adjacent : List ℕ) (region : Region) : Region :=
  { region with adjacentRegions := adjacent }

/-- `SATURATED_REGION_FLAG` is set, and the adjacent regions are given up. -/
def saturate (region : Region) : Region :=
  { region with adjacentRegions := [], flags.saturated := true }

/-- `right` is assigned. -/
def setRight (right : ℤ) (region : Region) : Region :=
  { region with right := right }

/-- `bottom` is assigned. -/
def setBottom (bottom : ℤ) (region : Region) : Region :=
  { region with bottom := bottom }

/-- Only `FREE_REGION_FLAG` is left. -/
def setFree (region : Region) : Region :=
  { region with flags := { RegionFlags.noRegionFlag with free := true } }

end Region

/-- `struct RegionReference`. -/
structure RegionReference where
  region : Option ℕ
  redirect : ℕ
  deriving DecidableEq, Repr

/-- `struct Segmenter`.  The freed regions are linked into a list.  The buffers of
regions and references have no end here.  The code places a region at an `int` offset,
so `sizeof_region * width * height` is taken to fit one. -/
structure Segmenter where
  width : ℕ
  height : ℕ
  maxAdjacentRegions : ℕ
  regions : ℕ → Region
  regionCount : ℕ
  freedRegions : List ℕ
  regionRefs : ℕ → RegionReference
  regionRefCount : ℕ

namespace Segmenter

/-- Change the region at a place. -/
def modifyRegion (s : Segmenter) (r : ℕ) (change : Region → Region) : Segmenter :=
  { s with regions := Function.update s.regions r (change (s.regions r)) }

/-- Set `FRAGMENTED_REGION_FLAG`. -/
def markFragmented (s : Segmenter) (r : ℕ) : Segmenter :=
  s.modifyRegion r Region.markFragmented

/-- Set `ADJACENT_TO_ROOT_REGION_FLAG`. -/
def markAdjacentToRoot (s : Segmenter) (r : ℕ) : Segmenter :=
  s.modifyRegion r Region.markAdjacentToRoot

/-- Overwrite the list of the regions next to a region. -/
def setAdjacent (s : Segmenter) (r : ℕ) (adjacent : List ℕ) : Segmenter :=
  s.modifyRegion r (Region.setAdjacent adjacent)

/-- Empty the list and set `SATURATED_REGION_FLAG`. -/
def saturate (s : Segmenter) (r : ℕ) : Segmenter :=
  s.modifyRegion r Region.saturate

end Segmenter

/-- `initialize_segmenter( s, width, height, max_adjacent_regions )`, with buffers that
hold anything.  What `malloc` is asked for is not said: it is right while the product
`sizeof_region * width * height` fits an `int`. -/
def initializeSegmenter (memory : Segmenter) (width height maxAdjacentRegions : ℕ) : Segmenter :=
  { memory with
    width := width
    height := height
    maxAdjacentRegions := maxAdjacentRegions + 2
    regionRefCount := 0
    regionCount := 0 }

namespace Segmenter

/-- The place that `new_region` takes: that of a freed region, or the next one. -/
def nextRegion (s : Segmenter) : ℕ :=
  s.freedRegions.headD s.regionCount

/-- `new_region( s, x, y, colour )`, past its assertion. -/
def addRegion (s : Segmenter) (x y : ℕ) (colour : UInt8) : Segmenter :=
  { s with
    freedRegions := s.freedRegions.tail
    regionCount := if s.freedRegions = [] then s.regionCount + 1 else s.regionCount
    regions := Function.update s.regions s.nextRegion
      { colour := colour
        left := toShort x
        right := toShort x
        top := toShort y
        bottom := toShort y
        flags := .noRegionFlag
        area := 0
        level := .notTraversed
        depth := 0
        childrenVisitedCount := 0
        descendentCount := 0x7FFF
        depthString := (s.regions s.nextRegion).depthString
        adjacentRegions := [] }
    regionRefs := Function.update s.regionRefs s.regionRefCount
      ⟨some s.nextRegion, s.regionRefCount⟩
    regionRefCount := s.regionRefCount + 1 }

end Segmenter

/-- `new_region( s, x, y, colour )`, with the place of the new reference. -/
def newRegion (s : Segmenter) (x y : ℕ) (colour : UInt8) : Option (Segmenter × ℕ) := do
  guard (colour = 0 ∨ colour = 255)
  some (s.addRegion x y colour, s.regionRefCount)

/-- `r1_adjacent_contains_r2( r1, r2 )`. -/
def r1AdjacentContainsR2 (s : Segmenter) (r1 r2 : ℕ) : Bool :=
  (s.regions r1).adjacentRegions.contains r2

/-- `is_adjacent( r1, r2 )`, which looks through the shorter list. -/
def isAdjacent (s : Segmenter) (r1 r2 : ℕ) : Bool :=
  if (s.regions r1).adjacentRegions.length > (s.regions r2).adjacentRegions.length then
    (s.regions r2).adjacentRegions.contains r1
  else (s.regions r1).adjacentRegions.contains r2

/-- `remove_adjacent_from( r1, r2 )`: remove `r2` from `r1`. -/
def removeAdjacentFrom (s : Segmenter) (r1 r2 : ℕ) : Option Segmenter := do
  let adjacent ← removeFirst r2 (s.regions r1).adjacentRegions
  some (s.setAdjacent r1 adjacent)

/-- `make_saturated( r1 )`.  No region is next to itself, so the list that the
loop reads does not change under it. -/
def makeSaturated (s : Segmenter) (r1 : ℕ) : Option Segmenter := do
  let s ← Transition.run
    (fun s a => do
      let s ← removeAdjacentFrom s a r1
      some (s.markFragmented a))
    s (s.regions r1).adjacentRegions
  some (s.saturate r1)

/-- The middle of `make_adjacent`, for two regions that are not adjacent. -/
def linkRegions (s : Segmenter) (r1 r2 : ℕ) : Option Segmenter :=
  if (s.regions r1).flags.saturated then some (s.markFragmented r2)
  else if (s.regions r2).flags.saturated then some (s.markFragmented r1)
  else if (s.regions r1).adjacentRegions.length = s.maxAdjacentRegions then do
    let s ← makeSaturated s r1
    let s := s.markFragmented r2
    if (s.regions r2).adjacentRegions.length = s.maxAdjacentRegions then do
      let s ← makeSaturated s r2
      some (s.markFragmented r1)
    else some s
  else if (s.regions r2).adjacentRegions.length = s.maxAdjacentRegions then do
    let s ← makeSaturated s r2
    some (s.markFragmented r1)
  else do
    guard ((s.regions r1).adjacentRegions.length < s.maxAdjacentRegions)
    guard ((s.regions r2).adjacentRegions.length < s.maxAdjacentRegions)
    let s := s.setAdjacent r1 ((s.regions r1).adjacentRegions ++ [r2])
    some (s.setAdjacent r2 ((s.regions r2).adjacentRegions ++ [r1]))

/-- `make_adjacent( s, r1, r2 )`. -/
def makeAdjacent (s : Segmenter) (r1 r2 : ℕ) : Option Segmenter := do
  let s ← if isAdjacent s r1 r2 then some s else linkRegions s r1 r2
  guard (r1AdjacentContainsR2 s r1 r2 = r1AdjacentContainsR2 s r2 r1)
  some s

/-- `replace_adjacent( r1, r2, r3 )`: replace `r2` with `r3` in the list of `r1`. -/
def replaceAdjacent (s : Segmenter) (r1 r2 r3 : ℕ) : Option Segmenter := do
  let adjacent ← replaceFirst r2 r3 (s.regions r1).adjacentRegions
  some (s.setAdjacent r1 adjacent)

/-- One turn of the loop that removes from `r2` what is in `r1` already.  An
entry that is moved to the place of a removed one is not looked at. -/
def dropCommonAt (r1 r2 : ℕ) (s : Segmenter) (i : ℕ) : Option Segmenter :=
  match (s.regions r2).adjacentRegions[i]? with
  | none => some s
  | some a =>
      if isAdjacent s a r1 then do
        let s ← removeAdjacentFrom s a r2
        some (s.setAdjacent r2 (swapRemoveAt (s.regions r2).adjacentRegions i))
      else some s

/-- Remove from `r2` what is in `r1` already. -/
def dropCommon (s : Segmenter) (r1 r2 : ℕ) : Option Segmenter :=
  Transition.run (dropCommonAt r1 r2) s (List.range (s.regions r2).adjacentRegions.length)

/-- One turn of the loop that moves what is next to `r2` to `r1`. -/
def transferAdjacent (r1 r2 : ℕ) (s : Segmenter) (a : ℕ) : Option Segmenter := do
  let s ← replaceAdjacent s a r2 r1
  let s := s.setAdjacent r1 ((s.regions r1).adjacentRegions ++ [a])
  guard ((s.regions a).adjacentRegions.length ≤ s.maxAdjacentRegions)
  guard ((s.regions r1).adjacentRegions.length ≤ s.maxAdjacentRegions)
  some s

/-- The part of `merge_regions` that deals with the lists. -/
def mergeAdjacent (s : Segmenter) (r1 r2 : ℕ) : Option Segmenter :=
  if (s.regions r1).flags.saturated then do
    let s ← makeSaturated s r2
    if (s.regions r2).flags.saturated then makeSaturated s r1 else some s
  else if (s.regions r2).flags.saturated then makeSaturated s r1
  else do
    let s ← dropCommon s r1 r2
    if (s.regions r1).adjacentRegions.length + (s.regions r2).adjacentRegions.length >
        s.maxAdjacentRegions then do
      let s ← makeSaturated s r1
      makeSaturated s r2
    else do
      let s ← Transition.run (transferAdjacent r1 r2) s (s.regions r2).adjacentRegions
      some (s.setAdjacent r2 [])

/-- What `merge_regions` makes of the flags and the box of `r1`. -/
def mergeBox (region merged : Region) : Region :=
  { region with
    flags := region.flags.union merged.flags
    left := if merged.left < region.left then merged.left else region.left
    top := if merged.top < region.top then merged.top else region.top
    right := if merged.right > region.right then merged.right else region.right
    bottom := if merged.bottom > region.bottom then merged.bottom else region.bottom }

/-- `merge_regions( s, r1, r2 )`: merge `r2` into `r1`. -/
def mergeRegions (s : Segmenter) (r1 r2 : ℕ) : Option Segmenter := do
  guard (r1 ≠ r2)
  guard (¬ r1AdjacentContainsR2 s r1 r2 ∧ ¬ r1AdjacentContainsR2 s r2 r1)
  let s ← mergeAdjacent s r1 r2
  some (s.modifyRegion r1 fun region => mergeBox region (s.regions r2))

end OfxPrimes.Fidtrack
