import OfxPrimes.Fidtrack.Region

/-!
# From an image to its regions

The image is read line by line.  A pixel joins the region of the pixel before it or
above it, two regions that meet are merged, and regions of different colours that
meet are made adjacent.
-/

namespace OfxPrimes.Fidtrack

open Forest

/-- A black and white image whose size is that of the segmenter. -/
structure Frame (width height : ℕ) where
  source : List UInt8
  length_eq : source.length = width * height
  binary : ∀ colour ∈ source, colour = 0 ∨ colour = 255
  width_pos : 0 < width
  height_pos : 0 < height
  /-- `short width` -/
  width_lt : width < 2 ^ 15
  /-- `short height` -/
  height_lt : height < 2 ^ 15

/-- The segmenter, with `current_row` and `previous_row`. -/
structure Scan where
  segmenter : Segmenter
  currentRow : ℕ → ℕ
  previousRow : ℕ → ℕ

namespace Segmenter

/-- `ref->redirect`. -/
def redirect (s : Segmenter) (ref : ℕ) : ℕ :=
  (s.regionRefs ref).redirect

/-- `ref->region`, which is `NULL` once the region is merged. -/
def regionOf (s : Segmenter) (ref : ℕ) : Option ℕ :=
  (s.regionRefs ref).region

/-- `ref->redirect = target`. -/
def setRedirect (s : Segmenter) (ref target : ℕ) : Segmenter :=
  { s with regionRefs :=
      Function.update s.regionRefs ref { s.regionRefs ref with redirect := target } }

/-- Free a merged region, whose reference is redirected. -/
def freeRegion (s : Segmenter) (r ref target : ℕ) : Segmenter :=
  { s.modifyRegion r Region.setFree with
    freedRegions := r :: s.freedRegions
    regionRefs := Function.update s.regionRefs ref ⟨none, target⟩ }

/-- Extend the box to the right. -/
def closeRight (s : Segmenter) (r x : ℕ) : Segmenter :=
  if (s.regions r).right < x then s.modifyRegion r (Region.setRight (toShort x)) else s

/-- Extend the box downwards. -/
def setBottom (s : Segmenter) (r y : ℕ) : Segmenter :=
  s.modifyRegion r (Region.setBottom (toShort y))

end Segmenter

/-- `RESOLVE_REGIONREF_REDIRECTS( x, r )`, with what `x` is set to. -/
def resolveRedirects (s : Segmenter) (r : ℕ) : Option (Segmenter × ℕ) :=
  if s.redirect r ≠ r then do
    let result ← chase s.redirect s.regionRefCount r
    some (s.setRedirect r result, result)
  else some (s, r)

/-- `RESOLVE_REGIONREF_REDIRECTS( previous_row[x], previous_row[x] )`. -/
def resolvePrevious (scan : Scan) (x : ℕ) : Option Scan := do
  let (s, ref) ← resolveRedirects scan.segmenter (scan.previousRow x)
  some { scan with segmenter := s, previousRow := Function.update scan.previousRow x ref }

/-- The first pixel of the image. -/
def firstPixel (source : List UInt8) (s : Segmenter) : Option Scan := do
  let here ← source[0]?
  let (s, ref) ← newRegion s 0 0 here
  let r ← s.regionOf ref
  -- what the rows held before is never read
  some ⟨s.markAdjacentToRoot r, Function.update (fun _ => 0) 0 ref, fun _ => 0⟩

/-- A pixel of the top line, but the first. -/
def topPixel (source : List UInt8) (scan : Scan) (x : ℕ) : Option Scan := do
  let here ← source[x]?
  let west ← source[x - 1]?
  if here = west then
    some { scan with
      currentRow := Function.update scan.currentRow x (scan.currentRow (x - 1)) }
  else do
    let (s, ref) ← newRegion scan.segmenter x 0 here
    let r ← s.regionOf ref
    let before ← s.regionOf (scan.currentRow (x - 1))
    let s ← makeAdjacent (s.markAdjacentToRoot r) r before
    some { scan with segmenter := s, currentRow := Function.update scan.currentRow x ref }

/-- The pixel at the left edge of a line. -/
def leftPixel (source : List UInt8) (y : ℕ) (scan : Scan) : Option Scan := do
  let here ← source[y * scan.segmenter.width]?
  let scan ← resolvePrevious scan 0
  let above ← scan.segmenter.regionOf (scan.previousRow 0)
  if here = (scan.segmenter.regions above).colour then
    some { scan with currentRow := Function.update scan.currentRow 0 (scan.previousRow 0) }
  else do
    let (s, ref) ← newRegion scan.segmenter 0 y here
    let r ← s.regionOf ref
    let s ← makeAdjacent (s.markAdjacentToRoot r) r above
    some { scan with segmenter := s, currentRow := Function.update scan.currentRow 0 ref }

/-- A pixel of the center span whose colour is that of the pixel before it. -/
def continuePixel (here : UInt8) (scan : Scan) (x : ℕ) : Option Scan := do
  let s := scan.segmenter
  let ref := scan.currentRow (x - 1)
  let target := scan.previousRow x
  if ref ≠ target then do
    let above ← s.regionOf target
    if here = (s.regions above).colour then do
      -- the current region is merged into the previous one
      let region ← s.regionOf ref
      let s ← mergeRegions s above region
      some { scan with
        segmenter := s.freeRegion region ref target
        currentRow := Function.update scan.currentRow x target }
    else some { scan with currentRow := Function.update scan.currentRow x ref }
  else some { scan with currentRow := Function.update scan.currentRow x ref }

/-- A pixel of the center span whose colour is not that of the pixel before it. -/
def changePixel (here : UInt8) (y : ℕ) (scan : Scan) (x : ℕ) : Option Scan := do
  let target := scan.previousRow x
  let before ← scan.segmenter.regionOf (scan.currentRow (x - 1))
  let s := scan.segmenter.closeRight before (x - 1)
  let above ← s.regionOf target
  if here = (s.regions above).colour then
    some { scan with
      segmenter := s.setBottom above y
      currentRow := Function.update scan.currentRow x target }
  else do
    let (s, ref) ← newRegion s x y here
    let r ← s.regionOf ref
    let s ← makeAdjacent s r above
    let s ← if before ≠ above then makeAdjacent s r before else some s
    some { scan with segmenter := s, currentRow := Function.update scan.currentRow x ref }

/-- A pixel of the center span. -/
def centerPixel (source : List UInt8) (y : ℕ) (scan : Scan) (x : ℕ) : Option Scan := do
  let here ← source[y * scan.segmenter.width + x]?
  let west ← source[y * scan.segmenter.width + x - 1]?
  let scan ← resolvePrevious scan x
  if here = west then continuePixel here scan x else changePixel here y scan x

/-- The region at the end of a line is adjacent to the root. -/
def rightEdge (scan : Scan) : Option Scan := do
  let r ← scan.segmenter.regionOf (scan.currentRow (scan.segmenter.width - 1))
  some { scan with segmenter := scan.segmenter.markAdjacentToRoot r }

/-- The top line. -/
def topLine (source : List UInt8) (s : Segmenter) : Option Scan := do
  let scan ← firstPixel source s
  Transition.run (topPixel source) scan (List.range' 1 (s.width - 1))

/-- One of the other lines. -/
def processLine (source : List UInt8) (scan : Scan) (y : ℕ) : Option Scan := do
  let scan := { scan with currentRow := scan.previousRow, previousRow := scan.currentRow }
  let scan ← leftPixel source y scan
  let scan ← Transition.run (centerPixel source y) scan
    (List.range' 1 (scan.segmenter.width - 1))
  rightEdge scan

/-- A pixel of the bottom row, whose region is adjacent to the root. -/
def bottomPixel (scan : Scan) (x : ℕ) : Option Scan := do
  let (s, ref) ← resolveRedirects scan.segmenter (scan.currentRow x)
  let r ← s.regionOf ref
  some { scan with
    segmenter := s.markAdjacentToRoot r
    currentRow := Function.update scan.currentRow x ref }

/-- `build_regions( s, source )`. -/
def buildRegions (s : Segmenter) (source : List UInt8) : Option Segmenter := do
  let s := { s with regionRefCount := 0, regionCount := 0, freedRegions := [] }
  let scan ← topLine source s
  let scan ← Transition.run (processLine source) scan (List.range' 1 (s.height - 1))
  let scan ← Transition.run bottomPixel scan (List.range s.width)
  some scan.segmenter

/-- `step_segmenter( s, source )`, where the buffers could be had. -/
def stepSegmenter (s : Segmenter) (source : List UInt8) : Option Segmenter :=
  buildRegions s source

end OfxPrimes.Fidtrack
