import OfxPrimes.Fidtrack.Lines
import Mathlib.Order.Bounds.Basic

/-!
# What the segmenter finds

The regions in use are the connected components of the image, the lists of the
regions are the pairs of components that are side by side, and the flags tell
which components touch the edge of the image.
-/

namespace OfxPrimes.Fidtrack

open OfxPrimes.Graph Segmenter

variable {w h : ℕ} {frame : Frame w h} {s s' : Segmenter} {label : ℕ × ℕ → ℕ} {p q : ℕ × ℕ}
  {a b : ℕ}

/-- The pixels that a path of pixels of one colour leads to. -/
def Frame.component (frame : Frame w h) (p : ℕ × ℕ) : Set (ℕ × ℕ) :=
  {q | Inside w h q ∧ Joined frame.near (Inside w h) p q}

/-- The regions in use are the components of the image. -/
structure Partition (frame : Frame w h) (s : Segmenter) (label : ℕ × ℕ → ℕ) : Prop where
  live : ∀ p, Inside w h p → s.outline.Live (label p)
  onto : ∀ r, s.outline.Live r → ∃ p, Inside w h p ∧ label p = r
  component : ∀ p q, Inside w h p → Inside w h q → (label p = label q ↔ q ∈ frame.component p)
  colour : ∀ p, Inside w h p → (s.regions (label p)).colour = frame.colour p

/-- The lists of the regions are those of the components that are side by side. -/
structure Neighbours (frame : Frame w h) (s : Segmenter) (label : ℕ × ℕ → ℕ) : Prop where
  border : ∀ a < s.regionCount, ∀ b, s.Linked a b →
    ∃ p q, Inside w h p ∧ Inside w h q ∧ frame.Border p q ∧ label p = a ∧ label q = b
  accounted : ∀ p q, Inside w h p → Inside w h q → frame.Border p q →
    s.Accounted (label p) (label q)

/-- The boxes of the regions, and which of them touch the edge of the image. -/
structure Bounded (frame : Frame w h) (s : Segmenter) (label : ℕ × ℕ → ℕ) : Prop where
  root : ∀ p, Inside w h p → ((s.regions (label p)).flags.adjacentToRoot = true ↔
    ∃ q ∈ frame.component p, AtEdge w h q)
  left : ∀ p, Inside w h p →
    IsLeast ((fun q => (q.1 : ℤ)) '' frame.component p) (s.regions (label p)).left
  top : ∀ p, Inside w h p →
    IsLeast ((fun q => (q.2 : ℤ)) '' frame.component p) (s.regions (label p)).top
  right : ∀ p, Inside w h p → (s.regions (label p)).flags.adjacentToRoot = false →
    IsGreatest ((fun q => (q.1 : ℤ)) '' frame.component p) (s.regions (label p)).right
  bottom : ∀ p, Inside w h p → (s.regions (label p)).flags.adjacentToRoot = false →
    IsGreatest ((fun q => (q.2 : ℤ)) '' frame.component p) (s.regions (label p)).bottom

/-- The survey of a whole image. -/
abbrev Finished (frame : Frame w h) (m : ℕ) (s : Segmenter) (label : ℕ × ℕ → ℕ) : Prop :=
  Surveyed frame m (h * w) (Inside w h) (frame.SeenBorder (Inside w h)) (fun _ => False)
    (AtEdge w h) s label

namespace Surveyed

variable {m : ℕ} (finished : Finished frame m s label)
include finished

theorem label_eq_iff (insideP : Inside w h p) (insideQ : Inside w h q) :
    label p = label q ↔ q ∈ frame.component p := by
  rw [finished.charted.labelled.labels insideP insideQ]
  exact (and_iff_right insideQ).symm

theorem partition : Partition frame s label where
  live := finished.charted.labelled.live
  onto := finished.charted.labelled.onto
  component _ _ := finished.label_eq_iff
  colour := finished.charted.labelled.colour

theorem neighbours : Neighbours frame s label where
  border := finished.charted.linked
  accounted _ _ insideP insideQ border := finished.accounts ⟨insideP, insideQ, border⟩

/-- What a side of the box attains is the coordinate of a pixel of the component. -/
theorem attained {side : ℕ → ℤ} {coord : ℕ × ℕ → ℕ}
    (attains : Attains (Inside w h) label side coord) (insideP : Inside w h p) :
    side (label p) ∈ (fun q => (coord q : ℤ)) '' frame.component p := by
  obtain ⟨q, insideQ, same, equal⟩ := attains insideP
  exact ⟨q, (finished.label_eq_iff insideP insideQ).mp same.symm, equal.symm⟩

theorem isLeast {side : ℕ → ℤ} {coord : ℕ × ℕ → ℕ}
    (atMost : AtMost (Inside w h) label side coord)
    (attains : Attains (Inside w h) label side coord) (insideP : Inside w h p) :
    IsLeast ((fun q => (coord q : ℤ)) '' frame.component p) (side (label p)) := by
  constructor
  · exact finished.attained attains insideP
  · rintro _ ⟨q, mem, rfl⟩
    rw [(finished.label_eq_iff insideP mem.1).mpr mem]
    exact atMost mem.1

theorem isGreatest {side : ℕ → ℤ} {coord : ℕ × ℕ → ℕ} {except : ℕ × ℕ → Prop}
    (covers : Covers (Inside w h) except label side coord)
    (attains : Attains (Inside w h) label side coord) (insideP : Inside w h p)
    (notExcept : ∀ q, label q = label p → ¬ except q) :
    IsGreatest ((fun q => (coord q : ℤ)) '' frame.component p) (side (label p)) := by
  constructor
  · exact finished.attained attains insideP
  · rintro _ ⟨q, mem, rfl⟩
    have same := (finished.label_eq_iff insideP mem.1).mpr mem
    rcases covers mem.1 with excepted | covered
    · exact absurd excepted (notExcept q same.symm)
    · rw [same]
      exact covered

theorem bounded : Bounded frame s label where
  root p insideP := by
    rw [finished.boxed.root p insideP]
    constructor
    · rintro ⟨q, insideQ, same, atEdge⟩
      exact ⟨q, (finished.label_eq_iff insideP insideQ).mp same.symm, atEdge⟩
    · rintro ⟨q, mem, atEdge⟩
      exact ⟨q, mem.1, ((finished.label_eq_iff insideP mem.1).mpr mem).symm, atEdge⟩
  left _ := finished.isLeast finished.boxed.left finished.boxed.leftAt
  top _ := finished.isLeast finished.boxed.top finished.boxed.topAt
  right p insideP noRoot := by
    apply finished.isGreatest finished.boxed.right finished.boxed.rightAt insideP
    rintro q same (isRoot | impossible)
    · rw [same, noRoot] at isRoot
      exact absurd isRoot Bool.false_ne_true
    · exact impossible
  bottom p insideP noRoot := by
    apply finished.isGreatest finished.boxed.bottom finished.boxed.bottomAt insideP
    intro q same isRoot
    rw [same, noRoot] at isRoot
    exact absurd isRoot Bool.false_ne_true

end Surveyed

/-! ## Results -/

/-- No assertion of the segmenter fails on any image, it takes at most a region and a
reference for each pixel, and the lists it leaves are mutual and within their bound. -/
theorem stepSegmenter_safe (s : Segmenter) (frame : Frame s.width s.height) :
    ∃ s', stepSegmenter s frame.source = some s' ∧ s'.regionCount ≤ s.width * s.height ∧
      s'.regionRefCount ≤ s.width * s.height ∧ s'.maxAdjacentRegions = s.maxAdjacentRegions ∧
      s'.Adjacency := by
  obtain ⟨s', label, ran, finished⟩ := buildRegions_spec s frame
  have refs : s'.regionRefCount ≤ s.width * s.height := by
    rw [Nat.mul_comm]
    exact finished.regionRefCount
  exact ⟨s', ran, finished.regionCount.trans refs, refs, finished.maxAdjacentRegions,
    finished.charted.adjacency⟩

/-- The regions in use are the components of the image, and their boxes and flags
tell where the components are. -/
theorem stepSegmenter_components (s : Segmenter) (frame : Frame s.width s.height) :
    ∃ s' label, stepSegmenter s frame.source = some s' ∧ Partition frame s' label ∧
      Bounded frame s' label := by
  obtain ⟨s', label, ran, finished⟩ := buildRegions_spec s frame
  exact ⟨s', label, ran, finished.partition, finished.bounded⟩

/-- The lists are those of the components that are side by side.  What is missing
in the list of a region, the flags of the region tell. -/
theorem stepSegmenter_neighbours (s : Segmenter) (frame : Frame s.width s.height) :
    ∃ s' label, stepSegmenter s frame.source = some s' ∧ Partition frame s' label ∧
      Neighbours frame s' label ∧
      ∀ a < s'.regionCount, (s'.regions a).flags.saturated = false →
        (s'.regions a).flags.fragmented = false → ∀ b, (s'.Linked a b ↔
          ∃ p q, Inside s.width s.height p ∧ Inside s.width s.height q ∧ frame.Border p q ∧
            label p = a ∧ label q = b) := by
  obtain ⟨s', label, ran, finished⟩ := buildRegions_spec s frame
  refine ⟨s', label, ran, finished.partition, finished.neighbours, ?_⟩
  intro a insideA notSaturated notFragmented b
  constructor
  · exact finished.charted.linked a insideA b
  · rintro ⟨p, q, insideP, insideQ, border, rfl, rfl⟩
    rcases finished.accounts ⟨insideP, insideQ, border⟩ with linked | ⟨isSaturated, _⟩ | ⟨_, cut⟩
    · exact linked
    · rw [notSaturated] at isSaturated
      exact absurd isSaturated Bool.false_ne_true
    · rw [notFragmented] at cut
      exact absurd cut Bool.false_ne_true

end OfxPrimes.Fidtrack
