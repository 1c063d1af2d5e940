import OfxPrimes.Fidtrack.FidtrackerX
import OfxPrimes.Fidtrack.Segmentation
import OfxPrimes.Forest.Stripping

/-!
# The graph of the regions

The search for markers goes over the graph of the regions.  An image holds no part
without an edge to the rest in which every region knows all its neighbours: the edge
of the image would be in it.
-/

namespace OfxPrimes.Fidtrack

open OfxPrimes.Graph Forest Segmenter

variable {s s' : Segmenter} {a b r : ℕ}

namespace Segmenter

/-- The regions next to a region. -/
def graph (s : Segmenter) (a : ℕ) : List ℕ :=
  if a < s.regionCount then (s.regions a).adjacentRegions else []

/-- The region is in use, knows all its neighbours and is not at the edge. -/
structure Clear (s : Segmenter) (a : ℕ) : Prop where
  inside : a < s.regionCount
  saturated : (s.regions a).flags.saturated = false
  fragmented : (s.regions a).flags.fragmented = false
  adjacentToRoot : (s.regions a).flags.adjacentToRoot = false
  free : (s.regions a).flags.free = false

/-- The region may have a neighbour that is not in its list. -/
def Bordered (s : Segmenter) (a : ℕ) : Prop :=
  (s.regions a).flags.adjacentToRoot = true ∨ (s.regions a).flags.fragmented = true

theorem graph_of_lt (inside : a < s.regionCount) :
    s.graph a = (s.regions a).adjacentRegions :=
  if_pos inside

theorem lt_of_mem_graph (mem : b ∈ s.graph a) : a < s.regionCount := by
  by_contra outside
  rw [graph, if_neg outside] at mem
  exact List.not_mem_nil mem

end Segmenter

/-- What the search for markers relies on. -/
structure Segmented (s : Segmenter) : Prop where
  symmetric : ∀ a b, (s.graph a).count b = (s.graph b).count a
  saturated : ∀ a, (s.regions a).flags.saturated = true → s.graph a = []
  alive : ∀ a b, b ∈ s.graph a → (s.regions a).flags.free = false
  anchored : Anchored s.graph s.Clear
  level : ∀ a < s.regionCount, (s.regions a).level = .notTraversed
  childrenVisitedCount : ∀ a < s.regionCount, (s.regions a).childrenVisitedCount = 0
  descendentCount : ∀ a < s.regionCount, (s.regions a).descendentCount = 0x7FFF
  lostSymbol : ∀ a < s.regionCount, (s.regions a).flags.lostSymbol = false

theorem Segmented.mem_symm (segmented : Segmented s) (mem : b ∈ s.graph a) : a ∈ s.graph b := by
  rw [← List.count_pos_iff, ← segmented.symmetric a b]
  exact List.count_pos_iff.mpr mem

theorem Segmented.closed (segmented : Segmented s) (mem : b ∈ s.graph a) : b < s.regionCount :=
  lt_of_mem_graph (segmented.mem_symm mem)

/-! ## From an image -/

/-- Every set of pixels that holds the neighbours of its pixels is the whole image. -/
theorem whole_of_closed {w h : ℕ} (part : ℕ × ℕ → Prop)
    (closed : ∀ p q, Inside w h p → Inside w h q → Beside p q → part q → part p)
    {p : ℕ × ℕ} (insideP : Inside w h p) (partP : part p) : part (0, 0) := by
  obtain ⟨x, y⟩ := p
  induction x with
  | succ x ih =>
      have inside : Inside w h (x, y) := ⟨Nat.lt_of_succ_lt insideP.1, insideP.2⟩
      exact ih inside (closed _ _ inside insideP (Or.inl ⟨rfl, rfl⟩) partP)
  | zero =>
      induction y with
      | zero => exact partP
      | succ y ih =>
          have inside : Inside w h (0, y) := ⟨insideP.1, Nat.lt_of_succ_lt insideP.2⟩
          exact ih inside (closed _ _ inside insideP (Or.inr ⟨rfl, rfl⟩) partP)

section Finished

variable {w h m : ℕ} {frame : Frame w h} {label : ℕ × ℕ → ℕ}

/-- A clear region is next to whatever it borders. -/
theorem mem_graph_of_border (finished : Finished frame m s label) {p q : ℕ × ℕ}
    (insideP : Inside w h p) (insideQ : Inside w h q) (border : frame.Border p q)
    (isClear : s.Clear (label p)) : label q ∈ s.graph (label p) := by
  rw [graph_of_lt isClear.inside]
  rcases finished.accounts ⟨insideP, insideQ, border⟩ with linked | ⟨isSaturated, _⟩ | ⟨_, cut⟩
  · exact linked
  · rw [isClear.saturated] at isSaturated
    exact absurd isSaturated Bool.false_ne_true
  · rw [isClear.fragmented] at cut
    exact absurd cut Bool.false_ne_true

theorem anchored_of_finished (finished : Finished frame m s label) :
    Anchored s.graph s.Clear := by
  rintro part ⟨a, partA⟩ closed
  have clearA := (closed a partA).1
  have notFreed : a ∉ s.freedRegions := by
    intro freed
    have isFree := (finished.charted.labelled.free a clearA.inside).mpr freed
    exact Bool.false_ne_true (clearA.free.symm.trans isFree)
  obtain ⟨p, insideP, labelP⟩ := finished.charted.labelled.onto a ⟨clearA.inside, notFreed⟩
  have corner : part (label (0, 0)) := by
    apply whole_of_closed (fun p => part (label p)) _ insideP (labelP ▸ partA)
    intro p q insideP insideQ beside partQ
    by_cases same : frame.colour p = frame.colour q
    · rw [finished.label_eq insideP insideQ ⟨beside, same⟩]
      exact partQ
    · have border : frame.Border q p := ⟨Or.inr beside, Ne.symm same⟩
      obtain ⟨clearQ, all⟩ := closed _ partQ
      exact all _ (mem_graph_of_border finished insideQ insideP border clearQ)
  have insideCorner : Inside w h (0, 0) := ⟨frame.width_pos, frame.height_pos⟩
  have isRoot := (finished.boxed.root (0, 0) insideCorner).mpr
    ⟨(0, 0), insideCorner, rfl, Or.inl rfl⟩
  rw [(closed _ corner).1.adjacentToRoot] at isRoot
  exact Bool.false_ne_true isRoot

theorem segmented_of_finished (finished : Finished frame m s label) : Segmented s := by
  have labelled := finished.charted.labelled
  have adjacency := finished.charted.adjacency
  have mem : ∀ {a b}, b ∈ s.graph a → s.Linked a b := by
    intro a b isMem
    rwa [graph_of_lt (lt_of_mem_graph isMem)] at isMem
  constructor
  · intro a b
    by_cases insideA : a < s.regionCount
    · by_cases insideB : b < s.regionCount
      · rw [graph_of_lt insideA, graph_of_lt insideB]
        exact adjacency.symmetric a insideA b insideB
      · have noneB : s.graph b = [] := if_neg insideB
        rw [noneB, List.count_nil, List.count_eq_zero]
        exact fun isMem => insideB (adjacency.closed a insideA b (mem isMem))
    · have noneA : s.graph a = [] := if_neg insideA
      rw [noneA, List.count_nil, eq_comm, List.count_eq_zero]
      exact fun isMem => insideA (adjacency.closed b (lt_of_mem_graph isMem) a (mem isMem))
  · intro a isSaturated
    by_cases insideA : a < s.regionCount
    · rw [graph_of_lt insideA]
      exact adjacency.saturated a insideA isSaturated
    · exact if_neg insideA
  · intro a b isMem
    have insideA := lt_of_mem_graph isMem
    obtain ⟨p, q, insideP, _, _, rfl, _⟩ := finished.charted.linked a insideA b (mem isMem)
    rw [← Bool.not_eq_true]
    exact fun isFree => (finished.live insideP).2 ((labelled.free _ insideA).mp isFree)
  · exact anchored_of_finished finished
  · exact labelled.level
  · exact labelled.childrenVisitedCount
  · exact labelled.descendentCount
  · exact labelled.lostSymbol

end Finished

end OfxPrimes.Fidtrack
