import OfxPrimes.Fidtrack.Pixels

/-!
# The lines of a scan

The scan goes through the top line, the other lines and the bottom row once more.
Whatever the image, it comes to an end with a survey of all of its pixels.
-/

namespace OfxPrimes.Fidtrack

open OfxPrimes.Graph Segmenter

variable {w h m bound x y : ℕ} {frame : Frame w h} {s : Segmenter} {scan : Scan}
  {label : ℕ × ℕ → ℕ}

/-! ## The top line -/

/-- The buffers are empty before the first pixel. -/
theorem surveyed_empty (frame : Frame w h) (s : Segmenter) (opened edge : ℕ × ℕ → Prop)
    (width : s.width = w) (height : s.height = h) :
    Surveyed frame s.maxAdjacentRegions 0 (Seen w 0 0) (frame.SeenBorder (Seen w 0 0)) opened edge
      { s with regionRefCount := 0, regionCount := 0, freedRegions := [] } fun _ => 0 := by
  have none : ∀ n, ¬ Seen w 0 0 n := by
    rintro n ⟨_, below | ⟨_, below⟩⟩
    · exact Nat.not_lt_zero _ below
    · exact Nat.not_lt_zero _ below
  refine ⟨width, height, rfl, le_rfl, le_rfl, ⟨?_, ?_, ?_⟩, ?_, ?_, ?_⟩
  · refine ⟨fun n seen => absurd seen (none n), ?_, ?_, fun n seen => absurd seen (none n),
      List.nodup_nil, ?_, ?_, ?_, ?_, ?_, ?_⟩
    · exact fun r live => absurd live.1 (Nat.not_lt_zero r)
    · exact fun n _ seen => absurd seen (none n)
    · exact fun r mem => absurd mem List.not_mem_nil
    all_goals exact fun r inside => absurd inside (Nat.not_lt_zero r)
  · constructor
    all_goals exact fun a inside => absurd inside (Nat.not_lt_zero a)
  · exact fun a inside => absurd inside (Nat.not_lt_zero a)
  · exact fun n _ pair => absurd pair.1 (none n)
  · constructor
    all_goals exact fun n seen => absurd seen (none n)
  · constructor
    all_goals exact fun ref inside => absurd inside (Nat.not_lt_zero ref)

theorem firstPixel_spec (empty : ∀ opened edge, Surveyed frame m 0 (Seen w 0 0)
    (frame.SeenBorder (Seen w 0 0)) opened edge s fun _ => 0) :
    ∃ scan label, firstPixel frame.source s = some scan ∧ At frame m 1 0 scan label := by
  have positive := frame.width_pos
  have here : frame.source[0]? = some (frame.colour (0, 0)) := by
    have read := frame.source_getElem? positive frame.height_pos
    rwa [Nat.zero_mul] at read
  have binary := frame.colour_binary positive frame.height_pos
  have none : ∀ n, ¬ Seen w 0 0 n := by
    rintro n ⟨_, below | ⟨_, below⟩⟩
    · exact Nat.not_lt_zero _ below
    · exact Nat.not_lt_zero _ below
  have short : 0 < 2 ^ 15 := Nat.two_pow_pos 15
  obtain ⟨added, carries⟩ := (empty (Opened frame 1 0) fun _ => False).addRegion short short
    (none _) (fun n seen => absurd seen (none n)) id fun n _ pair => absurd pair.1 (none n)
  have marked := added.mark (q := (0, 0)) (Or.inr rfl)
  rw [Function.update_self] at marked
  have noBorder : ∀ n n', ¬ frame.SeenBorder (fun n => Seen w 0 0 n ∨ n = (0, 0)) n n' := by
    rintro n n' ⟨seen | rfl, seen' | rfl, border⟩
    · exact none n seen
    · exact none n seen
    · exact none n' seen'
    · exact border.2 rfl
  have surveyed := marked.weaken le_rfl fun n n' pair => absurd pair (noBorder n n')
  have refers := addRegion_refers s 0 0 (frame.colour (0, 0))
  have keeps := KeepsReferences.modifyRegion (s.addRegion 0 0 (frame.colour (0, 0))) s.nextRegion
    Region.markAdjacentToRoot
  have start : At frame m 0 0 ⟨s, fun _ => 0, fun _ => 0⟩ fun _ => 0 := by
    constructor
    · rw [Scanned, Nat.zero_mul]
      exact empty _ _
    · refine ⟨?_, ?_, ?_⟩
      · exact fun i below => absurd below (Nat.not_lt_zero i)
      · exact fun impossible => absurd impossible (lt_irrefl 0)
      · exact fun impossible => absurd impossible (lt_irrefl 0)
  refine ⟨_, _, ?_, start.start positive (by rw [Nat.zero_mul]; exact surveyed) ?_
    (carries.trans keeps.carries) (keeps.refers refers)⟩
  · simp only [firstPixel, here, Option.bind_eq_bind, Option.bind_some, newRegion,
      guard_eq_some binary, refers.region]
    rfl
  · rintro n (seen | rfl)
    · exact absurd seen (none n)
    · simp [Edge]

theorem topLine_spec (width : s.width = w) (empty : ∀ opened edge, Surveyed frame m 0 (Seen w 0 0)
    (frame.SeenBorder (Seen w 0 0)) opened edge s fun _ => 0) :
    ∃ scan label, topLine frame.source s = some scan ∧ At frame m w 0 scan label := by
  have positive := frame.width_pos
  have whole : 1 + (w - 1) = w := by omega
  obtain ⟨scan0, label0, first, at0⟩ := firstPixel_spec empty
  obtain ⟨scan, ran, label, at'⟩ := Transition.exists_run_range'
    (topPixel frame.source) 1 (w - 1)
    (fun i scan => ∃ label, At frame m i 0 scan label)
    (by
      rintro i above below scan ⟨label, at'⟩
      obtain ⟨scan', label', stepped, at''⟩ := topPixel_spec at' above (by omega)
      exact ⟨scan', stepped, label', at''⟩)
    ⟨label0, at0⟩
  rw [whole] at at'
  refine ⟨scan, label, ?_, at'⟩
  simp only [topLine, first, Option.bind_eq_bind, Option.bind_some]
  rw [width]
  exact ran

/-! ## From line to line -/

/-- The state of the scan between two lines. -/
structure Between (frame : Frame w h) (m y : ℕ) (scan : Scan) (label : ℕ × ℕ → ℕ) : Prop where
  scanned : Scanned frame m 0 y scan.segmenter label
  current : ∀ i < w, scan.segmenter.Denotes (scan.currentRow i) (label (i, y - 1))

/-- A line has ended, and the region of its last pixel is marked. -/
theorem At.between {edge : ℕ × ℕ → Prop} (at' : At frame m w y scan label) {s : Segmenter}
    (surveyed : Surveyed frame m (y * w + w) (Seen w w y) (frame.SeenBorder (Seen w w y))
      (Opened frame w y) edge s label)
    (carries : Carries scan.segmenter s)
    (isEdge : ∀ n, Seen w w y n → (Edge w (y + 1) n ↔ edge n))
    (atRoot : ∀ n, Seen w w y n → Opened frame w y n →
      (s.regions (label n)).flags.adjacentToRoot = true) :
    Between frame m (y + 1) { scan with segmenter := s } label := by
  constructor
  · have same : Seen w 0 (y + 1) = Seen w w y := funext fun n => propext (seen_nextLine_iff n)
    rw [Scanned, same]
    apply Surveyed.congr_edge _ _ isEdge
    apply (surveyed.reopen (Opened frame 0 (y + 1)) fun n seen isOpen =>
      Or.inl (atRoot n seen isOpen)).weaken _ surveyed.accounts
    rw [Nat.succ_mul, Nat.add_zero]
  · intro i below
    rw [Nat.add_sub_cancel]
    exact carries.denotes _ _ (at'.rows.current i below)

theorem At.between_top (at' : At frame m w 0 scan label) : Between frame m 1 scan label := by
  apply at'.between at'.scanned (.refl _)
  · rintro n ⟨_, impossible | ⟨top, _⟩⟩
    · exact absurd impossible (Nat.not_lt_zero _)
    · simp [Edge, top]
  · intro n seen isOpen
    exact at'.root_of_edge seen (Or.inl isOpen.1)

theorem rightEdge_spec (at' : At frame m w y scan label) :
    ∃ scan', rightEdge scan = some scan' ∧ Between frame m (y + 1) scan' label := by
  have positive := frame.width_pos
  have seenLast : Seen w w y (w - 1, y) := seen_last positive
  have refers := at'.rows.west positive
  have marked := at'.scanned.mark seenLast
  have isRoot : ((scan.segmenter.markAdjacentToRoot (label (w - 1, y))).regions
      (label (w - 1, y))).flags.adjacentToRoot = true := by
    rw [markAdjacentToRoot, regions_modifyRegion, if_pos rfl]
    rfl
  refine ⟨_, ?_, at'.between marked
    (KeepsReferences.modifyRegion _ _ Region.markAdjacentToRoot).carries ?_ ?_⟩
  · simp only [rightEdge, at'.scanned.width, refers.region, Option.bind_eq_bind, Option.bind_some]
  · rintro ⟨i, j⟩ ⟨inside, order⟩
    simp only [Edge, Prod.mk.injEq]
    change i < w at inside
    change j < y ∨ j = y ∧ i < w at order
    omega
  · intro n _ isOpen
    rw [(at'.scanned.label_of_opened le_rfl isOpen).1]
    exact isRoot

theorem processLine_spec (between : Between frame m y scan label) (after : 0 < y)
    (inside : y < h) :
    ∃ scan' label', processLine frame.source scan y = some scan' ∧
      Between frame m (y + 1) scan' label' := by
  have positive := frame.width_pos
  have whole : 1 + (w - 1) = w := by omega
  have start : At frame m 0 y ⟨scan.segmenter, scan.previousRow, scan.currentRow⟩ label := by
    refine ⟨between.scanned, ?_, ?_, ?_⟩
    · exact fun i below => absurd below (Nat.not_lt_zero i)
    · exact fun impossible => absurd impossible (lt_irrefl 0)
    · exact fun _ i _ below => between.current i below
  obtain ⟨scan1, label1, left, at1⟩ := leftPixel_spec start after inside
  obtain ⟨scan2, ran, label2, at2⟩ := Transition.exists_run_range'
    (centerPixel frame.source y) 1 (w - 1)
    (fun i scan => ∃ label, At frame m i y scan label)
    (by
      rintro i above below scan ⟨label, at'⟩
      obtain ⟨scan', label', stepped, at''⟩ :=
        centerPixel_spec at' above (by omega) after inside
      exact ⟨scan', stepped, label', at''⟩)
    ⟨label1, at1⟩
  rw [whole] at at2
  obtain ⟨scan3, right, between3⟩ := rightEdge_spec at2
  refine ⟨scan3, label2, ?_, between3⟩
  simp only [processLine, left, Option.bind_eq_bind, Option.bind_some, at1.scanned.width, ran,
    right]

/-! ## The bottom row -/

/-- The survey in the last loop, with the bottom row marked before column `x`. -/
structure Finishing (frame : Frame w h) (m x : ℕ) (scan : Scan) (label : ℕ × ℕ → ℕ) : Prop where
  surveyed : Surveyed frame m (h * w) (Inside w h) (frame.SeenBorder (Inside w h))
    (Opened frame 0 h) (fun n => Edge w h n ∨ (n.2 + 1 = h ∧ n.1 < x)) scan.segmenter label
  current : ∀ i < w, scan.segmenter.Denotes (scan.currentRow i) (label (i, h - 1))

theorem bottomPixel_spec (finishing : Finishing frame m x scan label) (inside : x < w) :
    ∃ scan', bottomPixel scan x = some scan' ∧ Finishing frame m (x + 1) scan' label := by
  have positive := frame.height_pos
  obtain ⟨s', root, resolved, surveyed, carries, refers, _⟩ :=
    finishing.surveyed.resolve (finishing.current x inside)
  have insideP : Inside w h (x, h - 1) := ⟨inside, Nat.sub_lt positive Nat.one_pos⟩
  have marked := surveyed.mark insideP
  have keeps := KeepsReferences.modifyRegion s' (label (x, h - 1)) Region.markAdjacentToRoot
  refine ⟨⟨s'.markAdjacentToRoot (label (x, h - 1)),
    Function.update scan.currentRow x root, scan.previousRow⟩, ?_, ?_, ?_⟩
  · simp only [bottomPixel, resolved, Option.bind_eq_bind, Option.bind_some, refers.region]
  · apply marked.congr_edge
    rintro ⟨i, j⟩ ⟨_, insideJ⟩
    simp only [Prod.mk.injEq]
    change j < h at insideJ
    rw [or_assoc]
    apply or_congr Iff.rfl
    omega
  · intro i below
    change (s'.markAdjacentToRoot _).Denotes (Function.update scan.currentRow x root i) _
    by_cases here : i = x
    · rw [here, Function.update_self]
      exact keeps.denotes refers.denotes
    · rw [Function.update_of_ne here]
      exact keeps.denotes (carries.denotes _ _ (finishing.current i below))

/-- The whole image is surveyed, with no run left open. -/
theorem buildRegions_spec (s : Segmenter) (frame : Frame s.width s.height) :
    ∃ s' label, buildRegions s frame.source = some s' ∧
      Surveyed frame s.maxAdjacentRegions (s.height * s.width) (Inside s.width s.height)
        (frame.SeenBorder (Inside s.width s.height)) (fun _ => False) (AtEdge s.width s.height)
        s' label := by
  have positive := frame.height_pos
  have whole : 1 + (s.height - 1) = s.height := by omega
  have empty := fun opened edge => surveyed_empty frame s opened edge rfl rfl
  obtain ⟨scan1, label1, top, at1⟩ := topLine_spec (by rfl) empty
  obtain ⟨scan2, ran, label2, between⟩ := Transition.exists_run_range'
    (processLine frame.source) 1 (s.height - 1)
    (fun y scan => ∃ label, Between frame s.maxAdjacentRegions y scan label)
    (by
      rintro y above below scan ⟨label, between⟩
      obtain ⟨scan', label', stepped, between'⟩ := processLine_spec between above (by omega)
      exact ⟨scan', stepped, label', between'⟩)
    ⟨label1, at1.between_top⟩
  rw [whole] at between
  have same : Seen s.width 0 s.height = Inside s.width s.height :=
    funext fun n => propext (seen_whole_iff n)
  have start : Finishing frame s.maxAdjacentRegions 0 scan2 label2 := by
    constructor
    · have scanned := between.scanned
      rw [Scanned, same] at scanned
      apply scanned.congr_edge
      simp
    · exact between.current
  obtain ⟨scan3, ran', finishing⟩ := Transition.exists_run_range'
    bottomPixel 0 s.width
    (fun x scan => Finishing frame s.maxAdjacentRegions x scan label2)
    (by
      intro x _ below scan finishing
      exact bottomPixel_spec finishing (by omega))
    start
  rw [Nat.zero_add] at finishing
  refine ⟨scan3.segmenter, label2, ?_, ?_⟩
  · rw [← List.range_eq_range'] at ran'
    simp only [buildRegions, top, ran, ran', Option.bind_eq_bind, Option.bind_some]
  · apply (finishing.surveyed.reopen (fun _ => False) fun n _ isOpen =>
      absurd isOpen.2.1 (Nat.not_lt_zero _)).congr_edge
    rintro ⟨i, j⟩ ⟨insideI, insideJ⟩
    simp only [AtEdge, Edge]
    change i < s.width at insideI
    change j < s.height at insideJ
    omega

/-- Every image is segmented, with at most a region for each pixel. -/
theorem exists_stepSegmenter (s : Segmenter) (frame : Frame s.width s.height) :
    ∃ s', stepSegmenter s frame.source = some s' ∧ s'.regionCount ≤ s.height * s.width := by
  obtain ⟨s', label, ran, finished⟩ := buildRegions_spec s frame
  exact ⟨s', ran, finished.regionCount.trans finished.regionRefCount⟩

/-- The image is surveyed by whatever the segmenter makes of it. -/
theorem surveyed_of_stepSegmenter {s s' : Segmenter} {frame : Frame s.width s.height}
    (ran : stepSegmenter s frame.source = some s') :
    ∃ label, Surveyed frame s.maxAdjacentRegions (s.height * s.width) (Inside s.width s.height)
      (frame.SeenBorder (Inside s.width s.height)) (fun _ => False) (AtEdge s.width s.height)
      s' label := by
  obtain ⟨s'', label, ran', finished⟩ := buildRegions_spec s frame
  obtain rfl : s' = s'' := Option.some.inj (ran.symm.trans ran')
  exact ⟨label, finished⟩

end OfxPrimes.Fidtrack
