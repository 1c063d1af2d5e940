import OfxPrimes.Fidtrack.Scan

/-!
# The pixels of a scan

Each of the ways in which the scan deals with a pixel takes the survey one column
further, without breaking an assertion or following a null pointer.
-/

namespace OfxPrimes.Fidtrack

open OfxPrimes.Graph Segmenter

variable {w h m bound x y : ℕ} {frame : Frame w h} {s s' : Segmenter} {scan : Scan}
  {label : ℕ × ℕ → ℕ} {p q : ℕ × ℕ} {ref r : ℕ}

/-! ## Pixels that join a region -/

/-- A region with a pixel at the edge is marked. -/
theorem At.root_of_edge (at' : At frame m x y scan label) (seenQ : Seen w x y q)
    (isEdge : Edge w y q) :
    (scan.segmenter.regions (label q)).flags.adjacentToRoot = true :=
  (at'.scanned.boxed.root q seenQ).mpr ⟨q, seenQ, rfl, isEdge⟩

/-- The pixel joins the region of one before it, and the segmenter stays as it is. -/
theorem At.join (at' : At frame m x y scan label) (inside : x < w)
    (seenQ : Seen w x y q) (beside : Beside q (x, y))
    (sameColour : frame.colour q = frame.colour (x, y))
    (only : ∀ n, Seen w x y n → Touches frame.near (x, y) n → label n = label q)
    (met : ∀ n, Seen w x y n → frame.Border (x, y) n →
      scan.segmenter.Accounted (label q) (label n))
    (runs : ∀ n, Opened frame x y n → Opened frame (x + 1) y n)
    (low : (scan.segmenter.regions (label q)).flags.adjacentToRoot = true ∨ q.2 = y)
    (edgeOf : Edge w y (x, y) →
      (scan.segmenter.regions (label q)).flags.adjacentToRoot = true)
    (refers : scan.segmenter.Refers ref (label q)) :
    At frame m (x + 1) y { scan with currentRow := Function.update scan.currentRow x ref }
      (Function.update label (x, y) (label q)) := by
  have scanned := at'.scanned.reopen (Opened frame (x + 1) y) fun n _ isOpen =>
    Or.inr (runs n isOpen)
  have afterX : q.1 ≤ x := by
    rcases beside with ⟨here, _⟩ | ⟨here, _⟩
    · exact Nat.le_of_succ_le (le_of_eq here)
    · exact le_of_eq here
  have afterY : q.2 ≤ y := by
    rcases beside with ⟨_, here⟩ | ⟨_, here⟩
    · exact le_of_eq here
    · exact Nat.le_of_succ_le (le_of_eq here)
  constructor
  · apply Surveyed.scanned inside (Nat.le_succ _) _ rfl (fun _ _ => Iff.rfl)
    apply scanned.extend not_seen_self seenQ (Or.inl ⟨beside, sameColour⟩) only afterX afterY
    · exact Or.inr opened_self
    · rcases low with atRoot | sameLine
      · exact Or.inl atRoot
      · rw [← sameLine]
        exact at'.scanned.boxed.bottom seenQ
    · exact edgeOf
    · exact at'.scanned.accounts.extend at'.scanned.charted not_seen_self seenQ met
  · apply at'.rows.advance inside (fun _ _ => id)
    · intro n seenN
      exact update_seen not_seen_self seenN
    · rw [Function.update_self]
      exact refers

/-! ## Pixels that start a region -/

/-- The pixel starts a region, which is adjacent to that of the one pixel beside it. -/
theorem Surveyed.startAtEdge {edge : ℕ × ℕ → Prop} {opened : ℕ × ℕ → Prop}
    (surveyed : Surveyed frame m bound (Seen w x y) (frame.SeenBorder (Seen w x y)) opened edge s
      label)
    (short : x < 2 ^ 15 ∧ y < 2 ^ 15) (seenQ : Seen w x y q)
    (border : frame.Border (x, y) q) (notEdge : ¬ edge (x, y))
    (only : ∀ n, Seen w x y n → Beside n (x, y) ∨ Beside (x, y) n → n = q) :
    ∃ s', makeAdjacent ((s.addRegion x y (frame.colour (x, y))).markAdjacentToRoot s.nextRegion)
        s.nextRegion (label q) = some s' ∧
      Surveyed frame m (bound + 1) (fun n => Seen w x y n ∨ n = (x, y))
        (frame.SeenBorder fun n => Seen w x y n ∨ n = (x, y)) opened
        (fun n => edge n ∨ n = (x, y)) s' (Function.update label (x, y) s.nextRegion) ∧
      Carries s s' ∧ s'.Refers s.regionRefCount s.nextRegion := by
  have alone : ∀ n, Seen w x y n → ¬ Touches frame.near (x, y) n := by
    intro n seenN touches
    rcases touches with isNear | isNear
    · have isQ := only n seenN (Or.inl isNear.1)
      exact border.2 (isQ ▸ isNear.2.symm)
    · have isQ := only n seenN (Or.inr isNear.1)
      exact border.2 (isQ ▸ isNear.2)
  obtain ⟨added, carries1⟩ := surveyed.addRegion short.1 short.2 not_seen_self alone notEdge
    fun n n' pair => ⟨pair.1, pair.2.1⟩
  have new : Function.update label (x, y) s.nextRegion (x, y) = s.nextRegion :=
    Function.update_self ..
  have old : ∀ n, Seen w x y n → Function.update label (x, y) s.nextRegion n = label n :=
    fun n seenN => update_seen not_seen_self seenN
  have marked := added.mark (q := (x, y)) (Or.inr rfl)
  have keeps2 := KeepsReferences.modifyRegion (s.addRegion x y (frame.colour (x, y)))
    s.nextRegion Region.markAdjacentToRoot
  obtain ⟨s', made, tied, carries3⟩ := marked.tie (Or.inr rfl) (Or.inl seenQ) border
  rw [new, old q seenQ] at made
  rw [new] at carries3
  have carries := (carries1.trans keeps2.carries).trans carries3
  refine ⟨s', made, ?_, carries, ?_⟩
  · apply tied.weaken le_rfl
    apply Accounts.insert tied.charted.adjacency
    · exact tied.charted.inside (Or.inr rfl)
    · intro n n' pair
      exact tied.accounts (Or.inl ⟨pair, Or.inl pair.1, Or.inl pair.2.1⟩)
    · intro n seenN borderN
      have isQ := only n seenN borderN.1.symm
      rw [isQ]
      exact tied.accounts (Or.inr ⟨rfl, rfl⟩)
  · apply carries3.refers
    exact keeps2.refers (addRegion_refers s x y _)

/-- The scan goes on after a pixel that started a region. -/
theorem At.start (at' : At frame m x y scan label) (inside : x < w) {edge : ℕ × ℕ → Prop}
    (surveyed : Surveyed frame m (y * w + x + 1) (fun n => Seen w x y n ∨ n = (x, y))
      (frame.SeenBorder fun n => Seen w x y n ∨ n = (x, y)) (Opened frame (x + 1) y) edge s'
      (Function.update label (x, y) r))
    (isEdge : ∀ n, Seen w x y n ∨ n = (x, y) → (Edge w y n ↔ edge n))
    (carries : Carries scan.segmenter s') (refers : s'.Refers ref r) :
    At frame m (x + 1) y ⟨s', Function.update scan.currentRow x ref, scan.previousRow⟩
      (Function.update label (x, y) r) := by
  constructor
  · exact surveyed.scanned inside (le_of_eq (Nat.add_assoc _ _ _)) rfl isEdge
  · apply at'.rows.advance inside carries.denotes
    · intro n seenN
      exact update_seen not_seen_self seenN
    · rw [Function.update_self]
      exact refers

/-! ## The top line -/

theorem topPixel_spec (at' : At frame m x 0 scan label) (after : 0 < x) (inside : x < w) :
    ∃ scan' label', topPixel frame.source scan x = some scan' ∧
      At frame m (x + 1) 0 scan' label' := by
  have here : frame.source[x]? = some (frame.colour (x, 0)) := by
    have read := frame.source_getElem? inside frame.height_pos
    rwa [Nat.zero_mul, Nat.zero_add] at read
  have west : frame.source[x - 1]? = some (frame.colour (x - 1, 0)) := by
    have read := frame.source_getElem? (Nat.lt_of_le_of_lt (Nat.sub_le x 1) inside)
      frame.height_pos
    rwa [Nat.zero_mul, Nat.zero_add] at read
  have seenW := seen_west (y := 0) inside after
  have besideW := beside_west (y := 0) after
  have onlyW : ∀ n, Seen w x 0 n → Beside n (x, 0) ∨ Beside (x, 0) n → n = (x - 1, 0) := by
    intro n seenN beside
    rcases seenN.beside beside with ⟨_, isWest⟩ | ⟨impossible, _⟩
    · exact isWest
    · exact absurd impossible (lt_irrefl 0)
  have refersW := at'.rows.west after
  by_cases same : frame.colour (x, 0) = frame.colour (x - 1, 0)
  · have isRoot := at'.root_of_edge seenW (Or.inl rfl)
    refine ⟨_, _, ?_, at'.join inside seenW besideW same.symm ?_ ?_ ?_ (Or.inl isRoot)
      (fun _ => isRoot) refersW⟩
    · simp only [topPixel, here, west, Option.bind_eq_bind, Option.bind_some, if_pos same]
    · intro n seenN touches
      rw [onlyW n seenN (touches.imp And.left And.left)]
    · intro n seenN border
      rw [onlyW n seenN border.1.symm] at border
      exact absurd same border.2
    · exact fun n isOpen => opened_succ same isOpen
  · have short : x < 2 ^ 15 ∧ 0 < 2 ^ 15 := ⟨lt_trans inside frame.width_lt, by decide⟩
    have scanned := at'.scanned.reopen (Opened frame (x + 1) 0) fun n seenN isOpen =>
      Or.inl (at'.root_of_edge seenN (Or.inl isOpen.1))
    have scanned' := scanned.congr_edge (fun n => Edge w 0 n ∧ n ≠ (x, 0)) fun n seenN => by
      constructor
      · exact And.left
      · intro isEdge
        exact ⟨isEdge, fun isSelf => not_seen_self (isSelf ▸ seenN)⟩
    obtain ⟨s', made, surveyed, carries, refers⟩ := scanned'.startAtEdge short seenW
      ⟨Or.inr besideW, same⟩ (fun both => both.2 rfl) onlyW
    refine ⟨_, _, ?_, at'.start inside surveyed ?_ carries refers⟩
    · have binary := frame.colour_binary inside frame.height_pos
      have refersNew := addRegion_refers scan.segmenter x 0 (frame.colour (x, 0))
      have refersOld := References.addRegion_refers_of_refers refersW x 0 (frame.colour (x, 0))
      simp only [topPixel, here, west, Option.bind_eq_bind, Option.bind_some, if_neg same,
        newRegion, guard_eq_some binary, refersNew.region, refersOld.region, made]
    · intro n _
      by_cases isSelf : n = (x, 0)
      · simp [isSelf, Edge]
      · simp [isSelf]

/-! ## The left edge -/

theorem leftPixel_spec (at' : At frame m 0 y scan label) (after : 0 < y) (inside : y < h) :
    ∃ scan' label', leftPixel frame.source y scan = some scan' ∧
      At frame m 1 y scan' label' := by
  have positive := frame.width_pos
  have here : frame.source[y * scan.segmenter.width]? = some (frame.colour (0, y)) := by
    rw [at'.scanned.width]
    exact frame.source_getElem? positive inside
  obtain ⟨scan1, resolved, at1, refersN⟩ := resolvePrevious_spec at' positive after
  have seenN := seen_north (x := 0) positive after
  have besideN := beside_north (x := 0) after
  have colourN := at1.scanned.colour seenN
  have onlyN : ∀ n, Seen w 0 y n → Beside n (0, y) ∨ Beside (0, y) n → n = (0, y - 1) := by
    intro n seenN beside
    rcases seenN.beside beside with ⟨impossible, _⟩ | ⟨_, isNorth⟩
    · exact absurd impossible (lt_irrefl 0)
    · exact isNorth
  have noRun : ∀ n, ¬ Opened frame 0 y n := fun n isOpen => Nat.not_lt_zero _ isOpen.2.1
  by_cases same : frame.colour (0, y) = frame.colour (0, y - 1)
  · have isRoot := at1.root_of_edge seenN (Or.inr (Or.inl rfl))
    refine ⟨_, _, ?_, at1.join positive seenN besideN same.symm ?_ ?_ ?_ (Or.inl isRoot)
      (fun _ => isRoot) refersN⟩
    · simp only [leftPixel, here, resolved, Option.bind_eq_bind, Option.bind_some,
        refersN.region, colourN, if_pos same]
    · intro n seenN touches
      rw [onlyN n seenN (touches.imp And.left And.left)]
    · intro n seenN border
      rw [onlyN n seenN border.1.symm] at border
      exact absurd same border.2
    · exact fun n isOpen => absurd isOpen (noRun n)
  · have short : 0 < 2 ^ 15 ∧ y < 2 ^ 15 := ⟨by decide, lt_trans inside frame.height_lt⟩
    have scanned := at1.scanned.reopen (Opened frame 1 y) fun n _ isOpen =>
      absurd isOpen (noRun n)
    have scanned' := scanned.congr_edge (fun n => Edge w y n ∧ n ≠ (0, y)) fun n seenN => by
      constructor
      · exact And.left
      · intro isEdge
        exact ⟨isEdge, fun isSelf => not_seen_self (isSelf ▸ seenN)⟩
    obtain ⟨s', made, surveyed, carries, refers⟩ := scanned'.startAtEdge short seenN
      ⟨Or.inr besideN, same⟩ (fun both => both.2 rfl) onlyN
    refine ⟨_, _, ?_, at1.start positive surveyed ?_ carries refers⟩
    · have binary := frame.colour_binary positive inside
      have refersNew := addRegion_refers scan1.segmenter 0 y (frame.colour (0, y))
      simp only [leftPixel, here, resolved, Option.bind_eq_bind, Option.bind_some,
        refersN.region, colourN, if_neg same, newRegion, guard_eq_some binary, refersNew.region,
        made]
    · intro n _
      by_cases isSelf : n = (0, y)
      · simp [isSelf, Edge]
      · simp [isSelf]

/-! ## The center span -/

theorem not_edge_center (afterX : 0 < x) (afterY : 0 < y) : ¬ Edge w y (x, y) := by
  rintro (isTop | isLeft | ⟨_, below⟩)
  · exact Nat.ne_of_gt afterY isTop
  · exact Nat.ne_of_gt afterX isLeft
  · exact lt_irrefl _ below

/-- The pixel has the colour of the one before it. -/
theorem continuePixel_spec (at' : At frame m x y scan label) (afterX : 0 < x) (insideX : x < w)
    (afterY : 0 < y) (insideY : y < h)
    (refersN : scan.segmenter.Refers (scan.previousRow x) (label (x, y - 1)))
    (same : frame.colour (x, y) = frame.colour (x - 1, y)) :
    ∃ scan' label', continuePixel (frame.colour (x, y)) scan x = some scan' ∧
      At frame m (x + 1) y scan' label' := by
  have seenW := seen_west (y := y) insideX afterX
  have seenN := seen_north (x := x) insideX afterY
  have besideW := beside_west (y := y) afterX
  have besideN := beside_north (x := x) afterY
  have refersW := at'.rows.west afterX
  have colourN := at'.scanned.colour seenN
  have notEdge := not_edge_center (w := w) afterX afterY
  have runs : ∀ n, Opened frame x y n → Opened frame (x + 1) y n :=
    fun n isOpen => opened_succ same isOpen
  by_cases one : scan.currentRow (x - 1) = scan.previousRow x
  · -- the references are one, and so are the regions
    have oneLabel : label (x, y - 1) = label (x - 1, y) := by
      have regionN := refersN.region
      rw [← one, refersW.region] at regionN
      exact (Option.some.inj regionN).symm
    have sameN : frame.colour (x, y - 1) = frame.colour (x - 1, y) := by
      rw [← colourN, oneLabel, at'.scanned.colour seenW]
    refine ⟨_, _, ?_, at'.join insideX seenW besideW same.symm ?_ ?_ runs (Or.inr rfl)
      (fun isEdge => absurd isEdge notEdge) refersW⟩
    · simp only [continuePixel, one, ne_eq, not_true_eq_false, if_false]
    · intro n seen touches
      rcases (touches_cases seen touches).2 with ⟨_, rfl⟩ | ⟨_, rfl⟩
      · rfl
      · exact oneLabel
    · intro n seen border
      obtain ⟨different, ⟨_, rfl⟩ | ⟨_, rfl⟩⟩ := border_cases seen border
      · exact absurd same different
      · exact absurd (same.trans sameN.symm) different
  · by_cases sameN : frame.colour (x, y) = frame.colour (x, y - 1)
    · -- the region before the pixel is merged into that above it
      have distinct : label (x, y - 1) ≠ label (x - 1, y) := by
        intro equal
        rw [equal] at refersN
        exact one (at'.scanned.references.eq_of_refers refersW refersN)
      have scanned := at'.scanned.reopen (Opened frame (x + 1) y) fun n _ isOpen =>
        Or.inr (runs n isOpen)
      have only : ∀ n, Seen w x y n → Touches frame.near (x, y) n →
          label n = label (x, y - 1) ∨ label n = label (x - 1, y) := by
        intro n seen touches
        rcases (touches_cases seen touches).2 with ⟨_, rfl⟩ | ⟨_, rfl⟩
        · exact Or.inr rfl
        · exact Or.inl rfl
      have noBorder : ∀ n, ¬ (Seen w x y n ∧ frame.Border (x, y) n) := by
        rintro n ⟨seen, border⟩
        obtain ⟨different, ⟨_, rfl⟩ | ⟨_, rfl⟩⟩ := border_cases seen border
        · exact different same
        · exact different sameN
      obtain ⟨s', merged, surveyed, denotes, refers⟩ := scanned.merge not_seen_self seenN seenW
        distinct (Or.inl ⟨besideN, sameN.symm⟩) (Or.inl ⟨besideW, same.symm⟩) only le_rfl
        (Nat.sub_le y 1) opened_self notEdge (at'.scanned.boxed.bottom seenW) refersW refersN rfl
        noBorder
      refine ⟨⟨s'.freeRegion (label (x - 1, y)) (scan.currentRow (x - 1)) (scan.previousRow x),
        Function.update scan.currentRow x (scan.previousRow x), scan.previousRow⟩,
        mergedLabel (label (x, y - 1)) (label (x - 1, y)) (x, y) label, ?_, ?_, ?_⟩
      · simp only [continuePixel, ne_eq, one, not_false_eq_true, if_true, refersN.region,
          refersW.region, colourN, sameN, Option.bind_eq_bind, Option.bind_some, merged]
      · exact surveyed.scanned insideX (Nat.le_succ _) rfl fun _ _ => Iff.rfl
      · apply at'.rows.advance insideX denotes
        · intro n seen
          exact mergedLabel_seen not_seen_self _ _ seen
        · rw [mergedLabel_self]
          exact refers
    · refine ⟨_, _, ?_, at'.join insideX seenW besideW same.symm ?_ ?_ runs (Or.inr rfl)
        (fun isEdge => absurd isEdge notEdge) refersW⟩
      · simp only [continuePixel, ne_eq, one, not_false_eq_true, if_true, refersN.region,
          colourN, if_neg sameN, Option.bind_eq_bind, Option.bind_some]
      · intro n seen touches
        obtain ⟨equal, ⟨_, rfl⟩ | ⟨_, rfl⟩⟩ := touches_cases seen touches
        · rfl
        · exact absurd equal.symm sameN
      · intro n seen border
        obtain ⟨different, ⟨_, rfl⟩ | ⟨_, rfl⟩⟩ := border_cases seen border
        · exact absurd same different
        · have accounted := at'.scanned.corner insideX insideY afterX afterY (same ▸ different)
          exact accounted.symm at'.scanned.charted.adjacency (at'.scanned.charted.inside seenN)

/-- A pixel that is near none before it starts a region, which is adjacent to that of
the pixel above it and to that of the pixel before it. -/
theorem Surveyed.startInside {edge : ℕ × ℕ → Prop} {opened : ℕ × ℕ → Prop}
    (surveyed : Surveyed frame m bound (Seen w x y) (frame.SeenBorder (Seen w x y)) opened edge s
      label)
    (short : x < 2 ^ 15 ∧ y < 2 ^ 15) (inside : x < w) (afterX : 0 < x) (afterY : 0 < y)
    (differentW : frame.colour (x, y) ≠ frame.colour (x - 1, y))
    (differentN : frame.colour (x, y) ≠ frame.colour (x, y - 1)) (notEdge : ¬ edge (x, y)) :
    ∃ s1 s', makeAdjacent (s.addRegion x y (frame.colour (x, y))) s.nextRegion
        (label (x, y - 1)) = some s1 ∧
      (if label (x - 1, y) ≠ label (x, y - 1) then makeAdjacent s1 s.nextRegion (label (x - 1, y))
        else some s1) = some s' ∧
      Surveyed frame m (bound + 1) (fun n => Seen w x y n ∨ n = (x, y))
        (frame.SeenBorder fun n => Seen w x y n ∨ n = (x, y)) opened edge s'
        (Function.update label (x, y) s.nextRegion) ∧
      Carries s s' ∧ s'.Refers s.regionRefCount s.nextRegion := by
  have seenW := seen_west (y := y) inside afterX
  have seenN := seen_north (x := x) inside afterY
  have borderW : frame.Border (x, y) (x - 1, y) := ⟨Or.inr (beside_west afterX), differentW⟩
  have borderN : frame.Border (x, y) (x, y - 1) := ⟨Or.inr (beside_north afterY), differentN⟩
  have alone : ∀ n, Seen w x y n → ¬ Touches frame.near (x, y) n := by
    intro n seen touches
    obtain ⟨equal, ⟨_, rfl⟩ | ⟨_, rfl⟩⟩ := touches_cases seen touches
    · exact differentW equal.symm
    · exact differentN equal.symm
  obtain ⟨added, carries0⟩ := surveyed.addRegion short.1 short.2 not_seen_self alone notEdge
    fun n n' pair => ⟨pair.1, pair.2.1⟩
  have new : Function.update label (x, y) s.nextRegion (x, y) = s.nextRegion :=
    Function.update_self ..
  have old : ∀ n, Seen w x y n → Function.update label (x, y) s.nextRegion n = label n :=
    fun n seen => update_seen not_seen_self seen
  have refers0 := addRegion_refers s x y (frame.colour (x, y))
  obtain ⟨s1, made1, tied1, carries1⟩ := added.tie (Or.inr rfl) (Or.inl seenN) borderN
  rw [new, old _ seenN] at made1
  obtain ⟨s2, made2, tied2, carries2⟩ := tied1.tie (Or.inr rfl) (Or.inl seenW) borderW
  rw [new, old _ seenW] at made2
  by_cases one : label (x - 1, y) = label (x, y - 1)
  · refine ⟨s1, s1, made1, if_neg (not_not_intro one), ?_, carries0.trans carries1,
      carries1.refers _ _ refers0⟩
    apply tied1.weaken le_rfl
    apply Accounts.insert tied1.charted.adjacency
    · exact tied1.charted.inside (Or.inr rfl)
    · intro n n' pair
      exact tied1.accounts (Or.inl ⟨pair, Or.inl pair.1, Or.inl pair.2.1⟩)
    · have north := tied1.accounts (Or.inr ⟨rfl, rfl⟩)
      intro n seen border
      rcases (border_cases seen border).2 with ⟨_, rfl⟩ | ⟨_, rfl⟩
      · rw [old _ seenW, one, ← old _ seenN]
        exact north
      · exact north
  · refine ⟨s1, s2, made1, by rw [if_pos one, made2], ?_, (carries0.trans carries1).trans carries2,
      carries2.refers _ _ (carries1.refers _ _ refers0)⟩
    apply tied2.weaken le_rfl
    apply Accounts.insert tied2.charted.adjacency
    · exact tied2.charted.inside (Or.inr rfl)
    · intro n n' pair
      exact tied2.accounts (Or.inl ⟨Or.inl ⟨pair, Or.inl pair.1, Or.inl pair.2.1⟩,
        Or.inl pair.1, Or.inl pair.2.1⟩)
    · intro n seen border
      rcases (border_cases seen border).2 with ⟨_, rfl⟩ | ⟨_, rfl⟩
      · exact tied2.accounts (Or.inr ⟨rfl, rfl⟩)
      · exact tied2.accounts (Or.inl ⟨Or.inr ⟨rfl, rfl⟩, Or.inr rfl, Or.inl seenN⟩)

/-- The pixel does not have the colour of the one before it. -/
theorem changePixel_spec (at' : At frame m x y scan label) (afterX : 0 < x) (insideX : x < w)
    (afterY : 0 < y) (insideY : y < h)
    (refersN : scan.segmenter.Refers (scan.previousRow x) (label (x, y - 1)))
    (different : frame.colour (x, y) ≠ frame.colour (x - 1, y)) :
    ∃ scan' label', changePixel (frame.colour (x, y)) y scan x = some scan' ∧
      At frame m (x + 1) y scan' label' := by
  have seenW := seen_west (y := y) insideX afterX
  have seenN := seen_north (x := x) insideX afterY
  have refersW := at'.rows.west afterX
  have notEdge := not_edge_center (w := w) afterX afterY
  have shortX : x < 2 ^ 15 := lt_trans insideX frame.width_lt
  have shortY : y < 2 ^ 15 := lt_trans insideY frame.height_lt
  obtain ⟨closed, carries1⟩ := at'.scanned.close (lt_of_le_of_lt (Nat.sub_le x 1) shortX) seenW
    fun n _ isOpen => at'.scanned.label_of_opened insideX.le isOpen
  have opened := closed.reopen (Opened frame (x + 1) y) fun _ _ => False.elim
  have refersN' := carries1.refers _ _ refersN
  have colourN := closed.colour seenN
  by_cases same : frame.colour (x, y) = frame.colour (x, y - 1)
  · have only : ∀ n, Seen w x y n → Touches frame.near (x, y) n →
        label n = label (x, y - 1) := by
      intro n seen touches
      obtain ⟨equal, ⟨_, rfl⟩ | ⟨_, rfl⟩⟩ := touches_cases seen touches
      · exact absurd equal.symm different
      · rfl
    have lowest : ∀ n, Seen w x y n → n.2 ≤ y := by
      intro n seen
      rcases seen.2 with above | ⟨here, _⟩
      · exact above.le
      · exact here.le
    have met : ∀ n, Seen w x y n → frame.Border (x, y) n →
        (scan.segmenter.closeRight (label (x - 1, y)) (x - 1)).Accounted (label (x, y - 1))
          (label n) := by
      intro n seen border
      obtain ⟨differs, ⟨_, rfl⟩ | ⟨_, rfl⟩⟩ := border_cases seen border
      · exact closed.corner insideX insideY afterX afterY (same ▸ different.symm)
      · exact absurd same differs
    obtain ⟨surveyed, carries2⟩ := opened.extendBelow shortY not_seen_self seenN
      (Or.inl ⟨beside_north afterY, same.symm⟩) only le_rfl (Nat.sub_le y 1) opened_self lowest
      notEdge (closed.accounts.extend closed.charted not_seen_self seenN met)
    have carries := carries1.trans carries2
    refine ⟨⟨(scan.segmenter.closeRight (label (x - 1, y)) (x - 1)).setBottom
        (label (x, y - 1)) y, Function.update scan.currentRow x (scan.previousRow x),
        scan.previousRow⟩, Function.update label (x, y) (label (x, y - 1)), ?_, ?_, ?_⟩
    · simp only [changePixel, refersW.region, Option.bind_eq_bind, Option.bind_some,
        refersN'.region, colourN, if_pos same]
    · exact surveyed.scanned insideX (Nat.le_succ _) rfl fun _ _ => Iff.rfl
    · apply at'.rows.advance insideX carries.denotes
      · intro n seen
        exact update_seen not_seen_self seen
      · rw [Function.update_self]
        exact carries.refers _ _ refersN
  · obtain ⟨s1, s2, made1, made2, surveyed, carries2, refers⟩ := opened.startInside
      ⟨shortX, shortY⟩ insideX afterX afterY different same notEdge
    refine ⟨_, _, ?_, at'.start insideX surveyed (fun _ _ => Iff.rfl) (carries1.trans carries2)
      refers⟩
    have binary := frame.colour_binary insideX insideY
    have refersNew := addRegion_refers
      (scan.segmenter.closeRight (label (x - 1, y)) (x - 1)) x y (frame.colour (x, y))
    simp only [changePixel, refersW.region, Option.bind_eq_bind, Option.bind_some,
      refersN'.region, colourN, if_neg same, newRegion, guard_eq_some binary, refersNew.region,
      made1]
    by_cases two : label (x - 1, y) ≠ label (x, y - 1)
    · rw [if_pos two] at made2 ⊢
      rw [made2, Option.bind_some]
    · rw [if_neg two] at made2 ⊢
      rw [Option.some.inj made2]

theorem centerPixel_spec (at' : At frame m x y scan label) (afterX : 0 < x) (insideX : x < w)
    (afterY : 0 < y) (insideY : y < h) :
    ∃ scan' label', centerPixel frame.source y scan x = some scan' ∧
      At frame m (x + 1) y scan' label' := by
  have here : frame.source[y * scan.segmenter.width + x]? = some (frame.colour (x, y)) := by
    rw [at'.scanned.width]
    exact frame.source_getElem? insideX insideY
  have west : frame.source[y * scan.segmenter.width + x - 1]? =
      some (frame.colour (x - 1, y)) := by
    rw [at'.scanned.width, Nat.add_sub_assoc afterX]
    exact frame.source_getElem? (lt_of_le_of_lt (Nat.sub_le x 1) insideX) insideY
  obtain ⟨scan1, resolved, at1, refersN⟩ := resolvePrevious_spec at' insideX afterY
  by_cases same : frame.colour (x, y) = frame.colour (x - 1, y)
  · obtain ⟨scan', label', continued, at2⟩ :=
      continuePixel_spec at1 afterX insideX afterY insideY refersN same
    refine ⟨scan', label', ?_, at2⟩
    simp only [centerPixel, here, west, resolved, Option.bind_eq_bind, Option.bind_some,
      if_pos same, continued]
  · obtain ⟨scan', label', changed, at2⟩ :=
      changePixel_spec at1 afterX insideX afterY insideY refersN same
    refine ⟨scan', label', ?_, at2⟩
    simp only [centerPixel, here, west, resolved, Option.bind_eq_bind, Option.bind_some,
      if_neg same, changed]

end OfxPrimes.Fidtrack
