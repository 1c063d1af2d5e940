import OfxPrimes.Fidtrack.Survey

/-!
# The scan of an image

Every pixel of the scan keeps the survey of the pixels before it, and with it the
rows of references that the scan steers by.
-/

namespace OfxPrimes.Fidtrack

open OfxPrimes.Graph Segmenter

variable {w h m bound x y : ℕ} {frame : Frame w h} {seen opened edge : ℕ × ℕ → Prop}
  {s s' : Segmenter} {scan : Scan} {label label' : ℕ × ℕ → ℕ} {p q : ℕ × ℕ} {ref r : ℕ}

/-- The pixel is in the run that ends before column `x` of line `y`. -/
def Opened (frame : Frame w h) (x y : ℕ) (n : ℕ × ℕ) : Prop :=
  n.2 = y ∧ n.1 < x ∧ ∀ i, n.1 ≤ i → i < x → frame.colour (i, y) = frame.colour n

/-- The pixel is at the edge of the image, as far as that is marked in line `y`. -/
def Edge (w y : ℕ) (n : ℕ × ℕ) : Prop :=
  n.2 = 0 ∨ n.1 = 0 ∨ (n.1 + 1 = w ∧ n.2 < y)

/-- The survey of the pixels before column `x` of line `y`. -/
abbrev Scanned (frame : Frame w h) (m x y : ℕ) (s : Segmenter) (label : ℕ × ℕ → ℕ) : Prop :=
  Surveyed frame m (y * w + x) (Seen w x y) (frame.SeenBorder (Seen w x y)) (Opened frame x y)
    (Edge w y) s label

/-- The rows refer to the regions of the line so far, and of the rest of the line before. -/
structure Rows (scan : Scan) (label : ℕ × ℕ → ℕ) (w x y : ℕ) : Prop where
  current : ∀ i < x, scan.segmenter.Denotes (scan.currentRow i) (label (i, y))
  west : 0 < x → scan.segmenter.Refers (scan.currentRow (x - 1)) (label (x - 1, y))
  previous : 0 < y → ∀ i, x ≤ i → i < w →
    scan.segmenter.Denotes (scan.previousRow i) (label (i, y - 1))

/-- The state of the scan before column `x` of line `y`. -/
structure At (frame : Frame w h) (m x y : ℕ) (scan : Scan) (label : ℕ × ℕ → ℕ) : Prop where
  scanned : Scanned frame m x y scan.segmenter label
  rows : Rows scan label w x y

/-! ## Where a pixel touches the pixels before it -/

theorem touches_cases {n : ℕ × ℕ} (seenN : Seen w x y n) (touches : Touches frame.near (x, y) n) :
    frame.colour n = frame.colour (x, y) ∧
      ((0 < x ∧ n = (x - 1, y)) ∨ (0 < y ∧ n = (x, y - 1))) := by
  rcases touches with isNear | isNear
  · exact ⟨isNear.2, seenN.beside (Or.inl isNear.1)⟩
  · exact ⟨isNear.2.symm, seenN.beside (Or.inr isNear.1)⟩

theorem border_cases {n : ℕ × ℕ} (seenN : Seen w x y n) (border : frame.Border (x, y) n) :
    frame.colour (x, y) ≠ frame.colour n ∧
      ((0 < x ∧ n = (x - 1, y)) ∨ (0 < y ∧ n = (x, y - 1))) :=
  ⟨border.2, seenN.beside border.1.symm⟩

/-- One of two different colours is the third, where there are two. -/
theorem Frame.colour_eq_of_ne {x1 y1 x2 y2 x3 y3 : ℕ} (in1 : x1 < w ∧ y1 < h)
    (in2 : x2 < w ∧ y2 < h) (in3 : x3 < w ∧ y3 < h)
    (different : frame.colour (x1, y1) ≠ frame.colour (x2, y2))
    (different' : frame.colour (x3, y3) ≠ frame.colour (x2, y2)) :
    frame.colour (x3, y3) = frame.colour (x1, y1) := by
  have binary1 := frame.colour_binary in1.1 in1.2
  have binary2 := frame.colour_binary in2.1 in2.2
  have binary3 := frame.colour_binary in3.1 in3.2
  rcases binary1 with is1 | is1 <;> rcases binary2 with is2 | is2 <;>
    rcases binary3 with is3 | is3 <;> simp_all

/-- The regions before a pixel and above it are accounted for together, through the
pixel that is beside both. -/
theorem Surveyed.corner
    (surveyed : Surveyed frame m bound (Seen w x y) (frame.SeenBorder (Seen w x y)) opened edge s
      label)
    (insideX : x < w) (insideY : y < h) (afterX : 0 < x) (afterY : 0 < y)
    (different : frame.colour (x - 1, y) ≠ frame.colour (x, y - 1)) :
    s.Accounted (label (x, y - 1)) (label (x - 1, y)) := by
  have seenW := seen_west (y := y) insideX afterX
  have seenN := seen_north (x := x) insideX afterY
  have seenC : Seen w x y (x - 1, y - 1) := by
    simp only [Seen]
    omega
  have besideN : Beside (x - 1, y - 1) (x, y - 1) := beside_west afterX
  have besideW : Beside (x - 1, y - 1) (x - 1, y) := beside_north afterY
  have inC : x - 1 < w ∧ y - 1 < h := by omega
  have inW : x - 1 < w ∧ y < h := by omega
  have inN : x < w ∧ y - 1 < h := by omega
  by_cases same : frame.colour (x - 1, y - 1) = frame.colour (x, y - 1)
  · have joined := surveyed.label_eq seenC seenN ⟨besideN, same⟩
    rw [← joined]
    apply surveyed.accounts
    refine ⟨seenC, seenW, Or.inl besideW, ?_⟩
    rw [same]
    exact different.symm
  · have sameW := Frame.colour_eq_of_ne inW inN inC different same
    have joined := surveyed.label_eq seenC seenW ⟨besideW, sameW⟩
    rw [← joined]
    apply surveyed.accounts
    exact ⟨seenN, seenC, Or.inr besideN, fun equal => same equal.symm⟩

/-- The pixels of the run that the scan is in are in one region. -/
theorem Surveyed.label_of_opened
    {pairs : ℕ × ℕ → ℕ × ℕ → Prop}
    (surveyed : Surveyed frame m bound (Seen w x y) pairs opened edge s label)
    (inside : x ≤ w) {n : ℕ × ℕ} (isOpen : Opened frame x y n) :
    label n = label (x - 1, y) ∧ n.1 ≤ x - 1 := by
  rcases n with ⟨i, j⟩
  obtain ⟨sameLine, before, run⟩ := isOpen
  change j = y at sameLine
  subst sameLine
  have along : ∀ k, i + k < x → label (i, j) = label (i + k, j) := by
    intro k
    induction k with
    | zero => exact fun _ => rfl
    | succ k ih =>
        intro below
        have earlier : i + k < x := Nat.lt_of_succ_lt below
        rw [ih earlier]
        apply surveyed.label_eq
        · exact ⟨Nat.lt_of_lt_of_le earlier inside, Or.inr ⟨rfl, earlier⟩⟩
        · exact ⟨Nat.lt_of_lt_of_le below inside, Or.inr ⟨rfl, below⟩⟩
        · constructor
          · exact Or.inl ⟨rfl, rfl⟩
          · rw [run (i + k) (Nat.le_add_right _ _) earlier,
              run (i + (k + 1)) (Nat.le_add_right _ _) below]
  change i < x at before
  have last := along (x - 1 - i) (by omega)
  have reaches : i + (x - 1 - i) = x - 1 := by omega
  rw [reaches] at last
  exact ⟨last, by change i ≤ x - 1; omega⟩

theorem opened_succ {n : ℕ × ℕ} (same : frame.colour (x, y) = frame.colour (x - 1, y))
    (isOpen : Opened frame x y n) : Opened frame (x + 1) y n := by
  obtain ⟨sameLine, before, run⟩ := isOpen
  refine ⟨sameLine, Nat.lt_succ_of_lt before, ?_⟩
  intro i above below
  by_cases last : i = x
  · rw [last, same]
    apply run
    · omega
    · omega
  · apply run i above
    omega

theorem opened_self : Opened frame (x + 1) y (x, y) := by
  refine ⟨rfl, Nat.lt_succ_self x, ?_⟩
  intro i above below
  have last : i = x := Nat.le_antisymm (Nat.le_of_lt_succ below) above
  rw [last]

/-! ## The rows along a step -/

/-- The rows are kept by a step that labels the next pixel. -/
theorem Rows.advance {rename : ℕ → ℕ} (rows : Rows scan label w x y) (inside : x < w)
    (denotes : ∀ ref r, scan.segmenter.Denotes ref r → s'.Denotes ref (rename r))
    (labels : ∀ n, Seen w x y n → label' n = rename (label n))
    (refers : s'.Refers ref (label' (x, y))) :
    Rows ⟨s', Function.update scan.currentRow x ref, scan.previousRow⟩ label' w (x + 1) y := by
  constructor
  · intro i below
    by_cases last : i = x
    · subst last
      change s'.Denotes (Function.update scan.currentRow i ref i) _
      rw [Function.update_self]
      exact refers.denotes
    · have before : i < x := Nat.lt_of_le_of_ne (Nat.le_of_lt_succ below) last
      change s'.Denotes (Function.update scan.currentRow x ref i) _
      rw [Function.update_of_ne last]
      rw [labels (i, y) ⟨Nat.lt_trans before inside, Or.inr ⟨rfl, before⟩⟩]
      exact denotes _ _ (rows.current i before)
  · intro _
    change s'.Refers (Function.update scan.currentRow x ref (x + 1 - 1)) _
    rw [Nat.add_sub_cancel, Function.update_self]
    exact refers
  · intro after i above below
    have seenI : Seen w x y (i, y - 1) := by
      simp only [Seen]
      omega
    rw [labels _ seenI]
    exact denotes _ _ (rows.previous after i (Nat.le_of_succ_le above) below)

/-- `RESOLVE_REGIONREF_REDIRECTS( previous_row[x], previous_row[x] )` finds the region
above the next pixel. -/
theorem resolvePrevious_spec (at' : At frame m x y scan label) (inside : x < w) (after : 0 < y) :
    ∃ scan', resolvePrevious scan x = some scan' ∧ At frame m x y scan' label ∧
      scan'.segmenter.Refers (scan'.previousRow x) (label (x, y - 1)) := by
  obtain ⟨s', root, resolved, surveyed, carries, refers, regions⟩ :=
    at'.scanned.resolve (at'.rows.previous after x le_rfl inside)
  refine ⟨⟨s', scan.currentRow, Function.update scan.previousRow x root⟩, ?_, ⟨surveyed, ?_⟩, ?_⟩
  · simp only [resolvePrevious, resolved, Option.bind_eq_bind, Option.bind_some]
  · constructor
    · exact fun i below => carries.denotes _ _ (at'.rows.current i below)
    · exact fun positive => carries.refers _ _ (at'.rows.west positive)
    · intro _ i above below
      change s'.Denotes (Function.update scan.previousRow x root i) _
      by_cases here : i = x
      · rw [here, Function.update_self]
        exact refers.denotes
      · rw [Function.update_of_ne here]
        exact carries.denotes _ _ (at'.rows.previous after i above below)
  · change s'.Refers (Function.update scan.previousRow x root x) _
    rw [Function.update_self]
    exact refers

/-- A survey with one more pixel is a scan that is one column further. -/
theorem Surveyed.scanned {pairs : ℕ × ℕ → ℕ × ℕ → Prop} {edge : ℕ × ℕ → Prop} {bound : ℕ}
    (inside : x < w) (le : bound ≤ y * w + (x + 1))
    (surveyed : Surveyed frame m bound (fun n => Seen w x y n ∨ n = (x, y)) pairs
      (Opened frame (x + 1) y) edge s label)
    (isPairs : pairs = frame.SeenBorder fun n => Seen w x y n ∨ n = (x, y))
    (isEdge : ∀ n, Seen w x y n ∨ n = (x, y) → (Edge w y n ↔ edge n)) :
    Scanned frame m (x + 1) y s label := by
  have same : Seen w (x + 1) y = fun n => Seen w x y n ∨ n = (x, y) :=
    funext fun n => propext (seen_succ_iff inside n)
  rw [Scanned, same]
  apply Surveyed.congr_edge _ _ isEdge
  apply surveyed.weaken le
  rw [← isPairs]
  exact surveyed.accounts

end OfxPrimes.Fidtrack
