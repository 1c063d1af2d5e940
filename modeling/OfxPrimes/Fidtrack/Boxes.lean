import OfxPrimes.Fidtrack.Charted

/-!
# The boxes of the regions

The left and the top of a box are exact from the start.  The bottom is exact but for
the regions at the edge of the image, and the right besides for the run of pixels
that the scan is in, which is only known once it has ended.
-/

namespace OfxPrimes.Fidtrack

open OfxPrimes.Graph Segmenter

section Sides

variable {seen : ℕ × ℕ → Prop} {label : ℕ × ℕ → ℕ} {side side' : ℕ → ℤ} {coord : ℕ × ℕ → ℕ}
  {except except' : ℕ × ℕ → Prop} {p q q1 q2 : ℕ × ℕ} {r : ℕ}

/-- The side of every region is the coordinate of one of its pixels. -/
def Attains (seen : ℕ × ℕ → Prop) (label : ℕ × ℕ → ℕ) (side : ℕ → ℤ) (coord : ℕ × ℕ → ℕ) : Prop :=
  ∀ ⦃p⦄, seen p → ∃ q, seen q ∧ label q = label p ∧ side (label p) = coord q

/-- The side is at most the coordinate of every pixel of the region. -/
def AtMost (seen : ℕ × ℕ → Prop) (label : ℕ × ℕ → ℕ) (side : ℕ → ℤ) (coord : ℕ × ℕ → ℕ) : Prop :=
  ∀ ⦃p⦄, seen p → side (label p) ≤ coord p

/-- But for some pixels, the side is at least the coordinate. -/
def Covers (seen except : ℕ × ℕ → Prop) (label : ℕ × ℕ → ℕ) (side : ℕ → ℤ)
    (coord : ℕ × ℕ → ℕ) : Prop :=
  ∀ ⦃p⦄, seen p → except p ∨ (coord p : ℤ) ≤ side (label p)

/-! ### A pixel joins a region -/

theorem Attains.extend (attains : Attains seen label side coord) (fresh : ¬ seen p)
    (seenQ : seen q) :
    Attains (fun n => seen n ∨ n = p) (Function.update label p (label q)) side coord := by
  have whole : ∀ n, seen n → ∃ m, (seen m ∨ m = p) ∧
      Function.update label p (label q) m = label n ∧ side (label n) = coord m := by
    intro n seenN
    obtain ⟨m, seenM, same, attained⟩ := attains seenN
    exact ⟨m, Or.inl seenM, (update_seen fresh seenM).trans same, attained⟩
  rintro n (seenN | rfl)
  · rw [update_seen fresh seenN]
    exact whole n seenN
  · rw [Function.update_self]
    exact whole q seenQ

theorem AtMost.extend (atMost : AtMost seen label side coord) (fresh : ¬ seen p)
    (seenQ : seen q) (after : coord q ≤ coord p) :
    AtMost (fun n => seen n ∨ n = p) (Function.update label p (label q)) side coord := by
  rintro n (seenN | rfl)
  · rw [update_seen fresh seenN]
    exact atMost seenN
  · rw [Function.update_self]
    exact le_trans (atMost seenQ) (Int.ofNat_le.mpr after)

theorem Covers.extend (covers : Covers seen except label side coord) (fresh : ¬ seen p)
    (less : ∀ n, seen n → except n → except' n)
    (new : except' p ∨ (coord p : ℤ) ≤ side (label q)) :
    Covers (fun n => seen n ∨ n = p) except' (Function.update label p (label q)) side coord := by
  rintro n (seenN | rfl)
  · rw [update_seen fresh seenN]
    exact (covers seenN).imp_left (less n seenN)
  · rw [Function.update_self]
    exact new

/-! ### A pixel starts a region -/

theorem Attains.fresh (attains : Attains seen label side coord) (fresh : ¬ seen p)
    (same : ∀ n, seen n → side' (label n) = side (label n)) (made : side' r = coord p) :
    Attains (fun n => seen n ∨ n = p) (Function.update label p r) side' coord := by
  rintro n (seenN | rfl)
  · obtain ⟨m, seenM, sameLabel, attained⟩ := attains seenN
    rw [update_seen fresh seenN, same n seenN]
    exact ⟨m, Or.inl seenM, (update_seen fresh seenM).trans sameLabel, attained⟩
  · rw [Function.update_self]
    exact ⟨n, Or.inr rfl, Function.update_self .., made⟩

theorem AtMost.fresh (atMost : AtMost seen label side coord) (fresh : ¬ seen p)
    (same : ∀ n, seen n → side' (label n) = side (label n)) (made : side' r = coord p) :
    AtMost (fun n => seen n ∨ n = p) (Function.update label p r) side' coord := by
  rintro n (seenN | rfl)
  · rw [update_seen fresh seenN, same n seenN]
    exact atMost seenN
  · rw [Function.update_self, made]

theorem Covers.fresh (covers : Covers seen except label side coord) (fresh : ¬ seen p)
    (less : ∀ n, seen n → except n → except' n)
    (same : ∀ n, seen n → side' (label n) = side (label n)) (made : side' r = coord p) :
    Covers (fun n => seen n ∨ n = p) except' (Function.update label p r) side' coord := by
  rintro n (seenN | rfl)
  · rw [update_seen fresh seenN, same n seenN]
    exact (covers seenN).imp_left (less n seenN)
  · rw [Function.update_self, made]
    exact Or.inr le_rfl

/-! ### A pixel joins two regions -/

section Merged

variable (fresh : ¬ seen p) (seen1 : seen q1)
  (same : ∀ a, a ≠ label q1 → side' a = side a)
include fresh

omit fresh in
theorem mergedLabel_self (r1 r2 : ℕ) (p : ℕ × ℕ) (label : ℕ × ℕ → ℕ) :
    mergedLabel r1 r2 p label p = r1 :=
  Function.update_self ..

theorem mergedLabel_seen (r1 r2 : ℕ) {n : ℕ × ℕ} (seenN : seen n) :
    mergedLabel r1 r2 p label n = rename r1 r2 (label n) :=
  update_seen fresh seenN

include seen1 same

theorem Attains.merge (seen2 : seen q2) (attains : Attains seen label side coord)
    (either : side' (label q1) = side (label q1) ∨ side' (label q1) = side (label q2)) :
    Attains (fun n => seen n ∨ n = p) (mergedLabel (label q1) (label q2) p label) side' coord := by
  have first : ∃ m, (seen m ∨ m = p) ∧
      mergedLabel (label q1) (label q2) p label m = label q1 ∧ side' (label q1) = coord m := by
    rcases either with is1 | is2
    · obtain ⟨m, seenM, sameLabel, attained⟩ := attains seen1
      refine ⟨m, Or.inl seenM, ?_, is1.trans attained⟩
      rw [mergedLabel_seen fresh _ _ seenM, sameLabel]
      by_cases both : label q1 = label q2
      · rw [← both, rename_self]
      · exact rename_of_ne both
    · obtain ⟨m, seenM, sameLabel, attained⟩ := attains seen2
      refine ⟨m, Or.inl seenM, ?_, is2.trans attained⟩
      rw [mergedLabel_seen fresh _ _ seenM, sameLabel, rename_self]
  rintro n (seenN | rfl)
  · rw [mergedLabel_seen fresh _ _ seenN]
    by_cases is2 : label n = label q2
    · rw [is2, rename_self]
      exact first
    · rw [rename_of_ne is2]
      by_cases is1 : label n = label q1
      · rw [is1]
        exact first
      · obtain ⟨m, seenM, sameLabel, attained⟩ := attains seenN
        refine ⟨m, Or.inl seenM, ?_, (same _ is1).trans attained⟩
        rw [mergedLabel_seen fresh _ _ seenM, sameLabel, rename_of_ne is2]
  · rw [mergedLabel_self]
    exact first

theorem AtMost.merge (atMost : AtMost seen label side coord)
    (le1 : side' (label q1) ≤ side (label q1)) (le2 : side' (label q1) ≤ side (label q2))
    (after : coord q1 ≤ coord p) :
    AtMost (fun n => seen n ∨ n = p) (mergedLabel (label q1) (label q2) p label) side' coord := by
  rintro n (seenN | rfl)
  · rw [mergedLabel_seen fresh _ _ seenN]
    by_cases is2 : label n = label q2
    · rw [is2, rename_self]
      exact le_trans le2 (is2 ▸ atMost seenN)
    · rw [rename_of_ne is2]
      by_cases is1 : label n = label q1
      · rw [is1]
        exact le_trans le1 (is1 ▸ atMost seenN)
      · rw [same _ is1]
        exact atMost seenN
  · rw [mergedLabel_self]
    exact le_trans (le_trans le1 (atMost seen1)) (Int.ofNat_le.mpr after)

omit seen1 in
theorem Covers.merge (covers : Covers seen except label side coord)
    (less : ∀ n, seen n → except n → except' n)
    (ge1 : side (label q1) ≤ side' (label q1)) (ge2 : side (label q2) ≤ side' (label q1))
    (new : except' p ∨ (coord p : ℤ) ≤ side' (label q1)) :
    Covers (fun n => seen n ∨ n = p) except' (mergedLabel (label q1) (label q2) p label)
      side' coord := by
  rintro n (seenN | rfl)
  · rw [mergedLabel_seen fresh _ _ seenN]
    apply (covers seenN).imp (less n seenN)
    intro below
    by_cases is2 : label n = label q2
    · rw [is2] at below
      rw [is2, rename_self]
      exact le_trans below ge2
    · rw [rename_of_ne is2]
      by_cases is1 : label n = label q1
      · rw [is1] at below
        rw [is1]
        exact le_trans below ge1
      · rw [same _ is1]
        exact below
  · rw [mergedLabel_self]
    exact new

end Merged

end Sides

/-! ## The box and the edge -/

/-- What the boxes of the regions have to do with their pixels.  The scan is in the
run `opened`, and the pixels of `edge` are known to be at the edge of the image. -/
structure Boxed (seen opened edge : ℕ × ℕ → Prop) (regions : ℕ → Region)
    (label : ℕ × ℕ → ℕ) : Prop where
  left : AtMost seen label (fun r => (regions r).left) Prod.fst
  leftAt : Attains seen label (fun r => (regions r).left) Prod.fst
  top : AtMost seen label (fun r => (regions r).top) Prod.snd
  topAt : Attains seen label (fun r => (regions r).top) Prod.snd
  right : Covers seen
    (fun n => (regions (label n)).flags.adjacentToRoot = true ∨ opened n) label
    (fun r => (regions r).right) Prod.fst
  rightAt : Attains seen label (fun r => (regions r).right) Prod.fst
  bottom : Covers seen (fun n => (regions (label n)).flags.adjacentToRoot = true) label
    (fun r => (regions r).bottom) Prod.snd
  bottomAt : Attains seen label (fun r => (regions r).bottom) Prod.snd
  root : ∀ p, seen p → ((regions (label p)).flags.adjacentToRoot = true ↔
    ∃ q, seen q ∧ label q = label p ∧ edge q)

variable {seen opened opened' edge edge' : ℕ × ℕ → Prop} {regions regions' : ℕ → Region}
  {label : ℕ × ℕ → ℕ} {p q q1 q2 : ℕ × ℕ} {r : ℕ}

/-- The box and the root flag of a region are those of another. -/
structure SameBox (region region' : Region) : Prop where
  left : region'.left = region.left
  top : region'.top = region.top
  right : region'.right = region.right
  bottom : region'.bottom = region.bottom
  adjacentToRoot : region'.flags.adjacentToRoot = region.flags.adjacentToRoot

theorem sameBox_of_bare {region region' : Region} (same : bare region' = bare region) :
    SameBox region region' := by
  have left := congrArg Region.left same
  have top := congrArg Region.top same
  have right := congrArg Region.right same
  have bottom := congrArg Region.bottom same
  have root := congrArg (fun region => region.flags.adjacentToRoot) same
  exact ⟨left, top, right, bottom, root⟩

theorem Boxed.congr (boxed : Boxed seen opened edge regions label)
    (same : ∀ r, SameBox (regions r) (regions' r)) :
    Boxed seen opened edge regions' label := by
  have left : (fun r => (regions' r).left) = fun r => (regions r).left :=
    funext fun r => (same r).left
  have top : (fun r => (regions' r).top) = fun r => (regions r).top :=
    funext fun r => (same r).top
  have right : (fun r => (regions' r).right) = fun r => (regions r).right :=
    funext fun r => (same r).right
  have bottom : (fun r => (regions' r).bottom) = fun r => (regions r).bottom :=
    funext fun r => (same r).bottom
  have root : ∀ r, (regions' r).flags.adjacentToRoot = (regions r).flags.adjacentToRoot :=
    fun r => (same r).adjacentToRoot
  constructor
  · exact left ▸ boxed.left
  · exact left ▸ boxed.leftAt
  · exact top ▸ boxed.top
  · exact top ▸ boxed.topAt
  · simp only [root, right]
    exact boxed.right
  · exact right ▸ boxed.rightAt
  · simp only [root, bottom]
    exact boxed.bottom
  · exact bottom ▸ boxed.bottomAt
  · intro p seenP
    rw [root]
    exact boxed.root p seenP

theorem Boxed.congr_edge (boxed : Boxed seen opened edge regions label)
    (same : ∀ p, seen p → (edge' p ↔ edge p)) : Boxed seen opened edge' regions label := by
  refine { boxed with root := ?_ }
  intro p seenP
  rw [boxed.root p seenP]
  constructor
  · rintro ⟨q, seenQ, sameLabel, isEdge⟩
    exact ⟨q, seenQ, sameLabel, (same q seenQ).mpr isEdge⟩
  · rintro ⟨q, seenQ, sameLabel, isEdge⟩
    exact ⟨q, seenQ, sameLabel, (same q seenQ).mp isEdge⟩

/-- A run may be forgotten where its pixels are known to be at the edge, and may
always be taken for longer. -/
theorem Boxed.reopen (boxed : Boxed seen opened edge regions label)
    (kept : ∀ n, seen n → opened n →
      (regions (label n)).flags.adjacentToRoot = true ∨ opened' n) :
    Boxed seen opened' edge regions label := by
  refine { boxed with right := ?_ }
  intro n seenN
  apply (boxed.right seenN).imp_left
  rintro (atRoot | isOpen)
  · exact Or.inl atRoot
  · exact kept n seenN isOpen

/-- A pixel joins a region, to the right of one of its pixels or below it. -/
theorem Boxed.extend (boxed : Boxed seen opened edge regions label) (fresh : ¬ seen p)
    (seenQ : seen q) (afterX : q.1 ≤ p.1) (afterY : q.2 ≤ p.2)
    (isOpen : (regions (label q)).flags.adjacentToRoot = true ∨ opened p)
    (low : (regions (label q)).flags.adjacentToRoot = true ∨
      (p.2 : ℤ) ≤ (regions (label q)).bottom)
    (edgeOf : edge p → (regions (label q)).flags.adjacentToRoot = true) :
    Boxed (fun n => seen n ∨ n = p) opened edge regions
      (Function.update label p (label q)) where
  left := boxed.left.extend fresh seenQ afterX
  leftAt := boxed.leftAt.extend fresh seenQ
  top := boxed.top.extend fresh seenQ afterY
  topAt := boxed.topAt.extend fresh seenQ
  right := by
    apply boxed.right.extend fresh
    · intro n seenN
      rw [update_seen fresh seenN]
      exact id
    · left
      rw [Function.update_self]
      exact isOpen
  rightAt := boxed.rightAt.extend fresh seenQ
  bottom := by
    apply boxed.bottom.extend fresh
    · intro n seenN
      rw [update_seen fresh seenN]
      exact id
    · rw [Function.update_self]
      exact low
  bottomAt := boxed.bottomAt.extend fresh seenQ
  root := by
    have lifted : ∀ n, seen n → ((regions (label n)).flags.adjacentToRoot = true ↔
        ∃ m, (seen m ∨ m = p) ∧ Function.update label p (label q) m = label n ∧ edge m) := by
      intro n seenN
      constructor
      · intro atRoot
        obtain ⟨m, seenM, same, isEdge⟩ := (boxed.root n seenN).mp atRoot
        exact ⟨m, Or.inl seenM, (update_seen fresh seenM).trans same, isEdge⟩
      · rintro ⟨m, seenM | rfl, same, isEdge⟩
        · rw [update_seen fresh seenM] at same
          exact (boxed.root n seenN).mpr ⟨m, seenM, same, isEdge⟩
        · rw [Function.update_self] at same
          exact same ▸ edgeOf isEdge
    rintro n (seenN | rfl)
    · rw [update_seen fresh seenN]
      exact lifted n seenN
    · rw [Function.update_self]
      exact lifted q seenQ

/-- A pixel starts a region, whose box is that pixel. -/
theorem Boxed.fresh (boxed : Boxed seen opened edge regions label) (fresh : ¬ seen p)
    (same : ∀ n, seen n → regions' (label n) = regions (label n))
    (notLabel : ∀ n, seen n → label n ≠ r)
    (left : (regions' r).left = p.1) (top : (regions' r).top = p.2)
    (right : (regions' r).right = p.1) (bottom : (regions' r).bottom = p.2)
    (notRoot : (regions' r).flags.adjacentToRoot = false) (notEdge : ¬ edge p) :
    Boxed (fun n => seen n ∨ n = p) opened edge regions' (Function.update label p r) where
  left := boxed.left.fresh fresh (fun n seenN => by rw [same n seenN]) left
  leftAt := boxed.leftAt.fresh fresh (fun n seenN => by rw [same n seenN]) left
  top := boxed.top.fresh fresh (fun n seenN => by rw [same n seenN]) top
  topAt := boxed.topAt.fresh fresh (fun n seenN => by rw [same n seenN]) top
  right := by
    apply boxed.right.fresh fresh _ (fun n seenN => by rw [same n seenN]) right
    intro n seenN
    rw [update_seen fresh seenN, same n seenN]
    exact id
  rightAt := boxed.rightAt.fresh fresh (fun n seenN => by rw [same n seenN]) right
  bottom := by
    apply boxed.bottom.fresh fresh _ (fun n seenN => by rw [same n seenN]) bottom
    intro n seenN
    rw [update_seen fresh seenN, same n seenN]
    exact id
  bottomAt := boxed.bottomAt.fresh fresh (fun n seenN => by rw [same n seenN]) bottom
  root := by
    rintro n (seenN | rfl)
    · rw [update_seen fresh seenN, same n seenN, boxed.root n seenN]
      constructor
      · rintro ⟨m, seenM, sameLabel, isEdge⟩
        exact ⟨m, Or.inl seenM, (update_seen fresh seenM).trans sameLabel, isEdge⟩
      · rintro ⟨m, seenM | rfl, sameLabel, isEdge⟩
        · rw [update_seen fresh seenM] at sameLabel
          exact ⟨m, seenM, sameLabel, isEdge⟩
        · exact absurd isEdge notEdge
    · rw [Function.update_self, notRoot]
      constructor
      · intro impossible
        exact absurd impossible Bool.false_ne_true
      · rintro ⟨m, seenM | rfl, sameLabel, isEdge⟩
        · rw [update_seen fresh seenM] at sameLabel
          exact absurd sameLabel (notLabel m seenM)
        · exact absurd isEdge notEdge

/-- The region of a seen pixel is marked. -/
theorem Boxed.mark (boxed : Boxed seen opened edge regions label) (seenQ : seen q)
    (same : ∀ a, regions' a =
      if a = label q then (regions a).markAdjacentToRoot else regions a) :
    Boxed seen opened (fun n => edge n ∨ n = q) regions' label := by
  have left : (fun r => (regions' r).left) = fun r => (regions r).left := by
    funext a
    rw [same]
    split <;> rfl
  have top : (fun r => (regions' r).top) = fun r => (regions r).top := by
    funext a
    rw [same]
    split <;> rfl
  have right : (fun r => (regions' r).right) = fun r => (regions r).right := by
    funext a
    rw [same]
    split <;> rfl
  have bottom : (fun r => (regions' r).bottom) = fun r => (regions r).bottom := by
    funext a
    rw [same]
    split <;> rfl
  have rootIff : ∀ a, (regions' a).flags.adjacentToRoot = true ↔
      (regions a).flags.adjacentToRoot = true ∨ a = label q := by
    intro a
    rw [same]
    by_cases here : a = label q
    · simp [here, Region.markAdjacentToRoot]
    · simp [here]
  constructor
  · exact left ▸ boxed.left
  · exact left ▸ boxed.leftAt
  · exact top ▸ boxed.top
  · exact top ▸ boxed.topAt
  · rw [right]
    intro n seenN
    apply (boxed.right seenN).imp_left
    exact Or.imp_left fun atRoot => (rootIff _).mpr (Or.inl atRoot)
  · exact right ▸ boxed.rightAt
  · rw [bottom]
    intro n seenN
    apply (boxed.bottom seenN).imp_left
    exact fun atRoot => (rootIff _).mpr (Or.inl atRoot)
  · exact bottom ▸ boxed.bottomAt
  · intro p seenP
    rw [rootIff, boxed.root p seenP]
    constructor
    · rintro (⟨m, seenM, sameLabel, isEdge⟩ | sameLabel)
      · exact ⟨m, seenM, sameLabel, Or.inl isEdge⟩
      · exact ⟨q, seenQ, sameLabel.symm, Or.inr rfl⟩
    · rintro ⟨m, seenM, sameLabel, isEdge | rfl⟩
      · exact Or.inl ⟨m, seenM, sameLabel, isEdge⟩
      · exact Or.inr sameLabel.symm

/-- A pixel joins the region of the pixel above it, which is lowered. -/
theorem Boxed.extendBelow (boxed : Boxed seen opened edge regions label) (fresh : ¬ seen p)
    (seenQ : seen q) (afterX : q.1 ≤ p.1) (afterY : q.2 ≤ p.2) (isOpen : opened p)
    (lowest : ∀ n, seen n → n.2 ≤ p.2) (notEdge : ¬ edge p)
    (same : ∀ a, regions' a = if a = label q then (regions a).setBottom p.2 else regions a) :
    Boxed (fun n => seen n ∨ n = p) opened edge regions'
      (Function.update label p (label q)) := by
  have sides : ∀ a, (regions' a).left = (regions a).left ∧ (regions' a).top = (regions a).top ∧
      (regions' a).right = (regions a).right ∧
      (regions' a).flags.adjacentToRoot = (regions a).flags.adjacentToRoot := by
    intro a
    rw [same]
    split <;> exact ⟨rfl, rfl, rfl, rfl⟩
  have left : (fun r => (regions' r).left) = fun r => (regions r).left :=
    funext fun r => (sides r).1
  have top : (fun r => (regions' r).top) = fun r => (regions r).top :=
    funext fun r => (sides r).2.1
  have right : (fun r => (regions' r).right) = fun r => (regions r).right :=
    funext fun r => (sides r).2.2.1
  have root : ∀ r, (regions' r).flags.adjacentToRoot = (regions r).flags.adjacentToRoot :=
    fun r => (sides r).2.2.2
  have lowered : (regions' (label q)).bottom = p.2 := by
    rw [same, if_pos rfl]
    rfl
  have others : ∀ a, a ≠ label q → (regions' a).bottom = (regions a).bottom := by
    intro a apart
    rw [same, if_neg apart]
  have labels : ∀ n, seen n → Function.update label p (label q) n = label n :=
    fun n seenN => update_seen fresh seenN
  constructor
  · rw [left]
    exact boxed.left.extend fresh seenQ afterX
  · rw [left]
    exact boxed.leftAt.extend fresh seenQ
  · rw [top]
    exact boxed.top.extend fresh seenQ afterY
  · rw [top]
    exact boxed.topAt.extend fresh seenQ
  · simp only [right, root]
    apply boxed.right.extend fresh
    · intro n seenN
      rw [labels n seenN]
      exact id
    · exact Or.inl (Or.inr isOpen)
  · rw [right]
    exact boxed.rightAt.extend fresh seenQ
  · rintro n (seenN | rfl)
    · simp only [labels n seenN, root]
      by_cases here : label n = label q
      · right
        simp only [here, lowered]
        exact Int.ofNat_le.mpr (lowest n seenN)
      · simp only [others _ here]
        exact boxed.bottom seenN
    · right
      simp only [Function.update_self, lowered, le_refl]
  · rintro n (seenN | rfl)
    · rw [labels n seenN]
      by_cases here : label n = label q
      · exact ⟨p, Or.inr rfl, by rw [Function.update_self, here], by simp only [here, lowered]⟩
      · obtain ⟨m, seenM, sameLabel, attained⟩ := boxed.bottomAt seenN
        refine ⟨m, Or.inl seenM, (labels m seenM).trans sameLabel, ?_⟩
        simp only [others _ here]
        exact attained
    · rw [Function.update_self]
      exact ⟨n, Or.inr rfl, Function.update_self .., lowered⟩
  · have lifted : ∀ n, seen n → ((regions (label n)).flags.adjacentToRoot = true ↔
        ∃ m, (seen m ∨ m = p) ∧ Function.update label p (label q) m = label n ∧ edge m) := by
      intro n seenN
      rw [boxed.root n seenN]
      constructor
      · rintro ⟨m, seenM, sameLabel, isEdge⟩
        exact ⟨m, Or.inl seenM, (labels m seenM).trans sameLabel, isEdge⟩
      · rintro ⟨m, seenM | rfl, sameLabel, isEdge⟩
        · exact ⟨m, seenM, (labels m seenM).symm.trans sameLabel, isEdge⟩
        · exact absurd isEdge notEdge
    rintro n (seenN | rfl)
    · rw [labels n seenN, root]
      exact lifted n seenN
    · rw [Function.update_self, root]
      exact lifted q seenQ

/-- The run that the scan is in has ended with a pixel, and the box of its region is
extended to it. -/
theorem Boxed.close (boxed : Boxed seen opened edge regions label) (seenQ : seen q)
    (run : ∀ n, seen n → opened n → label n = label q ∧ n.1 ≤ q.1)
    (same : ∀ a, regions' a =
      if a = label q ∧ (regions a).right < q.1 then (regions a).setRight q.1 else regions a) :
    Boxed seen (fun _ => False) edge regions' label := by
  have sides : ∀ a, (regions' a).left = (regions a).left ∧ (regions' a).top = (regions a).top ∧
      (regions' a).bottom = (regions a).bottom ∧
      (regions' a).flags.adjacentToRoot = (regions a).flags.adjacentToRoot := by
    intro a
    rw [same]
    split <;> exact ⟨rfl, rfl, rfl, rfl⟩
  have left : (fun r => (regions' r).left) = fun r => (regions r).left :=
    funext fun r => (sides r).1
  have top : (fun r => (regions' r).top) = fun r => (regions r).top :=
    funext fun r => (sides r).2.1
  have bottom : (fun r => (regions' r).bottom) = fun r => (regions r).bottom :=
    funext fun r => (sides r).2.2.1
  have root : ∀ r, (regions' r).flags.adjacentToRoot = (regions r).flags.adjacentToRoot :=
    fun r => (sides r).2.2.2
  have wider : ∀ a, (regions a).right ≤ (regions' a).right := by
    intro a
    rw [same]
    by_cases narrow : a = label q ∧ (regions a).right < q.1
    · rw [if_pos narrow]
      exact le_of_lt narrow.2
    · rw [if_neg narrow]
  have reaches : (q.1 : ℤ) ≤ (regions' (label q)).right := by
    rw [same]
    by_cases narrow : label q = label q ∧ (regions (label q)).right < q.1
    · rw [if_pos narrow]
      exact le_rfl
    · rw [if_neg narrow]
      exact not_lt.mp fun below => narrow ⟨rfl, below⟩
  constructor
  · exact left ▸ boxed.left
  · exact left ▸ boxed.leftAt
  · exact top ▸ boxed.top
  · exact top ▸ boxed.topAt
  · intro n seenN
    simp only [root]
    rcases boxed.right seenN with (atRoot | isOpen) | below
    · exact Or.inl (Or.inl atRoot)
    · obtain ⟨sameLabel, before⟩ := run n seenN isOpen
      right
      rw [sameLabel]
      exact le_trans (Int.ofNat_le.mpr before) reaches
    · exact Or.inr (le_trans below (wider _))
  · intro n seenN
    simp only [same]
    by_cases narrow : label n = label q ∧ (regions (label n)).right < q.1
    · rw [if_pos narrow]
      exact ⟨q, seenQ, narrow.1.symm, rfl⟩
    · rw [if_neg narrow]
      exact boxed.rightAt seenN
  · simp only [root, bottom]
    exact boxed.bottom
  · exact bottom ▸ boxed.bottomAt
  · intro n seenN
    rw [root]
    exact boxed.root n seenN

theorem mergeBox_left (region merged : Region) :
    (mergeBox region merged).left = min region.left merged.left := by
  change (if merged.left < region.left then merged.left else region.left) = _
  rw [min_def]
  split <;> split <;> omega

theorem mergeBox_top (region merged : Region) :
    (mergeBox region merged).top = min region.top merged.top := by
  change (if merged.top < region.top then merged.top else region.top) = _
  rw [min_def]
  split <;> split <;> omega

theorem mergeBox_right (region merged : Region) :
    (mergeBox region merged).right = max region.right merged.right := by
  change (if merged.right > region.right then merged.right else region.right) = _
  rw [max_def]
  split <;> split <;> omega

theorem mergeBox_bottom (region merged : Region) :
    (mergeBox region merged).bottom = max region.bottom merged.bottom := by
  change (if merged.bottom > region.bottom then merged.bottom else region.bottom) = _
  rw [max_def]
  split <;> split <;> omega

/-- A pixel joins two regions, the second of which is merged into the first. -/
theorem Boxed.merge (boxed : Boxed seen opened edge regions label) (fresh : ¬ seen p)
    (seen1 : seen q1) (seen2 : seen q2)
    (distinct : label q1 ≠ label q2) (afterX : q1.1 ≤ p.1) (afterY : q1.2 ≤ p.2)
    (isOpen : opened p) (notEdge : ¬ edge p)
    (low : (regions (label q2)).flags.adjacentToRoot = true ∨
      (p.2 : ℤ) ≤ (regions (label q2)).bottom)
    (first : SameBox (mergeBox (regions (label q1)) (regions (label q2))) (regions' (label q1)))
    (others : ∀ a, a ≠ label q1 → a ≠ label q2 → SameBox (regions a) (regions' a))
    (second : (regions' (label q2)).left = (regions (label q2)).left ∧
      (regions' (label q2)).top = (regions (label q2)).top ∧
      (regions' (label q2)).right = (regions (label q2)).right ∧
      (regions' (label q2)).bottom = (regions (label q2)).bottom) :
    Boxed (fun n => seen n ∨ n = p) opened edge regions'
      (mergedLabel (label q1) (label q2) p label) := by
  have sides : ∀ a, a ≠ label q1 → (regions' a).left = (regions a).left ∧
      (regions' a).top = (regions a).top ∧ (regions' a).right = (regions a).right ∧
      (regions' a).bottom = (regions a).bottom := by
    intro a apart
    by_cases is2 : a = label q2
    · rw [is2]
      exact second
    · obtain ⟨left, top, right, bottom, _⟩ := others a apart is2
      exact ⟨left, top, right, bottom⟩
  have root1 : (regions' (label q1)).flags.adjacentToRoot = true ↔
      (regions (label q1)).flags.adjacentToRoot = true ∨
        (regions (label q2)).flags.adjacentToRoot = true := by
    rw [first.adjacentToRoot]
    exact Bool.or_eq_true _ _ ▸ Iff.rfl
  have rootOf : ∀ a, (regions a).flags.adjacentToRoot = true →
      (regions' (rename (label q1) (label q2) a)).flags.adjacentToRoot = true := by
    intro a atRoot
    by_cases is2 : a = label q2
    · rw [is2, rename_self, root1]
      exact Or.inr (is2 ▸ atRoot)
    · rw [rename_of_ne is2]
      by_cases is1 : a = label q1
      · rw [is1, root1]
        exact Or.inl (is1 ▸ atRoot)
      · rw [(others a is1 is2).adjacentToRoot]
        exact atRoot
  have exceptRight : ∀ n, seen n →
      ((regions (label n)).flags.adjacentToRoot = true ∨ opened n) →
      ((regions' (mergedLabel (label q1) (label q2) p label n)).flags.adjacentToRoot = true ∨
        opened n) := by
    intro n seenN
    rw [mergedLabel_seen fresh _ _ seenN]
    exact Or.imp_left (rootOf _)
  have left1 : (regions' (label q1)).left = min (regions (label q1)).left
      (regions (label q2)).left := by
    rw [first.left, mergeBox_left]
  have top1 : (regions' (label q1)).top = min (regions (label q1)).top
      (regions (label q2)).top := by
    rw [first.top, mergeBox_top]
  have right1 : (regions' (label q1)).right = max (regions (label q1)).right
      (regions (label q2)).right := by
    rw [first.right, mergeBox_right]
  have bottom1 : (regions' (label q1)).bottom = max (regions (label q1)).bottom
      (regions (label q2)).bottom := by
    rw [first.bottom, mergeBox_bottom]
  have low1 : (regions' (label q1)).flags.adjacentToRoot = true ∨
      (p.2 : ℤ) ≤ (regions' (label q1)).bottom := by
    rw [root1, bottom1]
    exact low.imp Or.inr fun below => le_trans below (le_max_right _ _)
  constructor
  · apply AtMost.merge fresh seen1 (fun a apart => (sides a apart).1) boxed.left
    · rw [left1]
      exact min_le_left _ _
    · rw [left1]
      exact min_le_right _ _
    · exact afterX
  · apply Attains.merge fresh seen1 (fun a apart => (sides a apart).1) seen2 boxed.leftAt
    rw [left1]
    exact min_choice _ _
  · apply AtMost.merge fresh seen1 (fun a apart => (sides a apart).2.1) boxed.top
    · rw [top1]
      exact min_le_left _ _
    · rw [top1]
      exact min_le_right _ _
    · exact afterY
  · apply Attains.merge fresh seen1 (fun a apart => (sides a apart).2.1) seen2 boxed.topAt
    rw [top1]
    exact min_choice _ _
  · apply Covers.merge fresh (fun a apart => (sides a apart).2.2.1) boxed.right exceptRight
    · rw [right1]
      exact le_max_left _ _
    · rw [right1]
      exact le_max_right _ _
    · exact Or.inl (Or.inr isOpen)
  · apply Attains.merge fresh seen1 (fun a apart => (sides a apart).2.2.1) seen2 boxed.rightAt
    rw [right1]
    exact max_choice _ _
  · apply Covers.merge fresh (fun a apart => (sides a apart).2.2.2) boxed.bottom
    · intro n seenN
      rw [mergedLabel_seen fresh _ _ seenN]
      exact rootOf _
    · rw [bottom1]
      exact le_max_left _ _
    · rw [bottom1]
      exact le_max_right _ _
    · rw [mergedLabel_self]
      exact low1
  · apply Attains.merge fresh seen1 (fun a apart => (sides a apart).2.2.2) seen2 boxed.bottomAt
    rw [bottom1]
    exact max_choice _ _
  · have labels : ∀ n, seen n → mergedLabel (label q1) (label q2) p label n =
        rename (label q1) (label q2) (label n) :=
      fun n seenN => mergedLabel_seen fresh _ _ seenN
    have joined : (regions' (label q1)).flags.adjacentToRoot = true ↔
        ∃ m, (seen m ∨ m = p) ∧ mergedLabel (label q1) (label q2) p label m = label q1 ∧
          edge m := by
      rw [root1, boxed.root q1 seen1, boxed.root q2 seen2]
      constructor
      · rintro (⟨m, seenM, sameLabel, isEdge⟩ | ⟨m, seenM, sameLabel, isEdge⟩)
        · exact ⟨m, Or.inl seenM, by rw [labels m seenM, sameLabel, rename_of_ne distinct], isEdge⟩
        · exact ⟨m, Or.inl seenM, by rw [labels m seenM, sameLabel, rename_self], isEdge⟩
      · rintro ⟨m, seenM | rfl, sameLabel, isEdge⟩
        · rw [labels m seenM] at sameLabel
          by_cases is2 : label m = label q2
          · exact Or.inr ⟨m, seenM, is2, isEdge⟩
          · rw [rename_of_ne is2] at sameLabel
            exact Or.inl ⟨m, seenM, sameLabel, isEdge⟩
        · exact absurd isEdge notEdge
    rintro n (seenN | rfl)
    · rw [labels n seenN]
      by_cases is2 : label n = label q2
      · rw [is2, rename_self]
        exact joined
      · rw [rename_of_ne is2]
        by_cases is1 : label n = label q1
        · rw [is1]
          exact joined
        · rw [(others _ is1 is2).adjacentToRoot, boxed.root n seenN]
          constructor
          · rintro ⟨m, seenM, sameLabel, isEdge⟩
            exact ⟨m, Or.inl seenM, by rw [labels m seenM, sameLabel, rename_of_ne is2], isEdge⟩
          · rintro ⟨m, seenM | rfl, sameLabel, isEdge⟩
            · rw [labels m seenM] at sameLabel
              by_cases other2 : label m = label q2
              · rw [other2, rename_self] at sameLabel
                exact absurd sameLabel.symm is1
              · rw [rename_of_ne other2] at sameLabel
                exact ⟨m, seenM, sameLabel, isEdge⟩
            · exact absurd isEdge notEdge
    · rw [mergedLabel_self]
      exact joined

end OfxPrimes.Fidtrack
