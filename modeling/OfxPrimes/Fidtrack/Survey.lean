import OfxPrimes.Fidtrack.Boxes
import OfxPrimes.Fidtrack.References

/-!
# The survey of an image

The regions, the references to them and their boxes are followed together through
the operations that the scan of an image is made of.
-/

namespace OfxPrimes.Fidtrack

open OfxPrimes.Graph Segmenter

variable {w h m bound : ℕ} {frame : Frame w h} {seen opened edge : ℕ × ℕ → Prop}
  {pairs : ℕ × ℕ → ℕ × ℕ → Prop} {s s' : Segmenter} {label : ℕ × ℕ → ℕ} {p q : ℕ × ℕ} {ref r : ℕ}

/-- What is known of the segmenter while it scans an image: of the `seen` pixels,
`pairs` are accounted for, `opened` is the run that the scan is in, and those of
`edge` are marked. -/
structure Surveyed (frame : Frame w h) (m bound : ℕ) (seen : ℕ × ℕ → Prop)
    (pairs : ℕ × ℕ → ℕ × ℕ → Prop) (opened edge : ℕ × ℕ → Prop) (s : Segmenter)
    (label : ℕ × ℕ → ℕ) : Prop where
  width : s.width = w
  height : s.height = h
  maxAdjacentRegions : s.maxAdjacentRegions = m
  regionCount : s.regionCount ≤ s.regionRefCount
  regionRefCount : s.regionRefCount ≤ bound
  charted : Charted frame seen s label
  accounts : Accounts s label pairs
  boxed : Boxed seen opened edge s.regions label
  references : References s

/-- The part of a step that the rows depend on. -/
structure Carries (s s' : Segmenter) : Prop where
  denotes : ∀ ref r, s.Denotes ref r → s'.Denotes ref r
  refers : ∀ ref r, s.Refers ref r → s'.Refers ref r

theorem Carries.refl (s : Segmenter) : Carries s s :=
  ⟨fun _ _ => id, fun _ _ => id⟩

theorem Carries.trans {s'' : Segmenter} (carries : Carries s s') (carries' : Carries s' s'') :
    Carries s s'' where
  denotes ref r denotes := carries'.denotes ref r (carries.denotes ref r denotes)
  refers ref r refers := carries'.refers ref r (carries.refers ref r refers)

theorem KeepsReferences.carries (keeps : KeepsReferences s s') : Carries s s' where
  denotes _ _ denotes := keeps.denotes denotes
  refers _ _ refers := keeps.refers refers

theorem Resolves.carries (resolves : Resolves s s') : Carries s s' :=
  ⟨resolves.denotes, resolves.refers⟩

namespace Surveyed

variable (surveyed : Surveyed frame m bound seen pairs opened edge s label)
include surveyed

theorem live (seenP : seen p) : s.outline.Live (label p) :=
  surveyed.charted.labelled.live p seenP

theorem colour (seenP : seen p) : (s.regions (label p)).colour = frame.colour p :=
  surveyed.charted.labelled.colour p seenP

/-- Pixels that are near one another are in one region. -/
theorem label_eq (seenP : seen p) (seenQ : seen q) (isNear : frame.near p q) :
    label p = label q :=
  (surveyed.charted.labelled.labels seenP seenQ).mpr (.of_near seenP seenQ isNear)

theorem weaken {bound' : ℕ} {pairs' : ℕ × ℕ → ℕ × ℕ → Prop} (le : bound ≤ bound')
    (accounts : Accounts s label pairs') :
    Surveyed frame m bound' seen pairs' opened edge s label :=
  { surveyed with
    regionRefCount := le_trans surveyed.regionRefCount le
    accounts := accounts }

theorem reopen (opened' : ℕ × ℕ → Prop) (kept : ∀ n, seen n → opened n →
      (s.regions (label n)).flags.adjacentToRoot = true ∨ opened' n) :
    Surveyed frame m bound seen pairs opened' edge s label :=
  { surveyed with boxed := surveyed.boxed.reopen kept }

theorem congr_edge (edge' : ℕ × ℕ → Prop) (same : ∀ p, seen p → (edge' p ↔ edge p)) :
    Surveyed frame m bound seen pairs opened edge' s label :=
  { surveyed with boxed := surveyed.boxed.congr_edge same }

/-! ### References are resolved -/

theorem resolve (denotes : s.Denotes ref r) :
    ∃ s' root, resolveRedirects s ref = some (s', root) ∧
      Surveyed frame m bound seen pairs opened edge s' label ∧ Carries s s' ∧
      s'.Refers root r ∧ s'.regions = s.regions := by
  obtain ⟨s', root, resolved, resolves, refers⟩ :=
    resolveRedirects_spec surveyed.references denotes
  refine ⟨s', root, resolved, ?_, resolves.carries, refers, resolves.regions⟩
  have others := resolves.others
  constructor
  · rw [others]
    exact surveyed.width
  · rw [others]
    exact surveyed.height
  · rw [others]
    exact surveyed.maxAdjacentRegions
  · rw [others]
    exact surveyed.regionCount
  · rw [others]
    exact surveyed.regionRefCount
  · rw [others]
    exact { labelled := surveyed.charted.labelled, adjacency :=
              ⟨surveyed.charted.adjacency.closed, surveyed.charted.adjacency.symmetric,
               surveyed.charted.adjacency.apart, surveyed.charted.adjacency.bounded,
               surveyed.charted.adjacency.saturated⟩,
            linked := surveyed.charted.linked }
  · rw [others]
    exact surveyed.accounts
  · rw [resolves.regions]
    exact surveyed.boxed
  · exact resolves.references

/-! ### Regions are marked and boxes closed -/

theorem mark (seenQ : seen q) :
    Surveyed frame m bound seen pairs opened (fun n => edge n ∨ n = q)
      (s.markAdjacentToRoot (label q)) label where
  width := surveyed.width
  height := surveyed.height
  maxAdjacentRegions := surveyed.maxAdjacentRegions
  regionCount := surveyed.regionCount
  regionRefCount := surveyed.regionRefCount
  charted := surveyed.charted.redraw (redrawn_markAdjacentToRoot s _)
  accounts := surveyed.accounts.redraw (redrawn_markAdjacentToRoot s _)
  boxed := surveyed.boxed.mark seenQ (regions_modifyRegion s _ · _)
  references := (KeepsReferences.modifyRegion s _ _).references surveyed.references
    fun _ live => (redrawn_markAdjacentToRoot s _).outline ▸ live

theorem close {x y : ℕ} (short : x < 2 ^ 15) (seenQ : seen (x, y))
    (run : ∀ n, seen n → opened n → label n = label (x, y) ∧ n.1 ≤ x) :
    Surveyed frame m bound seen pairs (fun _ => False) edge
      (s.closeRight (label (x, y)) x) label ∧
      Carries s (s.closeRight (label (x, y)) x) := by
  have redrawn := redrawn_closeRight s (label (x, y)) x
  have keeps := KeepsReferences.closeRight s (label (x, y)) x
  have size : (s.closeRight (label (x, y)) x).width = s.width ∧
      (s.closeRight (label (x, y)) x).height = s.height := by
    rw [closeRight]
    split <;> exact ⟨rfl, rfl⟩
  have isShort : toShort x = x := toShort_eq_self (by omega) (by exact_mod_cast short)
  have regions : ∀ a, (s.closeRight (label (x, y)) x).regions a =
      if a = label (x, y) ∧ (s.regions a).right < (x : ℤ) then (s.regions a).setRight x
      else s.regions a := by
    intro a
    rw [closeRight]
    by_cases narrow : (s.regions (label (x, y))).right < (x : ℤ)
    · rw [if_pos narrow, regions_modifyRegion, isShort]
      by_cases here : a = label (x, y)
      · rw [if_pos here, if_pos ⟨here, here ▸ narrow⟩]
      · rw [if_neg here, if_neg fun both => here both.1]
    · rw [if_neg narrow, if_neg]
      rintro ⟨rfl, below⟩
      exact narrow below
  constructor
  · constructor
    · exact size.1.trans surveyed.width
    · exact size.2.trans surveyed.height
    · exact redrawn.maxAdjacentRegions.trans surveyed.maxAdjacentRegions
    · rw [redrawn.regionCount, keeps.regionRefCount]
      exact surveyed.regionCount
    · rw [keeps.regionRefCount]
      exact surveyed.regionRefCount
    · exact surveyed.charted.redraw redrawn
    · exact surveyed.accounts.redraw redrawn
    · exact surveyed.boxed.close (q := (x, y)) seenQ run regions
    · exact keeps.references surveyed.references fun _ live => redrawn.outline ▸ live
  · exact keeps.carries

/-! ### Regions are made adjacent -/

theorem tie (seenP : seen p) (seenQ : seen q) (border : frame.Border p q) :
    ∃ s', makeAdjacent s (label p) (label q) = some s' ∧
      Surveyed frame m bound seen (fun n n' => pairs n n' ∧ seen n ∧ seen n' ∨ n = p ∧ n' = q)
        opened edge s' label ∧ Carries s s' := by
  have distinct := surveyed.charted.distinct seenP seenQ border.2
  obtain ⟨s', made, ties⟩ := makeAdjacent_spec surveyed.charted.adjacency distinct
    (surveyed.charted.inside seenP) (surveyed.charted.inside seenQ)
  have keeps := KeepsReferences.of_withoutLinks ties.same
  refine ⟨s', made, ?_, keeps.carries⟩
  have bareSame : ∀ a, bare (s'.regions a) = bare (s.regions a) := by
    intro a
    have equal := congrArg (fun t : Segmenter => t.regions a) ties.same
    exact equal
  have widthSame := congrArg Segmenter.width ties.same
  have heightSame := congrArg Segmenter.height ties.same
  constructor
  · exact widthSame.trans surveyed.width
  · exact heightSame.trans surveyed.height
  · exact (maxAdjacentRegions_eq ties.same).trans surveyed.maxAdjacentRegions
  · rw [regionCount_eq ties.same, keeps.regionRefCount]
    exact surveyed.regionCount
  · rw [keeps.regionRefCount]
    exact surveyed.regionRefCount
  · exact surveyed.charted.tie ties seenP seenQ border
  · rintro n n' (⟨pair, seenN, _⟩ | ⟨rfl, rfl⟩)
    · exact ties.accounted _ (surveyed.charted.inside seenN) _ (surveyed.accounts pair)
    · exact ties.tied
  · apply surveyed.boxed.congr
    intro a
    exact sameBox_of_bare (bareSame a)
  · exact keeps.references surveyed.references fun _ live => (outline_eq ties.same) ▸ live

/-! ### A pixel joins a region -/

theorem extend (fresh : ¬ seen p) (seenQ : seen q) (touches : Touches frame.near p q)
    (only : ∀ n, seen n → Touches frame.near p n → label n = label q)
    (afterX : q.1 ≤ p.1) (afterY : q.2 ≤ p.2)
    (isOpen : (s.regions (label q)).flags.adjacentToRoot = true ∨ opened p)
    (low : (s.regions (label q)).flags.adjacentToRoot = true ∨
      (p.2 : ℤ) ≤ (s.regions (label q)).bottom)
    (edgeOf : edge p → (s.regions (label q)).flags.adjacentToRoot = true)
    {pairs' : ℕ × ℕ → ℕ × ℕ → Prop}
    (accounts : Accounts s (Function.update label p (label q)) pairs') :
    Surveyed frame m bound (fun n => seen n ∨ n = p) pairs' opened edge s
      (Function.update label p (label q)) :=
  { surveyed with
    charted := surveyed.charted.extend fresh seenQ touches only
    accounts := accounts
    boxed := surveyed.boxed.extend fresh seenQ afterX afterY isOpen low edgeOf }

theorem extendBelow {x y : ℕ} (short : y < 2 ^ 15) (fresh : ¬ seen (x, y)) (seenQ : seen q)
    (touches : Touches frame.near (x, y) q)
    (only : ∀ n, seen n → Touches frame.near (x, y) n → label n = label q)
    (afterX : q.1 ≤ x) (afterY : q.2 ≤ y) (isOpen : opened (x, y))
    (lowest : ∀ n, seen n → n.2 ≤ y) (notEdge : ¬ edge (x, y))
    {pairs' : ℕ × ℕ → ℕ × ℕ → Prop}
    (accounts : Accounts s (Function.update label (x, y) (label q)) pairs') :
    Surveyed frame m bound (fun n => seen n ∨ n = (x, y)) pairs' opened edge
      (s.setBottom (label q) y) (Function.update label (x, y) (label q)) ∧
      Carries s (s.setBottom (label q) y) := by
  have isShort : toShort y = y := toShort_eq_self (by omega) (by exact_mod_cast short)
  have redrawn := redrawn_setBottom s (label q) y
  constructor
  · constructor
    · exact surveyed.width
    · exact surveyed.height
    · exact surveyed.maxAdjacentRegions
    · exact surveyed.regionCount
    · exact surveyed.regionRefCount
    · exact (surveyed.charted.extend fresh seenQ touches only).redraw redrawn
    · exact accounts.redraw redrawn
    · apply surveyed.boxed.extendBelow (p := (x, y)) fresh seenQ afterX afterY isOpen lowest notEdge
      intro a
      rw [setBottom, regions_modifyRegion, isShort]
    · exact (KeepsReferences.modifyRegion s _ _).references surveyed.references
        fun _ live => redrawn.outline ▸ live
  · exact (KeepsReferences.modifyRegion s _ _).carries

/-! ### A pixel starts a region -/

theorem addRegion {x y : ℕ} (shortX : x < 2 ^ 15) (shortY : y < 2 ^ 15) (fresh : ¬ seen (x, y))
    (alone : ∀ n, seen n → ¬ Touches frame.near (x, y) n) (notEdge : ¬ edge (x, y))
    (pairsSeen : ∀ n n', pairs n n' → seen n ∧ seen n') :
    Surveyed frame m (bound + 1) (fun n => seen n ∨ n = (x, y)) pairs opened edge
      (s.addRegion x y (frame.colour (x, y))) (Function.update label (x, y) s.nextRegion) ∧
      Carries s (s.addRegion x y (frame.colour (x, y))) := by
  have isShortX : toShort x = x := toShort_eq_self (by omega) (by exact_mod_cast shortX)
  have isShortY : toShort y = y := toShort_eq_self (by omega) (by exact_mod_cast shortY)
  have apart : ∀ n, seen n → label n ≠ s.nextRegion := by
    intro n seenN same
    exact nextRegion_not_live s (same ▸ surveyed.live seenN)
  have labels : ∀ n, seen n → Function.update label (x, y) s.nextRegion n = label n :=
    fun n seenN => update_seen fresh seenN
  have made : (s.addRegion x y (frame.colour (x, y))).regions s.nextRegion =
      { colour := frame.colour (x, y), left := toShort x, right := toShort x, top := toShort y,
        bottom := toShort y, flags := .noRegionFlag, area := 0, level := .notTraversed, depth := 0,
        childrenVisitedCount := 0, descendentCount := 0x7FFF,
        depthString := (s.regions s.nextRegion).depthString, adjacentRegions := [] } :=
    Function.update_self ..
  constructor
  · constructor
    · exact surveyed.width
    · exact surveyed.height
    · exact surveyed.maxAdjacentRegions
    · have le := surveyed.regionCount
      change (if s.freedRegions = [] then s.regionCount + 1 else s.regionCount) ≤
        s.regionRefCount + 1
      split
      · exact Nat.succ_le_succ le
      · exact Nat.le_succ_of_le le
    · exact Nat.succ_le_succ surveyed.regionRefCount
    · exact surveyed.charted.fresh fresh alone
    · intro n n' pair
      obtain ⟨seenN, seenN'⟩ := pairsSeen n n' pair
      rw [labels n seenN, labels n' seenN']
      exact surveyed.charted.addRegion_accounted x y _ seenN seenN' (surveyed.accounts pair)
    · apply surveyed.boxed.fresh fresh _ apart _ _ _ _ _ notEdge
      · intro n seenN
        exact addRegion_regions s x y _ (apart n seenN)
      · simp only [made, isShortX]
      · simp only [made, isShortY]
      · simp only [made, isShortX]
      · simp only [made, isShortY]
      · rw [made]
        rfl
    · exact surveyed.references.addRegion surveyed.charted.labelled.freedNodup
        surveyed.charted.labelled.freedInside x y _
  · constructor
    · exact fun _ _ denotes => surveyed.references.addRegion_denotes x y _ denotes
    · exact fun _ _ refers => References.addRegion_refers_of_refers refers x y _

/-! ### A pixel joins two regions -/

theorem merge {q1 q2 : ℕ × ℕ} {target : ℕ} (fresh : ¬ seen p) (seen1 : seen q1) (seen2 : seen q2)
    (distinct : label q1 ≠ label q2)
    (touches1 : Touches frame.near p q1) (touches2 : Touches frame.near p q2)
    (only : ∀ n, seen n → Touches frame.near p n → label n = label q1 ∨ label n = label q2)
    (afterX : q1.1 ≤ p.1) (afterY : q1.2 ≤ p.2) (isOpen : opened p) (notEdge : ¬ edge p)
    (low : (s.regions (label q2)).flags.adjacentToRoot = true ∨
      (p.2 : ℤ) ≤ (s.regions (label q2)).bottom)
    (refers2 : s.Refers ref (label q2)) (refers1 : s.Refers target (label q1))
    (isPairs : pairs = frame.SeenBorder seen) (inside : ∀ n, ¬ (seen n ∧ frame.Border p n)) :
    ∃ s', mergeRegions s (label q1) (label q2) = some s' ∧
      Surveyed frame m bound (fun n => seen n ∨ n = p) (frame.SeenBorder fun n => seen n ∨ n = p)
        opened edge (s'.freeRegion (label q2) ref target)
        (mergedLabel (label q1) (label q2) p label) ∧
      (∀ ref' r, s.Denotes ref' r → (s'.freeRegion (label q2) ref target).Denotes ref'
        (rename (label q1) (label q2) r)) ∧
      (s'.freeRegion (label q2) ref target).Refers target (label q1) := by
  have sameColour : frame.colour q2 = frame.colour q1 := by
    have toP : ∀ n, Touches frame.near p n → frame.colour n = frame.colour p := by
      rintro n (isNear | isNear)
      · exact isNear.2
      · exact isNear.2.symm
    rw [toP q2 touches2, toP q1 touches1]
  have unlinked := surveyed.charted.not_linked seen2 seen1 sameColour
  obtain ⟨s1, merged, merges⟩ := mergeRegions_spec surveyed.charted.adjacency distinct
    (surveyed.charted.inside seen1) (surveyed.charted.inside seen2) unlinked
  have keeps : KeepsReferences s s1 := by
    have refs := congrArg Segmenter.regionRefs merges.same
    have count := congrArg Segmenter.regionRefCount merges.same
    exact ⟨refs, count⟩
  have outline1 : s1.outline = (s.modifyRegion (label q1) fun region =>
      mergeBox region (s.regions (label q2))).outline := outline_eq merges.same
  have count1 : s1.regionCount = s.regionCount := by
    have equal := congrArg Outline.regionCount outline1
    exact equal
  have freed1 : s1.freedRegions = s.freedRegions := by
    have equal := congrArg Outline.freedRegions outline1
    exact equal
  have live1 : ∀ r, s1.outline.Live r ↔ s.outline.Live r := by
    intro r
    change (r < s1.regionCount ∧ r ∉ s1.freedRegions) ↔ _
    rw [count1, freed1]
    rfl
  have references1 : References s1 :=
    keeps.references surveyed.references fun r live => (live1 r).mpr live
  have bareSame : ∀ a, bare (s1.regions a) = bare ((s.modifyRegion (label q1) fun region =>
      mergeBox region (s.regions (label q2))).regions a) := by
    intro a
    have equal := congrArg (fun t : Segmenter => t.regions a) merges.same
    exact equal
  have widthSame := congrArg Segmenter.width merges.same
  have heightSame := congrArg Segmenter.height merges.same
  have maxSame := congrArg Segmenter.maxAdjacentRegions merges.same
  have refers2' := keeps.refers refers2
  have refers1' := keeps.refers refers1
  refine ⟨s1, merged, ?_, ?_, References.freeRegion_refers_target refers2' refers1' distinct⟩
  · constructor
    · exact widthSame.trans surveyed.width
    · exact heightSame.trans surveyed.height
    · exact maxSame.trans surveyed.maxAdjacentRegions
    · change s1.regionCount ≤ s1.regionRefCount
      rw [count1, keeps.regionRefCount]
      exact surveyed.regionCount
    · change s1.regionRefCount ≤ bound
      rw [keeps.regionRefCount]
      exact surveyed.regionRefCount
    · exact surveyed.charted.merge merges distinct seen1 fresh ref target seen2 touches1 touches2
        only
    · apply surveyed.charted.merge_accounted merges distinct seen1 fresh ref target
      · exact isPairs ▸ surveyed.accounts
      · intro n seenN border
        exact absurd ⟨seenN, border⟩ (inside n)
    · apply surveyed.boxed.merge fresh seen1 seen2 distinct afterX afterY isOpen notEdge low
      · rw [freeRegion_regions, if_neg distinct]
        apply sameBox_of_bare
        rw [bareSame, regions_modifyRegion, if_pos rfl]
      · intro a apart1 apart2
        rw [freeRegion_regions, if_neg apart2]
        apply sameBox_of_bare
        rw [bareSame, regions_modifyRegion, if_neg apart1]
      · rw [freeRegion_regions, if_pos rfl]
        have same := sameBox_of_bare ((bareSame (label q2)).trans
          (by rw [regions_modifyRegion, if_neg distinct.symm]))
        exact ⟨same.left, same.top, same.right, same.bottom⟩
    · apply references1.freeRegion refers2' refers1' distinct
      intro r live apart
      exact ⟨live.1, fun mem => (List.mem_cons.mp mem).elim apart live.2⟩
  · intro ref' r denotes
    exact references1.freeRegion_denotes refers2' refers1' distinct (keeps.denotes denotes)

end Surveyed

end OfxPrimes.Fidtrack
