import OfxPrimes.Fidtrack.Labelled

/-!
# The map of the regions

Two regions are linked only where their pixels are side by side, and wherever
pixels of different colours are side by side their regions are linked, or one is
saturated and the other was cut from it.
-/

namespace OfxPrimes.Fidtrack

open OfxPrimes.Graph Segmenter

variable {w h : ℕ} {frame : Frame w h} {seen : ℕ × ℕ → Prop} {s s' : Segmenter}
  {label : ℕ × ℕ → ℕ} {p q : ℕ × ℕ} {a b r r1 r2 : ℕ}

/-- The regions in use are the connected components of the seen pixels, and linked
regions have pixels side by side. -/
structure Charted (frame : Frame w h) (seen : ℕ × ℕ → Prop) (s : Segmenter)
    (label : ℕ × ℕ → ℕ) : Prop where
  labelled : Labelled frame seen s.outline label
  adjacency : s.Adjacency
  linked : ∀ a < s.regionCount, ∀ b, s.Linked a b →
    ∃ p q, seen p ∧ seen q ∧ frame.Border p q ∧ label p = a ∧ label q = b

/-- The regions of every pair of pixels are accounted for together. -/
def Accounts (s : Segmenter) (label : ℕ × ℕ → ℕ) (pairs : ℕ × ℕ → ℕ × ℕ → Prop) : Prop :=
  ∀ ⦃p q⦄, pairs p q → s.Accounted (label p) (label q)

/-- Two seen pixels of different colours that are side by side. -/
def Frame.SeenBorder (frame : Frame w h) (seen : ℕ × ℕ → Prop) (p q : ℕ × ℕ) : Prop :=
  seen p ∧ seen q ∧ frame.Border p q

theorem Charted.inside (charted : Charted frame seen s label) (seenP : seen p) :
    label p < s.regionCount :=
  (charted.labelled.live p seenP).1

/-- Regions whose pixels differ in colour differ. -/
theorem Charted.distinct (charted : Charted frame seen s label) (seenP : seen p) (seenQ : seen q)
    (different : frame.colour p ≠ frame.colour q) : label p ≠ label q := by
  intro same
  apply different
  rw [← charted.labelled.colour p seenP, ← charted.labelled.colour q seenQ, same]

/-- Regions of one colour are not linked. -/
theorem Charted.not_linked (charted : Charted frame seen s label) (seenP : seen p)
    (seenQ : seen q) (same : frame.colour p = frame.colour q) :
    ¬ s.Linked (label p) (label q) := by
  intro linked
  obtain ⟨p', q', seenP', seenQ', border, labelP, labelQ⟩ :=
    charted.linked _ (charted.inside seenP) _ linked
  apply border.2
  rw [← charted.labelled.colour p' seenP', ← charted.labelled.colour q' seenQ', labelP, labelQ,
    charted.labelled.colour p seenP, charted.labelled.colour q seenQ, same]

/-- A link of a region that is in use leads to one that is in use. -/
theorem Charted.live_of_linked (charted : Charted frame seen s label) (inside : a < s.regionCount)
    (linked : s.Linked a b) : s.outline.Live a ∧ s.outline.Live b := by
  obtain ⟨p, q, seenP, seenQ, _, rfl, rfl⟩ := charted.linked a inside b linked
  exact ⟨charted.labelled.live p seenP, charted.labelled.live q seenQ⟩

/-! ## What changes boxes only -/

/-- The lists, their flags and all that a labelling needs are as before. -/
structure Redrawn (s s' : Segmenter) : Prop where
  outline : s'.outline = s.outline
  maxAdjacentRegions : s'.maxAdjacentRegions = s.maxAdjacentRegions
  adjacent : ∀ r, (s'.regions r).adjacentRegions = (s.regions r).adjacentRegions
  saturated : ∀ r, (s'.regions r).flags.saturated = (s.regions r).flags.saturated
  fragmented : ∀ r, (s'.regions r).flags.fragmented = (s.regions r).flags.fragmented

theorem Redrawn.refl (s : Segmenter) : Redrawn s s :=
  ⟨rfl, rfl, fun _ => rfl, fun _ => rfl, fun _ => rfl⟩

theorem redrawn_modifyRegion (change : Region → Region)
    (outline : ∀ region, (change region).outline = region.outline)
    (adjacent : ∀ region, (change region).adjacentRegions = region.adjacentRegions)
    (saturated : ∀ region, (change region).flags.saturated = region.flags.saturated)
    (fragmented : ∀ region, (change region).flags.fragmented = region.flags.fragmented)
    (s : Segmenter) (r : ℕ) : Redrawn s (s.modifyRegion r change) := by
  have regions : (s.modifyRegion r change).outline.regions = s.outline.regions := by
    funext a
    change ((s.modifyRegion r change).regions a).outline = (s.regions a).outline
    rw [regions_modifyRegion]
    split
    · exact outline _
    · rfl
  constructor
  · exact congrArg (Outline.mk s.regionCount s.freedRegions) regions
  · rfl
  · intro a
    rw [regions_modifyRegion]
    split
    · exact adjacent _
    · rfl
  · intro a
    rw [regions_modifyRegion]
    split
    · exact saturated _
    · rfl
  · intro a
    rw [regions_modifyRegion]
    split
    · exact fragmented _
    · rfl

theorem redrawn_markAdjacentToRoot (s : Segmenter) (r : ℕ) :
    Redrawn s (s.markAdjacentToRoot r) := by
  rw [markAdjacentToRoot]
  apply redrawn_modifyRegion Region.markAdjacentToRoot <;> intro region <;> rfl

theorem redrawn_bottom (s : Segmenter) (r : ℕ) (bottom : ℤ) :
    Redrawn s (s.modifyRegion r (Region.setBottom bottom)) := by
  apply redrawn_modifyRegion <;> intro region <;> rfl

theorem redrawn_right (s : Segmenter) (r : ℕ) (right : ℤ) :
    Redrawn s (s.modifyRegion r (Region.setRight right)) := by
  apply redrawn_modifyRegion <;> intro region <;> rfl

theorem redrawn_setBottom (s : Segmenter) (r y : ℕ) : Redrawn s (s.setBottom r y) :=
  redrawn_bottom s r _

theorem redrawn_closeRight (s : Segmenter) (r x : ℕ) : Redrawn s (s.closeRight r x) := by
  rw [closeRight]
  split
  · exact redrawn_right s r _
  · exact .refl s

theorem Redrawn.regionCount (redrawn : Redrawn s s') : s'.regionCount = s.regionCount := by
  have equal := congrArg Outline.regionCount redrawn.outline
  exact equal

theorem Redrawn.linked_iff (redrawn : Redrawn s s') : s'.Linked a b ↔ s.Linked a b := by
  rw [Linked, redrawn.adjacent]
  rfl

theorem Redrawn.accounted (redrawn : Redrawn s s') (accounted : s.Accounted a b) :
    s'.Accounted a b := by
  rw [Accounted, redrawn.linked_iff, redrawn.saturated, redrawn.saturated, redrawn.fragmented,
    redrawn.fragmented]
  exact accounted

theorem Redrawn.adjacency (redrawn : Redrawn s s') (adjacency : s.Adjacency) : s'.Adjacency where
  closed a inside b linked := by
    rw [redrawn.regionCount] at inside ⊢
    exact adjacency.closed a inside b (redrawn.linked_iff.mp linked)
  symmetric a insideA b insideB := by
    rw [redrawn.regionCount] at insideA insideB
    rw [links, links, redrawn.adjacent, redrawn.adjacent]
    exact adjacency.symmetric a insideA b insideB
  apart a inside linked := by
    rw [redrawn.regionCount] at inside
    exact adjacency.apart a inside (redrawn.linked_iff.mp linked)
  bounded a inside := by
    rw [redrawn.regionCount] at inside
    rw [redrawn.adjacent, redrawn.maxAdjacentRegions]
    exact adjacency.bounded a inside
  saturated a inside full := by
    rw [redrawn.regionCount] at inside
    rw [redrawn.saturated] at full
    rw [redrawn.adjacent]
    exact adjacency.saturated a inside full

theorem Charted.redraw (charted : Charted frame seen s label) (redrawn : Redrawn s s') :
    Charted frame seen s' label where
  labelled := redrawn.outline ▸ charted.labelled
  adjacency := redrawn.adjacency charted.adjacency
  linked a inside b linked := by
    rw [redrawn.regionCount] at inside
    exact charted.linked a inside b (redrawn.linked_iff.mp linked)

theorem Accounts.redraw {pairs : ℕ × ℕ → ℕ × ℕ → Prop} (accounts : Accounts s label pairs)
    (redrawn : Redrawn s s') : Accounts s' label pairs :=
  fun _ _ pair => redrawn.accounted (accounts pair)

/-! ## The pixel joins one region -/

theorem Charted.extend (charted : Charted frame seen s label) (fresh : ¬ seen p)
    (seenQ : seen q) (touches : Touches frame.near p q)
    (only : ∀ n, seen n → Touches frame.near p n → label n = label q) :
    Charted frame (fun n => seen n ∨ n = p) s (Function.update label p (label q)) where
  labelled := charted.labelled.extend fresh seenQ touches only
  adjacency := charted.adjacency
  linked a inside b linked := by
    obtain ⟨n, m, seenN, seenM, border, rfl, rfl⟩ := charted.linked a inside b linked
    refine ⟨n, m, Or.inl seenN, Or.inl seenM, border, ?_, ?_⟩
    · exact update_seen fresh seenN
    · exact update_seen fresh seenM

/-- Labels that old pixels keep leave the old pairs accounted for, and the new pairs
are those of the new pixel. -/
theorem Accounts.insert {label' : ℕ × ℕ → ℕ} (adjacency : s'.Adjacency)
    (inside : label' p < s'.regionCount)
    (old : ∀ n m, frame.SeenBorder seen n m → s'.Accounted (label' n) (label' m))
    (new : ∀ n, seen n → frame.Border p n → s'.Accounted (label' p) (label' n)) :
    Accounts s' label' (frame.SeenBorder fun n => seen n ∨ n = p) := by
  rintro n m ⟨seenN | rfl, seenM | rfl, border⟩
  · exact old n m ⟨seenN, seenM, border⟩
  · exact (new n seenN border.symm).symm adjacency inside
  · exact new m seenM border
  · exact absurd rfl border.2

theorem Accounts.extend (accounts : Accounts s label (frame.SeenBorder seen))
    (charted : Charted frame seen s label) (fresh : ¬ seen p) (seenQ : seen q)
    (met : ∀ n, seen n → frame.Border p n → s.Accounted (label q) (label n)) :
    Accounts s (Function.update label p (label q))
      (frame.SeenBorder fun n => seen n ∨ n = p) := by
  have old : ∀ n, seen n → Function.update label p (label q) n = label n :=
    fun n seenN => update_seen fresh seenN
  have new : Function.update label p (label q) p = label q := Function.update_self ..
  apply Accounts.insert charted.adjacency
  · rw [new]
    exact charted.inside seenQ
  · intro n m pair
    rw [old n pair.1, old m pair.2.1]
    exact accounts pair
  · intro n seenN border
    rw [old n seenN, new]
    exact met n seenN border

/-! ## The pixel starts a region -/

theorem addRegion_adjacent (s : Segmenter) (x y : ℕ) (colour : UInt8) (r : ℕ) :
    ((s.addRegion x y colour).regions r).adjacentRegions =
      if r = s.nextRegion then [] else (s.regions r).adjacentRegions := by
  by_cases isNew : r = s.nextRegion
  · rw [if_pos isNew, isNew]
    simp only [addRegion, Function.update_self]
  · rw [if_neg isNew, addRegion_regions s x y colour isNew]

/-- A region that is not in use is in no list. -/
theorem Charted.addRegion_adjacency (charted : Charted frame seen s label) (x y : ℕ)
    (colour : UInt8) : (s.addRegion x y colour).Adjacency := by
  have countIff := addRegion_regionCount_iff charted.labelled.freedInside x y colour
  have unlinked : ∀ c < s.regionCount, ¬ s.Linked c s.nextRegion := by
    intro c inside linked
    exact nextRegion_not_live s (charted.live_of_linked inside linked).2
  have insideOf : ∀ c, c < (s.addRegion x y colour).regionCount → c ≠ s.nextRegion →
      c < s.regionCount :=
    fun c inside apart => ((countIff c).mp inside).resolve_right apart
  have linkedOf : ∀ c d, (s.addRegion x y colour).Linked c d →
      c ≠ s.nextRegion ∧ s.Linked c d := by
    intro c d linked
    rw [Linked, addRegion_adjacent] at linked
    by_cases isNew : c = s.nextRegion
    · rw [if_pos isNew] at linked
      exact absurd linked List.not_mem_nil
    · rw [if_neg isNew] at linked
      exact ⟨isNew, linked⟩
  constructor
  · intro c inside d linked
    obtain ⟨apart, old⟩ := linkedOf c d linked
    exact (countIff d).mpr (Or.inl (charted.adjacency.closed c (insideOf c inside apart) d old))
  · intro c insideC d insideD
    rw [links, links, addRegion_adjacent, addRegion_adjacent]
    by_cases newC : c = s.nextRegion
    · by_cases newD : d = s.nextRegion
      · rw [if_pos newC, if_pos newD]
        rfl
      · rw [if_pos newC, if_neg newD, newC]
        have none := unlinked d (insideOf d insideD newD)
        rw [not_linked_iff] at none
        exact none.symm
    · by_cases newD : d = s.nextRegion
      · rw [if_neg newC, if_pos newD, newD]
        have none := unlinked c (insideOf c insideC newC)
        rw [not_linked_iff] at none
        exact none
      · rw [if_neg newC, if_neg newD]
        exact charted.adjacency.symmetric c (insideOf c insideC newC) d (insideOf d insideD newD)
  · intro c inside linked
    obtain ⟨apart, old⟩ := linkedOf c c linked
    exact charted.adjacency.apart c (insideOf c inside apart) old
  · intro c inside
    rw [addRegion_adjacent]
    by_cases isNew : c = s.nextRegion
    · rw [if_pos isNew]
      exact Nat.zero_le _
    · rw [if_neg isNew]
      exact charted.adjacency.bounded c (insideOf c inside isNew)
  · intro c inside full
    rw [addRegion_adjacent]
    by_cases isNew : c = s.nextRegion
    · rw [if_pos isNew]
    · rw [if_neg isNew]
      rw [addRegion_regions s x y colour isNew] at full
      exact charted.adjacency.saturated c (insideOf c inside isNew) full

theorem Charted.fresh (charted : Charted frame seen s label) {x y : ℕ} (fresh : ¬ seen (x, y))
    (alone : ∀ n, seen n → ¬ Touches frame.near (x, y) n) :
    Charted frame (fun n => seen n ∨ n = (x, y)) (s.addRegion x y (frame.colour (x, y)))
      (Function.update label (x, y) s.nextRegion) where
  labelled := charted.labelled.fresh fresh alone
  adjacency := charted.addRegion_adjacency x y _
  linked a inside b linked := by
    rw [Linked, addRegion_adjacent] at linked
    by_cases isNew : a = s.nextRegion
    · rw [if_pos isNew] at linked
      exact absurd linked List.not_mem_nil
    · rw [if_neg isNew] at linked
      have insideA := ((addRegion_regionCount_iff charted.labelled.freedInside x y _ a).mp
        inside).resolve_right isNew
      obtain ⟨n, m, seenN, seenM, border, rfl, rfl⟩ := charted.linked a insideA b linked
      refine ⟨n, m, Or.inl seenN, Or.inl seenM, border, ?_, ?_⟩
      · exact update_seen fresh seenN
      · exact update_seen fresh seenM

/-- What was accounted for still is, with the new region not involved. -/
theorem Charted.addRegion_accounted (charted : Charted frame seen s label) (x y : ℕ)
    (colour : UInt8) (seenP : seen p) (seenQ : seen q)
    (accounted : s.Accounted (label p) (label q)) :
    (s.addRegion x y colour).Accounted (label p) (label q) := by
  have apart : ∀ n, seen n → label n ≠ s.nextRegion := by
    intro n seenN same
    exact nextRegion_not_live s (same ▸ charted.labelled.live n seenN)
  rw [Accounted, Linked, addRegion_regions s x y colour (apart p seenP),
    addRegion_regions s x y colour (apart q seenQ)]
  exact accounted

/-! ## Adjacent regions and merged regions -/

theorem Charted.tie (charted : Charted frame seen s label) (ties : Ties s s' (label p) (label q))
    (seenP : seen p) (seenQ : seen q) (border : frame.Border p q) :
    Charted frame seen s' label where
  labelled := outline_eq ties.same ▸ charted.labelled
  adjacency := ties.adjacency
  linked a inside b linked := by
    rw [regionCount_eq ties.same] at inside
    rcases ties.linked a inside b linked with old | ⟨rfl, rfl⟩ | ⟨rfl, rfl⟩
    · exact charted.linked a inside b old
    · exact ⟨p, q, seenP, seenQ, border, rfl, rfl⟩
    · exact ⟨q, p, seenQ, seenP, border.symm, rfl, rfl⟩

theorem freeRegion_regions (s : Segmenter) (r ref target a : ℕ) :
    (s.freeRegion r ref target).regions a =
      if a = r then (s.regions a).setFree else s.regions a :=
  regions_modifyRegion s r a Region.setFree

/-- The segmenter once `r2` is merged into `r1` and freed. -/
theorem Merges.outline_freeRegion (merges : Merges s s' r1 r2) (distinct : r1 ≠ r2)
    (ref target : ℕ)
    (free1 : (s.regions r1).flags.free = false) (free2 : (s.regions r2).flags.free = false)
    (lost1 : (s.regions r1).flags.lostSymbol = false)
    (lost2 : (s.regions r2).flags.lostSymbol = false) :
    (s'.freeRegion r2 ref target).outline = s.outline.freeing r2 := by
  have before : s'.outline =
      (s.modifyRegion r1 fun region => mergeBox region (s.regions r2)).outline :=
    outline_eq merges.same
  have count : s'.regionCount = s.regionCount := by
    have equal := congrArg Outline.regionCount before
    exact equal
  have freed : s'.freedRegions = s.freedRegions := by
    have equal := congrArg Outline.freedRegions before
    exact equal
  have kept : ∀ r, (s'.regions r).outline = (s.regions r).outline := by
    intro r
    have equal : (s'.regions r).outline = ((s.modifyRegion r1 fun region =>
        mergeBox region (s.regions r2)).regions r).outline :=
      congrFun (congrArg Outline.regions before) r
    rw [equal, regions_modifyRegion]
    by_cases here : r = r1
    · subst here
      rw [if_pos rfl]
      simp only [Region.outline, mergeBox, RegionFlags.union, free1, free2, lost1, lost2,
        Bool.or_self]
    · rw [if_neg here]
  have regions : (s'.freeRegion r2 ref target).outline.regions =
      (s.outline.freeing r2).regions := by
    funext r
    change ((s'.freeRegion r2 ref target).regions r).outline =
      if r = r2 then { (s.regions r).outline with lostSymbol := false, free := true }
      else (s.regions r).outline
    rw [freeRegion_regions]
    by_cases is2 : r = r2
    · rw [if_pos is2, if_pos is2, ← kept r]
      rfl
    · rw [if_neg is2, if_neg is2, kept r]
  calc
    (s'.freeRegion r2 ref target).outline
        = Outline.mk s'.regionCount (r2 :: s'.freedRegions)
            (s'.freeRegion r2 ref target).outline.regions := rfl
    _ = Outline.mk s.regionCount (r2 :: s.freedRegions) (s.outline.freeing r2).regions := by
          rw [count, freed, regions]
    _ = s.outline.freeing r2 := rfl

/-- Freeing a merged region leaves the links and the flags of the others. -/
theorem freeRegion_adjacency (adjacency : s.Adjacency) (r ref target : ℕ) :
    (s.freeRegion r ref target).Adjacency := by
  have lists : ∀ a, ((s.freeRegion r ref target).regions a).adjacentRegions =
      (s.regions a).adjacentRegions := by
    intro a
    rw [freeRegion_regions]
    split <;> rfl
  have linkedIff : ∀ a b, (s.freeRegion r ref target).Linked a b ↔ s.Linked a b := by
    intro a b
    rw [Linked, lists]
    rfl
  constructor
  · intro a inside b linked
    exact adjacency.closed a inside b ((linkedIff a b).mp linked)
  · intro a insideA b insideB
    rw [links, links, lists, lists]
    exact adjacency.symmetric a insideA b insideB
  · intro a inside linked
    exact adjacency.apart a inside ((linkedIff a a).mp linked)
  · intro a inside
    rw [lists]
    exact adjacency.bounded a inside
  · intro a inside full
    rw [lists]
    apply adjacency.saturated a inside
    rw [freeRegion_regions] at full
    by_cases here : a = r
    · rw [if_pos here] at full
      exact absurd full Bool.false_ne_true
    · rw [if_neg here] at full
      exact full

theorem freeRegion_accounted {ref target : ℕ} (apartA : a ≠ r) (apartB : b ≠ r)
    (accounted : s.Accounted a b) : (s.freeRegion r ref target).Accounted a b := by
  rw [Accounted, Linked, freeRegion_regions, if_neg apartA, freeRegion_regions, if_neg apartB]
  exact accounted

section Merged

variable {q1 q2 : ℕ × ℕ} (charted : Charted frame seen s label)
  (merges : Merges s s' (label q1) (label q2)) (distinct : label q1 ≠ label q2)
  (seen1 : seen q1) (fresh : ¬ seen p) (ref target : ℕ)
include charted merges distinct seen1 fresh

theorem Charted.merge (seen2 : seen q2) (touches1 : Touches frame.near p q1)
    (touches2 : Touches frame.near p q2)
    (only : ∀ n, seen n → Touches frame.near p n → label n = label q1 ∨ label n = label q2) :
    Charted frame (fun n => seen n ∨ n = p) (s'.freeRegion (label q2) ref target)
      (mergedLabel (label q1) (label q2) p label) := by
  have inUse : ∀ n, seen n → (s.regions (label n)).flags.free = false := by
    intro n seenN
    rw [← Bool.not_eq_true]
    intro isFree
    have live := charted.labelled.live n seenN
    exact live.2 ((charted.labelled.free _ live.1).mp isFree)
  have notLost : ∀ n, seen n → (s.regions (label n)).flags.lostSymbol = false :=
    fun n seenN => charted.labelled.lostSymbol _ (charted.inside seenN)
  have outline := merges.outline_freeRegion distinct ref target (inUse q1 seen1) (inUse q2 seen2)
    (notLost q1 seen1) (notLost q2 seen2)
  have labelled := charted.labelled.merge fresh seen1 seen2 touches1 touches2 rfl rfl distinct only
  constructor
  · rw [outline]
    exact labelled
  · exact freeRegion_adjacency merges.adjacency _ ref target
  · intro a inside b linked
    have count : (s'.freeRegion (label q2) ref target).regionCount = s.regionCount := by
      have equal := congrArg Outline.regionCount outline
      exact equal
    rw [count] at inside
    rw [Linked, freeRegion_regions] at linked
    have linked' : s'.Linked a b := by
      by_cases here : a = label q2
      · rw [if_pos here] at linked
        exact linked
      · rw [if_neg here] at linked
        exact linked
    obtain ⟨c, d, insideC, old, rfl, rfl⟩ := merges.linked a inside b linked'
    obtain ⟨n, m, seenN, seenM, border, rfl, rfl⟩ := charted.linked c insideC d old
    exact ⟨n, m, Or.inl seenN, Or.inl seenM, border, update_seen fresh seenN,
      update_seen fresh seenM⟩

theorem Charted.merge_accounted (accounts : Accounts s label (frame.SeenBorder seen))
    (met : ∀ n, seen n → frame.Border p n → s.Accounted (label q1) (label n)) :
    Accounts (s'.freeRegion (label q2) ref target) (mergedLabel (label q1) (label q2) p label)
      (frame.SeenBorder fun n => seen n ∨ n = p) := by
  have adjacency := freeRegion_adjacency merges.adjacency (label q2) ref target
  have count : (s'.freeRegion (label q2) ref target).regionCount = s.regionCount := by
    have equal := congrArg Outline.regionCount (outline_eq merges.same)
    exact equal
  have apart : ∀ a, rename (label q1) (label q2) a ≠ label q2 := by
    intro a
    by_cases is2 : a = label q2
    · rw [is2, rename_self]
      exact distinct
    · rw [rename_of_ne is2]
      exact is2
  have carried : ∀ n m, seen n → seen m → s.Accounted (label n) (label m) →
      (s'.freeRegion (label q2) ref target).Accounted
        (rename (label q1) (label q2) (label n)) (rename (label q1) (label q2) (label m)) := by
    intro n m seenN seenM accounted
    apply freeRegion_accounted (apart _) (apart _)
    exact merges.accounted _ (charted.inside seenN) _ (charted.inside seenM) accounted
  have old : ∀ n, seen n → mergedLabel (label q1) (label q2) p label n =
      rename (label q1) (label q2) (label n) := fun n seenN => update_seen fresh seenN
  have new : mergedLabel (label q1) (label q2) p label p = label q1 := Function.update_self ..
  apply Accounts.insert adjacency
  · rw [new, count]
    exact charted.inside seen1
  · intro n m pair
    rw [old n pair.1, old m pair.2.1]
    exact carried n m pair.1 pair.2.1 (accounts pair)
  · intro n seenN border
    have carriedN := carried q1 n seen1 seenN (met n seenN border)
    rw [rename_of_ne distinct] at carriedN
    rw [old n seenN, new]
    exact carriedN

end Merged

end OfxPrimes.Fidtrack
