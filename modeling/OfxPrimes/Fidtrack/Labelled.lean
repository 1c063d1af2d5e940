import OfxPrimes.Fidtrack.BuildRegions
import OfxPrimes.Fidtrack.Merge
import OfxPrimes.Graph.Labels
import OfxPrimes.Graph.Raster
import Mathlib.Tactic.Tauto

/-!
# Regions and connected components

While the image is read, every region in use stands for one connected component of
the pixels read so far.  This leaf says how a labelling of the pixels by their
regions is carried along when a pixel starts a region, joins one, or joins two.
-/

namespace OfxPrimes.Fidtrack

open OfxPrimes.Graph Segmenter

namespace Frame

variable {w h : ℕ}

/-- The colour of the pixel in column `p.1` of line `p.2`. -/
def colour (frame : Frame w h) (p : ℕ × ℕ) : UInt8 :=
  frame.source.getD (p.2 * w + p.1) 0

/-- Two pixels of one colour that are side by side. -/
def near (frame : Frame w h) (p q : ℕ × ℕ) : Prop :=
  Beside p q ∧ frame.colour p = frame.colour q

/-- Two pixels of different colours that are side by side, in either order. -/
def Border (frame : Frame w h) (p q : ℕ × ℕ) : Prop :=
  (Beside p q ∨ Beside q p) ∧ frame.colour p ≠ frame.colour q

theorem Border.symm {frame : Frame w h} {p q : ℕ × ℕ} (border : frame.Border p q) :
    frame.Border q p :=
  ⟨border.1.symm, border.2.symm⟩

theorem source_getElem? (frame : Frame w h) {x y : ℕ} (insideX : x < w) (insideY : y < h) :
    frame.source[y * w + x]? = some (frame.colour (x, y)) := by
  have inside : y * w + x < frame.source.length := by
    rw [frame.length_eq]
    calc
      y * w + x < y * w + w := Nat.add_lt_add_left insideX _
      _ = (y + 1) * w := (Nat.succ_mul y w).symm
      _ ≤ h * w := Nat.mul_le_mul_right w insideY
      _ = w * h := Nat.mul_comm h w
  rw [colour, List.getD_eq_getElem?_getD, List.getElem?_eq_getElem inside]
  rfl

theorem colour_binary (frame : Frame w h) {x y : ℕ} (insideX : x < w) (insideY : y < h) :
    frame.colour (x, y) = 0 ∨ frame.colour (x, y) = 255 := by
  apply frame.binary
  exact List.mem_of_getElem? (frame.source_getElem? insideX insideY)

end Frame

/-! ## What a labelling depends on -/

/-- What a labelling needs to know of a region. -/
structure RegionOutline where
  colour : UInt8
  level : RegionLevel
  childrenVisitedCount : ℤ
  descendentCount : ℤ
  lostSymbol : Bool
  free : Bool

/-- What a labelling needs to know of the segmenter. -/
structure Outline where
  regionCount : ℕ
  freedRegions : List ℕ
  regions : ℕ → RegionOutline

/-- What a labelling needs to know of the region. -/
def Region.outline (region : Region) : RegionOutline where
  colour := region.colour
  level := region.level
  childrenVisitedCount := region.childrenVisitedCount
  descendentCount := region.descendentCount
  lostSymbol := region.flags.lostSymbol
  free := region.flags.free

/-- The segmenter with nothing but the outlines of its regions. -/
def Segmenter.outline (s : Segmenter) : Outline where
  regionCount := s.regionCount
  freedRegions := s.freedRegions
  regions := fun r => (s.regions r).outline

/-- The region is in use. -/
def Outline.Live (outline : Outline) (r : ℕ) : Prop :=
  r < outline.regionCount ∧ r ∉ outline.freedRegions

theorem outline_eq {s s' : Segmenter} (same : s'.withoutLinks = s.withoutLinks) :
    s'.outline = s.outline := by
  have equal := congrArg Segmenter.outline same
  exact equal

/-- Every region in use stands for one connected component of the seen pixels, and
all regions are as the search for markers expects them. -/
structure Labelled {w h : ℕ} (frame : Frame w h) (seen : ℕ × ℕ → Prop) (outline : Outline)
    (label : ℕ × ℕ → ℕ) : Prop where
  live : ∀ p, seen p → outline.Live (label p)
  onto : ∀ r, outline.Live r → ∃ p, seen p ∧ label p = r
  labels : Labels frame.near seen label
  colour : ∀ p, seen p → (outline.regions (label p)).colour = frame.colour p
  freedNodup : outline.freedRegions.Nodup
  freedInside : ∀ r ∈ outline.freedRegions, r < outline.regionCount
  level : ∀ r < outline.regionCount, (outline.regions r).level = .notTraversed
  childrenVisitedCount : ∀ r < outline.regionCount, (outline.regions r).childrenVisitedCount = 0
  descendentCount : ∀ r < outline.regionCount, (outline.regions r).descendentCount = 0x7FFF
  lostSymbol : ∀ r < outline.regionCount, (outline.regions r).lostSymbol = false
  free : ∀ r < outline.regionCount,
    ((outline.regions r).free = true ↔ r ∈ outline.freedRegions)

variable {w h : ℕ} {frame : Frame w h} {seen : ℕ × ℕ → Prop} {outline outline' : Outline}
  {label : ℕ × ℕ → ℕ} {p q : ℕ × ℕ} {r1 r2 : ℕ}

/-- A pixel joins the one region that the seen pixels near it are in. -/
theorem Labelled.extend (labelled : Labelled frame seen outline label) (fresh : ¬ seen p)
    (seenQ : seen q) (touches : Touches frame.near p q)
    (only : ∀ n, seen n → Touches frame.near p n → label n = label q) :
    Labelled frame (fun n => seen n ∨ n = p) outline
      (Function.update label p (label q)) := by
  have old : ∀ n, seen n → Function.update label p (label q) n = label n :=
    fun n seenN => update_seen fresh seenN
  have new : Function.update label p (label q) p = label q := Function.update_self ..
  have sameColour : frame.colour p = frame.colour q := by
    cases touches with
    | inl isNear => exact isNear.2.symm
    | inr isNear => exact isNear.2
  refine { labelled with live := ?_, onto := ?_, labels := ?_, colour := ?_ }
  · rintro n (seenN | rfl)
    · rw [old n seenN]
      exact labelled.live n seenN
    · rw [new]
      exact labelled.live q seenQ
  · intro r live
    obtain ⟨n, seenN, isR⟩ := labelled.onto r live
    exact ⟨n, Or.inl seenN, (old n seenN).trans isR⟩
  · apply labelled.labels.insert
    · intro first second seenFirst seenSecond same
      rw [old first seenFirst, old second seenSecond]
      exact same
    · intro n seenN touchesN
      rw [old n seenN, new]
      exact only n seenN touchesN
    · intro n seenN same
      rw [old n seenN, new] at same
      exact ⟨q, seenQ, touches, same.symm⟩
    · intro first second seenFirst seenSecond same
      rw [old first seenFirst, old second seenSecond] at same
      exact Or.inl same
  · rintro n (seenN | rfl)
    · rw [old n seenN]
      exact labelled.colour n seenN
    · rw [new, labelled.colour q seenQ, sameColour]

/-! ## A pixel that starts a region -/

theorem nextRegion_not_live (s : Segmenter) : ¬ s.outline.Live s.nextRegion := by
  rintro ⟨inside, notFreed⟩
  rw [nextRegion] at inside notFreed
  cases isFreed : s.freedRegions with
  | nil =>
      rw [isFreed] at inside
      exact lt_irrefl _ inside
  | cons r rest =>
      apply notFreed
      change s.freedRegions.headD s.regionCount ∈ s.freedRegions
      rw [isFreed]
      exact List.mem_cons_self

/-- The region that `new_region` takes is in use, besides those that were. -/
theorem addRegion_live_iff {s : Segmenter} (nodup : s.freedRegions.Nodup)
    (inside : ∀ r ∈ s.freedRegions, r < s.regionCount) (x y : ℕ) (colour : UInt8) (r : ℕ) :
    (s.addRegion x y colour).outline.Live r ↔ s.outline.Live r ∨ r = s.nextRegion := by
  cases isFreed : s.freedRegions with
  | nil =>
      simp only [Outline.Live, outline, addRegion, nextRegion, isFreed, if_true, List.tail_nil,
        List.headD_nil, List.not_mem_nil, not_false_eq_true, and_true]
      exact Nat.lt_succ_iff_lt_or_eq
  | cons first rest =>
      have insideFirst := inside first (isFreed ▸ List.mem_cons_self)
      rw [isFreed] at nodup
      have notRest := (List.nodup_cons.mp nodup).1
      simp only [Outline.Live, outline, addRegion, nextRegion, isFreed, List.tail_cons,
        List.headD_cons, List.mem_cons, if_neg (List.cons_ne_nil first rest)]
      by_cases same : r = first
      · subst same
        simp [insideFirst, notRest]
      · simp [same]

theorem addRegion_regionCount_iff {s : Segmenter}
    (inside : ∀ r ∈ s.freedRegions, r < s.regionCount) (x y : ℕ) (colour : UInt8) (r : ℕ) :
    r < (s.addRegion x y colour).regionCount ↔ r < s.regionCount ∨ r = s.nextRegion := by
  cases isFreed : s.freedRegions with
  | nil =>
      simp only [addRegion, nextRegion, isFreed, if_true, List.headD_nil]
      exact Nat.lt_succ_iff_lt_or_eq
  | cons first rest =>
      have insideFirst := inside first (isFreed ▸ List.mem_cons_self)
      simp only [addRegion, nextRegion, isFreed, List.headD_cons,
        if_neg (List.cons_ne_nil first rest)]
      constructor
      · exact Or.inl
      · rintro (below | rfl)
        · exact below
        · exact insideFirst

theorem mem_addRegion_freedRegions_iff {s : Segmenter} (nodup : s.freedRegions.Nodup)
    (x y : ℕ) (colour : UInt8) (r : ℕ) :
    r ∈ (s.addRegion x y colour).freedRegions ↔ r ∈ s.freedRegions ∧ r ≠ s.nextRegion := by
  cases isFreed : s.freedRegions with
  | nil => simp [addRegion, nextRegion, isFreed]
  | cons first rest =>
      rw [isFreed] at nodup
      have notRest := (List.nodup_cons.mp nodup).1
      simp only [addRegion, nextRegion, isFreed, List.tail_cons, List.headD_cons, List.mem_cons]
      constructor
      · intro mem
        refine ⟨Or.inr mem, ?_⟩
        rintro rfl
        exact notRest mem
      · rintro ⟨isFirst | mem, apart⟩
        · exact absurd isFirst apart
        · exact mem

theorem addRegion_regions (s : Segmenter) (x y : ℕ) (colour : UInt8) {r : ℕ}
    (apart : r ≠ s.nextRegion) : (s.addRegion x y colour).regions r = s.regions r :=
  Function.update_of_ne apart _ _

/-- A pixel that no seen pixel is near starts a region of its own. -/
theorem Labelled.fresh {s : Segmenter} (labelled : Labelled frame seen s.outline label)
    {x y : ℕ} (fresh : ¬ seen (x, y))
    (alone : ∀ n, seen n → ¬ Touches frame.near (x, y) n) :
    Labelled frame (fun n => seen n ∨ n = (x, y))
      (s.addRegion x y (frame.colour (x, y))).outline
      (Function.update label (x, y) s.nextRegion) := by
  have old : ∀ n, seen n → Function.update label (x, y) s.nextRegion n = label n :=
    fun n seenN => update_seen fresh seenN
  have new : Function.update label (x, y) s.nextRegion (x, y) = s.nextRegion :=
    Function.update_self ..
  have apart : ∀ n, seen n → label n ≠ s.nextRegion := by
    intro n seenN same
    exact nextRegion_not_live s (same ▸ labelled.live n seenN)
  have liveIff := addRegion_live_iff labelled.freedNodup labelled.freedInside x y
    (frame.colour (x, y))
  have countIff := addRegion_regionCount_iff labelled.freedInside x y (frame.colour (x, y))
  have kept : ∀ r, r ≠ s.nextRegion →
      (s.addRegion x y (frame.colour (x, y))).outline.regions r = s.outline.regions r := by
    intro r apartR
    exact congrArg Region.outline (addRegion_regions s x y _ apartR)
  have made : (s.addRegion x y (frame.colour (x, y))).outline.regions s.nextRegion =
      ⟨frame.colour (x, y), .notTraversed, 0, 0x7FFF, false, false⟩ := by
    change ((s.addRegion x y (frame.colour (x, y))).regions s.nextRegion).outline = _
    simp only [addRegion, Function.update_self]
    rfl
  have every : ∀ (claim : RegionOutline → Prop),
      (∀ r < s.regionCount, claim (s.outline.regions r)) →
      claim ⟨frame.colour (x, y), .notTraversed, 0, 0x7FFF, false, false⟩ →
      ∀ r < (s.addRegion x y (frame.colour (x, y))).regionCount,
        claim ((s.addRegion x y (frame.colour (x, y))).outline.regions r) := by
    intro claim before atNew r inside
    by_cases isNew : r = s.nextRegion
    · rw [isNew, made]
      exact atNew
    · rw [kept r isNew]
      exact before r (((countIff r).mp inside).resolve_right isNew)
  constructor
  · rintro n (seenN | rfl)
    · rw [old n seenN, liveIff]
      exact Or.inl (labelled.live n seenN)
    · rw [new, liveIff]
      exact Or.inr rfl
  · intro r live
    rcases (liveIff r).mp live with before | rfl
    · obtain ⟨n, seenN, isR⟩ := labelled.onto r before
      exact ⟨n, Or.inl seenN, (old n seenN).trans isR⟩
    · exact ⟨(x, y), Or.inr rfl, new⟩
  · apply labelled.labels.insert
    · intro first second seenFirst seenSecond same
      rw [old first seenFirst, old second seenSecond]
      exact same
    · intro n seenN touches
      exact absurd touches (alone n seenN)
    · intro n seenN same
      rw [old n seenN, new] at same
      exact absurd same (apart n seenN)
    · intro first second seenFirst seenSecond same
      rw [old first seenFirst, old second seenSecond] at same
      exact Or.inl same
  · rintro n (seenN | rfl)
    · rw [old n seenN, kept _ (apart n seenN)]
      exact labelled.colour n seenN
    · rw [new, made]
  · exact labelled.freedNodup.tail
  · intro r mem
    have before : r ∈ s.freedRegions := List.mem_of_mem_tail mem
    exact (countIff r).mpr (Or.inl (labelled.freedInside r before))
  · exact every (fun o => o.level = .notTraversed) labelled.level rfl
  · exact every (fun o => o.childrenVisitedCount = 0) labelled.childrenVisitedCount rfl
  · exact every (fun o => o.descendentCount = 0x7FFF) labelled.descendentCount rfl
  · exact every (fun o => o.lostSymbol = false) labelled.lostSymbol rfl
  · intro r inside
    by_cases isNew : r = s.nextRegion
    · rw [isNew, made]
      have live := (liveIff s.nextRegion).mpr (Or.inr rfl)
      exact ⟨fun impossible => absurd impossible Bool.false_ne_true,
        fun freed => absurd freed live.2⟩
    · have insideR := ((countIff r).mp inside).resolve_right isNew
      rw [kept r isNew]
      apply (labelled.free r insideR).trans
      have memIff := mem_addRegion_freedRegions_iff labelled.freedNodup x y
        (frame.colour (x, y)) r
      exact ⟨fun freed => memIff.mpr ⟨freed, isNew⟩, fun freed => (memIff.mp freed).1⟩

/-! ## A pixel that joins two regions -/

/-- The outline once `r2` is merged into another region and freed. -/
def Outline.freeing (outline : Outline) (r2 : ℕ) : Outline where
  regionCount := outline.regionCount
  freedRegions := r2 :: outline.freedRegions
  regions := fun r =>
    if r = r2 then { outline.regions r with lostSymbol := false, free := true }
    else outline.regions r

theorem freeing_live_iff {r : ℕ} :
    (outline.freeing r2).Live r ↔ outline.Live r ∧ r ≠ r2 := by
  simp only [Outline.Live, Outline.freeing, List.mem_cons, not_or]
  tauto

/-- The label once `r2` is merged into `r1`, with `p` in the region as well. -/
def mergedLabel (r1 r2 : ℕ) (p : ℕ × ℕ) (label : ℕ × ℕ → ℕ) : ℕ × ℕ → ℕ :=
  Function.update (fun n => rename r1 r2 (label n)) p r1

/-- A pixel joins the two regions that the seen pixels near it are in. -/
theorem Labelled.merge (labelled : Labelled frame seen outline label) (fresh : ¬ seen p)
    {q1 q2 : ℕ × ℕ} (seen1 : seen q1) (seen2 : seen q2)
    (touches1 : Touches frame.near p q1) (touches2 : Touches frame.near p q2)
    (label1 : label q1 = r1) (label2 : label q2 = r2) (distinct : r1 ≠ r2)
    (only : ∀ n, seen n → Touches frame.near p n → label n = r1 ∨ label n = r2) :
    Labelled frame (fun n => seen n ∨ n = p) (outline.freeing r2)
      (mergedLabel r1 r2 p label) := by
  have old : ∀ n, seen n → mergedLabel r1 r2 p label n = rename r1 r2 (label n) :=
    fun n seenN => update_seen fresh seenN
  have new : mergedLabel r1 r2 p label p = r1 := Function.update_self ..
  have sameColour : ∀ n, Touches frame.near p n → frame.colour n = frame.colour p := by
    rintro n (isNear | isNear)
    · exact isNear.2
    · exact isNear.2.symm
  have live1 : outline.Live r1 := label1 ▸ labelled.live q1 seen1
  have live2 : outline.Live r2 := label2 ▸ labelled.live q2 seen2
  have renamed : ∀ {a : ℕ}, rename r1 r2 a = r1 → a = r1 ∨ a = r2 := by
    intro a same
    by_cases is2 : a = r2
    · exact Or.inr is2
    · rw [rename_of_ne is2] at same
      exact Or.inl same
  have attached : ∀ n, (label n = r1 ∨ label n = r2) →
      Attached frame.near seen label p (label n) := by
    rintro n (same | same)
    · exact ⟨q1, seen1, touches1, label1.trans same.symm⟩
    · exact ⟨q2, seen2, touches2, label2.trans same.symm⟩
  have kept : ∀ r, r ≠ r2 → (outline.freeing r2).regions r = outline.regions r :=
    fun r apart => if_neg apart
  have made : (outline.freeing r2).regions r2 =
      { outline.regions r2 with lostSymbol := false, free := true } := if_pos rfl
  constructor
  · rintro n (seenN | rfl)
    · rw [old n seenN, freeing_live_iff]
      by_cases is2 : label n = r2
      · rw [is2, rename_self]
        exact ⟨live1, distinct⟩
      · rw [rename_of_ne is2]
        exact ⟨labelled.live n seenN, is2⟩
    · rw [new, freeing_live_iff]
      exact ⟨live1, distinct⟩
  · intro r live
    obtain ⟨before, apart⟩ := freeing_live_iff.mp live
    obtain ⟨n, seenN, isR⟩ := labelled.onto r before
    exact ⟨n, Or.inl seenN, by rw [old n seenN, isR, rename_of_ne apart]⟩
  · apply labelled.labels.insert
    · intro first second seenFirst seenSecond same
      rw [old first seenFirst, old second seenSecond, same]
    · intro n seenN touches
      rw [old n seenN, new]
      rcases only n seenN touches with same | same
      · rw [same, rename_of_ne distinct]
      · rw [same, rename_self]
    · intro n seenN same
      rw [old n seenN, new] at same
      exact attached n (renamed same)
    · intro first second seenFirst seenSecond same
      rw [old first seenFirst, new]
      rw [old first seenFirst, old second seenSecond] at same
      by_cases is2 : label first = r2
      · right
        rw [is2, rename_self]
      · by_cases other2 : label second = r2
        · right
          rw [same, other2, rename_self]
        · rw [rename_of_ne is2, rename_of_ne other2] at same
          exact Or.inl same
  · rintro n (seenN | rfl)
    · rw [old n seenN]
      by_cases is2 : label n = r2
      · have joined : frame.colour n = frame.colour q1 := by
          calc
            frame.colour n = (outline.regions (label n)).colour := (labelled.colour n seenN).symm
            _ = (outline.regions (label q2)).colour := by rw [is2, label2]
            _ = frame.colour q2 := labelled.colour q2 seen2
            _ = frame.colour p := sameColour q2 touches2
            _ = frame.colour q1 := (sameColour q1 touches1).symm
        rw [is2, rename_self, kept r1 distinct, joined, ← label1]
        exact labelled.colour q1 seen1
      · rw [rename_of_ne is2, kept _ is2]
        exact labelled.colour n seenN
    · rw [new, kept r1 distinct, ← label1, labelled.colour q1 seen1]
      exact sameColour q1 touches1
  · exact List.nodup_cons.mpr ⟨live2.2, labelled.freedNodup⟩
  · intro r mem
    rcases List.mem_cons.mp mem with rfl | before
    · exact live2.1
    · exact labelled.freedInside r before
  · intro r inside
    by_cases is2 : r = r2
    · rw [is2, made]
      exact labelled.level r2 live2.1
    · rw [kept r is2]
      exact labelled.level r inside
  · intro r inside
    by_cases is2 : r = r2
    · rw [is2, made]
      exact labelled.childrenVisitedCount r2 live2.1
    · rw [kept r is2]
      exact labelled.childrenVisitedCount r inside
  · intro r inside
    by_cases is2 : r = r2
    · rw [is2, made]
      exact labelled.descendentCount r2 live2.1
    · rw [kept r is2]
      exact labelled.descendentCount r inside
  · intro r inside
    by_cases is2 : r = r2
    · rw [is2, made]
    · rw [kept r is2]
      exact labelled.lostSymbol r inside
  · intro r inside
    by_cases is2 : r = r2
    · rw [is2, made]
      exact ⟨fun _ => List.mem_cons_self, fun _ => rfl⟩
    · rw [kept r is2]
      apply (labelled.free r inside).trans
      exact ⟨List.mem_cons_of_mem r2, fun mem => (List.mem_cons.mp mem).resolve_left is2⟩

end OfxPrimes.Fidtrack
