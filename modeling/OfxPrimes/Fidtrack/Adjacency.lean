import OfxPrimes.Fidtrack.Region
import Mathlib.Data.List.Perm.Subperm

/-!
# Which regions are adjacent

The lists of the regions are kept mutual and within their bound.  A region whose
list is full loses it and is saturated, and those it was adjacent to are then
fragmented, so that no adjacency is lost without a trace.
-/

namespace OfxPrimes.Fidtrack

open OfxPrimes.Graph

namespace Segmenter

/-- How often `b` is in the list of `a`. -/
def links (s : Segmenter) (a b : ℕ) : ℕ :=
  (s.regions a).adjacentRegions.count b

/-- `b` is in the list of `a`. -/
def Linked (s : Segmenter) (a b : ℕ) : Prop :=
  b ∈ (s.regions a).adjacentRegions

/-- Two regions are adjacent, or one is saturated and the other was cut from it. -/
def Accounted (s : Segmenter) (a b : ℕ) : Prop :=
  s.Linked a b ∨
    ((s.regions a).flags.saturated = true ∧ (s.regions b).flags.fragmented = true) ∨
    ((s.regions b).flags.saturated = true ∧ (s.regions a).flags.fragmented = true)

/-- A region without its list and the flags about it. -/
def bare (region : Region) : Region :=
  { region with
    adjacentRegions := []
    flags.saturated := false
    flags.fragmented := false }

/-- The segmenter without the lists and the flags about them. -/
def withoutLinks (s : Segmenter) : Segmenter :=
  { s with regions := fun r => bare (s.regions r) }

/-- The lists are mutual and within their bound, no region is in its own list,
and a saturated region has none. -/
structure Adjacency (s : Segmenter) : Prop where
  closed : ∀ a < s.regionCount, ∀ b, s.Linked a b → b < s.regionCount
  symmetric : ∀ a < s.regionCount, ∀ b < s.regionCount, s.links a b = s.links b a
  apart : ∀ a < s.regionCount, ¬ s.Linked a a
  bounded : ∀ a < s.regionCount,
    (s.regions a).adjacentRegions.length ≤ s.maxAdjacentRegions
  saturated : ∀ a < s.regionCount,
    (s.regions a).flags.saturated = true → (s.regions a).adjacentRegions = []

variable {s s' s'' : Segmenter} {a b r r1 r2 : ℕ}

theorem linked_iff : s.Linked a b ↔ 0 < s.links a b :=
  List.count_pos_iff.symm

theorem not_linked_iff : ¬ s.Linked a b ↔ s.links a b = 0 :=
  List.count_eq_zero.symm

theorem Adjacency.linked_symm (adjacency : s.Adjacency) (insideA : a < s.regionCount)
    (linked : s.Linked a b) : s.Linked b a := by
  have insideB := adjacency.closed a insideA b linked
  rw [linked_iff, ← adjacency.symmetric a insideA b insideB, ← linked_iff]
  exact linked

theorem Accounted.symm (adjacency : s.Adjacency) (insideA : a < s.regionCount)
    (accounted : s.Accounted a b) : s.Accounted b a := by
  rcases accounted with linked | cutB | cutA
  · exact Or.inl (adjacency.linked_symm insideA linked)
  · exact Or.inr (Or.inr cutB)
  · exact Or.inr (Or.inl cutA)

/-! ## What changes only lists and their flags -/

section Changes

theorem regionCount_eq (same : s'.withoutLinks = s.withoutLinks) :
    s'.regionCount = s.regionCount := by
  have equal := congrArg Segmenter.regionCount same
  exact equal

theorem maxAdjacentRegions_eq (same : s'.withoutLinks = s.withoutLinks) :
    s'.maxAdjacentRegions = s.maxAdjacentRegions := by
  have equal := congrArg Segmenter.maxAdjacentRegions same
  exact equal

@[simp]
theorem regions_modifyRegion (s : Segmenter) (r a : ℕ) (change : Region → Region) :
    (s.modifyRegion r change).regions a =
      if a = r then change (s.regions a) else s.regions a := by
  rw [modifyRegion]
  by_cases same : a = r
  · subst same
    rw [if_pos rfl]
    exact Function.update_self ..
  · rw [if_neg same]
    exact Function.update_of_ne same ..

@[simp]
theorem modifyRegion_regionCount (s : Segmenter) (r : ℕ) (change : Region → Region) :
    (s.modifyRegion r change).regionCount = s.regionCount :=
  rfl

theorem setAdjacent_regionCount (s : Segmenter) (r : ℕ) (adjacent : List ℕ) :
    (s.setAdjacent r adjacent).regionCount = s.regionCount :=
  rfl

@[simp]
theorem modifyRegion_maxAdjacentRegions (s : Segmenter) (r : ℕ) (change : Region → Region) :
    (s.modifyRegion r change).maxAdjacentRegions = s.maxAdjacentRegions :=
  rfl

theorem withoutLinks_modifyRegion {change : Region → Region}
    (kept : ∀ region, bare (change region) = bare region) (s : Segmenter) (r : ℕ) :
    (s.modifyRegion r change).withoutLinks = s.withoutLinks := by
  have regions : (fun a => bare ((s.modifyRegion r change).regions a)) =
      fun a => bare (s.regions a) := by
    funext a
    rw [regions_modifyRegion]
    split
    · exact kept _
    · rfl
  rw [withoutLinks, regions]
  rfl

@[simp]
theorem withoutLinks_setAdjacent (s : Segmenter) (r : ℕ) (adjacent : List ℕ) :
    (s.setAdjacent r adjacent).withoutLinks = s.withoutLinks := by
  apply withoutLinks_modifyRegion
  intro region
  rfl

@[simp]
theorem withoutLinks_markFragmented (s : Segmenter) (r : ℕ) :
    (s.markFragmented r).withoutLinks = s.withoutLinks := by
  apply withoutLinks_modifyRegion
  intro region
  rfl

@[simp]
theorem withoutLinks_saturate (s : Segmenter) (r : ℕ) :
    (s.saturate r).withoutLinks = s.withoutLinks := by
  apply withoutLinks_modifyRegion
  intro region
  rfl

@[simp]
theorem adjacent_saturate (s : Segmenter) (r a : ℕ) :
    ((s.saturate r).regions a).adjacentRegions =
      if a = r then [] else (s.regions a).adjacentRegions := by
  rw [saturate, regions_modifyRegion]
  split <;> rfl

theorem saturated_saturate_iff {s : Segmenter} {r a : ℕ} :
    ((s.saturate r).regions a).flags.saturated = true ↔
      (s.regions a).flags.saturated = true ∨ a = r := by
  rw [saturate, regions_modifyRegion]
  by_cases same : a = r
  · simp [same, Region.saturate]
  · simp [same]

@[simp]
theorem fragmented_saturate (s : Segmenter) (r a : ℕ) :
    ((s.saturate r).regions a).flags.fragmented = (s.regions a).flags.fragmented := by
  rw [saturate, regions_modifyRegion]
  split <;> rfl

@[simp]
theorem adjacent_setAdjacent (s : Segmenter) (r a : ℕ) (adjacent : List ℕ) :
    ((s.setAdjacent r adjacent).regions a).adjacentRegions =
      if a = r then adjacent else (s.regions a).adjacentRegions := by
  rw [setAdjacent, regions_modifyRegion]
  split <;> rfl

@[simp]
theorem flags_setAdjacent (s : Segmenter) (r a : ℕ) (adjacent : List ℕ) :
    ((s.setAdjacent r adjacent).regions a).flags = (s.regions a).flags := by
  rw [setAdjacent, regions_modifyRegion]
  split <;> rfl

@[simp]
theorem adjacent_markFragmented (s : Segmenter) (r a : ℕ) :
    ((s.markFragmented r).regions a).adjacentRegions = (s.regions a).adjacentRegions := by
  rw [markFragmented, regions_modifyRegion]
  split <;> rfl

@[simp]
theorem saturated_markFragmented (s : Segmenter) (r a : ℕ) :
    ((s.markFragmented r).regions a).flags.saturated = (s.regions a).flags.saturated := by
  rw [markFragmented, regions_modifyRegion]
  split <;> rfl

theorem fragmented_markFragmented_iff :
    ((s.markFragmented r).regions a).flags.fragmented = true ↔
      (s.regions a).flags.fragmented = true ∨ a = r := by
  rw [markFragmented, regions_modifyRegion]
  by_cases same : a = r
  · simp [same, Region.markFragmented]
  · simp [same]

theorem Adjacency.markFragmented (adjacency : s.Adjacency) (r : ℕ) :
    (s.markFragmented r).Adjacency where
  closed a inside b linked := by
    rw [Linked, adjacent_markFragmented] at linked
    exact adjacency.closed a inside b linked
  symmetric a insideA b insideB := by
    rw [links, links, adjacent_markFragmented, adjacent_markFragmented]
    exact adjacency.symmetric a insideA b insideB
  apart a inside := by
    rw [Linked, adjacent_markFragmented]
    exact adjacency.apart a inside
  bounded a inside := by
    rw [adjacent_markFragmented]
    exact adjacency.bounded a inside
  saturated a inside full := by
    rw [saturated_markFragmented] at full
    rw [adjacent_markFragmented]
    exact adjacency.saturated a inside full

/-- Accounting is kept when links are accounted for and no flag is taken away. -/
theorem Accounted.mono (linked : s.Linked a b → s'.Accounted a b)
    (saturated : ∀ c, (s.regions c).flags.saturated = true →
      (s'.regions c).flags.saturated = true)
    (fragmented : ∀ c, (s.regions c).flags.fragmented = true →
      (s'.regions c).flags.fragmented = true)
    (accounted : s.Accounted a b) : s'.Accounted a b := by
  rcases accounted with isLinked | ⟨fullA, cutB⟩ | ⟨fullB, cutA⟩
  · exact linked isLinked
  · exact Or.inr (Or.inl ⟨saturated a fullA, fragmented b cutB⟩)
  · exact Or.inr (Or.inr ⟨saturated b fullB, fragmented a cutA⟩)

theorem Accounted.markFragmented (accounted : s.Accounted a b) (r : ℕ) :
    (s.markFragmented r).Accounted a b := by
  apply accounted.mono
  · intro linked
    left
    rw [Linked, adjacent_markFragmented]
    exact linked
  · intro c full
    rw [saturated_markFragmented]
    exact full
  · intro c cut
    exact fragmented_markFragmented_iff.mpr (Or.inl cut)

end Changes

end Segmenter

open Segmenter

variable {s s' : Segmenter} {a b r r1 r2 : ℕ}

theorem isAdjacent_iff (adjacency : s.Adjacency) (insideA : a < s.regionCount)
    (insideB : b < s.regionCount) : isAdjacent s a b = true ↔ s.Linked a b := by
  rw [isAdjacent]
  split
  · rw [List.contains_iff_mem]
    exact ⟨adjacency.linked_symm insideB, adjacency.linked_symm insideA⟩
  · rw [List.contains_iff_mem]
    rfl

/-- To take an entry from a list makes one link less. -/
theorem removeAdjacentFrom_spec (linked : s.Linked a r) :
    ∃ s', removeAdjacentFrom s a r = some s' ∧ s'.withoutLinks = s.withoutLinks ∧
      (∀ c, (s'.regions c).flags = (s.regions c).flags) ∧
      (∀ c, c ≠ a → (s'.regions c).adjacentRegions = (s.regions c).adjacentRegions) ∧
      (r :: (s'.regions a).adjacentRegions).Perm (s.regions a).adjacentRegions := by
  obtain ⟨rest, removed, perm⟩ := exists_removeFirst linked
  apply Exists.intro (s.setAdjacent a rest)
  refine ⟨?_, withoutLinks_setAdjacent s a rest, fun c => flags_setAdjacent s a c rest, ?_, ?_⟩
  · rw [removeAdjacentFrom, removed, Option.bind_eq_bind, Option.bind_some]
  · intro c apart
    rw [adjacent_setAdjacent, if_neg apart]
  · rw [adjacent_setAdjacent, if_pos rfl]
    exact perm

/-! ## Saturation -/

/-- What `make_saturated` does: the region loses its list and is in no other, and
those it was adjacent to are fragmented. -/
structure Isolates (s s' : Segmenter) (r : ℕ) : Prop where
  same : s'.withoutLinks = s.withoutLinks
  emptied : (s'.regions r).adjacentRegions = []
  gone : ∀ a < s.regionCount, s'.links a r = 0
  kept : ∀ a b, a ≠ r → b ≠ r → s'.links a b = s.links a b
  saturated : ∀ a, (s'.regions a).flags.saturated = true ↔
    (s.regions a).flags.saturated = true ∨ a = r
  fragmented : ∀ a, (s'.regions a).flags.fragmented = true ↔
    (s.regions a).flags.fragmented = true ∨ s.Linked r a

/-- The loop of `make_saturated`, where `todo` is what is left of the list. -/
theorem isolateLoop_spec {todo : List ℕ} (notSelf : r ∉ todo)
    (counts : ∀ a < s.regionCount, a ≠ r → s.links a r = todo.count a)
    (inside : ∀ a ∈ todo, a < s.regionCount) :
    ∃ s', Transition.run
        (fun s a => do
          let s ← removeAdjacentFrom s a r
          some (s.markFragmented a)) s todo = some s' ∧
      s'.withoutLinks = s.withoutLinks ∧
      (∀ a < s.regionCount, a ≠ r → s'.links a r = 0) ∧
      (∀ a b, b ≠ r → s'.links a b = s.links a b) ∧
      (∀ a, (s'.regions a).flags.saturated = (s.regions a).flags.saturated) ∧
      (∀ a, (s'.regions a).flags.fragmented = true ↔
        (s.regions a).flags.fragmented = true ∨ a ∈ todo) := by
  induction todo generalizing s with
  | nil =>
      refine ⟨s, rfl, rfl, ?_, fun _ _ _ => rfl, fun _ => rfl, fun _ => by simp⟩
      intro a insideA apart
      exact counts a insideA apart
  | cons a todo ih =>
      have apart : a ≠ r := fun isSelf => notSelf (isSelf ▸ List.mem_cons_self)
      have insideA := inside a List.mem_cons_self
      have linked : s.Linked a r := by
        rw [linked_iff, counts a insideA apart, List.count_cons_self]
        exact Nat.succ_pos _
      obtain ⟨s1, removed, same, flags, others, perm⟩ := removeAdjacentFrom_spec linked
      have links1 : ∀ c d, s1.links c d + (if c = a ∧ d = r then 1 else 0) = s.links c d := by
        intro c d
        by_cases here : c = a
        · subst here
          have count := perm.count_eq d
          rw [List.count_cons] at count
          rw [links, links, ← count]
          by_cases isRemoved : d = r
          · simp [isRemoved]
          · simp [isRemoved, Ne.symm isRemoved]
        · rw [links, others c here, if_neg fun both => here both.1]
          rfl
      have marked : ∀ c d, (s1.markFragmented a).links c d = s1.links c d := by
        intro c d
        rw [links, adjacent_markFragmented]
        rfl
      have sameMarked : (s1.markFragmented a).withoutLinks = s.withoutLinks := by
        rw [withoutLinks_markFragmented, same]
      have count1 := regionCount_eq sameMarked
      have tail := @ih (s1.markFragmented a) (fun mem => notSelf (List.mem_cons_of_mem a mem))
        (by
          intro c insideC apartC
          rw [count1] at insideC
          have before := counts c insideC apartC
          rw [← links1 c r, List.count_cons] at before
          rw [marked]
          by_cases here : c = a
          · subst here
            simpa using before
          · simpa [here, Ne.symm here] using before)
        (by
          intro c mem
          rw [count1]
          exact inside c (List.mem_cons_of_mem a mem))
      obtain ⟨s', loop, sameAll, gone, kept, saturated, fragmented⟩ := tail
      refine ⟨s', ?_, sameAll.trans sameMarked, ?_, ?_, ?_, ?_⟩
      · rw [Transition.run_cons, removed]
        exact loop
      · intro c insideC
        exact gone c (count1 ▸ insideC)
      · intro c d apartD
        rw [kept c d apartD, marked, ← links1 c d, if_neg fun both => apartD both.2]
        rfl
      · intro c
        rw [saturated, saturated_markFragmented, flags]
      · intro c
        rw [fragmented, fragmented_markFragmented_iff, flags, List.mem_cons, or_assoc]

theorem makeSaturated_spec (adjacency : s.Adjacency) (inside : r < s.regionCount) :
    ∃ s', makeSaturated s r = some s' ∧ Isolates s s' r := by
  have notSelf : r ∉ (s.regions r).adjacentRegions := adjacency.apart r inside
  obtain ⟨s1, loop, same, gone, kept, saturated, fragmented⟩ :=
    isolateLoop_spec notSelf
      (fun a insideA _ => adjacency.symmetric a insideA r inside)
      (fun a linked => adjacency.closed r inside a linked)
  apply Exists.intro (s1.saturate r)
  constructor
  · rw [makeSaturated]
    exact congrArg (Option.bind · _) loop
  constructor
  · rw [withoutLinks_saturate, same]
  · rw [adjacent_saturate, if_pos rfl]
  · intro a insideA
    rw [links, adjacent_saturate]
    by_cases here : a = r
    · rw [if_pos here]
      rfl
    · rw [if_neg here]
      exact gone a insideA here
  · intro a b apartA apartB
    rw [links, adjacent_saturate, if_neg apartA]
    exact kept a b apartB
  · intro a
    rw [saturated_saturate_iff, saturated]
  · intro a
    rw [fragmented_saturate]
    exact fragmented a

section Isolated

variable (isolates : Isolates s s' r)
include isolates

theorem Isolates.links_le (insideA : a < s.regionCount) (b : ℕ) : s'.links a b ≤ s.links a b := by
  by_cases hereA : a = r
  · subst hereA
    rw [links, isolates.emptied]
    exact Nat.zero_le _
  · by_cases hereB : b = r
    · subst hereB
      rw [isolates.gone a insideA]
      exact Nat.zero_le _
    · rw [isolates.kept a b hereA hereB]

theorem Isolates.linked_of_linked (insideA : a < s.regionCount) (linked : s'.Linked a b) :
    s.Linked a b :=
  linked_iff.mpr (Nat.lt_of_lt_of_le (linked_iff.mp linked) (isolates.links_le insideA b))

theorem Isolates.adjacency (adjacency : s.Adjacency) : s'.Adjacency := by
  have count := regionCount_eq isolates.same
  constructor
  · intro a insideA b linked
    rw [count] at insideA ⊢
    exact adjacency.closed a insideA b (isolates.linked_of_linked insideA linked)
  · intro a insideA b insideB
    rw [count] at insideA insideB
    by_cases hereA : a = r
    · subst hereA
      rw [isolates.gone b insideB, links, isolates.emptied]
      rfl
    · by_cases hereB : b = r
      · subst hereB
        rw [isolates.gone a insideA, links, isolates.emptied]
        rfl
      · rw [isolates.kept a b hereA hereB, isolates.kept b a hereB hereA]
        exact adjacency.symmetric a insideA b insideB
  · intro a insideA linked
    rw [count] at insideA
    exact adjacency.apart a insideA (isolates.linked_of_linked insideA linked)
  · intro a insideA
    rw [count] at insideA
    rw [maxAdjacentRegions_eq isolates.same]
    apply le_trans _ (adjacency.bounded a insideA)
    apply List.Subperm.length_le
    rw [List.subperm_iff_count]
    exact isolates.links_le insideA
  · intro a insideA full
    rw [count] at insideA
    rcases (isolates.saturated a).mp full with fullBefore | rfl
    · rw [List.eq_nil_iff_forall_not_mem]
      intro b linked
      have before := isolates.linked_of_linked insideA linked
      rw [Linked, adjacency.saturated a insideA fullBefore] at before
      exact List.not_mem_nil before
    · exact isolates.emptied

theorem Isolates.accounted (adjacency : s.Adjacency) (insideA : a < s.regionCount)
    (accounted : s.Accounted a b) : s'.Accounted a b := by
  apply accounted.mono
  · intro linked
    by_cases hereA : a = r
    · subst hereA
      right; left
      exact ⟨(isolates.saturated a).mpr (Or.inr rfl), (isolates.fragmented b).mpr (Or.inr linked)⟩
    · by_cases hereB : b = r
      · subst hereB
        right; right
        exact ⟨(isolates.saturated b).mpr (Or.inr rfl),
          (isolates.fragmented a).mpr (Or.inr (adjacency.linked_symm insideA linked))⟩
      · left
        rw [linked_iff, isolates.kept a b hereA hereB, ← linked_iff]
        exact linked
  · intro c full
    exact (isolates.saturated c).mpr (Or.inl full)
  · intro c cut
    exact (isolates.fragmented c).mpr (Or.inl cut)

end Isolated

/-! ## Adjacent regions -/

/-- What `make_adjacent` does: nothing but the two regions is linked anew, and the
two are accounted for together with whatever was before. -/
structure Ties (s s' : Segmenter) (r1 r2 : ℕ) : Prop where
  same : s'.withoutLinks = s.withoutLinks
  adjacency : s'.Adjacency
  linked : ∀ a < s.regionCount, ∀ b, s'.Linked a b →
    s.Linked a b ∨ (a = r1 ∧ b = r2) ∨ (a = r2 ∧ b = r1)
  accounted : ∀ a < s.regionCount, ∀ b, s.Accounted a b → s'.Accounted a b
  tied : s'.Accounted r1 r2

theorem Ties.symm (ties : Ties s s' r2 r1) (inside : r2 < s.regionCount) : Ties s s' r1 r2 where
  same := ties.same
  adjacency := ties.adjacency
  linked a insideA b linked := by
    rcases ties.linked a insideA b linked with old | one | other
    · exact Or.inl old
    · exact Or.inr (Or.inr one)
    · exact Or.inr (Or.inl other)
  accounted := ties.accounted
  tied := by
    apply ties.tied.symm ties.adjacency
    rw [regionCount_eq ties.same]
    exact inside

/-- A region is cut from a saturated one. -/
theorem ties_markFragmented (adjacency : s.Adjacency)
    (full : (s.regions r1).flags.saturated = true) (r2 : ℕ) :
    Ties s (s.markFragmented r2) r1 r2 where
  same := withoutLinks_markFragmented s r2
  adjacency := adjacency.markFragmented r2
  linked a _ b linked := by
    left
    rw [Linked, adjacent_markFragmented] at linked
    exact linked
  accounted _ _ _ accounted := accounted.markFragmented r2
  tied := by
    right; left
    constructor
    · rw [saturated_markFragmented]
      exact full
    · exact fragmented_markFragmented_iff.mpr (Or.inr rfl)

/-- A region whose list is full is saturated, and the other is cut from it. -/
theorem Isolates.ties (isolates : Isolates s s' r1) (adjacency : s.Adjacency) (r2 : ℕ) :
    Ties s (s'.markFragmented r2) r1 r2 := by
  have cut := ties_markFragmented (isolates.adjacency adjacency)
    ((isolates.saturated r1).mpr (Or.inr rfl)) r2
  constructor
  · exact cut.same.trans isolates.same
  · exact cut.adjacency
  · intro a insideA b linked
    left
    rw [Linked, adjacent_markFragmented] at linked
    exact isolates.linked_of_linked insideA linked
  · intro a insideA b accounted
    exact (isolates.accounted adjacency insideA accounted).markFragmented r2
  · exact cut.tied

theorem count_ite_swap (a b u v : ℕ) :
    List.count b (if a = u then [v] else []) = List.count a (if b = v then [u] else []) := by
  by_cases hereA : a = u
  · by_cases hereB : b = v
    · simp [hereA, hereB]
    · rw [if_pos hereA, if_neg hereB, List.count_singleton, if_neg (by simpa using Ne.symm hereB)]
      rfl
  · by_cases hereB : b = v
    · rw [if_neg hereA, if_pos hereB, List.count_singleton, if_neg (by simpa using Ne.symm hereA)]
      rfl
    · rw [if_neg hereA, if_neg hereB]
      rfl

/-- Two regions that have room are linked. -/
theorem ties_setAdjacent (adjacency : s.Adjacency) (distinct : r1 ≠ r2)
    (inside1 : r1 < s.regionCount) (inside2 : r2 < s.regionCount)
    (free1 : (s.regions r1).flags.saturated ≠ true) (free2 : (s.regions r2).flags.saturated ≠ true)
    (room1 : (s.regions r1).adjacentRegions.length < s.maxAdjacentRegions)
    (room2 : (s.regions r2).adjacentRegions.length < s.maxAdjacentRegions) :
    Ties s ((s.setAdjacent r1 ((s.regions r1).adjacentRegions ++ [r2])).setAdjacent r2
      ((s.regions r2).adjacentRegions ++ [r1])) r1 r2 := by
  have lists : ∀ a, (((s.setAdjacent r1 ((s.regions r1).adjacentRegions ++ [r2])).setAdjacent r2
      ((s.regions r2).adjacentRegions ++ [r1])).regions a).adjacentRegions =
        (s.regions a).adjacentRegions ++
          (if a = r1 then [r2] else []) ++ (if a = r2 then [r1] else []) := by
    intro a
    rw [adjacent_setAdjacent, adjacent_setAdjacent]
    by_cases here1 : a = r1
    · subst here1
      rw [if_neg distinct, if_pos rfl, if_pos rfl, if_neg distinct, List.append_nil]
    · by_cases here2 : a = r2
      · subst here2
        rw [if_pos rfl, if_neg here1, if_pos rfl, List.append_nil]
      · rw [if_neg here2, if_neg here1, if_neg here1, if_neg here2, List.append_nil,
          List.append_nil]
  have linkedIff : ∀ a b, ((s.setAdjacent r1 ((s.regions r1).adjacentRegions ++ [r2])).setAdjacent
      r2 ((s.regions r2).adjacentRegions ++ [r1])).Linked a b ↔
        s.Linked a b ∨ (a = r1 ∧ b = r2) ∨ (a = r2 ∧ b = r1) := by
    intro a b
    rw [Linked, lists, List.mem_append, List.mem_append, or_assoc]
    apply or_congr Iff.rfl
    apply or_congr
    · split <;> simp_all
    · split <;> simp_all
  have insideOf : ∀ a b, s.Linked a b ∨ (a = r1 ∧ b = r2) ∨ (a = r2 ∧ b = r1) →
      a < s.regionCount → b < s.regionCount := by
    rintro a b (linked | ⟨_, rfl⟩ | ⟨_, rfl⟩) insideA
    · exact adjacency.closed a insideA b linked
    · exact inside2
    · exact inside1
  constructor
  · rw [withoutLinks_setAdjacent, withoutLinks_setAdjacent]
  · constructor
    · intro a insideA b linked
      exact insideOf a b ((linkedIff a b).mp linked) insideA
    · intro a insideA b insideB
      have before := adjacency.symmetric a insideA b insideB
      rw [links, links] at before
      rw [links, links, lists, lists, List.count_append, List.count_append, List.count_append,
        List.count_append, before]
      rw [count_ite_swap a b r1 r2, count_ite_swap a b r2 r1, Nat.add_right_comm]
    · intro a insideA linked
      rcases (linkedIff a a).mp linked with old | ⟨here1, here2⟩ | ⟨here2, here1⟩
      · exact adjacency.apart a insideA old
      · exact distinct (here1.symm.trans here2)
      · exact distinct (here1.symm.trans here2)
    · intro a insideA
      rw [lists]
      by_cases here1 : a = r1
      · subst here1
        rw [if_pos rfl, if_neg distinct, List.append_nil, List.length_append]
        exact room1
      · by_cases here2 : a = r2
        · subst here2
          rw [if_neg here1, if_pos rfl, List.append_nil, List.length_append]
          exact room2
        · rw [if_neg here1, if_neg here2, List.append_nil, List.append_nil]
          exact adjacency.bounded a insideA
    · intro a insideA full
      rw [flags_setAdjacent, flags_setAdjacent] at full
      have apart1 : a ≠ r1 := by
        rintro rfl
        exact free1 full
      have apart2 : a ≠ r2 := by
        rintro rfl
        exact free2 full
      rw [lists, if_neg apart1, if_neg apart2, adjacency.saturated a insideA full]
      rfl
  · intro a _ b linked
    exact (linkedIff a b).mp linked
  · intro a _ b accounted
    apply accounted.mono
    · intro linked
      exact Or.inl ((linkedIff a b).mpr (Or.inl linked))
    · intro c full
      rw [flags_setAdjacent, flags_setAdjacent]
      exact full
    · intro c cut
      rw [flags_setAdjacent, flags_setAdjacent]
      exact cut
  · exact Or.inl ((linkedIff r1 r2).mpr (Or.inr (Or.inl ⟨rfl, rfl⟩)))

theorem linkRegions_spec (adjacency : s.Adjacency) (distinct : r1 ≠ r2)
    (inside1 : r1 < s.regionCount) (inside2 : r2 < s.regionCount) :
    ∃ s', linkRegions s r1 r2 = some s' ∧ Ties s s' r1 r2 := by
  rw [linkRegions]
  by_cases full1 : (s.regions r1).flags.saturated = true
  · rw [if_pos full1]
    exact ⟨_, rfl, ties_markFragmented adjacency full1 r2⟩
  rw [if_neg full1]
  by_cases full2 : (s.regions r2).flags.saturated = true
  · rw [if_pos full2]
    exact ⟨_, rfl, (ties_markFragmented adjacency full2 r1).symm inside2⟩
  rw [if_neg full2]
  obtain ⟨s1, saturate1, isolates1⟩ := makeSaturated_spec adjacency inside1
  obtain ⟨s2, saturate2, isolates2⟩ := makeSaturated_spec adjacency inside2
  by_cases crowded1 : (s.regions r1).adjacentRegions.length = s.maxAdjacentRegions
  · rw [if_pos crowded1, saturate1, Option.bind_eq_bind, Option.bind_some]
    have ties := isolates1.ties adjacency r2
    have inside2' : r2 < (s1.markFragmented r2).regionCount := by
      rw [regionCount_eq ties.same]
      exact inside2
    by_cases crowded2 : ((s1.markFragmented r2).regions r2).adjacentRegions.length =
        (s1.markFragmented r2).maxAdjacentRegions
    · rw [if_pos crowded2]
      obtain ⟨s3, saturate3, isolates3⟩ := makeSaturated_spec ties.adjacency inside2'
      rw [saturate3, Option.bind_some]
      have again := (isolates3.ties ties.adjacency r1).symm inside2'
      refine ⟨_, rfl, again.same.trans ties.same, again.adjacency, ?_, ?_, again.tied⟩
      · intro a insideA b linked
        rcases again.linked a (by rw [regionCount_eq ties.same]; exact insideA) b linked with
          old | new
        · exact ties.linked a insideA b old
        · exact Or.inr new
      · intro a insideA b accounted
        exact again.accounted a (by rw [regionCount_eq ties.same]; exact insideA) b
          (ties.accounted a insideA b accounted)
    · rw [if_neg crowded2]
      exact ⟨_, rfl, ties⟩
  rw [if_neg crowded1]
  by_cases crowded2 : (s.regions r2).adjacentRegions.length = s.maxAdjacentRegions
  · rw [if_pos crowded2, saturate2, Option.bind_eq_bind, Option.bind_some]
    exact ⟨_, rfl, (isolates2.ties adjacency r1).symm inside2⟩
  rw [if_neg crowded2]
  have room1 := lt_of_le_of_ne (adjacency.bounded r1 inside1) crowded1
  have room2 := lt_of_le_of_ne (adjacency.bounded r2 inside2) crowded2
  have other : ((s.setAdjacent r1 ((s.regions r1).adjacentRegions ++ [r2])).regions
      r2).adjacentRegions = (s.regions r2).adjacentRegions := by
    rw [adjacent_setAdjacent, if_neg distinct.symm]
  have ties := ties_setAdjacent adjacency distinct inside1 inside2 full1 full2 room1 room2
  refine ⟨_, ?_, ties⟩
  rw [guard_eq_some room1, guard_eq_some room2]
  change some ((s.setAdjacent r1 _).setAdjacent r2
    (((s.setAdjacent r1 _).regions r2).adjacentRegions ++ [r1])) = _
  rw [other]

/-- `make_adjacent` breaks no assertion. -/
theorem makeAdjacent_spec (adjacency : s.Adjacency) (distinct : r1 ≠ r2)
    (inside1 : r1 < s.regionCount) (inside2 : r2 < s.regionCount) :
    ∃ s', makeAdjacent s r1 r2 = some s' ∧ Ties s s' r1 r2 := by
  have ended : ∀ s', Ties s s' r1 r2 →
      r1AdjacentContainsR2 s' r1 r2 = r1AdjacentContainsR2 s' r2 r1 := by
    intro s' ties
    have count := regionCount_eq ties.same
    rw [Bool.eq_iff_iff, r1AdjacentContainsR2, r1AdjacentContainsR2, List.contains_iff_mem,
      List.contains_iff_mem]
    exact ⟨ties.adjacency.linked_symm (count ▸ inside1),
      ties.adjacency.linked_symm (count ▸ inside2)⟩
  have linkedIff := isAdjacent_iff adjacency inside1 inside2
  rw [makeAdjacent]
  by_cases linked : s.Linked r1 r2
  · have ties : Ties s s r1 r2 :=
      ⟨rfl, adjacency, fun _ _ _ => Or.inl, fun _ _ _ => id, Or.inl linked⟩
    apply Exists.intro s
    simp only [if_pos (linkedIff.mpr linked), Option.bind_eq_bind, Option.bind_some,
      guard_eq_some (ended s ties), true_and]
    exact ties
  · obtain ⟨s', links, ties⟩ := linkRegions_spec adjacency distinct inside1 inside2
    apply Exists.intro s'
    simp only [if_neg (mt linkedIff.mp linked), links, Option.bind_eq_bind, Option.bind_some,
      guard_eq_some (ended s' ties), true_and]
    exact ties

end OfxPrimes.Fidtrack
