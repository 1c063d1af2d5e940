import OfxPrimes.Fidtrack.Climbing

/-!
# The depths below a root

From a root the tracker goes down the tree that hangs from it.  Of the regions next
to a region those with fewer descendants are its children, and every region below
the root gets its depth.
-/

namespace OfxPrimes.Fidtrack

open Forest

variable {s : Segmenter} {visited touched : ℕ → Prop} {parent : ℕ → Option ℕ} {tree : ℕ → Rose}
  {base search search' : Search} {r a up : ℕ} {depth : ℤ}

/-- What the way down reads of the search. -/
structure Explored (s : Segmenter) (visited : ℕ → Prop) (parent : ℕ → Option ℕ)
    (search : Search) : Prop where
  list : ∀ a < s.regionCount, (search.region a).adjacentRegions.Perm (s.graph a)
  smaller : ∀ r, visited r → ∀ a ∈ s.graph r,
    ((search.region a).descendentCount < (search.region r).descendentCount ↔ parent a = some r)
  traversed : ∀ a, visited a → (search.region a).level = .traversed

/-- Only depths, strings and the order of the lists have changed. -/
structure Revised (base search : Search) : Prop where
  tracker : search.tracker = { base.tracker with
    nextDepthString := search.tracker.nextDepthString }
  regionCount : search.segmenter.regionCount = base.segmenter.regionCount
  region : ∀ a, ∃ depth list string, list.Perm (base.region a).adjacentRegions ∧
    search.region a = { base.region a with
      depth := depth, adjacentRegions := list, depthString := string }

namespace Revised

theorem refl (search : Search) : Revised search search where
  tracker := rfl
  regionCount := rfl
  region _ := ⟨_, _, _, .refl _, rfl⟩

theorem trans (first : Revised base search) (second : Revised search search') :
    Revised base search' where
  tracker := by
    rw [second.tracker, first.tracker]
  regionCount := second.regionCount.trans first.regionCount
  region a := by
    obtain ⟨depth, list, string, perm, equal⟩ := first.region a
    obtain ⟨depth', list', string', perm', equal'⟩ := second.region a
    rw [equal] at perm'
    exact ⟨depth', list', string', perm'.trans perm, by rw [equal', equal]⟩

theorem of_nextDepthString (search : Search) (next : ℕ) :
    Revised search { search with tracker.nextDepthString := next } where
  tracker := rfl
  regionCount := rfl
  region _ := ⟨_, _, _, .refl _, rfl⟩

theorem explored (revised : Revised search search')
    (explored : Explored s visited parent search) : Explored s visited parent search' := by
  constructor
  · intro a inside
    obtain ⟨_, list, _, perm, equal⟩ := revised.region a
    rw [equal]
    exact perm.trans (explored.list a inside)
  · intro r isVisited a mem
    obtain ⟨_, _, _, _, equal⟩ := revised.region a
    obtain ⟨_, _, _, _, equal'⟩ := revised.region r
    rw [equal, equal']
    exact explored.smaller r isVisited a mem
  · intro a isVisited
    obtain ⟨_, _, _, _, equal⟩ := revised.region a
    rw [equal]
    exact explored.traversed a isVisited

end Revised

/-- Only the depths of some regions have changed. -/
structure Deepened (touched : ℕ → Prop) (search search' : Search) : Prop where
  tracker : search'.tracker = search.tracker
  regionCount : search'.segmenter.regionCount = search.segmenter.regionCount
  region : ∀ a, ∃ depth, search'.region a = { search.region a with depth := depth }
  frame : ∀ a, ¬ touched a → search'.region a = search.region a

/-- Every region below `r` is one deeper than its parent. -/
def Levelled (parent : ℕ → Option ℕ) (search : Search) (r : ℕ) : Prop :=
  ∀ a up, Descends parent up r → parent a = some up →
    (search.region a).depth = toShort ((search.region up).depth + 1)

namespace Deepened

theorem refl (touched : ℕ → Prop) (search : Search) : Deepened touched search search where
  tracker := rfl
  regionCount := rfl
  region _ := ⟨_, rfl⟩
  frame _ _ := rfl

theorem trans {search'' : Search} (first : Deepened touched search search')
    (second : Deepened touched search' search'') : Deepened touched search search'' where
  tracker := second.tracker.trans first.tracker
  regionCount := second.regionCount.trans first.regionCount
  region a := by
    obtain ⟨depth, equal⟩ := first.region a
    obtain ⟨depth', equal'⟩ := second.region a
    exact ⟨depth', by rw [equal', equal]⟩
  frame a untouched := (second.frame a untouched).trans (first.frame a untouched)

theorem mono {touched' : ℕ → Prop} (deepened : Deepened touched search search')
    (more : ∀ a, touched a → touched' a) : Deepened touched' search search' :=
  { deepened with frame := fun a untouched => deepened.frame a (mt (more a) untouched) }

theorem revised (deepened : Deepened touched search search') : Revised search search' where
  tracker := by rw [deepened.tracker]
  regionCount := deepened.regionCount
  region a := by
    obtain ⟨depth, equal⟩ := deepened.region a
    exact ⟨depth, _, _, .refl _, equal⟩

end Deepened

/-- A change elsewhere does not matter to the regions below `r`. -/
theorem Levelled.congr (levelled : Levelled parent search r)
    (same : ∀ a, Descends parent a r → search'.region a = search.region a) :
    Levelled parent search' r := by
  intro a up below isParent
  rw [same up below, same a (.head isParent below)]
  exact levelled a up below isParent

/-- A child whose list holds one region has no children. -/
theorem noKids_of_child (stripped : Stripped s.graph s.Clear visited parent tree)
    (isParent : parent a = some up) (one : (s.graph a).length = 1) :
    kids s.graph parent a = [] := by
  have lengths := (others_append_kids_perm s.graph parent a).length_eq
  rw [List.length_append, (stripped.credited a up isParent).2.2, List.length_singleton, one]
    at lengths
  apply List.length_eq_zero_iff.mp
  omega

section Descent

variable (stripped : Stripped s.graph s.Clear visited parent tree) (segmented : Segmented s)
include stripped segmented

/-- The loop of `set_depth` goes down to the children of `r`, and to no other region. -/
theorem setDepth_loop (fuel : ℕ) (isVisited : visited r) (childDepth : ℤ) (list : List ℕ)
    (ih : ∀ kid ∈ list, parent kid = some r → ∀ search, Explored s visited parent search →
      ∃ search', setDepth fuel search kid childDepth = some search' ∧
        Deepened (Descends parent · kid) search search' ∧
        (search'.region kid).depth = childDepth ∧ Levelled parent search' kid)
    (next : ∀ a ∈ list, a ∈ s.graph r) :
    ∀ search, Explored s visited parent search →
      ∃ search', Transition.run
          (fun search adjacent =>
            if (search.region adjacent).descendentCount < (search.region r).descendentCount then
              setDepth fuel search adjacent childDepth
            else some search) search list = some search' ∧
        Deepened (fun a => ∃ kid ∈ list, parent kid = some r ∧ Descends parent a kid)
          search search' ∧
        ∀ kid ∈ list, parent kid = some r →
          (search'.region kid).depth = childDepth ∧ Levelled parent search' kid := by
  induction list with
  | nil =>
      intro search _
      exact ⟨search, rfl, .refl _ _, fun _ mem => absurd mem List.not_mem_nil⟩
  | cons first rest ihRest =>
      intro search explored
      have later := ihRest (fun kid mem => ih kid (List.mem_cons_of_mem first mem))
        (fun a mem => next a (List.mem_cons_of_mem first mem))
      have smaller := explored.smaller r isVisited first (next first List.mem_cons_self)
      rw [Transition.run_cons]
      by_cases isKid : parent first = some r
      · obtain ⟨middle, ran, deepened, depthFirst, levelled⟩ :=
          ih first List.mem_cons_self isKid search explored
        obtain ⟨search', ran', deepened', kids⟩ := later middle (deepened.revised.explored explored)
        refine ⟨search', ?_, ?_, ?_⟩
        · rw [if_pos (smaller.mpr isKid), ran, Option.bind_some]
          exact ran'
        · apply (deepened.mono _).trans (deepened'.mono _)
          · exact fun a below => ⟨first, List.mem_cons_self, isKid, below⟩
          · rintro a ⟨kid, mem, isKid', below⟩
            exact ⟨kid, List.mem_cons_of_mem first mem, isKid', below⟩
        · intro kid mem isKid'
          by_cases again : kid ∈ rest
          · exact kids kid again isKid'
          · obtain rfl := (List.mem_cons.mp mem).resolve_right again
            -- what the rest of the loop changes is below other children
            have same : ∀ a, Descends parent a kid → search'.region a = middle.region a := by
              intro a below
              apply deepened'.frame
              rintro ⟨other, memOther, isOther, below'⟩
              have differ : kid ≠ other := fun same => again (same ▸ memOther)
              exact stripped.apart segmented.symmetric differ isKid isOther below below'
            rw [same kid .refl]
            exact ⟨depthFirst, levelled.congr same⟩
      · obtain ⟨search', ran', deepened', kids⟩ := later search explored
        refine ⟨search', ?_, ?_, ?_⟩
        · rw [if_neg (fun lower => isKid (smaller.mp lower)), Option.bind_some]
          exact ran'
        · apply deepened'.mono
          rintro a ⟨kid, mem, isKid', below⟩
          exact ⟨kid, List.mem_cons_of_mem first mem, isKid', below⟩
        · intro kid mem isKid'
          have inRest := (List.mem_cons.mp mem).resolve_left fun same => isKid (same ▸ isKid')
          exact kids kid inRest isKid'

/-- Every region below `r` gets its depth, and nothing else changes. -/
theorem setDepth_spec (fuel : ℕ) :
    ∀ {r : ℕ} {search : Search} (depth : ℤ), Explored s visited parent search → visited r →
      (tree r).size ≤ fuel → ((s.graph r).length = 1 → kids s.graph parent r = []) →
      r < s.regionCount →
      ∃ search', setDepth fuel search r depth = some search' ∧
        Deepened (Descends parent · r) search search' ∧ (search'.region r).depth = depth ∧
        Levelled parent search' r := by
  induction fuel with
  | zero =>
      intro r search depth _ _ few
      exact absurd (tree r).size_pos (Nat.le_zero.mp few).not_gt
  | succ fuel ih =>
      intro r search depth explored isVisited few whole inside
      obtain ⟨start, isStart⟩ : ∃ start, start =
          search.modify r fun region => { region with depth := depth } := ⟨_, rfl⟩
      have regionR : start.region r = { search.region r with depth := depth } := by
        rw [isStart, Search.region_modify_self]
      have deepened : Deepened (Descends parent · r) search start := by
        rw [isStart]
        refine ⟨rfl, rfl, fun a => ?_, fun a notBelow => ?_⟩
        · rw [Search.region_modify]
          split
          · exact ⟨depth, rfl⟩
          · exact ⟨_, rfl⟩
        · have differ : a ≠ r := by
            rintro rfl
            exact notBelow .refl
          exact Search.region_modify_of_ne search differ _
      have exploredStart := deepened.revised.explored explored
      have perm := exploredStart.list r inside
      have kidsOf : ∀ {a}, Descends parent a r → a = r ∨
          ∃ kid ∈ (start.region r).adjacentRegions,
            parent kid = some r ∧ Descends parent a kid := by
        intro a below
        cases Relation.ReflTransGen.cases_tail below with
        | inl same => exact Or.inl same.symm
        | inr step =>
            obtain ⟨kid, below', isParent⟩ := step
            have mem := (mem_kids_iff.mp (stripped.mem_kids segmented.symmetric isParent)).1
            exact Or.inr ⟨kid, perm.mem_iff.mpr mem, isParent, below'⟩
      rw [setDepth, ← isStart]
      by_cases one : (start.region r).adjacentRegions.length = 1
      · have noKids := whole (perm.length_eq ▸ one)
        refine ⟨start, if_neg (not_not.mpr one), deepened, by rw [regionR], ?_⟩
        intro a up below isParent
        have isKid : ∀ kid, parent kid ≠ some r := by
          intro kid isParent'
          have mem := stripped.mem_kids segmented.symmetric isParent'
          rw [noKids] at mem
          exact List.not_mem_nil mem
        rcases kidsOf below with rfl | ⟨kid, _, isParent', _⟩
        · exact absurd isParent (isKid a)
        · exact absurd isParent' (isKid kid)
      · obtain ⟨search', ran, deepened', kids⟩ := setDepth_loop stripped segmented fuel isVisited
          (toShort (depth + 1)) (start.region r).adjacentRegions
          (fun kid mem isParent search explored => by
            have smaller := stripped.size_lt isVisited
              (stripped.mem_kids segmented.symmetric isParent)
            exact ih _ explored (stripped.credited kid r isParent).1 (by omega)
              (noKids_of_child stripped isParent)
              (segmented.closed (perm.mem_iff.mp mem)))
          (fun a mem => perm.mem_iff.mp mem) start exploredStart
        have notBelow : ¬ ∃ kid ∈ (start.region r).adjacentRegions,
            parent kid = some r ∧ Descends parent r kid := by
          rintro ⟨kid, _, isParent, below⟩
          exact stripped.not_descends_kid segmented.symmetric isParent below
        have depthR : (search'.region r).depth = depth := by
          rw [deepened'.frame r notBelow, regionR]
        refine ⟨search', ?_, ?_, depthR, ?_⟩
        · exact (if_pos one).trans ran
        · apply deepened.trans (deepened'.mono _)
          rintro a ⟨kid, _, isParent, below⟩
          exact below.tail isParent
        · intro a up below isParent
          rcases kidsOf below with rfl | ⟨kid, mem, isParent', below'⟩
          · have mem := (mem_kids_iff.mp (stripped.mem_kids segmented.symmetric isParent)).1
            rw [depthR]
            exact (kids a (perm.mem_iff.mpr mem) isParent).1
          · exact (kids kid mem isParent').2 a up below' isParent

end Descent

end OfxPrimes.Fidtrack
