import OfxPrimes.Fidtrack.Descent
import OfxPrimes.Fidtrack.DepthStrings

/-!
# Writing a tree down

Once the depths below a root are known, what the tracker writes of the root is the
left heavy string of its tree.  No string is too long for its line, and there is a
line for every region.
-/

namespace OfxPrimes.Fidtrack

open Forest

variable {s : Segmenter} {visited touched : ℕ → Prop} {parent : ℕ → Option ℕ} {tree : ℕ → Rose}
  {search search' : Search} {r a up level used : ℕ}

/-- Lines have been used, and only the strings and the order of the lists of some
regions have changed. -/
structure Written (touched : ℕ → Prop) (used : ℕ) (search search' : Search) : Prop where
  tracker : search'.tracker = { search.tracker with
    nextDepthString := search.tracker.nextDepthString + used }
  regionCount : search'.segmenter.regionCount = search.segmenter.regionCount
  region : ∀ a, ∃ list string, list.Perm (search.region a).adjacentRegions ∧
    search'.region a = { search.region a with adjacentRegions := list, depthString := string }
  frame : ∀ a, ¬ touched a → search'.region a = search.region a

namespace Written

theorem refl (touched : ℕ → Prop) (search : Search) : Written touched 0 search search where
  tracker := rfl
  regionCount := rfl
  region _ := ⟨_, _, .refl _, rfl⟩
  frame _ _ := rfl

theorem trans {search'' : Search} {used' : ℕ} (first : Written touched used search search')
    (second : Written touched used' search' search'') :
    Written touched (used + used') search search'' where
  tracker := by rw [second.tracker, first.tracker, Nat.add_assoc]
  regionCount := second.regionCount.trans first.regionCount
  region a := by
    obtain ⟨list, string, perm, equal⟩ := first.region a
    obtain ⟨list', string', perm', equal'⟩ := second.region a
    rw [equal] at perm'
    exact ⟨list', string', perm'.trans perm, by rw [equal', equal]⟩
  frame a untouched := (second.frame a untouched).trans (first.frame a untouched)

theorem mono {touched' : ℕ → Prop} (written : Written touched used search search')
    (more : ∀ a, touched a → touched' a) : Written touched' used search search' :=
  { written with frame := fun a untouched => written.frame a (mt (more a) untouched) }

/-- The string of a region is set. -/
theorem setString (search : Search) (a : ℕ) (string : Option Text) :
    Written (· = a) 0 search
      (search.modify a fun region => { region with depthString := string }) := by
  refine ⟨rfl, rfl, fun b => ?_, fun b differ => Search.region_modify_of_ne search differ _⟩
  rw [Search.region_modify]
  split
  · exact ⟨_, _, .refl _, rfl⟩
  · exact ⟨_, _, .refl _, rfl⟩

/-- The list of a region is sorted. -/
theorem sortList (search : Search) (a : ℕ) (before : ℕ → ℕ → Prop) [DecidableRel before] :
    Written (· = a) 0 search (search.modify a fun region => { region with
      adjacentRegions := region.adjacentRegions.insertionSort before }) := by
  refine ⟨rfl, rfl, fun b => ?_, fun b differ => Search.region_modify_of_ne search differ _⟩
  rw [Search.region_modify]
  split
  · exact ⟨_, _, List.perm_insertionSort _ _, rfl⟩
  · exact ⟨_, _, .refl _, rfl⟩

theorem adjacentRegions_setString (search : Search) (a b : ℕ) (string : Option Text) :
    ((search.modify a fun region => { region with depthString := string }).region b).adjacentRegions
      = (search.region b).adjacentRegions := by
  rw [Search.region_modify]
  split <;> rfl

theorem revised (written : Written touched used search search') : Revised search search' where
  tracker := by rw [written.tracker]
  regionCount := written.regionCount
  region a := by
    obtain ⟨list, string, perm, equal⟩ := written.region a
    exact ⟨_, list, string, perm, equal⟩

theorem depth (written : Written touched used search search') (a : ℕ) :
    (search'.region a).depth = (search.region a).depth := by
  obtain ⟨_, _, _, equal⟩ := written.region a
  rw [equal]

theorem levelled (written : Written touched used search search')
    (levelled : Levelled parent search r) : Levelled parent search' r := by
  intro a up below isParent
  rw [written.depth, written.depth]
  exact levelled a up below isParent

end Written

/-- What a call for `r` may change. -/
def Within (s : Segmenter) (parent : ℕ → Option ℕ) (r a : ℕ) : Prop :=
  Descends parent a r ∨ a ∈ s.graph r

/-- What a call for `r` comes to. -/
def Writes (s : Segmenter) (parent : ℕ → Option ℕ) (tree : ℕ → Rose) (level r : ℕ)
    (search : Search) (result : Option (Search × Text)) : Prop :=
  ∃ search', result = some (search', leftHeavyString level (tree r)) ∧
    Written (Within s parent r) (tree r).size search search' ∧
    ∀ a, ¬ Descends parent a r →
      (search'.region a).adjacentRegions = (search.region a).adjacentRegions

/-- There are lines for `used` strings, and they are long enough. -/
structure Room (search : Search) (used : ℕ) : Prop where
  lines : ((search.tracker.nextDepthString : ℤ) + used) ≤ search.tracker.depthStringCount
  length : (used : ℤ) < search.tracker.depthStringLength

theorem Room.mono {fewer : ℕ} (room : Room search used) (fits : fewer ≤ used) :
    Room search fewer := by
  have lines := room.lines
  have length := room.length
  constructor <;> omega

theorem Room.after (room : Room search used) {first rest : ℕ} (enough : first + rest ≤ used)
    (written : Written touched first search search') : Room search' rest := by
  have lines := room.lines
  have length := room.length
  constructor
  · rw [written.tracker]
    push_cast
    omega
  · rw [written.tracker]
    change (rest : ℤ) < search.tracker.depthStringLength
    omega

/-- The regions next to a child are its parent and its own children. -/
theorem graph_kid (stripped : Stripped s.graph s.Clear visited parent tree)
    (isParent : parent r = some up) (mem : a ∈ s.graph r) : a = up ∨ parent a = some r := by
  by_cases isKid : parent a = some r
  · exact Or.inr isKid
  · have other : a ∈ others s.graph parent r := mem_others_iff.mpr ⟨mem, isKid⟩
    rw [(stripped.credited r up isParent).2.2, List.mem_singleton] at other
    exact Or.inl other

theorem within_kid (stripped : Stripped s.graph s.Clear visited parent tree)
    (isParent : parent r = some up) (within : Within s parent r a) :
    a = up ∨ Descends parent a r := by
  rcases within with below | mem
  · exact Or.inr below
  · exact (graph_kid stripped isParent mem).imp id fun isKid => .single isKid

/-- What the loop over a list of regions next to `r` may change. -/
def Passed (parent : ℕ → Option ℕ) (r : ℕ) (list : List ℕ) (a : ℕ) : Prop :=
  a = r ∨ a ∈ list ∨ ∃ kid ∈ list, parent kid = some r ∧ Descends parent a kid

theorem Passed.cons {list : List ℕ} (passed : Passed parent r list a) (first : ℕ) :
    Passed parent r (first :: list) a := by
  rcases passed with same | mem | ⟨kid, mem, isKid, below⟩
  · exact Or.inl same
  · exact Or.inr (Or.inl (List.mem_cons_of_mem first mem))
  · exact Or.inr (Or.inr ⟨kid, List.mem_cons_of_mem first mem, isKid, below⟩)

/-- The string that a region next to `r` has while `r` is written. -/
def stringAt (parent : ℕ → Option ℕ) (tree : ℕ → Rose) (level r a : ℕ) : Option Text :=
  if parent a = some r then some (leftHeavyString (level + 1) (tree a)) else none

section Writing

variable (stripped : Stripped s.graph s.Clear visited parent tree) (segmented : Segmented s)
include stripped segmented

/-- A region next to `r` is not below another. -/
theorem not_below_others {first kid : ℕ} {rest : List ℕ} (mem : first ∈ s.graph r)
    (differ : first ≠ r) (notRest : first ∉ rest) (memKid : kid ∈ rest)
    (isKid : parent kid = some r) : ¬ Descends parent first kid := by
  by_cases isKid' : parent first = some r
  · have different : first ≠ kid := fun same => notRest (same ▸ memKid)
    exact stripped.apart segmented.symmetric different isKid' isKid .refl
  · intro below
    have other := mem_others_iff.mpr ⟨mem, isKid'⟩
    exact stripped.not_descends_other segmented.symmetric differ other (below.tail isKid)

/-- The loop of `build_left_heavy_depth_string` writes the children of `r` down, and
clears the strings of the other regions next to it. -/
theorem build_loop (fuel : ℕ) (isVisited : visited r) (notSelf : r ∉ s.graph r)
    (low : level + 1 < 2 ^ 15) (list : List ℕ)
    (ih : ∀ kid ∈ list, parent kid = some r → ∀ search, Explored s visited parent search →
      (search.region kid).depth = (level + 1 : ℕ) → Levelled parent search kid →
      Room search (tree kid).size →
      Writes s parent tree (level + 1) kid search (buildLeftHeavyDepthString fuel search kid))
    (next : ∀ a ∈ list, a ∈ s.graph r) :
    ∀ search, Explored s visited parent search → (search.region r).depth = level →
      Levelled parent search r →
      Room search (Rose.sizes ((list.filter fun a => parent a = some r).map tree)) →
      ∃ search', Transition.run
          (fun search adjacent => do
            if (search.region adjacent).level = .traversed ∧
                (search.region adjacent).descendentCount < (search.region r).descendentCount then
              let (search, depthString) ← buildLeftHeavyDepthString fuel search adjacent
              some (search.modify adjacent fun region => { region with
                depthString := some depthString })
            else
              some (search.modify adjacent fun region => { region with depthString := none }))
          search list = some search' ∧
        Written (Passed parent r list)
          (Rose.sizes ((list.filter fun a => parent a = some r).map tree)) search search' ∧
        (∀ a, (∀ kid, parent kid = some r → ¬ Descends parent a kid) →
          (search'.region a).adjacentRegions = (search.region a).adjacentRegions) ∧
        ∀ a ∈ list, (search'.region a).depthString = stringAt parent tree level r a := by
  induction list with
  | nil =>
      intro search _ _ _ _
      exact ⟨search, rfl, .refl _ _, fun _ _ => rfl, fun _ mem => absurd mem List.not_mem_nil⟩
  | cons first rest ihRest =>
      intro search explored depthR levelled room
      have later := ihRest (fun kid mem => ih kid (List.mem_cons_of_mem first mem))
        (fun a mem => next a (List.mem_cons_of_mem first mem))
      have inGraph := next first List.mem_cons_self
      have smaller := explored.smaller r isVisited first inGraph
      have differ : first ≠ r := fun same => notSelf (same ▸ inGraph)
      -- the rest of the loop leaves the string of `first` alone
      have finish : ∀ {middle search' : Search} {used : ℕ},
          Written (Passed parent r rest) used middle search' →
          (middle.region first).depthString = stringAt parent tree level r first →
          (∀ a ∈ rest, (search'.region a).depthString = stringAt parent tree level r a) →
          ∀ a ∈ first :: rest, (search'.region a).depthString = stringAt parent tree level r a := by
        intro middle search' used written set strings a mem
        by_cases again : a ∈ rest
        · exact strings a again
        · have isFirst := (List.mem_cons.mp mem).resolve_right again
          subst isFirst
          rw [written.frame a, set]
          rintro (same | inRest | ⟨kid, memKid, isKid, below⟩)
          · exact differ same
          · exact again inRest
          · exact not_below_others stripped segmented inGraph differ again memKid isKid below
      have more : ∀ a, Passed parent r rest a → Passed parent r (first :: rest) a :=
        fun _ passed => passed.cons first
      have here : ∀ a, a = first → Passed parent r (first :: rest) a :=
        fun a same => Or.inr (Or.inl (same ▸ List.mem_cons_self))
      rw [Transition.run_cons]
      by_cases isKid : parent first = some r
      · have isVisitedKid := (stripped.credited first r isKid).1
        have sum : Rose.sizes (((first :: rest).filter fun a => parent a = some r).map tree) =
            (tree first).size + Rose.sizes ((rest.filter fun a => parent a = some r).map tree) := by
          rw [List.filter_cons, if_pos (by simpa using isKid), List.map_cons, Rose.sizes]
        rw [sum] at room ⊢
        have depthKid : (search.region first).depth = ((level + 1 : ℕ) : ℤ) := by
          rw [levelled first r .refl isKid, depthR]
          push_cast
          apply toShort_eq_self <;> omega
        obtain ⟨middle, ran, written, lists⟩ := ih first List.mem_cons_self isKid search explored
          depthKid (fun a up below isParent => levelled a up (below.tail isKid) isParent)
          (room.mono (Nat.le_add_right _ _))
        have inner : ∀ a, Within s parent first a → Passed parent r (first :: rest) a :=
          fun a within => (within_kid stripped isKid within).imp id fun below =>
            Or.inr ⟨first, List.mem_cons_self, isKid, below⟩
        have writtenKid := (written.mono inner).trans
          ((Written.setString middle first (some (leftHeavyString (level + 1) (tree first)))).mono
            here)
        have set : ((middle.modify first fun region => { region with
            depthString := some (leftHeavyString (level + 1) (tree first)) }).region
              first).depthString = stringAt parent tree level r first := by
          rw [Search.region_modify_self, stringAt, if_pos isKid]
        obtain ⟨search', ran', written', lists', strings⟩ := later _
          (writtenKid.revised.explored explored) (by rw [writtenKid.depth, depthR])
          (writtenKid.levelled levelled) (room.after le_rfl writtenKid)
        refine ⟨search', ?_, writtenKid.trans (written'.mono more), ?_, finish written' set strings⟩
        · rw [if_pos ⟨explored.traversed first isVisitedKid, smaller.mpr isKid⟩, ran]
          exact ran'
        · intro a notBelow
          rw [lists' a notBelow, Written.adjacentRegions_setString, lists a (notBelow first isKid)]
      · have same : ((first :: rest).filter fun a => parent a = some r) =
            rest.filter fun a => parent a = some r := by
          rw [List.filter_cons, if_neg (by simpa using isKid)]
        rw [same] at room ⊢
        have writtenFirst := (Written.setString search first none).mono here
        have set : ((search.modify first fun region => { region with
            depthString := none }).region first).depthString =
              stringAt parent tree level r first := by
          rw [Search.region_modify_self, stringAt, if_neg isKid]
        obtain ⟨search', ran', written', lists', strings⟩ := later _
          (writtenFirst.revised.explored explored) (by rw [writtenFirst.depth, depthR])
          (writtenFirst.levelled levelled) (room.after (Nat.zero_add _).le writtenFirst)
        have whole := writtenFirst.trans (written'.mono more)
        rw [Nat.zero_add] at whole
        refine ⟨search', ?_, whole, ?_, finish written' set strings⟩
        · rw [if_neg fun both => isKid (smaller.mp both.2)]
          exact ran'
        · intro a notBelow
          rw [lists' a notBelow, Written.adjacentRegions_setString]

/-- The strings of the regions next to `r`, sorted and joined, and the character of `r`
in front, are what is written of its tree. -/
theorem join_eq (isVisited : visited r) (low : level + (tree r).height ≤ 207) {list : List ℕ}
    (perm : list.Perm (s.graph r)) {strings : ℕ → Option Text}
    (stringsEq : ∀ a ∈ list, strings a = stringAt parent tree level r a) :
    (∀ a ∈ list, ∀ string, strings a = some string → cStr string = string) ∧
      (list.filter fun a => (strings a).isSome).Nodup ∧
      depthCharacter level :: ((list.insertionSort fun a b =>
        depthStringCmp (strings a) (strings b) ≤ 0).filterMap strings).flatten =
          leftHeavyString level (tree r) := by
  have kidOf : ∀ a ∈ list, ∀ string, strings a = some string →
      a ∈ kids s.graph parent r ∧ string = leftHeavyString (level + 1) (tree a) := by
    intro a mem string isString
    rw [stringsEq a mem, stringAt] at isString
    split at isString
    · next isKid =>
        exact ⟨mem_kids_iff.mpr ⟨perm.mem_iff.mp mem, isKid⟩, (Option.some.inj isString).symm⟩
    · exact absurd isString (Option.some_ne_none string).symm
  have plain : ∀ a ∈ list, ∀ string, strings a = some string → cStr string = string := by
    intro a mem string isString
    obtain ⟨isKid, rfl⟩ := kidOf a mem string isString
    have lower := Rose.height_lt_of_mem (List.mem_map_of_mem (f := tree) isKid)
    rw [← stripped.tree_eq r isVisited] at lower
    exact cStr_leftHeavyString (by omega)
  refine ⟨plain, ?_, ?_⟩
  · have same : (list.filter fun a => (strings a).isSome) =
        list.filter fun a => parent a = some r := by
      apply List.filter_congr
      intro a mem
      rw [stringsEq a mem, stringAt]
      split <;> simp_all
    rw [same, (perm.filter _).nodup_iff]
    exact stripped.kids_nodup segmented.anchored segmented.symmetric r
  · have written : (list.filterMap strings).Perm
        ((kids s.graph parent r).map fun a => leftHeavyString (level + 1) (tree a)) := by
      have same : list.filterMap strings = list.filterMap (stringAt parent tree level r) :=
        List.filterMap_congr fun a mem => stringsEq a mem
      have kidStrings : (s.graph r).filterMap (stringAt parent tree level r) =
          (kids s.graph parent r).map fun a => leftHeavyString (level + 1) (tree a) := by
        rw [kids, ← List.filterMap_eq_map, List.filterMap_filter]
        apply List.filterMap_congr
        intro a _
        rw [stringAt]
        simp
      rw [same, ← kidStrings]
      exact perm.filterMap _
    rw [filterMap_insertionSort strings list plain, stripped.tree_eq r isVisited, leftHeavyString,
      leftHeavy_node, List.map_map]
    congr 2
    exact insertionSort_eq_of_perm heavierFirst_order (fun _ _ _ _ => eq_of_heavierFirst) written

/-- What is written of a region is the left heavy string of its tree. -/
theorem build_spec (notSelf : ∀ a, visited a → a ∉ s.graph a) (fuel : ℕ) :
    ∀ {r level : ℕ} {search : Search}, Explored s visited parent search → visited r →
      r < s.regionCount → (tree r).size ≤ fuel → level + (tree r).height ≤ 207 →
      ((s.graph r).length = 1 → kids s.graph parent r = []) →
      (search.region r).depth = level → Levelled parent search r →
      Room search (tree r).size →
      Writes s parent tree level r search (buildLeftHeavyDepthString fuel search r) := by
  induction fuel with
  | zero =>
      intro r level search _ _ _ few
      exact absurd (tree r).size_pos (Nat.le_zero.mp few).not_gt
  | succ fuel ih =>
      intro r level search explored isVisited inside few low whole depthR levelled room
      have positive := (tree r).size_pos
      have lines := room.lines
      have length := room.length
      obtain ⟨start, isStart⟩ : ∃ start : Search, start = { search with
        tracker.nextDepthString := search.tracker.nextDepthString + 1 } := ⟨_, rfl⟩
      have writtenStart : Written (Within s parent r) 1 search start := by
        rw [isStart]
        exact ⟨rfl, rfl, fun _ => ⟨_, _, .refl _, rfl⟩, fun _ _ => rfl⟩
      have regions : start.region = search.region := by rw [isStart]; rfl
      have character : UInt8.ofInt (48 + (start.region r).depth) = depthCharacter level := by
        rw [regions, depthR]
        exact ofInt_depth (by omega)
      have perm : (start.region r).adjacentRegions.Perm (s.graph r) := by
        rw [regions]
        exact explored.list r inside
      have guardLine : (search.tracker.nextDepthString : ℤ) < search.tracker.depthStringCount := by
        omega
      have guardFirst : (([depthCharacter level].length : ℕ) : ℤ) <
          search.tracker.depthStringLength := by
        change ((1 : ℕ) : ℤ) < search.tracker.depthStringLength
        omega
      have treeR := stripped.tree_eq r isVisited
      simp only [buildLeftHeavyDepthString, guardLine, guard_eq_some, Option.bind_eq_bind,
        Option.bind_some, ← isStart, character, guardFirst]
      by_cases one : (start.region r).adjacentRegions.length = 1
      · have noKids := whole (perm.length_eq ▸ one)
        rw [noKids, List.map_nil] at treeR
        have size : (tree r).size = 1 := by rw [treeR]; rfl
        have text : leftHeavyString level (tree r) = [depthCharacter level] := by
          rw [treeR, leftHeavyString, leftHeavy_node]
          rfl
        rw [if_neg (not_not.mpr one)]
        refine ⟨start, by rw [text], size ▸ writtenStart, fun a _ => ?_⟩
        rw [regions]
      · have sizes : Rose.sizes (((start.region r).adjacentRegions.filter fun a =>
            parent a = some r).map tree) + 1 = (tree r).size := by
          rw [treeR, Rose.size, Rose.sizes_eq_sum, Rose.sizes_eq_sum,
            (((perm.filter _).map tree).map Rose.size).sum_eq]
          rfl
        have lowLevel : level + 1 < 2 ^ 15 := by omega
        obtain ⟨search2, ran, written2, lists2, strings2⟩ := build_loop stripped segmented fuel
          isVisited (notSelf r isVisited) lowLevel (start.region r).adjacentRegions
          (fun kid mem isKid search explored depthKid levelled room => by
            have memKid := stripped.mem_kids segmented.symmetric isKid
            have smaller := stripped.size_lt isVisited memKid
            have lower := Rose.height_lt_of_mem (List.mem_map_of_mem (f := tree) memKid)
            rw [← treeR] at lower
            exact ih explored (stripped.credited kid r isKid).1
              (segmented.closed (mem_kids_iff.mp memKid).1) (by omega) (by omega)
              (noKids_of_child stripped isKid) depthKid levelled room)
          (fun a mem => perm.mem_iff.mp mem) start (writtenStart.revised.explored explored)
          (by rw [regions, depthR]) (writtenStart.levelled levelled)
          (room.after (Nat.add_comm 1 _ ▸ sizes.le) writtenStart)
        have listR : (search2.region r).adjacentRegions = (start.region r).adjacentRegions :=
          lists2 r fun kid isKid => stripped.not_descends_kid segmented.symmetric isKid
        have differ : ∀ a ∈ (search2.region r).adjacentRegions, a ≠ r := by
          rintro a mem rfl
          rw [listR] at mem
          exact notSelf a isVisited (perm.mem_iff.mp mem)
        rw [← listR] at perm strings2
        obtain ⟨plain, once, joined⟩ := join_eq stripped segmented isVisited low perm strings2
        obtain ⟨sorted, isSorted⟩ : ∃ sorted, sorted = search2.modify r fun region => { region with
            adjacentRegions := region.adjacentRegions.insertionSort fun a b =>
              depthStringCmp (search2.region a).depthString (search2.region b).depthString ≤ 0 } :=
          ⟨_, rfl⟩
        have writtenSorted : Written (· = r) 0 search2 sorted := by
          rw [isSorted]
          exact Written.sortList search2 r _
        have sortedList : (sorted.region r).adjacentRegions =
            (search2.region r).adjacentRegions.insertionSort fun a b =>
              depthStringCmp (search2.region a).depthString (search2.region b).depthString ≤ 0 := by
          rw [isSorted, Search.region_modify_self]
        simp only [Option.bind_eq_bind] at ran
        rw [if_pos one, ran, Option.bind_some, ← isSorted, sortedList]
        have sortedPerm := List.perm_insertionSort (fun a b =>
            depthStringCmp (search2.region a).depthString (search2.region b).depthString ≤ 0)
          (search2.region r).adjacentRegions
        generalize (search2.region r).adjacentRegions.insertionSort (fun a b =>
            depthStringCmp (search2.region a).depthString (search2.region b).depthString ≤ 0) = list
          at joined sortedList sortedPerm ⊢
        have stringsSame : ∀ a, a ∈ list → (sorted.region a).depthString =
            (search2.region a).depthString := by
          intro a mem
          rw [writtenSorted.frame a (differ a (sortedPerm.mem_iff.mp mem))]
        obtain ⟨written, tracker, count, region⟩ := foldl_appendDepthString list sorted
          [depthCharacter level]
          (fun a mem string isString => plain a (sortedPerm.mem_iff.mp mem) string
            ((stringsSame a mem).symm.trans isString))
          (by
            rw [List.filter_congr fun a mem => by rw [stringsSame a mem],
              (sortedPerm.filter _).nodup_iff]
            exact once)
        generalize list.foldl appendDepthString (sorted, [depthCharacter level]) = copied
          at written tracker count region ⊢
        obtain ⟨search4, text⟩ := copied
        simp only at written tracker count region
        have isText : text = leftHeavyString level (tree r) := by
          rw [written, List.filterMap_congr stringsSame, List.singleton_append]
          exact joined
        have writtenCopied : Written (· ∈ list) 0 sorted search4 := by
          refine ⟨tracker, count, fun a => ?_, fun a notMem => ?_⟩
          · rw [region a]
            split
            · exact ⟨_, _, .refl _, rfl⟩
            · exact ⟨_, _, .refl _, rfl⟩
          · rw [region a, if_neg notMem]
        have whole := ((writtenStart.trans (written2.mono fun a passed => ?_)).trans
          (writtenSorted.mono fun a same => Or.inl (same ▸ .refl))).trans
            (writtenCopied.mono fun a mem => Or.inr (perm.mem_iff.mp (sortedPerm.mem_iff.mp mem)))
        · have used : 1 + Rose.sizes (((start.region r).adjacentRegions.filter fun a =>
              parent a = some r).map tree) + 0 + 0 = (tree r).size := by omega
          rw [used] at whole
          have guardText : (text.length : ℤ) < search4.tracker.depthStringLength := by
            rw [whole.tracker, isText, length_leftHeavy]
            exact length
          refine ⟨search4, ?_, whole, fun a notBelow => ?_⟩
          · rw [← isText]
            simp only [guardText, guard_eq_some, Option.bind_some]
          · have differR : a ≠ r := by
              rintro rfl
              exact notBelow .refl
            have forgotten : (search4.region a).adjacentRegions =
                (sorted.region a).adjacentRegions := by
              rw [region a]
              split <;> rfl
            rw [forgotten, writtenSorted.frame a differR,
              lists2 a fun kid isKid below => notBelow (below.tail isKid), regions]
        · rcases passed with rfl | mem | ⟨kid, _, isKid, below⟩
          · exact Or.inl .refl
          · rw [← listR] at mem
            exact Or.inr (perm.mem_iff.mp mem)
          · exact Or.inl (below.tail isKid)

end Writing

end OfxPrimes.Fidtrack
