import OfxPrimes.Fidtrack.TreeStrings
import Mathlib.Order.Bounds.Basic

/-!
# The trees of the markers

However the trees of the markers come to the map, it gives every tree the place of
its first appearance, and the bounds that the search for markers is given are those
of the trees.
-/

namespace OfxPrimes.Fidtrack

open Forest

/-- A tree that the map is given.  Its depths fit a `char`: the character of the depth
80 is negative, and with it `find_maximum_descendent_count` leaves its vector. -/
structure Marker where
  colour : UInt8
  tree : Rose
  /-- `'w'` or `'b'` -/
  colour_eq : colour = 119 ∨ colour = 98
  height_le : tree.height ≤ 79

namespace Marker

/-- The string of the marker. -/
def text (marker : Marker) : Text :=
  treeString marker.colour marker.tree

/-- The number of nodes of the marker, its root counted. -/
def nodeCount (marker : Marker) : ℤ :=
  marker.tree.size

/-- The depth of the marker, that of a single node being zero. -/
def depth (marker : Marker) : ℤ :=
  marker.tree.height

/-- The most regions next to one node of the marker. -/
def adjacencies (marker : Marker) : ℤ :=
  marker.tree.degree + 1

variable {marker marker' : Marker}

theorem length_text (marker : Marker) : (marker.text.length : ℤ) - 1 = marker.nodeCount := by
  rw [text, treeString, List.length_cons, length_walk, nodeCount]
  omega

theorem findMaximumTreeDepth_text (marker : Marker) :
    findMaximumTreeDepth marker.text = marker.depth :=
  findMaximumTreeDepth_treeString marker.colour marker.height_le

theorem findMaximumDescendentCount_text (marker : Marker) :
    findMaximumDescendentCount marker.text = some marker.tree.degree :=
  findMaximumDescendentCount_treeString marker.colour marker.height_le

/-- Markers with one string have the same measures. -/
theorem nodeCount_congr (same : marker.text = marker'.text) :
    marker.nodeCount = marker'.nodeCount := by
  rw [← length_text, same, length_text]

theorem depth_congr (same : marker.text = marker'.text) : marker.depth = marker'.depth := by
  rw [← findMaximumTreeDepth_text, same, findMaximumTreeDepth_text]

theorem adjacencies_congr (same : marker.text = marker'.text) :
    marker.adjacencies = marker'.adjacencies := by
  have counted := marker.findMaximumDescendentCount_text
  rw [same, findMaximumDescendentCount_text] at counted
  rw [adjacencies, adjacencies, Option.some.inj counted]

/-- A string holds neither NUL nor a blank. -/
theorem plain (marker : Marker) : ∀ character ∈ marker.text, 32 < character := by
  have digits : ∀ level ≤ 79, 32 < depthCharacter level := by decide
  intro character mem
  cases mem with
  | head =>
      rcases marker.colour_eq with isWhite | isBlack
      · rw [isWhite]
        decide
      · rw [isBlack]
        decide
  | tail _ later =>
      obtain ⟨level, _, low, rfl⟩ := exists_of_mem_walk _ marker.tree later
      rw [Nat.zero_add] at low
      exact digits level (low.trans marker.height_le)

theorem cStr_text (marker : Marker) : cStr marker.text = marker.text :=
  cStr_eq_self fun mem => absurd (marker.plain 0 mem) (by decide)

end Marker

/-! ## The bounds -/

/-- The least of some measures and a start, which is the answer where they are all
greater. -/
def Least (start : ℤ) (measure : Marker → ℤ) (markers : List Marker) (value : ℤ) : Prop :=
  IsLeast (insert start (measure '' {marker | marker ∈ markers})) value

/-- The greatest of some measures and a start. -/
def Greatest (start : ℤ) (measure : Marker → ℤ) (markers : List Marker) (value : ℤ) : Prop :=
  IsGreatest (insert start (measure '' {marker | marker ∈ markers})) value

/-- What the map knows of the markers. -/
structure Knows (markers : List Marker) (map : TreeIdMap) : Prop where
  lookup : ∀ text, map.treeIdMap.lookup text =
    ((markers.map Marker.text).idxOf? text).map Int.ofNat
  minNodeCount : Least 0x7FFF Marker.nodeCount markers map.minNodeCount
  maxNodeCount : Greatest 0 Marker.nodeCount markers map.maxNodeCount
  minDepth : Least 0x7FFF Marker.depth markers map.minDepth
  maxDepth : Greatest 0 Marker.depth markers map.maxDepth
  maxAdjacencies : Greatest 0 Marker.adjacencies markers map.maxAdjacencies

variable {markers : List Marker} {marker : Marker} {map : TreeIdMap} {measure : Marker → ℤ}
  {start value : ℤ}

theorem image_concat (measure : Marker → ℤ) (markers : List Marker) (marker : Marker) :
    measure '' {m | m ∈ markers ++ [marker]} =
      insert (measure marker) (measure '' {m | m ∈ markers}) := by
  rw [← Set.image_insert_eq]
  congr 1
  ext m
  simp [or_comm]

theorem Least.concat (least : Least start measure markers value) :
    Least start measure (markers ++ [marker])
      (if measure marker < value then measure marker else value) := by
  have more := IsLeast.insert (measure marker) least
  rw [Set.insert_comm, ← image_concat] at more
  have same : (if measure marker < value then measure marker else value) =
      min (measure marker) value := by
    split <;> omega
  rwa [same]

theorem Greatest.concat (greatest : Greatest start measure markers value) :
    Greatest start measure (markers ++ [marker])
      (if measure marker > value then measure marker else value) := by
  have more := IsGreatest.insert (measure marker) greatest
  rw [Set.insert_comm, ← image_concat] at more
  have same : (if measure marker > value then measure marker else value) =
      max (measure marker) value := by
    split <;> omega
  rwa [same]

/-- A measure that one of the markers has already changes no bound. -/
theorem image_concat_of_mem (mem : measure marker ∈ measure '' {m | m ∈ markers}) :
    measure '' {m | m ∈ markers ++ [marker]} = measure '' {m | m ∈ markers} := by
  rw [image_concat, Set.insert_eq_of_mem mem]

/-! ## The map -/

theorem idxOf?_concat (texts : List Text) (new text : Text) :
    (texts ++ [new]).idxOf? text =
      (texts.idxOf? text).or (if new = text then some texts.length else none) := by
  change (texts ++ [new]).findIdx? (· == text) = (texts.findIdx? (· == text)).or _
  rw [List.findIdx?_append]
  congr 1
  by_cases same : new = text
  · simp [same]
  · simp [same]

theorem Knows.empty : Knows [] TreeIdMap.empty := by
  constructor
  · exact fun _ => rfl
  all_goals simp [Least, Greatest, TreeIdMap.empty]

/-- A marker whose string is in the map changes nothing. -/
theorem Knows.concat_of_mem (knows : Knows markers map)
    (mem : marker.text ∈ markers.map Marker.text) : Knows (markers ++ [marker]) map := by
  obtain ⟨marker', mem', same⟩ := List.mem_map.mp mem
  have nodeCount := image_concat_of_mem ⟨marker', mem', Marker.nodeCount_congr same⟩
  have depth := image_concat_of_mem ⟨marker', mem', Marker.depth_congr same⟩
  have adjacencies := image_concat_of_mem ⟨marker', mem', Marker.adjacencies_congr same⟩
  constructor
  · intro text
    rw [knows.lookup, List.map_append, List.map_singleton, idxOf?_concat]
    cases place : (markers.map Marker.text).idxOf? text with
    | some _ => rfl
    | none =>
        have differ : marker.text ≠ text :=
          fun same => List.idxOf?_eq_none_iff.mp place (same ▸ mem)
        rw [if_neg differ]
        rfl
  · rw [Least, nodeCount]
    exact knows.minNodeCount
  · rw [Greatest, nodeCount]
    exact knows.maxNodeCount
  · rw [Least, depth]
    exact knows.minDepth
  · rw [Greatest, depth]
    exact knows.maxDepth
  · rw [Greatest, adjacencies]
    exact knows.maxAdjacencies

theorem Knows.insert (knows : Knows markers map) (marker : Marker) :
    ∃ map', map.insert marker.text markers.length = some map' ∧
      Knows (markers ++ [marker]) map' := by
  by_cases mem : marker.text ∈ markers.map Marker.text
  · refine ⟨map, ?_, knows.concat_of_mem mem⟩
    have hasKey : ((markers.map Marker.text).idxOf? marker.text).isSome := by
      rw [Option.isSome_iff_ne_none, Ne, List.idxOf?_eq_none_iff, not_not]
      exact mem
    rw [TreeIdMap.insert, Marker.cStr_text, knows.lookup, Option.isSome_map, if_pos hasKey]
  · have noKey : map.treeIdMap.lookup marker.text = none := by
      rw [knows.lookup, List.idxOf?_eq_none_iff.mpr mem, Option.map_none]
    refine ⟨{
      treeIdMap := map.treeIdMap ++ [(marker.text, (markers.length : ℤ))]
      minNodeCount := _, maxNodeCount := _, minDepth := _, maxDepth := _,
      maxAdjacencies := _ }, ?_, ?_, knows.minNodeCount.concat, knows.maxNodeCount.concat,
      knows.minDepth.concat, knows.maxDepth.concat, knows.maxAdjacencies.concat⟩
    · simp only [TreeIdMap.insert, Marker.cStr_text, noKey, Marker.length_text,
        Marker.findMaximumTreeDepth_text, Marker.findMaximumDescendentCount_text]
      rfl
    · intro text
      rw [List.map_append, List.map_singleton, idxOf?_concat, List.lookup_append, knows.lookup,
        List.lookup_cons, List.lookup_nil, Option.map_or, List.length_map]
      congr 1
      by_cases same : marker.text = text
      · simp [same]
      · have differ : (text == marker.text) = false := by simpa using Ne.symm same
        rw [if_neg same, differ]
        rfl

theorem Knows.insertAll (knows : Knows markers map) (rest : List Marker) :
    ∃ map', map.insertAll markers.length (rest.map Marker.text) = some map' ∧
      Knows (markers ++ rest) map' := by
  induction rest generalizing markers map with
  | nil => exact ⟨map, rfl, by rwa [List.append_nil]⟩
  | cons marker rest ih =>
      obtain ⟨map1, inserted, knows1⟩ := knows.insert marker
      obtain ⟨map2, insertedAll, knows2⟩ := ih knows1
      rw [List.length_append, List.length_singleton] at insertedAll
      rw [List.append_assoc, List.singleton_append] at knows2
      refine ⟨map2, ?_, knows2⟩
      simp only [List.map_cons, TreeIdMap.insertAll, inserted, Option.bind_eq_bind,
        Option.bind_some, insertedAll]

/-- The map of the strings of some markers knows these markers. -/
theorem knows_of_initializeTreeidmap (built : initializeTreeidmap (markers.map Marker.text) =
    some map) : Knows markers map := by
  obtain ⟨map', inserted, knows⟩ := Knows.empty.insertAll markers
  obtain rfl : map = map' := Option.some.inj (built.symm.trans inserted)
  exact knows

/-! ## The file -/

/-- A file with the trees of the markers, one in a line. -/
def linesOf (markers : List Marker) : Text :=
  markers.flatMap fun marker => marker.text ++ [10]

theorem isSpace_eq_false (marker : Marker) :
    ∀ character ∈ marker.text, isSpace character = false := by
  intro character mem
  have above : 32 < character.toNat := UInt8.lt_iff_toNat_lt.mp (marker.plain character mem)
  rw [isSpace, decide_eq_false_iff_not]
  rintro (rfl | ⟨_, low⟩)
  · exact absurd above (lt_irrefl _)
  · have low' : character.toNat ≤ 13 := UInt8.le_iff_toNat_le.mp low
    omega

theorem words_linesOf (markers : List Marker) :
    words (linesOf markers) = markers.map Marker.text := by
  induction markers with
  | nil => rfl
  | cons marker rest ih =>
      have notEmpty : marker.text ≠ [] := List.cons_ne_nil _ _
      have first : linesOf (marker :: rest) = marker.text ++ 10 :: linesOf rest := by
        rw [linesOf, List.flatMap_cons, List.append_assoc]
        rfl
      rw [words, first, List.splitOnP_append_cons_of_forall_mem (isSpace_eq_false marker) 10 rfl,
        List.filter_cons, if_pos (by simpa using notEmpty), List.map_cons]
      congr 1

theorem withColour_text (marker : Marker) : withColour marker.text = marker.text := by
  apply if_pos
  change some marker.colour = some 119 ∨ some marker.colour = some 98
  rw [Option.some_inj, Option.some_inj]
  exact marker.colour_eq

end OfxPrimes.Fidtrack
