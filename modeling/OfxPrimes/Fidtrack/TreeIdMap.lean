import OfxPrimes.Forest.LeftHeavy
import OfxPrimes.Platform
import OfxPrimes.Transition.Run

/-!
# The map from trees to ids

The tree of a marker is a string: the colour of its root, then the depths of its
nodes.  The map knows the place of every tree in its list, and the bounds that the
search for markers is given.
-/

namespace OfxPrimes.Fidtrack

open Forest

/-! ## The strings -/

/-- `s[i] - '0'`, where `char` is signed. -/
def depthOf (character : UInt8) : ℤ :=
  character.toInt8.toInt - 48

/-- `(char)('0' + depth)`. -/
def depthCharacter (depth : ℕ) : UInt8 :=
  UInt8.ofNat (48 + depth)

/-- `find_maximum_tree_depth( s )`.  The first character is the colour. -/
def findMaximumTreeDepth (s : Text) : ℤ :=
  s.tail.foldl (fun result character =>
    if depthOf character > result then depthOf character else result) 0

/-- The variables of `find_maximum_descendent_count`. -/
structure DescendentCount where
  adjacenciesAtLevel : List ℕ
  currentLevel : ℤ
  result : ℕ

namespace DescendentCount

/-- `adjacenciesAtLevel[d-1]++`, where the vector has that place. -/
def increment (state : DescendentCount) (d : ℤ) : Option DescendentCount :=
  if d > 0 then do
    let count ← state.adjacenciesAtLevel[(d - 1).toNat]?
    some { state with
      adjacenciesAtLevel := state.adjacenciesAtLevel.set (d - 1).toNat (count + 1)
      result := max state.result (count + 1) }
  else some state

/-- The loop that clears the levels from `d` on, where the vector has them. -/
def clear (state : DescendentCount) (d : ℤ) : Option DescendentCount :=
  if d < state.currentLevel then do
    guard (0 ≤ d ∧ state.currentLevel ≤ state.adjacenciesAtLevel.length)
    some { state with
      adjacenciesAtLevel := state.adjacenciesAtLevel.mapIdx fun level count =>
        if d ≤ level ∧ level < state.currentLevel then 0 else count }
  else some state

/-- One turn of the loop of `find_maximum_descendent_count`. -/
def step (state : DescendentCount) (character : UInt8) : Option DescendentCount := do
  let d := depthOf character
  let state ← state.increment d
  let state ← state.clear d
  some { state with currentLevel := d }

end DescendentCount

/-- `find_maximum_descendent_count( s )`. -/
def findMaximumDescendentCount (s : Text) : Option ℕ := do
  let state ← Transition.run DescendentCount.step ⟨List.replicate s.length 0, 0, 0⟩ s.tail
  some state.result

/-! ## The map -/

/-- `struct TreeIdMap`, with the map of its implementation. -/
structure TreeIdMap where
  treeIdMap : List (Text × ℤ)
  minNodeCount : ℤ
  maxNodeCount : ℤ
  minDepth : ℤ
  maxDepth : ℤ
  maxAdjacencies : ℤ
  deriving DecidableEq, Repr

namespace TreeIdMap

/-- The map before any tree is inserted. -/
def empty : TreeIdMap where
  treeIdMap := []
  minNodeCount := 0x7FFF
  maxNodeCount := 0
  minDepth := 0x7FFF
  maxDepth := 0
  maxAdjacencies := 0

/-- The map of a file that cannot be opened. -/
def unopened : TreeIdMap where
  treeIdMap := []
  minNodeCount := 0
  maxNodeCount := 0
  minDepth := 0
  maxDepth := 0
  maxAdjacencies := 0

/-- What the constructors do with a tree.  The keys are compared with `strcmp`, and
a second tree with a key is not inserted. -/
def insert (map : TreeIdMap) (s : Text) (id : ℕ) : Option TreeIdMap :=
  if (map.treeIdMap.lookup (cStr s)).isSome then some map
  else do
    let depthSequenceLength : ℤ := (s.length : ℤ) - 1
    let maxTreeDepth := findMaximumTreeDepth s
    let descendentCount ← findMaximumDescendentCount s
    let maxNodeAdjacencies : ℤ := descendentCount + 1
    some {
      treeIdMap := map.treeIdMap ++ [(cStr s, (id : ℤ))]
      minNodeCount :=
        if depthSequenceLength < map.minNodeCount then depthSequenceLength else map.minNodeCount
      maxNodeCount :=
        if depthSequenceLength > map.maxNodeCount then depthSequenceLength else map.maxNodeCount
      minDepth := if maxTreeDepth < map.minDepth then maxTreeDepth else map.minDepth
      maxDepth := if maxTreeDepth > map.maxDepth then maxTreeDepth else map.maxDepth
      maxAdjacencies :=
        if maxNodeAdjacencies > map.maxAdjacencies then maxNodeAdjacencies
        else map.maxAdjacencies }

/-- Insert trees, the first of which gets the id `id`. -/
def insertAll (map : TreeIdMap) (id : ℕ) : List Text → Option TreeIdMap
  | [] => some map
  | s :: rest => do
      let map ← map.insert s id
      map.insertAll (id + 1) rest

end TreeIdMap

/-- `initialize_treeidmap( treeidmap )`, where `defaultTree` is the table of trees. -/
def initializeTreeidmap (defaultTree : List Text) : Option TreeIdMap :=
  TreeIdMap.empty.insertAll 0 defaultTree

/-- What `is >> s` takes for blank. -/
def isSpace (character : UInt8) : Bool :=
  character = 32 ∨ (9 ≤ character ∧ character ≤ 13)

/-- What `is >> s` reads from a file, one after the other. -/
def words (content : Text) : List Text :=
  (content.splitOnP isSpace).filter (· ≠ [])

/-- A colour is put in front of a tree that has none. -/
def withColour (s : Text) : Text :=
  if s.head? = some 119 ∨ s.head? = some 98 then s else 119 :: s

/-- `initialize_treeidmap_from_file( treeidmap, file_name )`. -/
def initializeTreeidmapFromFile (content : Option Text) : Option TreeIdMap :=
  match content with
  | none => some TreeIdMap.unopened
  | some content => TreeIdMap.empty.insertAll 0 ((words content).map withColour)

/-- `treestring_to_id( treeidmap, treestring )`. -/
def treestringToId (map : TreeIdMap) (treestring : Text) : ℤ :=
  (map.treeIdMap.lookup (cStr treestring)).getD (-1)

end OfxPrimes.Fidtrack
