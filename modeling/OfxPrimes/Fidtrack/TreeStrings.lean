import OfxPrimes.Fidtrack.TreeIdMap

/-!
# What is read of the string of a tree

The map measures a tree by its string alone.  On the depth sequence of a tree, in
whatever order the children are, it finds the height and the largest number of
children.
-/

namespace OfxPrimes.Fidtrack

open Forest

/-- Depths that fit a signed `char` are read as they were written. -/
theorem depthOf_depthCharacter {depth : ℕ} (low : depth ≤ 79) :
    depthOf (depthCharacter depth) = depth := by
  have each : ∀ depth < 80, depthOf (depthCharacter depth) = depth := by decide
  exact each depth (Nat.lt_succ_of_le low)

/-! ## The height -/

mutual

theorem foldl_walk : ∀ (tree : Rose) (depth : ℕ) (result : ℤ), depth + tree.height ≤ 79 →
    (walk depthCharacter depth tree).foldl (fun result character =>
      if depthOf character > result then depthOf character else result) result =
      max result ((depth + tree.height : ℕ) : ℤ)
  | .node children, depth, result, low => by
      rw [Rose.height] at low
      have lowDepth : depth ≤ 79 := by omega
      have read := depthOf_depthCharacter lowDepth
      rw [walk, List.foldl_cons, read, foldl_walks children depth _ _ low, Rose.height]
      · split <;> omega
      · split <;> omega

theorem foldl_walks : ∀ (trees : List Rose) (depth : ℕ) (result : ℤ), (depth : ℤ) ≤ result →
    depth + Rose.heights trees ≤ 79 →
    (walks depthCharacter (depth + 1) trees).foldl (fun result character =>
      if depthOf character > result then depthOf character else result) result =
      max result ((depth + Rose.heights trees : ℕ) : ℤ)
  | [], depth, result, above, _ => by
      rw [walks, List.foldl_nil, Rose.heights, Nat.add_zero, max_eq_left above]
  | tree :: rest, depth, result, above, low => by
      rw [Rose.heights] at low
      rw [walks, List.foldl_append, foldl_walk tree (depth + 1) result (by omega),
        foldl_walks rest depth _ (by omega) (by omega), Rose.heights]
      omega

end

/-! ## The number of children -/

namespace DescendentCount

variable {state state' : DescendentCount} {size level : ℕ}

/-- The counter of a level. -/
def counter (state : DescendentCount) (level : ℕ) : ℕ :=
  state.adjacenciesAtLevel.getD level 0

/-- Between two characters the counters from the level of the last one on are clear. -/
structure Ready (size : ℕ) (state : DescendentCount) : Prop where
  size_eq : state.adjacenciesAtLevel.length = size
  lower : 0 ≤ state.currentLevel
  upper : state.currentLevel ≤ size
  clear : ∀ level : ℕ, state.currentLevel ≤ level → state.counter level = 0
  bounded : ∀ level, state.counter level ≤ state.result

/-- At `level` so many more children are counted, and the result is known. -/
structure Counts (size level more result : ℕ) (state state' : DescendentCount) : Prop where
  ready : Ready size state'
  below : ∀ lower < level, state'.counter lower = state.counter lower
  counter_eq : state'.counter level = state.counter level + more
  result_eq : state'.result = result

theorem increment_spec (ready : Ready size state) (inside : level < size) :
    ∃ state', state.increment ((level + 1 : ℕ) : ℤ) = some state' ∧
      state'.adjacenciesAtLevel.length = size ∧ state'.currentLevel = state.currentLevel ∧
      state'.result = max state.result (state.counter level + 1) ∧
      ∀ place, state'.counter place =
        if place = level then state.counter level + 1 else state.counter place := by
  have place : (((level + 1 : ℕ) : ℤ) - 1).toNat = level := by omega
  have positive : ((level + 1 : ℕ) : ℤ) > 0 := by omega
  have inList : level < state.adjacenciesAtLevel.length := by rwa [ready.size_eq]
  have read : state.adjacenciesAtLevel[level]? = some (state.counter level) := by
    rw [counter, List.getD_eq_getElem?_getD, List.getElem?_eq_getElem inList, Option.getD_some]
  refine ⟨{ state with
    adjacenciesAtLevel := state.adjacenciesAtLevel.set level (state.counter level + 1)
    result := max state.result (state.counter level + 1) }, ?_, ?_, rfl, rfl, ?_⟩
  · rw [increment, if_pos positive, place, read]
    rfl
  · rw [← ready.size_eq]
    exact List.length_set
  · intro place
    simp only [counter, List.getD_eq_getElem?_getD, List.getElem?_set]
    by_cases here : level = place
    · subst here
      rw [if_pos rfl, if_pos inList, if_pos rfl, Option.getD_some]
    · rw [if_neg here, if_neg (Ne.symm here)]

theorem clear_spec (level : ℕ) (size_eq : state.adjacenciesAtLevel.length = size)
    (upper : state.currentLevel ≤ size) :
    ∃ state', state.clear (level : ℤ) = some state' ∧
      state'.adjacenciesAtLevel.length = size ∧ state'.result = state.result ∧
      ∀ place : ℕ, state'.counter place =
        if level ≤ place ∧ place < state.currentLevel then 0 else state.counter place := by
  by_cases lower : (level : ℤ) < state.currentLevel
  · have holds : 0 ≤ (level : ℤ) ∧ state.currentLevel ≤ state.adjacenciesAtLevel.length :=
      ⟨Int.natCast_nonneg level, size_eq ▸ upper⟩
    refine ⟨{ state with
      adjacenciesAtLevel := state.adjacenciesAtLevel.mapIdx fun place count =>
        if (level : ℤ) ≤ place ∧ place < state.currentLevel then 0 else count },
      ?_, List.length_mapIdx.trans size_eq, rfl, ?_⟩
    · rw [clear, if_pos lower]
      simp only [guard, if_pos holds]
      rfl
    · intro place
      simp only [counter, List.getD_eq_getElem?_getD, List.getElem?_mapIdx, Nat.cast_le]
      cases state.adjacenciesAtLevel[place]? with
      | none => simp
      | some count => simp
  · refine ⟨state, by rw [clear, if_neg lower], size_eq, rfl, ?_⟩
    intro place
    have outside : ¬ (level ≤ place ∧ (place : ℤ) < state.currentLevel) := by omega
    rw [if_neg outside]

/-- One character counts a child of the last node at the level above. -/
theorem step_spec (ready : Ready size state) (inside : level < size) (low : level + 1 ≤ 79) :
    ∃ state', step state (depthCharacter (level + 1)) = some state' ∧
      Counts size level 1 (max state.result (state.counter level + 1)) state state' ∧
      state'.counter (level + 1) = 0 := by
  obtain ⟨state1, incremented, size1, level1, result1, counter1⟩ := increment_spec ready inside
  obtain ⟨state2, cleared, size2, result2, counter2⟩ :=
    clear_spec (level + 1) size1 (level1 ▸ ready.upper)
  have zero : ∀ place : ℕ, level + 1 ≤ place → state2.counter place = 0 := by
    intro place above
    rw [counter2, counter1]
    split
    · rfl
    · rw [if_neg (by omega)]
      exact ready.clear place (by omega)
  refine ⟨{ state2 with currentLevel := ((level + 1 : ℕ) : ℤ) }, ?_, ⟨⟨size2, ?_, ?_, ?_, ?_⟩,
    ?_, ?_, ?_⟩, zero (level + 1) le_rfl⟩
  · simp only [step, depthOf_depthCharacter low, incremented, cleared, Option.bind_eq_bind,
      Option.bind_some]
  · exact Int.natCast_nonneg _
  · change ((level + 1 : ℕ) : ℤ) ≤ size
    omega
  · intro place above
    change ((level + 1 : ℕ) : ℤ) ≤ place at above
    exact zero place (by omega)
  · intro place
    change state2.counter place ≤ state2.result
    rw [result2, result1, counter2, counter1]
    have bounded := ready.bounded place
    split
    · exact Nat.zero_le _
    · split <;> omega
  · intro lower below
    change state2.counter lower = _
    rw [counter2, counter1, if_neg (by omega), if_neg (by omega)]
  · change state2.counter level = _
    rw [counter2, counter1, if_neg (by omega), if_pos rfl]
  · exact result2.trans result1

mutual

theorem run_walk : ∀ (tree : Rose) {state : DescendentCount} (level : ℕ), Ready size state →
    level + tree.height < size → level + 1 + tree.height ≤ 79 →
    ∃ state', Transition.run step state (walk depthCharacter (level + 1) tree) = some state' ∧
      Counts size level 1 (max (max state.result (state.counter level + 1)) tree.degree)
        state state'
  | .node children, state, level, ready, inside, low => by
      rw [Rose.height] at inside low
      obtain ⟨state1, stepped, counts1, clear1⟩ :=
        step_spec ready (lt_of_le_of_lt (Nat.le_add_right level _) inside) (by omega)
      obtain ⟨state2, ran, counts2⟩ :=
        run_walks children (level + 1) counts1.ready (by omega) (by omega)
      refine ⟨state2, ?_, counts2.ready, ?_, ?_, ?_⟩
      · rw [walk, Transition.run_cons, stepped, Option.bind_some, ran]
      · intro lower below
        rw [counts2.below lower (by omega), counts1.below lower below]
      · rw [counts2.below level (by omega), counts1.counter_eq]
      · rw [counts2.result_eq, counts1.result_eq, clear1, Rose.degree, Nat.zero_add]

theorem run_walks : ∀ (trees : List Rose) {state : DescendentCount} (level : ℕ),
    Ready size state → level + Rose.heights trees ≤ size → level + Rose.heights trees ≤ 79 →
    ∃ state', Transition.run step state (walks depthCharacter (level + 1) trees) = some state' ∧
      Counts size level trees.length
        (max state.result (max (state.counter level + trees.length) (Rose.degrees trees)))
        state state'
  | [], state, level, ready, _, _ => by
      have bounded := ready.bounded level
      refine ⟨state, by rw [walks, Transition.run_nil], ready, fun _ _ => rfl, rfl, ?_⟩
      rw [Rose.degrees, List.length_nil]
      omega
  | tree :: rest, state, level, ready, inside, low => by
      rw [Rose.heights] at inside low
      obtain ⟨state1, ran1, counts1⟩ := run_walk tree level ready (by omega) (by omega)
      obtain ⟨state2, ran2, counts2⟩ :=
        run_walks rest level counts1.ready (by omega) (by omega)
      refine ⟨state2, ?_, counts2.ready, ?_, ?_, ?_⟩
      · rw [walks, Transition.run_append_of_eq ran1, ran2]
      · intro lower below
        rw [counts2.below lower below, counts1.below lower below]
      · rw [counts2.counter_eq, counts1.counter_eq, List.length_cons]
        omega
      · rw [counts2.result_eq, counts1.result_eq, counts1.counter_eq, List.length_cons,
          Rose.degrees]
        omega

end

end DescendentCount

/-! ## Markers -/

/-- The string of a tree. -/
def treeString (colour : UInt8) (tree : Rose) : Text :=
  colour :: walk depthCharacter 0 tree

theorem findMaximumTreeDepth_treeString (colour : UInt8) {tree : Rose} (low : tree.height ≤ 79) :
    findMaximumTreeDepth (treeString colour tree) = tree.height := by
  rw [findMaximumTreeDepth, treeString, List.tail_cons, foldl_walk tree 0 0 (by omega)]
  omega

theorem findMaximumDescendentCount_treeString (colour : UInt8) {tree : Rose}
    (low : tree.height ≤ 79) :
    findMaximumDescendentCount (treeString colour tree) = some tree.degree := by
  cases tree with
  | node children =>
      rw [Rose.height] at low
      have inside : 0 + Rose.heights children ≤ (treeString colour (.node children)).length := by
        rw [treeString, List.length_cons, length_walk, Rose.size]
        have lower := Rose.heights_le_sizes children
        omega
      have ready : DescendentCount.Ready (treeString colour (.node children)).length
          ⟨List.replicate (treeString colour (.node children)).length 0, 0, 0⟩ := by
        have zero : ∀ level, (⟨List.replicate (treeString colour (.node children)).length 0, 0,
            0⟩ : DescendentCount).counter level = 0 := by
          intro level
          rw [DescendentCount.counter, List.getD_eq_getElem?_getD, List.getElem?_replicate]
          split <;> rfl
        exact ⟨List.length_replicate, le_rfl, Int.natCast_nonneg _, fun level _ => zero level,
          fun level => (zero level).le⟩
      obtain ⟨state, ran, counts⟩ := DescendentCount.run_walks children 0 ready inside (by omega)
      have first : DescendentCount.step ⟨List.replicate
          (treeString colour (.node children)).length 0, 0, 0⟩ (depthCharacter 0) =
          some ⟨List.replicate (treeString colour (.node children)).length 0, 0, 0⟩ := by
        simp only [DescendentCount.step, depthOf_depthCharacter (Nat.zero_le 79)]
        rfl
      have zero : (⟨List.replicate (treeString colour (.node children)).length 0, 0,
          0⟩ : DescendentCount).counter 0 = 0 := Nat.le_zero.mp (ready.bounded 0)
      rw [findMaximumDescendentCount]
      have tail : (treeString colour (.node children)).tail =
        depthCharacter 0 :: walks depthCharacter (0 + 1) children := rfl
      rw [tail, Transition.run_cons, first, Option.bind_some, ran]
      simp only [Option.bind_eq_bind, Option.bind_some, counts.result_eq, zero, Rose.degree]
      congr 1
      omega

end OfxPrimes.Fidtrack
