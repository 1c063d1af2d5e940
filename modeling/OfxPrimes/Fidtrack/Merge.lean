import OfxPrimes.Fidtrack.Adjacency

/-!
# Merged regions

When two regions turn out to be one, the second is merged into the first: what was
adjacent to either is adjacent to the first, or accounted for by its flags.
-/

namespace OfxPrimes.Fidtrack

open OfxPrimes.Graph Segmenter

variable {s s' s'' : Segmenter} {a b r r1 r2 : ℕ}

/-- The region that stands for `a` once `r2` is merged into `r1`. -/
def rename (r1 r2 a : ℕ) : ℕ :=
  if a = r2 then r1 else a

@[simp]
theorem rename_self (r1 r2 : ℕ) : rename r1 r2 r2 = r1 :=
  if_pos rfl

theorem rename_of_ne (apart : a ≠ r2) : rename r1 r2 a = a :=
  if_neg apart

/-- Up to the renaming, links are no more than they were, and whatever was accounted
for still is. -/
structure Folds (s s' : Segmenter) (r1 r2 : ℕ) : Prop where
  same : s'.withoutLinks = s.withoutLinks
  adjacency : s'.Adjacency
  linked : ∀ a < s.regionCount, ∀ b, s'.Linked a b →
    ∃ c d, c < s.regionCount ∧ s.Linked c d ∧
      rename r1 r2 c = rename r1 r2 a ∧ rename r1 r2 d = rename r1 r2 b
  accounted : ∀ a < s.regionCount, ∀ b < s.regionCount, s.Accounted a b →
    ∃ c d, c < s.regionCount ∧ d < s.regionCount ∧ s'.Accounted c d ∧
      rename r1 r2 c = rename r1 r2 a ∧ rename r1 r2 d = rename r1 r2 b

theorem Folds.refl (adjacency : s.Adjacency) (r1 r2 : ℕ) : Folds s s r1 r2 where
  same := rfl
  adjacency := adjacency
  linked a inside b linked := ⟨a, b, inside, linked, rfl, rfl⟩
  accounted a insideA b insideB accounted := ⟨a, b, insideA, insideB, accounted, rfl, rfl⟩

theorem Folds.trans (folds : Folds s s' r1 r2) (folds' : Folds s' s'' r1 r2) :
    Folds s s'' r1 r2 := by
  have count := regionCount_eq folds.same
  constructor
  · exact folds'.same.trans folds.same
  · exact folds'.adjacency
  · intro a insideA b linked
    obtain ⟨c, d, insideC, linked', sameC, sameD⟩ := folds'.linked a (count ▸ insideA) b linked
    obtain ⟨e, f, insideE, linked'', sameE, sameF⟩ := folds.linked c (count ▸ insideC) d linked'
    exact ⟨e, f, insideE, linked'', sameE.trans sameC, sameF.trans sameD⟩
  · intro a insideA b insideB accounted
    obtain ⟨c, d, insideC, insideD, accounted', sameC, sameD⟩ :=
      folds.accounted a insideA b insideB accounted
    obtain ⟨e, f, insideE, insideF, accounted'', sameE, sameF⟩ :=
      folds'.accounted c (count ▸ insideC) d (count ▸ insideD) accounted'
    exact ⟨e, f, count ▸ insideE, count ▸ insideF, accounted'', sameE.trans sameC,
      sameF.trans sameD⟩

theorem Isolates.folds (isolates : Isolates s s' r) (adjacency : s.Adjacency) (r1 r2 : ℕ) :
    Folds s s' r1 r2 where
  same := isolates.same
  adjacency := isolates.adjacency adjacency
  linked a insideA b linked :=
    ⟨a, b, insideA, isolates.linked_of_linked insideA linked, rfl, rfl⟩
  accounted a insideA b insideB accounted :=
    ⟨a, b, insideA, insideB, isolates.accounted adjacency insideA accounted, rfl, rfl⟩

/-! ## Common entries -/

/-- One link between `a` and `r2` goes, while `a` is linked to `r1` as well. -/
theorem folds_of_drop (adjacency : s.Adjacency) (distinct : r1 ≠ r2)
    (inside2 : r2 < s.regionCount) (insideA : a < s.regionCount)
    (apart : a ≠ r2) (common : s.Linked a r1)
    (same : s'.withoutLinks = s.withoutLinks)
    (flags : ∀ c, (s'.regions c).flags = (s.regions c).flags)
    (less : ∀ c d, s'.links c d +
      (if (c = a ∧ d = r2) ∨ (c = r2 ∧ d = a) then 1 else 0) = s.links c d) :
    Folds s s' r1 r2 := by
  have count := regionCount_eq same
  have le : ∀ c d, s'.links c d ≤ s.links c d := by
    intro c d
    rw [← less c d]
    exact Nat.le_add_right _ _
  have old : ∀ c d, s'.Linked c d → s.Linked c d := by
    intro c d linked
    exact linked_iff.mpr (Nat.lt_of_lt_of_le (linked_iff.mp linked) (le c d))
  have kept : ∀ c d, ¬ ((c = a ∧ d = r2) ∨ (c = r2 ∧ d = a)) → s.Linked c d → s'.Linked c d := by
    intro c d other linked
    rw [linked_iff, ← less c d, if_neg other] at linked
    exact linked_iff.mpr linked
  constructor
  · exact same
  · constructor
    · intro c insideC d linked
      rw [count] at insideC ⊢
      exact adjacency.closed c insideC d (old c d linked)
    · intro c insideC d insideD
      rw [count] at insideC insideD
      have before := adjacency.symmetric c insideC d insideD
      rw [← less c d, ← less d c] at before
      have swap : (if (c = a ∧ d = r2) ∨ (c = r2 ∧ d = a) then 1 else 0) =
          if (d = a ∧ c = r2) ∨ (d = r2 ∧ c = a) then 1 else 0 := by
        apply if_congr _ rfl rfl
        rw [or_comm, and_comm, and_comm (a := c = a)]
      rw [swap] at before
      exact Nat.add_right_cancel before
    · intro c insideC linked
      rw [count] at insideC
      exact adjacency.apart c insideC (old c c linked)
    · intro c insideC
      rw [count] at insideC
      rw [maxAdjacentRegions_eq same]
      apply le_trans _ (adjacency.bounded c insideC)
      apply List.Subperm.length_le
      rw [List.subperm_iff_count]
      exact le c
    · intro c insideC full
      rw [count] at insideC
      rw [flags] at full
      rw [List.eq_nil_iff_forall_not_mem]
      intro d linked
      have before := old c d linked
      rw [Linked, adjacency.saturated c insideC full] at before
      exact List.not_mem_nil before
  · intro c insideC d linked
    exact ⟨c, d, insideC, old c d linked, rfl, rfl⟩
  · intro c insideC d insideD accounted
    have inside1 := adjacency.closed a insideA r1 common
    have notA : r1 ≠ a := by
      rintro rfl
      exact adjacency.apart r1 insideA common
    have toFirst : s'.Linked a r1 := by
      apply kept a r1 _ common
      rintro (⟨_, same⟩ | ⟨same, _⟩)
      · exact distinct same
      · exact apart same
    have ofFirst : s'.Linked r1 a := by
      apply kept r1 a _ (adjacency.linked_symm insideA common)
      rintro (⟨same, _⟩ | ⟨same, _⟩)
      · exact notA same
      · exact distinct same
    rcases accounted with linked | cut
    · by_cases gone : (c = a ∧ d = r2) ∨ (c = r2 ∧ d = a)
      · rcases gone with ⟨rfl, rfl⟩ | ⟨rfl, rfl⟩
        · exact ⟨c, r1, insideA, inside1, Or.inl toFirst, rfl,
            by rw [rename_of_ne distinct, rename_self]⟩
        · exact ⟨r1, d, inside1, insideD, Or.inl ofFirst,
            by rw [rename_of_ne distinct, rename_self], rfl⟩
      · exact ⟨c, d, insideC, insideD, Or.inl (kept c d gone linked), rfl, rfl⟩
    · apply Exists.intro c
      apply Exists.intro d
      refine ⟨insideC, insideD, Or.inr ?_, rfl, rfl⟩
      rw [flags, flags]
      exact cut

theorem dropCommonAt_spec (adjacency : s.Adjacency) (distinct : r1 ≠ r2)
    (inside1 : r1 < s.regionCount) (inside2 : r2 < s.regionCount)
    (i : ℕ) :
    ∃ s', dropCommonAt r1 r2 s i = some s' ∧ Folds s s' r1 r2 ∧
      (∀ c, (s'.regions c).flags = (s.regions c).flags) ∧
      ∀ c d, s'.Linked c d → s.Linked c d := by
  rw [dropCommonAt]
  cases found : (s.regions r2).adjacentRegions[i]? with
  | none => exact ⟨s, rfl, .refl adjacency r1 r2, fun _ => rfl, fun _ _ => id⟩
  | some a =>
      have linked : s.Linked r2 a := List.mem_of_getElem? found
      have insideA := adjacency.closed r2 inside2 a linked
      have apart : a ≠ r2 := by
        rintro rfl
        exact adjacency.apart a inside2 linked
      have decided := isAdjacent_iff adjacency insideA inside1
      by_cases common : s.Linked a r1
      · obtain ⟨s1, removed, same1, flags1, others1, perm1⟩ :=
          removeAdjacentFrom_spec (adjacency.linked_symm inside2 linked)
        obtain ⟨inBounds, entry⟩ := List.getElem?_eq_some_iff.mp found
        have list2 := others1 r2 apart.symm
        have perm2 := swapRemoveAt_perm inBounds
        rw [entry] at perm2
        have lists : ∀ c, ((s1.setAdjacent r2
            (swapRemoveAt (s1.regions r2).adjacentRegions i)).regions c).adjacentRegions =
              if c = r2 then swapRemoveAt (s.regions r2).adjacentRegions i
              else (s1.regions c).adjacentRegions := by
          intro c
          rw [adjacent_setAdjacent, list2]
        have less : ∀ c d, (s1.setAdjacent r2
            (swapRemoveAt (s1.regions r2).adjacentRegions i)).links c d +
              (if (c = a ∧ d = r2) ∨ (c = r2 ∧ d = a) then 1 else 0) = s.links c d := by
          intro c d
          rw [links, links, lists]
          by_cases here2 : c = r2
          · subst here2
            have counted := perm2.count_eq d
            rw [List.count_cons] at counted
            rw [if_pos rfl, ← counted]
            by_cases isA : d = a
            · simp [isA]
            · simp [isA, apart.symm, Ne.symm isA]
          · rw [if_neg here2]
            by_cases hereA : c = a
            · subst hereA
              have counted := perm1.count_eq d
              rw [List.count_cons] at counted
              rw [← counted]
              by_cases is2 : d = r2
              · simp [is2]
              · simp [is2, here2, Ne.symm is2]
            · rw [others1 c hereA]
              simp [here2, hereA]
        refine ⟨_, ?_, folds_of_drop adjacency distinct inside2 insideA apart common ?_ ?_ less,
          ?_, ?_⟩
        · simp only [if_pos (decided.mpr common), removed, Option.bind_eq_bind, Option.bind_some]
        · rw [withoutLinks_setAdjacent, same1]
        · intro c
          rw [flags_setAdjacent, flags1]
        · intro c
          rw [flags_setAdjacent, flags1]
        · intro c d linkedAfter
          rw [linked_iff] at linkedAfter ⊢
          rw [← less c d]
          exact Nat.lt_of_lt_of_le linkedAfter (Nat.le_add_right _ _)
      · refine ⟨s, ?_, .refl adjacency r1 r2, fun _ => rfl, fun _ _ => id⟩
        exact if_neg (mt decided.mp common)

theorem dropCommon_spec (adjacency : s.Adjacency) (distinct : r1 ≠ r2)
    (inside1 : r1 < s.regionCount) (inside2 : r2 < s.regionCount) :
    ∃ s', dropCommon s r1 r2 = some s' ∧ Folds s s' r1 r2 ∧
      (∀ c, (s'.regions c).flags = (s.regions c).flags) ∧
      ∀ c d, s'.Linked c d → s.Linked c d := by
  apply Transition.exists_run_of_progress (fun s' => Folds s s' r1 r2 ∧
    (∀ c, (s'.regions c).flags = (s.regions c).flags) ∧ ∀ c d, s'.Linked c d → s.Linked c d)
  · rintro s1 ⟨folds, flags, linked⟩ i _
    have count := regionCount_eq folds.same
    obtain ⟨s2, dropped, folds', flags', linked'⟩ :=
      dropCommonAt_spec folds.adjacency distinct (count ▸ inside1) (count ▸ inside2) i
    refine ⟨s2, dropped, folds.trans folds', ?_, ?_⟩
    · intro c
      rw [flags', flags]
    · intro c d after
      exact linked c d (linked' c d after)
  · exact ⟨.refl adjacency r1 r2, fun _ => rfl, fun _ _ => id⟩

/-! ## Moved entries -/

/-- The entry that stands for `r2` in the list of `a` stands for `r1` from now on. -/
theorem transferAdjacent_spec {a : ℕ} (apart1 : a ≠ r1) (apart2 : a ≠ r2) (distinct : r1 ≠ r2)
    (linked : s.Linked a r2)
    (bounded : (s.regions a).adjacentRegions.length ≤ s.maxAdjacentRegions)
    (room : (s.regions r1).adjacentRegions.length < s.maxAdjacentRegions) :
    ∃ s', transferAdjacent r1 r2 s a = some s' ∧ s'.withoutLinks = s.withoutLinks ∧
      (∀ c, (s'.regions c).flags = (s.regions c).flags) ∧
      (∀ c, (s'.regions c).adjacentRegions.length =
        (s.regions c).adjacentRegions.length + if c = r1 then 1 else 0) ∧
      s'.links a r2 + 1 = s.links a r2 ∧
      (∀ c, c ≠ a → s'.links c r2 = s.links c r2) ∧
      ∀ c d, d ≠ r2 → s'.links c d = s.links c d +
        (if c = a ∧ d = r1 then 1 else 0) + (if c = r1 ∧ d = a then 1 else 0) := by
  obtain ⟨changed, replaced, perm⟩ := exists_replaceFirst linked r1
  have lengthChanged : changed.length = (s.regions a).adjacentRegions.length :=
    Nat.succ.inj perm.length_eq
  have list1 : ((s.setAdjacent a changed).regions r1).adjacentRegions =
      (s.regions r1).adjacentRegions := by
    rw [adjacent_setAdjacent, if_neg apart1.symm]
  have lists : ∀ c, (((s.setAdjacent a changed).setAdjacent r1
      ((s.regions r1).adjacentRegions ++ [a])).regions c).adjacentRegions =
        if c = r1 then (s.regions r1).adjacentRegions ++ [a]
        else if c = a then changed else (s.regions c).adjacentRegions := by
    intro c
    rw [adjacent_setAdjacent, adjacent_setAdjacent]
  have boundA : (((s.setAdjacent a changed).setAdjacent r1
      ((s.regions r1).adjacentRegions ++ [a])).regions a).adjacentRegions.length ≤
        s.maxAdjacentRegions := by
    rw [lists, if_neg apart1, if_pos rfl, lengthChanged]
    exact bounded
  have bound1 : (((s.setAdjacent a changed).setAdjacent r1
      ((s.regions r1).adjacentRegions ++ [a])).regions r1).adjacentRegions.length ≤
        s.maxAdjacentRegions := by
    rw [lists, if_pos rfl, List.length_append]
    exact room
  refine ⟨(s.setAdjacent a changed).setAdjacent r1 ((s.regions r1).adjacentRegions ++ [a]),
    ?_, ?_, ?_, ?_, ?_, ?_, ?_⟩
  · simp only [transferAdjacent, replaceAdjacent, replaced, Option.bind_eq_bind, Option.bind_some,
      list1]
    rw [guard_eq_some (by exact boundA), Option.bind_some, guard_eq_some (by exact bound1)]
    rfl
  · rw [withoutLinks_setAdjacent, withoutLinks_setAdjacent]
  · intro c
    rw [flags_setAdjacent, flags_setAdjacent]
  · intro c
    rw [lists]
    by_cases here1 : c = r1
    · rw [if_pos here1, if_pos here1, here1, List.length_append]
      rfl
    · rw [if_neg here1, if_neg here1]
      by_cases hereA : c = a
      · rw [if_pos hereA, hereA, lengthChanged]
        rfl
      · rw [if_neg hereA]
        rfl
  · rw [links, links, lists, if_neg apart1, if_pos rfl]
    have counted := perm.count_eq r2
    rw [List.count_cons_self, List.count_cons_of_ne distinct] at counted
    exact counted
  · intro c apartA
    rw [links, links, lists]
    by_cases here1 : c = r1
    · rw [if_pos here1, here1, List.count_append, List.count_singleton,
        if_neg (by simpa using apart2)]
      rfl
    · rw [if_neg here1, if_neg apartA]
  · intro c d apartD
    rw [links, links, lists]
    by_cases here1 : c = r1
    · subst here1
      rw [if_pos rfl, if_neg (fun both => apart1 both.1.symm), List.count_append,
        List.count_singleton]
      by_cases isA : d = a
      · simp [isA]
      · simp [isA, Ne.symm isA]
    · rw [if_neg here1, if_neg (c := c = r1 ∧ d = a) (fun both => here1 both.1)]
      by_cases hereA : c = a
      · subst hereA
        have counted := perm.count_eq d
        rw [List.count_cons_of_ne apartD.symm, List.count_cons] at counted
        rw [if_pos rfl, counted]
        by_cases is1 : d = r1
        · simp [is1]
        · simp [is1, Ne.symm is1]
      · rw [if_neg hereA, if_neg (fun both => hereA both.1)]
        rfl

/-- The loop that moves the entries, where `todo` is what is left of the list of `r2`. -/
theorem transferLoop_spec {todo : List ℕ} (distinct : r1 ≠ r2)
    (notFirst : r1 ∉ todo) (notSecond : r2 ∉ todo)
    (inside : ∀ a ∈ todo, a < s.regionCount)
    (counts : ∀ a < s.regionCount, a ≠ r2 → s.links a r2 = todo.count a)
    (bounded : ∀ a < s.regionCount,
      (s.regions a).adjacentRegions.length ≤ s.maxAdjacentRegions)
    (inside1 : r1 < s.regionCount)
    (room : (s.regions r1).adjacentRegions.length + todo.length ≤ s.maxAdjacentRegions) :
    ∃ s', Transition.run (transferAdjacent r1 r2) s todo = some s' ∧
      s'.withoutLinks = s.withoutLinks ∧
      (∀ c, (s'.regions c).flags = (s.regions c).flags) ∧
      (∀ c < s.regionCount, (s'.regions c).adjacentRegions.length ≤ s.maxAdjacentRegions) ∧
      (∀ c < s.regionCount, c ≠ r2 → s'.links c r2 = 0) ∧
      ∀ c d, d ≠ r2 → s'.links c d = s.links c d +
        (if d = r1 then todo.count c else 0) + (if c = r1 then todo.count d else 0) := by
  induction todo generalizing s with
  | nil =>
      refine ⟨s, rfl, rfl, fun _ => rfl, bounded, counts, ?_⟩
      intro c d _
      simp
  | cons a todo ih =>
      have apart1 : a ≠ r1 := fun same => notFirst (same ▸ List.mem_cons_self)
      have apart2 : a ≠ r2 := fun same => notSecond (same ▸ List.mem_cons_self)
      have insideA := inside a List.mem_cons_self
      have linked : s.Linked a r2 := by
        rw [linked_iff, counts a insideA apart2, List.count_cons_self]
        exact Nat.succ_pos _
      rw [List.length_cons] at room
      obtain ⟨s1, moved, same1, flags1, length1, here1, others1, links1⟩ :=
        transferAdjacent_spec apart1 apart2 distinct linked (bounded a insideA)
          (Nat.lt_of_lt_of_le (Nat.lt_add_of_pos_right (Nat.succ_pos _)) room)
      have count1 := regionCount_eq same1
      have max1 := maxAdjacentRegions_eq same1
      have room1 : (s1.regions r1).adjacentRegions.length + todo.length ≤
          s1.maxAdjacentRegions := by
        rw [length1, if_pos rfl, max1, Nat.add_assoc, Nat.add_comm 1]
        exact room
      have counts1 : ∀ c < s1.regionCount, c ≠ r2 → s1.links c r2 = todo.count c := by
        intro c insideC apartC
        have before := counts c (count1 ▸ insideC) apartC
        rw [List.count_cons] at before
        by_cases hereA : c = a
        · subst hereA
          rw [← here1, if_pos (by simp)] at before
          exact Nat.succ.inj before
        · rw [others1 c hereA, before, if_neg (by simpa using Ne.symm hereA)]
          rfl
      have bounded1 : ∀ c < s1.regionCount,
          (s1.regions c).adjacentRegions.length ≤ s1.maxAdjacentRegions := by
        intro c insideC
        by_cases isFirst : c = r1
        · rw [isFirst]
          exact le_trans (Nat.le_add_right _ _) room1
        · rw [length1, if_neg isFirst, max1]
          exact bounded c (count1 ▸ insideC)
      obtain ⟨s', loop, same, flags, lengths, gone, links⟩ :=
        @ih s1 (fun mem => notFirst (List.mem_cons_of_mem a mem))
          (fun mem => notSecond (List.mem_cons_of_mem a mem))
          (fun c mem => count1 ▸ inside c (List.mem_cons_of_mem a mem)) counts1 bounded1
          (count1 ▸ inside1) room1
      refine ⟨s', ?_, same.trans same1, ?_, ?_, ?_, ?_⟩
      · rw [Transition.run_cons, moved]
        exact loop
      · intro c
        rw [flags, flags1]
      · intro c insideC
        rw [← max1]
        exact lengths c (count1 ▸ insideC)
      · intro c insideC
        exact gone c (count1 ▸ insideC)
      · intro c d apartD
        have countCons : ∀ x, (a :: todo).count x = todo.count x + if x = a then 1 else 0 := by
          intro x
          rw [List.count_cons]
          by_cases isA : x = a
          · simp [isA]
          · simp [isA, Ne.symm isA]
        rw [links c d apartD, links1 c d apartD, countCons, countCons]
        by_cases isFirst : d = r1 <;> by_cases here : c = r1 <;>
          by_cases hereA : c = a <;> by_cases isA : d = a <;> simp [*] <;> omega

/-- What the part of `merge_regions` about the lists does. -/
structure Absorbs (s s' : Segmenter) (r1 r2 : ℕ) : Prop where
  folds : Folds s s' r1 r2
  emptied : (s'.regions r2).adjacentRegions = []
  full : (s'.regions r2).flags.saturated = true → (s'.regions r1).flags.saturated = true

/-- All entries of `r2` are moved to `r1`. -/
theorem absorbs_of_transfer (adjacency : s.Adjacency) (distinct : r1 ≠ r2)
    (inside1 : r1 < s.regionCount) (inside2 : r2 < s.regionCount)
    (free1 : (s.regions r1).flags.saturated ≠ true) (free2 : (s.regions r2).flags.saturated ≠ true)
    (unlinked : ¬ s.Linked r2 r1)
    (room : (s.regions r1).adjacentRegions.length + (s.regions r2).adjacentRegions.length ≤
      s.maxAdjacentRegions) :
    ∃ s', Transition.run (transferAdjacent r1 r2) s (s.regions r2).adjacentRegions = some s' ∧
      Absorbs s (s'.setAdjacent r2 []) r1 r2 := by
  obtain ⟨s1, loop, same1, flags1, length1, gone1, links1⟩ :=
    transferLoop_spec distinct unlinked (adjacency.apart r2 inside2)
      (fun a linked => adjacency.closed r2 inside2 a linked)
      (fun a insideA _ => adjacency.symmetric a insideA r2 inside2) adjacency.bounded inside1 room
  have count := regionCount_eq same1
  have flags : ∀ c, ((s1.setAdjacent r2 []).regions c).flags = (s.regions c).flags := by
    intro c
    rw [flags_setAdjacent, flags1]
  have emptied : ((s1.setAdjacent r2 []).regions r2).adjacentRegions = [] := by
    rw [adjacent_setAdjacent, if_pos rfl]
  have linksFrom : ∀ d, (s1.setAdjacent r2 []).links r2 d = 0 := by
    intro d
    rw [links, emptied]
    rfl
  have linksTo : ∀ c < s.regionCount, (s1.setAdjacent r2 []).links c r2 = 0 := by
    intro c insideC
    rw [links, adjacent_setAdjacent]
    by_cases here2 : c = r2
    · rw [if_pos here2]
      rfl
    · rw [if_neg here2]
      exact gone1 c insideC here2
  have linksOther : ∀ c d, c ≠ r2 → d ≠ r2 → (s1.setAdjacent r2 []).links c d = s.links c d +
      (if d = r1 then s.links r2 c else 0) + (if c = r1 then s.links r2 d else 0) := by
    intro c d apartC apartD
    rw [links, adjacent_setAdjacent, if_neg apartC]
    exact links1 c d apartD
  have linkedIff : ∀ c d, c ≠ r2 → d ≠ r2 → ((s1.setAdjacent r2 []).Linked c d ↔
      s.Linked c d ∨ (d = r1 ∧ s.Linked r2 c) ∨ (c = r1 ∧ s.Linked r2 d)) := by
    intro c d apartC apartD
    rw [linked_iff, linksOther c d apartC apartD, linked_iff, linked_iff, linked_iff]
    by_cases isFirst : d = r1 <;> by_cases here : c = r1 <;>
      simp only [isFirst, here, if_true, if_false, true_and, false_and, or_false, false_or] <;>
      omega
  have adjacency' : (s1.setAdjacent r2 []).Adjacency := by
    constructor
    · intro c insideC d linked
      rw [setAdjacent_regionCount, count] at insideC ⊢
      by_cases apartC : c = r2
      · rw [linked_iff, apartC, linksFrom] at linked
        exact absurd linked (lt_irrefl 0)
      · by_cases apartD : d = r2
        · exact apartD ▸ inside2
        · rcases (linkedIff c d apartC apartD).mp linked with old | ⟨rfl, _⟩ | ⟨rfl, linked2⟩
          · exact adjacency.closed c insideC d old
          · exact inside1
          · exact adjacency.closed r2 inside2 d linked2
    · intro c insideC d insideD
      rw [setAdjacent_regionCount, count] at insideC insideD
      by_cases apartC : c = r2
      · rw [apartC, linksFrom, linksTo d insideD]
      · by_cases apartD : d = r2
        · rw [apartD, linksFrom, linksTo c insideC]
        · rw [linksOther c d apartC apartD, linksOther d c apartD apartC,
            adjacency.symmetric c insideC d insideD, Nat.add_right_comm]
    · intro c insideC linked
      rw [setAdjacent_regionCount, count] at insideC
      by_cases apartC : c = r2
      · rw [linked_iff, apartC, linksFrom] at linked
        exact absurd linked (lt_irrefl 0)
      · rcases (linkedIff c c apartC apartC).mp linked with old | ⟨rfl, old⟩ | ⟨rfl, old⟩
        · exact adjacency.apart c insideC old
        · exact unlinked old
        · exact unlinked old
    · intro c insideC
      rw [setAdjacent_regionCount, count] at insideC
      rw [adjacent_setAdjacent]
      have maxEq : (s1.setAdjacent r2 []).maxAdjacentRegions = s.maxAdjacentRegions :=
        maxAdjacentRegions_eq ((withoutLinks_setAdjacent s1 r2 []).trans same1)
      rw [maxEq]
      by_cases here2 : c = r2
      · rw [if_pos here2]
        exact Nat.zero_le _
      · rw [if_neg here2]
        exact length1 c insideC
    · intro c insideC fullC
      rw [setAdjacent_regionCount, count] at insideC
      rw [flags] at fullC
      have before := adjacency.saturated c insideC fullC
      have apartC : c ≠ r2 := by
        rintro rfl
        exact free2 fullC
      have apart1 : c ≠ r1 := by
        rintro rfl
        exact free1 fullC
      rw [List.eq_nil_iff_forall_not_mem]
      intro d linked
      by_cases apartD : d = r2
      · rw [apartD] at linked
        have none := linksTo c insideC
        rw [← not_linked_iff] at none
        exact none linked
      · rcases (linkedIff c d apartC apartD).mp linked with old | ⟨_, old⟩ | ⟨same, _⟩
        · rw [Linked, before] at old
          exact List.not_mem_nil old
        · have back := adjacency.linked_symm inside2 old
          rw [Linked, before] at back
          exact List.not_mem_nil back
        · exact apart1 same
  refine ⟨s1, loop, ⟨?_, adjacency', ?_, ?_⟩, emptied, ?_⟩
  · rw [withoutLinks_setAdjacent, same1]
  · intro c insideC d linked
    have apartC : c ≠ r2 := by
      rintro rfl
      rw [linked_iff, linksFrom] at linked
      exact lt_irrefl 0 linked
    have apartD : d ≠ r2 := by
      rintro rfl
      rw [linked_iff, linksTo c insideC] at linked
      exact lt_irrefl 0 linked
    rcases (linkedIff c d apartC apartD).mp linked with old | ⟨rfl, old⟩ | ⟨rfl, old⟩
    · exact ⟨c, d, insideC, old, rfl, rfl⟩
    · exact ⟨c, r2, insideC, adjacency.linked_symm inside2 old, rfl,
        by rw [rename_self, rename_of_ne distinct]⟩
    · exact ⟨r2, d, inside2, old, by rw [rename_self, rename_of_ne distinct], rfl⟩
  · intro c insideC d insideD accounted
    rcases accounted with linked | cut
    · by_cases here2 : c = r2
      · subst here2
        have apartD : d ≠ c := by
          rintro rfl
          exact adjacency.apart d inside2 linked
        refine ⟨r1, d, inside1, insideD, Or.inl ?_, by rw [rename_self, rename_of_ne distinct], rfl⟩
        exact (linkedIff r1 d distinct apartD).mpr (Or.inr (Or.inr ⟨rfl, linked⟩))
      · by_cases there2 : d = r2
        · subst there2
          refine ⟨c, r1, insideC, inside1, Or.inl ?_, rfl,
            by rw [rename_self, rename_of_ne distinct]⟩
          exact (linkedIff c r1 here2 distinct).mpr
            (Or.inr (Or.inl ⟨rfl, adjacency.linked_symm insideC linked⟩))
        · refine ⟨c, d, insideC, insideD, Or.inl ?_, rfl, rfl⟩
          exact (linkedIff c d here2 there2).mpr (Or.inl linked)
    · refine ⟨c, d, insideC, insideD, Or.inr ?_, rfl, rfl⟩
      rw [flags, flags]
      exact cut
  · intro fullAfter
    rw [flags] at fullAfter
    exact absurd fullAfter free2

theorem mergeAdjacent_spec (adjacency : s.Adjacency) (distinct : r1 ≠ r2)
    (inside1 : r1 < s.regionCount) (inside2 : r2 < s.regionCount) (unlinked : ¬ s.Linked r2 r1) :
    ∃ s', mergeAdjacent s r1 r2 = some s' ∧ Absorbs s s' r1 r2 := by
  rw [mergeAdjacent]
  by_cases full1 : (s.regions r1).flags.saturated = true
  · obtain ⟨s1, saturate1, isolates1⟩ := makeSaturated_spec adjacency inside2
    have adjacency1 := isolates1.adjacency adjacency
    have count1 := regionCount_eq isolates1.same
    have full2 := (isolates1.saturated r2).mpr (Or.inr rfl)
    obtain ⟨s2, saturate2, isolates2⟩ := makeSaturated_spec adjacency1 (count1 ▸ inside1)
    refine ⟨s2, ?_, ?_⟩
    · simp only [if_pos full1, saturate1, Option.bind_eq_bind, Option.bind_some, if_pos full2,
        saturate2]
    · refine ⟨(isolates1.folds adjacency r1 r2).trans (isolates2.folds adjacency1 r1 r2), ?_, ?_⟩
      · exact (isolates2.adjacency adjacency1).saturated r2
          (by rw [regionCount_eq isolates2.same, count1]; exact inside2)
          ((isolates2.saturated r2).mpr (Or.inl full2))
      · intro _
        exact (isolates2.saturated r1).mpr (Or.inr rfl)
  rw [if_neg full1]
  by_cases full2 : (s.regions r2).flags.saturated = true
  · rw [if_pos full2]
    obtain ⟨s1, saturate1, isolates1⟩ := makeSaturated_spec adjacency inside1
    refine ⟨s1, saturate1, isolates1.folds adjacency r1 r2, ?_, ?_⟩
    · exact (isolates1.adjacency adjacency).saturated r2
        (by rw [regionCount_eq isolates1.same]; exact inside2)
        ((isolates1.saturated r2).mpr (Or.inl full2))
    · intro _
      exact (isolates1.saturated r1).mpr (Or.inr rfl)
  rw [if_neg full2]
  obtain ⟨s1, dropped, folds1, flags1, linked1⟩ :=
    dropCommon_spec adjacency distinct inside1 inside2
  have count1 := regionCount_eq folds1.same
  by_cases crowded : (s1.regions r1).adjacentRegions.length +
      (s1.regions r2).adjacentRegions.length > s1.maxAdjacentRegions
  · obtain ⟨s2, saturate2, isolates2⟩ := makeSaturated_spec folds1.adjacency (count1 ▸ inside1)
    have adjacency2 := isolates2.adjacency folds1.adjacency
    have count2 := regionCount_eq isolates2.same
    obtain ⟨s3, saturate3, isolates3⟩ :=
      makeSaturated_spec adjacency2 (r := r2) (by rw [count2, count1]; exact inside2)
    refine ⟨s3, ?_, ?_⟩
    · simp only [dropped, Option.bind_eq_bind, Option.bind_some, if_pos crowded, saturate2,
        saturate3]
    · refine ⟨(folds1.trans (isolates2.folds folds1.adjacency r1 r2)).trans
        (isolates3.folds adjacency2 r1 r2), isolates3.emptied, ?_⟩
      intro _
      exact (isolates3.saturated r1).mpr (Or.inl ((isolates2.saturated r1).mpr (Or.inr rfl)))
  · obtain ⟨s2, loop, absorbs⟩ := absorbs_of_transfer folds1.adjacency distinct
      (count1 ▸ inside1) (count1 ▸ inside2) (by rw [flags1]; exact full1)
      (by rw [flags1]; exact full2) (fun linked => unlinked (linked1 r2 r1 linked))
      (Nat.le_of_not_gt crowded)
    refine ⟨s2.setAdjacent r2 [], ?_, folds1.trans absorbs.folds, absorbs.emptied, absorbs.full⟩
    simp only [dropped, Option.bind_eq_bind, Option.bind_some, if_neg crowded, loop]

/-! ## The merge -/

/-- What `merge_regions` does: `r1` stands for both regions from then on, and `r2` is
adjacent to none. -/
structure Merges (s s' : Segmenter) (r1 r2 : ℕ) : Prop where
  same : s'.withoutLinks =
    (s.modifyRegion r1 fun region => mergeBox region (s.regions r2)).withoutLinks
  adjacency : s'.Adjacency
  emptied : (s'.regions r2).adjacentRegions = []
  linked : ∀ a < s.regionCount, ∀ b, s'.Linked a b →
    ∃ c d, c < s.regionCount ∧ s.Linked c d ∧ rename r1 r2 c = a ∧ rename r1 r2 d = b
  accounted : ∀ a < s.regionCount, ∀ b < s.regionCount, s.Accounted a b →
    s'.Accounted (rename r1 r2 a) (rename r1 r2 b)

@[simp]
theorem bare_mergeBox (region merged : Region) :
    bare (mergeBox region merged) = mergeBox (bare region) (bare merged) :=
  rfl

/-- Once the lists are dealt with, the flags and the box of `r1` complete the merge. -/
theorem Absorbs.merges (absorbs : Absorbs s s' r1 r2) (distinct : r1 ≠ r2)
    (inside2 : r2 < s.regionCount) :
    Merges s (s'.modifyRegion r1 fun region => mergeBox region (s'.regions r2)) r1 r2 := by
  have count := regionCount_eq absorbs.folds.same
  have bareSame : ∀ a, bare (s'.regions a) = bare (s.regions a) := by
    intro a
    have equal := congrArg (fun t : Segmenter => t.regions a) absorbs.folds.same
    exact equal
  have lists : ∀ a, ((s'.modifyRegion r1 fun region =>
      mergeBox region (s'.regions r2)).regions a).adjacentRegions =
        (s'.regions a).adjacentRegions := by
    intro a
    rw [regions_modifyRegion]
    split <;> rfl
  have linkedIff : ∀ a b, (s'.modifyRegion r1 fun region =>
      mergeBox region (s'.regions r2)).Linked a b ↔ s'.Linked a b := by
    intro a b
    rw [Linked, lists]
    rfl
  have saturatedIff : ∀ a, ((s'.modifyRegion r1 fun region =>
      mergeBox region (s'.regions r2)).regions a).flags.saturated = true ↔
        (s'.regions a).flags.saturated = true := by
    intro a
    rw [regions_modifyRegion]
    by_cases here : a = r1
    · subst here
      rw [if_pos rfl]
      change ((s'.regions a).flags.saturated || (s'.regions r2).flags.saturated) = true ↔ _
      rw [Bool.or_eq_true]
      exact ⟨fun either => either.elim id absorbs.full, Or.inl⟩
    · rw [if_neg here]
  have fragmentedOf : ∀ a, (s'.regions a).flags.fragmented = true →
      ((s'.modifyRegion r1 fun region =>
        mergeBox region (s'.regions r2)).regions (rename r1 r2 a)).flags.fragmented = true := by
    intro a cut
    rw [regions_modifyRegion]
    by_cases here2 : a = r2
    · subst here2
      rw [rename_self, if_pos rfl]
      change ((s'.regions r1).flags.fragmented || (s'.regions a).flags.fragmented) = true
      rw [cut, Bool.or_true]
    · rw [rename_of_ne here2]
      by_cases here : a = r1
      · subst here
        rw [if_pos rfl]
        change ((s'.regions a).flags.fragmented || (s'.regions r2).flags.fragmented) = true
        rw [cut, Bool.true_or]
      · rw [if_neg here]
        exact cut
  have saturatedOf : ∀ a, (s'.regions a).flags.saturated = true →
      ((s'.modifyRegion r1 fun region =>
        mergeBox region (s'.regions r2)).regions (rename r1 r2 a)).flags.saturated = true := by
    intro a fullA
    rw [saturatedIff]
    by_cases here2 : a = r2
    · subst here2
      rw [rename_self]
      exact absorbs.full fullA
    · rw [rename_of_ne here2]
      exact fullA
  have apart2 : ∀ a < s.regionCount, ∀ b, s'.Linked a b → a ≠ r2 ∧ b ≠ r2 := by
    intro a insideA b linked
    have never : ∀ c, ¬ s'.Linked r2 c := by
      intro c
      rw [Linked, absorbs.emptied]
      exact List.not_mem_nil
    constructor
    · rintro rfl
      exact never b linked
    · rintro rfl
      exact never a (absorbs.folds.adjacency.linked_symm (count ▸ insideA) linked)
  constructor
  · have regions : ∀ a, bare ((s'.modifyRegion r1 fun region =>
        mergeBox region (s'.regions r2)).regions a) =
          bare ((s.modifyRegion r1 fun region => mergeBox region (s.regions r2)).regions a) := by
      intro a
      rw [regions_modifyRegion, regions_modifyRegion]
      by_cases here : a = r1
      · rw [if_pos here, if_pos here, bare_mergeBox, bare_mergeBox, bareSame, bareSame]
      · rw [if_neg here, if_neg here, bareSame]
    have whole : s'.withoutLinks = s.withoutLinks := absorbs.folds.same
    calc
      (s'.modifyRegion r1 fun region => mergeBox region (s'.regions r2)).withoutLinks
          = { s'.withoutLinks with regions := fun a => bare ((s'.modifyRegion r1 fun region =>
              mergeBox region (s'.regions r2)).regions a) } := rfl
      _ = { s.withoutLinks with regions := fun a => bare ((s.modifyRegion r1 fun region =>
              mergeBox region (s.regions r2)).regions a) } := by
            rw [whole, funext regions]
      _ = _ := rfl
  · constructor
    · intro a insideA b linked
      exact absorbs.folds.adjacency.closed a insideA b ((linkedIff a b).mp linked)
    · intro a insideA b insideB
      rw [links, links, lists, lists]
      exact absorbs.folds.adjacency.symmetric a insideA b insideB
    · intro a insideA linked
      exact absorbs.folds.adjacency.apart a insideA ((linkedIff a a).mp linked)
    · intro a insideA
      rw [lists]
      exact absorbs.folds.adjacency.bounded a insideA
    · intro a insideA fullA
      rw [lists]
      exact absorbs.folds.adjacency.saturated a insideA ((saturatedIff a).mp fullA)
  · rw [lists]
    exact absorbs.emptied
  · intro a insideA b linked
    have linked' := (linkedIff a b).mp linked
    obtain ⟨apartA, apartB⟩ := apart2 a insideA b linked'
    obtain ⟨c, d, insideC, old, sameC, sameD⟩ := absorbs.folds.linked a insideA b linked'
    rw [rename_of_ne apartA] at sameC
    rw [rename_of_ne apartB] at sameD
    exact ⟨c, d, insideC, old, sameC, sameD⟩
  · intro a insideA b insideB accounted
    obtain ⟨c, d, insideC, insideD, after, sameC, sameD⟩ :=
      absorbs.folds.accounted a insideA b insideB accounted
    rw [← sameC, ← sameD]
    rcases after with linked | ⟨fullC, cutD⟩ | ⟨fullD, cutC⟩
    · obtain ⟨apartC, apartD⟩ := apart2 c insideC d linked
      left
      rw [rename_of_ne apartC, rename_of_ne apartD, linkedIff]
      exact linked
    · exact Or.inr (Or.inl ⟨saturatedOf c fullC, fragmentedOf d cutD⟩)
    · exact Or.inr (Or.inr ⟨saturatedOf d fullD, fragmentedOf c cutC⟩)

/-- `merge_regions` breaks no assertion. -/
theorem mergeRegions_spec (adjacency : s.Adjacency) (distinct : r1 ≠ r2)
    (inside1 : r1 < s.regionCount) (inside2 : r2 < s.regionCount) (unlinked : ¬ s.Linked r2 r1) :
    ∃ s', mergeRegions s r1 r2 = some s' ∧ Merges s s' r1 r2 := by
  obtain ⟨s1, merged, absorbs⟩ := mergeAdjacent_spec adjacency distinct inside1 inside2 unlinked
  have neither : ¬ r1AdjacentContainsR2 s r1 r2 = true ∧ ¬ r1AdjacentContainsR2 s r2 r1 = true := by
    rw [r1AdjacentContainsR2, r1AdjacentContainsR2, List.contains_iff_mem, List.contains_iff_mem]
    exact ⟨fun linked => unlinked (adjacency.linked_symm inside1 linked), unlinked⟩
  refine ⟨_, ?_, absorbs.merges distinct inside2⟩
  simp only [mergeRegions, guard_eq_some distinct, guard_eq_some neither, Option.bind_eq_bind,
    Option.bind_some, merged]

end OfxPrimes.Fidtrack
