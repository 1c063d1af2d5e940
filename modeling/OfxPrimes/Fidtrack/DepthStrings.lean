import OfxPrimes.Fidtrack.Climbing
import Mathlib.Data.List.Lex

/-!
# Depth strings

The regions next to a region are sorted by their strings, and the strings are
joined.  In a string with depths that fit a character, the order of the trees is left
heavy.
-/

namespace OfxPrimes.Fidtrack

open Forest
open OfxPrimes.Search (TotalPreorder)

/-! ## The order -/

/-- The numbers of the characters of a string, which are compared in their order. -/
def codes (text : Text) : List ℕ :=
  text.map UInt8.toNat

theorem strcmp_sign (a b : Text) :
    (strcmp a b < 0 ↔ codes a < codes b) ∧ (0 < strcmp a b ↔ codes b < codes a) := by
  induction a generalizing b with
  | nil => cases b <;> simp [strcmp, codes]
  | cons first rest ih =>
      cases b with
      | nil => simp [strcmp, codes]
      | cons first' rest' =>
          simp only [strcmp, codes, List.map_cons, List.cons_lt_cons_iff, UInt8.lt_iff_toNat_lt]
          by_cases same : first = first'
          · subst same
            simp only [if_true, lt_irrefl, true_and, false_or]
            exact ih rest'
          · have differ : first.toNat ≠ first'.toNat := fun equal => same (UInt8.toNat_inj.mp equal)
            rcases Nat.lt_or_gt_of_ne differ with lower | higher
            · simp [same, lower, lower.not_gt, differ.symm]
            · simp [same, higher, higher.not_gt, differ]

theorem eq_of_strcmp {a b : Text} (equal : strcmp a b = 0) : a = b := by
  obtain ⟨below, above⟩ := strcmp_sign a b
  have notBelow : ¬ codes a < codes b := fun lower => (below.mpr lower).ne equal
  have notAbove : ¬ codes b < codes a := fun higher => (above.mpr higher).ne' equal
  have injective : Function.Injective UInt8.toNat := fun _ _ same => UInt8.toNat_inj.mp same
  exact injective.list_map (le_antisymm (not_lt.mp notAbove) (not_lt.mp notBelow))

/-- The greater string comes first. -/
def heavierFirst (a b : Text) : ℤ :=
  -strcmp a b

theorem heavierFirst_le_iff (a b : Text) : heavierFirst a b ≤ 0 ↔ codes b ≤ codes a := by
  rw [heavierFirst, neg_nonpos, ← not_lt, (strcmp_sign a b).1, not_lt]

theorem heavierFirst_order : TotalPreorder heavierFirst where
  swap a b := by
    rw [heavierFirst, heavierFirst, neg_lt_zero, neg_pos, (strcmp_sign a b).2,
      (strcmp_sign b a).1]
  trans a b c left right := by
    rw [heavierFirst_le_iff] at *
    exact right.trans left

theorem eq_of_heavierFirst {a b : Text} (equal : heavierFirst a b = 0) : a = b :=
  eq_of_strcmp (neg_eq_zero.mp equal)

/-- Depths up to 207 have characters of their own, of which none is NUL. -/
theorem depthCharacter_injective {m n : ℕ} (lowM : m ≤ 207) (lowN : n ≤ 207)
    (same : depthCharacter m = depthCharacter n) : m = n := by
  have equal := congrArg UInt8.toNat same
  rw [depthCharacter, depthCharacter, UInt8.toNat_ofNat', UInt8.toNat_ofNat',
    Nat.mod_eq_of_lt (by omega), Nat.mod_eq_of_lt (by omega)] at equal
  omega

theorem depthCharacter_ne_zero {m : ℕ} (low : m ≤ 207) : depthCharacter m ≠ 0 := by
  intro isNul
  have equal := congrArg UInt8.toNat isNul
  rw [depthCharacter, UInt8.toNat_ofNat', Nat.mod_eq_of_lt (by omega)] at equal
  exact absurd equal (by simp)

theorem ofInt_depth {level : ℕ} (low : level ≤ 207) :
    UInt8.ofInt (48 + level) = depthCharacter level := by
  rw [UInt8.ofInt, depthCharacter]
  congr 1
  omega

theorem legible : Legible depthCharacter heavierFirst 207 where
  injective _ lowM _ lowN := depthCharacter_injective lowM lowN
  order := heavierFirst_order
  zero _ _ _ _ := eq_of_heavierFirst

/-- What the tracker writes of a tree whose root is at a depth. -/
abbrev leftHeavyString (depth : ℕ) (tree : Rose) : Text :=
  leftHeavy depthCharacter heavierFirst depth tree

theorem cStr_leftHeavyString {depth : ℕ} {tree : Rose} (low : depth + tree.height ≤ 207) :
    cStr (leftHeavyString depth tree) = leftHeavyString depth tree := by
  apply cStr_eq_self
  intro mem
  obtain ⟨level, _, below, isNul⟩ := exists_of_mem_leftHeavy tree mem
  exact depthCharacter_ne_zero (below.trans low) isNul.symm

/-! ## Sorting the regions -/

theorem depthStringCmp_order : TotalPreorder depthStringCmp where
  swap a b := by
    cases a with
    | none => cases b <;> simp [depthStringCmp]
    | some a =>
        cases b with
        | none => simp [depthStringCmp]
        | some b => exact heavierFirst_order.swap (cStr a) (cStr b)
  trans a b c left right := by
    cases a with
    | none =>
        cases b with
        | none => exact right
        | some b => exact absurd left (by simp [depthStringCmp])
    | some a =>
        cases c with
        | none => simp [depthStringCmp]
        | some c =>
            cases b with
            | none => exact absurd right (by simp [depthStringCmp])
            | some b => exact heavierFirst_order.trans left right

/-- The strings of the sorted regions are the sorted strings. -/
theorem filterMap_insertionSort (strings : ℕ → Option Text) (list : List ℕ)
    (plain : ∀ a ∈ list, ∀ text, strings a = some text → cStr text = text) :
    (list.insertionSort fun a b => depthStringCmp (strings a) (strings b) ≤ 0).filterMap strings =
      (list.filterMap strings).insertionSort fun first second => heavierFirst first second ≤ 0 := by
  have totalRegions : Std.Total fun a b => depthStringCmp (strings a) (strings b) ≤ 0 :=
    ⟨fun a b => by
      have swapped := depthStringCmp_order.swap (strings b) (strings a)
      omega⟩
  have transRegions : IsTrans ℕ fun a b => depthStringCmp (strings a) (strings b) ≤ 0 :=
    ⟨fun _ _ _ left right => depthStringCmp_order.trans left right⟩
  have total : Std.Total fun first second => heavierFirst first second ≤ 0 :=
    ⟨fun first second => by
      have swapped := heavierFirst_order.swap second first
      omega⟩
  have transitive : IsTrans Text fun first second => heavierFirst first second ≤ 0 :=
    ⟨fun _ _ _ left right => heavierFirst_order.trans left right⟩
  have sorted := List.pairwise_insertionSort
    (fun a b => depthStringCmp (strings a) (strings b) ≤ 0) list
  have perm := List.perm_insertionSort
    (fun a b => depthStringCmp (strings a) (strings b) ≤ 0) list
  apply List.Perm.eq_of_pairwise _ _ (List.pairwise_insertionSort _ _)
  · exact (perm.filterMap strings).trans (List.perm_insertionSort _ _).symm
  · intro first second _ _ left right
    have swapped := heavierFirst_order.swap first second
    apply eq_of_heavierFirst
    omega
  · rw [List.pairwise_filterMap]
    apply sorted.imp_of_mem
    intro a b memA memB ordered first isFirst second isSecond
    rw [isFirst, isSecond, depthStringCmp, plain a (perm.mem_iff.mp memA) first isFirst,
      plain b (perm.mem_iff.mp memB) second isSecond] at ordered
    exact ordered

/-! ## Joining the strings -/

/-- Forget the string of a region. -/
def Region.forget (region : Region) : Region :=
  { region with depthString := none }

/-- Copying the string of a region appends it, and the region forgets it. -/
theorem appendDepthString_spec (search : Search) (text : Text) (a : ℕ)
    (plain : ∀ string, (search.region a).depthString = some string → cStr string = string) :
    (appendDepthString (search, text) a).2 =
        text ++ ((search.region a).depthString.toList).flatten ∧
      (appendDepthString (search, text) a).1.tracker = search.tracker ∧
      (appendDepthString (search, text) a).1.segmenter.regionCount =
        search.segmenter.regionCount ∧
      ∀ b, (appendDepthString (search, text) a).1.region b =
        if b = a then (search.region a).forget else search.region b := by
  cases isString : (search.region a).depthString with
  | none =>
      have copied : appendDepthString (search, text) a = (search, text) := by
        simp only [appendDepthString, isString]
      rw [copied]
      refine ⟨by simp, rfl, rfl, fun b => ?_⟩
      split
      · next same =>
          rw [same, Region.forget, ← isString]
      · rfl
  | some string =>
      have copied : appendDepthString (search, text) a =
          (search.modify a Region.forget, text ++ string) := by
        simp only [appendDepthString, isString, plain string isString]
        rfl
      rw [copied]
      refine ⟨by simp, rfl, rfl, fun b => ?_⟩
      rw [Search.region_modify]
      split
      · next same => rw [same]
      · rfl

/-- If no region whose string is known is in the list twice, all strings are joined. -/
theorem foldl_appendDepthString (list : List ℕ) (search : Search) (text : Text)
    (plain : ∀ a ∈ list, ∀ string, (search.region a).depthString = some string →
      cStr string = string)
    (once : (list.filter fun a => (search.region a).depthString.isSome).Nodup) :
    (list.foldl appendDepthString (search, text)).2 =
        text ++ (list.filterMap fun a => (search.region a).depthString).flatten ∧
      (list.foldl appendDepthString (search, text)).1.tracker = search.tracker ∧
      (list.foldl appendDepthString (search, text)).1.segmenter.regionCount =
        search.segmenter.regionCount ∧
      ∀ b, (list.foldl appendDepthString (search, text)).1.region b =
        if b ∈ list then (search.region b).forget else search.region b := by
  induction list generalizing search text with
  | nil => simp
  | cons a rest ih =>
      obtain ⟨written, tracker, count, region⟩ :=
        appendDepthString_spec search text a (plain a List.mem_cons_self)
      rw [List.foldl_cons]
      generalize appendDepthString (search, text) a = copied at written tracker count region ⊢
      obtain ⟨next, nextText⟩ := copied
      simp only at written tracker count region
      have same : ∀ b ∈ rest, (next.region b).depthString = (search.region b).depthString := by
        intro b mem
        rw [region b]
        split
        · next isA =>
            subst isA
            by_contra differ
            have hasString : (search.region b).depthString.isSome := by
              rw [Option.isSome_iff_ne_none]
              exact fun isNone => differ isNone.symm
            rw [List.filter_cons, if_pos hasString, List.nodup_cons] at once
            exact once.1 (List.mem_filter.mpr ⟨mem, hasString⟩)
        · rfl
      have onceRest : (rest.filter fun b => (next.region b).depthString.isSome).Nodup := by
        have equal : (rest.filter fun b => (next.region b).depthString.isSome) =
            rest.filter fun b => (search.region b).depthString.isSome :=
          List.filter_congr fun b mem => by rw [same b mem]
        rw [equal]
        exact once.sublist ((List.sublist_cons_self a rest).filter _)
      obtain ⟨joined, tracker', count', region'⟩ := ih next nextText
        (fun b mem string isString =>
          plain b (List.mem_cons_of_mem a mem) string ((same b mem).symm.trans isString)) onceRest
      refine ⟨?_, tracker'.trans tracker, count'.trans count, fun b => ?_⟩
      · have strings : (rest.filterMap fun b => (next.region b).depthString) =
            rest.filterMap fun b => (search.region b).depthString :=
          List.filterMap_congr fun b mem => same b mem
        rw [joined, strings, written, List.append_assoc]
        congr 1
        cases isString : (search.region a).depthString with
        | none => simp [isString]
        | some string => simp [isString]
      · rw [region' b, region b]
        by_cases isA : b = a
        · subst isA
          simp [Region.forget]
        · simp [isA]

end OfxPrimes.Fidtrack
