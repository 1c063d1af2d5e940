import Mathlib.Order.Bounds.Basic
import Mathlib.Data.List.Basic
import Mathlib.Data.List.Induction

/-!
# Searching a list for its least key

Each item of a list offers a set of keys.  A search passes through the list once
and keeps the least key offered so far that is below a limit, with the first
item that offers it.  The items may be looked at in any representation: what
matters is that each round keeps a key only if it is strictly less than the one
kept before.
-/

namespace OfxPrimes.Search

universe u v w

variable {ι : Type u} {K : Type v} {σ : Type w} [LinearOrder K]

/-- What a search has found: the key to be beaten, and the item that offered it. -/
structure Best (ι : Type u) (K : Type v) where
  key : K
  item : Option ι

/-- One round of a search at the item `x`: its least key is taken if it beats the
one found, and otherwise nothing changes. -/
inductive Takes (offers : ι → Set K) (best : Best ι K) (x : ι) : Best ι K → Prop
  | keep (beaten : ∀ key ∈ offers x, best.key ≤ key) : Takes offers best x best
  | take (key : K) (least : IsLeast (offers x) key) (less : key < best.key) :
      Takes offers best x ⟨key, some x⟩

/-- `best` is the outcome of a search through `items` below `limit`: the limit
itself if no item offers less, and otherwise the least key offered, with the
first item that offers it. -/
structure FirstLeast (offers : ι → Set K) (limit : K) (items : List ι) (best : Best ι K) :
    Prop where
  lower : ∀ x ∈ items, ∀ key ∈ offers x, best.key ≤ key
  unfound : best.item = none → best.key = limit
  found : ∀ x, best.item = some x → best.key < limit ∧ best.key ∈ offers x ∧
    ∃ front back, items = front ++ x :: back ∧
      ∀ y ∈ front, ∀ key ∈ offers y, best.key < key

namespace FirstLeast

variable {offers : ι → Set K} {limit : K} {items : List ι} {best next : Best ι K} {x : ι}

theorem nil (offers : ι → Set K) (limit : K) : FirstLeast offers limit [] ⟨limit, none⟩ where
  lower := by simp
  unfound := fun _ => rfl
  found := by simp

theorem key_le_limit (least : FirstLeast offers limit items best) : best.key ≤ limit := by
  cases reached : best.item with
  | none => exact (least.unfound reached).le
  | some x => exact (least.found x reached).1.le

/-- One more round at the end of the list. -/
theorem concat (least : FirstLeast offers limit items best) (round : Takes offers best x next) :
    FirstLeast offers limit (items ++ [x]) next := by
  cases round with
  | keep beaten =>
      constructor
      case lower =>
        intro y member key offered
        rcases List.mem_append.mp member with earlier | last
        · exact least.lower y earlier key offered
        · rw [List.mem_singleton.mp last] at offered
          exact beaten key offered
      case unfound => exact least.unfound
      case found =>
        intro y reached
        obtain ⟨below, offered, front, back, split, later⟩ := least.found y reached
        exact ⟨below, offered, front, back ++ [x], by simp [split], later⟩
  | take key isLeast less =>
      have earlierKeys : ∀ y ∈ items, ∀ other ∈ offers y, key < other :=
        fun y member other offered =>
        lt_of_lt_of_le less (least.lower y member other offered)
      constructor
      case lower =>
        intro y member other offered
        rcases List.mem_append.mp member with earlier | last
        · exact (earlierKeys y earlier other offered).le
        · rw [List.mem_singleton.mp last] at offered
          exact isLeast.2 offered
      case unfound => exact fun absurd => nomatch absurd
      case found =>
        rintro y ⟨rfl⟩
        exact ⟨lt_of_lt_of_le less least.key_le_limit, isLeast.1, items, [], rfl, earlierKeys⟩

/-- Nothing is found exactly if no item offers a key below the limit. -/
theorem item_eq_none_iff (least : FirstLeast offers limit items best) :
    best.item = none ↔ ∀ x ∈ items, ∀ key ∈ offers x, limit ≤ key := by
  constructor
  · intro nothing x member key offered
    rw [← least.unfound nothing]
    exact least.lower x member key offered
  · intro above
    rw [Option.eq_none_iff_forall_ne_some]
    intro x reached
    obtain ⟨below, offered, front, back, split, _⟩ := least.found x reached
    have member : x ∈ items := by simp [split]
    exact absurd (above x member best.key offered) (not_le.mpr below)

/-- The item that offers the least key before any other is the one that is found. -/
theorem item_eq_of_isFirst (least : FirstLeast offers limit items best) {front back : List ι}
    {key : K} (split : items = front ++ x :: back) (offered : key ∈ offers x)
    (below : key < limit) (lower : ∀ y ∈ items, ∀ other ∈ offers y, key ≤ other)
    (first : ∀ y ∈ front, ∀ other ∈ offers y, key < other) : best.item = some x := by
  have listed : x ∈ items := by simp [split]
  cases reached : best.item with
  | none => exact absurd below (not_lt.mpr (least.item_eq_none_iff.mp reached x listed key offered))
  | some y =>
      obtain ⟨-, offeredY, frontY, backY, splitY, firstY⟩ := least.found y reached
      have sameKey : best.key = key :=
        le_antisymm (least.lower x listed key offered) (lower y (by simp [splitY]) _ offeredY)
      rw [sameKey] at offeredY firstY
      have notBefore : y ∉ front := fun mem => lt_irrefl _ (first y mem key offeredY)
      have notAfter : x ∉ frontY := fun mem => lt_irrefl _ (firstY x mem key offered)
      rcases List.append_eq_append_iff.mp (split.symm.trans splitY) with
        ⟨middle, rfl, rest⟩ | ⟨middle, rfl, rest⟩
      · cases middle with
        | nil => rw [(List.cons.inj rest).1]
        | cons head tail =>
            rw [(List.cons.inj rest).1] at notAfter
            simp at notAfter
      · cases middle with
        | nil => rw [(List.cons.inj rest).1]
        | cons head tail =>
            rw [(List.cons.inj rest).1] at notBefore
            simp at notBefore

end FirstLeast

/-- A loop whose rounds are rounds of a search, seen through `view`, carries out
the search. -/
theorem foldl_firstLeast {offers : ι → Set K} {view : σ → Best ι K → Prop} {step : σ → ι → σ}
    {limit : K} {start : σ} (items : List ι)
    (started : view start ⟨limit, none⟩)
    (round : ∀ state best, view state best → best.key ≤ limit → ∀ x ∈ items,
      ∃ next, view (step state x) next ∧ Takes offers best x next) :
    ∃ best, view (items.foldl step start) best ∧ FirstLeast offers limit items best := by
  induction items using List.reverseRecOn with
  | nil => exact ⟨_, started, FirstLeast.nil offers limit⟩
  | append_singleton items x ih =>
      obtain ⟨best, viewed, least⟩ := ih fun state best viewed bounded y member =>
        round state best viewed bounded y (List.mem_append_left _ member)
      obtain ⟨next, viewedNext, taken⟩ :=
        round _ best viewed least.key_le_limit x (by simp)
      rw [List.foldl_concat]
      exact ⟨next, viewedNext, least.concat taken⟩

end OfxPrimes.Search
