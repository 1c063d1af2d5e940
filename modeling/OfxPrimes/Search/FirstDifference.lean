import Mathlib.Data.Fintype.Order
import Mathlib.Data.List.Basic
import OfxPrimes.Search.Comparison

/-!
# Comparing lists where they first differ

A comparison that looks for the first difference of two lists is as good as the
comparison of their cells.  On a set of items it orders what the items hold
exactly if, after every common beginning, the cells that follow are ordered.
-/

namespace OfxPrimes.Search

universe u v

namespace TotalPreorder

variable {α : Type u} {cmp : α → α → Int}

theorem total (order : TotalPreorder cmp) (first second : α) :
    cmp first second ≤ 0 ∨ cmp second first ≤ 0 := by
  have swapped := order.swap second first
  omega

/-- Of finitely many items, one is not greater than any other. -/
theorem exists_least [Finite α] [Nonempty α] (order : TotalPreorder cmp) :
    ∃ least, ∀ item, cmp least item ≤ 0 := by
  have transitive : IsTrans α fun first second => cmp second first ≤ 0 :=
    ⟨fun _ _ _ left right => order.trans right left⟩
  have directed : Directed (fun first second => cmp second first ≤ 0) (id : α → α) := by
    intro first second
    rcases order.total first second with firstLower | secondLower
    · exact ⟨first, (order.self first).le, firstLower⟩
    · exact ⟨second, secondLower, (order.self second).le⟩
  exact directed.finite_le id

end TotalPreorder

/-- On some items, the sign of a comparison is that of a total order of what the items
hold. -/
structure OrdersOn {α : Type u} {κ : Type v} (cmp : α → α → Int) (content : α → κ)
    (items : Set α) : Prop where
  order : TotalPreorder fun first second : items => cmp first second
  zero : ∀ first ∈ items, ∀ second ∈ items,
    cmp first second = 0 ↔ content first = content second

namespace OrdersOn

variable {α : Type u} {κ : Type v} {cmp : α → α → Int} {content : α → κ} {items : Set α}
variable {first second third : α}

theorem swap (orders : OrdersOn cmp content items) (firstMem : first ∈ items)
    (secondMem : second ∈ items) : cmp first second < 0 ↔ 0 < cmp second first :=
  orders.order.swap ⟨first, firstMem⟩ ⟨second, secondMem⟩

theorem trans (orders : OrdersOn cmp content items) (firstMem : first ∈ items)
    (secondMem : second ∈ items) (thirdMem : third ∈ items) (left : cmp first second ≤ 0)
    (right : cmp second third ≤ 0) : cmp first third ≤ 0 :=
  @TotalPreorder.trans _ _ orders.order ⟨first, firstMem⟩ ⟨second, secondMem⟩ ⟨third, thirdMem⟩
    left right

/-- Items that hold different things are greater in one direction only. -/
theorem not_le_of_le (orders : OrdersOn cmp content items) (firstMem : first ∈ items)
    (secondMem : second ∈ items) (differ : content first ≠ content second)
    (left : cmp first second ≤ 0) : ¬ cmp second first ≤ 0 := by
  intro right
  have notLower : ¬ cmp first second < 0 := by
    rw [orders.swap firstMem secondMem]
    exact right.not_gt
  have equal : cmp first second = 0 := le_antisymm left (not_lt.mp notLower)
  exact differ ((orders.zero first firstMem second secondMem).mp equal)

end OrdersOn

/-! ## Lists -/

section Lists

variable {α : Type u} {κ : Type v}

/-- Two lists of which neither begins the other differ somewhere for the first time. -/
theorem exists_first_difference {left right : List κ} (notLeft : ¬ left <+: right)
    (notRight : ¬ right <+: left) :
    ∃ front v w, v ≠ w ∧ front ++ [v] <+: left ∧ front ++ [w] <+: right := by
  induction left generalizing right with
  | nil => exact absurd List.nil_prefix notLeft
  | cons first leftRest ih =>
      cases right with
      | nil => exact absurd List.nil_prefix notRight
      | cons second rightRest =>
          by_cases same : first = second
          · subst same
            rw [List.prefix_cons_inj] at notLeft notRight
            obtain ⟨front, v, w, differ, inLeft, inRight⟩ := ih notLeft notRight
            refine ⟨first :: front, v, w, differ, ?_, ?_⟩
            · exact (List.prefix_cons_inj first).mpr inLeft
            · exact (List.prefix_cons_inj first).mpr inRight
          · exact ⟨[], first, second, same, ⟨leftRest, rfl⟩, ⟨rightRest, rfl⟩⟩

/-- A cell that follows the beginning of a list is determined by the list. -/
theorem cell_unique {front list : List κ} {v w : κ} (left : front ++ [v] <+: list)
    (right : front ++ [w] <+: list) : v = w := by
  have sameLength : (front ++ [v]).length = (front ++ [w]).length := by simp
  have same := (List.prefix_of_prefix_length_le left right sameLength.le).eq_of_length sameLength
  exact List.singleton_inj.mp (List.append_cancel_left same)

/-- A comparison of items by the first difference of what they hold. -/
structure ComparesFirstDifference (cell : κ → κ → Int) (content : α → List κ)
    (cmp : α → α → Int) : Prop where
  same : ∀ ⦃first second⦄, content first = content second → cmp first second = 0
  differ : ∀ ⦃first second front v w⦄, front ++ [v] <+: content first →
    front ++ [w] <+: content second → v ≠ w → cmp first second = cell v w
  complete : ∀ ⦃first second⦄, content first <+: content second →
    content first = content second

/-- The cells that follow a beginning of what some items hold. -/
def nextCells (content : α → List κ) (items : Set α) (front : List κ) : Set κ :=
  { v | ∃ item ∈ items, front ++ [v] <+: content item }

variable {cell : κ → κ → Int} {content : α → List κ} {cmp : α → α → Int} {items : Set α}

/-- Two items hold the same, or differ somewhere for the first time. -/
theorem ComparesFirstDifference.cases (compares : ComparesFirstDifference cell content cmp)
    (first second : α) :
    content first = content second ∨ ∃ front v w, v ≠ w ∧ front ++ [v] <+: content first ∧
      front ++ [w] <+: content second := by
  by_cases left : content first <+: content second
  · exact Or.inl (compares.complete left)
  · by_cases right : content second <+: content first
    · exact Or.inl (compares.complete right).symm
    · exact Or.inr (exists_first_difference left right)

/-- Only what an item holds matters. -/
theorem ComparesFirstDifference.congr (compares : ComparesFirstDifference cell content cmp)
    {first first' second second' : α} (left : content first = content first')
    (right : content second = content second') : cmp first second = cmp first' second' := by
  rcases compares.cases first second with same | ⟨front, v, w, differ, inFirst, inSecond⟩
  · rw [compares.same same, compares.same (left.symm.trans (same.trans right))]
  · rw [compares.differ inFirst inSecond differ,
      compares.differ (left ▸ inFirst) (right ▸ inSecond) differ]

theorem ordersOn_nextCells (compares : ComparesFirstDifference cell content cmp)
    (cellSelf : ∀ v, cell v v = 0) (orders : OrdersOn cmp content items) (front : List κ) :
    OrdersOn cell id (nextCells content items front) := by
  choose holder held begins using fun v : nextCells content items front => v.2
  have agrees (v w : nextCells content items front) :
      cmp (holder v) (holder w) = cell v w := by
    by_cases same : v = w
    · subst same
      rw [cellSelf]
      exact compares.same rfl
    · exact compares.differ (begins v) (begins w) (fun equal => same (Subtype.ext equal))
  constructor
  case order =>
    have pulled := orders.order.comap fun v => (⟨holder v, held v⟩ : items)
    simp only [agrees] at pulled
    exact pulled
  case zero =>
    intro v vMem w wMem
    constructor
    · intro equal
      rw [← agrees ⟨v, vMem⟩ ⟨w, wMem⟩, orders.zero _ (held _) _ (held _)] at equal
      exact cell_unique (equal ▸ begins ⟨v, vMem⟩) (begins ⟨w, wMem⟩)
    · rintro rfl
      exact cellSelf v

/-- The place of the difference of the first and the third item is that of the earlier
one of the other two differences. -/
theorem trans_of_nextCells (compares : ComparesFirstDifference cell content cmp)
    (next : ∀ front, OrdersOn cell id (nextCells content items front))
    {first second third : α} (firstMem : first ∈ items) (secondMem : second ∈ items)
    (thirdMem : third ∈ items) (left : cmp first second ≤ 0) (right : cmp second third ≤ 0) :
    cmp first third ≤ 0 := by
  rcases compares.cases first second with same | ⟨front, v, w, differ, inFirst, inSecond⟩
  · rwa [compares.congr same rfl]
  rcases compares.cases second third with same | ⟨later, w', x, differ', inSecond', inThird⟩
  · rwa [← compares.congr rfl same]
  rw [compares.differ inFirst inSecond differ] at left
  rw [compares.differ inSecond' inThird differ'] at right
  rcases lt_trichotomy front.length later.length with before | same | after
  · have begins : front ++ [w] <+: later := by
      apply List.prefix_of_prefix_length_le inSecond
        ((List.prefix_append later [w']).trans inSecond')
      rw [List.length_append]
      exact before
    have inThird' := begins.trans ((List.prefix_append later [x]).trans inThird)
    rwa [compares.differ inFirst inThird' differ]
  · have sameFront : front = later :=
      (List.prefix_of_prefix_length_le ((List.prefix_append front [w]).trans inSecond)
        ((List.prefix_append later [w']).trans inSecond') same.le).eq_of_length same
    subst sameFront
    cases cell_unique inSecond inSecond'
    have vMem : v ∈ nextCells content items front := ⟨first, firstMem, inFirst⟩
    have wMem : w ∈ nextCells content items front := ⟨second, secondMem, inSecond⟩
    by_cases back : v = x
    · subst back
      exact absurd right ((next front).not_le_of_le vMem wMem differ left)
    · rw [compares.differ inFirst inThird back]
      exact (next front).trans vMem wMem ⟨third, thirdMem, inThird⟩ left right
  · have begins : later ++ [w'] <+: front := by
      apply List.prefix_of_prefix_length_le inSecond'
        ((List.prefix_append front [w]).trans inSecond)
      rw [List.length_append]
      exact after
    have inFirst' := begins.trans ((List.prefix_append front [v]).trans inFirst)
    rwa [compares.differ inFirst' inThird differ']

theorem ordersOn_of_nextCells (compares : ComparesFirstDifference cell content cmp)
    (next : ∀ front, OrdersOn cell id (nextCells content items front)) :
    OrdersOn cmp content items := by
  constructor
  case order =>
    constructor
    case swap =>
      rintro ⟨first, firstMem⟩ ⟨second, secondMem⟩
      rcases compares.cases first second with same | ⟨front, v, w, differ, inFirst, inSecond⟩
      · rw [compares.same same, compares.same same.symm]
      · rw [compares.differ inFirst inSecond differ, compares.differ inSecond inFirst differ.symm]
        exact (next front).swap ⟨first, firstMem, inFirst⟩ ⟨second, secondMem, inSecond⟩
    case trans =>
      rintro ⟨first, firstMem⟩ ⟨second, secondMem⟩ ⟨third, thirdMem⟩
      exact trans_of_nextCells compares next firstMem secondMem thirdMem
  case zero =>
    intro first firstMem second secondMem
    constructor
    · intro equal
      rcases compares.cases first second with same | ⟨front, v, w, differ, inFirst, inSecond⟩
      · exact same
      · rw [compares.differ inFirst inSecond differ] at equal
        exact absurd (((next front).zero v ⟨first, firstMem, inFirst⟩ w
          ⟨second, secondMem, inSecond⟩).mp equal) differ
    · exact fun same => compares.same same

/-- A comparison by first differences orders what items hold exactly if, after every
common beginning, the cells that follow are ordered. -/
theorem ComparesFirstDifference.ordersOn_iff (compares : ComparesFirstDifference cell content cmp)
    (cellSelf : ∀ v, cell v v = 0) :
    OrdersOn cmp content items ↔ ∀ front, OrdersOn cell id (nextCells content items front) := by
  constructor
  · exact fun orders front => ordersOn_nextCells compares cellSelf orders front
  · exact ordersOn_of_nextCells compares

end Lists

end OfxPrimes.Search
