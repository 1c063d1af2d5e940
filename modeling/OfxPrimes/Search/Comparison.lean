import Mathlib.Algebra.Order.Ring.Int
import Mathlib.Order.Basic

/-!
# Three-way comparisons

A comparison in the manner of `strcmp` answers with a number whose sign orders
its arguments.  This leaf says when such a comparison is a total preorder and
how comparisons are built from one another: by looking at a key, and by a
second comparison that decides where the first finds no difference.
-/

namespace OfxPrimes.Search

universe u v

/-- The sign of `cmp` is that of a total preorder: swapping the arguments swaps
the sign, and "not greater" is transitive. -/
structure TotalPreorder {α : Type u} (cmp : α → α → Int) : Prop where
  swap : ∀ first second, cmp first second < 0 ↔ 0 < cmp second first
  trans : ∀ ⦃first second third⦄,
    cmp first second ≤ 0 → cmp second third ≤ 0 → cmp first third ≤ 0

namespace TotalPreorder

variable {α : Type u} {β : Type v} {cmp : α → α → Int}

theorem self (order : TotalPreorder cmp) (item : α) : cmp item item = 0 := by
  have swapped := order.swap item item
  omega

theorem eq_zero_comm (order : TotalPreorder cmp) (first second : α) :
    cmp first second = 0 ↔ cmp second first = 0 := by
  have forth := order.swap first second
  have back := order.swap second first
  omega

theorem trans_eq_zero (order : TotalPreorder cmp) {first second third : α}
    (left : cmp first second = 0) (right : cmp second third = 0) :
    cmp first third = 0 := by
  have upper : cmp first third ≤ 0 := order.trans left.le right.le
  have lower : cmp third first ≤ 0 :=
    order.trans ((order.eq_zero_comm _ _).mp right).le ((order.eq_zero_comm _ _).mp left).le
  have swapped := order.swap first third
  omega

/-- Integers compared by their difference. -/
theorem intSub : TotalPreorder fun first second : Int => first - second where
  swap first second := by omega
  trans first second third := by omega

/-- Items compared by a key. -/
theorem comap (order : TotalPreorder cmp) (key : β → α) :
    TotalPreorder fun first second => cmp (key first) (key second) where
  swap first second := order.swap (key first) (key second)
  trans _ _ _ := fun left right => order.trans left right

/-- A second comparison decides where the first finds no difference.  The second
may depend on whatever items that the first finds equal have in common. -/
theorem lexBy {κ : Type v} {decides : κ → α → α → Int} (order : TotalPreorder cmp)
    (common : α → κ) (orders : ∀ value, TotalPreorder (decides value))
    (agree : ∀ ⦃first second⦄, cmp first second = 0 → common first = common second) :
    TotalPreorder fun first second =>
      if cmp first second = 0 then decides (common first) first second
      else cmp first second where
  swap first second := by
    by_cases equal : cmp first second = 0
    · have back := (order.eq_zero_comm first second).mp equal
      simp only [if_pos equal, if_pos back, agree back]
      exact (orders (common first)).swap first second
    · have back := mt (order.eq_zero_comm first second).mpr equal
      simp only [if_neg equal, if_neg back]
      exact order.swap first second
  trans first second third left right := by
    have signs : cmp first second ≤ 0 ∧ cmp second third ≤ 0 := by
      constructor
      · by_cases equal : cmp first second = 0
        · exact equal.le
        · simpa only [if_neg equal] using left
      · by_cases equal : cmp second third = 0
        · exact equal.le
        · simpa only [if_neg equal] using right
    by_cases equal : cmp first third = 0
    · have firstSecond : cmp first second = 0 := by
        have lower : cmp second first ≤ 0 :=
          order.trans signs.2 ((order.eq_zero_comm _ _).mp equal).le
        have swapped := order.swap first second
        omega
      have secondThird : cmp second third = 0 :=
        order.trans_eq_zero ((order.eq_zero_comm _ _).mp firstSecond) equal
      simp only [if_pos firstSecond] at left
      simp only [if_pos secondThird, ← agree firstSecond] at right
      simp only [if_pos equal]
      exact (orders (common first)).trans left right
    · simp only [if_neg equal]
      exact order.trans signs.1 signs.2

end TotalPreorder

end OfxPrimes.Search
