import OfxPrimes.Search.FirstDifference

/-!
# Differences that wrap around

On numbers that are taken modulo a power of two, the sign of a difference orders
those that lie within half a turn of one another, and no others.  Where they
begin on the circle is of no importance.
-/

namespace OfxPrimes.Search

universe u

/-- A difference that is read with a sign, and is that of the differences to a third
number where neither of these is negative. -/
structure WrappedDifference {κ : Type u} (difference : κ → κ → Int) : Prop where
  zero : ∀ v w, difference v w = 0 ↔ v = w
  unwrap : ∀ start v w, 0 ≤ difference v start → 0 ≤ difference w start →
    difference v w = difference v start - difference w start

variable {κ : Type u} {difference : κ → κ → Int} {cells : Set κ}

/-- The numbers are at most half a turn above some start. -/
def WithinHalfTurn (difference : κ → κ → Int) (cells : Set κ) : Prop :=
  ∃ start, ∀ v ∈ cells, 0 ≤ difference v start

/-- The sign of a wrapped difference orders numbers exactly if they are within half a
turn. -/
theorem WrappedDifference.ordersOn_iff [Finite κ] [Nonempty κ]
    (wrapped : WrappedDifference difference) :
    OrdersOn difference id cells ↔ WithinHalfTurn difference cells := by
  constructor
  · intro orders
    rcases cells.eq_empty_or_nonempty with rfl | nonempty
    · exact ⟨Classical.arbitrary κ, fun v mem => absurd mem (Set.notMem_empty v)⟩
    · have someCell : Nonempty cells := nonempty.to_subtype
      obtain ⟨⟨start, startMem⟩, least⟩ := orders.order.exists_least
      refine ⟨start, fun v mem => ?_⟩
      by_contra below
      have above := (orders.swap mem startMem).mp (not_le.mp below)
      exact absurd (least ⟨v, mem⟩) above.not_ge
  · rintro ⟨start, within⟩
    constructor
    case order =>
      have keyed := TotalPreorder.intSub.comap fun v : cells => difference v start
      have same : (fun v w : cells => difference v start - difference w start) =
          fun v w : cells => difference v w := by
        funext v w
        exact (wrapped.unwrap start v w (within v v.2) (within w w.2)).symm
      rw [← same]
      exact keyed
    case zero => exact fun v _ w _ => wrapped.zero v w

end OfxPrimes.Search
