import Mathlib.Logic.Function.Basic
import Mathlib.Algebra.Order.Ring.Nat
import Mathlib.Tactic.Common

/-!
# The pixels of an image in reading order

A pass over an image sees its lines one after the other, and each of them from the
left to the right.  The pixels beside the next one that it has seen are the one
before it and the one above it.
-/

namespace OfxPrimes.Graph

variable {w h x y : ℕ} {p q : ℕ × ℕ}

/-- The second pixel is to the right of the first or below it. -/
def Beside (p q : ℕ × ℕ) : Prop :=
  (p.1 + 1 = q.1 ∧ p.2 = q.2) ∨ (p.1 = q.1 ∧ p.2 + 1 = q.2)

/-- A pixel of the image. -/
def Inside (w h : ℕ) (n : ℕ × ℕ) : Prop :=
  n.1 < w ∧ n.2 < h

/-- A pixel at the edge of the image. -/
def AtEdge (w h : ℕ) (n : ℕ × ℕ) : Prop :=
  n.1 = 0 ∨ n.2 = 0 ∨ n.1 + 1 = w ∨ n.2 + 1 = h

/-- The pixels read before the one in column `x` of line `y`. -/
def Seen (w x y : ℕ) (p : ℕ × ℕ) : Prop :=
  p.1 < w ∧ (p.2 < y ∨ (p.2 = y ∧ p.1 < x))

theorem seen_succ_iff {w x y : ℕ} (inside : x < w) (p : ℕ × ℕ) :
    Seen w (x + 1) y p ↔ Seen w x y p ∨ p = (x, y) := by
  rcases p with ⟨i, j⟩
  simp only [Seen, Prod.mk.injEq]
  omega

theorem seen_nextLine_iff {w y : ℕ} (p : ℕ × ℕ) : Seen w 0 (y + 1) p ↔ Seen w w y p := by
  rcases p with ⟨i, j⟩
  simp only [Seen]
  omega

theorem seen_whole_iff (n : ℕ × ℕ) : Seen w 0 h n ↔ Inside w h n := by
  simp [Seen, Inside]

theorem not_seen_self : ¬ Seen w x y (x, y) := by
  simp only [Seen]
  omega

theorem seen_west (inside : x < w) (after : 0 < x) : Seen w x y (x - 1, y) :=
  ⟨lt_of_le_of_lt (Nat.sub_le x 1) inside, Or.inr ⟨rfl, Nat.sub_lt after Nat.one_pos⟩⟩

theorem seen_north (inside : x < w) (after : 0 < y) : Seen w x y (x, y - 1) :=
  ⟨inside, Or.inl (Nat.sub_lt after Nat.one_pos)⟩

theorem seen_last (positive : 0 < w) : Seen w w y (w - 1, y) :=
  ⟨Nat.sub_lt positive Nat.one_pos, Or.inr ⟨rfl, Nat.sub_lt positive Nat.one_pos⟩⟩

theorem beside_west (after : 0 < x) : Beside (x - 1, y) (x, y) :=
  Or.inl ⟨Nat.sub_add_cancel after, rfl⟩

theorem beside_north (after : 0 < y) : Beside (x, y - 1) (x, y) :=
  Or.inr ⟨rfl, Nat.sub_add_cancel after⟩

/-- A seen pixel that is beside the next one is before it or above it. -/
theorem Seen.beside {w x y : ℕ} {p : ℕ × ℕ} (seen : Seen w x y p)
    (beside : Beside p (x, y) ∨ Beside (x, y) p) :
    (0 < x ∧ p = (x - 1, y)) ∨ (0 < y ∧ p = (x, y - 1)) := by
  rcases p with ⟨i, j⟩
  simp only [Seen, Beside, Prod.mk.injEq] at *
  omega

/-- Seen pixels keep their labels when an unseen one is labelled. -/
theorem update_seen {β : Type} {seen : ℕ × ℕ → Prop} {label : ℕ × ℕ → β} {mark : β}
    (fresh : ¬ seen p) (seenQ : seen q) : Function.update label p mark q = label q := by
  apply Function.update_of_ne
  rintro rfl
  exact fresh seenQ

end OfxPrimes.Graph
