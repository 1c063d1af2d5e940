import Mathlib.Data.List.Basic

/-!
# Blocks of a list

A block stands at a position of a list.  A concatenation stands there exactly
when its parts stand one behind the other, so what is known of an encoding can
be read off position by position.
-/

namespace OfxPrimes.Bytes

universe u

variable {α : Type u}

/-- The block stands at position `p` of the list. -/
def StandsAt (list : List α) (p : Nat) (block : List α) : Prop :=
  ∃ front back, list = front ++ (block ++ back) ∧ front.length = p

namespace StandsAt

variable {list : List α} {p : Nat} {block first second : List α}

theorem self (list : List α) : StandsAt list 0 list :=
  ⟨[], [], by simp, rfl⟩

theorem length_le (stands : StandsAt list p block) : p + block.length ≤ list.length := by
  rcases stands with ⟨front, back, rfl, rfl⟩
  simp only [List.length_append]
  omega

theorem left (stands : StandsAt list p (first ++ second)) : StandsAt list p first := by
  rcases stands with ⟨front, back, rfl, rfl⟩
  exact ⟨front, second ++ back, by rw [List.append_assoc], rfl⟩

theorem right (stands : StandsAt list p (first ++ second)) :
    StandsAt list (p + first.length) second := by
  rcases stands with ⟨front, back, rfl, rfl⟩
  exact ⟨front ++ first, back, by simp only [List.append_assoc], List.length_append⟩

theorem tail {a : α} (stands : StandsAt list p (a :: block)) : StandsAt list (p + 1) block :=
  right (show StandsAt list p ([a] ++ block) from stands)

/-- The list behind the position begins with the block. -/
theorem drop_eq (stands : StandsAt list p block) : ∃ back, list.drop p = block ++ back := by
  rcases stands with ⟨front, back, rfl, rfl⟩
  exact ⟨back, List.drop_left⟩

theorem take_drop (stands : StandsAt list p block) :
    (list.drop p).take block.length = block := by
  rcases stands.drop_eq with ⟨back, behind⟩
  rw [behind, List.take_left]

theorem getElem? (stands : StandsAt list p block) {i : Nat} (below : i < block.length) :
    list[p + i]? = block[i]? := by
  rcases stands.drop_eq with ⟨back, behind⟩
  rw [← List.getElem?_drop, behind, List.getElem?_append_left below]

theorem head {a : α} (stands : StandsAt list p (a :: block)) : list[p]? = some a :=
  stands.getElem? (i := 0) (Nat.zero_lt_succ _)

end StandsAt

end OfxPrimes.Bytes
