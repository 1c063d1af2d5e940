import Mathlib.Data.List.Basic

/-!
# Appending the items of one object to another

A loop reads the items of a source by index and pushes each to a destination,
where the length of the source is read again in each round.  If nothing that is
pushed shows in the source, the loop ends after one round an item.  If whatever
is pushed shows there as one more item, the length runs ahead of the index and
the loop never ends.
-/

namespace OfxPrimes.Transition

universe u v

variable {μ : Type u} {α : Type v}

/-- The loop from the index `index` on, for at most `fuel` rounds; none if it has not
ended by then. -/
def appendLoop (items : μ → List α) (push : α → μ → μ) : Nat → Nat → μ → Option μ
  | 0, _, _ => none
  | fuel + 1, index, memory =>
      match (items memory)[index]? with
      | none => some memory
      | some item => appendLoop items push fuel (index + 1) (push item memory)

section Loop

variable {items : μ → List α} {push : α → μ → μ} {fuel index : Nat} {memory : μ}

/-- If nothing that is pushed shows in the items, the loop ends when it has pushed
them all. -/
theorem appendLoop_of_apart
    (apart : ∀ item memory, items (push item memory) = items memory)
    (bound : index ≤ (items memory).length) (enough : (items memory).length < index + fuel) :
    appendLoop items push fuel index memory =
      some (((items memory).drop index).foldl (fun memory item => push item memory) memory) := by
  induction fuel generalizing index memory with
  | zero => exact absurd enough (Nat.not_lt.mpr bound)
  | succ fuel ih =>
      rw [appendLoop]
      rcases Nat.eq_or_lt_of_le bound with done | more
      · rw [List.getElem?_eq_none (Nat.le_of_eq done.symm),
          List.drop_eq_nil_of_le (Nat.le_of_eq done.symm), List.foldl_nil]
      · rw [List.getElem?_eq_getElem more, List.drop_eq_getElem_cons more, List.foldl_cons]
        have same := apart (items memory)[index] memory
        have next := @ih (index + 1) (push (items memory)[index] memory)
          (by rw [same]; exact more) (by rw [same, Nat.add_right_comm]; exact enough)
        rw [same] at next
        exact next

/-- A loop that has ended ends in the same way with more rounds to go. -/
theorem appendLoop_add {after : μ} (ended : appendLoop items push fuel index memory = some after)
    (more : Nat) : appendLoop items push (fuel + more) index memory = some after := by
  induction fuel generalizing index memory with
  | zero => contradiction
  | succ fuel ih =>
      rw [appendLoop] at ended
      rw [Nat.add_right_comm, appendLoop]
      cases read : (items memory)[index]? with
      | none =>
          rw [read] at ended
          exact ended
      | some item =>
          rw [read] at ended
          exact ih ended

/-- If whatever is pushed shows as one more item, the loop does not end once it has an
item. -/
theorem appendLoop_of_grows (Inv : μ → Prop)
    (grows : ∀ item memory, Inv memory →
      Inv (push item memory) ∧ (items (push item memory)).length = (items memory).length + 1)
    (start : Inv memory) (more : index < (items memory).length) (fuel : Nat) :
    appendLoop items push fuel index memory = none := by
  induction fuel generalizing index memory with
  | zero => rfl
  | succ fuel ih =>
      rw [appendLoop, List.getElem?_eq_getElem more]
      rcases grows (items memory)[index] memory start with ⟨kept, longer⟩
      apply ih kept
      rw [longer]
      exact Nat.succ_lt_succ more

/-- Without items there is nothing to do. -/
theorem appendLoop_nil (empty : items memory = []) (fuel : Nat) :
    appendLoop items push (fuel + 1) 0 memory = some memory := by
  rw [appendLoop, empty]
  rfl

end Loop

end OfxPrimes.Transition
