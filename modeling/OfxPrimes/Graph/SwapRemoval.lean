import Mathlib.Data.List.Perm.Basic
import Mathlib.Data.List.Count

/-!
# Unordered lists in an array

A list whose order does not matter is kept in an array by overwriting a removed
entry with the last one.  What such an operation does to a list is said up to
the order of its entries.
-/

namespace OfxPrimes.Graph

universe u

variable {α : Type u}

/-- Overwrite the entry at `index` with the last entry, which is dropped. -/
def swapRemoveAt (entries : List α) (index : ℕ) : List α :=
  match entries.getLast? with
  | none => []
  | some last => (entries.set index last).dropLast

theorem getLast_set_getLast {entries : List α} {last : α} (nonempty : entries ≠ [])
    (isLast : entries.getLast nonempty = last) (index : ℕ)
    (setNonempty : entries.set index last ≠ []) :
    (entries.set index last).getLast setNonempty = last := by
  rw [List.getLast_eq_getElem, List.getElem_set]
  split
  · rfl
  · rw [List.getLast_eq_getElem] at isLast
    simpa only [List.length_set] using isLast

/-- The entry at `index` goes, and the others stay. -/
theorem swapRemoveAt_perm {entries : List α} {index : ℕ} (inside : index < entries.length) :
    (entries[index] :: swapRemoveAt entries index).Perm entries := by
  have nonempty : entries ≠ [] := List.ne_nil_of_length_pos (Nat.zero_lt_of_lt inside)
  obtain ⟨last, isLast⟩ : ∃ last, entries.getLast nonempty = last := ⟨_, rfl⟩
  have setNonempty : entries.set index last ≠ [] := by
    simpa using nonempty
  have removed : (swapRemoveAt entries index).Perm (entries.eraseIdx index) := by
    rw [swapRemoveAt, List.getLast?_eq_some_getLast nonempty, isLast]
    have whole := List.dropLast_append_getLast setNonempty
    rw [getLast_set_getLast nonempty isLast] at whole
    apply (List.perm_cons last).mp
    calc
      (last :: (entries.set index last).dropLast).Perm
          ((entries.set index last).dropLast ++ [last]) := (List.perm_append_singleton _ _).symm
      _ = entries.set index last := whole
      List.Perm _ (last :: entries.eraseIdx index) := List.set_perm_cons_eraseIdx inside _
  exact (removed.cons _).trans (List.getElem_cons_eraseIdx_perm inside)

section Occurrences

variable [DecidableEq α]

/-- Remove the first occurrence of an entry, which has to be there. -/
def removeFirst (entry : α) (entries : List α) : Option (List α) :=
  if entry ∈ entries then some (swapRemoveAt entries (entries.idxOf entry)) else none

/-- Overwrite the first occurrence of an entry, which has to be there. -/
def replaceFirst (entry other : α) (entries : List α) : Option (List α) :=
  if entry ∈ entries then some (entries.set (entries.idxOf entry) other) else none

theorem exists_removeFirst {entry : α} {entries : List α} (mem : entry ∈ entries) :
    ∃ rest, removeFirst entry entries = some rest ∧ (entry :: rest).Perm entries := by
  have inside : entries.idxOf entry < entries.length := List.idxOf_lt_length_of_mem mem
  have perm := swapRemoveAt_perm inside
  rw [List.getElem_idxOf inside] at perm
  exact ⟨_, if_pos mem, perm⟩

theorem exists_replaceFirst {entry : α} {entries : List α} (mem : entry ∈ entries) (other : α) :
    ∃ changed, replaceFirst entry other entries = some changed ∧
      (entry :: changed).Perm (other :: entries) := by
  have inside : entries.idxOf entry < entries.length := List.idxOf_lt_length_of_mem mem
  apply Exists.intro (entries.set (entries.idxOf entry) other)
  apply And.intro (if_pos mem)
  have found := List.getElem_cons_eraseIdx_perm inside
  rw [List.getElem_idxOf inside] at found
  calc
    (entry :: entries.set (entries.idxOf entry) other).Perm
        (entry :: other :: entries.eraseIdx (entries.idxOf entry)) :=
      (List.set_perm_cons_eraseIdx inside other).cons entry
    List.Perm _ (other :: entry :: entries.eraseIdx (entries.idxOf entry)) := .swap ..
    List.Perm _ (other :: entries) := found.cons other

end Occurrences

end OfxPrimes.Graph
