import Mathlib.Data.Int.Interval
import Mathlib.Data.List.Perm.Lattice

/-!
# Dense pools of identifiers

A pool hands out small identifiers and takes them back for reuse.  It is dense
when the identifiers in use and the free ones are, without repetition, exactly
`0, …, top`, the largest of which is in use.  Each operation of a pool has one
rule here that says which dense pool it leads to.
-/

namespace OfxPrimes.Pool

/-- The identifiers `used` and `free` are together `0, …, top`, each occurring
once; `top` is in use, and `-1` in the pool that is empty. -/
structure Dense (used free : List Int) (top : Int) : Prop where
  nodup : (used ++ free).Nodup
  mem_iff : ∀ id, id ∈ used ++ free ↔ 0 ≤ id ∧ id ≤ top
  top_used : 0 ≤ top → top ∈ used
  top_lower : -1 ≤ top

namespace Dense

variable {used free rest : List Int} {top id : Int}

theorem empty : Dense [] [] (-1) where
  nodup := List.nodup_nil
  mem_iff id := by
    simp only [List.append_nil, List.not_mem_nil, false_iff]
    omega
  top_used nonneg := by omega
  top_lower := le_refl _

theorem used_nodup (dense : Dense used free top) : used.Nodup :=
  (List.nodup_append.mp dense.nodup).1

theorem le_top (dense : Dense used free top) (mem : id ∈ used) : id ≤ top :=
  ((dense.mem_iff id).mp (List.mem_append_left _ mem)).2

/-- A dense pool has as many identifiers as its top says. -/
theorem length_add_length (dense : Dense used free top) :
    (used.length + free.length : Int) = top + 1 := by
  have members : (used ++ free).toFinset = Finset.Icc 0 top := by
    ext id
    rw [List.mem_toFinset, dense.mem_iff, Finset.mem_Icc]
  have counted := List.toFinset_card_of_nodup dense.nodup
  rw [members, Int.card_Icc, List.length_append] at counted
  have lower := dense.top_lower
  omega

/-- A pool that uses fewer identifiers than it ranges over has a free one. -/
theorem free_ne_nil (dense : Dense used free top) (few : (used.length : Int) ≤ top) :
    free ≠ [] := by
  rintro rfl
  have counted := dense.length_add_length
  rw [List.length_nil] at counted
  omega

/-- With `top` the only identifier in use and equal to zero, nothing is free. -/
theorem free_eq_nil_of_zero (dense : Dense [0] free top) : free = [] := by
  have nonneg : 0 ≤ top := dense.le_top List.mem_cons_self
  have top_eq : top = 0 := List.mem_singleton.mp (dense.top_used nonneg)
  have counted := dense.length_add_length
  rw [List.length_singleton] at counted
  exact List.eq_nil_of_length_eq_zero (by omega)

/-- The lists may be reordered. -/
theorem perm (dense : Dense used free top) {used' free' : List Int}
    (usedPerm : used.Perm used') (freePerm : free.Perm free') : Dense used' free' top where
  nodup := (usedPerm.append freePerm).nodup_iff.mp dense.nodup
  mem_iff id := (usedPerm.append freePerm).mem_iff.symm.trans (dense.mem_iff id)
  top_used nonneg := usedPerm.mem_iff.mp (dense.top_used nonneg)
  top_lower := dense.top_lower

/-- Taking a free identifier into use. -/
theorem reuse (dense : Dense used (id :: rest) top) : Dense (used ++ [id]) rest top where
  nodup := by simpa using dense.nodup
  mem_iff other := by simpa using dense.mem_iff other
  top_used nonneg := List.mem_append_left _ (dense.top_used nonneg)
  top_lower := dense.top_lower

/-- Adding a new identifier when all of them are in use. -/
theorem extend (dense : Dense used free top) (many : top < used.length) :
    Dense (used ++ [(used.length : Int)]) free used.length := by
  have counted := dense.length_add_length
  have full : (used.length : Int) = top + 1 := by omega
  have noFree : free = [] := List.eq_nil_of_length_eq_zero (by omega)
  subst noFree
  have fresh : (used.length : Int) ∉ used := fun mem => by
    have := dense.le_top mem
    omega
  constructor
  · have nodup := dense.used_nodup
    simpa [List.nodup_append, nodup] using fun id mem => ne_of_mem_of_not_mem mem fresh
  · intro id
    have old := dense.mem_iff id
    have lower := dense.top_lower
    rw [List.append_nil] at old ⊢
    rw [List.mem_append, List.mem_singleton, old]
    omega
  · intro _
    exact List.mem_append_right _ (List.mem_singleton_self _)
  · omega

/-- Giving back an identifier other than the largest. -/
theorem release (dense : Dense (id :: used) free top) (notTop : id ≠ top) :
    Dense used (free ++ [id]) top where
  nodup := by
    have rotated : (id :: used ++ free).Perm (used ++ (free ++ [id])) := by
      rw [← List.append_assoc]
      exact (List.perm_append_singleton id (used ++ free)).symm
    exact rotated.nodup_iff.mp dense.nodup
  mem_iff other := by
    have old := dense.mem_iff other
    simp only [List.cons_append, List.mem_cons, List.mem_append, List.not_mem_nil,
      or_false] at old ⊢
    rw [← old]
    tauto
  top_used nonneg := by
    rcases List.mem_cons.mp (dense.top_used nonneg) with isTop | mem
    · exact absurd isTop.symm notTop
    · exact mem
  top_lower := dense.top_lower

/-- Giving back the largest identifier while others are in use: the top drops
to the largest of those, and free identifiers above it are forgotten. -/
theorem shrink (dense : Dense (top :: used) free top) {newTop : Int}
    (newTop_mem : newTop ∈ used) (newTop_le : ∀ id ∈ used, id ≤ newTop) :
    Dense used (free.filter fun id => decide (id ≤ newTop)) newTop := by
  have newTop_nonneg : 0 ≤ newTop :=
    ((dense.mem_iff newTop).mp (by simp [newTop_mem])).1
  have nodup := dense.nodup
  rw [List.cons_append, List.nodup_cons] at nodup
  have below : newTop < top := by
    have le := dense.le_top (List.mem_cons_of_mem _ newTop_mem)
    have ne : newTop ≠ top := fun same =>
      nodup.1 (same ▸ List.mem_append_left _ newTop_mem)
    omega
  constructor
  · exact nodup.2.sublist (List.filter_sublist.append_left used)
  · intro id
    have old := dense.mem_iff id
    simp only [List.cons_append, List.mem_cons, List.mem_append] at old
    simp only [List.mem_append, List.mem_filter, decide_eq_true_eq]
    constructor
    · rintro (mem | ⟨mem, le⟩)
      · exact ⟨(old.mp (.inr (.inl mem))).1, newTop_le id mem⟩
      · exact ⟨(old.mp (.inr (.inr mem))).1, le⟩
    · rintro ⟨nonneg, le⟩
      rcases old.mpr ⟨nonneg, by omega⟩ with rfl | mem | mem
      · omega
      · exact .inl mem
      · exact .inr ⟨mem, le⟩
  · exact fun _ => newTop_mem
  · omega

end Dense

end OfxPrimes.Pool
