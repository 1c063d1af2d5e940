import Mathlib.Data.List.Basic

/-!
# Byte memory

A memory maps every address to a value.  `load` reads a block and `store`
writes one; the lemmas say which block a load sees after a store, and how
blocks split.
-/

namespace OfxPrimes.Bytes

universe u

/-- The contents of every address. -/
abbrev Memory (α : Type u) :=
  Nat → α

namespace Memory

variable {α : Type u}

/-- The block of `count` values at an address. -/
def load (memory : Memory α) (address count : Nat) : List α :=
  (List.range' address count).map memory

/-- The memory with a block of values written at an address. -/
def store (memory : Memory α) (address : Nat) (block : List α) : Memory α :=
  fun a => if address ≤ a then (block[a - address]?).getD (memory a) else memory a

@[simp]
theorem length_load (memory : Memory α) (address count : Nat) :
    (memory.load address count).length = count := by
  simp [load]

@[simp]
theorem load_zero (memory : Memory α) (address : Nat) : memory.load address 0 = [] :=
  rfl

theorem getElem?_load (memory : Memory α) (address : Nat) {count i : Nat} (below : i < count) :
    (memory.load address count)[i]? = some (memory (address + i)) := by
  rw [load, List.getElem?_map, List.getElem?_range' below, Nat.one_mul, Option.map_some]

theorem load_succ (memory : Memory α) (address count : Nat) :
    memory.load address (count + 1) = memory address :: memory.load (address + 1) count :=
  rfl

theorem load_add (memory : Memory α) (address first second : Nat) :
    memory.load address (first + second) =
      memory.load address first ++ memory.load (address + first) second := by
  rw [load, load, load, ← List.map_append, List.range'_append_1]

theorem load_concat (memory : Memory α) (address count : Nat) :
    memory.load address (count + 1) = memory.load address count ++ [memory (address + count)] :=
  load_add memory address count 1

/-- Loads agree where the memories agree. -/
theorem load_congr {first second : Memory α} {address count : Nat}
    (agree : ∀ a, address ≤ a → a < address + count → first a = second a) :
    first.load address count = second.load address count := by
  apply List.map_congr_left
  intro a mem
  rw [List.mem_range'_1] at mem
  exact agree a mem.1 mem.2

theorem store_of_lt {memory : Memory α} {address a : Nat} (block : List α) (below : a < address) :
    memory.store address block a = memory a :=
  if_neg (Nat.not_le.mpr below)

theorem store_of_ge {memory : Memory α} {address a : Nat} {block : List α}
    (above : address + block.length ≤ a) : memory.store address block a = memory a := by
  rw [store, if_pos (by omega), List.getElem?_eq_none (by omega), Option.getD_none]

theorem store_of_mem {memory : Memory α} {address i : Nat} {block : List α}
    (inside : i < block.length) : memory.store address block (address + i) = block[i] := by
  simp [store, inside]

/-- A load of what was just stored. -/
theorem load_store (memory : Memory α) (address : Nat) (block : List α) :
    (memory.store address block).load address block.length = block := by
  apply List.ext_getElem (by simp)
  intro i _ inside
  simp [load, store_of_mem inside]

/-- A load beside the stored block sees the old contents. -/
theorem load_store_of_disjoint {memory : Memory α} {address from_ count : Nat} {block : List α}
    (apart : from_ + count ≤ address ∨ address + block.length ≤ from_) :
    (memory.store address block).load from_ count = memory.load from_ count := by
  apply load_congr
  intro a atLeast below
  rcases apart with before | behind
  · exact store_of_lt block (by omega)
  · exact store_of_ge (by omega)

/-- A store right behind a block extends it. -/
theorem load_store_append {memory : Memory α} {address : Nat} {front : List α}
    (written : memory.load address front.length = front) (block : List α) :
    (memory.store (address + front.length) block).load address (front ++ block).length =
      front ++ block := by
  rw [List.length_append, load_add, load_store,
    load_store_of_disjoint (.inl (Nat.le_refl _)), written]

/-- A block of a block. -/
theorem load_of_load_append {memory : Memory α} {address : Nat} {front block : List α}
    (written : memory.load address (front ++ block).length = front ++ block) :
    memory.load address front.length = front ∧
      memory.load (address + front.length) block.length = block := by
  rw [List.length_append, load_add] at written
  exact List.append_inj written (by simp)

end Memory

end OfxPrimes.Bytes
