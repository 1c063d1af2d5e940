import OfxPrimes.Dtouch.BinaryTree

/-!
# The sequence store of dtouch

A sequence is an `int` array whose first cell counts the entries behind it.
The store appends the colour behind the last entry, and looks sequences up in a
binary tree with a `cmp` that walks over two arrays.  The walk takes as many
steps as there are entries, so it stops at the last entry: the colour takes
part in no comparison.

Differences of cells are taken in `Int`, as they are in the code where none
overflows.
-/

namespace OfxPrimes.Dtouch

open OfxPrimes.Search

/-- A sequence in memory: `cells[0]` is the number of entries that follow. -/
structure Sequence where
  cells : List Int
  count : Nat
  header : cells.head? = some (count : Int)
  inBounds : count < cells.length

namespace Sequence

/-- The part of the array that is the sequence: the count and the entries. -/
def content (seq : Sequence) : List Int :=
  seq.cells.take (seq.count + 1)

/-- The sequence of the given entries. -/
def ofEntries (entries : List Int) : Sequence where
  cells := entries.length :: entries
  count := entries.length
  header := rfl
  inBounds := Nat.lt_succ_self _

theorem length_content (seq : Sequence) : seq.content.length = seq.count + 1 := by
  have inBounds := seq.inBounds
  simp only [content, List.length_take]
  omega

theorem head?_content (seq : Sequence) : seq.content.head? = some (seq.count : Int) := by
  rw [content, List.head?_take, if_neg (Nat.succ_ne_zero _), seq.header]

end Sequence

/-- The loop of `cmp( const int * a, const int * b )`: the pointers move to the
first differing cells, at most `steps` cells on. -/
def cmpFrom : Nat → List Int → List Int → Int
  | 0, a, b => a.headD 0 - b.headD 0
  | steps + 1, a, b =>
      if a.headD 0 = b.headD 0 then cmpFrom steps a.tail b.tail
      else a.headD 0 - b.headD 0

/-- `cmp( const int * a, const int * b )`. -/
def cmpCells (a b : List Int) : Int :=
  if a.headD 0 ≠ b.headD 0 then a.headD 0 - b.headD 0
  else
    let len := a.headD 0
    cmpFrom len.toNat a b

theorem totalPreorder_cmpFrom (steps : Nat) : TotalPreorder (cmpFrom steps) := by
  induction steps with
  | zero => exact TotalPreorder.intSub.comap fun cells : List Int => cells.headD 0
  | succ steps ih =>
      have heads : TotalPreorder fun a b : List Int => a.headD 0 - b.headD 0 :=
        TotalPreorder.intSub.comap fun cells : List Int => cells.headD 0
      have tails : TotalPreorder fun a b : List Int => cmpFrom steps a.tail b.tail :=
        ih.comap List.tail
      have both := heads.lexBy (fun _ => ()) (fun _ => tails) (fun _ _ _ => rfl)
      have sameCmp : cmpFrom (steps + 1) = fun a b : List Int =>
          if a.headD 0 - b.headD 0 = 0 then cmpFrom steps a.tail b.tail
          else a.headD 0 - b.headD 0 := by
        funext a b
        simp only [cmpFrom, sub_eq_zero]
      rw [sameCmp]
      exact both

/-- The comparison of arrays is a total preorder. -/
theorem totalPreorder_cmpCells : TotalPreorder cmpCells := by
  have heads : TotalPreorder fun a b : List Int => a.headD 0 - b.headD 0 :=
    TotalPreorder.intSub.comap fun cells : List Int => cells.headD 0
  have sameHead : ∀ ⦃a b : List Int⦄, a.headD 0 - b.headD 0 = 0 → a.headD 0 = b.headD 0 :=
    fun a b equal => sub_eq_zero.mp equal
  have both := heads.lexBy (fun cells : List Int => cells.headD 0)
    (fun len => totalPreorder_cmpFrom len.toNat) sameHead
  have sameCmp : cmpCells = fun a b : List Int =>
      if a.headD 0 - b.headD 0 = 0 then cmpFrom (a.headD 0).toNat a b
      else a.headD 0 - b.headD 0 := by
    funext a b
    simp only [cmpCells, sub_eq_zero, ne_eq, ite_not]
  rw [sameCmp]
  exact both

/-- The loop finds no difference exactly when the arrays agree on the cells it
can reach: one more than it takes steps. -/
theorem cmpFrom_eq_zero_iff {steps : Nat} {a b : List Int}
    (aBound : steps < a.length) (bBound : steps < b.length) :
    cmpFrom steps a b = 0 ↔ a.take (steps + 1) = b.take (steps + 1) := by
  induction steps generalizing a b with
  | zero =>
      rcases List.exists_cons_of_length_pos aBound with ⟨aHead, aTail, rfl⟩
      rcases List.exists_cons_of_length_pos bBound with ⟨bHead, bTail, rfl⟩
      simp [cmpFrom, sub_eq_zero]
  | succ steps ih =>
      rcases List.exists_cons_of_length_pos (Nat.zero_lt_of_lt aBound) with ⟨aHead, aTail, rfl⟩
      rcases List.exists_cons_of_length_pos (Nat.zero_lt_of_lt bBound) with ⟨bHead, bTail, rfl⟩
      have tails := ih (Nat.lt_of_succ_lt_succ aBound) (Nat.lt_of_succ_lt_succ bBound)
      by_cases equal : aHead = bHead
      · subst equal
        simpa [cmpFrom] using tails
      · have differ : aHead - bHead ≠ 0 := sub_ne_zero.mpr equal
        simpa [cmpFrom, equal] using differ

/-- The array that `addSequence` stores and `contains` looks for: a copy of the
sequence with the colour behind the last entry. -/
def withColour (seq : Sequence) (white : Bool) : List Int :=
  let copied := seq.cells.take (seq.cells.headD 0 + 1).toNat
  copied ++ [if white then 0x1 else 0x2]

theorem withColour_eq (seq : Sequence) (white : Bool) :
    withColour seq white = seq.content ++ [if white then 0x1 else 0x2] := by
  have head : seq.cells.headD 0 = (seq.count : Int) := by
    rw [List.headD_eq_head?_getD, seq.header, Option.getD_some]
  have cellCount : (seq.cells.headD 0 + 1).toNat = seq.count + 1 := by
    rw [head]
    omega
  simp only [withColour, cellCount, Sequence.content]

theorem headD_withColour (seq : Sequence) (white : Bool) :
    (withColour seq white).headD 0 = (seq.count : Int) := by
  rw [withColour_eq, List.headD_eq_head?_getD, List.head?_append, seq.head?_content]
  rfl

theorem take_withColour (seq : Sequence) (white : Bool) :
    (withColour seq white).take (seq.count + 1) = seq.content := by
  rw [withColour_eq, ← seq.length_content, List.take_left]

/-- Two stored arrays compare equal exactly when they hold one sequence, in
whatever colours. -/
theorem cmpCells_withColour_eq_zero_iff (first second : Sequence) (white other : Bool) :
    cmpCells (withColour first white) (withColour second other) = 0 ↔
      first.content = second.content := by
  have length : ∀ (seq : Sequence) (colour : Bool),
      (withColour seq colour).length = seq.count + 2 := by
    intro seq colour
    rw [withColour_eq, List.length_append, seq.length_content, List.length_singleton]
  simp only [cmpCells, headD_withColour, Int.toNat_natCast]
  by_cases sameCount : first.count = second.count
  · have firstBound : first.count < (withColour first white).length := by
      rw [length]
      omega
    have secondBound : first.count < (withColour second other).length := by
      rw [length]
      omega
    rw [if_neg (by simp [sameCount]), cmpFrom_eq_zero_iff firstBound secondBound,
      take_withColour, sameCount, take_withColour]
  · have differ : (first.count : Int) ≠ second.count := by exact_mod_cast sameCount
    rw [if_pos differ]
    constructor
    · intro equal
      exact absurd (sub_eq_zero.mp equal) differ
    · intro equal
      have lengths := congrArg List.length equal
      rw [first.length_content, second.length_content] at lengths
      exact absurd (Nat.succ.inj lengths) sameCount

/-- `class SequenceFileStore`. -/
structure SequenceFileStore where
  storeTree : BinaryTree (List Int)

namespace SequenceFileStore

/-- The store before any sequence is loaded. -/
def empty : SequenceFileStore :=
  ⟨BinaryTree.empty⟩

/-- `addSequence( int * seq, bool white )`. -/
def addSequence (store : SequenceFileStore) (seq : Sequence) (white : Bool) :
    SequenceFileStore :=
  ⟨store.storeTree.insert cmpCells (withColour seq white)⟩

/-- `contains(const int * seq, const bool white)`. -/
def contains (store : SequenceFileStore) (seq : Sequence) (white : Bool) : Bool :=
  store.storeTree.contains cmpCells (withColour seq white)

/-- The store after a list of `addSequence` calls. -/
def addAll (added : List (Sequence × Bool)) : SequenceFileStore :=
  added.foldl (fun store call => store.addSequence call.1 call.2) empty

/-- The same sequence was added with the same colour. -/
def Added (added : List (Sequence × Bool)) (seq : Sequence) (white : Bool) : Prop :=
  ∃ call ∈ added, call.1.content = seq.content ∧ call.2 = white

theorem storeTree_foldl (added : List (Sequence × Bool)) (store : SequenceFileStore) :
    (added.foldl (fun store call => store.addSequence call.1 call.2) store).storeTree =
      (added.map fun call => withColour call.1 call.2).foldl (BinaryTree.insert cmpCells)
        store.storeTree := by
  induction added generalizing store with
  | nil => rfl
  | cons call rest ih =>
      rw [List.foldl_cons, ih, List.map_cons, List.foldl_cons]
      rfl

/-- A lookup answers whether the sequence was added, in either colour. -/
theorem contains_addAll_iff (added : List (Sequence × Bool)) (seq : Sequence) (white : Bool) :
    (addAll added).contains seq white = true ↔
      Added added seq white ∨ Added added seq (!white) := by
  have sameTree : (addAll added).storeTree =
      BinaryTree.insertAll cmpCells (added.map fun call => withColour call.1 call.2) :=
    storeTree_foldl added empty
  rw [contains, sameTree, BinaryTree.contains_insertAll_iff totalPreorder_cmpCells]
  simp only [List.mem_map, exists_exists_and_eq_and, cmpCells_withColour_eq_zero_iff]
  constructor
  · rintro ⟨call, mem, equal⟩
    by_cases colour : call.2 = white
    · exact Or.inl ⟨call, mem, equal.symm, colour⟩
    · exact Or.inr ⟨call, mem, equal.symm, Bool.eq_not.mpr colour⟩
  · rintro (⟨call, mem, equal, -⟩ | ⟨call, mem, equal, -⟩)
    · exact ⟨call, mem, equal.symm⟩
    · exact ⟨call, mem, equal.symm⟩

/-- A lookup is right about sequence and colour exactly when the sequence was
not added in the other colour only. -/
theorem contains_iff_added_iff (added : List (Sequence × Bool)) (seq : Sequence)
    (white : Bool) :
    ((addAll added).contains seq white = true ↔ Added added seq white) ↔
      (Added added seq (!white) → Added added seq white) := by
  rw [contains_addAll_iff]
  tauto

theorem contains_otherColour :
    ¬ ((addAll [(.ofEntries [1, 2], true)]).contains (.ofEntries [1, 2]) false = true ↔
      Added [(.ofEntries [1, 2], true)] (.ofEntries [1, 2]) false) := by
  have found : (addAll [(.ofEntries [1, 2], true)]).contains (.ofEntries [1, 2]) false = true := by
    decide
  intro right
  rcases right.mp found with ⟨call, mem, -, colour⟩
  rw [List.mem_singleton] at mem
  simp [mem] at colour

end SequenceFileStore

end OfxPrimes.Dtouch
