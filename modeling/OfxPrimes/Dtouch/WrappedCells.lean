import OfxPrimes.Dtouch.SequenceFileStore
import OfxPrimes.Search.Wrapped

/-!
# Sequences of machine integers

`cmp` subtracts cells as `int`, and the difference wraps around.  Entries that
are half a turn or more apart change places: of two that are exactly half a turn
apart each is less than the other.
-/

namespace OfxPrimes.Dtouch

open OfxPrimes.Search

/-- A sequence in memory: the first cell is the number of entries that follow it. -/
structure CellSequence where
  cells : List Int32
  nonneg : 0 ≤ (cells.headD 0).toInt
  inBounds : (cells.headD 0).toInt < cells.length

namespace CellSequence

/-- The number of entries. -/
def count (seq : CellSequence) : Nat :=
  (seq.cells.headD 0).toInt.toNat

/-- The number of entries and the entries. -/
def content (seq : CellSequence) : List Int32 :=
  seq.cells.take (seq.count + 1)

/-- The sequence of one entry. -/
def single (entry : Int32) : CellSequence where
  cells := [1, entry]
  nonneg := Int.one_nonneg
  inBounds := Int.lt_succ 1

end CellSequence

/-- The loop of `cmp( const int * a, const int * b )`, and the difference of the cells at
which it stops. -/
def cmpWrappedFrom : Nat → List Int32 → List Int32 → Int32
  | 0, a, b => a.headD 0 - b.headD 0
  | steps + 1, a, b =>
      if a.headD 0 = b.headD 0 then cmpWrappedFrom steps a.tail b.tail
      else a.headD 0 - b.headD 0

/-- `cmp( const int * a, const int * b )`, where the subtraction of `int` wraps around. -/
def cmpWrapped (a b : List Int32) : Int32 :=
  if a.headD 0 ≠ b.headD 0 then a.headD 0 - b.headD 0
  else
    let len := a.headD 0
    cmpWrappedFrom len.toInt.toNat a b

/-- The answer of `cmp` for two sequences. -/
def cmpSequences (a b : CellSequence) : Int :=
  (cmpWrapped a.cells b.cells).toInt

/-! ## The differences of machine integers -/

instance finite_int32 : Finite Int32 :=
  Finite.of_injective (fun v : Int32 => v.toBitVec.toFin) fun _ _ same =>
    Int32.toBitVec_inj.mp (BitVec.toFin_inj.mp same)

/-- The difference of two cells, as `cmp` takes it. -/
def cellDifference (v w : Int32) : Int :=
  (v - w).toInt

theorem wrappedDifference_cellDifference : WrappedDifference cellDifference where
  zero v w := by
    rw [cellDifference, ← Int32.toInt_zero, Int32.toInt_inj, Int32.sub_eq_iff_eq_add,
      Int32.zero_add]
  unwrap start v w left right := by
    have split : v - w = v - start - (w - start) := by
      rw [Int32.sub_sub, Int32.add_comm, Int32.sub_add_cancel]
    have upper := (v - start).toInt_lt
    have lower := (w - start).toInt_lt
    simp only [cellDifference] at left right ⊢
    rw [split, Int32.toInt_sub, Int.bmod_eq_of_le]
    · omega
    · omega

/-! ## Cells whose differences do not overflow -/

section NoOverflow

variable {a b : List Int32}

/-- No difference of two cells, or of a cell and zero, overflows. -/
def DifferencesFit (a b : List Int32) : Prop :=
  ∀ v ∈ 0 :: a, ∀ w ∈ 0 :: b, (v - w).toInt = v.toInt - w.toInt

theorem DifferencesFit.tail (fit : DifferencesFit a b) : DifferencesFit a.tail b.tail := by
  intro v vMem w wMem
  have suffix (cells : List Int32) : 0 :: cells.tail ⊆ 0 :: cells :=
    List.cons_subset_cons 0 (List.tail_subset cells)
  exact fit v (suffix a vMem) w (suffix b wMem)

theorem headD_mem (cells : List Int32) : cells.headD 0 ∈ 0 :: cells := by
  cases cells with
  | nil => exact List.mem_cons_self
  | cons first rest => exact List.mem_cons_of_mem 0 List.mem_cons_self

theorem headD_map_toInt (cells : List Int32) :
    (cells.map Int32.toInt).headD 0 = (cells.headD 0).toInt := by
  cases cells <;> rfl

theorem toInt_cmpWrappedFrom {steps : Nat} (fit : DifferencesFit a b) :
    (cmpWrappedFrom steps a b).toInt = cmpFrom steps (a.map Int32.toInt) (b.map Int32.toInt) := by
  induction steps generalizing a b with
  | zero =>
      rw [cmpWrappedFrom, cmpFrom, headD_map_toInt, headD_map_toInt]
      exact fit _ (headD_mem a) _ (headD_mem b)
  | succ steps ih =>
      rw [cmpWrappedFrom, cmpFrom, headD_map_toInt, headD_map_toInt]
      by_cases same : a.headD 0 = b.headD 0
      · rw [if_pos same, if_pos (congrArg Int32.toInt same), ← List.map_tail, ← List.map_tail]
        exact ih fit.tail
      · rw [if_neg same, if_neg (mt Int32.toInt_inj.mp same)]
        exact fit _ (headD_mem a) _ (headD_mem b)

/-- Where no difference overflows, the comparison is that of integers. -/
theorem toInt_cmpWrapped (fit : DifferencesFit a b) :
    (cmpWrapped a b).toInt = cmpCells (a.map Int32.toInt) (b.map Int32.toInt) := by
  rw [cmpWrapped, cmpCells, headD_map_toInt, headD_map_toInt]
  by_cases same : a.headD 0 = b.headD 0
  · rw [if_neg (not_not.mpr same), if_neg (not_not.mpr (congrArg Int32.toInt same))]
    exact toInt_cmpWrappedFrom fit
  · rw [if_pos same, if_pos (mt Int32.toInt_inj.mp same)]
    exact fit _ (headD_mem a) _ (headD_mem b)

end NoOverflow

/-! ## Where the loop stops -/

theorem cmpWrappedFrom_of_differ {steps : Nat} {front a b : List Int32} {v w : Int32}
    (short : front.length ≤ steps) (inLeft : front ++ [v] <+: a) (inRight : front ++ [w] <+: b)
    (differ : v ≠ w) : cmpWrappedFrom steps a b = v - w := by
  induction front generalizing steps a b with
  | nil =>
      obtain ⟨left, rfl⟩ := inLeft
      obtain ⟨right, rfl⟩ := inRight
      cases steps with
      | zero => rfl
      | succ steps => exact if_neg differ
  | cons first rest ih =>
      obtain ⟨left, rfl⟩ := inLeft
      obtain ⟨right, rfl⟩ := inRight
      cases steps with
      | zero => exact absurd short (Nat.not_succ_le_zero _)
      | succ steps =>
          have later := ih (Nat.le_of_succ_le_succ short) (List.prefix_append (rest ++ [v]) left)
            (List.prefix_append (rest ++ [w]) right)
          exact (if_pos rfl).trans later

theorem headD_eq_of_take_eq {steps : Nat} {a b : List Int32}
    (same : a.take (steps + 1) = b.take (steps + 1)) : a.headD 0 = b.headD 0 := by
  have heads := congrArg List.head? same
  rw [List.head?_take, List.head?_take, if_neg (Nat.succ_ne_zero _),
    if_neg (Nat.succ_ne_zero _)] at heads
  rw [List.headD_eq_head?_getD, List.headD_eq_head?_getD, heads]

theorem cmpWrappedFrom_of_same {steps : Nat} {a b : List Int32}
    (same : a.take (steps + 1) = b.take (steps + 1)) : cmpWrappedFrom steps a b = 0 := by
  have heads := headD_eq_of_take_eq same
  induction steps generalizing a b with
  | zero => rw [cmpWrappedFrom, heads, Int32.sub_self]
  | succ steps ih =>
      have tails := congrArg List.tail same
      rw [List.tail_take_eq_take_tail, List.tail_take_eq_take_tail] at tails
      rw [cmpWrappedFrom, if_pos heads]
      exact ih tails (headD_eq_of_take_eq tails)

/-! ## The comparison of sequences -/

namespace CellSequence

theorem length_content (seq : CellSequence) : seq.content.length = seq.count + 1 := by
  have inBounds := seq.inBounds
  have nonneg := seq.nonneg
  rw [content, List.length_take, count]
  omega

theorem headD_content (seq : CellSequence) : seq.content.headD 0 = seq.cells.headD 0 := by
  rw [content, List.headD_eq_head?_getD, List.head?_take, if_neg (Nat.succ_ne_zero _),
    List.headD_eq_head?_getD]

theorem content_of_prefix {a b : CellSequence} (begins : a.content <+: b.content) :
    a.content = b.content := by
  have heads : a.cells.headD 0 = b.cells.headD 0 := by
    have nonempty : 0 < a.content.length := by
      rw [length_content]
      exact Nat.succ_pos _
    obtain ⟨rest, split⟩ := begins
    obtain ⟨first, entries, held⟩ := List.exists_cons_of_length_pos nonempty
    rw [← headD_content, ← headD_content, ← split, held]
    rfl
  have lengths : a.content.length = b.content.length := by
    rw [length_content, length_content, count, count, heads]
  exact begins.eq_of_length lengths

end CellSequence

theorem cmpSequences_of_same {a b : CellSequence} (same : a.content = b.content) :
    cmpSequences a b = 0 := by
  have heads : a.cells.headD 0 = b.cells.headD 0 := by
    rw [← CellSequence.headD_content, same, CellSequence.headD_content]
  have counts : b.count = a.count := by
    rw [CellSequence.count, CellSequence.count, heads]
  rw [CellSequence.content, CellSequence.content, counts] at same
  rw [cmpSequences, cmpWrapped, if_neg (not_not.mpr heads)]
  exact congrArg Int32.toInt (cmpWrappedFrom_of_same same)

theorem cmpSequences_of_differ {a b : CellSequence} {front : List Int32} {v w : Int32}
    (inLeft : front ++ [v] <+: a.content) (inRight : front ++ [w] <+: b.content)
    (differ : v ≠ w) : cmpSequences a b = cellDifference v w := by
  have cellsLeft := inLeft.trans (List.take_prefix _ _)
  have cellsRight := inRight.trans (List.take_prefix _ _)
  have short : front.length ≤ a.count := by
    have bound := inLeft.length_le
    rw [List.length_append, CellSequence.length_content] at bound
    exact Nat.le_of_succ_le_succ bound
  rw [cmpSequences, cmpWrapped]
  cases front with
  | nil =>
      obtain ⟨left, splitLeft⟩ := cellsLeft
      obtain ⟨right, splitRight⟩ := cellsRight
      rw [← splitLeft, ← splitRight]
      exact congrArg Int32.toInt (if_pos differ)
  | cons first rest =>
      have stops := cmpWrappedFrom_of_differ short cellsLeft cellsRight differ
      obtain ⟨left, splitLeft⟩ := cellsLeft
      obtain ⟨right, splitRight⟩ := cellsRight
      have heads : a.cells.headD 0 = b.cells.headD 0 := by
        rw [← splitLeft, ← splitRight]
        rfl
      rw [if_neg (not_not.mpr heads)]
      exact congrArg Int32.toInt stops

theorem comparesFirstDifference_cmpSequences :
    ComparesFirstDifference cellDifference CellSequence.content cmpSequences where
  same _ _ := cmpSequences_of_same
  differ _ _ _ _ _ := cmpSequences_of_differ
  complete _ _ := CellSequence.content_of_prefix

/-- On a set of sequences, `cmp` is a total preorder that is zero exactly between equal
sequences, if and only if after every common beginning the cells that follow are within
half a turn. -/
theorem ordersOn_cmpSequences_iff (items : Set CellSequence) :
    OrdersOn cmpSequences CellSequence.content items ↔
      ∀ front, WithinHalfTurn cellDifference (nextCells CellSequence.content items front) := by
  have cellSelf (v : Int32) : cellDifference v v = 0 :=
    (wrappedDifference_cellDifference.zero v v).mpr rfl
  rw [comparesFirstDifference_cmpSequences.ordersOn_iff cellSelf]
  exact forall_congr' fun _ => wrappedDifference_cellDifference.ordersOn_iff

/-- Entries that are not negative, as those that are read off an image, are ordered. -/
theorem ordersOn_cmpSequences_of_nonneg {items : Set CellSequence}
    (nonneg : ∀ seq ∈ items, ∀ v ∈ seq.content, 0 ≤ v.toInt) :
    OrdersOn cmpSequences CellSequence.content items := by
  apply ordersOn_of_nextCells comparesFirstDifference_cmpSequences
  intro front
  apply wrappedDifference_cellDifference.ordersOn_iff.mpr
  use 0
  intro v mem
  obtain ⟨seq, seqMem, begins⟩ := mem
  have entry : v ∈ seq.content :=
    begins.subset (List.mem_append_right front (List.mem_singleton_self v))
  rw [cellDifference, Int32.sub_zero]
  exact nonneg seq seqMem v entry

/-- Entries that are half a turn apart are each less than the other. -/
theorem not_ordersOn_cmpSequences :
    ¬ OrdersOn cmpSequences CellSequence.content Set.univ := by
  intro orders
  have lower : cmpSequences (CellSequence.single 1073741824)
      (CellSequence.single (-1073741824)) < 0 := by decide
  have higher := (orders.swap (Set.mem_univ _) (Set.mem_univ _)).mp lower
  have back : cmpSequences (CellSequence.single (-1073741824))
      (CellSequence.single 1073741824) < 0 := by decide
  exact higher.not_gt back

end OfxPrimes.Dtouch
