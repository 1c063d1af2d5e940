import Mathlib.Data.List.Infix
import Mathlib.Order.Nat

/-!
# The first occurrence of a string

The places where one list occurs in another as a contiguous part, and the first
of them.  A list that does not contain a separator cannot occur across it, so in
a text of lines the first occurrence is in the first line that has one.
-/

namespace OfxPrimes.Search

universe u

variable {α : Type u} {little text front rest : List α}

/-- `little` occurs in `text` behind `front`, and nowhere before. -/
structure FirstOccurrence (little text front rest : List α) : Prop where
  split : text = front ++ little ++ rest
  first : ∀ earlier later, text = earlier ++ little ++ later → front.length ≤ earlier.length

namespace FirstOccurrence

/-- An occurrence at the beginning is the first. -/
theorem ofPrefix (little rest : List α) : FirstOccurrence little (little ++ rest) [] rest where
  split := rfl
  first _ _ _ := Nat.zero_le _

theorem unique {front' rest' : List α} (occurs : FirstOccurrence little text front rest)
    (occurs' : FirstOccurrence little text front' rest') : front = front' ∧ rest = rest' := by
  have lengths : front.length = front'.length :=
    le_antisymm (occurs.first _ _ occurs'.split) (occurs'.first _ _ occurs.split)
  have same := occurs.split.symm.trans occurs'.split
  rw [List.append_assoc, List.append_assoc] at same
  obtain ⟨sameFront, sameBack⟩ := List.append_inj same lengths
  exact ⟨sameFront, List.append_cancel_left sameBack⟩

/-- Behind a symbol at which it does not occur, the first occurrence is the same. -/
theorem cons_iff {symbol : α} (notHere : ¬ little <+: symbol :: text) :
    FirstOccurrence little (symbol :: text) front rest ↔
      ∃ front', front = symbol :: front' ∧ FirstOccurrence little text front' rest := by
  constructor
  · intro occurs
    cases front with
    | nil => exact absurd ⟨rest, occurs.split.symm⟩ notHere
    | cons head front' =>
        obtain ⟨rfl, split⟩ := List.cons.inj occurs.split
        refine ⟨front', rfl, split, fun earlier later other => ?_⟩
        have longer := occurs.first (symbol :: earlier) later (by rw [other]; rfl)
        exact Nat.le_of_succ_le_succ longer
  · rintro ⟨front', rfl, occurs⟩
    constructor
    case split => rw [occurs.split]; rfl
    case first =>
      intro earlier later other
      cases earlier with
      | nil => exact absurd ⟨later, other.symm⟩ notHere
      | cons head earlier =>
          exact Nat.succ_le_succ (occurs.first earlier later (List.cons.inj other).2)

/-- What occurs has a first occurrence. -/
theorem exists_of_infix (occurs : little <:+: text) :
    ∃ front rest, FirstOccurrence little text front rest := by
  induction text with
  | nil =>
      obtain rfl := List.infix_nil.mp occurs
      exact ⟨[], [], ofPrefix [] []⟩
  | cons symbol text ih =>
      by_cases here : little <+: symbol :: text
      · obtain ⟨rest, split⟩ := here
        exact ⟨[], rest, split ▸ ofPrefix little rest⟩
      · have later := (List.infix_cons_iff.mp occurs).resolve_left here
        obtain ⟨front, rest, isFirst⟩ := ih later
        exact ⟨symbol :: front, rest, (cons_iff here).mpr ⟨front, rfl, isFirst⟩⟩

theorem isInfix (occurs : FirstOccurrence little text front rest) : little <:+: text :=
  ⟨front, rest, occurs.split.symm⟩

/-- More text behind the occurrence does not matter. -/
theorem append (occurs : FirstOccurrence little text front rest) (more : List α) :
    FirstOccurrence little (text ++ more) front (rest ++ more) := by
  constructor
  case split => rw [occurs.split]; simp
  case first =>
    intro earlier later other
    rcases List.append_eq_append_iff.mp other with ⟨middle, split, -⟩ | ⟨middle, split, -⟩
    · -- The other occurrence reaches beyond the text, so it begins later.
      have total := congrArg List.length split
      have first := congrArg List.length occurs.split
      simp only [List.length_append] at total first
      omega
    · exact occurs.first earlier middle split

/-- An occurrence cannot begin with a separator that is no part of it. -/
theorem skipSeparator {more : List α} {separator : α} (notEmpty : little ≠ [])
    (apart : separator ∉ little) (occurs : FirstOccurrence little more front rest) :
    FirstOccurrence little (separator :: more) (separator :: front) rest := by
  apply (cons_iff ?_).mpr ⟨front, rfl, occurs⟩
  intro here
  cases little with
  | nil => exact notEmpty rfl
  | cons head tail =>
      obtain ⟨rfl, -⟩ := List.cons_prefix_cons.mp here
      exact apart List.mem_cons_self

/-- An occurrence cannot reach across a separator that is no part of it. -/
theorem skip {line more : List α} {separator : α} (absent : ¬ little <:+: line)
    (apart : separator ∉ little) (occurs : FirstOccurrence little more front rest) :
    FirstOccurrence little (line ++ separator :: more) (line ++ separator :: front) rest := by
  induction line with
  | nil =>
      have notEmpty : little ≠ [] := fun empty => absent (List.infix_nil.mpr empty)
      exact skipSeparator notEmpty apart occurs
  | cons symbol line ih =>
      have notLater : ¬ little <:+: line := fun later => absent (List.infix_cons later)
      apply (cons_iff ?_).mpr ⟨_, rfl, ih notLater⟩
      intro here
      have upToSeparator : symbol :: line ++ [separator] <+: symbol :: line ++ separator :: more :=
        ⟨more, by simp⟩
      rcases List.prefix_or_prefix_of_prefix here upToSeparator with within | across
      · rcases List.prefix_concat_iff.mp within with rfl | inLine
        · exact apart (List.mem_append_right _ (List.mem_singleton_self separator))
        · exact absent inLine.isInfix
      · exact apart (across.subset (List.mem_append_right _ (List.mem_singleton_self separator)))

/-- A string whose first symbol is not repeated in it occurs first where it was put, if
it is no part of what is in front. -/
theorem ofAbsent {head : α} {tail : List α} (noRepeat : head ∉ tail)
    (absent : ¬ head :: tail <:+: front) :
    FirstOccurrence (head :: tail) (front ++ (head :: tail) ++ rest) front rest := by
  induction front with
  | nil => exact ofPrefix (head :: tail) rest
  | cons symbol front ih =>
      have notLater : ¬ head :: tail <:+: front := fun later => absent (List.infix_cons later)
      apply (cons_iff ?_).mpr ⟨front, rfl, ih notLater⟩
      intro here
      have upToHead : symbol :: front ++ [head] <+: symbol :: (front ++ (head :: tail) ++ rest) :=
        ⟨tail ++ rest, by simp⟩
      have inTail : ∀ {list : List α}, symbol :: list ++ [head] <+: head :: tail → head ∈ tail := by
        intro list across
        exact (List.cons_prefix_cons.mp across).2.subset
          (List.mem_append_right _ (List.mem_singleton_self head))
      rcases List.prefix_or_prefix_of_prefix here upToHead with within | across
      · rcases List.prefix_concat_iff.mp within with same | inFront
        · have whole : symbol :: front ++ [head] <+: head :: tail :=
            ⟨[], by rw [List.append_nil, same]⟩
          exact noRepeat (inTail whole)
        · exact absent inFront.isInfix
      · exact noRepeat (inTail across)

end FirstOccurrence

end OfxPrimes.Search
