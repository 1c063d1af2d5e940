import Mathlib.Data.List.Induction
import OfxPrimes.Transition.Run

/-!
# Matched intervals in a sequence of events

A sequence of events opens an interval under a label, may touch it while it is
open, and closes it under the same label before it opens the next.  The monitor
`intervalStep` reads such a sequence and remembers the open label; it goes
through exactly on the prefixes of sequences of complete intervals.
-/

namespace OfxPrimes.Transition

universe u

/-- An event that opens, touches or closes an interval. -/
inductive IntervalEvent (ι : Type u)
  | opened (label : ι)
  | touched (label : ι)
  | closed (label : ι)
  deriving DecidableEq, Repr

variable {ι : Type u}

/-- A complete interval that is touched `count` times. -/
def interval (label : ι) (count : Nat) : List (IntervalEvent ι) :=
  .opened label :: List.replicate count (.touched label) ++ [.closed label]

/-- The events of a sequence of complete intervals. -/
def intervals (blocks : List (ι × Nat)) : List (IntervalEvent ι) :=
  blocks.flatMap fun block => interval block.1 block.2

/-- The events begin a sequence of complete intervals. -/
def Matched (events : List (IntervalEvent ι)) : Prop :=
  ∃ blocks, events <+: intervals blocks

variable [DecidableEq ι]

/-- The monitor: its state is the label of the open interval. -/
def intervalStep : Step (Option ι) (IntervalEvent ι)
  | none, .opened label => some (some label)
  | some current, .touched label => if label = current then some (some current) else none
  | some current, .closed label => if label = current then some none else none
  | _, _ => none

theorem run_intervalStep_interval (label : ι) (count : Nat) :
    run intervalStep none (interval label count) = some none := by
  have touches : run intervalStep (some label) (List.replicate count (.touched label)) =
      some (some label) := by
    induction count with
    | zero => rfl
    | succ count ih => simp [List.replicate_succ, intervalStep, ih]
  have closes : run intervalStep (some label) [.closed label] = some none := by
    simp [intervalStep]
  rw [interval, List.cons_append, run_cons]
  simp only [intervalStep, Option.bind_some]
  rw [run_append_of_eq touches, closes]

theorem run_intervalStep_intervals (blocks : List (ι × Nat)) :
    run intervalStep none (intervals blocks) = some none := by
  induction blocks with
  | nil => rfl
  | cons block rest ih =>
      rw [intervals, List.flatMap_cons, run_append_of_eq (run_intervalStep_interval _ _)]
      exact ih

/-- What the monitor has read when it is in a given state. -/
theorem eq_of_run_intervalStep {events : List (IntervalEvent ι)} {final : Option ι}
    (reached : run intervalStep none events = some final) :
    (final = none ∧ ∃ blocks, events = intervals blocks) ∨
      ∃ label blocks count, final = some label ∧
        events = intervals blocks ++ .opened label :: List.replicate count (.touched label) := by
  induction events using List.reverseRecOn generalizing final with
  | nil =>
      cases reached
      exact Or.inl ⟨rfl, [], rfl⟩
  | append_singleton past event ih =>
      rw [run_append] at reached
      rcases Option.bind_eq_some_iff.mp reached with ⟨middle, pastReached, stepped⟩
      rw [run_singleton] at stepped
      rcases ih pastReached with ⟨rfl, blocks, rfl⟩ | ⟨label, blocks, count, rfl, rfl⟩
      · cases event with
        | opened label =>
            cases stepped
            exact Or.inr ⟨label, blocks, 0, rfl, rfl⟩
        | touched label => exact absurd stepped (by simp [intervalStep])
        | closed label => exact absurd stepped (by simp [intervalStep])
      · cases event with
        | opened other => exact absurd stepped (by simp [intervalStep])
        | touched other =>
            simp only [intervalStep] at stepped
            split at stepped
            · rename_i same
              subst same
              cases stepped
              refine Or.inr ⟨other, blocks, count + 1, rfl, ?_⟩
              rw [List.replicate_succ', List.append_assoc, List.cons_append]
            · contradiction
        | closed other =>
            simp only [intervalStep] at stepped
            split at stepped
            · rename_i same
              subst same
              cases stepped
              refine Or.inl ⟨rfl, blocks ++ [(other, count)], ?_⟩
              simp [intervals, interval]
            · contradiction

/-- The monitor goes through exactly on matched sequences. -/
theorem matched_iff_run {events : List (IntervalEvent ι)} :
    Matched events ↔ (run intervalStep none events).isSome := by
  constructor
  · rintro ⟨blocks, rest, whole⟩
    have complete := run_intervalStep_intervals blocks
    rw [← whole, run_append] at complete
    rcases Option.bind_eq_some_iff.mp complete with ⟨middle, reached, -⟩
    rw [reached, Option.isSome_some]
  · intro goesThrough
    rcases Option.isSome_iff_exists.mp goesThrough with ⟨final, reached⟩
    rcases eq_of_run_intervalStep reached with ⟨-, blocks, rfl⟩ | ⟨label, blocks, count, -, rfl⟩
    · exact ⟨blocks, List.prefix_refl _⟩
    · refine ⟨blocks ++ [(label, count)], [.closed label], ?_⟩
      simp [intervals, interval]

end OfxPrimes.Transition
