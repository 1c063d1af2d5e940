import Mathlib.Data.List.Chain
import Mathlib.Data.List.Induction

/-!
# Latches over a sequence of events

Some events set a latch and some clear it.  `latch` reads the position of the
latch after a sequence of events, and `Guarded` says that each event of the
sequence occurs only in a position that admits it.  Both are stated through the
splits of the sequence at an event, which is how a reader sees them.
-/

namespace OfxPrimes.Transition

universe u

variable {ε : Type u}

/-- The empty list has no split at an element. -/
theorem forall_split_nil {P : List ε → ε → List ε → Prop} (past : List ε) (event : ε)
    (rest : List ε) (whole : [] = past ++ event :: rest) : P past event rest :=
  absurd whole (List.append_ne_nil_of_right_ne_nil past (List.cons_ne_nil event rest)).symm

/-- What holds of every split of a list at an element, element by element. -/
theorem forall_split_cons {P : List ε → ε → List ε → Prop} {head : ε} {tail : List ε} :
    (∀ past event rest, head :: tail = past ++ event :: rest → P past event rest) ↔
      P [] head tail ∧
        ∀ past event rest, tail = past ++ event :: rest → P (head :: past) event rest := by
  constructor
  · intro all
    constructor
    · exact all [] head tail rfl
    · intro past event rest whole
      exact all (head :: past) event rest (by rw [whole, List.cons_append])
  · rintro ⟨first, later⟩ past event rest whole
    rcases List.cons_eq_append_iff.mp whole with ⟨rfl, same⟩ | ⟨front, rfl, split⟩
    · cases same
      exact first
    · exact later front event rest split

theorem forall_split_pair {P : List ε → ε → Prop} {first second : ε} :
    (∀ past event rest, [first, second] = past ++ event :: rest → P past event) ↔
      P [] first ∧ P [first] second := by
  have none : ∀ past event rest, ([] : List ε) = past ++ event :: rest →
      P (first :: second :: past) event := forall_split_nil
  rw [forall_split_cons (P := fun past event _ => P past event),
    forall_split_cons (P := fun past event _ => P (first :: past) event), and_iff_left none]

/-- What holds of every element of a list and the part before it, from the end of
the list on. -/
theorem forall_split_append_singleton {P : List ε → ε → Prop} {front : List ε} {last : ε} :
    (∀ past event rest, front ++ [last] = past ++ event :: rest → P past event) ↔
      (∀ past event rest, front = past ++ event :: rest → P past event) ∧ P front last := by
  constructor
  · intro all
    constructor
    · intro past event rest whole
      exact all past event (rest ++ [last]) (by rw [whole, List.append_assoc, List.cons_append])
    · exact all front last [] rfl
  · rintro ⟨earlier, atEnd⟩ past event rest whole
    rcases List.eq_nil_or_concat rest with rfl | ⟨middle, final, rfl⟩
    · obtain ⟨rfl, same⟩ := List.append_inj' whole rfl
      rw [← (List.cons.inj same).1]
      exact atEnd
    · rw [List.concat_eq_append, ← List.cons_append, ← List.append_assoc] at whole
      exact earlier past event middle (List.append_inj' whole rfl).1

/-- The latch after one more event.  An event that sets and clears sets. -/
def latchStep (sets clears : ε → Bool) (held : Bool) (event : ε) : Bool :=
  if sets event then true else if clears event then false else held

/-- The latch after a sequence of events. -/
def latch (sets clears : ε → Bool) (held : Bool) (events : List ε) : Bool :=
  events.foldl (latchStep sets clears) held

variable {sets clears : ε → Bool} {held : Bool}

@[simp]
theorem latch_cons (event : ε) (rest : List ε) :
    latch sets clears held (event :: rest) =
      latch sets clears (latchStep sets clears held event) rest :=
  rfl

theorem latch_append (first second : List ε) :
    latch sets clears held (first ++ second) =
      latch sets clears (latch sets clears held first) second :=
  List.foldl_append

theorem latch_append_singleton (past : List ε) (event : ε) :
    latch sets clears held (past ++ [event]) =
      latchStep sets clears (latch sets clears held past) event :=
  latch_append past [event]

theorem latchStep_of_sets {event : ε} (set : sets event = true) :
    latchStep sets clears held event = true :=
  if_pos set

/-- A sequence without a clearing event leaves a latch that is set as it is. -/
theorem latch_true_of_forall {events : List ε}
    (kept : ∀ event ∈ events, clears event = false) :
    latch sets clears true events = true := by
  induction events with
  | nil => rfl
  | cons event rest ih =>
      have here : latchStep sets clears true event = true := by
        simp [latchStep, kept event List.mem_cons_self]
      rw [latch_cons, here]
      exact ih fun later mem => kept later (List.mem_cons_of_mem _ mem)

/-- A latch that starts out is set exactly after an event that sets it with no
event since that clears it. -/
theorem latch_iff {events : List ε} :
    latch sets clears false events = true ↔
      ∃ past event rest, events = past ++ event :: rest ∧ sets event = true ∧
        ∀ later ∈ rest, clears later = false := by
  constructor
  · intro isSet
    induction events using List.reverseRecOn with
    | nil => exact absurd isSet Bool.false_ne_true
    | append_singleton events last ih =>
        rw [latch_append_singleton, latchStep] at isSet
        split at isSet
        · rename_i setHere
          exact ⟨events, last, [], rfl, setHere, fun later mem => absurd mem List.not_mem_nil⟩
        · split at isSet
          · contradiction
          · rename_i keptHere
            obtain ⟨past, event, rest, whole, setBefore, kept⟩ := ih isSet
            refine ⟨past, event, rest ++ [last], by rw [whole]; simp, setBefore, ?_⟩
            intro later mem
            rcases List.mem_append.mp mem with before | atEnd
            · exact kept later before
            · rw [List.mem_singleton.mp atEnd]
              exact Bool.eq_false_iff.mpr keptHere
  · rintro ⟨past, event, rest, rfl, setHere, kept⟩
    rw [latch_append, latch_cons, latchStep_of_sets setHere]
    exact latch_true_of_forall kept

/-! ## Guarded sequences -/

/-- Each event of the sequence is admitted by the position of the latch at it. -/
def Guarded (sets clears : ε → Bool) (allowed : Bool → ε → Prop) (events : List ε) : Prop :=
  ∀ past event rest, events = past ++ event :: rest →
    allowed (latch sets clears false past) event

variable {allowed : Bool → ε → Prop}

theorem guarded_nil : Guarded sets clears allowed [] :=
  forall_split_nil

theorem guarded_append_singleton {events : List ε} {last : ε}
    (guarded : Guarded sets clears allowed events)
    (admitted : allowed (latch sets clears false events) last) :
    Guarded sets clears allowed (events ++ [last]) :=
  forall_split_append_singleton.mpr ⟨guarded, admitted⟩

/-- Between two events that are admitted only while the latch is not set, the
first of which sets it, there is one that clears it. -/
theorem exists_clears_between {events past between rest : List ε} {first second : ε}
    (guarded : Guarded sets clears allowed events)
    (whole : events = past ++ first :: between ++ second :: rest)
    (setsFirst : sets first = true) (needsOff : ¬ allowed true second) :
    ∃ event ∈ between, clears event = true := by
  by_contra none
  have kept : ∀ event ∈ between, clears event = false := by
    intro event mem
    apply Bool.eq_false_iff.mpr
    exact fun cleared => none ⟨event, mem, cleared⟩
  have isSet : latch sets clears false (past ++ first :: between) = true :=
    latch_iff.mpr ⟨past, first, between, rfl, setsFirst, kept⟩
  have admitted := guarded (past ++ first :: between) second rest whole
  rw [isSet] at admitted
  exact needsOff admitted

end OfxPrimes.Transition
