import Mathlib.Data.List.Basic
import Mathlib.Data.List.Induction

/-!
# Runs of partial step functions

A step function takes a state and one input and either yields the next state
or goes wrong.  This leaf collects the induction rules used for such runs: a
run splits at any point of its input, an invariant of the steps is an
invariant of the run, and two systems that agree on the inputs they share
simulate one another.
-/

namespace OfxPrimes.Transition

universe u v w

/-- A deterministic step on one input.  `none` is a step that goes wrong. -/
abbrev Step (σ : Type u) (ι : Type v) :=
  σ → ι → Option σ

variable {σ : Type u} {τ : Type w} {ι : Type v}

/-- Feed a list of inputs to a step function.  A step that goes wrong ends the
whole run. -/
def run (step : Step σ ι) : σ → List ι → Option σ
  | state, [] => some state
  | state, input :: rest => (step state input).bind fun next => run step next rest

@[simp]
theorem run_nil (step : Step σ ι) (state : σ) : run step state [] = some state :=
  rfl

@[simp]
theorem run_cons (step : Step σ ι) (state : σ) (input : ι) (rest : List ι) :
    run step state (input :: rest) =
      (step state input).bind fun next => run step next rest :=
  rfl

/-- A run over a concatenation is a run over the first part followed by a run
over the second. -/
theorem run_append (step : Step σ ι) (state : σ) (first second : List ι) :
    run step state (first ++ second) =
      (run step state first).bind fun middle => run step middle second := by
  induction first generalizing state with
  | nil => rfl
  | cons input rest ih =>
      simp only [List.cons_append, run_cons, Option.bind_assoc]
      congr 1
      funext next
      exact ih next

theorem run_append_of_eq {step : Step σ ι} {state middle : σ} {first : List ι}
    (reached : run step state first = some middle) (second : List ι) :
    run step state (first ++ second) = run step middle second := by
  rw [run_append, reached, Option.bind_some]

theorem run_singleton (step : Step σ ι) (state : σ) (input : ι) :
    run step state [input] = step state input := by
  cases stepped : step state input <;> simp [stepped]

/-- A run over inputs that come in pieces is a run over the pieces. -/
theorem run_flatMap {κ : Type*} (step : Step σ ι) (pieces : κ → List ι) (state : σ)
    (items : List κ) :
    run step state (items.flatMap pieces) =
      run (fun state item => run step state (pieces item)) state items := by
  induction items generalizing state with
  | nil => rfl
  | cons item rest ih =>
      rw [List.flatMap_cons, run_append, run_cons]
      congr 1
      funext next
      exact ih next

/-- Every step of the run from `state` is taken on an input that `allowed`
admits in the state before it. -/
def Meets (step : Step σ ι) (allowed : σ → ι → Prop) : σ → List ι → Prop
  | _, [] => True
  | state, input :: rest =>
      allowed state input ∧
        ∀ next, step state input = some next → Meets step allowed next rest

instance Meets.decidable {step : Step σ ι} {allowed : σ → ι → Prop}
    [∀ state input, Decidable (allowed state input)] :
    ∀ state inputs, Decidable (Meets step allowed state inputs)
  | _, [] => isTrue trivial
  | state, input :: rest =>
      match stepped : step state input with
      | none =>
          decidable_of_iff (allowed state input) <| by simp [Meets, stepped]
      | some next =>
          have : Decidable (Meets step allowed next rest) := Meets.decidable next rest
          decidable_of_iff (allowed state input ∧ Meets step allowed next rest) <| by
            simp [Meets, stepped]

theorem Meets.of_append {step : Step σ ι} {allowed : σ → ι → Prop} {state : σ}
    {first second : List ι} (meets : Meets step allowed state (first ++ second)) :
    Meets step allowed state first := by
  induction first generalizing state with
  | nil => trivial
  | cons input rest ih =>
      exact ⟨meets.1, fun next stepped => ih (meets.2 next stepped)⟩

theorem Meets.append {step : Step σ ι} {allowed : σ → ι → Prop} {state : σ}
    {first second : List ι} (before : Meets step allowed state first)
    (after : ∀ middle, run step state first = some middle → Meets step allowed middle second) :
    Meets step allowed state (first ++ second) := by
  induction first generalizing state with
  | nil => exact after state rfl
  | cons input rest ih =>
      constructor
      · exact before.1
      · intro next stepped
        apply ih (before.2 next stepped)
        intro middle reached
        exact after middle (by rw [run_cons, stepped, Option.bind_some, reached])

/-- When exactly the admitted steps do not go wrong, exactly the runs of admitted
steps do not go wrong. -/
theorem meets_iff_exists_run {step : Step σ ι} {allowed : σ → ι → Prop}
    (exact : ∀ state input, allowed state input ↔ ∃ next, step state input = some next)
    (state : σ) (inputs : List ι) :
    Meets step allowed state inputs ↔ ∃ final, run step state inputs = some final := by
  induction inputs generalizing state with
  | nil => exact ⟨fun _ => ⟨state, rfl⟩, fun _ => trivial⟩
  | cons input rest ih =>
      constructor
      · rintro ⟨admitted, later⟩
        rcases (exact state input).mp admitted with ⟨next, stepped⟩
        rcases (ih next).mp (later next stepped) with ⟨final, reached⟩
        exact ⟨final, by rw [run_cons, stepped, Option.bind_some, reached]⟩
      · rintro ⟨final, reached⟩
        rcases Option.bind_eq_some_iff.mp reached with ⟨next, stepped, after⟩
        constructor
        · exact (exact state input).mpr ⟨next, stepped⟩
        · intro other steppedOther
          cases stepped.symm.trans steppedOther
          exact (ih next).mpr ⟨final, after⟩

section Invariants

variable {step : Step σ ι} {allowed : σ → ι → Prop} {Inv : σ → Prop}

/-- When admitted steps never go wrong and keep a property, a run of admitted
steps does not go wrong and ends with that property. -/
theorem exists_run_of_meets
    (progress : ∀ ⦃state input⦄, Inv state → allowed state input →
      ∃ next, step state input = some next ∧ Inv next)
    {inputs : List ι} {state : σ} (start : Inv state)
    (meets : Meets step allowed state inputs) :
    ∃ final, run step state inputs = some final ∧ Inv final := by
  induction inputs generalizing state with
  | nil => exact ⟨state, rfl, start⟩
  | cons input rest ih =>
      obtain ⟨next, stepped, nextInv⟩ := progress start meets.1
      obtain ⟨final, reached, finalInv⟩ := ih nextInv (meets.2 next stepped)
      exact ⟨final, by simp [stepped, reached], finalInv⟩

/-- When a step on any of the inputs never goes wrong and keeps a property, the run
does not go wrong and ends with that property. -/
theorem exists_run_of_progress (Inv : σ → Prop) {inputs : List ι}
    (progress : ∀ ⦃state⦄, Inv state → ∀ input ∈ inputs,
      ∃ next, step state input = some next ∧ Inv next)
    {state : σ} (start : Inv state) :
    ∃ final, run step state inputs = some final ∧ Inv final := by
  induction inputs generalizing state with
  | nil => exact ⟨state, rfl, start⟩
  | cons input rest ih =>
      obtain ⟨next, stepped, nextInv⟩ := progress start input List.mem_cons_self
      have later : ∀ ⦃state⦄, Inv state → ∀ input ∈ rest,
          ∃ next, step state input = some next ∧ Inv next :=
        fun _ inv input mem => progress inv input (List.mem_cons_of_mem _ mem)
      obtain ⟨final, reached, finalInv⟩ := ih later nextInv
      exact ⟨final, by simp [stepped, reached], finalInv⟩

/-- A loop over consecutive numbers, whose property may depend on the number. -/
theorem exists_run_range' (step : Step σ ℕ) (first count : ℕ) (Inv : ℕ → σ → Prop)
    (progress : ∀ i, first ≤ i → i < first + count → ∀ ⦃state⦄, Inv i state →
      ∃ next, step state i = some next ∧ Inv (i + 1) next)
    {state : σ} (start : Inv first state) :
    ∃ final, run step state (List.range' first count) = some final ∧
      Inv (first + count) final := by
  induction count generalizing first state with
  | zero => exact ⟨state, rfl, start⟩
  | succ count ih =>
      have order : first + 1 + count = first + (count + 1) := by
        rw [Nat.add_assoc, Nat.add_comm 1]
      obtain ⟨next, stepped, nextInv⟩ := progress first (Nat.le_refl first)
        (Nat.lt_add_of_pos_right (Nat.succ_pos count)) start
      have later : ∀ i, first + 1 ≤ i → i < first + 1 + count → ∀ ⦃state⦄, Inv i state →
          ∃ next, step state i = some next ∧ Inv (i + 1) next := by
        intro i above below
        exact progress i (Nat.le_of_succ_le above) (order ▸ below)
      obtain ⟨final, reached, finalInv⟩ := ih (first + 1) later nextInv
      rw [order] at finalInv
      exact ⟨final, by simp [List.range'_succ, stepped, reached], finalInv⟩

/-- A property that every admitted step keeps holds at the end of every run of
admitted steps. -/
theorem run_invariant_of_meets (Inv : σ → Prop)
    (preserved : ∀ ⦃state input next⦄, Inv state → allowed state input →
      step state input = some next → Inv next)
    {inputs : List ι} {state final : σ} (start : Inv state)
    (meets : Meets step allowed state inputs)
    (reached : run step state inputs = some final) : Inv final := by
  induction inputs generalizing state with
  | nil =>
      cases Option.some.inj reached
      exact start
  | cons input rest ih =>
      rcases Option.bind_eq_some_iff.mp reached with ⟨next, stepped, after⟩
      exact ih (preserved start meets.1 stepped) (meets.2 next stepped) after

/-- A run over inputs satisfying `good` keeps a property that every step on a
good input keeps. -/
theorem run_invariant_of_forall_mem (good : ι → Prop) (Inv : σ → Prop)
    (preserved : ∀ ⦃state input next⦄, Inv state → good input →
      step state input = some next → Inv next)
    {inputs : List ι} {state final : σ} (start : Inv state)
    (inputsGood : ∀ input ∈ inputs, good input)
    (reached : run step state inputs = some final) : Inv final := by
  induction inputs generalizing state with
  | nil =>
      cases Option.some.inj reached
      exact start
  | cons input rest ih =>
      obtain ⟨next, stepped, after⟩ := Option.bind_eq_some_iff.mp reached
      have nextInv := preserved start (inputsGood input List.mem_cons_self) stepped
      exact ih nextInv (fun later mem => inputsGood later (List.mem_cons_of_mem _ mem)) after

end Invariants

/-! ## Total steps -/

section TotalSteps

variable {next : σ → ι → σ} {allowed : σ → ι → Prop} {state : σ} {inputs : List ι}

/-- What every step of a run keeps holds all along the run. -/
theorem foldl_invariant (Inv : σ → Prop) (start : Inv state)
    (kept : ∀ past input rest, inputs = past ++ input :: rest →
      Inv (past.foldl next state) → Inv (next (past.foldl next state) input))
    (past rest : List ι) (whole : inputs = past ++ rest) : Inv (past.foldl next state) := by
  induction past using List.reverseRecOn generalizing rest with
  | nil => exact start
  | append_singleton past input ih =>
      rw [List.append_assoc, List.singleton_append] at whole
      rw [List.foldl_append]
      exact kept past input rest whole (ih _ whole)

/-- When a total step keeps a property exactly if it is admitted, the property
holds all along a run exactly if every step of the run is admitted. -/
theorem foldl_invariant_iff (Inv : σ → Prop)
    (kept : ∀ ⦃state⦄, Inv state → ∀ input, Inv (next state input) ↔ allowed state input)
    (start : Inv state) (inputs : List ι) :
    (∀ past rest, inputs = past ++ rest → Inv (past.foldl next state)) ↔
      ∀ past input rest, inputs = past ++ input :: rest →
        allowed (past.foldl next state) input := by
  constructor
  · intro invariant past input rest whole
    have before := invariant past (input :: rest) whole
    have after := invariant (past ++ [input]) rest (by rw [whole, List.append_cons])
    rw [List.foldl_append] at after
    exact (kept before input).mp after
  · intro admitted
    apply foldl_invariant Inv start
    intro past input rest whole before
    exact (kept before input).mpr (admitted past input rest whole)

/-- When admitted steps keep a property, with which a step does well exactly if it is
admitted, every step of a run does well exactly if every step is admitted. -/
theorem foldl_good_iff {Good : σ → ι → Prop} (Inv : σ → Prop)
    (kept : ∀ ⦃state input⦄, Inv state → allowed state input → Inv (next state input))
    (good : ∀ ⦃state⦄, Inv state → ∀ input, Good state input ↔ allowed state input)
    (start : Inv state) (inputs : List ι) :
    (∀ past input rest, inputs = past ++ input :: rest → Good (past.foldl next state) input) ↔
      ∀ past input rest, inputs = past ++ input :: rest →
        allowed (past.foldl next state) input := by
  constructor
  · intro allGood past input rest whole
    have before : Inv (past.foldl next state) := by
      apply foldl_invariant Inv start _ past (input :: rest) whole
      intro past input rest whole before
      exact kept before ((good before input).mp (allGood past input rest whole))
    exact (good before input).mp (allGood past input rest whole)
  · intro admitted past input rest whole
    have before : Inv (past.foldl next state) := by
      apply foldl_invariant Inv start _ past (input :: rest) whole
      intro past input rest whole before
      exact kept before (admitted past input rest whole)
    exact (good before input).mpr (admitted past input rest whole)

end TotalSteps

end OfxPrimes.Transition
