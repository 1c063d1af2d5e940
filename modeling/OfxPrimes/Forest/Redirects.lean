import Mathlib.Data.Finset.Card
import Mathlib.Data.Finset.Range
import Mathlib.Logic.Function.Basic

/-!
# Forests of redirects

Every node carries a redirect; a node that redirects to itself is a root.  This
leaf follows redirects to their root, and says what linking one root to another,
shortening a chain and adding a fresh root do to the roots that nodes lead to.
-/

namespace OfxPrimes.Forest

universe u

variable {α : Type u} {redirect : α → α} {node root : α} {steps : ℕ}

/-- From `node` the redirects lead to `root` in a number of steps. -/
inductive Leads (redirect : α → α) (root : α) : α → ℕ → Prop
  | root (fixed : redirect root = root) : Leads redirect root root 0
  | step {node : α} {steps : ℕ} (moves : redirect node ≠ node)
      (rest : Leads redirect root (redirect node) steps) :
      Leads redirect root node (steps + 1)

/-- Follow the redirects, for a bounded number of nodes. -/
def chase [DecidableEq α] (redirect : α → α) : ℕ → α → Option α
  | 0, _ => none
  | fuel + 1, node =>
      if redirect node = node then some node else chase redirect fuel (redirect node)

theorem Leads.fixed (leads : Leads redirect root node steps) : redirect root = root := by
  induction leads with
  | root fixed => exact fixed
  | step _ _ ih => exact ih

/-- A node leads to one root, in one number of steps. -/
theorem Leads.unique {other : α} {more : ℕ} (leads : Leads redirect root node steps)
    (leads' : Leads redirect other node more) : root = other ∧ steps = more := by
  induction leads generalizing more with
  | root fixed =>
      cases leads' with
      | root _ => exact ⟨rfl, rfl⟩
      | step moves _ => exact absurd fixed moves
  | step moves _ ih =>
      cases leads' with
      | root fixed => exact absurd fixed moves
      | step _ rest =>
          obtain ⟨same, count⟩ := ih rest
          exact ⟨same, congrArg (· + 1) count⟩

theorem Leads.eq_of_fixed (leads : Leads redirect root node steps)
    (fixed : redirect node = node) : node = root := by
  cases leads with
  | root _ => rfl
  | step moves _ => exact absurd fixed moves

theorem chase_eq_some [DecidableEq α] (leads : Leads redirect root node steps) {fuel : ℕ}
    (enough : steps < fuel) : chase redirect fuel node = some root := by
  induction leads generalizing fuel with
  | root fixed =>
      cases fuel with
      | zero => exact absurd enough (Nat.not_lt_zero _)
      | succ fuel => rw [chase, if_pos fixed]
  | step moves _ ih =>
      cases fuel with
      | zero => exact absurd enough (Nat.not_lt_zero _)
      | succ fuel =>
          rw [chase, if_neg moves]
          exact ih (Nat.lt_of_succ_lt_succ enough)

/-- The nodes on a chain are different from one another. -/
theorem Leads.exists_chain [DecidableEq α] (inside : α → Prop)
    (closed : ∀ node, inside node → inside (redirect node))
    (leads : Leads redirect root node steps) (here : inside node) :
    ∃ chain : Finset α, chain.card = steps + 1 ∧
      ∀ member ∈ chain, inside member ∧
        ∃ count, count ≤ steps ∧ Leads redirect root member count := by
  induction leads with
  | root fixed =>
      apply Exists.intro {root}
      apply And.intro (Finset.card_singleton root)
      intro member mem
      cases Finset.mem_singleton.mp mem
      exact ⟨here, 0, le_rfl, .root fixed⟩
  | @step node steps moves rest ih =>
      obtain ⟨chain, card, members⟩ := ih (closed node here)
      have fresh : node ∉ chain := by
        intro mem
        obtain ⟨_, count, few, leads⟩ := members node mem
        have same : count = steps + 1 := (leads.unique (.step moves rest)).2
        rw [same] at few
        exact Nat.not_succ_le_self steps few
      apply Exists.intro (insert node chain)
      constructor
      · rw [Finset.card_insert_of_notMem fresh, card]
      · intro member mem
        rcases Finset.mem_insert.mp mem with rfl | old
        · exact ⟨here, steps + 1, le_rfl, .step moves rest⟩
        · obtain ⟨within, count, few, leads⟩ := members member old
          exact ⟨within, count, Nat.le_succ_of_le few, leads⟩

/-- A chain has fewer steps than there are nodes for it. -/
theorem Leads.steps_lt {redirect : ℕ → ℕ} {root node steps bound : ℕ}
    (closed : ∀ node < bound, redirect node < bound)
    (leads : Leads redirect root node steps) (here : node < bound) : steps < bound := by
  obtain ⟨chain, card, members⟩ := leads.exists_chain (· < bound) closed here
  have within : chain ⊆ Finset.range bound := by
    intro member mem
    exact Finset.mem_range.mpr (members member mem).1
  calc
    steps < chain.card := by rw [card]; exact Nat.lt_succ_self steps
    _ ≤ (Finset.range bound).card := Finset.card_le_card within
    _ = bound := Finset.card_range bound

theorem Leads.inside {inside : α → Prop} (closed : ∀ node, inside node → inside (redirect node))
    (leads : Leads redirect root node steps) (here : inside node) : inside root := by
  induction leads with
  | root _ => exact here
  | step _ _ ih => exact ih (closed _ here)

variable [DecidableEq α]

/-- A node that no chain passes may be redirected at will. -/
theorem Leads.update_outside {inside : α → Prop}
    (closed : ∀ node, inside node → inside (redirect node)) {fresh target : α}
    (outside : ¬ inside fresh) (leads : Leads redirect root node steps) (here : inside node) :
    Leads (Function.update redirect fresh target) root node steps := by
  have unchanged : ∀ other, inside other →
      Function.update redirect fresh target other = redirect other := by
    intro other within
    apply Function.update_of_ne
    rintro rfl
    exact outside within
  induction leads with
  | root fixed => exact .root (by rw [unchanged root here, fixed])
  | @step node steps moves _ ih =>
      apply Leads.step
      · rw [unchanged node here]
        exact moves
      · rw [unchanged node here]
        exact ih (closed node here)

/-- Once a root is linked to another, the nodes that led to it lead to that other. -/
theorem Leads.link {first second : α} (different : first ≠ second)
    (firstFixed : redirect first = first) (secondFixed : redirect second = second)
    (leads : Leads redirect root node steps) :
    ∃ count, Leads (Function.update redirect first second)
      (if root = first then second else root) node count := by
  have secondRoot : Leads (Function.update redirect first second) second second 0 := by
    apply Leads.root
    rw [Function.update_of_ne different.symm, secondFixed]
  induction leads with
  | root fixed =>
      by_cases linked : root = first
      · subst linked
        rw [if_pos rfl]
        apply Exists.intro 1
        apply Leads.step
        · rw [Function.update_self]
          exact different.symm
        · rw [Function.update_self]
          exact secondRoot
      · rw [if_neg linked]
        apply Exists.intro 0
        apply Leads.root
        rw [Function.update_of_ne linked, fixed]
  | @step node steps moves _ ih =>
      obtain ⟨count, leads⟩ := ih
      have apart : node ≠ first := by
        rintro rfl
        exact moves firstFixed
      apply Exists.intro (count + 1)
      apply Leads.step
      · rw [Function.update_of_ne apart]
        exact moves
      · rw [Function.update_of_ne apart]
        exact leads

/-- A node redirected straight to its root changes the root of no node. -/
theorem Leads.compress {short target : α} {length : ℕ}
    (shortLeads : Leads redirect target short length)
    (leads : Leads redirect root node steps) :
    ∃ count, Leads (Function.update redirect short target) root node count := by
  by_cases fixed : redirect short = short
  · rw [← shortLeads.eq_of_fixed fixed]
    apply Exists.intro steps
    have same : Function.update redirect short short = redirect := by
      conv_lhs => arg 3; rw [← fixed]
      exact Function.update_eq_self short redirect
    rw [same]
    exact leads
  · have apart : target ≠ short := by
      rintro rfl
      exact fixed shortLeads.fixed
    induction leads with
    | root rootFixed =>
        have other : root ≠ short := by
          rintro rfl
          exact fixed rootFixed
        apply Exists.intro 0
        apply Leads.root
        rw [Function.update_of_ne other, rootFixed]
    | @step node steps moves rest ih =>
        by_cases here : node = short
        · subst here
          have same := ((Leads.step moves rest).unique shortLeads).1
          subst same
          apply Exists.intro 1
          apply Leads.step
          · rw [Function.update_self]
            exact apart
          · rw [Function.update_self]
            apply Leads.root
            rw [Function.update_of_ne apart, rest.fixed]
        · obtain ⟨count, leads⟩ := ih
          apply Exists.intro (count + 1)
          apply Leads.step
          · rw [Function.update_of_ne here]
            exact moves
          · rw [Function.update_of_ne here]
            exact leads

end OfxPrimes.Forest
