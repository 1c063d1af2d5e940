import Mathlib.Data.List.Basic
import OfxPrimes.Pool.Keyed
import OfxPrimes.Transition.Latch

/-!
# The pages of a set and of a graph

`GuiSet` keeps its pages in a list of pairs and `GuiGraph` in a map.  Both find,
add and remove a page by the id of a fiducial.  A list may hold two pages of one
id: then a lookup finds the first, and a removal uncovers the second.
-/

namespace OfxPrimes.Gui

open OfxPrimes.Pool
open OfxPrimes.Transition

variable {P : Type}

/-- `fiducial_set_t`: a list of ids with pointers to their pages. -/
abbrev FiducialSet (P : Type) :=
  List (Int × P)

/-- `fiducial_graph_t`: a map from ids to pointers to their pages. -/
abbrev FiducialGraph (P : Type) :=
  Int → Option P

namespace GuiSet

/-- `GuiSet::find`, with the page that the iterator points to, or none for `end()`. -/
def find (set : FiducialSet P) (fiducialId : Int) : Option P :=
  (Keyed.lookup Prod.fst fiducialId set).map Prod.snd

/-- `GuiSet::add` without a page.  `newPage` is the page that it creates when it
finds none.  The name of that page is left out: `"Fiducial "+fiducialId` is a pointer
into the text, past its end for an id above 9. -/
def add (set : FiducialSet P) (fiducialId : Int) (newPage : P) : FiducialSet P × Option P :=
  let set :=
    match find set fiducialId with
    | none => set ++ [(fiducialId, newPage)]
    | some _ => set
  (set, find set fiducialId)

/-- `GuiSet::add` with a page. -/
def addPage (set : FiducialSet P) (fiducialId : Int) (newPage : P) :
    FiducialSet P × Option P :=
  (set ++ [(fiducialId, newPage)], some newPage)

/-- `GuiSet::remove`. -/
def remove (set : FiducialSet P) (fiducialId : Int) : FiducialSet P :=
  match find set fiducialId with
  | some _ => Keyed.eraseFirst Prod.fst fiducialId set
  | none => set

end GuiSet

/-- `map::insert`: a key that is there keeps its value. -/
def FiducialGraph.insert (graph : FiducialGraph P) (fiducialId : Int) (page : P) :
    FiducialGraph P :=
  match graph fiducialId with
  | none => Function.update graph fiducialId (some page)
  | some _ => graph

namespace GuiGraph

/-- `GuiGraph::add` without a page.  `newPage` is the page that it creates when it
finds none, its name being left out as in `GuiSet::add`. -/
def add (graph : FiducialGraph P) (fiducialId : Int) (newPage : P) :
    FiducialGraph P × Option P :=
  let graph :=
    match graph fiducialId with
    | none => graph.insert fiducialId newPage
    | some _ => graph
  (graph, graph fiducialId)

/-- `GuiGraph::add` with a page. -/
def addPage (graph : FiducialGraph P) (fiducialId : Int) (newPage : P) :
    FiducialGraph P × Option P :=
  let graph := graph.insert fiducialId newPage
  (graph, graph fiducialId)

/-- `GuiGraph::remove`. -/
def remove (graph : FiducialGraph P) (fiducialId : Int) : FiducialGraph P :=
  match graph fiducialId with
  | some _ => Function.update graph fiducialId none
  | none => graph

end GuiGraph

/-- A call of one of the two containers. -/
inductive PageCall (P : Type)
  | add (fiducialId : Int) (newPage : P)
  | addPage (fiducialId : Int) (newPage : P)
  | remove (fiducialId : Int)
  deriving DecidableEq, Repr

namespace PageCall

/-- What the call makes of a set, and the page it returns. -/
def onSet (set : FiducialSet P) : PageCall P → FiducialSet P × Option P
  | .add fiducialId newPage => GuiSet.add set fiducialId newPage
  | .addPage fiducialId newPage => GuiSet.addPage set fiducialId newPage
  | .remove fiducialId => (GuiSet.remove set fiducialId, none)

/-- What the call makes of a graph, and the page it returns. -/
def onGraph (graph : FiducialGraph P) : PageCall P → FiducialGraph P × Option P
  | .add fiducialId newPage => GuiGraph.add graph fiducialId newPage
  | .addPage fiducialId newPage => GuiGraph.addPage graph fiducialId newPage
  | .remove fiducialId => (GuiGraph.remove graph fiducialId, none)

/-- The set after a list of calls. -/
def runSet (set : FiducialSet P) (calls : List (PageCall P)) : FiducialSet P :=
  calls.foldl (fun set call => (call.onSet set).1) set

/-- The graph after a list of calls. -/
def runGraph (graph : FiducialGraph P) (calls : List (PageCall P)) : FiducialGraph P :=
  calls.foldl (fun graph call => (call.onGraph graph).1) graph

end PageCall

/-! ## The pages of one id -/

/-- The pages that a set holds of an id, in order. -/
def pagesOf (set : FiducialSet P) (id : Int) : List P :=
  (Keyed.ofKey Prod.fst id set).map Prod.snd

theorem find_eq_head? (set : FiducialSet P) (id : Int) :
    GuiSet.find set id = (pagesOf set id).head? := by
  rw [GuiSet.find, Keyed.lookup_eq_head?, pagesOf, List.head?_map]

theorem pagesOf_append (set : FiducialSet P) (id key : Int) (page : P) :
    pagesOf (set ++ [(key, page)]) id =
      if key = id then pagesOf set id ++ [page] else pagesOf set id := by
  split
  · rename_i same
    rw [pagesOf, Keyed.ofKey_append_self same, List.map_append]
    rfl
  · rename_i apart
    rw [pagesOf, Keyed.ofKey_append_of_ne apart]
    rfl

namespace PageCall

/-- What the call makes of the pages that a set holds of an id. -/
def onPages (id : Int) (pages : List P) : PageCall P → List P
  | .add key page => if key = id ∧ pages.isEmpty then [page] else pages
  | .addPage key page => if key = id then pages ++ [page] else pages
  | .remove key => if key = id then pages.tail else pages

/-- What the call makes of the page that a graph holds of an id. -/
def onPage (id : Int) (held : Option P) : PageCall P → Option P
  | .add key page | .addPage key page => if key = id then held.or (some page) else held
  | .remove key => if key = id then none else held

theorem pagesOf_onSet (set : FiducialSet P) (call : PageCall P) (id : Int) :
    pagesOf (call.onSet set).1 id = call.onPages id (pagesOf set id) := by
  cases call with
  | add key page =>
      simp only [onSet, GuiSet.add, onPages, find_eq_head?]
      cases pages : pagesOf set key with
      | nil =>
          simp only [List.head?_nil, pagesOf_append]
          by_cases same : key = id
          · subst same
            simp [pages]
          · simp [same]
      | cons first rest =>
          by_cases same : key = id
          · subst same
            simp [pages]
          · simp [same]
  | addPage key page => exact pagesOf_append set id key page
  | remove key =>
      simp only [onSet, GuiSet.remove, onPages, find_eq_head?]
      cases pages : pagesOf set key with
      | nil =>
          by_cases same : key = id
          · subst same
            simp [pages]
          · simp [same]
      | cons first rest =>
          by_cases same : key = id
          · subst same
            simp [pagesOf, Keyed.ofKey_eraseFirst_self]
          · simp [pagesOf, same, Keyed.ofKey_eraseFirst_of_ne (Ne.symm same)]

/-- Only a removal leaves fewer pages of an id. -/
theorem length_le_onPages {call : PageCall P} {id : Int} (keeps : call ≠ .remove id)
    {pages : List P} : pages.length ≤ (call.onPages id pages).length := by
  cases call with
  | add key page =>
      simp only [onPages]
      split
      · rename_i absent
        rw [List.isEmpty_iff.mp absent.2]
        exact Nat.zero_le _
      · exact Nat.le_refl _
  | addPage key page =>
      simp only [onPages]
      split
      · rw [List.length_append]
        exact Nat.le_add_right _ _
      · exact Nat.le_refl _
  | remove key =>
      have other : key ≠ id := fun same => keeps (congrArg _ same)
      simp only [onPages, if_neg other, Nat.le_refl]

theorem onGraph_apply (graph : FiducialGraph P) (call : PageCall P) (id : Int) :
    (call.onGraph graph).1 id = call.onPage id (graph id) := by
  cases call with
  | add key page =>
      simp only [onGraph, GuiGraph.add, FiducialGraph.insert, onPage]
      by_cases same : key = id
      · subst same
        cases held : graph key <;> simp [held]
      · cases graph key <;> simp [same, Ne.symm same]
  | addPage key page =>
      simp only [onGraph, GuiGraph.addPage, FiducialGraph.insert, onPage]
      by_cases same : key = id
      · subst same
        cases held : graph key <;> simp [held]
      · cases graph key <;> simp [same, Ne.symm same]
  | remove key =>
      simp only [onGraph, GuiGraph.remove, onPage]
      by_cases same : key = id
      · subst same
        cases held : graph key <;> simp [held]
      · cases graph key <;> simp [same, Ne.symm same]

end PageCall

/-- After the call, both containers find the same pages, both have returned the
page that a lookup finds, and neither finds a page that was removed. -/
structure Agree (set : FiducialSet P) (graph : FiducialGraph P) (call : PageCall P) : Prop where
  lookups : ∀ id, GuiSet.find (call.onSet set).1 id = (call.onGraph graph).1 id
  returned : ∀ id page, call = .add id page ∨ call = .addPage id page →
    (call.onSet set).2 = GuiSet.find (call.onSet set).1 id ∧
      (call.onGraph graph).2 = (call.onGraph graph).1 id
  removed : ∀ id, call = .remove id →
    GuiSet.find (call.onSet set).1 id = none ∧ (call.onGraph graph).1 id = none

/-! ## Runs of calls -/

/-- The two containers agree after every call. -/
def AlwaysAgree (set : FiducialSet P) (graph : FiducialGraph P) (calls : List (PageCall P)) :
    Prop :=
  ∀ past call rest, calls = past ++ call :: rest →
    Agree (PageCall.runSet set past) (PageCall.runGraph graph past) call

/-- A page added for an id that has one is that page, and the id is not removed
afterwards. -/
def Unrepeated (graph : FiducialGraph P) (calls : List (PageCall P)) : Prop :=
  ∀ past call rest, calls = past ++ call :: rest →
    ∀ id page, call = .addPage id page →
      ∀ held, PageCall.runGraph graph past id = some held → page = held ∧ .remove id ∉ rest

section Runs

variable {set : FiducialSet P} {graph : FiducialGraph P} {call : PageCall P}
variable {calls : List (PageCall P)}

theorem alwaysAgree_cons :
    AlwaysAgree set graph (call :: calls) ↔
      Agree set graph call ∧ AlwaysAgree (call.onSet set).1 (call.onGraph graph).1 calls :=
  forall_split_cons

theorem unrepeated_cons :
    Unrepeated graph (call :: calls) ↔
      (∀ id page, call = .addPage id page →
        ∀ held, graph id = some held → page = held ∧ .remove id ∉ calls) ∧
      Unrepeated (call.onGraph graph).1 calls :=
  forall_split_cons

theorem head?_tail_eq_none_iff {pages : List P} : pages.tail.head? = none ↔ pages.length ≤ 1 := by
  cases pages with
  | nil => simp
  | cons first rest => simp

theorem find_onSet (id : Int) :
    GuiSet.find (call.onSet set).1 id = (call.onPages id (pagesOf set id)).head? := by
  rw [find_eq_head?, PageCall.pagesOf_onSet]

/-- The lookups agree after a call if they do before it, unless it uncovers a second
page of an id. -/
theorem lookups_onSet (lookups : ∀ id, GuiSet.find set id = graph id)
    (removesLast : ∀ id, call = .remove id → (pagesOf set id).length ≤ 1) (id : Int) :
    GuiSet.find (call.onSet set).1 id = (call.onGraph graph).1 id := by
  have head : (pagesOf set id).head? = graph id := (find_eq_head? set id).symm.trans (lookups id)
  rw [find_onSet, PageCall.onGraph_apply, ← head]
  cases call with
  | add key page =>
      simp only [PageCall.onPages, PageCall.onPage]
      cases pagesOf set id <;> by_cases same : key = id <;> simp [same]
  | addPage key page =>
      simp only [PageCall.onPages, PageCall.onPage]
      by_cases same : key = id
      · simp [same, List.head?_append]
      · simp [same]
  | remove key =>
      simp only [PageCall.onPages, PageCall.onPage]
      by_cases same : key = id
      · rw [if_pos same, if_pos same]
        exact head?_tail_eq_none_iff.mpr (removesLast id (congrArg _ same))
      · rw [if_neg same, if_neg same]

/-- What it takes for a call to agree, when the lookups agree before it. -/
theorem agree_iff (lookups : ∀ id, GuiSet.find set id = graph id) :
    Agree set graph call ↔
      (∀ id page, call = .addPage id page → ∀ held, graph id = some held → page = held) ∧
        ∀ id, call = .remove id → (pagesOf set id).length ≤ 1 := by
  constructor
  · intro agree
    constructor
    · rintro id page rfl held here
      have found := (agree.returned id page (Or.inr rfl)).1
      rw [agree.lookups id, PageCall.onGraph_apply, PageCall.onPage, if_pos rfl, here] at found
      exact Option.some.inj found
    · rintro id rfl
      have gone := (agree.removed id rfl).1
      rw [find_onSet, PageCall.onPages, if_pos rfl] at gone
      exact head?_tail_eq_none_iff.mp gone
  · rintro ⟨addsHeld, removesLast⟩
    have lookupsAfter := lookups_onSet lookups removesLast
    constructor
    case lookups => exact lookupsAfter
    case returned =>
      rintro id page (rfl | rfl)
      · exact ⟨rfl, rfl⟩
      · refine ⟨?_, rfl⟩
        rw [lookupsAfter id, PageCall.onGraph_apply, PageCall.onPage, if_pos rfl]
        cases here : graph id with
        | none => rfl
        | some held => exact congrArg some (addsHeld id page rfl held here)
    case removed =>
      rintro id rfl
      have gone : ((PageCall.remove id).onGraph graph).1 id = none := by
        rw [PageCall.onGraph_apply, PageCall.onPage, if_pos rfl]
      exact ⟨(lookupsAfter id).trans gone, gone⟩

/-- While all calls agree, an id with two pages is not removed. -/
theorem not_mem_remove_of_two {id : Int} (agree : AlwaysAgree set graph calls)
    (two : 2 ≤ (pagesOf set id).length) : .remove id ∉ calls := by
  induction calls generalizing set graph with
  | nil => exact List.not_mem_nil
  | cons call rest ih =>
      obtain ⟨here, later⟩ := alwaysAgree_cons.mp agree
      have keeps : call ≠ .remove id := by
        rintro rfl
        have gone := (here.removed id rfl).1
        rw [find_onSet, PageCall.onPages, if_pos rfl, head?_tail_eq_none_iff] at gone
        exact absurd two (Nat.not_le.mpr (Nat.lt_succ_of_le gone))
      have stillTwo : 2 ≤ (pagesOf (call.onSet set).1 id).length := by
        rw [PageCall.pagesOf_onSet]
        exact two.trans (PageCall.length_le_onPages keeps)
      intro mem
      rcases List.mem_cons.mp mem with same | inRest
      · exact keeps same.symm
      · exact ih later stillTwo inRest

theorem unrepeated_of_agree (lookups : ∀ id, GuiSet.find set id = graph id)
    (agree : AlwaysAgree set graph calls) : Unrepeated graph calls := by
  induction calls generalizing set graph with
  | nil => exact forall_split_nil
  | cons call rest ih =>
      obtain ⟨here, later⟩ := alwaysAgree_cons.mp agree
      rw [unrepeated_cons]
      constructor
      · rintro id page rfl held present
        refine ⟨((agree_iff lookups).mp here).1 id page rfl held present, ?_⟩
        apply not_mem_remove_of_two later
        have found : (pagesOf set id).head? = some held := by
          rw [← find_eq_head?, lookups, present]
        obtain ⟨others, pages⟩ := List.head?_eq_some_iff.mp found
        rw [PageCall.pagesOf_onSet, PageCall.onPages, if_pos rfl, pages]
        simp
      · exact ih here.lookups later

/-- An id has at most one page after a call if it has before it, unless the call adds
a page where one is. -/
theorem lone_onSet (lookups : ∀ id, GuiSet.find set id = graph id) {id : Int}
    (lone : (pagesOf set id).length ≤ 1)
    (addsFirst : ∀ page, call = .addPage id page → graph id = none) :
    (pagesOf (call.onSet set).1 id).length ≤ 1 := by
  rw [PageCall.pagesOf_onSet]
  cases call with
  | add key page =>
      simp only [PageCall.onPages]
      split
      · exact Nat.le_refl _
      · exact lone
  | addPage key page =>
      simp only [PageCall.onPages]
      split
      · rename_i same
        subst same
        have empty : pagesOf set key = [] := by
          rw [← List.head?_eq_none_iff, ← find_eq_head?, lookups, addsFirst page rfl]
        simp [empty]
      · exact lone
  | remove key =>
      simp only [PageCall.onPages]
      split
      · rw [List.length_tail]
        exact (Nat.sub_le _ _).trans lone
      · exact lone

theorem agree_of_unrepeated (lookups : ∀ id, GuiSet.find set id = graph id)
    (lone : ∀ id, .remove id ∈ calls → (pagesOf set id).length ≤ 1)
    (unrepeated : Unrepeated graph calls) : AlwaysAgree set graph calls := by
  induction calls generalizing set graph with
  | nil => exact forall_split_nil
  | cons call rest ih =>
      obtain ⟨here, later⟩ := unrepeated_cons.mp unrepeated
      have agree : Agree set graph call := by
        rw [agree_iff lookups]
        constructor
        · exact fun id page same held present => (here id page same held present).1
        · rintro id rfl
          exact lone id List.mem_cons_self
      rw [alwaysAgree_cons]
      refine ⟨agree, ih agree.lookups ?_ later⟩
      intro id removedLater
      apply lone_onSet lookups (lone id (List.mem_cons_of_mem _ removedLater))
      intro page same
      -- a page of this id that was there would not be removed later
      apply Option.eq_none_iff_forall_ne_some.mpr
      intro held present
      exact absurd removedLater (here id page same held present).2

end Runs

/-- A set and a graph that start empty agree after every call exactly if a page
is added for an id that has one only when it is that very page, and the id is
not removed afterwards. -/
theorem alwaysAgree_iff (calls : List (PageCall P)) :
    AlwaysAgree [] (fun _ => none) calls ↔ Unrepeated (fun _ => none) calls := by
  constructor
  · exact unrepeated_of_agree fun id => rfl
  · exact agree_of_unrepeated (fun id => rfl) fun id _ => Nat.zero_le _

/-- A second page for an id is returned and not found, and found after the id is
removed. -/
theorem not_alwaysAgree_second_page :
    ¬ AlwaysAgree [] (fun _ => none) [.addPage 1 'a', .addPage 1 'b', .remove 1] := by
  intro agree
  have returned := (agree [.addPage 1 'a'] (.addPage 1 'b') [.remove 1] rfl).returned 1 'b'
    (Or.inr rfl)
  exact absurd returned.1 (by decide)

end OfxPrimes.Gui
