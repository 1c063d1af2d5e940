import OfxPrimes.Fidtrack.Charted

/-!
# References to regions

A pixel knows its region through a reference, which is redirected when the region is
merged into another.  Redirects never run in circles, every root refers to a region
in use, and no two roots refer to one region.
-/

namespace OfxPrimes.Fidtrack

open Forest Segmenter

variable {s s' : Segmenter} {ref target r r1 r2 : ℕ}

/-- The references form a forest whose roots refer to different regions in use. -/
structure References (s : Segmenter) : Prop where
  closed : ∀ ref < s.regionRefCount, s.redirect ref < s.regionRefCount
  leads : ∀ ref < s.regionRefCount, ∃ root steps, Leads s.redirect root ref steps
  rooted : ∀ ref < s.regionRefCount, s.redirect ref = ref →
    ∃ r, s.regionOf ref = some r ∧ s.outline.Live r
  injective : ∀ ref < s.regionRefCount, ∀ ref' < s.regionRefCount,
    s.redirect ref = ref → s.redirect ref' = ref' → s.regionOf ref = s.regionOf ref' → ref = ref'

/-- The root that `ref` leads to refers to the region. -/
def Segmenter.Denotes (s : Segmenter) (ref r : ℕ) : Prop :=
  ref < s.regionRefCount ∧
    ∃ root steps, Leads s.redirect root ref steps ∧ s.regionOf root = some r

/-- A root refers to the region. -/
structure Segmenter.Refers (s : Segmenter) (ref r : ℕ) : Prop where
  inside : ref < s.regionRefCount
  fixed : s.redirect ref = ref
  region : s.regionOf ref = some r

theorem Segmenter.Refers.denotes (refers : s.Refers ref r) : s.Denotes ref r :=
  ⟨refers.inside, ref, 0, .root refers.fixed, refers.region⟩

/-- Nothing but regions changes. -/
structure KeepsReferences (s s' : Segmenter) : Prop where
  regionRefs : s'.regionRefs = s.regionRefs
  regionRefCount : s'.regionRefCount = s.regionRefCount

theorem KeepsReferences.of_withoutLinks (same : s'.withoutLinks = s.withoutLinks) :
    KeepsReferences s s' := by
  have refs := congrArg Segmenter.regionRefs same
  have count := congrArg Segmenter.regionRefCount same
  exact ⟨refs, count⟩

theorem KeepsReferences.modifyRegion (s : Segmenter) (r : ℕ) (change : Region → Region) :
    KeepsReferences s (s.modifyRegion r change) :=
  ⟨rfl, rfl⟩

theorem KeepsReferences.closeRight (s : Segmenter) (r x : ℕ) :
    KeepsReferences s (s.closeRight r x) := by
  rw [Segmenter.closeRight]
  split <;> exact ⟨rfl, rfl⟩

section Kept

variable (keeps : KeepsReferences s s')
include keeps

theorem KeepsReferences.redirect_eq : s'.redirect = s.redirect := by
  funext ref
  rw [redirect, keeps.regionRefs]
  rfl

theorem KeepsReferences.regionOf_eq : s'.regionOf = s.regionOf := by
  funext ref
  rw [regionOf, keeps.regionRefs]
  rfl

theorem KeepsReferences.refers (refers : s.Refers ref r) : s'.Refers ref r where
  inside := keeps.regionRefCount ▸ refers.inside
  fixed := keeps.redirect_eq ▸ refers.fixed
  region := keeps.regionOf_eq ▸ refers.region

theorem KeepsReferences.denotes (denotes : s.Denotes ref r) : s'.Denotes ref r := by
  rw [Denotes, keeps.regionRefCount, keeps.redirect_eq, keeps.regionOf_eq]
  exact denotes

theorem KeepsReferences.references (references : References s)
    (live : ∀ r, s.outline.Live r → s'.outline.Live r) : References s' where
  closed ref inside := by
    rw [keeps.regionRefCount] at inside ⊢
    rw [keeps.redirect_eq]
    exact references.closed ref inside
  leads ref inside := by
    rw [keeps.regionRefCount] at inside
    rw [keeps.redirect_eq]
    exact references.leads ref inside
  rooted ref inside fixed := by
    rw [keeps.regionRefCount] at inside
    rw [keeps.redirect_eq] at fixed
    obtain ⟨r, region, liveR⟩ := references.rooted ref inside fixed
    rw [keeps.regionOf_eq]
    exact ⟨r, region, live r liveR⟩
  injective ref inside ref' inside' fixed fixed' same := by
    rw [keeps.regionRefCount] at inside inside'
    rw [keeps.redirect_eq] at fixed fixed'
    rw [keeps.regionOf_eq] at same
    exact references.injective ref inside ref' inside' fixed fixed' same

end Kept

/-- Roots that refer to one region are one. -/
theorem References.eq_of_refers (references : References s) (refers : s.Refers ref r)
    (refers' : s.Refers target r) : ref = target :=
  references.injective ref refers.inside target refers'.inside refers.fixed refers'.fixed
    (refers.region.trans refers'.region.symm)

/-! ## Resolved redirects -/

/-- Only references change, and they refer to the regions that they did before. -/
structure Resolves (s s' : Segmenter) : Prop where
  others : s' = { s with regionRefs := s'.regionRefs }
  references : References s'
  denotes : ∀ ref r, s.Denotes ref r → s'.Denotes ref r
  refers : ∀ ref r, s.Refers ref r → s'.Refers ref r

theorem Resolves.regions (resolves : Resolves s s') : s'.regions = s.regions := by
  rw [resolves.others]

theorem setRedirect_redirect (s : Segmenter) (ref target : ℕ) :
    (s.setRedirect ref target).redirect = Function.update s.redirect ref target := by
  funext other
  by_cases here : other = ref
  · simp only [redirect, setRedirect, here, Function.update_self]
  · simp only [redirect, setRedirect, Function.update_of_ne here]

theorem setRedirect_regionOf (s : Segmenter) (ref target : ℕ) :
    (s.setRedirect ref target).regionOf = s.regionOf := by
  funext other
  by_cases here : other = ref
  · simp only [regionOf, setRedirect, here, Function.update_self]
  · simp only [regionOf, setRedirect, Function.update_of_ne here]

theorem resolveRedirects_spec (references : References s) (denotes : s.Denotes ref r) :
    ∃ s' root, resolveRedirects s ref = some (s', root) ∧ Resolves s s' ∧ s'.Refers root r := by
  obtain ⟨inside, root, steps, leads, region⟩ := denotes
  by_cases fixed : s.redirect ref = ref
  · have same := leads.eq_of_fixed fixed
    subst same
    refine ⟨s, ref, if_neg (not_not_intro fixed), ?_, inside, fixed, region⟩
    exact ⟨rfl, references, fun _ _ => id, fun _ _ => id⟩
  · have found := chase_eq_some leads (leads.steps_lt references.closed inside)
    have insideRoot := leads.inside references.closed inside
    have redirect' := setRedirect_redirect s ref root
    have regionOf' := setRedirect_regionOf s ref root
    have apart : root ≠ ref := by
      rintro rfl
      exact fixed leads.fixed
    have fixedOf : ∀ other, Function.update s.redirect ref root other = other →
        s.redirect other = other := by
      intro other fixedOther
      by_cases here : other = ref
      · rw [here, Function.update_self] at fixedOther
        exact absurd fixedOther apart
      · rw [Function.update_of_ne here] at fixedOther
        exact fixedOther
    have fixedTo : ∀ other, s.redirect other = other →
        Function.update s.redirect ref root other = other := by
      intro other fixedOther
      have elsewhere : other ≠ ref := by
        rintro rfl
        exact fixed fixedOther
      rw [Function.update_of_ne elsewhere, fixedOther]
    refine ⟨s.setRedirect ref root, root, ?_, ⟨rfl, ?_, ?_, ?_⟩, ?_⟩
    · rw [resolveRedirects, if_pos fixed, found]
      rfl
    · constructor
      · intro other insideOther
        rw [redirect']
        by_cases here : other = ref
        · rw [here, Function.update_self]
          exact insideRoot
        · rw [Function.update_of_ne here]
          exact references.closed other insideOther
      · intro other insideOther
        obtain ⟨top, count, leadsOther⟩ := references.leads other insideOther
        obtain ⟨count', leadsOther'⟩ := leads.compress leadsOther
        rw [redirect']
        exact ⟨top, count', leadsOther'⟩
      · intro other insideOther fixedOther
        rw [redirect'] at fixedOther
        rw [regionOf']
        exact references.rooted other insideOther (fixedOf other fixedOther)
      · intro other insideOther other' insideOther' fixedOther fixedOther' same
        rw [redirect'] at fixedOther fixedOther'
        rw [regionOf'] at same
        exact references.injective other insideOther other' insideOther'
          (fixedOf other fixedOther) (fixedOf other' fixedOther') same
    · rintro other r' ⟨insideOther, top, count, leadsOther, regionOther⟩
      obtain ⟨count', leadsOther'⟩ := leads.compress leadsOther
      refine ⟨insideOther, top, count', ?_, ?_⟩
      · rw [redirect']
        exact leadsOther'
      · rw [regionOf']
        exact regionOther
    · intro other r' refers
      refine ⟨refers.inside, ?_, ?_⟩
      · rw [redirect']
        exact fixedTo other refers.fixed
      · rw [regionOf']
        exact refers.region
    · refine ⟨insideRoot, ?_, ?_⟩
      · rw [redirect']
        exact fixedTo root leads.fixed
      · rw [regionOf']
        exact region

/-! ## New references -/

theorem addRegion_redirect (s : Segmenter) (x y : ℕ) (colour : UInt8) :
    (s.addRegion x y colour).redirect =
      Function.update s.redirect s.regionRefCount s.regionRefCount := by
  funext other
  by_cases here : other = s.regionRefCount
  · simp only [redirect, addRegion, here, Function.update_self]
  · simp only [redirect, addRegion, Function.update_of_ne here]

theorem addRegion_regionOf (s : Segmenter) (x y : ℕ) (colour : UInt8) :
    (s.addRegion x y colour).regionOf =
      Function.update s.regionOf s.regionRefCount (some s.nextRegion) := by
  funext other
  by_cases here : other = s.regionRefCount
  · simp only [regionOf, addRegion, here, Function.update_self]
  · simp only [regionOf, addRegion, Function.update_of_ne here]

theorem addRegion_refers (s : Segmenter) (x y : ℕ) (colour : UInt8) :
    (s.addRegion x y colour).Refers s.regionRefCount s.nextRegion where
  inside := Nat.lt_succ_self _
  fixed := by rw [addRegion_redirect, Function.update_self]
  region := by rw [addRegion_regionOf, Function.update_self]

theorem References.addRegion_refers_of_refers (refers : s.Refers ref r) (x y : ℕ)
    (colour : UInt8) : (s.addRegion x y colour).Refers ref r := by
  have apart := Nat.ne_of_lt refers.inside
  constructor
  · exact Nat.lt_succ_of_lt refers.inside
  · rw [addRegion_redirect, Function.update_of_ne apart, refers.fixed]
  · rw [addRegion_regionOf, Function.update_of_ne apart, refers.region]

theorem References.addRegion_leads (references : References s) (x y : ℕ) (colour : UInt8)
    {root steps : ℕ} (inside : ref < s.regionRefCount) (leads : Leads s.redirect root ref steps) :
    Leads (s.addRegion x y colour).redirect root ref steps := by
  rw [addRegion_redirect]
  exact leads.update_outside references.closed (lt_irrefl _) inside

theorem References.addRegion_denotes (references : References s) (x y : ℕ) (colour : UInt8)
    (denotes : s.Denotes ref r) : (s.addRegion x y colour).Denotes ref r := by
  obtain ⟨inside, root, steps, leads, region⟩ := denotes
  have insideRoot := leads.inside references.closed inside
  refine ⟨Nat.lt_succ_of_lt inside, root, steps, references.addRegion_leads x y colour inside leads,
    ?_⟩
  rw [addRegion_regionOf, Function.update_of_ne (Nat.ne_of_lt insideRoot), region]

theorem References.addRegion (references : References s) (nodup : s.freedRegions.Nodup)
    (freedInside : ∀ r ∈ s.freedRegions, r < s.regionCount) (x y : ℕ) (colour : UInt8) :
    References (s.addRegion x y colour) := by
  have liveIff := addRegion_live_iff nodup freedInside x y colour
  have cases' : ∀ ref, ref < (s.addRegion x y colour).regionRefCount →
      ref < s.regionRefCount ∨ ref = s.regionRefCount :=
    fun ref inside => Nat.lt_succ_iff_lt_or_eq.mp inside
  have new := addRegion_refers s x y colour
  have oldFixed : ∀ ref, ref < s.regionRefCount → (s.addRegion x y colour).redirect ref = ref →
      s.redirect ref = ref := by
    intro ref inside fixed
    rw [addRegion_redirect, Function.update_of_ne (Nat.ne_of_lt inside)] at fixed
    exact fixed
  have oldRegion : ∀ ref, ref < s.regionRefCount →
      (s.addRegion x y colour).regionOf ref = s.regionOf ref := by
    intro ref inside
    rw [addRegion_regionOf, Function.update_of_ne (Nat.ne_of_lt inside)]
  have notNew : ∀ ref, ref < s.regionRefCount → s.redirect ref = ref →
      s.regionOf ref ≠ some s.nextRegion := by
    intro ref inside fixed same
    obtain ⟨r, region, live⟩ := references.rooted ref inside fixed
    have equal := Option.some.inj (region.symm.trans same)
    exact nextRegion_not_live s (equal ▸ live)
  constructor
  · intro ref inside
    rcases cases' ref inside with old | rfl
    · rw [addRegion_redirect, Function.update_of_ne (Nat.ne_of_lt old)]
      exact Nat.lt_succ_of_lt (references.closed ref old)
    · rw [new.fixed]
      exact inside
  · intro ref inside
    rcases cases' ref inside with old | rfl
    · obtain ⟨root, steps, leads⟩ := references.leads ref old
      exact ⟨root, steps, references.addRegion_leads x y colour old leads⟩
    · exact ⟨_, 0, .root new.fixed⟩
  · intro ref inside fixed
    rcases cases' ref inside with old | rfl
    · obtain ⟨r, region, live⟩ := references.rooted ref old (oldFixed ref old fixed)
      exact ⟨r, (oldRegion ref old).trans region, (liveIff r).mpr (Or.inl live)⟩
    · exact ⟨_, new.region, (liveIff _).mpr (Or.inr rfl)⟩
  · intro ref inside ref' inside' fixed fixed' same
    rcases cases' ref inside with old | rfl
    · rcases cases' ref' inside' with old' | rfl
      · rw [oldRegion ref old, oldRegion ref' old'] at same
        exact references.injective ref old ref' old' (oldFixed ref old fixed)
          (oldFixed ref' old' fixed') same
      · rw [oldRegion ref old, new.region] at same
        exact absurd same (notNew ref old (oldFixed ref old fixed))
    · rcases cases' ref' inside' with old' | rfl
      · rw [oldRegion ref' old', new.region] at same
        exact absurd same.symm (notNew ref' old' (oldFixed ref' old' fixed'))
      · rfl

/-! ## Redirected references -/

theorem freeRegion_redirect (s : Segmenter) (r ref target : ℕ) :
    (s.freeRegion r ref target).redirect = Function.update s.redirect ref target := by
  funext other
  by_cases here : other = ref
  · simp only [redirect, freeRegion, here, Function.update_self]
  · simp only [redirect, freeRegion, Function.update_of_ne here]

theorem freeRegion_regionOf (s : Segmenter) (r ref target : ℕ) :
    (s.freeRegion r ref target).regionOf = Function.update s.regionOf ref none := by
  funext other
  by_cases here : other = ref
  · simp only [regionOf, freeRegion, here, Function.update_self]
  · simp only [regionOf, freeRegion, Function.update_of_ne here]

section Redirected

variable (references : References s) (refers2 : s.Refers ref r2) (refers1 : s.Refers target r1)
  (distinct : r1 ≠ r2)
include references refers2 refers1 distinct

omit references in
theorem redirected_apart : ref ≠ target := by
  rintro rfl
  exact distinct (Option.some.inj (refers1.region.symm.trans refers2.region))

omit references in
theorem References.freeRegion_refers_target : (s.freeRegion r2 ref target).Refers target r1 := by
  have apart := redirected_apart refers2 refers1 distinct
  constructor
  · exact refers1.inside
  · rw [freeRegion_redirect, Function.update_of_ne apart.symm, refers1.fixed]
  · rw [freeRegion_regionOf, Function.update_of_ne apart.symm, refers1.region]

theorem References.freeRegion_denotes {other : ℕ} (denotes : s.Denotes other r) :
    (s.freeRegion r2 ref target).Denotes other (rename r1 r2 r) := by
  obtain ⟨inside, root, steps, leads, region⟩ := denotes
  have apart := redirected_apart refers2 refers1 distinct
  obtain ⟨count, linked⟩ := leads.link apart refers2.fixed refers1.fixed
  have insideRoot := leads.inside references.closed inside
  refine ⟨inside, _, count, by rw [freeRegion_redirect]; exact linked, ?_⟩
  rw [freeRegion_regionOf]
  by_cases here : root = ref
  · subst here
    have same : r = r2 := Option.some.inj (region.symm.trans refers2.region)
    rw [if_pos rfl, Function.update_of_ne apart.symm, refers1.region, same, rename_self]
  · have other2 : r ≠ r2 := by
      rintro rfl
      exact here (references.eq_of_refers ⟨insideRoot, leads.fixed, region⟩ refers2)
    rw [if_neg here, Function.update_of_ne here, region, rename_of_ne other2]

theorem References.freeRegion
    (live : ∀ r, s.outline.Live r → r ≠ r2 → (s.freeRegion r2 ref target).outline.Live r) :
    References (s.freeRegion r2 ref target) := by
  have apart := redirected_apart refers2 refers1 distinct
  have elsewhere : ∀ other, (s.freeRegion r2 ref target).redirect other = other →
      other ≠ ref ∧ s.redirect other = other := by
    intro other fixed
    rw [freeRegion_redirect] at fixed
    have notRef : other ≠ ref := by
      rintro rfl
      rw [Function.update_self] at fixed
      exact apart fixed.symm
    rw [Function.update_of_ne notRef] at fixed
    exact ⟨notRef, fixed⟩
  constructor
  · intro other inside
    rw [freeRegion_redirect]
    by_cases here : other = ref
    · rw [here, Function.update_self]
      exact refers1.inside
    · rw [Function.update_of_ne here]
      exact references.closed other inside
  · intro other inside
    obtain ⟨root, steps, leads⟩ := references.leads other inside
    obtain ⟨count, linked⟩ := leads.link apart refers2.fixed refers1.fixed
    rw [freeRegion_redirect]
    exact ⟨_, count, linked⟩
  · intro other inside fixed
    obtain ⟨notRef, fixedOld⟩ := elsewhere other fixed
    obtain ⟨r, region, liveR⟩ := references.rooted other inside fixedOld
    refine ⟨r, ?_, live r liveR ?_⟩
    · rw [freeRegion_regionOf, Function.update_of_ne notRef, region]
    · rintro rfl
      exact notRef (references.eq_of_refers ⟨inside, fixedOld, region⟩ refers2)
  · intro other inside other' inside' fixed fixed' same
    obtain ⟨notRef, fixedOld⟩ := elsewhere other fixed
    obtain ⟨notRef', fixedOld'⟩ := elsewhere other' fixed'
    rw [freeRegion_regionOf, Function.update_of_ne notRef, Function.update_of_ne notRef'] at same
    exact references.injective other inside other' inside' fixedOld fixedOld' same

end Redirected

end OfxPrimes.Fidtrack
