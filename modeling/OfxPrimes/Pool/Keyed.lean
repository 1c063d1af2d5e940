import Mathlib.Data.List.Nodup

/-!
# Lists of records found by a key

A list in which a record is found as the first one with its key, changed in
place, or appended when there is none.  While no two records share a key, such
a list is a finite map: what an operation does to the record of one key is all
that a later lookup of that key can see.
-/

namespace OfxPrimes.Pool.Keyed

universe u v w

variable {α : Type u} {κ : Type v} [DecidableEq κ]

/-- The first record with the key. -/
def lookup (keyOf : α → κ) (key : κ) (items : List α) : Option α :=
  items.find? fun item => decide (keyOf item = key)

/-- Change the first record with the key. -/
def modify (keyOf : α → κ) (key : κ) (change : α → α) : List α → List α
  | [] => []
  | item :: rest =>
      if keyOf item = key then change item :: rest
      else item :: modify keyOf key change rest

/-- Change the first record with the key, or append a new one. -/
def upsert (keyOf : α → κ) (key : κ) (change : α → α) (new : α) (items : List α) : List α :=
  match lookup keyOf key items with
  | some _ => modify keyOf key change items
  | none => items ++ [new]

/-- No two records share a key. -/
def Distinct (keyOf : α → κ) (items : List α) : Prop :=
  (items.map keyOf).Nodup

variable {keyOf : α → κ}

@[simp]
theorem lookup_nil (key : κ) : lookup keyOf key [] = none :=
  rfl

theorem lookup_cons_self (item : α) (rest : List α) :
    lookup keyOf (keyOf item) (item :: rest) = some item := by
  simp [lookup]

theorem lookup_cons_of_ne {item : α} {key : κ} (ne : keyOf item ≠ key) (rest : List α) :
    lookup keyOf key (item :: rest) = lookup keyOf key rest := by
  simp [lookup, ne]

theorem lookup_append (key : κ) (front back : List α) :
    lookup keyOf key (front ++ back) =
      (lookup keyOf key front).or (lookup keyOf key back) :=
  List.find?_append

theorem lookup_eq_none_iff {key : κ} {items : List α} :
    lookup keyOf key items = none ↔ ∀ item ∈ items, keyOf item ≠ key := by
  simp [lookup]

theorem mem_of_lookup {key : κ} {items : List α} {item : α}
    (found : lookup keyOf key items = some item) : item ∈ items ∧ keyOf item = key :=
  ⟨List.mem_of_find?_eq_some found, by simpa using List.find?_some found⟩

theorem isSome_lookup_iff {key : κ} {items : List α} :
    (lookup keyOf key items).isSome ↔ ∃ item ∈ items, keyOf item = key := by
  simp [lookup]

/-- In a list with distinct keys, the records are what the lookups find. -/
theorem mem_iff_lookup {items : List α} (distinct : Distinct keyOf items) {item : α} :
    item ∈ items ↔ lookup keyOf (keyOf item) items = some item := by
  constructor
  · intro mem
    induction items with
    | nil => exact absurd mem List.not_mem_nil
    | cons head rest ih =>
        rcases List.nodup_cons.mp distinct with ⟨fresh, restDistinct⟩
        rcases List.mem_cons.mp mem with rfl | inRest
        · exact lookup_cons_self item rest
        · have ne : keyOf head ≠ keyOf item :=
            fun equal => fresh (equal ▸ List.mem_map_of_mem inRest)
          rw [lookup_cons_of_ne ne]
          exact ih restDistinct inRest
  · exact fun found => (mem_of_lookup found).1

omit [DecidableEq κ] in
/-- In a list with distinct keys, the records around one have other keys. -/
theorem apart_of_distinct {front back : List α} {item : α}
    (distinct : Distinct keyOf (front ++ item :: back)) :
    ∀ other ∈ front ++ back,
      other ∈ front ++ item :: back ∧ keyOf other ≠ keyOf item := by
  intro other mem
  rw [Distinct, List.map_append, List.map_cons, List.perm_middle.nodup_iff,
    ← List.map_append] at distinct
  constructor
  · rcases List.mem_append.mp mem with inFront | inBack
    · exact List.mem_append_left _ inFront
    · exact List.mem_append_right _ (List.mem_cons_of_mem _ inBack)
  · intro same
    have again : keyOf other ∈ (front ++ back).map keyOf := List.mem_map_of_mem mem
    exact (List.nodup_cons.mp distinct).1 (same ▸ again)

/-- In a list with distinct keys, a test of the records of a key is a test of the
one that a lookup finds. -/
theorem any_lookup {items : List α} (distinct : Distinct keyOf items) (key : κ)
    (test : α → Bool) :
    (items.any fun item => decide (keyOf item = key) && test item) =
      (lookup keyOf key items).any test := by
  induction items with
  | nil => rfl
  | cons item rest ih =>
      rcases List.nodup_cons.mp distinct with ⟨fresh, restDistinct⟩
      rw [List.any_cons, ih restDistinct]
      by_cases here : keyOf item = key
      · subst here
        have absent : lookup keyOf (keyOf item) rest = none :=
          lookup_eq_none_iff.mpr fun other mem equal => fresh (equal ▸ List.mem_map_of_mem mem)
        rw [absent, lookup_cons_self, decide_eq_true rfl, Bool.true_and, Option.any_none,
          Bool.or_false, Option.any_some]
      · rw [lookup_cons_of_ne here, decide_eq_false here, Bool.false_and, Bool.false_or]

section Modify

variable {key : κ} {change : α → α}

theorem lookup_modify_self (keeps : ∀ item, keyOf (change item) = keyOf item)
    (items : List α) :
    lookup keyOf key (modify keyOf key change items) =
      (lookup keyOf key items).map change := by
  induction items with
  | nil => rfl
  | cons item rest ih =>
      by_cases here : keyOf item = key
      · subst here
        rw [modify, if_pos rfl, lookup_cons_self, ← keeps item, lookup_cons_self]
        rfl
      · rw [modify, if_neg here, lookup_cons_of_ne here, lookup_cons_of_ne here, ih]

theorem lookup_modify_of_ne (keeps : ∀ item, keyOf (change item) = keyOf item)
    {other : κ} (ne : other ≠ key) (items : List α) :
    lookup keyOf other (modify keyOf key change items) = lookup keyOf other items := by
  induction items with
  | nil => rfl
  | cons item rest ih =>
      by_cases here : keyOf item = key
      · have apart : keyOf item ≠ other := here ▸ ne.symm
        have changedApart : keyOf (change item) ≠ other := (keeps item).symm ▸ apart
        rw [modify, if_pos here, lookup_cons_of_ne changedApart, lookup_cons_of_ne apart]
      · rw [modify, if_neg here]
        by_cases found : keyOf item = other
        · subst found
          rw [lookup_cons_self, lookup_cons_self]
        · rw [lookup_cons_of_ne found, lookup_cons_of_ne found, ih]

theorem map_modify (keeps : ∀ item, keyOf (change item) = keyOf item) (items : List α) :
    (modify keyOf key change items).map keyOf = items.map keyOf := by
  induction items with
  | nil => rfl
  | cons item rest ih =>
      by_cases here : keyOf item = key
      · rw [modify, if_pos here, List.map_cons, List.map_cons, keeps]
      · rw [modify, if_neg here, List.map_cons, List.map_cons, ih]

end Modify

section Upsert

variable {key : κ} {change : α → α} {new : α}

theorem lookup_upsert_self (keeps : ∀ item, keyOf (change item) = keyOf item)
    (newKey : keyOf new = key) (items : List α) :
    lookup keyOf key (upsert keyOf key change new items) =
      some ((lookup keyOf key items).elim new change) := by
  cases found : lookup keyOf key items with
  | none =>
      have last : lookup keyOf key [new] = some new := newKey ▸ lookup_cons_self new []
      simp [upsert, found, lookup_append, last]
  | some item => simp [upsert, found, lookup_modify_self keeps]

theorem lookup_upsert_of_ne (keeps : ∀ item, keyOf (change item) = keyOf item)
    (newKey : keyOf new = key) {other : κ} (ne : other ≠ key) (items : List α) :
    lookup keyOf other (upsert keyOf key change new items) = lookup keyOf other items := by
  cases found : lookup keyOf key items with
  | none =>
      have apart : keyOf new ≠ other := newKey.symm ▸ ne.symm
      simp [upsert, found, lookup_append, lookup_cons_of_ne apart]
  | some item => simp [upsert, found, lookup_modify_of_ne keeps ne]

theorem distinct_upsert (keeps : ∀ item, keyOf (change item) = keyOf item)
    (newKey : keyOf new = key) {items : List α} (distinct : Distinct keyOf items) :
    Distinct keyOf (upsert keyOf key change new items) := by
  cases found : lookup keyOf key items with
  | none =>
      have fresh : ∀ item ∈ items, keyOf item ≠ key := lookup_eq_none_iff.mp found
      simp only [Distinct, upsert, found, List.map_append, List.map_cons, List.map_nil]
      rw [List.nodup_append]
      exact ⟨distinct, List.nodup_singleton _, by
        intro other mem last lastMem
        rcases List.mem_map.mp mem with ⟨item, itemMem, rfl⟩
        rw [List.mem_singleton.mp lastMem, newKey]
        exact fresh item itemMem⟩
  | some item =>
      simp only [Distinct, upsert, found, map_modify keeps]
      exact distinct

/-- What holds of the records, of the changed and of the new one holds of all
records afterwards. -/
theorem forall_mem_upsert {P : α → Prop} {items : List α} (all : ∀ item ∈ items, P item)
    (changed : ∀ item ∈ items, P (change item)) (isNew : P new) :
    ∀ item ∈ upsert keyOf key change new items, P item := by
  have modified : ∀ items : List α, (∀ item ∈ items, P item) →
      (∀ item ∈ items, P (change item)) → ∀ item ∈ modify keyOf key change items, P item := by
    intro items
    induction items with
    | nil => exact fun _ _ item mem => absurd mem List.not_mem_nil
    | cons first rest ih =>
        intro all changed
        rw [modify]
        split
        · rw [List.forall_mem_cons]
          exact ⟨changed first List.mem_cons_self, (List.forall_mem_cons.mp all).2⟩
        · rw [List.forall_mem_cons]
          exact ⟨all first List.mem_cons_self,
            ih (List.forall_mem_cons.mp all).2 (List.forall_mem_cons.mp changed).2⟩
  rw [upsert]
  split
  · exact modified items all changed
  · intro item mem
    rcases List.mem_append.mp mem with before | last
    · exact all item before
    · rw [List.mem_singleton.mp last]
      exact isNew

/-- To forget part of the records commutes with a change that does not look at it. -/
theorem map_upsert {β : Type w} {forget : α → β} {keyOf' : β → κ} {change' : β → β}
    (sameKey : ∀ item, keyOf' (forget item) = keyOf item)
    (sameChange : ∀ item, forget (change item) = change' (forget item)) (items : List α) :
    (upsert keyOf key change new items).map forget =
      upsert keyOf' key change' (forget new) (items.map forget) := by
  have modified : ∀ items : List α,
      (modify keyOf key change items).map forget =
        modify keyOf' key change' (items.map forget) := by
    intro items
    induction items with
    | nil => rfl
    | cons first rest ih =>
        rw [List.map_cons, modify, modify, sameKey]
        split
        · rw [List.map_cons, sameChange]
        · rw [List.map_cons, ih]
  have found : lookup keyOf' key (items.map forget) = (lookup keyOf key items).map forget := by
    have sameTest : (fun item => decide (keyOf' item = key)) ∘ forget =
        fun item => decide (keyOf item = key) := by
      funext item
      simp only [Function.comp_apply, sameKey]
    rw [lookup, lookup, List.find?_map, sameTest]
  rw [upsert, upsert, found]
  cases lookup keyOf key items with
  | none => rw [Option.map_none, List.map_append, List.map_singleton]
  | some existing => exact modified items

end Upsert

theorem lookup_map {change : α → α} (keeps : ∀ item, keyOf (change item) = keyOf item)
    (key : κ) (items : List α) :
    lookup keyOf key (items.map change) = (lookup keyOf key items).map change := by
  have sameKey : (fun item => decide (keyOf item = key)) ∘ change =
      fun item => decide (keyOf item = key) := by
    funext item
    simp only [Function.comp_apply, keeps]
  rw [lookup, lookup, List.find?_map, sameKey]

section Sweep

variable {age : α → Option α}

omit [DecidableEq κ] in
theorem distinct_filterMap (keeps : ∀ item next, age item = some next → keyOf next = keyOf item)
    {items : List α} (distinct : Distinct keyOf items) :
    Distinct keyOf (items.filterMap age) := by
  have sublist : ((items.filterMap age).map keyOf).Sublist (items.map keyOf) := by
    induction items with
    | nil => exact List.Sublist.slnil
    | cons item rest ih =>
        have restIh := ih (List.nodup_cons.mp distinct).2
        cases aged : age item with
        | none =>
            rw [List.filterMap_cons_none aged]
            exact restIh.cons _
        | some next =>
            rw [List.filterMap_cons_some aged, List.map_cons, List.map_cons,
              keeps item next aged]
            exact restIh.cons_cons _
  exact List.Nodup.sublist sublist distinct

/-- Ageing every record of a list ages the record of each key. -/
theorem lookup_filterMap (keeps : ∀ item next, age item = some next → keyOf next = keyOf item)
    {items : List α} (distinct : Distinct keyOf items) (key : κ) :
    lookup keyOf key (items.filterMap age) = (lookup keyOf key items).bind age := by
  induction items with
  | nil => rfl
  | cons item rest ih =>
      rcases List.nodup_cons.mp distinct with ⟨fresh, restDistinct⟩
      by_cases here : keyOf item = key
      · subst here
        rw [lookup_cons_self, Option.bind_some]
        cases aged : age item with
        | none =>
            rw [List.filterMap_cons_none aged, lookup_eq_none_iff]
            intro next mem equal
            rcases List.mem_filterMap.mp mem with ⟨origin, originMem, agedNext⟩
            rw [keeps origin next agedNext] at equal
            exact fresh (equal ▸ List.mem_map_of_mem originMem)
        | some next =>
            rw [List.filterMap_cons_some aged, ← keeps item next aged, lookup_cons_self]
      · rw [lookup_cons_of_ne here, ← ih restDistinct]
        cases aged : age item with
        | none => rw [List.filterMap_cons_none aged]
        | some next =>
            have nextApart : keyOf next ≠ key := (keeps item next aged).symm ▸ here
            rw [List.filterMap_cons_some aged, lookup_cons_of_ne nextApart]

end Sweep

/-! ## Lists in which records may share a key -/

/-- The records with the key, in order. -/
def ofKey (keyOf : α → κ) (key : κ) (items : List α) : List α :=
  items.filter fun item => decide (keyOf item = key)

/-- Remove the first record with the key. -/
def eraseFirst (keyOf : α → κ) (key : κ) (items : List α) : List α :=
  items.eraseP fun item => decide (keyOf item = key)

theorem lookup_eq_head? (key : κ) (items : List α) :
    lookup keyOf key items = (ofKey keyOf key items).head? :=
  List.head?_filter.symm

theorem ofKey_append_self {item : α} {key : κ} (has : keyOf item = key) (items : List α) :
    ofKey keyOf key (items ++ [item]) = ofKey keyOf key items ++ [item] := by
  simp [ofKey, has]

theorem ofKey_append_of_ne {item : α} {key : κ} (ne : keyOf item ≠ key) (items : List α) :
    ofKey keyOf key (items ++ [item]) = ofKey keyOf key items := by
  simp [ofKey, ne]

theorem ofKey_eraseFirst_self (key : κ) (items : List α) :
    ofKey keyOf key (eraseFirst keyOf key items) = (ofKey keyOf key items).tail := by
  induction items with
  | nil => rfl
  | cons item rest ih =>
      by_cases here : keyOf item = key
      · simp [ofKey, eraseFirst, here]
      · simpa [ofKey, eraseFirst, here] using ih

theorem ofKey_eraseFirst_of_ne {key other : κ} (ne : other ≠ key) (items : List α) :
    ofKey keyOf other (eraseFirst keyOf key items) = ofKey keyOf other items := by
  induction items with
  | nil => rfl
  | cons item rest ih =>
      by_cases here : keyOf item = key
      · simp [ofKey, eraseFirst, here, Ne.symm ne]
      · have kept : eraseFirst keyOf key (item :: rest) = item :: eraseFirst keyOf key rest := by
          simp [eraseFirst, here]
        rw [kept]
        by_cases found : keyOf item = other
        · simpa [ofKey, found] using ih
        · simpa [ofKey, found] using ih

end OfxPrimes.Pool.Keyed
