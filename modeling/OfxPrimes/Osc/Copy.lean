import OfxPrimes.Osc.Message
import OfxPrimes.Transition.AppendLoop

/-!
# Copying messages and bundles

`copy`, which is also `operator=` and the copy constructor, never clears the
destination: it appends.  So a copy equals its source exactly if the destination
held nothing.  The source may be the destination itself; if it holds something
the loop then runs after its own tail for ever.  A destination that lies in the
source, as the references of `getBundleAt` allow, becomes part of what it copies.
-/

namespace OfxPrimes.Osc

open OfxPrimes.Transition

universe u v

variable {β : Type u} {ι : Type v}

/-- A new argument of the same type and value. -/
def OfxOscArg.clone : OfxOscArg β → OfxOscArg β
  | .int32 value => .int32 value
  | .float value => .float value
  | .string value => .string value
  | .blob value => .blob value

@[simp]
theorem OfxOscArg.clone_eq (argument : OfxOscArg β) : argument.clone = argument := by
  cases argument <;> rfl

namespace OfxOscMessage

section Heap

variable [DecidableEq ι]

/-- The first lines of `copy`. -/
def copyHeader (destination source : OfxOscMessage β) : OfxOscMessage β :=
  { destination with
    address := source.address
    remoteHost := source.remoteHost
    remotePort := source.remotePort }

/-- `args.push_back` of a new argument, for the message at a place of the heap. -/
def pushArgument (destination : ι) (argument : OfxOscArg β) (heap : ι → OfxOscMessage β) :
    ι → OfxOscMessage β :=
  Function.update heap destination
    { heap destination with args := (heap destination).args ++ [argument.clone] }

/-- `ofxOscMessage::copy` and `operator=`, for messages that lie in a heap; none if the
loop is not through after `fuel` rounds. -/
def copyIn (destination source : ι) (fuel : Nat) (heap : ι → OfxOscMessage β) :
    Option (ι → OfxOscMessage β) :=
  appendLoop (fun heap => (heap source).args) (pushArgument destination) fuel 0
    (Function.update heap destination (copyHeader (heap destination) (heap source)))

/-- The copy ends, and the destination equals the source, which is as before. -/
def CopiesExactly (destination source : ι) (heap : ι → OfxOscMessage β) : Prop :=
  ∃ fuel after, copyIn destination source fuel heap = some after ∧
    after destination = heap source ∧ after source = heap source

theorem copy_eq_source_iff {destination source : OfxOscMessage β} :
    copy destination source = source ↔ destination.args = [] := by
  constructor
  · intro same
    have sameArgs : destination.args ++ source.args = source.args := congrArg args same
    exact List.append_left_eq_self.mp sameArgs
  · intro empty
    rw [copy, empty]
    rfl

theorem foldl_pushArgument (destination : ι) (arguments : List (OfxOscArg β))
    (heap : ι → OfxOscMessage β) :
    arguments.foldl (fun heap argument => pushArgument destination argument heap) heap =
      Function.update heap destination
        { heap destination with args := (heap destination).args ++ arguments } := by
  induction arguments generalizing heap with
  | nil => rw [List.append_nil, List.foldl_nil, Function.update_eq_self]
  | cons argument rest ih =>
      rw [List.foldl_cons, ih, pushArgument, Function.update_self, Function.update_idem,
        OfxOscArg.clone_eq, List.append_assoc, List.singleton_append]

/-- Between two messages, the loop computes `copy`. -/
theorem copyIn_of_ne {destination source : ι} (apart : source ≠ destination)
    (heap : ι → OfxOscMessage β) {fuel : Nat} (enough : (heap source).args.length < fuel) :
    copyIn destination source fuel heap =
      some (Function.update heap destination (copy (heap destination) (heap source))) := by
  have unseen : ∀ argument (heap : ι → OfxOscMessage β),
      (pushArgument destination argument heap source).args = (heap source).args := by
    intro argument heap
    rw [pushArgument, Function.update_of_ne apart]
  have sameArgs : (Function.update heap destination
      (copyHeader (heap destination) (heap source)) source).args = (heap source).args := by
    rw [Function.update_of_ne apart]
  rw [copyIn, appendLoop_of_apart unseen (Nat.zero_le _) (by rwa [sameArgs, Nat.zero_add]),
    List.drop_zero, foldl_pushArgument, sameArgs, Function.update_self, Function.update_idem]
  rfl

/-- A message with arguments that is copied to itself keeps the loop running. -/
theorem copyIn_self {location : ι} {heap : ι → OfxOscMessage β}
    (holds : (heap location).args ≠ []) (fuel : Nat) :
    copyIn location location fuel heap = none := by
  apply appendLoop_of_grows (fun _ => True) _ trivial
  · rw [Function.update_self]
    exact List.length_pos_of_ne_nil holds
  · intro argument heap _
    rw [pushArgument, Function.update_self, List.length_append]
    exact ⟨trivial, rfl⟩

/-- A copy ends and is exact if and only if the destination had no arguments. -/
theorem copiesExactly_iff (destination source : ι) (heap : ι → OfxOscMessage β) :
    CopiesExactly destination source heap ↔ (heap destination).args = [] := by
  by_cases same : source = destination
  · subst same
    constructor
    · rintro ⟨fuel, after, ended, -⟩
      by_contra holds
      rw [copyIn_self holds] at ended
      contradiction
    · intro empty
      refine ⟨1, Function.update heap source (copyHeader (heap source) (heap source)), ?_, ?_⟩
      · apply appendLoop_nil
        rw [Function.update_self]
        exact empty
      · rw [Function.update_self]
        exact ⟨rfl, rfl⟩
  · constructor
    · rintro ⟨fuel, after, ended, exactly, -⟩
      have longer := appendLoop_add ended ((heap source).args.length + 1)
      have computed := copyIn_of_ne same heap
        (Nat.lt_add_left fuel (Nat.lt_succ_self (heap source).args.length))
      have sameAfter := Option.some.inj (longer.symm.trans computed)
      rw [sameAfter, Function.update_self] at exactly
      exact copy_eq_source_iff.mp exactly
    · intro empty
      refine ⟨_, _, copyIn_of_ne same heap (Nat.lt_succ_self _), ?_⟩
      rw [Function.update_self, Function.update_of_ne same]
      exact ⟨copy_eq_source_iff.mpr empty, rfl⟩

end Heap

end OfxOscMessage

/-! ## Bundles -/

namespace OfxOscBundle

/-- `messages`. -/
def messages : OfxOscBundle β → List (OfxOscMessage β)
  | .mk messages _ => messages

/-- `bundles`. -/
def bundles : OfxOscBundle β → List (OfxOscBundle β)
  | .mk _ bundles => bundles

mutual

/-- The copy constructor: `copy` to a new bundle. -/
def construct : OfxOscBundle β → OfxOscBundle β
  | .mk messages bundles =>
      .mk (messages.map fun message => OfxOscMessage.copy {} message) (constructAll bundles)

/-- The bundles that `push_back` constructs one after the other. -/
def constructAll : List (OfxOscBundle β) → List (OfxOscBundle β)
  | [] => []
  | bundle :: rest => construct bundle :: constructAll rest

end

mutual

/-- A new bundle is an exact copy, however deep it is nested. -/
theorem construct_eq : ∀ bundle : OfxOscBundle β, construct bundle = bundle
  | .mk messages bundles => by
      have sameMessages :
          (messages.map fun message => OfxOscMessage.copy {} message) = messages := by
        simp
      rw [construct, sameMessages, constructAll_eq bundles]

theorem constructAll_eq : ∀ bundles : List (OfxOscBundle β), constructAll bundles = bundles
  | [] => rfl
  | bundle :: rest => by
      rw [constructAll, construct_eq bundle, constructAll_eq rest]

end

/-- `getBundleAt`, one index after the other. -/
def follow : OfxOscBundle β → List Nat → Option (OfxOscBundle β)
  | bundle, [] => some bundle
  | bundle, i :: path => (bundle.bundles[i]?).bind fun nested => nested.follow path

/-- Change the bundle at a path. -/
def modifyAt (change : OfxOscBundle β → OfxOscBundle β) :
    List Nat → OfxOscBundle β → OfxOscBundle β
  | [], bundle => change bundle
  | i :: path, bundle => .mk bundle.messages (bundle.bundles.modify i (modifyAt change path))

/-- A reference to a bundle.  All bundles of a program lie below one root, and a
reference is the path there. -/
abbrev Reference (root : OfxOscBundle β) :=
  { path : List Nat // (root.follow path).isSome }

/-- The bundle that is referred to. -/
def Reference.bundle {root : OfxOscBundle β} (reference : Reference root) : OfxOscBundle β :=
  (root.follow reference.val).get reference.property

theorem Reference.follow_eq {root : OfxOscBundle β} (reference : Reference root) :
    root.follow reference.val = some reference.bundle :=
  (Option.some_get reference.property).symm

/-- The contents of a bundle with more behind them. -/
def extend (messages : List (OfxOscMessage β)) (bundles : List (OfxOscBundle β))
    (bundle : OfxOscBundle β) : OfxOscBundle β :=
  .mk (bundle.messages ++ messages) (bundle.bundles ++ bundles)

/-- `bundles.push_back` of a new bundle, for the bundle at a path. -/
def pushBundle (destination : List Nat) (bundle root : OfxOscBundle β) : OfxOscBundle β :=
  modifyAt (extend [] [construct bundle]) destination root

/-- `messages.push_back` of a new message, for the bundle at a path. -/
def pushMessage (destination : List Nat) (message : OfxOscMessage β) (root : OfxOscBundle β) :
    OfxOscBundle β :=
  modifyAt (extend [OfxOscMessage.copy {} message] []) destination root

/-- `ofxOscBundle::copy` and `operator=`, for two references; none if one of the loops is
not through after `fuel` rounds.  Where the source lies in the destination, the code may
move it while it still refers to it, which is left out. -/
def copyIn (destination source : List Nat) (fuel : Nat) (root : OfxOscBundle β) :
    Option (OfxOscBundle β) :=
  (appendLoop (fun root => (root.follow source).elim [] bundles) (pushBundle destination)
    fuel 0 root).bind
    (appendLoop (fun root => (root.follow source).elim [] messages) (pushMessage destination)
      fuel 0)

/-- The copy ends, and the destination equals the source, which is as before. -/
def CopiesExactly {root : OfxOscBundle β} (destination source : Reference root) : Prop :=
  ∃ fuel after, copyIn destination.val source.val fuel root = some after ∧
    after.follow destination.val = some source.bundle ∧
    after.follow source.val = some source.bundle

/-! ### Paths -/

section Paths

variable {change : OfxOscBundle β → OfxOscBundle β} {root bundle : OfxOscBundle β}
  {path other : List Nat}

theorem follow_append (root : OfxOscBundle β) (path rest : List Nat) :
    root.follow (path ++ rest) = (root.follow path).bind fun bundle => bundle.follow rest := by
  induction path generalizing root with
  | nil => rfl
  | cons i path ih =>
      rw [List.cons_append, follow, follow, Option.bind_assoc]
      congr 1
      funext nested
      exact ih nested

theorem follow_modifyAt_self (change : OfxOscBundle β → OfxOscBundle β) (root : OfxOscBundle β)
    (path : List Nat) :
    (modifyAt change path root).follow path = (root.follow path).map change := by
  induction path generalizing root with
  | nil => rfl
  | cons i path ih =>
      rw [modifyAt, follow, follow, bundles, List.getElem?_modify_eq]
      cases nested : root.bundles[i]? with
      | none => rfl
      | some bundle => exact ih bundle

/-- A change is not seen at a path that neither leads on from the place nor leads there. -/
theorem follow_modifyAt_of_apart (apart : ¬ path <+: other) (apart' : ¬ other <+: path) :
    (modifyAt change path root).follow other = root.follow other := by
  induction path generalizing root other with
  | nil => exact absurd List.nil_prefix apart
  | cons i path ih =>
      cases other with
      | nil => exact absurd List.nil_prefix apart'
      | cons j other =>
          rw [modifyAt, follow, follow, bundles]
          by_cases same : i = j
          · subst same
            rw [List.getElem?_modify_eq]
            cases nested : root.bundles[i]? with
            | none => rfl
            | some bundle =>
                exact ih (fun within => apart (List.cons_prefix_cons.mpr ⟨rfl, within⟩))
                  (fun within => apart' (List.cons_prefix_cons.mpr ⟨rfl, within⟩))
          · rw [List.getElem?_modify_ne _ _ same]

theorem modifyAt_modifyAt (first second : OfxOscBundle β → OfxOscBundle β) (path : List Nat)
    (root : OfxOscBundle β) :
    modifyAt second path (modifyAt first path root) = modifyAt (second ∘ first) path root := by
  induction path generalizing root with
  | nil => rfl
  | cons i path ih =>
      have composed : modifyAt second path ∘ modifyAt first path =
          modifyAt (second ∘ first) path := funext ih
      rw [modifyAt, modifyAt, modifyAt, messages, bundles, List.modify_modify_eq, composed]

theorem modifyAt_id (path : List Nat) (root : OfxOscBundle β) : modifyAt id path root = root := by
  induction path generalizing root with
  | nil => rfl
  | cons i path ih =>
      have same : (modifyAt id path : OfxOscBundle β → OfxOscBundle β) = id := funext ih
      rcases root with ⟨messages, bundles⟩
      rw [modifyAt, same, List.modify_id]
      rfl

/-- What lies in a bundle is not that bundle. -/
theorem follow_ne_self (notEmpty : path ≠ []) : root.follow path ≠ some root := by
  have smaller : ∀ (path : List Nat) (root bundle : OfxOscBundle β), path ≠ [] →
      root.follow path = some bundle → sizeOf bundle < sizeOf root := by
    intro path
    induction path with
    | nil => exact fun _ _ notEmpty => absurd rfl notEmpty
    | cons i path ih =>
        intro root bundle _ found
        rcases root with ⟨messages, bundles⟩
        rcases Option.bind_eq_some_iff.mp found with ⟨nested, isNested, rest⟩
        have inside := List.sizeOf_lt_of_mem (List.mem_of_getElem? isNested)
        have below : sizeOf nested < sizeOf (mk messages bundles) := by
          rw [mk.sizeOf_spec]
          exact Nat.lt_of_lt_of_le inside (Nat.le_add_left _ _)
        rcases eq_or_ne path [] with rfl | more
        · cases rest
          exact below
        · exact lt_trans (ih nested bundle more rest) below
  intro isRoot
  exact lt_irrefl _ (smaller path root root notEmpty isRoot)

end Paths

/-! ### What the loops leave -/

section Loops

variable {root : OfxOscBundle β}

theorem extend_extend (messages messages' : List (OfxOscMessage β))
    (bundles bundles' : List (OfxOscBundle β)) :
    extend messages' bundles' ∘ extend messages bundles =
      extend (messages ++ messages') (bundles ++ bundles') := by
  funext bundle
  simp [extend, OfxOscBundle.messages, OfxOscBundle.bundles]

theorem extend_nil : (extend [] [] : OfxOscBundle β → OfxOscBundle β) = id := by
  funext bundle
  rcases bundle with ⟨messages, bundles⟩
  simp [extend, OfxOscBundle.messages, OfxOscBundle.bundles]

theorem foldl_pushBundle (destination : List Nat) (bundles : List (OfxOscBundle β))
    (root : OfxOscBundle β) :
    bundles.foldl (fun root bundle => pushBundle destination bundle root) root =
      modifyAt (extend [] bundles) destination root := by
  induction bundles generalizing root with
  | nil => rw [List.foldl_nil, extend_nil, modifyAt_id]
  | cons bundle rest ih =>
      rw [List.foldl_cons, ih, pushBundle, modifyAt_modifyAt, extend_extend, construct_eq]
      rfl

theorem foldl_pushMessage (destination : List Nat) (messages : List (OfxOscMessage β))
    (root : OfxOscBundle β) :
    messages.foldl (fun root message => pushMessage destination message root) root =
      modifyAt (extend messages []) destination root := by
  induction messages generalizing root with
  | nil => rw [List.foldl_nil, extend_nil, modifyAt_id]
  | cons message rest ih =>
      rw [List.foldl_cons, ih, pushMessage, modifyAt_modifyAt, extend_extend,
        OfxOscMessage.copy_fresh]
      rfl

/-- Between bundles of which neither lies in the other, the loops append what the source
holds. -/
theorem copyIn_of_apart {destination source : Reference root}
    (apart : ¬ destination.val <+: source.val) (apart' : ¬ source.val <+: destination.val)
    {fuel : Nat} (enoughBundles : source.bundle.bundles.length < fuel)
    (enoughMessages : source.bundle.messages.length < fuel) :
    copyIn destination.val source.val fuel root =
      some (modifyAt (extend source.bundle.messages source.bundle.bundles) destination.val
        root) := by
  have unseen : ∀ change (root : OfxOscBundle β),
      (modifyAt change destination.val root).follow source.val = root.follow source.val :=
    fun _ _ => follow_modifyAt_of_apart apart apart'
  have bundlesCopied : appendLoop (fun root => (root.follow source.val).elim [] bundles)
      (pushBundle destination.val) fuel 0 root =
        some (modifyAt (extend [] source.bundle.bundles) destination.val root) := by
    rw [appendLoop_of_apart (fun bundle root => by rw [pushBundle, unseen]) (Nat.zero_le _)]
    · rw [source.follow_eq, Option.elim_some, List.drop_zero, foldl_pushBundle]
    · rwa [source.follow_eq, Option.elim_some, Nat.zero_add]
  rw [copyIn, bundlesCopied, Option.bind_some,
    appendLoop_of_apart (fun message root => by rw [pushMessage, unseen]) (Nat.zero_le _)]
  · rw [unseen, source.follow_eq, Option.elim_some, List.drop_zero, foldl_pushMessage,
      modifyAt_modifyAt, extend_extend]
    simp
  · rwa [unseen, source.follow_eq, Option.elim_some, Nat.zero_add]

/-- A bundle that is not empty and is copied to itself keeps one of the loops running. -/
theorem copyIn_self {place : Reference root}
    (holds : ¬ (place.bundle.messages = [] ∧ place.bundle.bundles = [])) (fuel : Nat) :
    copyIn place.val place.val fuel root = none := by
  have grows : ∀ (messages : List (OfxOscMessage β)) (bundles : List (OfxOscBundle β))
      (root : OfxOscBundle β), (root.follow place.val).isSome = true →
        ∃ bundle, root.follow place.val = some bundle ∧
          (modifyAt (extend messages bundles) place.val root).follow place.val =
            some (extend messages bundles bundle) := by
    intro messages bundles root isSome
    rcases Option.isSome_iff_exists.mp isSome with ⟨bundle, isBundle⟩
    exact ⟨bundle, isBundle, by rw [follow_modifyAt_self, isBundle, Option.map_some]⟩
  cases fuel with
  | zero => rfl
  | succ fuel =>
      by_cases empty : place.bundle.bundles = []
      · rw [copyIn, appendLoop_nil (by rw [place.follow_eq, Option.elim_some, empty]),
          Option.bind_some]
        apply appendLoop_of_grows (fun root => (root.follow place.val).isSome = true) _
          place.property
        · rw [place.follow_eq, Option.elim_some]
          exact List.length_pos_of_ne_nil fun noMessages => holds ⟨noMessages, empty⟩
        · intro message root isSome
          rcases grows [OfxOscMessage.copy {} message] [] root isSome with ⟨bundle, before, after⟩
          rw [pushMessage, before, after]
          simp [extend, messages]
      · have running : appendLoop (fun root => (root.follow place.val).elim [] bundles)
            (pushBundle place.val) (fuel + 1) 0 root = none := by
          apply appendLoop_of_grows (fun root => (root.follow place.val).isSome = true) _
            place.property
          · rw [place.follow_eq, Option.elim_some]
            exact List.length_pos_of_ne_nil empty
          · intro bundle root isSome
            rcases grows [] [construct bundle] root isSome with ⟨nested, before, after⟩
            rw [pushBundle, before, after]
            simp [extend, bundles]
        rw [copyIn, running, Option.bind_none]

/-- Copies that end agree, however many rounds they were given. -/
theorem copyIn_unique {destination source : List Nat} {fuel fuel' : Nat}
    {after after' : OfxOscBundle β} (ended : copyIn destination source fuel root = some after)
    (ended' : copyIn destination source fuel' root = some after') : after = after' := by
  have longer : ∀ {fuel : Nat} {after : OfxOscBundle β} (more : Nat),
      copyIn destination source fuel root = some after →
        copyIn destination source (fuel + more) root = some after := by
    intro fuel after more ended
    rcases Option.bind_eq_some_iff.mp ended with ⟨between, first, second⟩
    rw [copyIn, appendLoop_add first more, Option.bind_some]
    exact appendLoop_add second more
  have both := longer fuel' ended
  rw [Nat.add_comm, longer fuel ended'] at both
  exact (Option.some.inj both).symm

theorem extend_eq_iff {destination source : OfxOscBundle β} :
    extend source.messages source.bundles destination = source ↔
      destination.messages = [] ∧ destination.bundles = [] := by
  rcases source with ⟨sourceMessages, sourceBundles⟩
  simp [extend, messages, bundles]

/-- The bundle is a part of another one. -/
def Reference.LiesIn (part whole : Reference root) : Prop :=
  whole.val <+: part.val ∧ part ≠ whole

/-- Of two bundles one of which lies in the other, both are not the same. -/
theorem Reference.LiesIn.follow_ne {part whole : Reference root} (liesIn : part.LiesIn whole)
    {after bundle : OfxOscBundle β} (isWhole : after.follow whole.val = some bundle) :
    after.follow part.val ≠ some bundle := by
  rcases liesIn with ⟨⟨rest, split⟩, apart⟩
  rw [← split, follow_append, isWhole, Option.bind_some]
  apply follow_ne_self
  rintro rfl
  rw [List.append_nil] at split
  exact apart (Subtype.ext split.symm)

/-- An empty bundle has no part. -/
theorem Reference.LiesIn.bundles_ne_nil {part whole : Reference root}
    (liesIn : part.LiesIn whole) : whole.bundle.bundles ≠ [] := by
  rcases liesIn with ⟨⟨rest, split⟩, apart⟩
  have found := part.follow_eq
  rw [← split, follow_append, whole.follow_eq, Option.bind_some] at found
  cases rest with
  | nil =>
      rw [List.append_nil] at split
      exact absurd (Subtype.ext split.symm) apart
  | cons i rest =>
      intro empty
      rw [follow, empty] at found
      cases found

/-- A copy between bundles of which neither lies in the other ends. -/
theorem exists_copyIn {destination source : Reference root} (apart : destination ≠ source)
    (outside : ¬ destination.LiesIn source) (outside' : ¬ source.LiesIn destination) :
    ∃ fuel after, copyIn destination.val source.val fuel root = some after ∧
      after.follow destination.val =
        some (extend source.bundle.messages source.bundle.bundles destination.bundle) ∧
      after.follow source.val = some source.bundle := by
  have notBelow : ¬ destination.val <+: source.val := fun within =>
    outside' ⟨within, apart.symm⟩
  have notAbove : ¬ source.val <+: destination.val := fun within => outside ⟨within, apart⟩
  refine ⟨source.bundle.bundles.length + source.bundle.messages.length + 1, _,
    copyIn_of_apart notBelow notAbove (Nat.lt_succ_of_le (Nat.le_add_right ..))
      (Nat.lt_succ_of_le (Nat.le_add_left ..)), ?_, ?_⟩
  · rw [follow_modifyAt_self, destination.follow_eq, Option.map_some]
  · rw [follow_modifyAt_of_apart notBelow notAbove, source.follow_eq]

/-- A copy ends and is exact if and only if the destination was empty and does not lie in
the source. -/
theorem copiesExactly_iff (destination source : Reference root) :
    CopiesExactly destination source ↔
      (destination.bundle.messages = [] ∧ destination.bundle.bundles = []) ∧
        ¬ destination.LiesIn source := by
  by_cases same : destination = source
  · subst same
    constructor
    · rintro ⟨fuel, after, ended, -⟩
      constructor
      · by_contra holds
        rw [copyIn_self holds] at ended
        contradiction
      · exact fun liesIn => liesIn.2 rfl
    · rintro ⟨⟨noMessages, noBundles⟩, -⟩
      refine ⟨1, root, ?_, destination.follow_eq, destination.follow_eq⟩
      rw [copyIn, appendLoop_nil (by rw [destination.follow_eq, Option.elim_some, noBundles]),
        Option.bind_some]
      exact appendLoop_nil (by rw [destination.follow_eq, Option.elim_some, noMessages]) 0
  · constructor
    · rintro ⟨fuel, after, ended, isCopy, isSource⟩
      have outside : ¬ destination.LiesIn source := fun liesIn =>
        liesIn.follow_ne isSource isCopy
      have outside' : ¬ source.LiesIn destination := fun liesIn =>
        liesIn.follow_ne isCopy isSource
      rcases exists_copyIn same outside outside' with ⟨fuel', after', ended', appended, -⟩
      rw [copyIn_unique ended ended', appended, Option.some.injEq] at isCopy
      exact ⟨extend_eq_iff.mp isCopy, outside⟩
    · rintro ⟨empty, outside⟩
      have outside' : ¬ source.LiesIn destination := fun liesIn =>
        liesIn.bundles_ne_nil empty.2
      rcases exists_copyIn same outside outside' with ⟨fuel, after, ended, appended, isSource⟩
      rw [extend_eq_iff.mpr empty] at appended
      exact ⟨fuel, after, ended, appended, isSource⟩

end Loops

end OfxOscBundle

/-! ## A consumer with one message -/

/-- The loop of `OscImporter::update` over the messages that `getNextMessage` takes from
the queue: what `recv` is given, when `m` holds what is left in it from before. -/
def importerLoop : OfxOscMessage β → List (OfxOscMessage β) → List (OfxOscMessage β)
  | _, [] => []
  | m, srcMessage :: rest =>
      let received := OfxOscMessage.copy m srcMessage
      received :: importerLoop received rest

/-- `OscImporter::update`. -/
def importerUpdate (taken : List (OfxOscMessage β)) : List (OfxOscMessage β) :=
  importerLoop {} taken

theorem importerLoop_eq_iff (m : OfxOscMessage β) (taken : List (OfxOscMessage β)) :
    importerLoop m taken = taken ↔
      (taken = [] ∨ m.args = []) ∧ ∀ message ∈ taken.dropLast, message.args = [] := by
  induction taken generalizing m with
  | nil => simp [importerLoop]
  | cons srcMessage rest ih =>
      rw [importerLoop, List.cons.injEq, OfxOscMessage.copy_eq_source_iff]
      by_cases empty : m.args = []
      · have same : OfxOscMessage.copy m srcMessage = srcMessage :=
          OfxOscMessage.copy_eq_source_iff.mpr empty
        rw [same, ih, and_iff_right empty]
        cases rest with
        | nil => simp [empty]
        | cons next rest => simp [empty]
      · simp [empty]

/-- A copy of a message ends and is exact if and only if the destination holds no
arguments, and a copy of a bundle if and only if the destination is empty and does
not lie in the source.  The consumer is given what it took if and only if no message
but the last has arguments. -/
theorem copies_iff [DecidableEq ι] :
    (∀ (destination source : ι) (heap : ι → OfxOscMessage β),
      OfxOscMessage.CopiesExactly destination source heap ↔ (heap destination).args = []) ∧
    (∀ (root : OfxOscBundle β) (destination source : OfxOscBundle.Reference root),
      OfxOscBundle.CopiesExactly destination source ↔
        (destination.bundle.messages = [] ∧ destination.bundle.bundles = []) ∧
          ¬ destination.LiesIn source) ∧
    ∀ taken : List (OfxOscMessage β),
      importerUpdate taken = taken ↔ ∀ message ∈ taken.dropLast, message.args = [] := by
  refine ⟨OfxOscMessage.copiesExactly_iff, fun root => OfxOscBundle.copiesExactly_iff,
    fun taken => ?_⟩
  rw [importerUpdate, importerLoop_eq_iff]
  exact and_iff_right (Or.inr rfl)

/-- Messages with one integer each. -/
def intMessages (location : Nat) : OfxOscMessage Text :=
  { address := ascii "/a", args := [.int32 (.ofNat location)] }

/-- The copy of the second message to the first holds both integers, a copy to itself does
not end, and the consumer sees the first integer again with the second message. -/
theorem intMessages_accumulate :
    (∃ after, OfxOscMessage.copyIn 0 1 2 intMessages = some after ∧
      (after 0).args = [.int32 0, .int32 1]) ∧
    ¬ OfxOscMessage.CopiesExactly 0 1 intMessages ∧
    (∀ fuel, OfxOscMessage.copyIn 0 0 fuel intMessages = none) ∧
    importerUpdate [intMessages 0, intMessages 1] ≠ [intMessages 0, intMessages 1] := by
  have copied : OfxOscMessage.copyIn 0 1 2 intMessages =
      some (Function.update intMessages 0 (OfxOscMessage.copy (intMessages 0) (intMessages 1))) :=
    OfxOscMessage.copyIn_of_ne (by decide) intMessages (by decide)
  have holds : (intMessages 0).args ≠ [] := List.cons_ne_nil _ _
  refine ⟨⟨_, copied, ?_⟩, ?_, OfxOscMessage.copyIn_self holds, by decide⟩
  · rw [Function.update_self]
    rfl
  · rw [OfxOscMessage.copiesExactly_iff]
    exact holds

end OfxPrimes.Osc
