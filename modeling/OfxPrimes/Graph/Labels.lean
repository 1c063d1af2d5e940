import Mathlib.Logic.Relation

/-!
# Labels of connected components

A labelling of the points seen so far gives two points one label exactly if they
are joined by a path of near points that have all been seen.  This leaf says when
a labelling stays right as one more point is seen.
-/

namespace OfxPrimes.Graph

universe u v w

variable {α : Type u} {β : Type v} {γ : Type w} {near : α → α → Prop} {seen : α → Prop}

/-- Two points are joined by a path of near points, all of them seen. -/
def Joined (near : α → α → Prop) (seen : α → Prop) : α → α → Prop :=
  Relation.EqvGen fun first second => seen first ∧ seen second ∧ near first second

/-- Two seen points have one label exactly if they are joined. -/
def Labels (near : α → α → Prop) (seen : α → Prop) (label : α → β) : Prop :=
  ∀ ⦃first second⦄, seen first → seen second →
    (label first = label second ↔ Joined near seen first second)

theorem Joined.refl (point : α) : Joined near seen point point :=
  Relation.EqvGen.refl point

theorem Joined.symm {first second : α} (joined : Joined near seen first second) :
    Joined near seen second first :=
  Relation.EqvGen.symm _ _ joined

theorem Joined.trans {first second third : α} (joined : Joined near seen first second)
    (joined' : Joined near seen second third) : Joined near seen first third :=
  Relation.EqvGen.trans _ _ _ joined joined'

theorem Joined.of_near {first second : α} (seenFirst : seen first) (seenSecond : seen second)
    (isNear : near first second) : Joined near seen first second :=
  .rel _ _ ⟨seenFirst, seenSecond, isNear⟩

theorem Joined.mono {seen' : α → Prop} (more : ∀ point, seen point → seen' point)
    {first second : α} (joined : Joined near seen first second) :
    Joined near seen' first second := by
  induction joined with
  | rel _ _ step => exact .of_near (more _ step.1) (more _ step.2.1) step.2.2
  | refl _ => exact .refl _
  | symm _ _ _ ih => exact ih.symm
  | trans _ _ _ _ _ ih ih' => exact ih.trans ih'

/-- What all near points share, joined points share. -/
theorem Joined.congr {shared : α → β}
    (kept : ∀ ⦃first second⦄, seen first → seen second → near first second →
      shared first = shared second)
    {first second : α} (joined : Joined near seen first second) :
    shared first = shared second := by
  induction joined with
  | rel _ _ step => exact kept step.1 step.2.1 step.2.2
  | refl _ => rfl
  | symm _ _ _ ih => exact ih.symm
  | trans _ _ _ _ _ ih ih' => exact ih.trans ih'

/-- `point` is near the fresh point on either side. -/
def Touches (near : α → α → Prop) (fresh point : α) : Prop :=
  near point fresh ∨ near fresh point

/-- The points with the label `mark` reach the fresh point through a near one. -/
def Attached (near : α → α → Prop) (seen : α → Prop) (label : α → β) (fresh : α) (mark : β) :
    Prop :=
  ∃ point, seen point ∧ Touches near fresh point ∧ label point = mark

/-- One more point is seen: the labels of the points near it become one, and no
others do. -/
theorem Labels.insert {label : α → β} {label' : α → γ} {fresh : α}
    (labels : Labels near seen label)
    (coarser : ∀ ⦃first second⦄, seen first → seen second →
      label first = label second → label' first = label' second)
    (nearFresh : ∀ ⦃point⦄, seen point → Touches near fresh point → label' point = label' fresh)
    (attached : ∀ ⦃point⦄, seen point → label' point = label' fresh →
      Attached near seen label fresh (label point))
    (apart : ∀ ⦃first second⦄, seen first → seen second → label' first = label' second →
      label first = label second ∨ label' first = label' fresh) :
    Labels near (fun point => seen point ∨ point = fresh) label' := by
  have more : ∀ point, seen point → seen point ∨ point = fresh := fun _ => Or.inl
  have toFresh : ∀ ⦃point⦄, seen point → label' point = label' fresh →
      Joined near (fun point => seen point ∨ point = fresh) point fresh := by
    intro point seenPoint same
    obtain ⟨middle, seenMiddle, touches, sameOld⟩ := attached seenPoint same
    have left := ((labels seenMiddle seenPoint).mp sameOld).symm.mono more
    apply left.trans
    cases touches with
    | inl isNear => exact .of_near (Or.inl seenMiddle) (Or.inr rfl) isNear
    | inr isNear =>
        apply Joined.symm
        exact .of_near (Or.inr rfl) (Or.inl seenMiddle) isNear
  intro first second seenFirst seenSecond
  constructor
  · intro same
    rcases seenFirst with seenFirst | rfl
    · rcases seenSecond with seenSecond | rfl
      · rcases apart seenFirst seenSecond same with sameOld | joinsFresh
        · exact ((labels seenFirst seenSecond).mp sameOld).mono more
        · exact (toFresh seenFirst joinsFresh).trans
            (toFresh seenSecond (same.symm.trans joinsFresh)).symm
      · exact toFresh seenFirst same
    · rcases seenSecond with seenSecond | rfl
      · exact (toFresh seenSecond same.symm).symm
      · exact .refl _
  · intro joined
    apply joined.congr
    intro left right seenLeft seenRight isNear
    rcases seenLeft with seenLeft | rfl
    · rcases seenRight with seenRight | rfl
      · exact coarser seenLeft seenRight
          ((labels seenLeft seenRight).mpr (.of_near seenLeft seenRight isNear))
      · exact nearFresh seenLeft (Or.inl isNear)
    · rcases seenRight with seenRight | rfl
      · exact (nearFresh seenRight (Or.inr isNear)).symm
      · rfl

end OfxPrimes.Graph
