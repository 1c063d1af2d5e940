import OfxPrimes.Plane.Segment

/-!
# Poses of a sheet in the plane

A sheet is laid on the plane by scaling it, shifting it by an offset, turning it
and shifting it to a position.  `place` leads from the sheet to the plane and
`locate` back.  A drag shifts the offset, and with it what lies at a point.
-/

namespace OfxPrimes.Plane

/-- To turn twice is to turn by the sum. -/
theorem rotated_rotated (p c : ℝ × ℝ) (a b : ℝ) :
    rotated (rotated p a c) b c = rotated p (a + b) c := by
  apply Prod.ext
  · simp only [rotated, Real.cos_add, Real.sin_add]
    ring
  · simp only [rotated, Real.cos_add, Real.sin_add]
    ring

theorem rotated_zero (p c : ℝ × ℝ) : rotated p 0 c = p := by
  simp [rotated]

/-- A pose. -/
structure Pose where
  position : ℝ × ℝ
  angle : ℝ
  offset : ℝ × ℝ
  scale : ℝ

namespace Pose

/-- Where a point of the sheet lies in the plane. -/
noncomputable def place (pose : Pose) (p : ℝ × ℝ) : ℝ × ℝ :=
  rotated (pose.position + (pose.offset + pose.scale • p)) pose.angle pose.position

/-- Which point of the sheet lies at a point of the plane. -/
noncomputable def locate (pose : Pose) (q : ℝ × ℝ) : ℝ × ℝ :=
  pose.scale⁻¹ • (rotated q (-pose.angle) pose.position - pose.position - pose.offset)

variable {pose : Pose}

theorem locate_place (nonzero : pose.scale ≠ 0) (p : ℝ × ℝ) : pose.locate (pose.place p) = p := by
  rw [locate, place, rotated_rotated, add_neg_cancel, rotated_zero, add_sub_cancel_left,
    add_sub_cancel_left, inv_smul_smul₀ nonzero]

theorem place_locate (nonzero : pose.scale ≠ 0) (q : ℝ × ℝ) : pose.place (pose.locate q) = q := by
  rw [place, locate, smul_inv_smul₀ nonzero, add_sub_cancel, add_sub_cancel, rotated_rotated,
    neg_add_cancel, rotated_zero]

/-- The points of a region of the sheet are those that are located in it. -/
theorem mem_image_place (nonzero : pose.scale ≠ 0) (region : Set (ℝ × ℝ)) (q : ℝ × ℝ) :
    q ∈ pose.place '' region ↔ pose.locate q ∈ region := by
  constructor
  · rintro ⟨p, mem, rfl⟩
    rwa [locate_place nonzero]
  · exact fun mem => ⟨pose.locate q, mem, place_locate nonzero q⟩

/-! ## Drags -/

/-- Shift the offset by the way, on the sheet, from a grabbed point to the one at
`q`. -/
noncomputable def drag (grabbed : ℝ × ℝ) (pose : Pose) (q : ℝ × ℝ) : Pose :=
  { pose with offset := pose.offset + (pose.locate q - grabbed) }

variable {grabbed : ℝ × ℝ}

theorem locate_drag (q : ℝ × ℝ) :
    (pose.drag grabbed q).locate q = pose.locate q - pose.scale⁻¹ • (pose.locate q - grabbed) := by
  rw [locate, drag, ← sub_sub, smul_sub]
  rfl

/-- A drag brings the grabbed point to `q` when the sheet is not scaled, or when
the point lies there already. -/
theorem locate_drag_eq_iff (q : ℝ × ℝ) :
    (pose.drag grabbed q).locate q = grabbed ↔ pose.scale = 1 ∨ pose.locate q = grabbed := by
  have factored : (pose.drag grabbed q).locate q - grabbed =
      (1 - pose.scale⁻¹) • (pose.locate q - grabbed) := by
    rw [locate_drag, sub_smul, one_smul, sub_right_comm]
  rw [← sub_eq_zero, factored, smul_eq_zero, sub_eq_zero, sub_eq_zero, eq_comm, inv_eq_one]

theorem drag_eq_self {q : ℝ × ℝ} (there : pose.locate q = grabbed) :
    pose.drag grabbed q = pose := by
  rw [drag, there, sub_self, add_zero]

section Drags

variable {β : Type} (position : β → ℝ × ℝ)

/-- The pose after drags to the positions of some events. -/
noncomputable def dragAlong (grabbed : ℝ × ℝ) (pose : Pose) (events : List β) : Pose :=
  events.foldl (fun pose event => pose.drag grabbed (position event)) pose

variable {position}

theorem dragAlong_append_singleton (events : List β) (last : β) :
    pose.dragAlong position grabbed (events ++ [last]) =
      (pose.dragAlong position grabbed events).drag grabbed (position last) := by
  rw [dragAlong, List.foldl_append]
  rfl

theorem dragAlong_eq_self {events : List β}
    (there : ∀ event ∈ events, pose.locate (position event) = grabbed) :
    pose.dragAlong position grabbed events = pose := by
  induction events with
  | nil => rfl
  | cons event rest ih =>
      obtain ⟨here, later⟩ := List.forall_mem_cons.mp there
      rw [dragAlong, List.foldl_cons, drag_eq_self here]
      exact ih later

theorem dragAlong_scale (events : List β) :
    (pose.dragAlong position grabbed events).scale = pose.scale := by
  induction events generalizing pose with
  | nil => rfl
  | cons event rest ih => exact ih

/-- The grabbed point is at the end of every drag exactly if the sheet is not
scaled, or all drags lead to where it lies at first. -/
theorem dragAlong_iff (events : List β) :
    (∀ past event rest, events = past ++ event :: rest →
      (pose.dragAlong position grabbed (past ++ [event])).locate (position event) = grabbed) ↔
      pose.scale = 1 ∨ ∀ event ∈ events, pose.locate (position event) = grabbed := by
  constructor
  · intro follows
    by_cases unscaled : pose.scale = 1
    · exact Or.inl unscaled
    · refine Or.inr ?_
      induction events with
      | nil => exact fun event mem => absurd mem List.not_mem_nil
      | cons event rest ih =>
          have first := follows [] event rest rfl
          have here : pose.locate (position event) = grabbed :=
            ((locate_drag_eq_iff (position event)).mp first).resolve_left unscaled
          rw [List.forall_mem_cons]
          refine ⟨here, ih fun past next later whole => ?_⟩
          have after := follows (event :: past) next later (by rw [whole, List.cons_append])
          rwa [List.cons_append, dragAlong, List.foldl_cons, drag_eq_self here] at after
  · rintro (unscaled | there) past event rest whole
    · rw [dragAlong_append_singleton, locate_drag_eq_iff]
      exact Or.inl ((dragAlong_scale past).trans unscaled)
    · have still : pose.dragAlong position grabbed (past ++ [event]) = pose := by
        apply dragAlong_eq_self
        intro other mem
        apply there
        rw [whole, List.append_cons]
        exact List.mem_append_left _ mem
      rw [still]
      exact there event (by rw [whole]; exact List.mem_append_right _ List.mem_cons_self)

end Drags

end Pose

end OfxPrimes.Plane
