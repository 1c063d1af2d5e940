import OfxPrimes.Tuio.Fingers

/-!
# The log of notifications

A message only adds to the log.  The first cursor that is ever listed has the
finger id zero, so the log of a client with cursors names a cursor with it.
-/

namespace OfxPrimes.Tuio.MsaRemoteClient

open OfxPrimes.Osc
open OfxPrimes.Transition

variable {β : Type}

/-- The log of the one client is the beginning of that of the other. -/
def Grows (client after : MsaRemoteClient) : Prop :=
  client.notifications <+: after.notifications

theorem Grows.refl (client : MsaRemoteClient) : Grows client client :=
  List.prefix_refl _

theorem Grows.trans {first second third : MsaRemoteClient} (left : Grows first second)
    (right : Grows second third) : Grows first third :=
  List.IsPrefix.trans left right

theorem grows_notify (client : MsaRemoteClient) (event : Notification) :
    Grows client (client.notify event) :=
  List.prefix_append _ _

theorem objectSet_grows (env : Externals) (client : MsaRemoteClient) (m : OfxOscMessage β) :
    Grows client (client.objectSet env m) := by
  unfold objectSet
  dsimp only
  split
  · exact grows_notify client _
  · split
    · exact Grows.refl client
    · split
      · exact grows_notify client _
      · exact Grows.refl client

theorem removeObject_grows (client : MsaRemoteClient) (sid : Int) :
    Grows client (client.removeObject sid) := by
  unfold removeObject
  split
  · exact Grows.refl client
  · exact grows_notify client _

theorem lowerMaxFingerID_notifications (client : MsaRemoteClient) :
    client.lowerMaxFingerID.notifications = client.notifications := by
  unfold lowerMaxFingerID
  split <;> rfl

theorem removeCursor_grows (client : MsaRemoteClient) (sid : Int) :
    Grows client (client.removeCursor sid) := by
  unfold removeCursor
  split
  · exact Grows.refl client
  · dsimp only
    split_ifs
    · rw [Grows, lowerMaxFingerID_notifications]
      exact grows_notify client _
    · exact grows_notify client _
    · exact grows_notify client _

theorem foldl_grows {remove : MsaRemoteClient → Int → MsaRemoteClient}
    (removes : ∀ client sid, Grows client (remove client sid)) (departed : List Int)
    (client : MsaRemoteClient) : Grows client (departed.foldl remove client) := by
  induction departed generalizing client with
  | nil => exact Grows.refl client
  | cons sid rest ih => exact (removes client sid).trans (ih _)

theorem cursorSet_grows {env : Externals} {client after : MsaRemoteClient}
    {m : OfxOscMessage β} (done : client.cursorSet env m = some after) : Grows client after := by
  simp only [cursorSet] at done
  split at done
  · rcases Option.map_eq_some_iff.mp done with ⟨⟨fid, allocated⟩, allocation, rfl⟩
    have same : allocated.notifications = client.notifications := by
      simp only [allocateFinger] at allocation
      split_ifs at allocation
      · rcases Option.map_eq_some_iff.mp allocation with ⟨cursor, -, pair_eq⟩
        cases pair_eq
        rfl
      · cases allocation
        rfl
    rw [Grows, ← same]
    exact grows_notify allocated _
  · split at done
    · cases done
      exact Grows.refl client
    · split_ifs at done
      · cases done
        exact grows_notify client _
      · cases done
        exact Grows.refl client

theorem accelerometer_grows (env : Externals) (client : MsaRemoteClient) (m : OfxOscMessage β) :
    Grows client (client.accelerometer env m) := by
  unfold accelerometer
  split
  · dsimp only
    split <;> exact Grows.refl client
  · exact Grows.refl client

theorem step_grows {env : Externals} {client after : MsaRemoteClient} {m : OfxOscMessage β}
    (stepped : step env client m = some after) : Grows client after := by
  cases step_effect stepped with
  | skipped => exact Grows.refl client
  | objectSet => exact objectSet_grows env client m
  | objectAlive => exact foldl_grows removeObject_grows _ client
  | cursorSet _ _ done => exact cursorSet_grows done
  | cursorAlive => exact foldl_grows removeCursor_grows _ client
  | frameSequence => exact Grows.refl client
  | accelerometer => exact accelerometer_grows env client m

/-! ## The first finger -/

/-- No cursor was ever listed, or one with finger id zero was. -/
def FirstIsZero (client : MsaRemoteClient) : Prop :=
  (client.cursorList = [] ∧ client.maxFingerID = -1) ∨
    ∃ cursor : OfxTuioCursor, .cursorAdded cursor ∈ client.notifications ∧ cursor.fingerId = 0

theorem firstIsZero_initial : FirstIsZero {} :=
  Or.inl ⟨rfl, rfl⟩

theorem FirstIsZero.of_same {client after : MsaRemoteClient} (inv : FirstIsZero client)
    (same : SameCursors client after) (grows : Grows client after) : FirstIsZero after := by
  rcases inv with ⟨none, top⟩ | ⟨cursor, mem, zero⟩
  · exact Or.inl ⟨same.cursorList.trans none, same.maxFingerID.trans top⟩
  · exact Or.inr ⟨cursor, grows.subset mem, zero⟩

theorem step_firstIsZero {env : Externals} {client after : MsaRemoteClient}
    {m : OfxOscMessage β} (inv : FirstIsZero client) (stepped : step env client m = some after) :
    FirstIsZero after := by
  have grows := step_grows stepped
  rcases inv with ⟨none, top⟩ | ⟨cursor, mem, zero⟩
  · have inv : FirstIsZero client := Or.inl ⟨none, top⟩
    cases step_effect stepped with
    | skipped => exact inv
    | objectSet => exact inv.of_same (objectSet_sameCursors env client m) grows
    | objectAlive => exact inv.of_same (objectAlive_sameCursors env client m) grows
    | cursorSet _ _ done =>
        right
        have free : ¬((0 : Int) ≤ -1) := by decide
        simp only [cursorSet, none, allocateFinger, top, List.findIdx?_nil, List.length_nil,
          Nat.cast_zero, if_neg free, Option.map_some, Option.some.injEq] at done
        rw [← done]
        exact ⟨_, List.mem_append_right _ List.mem_cons_self, rfl⟩
    | cursorAlive =>
        left
        simp only [cursorAlive, foldl_removeCursor_nil none]
        exact ⟨none, top⟩
    | frameSequence => exact inv.of_same ⟨rfl, rfl, rfl, rfl⟩ grows
    | accelerometer => exact inv.of_same (accelerometer_sameCursors env client m) grows
  · exact Or.inr ⟨cursor, grows.subset mem, zero⟩

/-- A call of `getMessage` adds to the log and keeps the first finger. -/
theorem getMessage_log {env : Externals} {client after : MsaRemoteClient}
    {queue waiting : List (OfxOscMessage β)} (inv : FirstIsZero client)
    (called : client.getMessage env queue = some (after, waiting)) :
    Grows client after ∧ FirstIsZero after := by
  obtain ⟨handled, -, reached⟩ := getMessage_eq_run env client after queue waiting called
  apply run_invariant_of_forall_mem (fun _ => True) (fun later => Grows client later ∧
    FirstIsZero later) _ ⟨Grows.refl client, inv⟩ (fun _ _ => trivial) reached
  rintro before m next ⟨grows, first⟩ - stepped
  exact ⟨grows.trans (step_grows stepped), step_firstIsZero first stepped⟩

end OfxPrimes.Tuio.MsaRemoteClient
