import OfxPrimes.Remote.RemoteControl
import OfxPrimes.Transition.Latch
import OfxPrimes.Tuio.Notifications

/-!
# Gestures of two cursors

A gesture goes on from one update with two cursors to the next one if both see
the same two.  The remote control does not compare the cursors: it starts anew
when a cursor with the finger id 0 or 1 was added in between.  A third cursor
that stays when one of the two leaves has another finger id, and a cursor with
one of these ids may have come and gone.
-/

namespace OfxPrimes.Remote

open OfxPrimes.Fiducial
open OfxPrimes.Osc
open OfxPrimes.Tuio
open OfxPrimes.Transition

variable {F β : Type}

/-! ## Runs -/

/-- The two coordinates that a gesture of two cursors changes. -/
def RemotePosition.gesture (pos : RemotePosition F) : F × F :=
  (pos.rot.z, pos.offset.z)

/-- A call of `update`: the notifications that it caused, the cursors that it saw,
and the coordinates before and after it. -/
structure UpdateCall (F : Type) where
  notifications : List Notification
  cursors : List OfxTuioCursor
  before : F × F
  after : F × F
  deriving DecidableEq

/-- The call of `update` that leads from one state to another. -/
def UpdateCall.between (control next : OfxRemoteControl F β) : UpdateCall F where
  notifications :=
    next.msaRemote.notifications.drop control.msaRemote.notifications.length
  cursors := next.msaRemote.cursorList
  before := control.pos.gesture
  after := next.pos.gesture

/-- A remote control with the calls of `update` so far. -/
structure Recorded (F β : Type) where
  control : OfxRemoteControl F β
  calls : List (UpdateCall F)

/-- One event of a remote control, recorded. -/
def step (env : RemoteExternals F) : Step (Recorded F β) (RemoteEvent β)
  | ⟨control, calls⟩, .message m =>
      some ⟨{ control with waiting := control.waiting ++ [m] }, calls⟩
  | ⟨control, calls⟩, .update =>
      (control.update env).map fun next => ⟨next, calls ++ [.between control next]⟩

/-! ## What a gesture should do -/

/-- What is known when a call of `update` begins: the two cursors of the last call
with two, as they were in it, and the notifications since. -/
structure History where
  pair : Option (OfxTuioCursor × OfxTuioCursor)
  since : List Notification

/-- A call with two cursors starts a new history, any other adds its notifications. -/
def History.remember (history : History) (call : UpdateCall F) : History :=
  match call.cursors with
  | [first, second] => { pair := some (first, second), since := [] }
  | _ => { history with since := history.since ++ call.notifications }

/-- The history that a list of calls leaves. -/
def History.of (past : List (UpdateCall F)) : History :=
  past.foldl History.remember { pair := none, since := [] }

/-- A notification of a new cursor that passes a test. -/
def Adds (test : OfxTuioCursor → Bool) : Notification → Bool
  | .cursorAdded tuioCursor => test tuioCursor
  | _ => false

/-- Whether a cursor that passes a test was added since the last call with two
cursors. -/
def addedSince (test : OfxTuioCursor → Bool) (past : List (UpdateCall F)) (call : UpdateCall F) :
    Bool :=
  ((History.of past).since ++ call.notifications).any (Adds test)

/-- The finger ids at which `_cursorAdded` sets the flag. -/
def isLowFinger (tuioCursor : OfxTuioCursor) : Bool :=
  tuioCursor.fingerId < 2

/-- The two cursors of the last call with two, if they are the two cursors of this
call in the same order: they have the same sessions, none of which began since. -/
def samePair (past : List (UpdateCall F)) (call : UpdateCall F) (first second : OfxTuioCursor) :
    Option (OfxTuioCursor × OfxTuioCursor) :=
  (History.of past).pair.filter fun previous =>
    decide (previous.1.sessionId = first.sessionId ∧ previous.2.sessionId = second.sessionId) &&
      !addedSince (fun tuioCursor => decide (tuioCursor.sessionId = first.sessionId ∨
        tuioCursor.sessionId = second.sessionId)) past call

/-- The coordinates changed by the difference of the angle of two cursors to an
earlier one, and by minus four times that of their distances. -/
def changedBy (env : RemoteExternals F) (now previous : OfxTuioCursor × OfxTuioCursor)
    (coordinates : F × F) : F × F :=
  let arith := env.arith
  (arith.add coordinates.1
      (arith.sub (env.getAngleDegrees now.1 now.2) (env.getAngleDegrees previous.1 previous.2)),
    arith.sub coordinates.2
      (arith.mul
        (arith.sub (env.getDistanceBetween now.1 now.2)
          (env.getDistanceBetween previous.1 previous.2))
        (arith.ofInt 4)))

/-- A call with two cursors continues the gesture of the last one if it saw the same
two, and changes nothing otherwise. -/
def Continues (env : RemoteExternals F) (past : List (UpdateCall F)) (call : UpdateCall F) :
    Prop :=
  ∀ first second, call.cursors = [first, second] →
    call.after =
      match samePair past call first second with
      | some previous => changedBy env (first, second) previous call.before
      | none => call.before

/-- The angle and the distance of two cursors are finite: the difference of each to
itself changes nothing. -/
def FinitePair (env : RemoteExternals F) (call : UpdateCall F) : Prop :=
  ∀ first second, call.cursors = [first, second] →
    changedBy env (first, second) (first, second) call.before = call.before

/-- At a call with two cursors, a cursor with finger id 0 or 1 was added since the last
one exactly if the two are not the same, or else the change to the last angle and
distance is none. -/
def Marked (env : RemoteExternals F) (past : List (UpdateCall F)) (call : UpdateCall F) : Prop :=
  ∀ first second, call.cursors = [first, second] →
    (addedSince isLowFinger past call = true ↔ samePair past call first second = none) ∨
      ∀ previous ∈ (History.of past).pair,
        changedBy env (first, second) previous call.before = call.before

section Decide

variable [DecidableEq F]

/-- A statement about the two cursors of a call can be decided. -/
instance decidablePair (call : UpdateCall F) (P : OfxTuioCursor → OfxTuioCursor → Prop)
    [∀ first second, Decidable (P first second)] :
    Decidable (∀ first second, call.cursors = [first, second] → P first second) :=
  match two : call.cursors with
  | [first, second] => decidable_of_iff (P first second) (by simp)
  | [] => isTrue (by simp)
  | [_] => isTrue (by simp)
  | _ :: _ :: _ :: _ => isTrue (by simp)

instance (env : RemoteExternals F) (past : List (UpdateCall F)) (call : UpdateCall F) :
    Decidable (Continues env past call) :=
  decidablePair call _

instance (env : RemoteExternals F) (call : UpdateCall F) : Decidable (FinitePair env call) :=
  decidablePair call _

instance (env : RemoteExternals F) (past : List (UpdateCall F)) (call : UpdateCall F) :
    Decidable (Marked env past call) :=
  decidablePair call _

end Decide

theorem history_append_singleton (past : List (UpdateCall F)) (call : UpdateCall F) :
    History.of (past ++ [call]) = (History.of past).remember call := by
  rw [History.of, List.foldl_append, History.of]
  rfl

theorem remember_pair {history : History} {call : UpdateCall F} {first second : OfxTuioCursor}
    (two : call.cursors = [first, second]) :
    history.remember call = { pair := some (first, second), since := [] } := by
  rw [History.remember, two]

theorem remember_other {history : History} {call : UpdateCall F}
    (other : ∀ first second, call.cursors ≠ [first, second]) :
    history.remember call = { history with since := history.since ++ call.notifications } := by
  rw [History.remember]
  split
  · rename_i first second two
    exact absurd two (other first second)
  · rfl

/-! ## One call -/

section Call

variable {env : RemoteExternals F} {control notified next : OfxRemoteControl F β}

theorem foldl_cursorAdded (notifications : List Notification) (newCursorDetected : Bool) :
    notifications.foldl OfxRemoteControl.cursorAdded newCursorDetected =
      (newCursorDetected || notifications.any (Adds isLowFinger)) := by
  induction notifications generalizing newCursorDetected with
  | nil => simp
  | cons notification rest ih =>
      rw [List.foldl_cons, ih, List.any_cons, ← Bool.or_assoc]
      congr 1
      cases notification <;> simp [OfxRemoteControl.cursorAdded, Adds, isLowFinger, Bool.or_comm]

/-- What `getMessage` does to the remote control. -/
theorem getMessage_spec (first : control.msaRemote.FirstIsZero)
    (called : control.getMessage env = some notified) :
    notified.pos = control.pos ∧ notified.touchesAnglePrev = control.touchesAnglePrev ∧
      notified.touchesDistPrev = control.touchesDistPrev ∧
      control.msaRemote.Grows notified.msaRemote ∧ notified.msaRemote.FirstIsZero ∧
      notified.newCursorDetected =
        (control.newCursorDetected ||
          (UpdateCall.between control notified).notifications.any (Adds isLowFinger)) := by
  rcases Option.map_eq_some_iff.mp called with ⟨⟨msaRemote, waiting⟩, handled, rfl⟩
  rcases MsaRemoteClient.getMessage_log first handled with ⟨grows, later⟩
  exact ⟨rfl, rfl, rfl, grows, later, foldl_cursorAdded _ _⟩

theorem followCursors_msaRemote (env : RemoteExternals F) (control : OfxRemoteControl F β) :
    (control.followCursors env).msaRemote = control.msaRemote := by
  unfold OfxRemoteControl.followCursors
  split <;> rfl

theorem update_cases (updated : control.update env = some next) :
    next = control ∨
      ∃ notified, control.getMessage env = some notified ∧
        next = (notified.followAccel env).followCursors env := by
  rw [OfxRemoteControl.update] at updated
  split at updated
  · exact Or.inl (Option.some.inj updated).symm
  · rcases Option.map_eq_some_iff.mp updated with ⟨notified, called, rfl⟩
    exact Or.inr ⟨notified, called, rfl⟩

end Call

/-! ## What the remote control knows of the calls before -/

section Known

variable {env : RemoteExternals F} {control next : OfxRemoteControl F β}
variable {past : List (UpdateCall F)}

/-- The fields of the remote control after some calls of `update`. -/
structure Remembers (env : RemoteExternals F) (past : List (UpdateCall F))
    (control : OfxRemoteControl F β) : Prop where
  first : control.msaRemote.FirstIsZero
  log : (History.of past).pair = none →
    control.msaRemote.notifications = (History.of past).since
  listed : ∀ first second, control.msaRemote.cursorList = [first, second] →
    History.of past = { pair := some (first, second), since := [] }
  flagged : (History.of past).since.any (Adds isLowFinger) = true →
    control.newCursorDetected = true
  measured : ∀ previous ∈ (History.of past).pair,
    control.newCursorDetected = (History.of past).since.any (Adds isLowFinger) ∧
      control.touchesAnglePrev = env.getAngleDegrees previous.1 previous.2 ∧
      control.touchesDistPrev = env.getDistanceBetween previous.1 previous.2

theorem remembers_setup (newCursorDetected : Bool) :
    Remembers env [] (.setup env.arith newCursorDetected : OfxRemoteControl F β) where
  first := MsaRemoteClient.firstIsZero_initial
  log _ := rfl
  listed _ _ two := absurd two (List.cons_ne_nil _ _).symm
  flagged any := absurd any Bool.false_ne_true
  measured _ mem := absurd mem (Option.not_mem_none _)

/-- Before the first call with two cursors, the log is what was notified since. -/
theorem log_append {notified : OfxRemoteControl F β} (remembers : Remembers env past control)
    (called : control.getMessage env = some notified) (known : (History.of past).pair = none) :
    notified.msaRemote.notifications =
      (History.of past).since ++ (UpdateCall.between control notified).notifications := by
  obtain ⟨-, -, -, grows, -⟩ := getMessage_spec remembers.first called
  rw [← remembers.log known]
  exact (List.prefix_iff_eq_append.mp grows).symm

/-- Before the first call with two cursors, the first finger was added. -/
theorem addedSince_of_first {notified : OfxRemoteControl F β}
    (remembers : Remembers env past control)
    (called : control.getMessage env = some notified)
    (some : notified.msaRemote.cursorList ≠ []) {call : UpdateCall F}
    (notifications : call.notifications = (UpdateCall.between control notified).notifications)
    (known : (History.of past).pair = none) : addedSince isLowFinger past call = true := by
  obtain ⟨-, -, -, -, first, -⟩ := getMessage_spec remembers.first called
  rcases first with ⟨empty, -⟩ | ⟨cursor, mem, zero⟩
  · exact absurd empty some
  · rw [addedSince, notifications, ← log_append remembers called known]
    exact List.any_eq_true.mpr ⟨_, mem, by simp [Adds, isLowFinger, zero]⟩

/-- At a call with two cursors, the flag tells whether one with a low finger id was
added since the last such call. -/
theorem flag_eq_addedSince {notified : OfxRemoteControl F β}
    (remembers : Remembers env past control)
    (called : control.getMessage env = some notified)
    (some : notified.msaRemote.cursorList ≠ []) {call : UpdateCall F}
    (notifications : call.notifications = (UpdateCall.between control notified).notifications) :
    notified.newCursorDetected = addedSince isLowFinger past call := by
  obtain ⟨-, -, -, -, -, flag⟩ := getMessage_spec remembers.first called
  cases known : (History.of past).pair with
  | none =>
      have low := addedSince_of_first remembers called some notifications known
      rw [low, flag]
      rw [addedSince, notifications, List.any_append, Bool.or_eq_true] at low
      rcases low with before | now
      · rw [remembers.flagged before, Bool.true_or]
      · rw [now, Bool.or_true]
  | some previous =>
      rw [flag, addedSince, notifications, (remembers.measured previous known).1, List.any_append]

/-- What a call with two cursors does, when it has a message to handle. -/
theorem gesture_followPair {notified : OfxRemoteControl F β} (first second : OfxTuioCursor) :
    (notified.followPair env first second).pos.gesture =
      if notified.newCursorDetected then
        changedBy env (first, second) (first, second) notified.pos.gesture
      else
        (env.arith.add notified.pos.gesture.1
            (env.arith.sub (env.getAngleDegrees first second) notified.touchesAnglePrev),
          env.arith.sub notified.pos.gesture.2
            (env.arith.mul
              (env.arith.sub (env.getDistanceBetween first second) notified.touchesDistPrev)
              (env.arith.ofInt 4))) := by
  cases detected : notified.newCursorDetected <;>
    simp [OfxRemoteControl.followPair, RemotePosition.gesture, changedBy, detected]

/-- A call that handles messages and sees two cursors starts anew if one with a low
finger id was added, and goes on from the last two otherwise. -/
theorem gesture_of_two {notified : OfxRemoteControl F β}
    (remembers : Remembers env past control) (called : control.getMessage env = some notified)
    {first second : OfxTuioCursor} (two : notified.msaRemote.cursorList = [first, second])
    {call : UpdateCall F}
    (notifications : call.notifications = (UpdateCall.between control notified).notifications) :
    (addedSince isLowFinger past call = true →
      (notified.followPair env first second).pos.gesture =
        changedBy env (first, second) (first, second) control.pos.gesture) ∧
      (addedSince isLowFinger past call = false → ∃ previous ∈ (History.of past).pair,
        (notified.followPair env first second).pos.gesture =
          changedBy env (first, second) previous control.pos.gesture) := by
  obtain ⟨pos, anglePrev, distPrev, -⟩ := getMessage_spec remembers.first called
  have listed : notified.msaRemote.cursorList ≠ [] := two ▸ List.cons_ne_nil _ _
  have flag := flag_eq_addedSince remembers called listed notifications
  constructor
  · intro added
    rw [gesture_followPair, flag, if_pos added, pos]
  · intro kept
    cases known : (History.of past).pair with
    | none =>
        have added := addedSince_of_first remembers called listed notifications known
        exact absurd (kept.symm.trans added) Bool.false_ne_true
    | some previous =>
        obtain ⟨-, angle, dist⟩ := remembers.measured previous known
        rw [gesture_followPair, flag, kept, if_neg Bool.false_ne_true, pos, anglePrev, distPrev,
          angle, dist]
        exact ⟨previous, rfl, rfl⟩

theorem between_followCursors (env : RemoteExternals F) (control notified : OfxRemoteControl F β) :
    (UpdateCall.between control ((notified.followAccel env).followCursors env)).notifications =
        (UpdateCall.between control notified).notifications ∧
      (UpdateCall.between control ((notified.followAccel env).followCursors env)).cursors =
        notified.msaRemote.cursorList := by
  rw [UpdateCall.between, followCursors_msaRemote]
  exact ⟨rfl, rfl⟩

theorem followCursors_pair {notified : OfxRemoteControl F β} {first second : OfxTuioCursor}
    (two : notified.msaRemote.cursorList = [first, second]) :
    (notified.followAccel env).followCursors env =
      (notified.followAccel env).followPair env first second := by
  have same : (notified.followAccel env).msaRemote.cursorList = [first, second] := two
  rw [OfxRemoteControl.followCursors, same]

/-- Without two cursors, the flag and what was measured stay. -/
theorem followCursors_other (env : RemoteExternals F) {notified : OfxRemoteControl F β}
    (other : ∀ first second, notified.msaRemote.cursorList ≠ [first, second]) :
    let followed := (notified.followAccel env).followCursors env
    followed.newCursorDetected = notified.newCursorDetected ∧
      followed.touchesAnglePrev = notified.touchesAnglePrev ∧
      followed.touchesDistPrev = notified.touchesDistPrev := by
  rw [OfxRemoteControl.followCursors]
  split
  · rename_i first second two
    exact absurd two (other first second)
  · exact ⟨rfl, rfl, rfl⟩
  · exact ⟨rfl, rfl, rfl⟩

theorem samePair_pair {call : UpdateCall F} {first second : OfxTuioCursor}
    {previous : OfxTuioCursor × OfxTuioCursor}
    (same : samePair past call first second = some previous) :
    (History.of past).pair = some previous :=
  (Option.filter_eq_some_iff.mp same).1

/-- Without a waiting message, the two cursors are those of the last call. -/
theorem samePair_of_waiting_nil (remembers : Remembers env past control)
    {first second : OfxTuioCursor} (two : control.msaRemote.cursorList = [first, second]) :
    samePair past (.between control control) first second = some (first, second) ∧
      addedSince isLowFinger past (.between control control) = false := by
  have known := remembers.listed first second two
  simp [samePair, addedSince, known, UpdateCall.between]

theorem continues_iff_elim {call : UpdateCall F} :
    Continues env past call ↔ ∀ first second, call.cursors = [first, second] →
      call.after = (samePair past call first second).elim call.before fun previous =>
        changedBy env (first, second) previous call.before := by
  apply forall_congr'
  intro first
  apply forall_congr'
  intro second
  cases samePair past call first second <;> exact Iff.rfl

/-- A change that starts anew is the one from the same pair, if there is one, exactly
if there is none or the change is none. -/
theorem anew_iff {α γ : Type} {change : α → γ} {before : γ} {same known : Option α}
    (sub : ∀ previous, same = some previous → known = some previous) :
    before = same.elim before change ↔
      (true = true ↔ same = none) ∨ ∀ previous ∈ known, change previous = before := by
  cases same with
  | none => exact iff_of_true rfl (Or.inl (iff_of_true rfl rfl))
  | some previous =>
      rw [sub previous rfl]
      constructor
      · intro unmoved
        right
        rintro _ ⟨rfl⟩
        exact unmoved.symm
      · rintro (apart | unmoved)
        · exact absurd (apart.mp rfl) (Option.some_ne_none previous)
        · exact (unmoved previous rfl).symm

/-- A change from the pair before is the one from the same pair, if there is one,
exactly if there is one or the change is none. -/
theorem goesOn_iff {α γ : Type} (change : α → γ) {before : γ} {same known : Option α} {last : α}
    (remembered : known = some last)
    (sub : ∀ previous, same = some previous → known = some previous) :
    change last = same.elim before change ↔
      (false = true ↔ same = none) ∨ ∀ previous ∈ known, change previous = before := by
  subst remembered
  cases same with
  | none =>
      constructor
      · intro unmoved
        right
        rintro _ ⟨rfl⟩
        exact unmoved
      · rintro (apart | unmoved)
        · exact absurd (apart.mpr rfl) Bool.false_ne_true
        · exact unmoved last rfl
  | some previous =>
      cases sub previous rfl
      have apart : false = true ↔ some last = none :=
        iff_of_false Bool.false_ne_true (Option.some_ne_none last)
      exact iff_of_true rfl (Or.inl apart)

/-- A call continues the gesture exactly if the flag tells so, or it makes no
difference. -/
theorem continues_iff_marked (remembers : Remembers env past control)
    (updated : control.update env = some next) (finite : FinitePair env (.between control next)) :
    Continues env past (.between control next) ↔ Marked env past (.between control next) := by
  rw [continues_iff_elim]
  apply forall_congr'
  intro first
  apply forall_congr'
  intro second
  apply forall_congr'
  intro two
  have still := finite first second two
  rcases update_cases updated with rfl | ⟨notified, called, rfl⟩
  · obtain ⟨same, added⟩ := samePair_of_waiting_nil remembers two
    simp only [same, added, Bool.false_eq_true, reduceCtorEq, iff_self, true_or, iff_true]
    exact still.symm
  · obtain ⟨notifications, cursors⟩ := between_followCursors env control notified
    have pair : notified.msaRemote.cursorList = [first, second] := cursors.symm.trans two
    obtain ⟨anew, goesOn⟩ := gesture_of_two remembers called pair notifications
    have result : (UpdateCall.between control
        ((notified.followAccel env).followCursors env)).after =
          (notified.followPair env first second).pos.gesture := by
      rw [UpdateCall.between, followCursors_pair pair]
      rfl
    rw [result]
    cases added : addedSince isLowFinger past
        (.between control ((notified.followAccel env).followCursors env)) with
    | true =>
        rw [(anew added).trans still]
        exact anew_iff fun _ => samePair_pair
    | false =>
        obtain ⟨previous, known, moved⟩ := goesOn added
        rw [moved]
        exact goesOn_iff (fun pair => changedBy env (first, second) pair control.pos.gesture) known
          fun _ => samePair_pair

theorem remember_unchanged (remembers : Remembers env past control) :
    History.of (past ++ [.between control control]) = History.of past := by
  rw [history_append_singleton]
  by_cases two : ∃ first second, control.msaRemote.cursorList = [first, second]
  · obtain ⟨first, second, listed⟩ := two
    rw [remember_pair listed, remembers.listed first second listed]
  · rw [remember_other fun first second listed => two ⟨first, second, listed⟩]
    simp [UpdateCall.between]

/-- What is remembered after a call without waiting messages. -/
theorem remembers_unchanged (remembers : Remembers env past control) :
    Remembers env (past ++ [.between control control]) control := by
  have unchanged := remember_unchanged remembers
  constructor
  case first => exact remembers.first
  case log => rw [unchanged]; exact remembers.log
  case listed => rw [unchanged]; exact remembers.listed
  case flagged => rw [unchanged]; exact remembers.flagged
  case measured => rw [unchanged]; exact remembers.measured

/-- What is remembered after a call that saw two cursors. -/
theorem remembers_followPair {notified : OfxRemoteControl F β}
    (remembers : Remembers env past control) (called : control.getMessage env = some notified)
    {one other : OfxTuioCursor} (pair : notified.msaRemote.cursorList = [one, other]) :
    Remembers env
      (past ++ [.between control ((notified.followAccel env).followCursors env)])
      ((notified.followAccel env).followCursors env) := by
  obtain ⟨-, -, -, -, first, -⟩ := getMessage_spec remembers.first called
  obtain ⟨-, cursors⟩ := between_followCursors env control notified
  have same := followCursors_msaRemote env (notified.followAccel env)
  have history := history_append_singleton past
    (.between control ((notified.followAccel env).followCursors env))
  rw [remember_pair (cursors.trans pair)] at history
  constructor
  case first => rw [same]; exact first
  case log => rw [history]; exact fun none => absurd none (Option.some_ne_none _)
  case listed =>
    rw [history, same]
    intro first second listed
    cases pair.symm.trans listed
    rfl
  case flagged => rw [history]; exact fun any => absurd any Bool.false_ne_true
  case measured =>
    rw [history, followCursors_pair pair]
    rintro _ ⟨rfl⟩
    exact ⟨rfl, rfl, rfl⟩

/-- What is remembered after a call that saw any other number of cursors. -/
theorem remembers_followOther {notified : OfxRemoteControl F β}
    (remembers : Remembers env past control) (called : control.getMessage env = some notified)
    (others : ∀ first second, notified.msaRemote.cursorList ≠ [first, second]) :
    Remembers env
      (past ++ [.between control ((notified.followAccel env).followCursors env)])
      ((notified.followAccel env).followCursors env) := by
  obtain ⟨-, anglePrev, distPrev, -, first, flag⟩ := getMessage_spec remembers.first called
  obtain ⟨notifications, cursors⟩ := between_followCursors env control notified
  have same := followCursors_msaRemote env (notified.followAccel env)
  have history := history_append_singleton past
    (.between control ((notified.followAccel env).followCursors env))
  rw [remember_other fun first second listed => others first second (cursors.symm.trans listed),
    notifications] at history
  obtain ⟨flagKept, angleKept, distKept⟩ := followCursors_other env others
  constructor
  case first => rw [same]; exact first
  case log =>
    rw [history, same]
    have log := log_append remembers called
    exact log
  case listed =>
    rw [same]
    exact fun first second listed => absurd listed (others first second)
  case flagged =>
    rw [history, flagKept, flag, List.any_append, Bool.or_eq_true, Bool.or_eq_true]
    exact Or.imp_left remembers.flagged
  case measured =>
    rw [history, flagKept, flag, angleKept, distKept, anglePrev, distPrev]
    intro previous known
    obtain ⟨flagged, angle, dist⟩ := remembers.measured previous known
    exact ⟨by rw [flagged, List.any_append], angle, dist⟩

/-- What is remembered after one more call of `update`. -/
theorem remembers_update (remembers : Remembers env past control)
    (updated : control.update env = some next) :
    Remembers env (past ++ [.between control next]) next := by
  rcases update_cases updated with rfl | ⟨notified, called, rfl⟩
  · exact remembers_unchanged remembers
  · by_cases two : ∃ first second, notified.msaRemote.cursorList = [first, second]
    · obtain ⟨one, other, pair⟩ := two
      exact remembers_followPair remembers called pair
    · exact remembers_followOther remembers called
        fun first second listed => two ⟨first, second, listed⟩

end Known

/-! ## Runs of the remote control -/

/-- In every run, the calls with two cursors continue the gesture of the last one with
the same two, and of no other, if and only if at each of them a cursor with finger id
0 or 1 was added since the last one exactly if the two are others, or else the change
is none. -/
theorem continues_iff (env : RemoteExternals F) (newCursorDetected : Bool)
    (events : List (RemoteEvent β)) (state : Recorded F β)
    (reached : run (step env) ⟨.setup env.arith newCursorDetected, []⟩ events = some state)
    (finite : ∀ call ∈ state.calls, FinitePair env call) :
    (∀ past call rest, state.calls = past ++ call :: rest → Continues env past call) ↔
      ∀ past call rest, state.calls = past ++ call :: rest → Marked env past call := by
  obtain ⟨-, each⟩ : Remembers env state.calls state.control ∧
      ∀ past call rest, state.calls = past ++ call :: rest → FinitePair env call →
        (Continues env past call ↔ Marked env past call) := by
    refine run_invariant_of_forall_mem (fun _ => True) (fun state : Recorded F β =>
      Remembers env state.calls state.control ∧
        ∀ past call rest, state.calls = past ++ call :: rest → FinitePair env call →
          (Continues env past call ↔ Marked env past call)) ?_ ?_ (fun _ _ => trivial) reached
    · rintro ⟨control, calls⟩ event next ⟨remembers, each⟩ - stepped
      cases event with
      | message m =>
          cases stepped
          exact ⟨⟨remembers.first, remembers.log, remembers.listed, remembers.flagged,
            remembers.measured⟩, each⟩
      | update =>
          rcases Option.map_eq_some_iff.mp stepped with ⟨followed, updated, rfl⟩
          constructor
          · exact remembers_update remembers updated
          · exact forall_split_append_singleton.mpr ⟨each, continues_iff_marked remembers updated⟩
    · constructor
      · exact remembers_setup newCursorDetected
      · exact forall_split_nil
  have mem {past call rest} (whole : state.calls = past ++ call :: rest) : call ∈ state.calls := by
    rw [whole]
    exact List.mem_append_right _ List.mem_cons_self
  constructor
  · intro continues past call rest whole
    exact (each past call rest whole (finite call (mem whole))).mp (continues past call rest whole)
  · intro marked past call rest whole
    exact (each past call rest whole (finite call (mem whole))).mpr (marked past call rest whole)

/-! ## A third cursor -/

/-- Numbers that are rational, with the angle of a cursor to the right of another or
below it, at distance one. -/
def RemoteExternals.sample : RemoteExternals (Option Rat) where
  toExternals := Externals.sample
  arith := FloatArith.rational
  ofBits bits := if bits = 0 then some 0 else if bits = 0x3f800000 then some 1 else none
  getAngleDegrees first second := if first.x = second.x then some 0 else some 90
  getDistanceBetween _ _ := some 1

/-- A cursor with session 1 at the origin and one with session 2 to the right of it,
then an update. -/
def twoCursors : List (RemoteEvent Blob) :=
  [.message (MsaRemoteClient.cursorAliveMessage [1, 2]),
    .message (MsaRemoteClient.cursorSetMessage 1 0),
    .message (MsaRemoteClient.cursorSetMessage 2 0x3f800000), .update]

/-- A `set` message for a resting cursor below the origin. -/
def cursorBelowMessage (sid : Int32) : OfxOscMessage Blob :=
  tuioMessage "/tuio/2Dcur" "set"
    [.int32 sid, .float 0, .float 0x3f800000, .float 0, .float 0, .float 0]

theorem exists_two_calls (reached : Option (Recorded F β))
    (P : UpdateCall F → UpdateCall F → Prop) [∀ first second, Decidable (P first second)]
    (found : reached.any (fun state =>
      match state.calls with
      | [first, second] => decide (P first second)
      | _ => false) = true) :
    ∃ state first second, reached = some state ∧ state.calls = [first, second] ∧
      P first second := by
  rcases (Option.any_eq_true _ _).mp found with ⟨state, rfl, test⟩
  split at test
  · rename_i first second two
    exact ⟨state, first, second, rfl, two, of_decide_eq_true test⟩
  · contradiction

/-- The second cursor turns around the first. -/
theorem continues_turning :
    ∃ state, run (step .sample) ⟨.setup FloatArith.rational false, []⟩
        (twoCursors ++ [.message (cursorBelowMessage 2), .update]) = some state ∧
      ∀ past call rest, state.calls = past ++ call :: rest →
        Continues .sample past call := by
  obtain ⟨state, first, second, reached, two, ⟨finiteFirst, finiteSecond⟩, marked⟩ :=
    exists_two_calls
      (run (step .sample) ⟨.setup FloatArith.rational false, []⟩
        (twoCursors ++ [.message (cursorBelowMessage 2), .update]))
      (fun first second => (FinitePair .sample first ∧ FinitePair .sample second) ∧
        Marked .sample [] first ∧ Marked .sample [first] second)
      (by decide +kernel)
  have finite : ∀ call ∈ state.calls, FinitePair .sample call := by
    rw [two]
    exact List.forall_mem_cons.mpr ⟨finiteFirst, List.forall_mem_singleton.mpr finiteSecond⟩
  refine ⟨state, reached, (continues_iff .sample false _ state reached finite).mpr ?_⟩
  rw [two, forall_split_pair]
  exact marked

/-- A third cursor comes below the first, and the second leaves. -/
theorem not_continues_third :
    ∃ state, run (step .sample) ⟨.setup FloatArith.rational false, []⟩
        (twoCursors ++ [.message (MsaRemoteClient.cursorAliveMessage [1, 2, 3]),
          .message (cursorBelowMessage 3), .message (MsaRemoteClient.cursorAliveMessage [1, 3]),
          .update]) = some state ∧
      (∀ call ∈ state.calls, FinitePair .sample call) ∧
      ¬ ∀ past call rest, state.calls = past ++ call :: rest → Continues .sample past call := by
  obtain ⟨state, first, second, reached, two, ⟨finiteFirst, finiteSecond⟩, broken⟩ :=
    exists_two_calls
      (run (step .sample) ⟨.setup FloatArith.rational false, []⟩
        (twoCursors ++ [.message (MsaRemoteClient.cursorAliveMessage [1, 2, 3]),
          .message (cursorBelowMessage 3), .message (MsaRemoteClient.cursorAliveMessage [1, 3]),
          .update]))
      (fun first second => (FinitePair .sample first ∧ FinitePair .sample second) ∧
        ¬ Continues .sample [first] second)
      (by decide +kernel)
  refine ⟨state, reached, ?_, ?_⟩
  · rw [two]
    exact List.forall_mem_cons.mpr ⟨finiteFirst, List.forall_mem_singleton.mpr finiteSecond⟩
  · rw [two, forall_split_pair]
    exact fun both => broken both.2

end OfxPrimes.Remote
