import Mathlib.Algebra.Order.Ring.Int
import Mathlib.Data.List.Induction

/-!
# Delimited frames

A frame is a start symbol, a body without the stop symbol, and a stop symbol.
The reader skips symbols until a start symbol opens a frame and delivers the
body at the next stop symbol.  Besides the round trip this leaf determines when
a reader that forgets an open frame between two chunks of a stream delivers the
frames of the whole stream.
-/

namespace OfxPrimes.Framing

universe u

variable {α : Type u} [DecidableEq α] (start stop : α)

/-- Write one frame. -/
def frame (body : List α) : List α :=
  start :: (body ++ [stop])

/-- What the reader holds after one more symbol: nothing while it skips, or the
body read so far. -/
def advance : Option (List α) → α → Option (List α)
  | none, symbol => if symbol = start then some [] else none
  | some body, symbol => if symbol = stop then none else some (body ++ [symbol])

/-- The frame that one more symbol completes, if any. -/
def completed : Option (List α) → α → List (List α)
  | none, _ => []
  | some body, symbol => if symbol = stop then [body] else []

/-- What the reader holds after a stretch of the stream. -/
def pendingAfter (pending : Option (List α)) (stream : List α) : Option (List α) :=
  stream.foldl (advance start stop) pending

/-- The frames delivered over a stretch of the stream. -/
def framesFrom : Option (List α) → List α → List (List α)
  | _, [] => []
  | pending, symbol :: rest =>
      completed stop pending symbol ++ framesFrom (advance start stop pending symbol) rest

/-- The frames of a whole stream. -/
def frames (stream : List α) : List (List α) :=
  framesFrom start stop none stream

variable {start stop}

theorem framesFrom_append (pending : Option (List α)) (first second : List α) :
    framesFrom start stop pending (first ++ second) =
      framesFrom start stop pending first ++
        framesFrom start stop (pendingAfter start stop pending first) second := by
  induction first generalizing pending with
  | nil => rfl
  | cons symbol rest ih =>
      simp only [List.cons_append, framesFrom, ih, List.append_assoc]
      rfl

/-- Without a stop symbol nothing is delivered. -/
theorem framesFrom_of_notMem {pending : Option (List α)} {stream : List α}
    (noStop : stop ∉ stream) : framesFrom start stop pending stream = [] := by
  induction stream generalizing pending with
  | nil => rfl
  | cons symbol rest ih =>
      obtain ⟨notStop, restNoStop⟩ := List.ne_and_not_mem_of_not_mem_cons noStop
      rw [framesFrom, ih restNoStop, List.append_nil]
      cases pending with
      | none => rfl
      | some body => exact if_neg notStop.symm

/-- An open frame ends at the next stop symbol. -/
theorem framesFrom_some (body : List α) {front : List α} (noStop : stop ∉ front)
    (rest : List α) :
    framesFrom start stop (some body) (front ++ stop :: rest) =
      (body ++ front) :: frames start stop rest := by
  induction front generalizing body with
  | nil => simp [framesFrom, completed, advance, frames]
  | cons symbol front ih =>
      obtain ⟨notStop, frontNoStop⟩ := List.ne_and_not_mem_of_not_mem_cons noStop
      have skipped : symbol ≠ stop := notStop.symm
      simp only [List.cons_append, framesFrom, completed, advance, if_neg skipped,
        List.nil_append, ih _ frontNoStop, List.append_assoc]

/-- Reading a frame delivers its body, whatever follows. -/
theorem frames_frame_append {body : List α} (noStop : stop ∉ body) (rest : List α) :
    frames start stop (frame start stop body ++ rest) = body :: frames start stop rest := by
  have opened : framesFrom start stop (some []) (body ++ stop :: rest) =
      ([] ++ body) :: frames start stop rest := framesFrom_some [] noStop rest
  simpa [frames, frame, framesFrom, completed, advance] using opened

/-- The frames written for a list of bodies read back as that list. -/
theorem frames_flatMap_frame {bodies : List (List α)} (noStop : ∀ body ∈ bodies, stop ∉ body) :
    frames start stop (bodies.flatMap (frame start stop)) = bodies := by
  induction bodies with
  | nil => rfl
  | cons body rest ih =>
      rw [List.flatMap_cons, frames_frame_append (noStop body List.mem_cons_self),
        ih fun later mem => noStop later (List.mem_cons_of_mem body mem)]

/-- What is delivered was read: it is a part of the open body and the stream behind it. -/
theorem infix_of_mem_framesFrom {pending : Option (List α)} {stream body : List α}
    (delivered : body ∈ framesFrom start stop pending stream) :
    body <:+: pending.getD [] ++ stream := by
  induction stream generalizing pending with
  | nil => cases delivered
  | cons symbol rest ih =>
      rcases List.mem_append.mp delivered with now | later
      · cases pending with
        | none => cases now
        | some opened =>
            by_cases ends : symbol = stop
            · rw [completed, if_pos ends, List.mem_singleton] at now
              rw [now]
              exact (List.prefix_append opened (symbol :: rest)).isInfix
            · rw [completed, if_neg ends] at now
              cases now
      · have part := ih later
        cases pending with
        | none =>
            have inRest : body <:+: rest := by
              by_cases begins : symbol = start <;> simpa [advance, begins] using part
            exact List.infix_cons inRest
        | some opened =>
            by_cases ends : symbol = stop
            · have inRest : body <:+: rest := by simpa [advance, ends] using part
              exact inRest.trans ((List.suffix_cons symbol rest).trans
                (List.suffix_append opened (symbol :: rest))).isInfix
            · simpa [advance, ends] using part

theorem infix_of_mem_frames {stream body : List α} (delivered : body ∈ frames start stop stream) :
    body <:+: stream :=
  infix_of_mem_framesFrom delivered

/-! ## Forgetting the open frame between chunks -/

/-- A frame is open after the stretch: some start symbol has no stop symbol
behind it. -/
def FrameOpen (start stop : α) (stream : List α) : Prop :=
  ∃ front back, stream = front ++ start :: back ∧ stop ∉ back

theorem pendingAfter_concat (pending : Option (List α)) (stream : List α) (symbol : α) :
    pendingAfter start stop pending (stream ++ [symbol]) =
      advance start stop (pendingAfter start stop pending stream) symbol := by
  simp [pendingAfter]

theorem frames_concat (stream : List α) (symbol : α) :
    frames start stop (stream ++ [symbol]) =
      frames start stop stream ++ completed stop (pendingAfter start stop none stream) symbol := by
  rw [frames, framesFrom_append, framesFrom, framesFrom, List.append_nil, frames]

theorem isSome_pendingAfter_iff (distinct : start ≠ stop) (stream : List α) :
    (pendingAfter start stop none stream).isSome ↔ FrameOpen start stop stream := by
  induction stream using List.reverseRecOn with
  | nil => simp [pendingAfter, FrameOpen]
  | append_singleton stream symbol ih =>
      rw [pendingAfter_concat]
      constructor
      · intro isOpen
        cases pending : pendingAfter start stop none stream with
        | none =>
            have opens : symbol = start := by
              by_contra skipped
              simp [pending, advance, skipped] at isOpen
            exact ⟨stream, [], by rw [opens], List.not_mem_nil⟩
        | some body =>
            have goesOn : symbol ≠ stop := by
              rintro rfl
              simp [pending, advance] at isOpen
            obtain ⟨front, back, rfl, noStop⟩ := ih.mp (by rw [pending]; rfl)
            refine ⟨front, back ++ [symbol], by simp, ?_⟩
            simpa [noStop] using goesOn.symm
      · rintro ⟨front, back, streamEq, noStop⟩
        rcases List.eq_nil_or_concat back with rfl | ⟨middle, last, rfl⟩
        · obtain ⟨rfl, last⟩ := List.append_inj' streamEq rfl
          cases last
          cases pendingAfter start stop none stream with
          | none => simp [advance]
          | some body => simp [advance, distinct]
        · rw [List.concat_eq_append, ← List.cons_append, ← List.append_assoc] at streamEq
          obtain ⟨rfl, last⟩ := List.append_inj' streamEq rfl
          cases last
          rw [List.concat_eq_append, List.mem_append, not_or, List.mem_singleton] at noStop
          obtain ⟨body, pending⟩ := Option.isSome_iff_exists.mp
            (ih.mpr ⟨front, middle, rfl, noStop.1⟩)
          simp [pending, advance, Ne.symm noStop.2]

/-- Frames weighed by their bodies and one stop symbol each. -/
def weight (delivered : List (List α)) : Nat :=
  (delivered.map fun body => body.length + 1).sum

omit [DecidableEq α] in
@[simp]
theorem weight_append (first second : List (List α)) :
    weight (first ++ second) = weight first + weight second := by
  simp [weight]

/-- A longer open body weighs more once the frame ends. -/
theorem weight_framesFrom_some_lt {shorter longer stream : List α}
    (lengths : shorter.length < longer.length) (ends : stop ∈ stream) :
    weight (framesFrom start stop (some shorter) stream) <
      weight (framesFrom start stop (some longer) stream) := by
  obtain ⟨front, rest, rfl, noStop⟩ := List.eq_append_cons_of_mem ends
  rw [framesFrom_some shorter noStop, framesFrom_some longer noStop]
  simp only [weight, List.map_cons, List.sum_cons, List.length_append]
  omega

/-- A reader that forgot an open frame delivers strictly less once it ends. -/
theorem weight_frames_lt (distinct : start ≠ stop) {stream : List α} (ends : stop ∈ stream)
    (body : List α) :
    weight (frames start stop stream) <
      weight (framesFrom start stop (some body) stream) := by
  induction stream generalizing body with
  | nil => cases ends
  | cons symbol rest ih =>
      by_cases isStop : symbol = stop
      · subst isStop
        simp [frames, framesFrom, completed, advance, distinct.symm, weight]
      · have restEnds : stop ∈ rest := by simpa [Ne.symm isStop] using ends
        by_cases isStart : symbol = start
        · have lengths : ([] : List α).length < (body ++ [start]).length := by simp
          simpa [frames, framesFrom, completed, advance, isStart, distinct] using
            weight_framesFrom_some_lt lengths restEnds
        · simpa [frames, framesFrom, completed, advance, isStop, isStart] using
            ih restEnds (body ++ [symbol])

theorem weight_frames_le (distinct : start ≠ stop) (pending : Option (List α))
    (stream : List α) :
    weight (frames start stop stream) ≤ weight (framesFrom start stop pending stream) := by
  cases pending with
  | none => exact Nat.le_refl _
  | some body =>
      by_cases ends : stop ∈ stream
      · exact Nat.le_of_lt (weight_frames_lt distinct ends body)
      · rw [frames, framesFrom_of_notMem ends]
        exact Nat.zero_le _

/-- Reading chunk by chunk delivers no more than reading the whole stream. -/
theorem weight_flatMap_frames_le (distinct : start ≠ stop) (chunks : List (List α)) :
    weight (chunks.flatMap (frames start stop)) ≤ weight (frames start stop chunks.flatten) := by
  induction chunks with
  | nil => exact Nat.le_refl _
  | cons chunk rest ih =>
      rw [List.flatMap_cons, List.flatten_cons, frames, frames, framesFrom_append,
        weight_append, weight_append]
      exact Nat.add_le_add_left (Nat.le_trans ih (weight_frames_le distinct _ _)) _

/-- No frame is completed by a later chunk than the one that opened it. -/
def FramesWithinChunks (start stop : α) (chunks : List (List α)) : Prop :=
  ∀ before after, chunks = before ++ after → FrameOpen start stop before.flatten →
    stop ∉ after.flatten

omit [DecidableEq α] in
theorem frameOpen_append (first second : List α) :
    FrameOpen start stop (first ++ second) ↔
      FrameOpen start stop second ∨ (FrameOpen start stop first ∧ stop ∉ second) := by
  constructor
  · rintro ⟨front, back, streamEq, noStop⟩
    rcases List.append_eq_append_iff.mp streamEq with
      ⟨middle, rfl, rfl⟩ | ⟨middle, rfl, backEq⟩
    · exact .inl ⟨middle, back, rfl, noStop⟩
    · cases middle with
      | nil => exact .inl ⟨[], back, by simpa using backEq.symm, noStop⟩
      | cons symbol middle =>
          rw [List.cons_append] at backEq
          obtain ⟨rfl, rfl⟩ := List.cons.inj backEq
          rw [List.mem_append, not_or] at noStop
          exact .inr ⟨⟨front, middle, rfl, noStop.1⟩, noStop.2⟩
  · rintro (⟨front, back, rfl, noStop⟩ | ⟨⟨front, back, rfl, noStop⟩, secondNoStop⟩)
    · exact ⟨first ++ front, back, by simp, noStop⟩
    · exact ⟨front, back ++ second, by simp, by simp [noStop, secondNoStop]⟩

omit [DecidableEq α] in
theorem framesWithinChunks_cons (chunk : List α) (rest : List (List α)) :
    FramesWithinChunks start stop (chunk :: rest) ↔
      (FrameOpen start stop chunk → stop ∉ rest.flatten) ∧ FramesWithinChunks start stop rest := by
  constructor
  · intro within
    constructor
    · intro isOpen
      exact within [chunk] rest rfl (by simpa using isOpen)
    · intro before after split isOpen
      apply within (chunk :: before) after (by rw [split, List.cons_append])
      rw [List.flatten_cons, frameOpen_append]
      exact .inl isOpen
  · rintro ⟨first, later⟩ before after split isOpen
    cases before with
    | nil =>
        obtain ⟨front, back, impossible, _⟩ := isOpen
        simp at impossible
    | cons _ before =>
        rw [List.cons_append] at split
        obtain ⟨rfl, rfl⟩ := List.cons.inj split
        rw [List.flatten_cons, frameOpen_append] at isOpen
        rcases isOpen with isOpen | ⟨isOpen, _⟩
        · exact later before after rfl isOpen
        · have noStop := first isOpen
          rw [List.flatten_append, List.mem_append, not_or] at noStop
          exact noStop.2

/-- Forgetting the open frame between chunks is harmless exactly when every
completed frame lies within one chunk. -/
theorem flatMap_frames_eq_iff (distinct : start ≠ stop) (chunks : List (List α)) :
    chunks.flatMap (frames start stop) = frames start stop chunks.flatten ↔
      FramesWithinChunks start stop chunks := by
  induction chunks with
  | nil => simp [frames, framesFrom, FramesWithinChunks]
  | cons chunk rest ih =>
      have isOpenIff := isSome_pendingAfter_iff distinct chunk
      have wholeSplit : frames start stop (chunk ++ rest.flatten) = frames start stop chunk ++
          framesFrom start stop (pendingAfter start stop none chunk) rest.flatten :=
        framesFrom_append none chunk rest.flatten
      rw [List.flatMap_cons, List.flatten_cons, wholeSplit, List.append_cancel_left_eq,
        framesWithinChunks_cons]
      cases pending : pendingAfter start stop none chunk with
      | none =>
          rw [pending, Option.isSome_none] at isOpenIff
          have closed : ¬ FrameOpen start stop chunk := fun isOpen => by
            simpa using isOpenIff.mpr isOpen
          rw [← frames, ih]
          simp [closed]
      | some body =>
          rw [pending, Option.isSome_some] at isOpenIff
          have isOpen : FrameOpen start stop chunk := isOpenIff.mp rfl
          by_cases ends : stop ∈ rest.flatten
          · -- the frame ends in a later chunk, and its first part is lost
            constructor
            · intro same
              have lost := weight_frames_lt distinct ends body
              have most := weight_flatMap_frames_le distinct rest
              rw [same] at most
              omega
            · rintro ⟨noStop, _⟩
              exact absurd ends (noStop isOpen)
          · have nothing : framesFrom start stop (some body) rest.flatten =
                frames start stop rest.flatten := by
              rw [frames, framesFrom_of_notMem ends, framesFrom_of_notMem ends]
            rw [nothing, ih]
            simp [ends]

end OfxPrimes.Framing
