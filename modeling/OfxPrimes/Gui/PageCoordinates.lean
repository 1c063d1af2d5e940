import OfxPrimes.Gui.GuiPage
import OfxPrimes.Gui.RollOver
import OfxPrimes.Physics.NearestHit
import OfxPrimes.Plane.Pose
import OfxPrimes.Plane.WholePart

/-!
# The coordinates of a page

`relocateMouseEvent` undoes what `draw` does, so that the mouse has the
coordinates of the page it points at.  `_mouseMoved` cuts them off to an `int`, and
the hit test of the page still compares them with the position in the window.  A
drag adds a way on the page to an offset that is not scaled.
-/

namespace OfxPrimes.Gui

open OfxPrimes.Fiducial
open OfxPrimes.Physics
open OfxPrimes.Plane
open OfxPrimes.Fiducial.FloatArith (exact)

/-- Exact arithmetic, with what an `int` makes of a number. -/
noncomputable def MouseArith.exact (toInt : ℝ → ℝ) : MouseArith (Option ℝ) where
  toFloatArith := FloatArith.exact
  toInt := Option.map toInt

@[simp]
theorem MouseArith.exact_toFloatArith (toInt : ℝ → ℝ) :
    (MouseArith.exact toInt).toFloatArith = FloatArith.exact :=
  rfl

/-- What an `int` makes of a number that it has room for. -/
noncomputable def cutOff (t : ℝ) : ℝ :=
  wholePart t

theorem cutOff_intCast (n : ℤ) : cutOff n = n := by
  rw [cutOff, wholePart_intCast]

/-- A mouse event at a point of the window. -/
def MouseEventArgs.at (mouse : ℝ × ℝ) (button : Int) : MouseEventArgs (Option ℝ) :=
  ⟨some mouse.1, some mouse.2, button⟩

namespace GuiPage

/-- The page lies at a pose. -/
structure HasPose (page : GuiPage (Option ℝ)) (pose : Pose) : Prop where
  x : page.object.rect.x = some pose.position.1
  y : page.object.rect.y = some pose.position.2
  angle : page.angle = some pose.angle
  scale : page.scale = some pose.scale
  offset : page.offset = Point.exact pose.offset

/-- A page with a size. -/
structure HasSize (page : GuiPage (Option ℝ)) (size : ℝ × ℝ) : Prop where
  width : page.object.rect.width = some size.1
  height : page.object.rect.height = some size.2

variable {page : GuiPage (Option ℝ)} {pose : Pose} {math : VectorMath (Option ℝ)}
variable {toInt : ℝ → ℝ}

/-! ## Drawing and locating -/

/-- The calls of `draw` lead from the page to the window. -/
theorem HasPose.applyAll_draw (hasPose : page.HasPose pose) {calls : List (Transform (Option ℝ))}
    (drawn : page.draw exact = some calls) (p : ℝ × ℝ) :
    Transform.applyAll exact calls (Point.exact p) = Point.exact (pose.place p) := by
  have sameCalls : calls =
      [.translatef (some pose.position.1) (some pose.position.2),
        .rotatef (radToDeg exact (some pose.angle)),
        .translatef (some pose.offset.1) (some pose.offset.2),
        .scalef (some pose.scale) (some pose.scale)] := by
    simp only [draw, hasPose.x, hasPose.y, hasPose.angle, hasPose.scale, hasPose.offset] at drawn
    split at drawn
    · contradiction
    · split at drawn
      · contradiction
      · exact (Option.some.inj drawn).symm
  have backToRadians : exact.div (exact.mul (radToDeg exact (some pose.angle)) exact.pi)
      (exact.ofInt 180) = some pose.angle := by
    simp [radToDeg, FloatArith.exact_div, Real.pi_ne_zero]
  rw [sameCalls]
  simp only [Transform.applyAll, List.foldr_cons, List.foldr_nil, Transform.apply,
    backToRadians]
  simp [Point.exact, Pose.place, rotated]
  exact ⟨add_comm _ _, add_comm _ _⟩

/-- The handlers are given the coordinates of the page. -/
theorem HasPose.relocateMouseEvent (hasPose : page.HasPose pose) (vectors : math.Exact)
    (nonzero : pose.scale ≠ 0) (mouse : ℝ × ℝ) (button : Int) :
    page.relocateMouseEvent (.exact toInt) math (.at mouse button) =
      .at (pose.locate mouse) button := by
  have turned : math.rotateRad (Point.exact mouse) (some (-pose.angle))
      (Point.exact pose.position) = Point.exact (rotated mouse (-pose.angle) pose.position) :=
    vectors.rotateRad mouse _ pose.position
  simp only [Point.exact] at turned
  simp [GuiPage.relocateMouseEvent, MouseEventArgs.at, hasPose.x, hasPose.y, hasPose.angle,
    hasPose.scale, hasPose.offset, turned, FloatArith.exact_div, nonzero, Pose.locate,
    div_eq_inv_mul]

/-! ## The hit test of the page -/

/-- What an `int` makes of the coordinates of a point. -/
def truncated (toInt : ℝ → ℝ) (p : ℝ × ℝ) : ℝ × ℝ :=
  (toInt p.1, toInt p.2)

/-- Where the rectangle of the page is drawn in the window. -/
def painted (page : GuiPage (Option ℝ)) (size : ℝ × ℝ) : Set (ℝ × ℝ) :=
  { mouse | ∃ calls, page.draw exact = some calls ∧
      ∃ p ∈ inside size, Transform.applyAll exact calls (Point.exact p) = Point.exact mouse }

/-- The hit decision of `_mouseMoved` is whether the page is drawn at the mouse. -/
def HitsWhereDrawn (math : VectorMath (Option ℝ)) (page : GuiPage (Option ℝ)) (size : ℝ × ℝ)
    (mouse : ℝ × ℝ) (button : Int) : Prop :=
  (page.mouseMoved (.exact cutOff) math (.at mouse button)).object.mouseOver = true ↔
    mouse ∈ painted page size

theorem HasPose.mem_painted (hasPose : page.HasPose pose) (nonzero : pose.scale ≠ 0)
    {size mouse : ℝ × ℝ} :
    mouse ∈ painted page size ↔
      (page.draw exact).isSome ∧ pose.locate mouse ∈ inside size := by
  rw [← Pose.mem_image_place nonzero]
  constructor
  · rintro ⟨calls, drawn, p, mem, reached⟩
    rw [hasPose.applyAll_draw drawn] at reached
    exact ⟨by rw [drawn, Option.isSome_some], p, mem, Point.exact_injective reached⟩
  · rintro ⟨drawn, p, mem, rfl⟩
    obtain ⟨calls, drawn⟩ := Option.isSome_iff_exists.mp drawn
    exact ⟨calls, drawn, p, mem, hasPose.applyAll_draw drawn p⟩

/-- The page is hit where its own coordinates, as an `int` each, lie in the rectangle
at its position in the window. -/
theorem HasPose.mouseOver_iff (hasPose : page.HasPose pose) {size : ℝ × ℝ}
    (hasSize : page.HasSize size) (vectors : math.Exact) (nonzero : pose.scale ≠ 0)
    (enabled : page.object.enabled = true) (mouse : ℝ × ℝ) (button : Int) :
    (page.mouseMoved (.exact toInt) math (.at mouse button)).object.mouseOver = true ↔
      truncated toInt (pose.locate mouse) ∈ insideAt pose.position size := by
  have isOn : (page.mouseMoved (.exact toInt) math (.at mouse button)).object.mouseOver =
      MouseEvent.isOver (.exact toInt) (hitTest (.exact toInt)) page.object.rect
        (page.relocateMouseEvent (.exact toInt) math (.at mouse button)) :=
    (InteractiveObject.handle_of_enabled enabled (.moved _)).2.2.1
  rw [isOn, hasPose.relocateMouseEvent vectors nonzero]
  simp [MouseEvent.isOver, hitTest, MouseEventArgs.at, MouseArith.exact, hasPose.x, hasPose.y,
    hasSize.width, hasSize.height, insideAt, truncated, and_assoc]

/-- At a point, the decision is right exactly if the point lies in both or neither
of the painted rectangle and the one with whole edges on the page that the hit test
takes for it.  A page that is drawn has a point where the decision is wrong. -/
theorem hitsWhereDrawn_iff (hasPose : page.HasPose pose) {size : ℝ × ℝ}
    (hasSize : page.HasSize size) (vectors : math.Exact) (positive : 0 < pose.scale)
    (wide : 0 < size.1) (high : 0 < size.2) (enabled : page.object.enabled = true) :
    (∀ mouse button, page.HitsWhereDrawn math size mouse button ↔
      (mouse ∈ pose.place '' wholesInside pose.position size ↔ mouse ∈ painted page size)) ∧
    ((page.draw exact).isSome = true →
      ∃ mouse, ∀ button, ¬ page.HitsWhereDrawn math size mouse button) := by
  have nonzero := positive.ne'
  have decides : ∀ mouse button,
      (page.mouseMoved (.exact cutOff) math (.at mouse button)).object.mouseOver = true ↔
        pose.locate mouse ∈ wholesInside pose.position size := by
    intro mouse button
    rw [hasPose.mouseOver_iff hasSize vectors nonzero enabled, mem_wholesInside_iff]
    rfl
  constructor
  · intro mouse button
    rw [HitsWhereDrawn, decides, Pose.mem_image_place nonzero]
  · intro drawn
    obtain ⟨p, wrong⟩ := exists_mem_inside_iff_not pose.position wide high
    refine ⟨pose.place p, fun button right => wrong ?_⟩
    rwa [HitsWhereDrawn, decides, hasPose.mem_painted nonzero, and_iff_right drawn,
      Pose.locate_place nonzero] at right

/-- An enabled page at a pose. -/
noncomputable def laid (pose : Pose) (size : ℝ × ℝ) (controls : List (PageControl (Option ℝ))) :
    GuiPage (Option ℝ) :=
  let rect := ⟨some pose.position.1, some pose.position.2, some size.1, some size.2⟩
  { object :=
      { rect
        oldRect := rect
        enabled := true
        mouseX := some 0
        mouseY := some 0
        mouseButton := 0
        mouseOver := false
        mouseDown := false
        callbacks := [] }
    angle := some pose.angle
    scale := some pose.scale
    offset := Point.exact pose.offset
    saveX := some 0
    saveY := some 0
    controls }

theorem hasPose_laid (pose : Pose) (size : ℝ × ℝ) (controls : List (PageControl (Option ℝ))) :
    (laid pose size controls).HasPose pose :=
  ⟨rfl, rfl, rfl, rfl, rfl⟩

theorem hasSize_laid (pose : Pose) (size : ℝ × ℝ) (controls : List (PageControl (Option ℝ))) :
    (laid pose size controls).HasSize size :=
  ⟨rfl, rfl⟩

/-- The pose that only shifts, to a point with two equal coordinates. -/
noncomputable def shifted (n : Int) : Pose :=
  { position := (n, n)
    angle := 0
    offset := 0
    scale := 1 }

theorem locate_shifted (n : Int) (t : ℝ) : (shifted n).locate (t, t) = (t - n, t - n) := by
  simp [shifted, Pose.locate, rotated]

/-- The pose that only scales. -/
noncomputable def scaledBy (n : Int) : Pose :=
  { shifted 0 with scale := n }

theorem locate_scaledBy (n : Int) (t : ℝ) : (scaledBy n).locate (t, t) = (t / n, t / n) := by
  simp [scaledBy, shifted, Pose.locate, rotated, div_eq_inv_mul]

/-- A page of side 50 at 100 is drawn at 120, and not hit there. -/
theorem not_hitsWhereDrawn_shifted :
    ¬ (laid (shifted 100) ((50 : Int), (50 : Int)) []).HitsWhereDrawn (.ofArith exact)
      ((50 : Int), (50 : Int)) ((120 : Int), (120 : Int)) 0 := by
  have nonzero : (shifted 100).scale ≠ 0 := one_ne_zero
  rw [HitsWhereDrawn, (hasPose_laid _ _ _).mouseOver_iff (hasSize_laid _ _ _)
    VectorMath.exact_ofArith nonzero rfl, (hasPose_laid _ _ _).mem_painted nonzero, locate_shifted]
  have drawn : ((laid (shifted 100) ((50 : Int), (50 : Int)) []).draw exact).isSome := by
    simp [draw, laid, shifted, FloatArith.invalidCoords]
    norm_num
  intro agree
  have painted : (((120 : Int) : ℝ) - (100 : Int), ((120 : Int) : ℝ) - (100 : Int)) ∈
      inside (((50 : Int) : ℝ), ((50 : Int) : ℝ)) := by
    constructor <;> norm_num
  have hit := (agree.mpr ⟨drawn, painted⟩).1.1
  simp only [truncated, ← Int.cast_sub, cutOff_intCast] at hit
  norm_num [shifted] at hit

/-- A page of side 50 at the origin with scale 2 is drawn at 21, and hit there,
though its own coordinates are not whole.  There is a point where it is not so. -/
theorem hitsWhereDrawn_scaled :
    (laid (scaledBy 2) ((50 : Int), (50 : Int)) []).HitsWhereDrawn (.ofArith exact)
        ((50 : Int), (50 : Int)) ((21 : Int), (21 : Int)) 0 ∧
      ∃ mouse, ∀ button, ¬ (laid (scaledBy 2) ((50 : Int), (50 : Int)) []).HitsWhereDrawn
        (.ofArith exact) ((50 : Int), (50 : Int)) mouse button := by
  have positive : 0 < (scaledBy 2).scale := by norm_num [scaledBy]
  have sized : (0 : ℝ) < (50 : Int) := by norm_num
  have drawn : ((laid (scaledBy 2) ((50 : Int), (50 : Int)) []).draw exact).isSome := by
    simp [draw, laid, scaledBy, shifted, FloatArith.invalidCoords]
  have exactly := hitsWhereDrawn_iff (hasPose_laid (scaledBy 2) ((50 : Int), (50 : Int)) [])
    (hasSize_laid _ _ _) VectorMath.exact_ofArith positive sized sized rfl
  refine ⟨(exactly.1 _ _).mpr ?_, exactly.2 drawn⟩
  rw [Pose.mem_image_place positive.ne', (hasPose_laid _ _ _).mem_painted positive.ne',
    locate_scaledBy]
  apply iff_of_true
  · have floor : ⌊(50 : ℝ)⌋ = 50 := Int.floor_ofNat 50
    simp [wholesInside, above, below, scaledBy, shifted]
    norm_num
  · refine ⟨drawn, ?_⟩
    constructor <;> norm_num

/-! ## Dragging the page -/

/-- The page has saved a point. -/
structure HasSaved (page : GuiPage (Option ℝ)) (saved : ℝ × ℝ) : Prop where
  saveX : page.saveX = some saved.1
  saveY : page.saveY = some saved.2

/-- The mouse is at the saved point, in the coordinates of the page. -/
def IsGrabbedAt (toInt : ℝ → ℝ) (math : VectorMath (Option ℝ)) (page : GuiPage (Option ℝ))
    (e : MouseEventArgs (Option ℝ)) : Prop :=
  let copy := page.relocateMouseEvent (.exact toInt) math e
  copy.x = page.saveX ∧ copy.y = page.saveY

theorem HasPose.mousePressed (hasPose : page.HasPose pose) (e : MouseEventArgs (Option ℝ)) :
    (page.mousePressed (.exact toInt) math e).HasPose pose := by
  have rect : ∀ copy, (page.object.mousePressed (.exact toInt) (hitTest (.exact toInt)) copy).rect =
      page.object.rect := fun copy => InteractiveObject.handle_rect (.pressed copy)
  simp only [GuiPage.mousePressed]
  split
  · exact ⟨by rw [rect, hasPose.x], by rw [rect, hasPose.y], hasPose.angle, hasPose.scale,
      hasPose.offset⟩
  · exact ⟨by rw [rect, hasPose.x], by rw [rect, hasPose.y], hasPose.angle, hasPose.scale,
      hasPose.offset⟩

/-- A press that leaves a `Content` control down saves the point it is at. -/
theorem HasPose.hasSaved_mousePressed (hasPose : page.HasPose pose) (vectors : math.Exact)
    (nonzero : pose.scale ≠ 0) {press : ℝ × ℝ} {button : Int}
    (down : (page.mousePressed (.exact toInt) math (.at press button)).draggable = true) :
    (page.mousePressed (.exact toInt) math (.at press button)).HasSaved
      (truncated toInt (pose.locate press)) := by
  simp only [GuiPage.mousePressed, hasPose.relocateMouseEvent vectors nonzero] at down ⊢
  split
  · exact ⟨rfl, rfl⟩
  · rename_i notDown
    rw [if_neg notDown] at down
    exact absurd down notDown

/-- A drag leaves the controls down that are. -/
theorem draggable_of_controls {arith : MouseArith (Option ℝ)} {copy : MouseEventArgs (Option ℝ)}
    {other : GuiPage (Option ℝ)}
    (dragged : other.controls = page.forControls arith fun hitTest object =>
      object.mouseDragged arith hitTest copy) : other.draggable = page.draggable := by
  rw [draggable, dragged, forControls, List.any_map, draggable]
  congr 1
  funext control
  simp

theorem draggable_mouseDragged (e : MouseEventArgs (Option ℝ)) :
    (page.mouseDragged (.exact toInt) math e).draggable = page.draggable := by
  simp only [GuiPage.mouseDragged]
  split
  · exact draggable_of_controls rfl
  · exact draggable_of_controls rfl

/-- A drag with a `Content` control down drags the page. -/
theorem HasPose.mouseDragged (hasPose : page.HasPose pose) {saved : ℝ × ℝ}
    (hasSaved : page.HasSaved saved) (vectors : math.Exact) (nonzero : pose.scale ≠ 0)
    (down : page.draggable = true) (mouse : ℝ × ℝ) (button : Int) :
    (page.mouseDragged (.exact toInt) math (.at mouse button)).HasPose (pose.drag saved mouse) ∧
      (page.mouseDragged (.exact toInt) math (.at mouse button)).HasSaved saved := by
  have rect : ∀ copy, (page.object.mouseDragged (.exact toInt) (hitTest (.exact toInt)) copy).rect =
      page.object.rect := fun copy => InteractiveObject.handle_rect (.dragged copy)
  simp only [GuiPage.mouseDragged, hasPose.relocateMouseEvent vectors nonzero]
  rw [if_pos ((draggable_of_controls rfl).trans down)]
  constructor
  · constructor
    case x => rw [rect, hasPose.x]; rfl
    case y => rw [rect, hasPose.y]; rfl
    case angle => exact hasPose.angle
    case scale => exact hasPose.scale
    case offset =>
      simp [hasPose.offset, hasSaved.saveX, hasSaved.saveY, MouseEventArgs.at, Point.exact,
        Pose.drag]
  · exact ⟨hasSaved.saveX, hasSaved.saveY⟩

theorem HasPose.isGrabbedAt_iff (hasPose : page.HasPose pose) {saved : ℝ × ℝ}
    (hasSaved : page.HasSaved saved) (vectors : math.Exact) (nonzero : pose.scale ≠ 0)
    (mouse : ℝ × ℝ) (button : Int) :
    page.IsGrabbedAt toInt math (.at mouse button) ↔ pose.locate mouse = saved := by
  rw [IsGrabbedAt, hasPose.relocateMouseEvent vectors nonzero, hasSaved.saveX, hasSaved.saveY]
  simp [MouseEventArgs.at, Prod.ext_iff]

/-- The page after some drags. -/
noncomputable def draggedAlong (toInt : ℝ → ℝ) (math : VectorMath (Option ℝ))
    (page : GuiPage (Option ℝ)) (drags : List ((ℝ × ℝ) × Int)) : GuiPage (Option ℝ) :=
  drags.foldl (fun page drag => page.mouseDragged (.exact toInt) math (.at drag.1 drag.2)) page

theorem HasPose.draggedAlong (hasPose : page.HasPose pose) {saved : ℝ × ℝ}
    (hasSaved : page.HasSaved saved) (vectors : math.Exact) (nonzero : pose.scale ≠ 0)
    (down : page.draggable = true) (drags : List ((ℝ × ℝ) × Int)) :
    (page.draggedAlong toInt math drags).HasPose (pose.dragAlong Prod.fst saved drags) ∧
      (page.draggedAlong toInt math drags).HasSaved saved := by
  induction drags generalizing page pose with
  | nil => exact ⟨hasPose, hasSaved⟩
  | cons drag rest ih =>
      obtain ⟨nextPose, nextSaved⟩ : _ ∧
          (page.mouseDragged (.exact toInt) math (.at drag.1 drag.2)).HasSaved saved :=
        hasPose.mouseDragged hasSaved vectors nonzero down drag.1 drag.2
      exact ih nextPose nextSaved nonzero ((draggable_mouseDragged _).trans down)

/-- After a press that leaves a `Content` control down, the point that was grabbed
stays under the mouse at every drag exactly if the page is not scaled, or all
drags are where the saved point is drawn. -/
theorem grabbed_stays_iff (hasPose : page.HasPose pose) (vectors : math.Exact)
    (nonzero : pose.scale ≠ 0) (press : ℝ × ℝ) (button : Int)
    (down : (page.mousePressed (.exact toInt) math (.at press button)).draggable = true)
    (drags : List ((ℝ × ℝ) × Int)) :
    (∀ past drag rest, drags = past ++ drag :: rest →
      ((page.mousePressed (.exact toInt) math (.at press button)).draggedAlong toInt math
        (past ++ [drag])).IsGrabbedAt toInt math (.at drag.1 drag.2)) ↔
      pose.scale = 1 ∨
        ∀ drag ∈ drags, drag.1 = pose.place (truncated toInt (pose.locate press)) := by
  have pressed : (page.mousePressed (.exact toInt) math (.at press button)).HasPose pose :=
    hasPose.mousePressed _
  have saved := hasPose.hasSaved_mousePressed vectors nonzero down
  have grabbed : ∀ (past : List ((ℝ × ℝ) × Int)) (drag : (ℝ × ℝ) × Int),
      ((page.mousePressed (.exact toInt) math (.at press button)).draggedAlong toInt math
        past).IsGrabbedAt toInt math (.at drag.1 drag.2) ↔
      (pose.dragAlong Prod.fst (truncated toInt (pose.locate press)) past).locate drag.1 =
        truncated toInt (pose.locate press) := by
    intro past drag
    obtain ⟨afterPose, afterSaved⟩ : _ ∧ ((page.mousePressed (.exact toInt) math
        (.at press button)).draggedAlong toInt math past).HasSaved _ :=
      pressed.draggedAlong saved vectors nonzero down past
    apply afterPose.isGrabbedAt_iff afterSaved vectors
    rw [Pose.dragAlong_scale]
    exact nonzero
  have there : ∀ q, pose.locate q = truncated toInt (pose.locate press) ↔
      q = pose.place (truncated toInt (pose.locate press)) := by
    intro q
    constructor
    · intro located
      rw [← located, Pose.place_locate nonzero]
    · rintro rfl
      exact Pose.locate_place nonzero _
  simp only [grabbed, ← there]
  exact Pose.dragAlong_iff drags

/-- A `Content` control that covers a square with a corner at the origin. -/
noncomputable def squareContent (side : Int) : PageControl (Option ℝ) :=
  { controlType := ascii "Content"
    object := (laid (shifted 0) ((side : ℝ), (side : ℝ)) []).object }

/-- A press on the square leaves it down. -/
theorem draggable_squareContent {size press : ℝ × ℝ} {side : Int} (nonzero : pose.scale ≠ 0)
    (hit : truncated toInt (pose.locate press) ∈ inside ((side : ℝ), (side : ℝ))) (button : Int) :
    ((laid pose size [squareContent side]).mousePressed (.exact toInt) (.ofArith exact)
      (.at press button)).draggable = true := by
  obtain ⟨⟨left, right⟩, low, high⟩ := hit
  simp only [truncated] at left right low high
  simp only [GuiPage.mousePressed,
    (hasPose_laid _ _ _).relocateMouseEvent VectorMath.exact_ofArith nonzero]
  split
  · rename_i down
    exact down
  · rename_i notDown
    apply absurd _ notDown
    simp [draggable, forControls, laid, squareContent, shifted, InteractiveObject.mousePressed,
      InteractiveObject.hitTest, InteractiveObject.call, MouseEventArgs.at, MouseArith.exact, left,
      right, low, high]

/-- A page at scale 2 whose content is pressed at 20. -/
noncomputable def pressedAtTwenty : GuiPage (Option ℝ) :=
  (laid (scaledBy 2) ((50 : Int), (50 : Int)) [squareContent 50]).mousePressed (.exact cutOff)
    (.ofArith exact) (.at ((20 : Int), (20 : Int)) 0)

/-- The press is at 10 on the page. -/
theorem truncated_locate_twenty :
    truncated cutOff ((scaledBy 2).locate ((20 : Int), (20 : Int))) = (10, 10) := by
  have half : ((20 : Int) : ℝ) / (2 : Int) = (10 : Int) := by norm_num
  rw [locate_scaledBy, half, truncated, cutOff_intCast]
  rfl

theorem draggable_pressedAtTwenty : pressedAtTwenty.draggable = true := by
  apply draggable_squareContent
  · norm_num [scaledBy]
  · rw [truncated_locate_twenty]
    constructor <;> norm_num

/-- After a drag from 20 to 40, the grabbed point is not under the mouse. -/
theorem not_isGrabbedAt_scaled :
    pressedAtTwenty.draggable = true ∧
      ¬ (pressedAtTwenty.draggedAlong cutOff (.ofArith exact)
        [(((40 : Int), (40 : Int)), 0)]).IsGrabbedAt cutOff (.ofArith exact)
          (.at ((40 : Int), (40 : Int)) 0) := by
  have nonzero : (scaledBy 2).scale ≠ 0 := by norm_num [scaledBy]
  have pose : pressedAtTwenty.HasPose (scaledBy 2) := (hasPose_laid _ _ _).mousePressed _
  have saved := (hasPose_laid (scaledBy 2) _ _).hasSaved_mousePressed VectorMath.exact_ofArith
    nonzero draggable_pressedAtTwenty
  obtain ⟨dragged, stillSaved⟩ : _ ∧ (pressedAtTwenty.mouseDragged (.exact cutOff) (.ofArith exact)
      (.at ((40 : Int), (40 : Int)) 0)).HasSaved _ :=
    pose.mouseDragged saved VectorMath.exact_ofArith nonzero draggable_pressedAtTwenty _ _
  refine ⟨draggable_pressedAtTwenty, fun grabbed => ?_⟩
  have located := (dragged.isGrabbedAt_iff stillSaved VectorMath.exact_ofArith nonzero _ _).mp
    grabbed
  rw [Pose.locate_drag_eq_iff, truncated_locate_twenty, locate_scaledBy] at located
  rcases located with unscaled | there
  · norm_num [scaledBy] at unscaled
  · have first := congrArg Prod.fst there
    norm_num at first

/-- On a page that is not scaled, the grabbed point stays, though the press is at a
half and saves a whole point. -/
theorem isGrabbedAt_unscaled :
    (((laid (shifted 100) ((50 : Int), (50 : Int)) [squareContent 50]).mousePressed
      (.exact cutOff) (.ofArith exact) (.at (241 / 2, 241 / 2) 0)).draggedAlong cutOff
        (.ofArith exact) [((130, 130), 0), ((0, 1), 0)]).IsGrabbedAt cutOff (.ofArith exact)
          (.at (0, 1) 0) := by
  have nonzero : (shifted 100).scale ≠ 0 := one_ne_zero
  have down : ((laid (shifted 100) ((50 : Int), (50 : Int)) [squareContent 50]).mousePressed
      (.exact cutOff) (.ofArith exact) (.at (241 / 2, 241 / 2) 0)).draggable = true := by
    apply draggable_squareContent nonzero
    have saved : cutOff (241 / 2 - (100 : Int)) = 20 := by
      have floor : ⌊(241 / 2 : ℝ) - (100 : Int)⌋ = 20 := by
        rw [Int.floor_eq_iff]
        norm_num
      have nonneg : ¬ (241 / 2 : ℝ) - (100 : Int) < 0 := by norm_num
      rw [cutOff, wholePart, if_neg nonneg, floor]
      rfl
    rw [locate_shifted, truncated, saved]
    constructor <;> norm_num
  exact (grabbed_stays_iff (hasPose_laid _ _ _) VectorMath.exact_ofArith nonzero _ _ down _).mpr
    (Or.inl rfl) [((130, 130), 0)] ((0, 1), 0) [] rfl

end GuiPage

end OfxPrimes.Gui
