import OfxPrimes.Fiducial.Tracker

/-!
# The size of the image and the segmenter

Before a frame is processed, `findFiducials` initialises the segmenter if the
size of the image is new, after a look at one pixel of the image.  The pixel is
meant to be in the middle and to be black or white.
-/

namespace OfxPrimes.Fiducial

variable {F : Type}

/-- A call for the segmenter. -/
inductive SegmenterCall
  | terminateSegmenter
  | initializeSegmenter (width height : Int32)
  | stepSegmenter (pixels : List UInt8)
  deriving DecidableEq, Repr

/-- `class ofxFiducialTracker`, with the calls it has made for its segmenter. -/
structure OfxFiducialTracker (F : Type) where
  mWidth : Int32
  mHeight : Int32
  initialized : Bool
  segmenter : List SegmenterCall
  fiducialsList : List (OfxFiducial F)
  deriving DecidableEq, Repr

/-- A black and white image of a size. -/
structure BinaryImage (w h : UInt32) where
  pixels : List UInt8
  length_eq : pixels.length = w.toNat * h.toNat
  binary : ∀ pixel ∈ pixels, pixel = 0 ∨ pixel = 255

/-- The value of an expression of type `int`.  An overflow is undefined. -/
def intValue (n : Int) : Option Int :=
  if -2 ^ 31 ≤ n ∧ n < 2 ^ 31 then some n else none

/-- `pixels[index]`.  To read outside the image is undefined. -/
def readPixel (pixels : List UInt8) (index : Int) : Option UInt8 :=
  if 0 ≤ index then pixels[index.toNat]? else none

namespace OfxFiducialTracker

/-- The constructor, from memory that holds anything. -/
def construct (memory : OfxFiducialTracker F) : OfxFiducialTracker F :=
  { memory with mWidth := 0, mHeight := 0, initialized := false, segmenter := []
                fiducialsList := [] }

/-- `deinitSegmenter()`. -/
def deinitSegmenter (self : OfxFiducialTracker F) : OfxFiducialTracker F :=
  { self with
    segmenter :=
      if self.initialized then self.segmenter ++ [.terminateSegmenter] else self.segmenter
    initialized := false }

/-- The part of `findFiducials` that deals with a changed size. -/
def resize (w h : UInt32) (self : OfxFiducialTracker F) : OfxFiducialTracker F :=
  if w ≠ self.mWidth.toUInt32 ∨ h ≠ self.mHeight.toUInt32 then
    { self.deinitSegmenter with mWidth := w.toInt32, mHeight := h.toInt32 }
  else self

/-- `(m_width/2)*m_width+(m_height/2)`. -/
def centerIndex (self : OfxFiducialTracker F) : Option Int := do
  let row ← intValue (self.mWidth.toInt.tdiv 2 * self.mWidth.toInt)
  intValue (row + self.mHeight.toInt.tdiv 2)

/-- `initialize_segmenter( &segmenter, m_width, m_height, treeidmap.max_adjacencies )`. -/
def initSegmenter (self : OfxFiducialTracker F) : OfxFiducialTracker F :=
  { self with
    segmenter := self.segmenter ++ [.initializeSegmenter self.mWidth self.mHeight]
    initialized := true }

/-- The part of `findFiducials` from `step_segmenter` on, where `find_fiducialsX`
reports the given detections. -/
def process (arith : FloatArith F) (junk : OfxFiducial F) (pixels : List UInt8)
    (fiducials : List (FiducialX F)) (self : OfxFiducialTracker F) : OfxFiducialTracker F :=
  { self with
    segmenter := self.segmenter ++ [.stepSegmenter pixels]
    fiducialsList := Fiducial.findFiducials arith junk self.fiducialsList fiducials }

/-- `findFiducials(unsigned char* pixels, unsigned int w, unsigned int h)`, with
none for `NULL` pixels.  The result is none where the behaviour is undefined. -/
def findFiducials (arith : FloatArith F) (junk : OfxFiducial F) (pixels : Option (List UInt8))
    (w h : UInt32) (fiducials : List (FiducialX F)) (self : OfxFiducialTracker F) :
    Option (OfxFiducialTracker F) :=
  match pixels with
  | none => some self
  | some pixels =>
      if w = 0 ∨ h = 0 then some self
      else
        let self := self.resize w h
        if !self.initialized then do
          let index ← self.centerIndex
          let centerpix ← readPixel pixels index
          -- `centerpix != 0 && 255`: the number 255 is true
          if centerpix ≠ 0 then some self
          else some (self.initSegmenter.process arith junk pixels fiducials)
        else some (self.process arith junk pixels fiducials)

end OfxFiducialTracker

theorem intValue_eq_some {n m : Int} :
    intValue n = some m ↔ (-2 ^ 31 ≤ n ∧ n < 2 ^ 31) ∧ n = m := by
  rw [intValue]
  split
  · rename_i fits
    rw [Option.some.injEq]
    exact ⟨fun same => ⟨fits, same⟩, And.right⟩
  · rename_i overflows
    exact ⟨fun impossible => absurd impossible (by simp), fun ⟨fits, _⟩ => absurd fits overflows⟩

/-! ## The pixel that is looked at -/

/-- The index of the pixel, where nothing overflows. -/
def centerOf (w h : UInt32) : Int :=
  w.toInt32.toInt.tdiv 2 * w.toInt32.toInt + h.toInt32.toInt.tdiv 2

/-- The index of the pixel is that of a black one in the image, and no step of its
computation overflows. -/
def BlackAtCenter {w h : UInt32} (image : BinaryImage w h) : Prop :=
  w.toInt32.toInt.tdiv 2 * w.toInt32.toInt < 2 ^ 31 ∧ centerOf w h < 2 ^ 31 ∧
    0 ≤ centerOf w h ∧ image.pixels[(centerOf w h).toNat]? = some 0

theorem toInt_toInt32 {n : UInt32} (small : n.toNat < 2 ^ 31) : n.toInt32.toInt = n.toNat := by
  have double : 2 * n.toBitVec.toNat < 2 ^ 32 := by
    have same : n.toBitVec.toNat = n.toNat := rfl
    omega
  exact BitVec.toInt_eq_toNat_of_lt double

theorem centerOf_eq {w h : UInt32} (narrow : w.toNat < 2 ^ 31) (low : h.toNat < 2 ^ 31) :
    centerOf w h = (w.toNat / 2 * w.toNat + h.toNat / 2 : Nat) := by
  rw [centerOf, toInt_toInt32 narrow, toInt_toInt32 low]
  rfl

/-- The index lies in the image exactly if the image is more than half as high as
it is wide. -/
theorem center_lt_iff {w h : Nat} (wide : 0 < w) : w / 2 * w + h / 2 < w * h ↔ w / 2 < h := by
  constructor
  · intro inRange
    by_contra low
    have rows : w * h ≤ w * (w / 2) := Nat.mul_le_mul_left w (Nat.not_lt.mp low)
    rw [Nat.mul_comm w (w / 2)] at rows
    exact absurd (Nat.lt_of_le_of_lt (Nat.le_add_right _ _) inRange) (Nat.not_lt.mpr rows)
  · intro low
    obtain ⟨d, rfl⟩ := Nat.exists_eq_add_of_lt low
    have expand : w * (w / 2 + d + 1) = w / 2 * w + (w * d + w) := by
      rw [Nat.mul_add, Nat.mul_add, Nat.mul_one, Nat.mul_comm w (w / 2), Nat.add_assoc]
    have more : d ≤ w * d := Nat.le_mul_of_pos_left d wide
    rw [expand]
    omega

/-- For a size that an `int` holds, where the pixel is. -/
theorem blackAtCenter_iff {w h : UInt32} (image : BinaryImage w h) (wide : 0 < w.toNat)
    (narrow : w.toNat < 2 ^ 31) (low : h.toNat < 2 ^ 31) :
    BlackAtCenter image ↔
      w.toNat / 2 * w.toNat + h.toNat / 2 < 2 ^ 31 ∧ w.toNat / 2 < h.toNat ∧
        image.pixels[w.toNat / 2 * w.toNat + h.toNat / 2]? = some 0 := by
  have row : w.toInt32.toInt.tdiv 2 * w.toInt32.toInt = (w.toNat / 2 * w.toNat : Nat) := by
    rw [toInt_toInt32 narrow]
    rfl
  rw [BlackAtCenter, centerOf_eq narrow low, row, Int.toNat_natCast]
  constructor
  · rintro ⟨-, fits, -, black⟩
    have inRange := (List.getElem?_eq_some_iff.mp black).1
    rw [image.length_eq, center_lt_iff wide] at inRange
    exact ⟨by exact_mod_cast fits, inRange, black⟩
  · rintro ⟨fits, -, black⟩
    refine ⟨?_, by exact_mod_cast fits, Int.natCast_nonneg _, black⟩
    exact_mod_cast Nat.lt_of_le_of_lt (Nat.le_add_right _ _) fits

/-! ## When the segmenter is initialised -/

namespace OfxFiducialTracker

variable {arith : FloatArith F} {junk : OfxFiducial F}

theorem tdiv_two_mul_nonneg (n : Int) : 0 ≤ n.tdiv 2 * n := by
  rcases le_total 0 n with nonneg | negative
  · exact Int.mul_nonneg (Int.tdiv_nonneg nonneg (by decide)) nonneg
  · have opposite : n.tdiv 2 * n = (-n).tdiv 2 * -n := by
      rw [Int.neg_tdiv, Int.neg_mul_neg]
    rw [opposite]
    have nonneg : 0 ≤ -n := Int.neg_nonneg_of_nonpos negative
    exact Int.mul_nonneg (Int.tdiv_nonneg nonneg (by decide)) nonneg

theorem resize_size (w h : UInt32) (self : OfxFiducialTracker F) :
    (self.resize w h).mWidth = w.toInt32 ∧ (self.resize w h).mHeight = h.toInt32 := by
  rw [resize]
  split
  · exact ⟨rfl, rfl⟩
  · rename_i same
    rw [not_or, not_not, not_not] at same
    rw [same.1, same.2]
    exact ⟨rfl, rfl⟩

theorem resize_initialized {w h : UInt32} {self : OfxFiducialTracker F}
    (needed : self.initialized = false ∨ w ≠ self.mWidth.toUInt32 ∨ h ≠ self.mHeight.toUInt32) :
    (self.resize w h).initialized = false := by
  rw [resize]
  split
  · rfl
  · rename_i same
    exact needed.resolve_right same

theorem centerIndex_eq_some {self : OfxFiducialTracker F} {w h : UInt32} {index : Int} :
    (self.resize w h).centerIndex = some index ↔
      w.toInt32.toInt.tdiv 2 * w.toInt32.toInt < 2 ^ 31 ∧
        (-2 ^ 31 ≤ centerOf w h ∧ centerOf w h < 2 ^ 31) ∧ centerOf w h = index := by
  have nonneg := tdiv_two_mul_nonneg w.toInt32.toInt
  have bounded : -2 ^ 31 ≤ w.toInt32.toInt.tdiv 2 * w.toInt32.toInt :=
    le_trans (by decide) nonneg
  have split : (self.resize w h).centerIndex =
      (intValue (w.toInt32.toInt.tdiv 2 * w.toInt32.toInt)).bind fun row =>
        intValue (row + h.toInt32.toInt.tdiv 2) := by
    rw [← (resize_size w h self).1, ← (resize_size w h self).2]
    rfl
  rw [split, Option.bind_eq_some_iff]
  constructor
  · rintro ⟨row, rowValue, value⟩
    obtain ⟨⟨-, rowFits⟩, rfl⟩ := intValue_eq_some.mp rowValue
    obtain ⟨fits, same⟩ := intValue_eq_some.mp value
    exact ⟨rowFits, fits, same⟩
  · rintro ⟨rowFits, fits, same⟩
    exact ⟨_, intValue_eq_some.mpr ⟨⟨bounded, rowFits⟩, rfl⟩, intValue_eq_some.mpr ⟨fits, same⟩⟩

/-- The call initialises the segmenter and processes the frame. -/
def Starts (arith : FloatArith F) (junk : OfxFiducial F) {w h : UInt32} (image : BinaryImage w h)
    (fiducials : List (FiducialX F)) (self : OfxFiducialTracker F) : Prop :=
  self.findFiducials arith junk (some image.pixels) w h fiducials =
    some ((self.resize w h).initSegmenter.process arith junk image.pixels fiducials)

/-- A call that needs the segmenter starts it exactly if the pixel it looks at is a
black one of the image. -/
theorem starts_iff_blackAtCenter {w h : UInt32} (image : BinaryImage w h)
    (fiducials : List (FiducialX F)) (self : OfxFiducialTracker F) (wide : 0 < w) (high : 0 < h)
    (needed : self.initialized = false ∨ w ≠ self.mWidth.toUInt32 ∨ h ≠ self.mHeight.toUInt32) :
    self.Starts arith junk image fiducials ↔ BlackAtCenter image := by
  have sized : ¬ (w = 0 ∨ h = 0) := by
    rintro (rfl | rfl)
    · exact absurd wide (by decide)
    · exact absurd high (by decide)
  have uninitialized := resize_initialized needed
  have body : self.findFiducials arith junk (some image.pixels) w h fiducials =
      (self.resize w h).centerIndex.bind fun index =>
        (readPixel image.pixels index).bind fun centerpix =>
          if centerpix ≠ 0 then some (self.resize w h)
          else
            some ((self.resize w h).initSegmenter.process arith junk image.pixels fiducials) := by
    simp only [findFiducials, if_neg sized, uninitialized]
    rfl
  have differs : self.resize w h ≠
      (self.resize w h).initSegmenter.process arith junk image.pixels fiducials := by
    intro same
    have flags := congrArg OfxFiducialTracker.initialized same
    rw [uninitialized] at flags
    exact Bool.false_ne_true flags
  rw [Starts, body]
  constructor
  · intro started
    obtain ⟨index, indexed, rest⟩ := Option.bind_eq_some_iff.mp started
    obtain ⟨pixel, read, outcome⟩ := Option.bind_eq_some_iff.mp rest
    obtain ⟨rowFits, fits, rfl⟩ := centerIndex_eq_some.mp indexed
    rw [readPixel] at read
    split at read
    · rename_i nonneg
      split at outcome
      · exact absurd (Option.some.inj outcome) differs
      · rename_i black
        rw [not_not] at black
        exact ⟨rowFits, fits.2, nonneg, black ▸ read⟩
    · contradiction
  · rintro ⟨rowFits, fits, nonneg, black⟩
    have indexed : (self.resize w h).centerIndex = some (centerOf w h) :=
      centerIndex_eq_some.mpr ⟨rowFits, ⟨le_trans (by decide) nonneg, fits⟩, rfl⟩
    rw [indexed, Option.bind_some, readPixel, if_pos nonneg, black, Option.bind_some,
      if_neg (not_not.mpr rfl)]

/-- A black image of two by two pixels. -/
def blackSquare : BinaryImage 2 2 where
  pixels := [0, 0, 0, 0]
  length_eq := rfl
  binary := by simp

/-- A white image of two by two pixels. -/
def whiteSquare : BinaryImage 2 2 where
  pixels := [255, 255, 255, 255]
  length_eq := rfl
  binary := by simp

/-- A tracker from memory that is all zero. -/
def fresh : OfxFiducialTracker (Option Rat) :=
  construct
    { mWidth := 0, mHeight := 0, initialized := false, segmenter := [], fiducialsList := [] }

/-- A white image is taken for a gray one. -/
theorem not_starts_whiteSquare :
    ¬ fresh.Starts .rational (.zeroed .rational) whiteSquare [] := by
  unfold Starts
  decide +kernel

/-- A black image starts the segmenter. -/
theorem starts_blackSquare : fresh.Starts .rational (.zeroed .rational) blackSquare [] :=
  (starts_iff_blackAtCenter blackSquare [] fresh (by decide) (by decide) (Or.inl rfl)).mpr
    (by rw [blackAtCenter_iff] <;> decide)

end OfxFiducialTracker

end OfxPrimes.Fiducial
