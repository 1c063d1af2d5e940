import OfxPrimes.Platform

/-!
# OSC messages and bundles

`ofxOscMessage`, its argument classes and `ofxOscBundle`.  The payload of a
blob argument is a parameter: on the sending side it is the bytes the blob
points to, on the receiving side a pointer and a size into the receive buffer.
-/

namespace OfxPrimes.Osc

universe u

/-- `ofxOscArgType`. -/
inductive OfxOscArgType where
  | none
  | int32
  | float
  | string
  | blob
  | bundle
  | indexOutOfBounds
  deriving DecidableEq, Repr

/-- The subclasses of `ofxOscArg`. -/
inductive OfxOscArg (β : Type u) where
  | int32 (value : Int32)
  | float (value : UInt32)
  | string (value : Text)
  | blob (value : β)
  deriving DecidableEq

namespace OfxOscArg

variable {β : Type u}

/-- `ofxOscArg::getType`. -/
def getType : OfxOscArg β → OfxOscArgType
  | .int32 _ => .int32
  | .float _ => .float
  | .string _ => .string
  | .blob _ => .blob

/-- Replace the payload of a blob. -/
def mapBlob {γ : Type u} (f : β → γ) : OfxOscArg β → OfxOscArg γ
  | .int32 value => .int32 value
  | .float value => .float value
  | .string value => .string value
  | .blob value => .blob (f value)

end OfxOscArg

/-- `osc::Blob`: an address in the receive buffer and a length. -/
structure Blob where
  data : Nat
  size : Nat
  deriving DecidableEq, Repr

/-- `ofxOscMessage`.  The port of a message that was never given a remote
endpoint is indeterminate. -/
structure OfxOscMessage (β : Type u) where
  address : Text := []
  args : List (OfxOscArg β) := []
  remoteHost : Text := []
  remotePort : Option Int := none
  deriving DecidableEq

namespace OfxOscMessage

variable {β : Type u}

/-- `ofxOscMessage::getAddress`. -/
def getAddress (message : OfxOscMessage β) : Text :=
  message.address

/-- `ofxOscMessage::getNumArgs`. -/
def getNumArgs (message : OfxOscMessage β) : Nat :=
  message.args.length

/-- `ofxOscMessage::getArgType`, which reports an index behind the arguments as a
type of its own. -/
def getArgType (message : OfxOscMessage β) (index : Nat) : OfxOscArgType :=
  match message.args[index]? with
  | none => .indexOutOfBounds
  | some argument => argument.getType

/-- `getArgAsInt32`: a float is converted, anything else that is not an
integer reads as zero. -/
def getArgAsInt32 (ops : FloatOps) (message : OfxOscMessage β) (index : Nat) : Int32 :=
  match message.args[index]? with
  | some (.int32 value) => value
  | some (.float value) => ops.toInt32 value
  | _ => 0

/-- `getArgAsFloat`: an integer is converted, anything else that is not a
number reads as zero. -/
def getArgAsFloat (ops : FloatOps) (message : OfxOscMessage β) (index : Nat) : UInt32 :=
  match message.args[index]? with
  | some (.float value) => value
  | some (.int32 value) => ops.ofInt32 value
  | _ => 0

/-- `getArgAsString`: numbers are printed, anything else that is not a string
reads as the empty string. -/
def getArgAsString (ops : FloatOps) (message : OfxOscMessage β) (index : Nat) : Text :=
  match message.args[index]? with
  | some (.string value) => value
  | some (.float value) => ops.format value
  | some (.int32 value) => ascii (toString value.toInt)
  | _ => []

/-- `ofxOscMessage::copy`: the arguments of the source are appended to those
the destination already holds. -/
def copy (destination source : OfxOscMessage β) : OfxOscMessage β where
  address := source.address
  args := destination.args ++ source.args
  remoteHost := source.remoteHost
  remotePort := source.remotePort

/-- Copying into a fresh message yields the source. -/
@[simp]
theorem copy_fresh (source : OfxOscMessage β) : copy {} source = source :=
  rfl

/-- Replace the payload of every blob argument. -/
def mapBlob {γ : Type u} (f : β → γ) (message : OfxOscMessage β) : OfxOscMessage γ where
  address := message.address
  args := message.args.map (OfxOscArg.mapBlob f)
  remoteHost := message.remoteHost
  remotePort := message.remotePort

theorem mapBlob_mapBlob {γ δ : Type u} (f : β → γ) (g : γ → δ) (message : OfxOscMessage β) :
    (message.mapBlob f).mapBlob g = message.mapBlob fun value => g (f value) := by
  have sameArgs : (message.args.map (OfxOscArg.mapBlob f)).map (OfxOscArg.mapBlob g) =
      message.args.map (OfxOscArg.mapBlob fun value => g (f value)) := by
    rw [List.map_map]
    apply List.map_congr_left
    intro argument _
    cases argument <;> rfl
  simp only [mapBlob, sameArgs]

theorem mapBlob_congr {γ : Type u} {f g : β → γ} {message : OfxOscMessage β}
    (same : ∀ value, .blob value ∈ message.args → f value = g value) :
    message.mapBlob f = message.mapBlob g := by
  have sameArgs : message.args.map (OfxOscArg.mapBlob f) =
      message.args.map (OfxOscArg.mapBlob g) := by
    apply List.map_congr_left
    intro argument mem
    cases argument with
    | blob value => exact congrArg OfxOscArg.blob (same value mem)
    | _ => rfl
  rw [mapBlob, mapBlob, sameArgs]

end OfxOscMessage

/-- `ofxOscBundle`: messages and nested bundles, each in insertion order. -/
inductive OfxOscBundle (β : Type u) where
  | mk (messages : List (OfxOscMessage β)) (bundles : List (OfxOscBundle β))

end OfxPrimes.Osc
