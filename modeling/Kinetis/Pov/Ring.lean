import Kinetis.Mavlink.Device

/-!
# Pov — the ring of arms

The arms of the display are chained: the clockwise link of an arm leads to the counter-clockwise
link of the next.  What the other modules need of the ring is here: who is first and last, and how the
payloads of its commands are taken apart.
-/

namespace Kinetis.Pov.Ring
open Mavlink

def POV_ARM_BROADCAST : UInt8 := 255
def POV_LAYER_COUNT : Nat := 4
def MAV_RING_CMD_IMAGE_CONTROL : UInt16 := 1
def MAV_RING_CMD_FILE_DISTRIBUTE : UInt16 := 2
def MAV_RING_DIRECTION_CW : UInt8 := 0

inductive Side where
  | cw
  | ccw
  deriving DecidableEq, Repr

section arm

variable (n i : Nat)

def isMasterArm : Bool := i = 0
def isLastArm : Bool := i = n - 1 ∨ n ≤ 1

end arm

/-- `pov_ring_decode_image_payload`. -/
def decodeImagePayload (payload : List UInt8) (len : UInt8) : Option (UInt8 × UInt16 × UInt8) :=
  if len < 3 then none
  else some (payload.getD 0 0,
    (payload.getD 1 0).toUInt16 ||| ((payload.getD 2 0).toUInt16 <<< 8),
    if len ≥ 4 then payload.getD 3 0 else 0)

/-- `pov_layer_name_valid`. -/
def layerNameValid (layer : List UInt8) : Bool :=
  (List.range POV_LAYER_COUNT).any fun k =>
    layer = ("layer".toUTF8.toList ++ [UInt8.ofNat (48 + k)])

/-- `pov_ring_decode_file_payload`. -/
def decodeFilePayload (payload : List UInt8) (len : UInt8) : Option (List UInt8) :=
  let layer := cString 63 (payload.take len.toNat)
  if len = 0 ∨ layer = [] ∨ !layerNameValid layer then none else some layer

end Kinetis.Pov.Ring
