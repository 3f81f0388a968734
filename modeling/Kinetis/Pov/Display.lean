import Kinetis.Lib.Words
import Kinetis.Platform.Files

/-!
# Pov — one pass over an image

`projects/persistence-of-vision/rotor.c`: `display_image` streams an open image file to the LED
drivers.  `pov_read_next_sector` reads a batch of columns into one half of a double buffer and
flips the `ping` index; `pov_set_rgb` hands one column of the other half to the four SPI groups
each time the angle sensor moves on.

The configuration is the hall sensor (`POV_USE_MT6701` is `0`) and the hardware build.  The
world outside is a set of input streams, one entry per access: the sensor, the microsecond
clock, the outcome of each `f_read` and of each wait for the previous SPI transfer.  `sent` is
the trace of columns handed to the SPI peripherals, each as its four groups.
-/

namespace Kinetis.Pov
open Lib

@[simp] def POV_DISPLAY_COLS : Nat := 720
@[simp] def POV_LED_COUNT : Nat := 256
@[simp] def POV_SPI_GROUPS : Nat := 4
@[simp] def POV_LEDS_PER_GROUP : Nat := POV_LED_COUNT / POV_SPI_GROUPS
@[simp] def POV_LED_DRIVER_GROUP_BYTES : Nat := POV_LEDS_PER_GROUP / 4 * 28
@[simp] def POV_LED_DRIVER_COL_BYTES : Nat := POV_LED_DRIVER_GROUP_BYTES * POV_SPI_GROUPS
@[simp] def POV_PREFETCH_COLS : Nat := 4
@[simp] def POV_ARM_COUNT : Nat := 2
def POV_IMG_MAGIC : Nat := 0x504F5621
def POV_IMG_VERSION : Nat := 2
def POV_PAYLOAD_LED_DRIVER : Nat := 2

/-! ### Image files -/

/-- `struct pov_image_header`, without its reserved bytes. -/
structure ImageHeader where
  magic         : Nat
  version       : Nat
  columns       : Nat
  ledsPerGroup  : Nat
  spiGroups     : Nat
  payloadFormat : Nat
  bytesPerCol   : Nat
  deriving DecidableEq, Repr

/-- `sizeof(struct pov_image_header)`. -/
@[simp] def POV_IMAGE_HEADER_SIZE : Nat := 16

/-- A little-endian field of `n` bytes at `off`. -/
def field (bytes : List UInt8) (off n : Nat) : Nat := leNat (slice bytes off n)

def ImageHeader.ofBytes (bytes : List UInt8) : ImageHeader where
  magic := field bytes 0 4
  version := field bytes 4 2
  columns := field bytes 6 2
  ledsPerGroup := field bytes 8 2
  spiGroups := field bytes 10 1
  payloadFormat := field bytes 11 1
  bytesPerCol := field bytes 12 2

def validateDisplayImage (fileSize : Nat) (header : ImageHeader) : Except Errno Unit :=
  if header.magic ≠ POV_IMG_MAGIC then .error .einval
  else if header.version ≠ POV_IMG_VERSION then .error .einval
  else if header.columns ≠ POV_DISPLAY_COLS ∨ header.ledsPerGroup ≠ POV_LEDS_PER_GROUP ∨
      header.spiGroups ≠ POV_SPI_GROUPS then .error .einval
  else if header.payloadFormat ≠ POV_PAYLOAD_LED_DRIVER ∨
      header.bytesPerCol ≠ POV_LED_DRIVER_COL_BYTES then .error .einval
  else if fileSize ≠ POV_IMAGE_HEADER_SIZE + header.columns * header.bytesPerCol then
    .error .einval
  else .ok ()

/-! ### The angle sensor -/

/-- What one access to the hall sensor sees. -/
structure HallSample where
  rotatedTime : UInt32
  periodTicks : UInt32
  deriving DecidableEq, Repr

/-- `pov_get_angle`, in `u32` arithmetic. -/
def getAngle (armId : UInt8) (angularResolution : UInt32) (hall : HallSample) : UInt32 :=
  if hall.periodTicks = 0 then 0
  else
    let angle := hall.rotatedTime * angularResolution / hall.periodTicks
    let angle := if angularResolution ≤ angle then angularResolution - 1 else angle
    if armId = 0 then angle
    else (angle + armId.toUInt32 * (POV_DISPLAY_COLS / POV_ARM_COUNT : Nat).toUInt32)
      % (POV_DISPLAY_COLS : Nat).toUInt32

/-! ### The rotor -/

/-- The outside world, one entry per access. -/
structure Inputs where
  hall      : Nat → HallSample
  clock     : Nat → UInt64
  readFails : Nat → Bool
  spi       : Nat → Option Errno

/-- The parts of `struct pov_rotor` that `display_image` uses, the trace of columns sent, and
how many entries of each input stream are used up. -/
structure Rotor where
  imageFile         : File
  ledDriverFrame    : Nat → List UInt8
  prefetchPing      : Nat
  prefetchSentIndex : Nat
  pendingColumn     : Nat
  armId             : UInt8
  angularResolution : UInt32
  sent              : List (List (List UInt8))
  samples           : Nat
  ticks             : Nat
  reads             : Nat
  transfers         : Nat

/-- Copy `data` over the front of a buffer. -/
def overwrite (buf data : List UInt8) : List UInt8 := data ++ buf.drop data.length

variable (w : Inputs)

def readNextSector (r : Rotor) : Option Errno × Rotor :=
  let readBytes := POV_PREFETCH_COLS * POV_LED_DRIVER_COL_BYTES
  if w.readFails r.reads then (some .eio, { r with reads := r.reads + 1 })
  else
    let (data, file) := r.imageFile.read readBytes
    let r := { r with
      reads := r.reads + 1
      imageFile := file
      ledDriverFrame := fun i =>
        if i = r.prefetchPing then overwrite (r.ledDriverFrame i) data else r.ledDriverFrame i }
    if data.length = 0 then (some .enoent, r)
    else if data.length ≠ readBytes then (some .eio, r)
    else (none, { r with
      pendingColumn := (r.pendingColumn + data.length) % 2 ^ 32
      prefetchPing := r.prefetchPing ^^^ 1
      prefetchSentIndex := 0 })

/-- What the next access to the sensor gives. -/
def nextAngle (r : Rotor) : UInt32 := getAngle r.armId r.angularResolution (w.hall r.samples)

/-- The rotor after an access to the sensor. -/
def Rotor.sampled (r : Rotor) : Rotor := { r with samples := r.samples + 1 }

/-- The rotor after a call of `basic_timer_get_us`. -/
def Rotor.ticked (r : Rotor) : Rotor := { r with ticks := r.ticks + 1 }

/-- The four DMA transfers of column `i` of a buffer: `led_driver_frame[..][i][g]`. -/
def columnGroups (buf : List UInt8) (i : Nat) : List (List UInt8) :=
  (List.range POV_SPI_GROUPS).map fun g =>
    slice buf ((i * POV_SPI_GROUPS + g) * POV_LED_DRIVER_GROUP_BYTES) POV_LED_DRIVER_GROUP_BYTES

/-- `pov_spi_multi_transmit`. -/
def spiMultiTransmit (r : Rotor) : Option Errno × Rotor :=
  match w.spi r.transfers with
  | some e => (some e, { r with transfers := r.transfers + 1 })
  | none =>
    let pong := r.prefetchPing ^^^ 1
    (none, { r with
      transfers := r.transfers + 1
      sent := r.sent ++ [columnGroups (r.ledDriverFrame pong) r.prefetchSentIndex] })

/-- The wait for the sensor to leave `lastAngle`.  Without fuel there is no answer. -/
def waitAngle (lastAngle : UInt32) (deadline : UInt64) : Nat → Rotor → Option (Option Errno × Rotor)
  | 0, _ => none
  | fuel + 1, r =>
    if nextAngle w r ≠ lastAngle then some (none, r.sampled)
    else if deadline < w.clock r.ticks then
      if nextAngle w r.sampled.ticked = lastAngle then
        some (some .etimedout, r.sampled.ticked.sampled)
      else some (none, r.sampled.ticked.sampled)
    else waitAngle lastAngle deadline fuel r.sampled.ticked

/-- The refill at the top of the loop, when the batch is used up or none has been sent yet. -/
def refill (r : Rotor) : Option Errno × Rotor :=
  if r.prefetchSentIndex = POV_PREFETCH_COLS ∨ r.prefetchSentIndex = 0 then readNextSector w r
  else (none, r)

/-- The deadline of the wait, from `stall_us` of the hall build. -/
def deadline (r : Rotor) : UInt64 :=
  let stallUs := (w.hall r.samples).periodTicks
  w.clock r.ticks + (if 1000 < stallUs then stallUs else 1000).toUInt64

/-- `pov_set_rgb`, then the step to the next column of the batch. -/
def sendColumn (r : Rotor) : Option Errno × Rotor :=
  match spiMultiTransmit w r with
  | (some e, r) => (some e, r)
  | (none, r) => (none, { r with prefetchSentIndex := (r.prefetchSentIndex + 1) % 256 })

/-- The `while (1)` loop of `display_image`.  Without fuel there is no answer. -/
def displayLoop : Nat → UInt32 → Rotor → Option (Option Errno × Rotor)
  | 0, _, _ => none
  | fuel + 1, lastAngle, r =>
    match refill w r with
    | (some .enoent, r) => some (none, r)
    | (some e, r) => some (some e, r)
    | (none, r) =>
      match waitAngle w lastAngle (deadline w r) fuel r.ticked with
      | none => none
      | some (some e, r) => some (some e, r)
      | some (none, r) =>
        match sendColumn w r with
        | (some e, r) => some (some e, r)
        | (none, r) => displayLoop fuel (nextAngle w r) r.sampled

/-- `display_image`: `none` in the result is the return value `0`. -/
def displayImage (fuel : Nat) (r : Rotor) : Option (Option Errno × Rotor) :=
  match readNextSector w r.sampled with
  | (some e, r) => some (some e, r)
  | (none, r') => displayLoop w fuel (nextAngle w r) r'

end Kinetis.Pov
