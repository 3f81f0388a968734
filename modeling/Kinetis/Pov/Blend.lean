import Kinetis.Lib.Scan
import Kinetis.Pov.Display

/-!
# Pov — composing the layers

`projects/persistence-of-vision/blend.c`: `pov_compose_layers` goes through the images of layer 0,
lays the backgrounds of layers 1 to 3 over each, column by column, and writes the result, packed for
the LED drivers, into the directory `blend`.

* `Layers` is what is on the disk: the four directories, and the files of `blend` by name.
* `Faults` says which file-system calls fail.  A file object whose `f_lseek` or `f_close` failed
  answers every later call with an error, as FatFs keeps the error or has lost the volume; it is
  `none` here.  A file whose `f_close` failed is left as it was created, without contents.
* `blendColumn` is the packed composition of one column, read off the contents of the files.

Paths are names in a directory.  A name that does not fit the path buffers counts as a call that
fails.
-/

namespace Kinetis.Pov
open Lib

@[simp] def POV_BYTES_PER_GROUP : Nat := POV_LEDS_PER_GROUP * 3
@[simp] def POV_BYTES_PER_COL : Nat := POV_BYTES_PER_GROUP * POV_SPI_GROUPS
def POV_LED_DRIVER_LEDS_PER_IC : Nat := 4
def POV_LED_DRIVER_IC_PER_GROUP : Nat := POV_LEDS_PER_GROUP / POV_LED_DRIVER_LEDS_PER_IC
def POV_PAYLOAD_RAW_RGB : Nat := 1

/-! ### Pixels -/

structure RgbaPixel where
  red   : UInt8
  green : UInt8
  blue  : UInt8
  alpha : UInt8
  deriving DecidableEq, Repr, Inhabited

/-- `enum pov_porter_duff_mode`. -/
inductive PorterDuffMode where
  | clear | src | dst | srcOver | dstOver | srcIn | dstIn | srcOut | dstOut | srcAtop | dstAtop
  | xor | plus
  deriving DecidableEq, Repr

/-- A channel as it is stored. -/
def clampChannel (v : UInt16) : UInt8 := if v > 255 then 255 else v.toUInt8

/-- One formula for the three colours, source first, and one value for alpha. -/
def compositeChannels (dst src : RgbaPixel) (colour : UInt16 → UInt16 → UInt16) (alpha : UInt16) :
    RgbaPixel where
  red := clampChannel (colour src.red.toUInt16 dst.red.toUInt16)
  green := clampChannel (colour src.green.toUInt16 dst.green.toUInt16)
  blue := clampChannel (colour src.blue.toUInt16 dst.blue.toUInt16)
  alpha := clampChannel alpha

/-- `porter_duff_composite_pixel`; no product of two channels overflows 16 bits. -/
def porterDuffCompositePixel (dst src : RgbaPixel) (mode : PorterDuffMode) : RgbaPixel :=
  let sa := src.alpha.toUInt16
  let da := dst.alpha.toUInt16
  let invSa : UInt16 := 256 - sa
  let invDa : UInt16 := 256 - da
  match mode with
  | .clear => ⟨0, 0, 0, 0⟩
  | .src => src
  | .dst => dst
  | .srcOver => compositeChannels dst src (fun s d => s + (d * invSa) >>> 8) (sa + (da * invSa) >>> 8)
  | .dstOver => compositeChannels dst src (fun s d => d + (s * invDa) >>> 8) (da + (sa * invDa) >>> 8)
  | .srcIn => compositeChannels dst src (fun s _ => (s * da) >>> 8) ((sa * da) >>> 8)
  | .dstIn => compositeChannels dst src (fun _ d => (d * sa) >>> 8) ((da * sa) >>> 8)
  | .srcOut => compositeChannels dst src (fun s _ => (s * invDa) >>> 8) ((sa * invDa) >>> 8)
  | .dstOut => compositeChannels dst src (fun _ d => (d * invSa) >>> 8) ((da * invSa) >>> 8)
  | .srcAtop =>
    compositeChannels dst src (fun s d => (s * da) >>> 8 + (d * invSa) >>> 8) da
  | .dstAtop =>
    compositeChannels dst src (fun s d => (d * sa) >>> 8 + (s * invDa) >>> 8) sa
  | .xor =>
    compositeChannels dst src (fun s d => (s * invDa) >>> 8 + (d * invSa) >>> 8)
      (sa + da - (sa * da) >>> 7)
  | .plus => compositeChannels dst src (fun s d => s + d) (sa + da)

/-- `rgb_to_rgba_col`: every pixel of a layer is opaque. -/
def rgbToRgbaCol (rgb : List UInt8) : List RgbaPixel :=
  (List.range POV_LED_COUNT).map fun px =>
    ⟨rgb.getD (px * 3) 0, rgb.getD (px * 3 + 1) 0, rgb.getD (px * 3 + 2) 0, 255⟩

/-- A layer over what is below it. -/
def compositeCol (dst src : List RgbaPixel) : List RgbaPixel :=
  List.zipWith (porterDuffCompositePixel · · .srcOver) dst src

/-! ### Packing a column for the LED drivers

`tlc5971.c`. -/

def TLC5971_WRITE_CMD : UInt8 := 0x25

/-- `tlc5971_rgb8_to_gs`. -/
def tlc5971Rgb8ToGs (val : UInt8) : UInt16 := val.toUInt16 <<< 8 ||| val.toUInt16

def flag (b : UInt8) : UInt8 := if b ≠ 0 then 1 else 0

def tlc5971PackHeader (outtmg extgck tmgrst dsprpt blank bcb bcg bcr : UInt8) : List UInt8 :=
  [TLC5971_WRITE_CMD <<< 2 ||| flag outtmg <<< 1 ||| flag extgck,
    flag tmgrst <<< 7 ||| flag dsprpt <<< 6 ||| flag blank <<< 5 ||| (bcb &&& 0x7F) >>> 2,
    (bcb &&& 0x03) <<< 6 ||| (bcg &&& 0x7F) >>> 1,
    (bcg &&& 0x01) <<< 7 ||| (bcr &&& 0x7F)]

/-- A grayscale value, high byte first. -/
def gsBytes (v : UInt16) : List UInt8 := [(v >>> 8).toUInt8, (v &&& 0xFF).toUInt8]

/-- `tlc5971_pack_gs`: the LEDs of a chip, the last one first. -/
def tlc5971PackGs (gsR gsG gsB : Nat → UInt16) : List UInt8 :=
  (List.range POV_LED_DRIVER_LEDS_PER_IC).flatMap fun k =>
    let i := POV_LED_DRIVER_LEDS_PER_IC - 1 - k
    gsBytes (gsB i) ++ gsBytes (gsG i) ++ gsBytes (gsR i)

def tlc5971PackChip (gsR gsG gsB : Nat → UInt16) : List UInt8 :=
  tlc5971PackHeader 1 0 0 1 0 0x7F 0x7F 0x7F ++ tlc5971PackGs gsR gsG gsB

/-- `rgba_to_led_driver_col`, chip by chip in the order of the bytes: the last chip of a group stands
first (`POV_LED_DRIVER_ICO_NEAR_MCU`). -/
def rgbaToLedDriverCol (rgba : List RgbaPixel) : List UInt8 :=
  (List.range POV_SPI_GROUPS).flatMap fun group =>
    (List.range POV_LED_DRIVER_IC_PER_GROUP).flatMap fun wireIc =>
      let ic := POV_LED_DRIVER_IC_PER_GROUP - 1 - wireIc
      let base := group * POV_LEDS_PER_GROUP + ic * POV_LED_DRIVER_LEDS_PER_IC
      tlc5971PackChip (fun l => tlc5971Rgb8ToGs (rgba.getD (base + l) default).red)
        (fun l => tlc5971Rgb8ToGs (rgba.getD (base + l) default).green)
        (fun l => tlc5971Rgb8ToGs (rgba.getD (base + l) default).blue)

/-! ### Image files -/

/-- `pov_image_header_init`. -/
def imageHeaderInit (payloadFormat bytesPerCol columns : Nat) : ImageHeader where
  magic := POV_IMG_MAGIC
  version := POV_IMG_VERSION
  columns := columns
  ledsPerGroup := POV_LEDS_PER_GROUP
  spiGroups := POV_SPI_GROUPS
  payloadFormat := payloadFormat
  bytesPerCol := bytesPerCol

/-- A header as it is written, with its reserved bytes. -/
def ImageHeader.toBytes (h : ImageHeader) : List UInt8 :=
  leBytes 4 h.magic ++ leBytes 2 h.version ++ leBytes 2 h.columns ++ leBytes 2 h.ledsPerGroup ++
    leBytes 1 h.spiGroups ++ leBytes 1 h.payloadFormat ++ leBytes 2 h.bytesPerCol ++ [0, 0]

def validateRawLayerFile (fileSize : Nat) (header : ImageHeader) (requireDisplayCols : Bool) :
    Except Errno Unit :=
  if header.magic ≠ POV_IMG_MAGIC then .error .einval
  else if header.ledsPerGroup ≠ POV_LEDS_PER_GROUP ∨ header.spiGroups ≠ POV_SPI_GROUPS ∨
      (requireDisplayCols = true ∧ header.columns ≠ POV_DISPLAY_COLS) then .error .einval
  else if header.version ≠ POV_IMG_VERSION ∧ header.version ≠ 1 then .error .einval
  else if header.version = POV_IMG_VERSION ∧
      (header.payloadFormat ≠ POV_PAYLOAD_RAW_RGB ∨ header.bytesPerCol ≠ POV_BYTES_PER_COL) then
    .error .einval
  else if fileSize < POV_IMAGE_HEADER_SIZE then .error .einval
  else if fileSize - POV_IMAGE_HEADER_SIZE ≠ header.columns * header.bytesPerCol then .error .einval
  else .ok ()

/-! ### The disk -/

/-- `strrchr`: from the last `c` on. -/
def strrchr (c : Char) : List Char → Option (List Char)
  | [] => none
  | x :: xs =>
    match strrchr c xs with
    | some t => some t
    | none => if x = c then some (x :: xs) else none

/-- The extension is `.pov`. -/
def isPov (name : List Char) : Bool := strrchr '.' name = some ['.', 'p', 'o', 'v']

/-- An entry of a directory, with the contents of the file. -/
structure LayerFile where
  name  : List Char
  /-- `AM_DIR`. -/
  dir   : Bool
  /-- `AM_SYS`. -/
  sys   : Bool
  bytes : List UInt8

/-- The first bytes of a file, as a header. -/
def LayerFile.header (f : LayerFile) : ImageHeader :=
  .ofBytes (slice f.bytes 0 POV_IMAGE_HEADER_SIZE)

/-- Not a directory, not a system file, and an image by its name. -/
def LayerFile.isImage (f : LayerFile) : Bool := !(f.dir || f.sys) && isPov f.name

/-- A directory has a name once. -/
structure LayerDir where
  files    : List LayerFile
  distinct : (files.map LayerFile.name).Nodup

structure Layers where
  /-- `layer0` to `layer3`. -/
  layer : Nat → Option LayerDir
  blend : List Char → Option (List UInt8)

/-- What goes wrong while one image is composed; layers by their number, 0 for the image. -/
structure PassFaults where
  findFails   : Bool
  openFails   : Bool
  headerFails : Bool
  createFails : Bool
  /-- A write that fails, after this many bytes. -/
  writeHeader : Option Nat
  seekFails   : Nat → Bool
  /-- A call that `read_column` makes for this layer and column. -/
  readFails   : Nat → Nat → Bool
  /-- A write that fails, after this many bytes. -/
  write       : Nat → Option Nat
  closeFails  : Bool
  unlinkFails : Bool

/-- What goes wrong; layers by their number. -/
structure Faults where
  mallocFails : Bool
  createDirs  : Option Errno
  openDir     : Nat → Bool
  /-- `f_readdir` for this entry. -/
  readDir     : Nat → Nat → Bool
  openFails   : Nat → Bool
  headerFails : Nat → Bool
  closeFails  : Nat → Bool
  pass        : Nat → PassFaults

/-! ### The backgrounds -/

/-- The first image of a directory. -/
def firstImage (readDir : Nat → Bool) : Nat → List LayerFile → Option LayerFile
  | _, [] => none
  | k, f :: fs =>
    if readDir k then none
    else if f.isImage then some f
    else firstImage readDir (k + 1) fs

def openBackgroundFile (w : Faults) (i : Nat) (dir : Option LayerDir) : Option LayerFile :=
  match dir with
  | none => none
  | some dir =>
    if w.openDir i then none
    else
      match firstImage (w.readDir i) 0 dir.files with
      | none => none
      | some f => if w.openFails i then none else some f

/-- A file object, by the contents of its file; `none` when it answers with errors only. -/
abbrev Background := Option (List UInt8)

/-- The file object of layer `i` after its header was checked, when it is in use. -/
def openBackground (w : Faults) (i : Nat) (dir : Option LayerDir) : Option Background :=
  match openBackgroundFile w i dir with
  | none => none
  | some f =>
    if w.headerFails i = true ∨ f.bytes.length < POV_IMAGE_HEADER_SIZE ∨
        validateRawLayerFile f.bytes.length f.header false ≠ .ok () then
      if w.closeFails i then some none else none
    else some (some f.bytes)

/-- The backgrounds that are in use, each with its layer. -/
def openBackgrounds (w : Faults) (d : Layers) : List (Nat × Background) :=
  [1, 2, 3].filterMap fun i => (openBackground w i (d.layer i)).map (i, ·)

/-! ### Composing one image -/

/-- `read_column`. -/
def readColumn (fails : Bool) (f : File) : Option (List UInt8 × File) :=
  if fails then none
  else
    let r := f.read POV_BYTES_PER_COL
    if r.1.length = 0 then
      let r := { r.2 with pos := POV_IMAGE_HEADER_SIZE }.read POV_BYTES_PER_COL
      if r.1.length ≠ POV_BYTES_PER_COL then none else some r
    else if r.1.length ≠ POV_BYTES_PER_COL then none
    else some r

/-- The columns of the backgrounds, each laid over what is below it. -/
def readBackgrounds (w : PassFaults) (col : Nat) :
    List (Nat × Option File) → List RgbaPixel → Option (List RgbaPixel × List (Nat × Option File))
  | [], dst => some (dst, [])
  | (i, file) :: files, dst =>
    match file with
    | none => none
    | some f =>
      match readColumn (w.readFails i col) f with
      | none => none
      | some (rgb, f') =>
        match readBackgrounds w col files (compositeCol dst (rgbToRgbaCol rgb)) with
        | none => none
        | some (dst', files') => some (dst', (i, some f') :: files')

/-- One column of every layer that is in use, composed. -/
def readLayers (w : PassFaults) (col : Nat) (image : File) (files : List (Nat × Option File)) :
    Option (List RgbaPixel × File × List (Nat × Option File)) :=
  match readColumn (w.readFails 0 col) image with
  | none => none
  | some (rgb, image') =>
    match readBackgrounds w col files (rgbToRgbaCol rgb) with
    | none => none
    | some (rgba, files') => some (rgba, image', files')

/-- What became of an image: an error to return, what was written, and whether it is complete. -/
structure Written where
  error    : Option Errno
  bytes    : List UInt8
  complete : Bool

/-- The loop over the columns, from column `col` on. -/
def composeColumns (w : PassFaults) :
    Nat → Nat → File → List (Nat × Option File) → List UInt8 → Written
  | 0, _, _, _, out => ⟨none, out, true⟩
  | n + 1, col, image, files, out =>
    match readLayers w col image files with
    | none => ⟨none, out, false⟩
    | some (rgba, image', files') =>
      match w.write col with
      | some t => ⟨some .eacces, out ++ (rgbaToLedDriverCol rgba).take t, false⟩
      | none => composeColumns w n (col + 1) image' files' (out ++ rgbaToLedDriverCol rgba)

/-- `f_lseek` to the first column. -/
def rewind (w : PassFaults) (b : Nat × Background) : Nat × Option File :=
  (b.1, if w.seekFails b.1 then none else b.2.map fun bytes => ⟨bytes, POV_IMAGE_HEADER_SIZE⟩)

/-- What is written to the file in `blend`, once it is created. -/
def writeBlend (w : PassFaults) (opened : List (Nat × Background)) (image : File) (columns : Nat) :
    Written :=
  let header := (imageHeaderInit POV_PAYLOAD_LED_DRIVER POV_LED_DRIVER_COL_BYTES columns).toBytes
  match w.writeHeader with
  | some t => ⟨none, header.take t, false⟩
  | none =>
    if columns = 0 ∨ columns > POV_DISPLAY_COLS * 2 then ⟨none, header, false⟩
    else composeColumns w columns 0 image (opened.map (rewind w)) header

/-- What becomes of the file of an image in `blend`, and the error to return. -/
def composeImage (w : PassFaults) (opened : List (Nat × Background)) (f : LayerFile)
    (old : Option (List UInt8)) : Option Errno × Option (List UInt8) :=
  if old.isSome = true ∧ w.findFails = false then (none, old)
  else if w.openFails then (none, old)
  else
    let r := (File.mk f.bytes 0).read POV_IMAGE_HEADER_SIZE
    if w.headerFails = true ∨ r.1.length ≠ POV_IMAGE_HEADER_SIZE then (none, old)
    else if validateRawLayerFile r.2.size (.ofBytes r.1) true ≠ .ok () then (none, old)
    else if w.createFails then (none, old)
    else
      let written := writeBlend w opened r.2 (ImageHeader.ofBytes r.1).columns
      let left := if w.closeFails then [] else written.bytes
      (written.error, if written.complete = true ∨ w.unlinkFails = true then some left else none)

/-- One entry of `layer0`. -/
def composeEntry (w : Faults) (opened : List (Nat × Background)) (k : Nat) (f : LayerFile)
    (old : Option (List UInt8)) : Option Errno × Option (List UInt8) :=
  if f.isImage then composeImage (w.pass k) opened f old else (none, old)

/-- `pov_compose_layers`: its result, and `blend` after it. -/
def povComposeLayers (w : Faults) (d : Layers) : Option Errno × (List Char → Option (List UInt8)) :=
  if w.mallocFails then (some .enomem, d.blend)
  else
    match w.createDirs with
    | some e => (some e, d.blend)
    | none =>
      match d.layer 0 with
      | none => (some .enoent, d.blend)
      | some dir =>
        if w.openDir 0 then (some .enoent, d.blend)
        else scan (w.readDir 0) LayerFile.name (composeEntry w (openBackgrounds w d)) 0 dir.files
          none d.blend

/-! ### What a composition is -/

/-- Column `col` of a layer, read off the contents of its file; a layer that ends starts over. -/
def layerColumn (bytes : List UInt8) (col : Nat) : Option (List UInt8) :=
  let size := bytes.length - POV_IMAGE_HEADER_SIZE
  let n := size / POV_BYTES_PER_COL
  if col < n ∨ (0 < n ∧ size % POV_BYTES_PER_COL = 0) then
    some (slice bytes (POV_IMAGE_HEADER_SIZE + POV_BYTES_PER_COL * (col % n)) POV_BYTES_PER_COL)
  else none

/-- The layers above, laid over a column one after the other. -/
def overlay (col : Nat) : List (List UInt8) → List RgbaPixel → Option (List RgbaPixel)
  | [], dst => some dst
  | layer :: layers, dst =>
    match layerColumn layer col with
    | none => none
    | some rgb => overlay col layers (compositeCol dst (rgbToRgbaCol rgb))

/-- The packed composition of column `col` of an image and its backgrounds. -/
def blendColumn (image : List UInt8) (backgrounds : List (List UInt8)) (col : Nat) :
    Option (List UInt8) :=
  match layerColumn image col with
  | none => none
  | some rgb => (overlay col backgrounds (rgbToRgbaCol rgb)).map rgbaToLedDriverCol

/-- The background that a directory holds: its first image, when that is a raw layer. -/
def background (dir : LayerDir) : Option (List UInt8) :=
  match dir.files.find? LayerFile.isImage with
  | none => none
  | some f =>
    if validateRawLayerFile f.bytes.length f.header false = .ok () then some f.bytes else none

/-- The backgrounds on the disk. -/
def Layers.backgrounds (d : Layers) : List (List UInt8) :=
  [1, 2, 3].filterMap fun i => (d.layer i).bind background

end Kinetis.Pov
