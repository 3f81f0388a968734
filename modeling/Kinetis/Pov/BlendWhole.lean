import Kinetis.Lib.Runs
import Kinetis.Pov.BlendLaw
import Kinetis.Pov.LedColumn
import Mathlib.Data.List.GetD

/-!
# Pov — a file of `blend` is whole or absent

What `pov_compose_layers` leaves of a file that it creates, whatever fails on the way: nothing, or a
header and all of the columns.  The columns are those of the layers as long as a column has the
length that `read_column` takes it to have.  `validate_raw_layer_file` sees to that for a file of
version 2; a file of version 1 may say otherwise in its header.

* `Complete` says what a file of `blend` should hold, with the columns of the layers as their own
  headers lay them out;
* `Created.left`: a file that is created holds all of its columns in the end or is removed;
* `Created.complete_iff`: the layers are opaque, so that the columns are right where those of the
  topmost layer are;
* `blend_files_iff` is the resulting statement, and `sameColumn_of_stride` says that version 2 is
  safe.
-/

namespace Kinetis.Pov
open Lib

/-! ### The columns of a layer by its header -/

def headerOf (bytes : List UInt8) : ImageHeader := .ofBytes (slice bytes 0 POV_IMAGE_HEADER_SIZE)

/-- Column `col` of a layer: `bytes_per_col` bytes. -/
def headerColumn (bytes : List UInt8) (col : Nat) : List UInt8 :=
  slice bytes (POV_IMAGE_HEADER_SIZE + (headerOf bytes).bytesPerCol * col) (headerOf bytes).bytesPerCol

/-- Column `col` of an image with column `col % columns` of each background over it, packed. -/
def layeredColumn (image : List UInt8) (backgrounds : List (List UInt8)) (col : Nat) : List UInt8 :=
  rgbaToLedDriverCol (backgrounds.foldl
    (fun dst layer =>
      compositeCol dst (rgbToRgbaCol (headerColumn layer (col % (headerOf layer).columns))))
    (rgbToRgbaCol (headerColumn image col)))

/-- **What a file of `blend` should hold**: a header for as many columns as the image has, and these
columns. -/
def Complete (image : List UInt8) (backgrounds : List (List UInt8)) (bytes : List UInt8) : Prop :=
  bytes =
    (imageHeaderInit POV_PAYLOAD_LED_DRIVER POV_LED_DRIVER_COL_BYTES (headerOf image).columns).toBytes ++
      (List.range (headerOf image).columns).flatMap (layeredColumn image backgrounds)

/-- The layer that is seen. -/
def topLayer (image : List UInt8) (backgrounds : List (List UInt8)) : List UInt8 :=
  backgrounds.getLast?.getD image

/-- The bytes that `read_column` takes for column `col` have the pixels of that column. -/
def SameColumn (layer : List UInt8) (col : Nat) : Prop :=
  (layerColumn layer col).map rgbToRgbaCol =
    some (rgbToRgbaCol (headerColumn layer (col % (headerOf layer).columns)))

section Columns

variable {image : List UInt8} {backgrounds : List (List UInt8)} {col : Nat}

theorem topLayer_nil : topLayer image [] = image := rfl

theorem topLayer_concat (below : List (List UInt8)) (top : List UInt8) :
    topLayer image (below ++ [top]) = top := by
  rw [topLayer, List.getLast?_concat, Option.getD_some]

theorem layeredColumn_top (hcol : col < (headerOf image).columns) :
    layeredColumn image backgrounds col =
      rgbaToLedDriverCol (rgbToRgbaCol (headerColumn (topLayer image backgrounds)
        (col % (headerOf (topLayer image backgrounds)).columns))) := by
  rw [layeredColumn]
  obtain rfl | ⟨below, top, rfl⟩ := List.eq_nil_or_concat' backgrounds
  · rw [topLayer_nil, List.foldl_nil, Nat.mod_eq_of_lt hcol]
  · -- whatever the layers below come to, it has 256 pixels
    have hlen : ∀ (layers : List (List UInt8)) (dst : List RgbaPixel), dst.length = POV_LED_COUNT →
        (layers.foldl (fun dst layer => compositeCol dst
          (rgbToRgbaCol (headerColumn layer (col % (headerOf layer).columns)))) dst).length =
            POV_LED_COUNT := by
      intro layers dst hdst
      refine Run.foldl_invariant (P := fun dst : List RgbaPixel => dst.length = POV_LED_COUNT) ?_ layers hdst
      intro dst layer hdst
      rw [compositeCol_rgb hdst]
      exact length_rgbToRgbaCol _
    rw [topLayer_concat, List.foldl_append, List.foldl_cons, List.foldl_nil,
      compositeCol_rgb (hlen below _ (length_rgbToRgbaCol _))]

/-- Layers that were laid over each other have the column. -/
theorem layerColumn_of_overlay {layers : List (List UInt8)} {dst rgba : List RgbaPixel}
    (h : overlay col layers dst = some rgba) : ∀ layer ∈ layers, layerColumn layer col ≠ none := by
  induction layers generalizing dst with
  | nil => exact List.forall_mem_nil _
  | cons layer layers ih =>
    rw [overlay] at h
    cases hl : layerColumn layer col with
    | none =>
      rw [hl] at h
      cases h
    | some rgb =>
      rw [hl] at h
      refine List.forall_mem_cons.mpr ⟨?_, ih h⟩
      rw [hl]
      exact Option.some_ne_none rgb

/-- What is composed is the column of the topmost layer. -/
theorem blendColumn_top (h : blendColumn image backgrounds col ≠ none) :
    ∃ rgb, layerColumn (topLayer image backgrounds) col = some rgb ∧
      blendColumn image backgrounds col = some (rgbaToLedDriverCol (rgbToRgbaCol rgb)) := by
  rw [blendColumn] at h ⊢
  cases himage : layerColumn image col with
  | none =>
    rw [himage] at h
    exact absurd rfl h
  | some under =>
    rw [himage] at h
    dsimp only at h ⊢
    obtain rfl | ⟨below, top, rfl⟩ := List.eq_nil_or_concat' backgrounds
    · exact ⟨under, himage, rfl⟩
    · cases hover : overlay col (below ++ [top]) (rgbToRgbaCol under) with
      | none =>
        rw [hover] at h
        exact absurd rfl h
      | some rgba =>
        have hne := layerColumn_of_overlay hover top
          (List.mem_append_right below List.mem_cons_self)
        obtain ⟨rgb, hrgb⟩ := Option.ne_none_iff_exists'.mp hne
        refine ⟨rgb, ?_, ?_⟩
        · rw [topLayer_concat, hrgb]
        · rw [overlay_topmost below (length_rgbToRgbaCol under) hrgb hover, Option.map_some]

theorem getD_rgbToRgbaCol (rgb : List UInt8) {px : Nat} (hpx : px < POV_LED_COUNT) :
    (rgbToRgbaCol rgb).getD px default =
      ⟨rgb.getD (px * 3) 0, rgb.getD (px * 3 + 1) 0, rgb.getD (px * 3 + 2) 0, 255⟩ := by
  rw [rgbToRgbaCol, List.getD_eq_getElem?_getD, List.getElem?_map, List.getElem?_range hpx]
  rfl

/-- Packing loses no pixel of a layer. -/
theorem packed_inj {rgb rgb' : List UInt8} :
    rgbaToLedDriverCol (rgbToRgbaCol rgb) = rgbaToLedDriverCol (rgbToRgbaCol rgb') ↔
      rgbToRgbaCol rgb = rgbToRgbaCol rgb' := by
  refine ⟨fun h => ?_, fun h => congrArg _ h⟩
  refine List.map_congr_left fun px hpx => ?_
  have hlt : px < POV_LED_COUNT := List.mem_range.mp hpx
  obtain ⟨hr, hg, hb⟩ := rgbaToLedDriverCol_inj h hlt
  rw [getD_rgbToRgbaCol _ hlt, getD_rgbToRgbaCol _ hlt] at hr hg hb
  dsimp only at hr hg hb
  rw [hr, hg, hb]

/-- A column that is written is the right one just if that of the topmost layer is. -/
theorem written_iff (h : blendColumn image backgrounds col ≠ none)
    (hcol : col < (headerOf image).columns) :
    (blendColumn image backgrounds col).getD [] = layeredColumn image backgrounds col ↔
      SameColumn (topLayer image backgrounds) col := by
  obtain ⟨rgb, hlayer, hblend⟩ := blendColumn_top h
  rw [hblend, Option.getD_some, layeredColumn_top hcol, packed_inj, SameColumn, hlayer,
    Option.map_some, Option.some_inj]

end Columns

/-! ### What is left of a file -/

section Files

variable {w : Faults} {d : Layers} {k : Nat} {f : LayerFile}

/-- The contents of the backgrounds that are open. -/
def openLayers (w : Faults) (d : Layers) : List (List UInt8) :=
  (openBackgrounds w d).filterMap Prod.snd

/-- A file is created in `blend` for entry `k` of `layer0`. -/
structure Created (w : Faults) (d : Layers) (k : Nat) (f : LayerFile) : Prop where
  entry   : ∃ dir, d.layer 0 = some dir ∧ dir.files[k]? = some f
  starts  : Starts w
  valid   : f.Valid
  handled : Handled w d k f

/-- Every column is read and written. -/
def Finishes (w : Faults) (d : Layers) (k : Nat) (f : LayerFile) : Prop :=
  Completes (w.pass k) f.bytes (openBackgrounds w d) ∧
    ¬ WriteFails (w.pass k) f.bytes (openBackgrounds w d)

/-- The file with the columns that are written. -/
def madeFile (w : Faults) (d : Layers) (f : LayerFile) : List UInt8 :=
  blendHeader ++ (List.range POV_DISPLAY_COLS).flatMap (madeColumn f.bytes (openBackgrounds w d))

/-- **What is written** once the file is created: all of it, or the pass ends before. -/
theorem writeBlend_ends (pass : PassFaults) {opened : List (Nat × Background)} (hs : Sound opened)
    (hsize : POV_IMAGE_HEADER_SIZE ≤ f.bytes.length) :
    let r := writeBlend pass opened ⟨f.bytes, POV_IMAGE_HEADER_SIZE⟩ POV_DISPLAY_COLS
    let finishes := Completes pass f.bytes opened ∧ ¬ WriteFails pass f.bytes opened
    (r.complete = true ∧ finishes ∧ r.bytes = blendHeader ++
      (List.range POV_DISPLAY_COLS).flatMap (madeColumn f.bytes opened)) ∨
    (r.complete = false ∧ ¬ finishes) := by
  rw [writeBlend]
  cases hheader : pass.writeHeader with
  | some t =>
    refine .inr ⟨rfl, fun hfin => ?_⟩
    cases hheader.symm.trans hfin.1.1
  | none =>
    have hend : PassEnd pass f.bytes opened POV_DISPLAY_COLS 0 blendHeader _ :=
      composeColumns_end POV_DISPLAY_COLS blendHeader (synced_zero hsize) (inSync_rewind hs)
    rw [← blendHeader]
    generalize composeColumns pass POV_DISPLAY_COLS 0 ⟨f.bytes, POV_IMAGE_HEADER_SIZE⟩
      (opened.map (rewind pass)) blendHeader = r at hend ⊢
    cases hend with
    | complete bytes hmade hbytes =>
      refine .inl ⟨rfl, ⟨⟨hheader, fun c hc => (hmade c (Nat.zero_le c) (by omega)).1⟩, ?_⟩, ?_⟩
      · rintro ⟨-, c, hc, hw, -⟩
        exact hw (hmade c (Nat.zero_le c) (by omega)).2
      · rw [List.range_eq_range']
        exact hbytes
    | writeError c bytes hc hmade hw =>
      refine .inr ⟨rfl, fun hfin => hfin.2 ?_⟩
      exact ⟨hheader, c, by omega, hw, fun c' hc' => hmade c' (Nat.zero_le c') hc'⟩
    | readError c bytes hc hnot hok hbytes =>
      exact .inr ⟨rfl, fun hfin => hnot (hfin.1.2 c (by omega))⟩

/-- **A file that is created** holds all of its columns in the end, or is removed. -/
theorem Created.left (h : Created w d k f) (hclose : (w.pass k).closeFails = false)
    (hunlink : (w.pass k).unlinkFails = false) :
    (Finishes w d k f ∧ (povComposeLayers w d).2 f.name = some (madeFile w d f)) ∨
    (¬ Finishes w d k f ∧ (povComposeLayers w d).2 f.name = none) := by
  obtain ⟨dir, hdir, hf⟩ := h.entry
  rw [(compose_left h.starts hdir hf h.valid).1 h.handled,
    composeImage_of_taken h.valid h.handled.taken]
  dsimp only
  rw [hclose, hunlink]
  obtain ⟨hdone, hfin, hbytes⟩ | ⟨hdone, hfin⟩ := writeBlend_ends (w.pass k)
    (sound_openBackgrounds w d) (validateRaw_ok h.valid.raw).1
  · rw [if_pos (.inl hdone), hbytes]
    exact .inl ⟨hfin, rfl⟩
  · rw [if_neg]
    · exact .inr ⟨hfin, rfl⟩
    · rintro (hc | hc)
      · cases hdone.symm.trans hc
      · cases hc

/-- **Its columns are right** where those of the topmost layer are. -/
theorem Created.complete_iff (h : Created w d k f) (hfin : Finishes w d k f) :
    Complete f.bytes (openLayers w d) (madeFile w d f) ↔
      ∀ col < POV_DISPLAY_COLS, SameColumn (topLayer f.bytes (openLayers w d)) col := by
  have hcolumns : (headerOf f.bytes).columns = POV_DISPLAY_COLS := (validateRaw_ok h.valid.raw).2 rfl
  have hmade : ∀ col < POV_DISPLAY_COLS, blendColumn f.bytes (openLayers w d) col ≠ none :=
    fun col hcol => (hfin.1.2 col hcol).blended
  have hiff : ∀ col < POV_DISPLAY_COLS, (madeColumn f.bytes (openBackgrounds w d) col =
      layeredColumn f.bytes (openLayers w d) col ↔
        SameColumn (topLayer f.bytes (openLayers w d)) col) :=
    fun col hcol => written_iff (hmade col hcol) (hcolumns.symm ▸ hcol)
  rw [Complete, hcolumns, madeFile, blendHeader, List.append_cancel_left_eq]
  constructor
  · intro heq col hcol
    exact (hiff col hcol).mp (flatMap_range_inj (fun c hc => length_getD_blendColumn (hmade c hc))
      (fun c _ => length_rgbaToLedDriverCol _) heq col hcol)
  · intro hsame
    exact List.flatMap_congr fun col hcol =>
      (hiff col (List.mem_range.mp hcol)).mpr (hsame col (List.mem_range.mp hcol))

/-- **What `pov_compose_layers` leaves of the files that it creates**, when files can be closed and
removed: each is absent or complete just if, for each that is read and written to its end, the
columns of its topmost layer lie where `read_column` looks for them. -/
theorem blend_files_iff (w : Faults) (d : Layers)
    (hclose : ∀ k, (w.pass k).closeFails = false) (hunlink : ∀ k, (w.pass k).unlinkFails = false) :
    (∀ k f, Created w d k f → (povComposeLayers w d).2 f.name = none ∨
      ∃ bytes, (povComposeLayers w d).2 f.name = some bytes ∧
        Complete f.bytes (openLayers w d) bytes) ↔
    ∀ k f, Created w d k f → Finishes w d k f →
      ∀ col < POV_DISPLAY_COLS, SameColumn (topLayer f.bytes (openLayers w d)) col := by
  constructor
  · intro hall k f hc hfin
    rw [← hc.complete_iff hfin]
    obtain ⟨-, hleft⟩ | ⟨hnot, -⟩ := hc.left (hclose k) (hunlink k)
    · obtain hnone | ⟨bytes, hbytes, hcomplete⟩ := hall k f hc
      · cases hnone.symm.trans hleft
      · cases hbytes.symm.trans hleft
        exact hcomplete
    · exact absurd hfin hnot
  · intro hsame k f hc
    obtain ⟨hfin, hleft⟩ | ⟨-, hleft⟩ := hc.left (hclose k) (hunlink k)
    · exact .inr ⟨_, hleft, (hc.complete_iff hfin).mpr (hsame k f hc hfin)⟩
    · exact .inl hleft

/-! ### Version 2 -/

/-- How a layer that is accepted is laid out. -/
theorem validateRaw_layout {size : Nat} {header : ImageHeader} {require : Bool}
    (h : validateRawLayerFile size header require = .ok ()) :
    size - POV_IMAGE_HEADER_SIZE = header.columns * header.bytesPerCol ∧
      (header.version = POV_IMG_VERSION → header.bytesPerCol = POV_BYTES_PER_COL) := by
  rw [validateRawLayerFile] at h
  split at h
  · cases h
  split at h
  · cases h
  split at h
  · cases h
  split at h
  · cases h
  split at h
  · cases h
  split at h
  · cases h
  rename_i hraw _ hsize
  refine ⟨not_not.mp hsize, fun hversion => ?_⟩
  by_contra hne
  exact hraw ⟨hversion, .inr hne⟩

/-- A layer whose columns have the length that `read_column` takes them to have. -/
theorem sameColumn_of_stride {layer : List UInt8} {require : Bool} {col : Nat}
    (hv : validateRawLayerFile layer.length (headerOf layer) require = .ok ())
    (hstride : (headerOf layer).bytesPerCol = POV_BYTES_PER_COL) (hcol : layerColumn layer col ≠ none) :
    SameColumn layer col := by
  have hcount : (layer.length - POV_IMAGE_HEADER_SIZE) / POV_BYTES_PER_COL =
      (headerOf layer).columns := by
    rw [(validateRaw_layout hv).1, hstride, Nat.mul_div_cancel _ (by decide)]
  rw [SameColumn, headerColumn, hstride]
  rw [layerColumn, hcount] at hcol ⊢
  split at hcol
  · rename_i hread
    rw [if_pos hread, Option.map_some]
  · exact absurd rfl hcol

theorem openBackground_valid {i : Nat} {dir : Option LayerDir} {bytes : List UInt8}
    (h : openBackground w i dir = some (some bytes)) :
    validateRawLayerFile bytes.length (headerOf bytes) false = .ok () := by
  rw [openBackground] at h
  split at h
  · cases h
  · split at h
    · split at h
      · cases h
      · cases h
    · rename_i hbad
      cases h
      by_contra hraw
      exact hbad (.inr (.inr hraw))

/-- Every layer that is seen was accepted. -/
theorem topLayer_valid (hv : f.Valid) : ∃ require,
    validateRawLayerFile (topLayer f.bytes (openLayers w d)).length
      (headerOf (topLayer f.bytes (openLayers w d))) require = .ok () := by
  rw [topLayer]
  cases hlast : (openLayers w d).getLast? with
  | none => exact ⟨true, hv.raw⟩
  | some top =>
    obtain ⟨b, hb, hsome⟩ := List.mem_filterMap.mp (List.mem_of_getLast? hlast)
    obtain ⟨i, -, hi⟩ := List.mem_filterMap.mp hb
    obtain ⟨b', hopen, rfl⟩ := Option.map_eq_some_iff.mp hi
    cases hsome
    exact ⟨false, openBackground_valid hopen⟩

/-- **A topmost layer of version 2**, or of version 1 with columns of that length, is composed
rightly. -/
theorem Finishes.sameColumn (h : Finishes w d k f) (hv : f.Valid)
    (hstride : (headerOf (topLayer f.bytes (openLayers w d))).bytesPerCol = POV_BYTES_PER_COL) :
    ∀ col < POV_DISPLAY_COLS, SameColumn (topLayer f.bytes (openLayers w d)) col := by
  intro col hcol
  obtain ⟨require, hraw⟩ := topLayer_valid (w := w) (d := d) hv
  obtain ⟨rgb, hlayer, -⟩ := blendColumn_top (h.1.2 col hcol).blended
  refine sameColumn_of_stride hraw hstride ?_
  rw [openLayers, hlayer]
  exact Option.some_ne_none rgb

theorem blend_files_iff_black :
    (∀ k, ((Faults.withPass .calm).pass k).closeFails = false) ∧
    ∀ k f, Created (.withPass .calm) (blackLayers none) k f →
      (povComposeLayers (.withPass .calm) (blackLayers none)).2 f.name = none ∨
      ∃ bytes, (povComposeLayers (.withPass .calm) (blackLayers none)).2 f.name = some bytes ∧
        Complete f.bytes (openLayers (.withPass .calm) (blackLayers none)) bytes := by
  refine ⟨fun _ => rfl, (blend_files_iff (.withPass .calm) (blackLayers none) (fun _ => rfl)
    (fun _ => rfl)).mpr ?_⟩
  intro k f hc hfin
  obtain ⟨dir, hdir, hf⟩ := hc.entry
  cases hdir
  obtain rfl : f = blackFile := List.mem_singleton.mp (List.mem_of_getElem? hf)
  have hnone : openLayers (.withPass .calm) (blackLayers none) = [] := rfl
  refine hfin.sameColumn hc.valid ?_
  rw [hnone, topLayer_nil]
  exact congrArg ImageHeader.bytesPerCol blackFile_header

/-! ### Half a column -/

/-- Version 1, and columns of 384 bytes. -/
def halfHeader : ImageHeader :=
  { imageHeaderInit POV_PAYLOAD_RAW_RGB 384 POV_DISPLAY_COLS with version := 1 }

/-- An image with that header, white in the first column. -/
def halfFile : LayerFile where
  name := ['a', '.', 'p', 'o', 'v']
  dir := false
  sys := false
  bytes := halfHeader.toBytes ++ (List.replicate 384 255 ++ List.replicate 276096 0)

/-- A disk with that image alone. -/
def halfLayers : Layers where
  layer i := if i = 0 then some ⟨[halfFile], List.nodup_singleton _⟩ else none
  blend _ := none

theorem length_halfFile : halfFile.bytes.length = 276496 := by
  rw [halfFile, List.length_append, List.length_append, List.length_replicate,
    List.length_replicate]
  rfl

theorem created_halfFile : Created (.withPass .calm) halfLayers 0 halfFile where
  entry := ⟨_, rfl, rfl⟩
  starts := starts_withPass _
  valid := by
    refine ⟨rfl, rfl, ?_⟩
    rw [length_halfFile]
    decide
  handled := ⟨fun _ _ => rfl, rfl, .inl rfl, rfl, rfl, rfl⟩

/-- `read_column` starts over after 360 of the 720 columns. -/
theorem layerColumn_halfFile (col : Nat) : layerColumn halfFile.bytes col =
    some (slice halfFile.bytes (POV_IMAGE_HEADER_SIZE + POV_BYTES_PER_COL * (col % 360))
      POV_BYTES_PER_COL) := by
  rw [layerColumn, length_halfFile]
  exact if_pos (.inr (by decide))

theorem finishes_halfFile : Finishes (.withPass .calm) halfLayers 0 halfFile := by
  have hnone : openBackgrounds (.withPass .calm) halfLayers = [] := rfl
  refine ⟨⟨rfl, fun c _ => ⟨rfl, ?_, ?_⟩⟩, ?_⟩
  · exact List.forall_mem_nil _
  · rw [blendColumn, layerColumn_halfFile]
    exact Option.some_ne_none _
  · rintro ⟨-, c, -, hw, -⟩
    exact hw rfl

/-- A byte behind the header. -/
theorem getD_halfFile (i : Nat) : halfFile.bytes.getD (POV_IMAGE_HEADER_SIZE + i) 0 =
    if i < 384 then 255 else 0 := by
  have hlen : halfHeader.toBytes.length = POV_IMAGE_HEADER_SIZE := rfl
  rw [halfFile, ← hlen, List.getD_append_right _ _ _ _ (Nat.le_add_right _ _),
    Nat.add_sub_cancel_left]
  split
  · rename_i hlt
    rw [List.getD_append _ _ _ _ (by rwa [List.length_replicate]), List.getD_replicate _ hlt]
  · rename_i hlt
    rw [List.getD_append_right _ _ _ _ (by rw [List.length_replicate]; omega),
      List.getD_eq_getElem?_getD, List.getElem?_getD_replicate_default_eq]

theorem not_sameColumn_halfFile : ¬ SameColumn halfFile.bytes 360 := by
  intro hsame
  rw [SameColumn, layerColumn_halfFile, Option.map_some, Option.some_inj, headerColumn] at hsame
  have hred := congrArg (fun col => (col.getD 0 default).red) hsame
  rw [getD_rgbToRgbaCol _ (by decide), getD_rgbToRgbaCol _ (by decide)] at hred
  dsimp only at hred
  rw [getD_slice (by decide), getD_slice (by decide), Nat.add_assoc, Nat.add_assoc, getD_halfFile,
    getD_halfFile] at hred
  exact absurd hred (by decide)

/-- **An image that is half as long as it says** is shown twice: the file that is left is not the
composition of the columns. -/
theorem half_columns_twice :
    Created (.withPass .calm) halfLayers 0 halfFile ∧
    ∃ bytes, (povComposeLayers (.withPass .calm) halfLayers).2 halfFile.name = some bytes ∧
      ¬ Complete halfFile.bytes (openLayers (.withPass .calm) halfLayers) bytes := by
  refine ⟨created_halfFile, madeFile (.withPass .calm) halfLayers halfFile, ?_, fun hcomplete => ?_⟩
  · obtain ⟨-, hleft⟩ | ⟨hnot, -⟩ := created_halfFile.left rfl rfl
    · exact hleft
    · exact absurd finishes_halfFile hnot
  · exact not_sameColumn_halfFile
      ((created_halfFile.complete_iff finishes_halfFile).mp hcomplete 360 (by decide))

end Files

end Kinetis.Pov
