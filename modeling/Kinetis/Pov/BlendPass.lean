import Kinetis.Pov.Blend
import Mathlib.Data.List.Forall2

/-!
# Pov — one pass over the layers

What becomes of one image of `layer0`: its columns are read, the backgrounds are laid over them, and
the result is written to a file in `blend`.

* `readColumn_spec`, `readLayers_spec`, `composeColumns_end`: what one read, one column and one pass
  over an image come to.
* `Composed` says that a file holds the composition of an image and its backgrounds.
* `composeImage_composed_iff`: when the file that a pass leaves does.
* `overlay_topmost`: the layers are opaque, so that the topmost background is all there is to see.
-/

namespace Kinetis.Pov
open Lib

/-! ### Layers are opaque -/

section Opaque

/-- A channel under an opaque one contributes nothing. -/
theorem covered_channel (c : UInt8) :
    (c.toUInt16 * (256 - (255 : UInt8).toUInt16)) >>> 8 = 0 := by
  have key : ∀ n : Fin 256,
      ((UInt8.ofNat n).toUInt16 * (256 - (255 : UInt8).toUInt16)) >>> 8 = 0 := by decide +kernel
  have h := key ⟨c.toNat, c.toNat_lt⟩
  rwa [UInt8.ofNat_toNat] at h

theorem clampChannel_toUInt16 (c : UInt8) : clampChannel c.toUInt16 = c := by
  have key : ∀ n : Fin 256, clampChannel (UInt8.ofNat n).toUInt16 = UInt8.ofNat n := by
    decide +kernel
  have h := key ⟨c.toNat, c.toNat_lt⟩
  rwa [UInt8.ofNat_toNat] at h

/-- An opaque pixel hides what is below it. -/
theorem srcOver_opaque (dst : RgbaPixel) {src : RgbaPixel} (h : src.alpha = 255) :
    porterDuffCompositePixel dst src .srcOver = src := by
  simp only [porterDuffCompositePixel, compositeChannels, h, covered_channel, UInt16.add_zero,
    clampChannel_toUInt16]
  exact h ▸ rfl

theorem length_rgbToRgbaCol (rgb : List UInt8) : (rgbToRgbaCol rgb).length = POV_LED_COUNT := by
  rw [rgbToRgbaCol, List.length_map, List.length_range]

theorem compositeCol_rgb {dst : List RgbaPixel} (h : dst.length = POV_LED_COUNT) (rgb : List UInt8) :
    compositeCol dst (rgbToRgbaCol rgb) = rgbToRgbaCol rgb := by
  refine List.ext_getElem ?_ fun i h1 h2 => ?_
  · rw [compositeCol, List.length_zipWith, h, length_rgbToRgbaCol, Nat.min_self]
  · simp only [compositeCol, List.getElem_zipWith]
    refine srcOver_opaque _ ?_
    simp only [rgbToRgbaCol, List.getElem_map]

/-- **The topmost background hides every layer below it**, the image included. -/
theorem overlay_topmost {col : Nat} {top rgb : List UInt8} (below : List (List UInt8))
    {dst rgba : List RgbaPixel} (hdst : dst.length = POV_LED_COUNT)
    (htop : layerColumn top col = some rgb) (h : overlay col (below ++ [top]) dst = some rgba) :
    rgba = rgbToRgbaCol rgb := by
  induction below generalizing dst with
  | nil =>
    rw [List.nil_append, overlay, htop] at h
    dsimp only [overlay] at h
    rw [compositeCol_rgb hdst] at h
    exact (Option.some.inj h).symm
  | cons layer below ih =>
    rw [List.cons_append, overlay] at h
    cases hl : layerColumn layer col with
    | none =>
      rw [hl] at h
      cases h
    | some under =>
      rw [hl] at h
      dsimp only at h
      rw [compositeCol_rgb hdst] at h
      exact ih (length_rgbToRgbaCol under) h

end Opaque

/-! ### Columns of a layer -/

section Columns

variable {bytes : List UInt8} {f : File} {col : Nat}

/-- The number of whole columns in a file. -/
def columnCount (bytes : List UInt8) : Nat :=
  (bytes.length - POV_IMAGE_HEADER_SIZE) / POV_BYTES_PER_COL

/-- A file stands where column `col` begins, or at its end before it starts over.  A file that does
not end with a whole column never starts over. -/
structure Synced (col : Nat) (b : List UInt8) (f : File) : Prop where
  bytes : f.bytes = b
  whole : POV_IMAGE_HEADER_SIZE ≤ b.length
  pos   : ∃ p, f.pos = POV_IMAGE_HEADER_SIZE + POV_BYTES_PER_COL * p ∧ p ≤ columnCount b ∧
    p % columnCount b = col % columnCount b ∧
    ((b.length - POV_IMAGE_HEADER_SIZE) % POV_BYTES_PER_COL ≠ 0 → p = col)

/-- At the first column. -/
theorem synced_zero (h : POV_IMAGE_HEADER_SIZE ≤ bytes.length) :
    Synced 0 bytes ⟨bytes, POV_IMAGE_HEADER_SIZE⟩ :=
  ⟨rfl, h, 0, rfl, Nat.zero_le _, rfl, fun _ => rfl⟩

theorem readColumn_full (h : f.pos + POV_BYTES_PER_COL ≤ f.size) :
    readColumn false f = some (slice f.bytes f.pos POV_BYTES_PER_COL,
      { f with pos := f.pos + POV_BYTES_PER_COL }) := by
  have hlen : (slice f.bytes f.pos POV_BYTES_PER_COL).length = POV_BYTES_PER_COL := by
    rw [File.size] at h
    rw [length_slice]
    omega
  rw [readColumn, if_neg Bool.false_ne_true, File.read_full h]
  dsimp only
  rw [hlen, if_neg (by decide), if_neg (fun hne => hne rfl)]

/-- At its end a file starts over, where it has a column. -/
theorem readColumn_end (h : f.size = f.pos) :
    readColumn false f =
      if POV_IMAGE_HEADER_SIZE + POV_BYTES_PER_COL ≤ f.size then
        some (slice f.bytes POV_IMAGE_HEADER_SIZE POV_BYTES_PER_COL,
          { f with pos := POV_IMAGE_HEADER_SIZE + POV_BYTES_PER_COL })
      else none := by
  rw [readColumn, if_neg Bool.false_ne_true, File.read_end (Nat.le_of_eq h)]
  dsimp only
  rw [List.length_nil, if_pos rfl]
  by_cases hfull : POV_IMAGE_HEADER_SIZE + POV_BYTES_PER_COL ≤ f.size
  · have hlen : (slice f.bytes POV_IMAGE_HEADER_SIZE POV_BYTES_PER_COL).length =
        POV_BYTES_PER_COL := by
      rw [File.size] at hfull
      rw [length_slice]
      omega
    rw [if_pos hfull, File.read_full hfull]
    dsimp only
    rw [hlen, if_neg (fun hne => hne rfl)]
  · rw [if_neg hfull, if_pos]
    rw [File.size] at hfull
    have hB : POV_BYTES_PER_COL = 768 := rfl
    rw [File.read, length_slice]
    dsimp only
    omega

/-- The rest of a column is not read. -/
theorem readColumn_short (h1 : f.pos < f.size) (h2 : f.size < f.pos + POV_BYTES_PER_COL) :
    readColumn false f = none := by
  have hlen : (f.read POV_BYTES_PER_COL).1.length = f.size - f.pos := by
    rw [File.read, length_slice, File.size] at *
    omega
  rw [readColumn, if_neg Bool.false_ne_true]
  dsimp only
  rw [hlen, if_neg (by omega), if_pos (by omega)]

/-- **Reading a column** gives that column of the layer, where there is one. -/
theorem readColumn_spec (h : Synced col bytes f) :
    (∃ rgb f', readColumn false f = some (rgb, f') ∧ layerColumn bytes col = some rgb ∧
      Synced (col + 1) bytes f') ∨
    (readColumn false f = none ∧ layerColumn bytes col = none) := by
  obtain ⟨rfl, hwhole, p, hpos, hp, hmod, hcol⟩ := h
  have hdiv := Nat.div_add_mod (f.bytes.length - POV_IMAGE_HEADER_SIZE) POV_BYTES_PER_COL
  have hlt := Nat.mod_lt (f.bytes.length - POV_IMAGE_HEADER_SIZE)
    (show 0 < POV_BYTES_PER_COL by decide)
  have hB : POV_BYTES_PER_COL = 768 := rfl
  have hcount : (f.bytes.length - POV_IMAGE_HEADER_SIZE) / POV_BYTES_PER_COL =
    columnCount f.bytes := rfl
  rw [hcount, hB] at hdiv
  rw [hB] at hlt
  by_cases hn : p < columnCount f.bytes
  · -- a whole column lies ahead
    have hread := readColumn_full (f := f) (by rw [File.size, hpos, hB]; omega)
    refine .inl ⟨_, _, hread, ?_, rfl, hwhole, p + 1, ?_, hn, ?_, fun hne => ?_⟩
    · rw [layerColumn]
      rw [hcount, if_pos, ← hmod, Nat.mod_eq_of_lt hn, hpos]
      by_cases hr : (f.bytes.length - POV_IMAGE_HEADER_SIZE) % POV_BYTES_PER_COL = 0
      · exact .inr ⟨by omega, hr⟩
      · exact .inl (hcol hr ▸ hn)
    · dsimp only
      rw [hpos, Nat.mul_succ, Nat.add_assoc]
    · rw [Nat.add_mod, hmod, ← Nat.add_mod]
    · rw [hcol hne]
  · obtain rfl : p = columnCount f.bytes := by omega
    by_cases hr : (f.bytes.length - POV_IMAGE_HEADER_SIZE) % POV_BYTES_PER_COL = 0
    · -- the file ends here
      have hend : f.size = f.pos := by
        rw [hB] at hr
        rw [File.size, hpos, hB]
        omega
      by_cases hzero : columnCount f.bytes = 0
      · refine .inr ⟨?_, ?_⟩
        · rw [readColumn_end hend, if_neg]
          rw [File.size, hB]
          rw [hB] at hr
          omega
        · rw [layerColumn]
          rw [hcount, hzero, if_neg (by omega)]
      · have hroom : POV_IMAGE_HEADER_SIZE + POV_BYTES_PER_COL ≤ f.size := by
          have hcols : 768 * 1 ≤ 768 * columnCount f.bytes :=
            Nat.mul_le_mul_left 768 (Nat.pos_of_ne_zero hzero)
          rw [hend, hpos, hB]
          exact Nat.add_le_add_left hcols _
        have hone : POV_IMAGE_HEADER_SIZE + POV_BYTES_PER_COL =
            POV_IMAGE_HEADER_SIZE + POV_BYTES_PER_COL * 1 := by rw [Nat.mul_one]
        have hfirst : col % columnCount f.bytes = 0 := by rw [← hmod, Nat.mod_self]
        refine .inl ⟨slice f.bytes POV_IMAGE_HEADER_SIZE POV_BYTES_PER_COL,
          { f with pos := POV_IMAGE_HEADER_SIZE + POV_BYTES_PER_COL }, ?_, ?_, rfl, hwhole,
          1, hone, by omega, ?_, fun hne => absurd hr hne⟩
        · rw [readColumn_end hend, if_pos hroom]
        · rw [layerColumn]
          rw [hcount, if_pos (.inr ⟨by omega, hr⟩), hfirst]
          rfl
        · rw [Nat.add_mod, hfirst, Nat.zero_add, Nat.mod_mod]
    · -- a part of a column is left
      refine .inr ⟨?_, ?_⟩
      · rw [hB] at hr
        refine readColumn_short ?_ ?_ <;> rw [File.size, hpos, hB] <;> omega
      · rw [layerColumn]
        rw [hcount, if_neg]
        rintro (hlt' | ⟨-, hr'⟩)
        · exact hn (hcol hr ▸ hlt')
        · exact hr hr'

end Columns

/-! ### One pass -/

section Pass

variable {w : PassFaults} {opened : List (Nat × Background)} {files : List (Nat × Option File)}
  {image : List UInt8} {f : File} {col : Nat}

/-- Background `b` can be read at column `col`. -/
structure ReadableAt (w : PassFaults) (col : Nat) (b : Nat × Background) : Prop where
  sound : b.2 ≠ none
  seeks : w.seekFails b.1 = false
  reads : w.readFails b.1 col = false

/-- The layers that are in use have a column `col`, and it can be read. -/
structure Makes (w : PassFaults) (image : List UInt8) (opened : List (Nat × Background)) (col : Nat) :
    Prop where
  reads   : w.readFails 0 col = false
  layers  : ∀ b ∈ opened, ReadableAt w col b
  blended : blendColumn image (opened.filterMap Prod.snd) col ≠ none

/-- What is written for column `col`. -/
def madeColumn (image : List UInt8) (opened : List (Nat × Background)) (col : Nat) : List UInt8 :=
  (blendColumn image (opened.filterMap Prod.snd) col).getD []

/-- A file of the pass and the background it is for. -/
def InSync (w : PassFaults) (col : Nat) (b : Nat × Background) (file : Nat × Option File) : Prop :=
  file.1 = b.1 ∧
    ((∃ bytes f, b.2 = some bytes ∧ file.2 = some f ∧ w.seekFails b.1 = false ∧ Synced col bytes f) ∨
      (file.2 = none ∧ (b.2 = none ∨ w.seekFails b.1 = true)))

/-- **The backgrounds of a column** are read and laid over each other when all of them can be. -/
theorem readBackgrounds_spec (h : List.Forall₂ (InSync w col) opened files) (dst : List RgbaPixel) :
    (∃ rgba files', readBackgrounds w col files dst = some (rgba, files') ∧
      (∀ b ∈ opened, ReadableAt w col b) ∧ overlay col (opened.filterMap Prod.snd) dst = some rgba ∧
      List.Forall₂ (InSync w (col + 1)) opened files') ∨
    (readBackgrounds w col files dst = none ∧
      ((∀ b ∈ opened, ReadableAt w col b) → overlay col (opened.filterMap Prod.snd) dst = none)) := by
  induction h generalizing dst with
  | nil => exact .inl ⟨dst, [], rfl, fun b hb => absurd hb List.not_mem_nil, rfl, .nil⟩
  | @cons b file opened files hb _ ih =>
    obtain ⟨i, b⟩ := b
    obtain ⟨j, file⟩ := file
    obtain ⟨rfl, ⟨bytes, f, rfl, rfl, hseek, hf⟩ | ⟨rfl, hbad⟩⟩ := hb
    · have hcons : ((j, some bytes) :: opened).filterMap Prod.snd =
          bytes :: opened.filterMap Prod.snd := rfl
      rw [readBackgrounds]
      dsimp only
      cases hread : w.readFails j col with
      | true =>
        refine .inr ⟨rfl, fun hall => ?_⟩
        have := (hall _ List.mem_cons_self).reads
        rw [hread] at this
        cases this
      | false =>
        obtain ⟨rgb, f', hr, hl, hf'⟩ | ⟨hr, hl⟩ := readColumn_spec hf
        · rw [hr, hcons, overlay, hl]
          dsimp only
          obtain ⟨rgba, files', hbs, hall, hover, hsync⟩ | ⟨hbs, hover⟩ :=
            ih (compositeCol dst (rgbToRgbaCol rgb))
          · rw [hbs]
            refine .inl ⟨rgba, _, rfl, ?_, hover,
              .cons ⟨rfl, .inl ⟨bytes, f', rfl, rfl, hseek, hf'⟩⟩ hsync⟩
            exact List.forall_mem_cons.mpr ⟨⟨Option.some_ne_none _, hseek, hread⟩, hall⟩
          · rw [hbs]
            exact .inr ⟨rfl, fun hall => hover (List.forall_mem_cons.mp hall).2⟩
        · rw [hr, hcons, overlay, hl]
          exact .inr ⟨rfl, fun _ => rfl⟩
    · refine .inr ⟨rfl, fun hall => ?_⟩
      obtain ⟨hsound, hseek, -⟩ := (List.forall_mem_cons.mp hall).1
      obtain rfl | hfail := hbad
      · exact absurd rfl hsound
      · rw [hfail] at hseek
        cases hseek

/-- **One column of a pass**: it is read and composed when it can be. -/
theorem readLayers_spec (hf : Synced col image f) (h : List.Forall₂ (InSync w col) opened files) :
    (∃ rgba f' files', readLayers w col f files = some (rgba, f', files') ∧
      Makes w image opened col ∧ rgbaToLedDriverCol rgba = madeColumn image opened col ∧
      Synced (col + 1) image f' ∧ List.Forall₂ (InSync w (col + 1)) opened files') ∨
    (readLayers w col f files = none ∧ ¬ Makes w image opened col) := by
  rw [readLayers]
  cases hread : w.readFails 0 col with
  | true =>
    refine .inr ⟨rfl, fun hm => ?_⟩
    have := hm.reads
    rw [hread] at this
    cases this
  | false =>
    obtain ⟨rgb, f', hr, hl, hf'⟩ | ⟨hr, hl⟩ := readColumn_spec hf
    · rw [hr]
      dsimp only
      obtain ⟨rgba, files', hbs, hall, hover, hsync⟩ | ⟨hbs, hover⟩ :=
        readBackgrounds_spec h (rgbToRgbaCol rgb)
      · rw [hbs]
        have hblend : blendColumn image (opened.filterMap Prod.snd) col =
            some (rgbaToLedDriverCol rgba) := by
          rw [blendColumn, hl]
          dsimp only
          rw [hover, Option.map_some]
        refine .inl ⟨rgba, f', files', rfl, ⟨hread, hall, ?_⟩, ?_, hf', hsync⟩
        · rw [hblend]
          exact Option.some_ne_none _
        · rw [madeColumn, hblend, Option.getD_some]
      · rw [hbs]
        refine .inr ⟨rfl, fun hm => hm.blended ?_⟩
        rw [blendColumn, hl]
        dsimp only
        rw [hover hm.layers, Option.map_none]
    · rw [hr]
      refine .inr ⟨rfl, fun hm => hm.blended ?_⟩
      rw [blendColumn, hl]

/-- How the loop over the columns can end, `n` columns from column `col` on: all of them are made and
written; one is made and its write fails; or one cannot be made, and those before it are written. -/
inductive PassEnd (w : PassFaults) (image : List UInt8) (opened : List (Nat × Background))
    (n col : Nat) (out : List UInt8) : Written → Prop where
  | complete (bytes : List UInt8)
      (hmade : ∀ c, col ≤ c → c < col + n → Makes w image opened c ∧ w.write c = none)
      (hbytes : bytes = out ++ (List.range' col n).flatMap (madeColumn image opened)) :
      PassEnd w image opened n col out ⟨none, bytes, true⟩
  | writeError (c : Nat) (bytes : List UInt8) (hc : col ≤ c ∧ c < col + n)
      (hmade : ∀ c', col ≤ c' → c' ≤ c → Makes w image opened c') (hw : w.write c ≠ none) :
      PassEnd w image opened n col out ⟨some .eacces, bytes, false⟩
  | readError (c : Nat) (bytes : List UInt8) (hc : col ≤ c ∧ c < col + n)
      (hnot : ¬ Makes w image opened c) (hok : ∀ c', col ≤ c' → c' < c → w.write c' = none)
      (hbytes : bytes.length = out.length + POV_LED_DRIVER_COL_BYTES * (c - col)) :
      PassEnd w image opened n col out ⟨none, bytes, false⟩

theorem length_tlc5971PackChip (r g b : Nat → UInt16) : (tlc5971PackChip r g b).length = 28 := rfl

theorem length_rgbaToLedDriverCol (rgba : List RgbaPixel) :
    (rgbaToLedDriverCol rgba).length = POV_LED_DRIVER_COL_BYTES := by
  simp only [rgbaToLedDriverCol, List.length_flatMap, length_tlc5971PackChip, List.map_const',
    List.length_range, List.sum_replicate_nat]
  rfl

/-- **A pass over an image** ends in one of these ways. -/
theorem composeColumns_end (n : Nat) (out : List UInt8) (hf : Synced col image f)
    (h : List.Forall₂ (InSync w col) opened files) :
    PassEnd w image opened n col out (composeColumns w n col f files out) := by
  induction n generalizing col f files out with
  | zero =>
    refine .complete out (fun c h1 h2 => by omega) ?_
    rw [List.range'_zero, List.flatMap_nil, List.append_nil]
  | succ n ih =>
    rw [composeColumns]
    obtain ⟨rgba, f', files', hread, hm, hcol, hf', hsync⟩ | ⟨hread, hnot⟩ := readLayers_spec hf h
    · rw [hread]
      dsimp only
      cases hw : w.write col with
      | some t =>
        refine .writeError col _ ⟨le_rfl, by omega⟩ (fun c' h1 h2 => ?_) ?_
        · obtain rfl : c' = col := by omega
          exact hm
        · rw [hw]
          exact Option.some_ne_none t
      | none =>
        dsimp only
        have hend := ih (out ++ rgbaToLedDriverCol rgba) hf' hsync
        generalize composeColumns w n (col + 1) f' files' (out ++ rgbaToLedDriverCol rgba) = r
          at hend ⊢
        -- column `col` comes before what the rest of the loop did
        cases hend with
        | complete bytes hmade hbytes =>
          refine .complete bytes (fun c h1 h2 => ?_) ?_
          · obtain rfl | hlt := Nat.eq_or_lt_of_le h1
            · exact ⟨hm, hw⟩
            · exact hmade c hlt (by omega)
          · rw [hbytes, List.range'_succ, List.flatMap_cons, hcol, List.append_assoc]
        | writeError c bytes hc hmade hwc =>
          refine .writeError c bytes ⟨by omega, by omega⟩ (fun c' h1 h2 => ?_) hwc
          obtain rfl | hlt := Nat.eq_or_lt_of_le h1
          · exact hm
          · exact hmade c' hlt h2
        | readError c bytes hc hnot hok hbytes =>
          refine .readError c bytes ⟨by omega, by omega⟩ hnot (fun c' h1 h2 => ?_) ?_
          · obtain rfl | hlt := Nat.eq_or_lt_of_le h1
            · exact hw
            · exact hok c' hlt h2
          · have hsub : c - col = (c - (col + 1)) + 1 := by omega
            rw [hbytes, List.length_append, length_rgbaToLedDriverCol, hsub, Nat.mul_succ]
            omega
    · rw [hread]
      refine .readError col out ⟨le_rfl, by omega⟩ hnot (fun c' h1 h2 => by omega) ?_
      rw [Nat.sub_self, Nat.mul_zero, Nat.add_zero]

end Pass

/-! ### What is left of an image -/

section Image

variable {w : PassFaults} {opened : List (Nat × Background)} {f : LayerFile}
  {backgrounds : List (List UInt8)} {old : Option (List UInt8)}

/-- A file of `layer0` that is an image by its name and passes `validate_raw_layer_file`. -/
structure LayerFile.Valid (f : LayerFile) : Prop where
  dir   : f.dir = false
  image : isPov f.name = true
  raw   : validateRawLayerFile f.bytes.length f.header true = .ok ()

/-- **The claim on a file of `blend`**: it is there, and its columns are the packed compositions of
an image and its backgrounds. -/
structure Composed (contents : Option (List UInt8)) (image : List UInt8)
    (backgrounds : List (List UInt8)) : Prop where
  present : ∀ col < POV_DISPLAY_COLS, blendColumn image backgrounds col ≠ none
  columns : ∃ bytes, contents = some bytes ∧ bytes.drop POV_IMAGE_HEADER_SIZE =
    (List.range POV_DISPLAY_COLS).flatMap fun col => (blendColumn image backgrounds col).getD []

/-- A file is created for an image. -/
structure Taken (w : PassFaults) (old : Option (List UInt8)) : Prop where
  missing : old = none ∨ w.findFails = true
  opens   : w.openFails = false
  reads   : w.headerFails = false
  creates : w.createFails = false

/-- A column is made and its write fails. -/
def WriteFails (w : PassFaults) (image : List UInt8) (opened : List (Nat × Background)) : Prop :=
  w.writeHeader = none ∧ ∃ c < POV_DISPLAY_COLS, w.write c ≠ none ∧
    ∀ c' ≤ c, Makes w image opened c'

/-- The header is written, and every column is made. -/
def Completes (w : PassFaults) (image : List UInt8) (opened : List (Nat × Background)) : Prop :=
  w.writeHeader = none ∧ ∀ c < POV_DISPLAY_COLS, Makes w image opened c

/-- The contents of the backgrounds have room for a header. -/
def Sound (opened : List (Nat × Background)) : Prop :=
  ∀ b ∈ opened, ∀ bytes, b.2 = some bytes → POV_IMAGE_HEADER_SIZE ≤ bytes.length

theorem validateRaw_ok {size : Nat} {header : ImageHeader} {require : Bool}
    (h : validateRawLayerFile size header require = .ok ()) :
    POV_IMAGE_HEADER_SIZE ≤ size ∧ (require = true → header.columns = POV_DISPLAY_COLS) := by
  rw [validateRawLayerFile] at h
  split at h
  · cases h
  split at h
  · cases h
  split at h
  · cases h
  split at h
  · cases h
  split at h
  · cases h
  rename_i hgeometry _ _ hsize
  refine ⟨Nat.le_of_not_lt hsize, fun hreq => ?_⟩
  by_contra hne
  exact hgeometry (.inr (.inr ⟨hreq, hne⟩))

theorem inSync_rewind (h : Sound opened) :
    List.Forall₂ (InSync w 0) opened (opened.map (rewind w)) := by
  induction opened with
  | nil => exact .nil
  | cons b opened ih =>
    refine .cons ⟨rfl, ?_⟩ (ih fun b' hb' => h b' (List.mem_cons_of_mem _ hb'))
    obtain ⟨i, b⟩ := b
    rw [rewind]
    cases hs : w.seekFails i with
    | true => exact .inr ⟨rfl, .inr rfl⟩
    | false =>
      cases b with
      | none => exact .inr ⟨rfl, .inl rfl⟩
      | some bytes =>
        exact .inl ⟨bytes, _, rfl, rfl, rfl, synced_zero (h _ List.mem_cons_self bytes rfl)⟩

/-- The header of a file of `blend`. -/
def blendHeader : List UInt8 :=
  (imageHeaderInit POV_PAYLOAD_LED_DRIVER POV_LED_DRIVER_COL_BYTES POV_DISPLAY_COLS).toBytes

theorem length_blendHeader : blendHeader.length = POV_IMAGE_HEADER_SIZE := rfl

/-- The length of a file of `blend` with all of its columns. -/
def blendSize : Nat := POV_IMAGE_HEADER_SIZE + POV_LED_DRIVER_COL_BYTES * POV_DISPLAY_COLS

/-- What is written for an image, once its file is created: all of its columns, or too little. -/
structure Wrote (w : PassFaults) (image : List UInt8) (opened : List (Nat × Background)) (r : Written) :
    Prop where
  error : r.error = none ↔ ¬ WriteFails w image opened
  whole : Completes w image opened → ¬ WriteFails w image opened → r.complete = true ∧
    r.bytes.drop POV_IMAGE_HEADER_SIZE =
      (List.range POV_DISPLAY_COLS).flatMap (madeColumn image opened)
  short : ¬ Completes w image opened → ¬ WriteFails w image opened → r.complete = false ∧
    r.bytes.length < blendSize

theorem PassEnd.wrote {r : Written} {image : List UInt8}
    (h : PassEnd w image opened POV_DISPLAY_COLS 0 blendHeader r) (hheader : w.writeHeader = none) :
    Wrote w image opened r := by
  cases h with
  | complete bytes hmade hbytes =>
    refine ⟨iff_of_true rfl ?_, fun _ _ => ⟨rfl, ?_⟩, fun hnot _ => ?_⟩
    · rintro ⟨-, c, hc, hw, -⟩
      exact hw (hmade c (Nat.zero_le c) (by omega)).2
    · rw [hbytes, ← length_blendHeader, List.drop_left, List.range_eq_range']
    · exact absurd ⟨hheader, fun c hc => (hmade c (Nat.zero_le c) (by omega)).1⟩ hnot
  | writeError c bytes hc hmade hw =>
    have hfails : WriteFails w image opened :=
      ⟨hheader, c, by omega, hw, fun c' hc' => hmade c' (Nat.zero_le c') hc'⟩
    exact ⟨iff_of_false (Option.some_ne_none _) fun hnot => hnot hfails,
      fun _ hnot => absurd hfails hnot, fun _ hnot => absurd hfails hnot⟩
  | readError c bytes hc hnot hok hbytes =>
    refine ⟨iff_of_true rfl ?_, fun hall _ => ?_, fun _ _ => ⟨rfl, ?_⟩⟩
    · rintro ⟨-, c', -, hw, hmade⟩
      by_cases hlt : c' < c
      · exact hw (hok c' (Nat.zero_le c') hlt)
      · exact hnot (hmade c (by omega))
    · exact absurd (hall.2 c (by omega)) hnot
    · dsimp only
      rw [hbytes, length_blendHeader, Nat.sub_zero]
      exact Nat.add_lt_add_left (Nat.mul_lt_mul_of_pos_left (by omega) (by decide)) _

theorem writeBlend_wrote (hs : Sound opened) (hsize : POV_IMAGE_HEADER_SIZE ≤ f.bytes.length) :
    Wrote w f.bytes opened
      (writeBlend w opened ⟨f.bytes, POV_IMAGE_HEADER_SIZE⟩ POV_DISPLAY_COLS) := by
  rw [writeBlend]
  cases hw : w.writeHeader with
  | some t =>
    have hnone : w.writeHeader ≠ none := by
      rw [hw]
      exact Option.some_ne_none t
    refine ⟨iff_of_true rfl fun h => hnone h.1, fun h => absurd h.1 hnone, fun _ _ => ⟨rfl, ?_⟩⟩
    dsimp only
    rw [List.length_take]
    calc min t blendHeader.length ≤ POV_IMAGE_HEADER_SIZE := Nat.min_le_right _ _
      _ < blendSize := Nat.lt_add_of_pos_right (by decide)
  | none =>
    dsimp only
    rw [if_neg (by decide)]
    exact (composeColumns_end _ _ (synced_zero hsize) (inSync_rewind hs)).wrote hw

/-- An image that is not taken leaves its file as it was. -/
theorem composeImage_of_not_taken (h : ¬ Taken w old) : composeImage w opened f old = (none, old) := by
  rw [composeImage]
  split
  · rfl
  · rename_i hmissing
    split
    · rfl
    · rename_i hopens
      dsimp only
      split
      · rfl
      · rename_i hreads
        split
        · rfl
        · split
          · rfl
          · rename_i hcreates
            refine absurd ⟨?_, ?_, ?_, ?_⟩ h
            · cases old with
              | none => exact .inl rfl
              | some bytes =>
                refine .inr ?_
                by_contra hne
                exact hmissing ⟨rfl, Bool.not_eq_true _ ▸ hne⟩
            · exact Bool.not_eq_true _ ▸ hopens
            · exact Bool.not_eq_true _ ▸ fun h => hreads (.inl h)
            · exact Bool.not_eq_true _ ▸ hcreates

/-- An image that is taken is written. -/
theorem composeImage_of_taken (hv : f.Valid) (h : Taken w old) :
    composeImage w opened f old =
      let written := writeBlend w opened ⟨f.bytes, POV_IMAGE_HEADER_SIZE⟩ POV_DISPLAY_COLS
      (written.error, if written.complete = true ∨ w.unlinkFails = true then
        some (if w.closeFails then [] else written.bytes) else none) := by
  obtain ⟨hsize, hcols⟩ := validateRaw_ok hv.raw
  have hread : (File.mk f.bytes 0).read POV_IMAGE_HEADER_SIZE =
      (slice f.bytes 0 POV_IMAGE_HEADER_SIZE, ⟨f.bytes, POV_IMAGE_HEADER_SIZE⟩) := by
    rw [File.read_full ((Nat.zero_add _).trans_le hsize), Nat.zero_add]
  have hlen : (slice f.bytes 0 POV_IMAGE_HEADER_SIZE).length = POV_IMAGE_HEADER_SIZE := by
    rw [length_slice]
    omega
  have hmissing : ¬ (old.isSome = true ∧ w.findFails = false) := by
    rintro ⟨hsome, hfind⟩
    obtain rfl | hfails := h.missing
    · cases hsome
    · rw [hfails] at hfind
      cases hfind
  have hraw : validateRawLayerFile f.bytes.length
      (.ofBytes (slice f.bytes 0 POV_IMAGE_HEADER_SIZE)) true = .ok () := hv.raw
  have hcolumns : (ImageHeader.ofBytes (slice f.bytes 0 POV_IMAGE_HEADER_SIZE)).columns =
      POV_DISPLAY_COLS := hcols rfl
  rw [composeImage, if_neg hmissing, h.opens, if_neg Bool.false_ne_true, hread]
  dsimp only
  rw [h.reads, hlen, if_neg (by simp), File.size, hraw, if_neg (fun hne => hne rfl), h.creates,
    if_neg Bool.false_ne_true, hcolumns]

theorem length_blendColumn {image c : List UInt8} {col : Nat}
    (h : blendColumn image backgrounds col = some c) : c.length = POV_LED_DRIVER_COL_BYTES := by
  rw [blendColumn] at h
  cases hl : layerColumn image col with
  | none =>
    rw [hl] at h
    cases h
  | some rgb =>
    rw [hl] at h
    obtain ⟨rgba, -, rfl⟩ := Option.map_eq_some_iff.mp h
    exact length_rgbaToLedDriverCol rgba

theorem length_getD_blendColumn {image : List UInt8} {col : Nat}
    (h : blendColumn image backgrounds col ≠ none) :
    ((blendColumn image backgrounds col).getD []).length = POV_LED_DRIVER_COL_BYTES := by
  obtain ⟨c, hc⟩ := Option.ne_none_iff_exists'.mp h
  rw [hc, Option.getD_some, length_blendColumn hc]

/-- A file with a composition in it has all of its columns. -/
theorem Composed.length {bytes image : List UInt8} (h : Composed (some bytes) image backgrounds) :
    bytes.length = blendSize := by
  obtain ⟨hall, bytes', hsome, hdrop⟩ := h
  cases hsome
  have hlen := congrArg List.length hdrop
  rw [List.length_drop, length_flatMap_range fun col hcol => length_getD_blendColumn (hall col hcol)]
    at hlen
  have hpos : 0 < POV_LED_DRIVER_COL_BYTES * POV_DISPLAY_COLS := by decide
  rw [blendSize]
  omega

/-- The columns that were made are the composition when they are the same, one by one. -/
theorem composed_made_iff {bytes image : List UInt8}
    (hmade : ∀ c < POV_DISPLAY_COLS, blendColumn image (opened.filterMap Prod.snd) c ≠ none)
    (hdrop : bytes.drop POV_IMAGE_HEADER_SIZE =
      (List.range POV_DISPLAY_COLS).flatMap (madeColumn image opened)) :
    Composed (some bytes) image backgrounds ↔ ∀ col < POV_DISPLAY_COLS,
      blendColumn image (opened.filterMap Prod.snd) col = blendColumn image backgrounds col := by
  refine ⟨fun ⟨hall, bytes', hsome, hcols⟩ => ?_,
    fun heq => ⟨fun col hcol => heq col hcol ▸ hmade col hcol, bytes, rfl, ?_⟩⟩
  · cases hsome
    rw [hdrop] at hcols
    intro col hcol
    have hsame := flatMap_range_inj (fun c hc => length_getD_blendColumn (hmade c hc))
      (fun c hc => length_getD_blendColumn (hall c hc)) hcols col hcol
    obtain ⟨x, hx⟩ := Option.ne_none_iff_exists'.mp (hmade col hcol)
    obtain ⟨y, hy⟩ := Option.ne_none_iff_exists'.mp (hall col hcol)
    rw [hx, hy] at hsame ⊢
    exact congrArg some hsame
  · rw [hdrop]
    refine List.flatMap_congr fun col hcol => ?_
    rw [madeColumn, heq col (List.mem_range.mp hcol)]

theorem composeImage_ok_iff (hs : Sound opened) (hv : f.Valid) (h : Taken w old) :
    (composeImage w opened f old).1 = none ↔ ¬ WriteFails w f.bytes opened := by
  rw [composeImage_of_taken hv h]
  exact (writeBlend_wrote hs (validateRaw_ok hv.raw).1).error

/-- **What is left of an image that is taken**, when no write fails: its composition, when every
column was made, from the right backgrounds, and the file was closed. -/
theorem composeImage_composed_iff (hs : Sound opened) (hv : f.Valid) (h : Taken w old)
    (hw : ¬ WriteFails w f.bytes opened) :
    Composed (composeImage w opened f old).2 f.bytes backgrounds ↔
      Completes w f.bytes opened ∧ w.closeFails = false ∧ ∀ col < POV_DISPLAY_COLS,
        blendColumn f.bytes (opened.filterMap Prod.snd) col = blendColumn f.bytes backgrounds col := by
  have hwrote : Wrote w f.bytes opened _ := writeBlend_wrote hs (validateRaw_ok hv.raw).1
  rw [composeImage_of_taken hv h]
  dsimp only
  generalize writeBlend w opened ⟨f.bytes, POV_IMAGE_HEADER_SIZE⟩ POV_DISPLAY_COLS = r at hwrote ⊢
  -- the file was removed, or what is left of it has all of its columns
  have hlen : Composed (if r.complete = true ∨ w.unlinkFails = true then
      some (if w.closeFails then [] else r.bytes) else none) f.bytes backgrounds →
      (if w.closeFails then [] else r.bytes).length = blendSize := by
    intro hcomp
    split at hcomp
    · exact hcomp.length
    · obtain ⟨-, bytes, hnone, -⟩ := hcomp
      cases hnone
  cases hclose : w.closeFails with
  | true =>
    refine iff_of_false (fun hcomp => ?_) fun hc => Bool.noConfusion hc.2.1
    rw [hclose] at hlen
    have hzero := hlen hcomp
    rw [if_pos rfl] at hzero
    exact absurd hzero (by decide)
  | false =>
    rw [hclose] at hlen
    rw [if_neg Bool.false_ne_true] at hlen ⊢
    by_cases hall : Completes w f.bytes opened
    · obtain ⟨hcomplete, hdrop⟩ := hwrote.whole hall hw
      rw [if_pos (.inl hcomplete), composed_made_iff (fun c hc => (hall.2 c hc).blended) hdrop]
      exact ⟨fun heq => ⟨hall, rfl, heq⟩, fun h => h.2.2⟩
    · refine iff_of_false (fun hcomp => ?_) fun h => hall h.1
      exact Nat.ne_of_lt (hwrote.short hall hw).2 (hlen hcomp)

end Image

end Kinetis.Pov
