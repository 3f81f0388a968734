import Kinetis.Lib.Writes
import Kinetis.Pov.BlendPass
import Kinetis.Pov.Tlc5971
import Mathlib.Data.List.Perm.Basic

/-!
# Pov — a column on its way to the LEDs

`rgba_to_led_driver_col` writes the packets of a column into a buffer: 4 groups of 16 chips of 4 LEDs,
the last chip of a group first.  `ledDriverWrites` is what it writes, byte by byte and in the order
of the code, and `decodeColumn` is what the chips of the four groups read off the buffer.

* `mirrored_perm`: the numbering by group, mirrored chip and place in the chip is a permutation; it
  numbers the bytes of the buffer as well as the LEDs.
* `ledDriverWrites_fill`: whatever the buffer held, it holds `rgbaToLedDriverCol` in the end.
* `rgbaToLedDriverCol_decodes`: each byte is written once, each LED is read once, and with its own
  colours.
-/

namespace Kinetis.Pov
open Lib

def POV_LED_DRIVER_PACKET_BYTES : Nat := 28

/-! ### The writes -/

/-- `tlc5971_pack_header`, as offsets and bytes. -/
def packHeaderWrites (outtmg extgck tmgrst dsprpt blank bcb bcg bcr : UInt8) : List (Nat × UInt8) :=
  [(0, TLC5971_WRITE_CMD <<< 2 ||| flag outtmg <<< 1 ||| flag extgck),
    (1, flag tmgrst <<< 7 ||| flag dsprpt <<< 6 ||| flag blank <<< 5 ||| (bcb &&& 0x7F) >>> 2),
    (2, (bcb &&& 0x03) <<< 6 ||| (bcg &&& 0x7F) >>> 1),
    (3, (bcg &&& 0x01) <<< 7 ||| (bcr &&& 0x7F))]

/-- `tlc5971_pack_gs`; the loop runs from the last LED down. -/
def packGsWrites (gsR gsG gsB : Nat → UInt16) : List (Nat × UInt8) :=
  (List.range TLC5971_LEDS_PER_DEVICE).flatMap fun k =>
    let i := TLC5971_LEDS_PER_DEVICE - 1 - k
    let off := 4 + (TLC5971_LEDS_PER_DEVICE - 1 - i) * 6
    [(off + 0, (gsB i >>> 8).toUInt8), (off + 1, (gsB i &&& 0xFF).toUInt8),
      (off + 2, (gsG i >>> 8).toUInt8), (off + 3, (gsG i &&& 0xFF).toUInt8),
      (off + 4, (gsR i >>> 8).toUInt8), (off + 5, (gsR i &&& 0xFF).toUInt8)]

/-- `tlc5971_pack_chip`. -/
def packChipWrites (gsR gsG gsB : Nat → UInt16) : List (Nat × UInt8) :=
  packHeaderWrites 1 0 0 1 0 0x7F 0x7F 0x7F ++ packGsWrites gsR gsG gsB

/-- The grayscale values of an LED. -/
def ledOf (rgba : List RgbaPixel) (px : Nat) : Tlc5971Led where
  r := tlc5971Rgb8ToGs (rgba.getD px default).red
  g := tlc5971Rgb8ToGs (rgba.getD px default).green
  b := tlc5971Rgb8ToGs (rgba.getD px default).blue

/-- `rgba_to_led_driver_col`, as offsets and bytes in the order of the code. -/
def ledDriverWrites (rgba : List RgbaPixel) : List (Nat × UInt8) :=
  (List.range POV_SPI_GROUPS).flatMap fun group =>
    (List.range POV_LED_DRIVER_IC_PER_GROUP).flatMap fun ic =>
      let base := group * POV_LEDS_PER_GROUP + ic * POV_LED_DRIVER_LEDS_PER_IC
      let wireIc := POV_LED_DRIVER_IC_PER_GROUP - 1 - ic
      (packChipWrites (fun l => (ledOf rgba (base + l)).r) (fun l => (ledOf rgba (base + l)).g)
        (fun l => (ledOf rgba (base + l)).b)).map fun w =>
          (group * POV_LED_DRIVER_GROUP_BYTES + wireIc * POV_LED_DRIVER_PACKET_BYTES + w.1, w.2)

/-- What the chips read: packet `w` of a group is that of the chip `15 - w`. -/
def decodeColumn (out : List UInt8) : List (Nat × Tlc5971Led) :=
  (List.range POV_SPI_GROUPS).flatMap fun group =>
    (List.range POV_LED_DRIVER_IC_PER_GROUP).flatMap fun w =>
      (List.range POV_LED_DRIVER_LEDS_PER_IC).map fun l =>
        (group * POV_LEDS_PER_GROUP +
            (POV_LED_DRIVER_IC_PER_GROUP - 1 - w) * POV_LED_DRIVER_LEDS_PER_IC + l,
          decodeLed (slice out (group * POV_LED_DRIVER_GROUP_BYTES +
            w * POV_LED_DRIVER_PACKET_BYTES) POV_LED_DRIVER_PACKET_BYTES) l)

/-! ### Groups, mirrored chips, places -/

/-- Numbers by group, chip from the last to the first, and place among `k` in the chip. -/
def mirrored (k : Nat) : List Nat :=
  (List.range 4).flatMap fun group =>
    (List.range 16).flatMap fun ic =>
      (List.range k).map fun i => group * (16 * k) + (15 - ic) * k + i

/-- Blocks of `k` numbers, one after the other. -/
theorem flatMap_blocks (m k : Nat) :
    ((List.range m).flatMap fun i => (List.range k).map (i * k + ·)) = List.range (m * k) := by
  induction m with
  | zero => rw [Nat.zero_mul]; rfl
  | succ m ih =>
    rw [List.range_succ, List.flatMap_append, ih, List.flatMap_singleton, Nat.succ_mul,
      List.range_add]

/-- **The mirrored numbering** reaches each number once. -/
theorem mirrored_perm (k : Nat) : (mirrored k).Perm (List.range (64 * k)) := by
  have hgroup : ∀ group, ((List.range 16).flatMap fun ic =>
      (List.range k).map fun i => group * (16 * k) + (15 - ic) * k + i).Perm
        ((List.range (16 * k)).map (group * (16 * k) + ·)) := by
    intro group
    have hrev : (List.range 16).map (15 - ·) = (List.range 16).reverse := by decide
    have hblocks : ((List.range 16).reverse.flatMap fun w =>
        (List.range k).map fun i => group * (16 * k) + w * k + i).Perm
          ((List.range 16).flatMap fun w => (List.range k).map fun i => group * (16 * k) + w * k + i) :=
      (List.reverse_perm _).flatMap_right _
    rw [← hrev, List.flatMap_map] at hblocks
    refine hblocks.trans (.of_eq ?_)
    rw [← flatMap_blocks 16 k, List.map_flatMap]
    simp only [List.map_map, Function.comp_def, Nat.add_assoc]
  have hall : 64 * k = 4 * (16 * k) := by omega
  rw [hall, ← flatMap_blocks 4 (16 * k)]
  exact List.Perm.flatMap_left _ fun group _ => hgroup group

/-! ### The packets in the buffer -/

section column

variable (rgba : List RgbaPixel)

/-- The packet of a chip. -/
def columnChip (group ic : Nat) : List UInt8 :=
  let base := group * POV_LEDS_PER_GROUP + ic * POV_LED_DRIVER_LEDS_PER_IC
  tlc5971PackChip (fun l => (ledOf rgba (base + l)).r) (fun l => (ledOf rgba (base + l)).g)
    (fun l => (ledOf rgba (base + l)).b)

theorem length_columnChip (group ic : Nat) : (columnChip rgba group ic).length = 28 := rfl

/-- The packets of a group, the last chip first. -/
def columnGroup (group : Nat) : List UInt8 :=
  (List.range 16).flatMap fun w => columnChip rgba group (15 - w)

theorem length_columnGroup (group : Nat) : (columnGroup rgba group).length = 448 :=
  length_flatMap_range fun w _ => length_columnChip rgba group (15 - w)

theorem rgbaToLedDriverCol_eq :
    rgbaToLedDriverCol rgba = (List.range 4).flatMap (columnGroup rgba) := rfl

/-- The packet at place `w` of a group. -/
theorem slice_rgbaToLedDriverCol {group w : Nat} (hgroup : group < 4) (hw : w < 16) :
    slice (rgbaToLedDriverCol rgba) (group * 448 + w * 28) 28 = columnChip rgba group (15 - w) := by
  have hin := slice_flatMap_range (fun g _ => length_columnGroup rgba g) hgroup
  have hin' := slice_flatMap_range (fun v _ => length_columnChip rgba group (15 - v)) hw
  rw [rgbaToLedDriverCol_eq, Nat.mul_comm group, Nat.mul_comm w,
    ← slice_slice _ _ _ (by omega : 28 * w + 28 ≤ 448), hin]
  exact hin'

/-! ### Every byte is written, with its value -/

theorem packChipWrites_eq (gsR gsG gsB : Nat → UInt16) :
    packChipWrites gsR gsG gsB =
      (List.range 28).zip (tlc5971PackChip gsR gsG gsB) := rfl

theorem ledDriverWrites_offsets : (ledDriverWrites rgba).map Prod.fst = mirrored 28 := by
  simp only [ledDriverWrites, List.map_flatMap, List.map_map, Function.comp_def]
  rfl

theorem ledDriverWrites_value {w : Nat × UInt8} (hw : w ∈ ledDriverWrites rgba) :
    (rgbaToLedDriverCol rgba)[w.1]? = some w.2 := by
  obtain ⟨group, hgroup, hw⟩ := List.mem_flatMap.mp hw
  obtain ⟨ic, hic, hw⟩ := List.mem_flatMap.mp hw
  obtain ⟨⟨i, b⟩, hb, rfl⟩ := List.mem_map.mp hw
  have hgroup : group < 4 := List.mem_range.mp hgroup
  have hic : ic < 16 := List.mem_range.mp hic
  obtain ⟨j, hj⟩ := List.mem_iff_getElem?.mp hb
  rw [packChipWrites_eq, List.getElem?_zip_eq_some] at hj
  obtain ⟨hij, hbyte⟩ := hj
  obtain ⟨hj28, rfl⟩ : ∃ h : j < 28, j = i := by
    obtain ⟨hlt, hval⟩ := List.getElem?_eq_some_iff.mp hij
    rw [List.getElem_range] at hval
    exact ⟨hlt, hval⟩
  have hchip : (columnChip rgba group (15 - (15 - ic)))[j]? = some b := by
    rw [Nat.sub_sub_self (by omega)]
    exact hbyte
  rw [← slice_rgbaToLedDriverCol rgba hgroup (by omega), slice, List.getElem?_take_of_lt hj28,
    List.getElem?_drop] at hchip
  exact hchip

/-- **The buffer is filled**, whatever it held. -/
theorem ledDriverWrites_fill {out : List UInt8} (hout : out.length = POV_LED_DRIVER_COL_BYTES) :
    applyWrites out (ledDriverWrites rgba) = rgbaToLedDriverCol rgba := by
  refine applyWrites_eq (hout.trans (length_rgbaToLedDriverCol rgba).symm)
    (fun w hw => ledDriverWrites_value rgba hw) fun i hi => ?_
  rw [ledDriverWrites_offsets, (mirrored_perm 28).mem_iff, List.mem_range]
  rwa [length_rgbaToLedDriverCol] at hi

/-! ### Every LED is read, with its colours -/

theorem decodeLed_columnChip {group ic l : Nat} (hl : l < 4) :
    decodeLed (columnChip rgba group ic) l = ledOf rgba (group * 64 + ic * 4 + l) :=
  decodeLed_pack rfl _ _ _ hl

theorem decodeColumn_eq :
    decodeColumn (rgbaToLedDriverCol rgba) = (mirrored 4).map fun px => (px, ledOf rgba px) := by
  simp only [mirrored, List.map_flatMap, List.map_map, Function.comp_def]
  refine List.flatMap_congr fun group hgroup => List.flatMap_congr fun w hw =>
    List.map_congr_left fun l hl => ?_
  have hpacket := slice_rgbaToLedDriverCol rgba (List.mem_range.mp hgroup) (List.mem_range.mp hw)
  exact congrArg _ ((congrArg (decodeLed · l) hpacket).trans
    (decodeLed_columnChip rgba (List.mem_range.mp hl)))

end column

theorem tlc5971Rgb8ToGs_injective {v v' : UInt8} (h : tlc5971Rgb8ToGs v = tlc5971Rgb8ToGs v') :
    v = v' := by
  have key : ∀ n : Fin 256, (tlc5971Rgb8ToGs (UInt8.ofNat n)).toUInt8 = UInt8.ofNat n := by
    decide +kernel
  have hback : ∀ v : UInt8, (tlc5971Rgb8ToGs v).toUInt8 = v := by
    intro v
    obtain ⟨n, rfl⟩ := exists_fin v.toNat_lt
    exact key n
  rw [← hback v, h, hback]

/-- Columns with the same bytes have the same colours. -/
theorem rgbaToLedDriverCol_inj {rgba rgba' : List RgbaPixel}
    (h : rgbaToLedDriverCol rgba = rgbaToLedDriverCol rgba') {px : Nat} (hpx : px < POV_LED_COUNT) :
    (rgba.getD px default).red = (rgba'.getD px default).red ∧
      (rgba.getD px default).green = (rgba'.getD px default).green ∧
      (rgba.getD px default).blue = (rgba'.getD px default).blue := by
  have hcol := congrArg decodeColumn h
  rw [decodeColumn_eq, decodeColumn_eq] at hcol
  have hmem : px ∈ mirrored 4 := (mirrored_perm 4).mem_iff.mpr (List.mem_range.mpr hpx)
  have hled : ledOf rgba px = ledOf rgba' px :=
    (Prod.mk.inj (List.map_inj_left.mp hcol px hmem)).2
  obtain ⟨hr, hg, hb⟩ := Tlc5971Led.mk.inj hled
  exact ⟨tlc5971Rgb8ToGs_injective hr, tlc5971Rgb8ToGs_injective hg, tlc5971Rgb8ToGs_injective hb⟩

/-- **A column reaches its LEDs.**  Every byte of the buffer is written once, the chips read the
grayscale values of every LED once and no others, and columns of different colours differ. -/
theorem rgbaToLedDriverCol_decodes (rgba : List RgbaPixel) (out : List UInt8)
    (hout : out.length = POV_LED_DRIVER_COL_BYTES) :
    ((ledDriverWrites rgba).map Prod.fst).Perm (List.range POV_LED_DRIVER_COL_BYTES) ∧
    applyWrites out (ledDriverWrites rgba) = rgbaToLedDriverCol rgba ∧
    (decodeColumn (applyWrites out (ledDriverWrites rgba))).Perm
      ((List.range POV_LED_COUNT).map fun px => (px, ledOf rgba px)) ∧
    ∀ rgba', rgbaToLedDriverCol rgba = rgbaToLedDriverCol rgba' → ∀ px < POV_LED_COUNT,
      (rgba.getD px default).red = (rgba'.getD px default).red ∧
        (rgba.getD px default).green = (rgba'.getD px default).green ∧
        (rgba.getD px default).blue = (rgba'.getD px default).blue := by
  refine ⟨?_, ledDriverWrites_fill rgba hout, ?_, fun rgba' h px hpx => rgbaToLedDriverCol_inj h hpx⟩
  · rw [ledDriverWrites_offsets]
    exact mirrored_perm 28
  · rw [ledDriverWrites_fill rgba hout, decodeColumn_eq]
    exact (mirrored_perm 4).map _

theorem rgbaToLedDriverCol_decodes_white :
    applyWrites (List.replicate 1792 0) (ledDriverWrites (List.replicate 256 ⟨255, 255, 255, 255⟩)) =
      rgbaToLedDriverCol (List.replicate 256 ⟨255, 255, 255, 255⟩) :=
  (rgbaToLedDriverCol_decodes _ _ List.length_replicate).2.1

end Kinetis.Pov
