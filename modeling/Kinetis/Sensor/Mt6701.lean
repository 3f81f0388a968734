import Mathlib.Data.Nat.Bitwise
import Mathlib.Tactic.IntervalCases

/-!
# Sensor — the frames of the MT6701

The angle sensor sends 24 bits: 14 of the angle, 4 of the magnetic status and 6 of a CRC over both.
The simulation builds such frames and `mt6701_read_angle_ssi` takes them apart.  The constant
`SSI_CRC_SHIFT` is 0 in this source, so that the frame is built with its CRC over the low bits of the
data, and the CRC is checked over the low 18 bits of the frame.  What is left of the round trip is
`ssi_round_trip_iff`.

Words are natural numbers: no shift here leaves its word.
-/

namespace Kinetis.Sensor

def SSI_ANGLE_SHIFT : Nat := 10
def SSI_ANGLE_MASK : Nat := 0x3FFF
def SSI_MG_SHIFT : Nat := 6
def SSI_MG_MASK : Nat := 0x0F
def SSI_CRC_SHIFT : Nat := 0
def SSI_CRC_MASK : Nat := 0x3F
def MT6701_CRC6_BITS : Nat := 18

def crc6_table : List Nat :=
  [
    0x00, 0x03, 0x06, 0x05, 0x0C, 0x0F, 0x0A, 0x09, 0x18, 0x1B, 0x1E, 0x1D, 0x14, 0x17, 0x12, 0x11,
    0x30, 0x33, 0x36, 0x35, 0x3C, 0x3F, 0x3A, 0x39, 0x28, 0x2B, 0x2E, 0x2D, 0x24, 0x27, 0x22, 0x21,
    0x23, 0x20, 0x25, 0x26, 0x2F, 0x2C, 0x29, 0x2A, 0x3B, 0x38, 0x3D, 0x3E, 0x37, 0x34, 0x31, 0x32,
    0x13, 0x10, 0x15, 0x16, 0x1F, 0x1C, 0x19, 0x1A, 0x0B, 0x08, 0x0D, 0x0E, 0x07, 0x04, 0x01, 0x02,
    0x05, 0x06, 0x03, 0x00, 0x09, 0x0A, 0x0F, 0x0C, 0x1D, 0x1E, 0x1B, 0x18, 0x11, 0x12, 0x17, 0x14,
    0x35, 0x36, 0x33, 0x30, 0x39, 0x3A, 0x3F, 0x3C, 0x2D, 0x2E, 0x2B, 0x28, 0x21, 0x22, 0x27, 0x24,
    0x26, 0x25, 0x20, 0x23, 0x2A, 0x29, 0x2C, 0x2F, 0x3E, 0x3D, 0x38, 0x3B, 0x32, 0x31, 0x34, 0x37,
    0x16, 0x15, 0x10, 0x13, 0x1A, 0x19, 0x1C, 0x1F, 0x0E, 0x0D, 0x08, 0x0B, 0x02, 0x01, 0x04, 0x07,
    0x0A, 0x09, 0x0C, 0x0F, 0x06, 0x05, 0x00, 0x03, 0x12, 0x11, 0x14, 0x17, 0x1E, 0x1D, 0x18, 0x1B,
    0x3A, 0x39, 0x3C, 0x3F, 0x36, 0x35, 0x30, 0x33, 0x22, 0x21, 0x24, 0x27, 0x2E, 0x2D, 0x28, 0x2B,
    0x29, 0x2A, 0x2F, 0x2C, 0x25, 0x26, 0x23, 0x20, 0x31, 0x32, 0x37, 0x34, 0x3D, 0x3E, 0x3B, 0x38,
    0x19, 0x1A, 0x1F, 0x1C, 0x15, 0x16, 0x13, 0x10, 0x01, 0x02, 0x07, 0x04, 0x0D, 0x0E, 0x0B, 0x08,
    0x0F, 0x0C, 0x09, 0x0A, 0x03, 0x00, 0x05, 0x06, 0x17, 0x14, 0x11, 0x12, 0x1B, 0x18, 0x1D, 0x1E,
    0x3F, 0x3C, 0x39, 0x3A, 0x33, 0x30, 0x35, 0x36, 0x27, 0x24, 0x21, 0x22, 0x2B, 0x28, 0x2D, 0x2E,
    0x2C, 0x2F, 0x2A, 0x29, 0x20, 0x23, 0x26, 0x25, 0x34, 0x37, 0x32, 0x31, 0x38, 0x3B, 0x3E, 0x3D,
    0x1C, 0x1F, 0x1A, 0x19, 0x10, 0x13, 0x16, 0x15, 0x04, 0x07, 0x02, 0x01, 0x08, 0x0B, 0x0E, 0x0D
  ]

/-- One look into the table, for a byte or for what is left of one. -/
def crc6Lookup (crc byte : Nat) : Nat := crc6_table.getD (crc <<< 2 ^^^ byte) 0 &&& SSI_CRC_MASK

/-- `mt6701_crc6_compute`. -/
def mt6701Crc6Compute (data numBits : Nat) : Nat :=
  if numBits = 0 then 0
  else
    let crc := (List.range (numBits / 8)).foldl
      (fun crc i => crc6Lookup crc (data >>> (numBits - 8 * (i + 1)) &&& 0xFF)) 0
    let remaining := numBits % 8
    if remaining > 0 then crc6Lookup crc ((data &&& (1 <<< remaining - 1)) <<< (8 - remaining))
    else crc

/-- The bytes of `ssi_frame_buf` for an angle and a status, as `mt6701_reg_random_thread` packs
them. -/
def ssiFrameBuf (angle mg : Nat) : List Nat :=
  let bits := angle <<< 4 ||| mg
  let frame := bits <<< SSI_CRC_SHIFT ||| mt6701Crc6Compute bits MT6701_CRC6_BITS
  [frame >>> 16 &&& 0xFF, frame >>> 8 &&& 0xFF, frame &&& 0xFF]

/-- The word that `regmap_read` makes of the bytes (`mt6701_ssi_regmap_read`). -/
def ssiRegmapRead (buf : List Nat) : Nat :=
  buf.getD 0 0 <<< 16 ||| buf.getD 1 0 <<< 8 ||| buf.getD 2 0

/-- The word read when the simulation has packed an angle and a status. -/
def ssiRaw (angle mg : Nat) : Nat := ssiRegmapRead (ssiFrameBuf angle mg)

/-- `mt6701_decode_magnetic_status`. -/
def mt6701DecodeMagneticStatus (mg : Nat) : Nat × Nat × Nat :=
  (mg &&& 0x03, mg >>> 2 &&& 0x01, mg >>> 3 &&& 0x01)

/-- `mt6701_ssi_frame_t`, without the angle in degrees. -/
structure SsiFrame where
  rawAngle      : Nat
  status        : Nat × Nat × Nat
  crcReceived   : Nat
  crcCalculated : Nat
  crcValid      : Bool
  deriving DecidableEq

/-- `mt6701_read_angle_ssi`, of the word read. -/
def mt6701ReadAngleSsi (raw : Nat) : SsiFrame :=
  let received := raw &&& SSI_CRC_MASK
  let calculated := mt6701Crc6Compute (raw >>> SSI_CRC_SHIFT) MT6701_CRC6_BITS
  { rawAngle := raw >>> SSI_ANGLE_SHIFT &&& SSI_ANGLE_MASK
    status := mt6701DecodeMagneticStatus (raw >>> SSI_MG_SHIFT &&& SSI_MG_MASK)
    crcReceived := received
    crcCalculated := calculated
    crcValid := received = calculated }

/-! ### The frame -/

theorem crc6Lookup_lt (crc byte : Nat) : crc6Lookup crc byte < 2 ^ 6 :=
  Nat.and_lt_two_pow _ (by decide)

theorem mt6701Crc6Compute_lt (data : Nat) :
    mt6701Crc6Compute data MT6701_CRC6_BITS < 2 ^ 6 := crc6Lookup_lt _ _

/-- A word of three bytes comes back from the buffer. -/
theorem bytes_join {n : Nat} (h : n < 2 ^ 24) :
    (n >>> 16 &&& 0xFF) <<< 16 ||| (n >>> 8 &&& 0xFF) <<< 8 ||| (n &&& 0xFF) = n := by
  refine Nat.eq_of_testBit_eq fun i => ?_
  have hmask (j : Nat) : Nat.testBit 0xFF j = decide (j < 8) := Nat.testBit_two_pow_sub_one 8 j
  have hhigh : 24 ≤ i → n.testBit i = false := fun hi =>
    Nat.testBit_lt_two_pow (Nat.lt_of_lt_of_le h (Nat.pow_le_pow_right (by decide) hi))
  simp only [Nat.testBit_or, Nat.testBit_shiftLeft, Nat.testBit_and, Nat.testBit_shiftRight, hmask]
  by_cases h8 : i < 8
  · simp [h8, show ¬ 16 ≤ i by omega, show ¬ 8 ≤ i by omega]
  · by_cases h16 : i < 16
    · simp [h8, show ¬ 16 ≤ i by omega, show 8 ≤ i by omega, show i - 8 < 8 by omega]
    · by_cases h24 : i < 24
      · simp [h8, show 16 ≤ i by omega, show 8 ≤ i by omega, show i - 16 < 8 by omega,
          show ¬ i - 8 < 8 by omega]
      · simp [h8, show ¬ i - 16 < 8 by omega, show ¬ i - 8 < 8 by omega, hhigh (by omega)]

section frame
variable {angle mg : Nat}

/-- **The frame that is sent**: the CRC is not below the data but over its low bits. -/
theorem ssiRaw_eq (ha : angle < 2 ^ 14) (hm : mg < 2 ^ 4) :
    ssiRaw angle mg =
      (angle <<< 4 ||| mg) ||| mt6701Crc6Compute (angle <<< 4 ||| mg) MT6701_CRC6_BITS := by
  have hbits : angle <<< 4 ||| mg < 2 ^ 24 := by
    refine Nat.or_lt_two_pow ?_ (by omega)
    rw [Nat.shiftLeft_eq]
    omega
  have hcrc := mt6701Crc6Compute_lt (angle <<< 4 ||| mg)
  exact bytes_join (Nat.or_lt_two_pow hbits (by omega))

/-- What is read as the angle is the angle without its low six bits. -/
theorem readAngle_frame (ha : angle < 2 ^ 14) (hm : mg < 2 ^ 4) :
    (mt6701ReadAngleSsi (ssiRaw angle mg)).rawAngle = angle / 2 ^ 6 := by
  have hcrc : mt6701Crc6Compute (angle <<< 4 ||| mg) MT6701_CRC6_BITS >>> 10 = 0 :=
    Nat.shiftRight_eq_zero _ _ (Nat.lt_trans (mt6701Crc6Compute_lt _) (by decide))
  have hmg : mg >>> 10 = 0 := Nat.shiftRight_eq_zero _ _ (by omega)
  have hmask : SSI_ANGLE_MASK = 2 ^ 14 - 1 := rfl
  rw [mt6701ReadAngleSsi, ssiRaw_eq ha hm, hmask, Nat.and_two_pow_sub_one_eq_mod,
    SSI_ANGLE_SHIFT, Nat.shiftRight_or_distrib, hcrc, Nat.shiftRight_or_distrib, hmg, Nat.or_zero,
    Nat.or_zero]
  dsimp only
  omega

/-- With angle 0 the status field of the frame is empty. -/
theorem readStatus_frame (hm : mg < 2 ^ 4) :
    (mt6701ReadAngleSsi (ssiRaw 0 mg)).status = (0, 0, 0) := by
  interval_cases mg <;> decide +kernel

end frame

/-- **The round trip of a frame, and what a corrupted bit does.**  A frame is read back, status and
CRC included, and its corruption in bit `k` is reported, exactly for angle 0, status 0 and one of
the 18 bits that the check covers. -/
theorem ssi_round_trip_iff (angle mg k : Nat) (ha : angle < 2 ^ 14) (hm : mg < 2 ^ 4)
    (hk : k < 24) :
    ((mt6701ReadAngleSsi (ssiRaw angle mg)).rawAngle = angle ∧
      (mt6701ReadAngleSsi (ssiRaw angle mg)).status = mt6701DecodeMagneticStatus mg ∧
      (mt6701ReadAngleSsi (ssiRaw angle mg)).crcValid = true ∧
      (mt6701ReadAngleSsi (ssiRaw angle mg ^^^ 2 ^ k)).crcValid = false) ↔
    angle = 0 ∧ mg = 0 ∧ k < 18 := by
  constructor
  · rintro ⟨hangle, hstatus, -, hcorrupt⟩
    rw [readAngle_frame ha hm] at hangle
    obtain rfl : angle = 0 := by omega
    rw [readStatus_frame hm] at hstatus
    obtain rfl : mg = 0 := by
      interval_cases mg <;> simp_all [mt6701DecodeMagneticStatus]
    refine ⟨rfl, rfl, ?_⟩
    by_contra hge
    interval_cases k <;> revert hcorrupt <;> decide +kernel
  · rintro ⟨rfl, rfl, hlt⟩
    interval_cases k <;> decide +kernel

/-- The resting sensor, with a corrupted angle bit. -/
theorem ssi_round_trip_zero :
    (mt6701ReadAngleSsi (ssiRaw 0 0)).rawAngle = 0 ∧
      (mt6701ReadAngleSsi (ssiRaw 0 0 ^^^ 2 ^ 17)).crcValid = false := by
  have h := (ssi_round_trip_iff 0 0 17 (by decide) (by decide) (by decide)).mpr (by decide)
  exact ⟨h.1, h.2.2.2⟩

/-- **Angle 100 is read as 1**, with a CRC that does not match; and of the frame for angle 0 a
corruption in bit 20 goes unnoticed. -/
theorem ssi_frame_misread :
    (mt6701ReadAngleSsi (ssiRaw 100 0)).rawAngle = 1 ∧
      (mt6701ReadAngleSsi (ssiRaw 100 0)).crcValid = false ∧
      (mt6701ReadAngleSsi (ssiRaw 0 0 ^^^ 2 ^ 20)).crcValid = true := by
  decide +kernel

end Kinetis.Sensor
