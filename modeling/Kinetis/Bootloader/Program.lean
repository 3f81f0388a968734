import Kinetis.Bootloader.Model

/-!
# Bootloader — what programming and reading back establish

One specification per function of the update path:

* `checkStaged_ok`: a staged file that is accepted was read whole; its size and CRC are those
  requested, where something was requested.
* `programStaged_ok`: a programming that succeeds leaves `Staged.image` at `firmware_addr`, what
  the second pass delivered and erased bytes after it.
* `verifyFlashCrc_ok`: a verification that succeeds has read the whole image, and its CRC is the
  one expected.
-/

namespace Kinetis.Bootloader
open Lib

variable {ctx ctx' : Context} {i : StepInput} {h h' : Hal} {mem : Flash} {staged : Staged}

/-! ### The first pass -/

theorem foldl_totalSize (data : List (List UInt8)) (total : UInt32) :
    data.foldl (fun total c => total + UInt32.ofNat c.length) total =
      total + UInt32.ofNat data.flatten.length := by
  induction data generalizing total with
  | nil => simp
  | cons c cs ih =>
    rw [List.foldl_cons, ih, List.flatten_cons, List.length_append, UInt32.ofNat_add,
      UInt32.add_assoc]

/-- Without a read error a pass delivers the file. -/
theorem readPass_complete {readError : Option Nat} {bytes : List UInt8}
    (hok : (readPass readError bytes).2 = true) : (readPass readError bytes).1.flatten = bytes := by
  have hall : (chunks BL_FLASH_CHUNK bytes).flatten = bytes := flatten_chunks (by decide) bytes
  cases readError with
  | none => exact hall
  | some k =>
    rw [readPass] at hok ⊢
    split at hok
    · cases hok
    · next hk => rw [if_neg hk]; exact hall

/-- **What the first pass accepts.** -/
theorem checkStaged_ok (hok : checkStaged ctx i = .ok staged) :
    i.files ctx.stagedPath = some staged.bytes ∧
    staged.total = UInt32.ofNat staged.bytes.length ∧ staged.crc = checksum staged.bytes ∧
    (ctx.firmwareSize ≠ 0 → staged.total = ctx.firmwareSize) ∧
    (ctx.firmwareCrc32 ≠ 0 → staged.crc = ctx.firmwareCrc32) := by
  rw [checkStaged] at hok
  split at hok
  · cases hok
  · next bytes hfile =>
      simp only at hok
      -- one check of the source after the other; each failure is an error
      split at hok
      · cases hok
      split at hok
      · cases hok
      split at hok
      · cases hok
      split at hok
      · cases hok
      split at hok
      · cases hok
      split at hok
      · cases hok
      next hread hsize hcrc _ _ =>
        cases hok
        have hpass : (readPass i.readError₁ bytes).1.flatten = bytes :=
          readPass_complete (by simpa using hread)
        have htotal : totalSize (readPass i.readError₁ bytes).1 = UInt32.ofNat bytes.length := by
          rw [totalSize, foldl_totalSize, hpass, UInt32.zero_add]
        have hcalc : calcCrc32 (readPass i.readError₁ bytes).1 = checksum bytes := by
          rw [calcCrc32, foldl_crc32, hpass, checksum]
        refine ⟨hfile, htotal, hcalc, fun hne => ?_, fun hne => ?_⟩
        · exact not_not.mp fun hno => hsize ⟨hne, hno⟩
        · exact not_not.mp fun hno => hcrc ⟨hne, hno⟩

/-! ### The second pass -/

/-- **The write loop writes the chunks one after the other.**  The offset cannot wrap while
every write stays below the end of the flash. -/
theorem writeChunks_ok {faults : Faults} {addr : Nat} {data : List (List UInt8)} {offset : UInt32}
    (hok : writeChunks faults addr offset data h = (none, h')) :
    h'.mem = overlay h.mem (addr + offset.toNat) data.flatten := by
  induction data generalizing offset h with
  | nil =>
    cases hok
    simp
  | cons c cs ih =>
    obtain ⟨h₁, hwrite, hrest⟩ := Outcome.andThen_eq_ok.mp hok
    obtain ⟨hend, hmem⟩ := stm32FlashWrite_ok hwrite
    have hnext : (offset + UInt32.ofNat c.length).toNat = offset.toNat + c.length := by
      simp only [romEnd, FLASH_BANK1_BASE, ROM_TOTAL_SIZE] at hend
      rw [UInt32.toNat_add, UInt32.toNat_ofNat']
      omega
    rw [ih hrest, hnext, ← Nat.add_assoc, hmem, List.flatten_cons, overlay_append]

/-- What the second pass delivers. -/
def StepInput.delivered (i : StepInput) (staged : Staged) : List UInt8 :=
  (readPass i.readError₂ staged.bytes).1.flatten

/-- The image a programming leaves: what the second pass delivers, then erased flash. -/
def StepInput.image (i : StepInput) (staged : Staged) : List UInt8 :=
  (i.delivered staged ++ List.replicate staged.total.toNat 0xFF).take staged.total.toNat

/-- **What a programming that succeeds leaves in the flash.** -/
theorem programStaged_ok (hok : programStaged ctx i staged h = (none, h')) :
    ctx.firmwareAddr + staged.total.toNat ≤ romEnd ∧
    readMem h'.mem ctx.firmwareAddr staged.total.toNat = i.image staged := by
  obtain ⟨h₁, herase, hwrite⟩ := Outcome.andThen_eq_ok.mp hok
  obtain ⟨-, hend, -, herased⟩ := stm32FlashErase_ok herase
  have hmem := writeChunks_ok hwrite
  refine ⟨hend, List.ext_getElem? fun k => ?_⟩
  rw [getElem?_readMem, StepInput.image, List.getElem?_take, hmem]
  by_cases hk : k < staged.total.toNat
  · -- a byte of the image was delivered, or erased before the writes
    have hff := herased (ctx.firmwareAddr + k) (by omega) (by omega)
    rw [if_pos hk, if_pos hk, overlay, if_pos (by simp), hff, UInt32.toNat_zero, Nat.add_zero,
      Nat.add_sub_cancel_left, List.getElem?_append]
    change some ((i.delivered staged)[k]?.getD 0xFF) = _
    split
    · next hlt => rw [List.getElem?_eq_getElem hlt, Option.getD_some]
    · next hge =>
        rw [List.getElem?_eq_none (Nat.not_lt.mp hge), Option.getD_none,
          List.getElem?_replicate, if_pos (by omega)]
  · rw [if_neg hk, if_neg hk]

/-- A success of `write_firmware_to_chip` is an accepted file and a programming that succeeds. -/
theorem writeFirmwareToChip_ok (hok : writeFirmwareToChip ctx i h = (none, ctx', h')) :
    ∃ staged, checkStaged ctx i = .ok staged ∧ programStaged ctx i staged h = (none, h') ∧
      ctx' = { ctx with firmwareSize := staged.total, firmwareCrc32 := staged.crc } := by
  rw [writeFirmwareToChip] at hok
  split at hok
  · cases hok
  · next staged hstaged =>
      split at hok
      · cases hok
      · next h₁ hprog =>
          cases hok
          exact ⟨staged, hstaged, hprog, rfl⟩

/-- A failure leaves the context as it was. -/
theorem writeFirmwareToChip_error {e : Errno}
    (herr : writeFirmwareToChip ctx i h = (some e, ctx', h')) : ctx' = ctx := by
  rw [writeFirmwareToChip] at herr
  split at herr
  · cases herr
    rfl
  · split at herr
    · cases herr
      rfl
    · cases herr

/-! ### Reading back -/

theorem stm32FlashRead_eq_some {addr size : Nat} {buf : List UInt8} :
    stm32FlashRead mem addr size = some buf ↔ addr + size ≤ romEnd ∧ buf = readMem mem addr size := by
  rw [stm32FlashRead]
  split
  · next hlt => simp [Nat.not_le.mpr hlt]
  · next hle => simp [Nat.not_lt.mp hle, eq_comm]

/-- The loop computes the CRC of what is left of the image. -/
theorem flashCrc_ok {addr size fuel offset : Nat} {crc result : UInt32}
    (hfuel : size ≤ offset + fuel * BL_FLASH_CHUNK)
    (hok : flashCrc mem addr size fuel offset crc = some result) :
    result = crc32 crc (readMem mem (addr + offset) (size - offset)) := by
  induction fuel generalizing offset crc with
  | zero =>
    cases hok
    have hdone : size - offset = 0 := by omega
    simp [hdone, readMem]
  | succ fuel ih =>
    rw [flashCrc] at hok
    split at hok
    · next hdone =>
        cases hok
        simp [Nat.sub_eq_zero_of_le hdone, readMem]
    · obtain ⟨buf, hread, hrest⟩ := Option.bind_eq_some_iff.mp hok
      obtain ⟨-, rfl⟩ := stm32FlashRead_eq_some.mp hread
      rw [ih (by rw [Nat.succ_mul] at hfuel; omega) hrest, ← crc32_append]
      by_cases hlast : size - offset ≤ BL_FLASH_CHUNK
      · have hnone : size - (offset + BL_FLASH_CHUNK) = 0 := by omega
        rw [Nat.min_eq_left hlast, hnone, readMem, readMem]
        simp
      · have hsum : BL_FLASH_CHUNK + (size - (offset + BL_FLASH_CHUNK)) = size - offset := by omega
        rw [Nat.min_eq_right (by omega), ← Nat.add_assoc, ← readMem_append, hsum]

/-- **A verification that succeeds has checked the CRC of the image in flash.** -/
theorem verifyFlashCrc_ok (hok : verifyFlashCrc ctx i mem = .ok ()) :
    checksum (readMem mem ctx.firmwareAddr ctx.firmwareSize.toNat) = ctx.firmwareCrc32 := by
  rw [verifyFlashCrc] at hok
  split at hok
  · cases hok
  · split at hok
    · cases hok
    · next crc hcrc =>
        split at hok
        · cases hok
        · next heq =>
            have hall : ctx.firmwareSize.toNat ≤
                0 + (ctx.firmwareSize.toNat / BL_FLASH_CHUNK + 1) * BL_FLASH_CHUNK := by
              have := Nat.lt_div_mul_add (a := ctx.firmwareSize.toNat)
                (show 0 < BL_FLASH_CHUNK by decide)
              rw [Nat.succ_mul]
              omega
            obtain rfl := flashCrc_ok hall hcrc
            simpa [checksum] using heq

end Kinetis.Bootloader
