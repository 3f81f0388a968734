import Kinetis.Bootloader.Update

/-!
# Bootloader — the flash a programming touches

`write_firmware_to_chip` is meant to stay inside `[firmware_addr, firmware_addr +
firmware_max_size)`.  The driver erases whole sectors, so the region is left as soon as
`firmware_addr` is not the start of a sector (the default layout puts it in the middle of the
first one, together with the bootloader); and nothing compares the length of the file with
`firmware_max_size`.  `touched_inside_iff` says exactly when a file is programmed inside the region.

The bounds on what is touched and the proof that it is touched both follow the loops of the
driver: `_keeps` lemmas carry any property that operations within a range preserve, `_covers`
lemmas find an operation for each byte when nothing fails.
-/

namespace Kinetis.Bootloader
open Lib

variable {faults : Faults} {h : Hal} {P : Hal → Prop} {lo hi addr : Nat} {data : List UInt8}

/-! ### What operations within a range preserve -/

/-- Operations within `[lo, hi)` preserve `P`, whether they succeed or not. -/
def KeptWithin (faults : Faults) (lo hi : Nat) (P : Hal → Prop) : Prop :=
  ∀ h op, lo ≤ op.start → op.stop ≤ hi → P h → P (h.exec faults op).2

theorem eraseSectors_keeps (hP : KeptWithin faults lo hi P) {ks : List Nat}
    (hks : ∀ k ∈ ks, lo ≤ (HalOp.erase k).start ∧ (HalOp.erase k).stop ≤ hi) (hh : P h) :
    P (eraseSectors faults ks h).2 := by
  induction ks generalizing h with
  | nil => exact hh
  | cons k ks ih =>
    obtain ⟨hstart, hstop⟩ := hks k (List.mem_cons_self ..)
    refine Outcome.andThen_keeps (hP h _ hstart hstop hh) fun h₁ hh₁ => ?_
    exact ih (fun j hj => hks j (List.mem_cons_of_mem k hj)) hh₁

/-- The words of a write lie in every range of whole flash words around it. -/
theorem writeWords_keeps (hP : KeptWithin faults lo hi P) (hlo : BL_FLASH_WORD_SIZE ∣ lo)
    (hhi : BL_FLASH_WORD_SIZE ∣ hi) (hmax : hi ≤ 2 ^ 32) (fuel : Nat) (haddr : lo ≤ addr)
    (hend : addr + data.length ≤ hi) (hh : P h) : P (writeWords faults fuel addr data h).2 := by
  induction fuel generalizing addr data h with
  | zero => exact hh
  | succ fuel ih =>
    cases data with
    | nil => exact hh
    | cons b bs =>
      have hle := nextWord_le h.mem addr (b :: bs)
      have hmod : addr % 2 ^ 32 = addr := Nat.mod_eq_of_lt (by simp at hend; omega)
      rw [writeWords, hmod]
      obtain ⟨hstart, hstop⟩ := nextWord_range h.mem addr (b :: bs)
      have hlen : ((b :: bs).drop (nextWord h.mem addr (b :: bs)).2).length =
          (b :: bs).length - (nextWord h.mem addr (b :: bs)).2 := List.length_drop
      refine Outcome.andThen_keeps (hP h _ ?_ ?_ hh) fun h₁ hh₁ => ?_
      · rw [hstart]
        obtain ⟨c, rfl⟩ := hlo
        simp only [BL_FLASH_WORD_SIZE] at haddr ⊢
        omega
      · rw [hstop]
        obtain ⟨c, rfl⟩ := hhi
        simp only [BL_FLASH_WORD_SIZE, List.length_cons] at hend ⊢
        omega
      · exact ih (by omega) (by omega) hh₁

theorem stm32FlashWrite_keeps (hP : KeptWithin faults lo hi P) (hlo : BL_FLASH_WORD_SIZE ∣ lo)
    (hhi : BL_FLASH_WORD_SIZE ∣ hi) (hmax : hi ≤ 2 ^ 32) (haddr : lo ≤ addr)
    (hend : addr + data.length ≤ romEnd → addr + data.length ≤ hi) (hh : P h) :
    P (stm32FlashWrite faults addr data h).2 := by
  rw [stm32FlashWrite]
  split
  · exact hh
  · next hrom => exact writeWords_keeps hP hlo hhi hmax _ haddr (hend (Nat.not_lt.mp hrom)) hh

variable {offset : UInt32} {size : Nat}

/-- The write loop stays below `hi` when `hi` is the end of the flash, which the driver checks,
or when the data ends there and its offset cannot wrap. -/
theorem writeChunks_keeps (hP : KeptWithin faults lo hi P) (hlo : BL_FLASH_WORD_SIZE ∣ lo)
    (hhi : BL_FLASH_WORD_SIZE ∣ hi) (hmax : hi ≤ 2 ^ 32) (haddr : lo ≤ addr)
    {data : List (List UInt8)}
    (hend : hi = romEnd ∨ (offset.toNat + data.flatten.length < 2 ^ 32 ∧
      addr + offset.toNat + data.flatten.length ≤ hi)) (hh : P h) :
    P (writeChunks faults addr offset data h).2 := by
  induction data generalizing offset h with
  | nil => exact hh
  | cons c cs ih =>
    rw [List.flatten_cons, List.length_append] at hend
    refine Outcome.andThen_keeps
      (stm32FlashWrite_keeps hP hlo hhi hmax (by omega) (by omega) hh) fun h₁ hh₁ => ?_
    refine ih (hend.imp_right fun ⟨hwrap, hin⟩ => ?_) hh₁
    have hnext : (offset + UInt32.ofNat c.length).toNat = offset.toNat + c.length := by
      rw [UInt32.toNat_add, UInt32.toNat_ofNat']
      omega
    omega

/-- All operations so far lie within `[lo, hi)`. -/
def Hal.Within (lo hi : Nat) (h : Hal) : Prop := ∀ op ∈ h.log, lo ≤ op.start ∧ op.stop ≤ hi

theorem keptWithin_within (faults : Faults) (lo hi : Nat) :
    KeptWithin faults lo hi (Hal.Within lo hi) := by
  intro h op hstart hstop hh op' hop'
  rw [Hal.exec_log, List.mem_append, List.mem_singleton] at hop'
  rcases hop' with hop' | rfl
  · exact hh op' hop'
  · exact ⟨hstart, hstop⟩

/-! ### What is touched when nothing fails -/

/-- Some operation so far touches `a`. -/
def Hal.Touched (h : Hal) (a : Nat) : Prop := ∃ op ∈ h.log, op.Touches a

/-- What was touched stays touched. -/
theorem keptWithin_touched (faults : Faults) (lo hi a : Nat) :
    KeptWithin faults lo hi fun h => h.Touched a := by
  rintro h op - - ⟨op', hop', ha⟩
  refine ⟨op', ?_, ha⟩
  rw [Hal.exec_log]
  exact List.mem_append_left _ hop'

/-- The driver without faults. -/
def noFaults : Faults := fun _ => none

theorem exec_noFaults (h : Hal) (op : HalOp) :
    h.exec noFaults op = (none, ⟨op.apply h.mem, h.log ++ [op]⟩) := rfl

theorem eraseSectors_covers (ks : List Nat) (mem : Flash) (log : List HalOp) :
    ∃ mem', eraseSectors noFaults ks ⟨mem, log⟩ = (none, ⟨mem', log ++ ks.map .erase⟩) := by
  induction ks generalizing mem log with
  | nil => exact ⟨mem, by rw [eraseSectors, List.map_nil, List.append_nil]⟩
  | cons k ks ih =>
    obtain ⟨mem', hrest⟩ := ih ((HalOp.erase k).apply mem) (log ++ [.erase k])
    refine ⟨mem', ?_⟩
    rw [eraseSectors, exec_noFaults, Outcome.andThen_ok, hrest, List.append_assoc,
      List.singleton_append, List.map_cons]

theorem romEnd_lt : romEnd < 2 ^ 32 := by decide
theorem dvd_romEnd : BL_FLASH_WORD_SIZE ∣ romEnd := by decide

theorem writeWords_covers {fuel : Nat} (addr : Nat) (data : List UInt8) (hfuel : data.length ≤ fuel)
    (hend : addr + data.length ≤ romEnd) (h : Hal) :
    ∃ h', writeWords noFaults fuel addr data h = (none, h') ∧
      ∀ a, addr ≤ a → a < addr + data.length → h'.Touched a := by
  induction fuel generalizing addr data h with
  | zero => exact ⟨h, rfl, fun a hlo hhi => by omega⟩
  | succ fuel ih =>
    cases data with
    | nil => exact ⟨h, rfl, fun a hlo hhi => by simp at hhi; omega⟩
    | cons b bs =>
      have hpos := nextWord_pos h.mem addr (List.cons_ne_nil b bs)
      have hle := nextWord_le h.mem addr (b :: bs)
      have hmod : addr % 2 ^ 32 = addr :=
        Nat.mod_eq_of_lt (by have := romEnd_lt; omega)
      obtain ⟨hstart, hstop⟩ := nextWord_range h.mem addr (b :: bs)
      have hfits := nextWord_fits h.mem addr (b :: bs)
      rw [writeWords, hmod]
      set op := (nextWord h.mem addr (b :: bs)).1
      set n := (nextWord h.mem addr (b :: bs)).2
      have hlen : ((b :: bs).drop n).length = (b :: bs).length - n := List.length_drop
      obtain ⟨h', hok, hcov⟩ := ih (addr + n) ((b :: bs).drop n) (by omega) (by omega)
        ⟨op.apply h.mem, h.log ++ [op]⟩
      refine ⟨h', hok, fun a hlo hhi => ?_⟩
      by_cases ha : addr + n ≤ a
      · exact hcov a ha (by omega)
      · -- a byte of the first word: the later rounds keep it
        have hfirst : Hal.Touched ⟨op.apply h.mem, h.log ++ [op]⟩ a :=
          ⟨op, by simp, by omega, by omega⟩
        have hkeep := writeWords_keeps (keptWithin_touched noFaults 0 romEnd a)
          (Nat.dvd_zero _) dvd_romEnd (Nat.le_of_lt romEnd_lt) fuel (Nat.zero_le (addr + n))
          (show addr + n + ((b :: bs).drop n).length ≤ romEnd by omega) hfirst
        rw [hok] at hkeep
        exact hkeep

theorem stm32FlashWrite_covers (addr : Nat) (data : List UInt8)
    (hend : addr + data.length ≤ romEnd) (h : Hal) :
    ∃ h', stm32FlashWrite noFaults addr data h = (none, h') ∧
      ∀ a, addr ≤ a → a < addr + data.length → h'.Touched a := by
  rw [stm32FlashWrite, if_neg (Nat.not_lt.mpr hend)]
  exact writeWords_covers addr data (Nat.le_refl _) hend h

/-- The write loop reaches every chunk that ends below the end of the flash. -/
theorem writeChunks_covers {ds es : List (List UInt8)}
    (hend : addr + offset.toNat + ds.flatten.length ≤ romEnd) {a : Nat}
    (hlo : addr + offset.toNat ≤ a) (hhi : a < addr + offset.toNat + ds.flatten.length) (h : Hal) :
    (writeChunks noFaults addr offset (ds ++ es) h).2.Touched a := by
  induction ds generalizing offset h with
  | nil => simp at hhi; omega
  | cons c ds ih =>
    rw [List.flatten_cons, List.length_append] at hend hhi
    obtain ⟨h₁, hok, hcov⟩ := stm32FlashWrite_covers (addr + offset.toNat) c (by omega) h
    rw [List.cons_append, writeChunks, hok]
    have hnext : (offset + UInt32.ofNat c.length).toNat = offset.toNat + c.length := by
      have := romEnd_lt
      rw [UInt32.toNat_add, UInt32.toNat_ofNat']
      omega
    by_cases ha : addr + offset.toNat + c.length ≤ a
    · exact ih (by omega) (by omega) (by omega) h₁
    · exact writeChunks_keeps (keptWithin_touched noFaults 0 romEnd a) (Nat.dvd_zero _)
        dvd_romEnd (Nat.le_of_lt romEnd_lt) (Nat.zero_le _) (.inl rfl) (hcov a hlo (by omega))

/-! ### When a file is programmed inside the region -/

variable {ctx : Context} {i : StepInput} {bytes : List UInt8}

/-- `total_size` of a file. -/
def fileTotal (bytes : List UInt8) : Nat := bytes.length % 2 ^ 32

/-- The update is refused before anything is erased: it is not the file requested, it is empty,
or it does not lie in the flash. -/
def Refused (ctx : Context) (bytes : List UInt8) : Prop :=
  (ctx.firmwareSize ≠ 0 ∧ fileTotal bytes ≠ ctx.firmwareSize.toNat) ∨
  (ctx.firmwareCrc32 ≠ 0 ∧ checksum bytes ≠ ctx.firmwareCrc32) ∨
  fileTotal bytes = 0 ∨ ctx.firmwareAddr < FLASH_BANK1_BASE ∨
  romEnd < ctx.firmwareAddr + fileTotal bytes

/-- The image starts on a sector and its sectors end within the maximal size.  A file of `2 ^ 32`
bytes or more, whose `total_size` has wrapped, is written on to the end of the flash. -/
def FitsSectors (ctx : Context) (bytes : List UInt8) : Prop :=
  BL_FLASH_SECTOR_SIZE ∣ ctx.firmwareAddr - FLASH_BANK1_BASE ∧
  alignUp (fileTotal bytes) BL_FLASH_SECTOR_SIZE ≤ ctx.layout.firmwareMaxSize.toNat ∧
  (2 ^ 32 ≤ bytes.length → romEnd ≤ ctx.firmwareAddr + ctx.layout.firmwareMaxSize.toNat)

theorem writeFirmwareToChip_hal_error {e : Errno} (hc : checkStaged ctx i = .error e) :
    (writeFirmwareToChip ctx i h).2.2 = h := by
  rw [writeFirmwareToChip, hc]

variable {staged : Staged}

theorem writeFirmwareToChip_hal_ok (hc : checkStaged ctx i = .ok staged) :
    (writeFirmwareToChip ctx i h).2.2 = (programStaged ctx i staged h).2 := by
  rw [writeFirmwareToChip, hc]
  simp only
  rcases programStaged ctx i staged h with ⟨_ | e, h'⟩ <;> rfl

/-- An erase outside the flash, or of nothing, does nothing. -/
theorem stm32FlashErase_refused (hr : size = 0 ∨ addr < FLASH_BANK1_BASE ∨ romEnd < addr + size) :
    stm32FlashErase faults addr size h = (some .einval, h) := by
  rw [stm32FlashErase, if_pos (by tauto)]

theorem erase_start_lt (k : Nat) : (HalOp.erase k).start < (HalOp.erase k).stop := by
  rw [HalOp.start, HalOp.stop, BL_FLASH_SECTOR_SIZE]
  omega

/-- The sectors of a range in the flash exist. -/
theorem endSector_lt (hend : addr + size ≤ romEnd) : endSector addr size < maxSector := by
  simp only [endSector, maxSector, romEnd, FLASH_BANK1_BASE, ROM_TOTAL_SIZE,
    BL_FLASH_SECTOR_SIZE] at *
  omega

theorem stm32FlashErase_accepted (hbase : FLASH_BANK1_BASE ≤ addr) (hend : addr + size ≤ romEnd)
    (hsize : size ≠ 0) :
    stm32FlashErase faults addr size h = eraseSectors faults (sectors addr size) h := by
  have hlt := endSector_lt hend
  rw [stm32FlashErase, if_neg (by omega), if_neg (by omega)]

/-- The sectors of a range that starts on a sector. -/
theorem sectors_within {k : Nat} (hbase : FLASH_BANK1_BASE ≤ addr) (hend : addr + size ≤ romEnd)
    (hsize : size ≠ 0) (halign : BL_FLASH_SECTOR_SIZE ∣ addr - FLASH_BANK1_BASE)
    (hk : k ∈ sectors addr size) :
    addr ≤ (HalOp.erase k).start ∧
      (HalOp.erase k).stop ≤ addr + alignUp size BL_FLASH_SECTOR_SIZE := by
  rw [sectors, List.mem_range'_1] at hk
  simp only [startSector, endSector, romEnd, FLASH_BANK1_BASE, ROM_TOTAL_SIZE,
    BL_FLASH_SECTOR_SIZE, HalOp.start, HalOp.stop, alignUp] at *
  omega

theorem toNat_ofNat_length (bytes : List UInt8) :
    (UInt32.ofNat bytes.length).toNat = fileTotal bytes :=
  UInt32.toNat_ofNat'

/-- A refused update touches nothing. -/
theorem writeFirmwareToChip_refused (hr : Refused ctx bytes)
    (hfile : i.files ctx.stagedPath = some bytes) : (writeFirmwareToChip ctx i h).2.2 = h := by
  rcases hc : checkStaged ctx i with e | staged
  · exact writeFirmwareToChip_hal_error hc
  · obtain ⟨hsame, htotal, hcrc, hsize', hcrc'⟩ := checkStaged_ok hc
    obtain rfl : bytes = staged.bytes := Option.some.inj (hfile.symm.trans hsame)
    have hlen : staged.total.toNat = fileTotal staged.bytes := by
      rw [htotal, toNat_ofNat_length]
    rw [writeFirmwareToChip_hal_ok hc, programStaged, hlen]
    rcases hr with ⟨hne, hno⟩ | ⟨hne, hno⟩ | hr
    · exact absurd (hlen.symm.trans (congrArg UInt32.toNat (hsize' hne))) hno
    · exact absurd (hcrc.symm.trans (hcrc' hne)) hno
    · rw [stm32FlashErase_refused hr, Outcome.andThen_error]

/-- Where the second pass ends, whatever it delivers. -/
theorem length_readPass_le (readError : Option Nat) (bytes : List UInt8) :
    (readPass readError bytes).1.flatten.length ≤ bytes.length := by
  have hall : (chunks BL_FLASH_CHUNK bytes).flatten = bytes := flatten_chunks (by decide) bytes
  cases readError with
  | none => exact Nat.le_of_eq (congrArg _ hall)
  | some k =>
    rw [readPass]
    split
    · next hk =>
        rw [flatten_take_chunks BL_FLASH_CHUNK bytes hk, List.length_take]
        exact Nat.min_le_right _ _
    · exact Nat.le_of_eq (congrArg _ hall)

/-- A programming from the start of a sector stays below any end of flash words that its sectors
stay below, if that is the end of the flash or the length of the file has not wrapped. -/
theorem programStaged_within {flash : Flash} (htotal : staged.total.toNat = fileTotal staged.bytes)
    (hne : fileTotal staged.bytes ≠ 0) (hbase : FLASH_BANK1_BASE ≤ ctx.firmwareAddr)
    (hend : ctx.firmwareAddr + fileTotal staged.bytes ≤ romEnd)
    (halign : BL_FLASH_SECTOR_SIZE ∣ ctx.firmwareAddr - FLASH_BANK1_BASE)
    (hhi : BL_FLASH_WORD_SIZE ∣ hi) (hrom : hi ≤ romEnd)
    (hsectors : ctx.firmwareAddr + alignUp (fileTotal staged.bytes) BL_FLASH_SECTOR_SIZE ≤ hi)
    (hlen : hi = romEnd ∨ staged.bytes.length < 2 ^ 32) :
    (programStaged ctx i staged ⟨flash, []⟩).2.Within ctx.firmwareAddr hi := by
  have hkept := keptWithin_within i.faults ctx.firmwareAddr hi
  have hlo : BL_FLASH_WORD_SIZE ∣ ctx.firmwareAddr := by
    obtain ⟨c, hc⟩ := halign
    simp only [FLASH_BANK1_BASE, BL_FLASH_SECTOR_SIZE, BL_FLASH_WORD_SIZE] at *
    omega
  have hup : fileTotal staged.bytes ≤ alignUp (fileTotal staged.bytes) BL_FLASH_SECTOR_SIZE :=
    le_alignUp (by decide)
  rw [programStaged, htotal, stm32FlashErase_accepted hbase hend hne]
  refine Outcome.andThen_keeps (eraseSectors_keeps hkept (fun k hk => ?_) fun op hop => ?_)
    fun h₁ hh₁ => ?_
  · obtain ⟨hstart, hstop⟩ := sectors_within hbase hend hne halign hk
    exact ⟨hstart, hstop.trans hsectors⟩
  · cases hop
  · refine writeChunks_keeps hkept hlo hhi (hrom.trans (Nat.le_of_lt romEnd_lt)) (Nat.le_refl _)
      (hlen.imp_right fun hshort => ?_) hh₁
    have hpass := length_readPass_le i.readError₂ staged.bytes
    have hsame : fileTotal staged.bytes = staged.bytes.length := Nat.mod_eq_of_lt hshort
    rw [UInt32.toNat_zero]
    omega

theorem Hal.Within.mono {hi' : Nat} (hw : h.Within lo hi) (hle : hi ≤ hi') : h.Within lo hi' :=
  fun op hop => ⟨(hw op hop).1, (hw op hop).2.trans hle⟩

/-- **A file that fits is programmed inside the region**, whatever fails on the way. -/
theorem writeFirmwareToChip_within (hr : ¬ Refused ctx bytes) (hfits : FitsSectors ctx bytes)
    (hfile : i.files ctx.stagedPath = some bytes) (flash : Flash) :
    (writeFirmwareToChip ctx i ⟨flash, []⟩).2.2.Within ctx.firmwareAddr
      (ctx.firmwareAddr + ctx.layout.firmwareMaxSize.toNat) := by
  simp only [Refused, not_or, Nat.not_lt] at hr
  obtain ⟨-, -, hne, hbase, hend⟩ := hr
  obtain ⟨halign, hmax, hlong⟩ := hfits
  rcases hc : checkStaged ctx i with e | staged
  · rw [writeFirmwareToChip_hal_error hc]
    exact fun op hop => absurd hop (by simp)
  · obtain ⟨hsame, htotal, -, -, -⟩ := checkStaged_ok hc
    obtain rfl : bytes = staged.bytes := Option.some.inj (hfile.symm.trans hsame)
    have hlen : staged.total.toNat = fileTotal staged.bytes := by
      rw [htotal, toNat_ofNat_length]
    rw [writeFirmwareToChip_hal_ok hc]
    have hsectors : ctx.firmwareAddr + alignUp (fileTotal staged.bytes) BL_FLASH_SECTOR_SIZE ≤
        romEnd := by
      obtain ⟨c, hc⟩ := halign
      simp only [alignUp, romEnd, FLASH_BANK1_BASE, ROM_TOTAL_SIZE, BL_FLASH_SECTOR_SIZE] at *
      omega
    by_cases hwrap : 2 ^ 32 ≤ staged.bytes.length
    · exact (programStaged_within hlen hne hbase hend halign dvd_romEnd (Nat.le_refl _) hsectors
        (.inl rfl)).mono (hlong hwrap)
    · refine (programStaged_within hlen hne hbase hend halign ?_ hsectors (Nat.le_refl _)
        (.inr (Nat.not_le.mp hwrap))).mono (by omega)
      simp only [alignUp, FLASH_BANK1_BASE, BL_FLASH_SECTOR_SIZE, BL_FLASH_WORD_SIZE] at *
      omega

/-- Without failures a file that is not refused passes the checks. -/
theorem checkStaged_quiet (hr : ¬ Refused ctx bytes) :
    checkStaged ctx (.quiet bytes) = .ok ⟨bytes, UInt32.ofNat bytes.length, checksum bytes⟩ := by
  simp only [Refused, not_or] at hr
  obtain ⟨hsize, hcrc, -⟩ := hr
  have hpass : (readPass none bytes).1.flatten = bytes := readPass_complete rfl
  have htotal : totalSize (readPass none bytes).1 = UInt32.ofNat bytes.length := by
    rw [totalSize, foldl_totalSize, hpass, UInt32.zero_add]
  have hcalc : calcCrc32 (readPass none bytes).1 = checksum bytes := by
    rw [calcCrc32, foldl_crc32, hpass, checksum]
  have hsize' : ¬ (ctx.firmwareSize ≠ 0 ∧ UInt32.ofNat bytes.length ≠ ctx.firmwareSize) := by
    rintro ⟨hne, hno⟩
    exact hsize ⟨hne, fun heq => hno (UInt32.toNat_inj.mp ((toNat_ofNat_length bytes).trans heq))⟩
  simp only [checkStaged, StepInput.quiet, htotal, hcalc, if_neg hsize', if_neg hcrc]
  simp [readPass]

/-- Without failures the erase succeeds, and the write loop starts with all its sectors erased. -/
theorem programStaged_quiet (ctx : Context) (staged : Staged) (flash : Flash)
    (htotal : staged.total.toNat = fileTotal staged.bytes) (hne : fileTotal staged.bytes ≠ 0)
    (hbase : FLASH_BANK1_BASE ≤ ctx.firmwareAddr)
    (hend : ctx.firmwareAddr + fileTotal staged.bytes ≤ romEnd) :
    ∃ mem,
      (programStaged ctx (.quiet bytes) staged ⟨flash, []⟩).2 =
        (writeChunks noFaults ctx.firmwareAddr 0 (chunks BL_FLASH_CHUNK staged.bytes)
          ⟨mem, (sectors ctx.firmwareAddr (fileTotal staged.bytes)).map .erase⟩).2 := by
  obtain ⟨mem, herase⟩ := eraseSectors_covers (sectors ctx.firmwareAddr (fileTotal staged.bytes))
    flash []
  have hfaults : (StepInput.quiet bytes).faults = noFaults := rfl
  have hpass : (readPass (StepInput.quiet bytes).readError₂ staged.bytes).1 =
      chunks BL_FLASH_CHUNK staged.bytes := rfl
  refine ⟨mem, ?_⟩
  rw [programStaged, htotal, hfaults, hpass, stm32FlashErase_accepted hbase hend hne, herase,
    Outcome.andThen_ok, List.nil_append]

/-- **A file that is programmed inside the region without failures fits.** -/
theorem fitsSectors_of_inside (hr : ¬ Refused ctx bytes) (flash : Flash)
    (hall : ∀ a, (writeFirmwareToChip ctx (.quiet bytes) ⟨flash, []⟩).2.2.Touched a →
      ctx.firmwareAddr ≤ a ∧ a < ctx.firmwareAddr + ctx.layout.firmwareMaxSize.toNat) :
    FitsSectors ctx bytes := by
  rw [writeFirmwareToChip_hal_ok (checkStaged_quiet hr)] at hall
  simp only [Refused, not_or, Nat.not_lt] at hr
  obtain ⟨-, -, hne, hbase, hend⟩ := hr
  obtain ⟨mem, hprog⟩ := programStaged_quiet ctx
    ⟨bytes, UInt32.ofNat bytes.length, checksum bytes⟩ flash (toNat_ofNat_length bytes) hne hbase
    hend
  rw [hprog] at hall
  -- the sectors stay touched while the chunks are written
  have herased : ∀ k ∈ sectors ctx.firmwareAddr (fileTotal bytes), ∀ a,
      (HalOp.erase k).Touches a →
      ctx.firmwareAddr ≤ a ∧ a < ctx.firmwareAddr + ctx.layout.firmwareMaxSize.toNat := by
    intro k hk a ha
    refine hall a (writeChunks_keeps (keptWithin_touched noFaults 0 romEnd a) (Nat.dvd_zero _)
      dvd_romEnd (Nat.le_of_lt romEnd_lt) (Nat.zero_le _) (.inl rfl) ?_)
    exact ⟨_, List.mem_map_of_mem hk, ha⟩
  -- the sector of the first byte starts there, and that of the last byte ends in the region
  obtain ⟨k, hk, hkfirst⟩ := exists_sector hbase hend (Nat.le_refl ctx.firmwareAddr) (by omega)
  obtain ⟨j, hj, hjlast⟩ := exists_sector (a := ctx.firmwareAddr + fileTotal bytes - 1) hbase hend
    (by omega) (by omega)
  have hfirst := herased k hk (HalOp.erase k).start ⟨Nat.le_refl _, erase_start_lt k⟩
  have hlast := herased j hj ((HalOp.erase j).stop - 1)
    ⟨Nat.le_sub_one_of_lt (erase_start_lt j), Nat.sub_one_lt_of_lt (erase_start_lt j)⟩
  have hfa : ctx.firmwareAddr = FLASH_BANK1_BASE + k * BL_FLASH_SECTOR_SIZE :=
    Nat.le_antisymm hfirst.1 hkfirst.1
  refine ⟨⟨k, by rw [hfa, Nat.add_sub_cancel_left, Nat.mul_comm]⟩, ?_, fun hlong => ?_⟩
  · have hstop : (HalOp.erase j).stop =
        FLASH_BANK1_BASE + (j + 1) * BL_FLASH_SECTOR_SIZE := rfl
    have hdvd : BL_FLASH_SECTOR_SIZE ∣ (HalOp.erase j).stop - ctx.firmwareAddr :=
      ⟨j + 1 - k, by rw [hstop, hfa, Nat.add_sub_add_left, ← Nat.sub_mul, Nat.mul_comm]⟩
    have hup := alignUp_le (by decide) hdvd
      (show fileTotal bytes ≤ _ by have := hjlast.2; omega)
    omega
  · -- the write loop runs on to the end of the flash
    have hroom : (romEnd - ctx.firmwareAddr) / BL_FLASH_CHUNK * BL_FLASH_CHUNK =
        romEnd - ctx.firmwareAddr := by
      simp only [hfa, romEnd, FLASH_BANK1_BASE, ROM_TOTAL_SIZE, BL_FLASH_SECTOR_SIZE,
        BL_FLASH_CHUNK]
      omega
    set n := (romEnd - ctx.firmwareAddr) / BL_FLASH_CHUNK
    have hn : n ≤ (chunks BL_FLASH_CHUNK bytes).length := by
      have := romEnd_lt
      rw [length_chunks, Nat.le_div_iff_mul_le (by decide)]
      omega
    have hflat : ((chunks BL_FLASH_CHUNK bytes).take n).flatten.length =
        romEnd - ctx.firmwareAddr := by
      have := romEnd_lt
      rw [flatten_take_chunks BL_FLASH_CHUNK bytes hn, List.length_take, hroom]
      omega
    have htouched : (writeChunks noFaults ctx.firmwareAddr 0
        ((chunks BL_FLASH_CHUNK bytes).take n ++ (chunks BL_FLASH_CHUNK bytes).drop n)
        ⟨mem, (sectors ctx.firmwareAddr (fileTotal bytes)).map .erase⟩).2.Touched (romEnd - 1) := by
      apply writeChunks_covers <;> rw [UInt32.toNat_zero] <;> omega
    rw [List.take_append_drop] at htouched
    have := hall _ htouched
    omega

/-- **When a file is programmed inside the region.**  Every byte erased or programmed, whatever
the card, the heap and the flash do, lies in `[firmware_addr, firmware_addr + firmware_max_size)`
if and only if the update is refused before the erase or the image fits in whole sectors. -/
theorem touched_inside_iff (ctx : Context) (bytes : List UInt8) :
    (∀ (i : StepInput) (flash : Flash) (a : Nat), i.files ctx.stagedPath = some bytes →
      (writeFirmwareToChip ctx i ⟨flash, []⟩).2.2.Touched a →
      ctx.firmwareAddr ≤ a ∧ a < ctx.firmwareAddr + ctx.layout.firmwareMaxSize.toNat) ↔
    Refused ctx bytes ∨ FitsSectors ctx bytes := by
  constructor
  · intro hall
    by_cases hr : Refused ctx bytes
    · exact .inl hr
    · exact .inr (fitsSectors_of_inside hr (fun _ => 0xFF) fun a => hall _ _ a rfl)
  · intro hcond i flash a hfile htouched
    by_cases hr : Refused ctx bytes
    · rw [writeFirmwareToChip_refused hr hfile] at htouched
      obtain ⟨op, hop, -⟩ := htouched
      cases hop
    · obtain ⟨op, hop, hlo, hhi⟩ := htouched
      obtain ⟨hstart, hstop⟩ :=
        writeFirmwareToChip_within hr (hcond.resolve_left hr) hfile flash op hop
      exact ⟨hstart.trans hlo, Nat.lt_of_lt_of_le hhi hstop⟩

/-- With the default layout one byte staged erases the bootloader's own sector. -/
theorem bootloader_sector_erased :
    ¬ ∀ (layout : MemLayout) (ctx : Context) (i : StepInput) (flash : Flash) (a : Nat),
      bootloaderInit layout = some ctx →
      (writeFirmwareToChip ctx i ⟨flash, []⟩).2.2.Touched a →
      ctx.firmwareAddr ≤ a ∧ a < ctx.firmwareAddr + ctx.layout.firmwareMaxSize.toNat := by
  intro hall
  have hinit : bootloaderInit defaultLayout = some defaultContext := by decide +kernel
  have htouched : (writeFirmwareToChip defaultContext (.quiet [0]) ⟨fun _ => 0xFF, []⟩).2.2.Touched
      FLASH_BANK1_BASE := ⟨.erase 0, by decide +kernel, by decide⟩
  exact absurd (hall _ _ _ _ _ hinit htouched).1 (by decide)

end Kinetis.Bootloader
