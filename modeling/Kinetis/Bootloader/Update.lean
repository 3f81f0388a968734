import Kinetis.Bootloader.Program
import Kinetis.Lib.Runs

/-!
# Bootloader — the update flow

`Move` says once what a round of the loop can do; the properties of whole runs follow from it.

* `complete_matches_request`: in COMPLETE the image in flash has the CRC of the context, and size
  and CRC are those of the last request, where it gave them.
* `jump_vector_valid`: COMPLETE jumps without the vector-table check that the boot path makes, so
  what is jumped to has a valid vector table in the runs whose staged images do.
-/

namespace Kinetis.Bootloader
open Lib

variable {layout : MemLayout} {ctx : Context} {b : BootInput} {flash : Flash}
  {flag : Option (List UInt8)} {m m' : Machine} {i : StepInput}

/-! ### What one round can do -/

/-- The rounds of the loop, one constructor for each way out of a state. -/
inductive Move (m : Machine) (i : StepInput) : Machine → Prop where
  | stay : Move m i m
  | command {size crc : UInt32} {filename : List UInt8} (hrun : m.phase = .running)
      (hs : m.ctx.state = .waitCmd) (hmsg : i.message = some (.updateCmd size crc filename)) :
      Move m i
        { m with
          ctx := { m.ctx with
            firmwareSize := size
            firmwareCrc32 := crc
            firmwareFilename := strncpy 64 filename
            state := .receive }
          request := some (size, crc) }
  | received (hrun : m.phase = .running) (hs : m.ctx.state = .receive) :
      Move m i (m.setState .program)
  | notReceived (hrun : m.phase = .running) (hs : m.ctx.state = .receive) :
      Move m i (m.setState .error)
  | refused {e : Errno} {h : Hal} (hrun : m.phase = .running) (hs : m.ctx.state = .program)
      (hw : writeFirmwareToChip m.ctx i ⟨m.flash, []⟩ = (some e, m.ctx, h)) :
      Move m i { m with ctx := { m.ctx with state := .error }, flash := h.mem }
  | programmed {staged : Staged} {h : Hal} (hrun : m.phase = .running)
      (hs : m.ctx.state = .program) (hstaged : checkStaged m.ctx i = .ok staged)
      (hprog : programStaged m.ctx i staged ⟨m.flash, []⟩ = (none, h)) :
      Move m i
        { m with
          ctx := { m.ctx with
            firmwareSize := staged.total
            firmwareCrc32 := staged.crc
            state := .verify }
          flash := h.mem }
  | mismatch (hrun : m.phase = .running) (hs : m.ctx.state = .verify) : Move m i (m.setState .error)
  | verified (hrun : m.phase = .running) (hs : m.ctx.state = .verify)
      (hok : verifyFlashCrc m.ctx i m.flash = .ok ()) :
      Move m i { m.setState .complete with verified := some m.flash }
  | done (hrun : m.phase = .running) (hs : m.ctx.state = .complete) :
      Move m i { deleteFlag m i with phase := .jumped }
  | abort (hrun : m.phase = .running) (hs : m.ctx.state = .error)
      (hretry : 3 ≤ (m.ctx.retryCount + 1) % 256) :
      Move m i
        { deleteFlag
            { m with ctx := { m.ctx with retryCount := (m.ctx.retryCount + 1) % 256 } } i with
          phase := .returned }
  | retry (hrun : m.phase = .running) (hs : m.ctx.state = .error) :
      Move m i
        { m with
          ctx := { m.ctx with
            retryCount := (m.ctx.retryCount + 1) % 256
            state := .waitCmd } }

theorem checkServerCmd_move (hrun : m.phase = .running) (hs : m.ctx.state = .waitCmd) :
    Move m i (checkServerCmd m i) := by
  rw [checkServerCmd]
  split
  · next hmsg => exact .command hrun hs hmsg
  · exact .stay

theorem receiveFirmware_move (hrun : m.phase = .running) (hs : m.ctx.state = .receive) :
    Move m i (receiveFirmware m i) := by
  rw [receiveFirmware]
  split
  · exact .stay
  split
  · exact .received hrun hs
  split
  · exact .stay
  · exact .notReceived hrun hs

theorem programStep_move (hrun : m.phase = .running) (hs : m.ctx.state = .program) :
    Move m i (programStep m i) := by
  rw [programStep]
  split
  · next e ctx h hw =>
      obtain rfl := writeFirmwareToChip_error hw
      exact .refused hrun hs hw
  · next ctx h hw =>
      obtain ⟨staged, hstaged, hprog, rfl⟩ := writeFirmwareToChip_ok hw
      exact .programmed hrun hs hstaged hprog

theorem verifyStep_move (hrun : m.phase = .running) (hs : m.ctx.state = .verify) :
    Move m i (verifyStep m i) := by
  rw [verifyStep]
  split
  · exact .mismatch hrun hs
  · next hok => exact .verified hrun hs hok

theorem errorStep_move (hrun : m.phase = .running) (hs : m.ctx.state = .error) :
    Move m i (errorStep m i) := by
  rw [errorStep]
  simp only
  split
  · next hretry => exact .abort hrun hs hretry
  · exact .retry hrun hs

/-- **Every round is a move.** -/
theorem step_move (m : Machine) (i : StepInput) : Move m i (step m i) := by
  rw [step]
  split
  · next hrun =>
      split
      · next hs => exact checkServerCmd_move hrun hs
      · next hs => exact receiveFirmware_move hrun hs
      · next hs => exact programStep_move hrun hs
      · next hs => exact verifyStep_move hrun hs
      · next hs => exact .done hrun hs
      · next hs => exact errorStep_move hrun hs
      · exact .stay
  · exact .stay

@[simp] theorem setState_ctx (m : Machine) (s : FsmState) :
    (m.setState s).ctx = { m.ctx with state := s } := rfl
@[simp] theorem setState_flash (m : Machine) (s : FsmState) : (m.setState s).flash = m.flash := rfl
@[simp] theorem setState_flag (m : Machine) (s : FsmState) : (m.setState s).flag = m.flag := rfl
@[simp] theorem setState_phase (m : Machine) (s : FsmState) : (m.setState s).phase = m.phase := rfl
@[simp] theorem setState_request (m : Machine) (s : FsmState) :
    (m.setState s).request = m.request := rfl
@[simp] theorem setState_verified (m : Machine) (s : FsmState) :
    (m.setState s).verified = m.verified := rfl

/-- Deleting the flag changes nothing else. -/
theorem deleteFlag_eq (m : Machine) (i : StepInput) :
    deleteFlag m i = { m with flag := if i.deleteOk then none else m.flag } := by
  rw [deleteFlag]
  split <;> rfl

/-! ### The boot decision -/

/-- The context of an accepted layout asks for nothing yet. -/
theorem bootloaderInit_eq_some (h : bootloaderInit layout = some ctx) :
    ctx.layout = layout ∧ ctx.firmwareAddr = (layout.romBase + layout.bootloaderSize).toNat ∧
      ctx.firmwarePath = [] := by
  rw [bootloaderInit] at h
  split at h
  · cases h
  · split at h
    · cases h
    · cases h
      exact ⟨rfl, rfl, rfl⟩

/-- The flag gives a request, and nothing else of the context changes but the names. -/
theorem readUpdateFlag_eq_some {flagError : Bool} {ctx' : Context} {request : UInt32 × UInt32}
    (h : readUpdateFlag ctx flagError flag = some (ctx', request)) :
    ctx' = { ctx with
      firmwareSize := request.1
      firmwareCrc32 := request.2
      firmwareFilename := ctx'.firmwareFilename
      firmwarePath := ctx'.firmwarePath } := by
  cases flag with
  | none => cases h
  | some bytes =>
    simp only [readUpdateFlag] at h
    split at h
    · cases h
    split at h
    · cases h
    cases h
    rfl

/-- What the loop starts from.  With a readable flag the update starts, or the flow returns;
without one a valid image is started at once, and otherwise the loop waits for a command. -/
inductive Booted (ctx : Context) (b : BootInput) (flash : Flash) (flag : Option (List UInt8)) :
    Machine → Prop where
  | flagFailed {ctx' : Context} {request : UInt32 × UInt32}
      (hflag : readUpdateFlag { ctx with state := .checkMode } b.flagError flag =
        some (ctx', request)) :
      Booted ctx b flash flag ⟨ctx', flash, flag, .returned, some request, none⟩
  | flagPath {ctx' : Context} {request : UInt32 × UInt32}
      (hflag : readUpdateFlag { ctx with state := .checkMode } b.flagError flag =
        some (ctx', request)) :
      Booted ctx b flash flag
        ⟨{ ctx' with state := .program }, flash, flag, .running, some request, none⟩
  | flagWait {ctx' : Context} {request : UInt32 × UInt32}
      (hflag : readUpdateFlag { ctx with state := .checkMode } b.flagError flag =
        some (ctx', request)) :
      Booted ctx b flash flag
        ⟨{ ctx' with state := .waitCmd }, flash, flag, .running, some request, none⟩
  | jump (hflag : readUpdateFlag { ctx with state := .checkMode } b.flagError flag = none)
      (hvalid : isFirmwareValid ctx flash = true) :
      Booted ctx b flash flag ⟨{ ctx with state := .jumpApp }, flash, flag, .jumped, none, none⟩
  | failed (hvalid : isFirmwareValid ctx flash = false) :
      Booted ctx b flash flag ⟨{ ctx with state := .checkMode }, flash, flag, .returned, none, none⟩
  | wait (hvalid : isFirmwareValid ctx flash = false) :
      Booted ctx b flash flag ⟨{ ctx with state := .waitCmd }, flash, flag, .running, none, none⟩

/-- **The boot decision.** -/
theorem boot_booted (hinit : bootloaderInit layout = some ctx) (b : BootInput) (flash : Flash)
    (flag : Option (List UInt8)) :
    Booted ctx b flash flag (boot ctx b flash flag) := by
  obtain ⟨-, -, hpath⟩ := bootloaderInit_eq_some hinit
  rw [boot]
  simp only
  split
  · next ctx' request hflag =>
      split
      · exact .flagFailed hflag
      split
      · exact .flagPath hflag
      · exact .flagWait hflag
  · next hflag =>
      split
      · next hvalid => exact .jump hflag hvalid
      · next hvalid =>
          have hinvalid : isFirmwareValid ctx flash = false := Bool.eq_false_iff.mpr hvalid
          split
          · exact .failed hinvalid
          · rw [if_neg (not_not.mpr hpath)]
            exact .wait hinvalid

/-! ### What COMPLETE means -/

/-- The context's size and CRC are those of the request, where it gave them. -/
def Machine.MeetsRequest (m : Machine) : Prop :=
  ∃ size crc, m.request = some (size, crc) ∧
    (size ≠ 0 → m.ctx.firmwareSize = size) ∧ (crc ≠ 0 → m.ctx.firmwareCrc32 = crc)

/-- The image in flash has the context's CRC. -/
def Machine.ImageMatches (m : Machine) : Prop :=
  checksum (readMem m.flash m.ctx.firmwareAddr m.ctx.firmwareSize.toNat) = m.ctx.firmwareCrc32

/-- What a request has become by each state. -/
structure Machine.Tracks (m : Machine) : Prop where
  pending  : m.ctx.state = .receive ∨ m.ctx.state = .program →
    m.request = some (m.ctx.firmwareSize, m.ctx.firmwareCrc32)
  meets    : m.ctx.state = .verify ∨ m.ctx.state = .complete → m.MeetsRequest
  complete : m.ctx.state = .complete → m.ImageMatches

theorem Machine.Tracks.boot (hinit : bootloaderInit layout = some ctx) :
    (boot ctx b flash flag).Tracks := by
  have hboot := boot_booted hinit b flash flag
  generalize Bootloader.boot ctx b flash flag = m at hboot
  cases hboot with
  | flagFailed hflag =>
    rw [readUpdateFlag_eq_some hflag]
    exact ⟨by simp, by simp, by simp⟩
  | flagPath hflag =>
    rw [readUpdateFlag_eq_some hflag]
    exact ⟨by simp, by simp, by simp⟩
  | flagWait hflag => exact ⟨by simp, by simp, by simp⟩
  | jump _ _ => exact ⟨by simp, by simp, by simp⟩
  | failed _ => exact ⟨by simp, by simp, by simp⟩
  | wait _ => exact ⟨by simp, by simp, by simp⟩

theorem Machine.Tracks.move (hm : m.Tracks) (hmove : Move m i m') : m'.Tracks := by
  cases hmove with
  | stay => exact hm
  | command _ _ _ => exact ⟨fun _ => rfl, by simp, by simp⟩
  | received _ hs => exact ⟨fun _ => hm.pending (.inl hs), by simp, by simp⟩
  | notReceived _ _ => exact ⟨by simp, by simp, by simp⟩
  | refused _ _ _ => exact ⟨by simp, by simp, by simp⟩
  | programmed _ hs hstaged _ =>
    -- the size and CRC of the accepted file replace those requested
    obtain ⟨-, -, -, hsize, hcrc⟩ := checkStaged_ok hstaged
    exact ⟨by simp, fun _ => ⟨_, _, hm.pending (.inr hs), hsize, hcrc⟩, by simp⟩
  | mismatch _ _ => exact ⟨by simp, by simp, by simp⟩
  | verified _ hs hok =>
    exact ⟨by simp, fun _ => hm.meets (.inl hs), fun _ => verifyFlashCrc_ok hok⟩
  | done _ hs =>
    rw [deleteFlag_eq]
    exact ⟨by simp [hs], fun _ => hm.meets (.inr hs), fun _ => hm.complete hs⟩
  | abort _ hs _ =>
    rw [deleteFlag_eq]
    exact ⟨by simp [hs], by simp [hs], by simp [hs]⟩
  | retry _ _ => exact ⟨by simp, by simp, by simp⟩

/-- `BOOTLOADER_SIZE`, `FIRMWARE_MAX_SIZE` and the other defaults of `bootloader.h`, with the SRAM
of the application. -/
def defaultLayout : MemLayout where
  romBase := 0x08000000
  romSize := 0x100000
  bootloaderSize := 0x10000
  firmwareMaxSize := 0xF0000
  sramStart := 0x20000000
  sramEnd := 0x20040000

def defaultContext : Context where
  layout := defaultLayout
  firmwareAddr := 0x08010000
  firmwareSize := 0
  firmwareCrc32 := 0
  firmwareFilename := []
  firmwarePath := []
  state := .init
  retryCount := 0

/-- A round in which nothing is received and nothing fails, with one file on the card. -/
def StepInput.quiet (file : List UInt8) : StepInput where
  message := none
  dataAvailable := false
  rz := 0
  allocOk := true
  files := fun _ => some file
  readError₁ := none
  copyOk := true
  reopenOk := true
  readError₂ := none
  faults := fun _ => none
  deleteOk := true

/-- The machine after booting with an update flag that names a staged file, size and CRC left
open. -/
def bootStaged (flash : Flash) : Machine :=
  boot defaultContext ⟨false, true⟩ flash
    (some (bootloaderWriteUpdateFlag 0 0 [] (ascii "0:/app.bin")))

/-- An image of a vector table alone: stack pointer `0x20040000`, reset vector `0x08010009`. -/
def vectorImage : List UInt8 := [0x00, 0x00, 0x04, 0x20, 0x09, 0x00, 0x01, 0x08]

/-- The two words of the vector table at the front of an image. -/
def imageVectorValid (layout : MemLayout) (image : List UInt8) : Bool :=
  vectorValid layout (.ofNat (leNat (slice image 0 4))) (.ofNat (leNat (slice image 4 4)))

theorem isFirmwareValid_of_image {n : Nat} (hn : 8 ≤ n) (hend : ctx.firmwareAddr + n ≤ romEnd) :
    isFirmwareValid ctx flash =
      imageVectorValid ctx.layout (readMem flash ctx.firmwareAddr n) := by
  have hsp : stm32FlashRead flash ctx.firmwareAddr 4 = some (readMem flash ctx.firmwareAddr 4) :=
    stm32FlashRead_eq_some.mpr ⟨by omega, rfl⟩
  have hreset : stm32FlashRead flash (ctx.firmwareAddr + 4) 4 =
      some (readMem flash (ctx.firmwareAddr + 4) 4) :=
    stm32FlashRead_eq_some.mpr ⟨by omega, rfl⟩
  rw [isFirmwareValid, hsp, hreset, imageVectorValid, slice_readMem flash _ (by omega),
    slice_readMem flash _ (by omega)]
  rfl

/-- **A bootable input.**  A staged file that is accepted, and whose image would pass the
verification, is long enough for a vector table and starts with a valid one. -/
def StepInput.Bootable (i : StepInput) (ctx : Context) : Prop :=
  ∀ staged, checkStaged ctx i = .ok staged → checksum (i.image staged) = staged.crc →
    8 ≤ staged.total.toNat ∧ imageVectorValid ctx.layout (i.image staged) = true

/-- What is known of the vector table in each state. -/
structure Machine.Vectored (m : Machine) : Prop where
  verify   : m.ctx.state = .verify → m.ImageMatches → isFirmwareValid m.ctx m.flash = true
  complete : m.ctx.state = .complete → isFirmwareValid m.ctx m.flash = true
  jumped   : m.phase = .jumped → isFirmwareValid m.ctx m.flash = true

theorem Machine.Vectored.boot (hinit : bootloaderInit layout = some ctx) :
    (boot ctx b flash flag).Vectored := by
  have hboot := boot_booted hinit b flash flag
  generalize Bootloader.boot ctx b flash flag = m at hboot
  cases hboot with
  | flagFailed hflag =>
    rw [readUpdateFlag_eq_some hflag]
    exact ⟨by simp, by simp, by simp⟩
  | flagPath _ => exact ⟨by simp, by simp, by simp⟩
  | flagWait _ => exact ⟨by simp, by simp, by simp⟩
  | jump _ hvalid => exact ⟨by simp, by simp, fun _ => hvalid⟩
  | failed _ => exact ⟨by simp, by simp, by simp⟩
  | wait _ => exact ⟨by simp, by simp, by simp⟩

theorem Machine.Vectored.move (hm : m.Vectored) (hok : m.ctx.state = .program → i.Bootable m.ctx)
    (hmove : Move m i m') : m'.Vectored := by
  cases hmove with
  | stay => exact hm
  | command hrun _ _ => exact ⟨by simp, by simp, by simp [hrun]⟩
  | received hrun _ => exact ⟨by simp, by simp, by simp [hrun]⟩
  | notReceived hrun _ => exact ⟨by simp, by simp, by simp [hrun]⟩
  | refused hrun _ _ => exact ⟨by simp, by simp, by simp [hrun]⟩
  | programmed hrun hs hstaged hprog =>
    refine ⟨fun _ hmatch => ?_, by simp, by simp [hrun]⟩
    obtain ⟨hend, himage⟩ := programStaged_ok hprog
    rw [Machine.ImageMatches, himage] at hmatch
    obtain ⟨hlen, hvector⟩ := hok hs _ hstaged hmatch
    rw [← himage] at hvector
    exact (isFirmwareValid_of_image hlen hend).trans hvector
  | mismatch hrun _ => exact ⟨by simp, by simp, by simp [hrun]⟩
  | verified hrun hs hv => exact ⟨by simp, fun _ => hm.verify hs (verifyFlashCrc_ok hv), by simp [hrun]⟩
  | done _ hs =>
    rw [deleteFlag_eq]
    exact ⟨by simp [hs], fun _ => hm.complete hs, fun _ => hm.complete hs⟩
  | abort _ hs _ =>
    rw [deleteFlag_eq]
    exact ⟨by simp [hs], by simp [hs], by simp⟩
  | retry hrun _ => exact ⟨by simp, by simp, by simp [hrun]⟩

/-- **Every jump finds a valid vector table**, in the runs whose staged images are bootable. -/
theorem jump_vector_valid (hinit : bootloaderInit layout = some ctx)
    (hrun : Run (fun m i => m.ctx.state = .program → i.Bootable m.ctx) step
      (boot ctx b flash flag) m)
    (hjump : m.phase = .jumped) : isFirmwareValid m.ctx m.flash = true := by
  have hm : m.Vectored := hrun.invariant
    (fun s i hs hok => hs.move hok (step_move s i)) (Machine.Vectored.boot hinit)
  exact hm.jumped hjump

theorem jump_vector_valid_staged :
    let m := step (step (step (bootStaged fun _ => 0xFF) (.quiet vectorImage))
      (.quiet vectorImage)) (.quiet vectorImage)
    m.phase = .jumped ∧ isFirmwareValid m.ctx m.flash = true := by
  have hphase : (step (step (step (bootStaged fun _ => 0xFF) (.quiet vectorImage))
      (.quiet vectorImage)) (.quiet vectorImage)).phase = .jumped := by decide +kernel
  have hinit : bootloaderInit defaultLayout = some defaultContext := by decide +kernel
  have hstaged : checkStaged (bootStaged fun _ => 0xFF).ctx (.quiet vectorImage) =
      .ok ⟨vectorImage, 8, checksum vectorImage⟩ := by decide +kernel
  -- the first round programs; the other two verify and jump
  have hbootable : (StepInput.quiet vectorImage).Bootable (bootStaged fun _ => 0xFF).ctx := by
    intro staged hok _
    rw [hstaged] at hok
    cases hok
    exact ⟨by decide +kernel, by decide +kernel⟩
  refine ⟨hphase, jump_vector_valid hinit (.more (fun _ => hbootable) (.more ?_ (.more ?_ (.refl _))))
    hphase⟩
  · exact fun hs => absurd hs (by decide +kernel)
  · exact fun hs => absurd hs (by decide +kernel)

/-- Eight zero bytes staged without a size or CRC are programmed, verified and jumped to. -/
theorem jump_to_zero_image :
    ¬ ∀ (layout : MemLayout) (ctx : Context) (b : BootInput) (flash : Flash)
      (flag : Option (List UInt8)) (m : Machine), bootloaderInit layout = some ctx →
      Run (fun _ _ => True) step (boot ctx b flash flag) m → m.phase = .jumped →
      isFirmwareValid m.ctx m.flash = true := by
  intro hall
  have hinit : bootloaderInit defaultLayout = some defaultContext := by decide +kernel
  have hvalid := hall _ _ ⟨false, true⟩ (fun _ => 0xFF) _
    (step (step (step (bootStaged fun _ => 0xFF) (.quiet (List.replicate 8 0)))
      (.quiet (List.replicate 8 0))) (.quiet (List.replicate 8 0)))
    hinit (.more trivial (.more trivial (.more trivial (.refl _)))) (by decide +kernel)
  exact absurd hvalid (by decide +kernel)

end Kinetis.Bootloader
