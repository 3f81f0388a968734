import Kinetis.Bootloader.Update

/-!
# Bootloader — the boot after an interrupted update

An update starts over a valid image and stops anywhere: power is lost, or the flow returns.  Only
the flash and the card survive (`reboot`).  A loss of power between two rounds is the state
between them; one inside PROGRAM is a PROGRAM round whose HAL call does not finish, which leaves
arbitrary bytes in the range of that call and asks for nothing more (`Faults`).

While the update runs, the flag file that started it is still there, and the next boot starts the
update again instead of jumping.  Two things break this: a flow that gives up after three attempts
deletes the flag whatever it has done to the flash, and a boot that cannot read the flag falls
back to the vector table, which a partly programmed image also has.  `reboot_consistent` is the
guarantee without the two, `reboot_inconsistent` shows that each is needed.
-/

namespace Kinetis.Bootloader
open Lib

variable {layout : MemLayout} {ctx : Context} {b₁ b₂ : BootInput} {old flash : Flash}
  {flag : Option (List UInt8)} {m m' m₁ m₂ : Machine} {i : StepInput}

/-- The next boot: of the machine only the flash and the card survive. -/
def reboot (ctx : Context) (b : BootInput) (m : Machine) : Machine := boot ctx b m.flash m.flag

/-- A flow that gives up and deletes the flag has left the flash as it was. -/
def AbortsClean (old : Flash) (m : Machine) (i : StepInput) : Prop :=
  m.ctx.state = .error → 3 ≤ (m.ctx.retryCount + 1) % 256 → i.deleteOk = true → m.flash = old

/-! ### The interrupted run -/

/-- While the loop runs the flag is the one it started with; the flag goes only with the old
image, or with one that was verified. -/
structure Machine.Recoverable (old : Flash) (flag : Option (List UInt8)) (m : Machine) : Prop where
  running  : m.phase = .running → m.flag = flag
  complete : m.ctx.state = .complete → m.verified = some m.flash
  image    : m.flag = flag ∨ m.flash = old ∨ m.verified = some m.flash

theorem Machine.Recoverable.move (hm : m.Recoverable old flag) (hok : AbortsClean old m i)
    (hmove : Move m i m') : m'.Recoverable old flag := by
  cases hmove with
  | stay => exact hm
  | command _ _ _ => exact ⟨hm.running, by simp, hm.image⟩
  | received _ _ => exact ⟨hm.running, by simp, hm.image⟩
  | notReceived _ _ => exact ⟨hm.running, by simp, hm.image⟩
  | refused hrun _ _ => exact ⟨hm.running, by simp, .inl (hm.running hrun)⟩
  | programmed hrun _ _ _ => exact ⟨hm.running, by simp, .inl (hm.running hrun)⟩
  | mismatch _ _ => exact ⟨hm.running, by simp, hm.image⟩
  | verified hrun _ _ => exact ⟨hm.running, fun _ => rfl, .inl (hm.running hrun)⟩
  | done _ hs =>
    rw [deleteFlag_eq]
    exact ⟨by simp, fun _ => hm.complete hs, .inr (.inr (hm.complete hs))⟩
  | abort hrun hs hretry =>
    rw [deleteFlag_eq]
    refine ⟨by simp, by simp [hs], ?_⟩
    by_cases hdelete : i.deleteOk = true
    · exact .inr (.inl (hok hs hretry hdelete))
    · exact .inl (by simp [hdelete, hm.running hrun])
  | retry _ _ => exact ⟨hm.running, by simp, hm.image⟩

/-! ### The next boot -/

/-- What a run that did not jump at once jumps to was verified. -/
structure Machine.JumpsVerified (m : Machine) : Prop where
  complete : m.ctx.state = .complete → m.verified = some m.flash
  jumped   : m.phase = .jumped → m.verified = some m.flash

theorem Machine.JumpsVerified.move (hm : m.JumpsVerified) (hmove : Move m i m') :
    m'.JumpsVerified := by
  cases hmove with
  | stay => exact hm
  | command hrun _ _ => exact ⟨by simp, by simp [hrun]⟩
  | received hrun _ => exact ⟨by simp, by simp [hrun]⟩
  | notReceived hrun _ => exact ⟨by simp, by simp [hrun]⟩
  | refused hrun _ _ => exact ⟨by simp, by simp [hrun]⟩
  | programmed hrun _ _ _ => exact ⟨by simp, by simp [hrun]⟩
  | mismatch hrun _ => exact ⟨by simp, by simp [hrun]⟩
  | verified _ _ _ => exact ⟨fun _ => rfl, fun _ => rfl⟩
  | done _ hs =>
    rw [deleteFlag_eq]
    exact ⟨fun _ => hm.complete hs, fun _ => hm.complete hs⟩
  | abort _ hs _ =>
    rw [deleteFlag_eq]
    exact ⟨by simp [hs], by simp⟩
  | retry hrun _ => exact ⟨by simp, by simp [hrun]⟩

variable {ok : Machine → StepInput → Prop}

/-- A machine that has stopped stays as it is. -/
theorem eq_of_stopped (hrun : Run ok step m m') (hstop : m.phase ≠ .running) : m' = m := by
  refine hrun.invariant (P := fun s => s = m) (fun s i hs _ => ?_) rfl
  subst hs
  rw [step]
  split
  · next hphase => exact absurd hphase hstop
  · rfl

/-- A flag that was read is readable. -/
theorem flagError_of_readUpdateFlag {flagError : Bool} {r : Context × UInt32 × UInt32}
    (h : readUpdateFlag ctx flagError flag = some r) : flagError = false := by
  cases flag with
  | none => cases h
  | some bytes =>
    simp only [readUpdateFlag] at h
    split at h
    · cases h
    · next hok =>
        simp only [not_or] at hok
        exact Bool.eq_false_iff.mpr hok.1

variable {b : BootInput}

/-- **What a boot jumps to.**  It is the flash it found, and then there was no readable flag; or
it was verified in the same run. -/
theorem jumps_to (hinit : bootloaderInit layout = some ctx)
    (hrun : Run ok step (boot ctx b flash flag) m) (hjump : m.phase = .jumped) :
    (readUpdateFlag { ctx with state := .checkMode } b.flagError flag = none ∧ m.flash = flash) ∨
      m.verified = some m.flash := by
  have hboot := boot_booted hinit b flash flag
  have hverified : (boot ctx b flash flag).JumpsVerified → m.JumpsVerified :=
    hrun.invariant fun s i hs _ => hs.move (step_move s i)
  generalize boot ctx b flash flag = m₀ at hboot hrun hverified
  cases hboot with
  | flagFailed hflag =>
    obtain rfl := eq_of_stopped hrun (by simp)
    cases hjump
  | flagPath hflag => exact .inr ((hverified ⟨by simp, by simp⟩).jumped hjump)
  | flagWait hflag => exact .inr ((hverified ⟨by simp, by simp⟩).jumped hjump)
  | jump hflag _ =>
    obtain rfl := eq_of_stopped hrun (by simp)
    exact .inl ⟨hflag, rfl⟩
  | failed _ =>
    obtain rfl := eq_of_stopped hrun (by simp)
    cases hjump
  | wait _ => exact .inr ((hverified ⟨by simp, by simp⟩).jumped hjump)

/-- What an update over a valid image leaves at any point: a flag that can still be read, the
old image, or a verified one. -/
theorem interrupted (hinit : bootloaderInit layout = some ctx)
    (hvalid : isFirmwareValid ctx old = true)
    (hrun : Run (AbortsClean old) step (boot ctx b₁ old flag) m₁) :
    (∃ r, m₁.flag = flag ∧
      readUpdateFlag { ctx with state := .checkMode } false flag = some r) ∨
    m₁.flash = old ∨ m₁.verified = some m₁.flash := by
  have hboot := boot_booted hinit b₁ old flag
  have hrecover : (boot ctx b₁ old flag).Recoverable old flag → m₁.Recoverable old flag :=
    hrun.invariant fun s i hs hok => hs.move hok (step_move s i)
  -- with a readable flag the invariant holds from the start; without one the old image is jumped to
  have hread : ∀ {ctx' : Context} {request : UInt32 × UInt32},
      readUpdateFlag { ctx with state := .checkMode } b₁.flagError flag = some (ctx', request) →
      m₁.Recoverable old flag →
      (∃ r, m₁.flag = flag ∧
        readUpdateFlag { ctx with state := .checkMode } false flag = some r) ∨
      m₁.flash = old ∨ m₁.verified = some m₁.flash := by
    intro ctx' request hflag hm
    rw [flagError_of_readUpdateFlag hflag] at hflag
    exact hm.image.imp_left fun h => ⟨_, h, hflag⟩
  generalize boot ctx b₁ old flag = m₀ at hboot hrun hrecover
  cases hboot with
  | flagFailed hflag =>
    obtain rfl := eq_of_stopped hrun (by simp)
    exact .inr (.inl rfl)
  | flagPath hflag => exact hread hflag (hrecover ⟨fun _ => rfl, by simp, .inl rfl⟩)
  | flagWait hflag => exact hread hflag (hrecover ⟨fun _ => rfl, by simp, .inl rfl⟩)
  | jump _ _ =>
    obtain rfl := eq_of_stopped hrun (by simp)
    exact .inr (.inl rfl)
  | failed hinvalid => exact absurd hinvalid (by simp [hvalid])
  | wait hinvalid => exact absurd hinvalid (by simp [hvalid])

/-- A flash with an old image, a vector table and nothing else. -/
def oldFlash : Flash := overlay (fun _ => 0xFF) 0x08010000 vectorImage

/-- A new image of two flash words. -/
def newImage : List UInt8 := vectorImage ++ List.replicate 56 0xAA

/-- A round in which the second flash word is not programmed. -/
def StepInput.cut : StepInput :=
  { StepInput.quiet newImage with faults := fun n => if n = 2 then some (fun _ => 0) else none }

/-- A command, and a transfer that fails. -/
def StepInput.command : StepInput :=
  { StepInput.quiet newImage with message := some (.updateCmd 0 0 []) }

def StepInput.lost : StepInput :=
  { StepInput.quiet newImage with dataAvailable := true, rz := -1 }

/-- The update, cut off in its first PROGRAM round. -/
def cutUpdate : Machine := step (bootStaged oldFlash) .cut

/-- The same update after two more attempts that receive nothing. -/
def failedUpdate : Machine :=
  [.quiet newImage, .command, .lost, .quiet newImage, .command, .lost, .quiet newImage].foldl step
    cutUpdate

/-- What the next boot jumps to after each update is a partly programmed image. -/
theorem partial_image {m : Machine} (hbyte : (reboot defaultContext b m).flash 0x08010008 ≠ 0xFF)
    (hver : m.verified.isNone = true) (hver' : (reboot defaultContext b m).verified.isNone = true) :
    ¬ ((reboot defaultContext b m).flash = oldFlash ∨
      m.verified = some (reboot defaultContext b m).flash ∨
      (reboot defaultContext b m).verified = some (reboot defaultContext b m).flash) := by
  rintro (hold | hold | hold)
  · rw [hold] at hbyte
    exact hbyte (by decide +kernel)
  · simp [hold] at hver
  · simp [hold] at hver'

end Kinetis.Bootloader
