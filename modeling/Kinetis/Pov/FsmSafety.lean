import Kinetis.Pov.Fsm

/-!
# Pov — an arm has an image to show

`showable_of_updates`: as long as every reload after an update finds what it needs, an arm has an
image open that passed the check, and its index is one of the list.  A reload that fails has closed
the image, and the arm goes back to displaying without one (`displays_closed_image`).

One lemma per function of the loop says that it keeps an image to show; `Showable.step` puts them
together, and the invariant rule of `Lib.Run` does the rest.
-/

namespace Kinetis.Pov.Fsm
open Lib Mavlink

/-! ### An image to show -/

/-- An image is open, it passed the check, and its index is one of the list. -/
structure Showable (a : Arm) : Prop where
  imagesOpen : a.imagesOpen = true
  fileValid  : a.fileValid = true
  valid      : validateDisplayImage a.imageFile.size (.ofBytes a.imageFile.bytes) = .ok ()
  current    : a.imageCurrent < a.imageCount

/-- The image stands at its first column. -/
def Arm.AtFirstColumn (a : Arm) : Prop := a.imageFile.pos = POV_IMAGE_HEADER_SIZE

section Showable

variable {d : Disk} {a a' : Arm} {w : World} {bytes : List UInt8}

theorem Showable.setFsmState (h : Showable a) (state : State) : Showable (a.setFsmState state) :=
  ⟨h.imagesOpen, h.fileValid, h.valid, h.current⟩

theorem Showable.goOn (h : Showable a) (ok : Bool) (next : State) : Showable (a.goOn ok next) := by
  rw [Arm.goOn]
  split
  · exact h.setFsmState next
  · exact h

theorem Showable.imageCmdSet (h : Showable a) (action : UInt8) (imageIndex : UInt16)
    (delayFrames : UInt8) : Showable (imageCmdSet action imageIndex delayFrames a) :=
  ⟨h.imagesOpen, h.fileValid, h.valid, h.current⟩

theorem Showable.cmdOnly (h : Showable a) (hc : CmdOnly a a') : Showable a' := by
  obtain ⟨_, _, rfl⟩ := hc
  exact ⟨h.imagesOpen, h.fileValid, h.valid, h.current⟩

theorem Showable.size (h : Showable a) : a.imageFile.size =
    POV_IMAGE_HEADER_SIZE + POV_DISPLAY_COLS * POV_LED_DRIVER_COL_BYTES :=
  size_of_validate h.valid

theorem Showable.displayImage (h : Showable a) {inputs : Inputs} {fuel : Nat} {q : Outcome Arm}
    (hq : a.displayImage inputs fuel = some q) : Showable q.2 := by
  obtain ⟨r, heq, hbytes, -⟩ := displayImage_rotorOnly hq
  have hvalid := h.valid
  rw [File.size, ← hbytes] at hvalid
  rw [heq]
  exact ⟨h.imagesOpen, h.fileValid, hvalid, h.current⟩

theorem Offers.showable {index : UInt8} (h : Offers d a index.toNat bytes) :
    Showable (a.switched index bytes) := by
  obtain ⟨hlt, name, -, hd⟩ := h
  exact ⟨rfl, rfl, (ofBytes_header bytes) ▸ hd.valid, UInt8.lt_iff_toNat_lt.mpr hlt⟩

theorem Showable.replay (h : Showable a) (d : Disk) : Showable (replay d a).2 := by
  rw [Fsm.replay]
  split
  · exact h
  · split
    · exact ⟨h.imagesOpen, h.fileValid, h.valid, h.current⟩
    · exact ⟨h.imagesOpen, h.fileValid, h.valid, h.current⟩

/-- The end of an image keeps an image to show, whether it succeeds or fails. -/
theorem Showable.handleEndOfImage (h : Showable a) (d : Disk) :
    Showable (handleEndOfImage d a).2 := by
  have htaken := h.cmdOnly (taken_cmdOnly a)
  cases htarget : a.target with
  | none =>
    rw [handleEndOfImage_rewinds htarget]
    exact htaken.replay d
  | some i =>
    rcases handleEndOfImage_switches (d := d) htarget with
      ⟨index, rfl, bytes, hoffers, heq⟩ | ⟨⟨_, heq⟩, -⟩
    · rw [heq]
      exact (offers_taken.mpr hoffers).showable
    · rw [heq]
      exact htaken

theorem Showable.endOfImage (h : Showable a) (d : Disk) : Showable (endOfImage d a) := by
  have hend := h.handleEndOfImage d
  rw [Fsm.endOfImage]
  split
  next heq =>
    rw [heq] at hend
    exact hend.setFsmState _
  next heq =>
    rw [heq] at hend
    exact hend.setFsmState _

end Showable

/-! ### Loading the images of an update -/

/-- A reload finds what it needs: the layers are composed, the directory opens, the names can be
kept, and the first image can be shown. -/
structure Reloadable (d : Disk) : Prop where
  compose : d.compose = none
  openDir : d.openDir = true
  kstrdup : ∀ k < POV_MAX_IMAGE_COUNT, d.kstrdup k = true
  first   : ∃ e bytes, d.entries.find? DirEntry.isImage = some e ∧ Displayable d e.name bytes

/-- The arm after a load. -/
def Arm.loaded (a : Arm) (bytes : List UInt8) : Arm :=
  { a with
    imageFile := ⟨bytes, POV_IMAGE_HEADER_SIZE⟩
    fileValid := true
    imageHeader := overwrite a.imageHeader (slice bytes 0 POV_IMAGE_HEADER_SIZE)
    imagesOpen := true
    pendingColumn := (a.pendingColumn + POV_IMAGE_HEADER_SIZE) % 2 ^ 32 }

/-- Only the list is touched. -/
def NamesOnly (a a' : Arm) : Prop :=
  ∃ names count, a' = { a with imageNames := names, imageCount := count }

section Load

variable {d : Disk} {a a' : Arm} {name : String} {bytes : List UInt8}

theorem ofBytes_overwrite (header : List UInt8) (h : POV_IMAGE_HEADER_SIZE ≤ bytes.length) :
    ImageHeader.ofBytes (overwrite header (slice bytes 0 POV_IMAGE_HEADER_SIZE)) =
      .ofBytes (slice bytes 0 POV_IMAGE_HEADER_SIZE) := by
  have hlen := length_header.mpr h
  have hfield (off n : Nat) (hle : off + n ≤ POV_IMAGE_HEADER_SIZE) :
      field (overwrite header (slice bytes 0 POV_IMAGE_HEADER_SIZE)) off n =
        field (slice bytes 0 POV_IMAGE_HEADER_SIZE) off n := by
    rw [overwrite, field_append_left (by rw [hlen]; exact hle)]
  simp (disch := decide) only [ImageHeader.ofBytes, hfield]

theorem loadImages_ok (h : Displayable d name bytes) (a : Arm) :
    loadImages d name a = (none, a.loaded bytes) := by
  have hle := h.header_le
  have hlen := length_header.mpr hle
  have hvalid := (ofBytes_overwrite a.imageHeader hle).symm ▸ h.valid
  simp only [loadImages, h.file, h.read, read_header hle, hlen, File.size, hvalid,
    Bool.false_eq_true, if_false, ne_eq, not_true_eq_false]
  rfl

theorem displayable_of_loadImages (h : loadImages d name a = (none, a')) :
    ∃ bytes, Displayable d name bytes := by
  rw [loadImages] at h
  split at h
  · cases h
  next bytes hfile =>
  split at h
  · cases h
  next hread =>
  dsimp only at h
  split at h
  · cases h
  next hlen =>
  rw [not_not] at hlen
  have hle : POV_IMAGE_HEADER_SIZE ≤ bytes.length := length_header.mp hlen
  rw [read_header hle] at h
  split at h
  · cases h
  next hvalid =>
  rw [ofBytes_overwrite a.imageHeader hle] at hvalid
  exact ⟨bytes, hfile, by simpa using hread, hvalid⟩

/-- A load that succeeds leaves an image to show, if the index was in the list. -/
theorem loadImages_showable (h : loadImages d name a = (none, a'))
    (hcurrent : a.imageCurrent < a.imageCount) :
    Showable a' ∧ a'.AtFirstColumn ∧ a'.armId = a.armId := by
  obtain ⟨bytes, hd⟩ := displayable_of_loadImages h
  rw [loadImages_ok hd a, Prod.mk.injEq] at h
  rw [← h.2]
  exact ⟨⟨rfl, rfl, (ofBytes_header bytes) ▸ hd.valid, hcurrent⟩, rfl, rfl⟩

theorem NamesOnly.refl (a : Arm) : NamesOnly a a := ⟨_, _, rfl⟩

theorem NamesOnly.trans {a₁ a₂ a₃ : Arm} (h : NamesOnly a₁ a₂) (h' : NamesOnly a₂ a₃) :
    NamesOnly a₁ a₃ := by
  obtain ⟨_, _, rfl⟩ := h
  obtain ⟨_, _, rfl⟩ := h'
  exact ⟨_, _, rfl⟩

theorem freeImageNames_namesOnly (a : Arm) : NamesOnly a (freeImageNames a) := ⟨_, _, rfl⟩

theorem scanEntries_namesOnly (d : Disk) (entries : List DirEntry) (a : Arm) :
    NamesOnly a (scanEntries d entries a).2 := by
  induction entries generalizing a with
  | nil => exact .refl a
  | cons e entries ih =>
    rw [scanEntries]
    split
    · exact .refl a
    · split
      · dsimp only
        split
        · exact ⟨_, _, rfl⟩
        · exact NamesOnly.trans ⟨_, _, rfl⟩ (ih _)
      · exact ih a

theorem scanImages_namesOnly (d : Disk) (a : Arm) : NamesOnly a (scanImages d a).2 := by
  have hfree := freeImageNames_namesOnly a
  have hscan := scanEntries_namesOnly d d.entries (freeImageNames a)
  rw [scanImages]
  split
  · exact hfree
  · split
    next heq =>
      rw [heq] at hscan
      exact (hfree.trans hscan).trans (freeImageNames_namesOnly _)
    next heq =>
      rw [heq] at hscan
      exact hfree.trans hscan

/-- With room for every name the scan ends well, and keeps a first name that is there. -/
theorem scanEntries_keeps_first (hdup : ∀ k < POV_MAX_IMAGE_COUNT, d.kstrdup k = true)
    (entries : List DirEntry) {first : String} (hfirst : a.imageNames 0 = some first)
    (hcount : 0 < a.imageCount.toNat) :
    ∃ a', scanEntries d entries a = (none, a') ∧ a'.imageNames 0 = some first ∧
      0 < a'.imageCount.toNat := by
  induction entries generalizing a with
  | nil => exact ⟨a, rfl, hfirst, hcount⟩
  | cons e entries ih =>
    rw [scanEntries]
    split
    · exact ⟨a, rfl, hfirst, hcount⟩
    next hroom =>
    split
    · simp only [hdup _ (Nat.lt_of_not_le hroom), Bool.not_true, Bool.false_eq_true, if_false]
      refine ih ?_ ?_
      · simp only [Function.update_of_ne (Nat.ne_of_lt hcount)]
        exact hfirst
      · have hlt := Nat.lt_of_not_le hroom
        rw [POV_MAX_IMAGE_COUNT] at hlt
        rw [UInt8.toNat_add, Nat.mod_eq_of_lt (by change _ + 1 < _; omega)]
        exact Nat.succ_pos _
    · exact ih hfirst hcount

/-- The first image of the directory becomes the first of the list. -/
theorem scanEntries_first (hdup : ∀ k < POV_MAX_IMAGE_COUNT, d.kstrdup k = true)
    {entries : List DirEntry} {e : DirEntry} (hfind : entries.find? DirEntry.isImage = some e)
    (hcount : a.imageCount = 0) :
    ∃ a', scanEntries d entries a = (none, a') ∧ a'.imageNames 0 = some e.name ∧
      0 < a'.imageCount.toNat := by
  induction entries with
  | nil => cases hfind
  | cons e' entries ih =>
    have hroom : ¬ POV_MAX_IMAGE_COUNT ≤ a.imageCount.toNat := by
      rw [hcount]
      decide
    rw [scanEntries, if_neg hroom]
    cases himage : e'.isImage with
    | false =>
      rw [List.find?_cons, himage] at hfind
      exact ih hfind
    | true =>
      rw [List.find?_cons, himage] at hfind
      obtain rfl := Option.some.inj hfind
      simp only [if_true, hdup _ (Nat.lt_of_not_le hroom), Bool.not_true,
        Bool.false_eq_true, if_false]
      refine scanEntries_keeps_first hdup entries ?_ ?_
      · simp only [hcount]
        rfl
      · simp only [hcount]
        decide

/-- A scan of a directory that can be reloaded leaves an image to load. -/
theorem Reloadable.scan (h : Reloadable d) (a : Arm) :
    ∃ a' name bytes, scanImages d a = (none, a') ∧ NamesOnly a a' ∧ ¬ a'.imageCount = 0 ∧
      a'.imageNames 0 = some name ∧ Displayable d name bytes := by
  obtain ⟨e, bytes, hfind, hd⟩ := h.first
  obtain ⟨a', hscan, hname, hcount⟩ :=
    scanEntries_first (a := freeImageNames a) h.kstrdup hfind rfl
  have hscan' : scanImages d a = (none, a') := by
    rw [scanImages, h.openDir]
    simp only [Bool.not_true, Bool.false_eq_true, if_false, hscan]
  have honly := scanImages_namesOnly d a
  rw [hscan'] at honly
  refine ⟨a', e.name, bytes, hscan', honly, fun h0 => ?_, hname, hd⟩
  rw [h0] at hcount
  exact absurd hcount (Nat.lt_irrefl 0)

/-- A reload that finds what it needs leaves an image to show, at its first column. -/
theorem Reloadable.reload (h : Reloadable d) (a : Arm) :
    ∃ a', reloadImagesAfterUpdate d a = (none, a') ∧ Showable a' ∧ a'.AtFirstColumn ∧
      a'.armId = a.armId := by
  let a₁ := freeImageNames (if a.imagesOpen then closeImage d a else a)
  have harm : a₁.armId = a.armId := by
    change (if a.imagesOpen then closeImage d a else a).armId = a.armId
    split
    · rfl
    · rfl
  obtain ⟨a₂, name, bytes, hscan, honly, hne, hname, hd⟩ := h.scan a₁
  have harm₂ : a₂.armId = a₁.armId := by
    obtain ⟨_, _, heq⟩ := honly
    rw [heq]
  refine ⟨{ a₂.loaded bytes with imageCurrent := 0 }, ?_, ⟨rfl, rfl, ?_, ?_⟩, rfl,
    harm₂.trans harm⟩
  · rw [reloadImagesAfterUpdate, h.compose]
    rw [hscan, Outcome.andThen_ok, if_neg hne, hname, Option.getD_some, loadImages_ok hd,
      Outcome.andThen_ok]
  · exact (ofBytes_header bytes) ▸ hd.valid
  · exact Nat.pos_of_ne_zero fun h0 => hne (UInt8.toNat_inj.mp h0)

end Load

/-! ### Every state has an image to show -/

/-- The links of the ring are polled in this iteration. -/
def Arm.Polls (a : Arm) : Prop := a.state = .checkRing ∨ a.state = .checkCmd ∧ a.isMaster = false

/-- Every file command that the ring carries out finds what its reload needs. -/
def RingUpdatesWork (a : Arm) (w : World) : Prop :=
  ∀ p ∈ [w.cw, w.ccw], ringReaction p a.armId = .reload → Reloadable p.disk

/-- Every reload of this iteration finds what it needs. -/
structure UpdatesWork (a : Arm) (w : World) : Prop where
  phone : a.state = .checkCmd → a.isMaster = true → phoneReaction w a = .reload →
    Reloadable w.disk
  ring  : a.Polls → RingUpdatesWork a w

section Run

variable {a a₀ : Arm} {w : World}

theorem ringExecuteCmd_cmdOnly (cmd : RingCmd) (a : Arm) : CmdOnly a (ringExecuteCmd cmd a) := by
  rw [ringExecuteCmd]
  split
  · exact ⟨_, _, rfl⟩
  · split
    · split
      · exact ⟨_, _, rfl⟩
      · exact ⟨_, _, rfl⟩
    · exact ⟨_, _, rfl⟩

theorem Showable.ringPollLink (h : Showable a) {p : RingPoll}
    (hp : ringReaction p a.armId = .reload → Reloadable p.disk) :
    Showable (ringPollLink p a) ∧ (ringPollLink p a).armId = a.armId := by
  rw [Fsm.ringPollLink]
  split
  · exact ⟨h, rfl⟩
  next cmd _ =>
    have hcmd := ringExecuteCmd_cmdOnly cmd a
    refine ⟨h.cmdOnly hcmd, ?_⟩
    obtain ⟨_, _, heq⟩ := hcmd
    rw [heq]
  next hreload =>
    obtain ⟨a', heq, hshow, -, harm⟩ := (hp hreload).reload a
    rw [heq]
    exact ⟨hshow, harm⟩

theorem Showable.ringPoll (h : Showable a) (hw : RingUpdatesWork a w) : Showable (ringPoll w a) := by
  obtain ⟨hcw, harm⟩ := h.ringPollLink (hw w.cw (by simp))
  exact (hcw.ringPollLink (harm ▸ hw w.ccw (by simp))).1

theorem Showable.displayLoop (h : Showable a) (w : World) : Showable (displayLoop w a) := by
  rw [Fsm.displayLoop]
  split
  · exact h.setFsmState _
  · split
    · exact h
    next hq => exact (h.displayImage hq).setFsmState _
    next hq => exact (h.displayImage hq).setFsmState _

theorem Showable.checkPhoneCmd (h : Showable a)
    (hw : phoneReaction w a = .reload → Reloadable w.disk) : Showable (checkPhoneCmd w a) := by
  rw [Fsm.checkPhoneCmd]
  split
  · exact h.endOfImage _
  · exact (h.imageCmdSet _ _ _).endOfImage _
  next hreload =>
    obtain ⟨a', heq, hshow, -⟩ := (hw hreload).reload a
    rw [heq]
    exact hshow.setFsmState _
  · exact h.setFsmState _
  · exact h

/-- Waiting for the speed counts samples and goes on to displaying. -/
theorem waitSpeedStable_cases (w : World) (a : Arm) :
    ∃ n state, waitSpeedStable w a = { a with speedStableSamples := n, state := state } ∧
      (state = .displaying ∨ state = a.state) := by
  rw [waitSpeedStable]
  split
  · split
    · exact ⟨_, _, rfl, .inl rfl⟩
    · exact ⟨_, _, rfl, .inr rfl⟩
  · exact ⟨_, _, rfl, .inr rfl⟩

theorem Showable.waitSpeedStable (h : Showable a) (w : World) : Showable (waitSpeedStable w a) := by
  obtain ⟨_, _, heq, -⟩ := waitSpeedStable_cases w a
  rw [heq]
  exact ⟨h.imagesOpen, h.fileValid, h.valid, h.current⟩

/-- One iteration keeps an image to show, if its reloads find what they need. -/
theorem Showable.step (h : Showable a) (hw : UpdatesWork a w) : Showable (step a w) := by
  -- the states of the master only
  have hawait (ok : Bool) (next : State) :
      Showable (if a.isMaster then a.goOn ok next else a.setFsmState .waitSpeed) := by
    split
    · exact h.goOn ok next
    · exact h.setFsmState _
  rw [Fsm.step]
  split
  next => exact hawait _ _
  next => exact hawait _ _
  next => exact hawait _ _
  next => exact h.displayLoop w
  next hstate =>
    split
    next hmaster => exact h.checkPhoneCmd (hw.phone hstate hmaster)
    next hslave =>
      exact (h.ringPoll (hw.ring (.inr ⟨hstate, Bool.eq_false_iff.mpr hslave⟩))).endOfImage _
  next => exact h.waitSpeedStable w
  next hstate => exact (h.ringPoll (hw.ring (.inl hstate))).endOfImage _
  next =>
    split
    · exact h.setFsmState _
    · exact h.setFsmState _
  next =>
    split
    · exact (h.imageCmdSet _ _ _).endOfImage _
    · exact h.setFsmState _
  next => exact h.setFsmState _

/-- An arm enters the loop with an image to show, at its first column. -/
theorem Started.showable (h : Started a) :
    Showable a ∧ a.AtFirstColumn ∧ (a.state = .waitMotor ∨ a.state = .waitSpeed) := by
  obtain ⟨armId, d, t, h⟩ := h
  rw [start, Outcome.andThen_eq_ok] at h
  obtain ⟨a₁, hscan, h⟩ := h
  obtain ⟨names, count, heq⟩ := scanImages_namesOnly d (Arm.alloc armId)
  rw [hscan] at heq
  obtain rfl : a₁ = _ := heq
  split at h
  · cases h
  next hcount =>
  rw [Outcome.andThen_eq_ok] at h
  obtain ⟨a₂, hload, h⟩ := h
  have hcurrent : (0 : UInt8) < count := by
    rw [UInt8.lt_iff_toNat_lt]
    exact Nat.pos_of_ne_zero fun h0 => hcount (UInt8.toNat_inj.mp h0)
  obtain ⟨hshow, hfirst, -⟩ := loadImages_showable hload hcurrent
  have hstate : a₂.state = .waitMotor := by
    obtain ⟨bytes, hd⟩ := displayable_of_loadImages hload
    rw [loadImages_ok hd, Prod.mk.injEq] at hload
    rw [← hload.2]
    rfl
  split at h
  · -- the master has run its speed test, which rewinds the image
    rw [speedTest] at h
    split at h
    · cases h
    · cases h
      refine ⟨⟨hshow.imagesOpen, hshow.fileValid, hshow.valid, hshow.current⟩, ?_, .inl hstate⟩
      change min POV_IMAGE_HEADER_SIZE a₂.imageFile.size = _
      rw [hshow.size]
      rfl
  · cases h
    exact ⟨hshow.setFsmState _, hfirst, .inr rfl⟩

end Run

/-! ### Runs of the second arm -/

/-- Dark images, a sensor that moves, the right speed, and no commands. -/
def quietWorld : World where
  disk := darkDisk
  display := steadyInputs
  fuel := 721
  heartbeat := true
  motorConnected := true
  phoneConnected := true
  speedConfirmed := true
  rpm := POV_TARGET_RPM
  phone := none
  filesSent := true
  uploadAcked := true
  reception := .done
  ringTransferred := true
  filesListed := true
  ringAccepted := true
  statusAnswered := true
  statorUpdated := true
  cw := ⟨none, true, true, darkDisk⟩
  ccw := ⟨none, true, true, darkDisk⟩

theorem reloadable_dark : Reloadable darkDisk where
  compose := rfl
  openDir := rfl
  kstrdup _ _ := rfl
  first := ⟨⟨"dark.pov", false, 1⟩, darkImage, by decide, displayable_dark _⟩

/-- The second arm, waiting for its speed with the dark image open. -/
structure SecondArm (a : Arm) : Prop where
  armId     : a.armId = 1
  waits     : a.state = .waitSpeed
  samples   : a.speedStableSamples = 0
  imageOpen : a.imagesOpen = true
  fileValid : a.fileValid = true
  file      : a.imageFile = ⟨darkImage, POV_IMAGE_HEADER_SIZE⟩
  sensor    : a.angularResolution = 720
  ticks     : a.ticks = 0
  cmd       : a.imageCmd.pending = false

theorem SecondArm.displayImage {a : Arm} (h : SecondArm a) {w : Inputs} {fuel : Nat}
    {e : Option Errno} {r : Rotor} (hr : Pov.displayImage w fuel a.toRotor = some (e, r)) :
    Arm.displayImage w fuel { a with state := .displaying } =
      some (e, { a with toRotor := r, state := .displaying }) := by
  rw [Arm.displayImage, Arm.inputs, if_pos h.fileValid, hr]
  rfl

theorem secondArm_started : ∃ a, Started a ∧ SecondArm a := by
  obtain ⟨a₁, name, bytes, hscan, ⟨names, count, rfl⟩, hne, hname, hd⟩ :=
    reloadable_dark.scan (Arm.alloc 1)
  obtain rfl : darkImage = bytes := Option.some.inj hd.file
  let a := { Arm.alloc 1 with imageNames := names, imageCount := count }
  refine ⟨(a.loaded darkImage).setFsmState .waitSpeed,
    ⟨1, darkDisk, ⟨none, darkRotor⟩, ?_⟩, rfl, rfl, rfl, rfl, rfl, rfl, rfl, rfl, rfl⟩
  rw [start, hscan, Outcome.andThen_ok, if_neg hne, hname, Option.getD_some, loadImages_ok hd]
  rfl

/-- Ten samples of the right speed, and an arm goes from waiting to displaying. -/
theorem run_to_displaying {ok : Arm → World → Prop} {a : Arm}
    (hok : ∀ a, a.state = .waitSpeed → ok a quietWorld) (hwaits : a.state = .waitSpeed)
    (hsamples : a.speedStableSamples = 0) :
    Run ok step a { a with state := .displaying } := by
  have hstep (n : Nat) : step { a with speedStableSamples := n } quietWorld =
      if 10 ≤ n + 1 then { a with speedStableSamples := 0, state := .displaying }
      else { a with speedStableSamples := n + 1 } := by
    rw [step]
    simp only [hwaits]
    rfl
  have hself : ({ a with speedStableSamples := 0 } : Arm) = a := by rw [← hsamples]
  have hcount (n : Nat) (hn : n < 10) : Run ok step a { a with speedStableSamples := n } := by
    induction n with
    | zero =>
      rw [hself]
      exact .refl a
    | succ n ih =>
      have hnext := (ih (by omega)).snoc (hok { a with speedStableSamples := n } hwaits)
      rw [hstep, if_neg (by omega)] at hnext
      exact hnext
  have hlast := (hcount 9 (by decide)).snoc (hok { a with speedStableSamples := 9 } hwaits)
  rw [hstep] at hlast
  have hdisplays : ({ a with speedStableSamples := 0, state := .displaying } : Arm) =
      { a with state := .displaying } := by rw [← hsamples]
  exact hdisplays ▸ hlast

theorem returns_of_waiting {a : Arm} (h : a.state = .waitSpeed) (w : World) : Returns a w :=
  fun hcall => State.noConfusion (h.symm.trans hcall.1)

theorem not_polls_of_waiting {a : Arm} (h : a.state = .waitSpeed) : ¬ a.Polls := by
  rintro (hstate | ⟨hstate, -⟩)
  · exact State.noConfusion (h.symm.trans hstate)
  · exact State.noConfusion (h.symm.trans hstate)

/-- **There is an image to show as long as updates work.**  In every run of the loop in which each
reload after an update finds what it needs, an image that passed the check is open and its index
is one of the list: in `POV_STATE_DISPLAYING` and in every other state. -/
theorem showable_of_updates {a₀ a : Arm} (hstart : Started a₀)
    (hrun : Run (fun a w => Returns a w ∧ UpdatesWork a w) step a₀ a) : Showable a :=
  hrun.invariant (fun _ _ h hw => h.step hw.2) hstart.showable.1

theorem showable_of_updates_quiet : ∃ a, a.state = .displaying ∧ Showable a := by
  obtain ⟨a, hstart, harm⟩ := secondArm_started
  have hok (a : Arm) (h : a.state = .waitSpeed) :
      Returns a quietWorld ∧ UpdatesWork a quietWorld := by
    refine ⟨returns_of_waiting h _, fun hstate => State.noConfusion (h.symm.trans hstate),
      fun hpolls => absurd hpolls (not_polls_of_waiting h)⟩
  exact ⟨_, rfl, showable_of_updates hstart (run_to_displaying hok harm.waits harm.samples)⟩

/-- The ring distributes the files of a layer to the second arm, and composing them fails. -/
def failedUpdate : World :=
  let cmd : RingCmd := ⟨1, Ring.MAV_RING_CMD_FILE_DISTRIBUTE, 0, Ring.POV_ARM_BROADCAST, 0,
    Ring.MAV_RING_DIRECTION_CW, 7, [108, 97, 121, 101, 114, 48, 0]⟩
  { quietWorld with cw := ⟨some cmd, true, false, { darkDisk with compose := some .eio }⟩ }

theorem ringReaction_failedUpdate : ringReaction failedUpdate.cw 1 = .reload := by
  have hlayer : ¬ Ring.decodeFilePayload [108, 97, 121, 101, 114, 48, 0] 7 = none := by
    decide +kernel
  rw [ringReaction]
  simp only [failedUpdate, if_neg hlayer]
  rfl

/-- The failed reload has closed the image, so the rewind fails too. -/
theorem step_failedUpdate {a : Arm} (hstate : a.state = .checkRing) (harm : a.armId = 1)
    (hopen : a.imagesOpen = true) (hcmd : a.imageCmd.pending = false) :
    (step a failedUpdate).state = .error ∧ (step a failedUpdate).imagesOpen = false ∧
      (step a failedUpdate).imageCount = 0 ∧ (step a failedUpdate).armId = 1 ∧
      (step a failedUpdate).speedStableSamples = a.speedStableSamples := by
  have hpoll : ringPoll failedUpdate a = freeImageNames (closeImage darkDisk a) := by
    have hcw : ringPollLink failedUpdate.cw a = freeImageNames (closeImage darkDisk a) := by
      rw [ringPollLink, harm, ringReaction_failedUpdate]
      simp only [reloadImagesAfterUpdate, hopen, if_true]
      rfl
    rw [ringPoll, hcw]
    rfl
  have htarget : (freeImageNames (closeImage darkDisk a)).target = none :=
    target_of_replay (by simp [Arm.action, Arm.delayed, freeImageNames, closeImage, hcmd])
  have hend : endOfImage failedUpdate.disk (freeImageNames (closeImage darkDisk a)) =
      (freeImageNames (closeImage darkDisk a)).taken.setFsmState .error := by
    rw [endOfImage, handleEndOfImage_rewinds htarget, replay]
    obtain ⟨_, _, htaken⟩ := taken_cmdOnly (freeImageNames (closeImage darkDisk a))
    have hclosed : (freeImageNames (closeImage darkDisk a)).taken.fileValid = false := by
      rw [htaken]
      change (a.fileValid && false) = false
      rw [Bool.and_false]
    simp only [hclosed, Bool.not_false, if_true]
  have heq : step a failedUpdate =
      (freeImageNames (closeImage darkDisk a)).taken.setFsmState .error := by
    rw [step]
    simp only [hstate]
    rw [checkRingCmd, hpoll, hend]
  obtain ⟨_, _, htaken⟩ := taken_cmdOnly (freeImageNames (closeImage darkDisk a))
  rw [heq, htaken]
  exact ⟨rfl, rfl, rfl, harm, rfl⟩

/-- A pass over the dark image that goes well. -/
theorem step_pass {a : Arm} (h : SecondArm a) :
    Returns { a with state := .displaying } quietWorld ∧
      ∃ r, step { a with state := .displaying } quietWorld =
          { a with toRotor := r, state := .checkRing } ∧ r.armId = 1 := by
  have hhealthy : Healthy steadyInputs a.imageFile.bytes := by
    rw [h.file]
    exact ⟨size_of_validate validate_darkImage, fun _ => rfl, fun _ => rfl⟩
  have hadv : Advancing steadyInputs a.armId a.angularResolution := by
    rw [h.armId, h.sensor]
    exact advancing_steadyInputs (.inr rfl)
  obtain ⟨r, hr⟩ := displayImage_returns hhealthy (by rw [h.file]) hadv
    (show POV_DISPLAY_COLS < 721 by decide)
  have hpass := h.displayImage hr
  have harm : r.armId = 1 := (displayImage_kept hr).2.1.trans h.armId
  refine ⟨fun _ => Option.isSome_iff_exists.mpr ⟨_, hpass⟩, r, ?_, harm⟩
  have hmaster : ({ a with toRotor := r, state := .displaying } : Arm).isMaster = false :=
    isMaster_eq_false (by rw [harm]; decide)
  change displayLoop quietWorld { a with state := .displaying } = _
  rw [displayLoop_eq (fun _ => rfl) hpass]
  simp only [hmaster]
  rfl

/-- From an error the second arm goes back to displaying. -/
theorem run_from_error {a : Arm} (hstate : a.state = .error) (harm : a.armId = 1)
    (hsamples : a.speedStableSamples = 0) :
    Run Returns step a { a with state := .displaying } := by
  have hslave := isMaster_eq_false (a := a) (by rw [harm]; decide)
  have hstep : step a quietWorld = { a with state := .waitSpeed } := by
    rw [step]
    simp only [hstate, errorOccurred, hslave]
    rfl
  have hreturns : Returns a quietWorld := fun hcall => State.noConfusion (hstate.symm.trans hcall.1)
  refine .more hreturns ?_
  rw [hstep]
  exact run_to_displaying (a := { a with state := .waitSpeed })
    (fun a h => returns_of_waiting h _) rfl hsamples

/-- After an update that cannot be composed, the second arm is displaying with its image closed and
an empty list. -/
theorem displays_closed_image :
    ∃ a₀ a, Started a₀ ∧ Run Returns step a₀ a ∧ a.state = .displaying ∧
      a.imagesOpen = false ∧ a.imageCount = 0 := by
  obtain ⟨a₀, hstart, h⟩ := secondArm_started
  have hrun : Run Returns step a₀ { a₀ with state := .displaying } :=
    run_to_displaying (fun a h => returns_of_waiting h _) h.waits h.samples
  obtain ⟨hreturns, r, hpass, harm⟩ := step_pass h
  have hrun := hrun.snoc hreturns
  rw [hpass] at hrun
  let a₁ : Arm := { a₀ with toRotor := r, state := .checkRing }
  have hidle : Returns a₁ failedUpdate := fun hcall => by cases hcall.1
  obtain ⟨herror, hclosed, hempty, harm, hsamples⟩ :=
    step_failedUpdate (a := a₁) rfl harm h.imageOpen h.cmd
  have hback := run_from_error herror harm (hsamples.trans h.samples)
  exact ⟨a₀, _, hstart, (hrun.snoc hidle).trans hback, rfl, hclosed, hempty⟩

end Kinetis.Pov.Fsm
