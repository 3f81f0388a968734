import Kinetis.Pov.Pass
import Kinetis.Pov.Ring

/-!
# Pov — the images and the command for the end of an image

`projects/persistence-of-vision/rotor.c`: an arm lists the composed images of its directory, keeps
one of them open, and at the end of each pass either rewinds it or goes to another image, as the
image command that falls due says.

* `Arm` is the part of `struct pov_rotor` that this takes, on top of what a pass uses;
* `Disk` is what the file system does during a call, so every failure is an input;
* `switchImage_cases` says once what a switch does, `handleEndOfImage_rewinds` and
  `handleEndOfImage_switches` what the end of an image does.

A `FIL` is the contents and the position, and whether the object is valid: `f_close` and a failed
`f_open` clear its file system, and `f_read` and `f_lseek` refuse it from then on.
-/

namespace Kinetis.Pov.Fsm
open Lib Mavlink

def POV_MAX_IMAGE_COUNT : Nat := 8
def MAV_IMAGE_ACTION_REPLAY : UInt8 := 0
def MAV_IMAGE_ACTION_NEXT : UInt8 := 1
def MAV_IMAGE_ACTION_PREVIOUS : UInt8 := 2
def MAV_IMAGE_ACTION_PLAY_INDEX : UInt8 := 3

/-! ### The arm -/

/-- `enum pov_fsm_state`. -/
inductive State where
  | waitMotor
  | waitPhone
  | sendSpeed
  | waitSpeed
  | displaying
  | checkCmd
  | checkRing
  | statorUpdate
  | rotorUpdate
  | error
  deriving DecidableEq, Repr

/-- `struct pov_rotor`, beyond the part a pass uses.  The header is kept as its bytes. -/
structure Arm extends Rotor where
  state               : State
  fileValid           : Bool
  imageNames          : Nat → Option String
  imageCount          : UInt8
  imagesOpen          : Bool
  imageHeader         : List UInt8
  imageCurrent        : UInt8
  imageCmd            : ImageCmd
  imageCmdDelayFrames : UInt8
  speedStableSamples  : Nat

/-- A `FILINFO`; `special` is `AM_DIR` or `AM_SYS`. -/
structure DirEntry where
  name    : String
  special : Bool
  size    : Nat
  deriving DecidableEq, Repr

/-- Not a directory, not empty, and `.pov` from the last dot on. -/
def DirEntry.isImage (e : DirEntry) : Bool :=
  !e.special && 0 < e.size && ".pov".toList.isSuffixOf e.name.toList

/-- What the file system does during one call: the result of `pov_compose_layers`, the image
directory, the allocation of each name, the contents of the images that open, the header reads
that fail, the seek (a seek that fails leaves the position it got to), and the close. -/
structure Disk where
  compose     : Option Errno
  openDir     : Bool
  entries     : List DirEntry
  kstrdup     : Nat → Bool
  file        : String → Option (List UInt8)
  headerFails : String → Bool
  seek        : Option Nat
  closes      : Bool

/-! ### A pass -/

/-- A read of an invalid file fails. -/
def Arm.inputs (w : Inputs) (a : Arm) : Inputs :=
  if a.fileValid then w else { w with readFails := fun _ => true }

def Arm.displayImage (w : Inputs) (fuel : Nat) (a : Arm) : Option (Outcome Arm) :=
  (Pov.displayImage (a.inputs w) fuel a.toRotor).map fun (e, r) => (e, { a with toRotor := r })

/-! ### Opening and closing -/

def closeImage (d : Disk) (a : Arm) : Arm :=
  { a with fileValid := a.fileValid && !d.closes, imagesOpen := false, pendingColumn := 0 }

def loadImages (d : Disk) (filename : String) (a : Arm) : Outcome Arm :=
  match d.file filename with
  | none => (some .eio, { a with fileValid := false })
  | some bytes =>
    if d.headerFails filename then
      (some .eio, { a with imageFile := ⟨bytes, 0⟩, fileValid := !d.closes })
    else
      let (data, file) := (File.mk bytes 0).read POV_IMAGE_HEADER_SIZE
      let a := { a with imageFile := file, imageHeader := overwrite a.imageHeader data }
      if data.length ≠ POV_IMAGE_HEADER_SIZE then (some .eio, { a with fileValid := !d.closes })
      else
        let a := { a with pendingColumn := (a.pendingColumn + data.length) % 2 ^ 32 }
        match validateDisplayImage file.size (.ofBytes a.imageHeader) with
        | .error e => (some e, { a with fileValid := !d.closes })
        | .ok () => (none, { a with fileValid := true, imagesOpen := true })

/-- The replacement is opened and checked before the image that plays is let go. -/
def switchImage (d : Disk) (index : UInt8) (a : Arm) : Outcome Arm :=
  if a.imageCount ≤ index then (some .einval, a)
  else
    match a.imageNames index.toNat with
    | none => (some .einval, a)
    | some name =>
      match d.file name with
      | none => (some .eio, a)
      | some bytes =>
        let (newHeader, newFile) := (File.mk bytes 0).read POV_IMAGE_HEADER_SIZE
        if d.headerFails name ∨ newHeader.length ≠ POV_IMAGE_HEADER_SIZE then (some .eio, a)
        else
          match validateDisplayImage newFile.size (.ofBytes newHeader) with
          | .error e => (some e, a)
          | .ok () =>
            let a := if a.imagesOpen then closeImage d a else a
            (none, { a with
              imageFile := newFile
              fileValid := true
              imageHeader := newHeader
              imagesOpen := true
              pendingColumn := POV_IMAGE_HEADER_SIZE
              imageCurrent := index
              prefetchPing := 0
              prefetchSentIndex := 0 })

/-! ### The end of an image -/

def imageCmdSet (action : UInt8) (imageIndex : UInt16) (delayFrames : UInt8) (a : Arm) : Arm :=
  { a with imageCmd := ⟨true, action, imageIndex⟩, imageCmdDelayFrames := delayFrames }

/-- The rewind of `pov_handle_end_of_image`. -/
def replay (d : Disk) (a : Arm) : Outcome Arm :=
  if !a.fileValid then (some .eio, a)
  else
    match d.seek with
    | some pos => (some .eio, { a with imageFile := { a.imageFile with pos := pos } })
    | none => (none, { a with
        imageFile := a.imageFile.seek POV_IMAGE_HEADER_SIZE
        pendingColumn := POV_IMAGE_HEADER_SIZE
        prefetchPing := 0
        prefetchSentIndex := 0 })

/-- The command is pending and its delay is not over. -/
def Arm.delayed (a : Arm) : Bool := a.imageCmd.pending && 0 < a.imageCmdDelayFrames

/-- The action of this end of image. -/
def Arm.action (a : Arm) : UInt8 :=
  if a.delayed then MAV_IMAGE_ACTION_REPLAY
  else if a.imageCmd.pending then a.imageCmd.action else MAV_IMAGE_ACTION_REPLAY

/-- The command after this end of image: one frame nearer, or taken. -/
def Arm.taken (a : Arm) : Arm :=
  if a.delayed then { a with imageCmdDelayFrames := a.imageCmdDelayFrames - 1 }
  else { a with imageCmd := { a.imageCmd with pending := false }, imageCmdDelayFrames := 0 }

def handleEndOfImage (d : Disk) (a : Arm) : Outcome Arm :=
  let action := a.action
  let a := a.taken
  if action = MAV_IMAGE_ACTION_REPLAY then replay d a
  else if action = MAV_IMAGE_ACTION_NEXT then
    if a.imageCount = 0 then (some .enoent, a)
    else
      let next := (a.imageCurrent.toNat + 1) % a.imageCount.toNat
      switchImage d (UInt8.ofNat next) a
  else if action = MAV_IMAGE_ACTION_PREVIOUS then
    if a.imageCount = 0 then (some .enoent, a)
    else
      let prev := if a.imageCurrent = 0 then a.imageCount - 1 else a.imageCurrent - 1
      switchImage d prev a
  else if action = MAV_IMAGE_ACTION_PLAY_INDEX then
    if a.imageCount.toNat ≤ a.imageCmd.imageIndex.toNat then (some .einval, a)
    else switchImage d a.imageCmd.imageIndex.toUInt8 a
  else replay d a

/-! ### Listing the images -/

def freeImageNames (a : Arm) : Arm :=
  { a with
    imageNames := fun i => if i < a.imageCount.toNat then none else a.imageNames i
    imageCount := 0 }

/-- The loop over the directory; a name that cannot be allocated ends it. -/
def scanEntries (d : Disk) : List DirEntry → Arm → Outcome Arm
  | [], a => (none, a)
  | e :: entries, a =>
    if POV_MAX_IMAGE_COUNT ≤ a.imageCount.toNat then (none, a)
    else if e.isImage then
      let k := a.imageCount.toNat
      if !d.kstrdup k then
        (some .enomem, { a with imageNames := Function.update a.imageNames k none })
      else
        scanEntries d entries { a with
          imageNames := Function.update a.imageNames k (some e.name)
          imageCount := a.imageCount + 1 }
    else scanEntries d entries a

def scanImages (d : Disk) (a : Arm) : Outcome Arm :=
  let a := freeImageNames a
  if !d.openDir then (some .enoent, a)
  else
    match scanEntries d d.entries a with
    | (some e, a) => (some e, freeImageNames a)
    | (none, a) => (none, a)

def reloadImagesAfterUpdate (d : Disk) (a : Arm) : Outcome Arm :=
  let a := if a.imagesOpen then closeImage d a else a
  let a := freeImageNames a
  match d.compose with
  | some e => (some e, a)
  | none =>
    (scanImages d a).andThen fun a =>
      if a.imageCount = 0 then (some .enoent, a)
      else
        (loadImages d ((a.imageNames 0).getD "") a).andThen fun a =>
          (none, { a with imageCurrent := 0 })

/-- A pass touches the rotor only, and of it not the image. -/
theorem displayImage_rotorOnly {a : Arm} {w : Inputs} {fuel : Nat} {q : Outcome Arm}
    (h : a.displayImage w fuel = some q) :
    ∃ r, q.2 = { a with toRotor := r } ∧ Kept a.toRotor r := by
  rw [Arm.displayImage, Option.map_eq_some_iff] at h
  obtain ⟨⟨e, r⟩, hpass, rfl⟩ := h
  exact ⟨r, rfl, displayImage_kept hpass⟩

/-! ### Images that can be shown -/

/-- An image opens with these contents, its header can be read, and it passes the check. -/
structure Displayable (d : Disk) (name : String) (bytes : List UInt8) : Prop where
  file  : d.file name = some bytes
  read  : d.headerFails name = false
  valid : validateDisplayImage bytes.length (.ofBytes (slice bytes 0 POV_IMAGE_HEADER_SIZE)) = .ok ()

variable {bytes : List UInt8}

theorem read_header (h : POV_IMAGE_HEADER_SIZE ≤ bytes.length) :
    (File.mk bytes 0).read POV_IMAGE_HEADER_SIZE =
      (slice bytes 0 POV_IMAGE_HEADER_SIZE, ⟨bytes, POV_IMAGE_HEADER_SIZE⟩) :=
  File.read_full (by simpa [File.size] using h)

theorem ofBytes_header (bytes : List UInt8) :
    ImageHeader.ofBytes (slice bytes 0 POV_IMAGE_HEADER_SIZE) = .ofBytes bytes := by
  have hfield (off n : Nat) (h : off + n ≤ POV_IMAGE_HEADER_SIZE) :
      field (slice bytes 0 POV_IMAGE_HEADER_SIZE) off n = field bytes off n := by
    rw [field, field, slice_slice _ _ _ h, Nat.zero_add]
  simp (disch := decide) only [ImageHeader.ofBytes, hfield]

theorem length_header :
    (slice bytes 0 POV_IMAGE_HEADER_SIZE).length = POV_IMAGE_HEADER_SIZE ↔
      POV_IMAGE_HEADER_SIZE ≤ bytes.length := by
  rw [length_slice]
  omega

theorem Displayable.header_le {d : Disk} {name : String} (h : Displayable d name bytes) :
    POV_IMAGE_HEADER_SIZE ≤ bytes.length := by
  rw [size_of_validate h.valid]
  exact Nat.le_add_right _ _

/-- The arm after a switch to an image. -/
def Arm.switched (a : Arm) (index : UInt8) (bytes : List UInt8) : Arm :=
  { a with
    imageFile := ⟨bytes, POV_IMAGE_HEADER_SIZE⟩
    fileValid := true
    imageHeader := slice bytes 0 POV_IMAGE_HEADER_SIZE
    imagesOpen := true
    pendingColumn := POV_IMAGE_HEADER_SIZE
    imageCurrent := index
    prefetchPing := 0
    prefetchSentIndex := 0 }

section Switch

variable {d : Disk} {a : Arm} {index : UInt8}

/-- Image `index` of the list can be shown. -/
def Offers (d : Disk) (a : Arm) (index : Nat) (bytes : List UInt8) : Prop :=
  index < a.imageCount.toNat ∧ ∃ name, a.imageNames index = some name ∧ Displayable d name bytes

theorem switchImage_ok (h : Offers d a index.toNat bytes) :
    switchImage d index a = (none, a.switched index bytes) := by
  obtain ⟨hlt, name, hname, hd⟩ := h
  have hnot : ¬ a.imageCount ≤ index := by
    rw [UInt8.le_iff_toNat_le]
    omega
  have hlen := length_header.mpr hd.header_le
  have hvalid := hd.valid
  simp only [switchImage, if_neg hnot, hname, hd.file, read_header hd.header_le, hd.read, hlen,
    File.size, hvalid, Bool.false_eq_true, ne_eq, not_true_eq_false, or_self, if_false]
  split
  · rfl
  · rfl

/-- A switch either goes to an image that can be shown or leaves the arm as it was. -/
theorem switchImage_cases (d : Disk) (a : Arm) (index : UInt8) :
    (∃ bytes, Offers d a index.toNat bytes ∧
      switchImage d index a = (none, a.switched index bytes)) ∨
    (∃ e, switchImage d index a = (some e, a)) ∧ ∀ bytes, ¬ Offers d a index.toNat bytes := by
  by_cases h : ∃ bytes, Offers d a index.toNat bytes
  · obtain ⟨bytes, h⟩ := h
    exact .inl ⟨bytes, h, switchImage_ok h⟩
  refine .inr ⟨?_, fun bytes hb => h ⟨bytes, hb⟩⟩
  rw [switchImage]
  split
  · exact ⟨_, rfl⟩
  next hlt =>
  rw [UInt8.le_iff_toNat_le] at hlt
  split
  · exact ⟨_, rfl⟩
  next name hname =>
  split
  · exact ⟨_, rfl⟩
  next bytes hfile =>
  dsimp only
  split
  · exact ⟨_, rfl⟩
  next hread =>
  split
  · exact ⟨_, rfl⟩
  next hvalid =>
  push Not at hread
  exact absurd ⟨bytes, by omega, name, hname, hfile, by simpa using hread.1, hvalid⟩ h

end Switch

/-! ### What the end of an image does -/

/-- The image that the action asks for; none for a rewind. -/
def Arm.target (a : Arm) : Option Nat :=
  if a.action = MAV_IMAGE_ACTION_NEXT then
    some ((a.imageCurrent.toNat + 1) % a.imageCount.toNat)
  else if a.action = MAV_IMAGE_ACTION_PREVIOUS then
    some (if a.imageCurrent = 0 then a.imageCount.toNat - 1 else a.imageCurrent.toNat - 1)
  else if a.action = MAV_IMAGE_ACTION_PLAY_INDEX then some a.imageCmd.imageIndex.toNat
  else none

/-- Only the command is touched. -/
def CmdOnly (a a' : Arm) : Prop :=
  ∃ cmd delay, a' = { a with imageCmd := cmd, imageCmdDelayFrames := delay }

section EndOfImage

variable {d : Disk} {a : Arm}

theorem taken_cmdOnly (a : Arm) : CmdOnly a a.taken := by
  rw [Arm.taken]
  split
  · exact ⟨a.imageCmd, _, rfl⟩
  · exact ⟨_, _, rfl⟩

@[simp] theorem taken_imageCount : a.taken.imageCount = a.imageCount := by
  obtain ⟨_, _, h⟩ := taken_cmdOnly a
  rw [h]

@[simp] theorem taken_imageCurrent : a.taken.imageCurrent = a.imageCurrent := by
  obtain ⟨_, _, h⟩ := taken_cmdOnly a
  rw [h]

@[simp] theorem taken_imageNames : a.taken.imageNames = a.imageNames := by
  obtain ⟨_, _, h⟩ := taken_cmdOnly a
  rw [h]

@[simp] theorem taken_imageIndex : a.taken.imageCmd.imageIndex = a.imageCmd.imageIndex := by
  rw [Arm.taken]
  split
  · rfl
  · rfl

theorem offers_taken {index : Nat} : Offers d a.taken index bytes ↔ Offers d a index bytes := by
  simp only [Offers, taken_imageCount, taken_imageNames]

theorem handleEndOfImage_rewinds (h : a.target = none) :
    handleEndOfImage d a = replay d a.taken := by
  rw [Arm.target] at h
  rw [handleEndOfImage]
  split at h
  · cases h
  next hnext =>
  split at h
  · cases h
  next hprevious =>
  split at h
  · cases h
  next hindex =>
  simp only [if_neg hnext, if_neg hprevious, if_neg hindex, ite_self]

/-- What the end of an image that asks for image `i` comes to: the image can be shown and is
switched to, or it cannot and nothing but the command is touched. -/
def SwitchedTo (d : Disk) (a : Arm) (i : Nat) (q : Outcome Arm) : Prop :=
  (∃ index : UInt8, index.toNat = i ∧ ∃ bytes, Offers d a i bytes ∧
    q = (none, a.taken.switched index bytes)) ∨
  (∃ e, q = (some e, a.taken)) ∧ ∀ bytes, ¬ Offers d a i bytes

theorem handleEndOfImage_switches {i : Nat} (h : a.target = some i) :
    SwitchedTo d a i (handleEndOfImage d a) := by
  have hswitch (index : UInt8) (hi : index.toNat = i)
      (heq : handleEndOfImage d a = switchImage d index a.taken) :
      SwitchedTo d a i (handleEndOfImage d a) := by
    rw [heq]
    rcases switchImage_cases d a.taken index with ⟨bytes, hoffers, hok⟩ | ⟨hfail, hno⟩
    · exact .inl ⟨index, hi, bytes, hi ▸ offers_taken.mp hoffers, hok⟩
    · exact .inr ⟨hfail, fun bytes hb => hno bytes (offers_taken.mpr (hi ▸ hb))⟩
  -- an empty list offers nothing
  have hempty (h0 : a.imageCount = 0) (bytes : List UInt8) : ¬ Offers d a i bytes := by
    rintro ⟨hlt, -⟩
    rw [h0] at hlt
    exact absurd hlt (Nat.not_lt_zero i)
  have hcount : a.imageCount.toNat < 2 ^ 8 := a.imageCount.toNat_lt
  have hpos (h0 : a.imageCount ≠ 0) : 1 ≤ a.imageCount.toNat := by
    rcases Nat.eq_zero_or_pos a.imageCount.toNat with hz | hp
    · exact absurd (UInt8.toNat_inj.mp hz) h0
    · exact hp
  rw [Arm.target] at h
  split at h
  next hnext =>
    obtain rfl := Option.some.inj h
    have hne : ¬ a.action = MAV_IMAGE_ACTION_REPLAY := by rw [hnext]; decide
    by_cases h0 : a.imageCount = 0
    · refine .inr ⟨⟨.enoent, ?_⟩, hempty h0⟩
      rw [handleEndOfImage]
      simp only [if_neg hne, if_pos hnext, taken_imageCount, if_pos h0]
    · refine hswitch (UInt8.ofNat ((a.imageCurrent.toNat + 1) % a.imageCount.toNat)) ?_ ?_
      · have hlt := Nat.mod_lt (a.imageCurrent.toNat + 1) (hpos h0)
        exact UInt8.toNat_ofNat_of_lt' (by rw [UInt8.size]; omega)
      · rw [handleEndOfImage]
        simp only [if_neg hne, if_pos hnext, taken_imageCount, taken_imageCurrent, if_neg h0]
  next hnext =>
  split at h
  next hprevious =>
    obtain rfl := Option.some.inj h
    have hne : ¬ a.action = MAV_IMAGE_ACTION_REPLAY := by rw [hprevious]; decide
    by_cases h0 : a.imageCount = 0
    · refine .inr ⟨⟨.enoent, ?_⟩, hempty h0⟩
      rw [handleEndOfImage]
      simp only [if_neg hne, if_neg hnext, if_pos hprevious, taken_imageCount, if_pos h0]
    · refine hswitch (if a.imageCurrent = 0 then a.imageCount - 1 else a.imageCurrent - 1) ?_ ?_
      · split
        · exact UInt8.toNat_sub_of_le _ _ (UInt8.le_iff_toNat_le.mpr (hpos h0))
        next hc =>
          refine UInt8.toNat_sub_of_le _ _ (UInt8.le_iff_toNat_le.mpr ?_)
          rcases Nat.eq_zero_or_pos a.imageCurrent.toNat with hz | hp
          · exact absurd (UInt8.toNat_inj.mp hz) hc
          · exact hp
      · rw [handleEndOfImage]
        simp only [if_neg hne, if_neg hnext, if_pos hprevious, taken_imageCount,
          taken_imageCurrent, if_neg h0]
  next hprevious =>
  split at h
  next hindex =>
    obtain rfl := Option.some.inj h
    have hne : ¬ a.action = MAV_IMAGE_ACTION_REPLAY := by rw [hindex]; decide
    by_cases hout : a.imageCount.toNat ≤ a.imageCmd.imageIndex.toNat
    · refine .inr ⟨⟨.einval, ?_⟩, fun bytes hb => absurd hb.1 (by omega)⟩
      rw [handleEndOfImage]
      simp only [if_neg hne, if_neg hnext, if_neg hprevious, if_pos hindex, taken_imageCount,
        taken_imageIndex, if_pos hout]
    · refine hswitch a.imageCmd.imageIndex.toUInt8 ?_ ?_
      · exact Nat.mod_eq_of_lt (by omega)
      · rw [handleEndOfImage]
        simp only [if_neg hne, if_neg hnext, if_neg hprevious, if_pos hindex, taken_imageCount,
          taken_imageIndex, if_neg hout]
  next => cases h

/-- The rewind: the image that plays starts over. -/
def Replayed (a : Arm) (q : Outcome Arm) : Prop :=
  ∃ cmd delay, q = (none, { a with
    imageFile := a.imageFile.seek POV_IMAGE_HEADER_SIZE
    pendingColumn := POV_IMAGE_HEADER_SIZE
    prefetchPing := 0
    prefetchSentIndex := 0
    imageCmd := cmd
    imageCmdDelayFrames := delay })

theorem handleEndOfImage_replayed (h : a.target = none) (hopen : a.fileValid = true)
    (hseek : d.seek = none) : Replayed a (handleEndOfImage d a) := by
  rw [handleEndOfImage_rewinds h]
  obtain ⟨cmd, delay, htaken⟩ := taken_cmdOnly a
  refine ⟨cmd, delay, ?_⟩
  rw [htaken, replay]
  simp only [hopen, hseek, Bool.not_true, Bool.false_eq_true, if_false]

/-- With a rewind that works, an end of image that fails has touched the command only. -/
theorem handleEndOfImage_failed (hopen : a.fileValid = true) (hseek : d.seek = none)
    (hfail : (handleEndOfImage d a).1 ≠ none) : CmdOnly a (handleEndOfImage d a).2 := by
  cases htarget : a.target with
  | none =>
    obtain ⟨_, _, heq⟩ := handleEndOfImage_replayed htarget hopen hseek
    rw [heq] at hfail
    exact absurd rfl hfail
  | some i =>
    rcases handleEndOfImage_switches (d := d) htarget with ⟨_, _, _, _, heq⟩ | ⟨⟨_, heq⟩, _⟩
    · rw [heq] at hfail
      exact absurd rfl hfail
    · rw [heq]
      exact taken_cmdOnly a

end EndOfImage

/-- The command after an end of image does not depend on how it went. -/
theorem handleEndOfImage_cmd (d : Disk) (a : Arm) :
    (handleEndOfImage d a).2.imageCmd = a.taken.imageCmd ∧
      (handleEndOfImage d a).2.imageCmdDelayFrames = a.taken.imageCmdDelayFrames := by
  cases htarget : a.target with
  | none =>
    rw [handleEndOfImage_rewinds htarget, replay]
    split
    · exact ⟨rfl, rfl⟩
    · split <;> exact ⟨rfl, rfl⟩
  | some i =>
    rcases handleEndOfImage_switches (d := d) htarget with ⟨_, _, _, _, heq⟩ | ⟨⟨_, heq⟩, _⟩
    · rw [heq]
      exact ⟨rfl, rfl⟩
    · rw [heq]
      exact ⟨rfl, rfl⟩

theorem handleEndOfImage_fileValid {d : Disk} {a : Arm} (hopen : a.fileValid = true) :
    (handleEndOfImage d a).2.fileValid = true := by
  obtain ⟨_, _, htaken⟩ := taken_cmdOnly a
  cases htarget : a.target with
  | none =>
    rw [handleEndOfImage_rewinds htarget, htaken, replay]
    split
    · exact hopen
    · split <;> exact hopen
  | some i =>
    rcases handleEndOfImage_switches (d := d) htarget with ⟨_, _, _, _, heq⟩ | ⟨⟨_, heq⟩, _⟩
    · rw [heq]
      rfl
    · rw [heq, htaken]
      exact hopen

theorem target_of_replay {a : Arm} (h : a.action = MAV_IMAGE_ACTION_REPLAY) : a.target = none := by
  rw [Arm.target, h]
  rfl

/-! ### A dark disk -/

/-- A disk on which every image is the dark one. -/
def darkDisk : Disk where
  compose := none
  openDir := true
  entries := [⟨"dark.pov", false, 1⟩]
  kstrdup _ := true
  file _ := some darkImage
  headerFails _ := false
  seek := none
  closes := true

theorem displayable_dark (name : String) : Displayable darkDisk name darkImage where
  file := rfl
  read := rfl
  valid := (ofBytes_header darkImage).symm ▸ validate_darkImage

end Kinetis.Pov.Fsm
