import Kinetis.Pov.Images
import Mathlib.Data.Int.Order.Basic

/-!
# Pov — an image command from its installation on

`pov_image_cmd_set` installs a command with a delay, counted in ends of image.
`delayed_command_applies_once` follows it over the calls of `pov_handle_end_of_image` after it: the
image that plays is replayed until the delay is over, then the action is applied once, and what
plays then is replayed.  An action that fails leaves everything but the command as it was.
-/

namespace Kinetis.Pov.Fsm
open Lib Mavlink

/-! ### Turns of the image -/

/-- One turn of the image: the pass that shows it, if one is made and comes back, and what the
file system does at its end. -/
structure Turn where
  pass : Option (Inputs × Nat)
  disk : Disk

def Arm.played (a : Arm) : Option (Inputs × Nat) → Arm
  | none => a
  | some (w, fuel) => ((a.displayImage w fuel).map Prod.snd).getD a

/-- The arm when `pov_handle_end_of_image` is called for the `k`-th time. -/
def atEnd (turns : Nat → Turn) (a : Arm) : Nat → Arm
  | 0 => a.played (turns 0).pass
  | k + 1 => (handleEndOfImage (turns k).disk (atEnd turns a k)).2.played (turns (k + 1)).pass

/-- What that call comes to. -/
def ended (turns : Nat → Turn) (a : Arm) (k : Nat) : Outcome Arm :=
  handleEndOfImage (turns k).disk (atEnd turns a k)

/-- The same image plays, from the same list; the pass over it and the command may differ. -/
def SameImage (a a' : Arm) : Prop :=
  ∃ r cmd delay, a' = { a with toRotor := r, imageCmd := cmd, imageCmdDelayFrames := delay } ∧
    r.imageFile.bytes = a.imageFile.bytes

/-- The action of a command, applied to the current image. -/
def Applies (d : Disk) (a : Arm) (action : UInt8) (imageIndex : UInt16) (q : Outcome Arm) : Prop :=
  let n := a.imageCount.toNat
  let cur := a.imageCurrent.toNat
  if action = MAV_IMAGE_ACTION_NEXT then SwitchedTo d a ((cur + 1) % n) q
  else if action = MAV_IMAGE_ACTION_PREVIOUS then
    cur < n → SwitchedTo d a (((cur : Int) - 1) % n).toNat q
  else if action = MAV_IMAGE_ACTION_PLAY_INDEX then SwitchedTo d a imageIndex.toNat q
  else Replayed a q

section Run

variable {turns : Nat → Turn} {a a' : Arm} {action : UInt8} {imageIndex : UInt16} {delay : UInt8}

theorem SameImage.trans {a₁ a₂ a₃ : Arm} (h : SameImage a₁ a₂) (h' : SameImage a₂ a₃) :
    SameImage a₁ a₃ := by
  obtain ⟨r, cmd, delay, rfl, hbytes⟩ := h
  obtain ⟨r', cmd', delay', rfl, hbytes'⟩ := h'
  exact ⟨r', cmd', delay', rfl, hbytes'.trans hbytes⟩

theorem SameImage.fileValid (h : SameImage a a') : a'.fileValid = a.fileValid := by
  obtain ⟨_, _, _, rfl, _⟩ := h
  rfl

theorem Replayed.sameImage {q : Outcome Arm} (h : Replayed a q) : SameImage a q.2 := by
  obtain ⟨_, _, rfl⟩ := h
  exact ⟨_, _, _, rfl, rfl⟩

theorem played_rotorOnly (a : Arm) (pass : Option (Inputs × Nat)) :
    ∃ r, a.played pass = { a with toRotor := r } ∧ r.imageFile.bytes = a.imageFile.bytes := by
  rcases pass with _ | ⟨w, fuel⟩
  · exact ⟨a.toRotor, rfl, rfl⟩
  · rw [Arm.played]
    cases h : a.displayImage w fuel with
    | none => exact ⟨a.toRotor, rfl, rfl⟩
    | some q =>
      obtain ⟨r, hq, hkept⟩ := displayImage_rotorOnly h
      exact ⟨r, hq, hkept.1⟩

theorem played_sameImage (a : Arm) (pass : Option (Inputs × Nat)) :
    SameImage a (a.played pass) := by
  obtain ⟨r, heq, hbytes⟩ := played_rotorOnly a pass
  exact ⟨r, a.imageCmd, a.imageCmdDelayFrames, heq, hbytes⟩

theorem played_cmd (a : Arm) (pass : Option (Inputs × Nat)) :
    (a.played pass).imageCmd = a.imageCmd ∧
      (a.played pass).imageCmdDelayFrames = a.imageCmdDelayFrames := by
  obtain ⟨r, heq, -⟩ := played_rotorOnly a pass
  rw [heq]
  exact ⟨rfl, rfl⟩

/-- The command waits: it is as installed, with `left` frames to go. -/
structure Waiting (action : UInt8) (imageIndex : UInt16) (left : Nat) (a : Arm) : Prop where
  cmd   : a.imageCmd = ⟨true, action, imageIndex⟩
  delay : a.imageCmdDelayFrames.toNat = left

theorem Waiting.target_none {left : Nat} (h : Waiting action imageIndex (left + 1) a) :
    a.target = none := by
  have hlt : 0 < a.imageCmdDelayFrames := by
    rw [UInt8.lt_iff_toNat_lt, h.delay]
    exact Nat.succ_pos left
  have hdelayed : a.delayed = true := by simp [Arm.delayed, h.cmd, hlt]
  exact target_of_replay (by rw [Arm.action, if_pos hdelayed])

/-- A frame goes by. -/
theorem Waiting.next {left : Nat} (h : Waiting action imageIndex (left + 1) a) (d : Disk)
    (pass : Option (Inputs × Nat)) :
    Waiting action imageIndex left ((handleEndOfImage d a).2.played pass) := by
  have hle : 1 ≤ a.imageCmdDelayFrames := by
    rw [UInt8.le_iff_toNat_le, h.delay]
    exact Nat.succ_le_succ (Nat.zero_le left)
  have hlt : 0 < a.imageCmdDelayFrames := by
    rw [UInt8.lt_iff_toNat_lt, h.delay]
    exact Nat.succ_pos left
  have hdelayed : a.delayed = true := by simp [Arm.delayed, h.cmd, hlt]
  obtain ⟨hcmd, hdelay⟩ := handleEndOfImage_cmd d a
  obtain ⟨hcmd', hdelay'⟩ := played_cmd (handleEndOfImage d a).2 pass
  rw [Arm.taken, if_pos hdelayed] at hcmd hdelay
  refine ⟨(hcmd'.trans hcmd).trans h.cmd, ?_⟩
  rw [hdelay', hdelay]
  rw [UInt8.toNat_sub_of_le _ _ hle, h.delay]
  rfl

theorem Waiting.action_eq (h : Waiting action imageIndex 0 a) : a.action = action := by
  have hzero : a.imageCmdDelayFrames = 0 := UInt8.toNat_inj.mp h.delay
  simp [Arm.action, Arm.delayed, h.cmd, hzero]

/-- The command is taken, whatever comes of it. -/
theorem Waiting.taken (h : Waiting action imageIndex 0 a) (d : Disk) :
    (handleEndOfImage d a).2.imageCmd.pending = false := by
  have hzero : a.imageCmdDelayFrames = 0 := UInt8.toNat_inj.mp h.delay
  rw [(handleEndOfImage_cmd d a).1]
  simp [Arm.taken, Arm.delayed, hzero]

/-- The current image before the first is the last. -/
theorem previous_eq {n cur : Nat} (h : cur < n) :
    (if cur = 0 then n - 1 else cur - 1) = (((cur : Int) - 1) % n).toNat := by
  split
  next h0 =>
    subst h0
    have hmod : ((0 : Nat) - 1 : Int) % n = n - 1 := by
      rw [show ((0 : Nat) - 1 : Int) = (n - 1) + n * (-1) by push_cast; ring, Int.add_mul_emod_self_left]
      exact Int.emod_eq_of_lt (by omega) (by omega)
    omega
  next h0 =>
    rw [Int.emod_eq_of_lt (by omega) (by omega)]
    omega

theorem Waiting.applies (h : Waiting action imageIndex 0 a) {d : Disk} (hopen : a.fileValid = true)
    (hseek : d.seek = none) : Applies d a action imageIndex (handleEndOfImage d a) := by
  have haction := h.action_eq
  simp only [Applies]
  split
  next hnext =>
    refine handleEndOfImage_switches ?_
    rw [Arm.target, haction, if_pos hnext]
  next hnext =>
  split
  next hprevious =>
    intro hcur
    refine handleEndOfImage_switches ?_
    rw [Arm.target, haction, if_neg hnext, if_pos hprevious, ← previous_eq hcur]
    simp only [← UInt8.toNat_inj, UInt8.toNat_zero]
  next hprevious =>
  split
  next hindex =>
    refine handleEndOfImage_switches ?_
    rw [Arm.target, haction, if_neg hnext, if_neg hprevious, if_pos hindex, h.cmd]
  next hindex =>
    refine handleEndOfImage_replayed ?_ hopen hseek
    rw [Arm.target, haction, if_neg hnext, if_neg hprevious, if_neg hindex]

/-- Up to the frame it is due, the command waits and the image that played keeps playing. -/
theorem atEnd_waiting (action : UInt8) (imageIndex : UInt16) (hopen : a.fileValid = true)
    (hrewind : ∀ k, (turns k).disk.seek = none) {k : Nat} (hk : k ≤ delay.toNat) :
    Waiting action imageIndex (delay.toNat - k)
        (atEnd turns (imageCmdSet action imageIndex delay a) k) ∧
      SameImage a (atEnd turns (imageCmdSet action imageIndex delay a) k) := by
  induction k with
  | zero =>
    have hset : SameImage a (imageCmdSet action imageIndex delay a) := ⟨_, _, _, rfl, rfl⟩
    obtain ⟨hcmd, hdelay⟩ := played_cmd (imageCmdSet action imageIndex delay a) (turns 0).pass
    exact ⟨⟨hcmd, congrArg UInt8.toNat hdelay⟩, hset.trans (played_sameImage _ _)⟩
  | succ k ih =>
    obtain ⟨hwait, hsame⟩ := ih (by omega)
    rw [show delay.toNat - k = delay.toNat - (k + 1) + 1 by omega] at hwait
    have hreplayed := handleEndOfImage_replayed hwait.target_none
      (hsame.fileValid.trans hopen) (hrewind k)
    exact ⟨hwait.next _ _, (hsame.trans hreplayed.sameImage).trans (played_sameImage _ _)⟩

/-- Without a command each end of image replays the image that plays. -/
theorem atEnd_idle (hrewind : ∀ k, (turns k).disk.seek = none) {m : Nat}
    (hopen : (ended turns a m).2.fileValid = true)
    (hcmd : (ended turns a m).2.imageCmd.pending = false) {k : Nat} (hk : m < k) :
    (atEnd turns a k).imageCmd.pending = false ∧
      SameImage (ended turns a m).2 (atEnd turns a k) ∧
      Replayed (atEnd turns a k) (ended turns a k) := by
  -- what holds when the call comes is enough for it to be a replay
  have hcall (k : Nat) (hpending : (atEnd turns a k).imageCmd.pending = false)
      (hsame : SameImage (ended turns a m).2 (atEnd turns a k)) :
      Replayed (atEnd turns a k) (ended turns a k) :=
    handleEndOfImage_replayed (target_of_replay (by simp [Arm.action, hpending]))
      (hsame.fileValid.trans hopen) (hrewind k)
  induction k, hk using Nat.le_induction with
  | base =>
    have hpending := (congrArg ImageCmd.pending
      (played_cmd (ended turns a m).2 (turns (m + 1)).pass).1).trans hcmd
    have hsame := played_sameImage (ended turns a m).2 (turns (m + 1)).pass
    exact ⟨hpending, hsame, hcall (m + 1) hpending hsame⟩
  | succ k _ ih =>
    obtain ⟨hpending, hsame, hreplayed⟩ := ih
    have hdelayed : (atEnd turns a k).delayed = false := by simp [Arm.delayed, hpending]
    have htaken : (ended turns a k).2.imageCmd.pending = false := by
      rw [ended, (handleEndOfImage_cmd _ _).1, Arm.taken, if_neg (by simp [hdelayed])]
    have hpending' := (congrArg ImageCmd.pending
      (played_cmd (ended turns a k).2 (turns (k + 1)).pass).1).trans htaken
    have hsame' := (hsame.trans hreplayed.sameImage).trans
      (played_sameImage (ended turns a k).2 (turns (k + 1)).pass)
    exact ⟨hpending', hsame', hcall (k + 1) hpending' hsame'⟩

end Run

/-- **An image command is applied once, when its delay is over.**  It is installed with a delay of
`d` frames on an arm whose image is open, and every rewind works.  Of the ends of image after it,
with passes over the image between them, the first `d` replay the image that played; the next one
applies the action; the ones after it replay what plays then.  If the action fails, the arm is as
it was but for the command. -/
theorem delayed_command_applies_once (turns : Nat → Turn) (a : Arm) (action : UInt8)
    (imageIndex : UInt16) (delay : UInt8) (hopen : a.fileValid = true)
    (hrewind : ∀ k, (turns k).disk.seek = none) :
    let arrive := atEnd turns (imageCmdSet action imageIndex delay a)
    let result := ended turns (imageCmdSet action imageIndex delay a)
    let d := delay.toNat
    (∀ k ≤ d, SameImage a (arrive k)) ∧
    (∀ k < d, Replayed (arrive k) (result k)) ∧
    Applies (turns d).disk (arrive d) action imageIndex (result d) ∧
    ((result d).1 ≠ none → CmdOnly (arrive d) (result d).2) ∧
    ∀ k > d, SameImage (result d).2 (arrive k) ∧ Replayed (arrive k) (result k) := by
  have hwaiting (k : Nat) (hk : k ≤ delay.toNat) := atEnd_waiting action imageIndex hopen hrewind hk
  obtain ⟨hdue, hsame⟩ := hwaiting delay.toNat le_rfl
  rw [Nat.sub_self] at hdue
  have hvalid := hsame.fileValid.trans hopen
  refine ⟨fun k hk => (hwaiting k hk).2, fun k hk => ?_, hdue.applies hvalid (hrewind _),
    handleEndOfImage_failed hvalid (hrewind _), fun k hk => ?_⟩
  · obtain ⟨hwait, hsame⟩ := hwaiting k hk.le
    rw [show delay.toNat - k = delay.toNat - k - 1 + 1 by omega] at hwait
    exact handleEndOfImage_replayed hwait.target_none (hsame.fileValid.trans hopen) (hrewind k)
  · exact (atEnd_idle hrewind (handleEndOfImage_fileValid hvalid) (hdue.taken _) hk).2

/-- The last of three dark images plays. -/
def darkArm : Arm where
  toRotor := darkRotor
  state := .displaying
  fileValid := true
  imageNames _ := some "dark.pov"
  imageCount := 3
  imagesOpen := true
  imageHeader := slice darkImage 0 POV_IMAGE_HEADER_SIZE
  imageCurrent := 2
  imageCmd := ⟨false, 0, 0⟩
  imageCmdDelayFrames := 0
  speedStableSamples := 0

/-- After two more turns of the last image the first one plays. -/
theorem delayed_command_next :
    ∃ q, ended (fun _ => ⟨none, darkDisk⟩)
        (imageCmdSet MAV_IMAGE_ACTION_NEXT 0 2 darkArm) 2 = (none, q) ∧ q.imageCurrent = 0 := by
  obtain ⟨hbefore, -, happlies, -⟩ := delayed_command_applies_once (fun _ => ⟨none, darkDisk⟩)
    darkArm MAV_IMAGE_ACTION_NEXT 0 2 rfl fun _ => rfl
  obtain ⟨r, cmd, delay, harrive, -⟩ := hbefore _ le_rfl
  simp only [Applies, if_true] at happlies
  rw [harrive] at happlies
  rcases happlies with ⟨index, hindex, bytes, -, hq⟩ | ⟨-, hno⟩
  · have hwraps : (darkArm.imageCurrent.toNat + 1) % darkArm.imageCount.toNat = 0 := by decide
    exact ⟨_, hq, UInt8.toNat_inj.mp (hindex.trans hwraps)⟩
  · have hlt : (darkArm.imageCurrent.toNat + 1) % darkArm.imageCount.toNat <
        darkArm.imageCount.toNat := by decide
    exact absurd ⟨hlt, "dark.pov", rfl, displayable_dark _⟩ (hno darkImage)

end Kinetis.Pov.Fsm
