import Kinetis.Pov.Images
import Kinetis.Lib.Runs

/-!
# Pov — the state machine of an arm

`pov_rotor_display` lists the images, opens the first, and then loops over the states of the arm:
wait for the motor, bring it to speed, show the image, and at its end look for commands of the
phone (master) or of the ring (the other arms).  Errors lead to `POV_STATE_ERROR` and from there
back to waiting.

* `start` is what comes before the loop, `step` one iteration of it;
* a `World` is what one iteration sees of everything outside: sensors, links, files;
* `phoneReaction` and `ringReaction` say what a command asks for, and the arm then does it.

The results of the transfers and of the talk with the motor, the phone and the next arm are parts
of the `World`; the ring itself is in `Kinetis.Pov.Ring`.
-/

namespace Kinetis.Pov.Fsm
open Lib Mavlink

def POV_TARGET_RPM : Int := 900
def POV_RING_IMAGE_APPLY_DELAY_FRAMES : UInt8 := 2
def MAV_FILE_TRANSFER_DIR_UPLOAD : UInt8 := 0
def MAV_FILE_TRANSFER_DIR_DOWNLOAD : UInt8 := 1
def MAV_BL_CMD_PREPARE_UPDATE : UInt8 := 0
def MAV_BL_CMD_PREPARE_STATOR_UPDATE : UInt8 := 4

def Arm.isMaster (a : Arm) : Bool := Ring.isMasterArm a.armId.toNat

def Arm.setFsmState (a : Arm) (state : State) : Arm := { a with state := state }

/-! ### What an iteration sees -/

/-- The messages of the phone that `pov_check_phone_cmd` tells apart. -/
inductive PhoneMsg where
  | fileTransferStart (direction : UInt8) (path : List UInt8)
  | fileTransferList
  | imageControl (action : UInt8) (imageIndex : UInt16)
  | motorStatusQuery
  | bootloaderUpdateCmd (command : UInt8)
  | other

/-- What `pov_receive_image_files` comes to. -/
inductive Reception where
  | done
  | canceled
  | failed

/-- One link of the ring: the command its port holds, whether the files came in, whether the next
arm answered as it should, and the file system during a reload. -/
structure RingPoll where
  cmd       : Option RingCmd
  received  : Bool
  forwarded : Bool
  disk      : Disk

/-- What one iteration of the loop sees. -/
structure World where
  disk            : Disk
  display         : Inputs
  fuel            : Nat
  heartbeat       : Bool
  motorConnected  : Bool
  phoneConnected  : Bool
  speedConfirmed  : Bool
  rpm             : Int
  phone           : Option PhoneMsg
  filesSent       : Bool
  uploadAcked     : Bool
  reception       : Reception
  ringTransferred : Bool
  filesListed     : Bool
  ringAccepted    : Bool
  statusAnswered  : Bool
  statorUpdated   : Bool
  cw              : RingPoll
  ccw             : RingPoll

/-! ### Showing the image -/

/-- `display_loop`.  A pass that does not come back leaves the arm in it. -/
def displayLoop (w : World) (a : Arm) : Arm :=
  if a.isMaster && !w.heartbeat then a.setFsmState .error
  else
    match a.displayImage w.display w.fuel with
    | none => a
    | some (some _, a) => a.setFsmState .error
    | some (none, a) => a.setFsmState (if a.isMaster then .checkCmd else .checkRing)

/-! ### Commands at the end of the image -/

/-- The end of the image, and on with the display unless it fails. -/
def endOfImage (d : Disk) (a : Arm) : Arm :=
  match handleEndOfImage d a with
  | (some _, a) => a.setFsmState .error
  | (none, a) => a.setFsmState .displaying

/-- What a message of the phone asks for. -/
inductive PhoneReaction where
  | endOfImage
  | install (action : UInt8) (imageIndex : UInt16) (delayFrames : UInt8)
  | reload
  | enter (state : State)
  | stay

/-- `pov_check_phone_cmd`, up to what it does to the images. -/
def phoneReaction (w : World) (a : Arm) : PhoneReaction :=
  match w.phone with
  | none => .endOfImage
  | some (.fileTransferStart direction path) =>
    if direction ≠ MAV_FILE_TRANSFER_DIR_UPLOAD ∧ direction ≠ MAV_FILE_TRANSFER_DIR_DOWNLOAD then
      .endOfImage
    else if !Ring.layerNameValid path then .endOfImage
    else if direction = MAV_FILE_TRANSFER_DIR_DOWNLOAD then
      if w.filesSent then .endOfImage else .enter .error
    else if !w.uploadAcked then .enter .error
    else
      match w.reception with
      | .canceled => .endOfImage
      | .failed => .enter .error
      | .done =>
        -- a transfer that the ring rejects rewinds the image that plays
        if !w.ringTransferred then
          .install MAV_IMAGE_ACTION_REPLAY a.imageCurrent.toUInt16 0
        else .reload
  | some .fileTransferList => if w.filesListed then .endOfImage else .enter .error
  | some (.imageControl action imageIndex) =>
    if MAV_IMAGE_ACTION_PLAY_INDEX < action ∨ action = MAV_IMAGE_ACTION_PLAY_INDEX ∧
        a.imageCount.toNat ≤ imageIndex.toNat then .endOfImage
    else if !w.ringAccepted then .endOfImage
    else .install action imageIndex POV_RING_IMAGE_APPLY_DELAY_FRAMES
  | some .motorStatusQuery => if w.statusAnswered then .endOfImage else .stay
  | some (.bootloaderUpdateCmd command) =>
    if command = MAV_BL_CMD_PREPARE_STATOR_UPDATE then .enter .statorUpdate
    else if command ≠ MAV_BL_CMD_PREPARE_UPDATE then .endOfImage
    else .enter .rotorUpdate
  | some .other => .endOfImage

def checkPhoneCmd (w : World) (a : Arm) : Arm :=
  match phoneReaction w a with
  | .endOfImage => endOfImage w.disk a
  | .install action imageIndex delayFrames =>
    endOfImage w.disk (imageCmdSet action imageIndex delayFrames a)
  | .reload =>
    match reloadImagesAfterUpdate w.disk a with
    | (some _, a) => a.setFsmState .error
    | (none, a) => a.setFsmState .displaying
  | .enter state => a.setFsmState state
  | .stay => a

/-- What a command of the ring asks for. -/
inductive RingReaction where
  | nothing
  | execute (cmd : RingCmd)
  | reload

/-- `pov_ring_handle_cmd` and `pov_ring_handle_file_cmd`, up to what they do to the images. -/
def ringReaction (p : RingPoll) (armId : UInt8) : RingReaction :=
  let last := Ring.isLastArm POV_ARM_COUNT armId.toNat
  match p.cmd with
  | none => .nothing
  | some cmd =>
    if cmd.direction ≠ Ring.MAV_RING_DIRECTION_CW then .nothing
    else if cmd.cmd = Ring.MAV_RING_CMD_FILE_DISTRIBUTE then
      if Ring.decodeFilePayload cmd.payload cmd.payloadLen = none then .nothing
      else if !p.received then .nothing
      else if last || p.forwarded then .reload
      else .nothing
    else if last || p.forwarded then .execute cmd
    else .nothing

/-- `pov_ring_execute_cmd`. -/
def ringExecuteCmd (cmd : RingCmd) (a : Arm) : Arm :=
  if cmd.dstArm ≠ Ring.POV_ARM_BROADCAST ∧ cmd.dstArm ≠ a.armId then a
  else if cmd.cmd = Ring.MAV_RING_CMD_IMAGE_CONTROL then
    match Ring.decodeImagePayload cmd.payload cmd.payloadLen with
    | some (action, imageIndex, delayFrames) => imageCmdSet action imageIndex delayFrames a
    | none => a
  else a

/-- `pov_ring_poll_mavlink`.  The result of the reload is only reported on the ring. -/
def ringPollLink (p : RingPoll) (a : Arm) : Arm :=
  match ringReaction p a.armId with
  | .nothing => a
  | .execute cmd => ringExecuteCmd cmd a
  | .reload => (reloadImagesAfterUpdate p.disk a).2

def ringPoll (w : World) (a : Arm) : Arm := ringPollLink w.ccw (ringPollLink w.cw a)

def checkRingCmd (w : World) (a : Arm) : Arm := endOfImage w.disk (ringPoll w a)

/-! ### Updates, speed and errors -/

/-- The end of `pov_bootloader_update_flow`, which is the same however the update went. -/
def bootloaderUpdateFlow (w : World) (a : Arm) : Arm :=
  endOfImage w.disk (imageCmdSet MAV_IMAGE_ACTION_REPLAY a.imageCurrent.toUInt16 0 a)

def statorUpdateFlow (w : World) (a : Arm) : Arm :=
  a.setFsmState (if w.statorUpdated then .waitMotor else .error)

/-- The speed, in either direction, is within 5 of the target. -/
def nearTarget (rpm : Int) : Bool :=
  let speed := if rpm < 0 then -rpm else rpm
  (speed - POV_TARGET_RPM).natAbs < 5

def waitSpeedStable (w : World) (a : Arm) : Arm :=
  if nearTarget w.rpm then
    if 10 ≤ a.speedStableSamples + 1 then
      { a with speedStableSamples := 0, state := .displaying }
    else { a with speedStableSamples := a.speedStableSamples + 1 }
  else { a with speedStableSamples := 0 }

/-- On to the next state when all is well; otherwise the state is tried again. -/
def Arm.goOn (a : Arm) (ok : Bool) (next : State) : Arm := if ok then a.setFsmState next else a

def waitingForMotorConnection (w : World) (a : Arm) : Arm := a.goOn w.motorConnected .sendSpeed
def waitingForPhoneConnection (w : World) (a : Arm) : Arm := a.goOn w.phoneConnected .sendSpeed
def setMotorSpeed (w : World) (a : Arm) : Arm := a.goOn w.speedConfirmed .displaying

/-- `error_occurred`.  The motor is stopped; nothing is done to the image. -/
def errorOccurred (a : Arm) : Arm :=
  a.setFsmState (if a.isMaster then .waitMotor else .waitSpeed)

/-! ### The loop -/

/-- One iteration of the loop of `pov_rotor_display`. -/
def step (a : Arm) (w : World) : Arm :=
  match a.state with
  | .waitMotor => if a.isMaster then waitingForMotorConnection w a else a.setFsmState .waitSpeed
  | .waitPhone => if a.isMaster then waitingForPhoneConnection w a else a.setFsmState .waitSpeed
  | .sendSpeed => if a.isMaster then setMotorSpeed w a else a.setFsmState .waitSpeed
  | .displaying => displayLoop w a
  | .checkCmd => if a.isMaster then checkPhoneCmd w a else checkRingCmd w a
  | .waitSpeed => waitSpeedStable w a
  | .checkRing => checkRingCmd w a
  | .statorUpdate => if a.isMaster then statorUpdateFlow w a else a.setFsmState .error
  | .rotorUpdate => if a.isMaster then bootloaderUpdateFlow w a else a.setFsmState .error
  | .error => errorOccurred a

theorem isMaster_eq_false {a : Arm} (h : a.armId ≠ 0) : a.isMaster = false := by
  have hne : a.armId.toNat ≠ 0 := fun h0 => h (UInt8.toNat_inj.mp h0)
  simp [Arm.isMaster, Ring.isMasterArm, hne]

/-- What `display_loop` does when it calls `display_image` and the call comes back. -/
theorem displayLoop_eq {a : Arm} {w : World} {q : Outcome Arm}
    (hbeat : a.isMaster = true → w.heartbeat = true)
    (hq : a.displayImage w.display w.fuel = some q) :
    displayLoop w a = q.2.setFsmState
      (if q.1.isSome then .error else if q.2.isMaster then .checkCmd else .checkRing) := by
  have hcall : ¬ (a.isMaster && !w.heartbeat) = true := by
    simpa using hbeat
  obtain ⟨e, a'⟩ := q
  rw [displayLoop, if_neg hcall, hq]
  cases e with
  | none => rfl
  | some e => rfl

/-- `display_image` is called in this iteration. -/
def Displays (a : Arm) (w : World) : Prop :=
  a.state = .displaying ∧ (a.isMaster = true → w.heartbeat = true)

/-- A pass that is begun comes back. -/
def Returns (a : Arm) (w : World) : Prop :=
  Displays a w → (a.displayImage w.display w.fuel).isSome

/-- `pov_rotor_alloc`: a cleared structure. -/
def Arm.alloc (armId : UInt8) : Arm where
  imageFile := ⟨[], 0⟩
  ledDriverFrame _ := List.replicate (POV_PREFETCH_COLS * POV_LED_DRIVER_COL_BYTES) 0
  prefetchPing := 0
  prefetchSentIndex := 0
  pendingColumn := 0
  armId := armId
  angularResolution := (POV_DISPLAY_COLS : Nat).toUInt32
  sent := []
  samples := 0
  ticks := 0
  reads := 0
  transfers := 0
  state := .waitMotor
  fileValid := false
  imageNames _ := none
  imageCount := 0
  imagesOpen := false
  imageHeader := List.replicate POV_IMAGE_HEADER_SIZE 0
  imageCurrent := 0
  imageCmd := ⟨false, 0, 0⟩
  imageCmdDelayFrames := 0
  speedStableSamples := 0

/-- `pov_speed_test`: its result, and what it leaves in the buffers and the traces.  When it
succeeds the image is rewound. -/
structure SpeedTest where
  result  : Option Errno
  scratch : Rotor

def speedTest (t : SpeedTest) (a : Arm) : Outcome Arm :=
  match t.result with
  | some e => (some e, a)
  | none =>
    let rotor := { t.scratch with
      imageFile := a.imageFile.seek POV_IMAGE_HEADER_SIZE
      prefetchPing := 0
      prefetchSentIndex := 0
      pendingColumn := POV_IMAGE_HEADER_SIZE
      armId := a.armId
      angularResolution := a.angularResolution }
    (none, { a with toRotor := rotor })

/-- `pov_rotor_display` up to its loop. -/
def start (d : Disk) (t : SpeedTest) (a : Arm) : Outcome Arm :=
  (scanImages d a).andThen fun a =>
    if a.imageCount = 0 then (some .enoent, a)
    else
      (loadImages d ((a.imageNames 0).getD "") a).andThen fun a =>
        if a.isMaster then speedTest t a else (none, a.setFsmState .waitSpeed)

/-- The arm enters the loop. -/
def Started (a : Arm) : Prop := ∃ armId d t, start d t (Arm.alloc armId) = (none, a)

end Kinetis.Pov.Fsm
