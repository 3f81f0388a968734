import Kinetis.Lib.Framing
import Mathlib.Algebra.Order.Group.Nat

/-!
# Mavlink — the device

Messages of the dialect, the state a device keeps of them, and `mavlink_receive_and_process`, which
feeds the bytes of one receive to the parser and takes note of every message that ends among them.
The parser and the generated decoders are not part of the repository: `Codec` names the fields that
the driver reads off a message, and a `Lib.Framer` is the parser with the message it fills.
-/

namespace Kinetis.Mavlink
open Lib (Frame Framer)

/-! ### The dialect -/

inductive MsgId where
  | motorControl
  | motorStatusQuery
  | motorStatus
  | motorAck
  | imageControl
  | imageAck
  | systemHeartbeat
  | fileTransferStart
  | fileTransferAck
  | fileTransferProgress
  | fileTransferCancel
  | fileTransferList
  | bootloaderUpdateCmd
  | bootloaderAck
  | ringCmd
  | ringAck
  | ringError
  | unknown (id : Nat)
  deriving DecidableEq, Repr

structure MotorControl where
  targetId  : UInt8
  speed     : Int32
  direction : UInt8
  deriving DecidableEq, Repr

structure MotorStatus where
  motorId      : UInt8
  currentSpeed : Int32
  direction    : UInt8
  status       : UInt8
  deriving DecidableEq, Repr

structure MotorAck where
  motorId   : UInt8
  ackResult : UInt8
  deriving DecidableEq, Repr

structure ImageControl where
  action     : UInt8
  imageIndex : UInt16
  deriving DecidableEq, Repr

structure SystemHeartbeat where
  status     : UInt8
  uptimeS    : UInt32
  errorCount : UInt16
  deriving DecidableEq, Repr

structure FileTransferStart where
  direction : UInt8
  fileSize  : UInt32
  path      : List UInt8
  deriving DecidableEq, Repr

structure FileTransferAck where
  direction : UInt8
  result    : UInt8
  fileSize  : UInt32
  deriving DecidableEq, Repr

structure FileTransferProgress where
  state            : UInt8
  bytesTransferred : UInt32
  totalBytes       : UInt32
  errorCode        : UInt8
  deriving DecidableEq, Repr

structure BootloaderUpdateCmd where
  command       : UInt8
  firmwareSize  : UInt32
  firmwareCrc32 : UInt32
  filename      : List UInt8
  deriving DecidableEq, Repr

structure BootloaderAck where
  command : UInt8
  result  : UInt8
  deriving DecidableEq, Repr

structure RingCmd where
  seq        : UInt16
  cmd        : UInt16
  srcArm     : UInt8
  dstArm     : UInt8
  currentArm : UInt8
  direction  : UInt8
  payloadLen : UInt8
  payload    : List UInt8
  deriving DecidableEq, Repr

structure RingAck where
  seq    : UInt16
  node   : UInt8
  result : UInt8
  deriving DecidableEq, Repr

structure RingError where
  seq           : UInt16
  errorCode     : UInt16
  errorNode     : UInt8
  errorLinkFrom : UInt8
  errorLinkTo   : UInt8
  deriving DecidableEq, Repr

/-- What the driver reads off a message: `msgid` and the decoders it calls. -/
structure Codec (R : Type) where
  msgid                : R → MsgId
  motorControl         : R → MotorControl
  /-- `motor_id` of a query. -/
  motorStatusQuery     : R → UInt8
  motorStatus          : R → MotorStatus
  motorAck             : R → MotorAck
  imageControl         : R → ImageControl
  systemHeartbeat      : R → SystemHeartbeat
  fileTransferStart    : R → FileTransferStart
  fileTransferAck      : R → FileTransferAck
  fileTransferProgress : R → FileTransferProgress
  /-- `direction` of a cancellation. -/
  fileTransferCancel   : R → UInt8
  bootloaderUpdateCmd  : R → BootloaderUpdateCmd
  bootloaderAck        : R → BootloaderAck
  ringCmd              : R → RingCmd
  ringAck              : R → RingAck
  ringError            : R → RingError

/-- What a device sends. -/
inductive Sent where
  | motorControl (payload : MotorControl)
  | motorStatusQuery (motorId : UInt8)
  | motorStatus (payload : MotorStatus)
  | motorAck (payload : MotorAck)
  | systemHeartbeat (payload : SystemHeartbeat)
  | fileTransferStart (payload : FileTransferStart)
  | bootloaderUpdateCmd (payload : BootloaderUpdateCmd)
  | bootloaderAck (payload : BootloaderAck)
  deriving DecidableEq, Repr

def MAVLINK_MOTOR_COUNT : UInt8 := 4
def MAVLINK_RING_PAYLOAD_LEN : UInt8 := 64
def MAV_MOTOR_DIRECTION_REVERSE : UInt8 := 2
def MAV_SYSTEM_STATUS_STANDBY : UInt8 := 1
def MAV_SYSTEM_STATUS_ACTIVE : UInt8 := 2
def MAV_ACK_RESULT_OK : UInt8 := 0
def MAV_ACK_RESULT_INVALID_PARAM : UInt8 := 2
def MAV_FILE_TRANSFER_STATE_IDLE : UInt8 := 0
def MAV_FILE_TRANSFER_STATE_TRANSFERRING : UInt8 := 1
def MAV_FILE_TRANSFER_STATE_COMPLETED : UInt8 := 2
def MAV_FILE_TRANSFER_STATE_CANCELLED : UInt8 := 3
def MAV_FILE_TRANSFER_STATE_ERROR : UInt8 := 4
def MAV_FT_RESULT_READY : UInt8 := 0
def MAV_FT_RESULT_DENIED : UInt8 := 1
def MAV_FT_RESULT_NO_SPACE : UInt8 := 2
def MAV_FT_RESULT_NOT_FOUND : UInt8 := 3
def MAV_FT_RESULT_BUSY : UInt8 := 4
def MAV_FT_ERR_NONE : UInt8 := 0
def MAV_FT_ERR_PROTOCOL : UInt8 := 3
def MAV_BL_ACK_ACCEPTED : UInt8 := 0
def MAV_BL_ACK_ERROR : UInt8 := 2
def MAV_BL_ACK_COMPLETED : UInt8 := 4

/-- `dir_to_wire`. -/
def dirToWire (direction : Int8) : UInt8 :=
  if direction > 0 then 1 else if direction < 0 then 2 else 0

/-- `dir_from_wire`. -/
def dirFromWire (wire : UInt8) : Int8 := if wire = 1 then 1 else if wire = 2 then -1 else 0

/-- A string of at most `n` characters in a field, up to its NUL. -/
def cString (n : Nat) (field : List UInt8) : List UInt8 := (field.take n).takeWhile (· ≠ 0)

/-! ### The device -/

/-- `struct mavlink_motor_state`. -/
structure MotorState where
  targetSpeed  : Int32
  currentSpeed : Int32
  direction    : Int8
  status       : UInt8

/-- `struct mavlink_image_cmd`. -/
structure ImageCmd where
  pending    : Bool
  action     : UInt8
  imageIndex : UInt16

/-- `struct mavlink_ft_state`. -/
structure FtState where
  active      : Bool
  direction   : UInt8
  state       : UInt8
  errorCode   : UInt8
  path        : List UInt8
  totalBytes  : UInt32
  transferred : UInt32

/-- `struct mavlink_bl_cmd`. -/
structure BlCmd where
  pending       : Bool
  command       : UInt8
  firmwareSize  : UInt32
  firmwareCrc32 : UInt32
  filename      : List UInt8
  deriving DecidableEq

/-- `struct mavlink_ring_cmd_state`. -/
structure RingCmdState where
  pending : Bool
  cmd     : RingCmd

/-- `struct mavlink_ring_ack_state`. -/
structure RingAckState where
  pending : Bool
  ack     : RingAck

/-- `struct mavlink_ring_error_state`; the code is narrowed to `u8`. -/
structure RingErrorState where
  pending       : Bool
  seq           : UInt16
  errorCode     : UInt8
  errorNode     : UInt8
  errorLinkFrom : UInt8
  errorLinkTo   : UInt8

/-- `struct mavlink_device`; `rx` is `rx_status` with `rx_msg`, and `outbox` what was sent. -/
structure Device (σ : Type) where
  motors     : Nat → MotorState
  imageCmd   : ImageCmd
  ft         : FtState
  bl         : BlCmd
  sysStatus  : UInt8
  errorCount : UInt16
  uptimeS    : UInt32
  ringCmd    : RingCmdState
  ringAck    : RingAckState
  ringError  : RingErrorState
  txCount    : UInt32
  rxCount    : UInt32
  rxErrors   : UInt32
  rx         : σ
  outbox     : List Sent

variable {σ R : Type}

/-- `mavlink_init`, with a parser between frames. -/
def mavlinkInit (rx : σ) : Device σ where
  motors := fun _ => ⟨0, 0, 0, 0⟩
  imageCmd := ⟨false, 0, 0⟩
  ft := ⟨false, 0, MAV_FILE_TRANSFER_STATE_IDLE, 0, [], 0, 0⟩
  bl := ⟨false, 0, 0, 0, []⟩
  sysStatus := MAV_SYSTEM_STATUS_STANDBY
  errorCount := 0
  uptimeS := 0
  ringCmd := ⟨false, ⟨0, 0, 0, 0, 0, 0, 0, []⟩⟩
  ringAck := ⟨false, ⟨0, 0, 0⟩⟩
  ringError := ⟨false, 0, 0, 0, 0, 0⟩
  txCount := 0
  rxCount := 0
  rxErrors := 0
  rx := rx
  outbox := []

/-- `mavlink_send_encoded_data`. -/
def Device.send (d : Device σ) (msg : Sent) : Device σ :=
  { d with txCount := d.txCount + 1, outbox := d.outbox ++ [msg] }

/-- Whether a `MOTOR_CONTROL` is obeyed. -/
def MotorControl.accepted (ctrl : MotorControl) : Bool :=
  ¬ ((ctrl.targetId ≥ MAVLINK_MOTOR_COUNT ∧ ctrl.targetId ≠ 255) ∨
    ctrl.direction > MAV_MOTOR_DIRECTION_REVERSE)

/-- The motors that a `MOTOR_CONTROL` addresses. -/
def MotorControl.addresses (ctrl : MotorControl) (idx : Nat) : Bool :=
  if ctrl.targetId = 255 then idx < MAVLINK_MOTOR_COUNT.toNat else idx = ctrl.targetId.toNat

def Device.onMotorControl (d : Device σ) (ctrl : MotorControl) : Device σ :=
  if ctrl.accepted then
    { d with
        motors := fun idx =>
          if ctrl.addresses idx then
            { d.motors idx with
                targetSpeed := ctrl.speed, direction := dirFromWire ctrl.direction }
          else d.motors idx }
  else d

def Device.onMotorStatus (d : Device σ) (st : MotorStatus) : Device σ :=
  if st.motorId < MAVLINK_MOTOR_COUNT then
    { d with
        motors := fun idx =>
          if idx = st.motorId.toNat then
            { d.motors idx with
                currentSpeed := st.currentSpeed, direction := st.direction.toInt8
                status := st.status }
          else d.motors idx }
  else d

def Device.onFileTransferAck (d : Device σ) (ack : FileTransferAck) : Device σ :=
  { d with
      ft := { d.ft with
        direction := ack.direction
        transferred := 0
        totalBytes := ack.fileSize
        errorCode := if ack.result = MAV_FT_RESULT_READY then MAV_FT_ERR_NONE
          else MAV_FT_ERR_PROTOCOL
        state := if ack.result = MAV_FT_RESULT_READY then MAV_FILE_TRANSFER_STATE_TRANSFERRING
          else MAV_FILE_TRANSFER_STATE_ERROR
        active := ack.result = MAV_FT_RESULT_READY } }

def Device.onFileTransferProgress (d : Device σ) (prog : FileTransferProgress) : Device σ :=
  { d with
      ft := { d.ft with
        state := prog.state
        transferred := prog.bytesTransferred
        totalBytes := prog.totalBytes
        errorCode := prog.errorCode
        active := if prog.state = MAV_FILE_TRANSFER_STATE_COMPLETED ∨
            prog.state = MAV_FILE_TRANSFER_STATE_CANCELLED ∨
            prog.state = MAV_FILE_TRANSFER_STATE_ERROR then false else d.ft.active } }

def Device.onBootloaderUpdateCmd (d : Device σ) (cmd : BootloaderUpdateCmd) : Device σ :=
  Device.send
    { d with
        bl := { pending := true, command := cmd.command, firmwareSize := cmd.firmwareSize
                firmwareCrc32 := cmd.firmwareCrc32, filename := cString 31 cmd.filename } }
    (.bootloaderAck ⟨cmd.command, MAV_BL_ACK_ACCEPTED⟩)

def Device.onRingCmd (d : Device σ) (cmd : RingCmd) : Device σ :=
  { d with
      ringCmd := { pending := true
                   cmd := { cmd with
                     payloadLen := if cmd.payloadLen > MAVLINK_RING_PAYLOAD_LEN
                       then MAVLINK_RING_PAYLOAD_LEN else cmd.payloadLen } } }

/-- The `switch` of `mavlink_receive_and_process`, for the message just received. -/
def Device.onMessage (c : Codec R) (d : Device σ) (msg : R) : Device σ :=
  match c.msgid msg with
  | .motorControl => d.onMotorControl (c.motorControl msg)
  | .motorStatus => d.onMotorStatus (c.motorStatus msg)
  | .imageControl =>
    { d with imageCmd := ⟨true, (c.imageControl msg).action, (c.imageControl msg).imageIndex⟩ }
  | .systemHeartbeat =>
    { d with
        sysStatus := (c.systemHeartbeat msg).status
        uptimeS := (c.systemHeartbeat msg).uptimeS
        errorCount := (c.systemHeartbeat msg).errorCount }
  | .fileTransferStart =>
    { d with
        ft := { active := true, direction := (c.fileTransferStart msg).direction
                state := MAV_FILE_TRANSFER_STATE_TRANSFERRING, errorCode := MAV_FT_ERR_NONE
                path := cString 63 (c.fileTransferStart msg).path
                totalBytes := (c.fileTransferStart msg).fileSize, transferred := 0 } }
  | .fileTransferAck => d.onFileTransferAck (c.fileTransferAck msg)
  | .fileTransferProgress => d.onFileTransferProgress (c.fileTransferProgress msg)
  | .fileTransferCancel =>
    { d with
        ft := { d.ft with
          direction := c.fileTransferCancel msg
          state := MAV_FILE_TRANSFER_STATE_CANCELLED, active := false } }
  | .bootloaderUpdateCmd => d.onBootloaderUpdateCmd (c.bootloaderUpdateCmd msg)
  | .ringCmd => d.onRingCmd (c.ringCmd msg)
  | .ringAck => { d with ringAck := ⟨true, c.ringAck msg⟩ }
  | .ringError =>
    { d with
        ringError := { pending := true, seq := (c.ringError msg).seq
                       errorCode := (c.ringError msg).errorCode.toUInt8
                       errorNode := (c.ringError msg).errorNode
                       errorLinkFrom := (c.ringError msg).errorLinkFrom
                       errorLinkTo := (c.ringError msg).errorLinkTo } }
  | .motorStatusQuery | .motorAck | .imageAck | .fileTransferList => d
  -- no case of the `switch` names BOOTLOADER_ACK
  | .bootloaderAck | .unknown _ => { d with rxErrors := d.rxErrors + 1 }

/-- One byte of a receive; `last` is `last_msgid`. -/
def Device.receiveByte (F : Framer σ R) (c : Codec R) (last : Option MsgId) (d : Device σ)
    (b : UInt8) : Option MsgId × Device σ :=
  let d' := { d with rx := (F.feed d.rx b).1 }
  if (F.feed d.rx b).2 then
    (some (c.msgid (F.msg d'.rx)),
      Device.onMessage c { d' with rxCount := d'.rxCount + 1 } (F.msg d'.rx))
  else (last, d')

/-- The loop of `mavlink_receive_and_process` over the bytes received. -/
def Device.receiveBytes (F : Framer σ R) (c : Codec R) :
    Option MsgId → Device σ → List UInt8 → Option MsgId × Device σ
  | last, d, [] => (last, d)
  | last, d, b :: bytes =>
    Device.receiveBytes F c (d.receiveByte F c last b).1 (d.receiveByte F c last b).2 bytes

/-- `mavlink_receive_and_process`: the id of the last message of the chunk, and the device. -/
def Device.receiveAndProcess (F : Framer σ R) (c : Codec R) (d : Device σ) (chunk : List UInt8) :
    Option MsgId × Device σ := d.receiveBytes F c none chunk

/-! ### What a receive does to the parser -/

section receive

variable (F : Framer σ R) (c : Codec R)

theorem onMessage_rx (d : Device σ) (msg : R) : (d.onMessage c msg).rx = d.rx := by
  unfold Device.onMessage
  split
  · rw [Device.onMotorControl]
    split
    · rfl
    · rfl
  · rw [Device.onMotorStatus]
    split
    · rfl
    · rfl
  all_goals rfl

theorem receiveByte_rx (last : Option MsgId) (d : Device σ) (b : UInt8) :
    (d.receiveByte F c last b).2.rx = (F.feed d.rx b).1 := by
  rw [Device.receiveByte]
  split
  · exact onMessage_rx c _ _
  · rfl

/-- The parser sees the bytes, and `last_msgid` is that of the last message reported. -/
theorem receiveBytes_spec (last : Option MsgId) (d : Device σ) (bytes : List UInt8) :
    (d.receiveBytes F c last bytes).2.rx = F.run d.rx bytes ∧
    (d.receiveBytes F c last bytes).1 =
      ((F.reports d.rx bytes).getLast?.map c.msgid).or last := by
  induction bytes generalizing last d with
  | nil => exact ⟨rfl, rfl⟩
  | cons b bytes ih =>
    obtain ⟨hrx, hlast⟩ := ih (d.receiveByte F c last b).1 (d.receiveByte F c last b).2
    rw [receiveByte_rx] at hrx hlast
    refine ⟨hrx, ?_⟩
    rw [Device.receiveBytes, hlast, Framer.reports, Device.receiveByte]
    split
    · rw [List.getLast?_cons]
      cases (F.reports (F.feed d.rx b).1 bytes).getLast? with
      | none => rfl
      | some m => rfl
    · rfl

theorem receiveAndProcess_spec (d : Device σ) (chunk : List UInt8) :
    (d.receiveAndProcess F c chunk).2.rx = F.run d.rx chunk ∧
    (d.receiveAndProcess F c chunk).1 = (F.reports d.rx chunk).getLast?.map c.msgid := by
  obtain ⟨hrx, hlast⟩ := receiveBytes_spec F c none d chunk
  exact ⟨hrx, hlast.trans (Option.or_none)⟩

/-! ### What a receive does to the device -/

/-- Without a frame nothing but the parser changes. -/
theorem receiveBytes_of_quiet {last : Option MsgId} {d : Device σ} {bytes : List UInt8}
    (h : F.reports d.rx bytes = []) :
    (d.receiveBytes F c last bytes).2 = { d with rx := F.run d.rx bytes } := by
  induction bytes generalizing last d with
  | nil => rfl
  | cons b bytes ih =>
    rw [Framer.reports] at h
    split at h
    · exact absurd h (List.cons_ne_nil _ _)
    · rename_i hok
      rw [Device.receiveBytes, Device.receiveByte, if_neg hok]
      exact ih h

theorem receiveBytes_append (last : Option MsgId) (d : Device σ) (a b : List UInt8) :
    d.receiveBytes F c last (a ++ b) =
      (d.receiveBytes F c last a).2.receiveBytes F c (d.receiveBytes F c last a).1 b := by
  induction a generalizing last d with
  | nil => rfl
  | cons x a ih => exact ih _ _

/-- The device after a frame. -/
def Device.deliver (d : Device σ) (f : Frame R) : Device σ :=
  Device.onMessage c { d with rx := F.run d.rx f.bytes, rxCount := d.rxCount + 1 } f.msg

theorem deliver_rx (d : Device σ) (f : Frame R) : (d.deliver F c f).rx = F.run d.rx f.bytes :=
  onMessage_rx c _ _

variable {F} {idle : σ → Prop}

/-- **One frame** that the parser reads. -/
theorem receiveBytes_frame {f : Frame R} (hf : F.Reads idle f) {d : Device σ} (hd : idle d.rx)
    (last : Option MsgId) : (d.receiveBytes F c last f.bytes).2 = d.deliver F c f := by
  obtain ⟨before, b, hbytes⟩ : ∃ before b, f.bytes = before ++ [b] := by
    rcases List.eq_nil_or_concat f.bytes with hnil | ⟨before, b, h⟩
    · exact absurd (hf.length_pos hd) (by rw [hnil]; exact Nat.lt_irrefl 0)
    · exact ⟨before, b, h.trans (List.concat_eq_append)⟩
  -- nothing is reported before the last byte
  have hquiet : F.reports d.rx before = [] := by
    have hlt : before.length < f.bytes.length := by
      rw [hbytes, List.length_append]
      exact Nat.lt_succ_self _
    have h := hf.early d.rx hd before.length hlt
    rwa [hbytes, List.take_left] at h
  have hwhole := hf.whole d.rx hd
  have hmsg := hf.msg d.rx hd
  rw [hbytes] at hwhole hmsg
  rw [Framer.reports_append, hquiet, Framer.reports] at hwhole
  rw [Framer.run_append] at hmsg
  have hend : (F.feed (F.run d.rx before) b).2 = true := by
    by_contra hno
    rw [if_neg hno] at hwhole
    exact absurd hwhole.symm (List.cons_ne_nil _ _)
  rw [Device.deliver, hbytes, receiveBytes_append, receiveBytes_of_quiet F c hquiet,
    Framer.run_append, ← hmsg]
  rw [Device.receiveBytes, Device.receiveByte, if_pos hend]
  rfl

/-- **A stream of frames** is delivered frame by frame. -/
theorem receiveBytes_stream {fs : List (Frame R)} (hfs : ∀ f ∈ fs, F.Reads idle f) {d : Device σ}
    (hd : idle d.rx) (last : Option MsgId) :
    (d.receiveBytes F c last (Lib.stream fs)).2 = fs.foldl (Device.deliver F c) d := by
  induction fs generalizing d last with
  | nil => rfl
  | cons f fs ih =>
    have hf := hfs f List.mem_cons_self
    rw [Lib.stream, List.map_cons, List.flatten_cons, receiveBytes_append,
      receiveBytes_frame c hf hd]
    refine ih (fun g hg => hfs g (List.mem_cons_of_mem _ hg)) ?_ _
    rw [deliver_rx]
    exact hf.idle d.rx hd

theorem onMessage_rxCount (d : Device σ) (msg : R) : (d.onMessage c msg).rxCount = d.rxCount := by
  unfold Device.onMessage
  split
  · rw [Device.onMotorControl]
    split
    · rfl
    · rfl
  · rw [Device.onMotorStatus]
    split
    · rfl
    · rfl
  all_goals rfl

/-- The only answer that the receive itself sends is to an update command. -/
theorem onMessage_outbox (d : Device σ) (msg : R) :
    (d.onMessage c msg).outbox = d.outbox ∨
      ∃ ack, (d.onMessage c msg).outbox = d.outbox ++ [.bootloaderAck ack] := by
  unfold Device.onMessage
  split
  · rw [Device.onMotorControl]
    split
    · exact .inl rfl
    · exact .inl rfl
  · rw [Device.onMotorStatus]
    split
    · exact .inl rfl
    · exact .inl rfl
  case h_9 => exact .inr ⟨_, rfl⟩
  all_goals exact .inl rfl

/-- Every frame counts. -/
theorem foldl_deliver_rxCount (fs : List (Frame R)) (d : Device σ) :
    (fs.foldl (Device.deliver F c) d).rxCount = d.rxCount + UInt32.ofNat fs.length := by
  induction fs generalizing d with
  | nil => exact (UInt32.add_zero _).symm
  | cons f fs ih =>
    rw [List.foldl_cons, ih, Device.deliver, onMessage_rxCount, List.length_cons,
      UInt32.ofNat_add, UInt32.add_assoc, UInt32.add_comm 1]
    rfl

end receive

end Kinetis.Mavlink
