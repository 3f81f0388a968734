import Kinetis.Mavlink.Waiters
import Kinetis.Pov.Ring

/-!
# Pov — firmware for all arms

The master hands a firmware image to the next arm, which hands it on before it installs it itself:
`pov_ring_transfer_firmware` and `pov_ring_handle_bootloader_cmd`.  An update command is answered with
`ACCEPTED` as soon as it is received, whoever handles it later; `COMPLETED` follows when the arm and
all arms behind it have installed the image.  Neither says which command it answers.

* `Arm` is the part of `struct pov_rotor` that takes part in it; `Task` is where an arm stands in the
  two functions.
* `step` interleaves the arms and loses frames.  A wait may end with an error at any time: its
  deadline passes, a receive fails, or the command before it could not be sent.  A transfer and
  `pov_update_firmware` succeed or fail.

A receive ends between two frames.  Other frames of the ring are `Frame.other`; they may be sent at
any time.
-/

namespace Kinetis.Pov.Firmware
open Mavlink
open Ring (Side isLastArm)

def MAV_BL_CMD_PREPARE_UPDATE : UInt8 := 0

/-! ### Frames and ports -/

inductive Frame where
  | updateCmd (cmd : BootloaderUpdateCmd)
  | ack (ack : BootloaderAck)
  | other
  deriving DecidableEq, Repr

/-- What the device of a link keeps: the last update command, and the last frame. -/
structure Port where
  bl    : BlCmd
  rxMsg : Frame
  deriving DecidableEq

def Port.empty : Port := ⟨⟨false, 0, 0, 0, []⟩, .other⟩

/-- `mavlink_receive_and_process`, for one frame. -/
def Port.receive (p : Port) : Frame → Port
  | .updateCmd cmd =>
    ⟨⟨true, cmd.command, cmd.firmwareSize, cmd.firmwareCrc32, cString 31 cmd.filename⟩,
      .updateCmd cmd⟩
  | m => { p with rxMsg := m }

/-- What it answers at once. -/
def Frame.answer : Frame → Option BootloaderAck
  | .updateCmd cmd => some ⟨cmd.command, MAV_BL_ACK_ACCEPTED⟩
  | _ => none

/-- An acknowledgement of `command` with `result`. -/
def answers (command result : UInt8) (ack : BootloaderAck) : Bool :=
  ack.command = command ∧ ack.result = result

section device

variable {σ R : Type}

def frameOf (c : Codec R) (msg : R) : Frame :=
  match c.msgid msg with
  | .bootloaderUpdateCmd => .updateCmd (c.bootloaderUpdateCmd msg)
  | .bootloaderAck => .ack (c.bootloaderAck msg)
  | _ => .other

end device

/-! ### Arms -/

/-- What an arm is in the middle of, with the link its command came from (none at the master):
`pov_ring_receive_firmware`, the wait of `mavlink_send_bootloader_update`, `pov_ring_send_firmware`,
`mavlink_wait_bootloader_ack`, `pov_update_firmware`. -/
inductive Task where
  | idle
  | receiving (incoming : Side) (cmd : BlCmd)
  | accepting (incoming : Option Side) (cmd : BlCmd)
  | sending (incoming : Option Side) (cmd : BlCmd)
  | completing (incoming : Option Side) (cmd : BlCmd)
  | updating (incoming : Side) (cmd : BlCmd)
  deriving DecidableEq

/-- What `pov_ring_transfer_firmware` returned: 0, or a negative number. -/
inductive Outcome where
  | ok
  | error
  deriving DecidableEq, Repr

/-- `cwOut` and `ccwOut` are the frames on their way to the neighbours; `updated` records size and
checksum of every call of `pov_update_firmware` that succeeded. -/
structure Arm where
  cw       : Port
  ccw      : Port
  cwOut    : List Frame
  ccwOut   : List Frame
  task     : Task
  updated  : List (UInt32 × UInt32)
  returned : Option Outcome

def Arm.init : Arm where
  cw := .empty
  ccw := .empty
  cwOut := []
  ccwOut := []
  task := .idle
  updated := []
  returned := none

def Arm.port (a : Arm) : Side → Port
  | .cw => a.cw
  | .ccw => a.ccw

def Arm.setPort (a : Arm) (side : Side) (p : Port) : Arm :=
  match side with
  | .cw => { a with cw := p }
  | .ccw => { a with ccw := p }

def Arm.send (a : Arm) (side : Side) (m : Frame) : Arm :=
  match side with
  | .cw => { a with cwOut := a.cwOut ++ [m] }
  | .ccw => { a with ccwOut := a.ccwOut ++ [m] }

/-- A frame is received, and answered. -/
def Arm.takeFrame (side : Side) (a : Arm) (m : Frame) : Arm :=
  let a := a.setPort side ((a.port side).receive m)
  match m.answer with
  | some ack => a.send side (.ack ack)
  | none => a

/-- The label `fail`; at the master the call returns the error. -/
def Arm.fail (a : Arm) (incoming : Option Side) (cmd : BlCmd) : Arm :=
  match incoming with
  | some side => Arm.send { a with task := .idle } side (.ack ⟨cmd.command, MAV_BL_ACK_ERROR⟩)
  | none => { a with task := .idle, returned := some .error }

/-- `mavlink_send_bootloader_update`, up to its wait. -/
def Arm.sendBootloaderUpdate (a : Arm) (incoming : Option Side) (cmd : BlCmd) : Arm :=
  Arm.send { a with task := .accepting incoming cmd } .cw
    (.updateCmd ⟨cmd.command, cmd.firmwareSize, cmd.firmwareCrc32, cString 31 cmd.filename⟩)

/-- What `pov_ring_handle_bootloader_cmd` makes of a command before anything else: the name must be
there, without `/` and `\`. -/
def BlCmd.valid (cmd : BlCmd) : Bool :=
  cmd.command = MAV_BL_CMD_PREPARE_UPDATE ∧ cmd.firmwareSize ≠ 0 ∧ cmd.filename ≠ [] ∧
    47 ∉ cmd.filename ∧ 92 ∉ cmd.filename

/-- `pov_ring_handle_bootloader_cmd`, up to the transfer. -/
def handleBootloaderCmd (side : Side) (a : Arm) : Arm :=
  let cmd := (a.port side).bl
  let a := a.setPort side { a.port side with bl := { cmd with pending := false } }
  if BlCmd.valid cmd then { a with task := .receiving side cmd } else a.fail (some side) cmd

/-- The transfer or the update that an arm is in returns. -/
def finish (n i : Nat) (ok : Bool) (a : Arm) : Arm :=
  match a.task with
  | .receiving incoming cmd =>
    if ok then
      if isLastArm n i then { a with task := .updating incoming cmd }
      else a.sendBootloaderUpdate (some incoming) cmd
    else a.fail (some incoming) cmd
  | .sending incoming cmd =>
    if ok then { a with task := .completing incoming cmd } else a.fail incoming cmd
  | .updating incoming cmd =>
    if ok then
      Arm.send
        { a with
            task := .idle
            updated := a.updated ++ [(cmd.firmwareSize, cmd.firmwareCrc32)] }
        incoming (.ack ⟨cmd.command, MAV_BL_ACK_COMPLETED⟩)
    else a.fail (some incoming) cmd
  | _ => a

/-- One look of the wait an arm is in, after its receive: `got` says whether a frame ended in it.
`mavlink_send_bootloader_update` asks the receive, `mavlink_wait_bootloader_ack` only `rx_msg`. -/
def look (got : Bool) (a : Arm) : Arm :=
  match a.task, a.cw.rxMsg with
  | .accepting incoming cmd, .ack ack =>
    if got then
      if answers cmd.command MAV_BL_ACK_ACCEPTED ack then { a with task := .sending incoming cmd }
      else a.fail incoming cmd
    else a
  | .completing incoming cmd, .ack ack =>
    if answers cmd.command MAV_BL_ACK_COMPLETED ack then
      match incoming with
      | some side => { a with task := .updating side cmd }
      | none => { a with task := .idle, returned := some .ok }
    else a.fail incoming cmd
  | _, _ => a

/-- The wait an arm is in ends with an error. -/
def giveUp (a : Arm) : Arm :=
  match a.task with
  | .accepting incoming cmd | .completing incoming cmd => a.fail incoming cmd
  | _ => a

/-- `pov_ring_transfer_firmware`, up to its first wait. -/
def transferFirmware (n : Nat) (firmwareSize firmwareCrc32 : UInt32) (filename : List UInt8)
    (a : Arm) : Arm :=
  if n ≤ 1 then { a with returned := some .error }
  else
    { a.sendBootloaderUpdate none
        ⟨false, MAV_BL_CMD_PREPARE_UPDATE, firmwareSize, firmwareCrc32, filename⟩ with
      returned := none }

/-! ### Interleavings -/

/-- All arms. -/
abbrev Arms := Nat → Arm

/-- What arm `i` does on its own. -/
def act (arms : Arms) (i : Nat) (f : Arm → Arm) : Arms := Function.update arms i (f (arms i))

/-- The frames on their way to an arm on a link. -/
def arriving (n : Nat) (arms : Arms) : Nat → Side → List Frame
  | i, .cw => if i + 1 < n then (arms (i + 1)).ccwOut else []
  | 0, .ccw => []
  | j + 1, .ccw => (arms j).cwOut

/-- The first `k` of them leave the link. -/
def leave (n k : Nat) (arms : Arms) : Nat → Side → Arms
  | i, .cw =>
    if i + 1 < n then act arms (i + 1) fun a => { a with ccwOut := a.ccwOut.drop k } else arms
  | 0, .ccw => arms
  | j + 1, .ccw => act arms j fun a => { a with cwOut := a.cwOut.drop k }

/-- An arm receives the first `k` frames on a link. -/
def receive (n : Nat) (arms : Arms) (i : Nat) (side : Side) (k : Nat) : Arms :=
  act (leave n k arms i side) i (((arriving n arms i side).take k).foldl (Arm.takeFrame side))

def Arm.lose (a : Arm) (idx : Nat) : Side → Arm
  | .cw => { a with cwOut := a.cwOut.eraseIdx idx }
  | .ccw => { a with ccwOut := a.ccwOut.eraseIdx idx }

inductive Event where
  /-- A frame is lost on its way from an arm. -/
  | lose (i : Nat) (side : Side) (idx : Nat)
  /-- An arm sends a frame that has nothing to do with updates. -/
  | other (i : Nat) (side : Side)
  /-- An arm that does something else takes frames in. -/
  | takeIn (i : Nat) (side : Side) (k : Nat)
  | handle (i : Nat) (side : Side)
  | look (i : Nat) (k : Nat)
  | finish (i : Nat) (ok : Bool)
  | giveUp (i : Nat)
  | transferFirmware (firmwareSize firmwareCrc32 : UInt32) (filename : List UInt8)

/-- An arm waits for an acknowledgement. -/
def Task.waits : Task → Bool
  | .accepting _ _ | .completing _ _ => true
  | _ => false

def step (n : Nat) (arms : Arms) : Event → Arms
  | .lose i side idx => if i < n then act arms i (Arm.lose · idx side) else arms
  | .other i side => if i < n then act arms i (Arm.send · side .other) else arms
  | .takeIn i side k =>
    if i < n ∧ (arms i).task = .idle then receive n arms i side k else arms
  | .handle i side =>
    if i < n ∧ (arms i).task = .idle ∧ ((arms i).port side).bl.pending then
      act arms i (handleBootloaderCmd side)
    else arms
  | .look i k =>
    if i < n ∧ (arms i).task.waits then
      act (receive n arms i .cw k) i (look (((arriving n arms i .cw).take k) ≠ []))
    else arms
  | .finish i ok => if i < n then act arms i (finish n i ok) else arms
  | .giveUp i => if i < n then act arms i giveUp else arms
  | .transferFirmware firmwareSize firmwareCrc32 filename =>
    if (arms 0).task = .idle then
      act arms 0 (transferFirmware n firmwareSize firmwareCrc32 filename)
    else arms

end Kinetis.Pov.Firmware
