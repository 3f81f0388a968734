import Kinetis.Mavlink.Device
import Kinetis.Pov.Relay

/-!
# Pov — the stator

The motor side of the display: a state machine that tunes the motor, waits for the rotor, drives
the motor while the rotor is heard and stops it when the rotor falls silent.  The state machine, the
control task and the command task take turns in any order; each is a function of the stator here.

Times are `u64` milliseconds as `basic_timer_get_ms` returns them, bytes what a receive returns.
`bootloader_write_update_flag` is not part of this file: `flagWrites` records its calls, and
whether one succeeds comes from outside.
-/

namespace Kinetis.Pov
open Lib (Framer)
open Mavlink

/-! ### The stator -/

def POV_TARGET_RPM : Int32 := 900
def POV_HEARTBEAT_INTERVAL_MS : UInt64 := 5000
def SLAVE_PID_RELAY_AMP : Int32 := 2000
def SLAVE_PID_RELAY_CYCLES : UInt32 := 5
def SLAVE_TUNING_STABLE_THRESH : Int32 := 10
def SLAVE_TUNING_STABLE_TICKS : UInt32 := 50
def SLAVE_MOTOR_DIR_FORWARD : UInt8 := 1
def SLAVE_MOTOR_DIR_REVERSE : UInt8 := 0
def STATOR_MOTOR_ID : Nat := 0

/-- `enum pov_stator_state`. -/
inductive StatorState where
  | init
  | tuningMotor
  | waitRotor
  | active
  | safeStop
  | enterBootloader
  deriving DecidableEq, Repr

/-- `struct motor_controller`, without what only its simulation uses. -/
structure MotorController where
  measuredRpm : Int32
  direction   : UInt8
  pwmDuty     : UInt16
  status      : UInt8

/-- `struct pov_stator`. -/
structure Stator (σ : Type) where
  mavlink              : Device σ
  motor                : MotorController
  pid                  : PidPositional
  relayTuner           : RelayTuner
  uptimeS              : UInt32
  state                : StatorState
  lastRotorHeartbeatMs : UInt64
  rotorHeartbeatPaused : Bool
  tuningStableTicks    : UInt32
  /-- Size, CRC and name of the calls of `bootloader_write_update_flag`. -/
  flagWrites           : List (UInt32 × UInt32 × List UInt8)

variable {σ R : Type}

/-- `pov_stator_alloc`. -/
def povStatorAlloc (rx : σ) (now : UInt64) : Stator σ where
  mavlink := mavlinkInit rx
  motor := ⟨0, 0, 0, 0⟩
  pid := pidPositionalInit SLAVE_PID_KP SLAVE_PID_KI SLAVE_PID_KD
  relayTuner := pidRelayInit true SLAVE_PID_RELAY_AMP 0 POV_TARGET_RPM SLAVE_PID_RELAY_CYCLES
  uptimeS := 0
  state := .init
  lastRotorHeartbeatMs := now
  rotorHeartbeatPaused := false
  tuningStableTicks := 0
  flagWrites := []

/-- `motor_set_pwm`. -/
def motorSetPwm (motor : MotorController) (duty : UInt16) : MotorController :=
  { motor with pwmDuty := if duty > 10000 then 10000 else duty }

/-- `motor_set_direction`. -/
def motorSetDirection (motor : MotorController) (forward : UInt8) : MotorController :=
  { motor with direction := if forward ≠ 0 then 1 else 0 }

/-- `motors[STATOR_MOTOR_ID].target_speed`. -/
def Stator.targetSpeed (s : Stator σ) : Int32 := (s.mavlink.motors STATOR_MOTOR_ID).targetSpeed

def Stator.setTargetSpeed (s : Stator σ) (speed : Int32) : Stator σ :=
  { s with
      mavlink := { s.mavlink with
        motors := fun idx =>
          if idx = STATOR_MOTOR_ID then { s.mavlink.motors idx with targetSpeed := speed }
          else s.mavlink.motors idx } }

/-- `stator_heartbeat_task`. -/
def statorHeartbeatTask (s : Stator σ) : Stator σ :=
  { s with
      uptimeS := s.uptimeS + 1
      mavlink := s.mavlink.send
        (.systemHeartbeat ⟨MAV_SYSTEM_STATUS_ACTIVE, s.uptimeS + 1, s.mavlink.errorCount⟩) }

/-! ### The control task -/

/-- The signed output as a duty and a direction. -/
def driveMotor (motor : MotorController) (output : Int32) : MotorController :=
  if output ≥ 0 then
    motorSetDirection (motorSetPwm motor output.toUInt32.toUInt16) SLAVE_MOTOR_DIR_FORWARD
  else motorSetDirection (motorSetPwm motor (-output).toUInt32.toUInt16) SLAVE_MOTOR_DIR_REVERSE

/-- `control_motor`; a division by zero in the tuner is a fault. -/
def controlMotor (s : Stator σ) : Option (Stator σ) :=
  if s.state ≠ .tuningMotor ∧ s.state ≠ .active then some s
  else if s.state = .tuningMotor ∧ s.relayTuner.state = .running then
    (pidRelayUpdate s.relayTuner s.pid s.motor.measuredRpm).map fun r =>
      { s with motor := driveMotor s.motor r.1, relayTuner := r.2.1, pid := r.2.2 }
  else
    let r := pidPositionalUpdate s.pid s.targetSpeed s.motor.measuredRpm 10
    some { s with motor := driveMotor s.motor r.1, pid := r.2 }

/-! ### The command task -/

/-- What the command task gets from outside: the bytes received, two readings of the clock, whether
writing the update flag succeeds, and the speed that the hall sensor reports. -/
structure CommandInput where
  chunk  : List UInt8
  now    : UInt64
  now'   : UInt64
  flagOk : Bool
  rpm    : Int32

/-- A frame was received: the link is alive, and the handshake goes on. -/
def Stator.linkAlive (s : Stator σ) (inp : CommandInput) : Stator σ :=
  let state := if s.state = .safeStop ∨ s.state = .waitRotor then .waitRotor else s.state
  { s with
      lastRotorHeartbeatMs := inp.now
      state := if state = .waitRotor ∧ inp.now' - inp.now < POV_HEARTBEAT_INTERVAL_MS then .active
        else state }

/-- The answer to a `MOTOR_CONTROL`. -/
def motorAckFor (control : MotorControl) : MotorAck :=
  if !control.accepted then ⟨control.targetId, MAV_ACK_RESULT_INVALID_PARAM⟩
  else ⟨if control.targetId = 255 then 0 else control.targetId, MAV_ACK_RESULT_OK⟩

/-- Whether a `MOTOR_STATUS_QUERY` is valid. -/
def queryValid (motorId : UInt8) : Bool := ¬ (motorId ≥ MAVLINK_MOTOR_COUNT ∧ motorId ≠ 255)

/-- `mavlink_send_motor_status`, with the stator's motor. -/
def motorStatusFor (s : Stator σ) (motorId : UInt8) (rpm : Int32) : MotorStatus :=
  ⟨motorId, rpm, dirToWire s.motor.direction.toInt8, s.motor.status⟩

/-- The `switch` of `process_motor_commands`. -/
def Stator.dispatch (c : Codec R) (inp : CommandInput) (s : Stator σ) (msg : R) : Stator σ :=
  match c.msgid msg with
  | .systemHeartbeat =>
    { s with rotorHeartbeatPaused := s.mavlink.sysStatus = MAV_SYSTEM_STATUS_STANDBY }
  | .motorControl =>
    { s with mavlink := s.mavlink.send (.motorAck (motorAckFor (c.motorControl msg))) }
  | .motorStatusQuery =>
    if queryValid (c.motorStatusQuery msg) then
      { s with
          mavlink := s.mavlink.send
            (.motorStatus (motorStatusFor s (c.motorStatusQuery msg) inp.rpm)) }
    else s
  | .bootloaderUpdateCmd =>
    { s with
        flagWrites := s.flagWrites ++
          [(s.mavlink.bl.firmwareSize, s.mavlink.bl.firmwareCrc32, s.mavlink.bl.filename)]
        state := if inp.flagOk then .enterBootloader else s.state }
  | _ => s

/-- `process_motor_commands`. -/
def processMotorCommands (F : Framer σ R) (c : Codec R) (inp : CommandInput) (s : Stator σ) :
    Stator σ :=
  let mav := if inp.chunk = [] then s.mavlink else (s.mavlink.receiveAndProcess F c inp.chunk).2
  let s' := { s with mavlink := mav }
  if mav.rxCount > s.mavlink.rxCount then (s'.linkAlive inp).dispatch c inp (F.msg mav.rx)
  else if mav.rxCount = s.mavlink.rxCount then s'
  else s'.dispatch c inp (F.msg mav.rx)

/-! ### The state machine -/

/-- The default-gain phase of the tuning, and its end. -/
def tuneMotor (s : Stator σ) : Stator σ :=
  match s.relayTuner.state with
  | .idle =>
    let err := POV_TARGET_RPM - s.motor.measuredRpm
    if err ≥ -SLAVE_TUNING_STABLE_THRESH ∧ err ≤ SLAVE_TUNING_STABLE_THRESH then
      if s.tuningStableTicks + 1 ≥ SLAVE_TUNING_STABLE_TICKS then
        { s with
            tuningStableTicks := s.tuningStableTicks + 1
            relayTuner := pidRelayStart s.relayTuner s.pid }
      else { s with tuningStableTicks := s.tuningStableTicks + 1 }
    else { s with tuningStableTicks := 0 }
  | .running => s
  | .done | .failed =>
    Stator.setTargetSpeed
      { s with
          motor := motorSetPwm s.motor 0
          pid := pidPositionalReset s.pid
          state := .waitRotor } 0

/-- The stop when the rotor is silent. -/
def safeStop (s : Stator σ) : Stator σ :=
  Stator.setTargetSpeed
    { s with motor := motorSetPwm s.motor 0, pid := pidPositionalReset s.pid, state := .safeStop } 0

/-- `pov_stator_fsm`; of the bootloader's run only the motor stop before it shows here. -/
def povStatorFsm (now : UInt64) (s : Stator σ) : Stator σ :=
  match s.state with
  | .init =>
    Stator.setTargetSpeed
      { s with
          motor := motorSetDirection (motorSetPwm s.motor 0) SLAVE_MOTOR_DIR_FORWARD
          state := .tuningMotor } POV_TARGET_RPM
  | .tuningMotor => tuneMotor (s.setTargetSpeed POV_TARGET_RPM)
  | .active =>
    if !s.rotorHeartbeatPaused ∧ now - s.lastRotorHeartbeatMs > POV_HEARTBEAT_INTERVAL_MS * 2 then
      safeStop s
    else s
  | .safeStop | .waitRotor => s
  | .enterBootloader => { s with motor := motorSetPwm s.motor 0 }

/-! ### Interleavings -/

/-- Whose turn it is; `sense` is the motor's speed and status changing. -/
inductive StatorTurn where
  | fsm (now : UInt64)
  | control
  | commands (inp : CommandInput)
  | heartbeat
  | sense (rpm : Int32) (status : UInt8)

def statorStep (F : Framer σ R) (c : Codec R) (s : Stator σ) : StatorTurn → Option (Stator σ)
  | .fsm now => some (povStatorFsm now s)
  | .control => controlMotor s
  | .commands inp => some (processMotorCommands F c inp s)
  | .heartbeat => some (statorHeartbeatTask s)
  | .sense rpm status =>
    some { s with motor := { s.motor with measuredRpm := rpm, status := status } }

end Kinetis.Pov
