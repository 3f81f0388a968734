import Kinetis.Lib.Runs
import Kinetis.Lib.Signed
import Mathlib.Algebra.Order.Group.Abs

/-!
# Pov — the positional PID controller

The stator's speed controller, in the words of its own types: gains and outputs are 32-bit, the
integral is 64-bit, and products wrap.  Whatever the products are, three things stand between
them and the motor: the integral is kept between its limits, the sum is clamped, and the clamped
sum may leave the previous output by no more than the slew rate.

* `Tuned` is what holds of a controller between calls, and `Tuned.update`, `Tuned.setOutput` and
  `Tuned.reset` that each call keeps it;
* `pid_outputs_bounded` is the resulting statement over every sequence of calls.
-/

namespace Kinetis.Pov
open Lib

/-! ### The controller -/

def SLAVE_PID_KP : Int32 := 768
def SLAVE_PID_KI : Int32 := 38
def SLAVE_PID_KD : Int32 := 26
def SLAVE_PID_OUTPUT_MAX : Int32 := 10000
def SLAVE_PID_OUTPUT_MIN : Int32 := -10000
def SLAVE_PID_INTEGRAL_MAX : Int32 := 5000
def SLAVE_PID_INTEGRAL_MIN : Int32 := -5000
def SLAVE_PID_D_ALPHA : Int32 := 192
def SLAVE_PID_DEADBAND : Int32 := 3
def SLAVE_PID_SLEW_RATE : Int32 := 200

/-- Gains are Q8.8. -/
def PID_SCALE_BITS : Int32 := 8

/-- `struct pid_positional`, without its type tag. -/
structure PidPositional where
  kp         : Int32
  ki         : Int32
  kd         : Int32
  dAlpha     : Int32
  dFiltered  : Int32
  integral   : Int64
  intMin     : Int32
  intMax     : Int32
  outMin     : Int32
  outMax     : Int32
  deadband   : Int32
  slewRate   : Int32
  prevMeas   : Int32
  prevErr    : Int32
  prevOutput : Int32
  lastP      : Int32
  lastI      : Int32
  lastD      : Int32
  lastErr    : Int32
  deriving DecidableEq, Repr

/-- `pid_positional_init`. -/
def pidPositionalInit (kp ki kd : Int32) : PidPositional where
  kp := kp
  ki := ki
  kd := kd
  dAlpha := SLAVE_PID_D_ALPHA
  dFiltered := 0
  integral := 0
  intMin := SLAVE_PID_INTEGRAL_MIN
  intMax := SLAVE_PID_INTEGRAL_MAX
  outMin := SLAVE_PID_OUTPUT_MIN
  outMax := SLAVE_PID_OUTPUT_MAX
  deadband := SLAVE_PID_DEADBAND
  slewRate := SLAVE_PID_SLEW_RATE
  prevMeas := 0
  prevErr := 0
  prevOutput := 0
  lastP := 0
  lastI := 0
  lastD := 0
  lastErr := 0

/-- `pid_positional_reset`: the dynamic part is cleared, gains and limits stay. -/
def pidPositionalReset (ctrl : PidPositional) : PidPositional :=
  { ctrl with
    integral := 0, dFiltered := 0, prevMeas := 0, prevErr := 0, prevOutput := 0
    lastP := 0, lastI := 0, lastD := 0, lastErr := 0 }

/-- A limit of the integral, in the integral's units: `(s64)x << PID_SCALE_BITS`. -/
def integralLimit (x : Int32) : Int64 := x.toInt64 <<< PID_SCALE_BITS.toInt64

/-- `pid_positional_set_output`. -/
def pidPositionalSetOutput (ctrl : PidPositional) (currentOutput : Int32) : PidPositional :=
  { ctrl with
    integral := limit (integralLimit currentOutput) (integralLimit ctrl.intMin)
      (integralLimit ctrl.intMax)
    prevOutput := clamp currentOutput ctrl.outMin ctrl.outMax
    dFiltered := 0 }

/-- The slew-rate limit on the clamped output. -/
def slewed (ctrl : PidPositional) (output : Int32) : Int32 :=
  if ctrl.slewRate > 0 then
    if output - ctrl.prevOutput > ctrl.slewRate then ctrl.prevOutput + ctrl.slewRate
    else if output - ctrl.prevOutput < -ctrl.slewRate then ctrl.prevOutput - ctrl.slewRate
    else output
  else output

/-- Whether the error is in the deadband, in which the output is held. -/
def inDeadband (ctrl : PidPositional) (err : Int32) : Bool :=
  ctrl.deadband > 0 ∧ err ≥ -ctrl.deadband ∧ err ≤ ctrl.deadband

/-- `pid_positional_update`; `dt_ms` is not used. -/
def pidPositionalUpdate (ctrl : PidPositional) (setPoint meas : Int32) (_dtMs : UInt32) :
    Int32 × PidPositional :=
  let err := setPoint - meas
  if inDeadband ctrl err then
    -- integral, output and the components are frozen; the measurement is remembered
    (ctrl.prevOutput, { ctrl with prevErr := err, prevMeas := meas, lastErr := err })
  else
    let dRaw := ctrl.prevMeas - meas
    let dFiltered := ctrl.dFiltered +
      (((dRaw - ctrl.dFiltered) * ctrl.dAlpha) >>> PID_SCALE_BITS)
    let d := (ctrl.kd * dFiltered) >>> PID_SCALE_BITS
    let p := (ctrl.kp * err) >>> PID_SCALE_BITS
    let pdTentative := p + d
    -- no integration while P and D alone saturate in the direction of the error
    let integral :=
      if (pdTentative > ctrl.outMax ∧ err > 0) ∨ (pdTentative < ctrl.outMin ∧ err < 0) then
        ctrl.integral
      else
        limit (ctrl.integral + ctrl.ki.toInt64 * err.toInt64) (integralLimit ctrl.intMin)
          (integralLimit ctrl.intMax)
    let i := (integral >>> PID_SCALE_BITS.toInt64).toInt32
    let output := slewed ctrl (clamp (p + d + i) ctrl.outMin ctrl.outMax)
    (output, { ctrl with
      prevMeas := meas, dFiltered := dFiltered, integral := integral
      lastP := p, lastI := i, lastD := d, lastErr := err
      prevErr := err, prevOutput := output })

/-- A call on a controller. -/
inductive PidCall where
  | update (setPoint meas : Int32) (dtMs : UInt32)
  | setOutput (currentOutput : Int32)
  | reset
  deriving DecidableEq, Repr

def PidPositional.call (ctrl : PidPositional) : PidCall → PidPositional
  | .update setPoint meas dtMs => (pidPositionalUpdate ctrl setPoint meas dtMs).2
  | .setOutput currentOutput => pidPositionalSetOutput ctrl currentOutput
  | .reset => pidPositionalReset ctrl

/-! ### What the calls keep -/

/-- The limits are the configured ones, and the integral and the last output are within them. -/
structure Tuned (ctrl : PidPositional) : Prop where
  intMin   : ctrl.intMin = SLAVE_PID_INTEGRAL_MIN
  intMax   : ctrl.intMax = SLAVE_PID_INTEGRAL_MAX
  outMin   : ctrl.outMin = SLAVE_PID_OUTPUT_MIN
  outMax   : ctrl.outMax = SLAVE_PID_OUTPUT_MAX
  slewRate : ctrl.slewRate = SLAVE_PID_SLEW_RATE
  integral : integralLimit SLAVE_PID_INTEGRAL_MIN ≤ ctrl.integral ∧
    ctrl.integral ≤ integralLimit SLAVE_PID_INTEGRAL_MAX
  output   : SLAVE_PID_OUTPUT_MIN ≤ ctrl.prevOutput ∧ ctrl.prevOutput ≤ SLAVE_PID_OUTPUT_MAX

theorem tuned_init (kp ki kd : Int32) : Tuned (pidPositionalInit kp ki kd) :=
  ⟨rfl, rfl, rfl, rfl, rfl, (by decide : _ ≤ (0 : Int64) ∧ (0 : Int64) ≤ _),
    (by decide : _ ≤ (0 : Int32) ∧ (0 : Int32) ≤ _)⟩

/-- The limits of the integral, as integers. -/
theorem integralLimit_toInt :
    (integralLimit SLAVE_PID_INTEGRAL_MIN).toInt = SLAVE_PID_INTEGRAL_MIN.toInt * 256 ∧
      (integralLimit SLAVE_PID_INTEGRAL_MAX).toInt = SLAVE_PID_INTEGRAL_MAX.toInt * 256 := by
  decide

theorem limit_integral (x : Int64) :
    integralLimit SLAVE_PID_INTEGRAL_MIN ≤
        limit x (integralLimit SLAVE_PID_INTEGRAL_MIN) (integralLimit SLAVE_PID_INTEGRAL_MAX) ∧
      limit x (integralLimit SLAVE_PID_INTEGRAL_MIN) (integralLimit SLAVE_PID_INTEGRAL_MAX) ≤
        integralLimit SLAVE_PID_INTEGRAL_MAX :=
  ⟨le_limit x _ _, limit_le (by decide) x⟩

theorem clamp_output (x : Int32) :
    SLAVE_PID_OUTPUT_MIN ≤ clamp x SLAVE_PID_OUTPUT_MIN SLAVE_PID_OUTPUT_MAX ∧
      clamp x SLAVE_PID_OUTPUT_MIN SLAVE_PID_OUTPUT_MAX ≤ SLAVE_PID_OUTPUT_MAX :=
  ⟨le_clamp (by decide) x, clamp_le x _ _⟩

variable {ctrl : PidPositional}

/-- The slew limit moves an output towards the previous one: it stays within the limits, and
ends at most the slew rate away. -/
theorem Tuned.slewed (ht : Tuned ctrl) {output : Int32} (hlo : SLAVE_PID_OUTPUT_MIN ≤ output)
    (hhi : output ≤ SLAVE_PID_OUTPUT_MAX) :
    (SLAVE_PID_OUTPUT_MIN ≤ Pov.slewed ctrl output ∧
        Pov.slewed ctrl output ≤ SLAVE_PID_OUTPUT_MAX) ∧
      |(Pov.slewed ctrl output).toInt - ctrl.prevOutput.toInt| ≤ SLAVE_PID_SLEW_RATE.toInt := by
  obtain ⟨hplo, hphi⟩ := ht.output
  have hmin : SLAVE_PID_OUTPUT_MIN.toInt = -10000 := rfl
  have hmax : SLAVE_PID_OUTPUT_MAX.toInt = 10000 := rfl
  have hrate : SLAVE_PID_SLEW_RATE.toInt = 200 := rfl
  have hneg : (-SLAVE_PID_SLEW_RATE).toInt = -200 := rfl
  rw [Int32.le_iff_toInt_le] at hlo hplo
  rw [Int32.le_iff_toInt_le] at hhi hphi
  -- within the limits no sum or difference below wraps
  have hdelta : (output - ctrl.prevOutput).toInt = output.toInt - ctrl.prevOutput.toInt :=
    toInt_sub_of_range (by omega) (by omega)
  have hup : (ctrl.prevOutput + SLAVE_PID_SLEW_RATE).toInt = ctrl.prevOutput.toInt + 200 :=
    toInt_add_of_range (by omega) (by omega)
  have hdown : (ctrl.prevOutput - SLAVE_PID_SLEW_RATE).toInt = ctrl.prevOutput.toInt - 200 :=
    toInt_sub_of_range (by omega) (by omega)
  rw [Pov.slewed, ht.slewRate, if_pos (by decide), Int32.le_iff_toInt_le, Int32.le_iff_toInt_le,
    abs_le]
  split
  · rename_i hgt
    rw [gt_iff_lt, Int32.lt_iff_toInt_lt] at hgt
    omega
  · rename_i hgt
    rw [gt_iff_lt, Int32.lt_iff_toInt_lt] at hgt
    split
    · rename_i hlt
      rw [Int32.lt_iff_toInt_lt] at hlt
      omega
    · rename_i hlt
      rw [Int32.lt_iff_toInt_lt] at hlt
      omega

/-- **One update** returns an output within the limits, at most the slew rate from the previous
one, and remembers it; gains, limits and integral are as they should be. -/
theorem Tuned.update (ht : Tuned ctrl) (setPoint meas : Int32) (dtMs : UInt32) :
    Tuned (pidPositionalUpdate ctrl setPoint meas dtMs).2 ∧
      (pidPositionalUpdate ctrl setPoint meas dtMs).2.prevOutput =
        (pidPositionalUpdate ctrl setPoint meas dtMs).1 ∧
      |(pidPositionalUpdate ctrl setPoint meas dtMs).1.toInt - ctrl.prevOutput.toInt| ≤
        SLAVE_PID_SLEW_RATE.toInt := by
  rw [pidPositionalUpdate]
  dsimp only
  split
  · -- in the deadband the previous output is returned again
    refine ⟨⟨ht.intMin, ht.intMax, ht.outMin, ht.outMax, ht.slewRate, ht.integral, ht.output⟩,
      rfl, ?_⟩
    rw [sub_self]
    decide
  · rw [ht.outMin, ht.outMax, ht.intMin, ht.intMax]
    generalize (ctrl.kp * (setPoint - meas)) >>> PID_SCALE_BITS = p
    generalize ctrl.dFiltered +
      (((ctrl.prevMeas - meas - ctrl.dFiltered) * ctrl.dAlpha) >>> PID_SCALE_BITS) = dFiltered
    generalize (ctrl.kd * dFiltered) >>> PID_SCALE_BITS = d
    obtain ⟨hlo, hhi⟩ := clamp_output (p + d + _)
    obtain ⟨hin, hslew⟩ := ht.slewed hlo hhi
    refine ⟨⟨rfl, rfl, rfl, rfl, ht.slewRate, ?_, hin⟩, rfl, hslew⟩
    split
    · exact ht.integral
    · exact limit_integral _

theorem Tuned.setOutput (ht : Tuned ctrl) (currentOutput : Int32) :
    Tuned (pidPositionalSetOutput ctrl currentOutput) := by
  refine ⟨ht.intMin, ht.intMax, ht.outMin, ht.outMax, ht.slewRate, ?_, ?_⟩
  · dsimp only [pidPositionalSetOutput]
    rw [ht.intMin, ht.intMax]
    exact limit_integral _
  · dsimp only [pidPositionalSetOutput]
    rw [ht.outMin, ht.outMax]
    exact clamp_output _

theorem Tuned.reset (ht : Tuned ctrl) : Tuned (pidPositionalReset ctrl) :=
  ⟨ht.intMin, ht.intMax, ht.outMin, ht.outMax, ht.slewRate,
    (by decide : _ ≤ (0 : Int64) ∧ (0 : Int64) ≤ _),
    (by decide : _ ≤ (0 : Int32) ∧ (0 : Int32) ≤ _)⟩

theorem Tuned.call (ht : Tuned ctrl) (c : PidCall) : Tuned (ctrl.call c) := by
  cases c with
  | update setPoint meas dtMs => exact (ht.update setPoint meas dtMs).1
  | setOutput currentOutput => exact ht.setOutput currentOutput
  | reset => exact ht.reset

/-! ### Sequences of calls -/

theorem tuned_calls (kp ki kd : Int32) (cs : List PidCall) :
    Tuned (cs.foldl PidPositional.call (pidPositionalInit kp ki kd)) :=
  Run.foldl_invariant (fun _ c ht => ht.call c) cs (tuned_init kp ki kd)

/-- **The outputs of the controller.**  After any sequence of calls the integral is within its
limits, whatever is measured next the output is within its limits, and the output after that is
at most the slew rate away. -/
theorem pid_outputs_bounded (kp ki kd : Int32) (cs : List PidCall) :
    let ctrl := cs.foldl PidPositional.call (pidPositionalInit kp ki kd)
    (ctrl.intMin.toInt * 256 ≤ ctrl.integral.toInt ∧
      ctrl.integral.toInt ≤ ctrl.intMax.toInt * 256) ∧
    ∀ setPoint meas dtMs,
      let r := pidPositionalUpdate ctrl setPoint meas dtMs
      (ctrl.outMin ≤ r.1 ∧ r.1 ≤ ctrl.outMax) ∧
      ∀ setPoint' meas' dtMs',
        |(pidPositionalUpdate r.2 setPoint' meas' dtMs').1.toInt - r.1.toInt| ≤
          ctrl.slewRate.toInt := by
  intro ctrl
  have ht : Tuned ctrl := tuned_calls kp ki kd cs
  obtain ⟨hmin, hmax⟩ := integralLimit_toInt
  constructor
  · rw [ht.intMin, ht.intMax, ← hmin, ← hmax, ← Int64.le_iff_toInt_le, ← Int64.le_iff_toInt_le]
    exact ht.integral
  · intro setPoint meas dtMs r
    obtain ⟨ht', hprev, -⟩ := ht.update setPoint meas dtMs
    constructor
    · rw [ht.outMin, ht.outMax, ← hprev]
      exact ht'.output
    · intro setPoint' meas' dtMs'
      obtain ⟨-, -, hslew⟩ := ht'.update setPoint' meas' dtMs'
      rw [ht.slewRate, ← hprev]
      exact hslew

end Kinetis.Pov
