import Kinetis.Pov.StatorSafety
import Mathlib.Algebra.Order.Ring.Abs

/-!
# Pov — where the controller overflows

`pid_positional_update` with every 32-bit operation checked: a result that does not fit is a fault,
since the overflow of a signed operation has no meaning in C.  The set point is any number that a
`MOTOR_CONTROL` may carry; the measured speed is one that the motor can have.

* `checked_eq`: where no operation overflows, the checked update is the update;
* `Metered` holds of a controller between calls: the derivative filter stays between its inputs;
* `Metered.checked_iff`: only the error and its product with `kp` can overflow, and
  `Metered.errorFits`: they do not for set points up to 18961;
* `Timed.update` bounds the gains of the tuner, and `Gauged` holds in every state of every run;
* `pid_overflow_iff` is the resulting statement.
-/

namespace Kinetis.Pov
open Lib Mavlink

/-! ### The checked update -/

/-- `SLAVE_MOTOR_MAX_RPM`. -/
def SLAVE_MOTOR_MAX_RPM : Int := 3000

/-- The test for the deadband. -/
def inDeadbandChecked (ctrl : PidPositional) (err : Int32) : Option Bool :=
  if ctrl.deadband > 0 then
    (checkedNeg ctrl.deadband).map fun low => err ≥ low ∧ err ≤ ctrl.deadband
  else some false

/-- The slew-rate limit. -/
def slewedChecked (ctrl : PidPositional) (output : Int32) : Option Int32 :=
  if ctrl.slewRate > 0 then
    (checkedSub output ctrl.prevOutput).bind fun delta =>
      if delta > ctrl.slewRate then checkedAdd ctrl.prevOutput ctrl.slewRate
      else (checkedNeg ctrl.slewRate).bind fun low =>
        if delta < low then checkedSub ctrl.prevOutput ctrl.slewRate else some output
  else some output

/-- The derivative filter. -/
def dFilteredChecked (ctrl : PidPositional) (meas : Int32) : Option Int32 := do
  let dRaw ← checkedSub ctrl.prevMeas meas
  let gap ← checkedSub dRaw ctrl.dFiltered
  let product ← checkedMul gap ctrl.dAlpha
  checkedAdd ctrl.dFiltered (product >>> PID_SCALE_BITS)

/-- `pid_positional_update`, its 32-bit operations checked. -/
def pidPositionalUpdateChecked (ctrl : PidPositional) (setPoint meas : Int32) (_dtMs : UInt32) :
    Option (Int32 × PidPositional) := do
  let err ← checkedSub setPoint meas
  if ← inDeadbandChecked ctrl err then
    return (ctrl.prevOutput, { ctrl with prevErr := err, prevMeas := meas, lastErr := err })
  else
    let dFiltered ← dFilteredChecked ctrl meas
    let dProduct ← checkedMul ctrl.kd dFiltered
    let d := dProduct >>> PID_SCALE_BITS
    let pProduct ← checkedMul ctrl.kp err
    let p := pProduct >>> PID_SCALE_BITS
    let pdTentative ← checkedAdd p d
    let integral :=
      if (pdTentative > ctrl.outMax ∧ err > 0) ∨ (pdTentative < ctrl.outMin ∧ err < 0) then
        ctrl.integral
      else
        limit (ctrl.integral + ctrl.ki.toInt64 * err.toInt64) (integralLimit ctrl.intMin)
          (integralLimit ctrl.intMax)
    let i := (integral >>> PID_SCALE_BITS.toInt64).toInt32
    let sum ← checkedAdd pdTentative i
    let output ← slewedChecked ctrl (clamp sum ctrl.outMin ctrl.outMax)
    return (output, { ctrl with
      prevMeas := meas, dFiltered := dFiltered, integral := integral
      lastP := p, lastI := i, lastD := d, lastErr := err
      prevErr := err, prevOutput := output })

/-- The filter of `pid_positional_update`. -/
def filtered (ctrl : PidPositional) (meas : Int32) : Int32 :=
  ctrl.dFiltered + (((ctrl.prevMeas - meas - ctrl.dFiltered) * ctrl.dAlpha) >>> PID_SCALE_BITS)

theorem inDeadbandChecked_eq {ctrl : PidPositional} {err : Int32} {hold : Bool}
    (h : inDeadbandChecked ctrl err = some hold) : hold = inDeadband ctrl err := by
  unfold inDeadbandChecked at h
  split at h
  · rename_i hpos
    obtain ⟨low, hlow, rfl⟩ := Option.map_eq_some_iff.mp h
    obtain ⟨-, rfl⟩ := checked_eq_some.mp hlow
    exact decide_eq_decide.mpr (and_iff_right hpos).symm
  · rename_i hpos
    cases h
    exact (decide_eq_false fun hin => hpos hin.1).symm

theorem slewedChecked_eq {ctrl : PidPositional} {output r : Int32}
    (h : slewedChecked ctrl output = some r) : r = slewed ctrl output := by
  unfold slewedChecked at h
  rw [slewed]
  split at h
  · rename_i hpos
    rw [if_pos hpos]
    obtain ⟨delta, hdelta, h⟩ := Option.bind_eq_some_iff.mp h
    obtain ⟨-, rfl⟩ := checked_eq_some.mp hdelta
    split at h
    · rename_i hup
      rw [if_pos hup]
      exact (checked_eq_some.mp h).2.symm
    · rename_i hup
      rw [if_neg hup]
      obtain ⟨low, hlow, h⟩ := Option.bind_eq_some_iff.mp h
      obtain ⟨-, rfl⟩ := checked_eq_some.mp hlow
      split at h
      · rename_i hdown
        rw [if_pos hdown]
        exact (checked_eq_some.mp h).2.symm
      · rename_i hdown
        rw [if_neg hdown]
        exact (Option.some.inj h).symm
  · rename_i hpos
    rw [if_neg hpos]
    exact (Option.some.inj h).symm

theorem dFilteredChecked_eq {ctrl : PidPositional} {meas r : Int32}
    (h : dFilteredChecked ctrl meas = some r) : r = filtered ctrl meas := by
  obtain ⟨dRaw, hraw, h⟩ := Option.bind_eq_some_iff.mp h
  obtain ⟨-, rfl⟩ := checked_eq_some.mp hraw
  obtain ⟨gap, hgap, h⟩ := Option.bind_eq_some_iff.mp h
  obtain ⟨-, rfl⟩ := checked_eq_some.mp hgap
  obtain ⟨product, hproduct, h⟩ := Option.bind_eq_some_iff.mp h
  obtain ⟨-, rfl⟩ := checked_eq_some.mp hproduct
  exact (checked_eq_some.mp h).2.symm

/-- **Without overflow** the checked update is the update. -/
theorem checked_eq {ctrl : PidPositional} {setPoint meas : Int32} {dtMs : UInt32}
    {r : Int32 × PidPositional}
    (h : pidPositionalUpdateChecked ctrl setPoint meas dtMs = some r) :
    r = pidPositionalUpdate ctrl setPoint meas dtMs := by
  obtain ⟨err, herr, h⟩ := Option.bind_eq_some_iff.mp h
  obtain ⟨-, rfl⟩ := checked_eq_some.mp herr
  obtain ⟨hold, hhold, h⟩ := Option.bind_eq_some_iff.mp h
  obtain rfl := inDeadbandChecked_eq hhold
  rw [pidPositionalUpdate]
  split at h
  · rename_i hin
    rw [if_pos hin]
    exact (Option.some.inj h).symm
  · rename_i hin
    rw [if_neg hin]
    obtain ⟨dFiltered, hfilter, h⟩ := Option.bind_eq_some_iff.mp h
    obtain rfl := dFilteredChecked_eq hfilter
    obtain ⟨dProduct, hd, h⟩ := Option.bind_eq_some_iff.mp h
    obtain ⟨-, rfl⟩ := checked_eq_some.mp hd
    obtain ⟨pProduct, hp, h⟩ := Option.bind_eq_some_iff.mp h
    obtain ⟨-, rfl⟩ := checked_eq_some.mp hp
    obtain ⟨pd, hpd, h⟩ := Option.bind_eq_some_iff.mp h
    obtain ⟨-, rfl⟩ := checked_eq_some.mp hpd
    obtain ⟨sum, hsum, h⟩ := Option.bind_eq_some_iff.mp h
    obtain ⟨-, rfl⟩ := checked_eq_some.mp hsum
    obtain ⟨output, hout, h⟩ := Option.bind_eq_some_iff.mp h
    obtain rfl := slewedChecked_eq hout
    exact (Option.some.inj h).symm


/-! ### What stays in range -/

/-- **Between calls** the measured speeds are the motor's, the derivative filter holds no more than
the difference of two of them, and the gains are no more than the tuner computes. -/
structure Metered (ctrl : PidPositional) : Prop where
  tuned    : Tuned ctrl
  dAlpha   : ctrl.dAlpha = SLAVE_PID_D_ALPHA
  deadband : ctrl.deadband = SLAVE_PID_DEADBAND
  prevMeas : |ctrl.prevMeas.toInt| ≤ SLAVE_MOTOR_MAX_RPM
  filter   : |ctrl.dFiltered.toInt| ≤ 2 * SLAVE_MOTOR_MAX_RPM
  kp       : 0 ≤ ctrl.kp.toInt ∧ ctrl.kp.toInt ≤ 97784
  kd       : 0 ≤ ctrl.kd.toInt ∧ ctrl.kd.toInt ≤ 244460

/-- What the update needs of a set point: the error fits, and so does its product with `kp` unless
the output is held. -/
def ErrorFits (ctrl : PidPositional) (setPoint meas : Int32) : Prop :=
  Fits32 (setPoint.toInt - meas.toInt) ∧
    (|setPoint.toInt - meas.toInt| ≤ SLAVE_PID_DEADBAND.toInt ∨
      Fits32 (ctrl.kp.toInt * (setPoint.toInt - meas.toInt)))

theorem toInt_scale (x : Int32) : (x >>> PID_SCALE_BITS).toInt = x.toInt / 256 :=
  toInt_shiftRight (k := 8) rfl

section metered

variable {ctrl : PidPositional} {meas : Int32}

/-- **The derivative filter** moves from its value towards the new difference and not past it. -/
theorem Metered.dFiltered (h : Metered ctrl) (hmeas : |meas.toInt| ≤ SLAVE_MOTOR_MAX_RPM) :
    dFilteredChecked ctrl meas = some (filtered ctrl meas) ∧
      |(filtered ctrl meas).toInt| ≤ 2 * SLAVE_MOTOR_MAX_RPM := by
  have hprev := abs_le.mp h.prevMeas
  have hfilter := abs_le.mp h.filter
  have hmeas' := abs_le.mp hmeas
  have hmax : SLAVE_MOTOR_MAX_RPM = 3000 := rfl
  have halpha : SLAVE_PID_D_ALPHA.toInt = 192 := rfl
  obtain ⟨hraw, hraw'⟩ := checkedSub_of_fits (a := ctrl.prevMeas) (b := meas)
    ⟨by omega, by omega⟩
  obtain ⟨hgap, hgap'⟩ := checkedSub_of_fits (a := ctrl.prevMeas - meas) (b := ctrl.dFiltered)
    ⟨by omega, by omega⟩
  obtain ⟨hprod, hprod'⟩ := checkedMul_of_fits (a := ctrl.prevMeas - meas - ctrl.dFiltered)
    (b := SLAVE_PID_D_ALPHA) (by rw [halpha]; exact ⟨by omega, by omega⟩)
  rw [halpha] at hprod'
  have hscale := toInt_scale ((ctrl.prevMeas - meas - ctrl.dFiltered) * SLAVE_PID_D_ALPHA)
  obtain ⟨hsum, hsum'⟩ := checkedAdd_of_fits (a := ctrl.dFiltered)
    (b := ((ctrl.prevMeas - meas - ctrl.dFiltered) * SLAVE_PID_D_ALPHA) >>> PID_SCALE_BITS)
    ⟨by omega, by omega⟩
  rw [dFilteredChecked, filtered, h.dAlpha, abs_le]
  simp only [hraw, hgap, hprod, Option.bind_eq_bind, Option.bind_some]
  exact ⟨hsum, by omega, by omega⟩

theorem Metered.inDeadband (h : Metered ctrl) {err : Int32} :
    inDeadbandChecked ctrl err = some (decide (|err.toInt| ≤ SLAVE_PID_DEADBAND.toInt)) := by
  have hneg : (-SLAVE_PID_DEADBAND).toInt = -SLAVE_PID_DEADBAND.toInt := rfl
  have hlow : checkedNeg SLAVE_PID_DEADBAND = some (-SLAVE_PID_DEADBAND) := rfl
  rw [inDeadbandChecked, h.deadband]
  refine congrArg some (decide_eq_decide.mpr ?_)
  rw [ge_iff_le, Int32.le_iff_toInt_le, Int32.le_iff_toInt_le, hneg, abs_le]

/-- The slew limit computes with outputs. -/
theorem Metered.slew_isSome (h : Metered ctrl) {output : Int32}
    (hlo : SLAVE_PID_OUTPUT_MIN ≤ output) (hhi : output ≤ SLAVE_PID_OUTPUT_MAX) :
    (slewedChecked ctrl output).isSome := by
  obtain ⟨hplo, hphi⟩ := h.tuned.output
  have hmin : SLAVE_PID_OUTPUT_MIN.toInt = -10000 := rfl
  have hmax : SLAVE_PID_OUTPUT_MAX.toInt = 10000 := rfl
  have hrate : SLAVE_PID_SLEW_RATE.toInt = 200 := rfl
  have hneg : checkedNeg SLAVE_PID_SLEW_RATE = some (-SLAVE_PID_SLEW_RATE) := rfl
  rw [Int32.le_iff_toInt_le] at hlo hplo
  rw [Int32.le_iff_toInt_le] at hhi hphi
  obtain ⟨hdelta, -⟩ := checkedSub_of_fits (a := output) (b := ctrl.prevOutput)
    ⟨by omega, by omega⟩
  obtain ⟨hup, -⟩ := checkedAdd_of_fits (a := ctrl.prevOutput) (b := SLAVE_PID_SLEW_RATE)
    ⟨by omega, by omega⟩
  obtain ⟨hdown, -⟩ := checkedSub_of_fits (a := ctrl.prevOutput) (b := SLAVE_PID_SLEW_RATE)
    ⟨by omega, by omega⟩
  rw [slewedChecked, h.tuned.slewRate, if_pos (by decide), hdelta, Option.bind_some, hup, hneg,
    Option.bind_some, hdown]
  split
  · rfl
  · split
    · rfl
    · rfl

/-- The integral term. -/
theorem integral_term {x : Int64} (hlo : integralLimit SLAVE_PID_INTEGRAL_MIN ≤ x)
    (hhi : x ≤ integralLimit SLAVE_PID_INTEGRAL_MAX) :
    |(x >>> PID_SCALE_BITS.toInt64).toInt32.toInt| ≤ SLAVE_PID_INTEGRAL_MAX.toInt := by
  obtain ⟨hmin, hmax⟩ := integralLimit_toInt
  have hmin' : SLAVE_PID_INTEGRAL_MIN.toInt = -5000 := rfl
  have hmax' : SLAVE_PID_INTEGRAL_MAX.toInt = 5000 := rfl
  rw [Int64.le_iff_toInt_le] at hlo
  rw [Int64.le_iff_toInt_le] at hhi
  have hshift : (x >>> PID_SCALE_BITS.toInt64).toInt = x.toInt / 256 :=
    toInt_shiftRight64 (k := 8) rfl
  have hnarrow : (x >>> PID_SCALE_BITS.toInt64).toInt32.toInt = x.toInt / 256 := by
    rw [Int64.toInt_toInt32, hshift]
    exact Int.bmod_eq_of_le (by omega) (by omega)
  rw [abs_le]
  omega

/-- The next integral is within its limits again. -/
theorem Metered.next_integral (h : Metered ctrl) (pd err : Int32) :
    let integral :=
      if (pd > ctrl.outMax ∧ err > 0) ∨ (pd < ctrl.outMin ∧ err < 0) then ctrl.integral
      else limit (ctrl.integral + ctrl.ki.toInt64 * err.toInt64) (integralLimit ctrl.intMin)
        (integralLimit ctrl.intMax)
    |(integral >>> PID_SCALE_BITS.toInt64).toInt32.toInt| ≤ SLAVE_PID_INTEGRAL_MAX.toInt := by
  rw [h.tuned.intMin, h.tuned.intMax]
  split
  · exact integral_term h.tuned.integral.1 h.tuned.integral.2
  · exact integral_term (limit_integral _).1 (limit_integral _).2

/-- The product with `kd`, scaled. -/
theorem Metered.d_term (h : Metered ctrl) (hmeas : |meas.toInt| ≤ SLAVE_MOTOR_MAX_RPM) :
    checkedMul ctrl.kd (filtered ctrl meas) = some (ctrl.kd * filtered ctrl meas) ∧
      |((ctrl.kd * filtered ctrl meas) >>> PID_SCALE_BITS).toInt| ≤ 2 ^ 23 := by
  obtain ⟨-, hbound⟩ := h.dFiltered hmeas
  have hprod : |ctrl.kd.toInt * (filtered ctrl meas).toInt| ≤ 244460 * 6000 := by
    rw [abs_mul, abs_of_nonneg h.kd.1]
    exact mul_le_mul h.kd.2 hbound (abs_nonneg _) (by decide)
  have hprod' := abs_le.mp hprod
  obtain ⟨hd, hd'⟩ := checkedMul_of_fits (a := ctrl.kd) (b := filtered ctrl meas)
    ⟨by omega, by omega⟩
  refine ⟨hd, ?_⟩
  rw [toInt_scale, abs_le]
  omega

/-- The sum of the three terms, clamped and slewed. -/
theorem Metered.output_isSome (h : Metered ctrl) {pd i : Int32} (hpd : |pd.toInt| ≤ 2 ^ 24)
    (hi : |i.toInt| ≤ SLAVE_PID_INTEGRAL_MAX.toInt) :
    ∃ sum output, checkedAdd pd i = some sum ∧
      slewedChecked ctrl (clamp sum ctrl.outMin ctrl.outMax) = some output := by
  have hpd' := abs_le.mp hpd
  have hi' := abs_le.mp hi
  have hint : SLAVE_PID_INTEGRAL_MAX.toInt = 5000 := rfl
  obtain ⟨hsum, -⟩ := checkedAdd_of_fits (a := pd) (b := i) ⟨by omega, by omega⟩
  have hslew : (slewedChecked ctrl (clamp (pd + i) ctrl.outMin ctrl.outMax)).isSome := by
    rw [h.tuned.outMin, h.tuned.outMax]
    exact h.slew_isSome (clamp_output _).1 (clamp_output _).2
  obtain ⟨output, hout⟩ := Option.isSome_iff_exists.mp hslew
  exact ⟨_, output, hsum, hout⟩

/-- **Where the update overflows**: only in the error and in its product with `kp`. -/
theorem Metered.checked_isSome_iff (h : Metered ctrl) (hmeas : |meas.toInt| ≤ SLAVE_MOTOR_MAX_RPM)
    (setPoint : Int32) (dtMs : UInt32) :
    (pidPositionalUpdateChecked ctrl setPoint meas dtMs).isSome ↔ ErrorFits ctrl setPoint meas := by
  rw [pidPositionalUpdateChecked, ErrorFits]
  by_cases herr : Fits32 (setPoint.toInt - meas.toInt)
  · obtain ⟨hsub, hsub'⟩ := checkedSub_of_fits herr
    rw [and_iff_right herr, ← hsub']
    simp only [hsub, h.inDeadband, Option.bind_eq_bind, Option.bind_some]
    generalize setPoint - meas = err
    by_cases hhold : |err.toInt| ≤ SLAVE_PID_DEADBAND.toInt
    · rw [decide_eq_true hhold]
      exact iff_of_true rfl (.inl hhold)
    · obtain ⟨hfilter, -⟩ := h.dFiltered hmeas
      obtain ⟨hd, hdbound⟩ := h.d_term hmeas
      rw [decide_eq_false hhold, or_iff_right hhold]
      simp only [hfilter, hd, Option.bind_some]
      generalize (ctrl.kd * filtered ctrl meas) >>> PID_SCALE_BITS = d at hdbound
      by_cases hkp : Fits32 (ctrl.kp.toInt * err.toInt)
      · obtain ⟨hp, hp'⟩ := checkedMul_of_fits hkp
        have hpbound : |((ctrl.kp * err) >>> PID_SCALE_BITS).toInt| ≤ 2 ^ 23 := by
          obtain ⟨hlo, hhi⟩ := hkp
          rw [toInt_scale, hp', abs_le]
          omega
        simp only [hp, Option.bind_some]
        generalize (ctrl.kp * err) >>> PID_SCALE_BITS = p at hpbound
        have hp₁ := abs_le.mp hpbound
        have hd₁ := abs_le.mp hdbound
        obtain ⟨hpd, hpd'⟩ := checkedAdd_of_fits (a := p) (b := d) ⟨by omega, by omega⟩
        have hpdbound : |(p + d).toInt| ≤ 2 ^ 24 := by
          rw [hpd', abs_le]
          omega
        obtain ⟨sum, output, hsum, hout⟩ := h.output_isSome hpdbound (h.next_integral (p + d) err)
        simp only [hpd, hsum, hout, Option.bind_some]
        exact iff_of_true rfl hkp
      · rw [checkedMul, checked_of_not_fits hkp]
        exact iff_of_false (by rintro ⟨⟩) hkp
  · rw [checkedSub, checked_of_not_fits herr]
    exact iff_of_false (by rintro ⟨⟩) (fun hfit => herr hfit.1)

/-- Whether the checked update is the update. -/
theorem Metered.checked_iff (h : Metered ctrl) (hmeas : |meas.toInt| ≤ SLAVE_MOTOR_MAX_RPM)
    (setPoint : Int32) (dtMs : UInt32) :
    pidPositionalUpdateChecked ctrl setPoint meas dtMs =
        some (pidPositionalUpdate ctrl setPoint meas dtMs) ↔ ErrorFits ctrl setPoint meas := by
  rw [← h.checked_isSome_iff hmeas setPoint dtMs]
  constructor
  · intro heq
    rw [heq]
    rfl
  · intro hsome
    obtain ⟨r, hr⟩ := Option.isSome_iff_exists.mp hsome
    rw [← checked_eq hr]
    exact hr

/-- **Set points that never overflow**, whatever the gains are. -/
theorem Metered.errorFits (h : Metered ctrl) (hmeas : |meas.toInt| ≤ SLAVE_MOTOR_MAX_RPM)
    {setPoint : Int32} (hset : |setPoint.toInt| ≤ 18961) : ErrorFits ctrl setPoint meas := by
  have hmeas' := abs_le.mp hmeas
  have hset' := abs_le.mp hset
  have hmax : SLAVE_MOTOR_MAX_RPM = 3000 := rfl
  have herr : |setPoint.toInt - meas.toInt| ≤ 21961 := abs_le.mpr ⟨by omega, by omega⟩
  have hprod : |ctrl.kp.toInt * (setPoint.toInt - meas.toInt)| ≤ 97784 * 21961 := by
    rw [abs_mul, abs_of_nonneg h.kp.1]
    exact mul_le_mul h.kp.2 herr (abs_nonneg _) (by decide)
  have hprod' := abs_le.mp hprod
  exact ⟨⟨by omega, by omega⟩, .inr ⟨by omega, by omega⟩⟩

/-! ### What the calls keep -/

theorem metered_init : Metered (pidPositionalInit SLAVE_PID_KP SLAVE_PID_KI SLAVE_PID_KD) where
  tuned    := tuned_init _ _ _
  dAlpha   := rfl
  deadband := rfl
  prevMeas := by decide
  filter   := by decide
  kp       := by decide
  kd       := by decide

theorem Metered.reset (h : Metered ctrl) : Metered (pidPositionalReset ctrl) :=
  ⟨h.tuned.reset, h.dAlpha, h.deadband, (by decide : |(0 : Int32).toInt| ≤ _),
    (by decide : |(0 : Int32).toInt| ≤ _), h.kp, h.kd⟩

/-- **An update**, overflowing or not, leaves the controller metered: the derivative filter does
not depend on the set point. -/
theorem Metered.update (h : Metered ctrl) (hmeas : |meas.toInt| ≤ SLAVE_MOTOR_MAX_RPM)
    (setPoint : Int32) (dtMs : UInt32) :
    Metered (pidPositionalUpdate ctrl setPoint meas dtMs).2 := by
  have ht := (h.tuned.update setPoint meas dtMs).1
  rw [pidPositionalUpdate] at ht ⊢
  split at ht
  · rename_i hhold
    rw [if_pos hhold]
    exact ⟨ht, h.dAlpha, h.deadband, hmeas, h.filter, h.kp, h.kd⟩
  · rename_i hhold
    rw [if_neg hhold]
    exact ⟨ht, h.dAlpha, h.deadband, hmeas, (h.dFiltered hmeas).2, h.kp, h.kd⟩

/-- The gains that the tuner writes. -/
theorem Metered.gains (h : Metered ctrl) {kp ki kd : Int32}
    (hkp : 0 ≤ kp.toInt ∧ kp.toInt ≤ 97784) (hkd : 0 ≤ kd.toInt ∧ kd.toInt ≤ 244460) :
    Metered (pidPositionalReset { ctrl with kp := kp, ki := ki, kd := kd }) := by
  have ht := h.tuned
  have htuned : Tuned { ctrl with kp := kp, ki := ki, kd := kd } :=
    ⟨ht.intMin, ht.intMax, ht.outMin, ht.outMax, ht.slewRate, ht.integral, ht.output⟩
  exact ⟨htuned.reset, h.dAlpha, h.deadband, (by decide : |(0 : Int32).toInt| ≤ _),
    (by decide : |(0 : Int32).toInt| ≤ _), hkp, hkd⟩

end metered

/-! ### The gains of the tuner -/

/-- The times that the tuner has taken: a half-cycle is at most a session long. -/
structure Timed (t : RelayTuner) : Prop where
  half   : t.lastHalfTicks.toNat ≤ 1000
  period : 0 ≤ t.sumPeriod.toInt ∧ t.sumPeriod.toInt ≤ 2000 * t.cycleCount.toNat

section tuner

variable {t : RelayTuner}

/-- **One sample**: a cycle that ends adds at most two sessions. -/
theorem Timed.sample (h : Timed t) (hticks : t.halfTicks.toNat ≤ 1000)
    (hcycles : t.cycleCount.toNat ≤ 1000) (err : Int32) : Timed (relaySample t err) := by
  have hage : t.halfTicks + 1 - 1 = t.halfTicks := UInt32.add_sub_cancel _ _
  have hend : ∀ u, (u = endPositiveHalf (trackPeaks t err) ∨ u = endCycle (trackPeaks t err)) →
      Timed u := by
    rintro u (rfl | rfl)
    · refine ⟨?_, h.period⟩
      change (t.halfTicks + 1 - 1).toNat ≤ 1000
      rw [hage]
      exact hticks
    · rw [endCycle]
      split
      · refine ⟨h.half, ?_⟩
        change 0 ≤ (t.sumPeriod + widen (t.lastHalfTicks + (t.halfTicks + 1 - 1))).toInt ∧
          (t.sumPeriod + widen (t.lastHalfTicks + (t.halfTicks + 1 - 1))).toInt ≤
            2000 * ((t.cycleCount + 1).toNat : Int)
        obtain ⟨hlo, hhi⟩ := h.period
        have hhalf := h.half
        have hticks₂ : (t.lastHalfTicks + t.halfTicks).toNat =
            t.lastHalfTicks.toNat + t.halfTicks.toNat := by
          rw [UInt32.toNat_add]
          omega
        have hwide := toInt_widen (t.lastHalfTicks + t.halfTicks)
        have hsum : (t.sumPeriod + widen (t.lastHalfTicks + t.halfTicks)).toInt =
            t.sumPeriod.toInt + (t.lastHalfTicks.toNat + t.halfTicks.toNat) := by
          rw [Int64.toInt_add, hwide, hticks₂]
          exact Int.bmod_eq_of_le (by omega) (by omega)
        rw [hage, toNat_succ hcycles]
        omega
      · exact ⟨h.half, h.period⟩
  rw [relaySample]
  split
  · rw [relaySwitch]
    generalize hu : (if (trackPeaks t err).lastRelaySign ≥ 0 then endPositiveHalf (trackPeaks t err)
      else endCycle (trackPeaks t err)) = u
    have htimed : Timed u := hend u (by
      rw [← hu]
      split
      · exact .inl rfl
      · exact .inr rfl)
    split
    · exact ⟨htimed.half, htimed.period⟩
    · exact ⟨htimed.half, htimed.period⟩
  · exact ⟨h.half, h.period⟩

/-- What the tuner may do to the controller. -/
def Gains (pid pid' : PidPositional) : Prop :=
  pid' = pid ∨ ∃ kp ki kd : Int32, (0 ≤ kp.toInt ∧ kp.toInt ≤ 97784) ∧
    (0 ≤ kd.toInt ∧ kd.toInt ≤ 244460) ∧
    pid' = pidPositionalReset { pid with kp := kp, ki := ki, kd := kd }

/-- `ku` for an amplitude of at least 1. -/
theorem ku_bound {amplitude : Int32} (hamp : 0 < amplitude) :
    let ku := (4 * SLAVE_PID_RELAY_AMP.toInt64 * 113 * 256 / (355 * amplitude.toInt64)).toInt32
    0 ≤ ku.toInt ∧ ku.toInt ≤ 651898 := by
  intro ku
  have hpos : 1 ≤ amplitude.toInt := Int32.lt_iff_toInt_lt.mp hamp
  have hlt := amplitude.toInt_lt
  have hnum : (4 * SLAVE_PID_RELAY_AMP.toInt64 * 113 * 256).toInt = 231424000 := by decide
  have hden : (355 * amplitude.toInt64).toInt = 355 * amplitude.toInt := by
    rw [toInt_mul64_of_range, Int32.toInt_toInt64]
    · rfl
    · rw [Int32.toInt_toInt64]
      change -2 ^ 63 ≤ 355 * amplitude.toInt
      omega
    · rw [Int32.toInt_toInt64]
      change 355 * amplitude.toInt < 2 ^ 63
      omega
  have hquot : (231424000 : Int) / (355 * amplitude.toInt) ≤ 651898 :=
    Int.le_of_lt_add_one (Int.ediv_lt_of_lt_mul (by omega) (by omega))
  have hku : ku.toInt = 231424000 / (355 * amplitude.toInt) := by
    rw [← hden, ← hnum]
    exact toInt_narrow_div (by decide) (by omega) (by rw [hnum, hden]; omega)
  rw [hku]
  exact ⟨Int.ediv_nonneg (by decide) (by omega), hquot⟩

/-- `kp` for that `ku`. -/
theorem kp_bound {ku : Int32} (hku : 0 ≤ ku.toInt ∧ ku.toInt ≤ 651898) :
    0 ≤ (ku * 15 / 100).toInt ∧ (ku * 15 / 100).toInt ≤ 97784 := by
  have hfifteen : (15 : Int32).toInt = 15 := rfl
  have hprod : (ku * 15).toInt = ku.toInt * 15 := by
    rw [toInt_mul_of_range, hfifteen]
    · rw [hfifteen]
      omega
    · rw [hfifteen]
      omega
  have hdiv : (ku * 15 / 100).toInt = ku.toInt * 15 / 100 := by
    rw [Int32.toInt_div_of_ne_right _ _ (by decide), hprod]
    exact Int.tdiv_eq_ediv_of_nonneg (by omega)
  omega

/-- `kd` for that `kp` and a period of at most two sessions. -/
theorem kd_bound {kp tu : Int32} (hkp : 0 ≤ kp.toInt ∧ kp.toInt ≤ 97784)
    (htu : 0 ≤ tu.toInt ∧ tu.toInt ≤ 2000) :
    let kd := (kp.toInt64 * tu.toInt64 * SLAVE_PID_PERIOD_MS / 8000).toInt32
    0 ≤ kd.toInt ∧ kd.toInt ≤ 244460 := by
  intro kd
  have hperiod : SLAVE_PID_PERIOD_MS.toInt = 10 := rfl
  have hlo : 0 ≤ kp.toInt * tu.toInt := mul_nonneg hkp.1 htu.1
  have hhi : kp.toInt * tu.toInt ≤ 97784 * 2000 := mul_le_mul hkp.2 htu.2 htu.1 (by decide)
  have hprod : (kp.toInt64 * tu.toInt64).toInt = kp.toInt * tu.toInt := by
    rw [toInt_mul64_of_range, Int32.toInt_toInt64, Int32.toInt_toInt64]
    · rw [Int32.toInt_toInt64, Int32.toInt_toInt64]
      omega
    · rw [Int32.toInt_toInt64, Int32.toInt_toInt64]
      omega
  have hnum : (kp.toInt64 * tu.toInt64 * SLAVE_PID_PERIOD_MS).toInt = kp.toInt * tu.toInt * 10 := by
    rw [toInt_mul64_of_range, hprod, hperiod]
    · rw [hperiod]
      omega
    · rw [hperiod]
      omega
  have hden : (8000 : Int64).toInt = 8000 := rfl
  have hkd : kd.toInt = kp.toInt * tu.toInt * 10 / 8000 := by
    rw [← hnum, ← hden]
    exact toInt_narrow_div (by omega) (by decide) (by rw [hden]; omega)
  omega

/-- The mean of the periods. -/
theorem Timed.tu_bound (h : Timed t) (hpos : 1 ≤ t.cycleCount.toNat) :
    let tu := (t.sumPeriod / widen t.cycleCount).toInt32
    0 ≤ tu.toInt ∧ tu.toInt ≤ 2000 := by
  intro tu
  obtain ⟨hlo, hhi⟩ := h.period
  have hwide := toInt_widen t.cycleCount
  have hle : t.sumPeriod.toInt / (t.cycleCount.toNat : Int) ≤ 2000 :=
    Int.le_of_lt_add_one (Int.ediv_lt_of_lt_mul (by omega) (by omega))
  have htu : tu.toInt = t.sumPeriod.toInt / (t.cycleCount.toNat : Int) := by
    rw [← hwide]
    exact toInt_narrow_div hlo (by omega) (by rw [hwide]; omega)
  rw [htu]
  exact ⟨Int.ediv_nonneg hlo (by omega), hle⟩

/-- **The end of a session** keeps the times, and writes gains of the tuner or none. -/
theorem Timed.finish (h : Timed t) (hamp : t.relayAmp = SLAVE_PID_RELAY_AMP)
    (hpos : 1 ≤ t.cycleCount.toNat) {pid pid' : PidPositional} {t' : RelayTuner}
    (heq : relayFinishTuning t pid = some (t', pid')) : Timed t' ∧ Gains pid pid' := by
  obtain ⟨halfPeriod, -, heq⟩ := Option.bind_eq_some_iff.mp heq
  obtain ⟨amplitude, -, heq⟩ := Option.bind_eq_some_iff.mp heq
  dsimp only at heq
  split at heq
  · cases heq
    exact ⟨⟨h.half, h.period⟩, .inl rfl⟩
  · rename_i hvalid
    rw [not_or, Int32.not_le, Int32.not_le] at hvalid
    obtain ⟨ku, hku, heq⟩ := Option.bind_eq_some_iff.mp heq
    obtain ⟨tu, htu, heq⟩ := Option.bind_eq_some_iff.mp heq
    rw [hamp] at hku
    obtain rfl := div64_eq_some hku
    obtain rfl := div64_eq_some htu
    have hkp := kp_bound (ku_bound hvalid.2)
    have hkd := kd_bound hkp (h.tu_bound hpos)
    split at heq
    · obtain ⟨ki, -, heq⟩ := Option.bind_eq_some_iff.mp heq
      cases heq
      exact ⟨⟨h.half, h.period⟩, .inr ⟨_, _, _, hkp, hkd, rfl⟩⟩
    · cases heq
      exact ⟨⟨h.half, h.period⟩, .inr ⟨_, _, _, hkp, hkd, rfl⟩⟩

/-- **An update** of a running tuner. -/
theorem Timed.update (h : Timed t) (hamp : t.relayAmp = SLAVE_PID_RELAY_AMP)
    {t₀ t' : RelayTuner} {pid₀ pid pid' : PidPositional} {n : Nat}
    (hr : Relaying t₀ pid₀ n t pid) (hmin : 1 ≤ t.minCycles) {meas out : Int32}
    (heq : pidRelayUpdate t pid meas = some (out, t', pid')) : Timed t' ∧ Gains pid pid' := by
  have htick : pidRelayUpdate t pid meas = relayTick t pid meas := by
    rw [pidRelayUpdate, hr.running, hr.attached]
    rfl
  rw [htick, relayTick] at heq
  dsimp only at heq
  split at heq
  · cases heq
    exact ⟨⟨h.half, h.period⟩, .inl rfl⟩
  · have hsample : Timed (relaySample { t with sampleCount := t.sampleCount + 1 }
        (t.setPoint - meas)) :=
      Timed.sample (t := { t with sampleCount := t.sampleCount + 1 }) ⟨h.half, h.period⟩
        (hr.ticks.trans hr.bound) (hr.cycles.trans hr.bound) _
    obtain ⟨hsame, -, -, -, -⟩ :=
      relaySample_spec { t with sampleCount := t.sampleCount + 1 } (t.setPoint - meas)
    generalize relaySample { t with sampleCount := t.sampleCount + 1 } (t.setPoint - meas) = u
      at heq hsample hsame
    split at heq
    · rename_i hge
      obtain ⟨r, hfinish, hr'⟩ := Option.map_eq_some_iff.mp heq
      cases hr'
      have hle : 1 ≤ u.cycleCount := UInt32.le_trans (hsame.minCycles.symm ▸ hmin) hge
      have hpos : 1 ≤ u.cycleCount.toNat := UInt32.le_iff_toNat_le.mp hle
      exact hsample.finish (hsame.relayAmp.trans hamp) hpos hfinish
    · cases heq
      exact ⟨hsample, .inl rfl⟩

end tuner

/-! ### Runs of the stator -/

section stator

variable {σ R : Type} {s : Stator σ}

/-- A turn in which the motor has a speed that it can have. -/
def InRange : StatorTurn → Prop
  | .sense rpm _ => |rpm.toInt| ≤ SLAVE_MOTOR_MAX_RPM
  | _ => True

instance : DecidablePred InRange
  | .sense rpm _ => inferInstanceAs (Decidable (|rpm.toInt| ≤ SLAVE_MOTOR_MAX_RPM))
  | .fsm _ | .control | .commands _ | .heartbeat => isTrue trivial

/-- **The invariant.** -/
structure Gauged (s : Stator σ) : Prop where
  inv   : StatorInv s
  pid   : Metered s.pid
  amp   : s.relayTuner.relayAmp = SLAVE_PID_RELAY_AMP
  timed : Timed s.relayTuner
  rpm   : |s.motor.measuredRpm.toInt| ≤ SLAVE_MOTOR_MAX_RPM

theorem Gauged.alloc (rx : σ) (now : UInt64) : Gauged (povStatorAlloc rx now) where
  inv   := .alloc rx now
  pid   := metered_init
  amp   := rfl
  timed := ⟨Nat.zero_le _, Int.le_refl 0, Int.le_refl 0⟩
  rpm   := (by decide : |(0 : Int32).toInt| ≤ _)

/-- What the state machine does to the controller and its tuner. -/
theorem povStatorFsm_controller (now : UInt64) (s : Stator σ) :
    ((povStatorFsm now s).pid = s.pid ∨ (povStatorFsm now s).pid = pidPositionalReset s.pid) ∧
    ((povStatorFsm now s).relayTuner = s.relayTuner ∨
      (povStatorFsm now s).relayTuner = pidRelayStart s.relayTuner s.pid) ∧
    (povStatorFsm now s).motor.measuredRpm = s.motor.measuredRpm := by
  unfold povStatorFsm
  split
  · exact ⟨.inl rfl, .inl rfl, rfl⟩
  · unfold tuneMotor
    split
    · dsimp only
      split
      · split
        · exact ⟨.inl rfl, .inr rfl, rfl⟩
        · exact ⟨.inl rfl, .inl rfl, rfl⟩
      · exact ⟨.inl rfl, .inl rfl, rfl⟩
    · exact ⟨.inl rfl, .inl rfl, rfl⟩
    · exact ⟨.inr rfl, .inl rfl, rfl⟩
    · exact ⟨.inr rfl, .inl rfl, rfl⟩
  · split
    · exact ⟨.inr rfl, .inl rfl, rfl⟩
    · exact ⟨.inl rfl, .inl rfl, rfl⟩
  · exact ⟨.inl rfl, .inl rfl, rfl⟩
  · exact ⟨.inl rfl, .inl rfl, rfl⟩
  · exact ⟨.inl rfl, .inl rfl, rfl⟩

theorem Timed.start {t : RelayTuner} (h : Timed t) (pid : PidPositional) :
    Timed (pidRelayStart t pid) ∧ (pidRelayStart t pid).relayAmp = t.relayAmp := by
  rw [pidRelayStart]
  split
  · exact ⟨⟨Nat.zero_le _, Int.le_refl 0, Int.le_refl 0⟩, rfl⟩
  · exact ⟨h, rfl⟩

theorem Metered.of_gains {pid pid' : PidPositional} (h : Metered pid) (hg : Gains pid pid') :
    Metered pid' := by
  rcases hg with rfl | ⟨kp, ki, kd, hkp, hkd, rfl⟩
  · exact h
  · exact h.gains hkp hkd

theorem Gauged.fsm (h : Gauged s) (now : UInt64) : Gauged (povStatorFsm now s) := by
  obtain ⟨hpid, htuner, hrpm⟩ := povStatorFsm_controller now s
  obtain ⟨hstart, hamp⟩ := h.timed.start s.pid
  refine ⟨h.inv.fsm now, ?_, ?_, ?_, hrpm ▸ h.rpm⟩
  · rcases hpid with hp | hp
    · exact hp ▸ h.pid
    · exact hp ▸ h.pid.reset
  · rcases htuner with ht | ht
    · exact ht ▸ h.amp
    · exact ht ▸ hamp.trans h.amp
  · rcases htuner with ht | ht
    · exact ht ▸ h.timed
    · exact ht ▸ hstart

theorem driveMotor_measuredRpm (motor : MotorController) (output : Int32) :
    (driveMotor motor output).measuredRpm = motor.measuredRpm := by
  rw [driveMotor]
  split
  · rfl
  · rfl

theorem Gauged.control (h : Gauged s) : ∃ s', controlMotor s = some s' ∧ Gauged s' := by
  obtain ⟨s', hs', hinv⟩ := h.inv.control
  refine ⟨s', hs', ?_⟩
  unfold controlMotor at hs'
  split at hs'
  · cases hs'
    exact h
  · split at hs'
    · rename_i hrun
      obtain ⟨⟨out, t', pid'⟩, heq, rfl⟩ := Option.map_eq_some_iff.mp hs'
      obtain ⟨t₀, pid₀, n, hsession, hmin⟩ := h.inv.relay.session hrun.2
      obtain ⟨out₁, t₁, pid₁, heq₁, hsession₁, -, -⟩ := hsession.update hmin s.motor.measuredRpm
      cases heq₁.symm.trans heq
      rcases hsession.phase with hr | hd | ⟨hf, -⟩
      · obtain ⟨htimed, hgains⟩ := h.timed.update h.amp hr h.inv.relay.cycles heq
        refine ⟨hinv, h.pid.of_gains hgains, ?_, htimed, ?_⟩
        · exact hsession₁.same.relayAmp.trans (hsession.same.relayAmp.symm.trans h.amp)
        · exact (driveMotor_measuredRpm _ _).symm ▸ h.rpm
      · exact absurd (hd.symm.trans hrun.2) RelayState.noConfusion
      · exact absurd (hf.symm.trans hrun.2) RelayState.noConfusion
    · cases hs'
      exact ⟨hinv, h.pid.update h.rpm _ _, h.amp, h.timed,
        (driveMotor_measuredRpm _ _).symm ▸ h.rpm⟩

variable (F : Framer σ R) (c : Codec R)

/-- **One turn.** -/
theorem Gauged.next (h : Gauged s) {turn : StatorTurn} (hturn : InRange turn) :
    Gauged (statorNext F c s turn) := by
  cases turn with
  | fsm now => exact h.fsm now
  | control =>
    obtain ⟨s', hs', hg⟩ := h.control
    rw [statorNext, statorStep, hs']
    exact hg
  | commands inp =>
    obtain ⟨hmotor, hpid, hrelay, -, -⟩ := processMotorCommands_spec F c inp s
    refine ⟨h.inv.commands F c inp, ?_, ?_, ?_, ?_⟩
    · exact hpid.symm ▸ h.pid
    · exact hrelay.symm ▸ h.amp
    · exact hrelay.symm ▸ h.timed
    · exact hmotor.symm ▸ h.rpm
  | heartbeat => exact ⟨h.inv.next F c .heartbeat, h.pid, h.amp, h.timed, h.rpm⟩
  | sense rpm status => exact ⟨h.inv.next F c (.sense rpm status), h.pid, h.amp, h.timed, hturn⟩

theorem Gauged.run (h : Gauged s) {turns : List StatorTurn} (hturns : ∀ turn ∈ turns, InRange turn) :
    Gauged (turns.foldl (statorNext F c) s) := by
  have hrun : Run (fun _ turn => InRange turn) (statorNext F c) s (turns.foldl (statorNext F c) s) :=
    Run.foldl_of_mem (fun _ => hturns) s
  exact hrun.invariant (fun _ _ hs hturn => hs.next F c hturn) h

/-- **Where the controller overflows.**  In every state of every run whose measured speeds the motor
can have, whether the tuner has written gains or not, an update towards any set point computes
without overflow just if the error fits 32 bits and, outside the deadband, its product with `kp`
does. -/
theorem pid_overflow_iff (rx : σ) (now₀ : UInt64) (turns : List StatorTurn)
    (hturns : ∀ turn ∈ turns, InRange turn) :
    let s := turns.foldl (statorNext F c) (povStatorAlloc rx now₀)
    |s.motor.measuredRpm.toInt| ≤ SLAVE_MOTOR_MAX_RPM ∧
    ∀ (setPoint meas : Int32) (dtMs : UInt32), |meas.toInt| ≤ SLAVE_MOTOR_MAX_RPM →
      (pidPositionalUpdateChecked s.pid setPoint meas dtMs =
          some (pidPositionalUpdate s.pid setPoint meas dtMs) ↔
        ErrorFits s.pid setPoint meas) := by
  intro s
  have hs : Gauged s := (Gauged.alloc rx now₀).run F c hturns
  exact ⟨hs.rpm, fun setPoint meas dtMs hmeas => hs.pid.checked_iff hmeas setPoint dtMs⟩

end stator

/-- Byte 0 is a `MOTOR_CONTROL` of motor 0, every other byte a heartbeat. -/
def speedCodec (speed : Int32) : Codec UInt8 :=
  { byteCodec with
      msgid := fun b => if b = 0 then .motorControl else .systemHeartbeat
      motorControl := fun _ => ⟨0, speed, 0⟩ }

/-- The stator is tuned, drives its motor, and gets a `MOTOR_CONTROL`. -/
def commandedTurns : List StatorTurn := powerUp ++ [.commands ⟨[0], 6, 6, true, 0⟩]

/-- The stator then. -/
def commanded (speed : Int32) : Stator UInt8 :=
  commandedTurns.foldl (statorNext byteFramer (speedCodec speed)) (povStatorAlloc 1 0)

theorem pid_overflow_iff_1200 :
    (commanded 1200).targetSpeed = 1200 ∧
    pidPositionalUpdateChecked (commanded 1200).pid 1200 800 10 =
      some (pidPositionalUpdate (commanded 1200).pid 1200 800 10) := by
  have hturns : ∀ turn ∈ commandedTurns, InRange turn := by decide +kernel
  have hiff := (pid_overflow_iff byteFramer (speedCodec 1200) 1 0 commandedTurns hturns).2
  rw [← commanded] at hiff
  have hgauged := (Gauged.alloc 1 0).run byteFramer (speedCodec 1200) hturns
  have hfits : ErrorFits (commanded 1200).pid 1200 800 :=
    hgauged.pid.errorFits (by decide) (by decide)
  exact ⟨by decide +kernel, (hiff 1200 800 10 (by decide)).mpr hfits⟩

/-- **Overflows**: of the error with the gains of the tuner, and of its product with the default
gain. -/
theorem speeds_overflow :
    ((commanded Int32.minValue).state = .active ∧
      (commanded Int32.minValue).relayTuner.state = .done ∧
      (commanded Int32.minValue).targetSpeed = Int32.minValue ∧
      (commanded Int32.minValue).motor.measuredRpm = 800 ∧
      pidPositionalUpdateChecked (commanded Int32.minValue).pid Int32.minValue 800 10 = none) ∧
    pidPositionalUpdateChecked (pidPositionalInit SLAVE_PID_KP SLAVE_PID_KI SLAVE_PID_KD)
      4194304 0 10 = none := by
  decide +kernel

end Kinetis.Pov
