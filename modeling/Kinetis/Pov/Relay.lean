import Kinetis.Pov.Pid

/-!
# Pov — relay auto-tuning

The tuner drives the motor between two outputs, `bias + relay_amp` and `bias - relay_amp`, and
times the oscillation.  A half-cycle ends when the relay flips, which it may do only after it has
held for `min_half_ticks` updates; a full cycle ends when it flips back up.  After `min_cycles`
of them the averages give the gains.  A division by zero is a fault: `none`.

* `update_cases` says once what an update of a running tuner does;
* `Relaying` holds of a running session, `Ended` of one that is over, and every update leads from
  either to one of the two (`Relaying.update`, `Ended.update`);
* `relay_session` is the resulting statement about every session.
-/

namespace Kinetis.Pov
open Lib

/-! ### The tuner -/

def SLAVE_PID_RELAY_MIN_HALF_TICKS : UInt32 := 20
def SLAVE_PID_PERIOD_MS : Int64 := 10
def RELAY_TIMEOUT_SAMPLES : UInt32 := 1000

/-- `enum pid_relay_state`. -/
inductive RelayState where
  | idle
  | running
  | done
  | failed
  deriving DecidableEq, Repr

/-- `struct pid_relay_tuner`; `attached` is `t->pid != NULL`, the controller itself is passed
beside the tuner. -/
structure RelayTuner where
  attached       : Bool
  relayAmp       : Int32
  bias           : Int32
  setPoint       : Int32
  minCycles      : UInt32
  minHalfTicks   : UInt32
  state          : RelayState
  sampleCount    : UInt32
  prevErr        : Int32
  lastRelaySign  : Int32
  inPositiveHalf : Bool
  peakPos        : Int32
  peakNeg        : Int32
  halfTicks      : UInt32
  lastHalfTicks  : UInt32
  lastPeakPos    : Int32
  sumPeriod      : Int64
  sumAmplitude   : Int64
  cycleCount     : UInt32
  ku             : Int32
  tu             : Int32
  deriving DecidableEq, Repr

/-- `pid_relay_init`. -/
def pidRelayInit (attached : Bool) (relayAmp bias setPoint : Int32) (minCycles : UInt32) :
    RelayTuner where
  attached := attached
  relayAmp := relayAmp
  bias := bias
  setPoint := setPoint
  minCycles := minCycles
  minHalfTicks := SLAVE_PID_RELAY_MIN_HALF_TICKS
  state := .idle
  sampleCount := 0
  prevErr := 0
  lastRelaySign := 1
  inPositiveHalf := false
  peakPos := 0
  peakNeg := 0
  halfTicks := 0
  lastHalfTicks := 0
  lastPeakPos := 0
  sumPeriod := 0
  sumAmplitude := 0
  cycleCount := 0
  ku := 0
  tu := 0

/-- `pid_relay_start`; a bias of 0 is replaced by the controller's last output. -/
def pidRelayStart (t : RelayTuner) (pid : PidPositional) : RelayTuner :=
  if t.attached then
    { t with
      bias := if t.bias = 0 then pid.prevOutput else t.bias
      state := .running, sampleCount := 0, prevErr := 0, lastRelaySign := 1
      inPositiveHalf := false, peakPos := 0, peakNeg := 0, halfTicks := 0, lastHalfTicks := 0
      lastPeakPos := 0, sumPeriod := 0, sumAmplitude := 0, cycleCount := 0 }
  else t

/-- `relay_finish_tuning`. -/
def relayFinishTuning (t : RelayTuner) (pid : PidPositional) :
    Option (RelayTuner × PidPositional) := do
  let avgHalfPeriod := (← div64 t.sumPeriod (widen (2 * t.cycleCount))).toInt32
  let avgAmplitude := (← div64 t.sumAmplitude (widen t.cycleCount)).toInt32
  if avgHalfPeriod ≤ 0 ∨ avgAmplitude ≤ 0 then
    return ({ t with state := .failed }, pid)
  let kuQ8 := (← div64 (4 * t.relayAmp.toInt64 * 113 * 256) (355 * avgAmplitude.toInt64)).toInt32
  let tuTicks := (← div64 t.sumPeriod (widen t.cycleCount)).toInt32
  let kpQ8 := (kuQ8 * 15) / 100
  let kiQ8 ← if tuTicks > 0 then
      (div64 (1000 * kpQ8.toInt64) (tuTicks.toInt64 * SLAVE_PID_PERIOD_MS)).map Int64.toInt32
    else some 0
  let kdQ8 := (kpQ8.toInt64 * tuTicks.toInt64 * SLAVE_PID_PERIOD_MS / 8000).toInt32
  return ({ t with ku := kuQ8, tu := tuTicks, state := .done },
    pidPositionalReset { pid with kp := kpQ8, ki := kiQ8, kd := kdQ8 })

/-- The sign the relay is to have: that of the error, but held until the half-cycle is old
enough. -/
def desiredSign (t : RelayTuner) (err : Int32) : Int32 :=
  if t.halfTicks ≠ 0 ∧ t.halfTicks < t.minHalfTicks then t.lastRelaySign
  else if err ≥ 0 then 1 else -1

/-- Peaks within the half-cycle, and its age. -/
def trackPeaks (t : RelayTuner) (err : Int32) : RelayTuner :=
  { t with
    peakPos := if err ≥ 0 ∧ err > t.peakPos then err else t.peakPos
    peakNeg := if ¬ err ≥ 0 ∧ err < t.peakNeg then err else t.peakNeg
    halfTicks := t.halfTicks + 1 }

/-- The relay was high: the positive half-cycle is over. -/
def endPositiveHalf (t : RelayTuner) : RelayTuner :=
  { t with lastPeakPos := t.peakPos, lastHalfTicks := t.halfTicks - 1, peakPos := 0,
           halfTicks := 1 }

/-- The relay was low: a full cycle is over, and counts if it has a length and an amplitude. -/
def endCycle (t : RelayTuner) : RelayTuner :=
  let periodTicks := t.lastHalfTicks + (t.halfTicks - 1)
  let amplitude := t.lastPeakPos - t.peakNeg
  let t :=
    if periodTicks > 0 ∧ amplitude > 0 then
      { t with sumPeriod := t.sumPeriod + widen periodTicks
               sumAmplitude := t.sumAmplitude + amplitude.toInt64
               cycleCount := t.cycleCount + 1 }
    else t
  { t with peakNeg := 0, halfTicks := 1 }

/-- The relay switches to `sign`. -/
def relaySwitch (t : RelayTuner) (err sign : Int32) : RelayTuner :=
  let t := if t.lastRelaySign ≥ 0 then endPositiveHalf t else endCycle t
  let t := if err ≥ 0 then { t with peakPos := err } else { t with peakNeg := err }
  { t with lastRelaySign := sign, inPositiveHalf := sign ≥ 0 }

/-- What one sample does to a running tuner. -/
def relaySample (t : RelayTuner) (err : Int32) : RelayTuner :=
  let sign := desiredSign t err
  let tracked := trackPeaks t err
  { (if sign ≠ t.lastRelaySign then relaySwitch tracked err sign else tracked) with prevErr := err }

def relayOutput (t : RelayTuner) (sign : Int32) : Int32 :=
  if sign ≥ 0 then t.bias + t.relayAmp else t.bias - t.relayAmp

/-- An update of a tuner that runs. -/
def relayTick (t : RelayTuner) (pid : PidPositional) (meas : Int32) :
    Option (Int32 × RelayTuner × PidPositional) :=
  let t := { t with sampleCount := t.sampleCount + 1 }
  if t.sampleCount > RELAY_TIMEOUT_SAMPLES then some (0, { t with state := .failed }, pid)
  else
    let err := t.setPoint - meas
    let output := relayOutput t (desiredSign t err)
    let t := relaySample t err
    if t.cycleCount ≥ t.minCycles then (relayFinishTuning t pid).map fun r => (0, r)
    else some (output, t, pid)

/-- `pid_relay_update`. -/
def pidRelayUpdate (t : RelayTuner) (pid : PidPositional) (meas : Int32) :
    Option (Int32 × RelayTuner × PidPositional) :=
  match t.state with
  | .idle => some (t.bias, t, pid)
  | .done | .failed => some (0, t, pid)
  | .running => if !t.attached then some (0, t, pid) else relayTick t pid meas

/-- A session: measurements one after the other. -/
def relayRun (t : RelayTuner) (pid : PidPositional) :
    List Int32 → Option (RelayTuner × PidPositional)
  | [] => some (t, pid)
  | meas :: rest => (pidRelayUpdate t pid meas).bind fun r => relayRun r.2.1 r.2.2 rest

/-! ### One sample -/

/-- What a sample leaves alone. -/
structure SameSession (t t' : RelayTuner) : Prop where
  attached     : t'.attached = t.attached
  relayAmp     : t'.relayAmp = t.relayAmp
  bias         : t'.bias = t.bias
  minCycles    : t'.minCycles = t.minCycles
  minHalfTicks : t'.minHalfTicks = t.minHalfTicks

/-- How the age of the half-cycle goes on: the relay flips, which it may when the half-cycle is
old enough, and the age is 1; or it does not, and the half-cycle gets older. -/
def Ages (t t' : RelayTuner) : Prop :=
  t'.lastRelaySign ≠ t.lastRelaySign ∧ t'.halfTicks = 1 ∧
      (t.halfTicks = 0 ∨ t.minHalfTicks ≤ t.halfTicks) ∨
    t'.lastRelaySign = t.lastRelaySign ∧ (t'.halfTicks = t.halfTicks ∨ t'.halfTicks = t.halfTicks + 1)

theorem relaySwitch_spec (t : RelayTuner) (err sign : Int32) :
    SameSession t (relaySwitch t err sign) ∧
      (relaySwitch t err sign).state = t.state ∧
      (relaySwitch t err sign).sampleCount = t.sampleCount ∧
      (relaySwitch t err sign).lastRelaySign = sign ∧
      (relaySwitch t err sign).halfTicks = 1 ∧
      ((relaySwitch t err sign).cycleCount = t.cycleCount ∨
        (relaySwitch t err sign).cycleCount = t.cycleCount + 1) := by
  have hend : ∀ u, (u = endPositiveHalf t ∨ u = endCycle t) →
      SameSession t u ∧ u.state = t.state ∧ u.sampleCount = t.sampleCount ∧ u.halfTicks = 1 ∧
        (u.cycleCount = t.cycleCount ∨ u.cycleCount = t.cycleCount + 1) := by
    rintro u (rfl | rfl)
    · exact ⟨⟨rfl, rfl, rfl, rfl, rfl⟩, rfl, rfl, rfl, .inl rfl⟩
    · rw [endCycle]
      split
      · exact ⟨⟨rfl, rfl, rfl, rfl, rfl⟩, rfl, rfl, rfl, .inr rfl⟩
      · exact ⟨⟨rfl, rfl, rfl, rfl, rfl⟩, rfl, rfl, rfl, .inl rfl⟩
  rw [relaySwitch]
  generalize hu : (if t.lastRelaySign ≥ 0 then endPositiveHalf t else endCycle t) = u
  obtain ⟨hsame, hstate, hcount, hhalf, hcycle⟩ := hend u (by
    rw [← hu]
    split
    · exact .inl rfl
    · exact .inr rfl)
  split
  · exact ⟨⟨hsame.1, hsame.2, hsame.3, hsame.4, hsame.5⟩, hstate, hcount, rfl, hhalf, hcycle⟩
  · exact ⟨⟨hsame.1, hsame.2, hsame.3, hsame.4, hsame.5⟩, hstate, hcount, rfl, hhalf, hcycle⟩

theorem relaySample_spec (t : RelayTuner) (err : Int32) :
    SameSession t (relaySample t err) ∧
      (relaySample t err).state = t.state ∧
      (relaySample t err).sampleCount = t.sampleCount ∧
      Ages t (relaySample t err) ∧
      ((relaySample t err).cycleCount = t.cycleCount ∨
        (relaySample t err).cycleCount = t.cycleCount + 1) := by
  rw [relaySample]
  split
  · rename_i hflip
    obtain ⟨hsame, hstate, hcount, hsign, hhalf, hcycle⟩ :=
      relaySwitch_spec (trackPeaks t err) err (desiredSign t err)
    refine ⟨⟨hsame.1, hsame.2, hsame.3, hsame.4, hsame.5⟩, hstate, hcount,
      .inl ⟨fun h => hflip (hsign.symm.trans h), hhalf, ?_⟩, hcycle⟩
    -- a relay that is held does not flip
    by_contra hyoung
    rw [not_or, UInt32.not_le] at hyoung
    exact hflip (if_pos hyoung)
  · rename_i hhold
    exact ⟨⟨rfl, rfl, rfl, rfl, rfl⟩, rfl, rfl, .inr ⟨rfl, .inr rfl⟩, .inl rfl⟩

/-! ### The end of a session -/

/-- **Finishing never divides by zero**: there is at least one cycle, and an average that is not
positive fails the session before it is divided by. -/
theorem relayFinishTuning_spec {t : RelayTuner} (pid : PidPositional)
    (hpos : 1 ≤ t.cycleCount.toNat) (hle : t.cycleCount.toNat ≤ 1000) :
    ∃ t' pid', relayFinishTuning t pid = some (t', pid') ∧ SameSession t t' ∧
      t'.lastRelaySign = t.lastRelaySign ∧ t'.halfTicks = t.halfTicks ∧
      (t'.state = .done ∨ t'.state = .failed ∧ pid' = pid) := by
  have hone : widen t.cycleCount ≠ 0 := widen_ne_zero (Nat.ne_of_gt hpos)
  have htwo : widen (2 * t.cycleCount) ≠ 0 := by
    have hdouble : (2 * t.cycleCount).toNat = 2 * t.cycleCount.toNat % 2 ^ 32 :=
      UInt32.toNat_mul 2 t.cycleCount
    exact widen_ne_zero (by omega)
  rw [relayFinishTuning]
  simp only [div64_of_ne hone, div64_of_ne htwo, Option.bind_eq_bind, Option.bind_some]
  generalize (t.sumAmplitude / widen t.cycleCount).toInt32 = avgAmplitude
  split
  · exact ⟨_, _, rfl, ⟨rfl, rfl, rfl, rfl, rfl⟩, rfl, rfl, .inr ⟨rfl, rfl⟩⟩
  · rename_i hvalid
    rw [not_or, Int32.not_le, Int32.not_le] at hvalid
    have hamp : 355 * avgAmplitude.toInt64 ≠ 0 :=
      (mul_ne_zero_of_pos (k := 355) (by decide) (by decide) hvalid.2).1
    simp only [div64_of_ne hamp, Option.bind_some]
    generalize (t.sumPeriod / widen t.cycleCount).toInt32 = tuTicks
    split
    · rename_i htu
      have hperiod : tuTicks.toInt64 * SLAVE_PID_PERIOD_MS ≠ 0 :=
        (mul_ne_zero_of_pos (by decide) (by decide) htu).2
      simp only [div64_of_ne hperiod, Option.map_some, Option.bind_some]
      exact ⟨_, _, rfl, ⟨rfl, rfl, rfl, rfl, rfl⟩, rfl, rfl, .inl rfl⟩
    · exact ⟨_, _, rfl, ⟨rfl, rfl, rfl, rfl, rfl⟩, rfl, rfl, .inl rfl⟩

/-! ### Sessions -/

section Session

variable {t₀ t : RelayTuner} {pid₀ pid : PidPositional} {n : Nat}

/-- A session started as `t₀` that still runs after `n` updates. -/
structure Relaying (t₀ : RelayTuner) (pid₀ : PidPositional) (n : Nat) (t : RelayTuner)
    (pid : PidPositional) : Prop where
  running   : t.state = .running
  attached  : t.attached = true
  cycles    : t.cycleCount.toNat ≤ n
  samples   : t.sampleCount.toNat = n
  ticks     : t.halfTicks.toNat ≤ n
  bound     : n ≤ 1000
  pid_eq    : pid = pid₀

/-- A session that is over. -/
def Ended (pid₀ : PidPositional) (t : RelayTuner) (pid : PidPositional) : Prop :=
  t.state = .done ∨ t.state = .failed ∧ pid = pid₀

/-- A session after `n` updates. -/
structure Session (t₀ : RelayTuner) (pid₀ : PidPositional) (n : Nat) (t : RelayTuner)
    (pid : PidPositional) : Prop where
  same  : SameSession t₀ t
  ticks : t.halfTicks.toNat ≤ 1000
  phase : Relaying t₀ pid₀ n t pid ∨ Ended pid₀ t pid

variable {t' : RelayTuner}

theorem SameSession.trans (h : SameSession t₀ t) (h' : SameSession t t') : SameSession t₀ t' :=
  ⟨h'.1.trans h.1, h'.2.trans h.2, h'.3.trans h.3, h'.4.trans h.4, h'.5.trans h.5⟩

theorem session_start (hatt : t.attached = true) :
    Session (pidRelayStart t pid) pid 0 (pidRelayStart t pid) pid := by
  rw [pidRelayStart, if_pos hatt]
  exact ⟨⟨rfl, rfl, rfl, rfl, rfl⟩, Nat.zero_le _, .inl ⟨rfl, hatt, Nat.zero_le _, rfl,
    Nat.zero_le _, Nat.zero_le _, rfl⟩⟩

theorem toNat_succ {x : UInt32} (h : x.toNat ≤ 1000) : (x + 1).toNat = x.toNat + 1 := by
  have hadd : (x + 1).toNat = (x.toNat + 1) % 2 ^ 32 := UInt32.toNat_add x 1
  omega

theorem Ended.update (h : Ended pid₀ t pid) (meas : Int32) :
    pidRelayUpdate t pid meas = some (0, t, pid) := by
  rcases h with hs | ⟨hs, -⟩
  · rw [pidRelayUpdate, hs]
  · rw [pidRelayUpdate, hs]

/-- A running session takes one more sample: it times out, finishes or goes on. -/
theorem Relaying.update (hr : Relaying t₀ pid₀ n t pid) (hsame : SameSession t₀ t)
    (hmin : 1 ≤ t₀.minCycles) (meas : Int32) :
    ∃ out t' pid', pidRelayUpdate t pid meas = some (out, t', pid') ∧
      Session t₀ pid₀ (n + 1) t' pid' ∧ Ages t t' ∧
      (t'.state = .running → out = t₀.bias + t₀.relayAmp ∨ out = t₀.bias - t₀.relayAmp) := by
  have hbound := hr.bound
  have hticks := hr.ticks
  have hcycles := hr.cycles
  have hsucc : (t.sampleCount + 1).toNat = n + 1 := by
    rw [toNat_succ (by rw [hr.samples]; exact hbound), hr.samples]
  have htick : pidRelayUpdate t pid meas = relayTick t pid meas := by
    rw [pidRelayUpdate, hr.running, hr.attached]
    rfl
  rw [htick, relayTick]
  dsimp only
  split
  · -- the 1001st sample
    refine ⟨_, _, _, rfl, ⟨⟨hsame.1, hsame.2, hsame.3, hsame.4, hsame.5⟩, hticks.trans hbound,
      .inr (.inr ⟨rfl, hr.pid_eq⟩)⟩, .inr ⟨rfl, .inl rfl⟩, nofun⟩
  · rename_i htime
    have hn : n + 1 ≤ 1000 := by
      rw [gt_iff_lt, UInt32.lt_iff_toNat_lt, hsucc] at htime
      exact Nat.le_of_not_lt htime
    obtain ⟨hsame', hstate, hcount, hages, hcycle⟩ :=
      relaySample_spec { t with sampleCount := t.sampleCount + 1 } (t.setPoint - meas)
    generalize relaySample { t with sampleCount := t.sampleCount + 1 } (t.setPoint - meas) = u
      at hsame' hstate hcount hages hcycle
    have hsame₀ : SameSession t₀ u :=
      hsame.trans ⟨hsame'.1, hsame'.2, hsame'.3, hsame'.4, hsame'.5⟩
    have hhalf : u.halfTicks.toNat ≤ n + 1 := by
      rcases hages with ⟨-, hone, -⟩ | ⟨-, hold | hold⟩
      · rw [hone]
        exact Nat.succ_le_succ (Nat.zero_le n)
      · rw [hold]
        exact hticks.trans (Nat.le_succ n)
      · rw [hold]
        exact (toNat_succ (hticks.trans hbound)).trans_le (Nat.succ_le_succ hticks)
    have hcyc : u.cycleCount.toNat ≤ n + 1 := by
      rcases hcycle with hc | hc
      · rw [hc]
        exact hcycles.trans (Nat.le_succ n)
      · rw [hc]
        exact (toNat_succ (hcycles.trans hbound)).trans_le (Nat.succ_le_succ hcycles)
    split
    · -- enough cycles: at least one, so the averages are defined
      rename_i hge
      have hpos : 1 ≤ u.cycleCount.toNat :=
        (UInt32.le_iff_toNat_le.mp hmin).trans (by
          rw [← hsame₀.minCycles]
          exact UInt32.le_iff_toNat_le.mp hge)
      obtain ⟨t', pid', heq, hsame'', hsign, hhalf', hend⟩ :=
        relayFinishTuning_spec pid hpos (hcyc.trans hn)
      rw [heq]
      refine ⟨_, t', pid', rfl, ⟨hsame₀.trans hsame'', ?_, .inr ?_⟩, ?_, ?_⟩
      · rw [hhalf']
        exact hhalf.trans hn
      · rcases hend with hd | ⟨hf, rfl⟩
        · exact .inl hd
        · exact .inr ⟨hf, hr.pid_eq⟩
      · rw [Ages, hsign, hhalf']
        exact hages
      · intro hrun
        rcases hend with hd | ⟨hf, -⟩
        · rw [hd] at hrun
          cases hrun
        · rw [hf] at hrun
          cases hrun
    · refine ⟨_, u, pid, rfl, ⟨hsame₀, hhalf.trans hn, .inl ⟨hstate.trans hr.running,
        hsame'.attached.trans hr.attached, hcyc, ?_, hhalf, hn, hr.pid_eq⟩⟩, hages, fun _ => ?_⟩
      · rw [hcount]
        exact hsucc
      · rw [relayOutput, hsame.bias, hsame.relayAmp]
        split
        · exact .inl rfl
        · exact .inr rfl

theorem Session.update (h : Session t₀ pid₀ n t pid) (hmin : 1 ≤ t₀.minCycles) (meas : Int32) :
    ∃ out t' pid', pidRelayUpdate t pid meas = some (out, t', pid') ∧
      Session t₀ pid₀ (n + 1) t' pid' ∧ Ages t t' ∧
      (t'.state = .running → out = t₀.bias + t₀.relayAmp ∨ out = t₀.bias - t₀.relayAmp) := by
  rcases h.phase with hr | he
  · exact hr.update h.same hmin meas
  · refine ⟨_, _, _, he.update meas, ⟨h.same, h.ticks, .inr he⟩, .inr ⟨rfl, .inl rfl⟩, ?_⟩
    intro hrun
    rcases he with hd | ⟨hf, -⟩
    · rw [hd] at hrun
      cases hrun
    · rw [hf] at hrun
      cases hrun

theorem Session.run (h : Session t₀ pid₀ n t pid) (hmin : 1 ≤ t₀.minCycles) (ms : List Int32) :
    ∃ t' pid', relayRun t pid ms = some (t', pid') ∧ Session t₀ pid₀ (n + ms.length) t' pid' := by
  induction ms generalizing n t pid with
  | nil => exact ⟨t, pid, rfl, h⟩
  | cons meas rest ih =>
    obtain ⟨out, t₁, pid₁, heq, h₁, -, -⟩ := h.update hmin meas
    obtain ⟨t', pid', heq', h'⟩ := ih h₁
    refine ⟨t', pid', ?_, ?_⟩
    · rw [relayRun, heq]
      exact heq'
    · rw [List.length_cons, Nat.add_comm rest.length 1, ← Nat.add_assoc]
      exact h'

variable {pid' : PidPositional}

/-- After a flip, the half-cycle is no older than the number of updates since. -/
theorem Session.run_halfTicks (h : Session t₀ pid₀ n t pid) (hmin : 1 ≤ t₀.minCycles) {a : Nat}
    (hpos : 1 ≤ t.halfTicks.toNat) (hle : t.halfTicks.toNat ≤ a) (ms : List Int32)
    (heq : relayRun t pid ms = some (t', pid')) :
    1 ≤ t'.halfTicks.toNat ∧ t'.halfTicks.toNat ≤ a + ms.length := by
  induction ms generalizing n t pid a with
  | nil =>
    cases heq
    exact ⟨hpos, hle⟩
  | cons meas rest ih =>
    obtain ⟨out, t₁, pid₁, hstep, h₁, hages, -⟩ := h.update hmin meas
    rw [relayRun, hstep] at heq
    have hticks := h.ticks
    have hnext : 1 ≤ t₁.halfTicks.toNat ∧ t₁.halfTicks.toNat ≤ a + 1 := by
      rcases hages with ⟨-, hone, -⟩ | ⟨-, hold | hold⟩
      · rw [hone]
        exact ⟨Nat.le_refl 1, Nat.le_add_left 1 a⟩
      · rw [hold]
        exact ⟨hpos, hle.trans (Nat.le_succ a)⟩
      · rw [hold, toNat_succ hticks]
        exact ⟨Nat.le_add_left 1 _, Nat.succ_le_succ hle⟩
    obtain ⟨hpos', hle'⟩ := ih h₁ hnext.1 hnext.2 heq
    refine ⟨hpos', hle'.trans_eq ?_⟩
    rw [List.length_cons]
    omega

/-- Whether the relay flips at a measurement. -/
def Flips (t : RelayTuner) (pid : PidPositional) (meas : Int32) : Prop :=
  ∀ r, pidRelayUpdate t pid meas = some r → r.2.1.lastRelaySign ≠ t.lastRelaySign

variable {meas : Int32}

/-- A flip starts a half-cycle. -/
theorem Ages.of_flips {out : Int32} (hages : Ages t t')
    (hstep : pidRelayUpdate t pid meas = some (out, t', pid')) (hflip : Flips t pid meas) :
    t'.halfTicks = 1 ∧ (t.halfTicks = 0 ∨ t.minHalfTicks ≤ t.halfTicks) := by
  rcases hages with ⟨-, hone, hold⟩ | ⟨hsign, -⟩
  · exact ⟨hone, hold⟩
  · exact absurd hsign (hflip _ hstep)

/-- After a flip the relay flips again once the half-cycle is `min_half_ticks` old. -/
theorem Session.flips_apart (h : Session t₀ pid₀ n t pid) (hmin : 1 ≤ t₀.minCycles)
    (hone : t.halfTicks = 1) {later : List Int32} {u : RelayTuner} {pid₁ : PidPositional}
    (hlater : relayRun t pid later = some (u, pid₁)) (hflip : Flips u pid₁ meas) :
    t₀.minHalfTicks.toNat ≤ later.length + 1 := by
  obtain ⟨hpos, hle⟩ := h.run_halfTicks hmin (a := 1) (by rw [hone]; decide)
    (by rw [hone]; decide) later hlater
  obtain ⟨u', pid₂, hlater', hu⟩ := h.run hmin later
  cases hlater.symm.trans hlater'
  obtain ⟨out, u', pid₂, hstep, -, hages, -⟩ := hu.update hmin meas
  rcases (hages.of_flips hstep hflip).2 with hzero | hold
  · rw [hzero] at hpos
    exact absurd hpos (by decide)
  · rw [← hu.same.minHalfTicks, Nat.add_comm later.length 1]
    exact (UInt32.le_iff_toNat_le.mp hold).trans hle

end Session

end Kinetis.Pov
