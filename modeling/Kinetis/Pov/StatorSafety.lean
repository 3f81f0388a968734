import Kinetis.Pov.Stator
import Kinetis.Mavlink.Waiters

/-!
# Pov — the stator's motor stops

Over every interleaving of the stator's tasks the motor is off while the stator waits for the rotor
or has stopped for its silence, and a silent rotor is noticed by the next step of the state machine.

* `StatorInv` holds in every state of every run, and no step of a run faults (`StatorInv.step`);
* `stator_stops_motor` is the resulting statement.
-/

namespace Kinetis.Pov
open Lib (Framer Run)
open Mavlink

variable {σ R : Type}

/-! ### What the command task does -/

section commands

variable (F : Framer σ R) (c : Codec R)

/-- The command task when no frame ends in what it receives. -/
theorem processMotorCommands_of_quiet {inp : CommandInput} {s : Stator σ}
    (h : F.reports s.mavlink.rx inp.chunk = []) :
    processMotorCommands F c inp s =
      { s with mavlink := { s.mavlink with rx := F.run s.mavlink.rx inp.chunk } } := by
  have hmav : (if inp.chunk = [] then s.mavlink
      else (s.mavlink.receiveAndProcess F c inp.chunk).2) =
        { s.mavlink with rx := F.run s.mavlink.rx inp.chunk } := by
    split
    · rename_i hnil
      rw [hnil]
      rfl
    · exact receiveBytes_of_quiet F c h
  rw [processMotorCommands, hmav]
  rw [if_neg (UInt32.lt_irrefl _), if_pos rfl]

/-- How the command task moves the state. -/
def CommandMoves (s s' : StatorState) : Prop :=
  s' = s ∨ s' = .enterBootloader ∨
    (s = .safeStop ∨ s = .waitRotor) ∧ (s' = .waitRotor ∨ s' = .active)

theorem dispatch_spec (inp : CommandInput) (s : Stator σ) (msg : R) :
    (s.dispatch c inp msg).motor = s.motor ∧ (s.dispatch c inp msg).pid = s.pid ∧
    (s.dispatch c inp msg).relayTuner = s.relayTuner ∧
    (s.dispatch c inp msg).lastRotorHeartbeatMs = s.lastRotorHeartbeatMs ∧
    ((s.dispatch c inp msg).state = s.state ∨ (s.dispatch c inp msg).state = .enterBootloader) := by
  unfold Stator.dispatch
  split
  · exact ⟨rfl, rfl, rfl, rfl, .inl rfl⟩
  · exact ⟨rfl, rfl, rfl, rfl, .inl rfl⟩
  · split
    · exact ⟨rfl, rfl, rfl, rfl, .inl rfl⟩
    · exact ⟨rfl, rfl, rfl, rfl, .inl rfl⟩
  · refine ⟨rfl, rfl, rfl, rfl, ?_⟩
    split
    · exact .inr rfl
    · exact .inl rfl
  · exact ⟨rfl, rfl, rfl, rfl, .inl rfl⟩

theorem linkAlive_moves (s : Stator σ) (inp : CommandInput) :
    (s.linkAlive inp).state = s.state ∨
      (s.state = .safeStop ∨ s.state = .waitRotor) ∧
        ((s.linkAlive inp).state = .waitRotor ∨ (s.linkAlive inp).state = .active) := by
  rw [Stator.linkAlive]
  by_cases hw : s.state = .safeStop ∨ s.state = .waitRotor
  · rw [if_pos hw]
    refine .inr ⟨hw, ?_⟩
    split
    · exact .inr rfl
    · exact .inl rfl
  · rw [if_neg hw, if_neg (fun h => hw (.inr h.1))]
    exact .inl rfl

/-- The command task leaves the motor, the controller and the tuner alone; it moves the state, and
where it does not record the time of a frame it does not start the motor either. -/
theorem processMotorCommands_spec (inp : CommandInput) (s : Stator σ) :
    (processMotorCommands F c inp s).motor = s.motor ∧
    (processMotorCommands F c inp s).pid = s.pid ∧
    (processMotorCommands F c inp s).relayTuner = s.relayTuner ∧
    CommandMoves s.state (processMotorCommands F c inp s).state ∧
    ((processMotorCommands F c inp s).lastRotorHeartbeatMs = inp.now ∨
      (processMotorCommands F c inp s).lastRotorHeartbeatMs = s.lastRotorHeartbeatMs ∧
      ((processMotorCommands F c inp s).state = .active → s.state = .active)) := by
  rw [processMotorCommands]
  generalize (if inp.chunk = [] then s.mavlink
    else (s.mavlink.receiveAndProcess F c inp.chunk).2) = mav
  split
  · obtain ⟨hmotor, hpid, hrelay, hlast, hstate⟩ := dispatch_spec c inp
      (Stator.linkAlive { s with mavlink := mav } inp) (F.msg mav.rx)
    refine ⟨hmotor, hpid, hrelay, ?_, .inl hlast⟩
    rcases hstate with hsame | hboot
    · rw [hsame]
      rcases linkAlive_moves { s with mavlink := mav } inp with hs | hs
      · exact .inl hs
      · exact .inr (.inr hs)
    · exact .inr (.inl hboot)
  · split
    · exact ⟨rfl, rfl, rfl, .inl rfl, .inr ⟨rfl, id⟩⟩
    · obtain ⟨hmotor, hpid, hrelay, hlast, hstate⟩ := dispatch_spec c inp
        { s with mavlink := mav } (F.msg mav.rx)
      refine ⟨hmotor, hpid, hrelay, hstate.imp_right .inl, .inr ⟨hlast, fun hact => ?_⟩⟩
      rcases hstate with hsame | hboot
      · exact hsame.symm.trans hact
      · exact absurd (hboot.symm.trans hact) StatorState.noConfusion

end commands

/-! ### The invariant -/

/-- A tuner that runs is in a session. -/
structure RelayOk (t : RelayTuner) (pid : PidPositional) : Prop where
  attached : t.attached = true
  cycles   : 1 ≤ t.minCycles
  session  : t.state = .running → ∃ t₀ pid₀ n, Session t₀ pid₀ n t pid ∧ 1 ≤ t₀.minCycles

/-- **The invariant.**  The motor is off while the rotor is awaited, and the tuning is over by
then. -/
structure StatorInv (s : Stator σ) : Prop where
  stopped : s.state = .safeStop ∨ s.state = .waitRotor → s.motor.pwmDuty = 0
  tuned   : s.state = .safeStop ∨ s.state = .waitRotor ∨ s.state = .active →
    s.relayTuner.state ≠ .running
  relay   : RelayOk s.relayTuner s.pid

theorem StatorInv.alloc (rx : σ) (now : UInt64) : StatorInv (povStatorAlloc rx now) where
  stopped := fun _ => rfl
  tuned   := fun _ => RelayState.noConfusion
  relay   := ⟨rfl, (by decide : 1 ≤ SLAVE_PID_RELAY_CYCLES), RelayState.noConfusion⟩

section step

variable {s : Stator σ}

variable {t : RelayTuner} {pid : PidPositional}

/-- A tuner that does not run allows any controller. -/
theorem RelayOk.of_not_running {pid' : PidPositional} (h : RelayOk t pid)
    (hno : t.state ≠ .running) : RelayOk t pid' :=
  ⟨h.attached, h.cycles, fun hrun => absurd hrun hno⟩

theorem RelayOk.start (h : RelayOk t pid) : RelayOk (pidRelayStart t pid) pid := by
  have hs : Session (pidRelayStart t pid) pid 0 (pidRelayStart t pid) pid := session_start h.attached
  have hmin : 1 ≤ (pidRelayStart t pid).minCycles := by
    rw [pidRelayStart, if_pos h.attached]
    exact h.cycles
  refine ⟨?_, hmin, fun _ => ⟨_, _, _, hs, hmin⟩⟩
  rw [pidRelayStart, if_pos h.attached]
  exact h.attached

/-- **Tuning**: an update of the running tuner does not fault. -/
theorem RelayOk.update (h : RelayOk t pid) (hrun : t.state = .running) (meas : Int32) :
    ∃ out t' pid', pidRelayUpdate t pid meas = some (out, t', pid') ∧ RelayOk t' pid' := by
  obtain ⟨t₀, pid₀, n, hs, hmin⟩ := h.session hrun
  obtain ⟨out, t', pid', heq, hs', -, -⟩ := hs.update hmin meas
  refine ⟨out, t', pid', heq, ?_, ?_, fun _ => ⟨t₀, pid₀, _, hs', hmin⟩⟩
  · rw [hs'.same.attached, ← hs.same.attached]
    exact h.attached
  · rw [hs'.same.minCycles]
    exact hmin

theorem StatorInv.tuneMotor (h : StatorInv s) (hstate : s.state = .tuningMotor) :
    StatorInv (tuneMotor s) := by
  have hidle : ∀ s' : Stator σ, s'.state = .tuningMotor →
      RelayOk s'.relayTuner s'.pid → StatorInv s' := by
    intro s' hs' hr
    refine ⟨fun hw => ?_, fun hw => ?_, hr⟩
    · rw [hs'] at hw
      rcases hw with hw | hw
      · cases hw
      · cases hw
    · rw [hs'] at hw
      rcases hw with hw | hw | hw
      · cases hw
      · cases hw
      · cases hw
  unfold Pov.tuneMotor
  split
  · dsimp only
    split
    · split
      · exact hidle _ hstate h.relay.start
      · exact hidle _ hstate h.relay
    · exact hidle _ hstate h.relay
  · exact h
  all_goals
    rename_i hend
    have hno : s.relayTuner.state ≠ .running := by
      rw [hend]
      exact RelayState.noConfusion
    exact ⟨fun _ => rfl, fun _ => hno, h.relay.of_not_running hno⟩

theorem StatorInv.fsm (h : StatorInv s) (now : UInt64) : StatorInv (povStatorFsm now s) := by
  unfold povStatorFsm
  split
  · refine ⟨fun _ => rfl, fun hw => ?_, h.relay⟩
    rcases hw with hw | hw | hw
    · cases hw
    · cases hw
    · cases hw
  · rename_i hstate
    exact StatorInv.tuneMotor (s := s.setTargetSpeed _) ⟨h.stopped, h.tuned, h.relay⟩ hstate
  · rename_i hstate
    split
    · have hno := h.tuned (.inr (.inr hstate))
      exact ⟨fun _ => rfl, fun _ => hno, h.relay.of_not_running hno⟩
    · exact h
  · exact h
  · exact h
  · exact ⟨fun _ => rfl, h.tuned, h.relay⟩

theorem StatorInv.control (h : StatorInv s) : ∃ s', controlMotor s = some s' ∧ StatorInv s' := by
  rw [controlMotor]
  by_cases hoff : s.state ≠ .tuningMotor ∧ s.state ≠ .active
  · rw [if_pos hoff]
    exact ⟨s, rfl, h⟩
  · rw [if_neg hoff]
    -- the motor is driven in no state in which it has to be off
    have hon : ¬ (s.state = .safeStop ∨ s.state = .waitRotor) := by
      rintro (hs | hs)
      · exact hoff (by rw [hs]; decide)
      · exact hoff (by rw [hs]; decide)
    by_cases hrun : s.state = .tuningMotor ∧ s.relayTuner.state = .running
    · obtain ⟨out, t', pid', heq, hr⟩ := h.relay.update hrun.2 s.motor.measuredRpm
      rw [if_pos hrun, heq]
      refine ⟨_, rfl, fun hw => absurd hw hon, fun hw => ?_, hr⟩
      rcases hw with hw | hw | hw
      · exact absurd (.inl hw) hon
      · exact absurd (.inr hw) hon
      · exact absurd (hrun.1.symm.trans hw) (by decide)
    · rw [if_neg hrun]
      have hno : s.relayTuner.state ≠ .running := by
        by_cases hact : s.state = .active
        · exact h.tuned (.inr (.inr hact))
        · exact fun hr => hrun ⟨Decidable.byContradiction fun ht => hoff ⟨ht, hact⟩, hr⟩
      exact ⟨_, rfl, fun hw => absurd hw hon, fun _ => hno, h.relay.of_not_running hno⟩

theorem StatorInv.commands (h : StatorInv s) (F : Framer σ R) (c : Codec R) (inp : CommandInput) :
    StatorInv (processMotorCommands F c inp s) := by
  obtain ⟨hmotor, hpid, hrelay, hmoves, -⟩ := processMotorCommands_spec F c inp s
  refine ⟨?_, ?_, hrelay ▸ hpid ▸ h.relay⟩
  · intro hw
    rw [hmotor]
    rcases hmoves with hsame | hboot | ⟨hfrom, -⟩
    · rw [hsame] at hw
      exact h.stopped hw
    · rw [hboot] at hw
      rcases hw with hw | hw
      · cases hw
      · cases hw
    · exact h.stopped hfrom
  · intro hw
    rw [hrelay]
    rcases hmoves with hsame | hboot | ⟨hfrom, -⟩
    · rw [hsame] at hw
      exact h.tuned hw
    · rw [hboot] at hw
      rcases hw with hw | hw | hw
      · cases hw
      · cases hw
      · cases hw
    · exact h.tuned (hfrom.imp_right .inl)

/-- **One step** of any task: it does not fault, and keeps the invariant. -/
theorem StatorInv.step (h : StatorInv s) (F : Framer σ R) (c : Codec R) (turn : StatorTurn) :
    ∃ s', statorStep F c s turn = some s' ∧ StatorInv s' := by
  cases turn with
  | fsm now => exact ⟨_, rfl, h.fsm now⟩
  | control => exact h.control
  | commands inp => exact ⟨_, rfl, h.commands F c inp⟩
  | heartbeat => exact ⟨_, rfl, h.stopped, h.tuned, h.relay⟩
  | sense rpm status => exact ⟨_, rfl, h.stopped, h.tuned, h.relay⟩

end step

/-! ### Runs -/

section runs

variable (F : Framer σ R) (c : Codec R)

/-- The step of a run; a fault would end it. -/
def statorNext (s : Stator σ) (turn : StatorTurn) : Stator σ := (statorStep F c s turn).getD s

/-- No frame ends in what the command task receives. -/
def Quiet (s : Stator σ) : StatorTurn → Prop
  | .commands inp => F.reports s.mavlink.rx inp.chunk = []
  | _ => True

/-- When a frame was received in a turn, if one was. -/
def frameTime (s : Stator σ) : StatorTurn → List UInt64
  | .commands inp => if (F.reports s.mavlink.rx inp.chunk).isEmpty then [] else [inp.now]
  | _ => []

/-- When frames were received in a run. -/
def frameTimes : Stator σ → List StatorTurn → List UInt64
  | _, [] => []
  | s, turn :: turns => frameTime F s turn ++ frameTimes (statorNext F c s turn) turns

theorem StatorInv.next {s : Stator σ} (h : StatorInv s) (turn : StatorTurn) :
    StatorInv (statorNext F c s turn) := by
  obtain ⟨s', hs', hinv⟩ := h.step F c turn
  rw [statorNext, hs']
  exact hinv

theorem StatorInv.run {s : Stator σ} (h : StatorInv s) (turns : List StatorTurn) :
    StatorInv (turns.foldl (statorNext F c) s) :=
  Run.foldl_invariant (fun _ turn hs => hs.next F c turn) turns h

/-- While the motor is driven, the record of the last frame is the time of a frame. -/
def Recorded (s : Stator σ) (times : List UInt64) : Prop :=
  s.state = .active → s.lastRotorHeartbeatMs ∈ times

theorem tuneMotor_state (s : Stator σ) :
    (tuneMotor s).state = s.state ∨ (tuneMotor s).state = .waitRotor := by
  unfold tuneMotor
  split
  · dsimp only
    split
    · split
      · exact .inl rfl
      · exact .inl rfl
    · exact .inl rfl
  · exact .inl rfl
  · exact .inr rfl
  · exact .inr rfl

variable {now : UInt64}

/-- The state machine never starts the motor. -/
theorem povStatorFsm_active {s : Stator σ} (h : (povStatorFsm now s).state = .active) :
    povStatorFsm now s = s := by
  unfold povStatorFsm at h ⊢
  split at h
  · exact StatorState.noConfusion h
  · rename_i hstate
    rcases tuneMotor_state (s.setTargetSpeed POV_TARGET_RPM) with hs | hs
    · exact absurd (hs.symm.trans h) (by rw [Stator.setTargetSpeed, hstate]; decide)
    · exact absurd (hs.symm.trans h) (by decide)
  · split at h
    · exact StatorState.noConfusion h
    · rename_i hstate hfresh
      rw [if_neg hfresh]
  · rfl
  · rfl
  · rename_i hstate
    exact absurd (hstate.symm.trans h) (by decide)

theorem controlMotor_keeps {s s' : Stator σ} (h : controlMotor s = some s') :
    s'.state = s.state ∧ s'.lastRotorHeartbeatMs = s.lastRotorHeartbeatMs := by
  unfold controlMotor at h
  split at h
  · cases h
    exact ⟨rfl, rfl⟩
  · split at h
    · obtain ⟨r, -, rfl⟩ := Option.map_eq_some_iff.mp h
      exact ⟨rfl, rfl⟩
    · cases h
      exact ⟨rfl, rfl⟩

theorem Recorded.alloc (rx : σ) (now : UInt64) : Recorded (povStatorAlloc rx now) [] :=
  StatorState.noConfusion

variable {times : List UInt64}

/-- One turn, and the frame it received. -/
theorem Recorded.next {s : Stator σ} (h : Recorded s times) (turn : StatorTurn) :
    Recorded (statorNext F c s turn) (times ++ frameTime F s turn) := by
  intro hact
  cases turn with
  | fsm now =>
    have hsame : statorNext F c s (.fsm now) = s := povStatorFsm_active hact
    rw [hsame] at hact ⊢
    exact List.mem_append_left _ (h hact)
  | control =>
    rw [statorNext, statorStep] at hact ⊢
    cases hctl : controlMotor s with
    | none =>
      rw [hctl] at hact
      exact List.mem_append_left _ (h hact)
    | some s' =>
      obtain ⟨hstate, hlast⟩ := controlMotor_keeps hctl
      rw [hctl] at hact
      rw [Option.getD_some] at hact ⊢
      rw [hlast]
      exact List.mem_append_left _ (h (hstate.symm.trans hact))
  | commands inp =>
    obtain ⟨-, -, -, -, hrec⟩ := processMotorCommands_spec F c inp s
    by_cases hquiet : F.reports s.mavlink.rx inp.chunk = []
    · have hnext : statorNext F c s (.commands inp) = _ :=
        processMotorCommands_of_quiet F c hquiet
      rw [hnext] at hact ⊢
      exact List.mem_append_left _ (h hact)
    · rcases hrec with hnow | ⟨hlast, hfrom⟩
      · refine List.mem_append_right _ ?_
        rw [frameTime, if_neg (fun he => hquiet (List.isEmpty_iff.mp he))]
        exact List.mem_singleton.mpr hnow
      · exact List.mem_append_left _ (hlast ▸ h (hfrom hact))
  | heartbeat => exact List.mem_append_left _ (h hact)
  | sense rpm status => exact List.mem_append_left _ (h hact)

theorem Recorded.run {s : Stator σ} (h : Recorded s times) (turns : List StatorTurn) :
    Recorded (turns.foldl (statorNext F c) s) (times ++ frameTimes F c s turns) := by
  induction turns generalizing s times with
  | nil =>
    rw [frameTimes, List.append_nil]
    exact h
  | cons turn turns ih =>
    rw [frameTimes, ← List.append_assoc]
    exact ih (h.next F c turn)

/-! ### The stop -/

/-- The state after the stop. -/
def Stopped (s : Stator σ) : Prop := s.state = .safeStop ∧ s.motor.pwmDuty = 0

/-- **One quiet turn** leaves the motor stopped. -/
theorem Stopped.next {s : Stator σ} (h : Stopped s) {turn : StatorTurn} (hq : Quiet F s turn) :
    Stopped (statorNext F c s turn) := by
  obtain ⟨hstate, hpwm⟩ := h
  cases turn with
  | fsm now =>
    have hsame : statorNext F c s (.fsm now) = s := by
      rw [statorNext, statorStep, povStatorFsm, hstate]
      rfl
    rw [hsame]
    exact ⟨hstate, hpwm⟩
  | control =>
    have hoff : s.state ≠ .tuningMotor ∧ s.state ≠ .active := by
      rw [hstate]
      decide
    have hsame : statorNext F c s .control = s := by
      rw [statorNext, statorStep, controlMotor, if_pos hoff]
      rfl
    rw [hsame]
    exact ⟨hstate, hpwm⟩
  | commands inp =>
    have hnext : statorNext F c s (.commands inp) = _ := processMotorCommands_of_quiet F c hq
    rw [hnext]
    exact ⟨hstate, hpwm⟩
  | heartbeat => exact ⟨hstate, hpwm⟩
  | sense rpm status => exact ⟨hstate, hpwm⟩

/-- The state machine stops the motor once the record is old. -/
theorem povStatorFsm_stops {s : Stator σ} (hact : s.state = .active)
    (hpaused : s.rotorHeartbeatPaused = false)
    (hold : s.lastRotorHeartbeatMs.toNat + 2 * POV_HEARTBEAT_INTERVAL_MS.toNat < now.toNat) :
    povStatorFsm now s = safeStop s := by
  have hlate : now - s.lastRotorHeartbeatMs > POV_HEARTBEAT_INTERVAL_MS * 2 := by
    have hI : POV_HEARTBEAT_INTERVAL_MS.toNat = 5000 := rfl
    have hI' : (POV_HEARTBEAT_INTERVAL_MS * 2).toNat = 10000 := rfl
    have hle : s.lastRotorHeartbeatMs ≤ now := UInt64.le_iff_toNat_le.mpr (by omega)
    rw [gt_iff_lt, UInt64.lt_iff_toNat_lt, UInt64.toNat_sub_of_le _ _ hle, hI']
    omega
  rw [povStatorFsm, hact]
  rw [hpaused, if_pos ⟨rfl, hlate⟩]

/-- **The motor stops.**  In every state of every run each task can take its turn; in `SAFE_STOP`
and `WAIT_ROTOR` the duty is 0; in `ACTIVE` the record of the last rotor frame is the time of a
frame, and when it is older than two intervals and heartbeats are not paused, the next step of the
state machine sets the duty and the target speed to 0, and the duty stays 0 until another frame is
received. -/
theorem stator_stops_motor (rx : σ) (now₀ : UInt64) (turns : List StatorTurn) :
    let s := turns.foldl (statorNext F c) (povStatorAlloc rx now₀)
    (∀ turn, (statorStep F c s turn).isSome) ∧
    (s.state = .safeStop ∨ s.state = .waitRotor → s.motor.pwmDuty = 0) ∧
    (s.state = .active →
      s.lastRotorHeartbeatMs ∈ frameTimes F c (povStatorAlloc rx now₀) turns) ∧
    ∀ now : UInt64, s.state = .active → s.rotorHeartbeatPaused = false →
      s.lastRotorHeartbeatMs.toNat + 2 * POV_HEARTBEAT_INTERVAL_MS.toNat < now.toNat →
      (povStatorFsm now s).motor.pwmDuty = 0 ∧ (povStatorFsm now s).targetSpeed = 0 ∧
      ∀ s', Run (Quiet F) (statorNext F c) (povStatorFsm now s) s' → s'.motor.pwmDuty = 0 := by
  intro s
  have hinv : StatorInv s := (StatorInv.alloc rx now₀).run F c turns
  have hrec := (Recorded.alloc rx now₀).run F c turns
  refine ⟨fun turn => ?_, hinv.stopped, hrec, fun now hact hpaused hold => ?_⟩
  · obtain ⟨s', hs', -⟩ := hinv.step F c turn
    rw [hs']
    rfl
  · rw [povStatorFsm_stops hact hpaused hold]
    refine ⟨rfl, rfl, fun s' hrun => ?_⟩
    exact (hrun.invariant (P := Stopped) (fun _ _ hs hq => hs.next F c hq) ⟨rfl, rfl⟩).2

end runs

/-- Half a period of the motor's swing while it is tuned. -/
def swing (rpm : Int32) : List StatorTurn := .sense rpm 0 :: List.replicate 21 .control

/-- From power-up through the tuning to the first frame of the rotor. -/
def powerUp : List StatorTurn :=
  [.fsm 0, .sense POV_TARGET_RPM 0] ++ List.replicate 50 (.fsm 0) ++
    (List.replicate 6 (swing 1000 ++ swing 800)).flatten ++
    [.fsm 0, .commands ⟨[1], 5, 5, true, 0⟩, .control]

/-- The stator then. -/
def poweredUp : Stator UInt8 := powerUp.foldl (statorNext byteFramer byteCodec) (povStatorAlloc 1 0)

theorem stator_stops_motor_power_up :
    (poweredUp.state = .active ∧ poweredUp.rotorHeartbeatPaused = false ∧
      poweredUp.lastRotorHeartbeatMs.toNat + 2 * POV_HEARTBEAT_INTERVAL_MS.toNat < 10006) ∧
    (povStatorFsm 10006 poweredUp).motor.pwmDuty = 0 ∧
    (povStatorFsm 10006 poweredUp).targetSpeed = 0 := by
  have hs : poweredUp.state = .active ∧ poweredUp.rotorHeartbeatPaused = false ∧
      poweredUp.lastRotorHeartbeatMs.toNat + 2 * POV_HEARTBEAT_INTERVAL_MS.toNat < 10006 := by
    decide +kernel
  have hstop := (stator_stops_motor byteFramer byteCodec 1 0 powerUp).2.2.2 10006
  rw [← poweredUp] at hstop
  obtain ⟨hduty, hspeed, -⟩ := hstop hs.1 hs.2.1 hs.2.2
  exact ⟨hs, hduty, hspeed⟩

end Kinetis.Pov
