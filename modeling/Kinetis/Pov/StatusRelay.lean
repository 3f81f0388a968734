import Kinetis.Pov.StatorSafety
import Mathlib.Data.List.Forall2

/-!
# Pov — the motor's status on its way to the phone

A phone asks the rotor for the motor's status, the rotor asks the stator, and passes on what it
has stored of the answer.  The direction changes its representation on the way: the motor has 1 and
0, the wire 1 for forward and 2 for reverse, and the devices a signed number.

* `Driven`: over every run the motor's direction is the sign of the last output that the control
  task has applied;
* `phoneStatusQuery_iff`: when the wait of the rotor ends with the answer, and what it then sends;
* `status_relay_iff`: the phone gets the speed, the status and the direction exactly when the last
  output was not negative, and the wait ends with the answer at all.
-/

namespace Kinetis.Pov
open Lib (Framer)
open Mavlink

variable {σ R : Type}

/-! ### The last output -/

/-- The output that `control_motor` applies. -/
def controlOutput (s : Stator σ) : Option Int32 :=
  if s.state ≠ .tuningMotor ∧ s.state ≠ .active then none
  else if s.state = .tuningMotor ∧ s.relayTuner.state = .running then
    (pidRelayUpdate s.relayTuner s.pid s.motor.measuredRpm).map Prod.fst
  else some (pidPositionalUpdate s.pid s.targetSpeed s.motor.measuredRpm 10).1

def turnOutput (s : Stator σ) : StatorTurn → Option Int32
  | .control => controlOutput s
  | _ => none

/-- The last output that `control_motor` has applied in a run, if it has applied one. -/
def lastOutput (F : Framer σ R) (c : Codec R) : Stator σ → List StatorTurn → Option Int32
  | _, [] => none
  | s, turn :: turns => (lastOutput F c (statorNext F c s turn) turns).or (turnOutput s turn)

variable {s' : Stator σ}

theorem controlMotor_motor {s : Stator σ} (h : controlMotor s = some s') :
    s'.motor = ((controlOutput s).map (driveMotor s.motor)).getD s.motor := by
  unfold controlMotor at h
  unfold controlOutput
  split at h
  · rename_i hoff
    cases h
    rw [if_pos hoff]
    rfl
  · rename_i hon
    rw [if_neg hon]
    split at h
    · rename_i hrun
      obtain ⟨r, hr, rfl⟩ := Option.map_eq_some_iff.mp h
      rw [if_pos hrun, hr]
      rfl
    · rename_i hrun
      cases h
      rw [if_neg hrun]
      rfl

/-- A fault of the control task applies nothing. -/
theorem controlOutput_of_fault {s : Stator σ} (h : controlMotor s = none) :
    controlOutput s = none := by
  unfold controlMotor at h
  unfold controlOutput
  split at h
  · cases h
  · rename_i hon
    rw [if_neg hon]
    split at h
    · rename_i hrun
      rw [if_pos hrun, Option.map_eq_none_iff.mp h]
      rfl
    · cases h

/-- `direction` of the motor after an output. -/
def outputDirection (out : Int32) : UInt8 := if out ≥ 0 then 1 else 0

theorem driveMotor_direction (motor : MotorController) (out : Int32) :
    (driveMotor motor out).direction = outputDirection out := by
  rw [driveMotor, outputDirection]
  split
  · rfl
  · rfl

/-- The motor turns as the last output says; before the state machine has started there is none. -/
structure Driven (s : Stator σ) (last : Option Int32) : Prop where
  fresh     : s.state = .init → last = none
  direction : ∀ out, last = some out → s.motor.direction = outputDirection out

section driven

variable (F : Framer σ R) (c : Codec R) {s : Stator σ} {last : Option Int32}

/-- A turn that leaves the direction alone and does not go back to the start. -/
theorem Driven.keep (h : Driven s last) (hdir : s'.motor.direction = s.motor.direction)
    (hstate : s'.state = .init → s.state = .init) : Driven s' last :=
  ⟨fun hinit => h.fresh (hstate hinit), fun out hout => hdir.trans (h.direction out hout)⟩

theorem tuneMotor_direction (s : Stator σ) :
    (tuneMotor s).motor.direction = s.motor.direction := by
  unfold tuneMotor
  split
  · dsimp only
    split
    · split
      · rfl
      · rfl
    · rfl
  all_goals rfl

theorem Driven.fsm (h : Driven s last) (now : UInt64) : Driven (povStatorFsm now s) last := by
  unfold povStatorFsm
  split
  · -- the only step that sets the direction: nothing was applied before it
    rename_i hinit
    refine ⟨fun hback => StatorState.noConfusion hback, fun out hout => ?_⟩
    rw [h.fresh hinit] at hout
    cases hout
  · rename_i htuning
    refine h.keep (tuneMotor_direction _) (fun hinit => ?_)
    rcases tuneMotor_state (s.setTargetSpeed POV_TARGET_RPM) with hs | hs
    · exact hs.symm.trans hinit
    · exact StatorState.noConfusion (hs.symm.trans hinit)
  · split
    · exact h.keep rfl (fun hinit => StatorState.noConfusion hinit)
    · exact h
  · exact h
  · exact h
  · exact h.keep rfl id

theorem Driven.control (h : Driven s last) :
    Driven ((controlMotor s).getD s) ((controlOutput s).or last) := by
  cases hctl : controlMotor s with
  | none =>
    rw [controlOutput_of_fault hctl]
    exact h
  | some s' =>
    have hmotor := controlMotor_motor hctl
    have hstate := (controlMotor_keeps hctl).1
    cases hout : controlOutput s with
    | none =>
      rw [hout] at hmotor
      exact h.keep (congrArg MotorController.direction hmotor) hstate.symm.trans
    | some out =>
      rw [hout] at hmotor
      refine ⟨fun hinit => ?_, fun out' hsome => ?_⟩
      · -- nothing is applied at the start
        have hoff : controlOutput s = none := by
          rw [controlOutput, if_pos]
          rw [hstate.symm.trans hinit]
          decide
        exact absurd (hoff.symm.trans hout) (Option.some_ne_none _).symm
      · cases hsome
        exact (congrArg MotorController.direction hmotor).trans (driveMotor_direction _ _)

theorem Driven.commands (h : Driven s last) (inp : CommandInput) :
    Driven (processMotorCommands F c inp s) last := by
  obtain ⟨hmotor, -, -, hmoves, -⟩ := processMotorCommands_spec F c inp s
  refine h.keep (congrArg MotorController.direction hmotor) (fun hinit => ?_)
  rcases hmoves with hsame | hboot | ⟨-, hw | ha⟩
  · exact hsame.symm.trans hinit
  · exact StatorState.noConfusion (hboot.symm.trans hinit)
  · exact StatorState.noConfusion (hw.symm.trans hinit)
  · exact StatorState.noConfusion (ha.symm.trans hinit)

/-- **One turn**, and the output it applies. -/
theorem Driven.next (h : Driven s last) (turn : StatorTurn) :
    Driven (statorNext F c s turn) ((turnOutput s turn).or last) := by
  cases turn with
  | fsm now => exact h.fsm now
  | control => exact h.control
  | commands inp => exact h.commands F c inp
  | heartbeat => exact h.keep rfl id
  | sense rpm status => exact h.keep rfl id

theorem Driven.run (h : Driven s last) (turns : List StatorTurn) :
    Driven (turns.foldl (statorNext F c) s) ((lastOutput F c s turns).or last) := by
  induction turns generalizing s last with
  | nil => exact h
  | cons turn turns ih =>
    rw [lastOutput, Option.or_assoc]
    exact ih (h.next F c turn)

theorem Driven.alloc (rx : σ) (now : UInt64) : Driven (povStatorAlloc rx now) none :=
  ⟨fun _ => rfl, fun _ hout => absurd hout.symm (Option.some_ne_none _)⟩

end driven

/-! ### What the stator answers -/

/-- `msg` is what a device sends as `sent`. -/
def Carries (c : Codec R) (msg : R) : Mavlink.Sent → Prop
  | .motorControl payload => c.msgid msg = .motorControl ∧ c.motorControl msg = payload
  | .motorStatusQuery motorId => c.msgid msg = .motorStatusQuery ∧ c.motorStatusQuery msg = motorId
  | .motorStatus payload => c.msgid msg = .motorStatus ∧ c.motorStatus msg = payload
  | .motorAck payload => c.msgid msg = .motorAck ∧ c.motorAck msg = payload
  | .systemHeartbeat payload => c.msgid msg = .systemHeartbeat ∧ c.systemHeartbeat msg = payload
  | .fileTransferStart payload =>
    c.msgid msg = .fileTransferStart ∧ c.fileTransferStart msg = payload
  | .bootloaderUpdateCmd payload =>
    c.msgid msg = .bootloaderUpdateCmd ∧ c.bootloaderUpdateCmd msg = payload
  | .bootloaderAck payload => c.msgid msg = .bootloaderAck ∧ c.bootloaderAck msg = payload

variable {m : R}

section receive

variable (F : Framer σ R) (c : Codec R)

theorem receiveBytes_rxCount (last : Option MsgId) (d : Device σ) (bytes : List UInt8) :
    (d.receiveBytes F c last bytes).2.rxCount =
      d.rxCount + UInt32.ofNat (F.reports d.rx bytes).length := by
  induction bytes generalizing last d with
  | nil => exact (UInt32.add_zero _).symm
  | cons b bytes ih =>
    rw [Device.receiveBytes, ih, receiveByte_rx, Framer.reports, Device.receiveByte]
    split
    · rw [onMessage_rxCount, List.length_cons, UInt32.ofNat_add, UInt32.add_assoc,
        UInt32.add_comm 1]
      rfl
    · rfl

/-- Of all messages of a receive the last has the last word on the motors. -/
theorem receiveBytes_motors (last : Option MsgId) {d : Device σ} {bytes : List UInt8}
    (h : (F.reports d.rx bytes).getLast? = some m) :
    ∃ d' : Device σ, (d.receiveBytes F c last bytes).2.motors = (d'.onMessage c m).motors := by
  induction bytes generalizing last d with
  | nil => cases h
  | cons b bytes ih =>
    rw [Framer.reports] at h
    rw [Device.receiveBytes]
    cases hrest : (F.reports (F.feed d.rx b).1 bytes).getLast? with
    | some m' =>
      have hm : m' = m := by
        split at h
        · rw [List.getLast?_cons, hrest] at h
          exact Option.some.inj h
        · exact Option.some.inj (hrest.symm.trans h)
      refine ih _ ?_
      rw [receiveByte_rx, hrest, hm]
    | none =>
      have hquiet := List.getLast?_eq_none_iff.mp hrest
      split at h
      · rename_i hend
        rw [hquiet] at h
        cases h
        rw [receiveBytes_of_quiet F c (by rw [receiveByte_rx]; exact hquiet),
          Device.receiveByte, if_pos hend]
        exact ⟨_, rfl⟩
      · rw [hrest] at h
        cases h

/-- What a receive itself sends are acknowledgements of update commands. -/
theorem receiveBytes_outbox (last : Option MsgId) (d : Device σ) (bytes : List UInt8) :
    ∃ acks : List BootloaderAck,
      (d.receiveBytes F c last bytes).2.outbox = d.outbox ++ acks.map .bootloaderAck := by
  induction bytes generalizing last d with
  | nil => exact ⟨[], (List.append_nil _).symm⟩
  | cons b bytes ih =>
    obtain ⟨acks, hacks⟩ := ih (d.receiveByte F c last b).1 (d.receiveByte F c last b).2
    rw [Device.receiveBytes, hacks, Device.receiveByte]
    split
    · rcases onMessage_outbox c { d with rx := (F.feed d.rx b).1, rxCount := d.rxCount + 1 }
        (F.msg (F.feed d.rx b).1) with hsame | ⟨ack, hack⟩
      · exact ⟨acks, congrArg (· ++ acks.map Mavlink.Sent.bootloaderAck) hsame⟩
      · refine ⟨ack :: acks, ?_⟩
        rw [hack, List.append_assoc]
        rfl
    · exact ⟨acks, rfl⟩

end receive

/-- The rotor's query is the message that the command task finds after its receive. -/
structure Asked (F : Framer σ R) (c : Codec R) (s : Stator σ) (inp : CommandInput) : Prop where
  query   : Carries c (F.msg (F.run s.mavlink.rx inp.chunk)) (.motorStatusQuery 0)
  /-- `rx_count` shows that something was received. -/
  counted : UInt32.ofNat (F.reports s.mavlink.rx inp.chunk).length ≠ 0

/-- What the stator sends in a turn of the command task. -/
def answers (F : Framer σ R) (c : Codec R) (s : Stator σ) (inp : CommandInput) : List Mavlink.Sent :=
  (processMotorCommands F c inp s).mavlink.outbox.drop s.mavlink.outbox.length

section answer

variable {F : Framer σ R} {c : Codec R} {s : Stator σ} {inp : CommandInput}

theorem dispatch_query {s : Stator σ} {msg : R} (h : Carries c msg (.motorStatusQuery 0)) :
    (s.dispatch c inp msg).mavlink.outbox =
      s.mavlink.outbox ++ [.motorStatus (motorStatusFor s 0 inp.rpm)] := by
  unfold Stator.dispatch
  rw [h.1]
  rw [h.2]
  rfl

/-- **The answer** to the query: the status of the motor as it is, after acknowledgements of other
commands at most. -/
theorem Asked.answers (h : Asked F c s inp) :
    ∃ acks : List BootloaderAck, answers F c s inp =
      acks.map .bootloaderAck ++ [.motorStatus (motorStatusFor s 0 inp.rpm)] := by
  have hchunk : inp.chunk ≠ [] := by
    intro hnil
    refine h.counted ?_
    rw [hnil]
    rfl
  have hrx : (s.mavlink.receiveAndProcess F c inp.chunk).2.rx = F.run s.mavlink.rx inp.chunk :=
    (receiveAndProcess_spec F c s.mavlink inp.chunk).1
  have hcount : (s.mavlink.receiveAndProcess F c inp.chunk).2.rxCount ≠ s.mavlink.rxCount := by
    rw [Device.receiveAndProcess, receiveBytes_rxCount]
    intro heq
    exact h.counted (UInt32.add_eq_left.mp heq)
  obtain ⟨acks, hacks⟩ := receiveBytes_outbox F c none s.mavlink inp.chunk
  refine ⟨acks, ?_⟩
  have hquery := h.query
  rw [← hrx] at hquery
  have hdispatch : ∀ s' : Stator σ, s'.motor = s.motor →
      s'.mavlink = (s.mavlink.receiveAndProcess F c inp.chunk).2 →
      (s'.dispatch c inp (F.msg (s.mavlink.receiveAndProcess F c inp.chunk).2.rx)).mavlink.outbox.drop
          s.mavlink.outbox.length =
        acks.map .bootloaderAck ++ [.motorStatus (motorStatusFor s 0 inp.rpm)] := by
    intro s' hmotor hmav
    rw [dispatch_query hquery, hmav, Device.receiveAndProcess, hacks, List.append_assoc,
      List.drop_left, motorStatusFor, hmotor]
    rfl
  rw [Pov.answers, processMotorCommands, if_neg hchunk]
  -- the frame counter has moved, up or round: the message is dispatched either way
  by_cases hup : (s.mavlink.receiveAndProcess F c inp.chunk).2.rxCount > s.mavlink.rxCount
  · rw [if_pos hup]
    exact hdispatch _ rfl rfl
  · rw [if_neg hup, if_neg hcount]
    exact hdispatch _ rfl rfl

end answer

/-! ### The rotor's wait -/

/-- The device of `awaitReply` where the wait ends with the awaited message. -/
def awaitDevice (F : Framer σ R) (c : Codec R) (awaited : MsgId) (timeout : Nat) :
    Nat → List (List UInt8) → Device σ → Option (Device σ)
  | _, [], _ => none
  | elapsed, chunk :: rest, d =>
    if elapsed < timeout then
      if chunk = [] then awaitDevice F c awaited timeout ((elapsed + 10) % 2 ^ 32) rest d
      else if (d.receiveAndProcess F c chunk).1 = some awaited then
        some (d.receiveAndProcess F c chunk).2
      else
        awaitDevice F c awaited timeout ((elapsed + 10) % 2 ^ 32) rest
          (d.receiveAndProcess F c chunk).2
    else none

/-- `MOTOR_STATUS_QUERY` of `pov_check_phone_cmd`: what the phone is sent, if it is sent anything;
`chunks` are the receives from the stator. -/
def phoneStatusQuery (F : Framer σ R) (c : Codec R) (motorMav : Device σ)
    (chunks : List (List UInt8)) : Option MotorStatus :=
  if queryMotorStatus F c motorMav 0 500 chunks = some .ok then
    (awaitDevice F c .motorStatus 500 0 chunks (motorMav.send (.motorStatusQuery 0))).map fun d =>
      ⟨0, (d.motors 0).currentSpeed, dirToWire (d.motors 0).direction, (d.motors 0).status⟩
  else none

section wait

variable {F : Framer σ R} {c : Codec R} {awaited : MsgId} {timeout : Nat}

/-- The waiter decodes `rx_msg` of that device, and has no success without one. -/
theorem awaitReply_eq_awaitDevice (verdict : R → Status) (elapsed : Nat)
    (chunks : List (List UInt8)) (d : Device σ) :
    awaitReply F c awaited verdict timeout elapsed chunks d = some .ok ↔
      ∃ d', awaitDevice F c awaited timeout elapsed chunks d = some d' ∧
        verdict (F.msg d'.rx) = .ok := by
  induction chunks generalizing elapsed d with
  | nil =>
    rw [awaitReply, idleWait]
    refine iff_of_false ?_ (by rintro ⟨d', ⟨⟩, -⟩)
    split
    · rintro ⟨⟩
    · rintro ⟨⟩
  | cons chunk rest ih =>
    rw [awaitReply, awaitDevice]
    split
    · split
      · exact ih _ _
      · split
        · rw [Option.some_inj]
          constructor
          · intro h
            exact ⟨_, rfl, h⟩
          · rintro ⟨d', ⟨⟩, h⟩
            exact h
        · exact ih _ _
    · exact iff_of_false (by rintro ⟨⟩) (by rintro ⟨d', ⟨⟩, -⟩)

/-- The device after some receives. -/
def receives (F : Framer σ R) (c : Codec R) (d : Device σ) (chunks : List (List UInt8)) :
    Device σ := chunks.foldl (fun d chunk => (d.receiveAndProcess F c chunk).2) d

theorem receives_rx (d : Device σ) (chunks : List (List UInt8)) :
    (receives F c d chunks).rx = F.run d.rx chunks.flatten := by
  induction chunks generalizing d with
  | nil => rfl
  | cons chunk rest ih =>
    rw [List.flatten_cons, Framer.run_append, ← (receiveAndProcess_spec F c d chunk).1]
    exact ih _

/-- What a receive after `before` ends with. -/
def endsWith (F : Framer σ R) (s : σ) (before : List (List UInt8)) (chunk : List UInt8) :
    Option R := (F.reports (F.run s before.flatten) chunk).getLast?

theorem endsWith_cons (s : σ) (first : List UInt8) (before : List (List UInt8))
    (chunk : List UInt8) :
    endsWith F s (first :: before) chunk = endsWith F (F.run s first) before chunk := by
  rw [endsWith, List.flatten_cons, Framer.run_append, endsWith]

/-- **When the wait ends**: at the first receive whose last message is the awaited one, unless the
time is over before. -/
theorem awaitDevice_iff {elapsed : Nat} {chunks : List (List UInt8)} {d d' : Device σ}
    (ht : timeout + 10 ≤ 2 ^ 32) :
    awaitDevice F c awaited timeout elapsed chunks d = some d' ↔
      ∃ before chunk after, chunks = before ++ chunk :: after ∧
        elapsed + 10 * before.length < timeout ∧
        (∀ b x a, before = b ++ x :: a → (endsWith F d.rx b x).map c.msgid ≠ some awaited) ∧
        (endsWith F d.rx before chunk).map c.msgid = some awaited ∧
        d' = receives F c d (before ++ [chunk]) := by
  induction chunks generalizing elapsed d with
  | nil =>
    refine iff_of_false (by rintro ⟨⟩) ?_
    rintro ⟨before, chunk, after, hnil, -⟩
    exact absurd hnil.symm (List.append_ne_nil_of_right_ne_nil _ (List.cons_ne_nil _ _))
  | cons first rest ih =>
    have hspec := receiveAndProcess_spec F c d first
    have hlast : (endsWith F d.rx [] first).map c.msgid = (d.receiveAndProcess F c first).1 :=
      hspec.2.symm
    -- an empty receive is none, and ends with nothing
    have hstep : awaitDevice F c awaited timeout elapsed (first :: rest) d =
        if elapsed < timeout then
          if (d.receiveAndProcess F c first).1 = some awaited then
            some (d.receiveAndProcess F c first).2
          else awaitDevice F c awaited timeout ((elapsed + 10) % 2 ^ 32) rest
            (d.receiveAndProcess F c first).2
        else none := by
      rw [awaitDevice]
      by_cases hnil : first = []
      · rw [hnil]
        rfl
      · rw [if_neg hnil]
    rw [hstep]
    by_cases htime : elapsed < timeout
    · rw [if_pos htime]
      by_cases hhere : (d.receiveAndProcess F c first).1 = some awaited
      · rw [if_pos hhere]
        constructor
        · intro h
          refine ⟨[], first, rest, rfl, htime, fun b x a hb => ?_, hlast.trans hhere,
            (Option.some.inj h).symm⟩
          exact absurd hb.symm (List.append_ne_nil_of_right_ne_nil _ (List.cons_ne_nil _ _))
        · rintro ⟨before, chunk, after, hsplit, -, hearly, -, rfl⟩
          cases before with
          | nil =>
            obtain ⟨rfl, -⟩ := List.cons.inj hsplit
            rfl
          | cons x before =>
            obtain ⟨rfl, -⟩ := List.cons.inj hsplit
            exact absurd (hlast.trans hhere) (hearly [] first before rfl)
      · have hwrap : (elapsed + 10) % 2 ^ 32 = elapsed + 10 := Nat.mod_eq_of_lt (by omega)
        rw [if_neg hhere, ih, hspec.1]
        constructor
        · rintro ⟨before, chunk, after, rfl, htime', hearly, hends, rfl⟩
          refine ⟨first :: before, chunk, after, rfl, ?_, fun b x a hb => ?_, ?_, rfl⟩
          · rw [List.length_cons]
            omega
          · cases b with
            | nil =>
              obtain ⟨rfl, -⟩ := List.cons.inj hb
              rwa [hlast]
            | cons y b =>
              obtain ⟨rfl, hb'⟩ := List.cons.inj hb
              rw [endsWith_cons]
              exact hearly b x a hb'
          · rwa [endsWith_cons]
        · rintro ⟨before, chunk, after, hsplit, htime', hearly, hends, rfl⟩
          cases before with
          | nil =>
            obtain ⟨rfl, -⟩ := List.cons.inj hsplit
            exact absurd (hlast.symm.trans hends) hhere
          | cons x before =>
            obtain ⟨rfl, rfl⟩ := List.cons.inj hsplit
            rw [List.length_cons] at htime'
            rw [endsWith_cons] at hends
            refine ⟨before, chunk, after, rfl, by omega, fun b x a hb => ?_, hends, rfl⟩
            rw [← endsWith_cons]
            exact hearly (first :: b) x a (by rw [hb]; rfl)
    · rw [if_neg htime]
      refine iff_of_false (by rintro ⟨⟩) ?_
      rintro ⟨before, chunk, after, -, htime', -⟩
      omega

end wait

/-! ### The way back -/

/-- Nothing is lost on the way back: of the messages that the rotor's receives report, those sent
in the stator's turn are all there, and none of the others is a `MOTOR_STATUS`. -/
def Heard (F : Framer σ R) (c : Codec R) (d : Device σ) (chunks : List (List UInt8))
    (sent : List Mavlink.Sent) : Prop :=
  ∃ before wire after, F.reports d.rx chunks.flatten = before ++ wire ++ after ∧
    List.Forall₂ (Carries c) wire sent ∧ ∀ m ∈ before ++ after, c.msgid m ≠ .motorStatus

/-- The wait of 500 ms ends: one of its 50 receives ends with a `MOTOR_STATUS`, and `rx_msg` is one
of motor 0 then. -/
def Answered (F : Framer σ R) (c : Codec R) (d : Device σ) (chunks : List (List UInt8)) : Prop :=
  ∃ before chunk after, chunks = before ++ chunk :: after ∧ before.length < 50 ∧
    (endsWith F d.rx before chunk).map c.msgid = some .motorStatus ∧
    (c.motorStatus (F.msg (F.run d.rx (before ++ [chunk]).flatten))).motorId = 0

section back

variable {F : Framer σ R} {c : Codec R} {d : Device σ} {chunks : List (List UInt8)}

def isStatus (c : Codec R) (m : R) : Bool := c.msgid m = .motorStatus

variable {acks : List BootloaderAck} {chunk : List UInt8}

theorem carries_acks {wire : List R} (h : List.Forall₂ (Carries c) wire (acks.map .bootloaderAck)) :
    ∀ m ∈ wire, c.msgid m ≠ .motorStatus := by
  induction List.forall₂_map_right_iff.mp h with
  | nil =>
    intro m hm
    cases hm
  | cons hr _ ih =>
    intro m hm
    rcases List.mem_cons.mp hm with rfl | hm
    · rw [hr.1]
      exact MsgId.noConfusion
    · cases h with
      | cons _ hrest => exact ih hrest m hm

/-- The `MOTOR_STATUS` of the answer is the only one. -/
theorem Heard.only {payload : MotorStatus}
    (h : Heard F c d chunks (acks.map .bootloaderAck ++ [.motorStatus payload])) :
    ∃ reply, (F.reports d.rx chunks.flatten).filter (isStatus c) = [reply] ∧
      c.motorStatus reply = payload := by
  obtain ⟨before, wire, after, hreports, hwire, hothers⟩ := h
  have hnone : ∀ l : List R, (∀ m ∈ l, c.msgid m ≠ .motorStatus) → l.filter (isStatus c) = [] := by
    intro l hl
    refine List.filter_eq_nil_iff.mpr (fun m hm hs => hl m hm ?_)
    exact of_decide_eq_true hs
  have hfirst := List.forall₂_take_append _ _ _ hwire
  have hlast := List.forall₂_drop_append _ _ _ hwire
  obtain ⟨reply, hreply, hone⟩ : ∃ reply, Carries c reply (.motorStatus payload) ∧
      wire.drop (acks.map Mavlink.Sent.bootloaderAck).length = [reply] := by
    obtain ⟨reply, rest, hr, hnil, hdrop⟩ := List.forall₂_cons_right_iff.mp hlast
    rw [List.forall₂_nil_right_iff.mp hnil] at hdrop
    exact ⟨reply, hr, hdrop⟩
  refine ⟨reply, ?_, hreply.2⟩
  rw [hreports, ← List.take_append_drop (acks.map Mavlink.Sent.bootloaderAck).length wire, hone,
    List.filter_append, List.filter_append, List.filter_append,
    hnone before (fun m hm => hothers m (List.mem_append_left _ hm)),
    hnone after (fun m hm => hothers m (List.mem_append_right _ hm)),
    hnone _ (carries_acks hfirst), List.filter_cons, isStatus, if_pos (decide_eq_true hreply.1)]
  rfl

variable {reply : R} {before : List (List UInt8)}

/-- The receive that ends with it is the first one that ends with a `MOTOR_STATUS`. -/
theorem endsWith_only {after : List (List UInt8)}
    (honly : (F.reports d.rx (before ++ chunk :: after).flatten).filter (isStatus c) = [reply])
    (hends : endsWith F d.rx before chunk = some m) (hm : c.msgid m = .motorStatus) :
    m = reply ∧ ∀ m' ∈ F.reports d.rx before.flatten, c.msgid m' ≠ .motorStatus := by
  obtain ⟨init, hinit⟩ := List.getLast?_eq_some_iff.mp hends
  have hone : [m].filter (isStatus c) = [m] :=
    List.filter_eq_self.mpr (List.forall_mem_singleton.mpr (decide_eq_true hm))
  rw [List.flatten_append, List.flatten_cons, Framer.reports_append, Framer.reports_append, hinit,
    List.filter_append, List.filter_append, List.filter_append,
    hone] at honly
  have hlen := congrArg List.length honly
  simp only [List.length_append, List.length_cons, List.length_nil] at hlen
  have hbefore : (F.reports d.rx before.flatten).filter (isStatus c) = [] :=
    List.eq_nil_of_length_eq_zero (by omega)
  have hinitial : init.filter (isStatus c) = [] := List.eq_nil_of_length_eq_zero (by omega)
  rw [hbefore, hinitial] at honly
  refine ⟨(List.cons.inj honly).1, fun m' hm' hs => ?_⟩
  exact List.filter_eq_nil_iff.mp hbefore m' hm' (decide_eq_true hs)

/-- What a `MOTOR_STATUS` of motor 0 leaves at the end of a receive. -/
theorem receives_status (hends : endsWith F d.rx before chunk = some m)
    (hm : c.msgid m = .motorStatus) (hid : (c.motorStatus m).motorId = 0) :
    ((receives F c d (before ++ [chunk])).motors 0).currentSpeed = (c.motorStatus m).currentSpeed ∧
    ((receives F c d (before ++ [chunk])).motors 0).direction =
      (c.motorStatus m).direction.toInt8 ∧
    ((receives F c d (before ++ [chunk])).motors 0).status = (c.motorStatus m).status := by
  rw [endsWith, ← receives_rx (c := c)] at hends
  obtain ⟨d', hmotors⟩ := receiveBytes_motors F c none hends
  have hlast : (receives F c d (before ++ [chunk])).motors = (d'.onMessage c m).motors := by
    rw [receives, List.foldl_append]
    exact hmotors
  have hon : d'.onMessage c m = d'.onMotorStatus (c.motorStatus m) := by
    unfold Device.onMessage
    rw [hm]
  rw [hlast, hon, Device.onMotorStatus, hid]
  exact ⟨rfl, rfl, rfl⟩

theorem motorStatusVerdict_ok_iff :
    motorStatusVerdict c 0 m = .ok ↔ (c.motorStatus m).motorId = 0 := by
  rw [motorStatusVerdict]
  split
  · rename_i hne
    exact iff_of_false (by rintro ⟨⟩) hne.2
  · rename_i heq
    exact iff_of_true rfl (Decidable.byContradiction fun hne => heq ⟨by decide, hne⟩)

/-- **What the phone is sent** when one `MOTOR_STATUS` reaches the rotor: what it says, the direction
once more made a wire value, if the wait ends with it. -/
theorem phoneStatusQuery_iff {msg : MotorStatus}
    (honly : (F.reports d.rx chunks.flatten).filter (isStatus c) = [reply])
    (hid : (c.motorStatus reply).motorId = 0) :
    phoneStatusQuery F c d chunks = some msg ↔ Answered F c d chunks ∧
      msg = ⟨0, (c.motorStatus reply).currentSpeed, dirToWire (c.motorStatus reply).direction.toInt8,
        (c.motorStatus reply).status⟩ := by
  have hquery : queryMotorStatus F c d 0 500 chunks = some .ok ↔ _ :=
    awaitReply_eq_awaitDevice (motorStatusVerdict c 0) 0 chunks (d.send (.motorStatusQuery 0))
  rw [phoneStatusQuery]
  constructor
  · intro h
    split at h
    · rename_i hok
      obtain ⟨d', hd', hverdict⟩ := hquery.mp hok
      rw [hd'] at h
      obtain ⟨before, chunk, after, rfl, htime, -, hends, rfl⟩ :=
        (awaitDevice_iff (by decide)).mp hd'
      rw [receives_rx, motorStatusVerdict_ok_iff] at hverdict
      obtain ⟨m, hlast, hm⟩ := Option.map_eq_some_iff.mp hends
      obtain ⟨rfl, -⟩ := endsWith_only honly hlast hm
      obtain ⟨hspeed, hdir, hstatus⟩ := receives_status (d := d.send _) hlast hm hid
      refine ⟨⟨before, chunk, after, rfl, by omega, hends, hverdict⟩, ?_⟩
      rw [← hspeed, ← hdir, ← hstatus]
      exact (Option.some.inj h).symm
    · cases h
  · rintro ⟨⟨before, chunk, after, rfl, htime, hends, hverdict⟩, rfl⟩
    obtain ⟨m, hlast, hm⟩ := Option.map_eq_some_iff.mp hends
    obtain ⟨rfl, hnone⟩ := endsWith_only honly hlast hm
    have hd' : awaitDevice F c .motorStatus 500 0 (before ++ chunk :: after)
        (d.send (.motorStatusQuery 0)) =
          some (receives F c (d.send (.motorStatusQuery 0)) (before ++ [chunk])) := by
      refine (awaitDevice_iff (by decide)).mpr
        ⟨before, chunk, after, rfl, by omega, ?_, hends, rfl⟩
      rintro b x a rfl hb
      obtain ⟨m', hlast', hm'⟩ := Option.map_eq_some_iff.mp hb
      refine hnone m' ?_ hm'
      rw [List.flatten_append, List.flatten_cons, Framer.reports_append, Framer.reports_append]
      exact List.mem_append_right _ (List.mem_append_left _ (List.mem_of_getLast? hlast'))
    obtain ⟨hspeed, hdir, hstatus⟩ :=
      receives_status (d := d.send (.motorStatusQuery 0)) hlast hm hid
    rw [if_pos (hquery.mpr ⟨_, hd', ?_⟩), hd', Option.map_some, hspeed, hdir, hstatus]
    rw [receives_rx, motorStatusVerdict_ok_iff]
    exact hverdict

end back

/-! ### The relay -/

def MAV_MOTOR_DIRECTION_FORWARD : UInt8 := 1

/-- The direction of an output on the wire. -/
def wireDirection (out : Int32) : UInt8 :=
  if 0 ≤ out then MAV_MOTOR_DIRECTION_FORWARD else MAV_MOTOR_DIRECTION_REVERSE

/-- The direction after both hops: forward comes through, reverse arrives as a stop. -/
theorem relayed_direction (out : Int32) :
    dirToWire (dirToWire (outputDirection out).toInt8).toInt8 = wireDirection out ↔ 0 ≤ out := by
  rw [outputDirection, wireDirection]
  by_cases h : 0 ≤ out
  · rw [if_pos h, if_pos h]
    exact iff_of_true (by decide) h
  · rw [if_neg h, if_neg h]
    exact iff_of_false (by decide) h

/-- The phone is sent the motor's speed and status, and its direction as the control task has last
driven it. -/
def Relayed (sent : Option MotorStatus) (rpm : Int32) (status : UInt8) (last : Option Int32) :
    Prop :=
  ∃ msg, sent = some msg ∧ msg.currentSpeed = rpm ∧ msg.status = status ∧
    ∀ out, last = some out → msg.direction = wireDirection out

/-- **The status that reaches the phone.**  In every state of every run of the stator, for every
query that its command task finds and every way its answer gets to the rotor without a loss: the
phone is sent the motor's speed, status and direction exactly when the output last applied was not
negative and the rotor's wait ends with the answer. -/
theorem status_relay_iff (F : Framer σ R) (c : Codec R) (rx : σ) (now₀ : UInt64)
    (turns : List StatorTurn) (inp : CommandInput) (d : Device σ) (chunks : List (List UInt8))
    (hasked : Asked F c (turns.foldl (statorNext F c) (povStatorAlloc rx now₀)) inp)
    (hheard : Heard F c d chunks
      (answers F c (turns.foldl (statorNext F c) (povStatorAlloc rx now₀)) inp)) :
    Relayed (phoneStatusQuery F c d chunks) inp.rpm
        (turns.foldl (statorNext F c) (povStatorAlloc rx now₀)).motor.status
        (lastOutput F c (povStatorAlloc rx now₀) turns) ↔
      (∀ out, lastOutput F c (povStatorAlloc rx now₀) turns = some out → 0 ≤ out) ∧
        Answered F c d chunks := by
  have hdriven := (Driven.alloc rx now₀).run F c turns
  rw [Option.or_none] at hdriven
  generalize turns.foldl (statorNext F c) (povStatorAlloc rx now₀) = s at hasked hheard hdriven ⊢
  obtain ⟨acks, hanswers⟩ := hasked.answers
  rw [hanswers] at hheard
  obtain ⟨reply, honly, hreply⟩ := hheard.only
  have hid : (c.motorStatus reply).motorId = 0 := by rw [hreply]; rfl
  -- what the phone is sent has the motor's direction after two conversions
  have hsent : ∀ msg, phoneStatusQuery F c d chunks = some msg ↔ Answered F c d chunks ∧
      msg = ⟨0, inp.rpm, dirToWire (dirToWire s.motor.direction.toInt8).toInt8, s.motor.status⟩ := by
    intro msg
    rw [phoneStatusQuery_iff honly hid, hreply]
    rfl
  constructor
  · rintro ⟨msg, hmsg, -, -, hdir⟩
    obtain ⟨hanswered, rfl⟩ := (hsent msg).mp hmsg
    refine ⟨fun out hout => (relayed_direction out).mp ?_, hanswered⟩
    rw [← hdriven.direction out hout]
    exact hdir out hout
  · rintro ⟨hforward, hanswered⟩
    refine ⟨_, (hsent _).mpr ⟨hanswered, rfl⟩, rfl, rfl, fun out hout => ?_⟩
    rw [hdriven.direction out hout]
    exact (relayed_direction out).mpr (hforward out hout)

/-- Byte 0 is the query of motor 0, byte 1 a `MOTOR_STATUS`, every other byte a heartbeat. -/
def statusCodec (payload : MotorStatus) : Codec UInt8 :=
  { byteCodec with
      msgid := fun b => if b = 0 then .motorStatusQuery else if b = 1 then .motorStatus
        else .systemHeartbeat
      motorStatus := fun _ => payload }

/-- The stator after its first control, with the motor standing still or too fast. -/
def firstControl (rpm : Int32) : List StatorTurn := [.fsm 0, .sense rpm 0, .control]

theorem status_relay_iff_forward :
    Relayed (phoneStatusQuery byteFramer (statusCodec ⟨0, 0, 1, 0⟩) (mavlinkInit 2) [[1]]) 0 0
      (lastOutput byteFramer (statusCodec ⟨0, 0, 1, 0⟩) (povStatorAlloc 2 0) (firstControl 0)) := by
  refine (status_relay_iff byteFramer (statusCodec ⟨0, 0, 1, 0⟩) 2 0 (firstControl 0)
    ⟨[0], 5, 5, true, 0⟩ (mavlinkInit 2) [[1]] ⟨⟨rfl, rfl⟩, by decide⟩ ?_).mpr ⟨?_, ?_⟩
  · exact ⟨[], [1], [], rfl, .cons ⟨rfl, by decide +kernel⟩ .nil, fun _ h => absurd h List.not_mem_nil⟩
  · have hout : lastOutput byteFramer (statusCodec ⟨0, 0, 1, 0⟩) (povStatorAlloc 2 0)
        (firstControl 0) = some 200 := by decide +kernel
    rintro out hsome
    rw [hout] at hsome
    cases hsome
    decide
  · exact ⟨[], [1], [], rfl, by decide, rfl, rfl⟩

/-- **A motor driven backwards is reported as standing**: the rotor sends the phone direction 0. -/
theorem reverse_relayed_as_stop :
    Asked byteFramer (statusCodec ⟨0, 3000, 0, 0⟩) ((firstControl 3000).foldl
      (statorNext byteFramer (statusCodec ⟨0, 3000, 0, 0⟩)) (povStatorAlloc 2 0))
      ⟨[0], 5, 5, true, 3000⟩ ∧
    answers byteFramer (statusCodec ⟨0, 3000, 0, 0⟩) ((firstControl 3000).foldl
      (statorNext byteFramer (statusCodec ⟨0, 3000, 0, 0⟩)) (povStatorAlloc 2 0))
      ⟨[0], 5, 5, true, 3000⟩ = [.motorStatus ⟨0, 3000, 0, 0⟩] ∧
    Heard byteFramer (statusCodec ⟨0, 3000, 0, 0⟩) (mavlinkInit 2) [[1]]
      [.motorStatus ⟨0, 3000, 0, 0⟩] ∧
    lastOutput byteFramer (statusCodec ⟨0, 3000, 0, 0⟩) (povStatorAlloc 2 0) (firstControl 3000) =
      some (-200) ∧
    phoneStatusQuery byteFramer (statusCodec ⟨0, 3000, 0, 0⟩) (mavlinkInit 2) [[1]] =
      some ⟨0, 3000, 0, 0⟩ := by
  refine ⟨⟨⟨rfl, rfl⟩, by decide⟩, by decide +kernel, ?_, by decide +kernel, by decide +kernel⟩
  exact ⟨[], [1], [], rfl, .cons ⟨rfl, rfl⟩ .nil, fun _ h => absurd h List.not_mem_nil⟩

end Kinetis.Pov
