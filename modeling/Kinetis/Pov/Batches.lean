import Kinetis.Mavlink.Waiters
import Kinetis.Pov.Stator

/-!
# Pov — how frames are batched for the stator

The receive takes in every frame there is, but the command task then looks at the message that is
left in the device: the last one of the call.  A control, a query, an update or a heartbeat before
it in the same call is not answered.

* `commandCalls_leave` says what calls do, from the last frame of each;
* `batching_iff` compares that with what the frames themselves ask for.
-/

namespace Kinetis.Pov
open Lib (Frame Framer lasts lasts_cons lasts_eq_iff)
open Mavlink

variable {σ R : Type}

/-! ### What a frame asks for -/

section frames

variable (c : Codec R)

def ackOf (f : Frame R) : Option MotorAck :=
  if c.msgid f.msg = .motorControl then some (motorAckFor (c.motorControl f.msg)) else none

/-- The motor that a valid query asks about. -/
def queryOf (f : Frame R) : Option UInt8 :=
  if c.msgid f.msg = .motorStatusQuery ∧ queryValid (c.motorStatusQuery f.msg) then
    some (c.motorStatusQuery f.msg)
  else none

/-- The size, CRC and name in an update command. -/
def updateOf (f : Frame R) : Option (UInt32 × UInt32 × List UInt8) :=
  if c.msgid f.msg = .bootloaderUpdateCmd then
    some ((c.bootloaderUpdateCmd f.msg).firmwareSize, (c.bootloaderUpdateCmd f.msg).firmwareCrc32,
      cString 31 (c.bootloaderUpdateCmd f.msg).filename)
  else none

/-- Whether a heartbeat says `STANDBY`. -/
def standbyOf (f : Frame R) : Option Bool :=
  if c.msgid f.msg = .systemHeartbeat then
    some (decide ((c.systemHeartbeat f.msg).status = MAV_SYSTEM_STATUS_STANDBY))
  else none

end frames

/-! ### What was sent -/

def sentAck : Mavlink.Sent → Option MotorAck
  | .motorAck ack => some ack
  | _ => none

def sentStatusId : Mavlink.Sent → Option UInt8
  | .motorStatus st => some st.motorId
  | _ => none

/-- The acknowledgements sent. -/
def Stator.acks (s : Stator σ) : List MotorAck := s.mavlink.outbox.filterMap sentAck

/-- The motors whose status was sent. -/
def Stator.answers (s : Stator σ) : List UInt8 := s.mavlink.outbox.filterMap sentStatusId

/-! ### One call -/

def MAVLINK_RX_BUF_SIZE : Nat := 1024

/-- A call of the command task: the frames that are there, and the rest of its input. -/
structure Call (R : Type) where
  frames : List (Frame R)
  now    : UInt64
  now'   : UInt64
  flagOk : Bool
  rpm    : Int32

def Call.input (call : Call R) : CommandInput :=
  ⟨Lib.stream call.frames, call.now, call.now', call.flagOk, call.rpm⟩

variable {f : Frame R} {s : Stator σ} {idle : σ → Prop}

section call

variable (F : Framer σ R) (c : Codec R)

def commandCall (s : Stator σ) (call : Call R) : Stator σ := processMotorCommands F c call.input s

/-- What calls leave, in terms of what they were given: `s'` comes from `s` with acknowledgements,
answers, flag writes and the pause that the lists say. -/
structure Leaves (s s' : Stator σ) (acks : List MotorAck) (answers : List UInt8)
    (writes : List (UInt32 × UInt32 × List UInt8)) (standbys : List Bool) : Prop where
  acks    : s'.acks = s.acks ++ acks
  answers : s'.answers = s.answers ++ answers
  writes  : s'.flagWrites = s.flagWrites ++ writes
  paused  : s'.rotorHeartbeatPaused = standbys.getLast?.getD s.rotorHeartbeatPaused

/-- The receive sends no acknowledgement and no status. -/
theorem foldl_deliver_outbox (fs : List (Frame R)) (d : Device σ) :
    (fs.foldl (Device.deliver F c) d).outbox.filterMap sentAck = d.outbox.filterMap sentAck ∧
    (fs.foldl (Device.deliver F c) d).outbox.filterMap sentStatusId =
      d.outbox.filterMap sentStatusId := by
  induction fs generalizing d with
  | nil => exact ⟨rfl, rfl⟩
  | cons f fs ih =>
    obtain ⟨hacks, hanswers⟩ := ih (d.deliver F c f)
    rw [List.foldl_cons, hacks, hanswers, Device.deliver]
    rcases onMessage_outbox c { d with rx := F.run d.rx f.bytes, rxCount := d.rxCount + 1 } f.msg
      with hsame | ⟨ack, hack⟩
    · rw [hsame]
      exact ⟨rfl, rfl⟩
    · rw [hack, List.filterMap_append, List.filterMap_append]
      exact ⟨List.append_nil _, List.append_nil _⟩

variable {fs : List (Frame R)}

/-- What is left of the last frame when the command task looks. -/
theorem foldl_deliver_last (hlast : fs.getLast? = some f) (d : Device σ) :
    ∃ d', fs.foldl (Device.deliver F c) d = Device.onMessage c d' f.msg := by
  obtain ⟨before, rfl⟩ := List.getLast?_eq_some_iff.mp hlast
  rw [List.foldl_append]
  exact ⟨_, rfl⟩

theorem dispatch_rx (s : Stator σ) (inp : CommandInput) (msg : R) :
    (s.dispatch c inp msg).mavlink.rx = s.mavlink.rx := by
  unfold Stator.dispatch
  split
  · rfl
  · rfl
  · split
    · rfl
    · rfl
  · rfl
  · rfl

theorem Leaves.trans {s₁ s₂ : Stator σ}
    {acks acks' answers answers' writes writes' standbys standbys'}
    (h : Leaves s s₁ acks answers writes standbys)
    (h' : Leaves s₁ s₂ acks' answers' writes' standbys') :
    Leaves s s₂ (acks ++ acks') (answers ++ answers') (writes ++ writes')
      (standbys ++ standbys') where
  acks    := by rw [h'.acks, h.acks, List.append_assoc]
  answers := by rw [h'.answers, h.answers, List.append_assoc]
  writes  := by rw [h'.writes, h.writes, List.append_assoc]
  paused  := by
    rw [h'.paused, h.paused, List.getLast?_append]
    cases standbys'.getLast? with
    | none => rfl
    | some b => rfl

theorem Leaves.refl (s : Stator σ) : Leaves s s [] [] [] [] :=
  ⟨(List.append_nil _).symm, (List.append_nil _).symm, (List.append_nil _).symm, rfl⟩

/-- The receive alone. -/
theorem Leaves.received (s : Stator σ) (fs : List (Frame R)) :
    Leaves s { s with mavlink := fs.foldl (Device.deliver F c) s.mavlink } [] [] [] [] where
  acks    := by
    rw [Stator.acks, (foldl_deliver_outbox F c fs s.mavlink).1, List.append_nil]
    rfl
  answers := by
    rw [Stator.answers, (foldl_deliver_outbox F c fs s.mavlink).2, List.append_nil]
    rfl
  writes  := (List.append_nil _).symm
  paused  := rfl

/-- **The dispatcher** does what the frame asks for. -/
theorem dispatch_leaves {d : Device σ} (hmav : s.mavlink = d.onMessage c f.msg) (inp : CommandInput)
    :
    Leaves s (s.dispatch c inp f.msg) (ackOf c f).toList (queryOf c f).toList
      (updateOf c f).toList (standbyOf c f).toList := by
  rw [ackOf, queryOf, updateOf, standbyOf]
  unfold Stator.dispatch
  unfold Device.onMessage at hmav
  split
  · rename_i hid
    rw [hid] at hmav ⊢
    refine ⟨(List.append_nil _).symm, (List.append_nil _).symm, (List.append_nil _).symm, ?_⟩
    rw [hmav]
    rfl
  · rename_i hid
    rw [hid]
    refine ⟨?_, ?_, (List.append_nil _).symm, rfl⟩
    · exact List.filterMap_append
    · exact List.filterMap_append
  · rename_i hid
    by_cases hvalid : queryValid (c.motorStatusQuery f.msg)
    · rw [if_pos hvalid, if_pos (And.intro hid hvalid), hid]
      refine ⟨?_, ?_, (List.append_nil _).symm, rfl⟩
      · exact List.filterMap_append
      · exact List.filterMap_append
    · rw [if_neg hvalid, if_neg (fun h : _ ∧ _ => hvalid h.2), hid]
      exact Leaves.refl s
  · rename_i hid
    rw [hid] at hmav ⊢
    refine ⟨(List.append_nil _).symm, (List.append_nil _).symm, ?_, rfl⟩
    rw [hmav]
    rfl
  · rename_i h₁ h₂ h₃ h₄
    rw [if_neg h₂, if_neg (fun h => h₃ h.1), if_neg h₄, if_neg h₁]
    exact Leaves.refl s

theorem length_le_stream (hreads : ∀ f ∈ fs, F.Reads idle f) {rx : σ} (hrx : idle rx) :
    fs.length ≤ (Lib.stream fs).length := by
  induction fs with
  | nil => exact Nat.le_refl 0
  | cons f fs ih =>
    have hpos := (hreads f List.mem_cons_self).length_pos hrx
    have hle := ih (fun g hg => hreads g (List.mem_cons_of_mem _ hg))
    rw [Lib.stream] at hle
    rw [Lib.stream, List.map_cons, List.flatten_cons, List.length_append, List.length_cons]
    omega

variable {call : Call R}

/-- A call that received a frame dispatches it, also where the count of frames wraps around. -/
theorem commandCall_dispatches (hs : idle s.mavlink.rx) (hreads : ∀ f ∈ call.frames, F.Reads idle f)
    (hfit : (Lib.stream call.frames).length ≤ MAVLINK_RX_BUF_SIZE)
    (hlast : call.frames.getLast? = some f) :
    ∃ s₁, commandCall F c s call = s₁.dispatch c call.input f.msg ∧
      s₁.mavlink = call.frames.foldl (Device.deliver F c) s.mavlink ∧
      Leaves s s₁ [] [] [] [] := by
  have hne : call.frames ≠ [] := by
    rintro hnil
    rw [hnil] at hlast
    cases hlast
  have hlen := length_le_stream F hreads hs
  have hpos : 0 < call.frames.length := List.length_pos_iff.mpr hne
  have hchunk : call.input.chunk ≠ [] := by
    intro hnil
    have hzero : (Lib.stream call.frames).length = 0 := congrArg List.length hnil
    omega
  have hmav : (s.mavlink.receiveAndProcess F c call.input.chunk).2 =
      call.frames.foldl (Device.deliver F c) s.mavlink := receiveBytes_stream c hreads hs none
  have hmsg : F.msg (call.frames.foldl (Device.deliver F c) s.mavlink).rx = f.msg := by
    rw [← hmav, (receiveAndProcess_spec F c _ _).1]
    exact Framer.msg_run_stream hs hreads hlast
  have hcount : (call.frames.foldl (Device.deliver F c) s.mavlink).rxCount ≠
      s.mavlink.rxCount := by
    rw [foldl_deliver_rxCount]
    intro heq
    have htoNat := congrArg UInt32.toNat heq
    rw [UInt32.toNat_add, UInt32.toNat_ofNat'] at htoNat
    have hlt := s.mavlink.rxCount.toNat_lt
    rw [MAVLINK_RX_BUF_SIZE] at hfit
    omega
  have hrec := Leaves.received F c s call.frames
  rw [commandCall, processMotorCommands, if_neg hchunk, hmav]
  rw [hmsg]
  split
  · exact ⟨_, rfl, rfl, hrec.acks, hrec.answers, hrec.writes, hrec.paused⟩
  · exact ⟨_, rfl, rfl, hrec⟩

/-- **One call** does what its last frame asks for. -/
theorem commandCall_leaves (hs : idle s.mavlink.rx) (hreads : ∀ f ∈ call.frames, F.Reads idle f)
    (hfit : (Lib.stream call.frames).length ≤ MAVLINK_RX_BUF_SIZE) :
    idle (commandCall F c s call).mavlink.rx ∧
    Leaves s (commandCall F c s call) (call.frames.getLast?.bind (ackOf c)).toList
      (call.frames.getLast?.bind (queryOf c)).toList
      (call.frames.getLast?.bind (updateOf c)).toList
      (call.frames.getLast?.bind (standbyOf c)).toList := by
  cases hlast : call.frames.getLast? with
  | none =>
    have hsame : commandCall F c s call = s := by
      rw [commandCall, processMotorCommands, Call.input, List.getLast?_eq_none_iff.mp hlast]
      exact (if_neg (UInt32.lt_irrefl _)).trans (if_pos rfl)
    rw [hsame]
    exact ⟨hs, Leaves.refl s⟩
  | some f =>
    obtain ⟨s₁, hcall, hmav, hrec⟩ := commandCall_dispatches F c hs hreads hfit hlast
    obtain ⟨d', hd'⟩ := foldl_deliver_last F c hlast s.mavlink
    rw [hcall]
    refine ⟨?_, hrec.trans (dispatch_leaves c (hmav.trans hd') _)⟩
    rw [dispatch_rx, hmav, ← receiveBytes_stream c hreads hs none,
      (receiveBytes_spec F c none _ _).1]
    exact Framer.run_stream_idle hs hreads

end call

/-! ### Calls one after the other -/

/-- The frames of the calls, in order. -/
def allFrames (calls : List (Call R)) : List (Frame R) := (calls.map Call.frames).flatten

section calls

variable (F : Framer σ R) (c : Codec R)

variable {calls : List (Call R)}

/-- **Calls one after the other** do what the last frame of each asks for. -/
theorem commandCalls_leave (hs : idle s.mavlink.rx)
    (hreads : ∀ call ∈ calls, ∀ f ∈ call.frames, F.Reads idle f)
    (hfit : ∀ call ∈ calls, (Lib.stream call.frames).length ≤ MAVLINK_RX_BUF_SIZE) :
    idle (calls.foldl (commandCall F c) s).mavlink.rx ∧
    Leaves s (calls.foldl (commandCall F c) s) (lasts (ackOf c) (calls.map Call.frames))
      (lasts (queryOf c) (calls.map Call.frames)) (lasts (updateOf c) (calls.map Call.frames))
      (lasts (standbyOf c) (calls.map Call.frames)) := by
  induction calls generalizing s with
  | nil => exact ⟨hs, Leaves.refl s⟩
  | cons call calls ih =>
    obtain ⟨hidle, hcall⟩ := commandCall_leaves F c hs (hreads call List.mem_cons_self)
      (hfit call List.mem_cons_self)
    obtain ⟨hidle', hrest⟩ := ih hidle (fun k hk => hreads k (List.mem_cons_of_mem _ hk))
      (fun k hk => hfit k (List.mem_cons_of_mem _ hk))
    simp only [List.map_cons, lasts_cons]
    exact ⟨hidle', hcall.trans hrest⟩

/-- **Every frame is served**: each control is acknowledged once, each valid query answered once,
each update command has the flag written in its call, and the pause is what the last heartbeat
says. -/
structure Served (s : Stator σ) (calls : List (Call R)) : Prop where
  controls : (calls.foldl (commandCall F c) s).acks =
    s.acks ++ (allFrames calls).filterMap (ackOf c)
  queries  : (calls.foldl (commandCall F c) s).answers =
    s.answers ++ (allFrames calls).filterMap (queryOf c)
  updates  : ∀ before call after, calls = before ++ call :: after →
    ∃ writes, (commandCall F c (before.foldl (commandCall F c) s) call).flagWrites =
        (before.foldl (commandCall F c) s).flagWrites ++ writes ∧
      ∀ f ∈ call.frames, ∀ w, updateOf c f = some w → w ∈ writes
  paused   : ∀ b, ((allFrames calls).filterMap (standbyOf c)).getLast? = some b →
    (calls.foldl (commandCall F c) s).rotorHeartbeatPaused = b

/-- **Nothing is hidden** by the last frame of a call: no control and no valid query stands before
it, every update command of the call says what it says, and the last heartbeat of all says what the
last heartbeat at the end of a call says, or the pause from before where there is none. -/
structure NothingHidden (s : Stator σ) (calls : List (Call R)) : Prop where
  controls : ∀ call ∈ calls, ∀ f ∈ call.frames.dropLast, c.msgid f.msg ≠ .motorControl
  queries  : ∀ call ∈ calls, ∀ f ∈ call.frames.dropLast,
    ¬ (c.msgid f.msg = .motorStatusQuery ∧ queryValid (c.motorStatusQuery f.msg))
  updates  : ∀ call ∈ calls, ∀ f ∈ call.frames, ∀ w, updateOf c f = some w →
    call.frames.getLast?.bind (updateOf c) = some w
  paused   : ∀ b, ((allFrames calls).filterMap (standbyOf c)).getLast? = some b →
    (lasts (standbyOf c) (calls.map Call.frames)).getLast?.getD s.rotorHeartbeatPaused = b

theorem ackOf_eq_none : ackOf c f = none ↔ c.msgid f.msg ≠ .motorControl := by
  rw [ackOf, ite_eq_right_iff]
  exact ⟨fun h hid => absurd (h hid) (Option.some_ne_none _), fun h hid => absurd hid h⟩

theorem queryOf_eq_none : queryOf c f = none ↔
    ¬ (c.msgid f.msg = .motorStatusQuery ∧ queryValid (c.motorStatusQuery f.msg)) := by
  rw [queryOf, ite_eq_right_iff]
  exact ⟨fun h hid => absurd (h hid) (Option.some_ne_none _), fun h hid => absurd hid h⟩

/-- Where one frame of each call is answered, all are iff no other asks for an answer. -/
theorem answers_iff {α : Type} (g : Frame R → Option α) (before after : List α)
    (calls : List (Call R)) (h : after = before ++ lasts g (calls.map Call.frames)) :
    after = before ++ (allFrames calls).filterMap g ↔
      ∀ call ∈ calls, ∀ f ∈ call.frames.dropLast, g f = none := by
  rw [h, List.append_cancel_left_eq, allFrames, lasts_eq_iff]
  exact List.forall_mem_map

/-- The flag is written for every update command iff the last frame of its call repeats it. -/
theorem updates_iff (hs : idle s.mavlink.rx)
    (hreads : ∀ call ∈ calls, ∀ f ∈ call.frames, F.Reads idle f)
    (hfit : ∀ call ∈ calls, (Lib.stream call.frames).length ≤ MAVLINK_RX_BUF_SIZE) :
    (∀ before call after, calls = before ++ call :: after →
      ∃ writes, (commandCall F c (before.foldl (commandCall F c) s) call).flagWrites =
          (before.foldl (commandCall F c) s).flagWrites ++ writes ∧
        ∀ f ∈ call.frames, ∀ w, updateOf c f = some w → w ∈ writes) ↔
    ∀ call ∈ calls, ∀ f ∈ call.frames, ∀ w, updateOf c f = some w →
      call.frames.getLast?.bind (updateOf c) = some w := by
  -- what the call in its place writes
  have hwrites : ∀ before call after, calls = before ++ call :: after →
      (commandCall F c (before.foldl (commandCall F c) s) call).flagWrites =
        (before.foldl (commandCall F c) s).flagWrites ++
          (call.frames.getLast?.bind (updateOf c)).toList := by
    rintro before call after rfl
    have hcall : call ∈ before ++ call :: after :=
      List.mem_append_right _ List.mem_cons_self
    obtain ⟨hidle, -⟩ := commandCalls_leave F c hs
      (fun k hk => hreads k (List.mem_append_left _ hk))
      (fun k hk => hfit k (List.mem_append_left _ hk))
    exact (commandCall_leaves F c hidle (hreads call hcall) (hfit call hcall)).2.writes
  constructor
  · intro h call hcall f hf w hw
    obtain ⟨before, after, rfl⟩ := List.append_of_mem hcall
    obtain ⟨writes, heq, hall⟩ := h before call after rfl
    rw [hwrites before call after rfl, List.append_cancel_left_eq] at heq
    exact Option.mem_toList.mp (heq ▸ hall f hf w hw)
  · intro h before call after heq
    refine ⟨_, hwrites before call after heq, fun f hf w hw => Option.mem_toList.mpr ?_⟩
    exact h call (heq ▸ List.mem_append_right _ List.mem_cons_self) f hf w hw

/-- **Batching.**  For frames that the parser reads and calls that each receive what fits the
buffer, every frame is served iff nothing is hidden by the last frame of a call. -/
theorem batching_iff (idle : σ → Prop) (s : Stator σ) (calls : List (Call R))
    (hs : idle s.mavlink.rx) (hreads : ∀ call ∈ calls, ∀ f ∈ call.frames, F.Reads idle f)
    (hfit : ∀ call ∈ calls, (Lib.stream call.frames).length ≤ MAVLINK_RX_BUF_SIZE) :
    Served F c s calls ↔ NothingHidden c s calls := by
  obtain ⟨-, hleaves⟩ := commandCalls_leave F c hs hreads hfit
  have hcontrols := answers_iff (ackOf c) _ _ calls hleaves.acks
  have hqueries := answers_iff (queryOf c) _ _ calls hleaves.answers
  have hupdates := updates_iff F c hs hreads hfit
  simp only [ackOf_eq_none] at hcontrols
  simp only [queryOf_eq_none] at hqueries
  constructor
  · intro h
    exact ⟨hcontrols.mp h.controls, hqueries.mp h.queries, hupdates.mp h.updates,
      fun b hb => hleaves.paused ▸ h.paused b hb⟩
  · intro h
    exact ⟨hcontrols.mpr h.controls, hqueries.mpr h.queries, hupdates.mpr h.updates,
      fun b hb => hleaves.paused.trans (h.paused b hb)⟩

end calls

/-- Byte 0 is a `MOTOR_CONTROL`, every other byte a heartbeat. -/
def controlCodec : Codec UInt8 :=
  { byteCodec with msgid := fun b => if b = 0 then .motorControl else .systemHeartbeat }

/-- Calls with one frame each. -/
theorem batching_iff_single :
    Served byteFramer controlCodec (povStatorAlloc 1 0)
        [⟨[byteFrame 0], 0, 0, true, 0⟩, ⟨[byteFrame 1], 0, 0, true, 0⟩] ↔
      NothingHidden controlCodec (povStatorAlloc (1 : UInt8) 0)
        [⟨[byteFrame 0], 0, 0, true, 0⟩, ⟨[byteFrame 1], 0, 0, true, 0⟩] := by
  refine batching_iff byteFramer controlCodec (fun _ => True) _ _ trivial ?_ ?_
  · intro call hcall f hf
    simp only [List.mem_cons, List.not_mem_nil, or_false] at hcall
    rcases hcall with rfl | rfl
    · obtain rfl := List.mem_singleton.mp hf
      exact byteFramer_reads 0
    · obtain rfl := List.mem_singleton.mp hf
      exact byteFramer_reads 1
  · decide

/-- **A second control** in the same call is all that is acknowledged; in a call of its own each
is. -/
theorem second_control_hides_first :
    byteFramer.Reads (fun _ => True) (byteFrame 0) ∧
    ((commandCall byteFramer controlCodec (povStatorAlloc 1 0)
      ⟨[byteFrame 0, byteFrame 0], 0, 0, true, 0⟩).acks.length = 1 ∧
    ([⟨[byteFrame 0], 0, 0, true, 0⟩, ⟨[byteFrame 0], 0, 0, true, 0⟩].foldl
      (commandCall byteFramer controlCodec) (povStatorAlloc 1 0)).acks.length = 2) ∧
    ¬ Served byteFramer controlCodec (povStatorAlloc 1 0)
      [⟨[byteFrame 0, byteFrame 0], 0, 0, true, 0⟩] := by
  refine ⟨byteFramer_reads 0, by decide, fun h => ?_⟩
  have hlen := congrArg List.length h.controls
  exact absurd hlen (by decide)

end Kinetis.Pov
