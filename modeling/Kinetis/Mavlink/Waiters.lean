import Kinetis.Lib.Loops
import Kinetis.Mavlink.Device

/-!
# Mavlink — waiting for an answer

Five functions send a request and wait for its acknowledgement, receive by receive.  Four of them
look at the id of the last message of each receive and then decode `rx_msg`; the fifth looks at the
id in `rx_msg` alone.  So what they answer depends on where the receives cut the stream.

* `Settled` and `SettledMsg`: the streams for which it does not;
* `waiters_chunking_iff`: exactly for those is the answer, over all cuts, the one that the first
  acknowledgement of the stream determines.
-/

namespace Kinetis.Mavlink
open Lib (Framer Frame stream completed)

variable {σ R : Type}

/-! ### The waiters -/

/-- 0 or an error of a waiter. -/
inductive Status where
  | ok
  | eproto
  | einval
  | eio
  | enospc
  | enoent
  | ebusy
  | eacces
  | etimedout
  deriving DecidableEq, Repr

/-- The wait with no more bytes to come: `elapsed_ms` is a `u32` that goes up by 10, is always even
and never reaches a timeout of `UINT32_MAX`. -/
def idleWait (timeout : Nat) : Option Status :=
  if timeout < 2 ^ 32 - 1 then some .etimedout else none

/-- The loop of the first four: receives, empty where nothing was there, one each 10 ms.  `none`
is a wait without end. -/
def awaitReply (F : Framer σ R) (c : Codec R) (awaited : MsgId) (verdict : R → Status)
    (timeout : Nat) : Nat → List (List UInt8) → Device σ → Option Status
  | _, [], _ => idleWait timeout
  | elapsed, chunk :: rest, d =>
    if elapsed < timeout then
      if chunk = [] then
        awaitReply F c awaited verdict timeout ((elapsed + 10) % 2 ^ 32) rest d
      else if (d.receiveAndProcess F c chunk).1 = some awaited then
        some (verdict (F.msg (d.receiveAndProcess F c chunk).2.rx))
      else
        awaitReply F c awaited verdict timeout ((elapsed + 10) % 2 ^ 32) rest
          (d.receiveAndProcess F c chunk).2
    else some .etimedout

def motorAckVerdict (c : Codec R) (targetId : UInt8) (msg : R) : Status :=
  if targetId ≠ 255 ∧ (c.motorAck msg).motorId ≠ targetId then .eproto
  else if (c.motorAck msg).ackResult = MAV_ACK_RESULT_OK then .ok
  else if (c.motorAck msg).ackResult = MAV_ACK_RESULT_INVALID_PARAM then .einval
  else .eio

/-- `mavlink_send_motor_control`. -/
def sendMotorControl (F : Framer σ R) (c : Codec R) (d : Device σ) (targetId : UInt8)
    (speed : Int32) (direction : Int8) (timeout : Nat) (chunks : List (List UInt8)) :
    Option Status :=
  awaitReply F c .motorAck (motorAckVerdict c targetId) timeout 0 chunks
    (d.send (.motorControl ⟨targetId, speed, dirToWire direction⟩))

def motorStatusVerdict (c : Codec R) (motorId : UInt8) (msg : R) : Status :=
  if motorId ≠ 255 ∧ (c.motorStatus msg).motorId ≠ motorId then .eproto else .ok

/-- `mavlink_query_motor_status`. -/
def queryMotorStatus (F : Framer σ R) (c : Codec R) (d : Device σ) (motorId : UInt8)
    (timeout : Nat) (chunks : List (List UInt8)) : Option Status :=
  awaitReply F c .motorStatus (motorStatusVerdict c motorId) timeout 0 chunks
    (d.send (.motorStatusQuery motorId))

def ftAckVerdict (c : Codec R) (direction : UInt8) (msg : R) : Status :=
  if (c.fileTransferAck msg).direction ≠ direction then .eproto
  else if (c.fileTransferAck msg).result = MAV_FT_RESULT_READY then .ok
  else if (c.fileTransferAck msg).result = MAV_FT_RESULT_NO_SPACE then .enospc
  else if (c.fileTransferAck msg).result = MAV_FT_RESULT_NOT_FOUND then .enoent
  else if (c.fileTransferAck msg).result = MAV_FT_RESULT_BUSY then .ebusy
  else if (c.fileTransferAck msg).result = MAV_FT_RESULT_DENIED then .eacces
  else .eio

/-- `mavlink_send_ft_start`. -/
def sendFtStart (F : Framer σ R) (c : Codec R) (d : Device σ) (direction : UInt8)
    (path : List UInt8) (fileSize : UInt32) (timeout : Nat) (chunks : List (List UInt8)) :
    Option Status :=
  awaitReply F c .fileTransferAck (ftAckVerdict c direction) timeout 0 chunks
    (d.send (.fileTransferStart ⟨direction, fileSize, cString 63 path⟩))

def blAckVerdict (c : Codec R) (command : UInt8) (msg : R) : Status :=
  if (c.bootloaderAck msg).command ≠ command then .eproto
  else if (c.bootloaderAck msg).result = MAV_BL_ACK_ACCEPTED then .ok
  else .eacces

/-- `mavlink_send_bootloader_update`. -/
def sendBootloaderUpdate (F : Framer σ R) (c : Codec R) (d : Device σ) (command : UInt8)
    (firmwareSize firmwareCrc32 : UInt32) (filename : List UInt8) (timeout : Nat)
    (chunks : List (List UInt8)) : Option Status :=
  awaitReply F c .bootloaderAck (blAckVerdict c command) timeout 0 chunks
    (d.send (.bootloaderUpdateCmd ⟨command, firmwareSize, firmwareCrc32, cString 31 filename⟩))

def blResultVerdict (c : Codec R) (command expectedResult : UInt8) (msg : R) : Status :=
  if (c.bootloaderAck msg).command ≠ command then .eproto
  else if (c.bootloaderAck msg).result = expectedResult then .ok
  else .eio

/-- `mavlink_wait_bootloader_ack`: the receives until its deadline.  It asks `rx_msg`, not the
receive, whether the acknowledgement is there. -/
def waitBootloaderAck (F : Framer σ R) (c : Codec R) (command expectedResult : UInt8) :
    List (List UInt8) → Device σ → Status
  | [], _ => .etimedout
  | chunk :: rest, d =>
    if chunk = [] then waitBootloaderAck F c command expectedResult rest d
    else if c.msgid (F.msg (d.receiveAndProcess F c chunk).2.rx) ≠ .bootloaderAck then
      waitBootloaderAck F c command expectedResult rest (d.receiveAndProcess F c chunk).2
    else blResultVerdict c command expectedResult (F.msg (d.receiveAndProcess F c chunk).2.rx)

/-- The counter of a wait ends exactly where `idleWait` says. -/
theorem idleWait_terminates_iff {timeout : Nat} (ht : timeout < 2 ^ 32) :
    Lib.Terminates (fun e => decide (e < timeout)) (fun e => (e + 10) % 2 ^ 32) 0 ↔
      idleWait timeout = some .etimedout := by
  rw [idleWait]
  split
  · rename_i hlt
    -- the counter may go round once, from 2^32 - 6 to 4, and then stops at 2^32 - 2 at the latest
    obtain ⟨fuel, hfuel⟩ : ∃ fuel : Nat, 2 ^ 34 ≤ fuel := ⟨_, Nat.le_refl _⟩
    refine iff_of_true ⟨fuel, ?_⟩ rfl
    refine @Lib.iterWhile_ends _ (fun e => decide (e < timeout)) _ 0
      (fun e => e < 2 ^ 32 ∧ (e % 10 = 0 ∨ e % 10 = 4))
      (fun e => if e % 10 = 0 then timeout - e + 2 ^ 33 else timeout - e) ?_ fuel ?_ ?_
    · rintro e ⟨he, hmod⟩ hcond
      have hcond := of_decide_eq_true hcond
      rcases Nat.lt_or_ge (e + 10) (2 ^ 32) with hno | hround
      · rw [Nat.mod_eq_of_lt hno]
        refine ⟨⟨hno, by omega⟩, ?_⟩
        rw [Nat.add_mod_right]
        split
        · omega
        · omega
      · obtain rfl : e = 4294967290 := by omega
        refine ⟨⟨by decide, by decide⟩, ?_⟩
        rw [if_neg (by decide), if_pos (by decide)]
        omega
    · omega
    · rw [if_pos rfl]
      omega
  · rename_i hmax
    refine iff_of_false ?_ (by simp)
    rintro ⟨fuel, hend⟩
    generalize hs : Lib.iterWhile _ _ fuel 0 = s at hend
    have hinv : s < 2 ^ 32 ∧ s % 2 = 0 := by
      rw [← hs]
      exact Lib.iterWhile_invariant (P := fun e => e < 2 ^ 32 ∧ e % 2 = 0)
        (fun e he _ => ⟨Nat.mod_lt _ (by decide), by omega⟩) fuel ⟨by decide, rfl⟩
    have hge := of_decide_eq_false hend
    omega

theorem motorAckVerdict_ne (c : Codec R) (targetId : UInt8) (m : R) :
    motorAckVerdict c targetId m ≠ .etimedout := by
  rw [motorAckVerdict]
  repeat' split
  all_goals decide

theorem motorStatusVerdict_ne (c : Codec R) (motorId : UInt8) (m : R) :
    motorStatusVerdict c motorId m ≠ .etimedout := by
  rw [motorStatusVerdict]
  repeat' split
  all_goals decide

theorem ftAckVerdict_ne (c : Codec R) (direction : UInt8) (m : R) :
    ftAckVerdict c direction m ≠ .etimedout := by
  rw [ftAckVerdict]
  repeat' split
  all_goals decide

theorem blAckVerdict_ne (c : Codec R) (command : UInt8) (m : R) :
    blAckVerdict c command m ≠ .etimedout := by
  rw [blAckVerdict]
  repeat' split
  all_goals decide

theorem blResultVerdict_ne (c : Codec R) (command expectedResult : UInt8) (m : R) :
    blResultVerdict c command expectedResult m ≠ .etimedout := by
  rw [blResultVerdict]
  repeat' split
  all_goals decide

/-! ### What the first acknowledgement determines -/

def isAwaited (c : Codec R) (awaited : MsgId) (f : Frame R) : Bool := c.msgid f.msg = awaited

/-- The answer that the first awaited frame of a stream determines. -/
def determined (c : Codec R) (awaited : MsgId) (verdict : R → Status) (timedOut : Option Status)
    (fs : List (Frame R)) : Option Status :=
  match fs.find? (isAwaited c awaited) with
  | some first => some (verdict first.msg)
  | none => timedOut

variable {first : Frame R} {n : Nat} {chunk : List UInt8}

theorem determined_some {c : Codec R} {awaited : MsgId} {fs : List (Frame R)}
    (h : fs.find? (isAwaited c awaited) = some first) (verdict : R → Status)
    (timedOut : Option Status) :
    determined c awaited verdict timedOut fs = some (verdict first.msg) := by
  unfold determined
  rw [h]

theorem determined_none {c : Codec R} {awaited : MsgId} {fs : List (Frame R)}
    (h : fs.find? (isAwaited c awaited) = none) (verdict : R → Status) (timedOut : Option Status) :
    determined c awaited verdict timedOut fs = timedOut := by
  unfold determined
  rw [h]

/-- The message in the parser after `n` bytes of a stream. -/
def shown (F : Framer σ R) (s : σ) (fs : List (Frame R)) (n : Nat) : R :=
  F.msg (F.run s ((stream fs).take n))

/-- A stream ends with an awaited frame, if it has any. -/
def EndsAwaited (c : Codec R) (awaited : MsgId) (fs : List (Frame R)) : Prop :=
  (∃ f ∈ fs, c.msgid f.msg = awaited) →
    ∃ last, fs.getLast? = some last ∧ c.msgid last.msg = awaited

/-- **Streams whose cuts do not matter** to a waiter that looks at the last message of a receive:
if they have an awaited frame they end with one, and after every awaited frame, and wherever the
next frame is cut, the parser shows the same answer as after the first. -/
structure Settled (F : Framer σ R) (c : Codec R) (awaited : MsgId) (verdict : R → Status) (s : σ)
    (fs : List (Frame R)) : Prop where
  ends  : EndsAwaited c awaited fs
  shows : ∀ n m, (completed fs n).getLast? = some m → c.msgid m = awaited →
    ∀ first, fs.find? (isAwaited c awaited) = some first → verdict (shown F s fs n) = verdict first.msg

/-- The same for a waiter that looks at `rx_msg`: wherever a receive can end, an acknowledgement in
`rx_msg`, be it one from before the wait, shows that answer. -/
structure SettledMsg (F : Framer σ R) (c : Codec R) (awaited : MsgId) (verdict : R → Status) (s : σ)
    (fs : List (Frame R)) : Prop where
  ends  : EndsAwaited c awaited fs
  shows : ∀ n, 1 ≤ n → n ≤ (stream fs).length → c.msgid (shown F s fs n) = awaited →
    determined c awaited verdict none fs = some (verdict (shown F s fs n))

/-- Receives that deliver a stream, none longer than `limit`. -/
structure Delivers (fs : List (Frame R)) (limit : Nat) (chunks : List (List UInt8)) : Prop where
  whole : chunks.flatten = stream fs
  sized : ∀ chunk ∈ chunks, chunk.length ≤ limit

/-! ### One receive -/

variable {m : R}

section receive

variable {F : Framer σ R} {c : Codec R} {idle : σ → Prop} {fs : List (Frame R)} {s : σ}
  {awaited : MsgId} {verdict : R → Status}

/-- The position in the stream before and after a receive. -/
theorem receive_at (hs : idle s) (hreads : ∀ f ∈ fs, F.Reads idle f) {d : Device σ}
    {more : List UInt8} (hd : d.rx = F.run s ((stream fs).take n))
    (hdrop : (stream fs).drop n = chunk ++ more) :
    (d.receiveAndProcess F c chunk).2.rx = F.run s ((stream fs).take (n + chunk.length)) ∧
    completed fs (n + chunk.length) = completed fs n ++ F.reports d.rx chunk ∧
    (stream fs).drop (n + chunk.length) = more := by
  have htake : (stream fs).take (n + chunk.length) = (stream fs).take n ++ chunk := by
    rw [List.take_add, hdrop, List.take_left]
  refine ⟨?_, ?_, ?_⟩
  · rw [(receiveAndProcess_spec F c d chunk).1, htake, Framer.run_append, hd]
  · rw [← Framer.reports_take hs hreads, ← Framer.reports_take hs hreads, htake,
      Framer.reports_append, hd]
  · rw [← List.drop_drop, hdrop, List.drop_left]

theorem mem_of_completed (h : m ∈ completed fs n) : ∃ f ∈ fs, f.msg = m :=
  List.mem_map.mp ((Lib.completed_prefix n).subset h)

variable {n' : Nat} {reported : List R}

/-- The last message of a receive is the last of all so far. -/
theorem getLast?_completed (h : completed fs n' = completed fs n ++ reported)
    (hm : reported.getLast? = some m) : (completed fs n').getLast? = some m := by
  rw [h, List.getLast?_append, hm, Option.some_or]

/-- A receive that ends the stream reports its last frame. -/
theorem getLast?_reports_of_end (hpos : ∀ f ∈ fs, 0 < f.bytes.length) {last : Frame R}
    (h : completed fs n' = completed fs n ++ reported) (hn : n < (stream fs).length)
    (hn' : (stream fs).length ≤ n') (hlast : fs.getLast? = some last) :
    reported.getLast? = some last.msg := by
  have hmissing := Lib.length_completed_lt hpos hn
  have hall := Lib.completed_of_le hn'
  have hne : reported ≠ [] := by
    rintro rfl
    rw [List.append_nil, hall] at h
    rw [← h, List.length_map] at hmissing
    exact Nat.lt_irrefl _ hmissing
  have hm := List.getLast?_eq_some_getLast hne
  have hend := getLast?_completed h hm
  rw [hall, List.getLast?_map, hlast, Option.map_some] at hend
  rw [hm, ← hend]

end receive

/-! ### The four that look at the last message -/

variable {chunks : List (List UInt8)}

section reply

variable {F : Framer σ R} {c : Codec R} {idle : σ → Prop} {fs : List (Frame R)} {s : σ}
  {awaited : MsgId} {verdict : R → Status} {timeout : Nat}

theorem awaited_of_find (h : fs.find? (isAwaited c awaited) = some first) :
    ∃ f ∈ fs, c.msgid f.msg = awaited := by
  have hid : isAwaited c awaited first = true := List.find?_some h
  exact ⟨first, List.mem_of_find?_eq_some h, of_decide_eq_true hid⟩

variable {elapsed : Nat}

/-- Without an awaited frame no receive answers. -/
theorem awaitReply_of_none (hs : idle s) (hreads : ∀ f ∈ fs, F.Reads idle f)
    (hnone : ∀ f ∈ fs, c.msgid f.msg ≠ awaited) {d : Device σ}
    (hd : d.rx = F.run s ((stream fs).take n)) (hdrop : (stream fs).drop n = chunks.flatten)
    (htime : elapsed + 10 * chunks.length < timeout + 10) :
    awaitReply F c awaited verdict timeout elapsed chunks d = idleWait timeout := by
  induction chunks generalizing d n elapsed with
  | nil => rfl
  | cons chunk rest ih =>
    rw [List.length_cons] at htime
    have helapsed : (elapsed + 10) % 2 ^ 32 + 10 * rest.length < timeout + 10 :=
      Nat.lt_of_le_of_lt (Nat.add_le_add_right (Nat.mod_le _ _) _) (by omega)
    rw [awaitReply, if_pos (by omega)]
    rw [List.flatten_cons] at hdrop
    split
    · rename_i hempty
      rw [hempty] at hdrop
      exact ih hd hdrop helapsed
    · obtain ⟨hrx, hcompleted, hrest⟩ := receive_at (c := c) hs hreads hd hdrop
      rw [if_neg ?_]
      · exact ih hrx hrest helapsed
      · rw [(receiveAndProcess_spec F c d chunk).2]
        intro hlast
        obtain ⟨m, hm, hid⟩ := Option.map_eq_some_iff.mp hlast
        obtain ⟨f, hf, rfl⟩ := mem_of_completed
          (List.mem_of_getLast? (getLast?_completed hcompleted hm))
        exact hnone f hf hid

/-- With a settled stream the answer is that of the first, as long as bytes are to come. -/
theorem awaitReply_of_settled (hs : idle s) (hreads : ∀ f ∈ fs, F.Reads idle f)
    (hset : Settled F c awaited verdict s fs) (hfirst : fs.find? (isAwaited c awaited) = some first)
    {d : Device σ} (hd : d.rx = F.run s ((stream fs).take n))
    (hdrop : (stream fs).drop n = chunks.flatten) (hmore : chunks.flatten ≠ [])
    (htime : elapsed + 10 * chunks.length < timeout + 10) :
    awaitReply F c awaited verdict timeout elapsed chunks d = some (verdict first.msg) := by
  induction chunks generalizing d n elapsed with
  | nil => exact absurd rfl hmore
  | cons chunk rest ih =>
    rw [List.length_cons] at htime
    have helapsed : (elapsed + 10) % 2 ^ 32 + 10 * rest.length < timeout + 10 :=
      Nat.lt_of_le_of_lt (Nat.add_le_add_right (Nat.mod_le _ _) _) (by omega)
    rw [awaitReply, if_pos (by omega)]
    rw [List.flatten_cons] at hdrop hmore
    split
    · rename_i hempty
      rw [hempty] at hdrop hmore
      exact ih hd hdrop hmore helapsed
    · rename_i hchunk
      obtain ⟨hrx, hcompleted, hrest⟩ := receive_at (c := c) hs hreads hd hdrop
      have hspec := (receiveAndProcess_spec F c d chunk).2
      split
      · -- the receive ends with an awaited frame
        rename_i hlast
        rw [hspec] at hlast
        obtain ⟨m, hm, hid⟩ := Option.map_eq_some_iff.mp hlast
        rw [hrx]
        exact congrArg some
          (hset.shows _ m (getLast?_completed hcompleted hm) hid first hfirst)
      · rename_i hother
        refine ih hrx hrest ?_ helapsed
        -- the receive is not the last, for that one ends with an awaited frame
        intro hend
        obtain ⟨last, hlast, hid⟩ := hset.ends (awaited_of_find hfirst)
        have hlen : (stream fs).length ≤ n + chunk.length :=
          List.drop_eq_nil_iff.mp (hrest.trans hend)
        have hn : n < (stream fs).length := by
          have hcount := congrArg List.length hdrop
          have hchunk := List.length_pos_of_ne_nil hchunk
          rw [List.length_drop, List.length_append] at hcount
          omega
        have hreported := getLast?_reports_of_end
          (fun f hf => (hreads f hf).length_pos hs) hcompleted hn hlen hlast
        refine hother ?_
        rw [hspec, hreported, Option.map_some, hid]

theorem not_awaited_of_find (h : fs.find? (isAwaited c awaited) = none) :
    ∀ f ∈ fs, c.msgid f.msg ≠ awaited := by
  intro f hf hid
  exact List.find?_eq_none.mp h f hf (decide_eq_true hid)

end reply

theorem stream_ne_nil {fs : List (Frame R)} {f : Frame R} (hpos : 0 < f.bytes.length)
    (hf : f ∈ fs) : stream fs ≠ [] := by
  intro hempty
  rw [stream, List.flatten_eq_nil_iff] at hempty
  rw [hempty _ (List.mem_map_of_mem hf)] at hpos
  exact Nat.lt_irrefl _ hpos

/-- Over all cuts into receives that come before the deadline, a waiter answers as determined. -/
def ChunkFree (c : Codec R) (awaited : MsgId) (verdict : R → Status) (fs : List (Frame R))
    (limit : Nat) (waiter : Nat → List (List UInt8) → Option Status) : Prop :=
  ∀ timeout < 2 ^ 32, ∀ chunks, Delivers fs limit chunks → 10 * chunks.length < timeout + 10 →
    waiter timeout chunks = determined c awaited verdict (idleWait timeout) fs

section iff

variable {F : Framer σ R} {c : Codec R} {idle : σ → Prop} {fs : List (Frame R)} {d : Device σ}
  {awaited : MsgId} {verdict : R → Status} {limit : Nat}

theorem awaitReply_chunkFree (hs : idle d.rx) (hreads : ∀ f ∈ fs, F.Reads idle f)
    (hset : Settled F c awaited verdict d.rx fs) :
    ChunkFree c awaited verdict fs limit fun timeout chunks =>
      awaitReply F c awaited verdict timeout 0 chunks d := by
  intro timeout _ chunks hdel htime
  have hdrop : (stream fs).drop 0 = chunks.flatten := by rw [List.drop_zero, hdel.whole]
  cases hfind : fs.find? (isAwaited c awaited) with
  | some first =>
    obtain ⟨f, hf, -⟩ := awaited_of_find hfind
    rw [determined_some hfind]
    refine awaitReply_of_settled hs hreads hset hfind (n := 0) rfl hdrop ?_ (by omega)
    rw [hdel.whole]
    exact stream_ne_nil ((hreads f hf).length_pos hs) hf
  | none =>
    rw [determined_none hfind]
    exact awaitReply_of_none hs hreads (not_awaited_of_find hfind) (n := 0) rfl hdrop (by omega)

/-- A first receive that ends with an awaited frame answers. -/
theorem awaitReply_first {timeout : Nat} (hpos : 0 < timeout) (hchunk : chunk ≠ [])
    {rest : List (List UInt8)} (hm : (F.reports d.rx chunk).getLast? = some m)
    (hid : c.msgid m = awaited) :
    awaitReply F c awaited verdict timeout 0 (chunk :: rest) d =
      some (verdict (F.msg (F.run d.rx chunk))) := by
  have hspec := receiveAndProcess_spec F c d chunk
  rw [awaitReply, if_pos hpos, if_neg hchunk, hspec.1, hspec.2, hm, Option.map_some, hid,
    if_pos rfl]

theorem settled_of_chunkFree (hs : idle d.rx) (hreads : ∀ f ∈ fs, F.Reads idle f)
    (hv : ∀ m, verdict m ≠ .etimedout) (hlimit : (stream fs).length ≤ limit)
    (hfree : ChunkFree c awaited verdict fs limit fun timeout chunks =>
      awaitReply F c awaited verdict timeout 0 chunks d) :
    Settled F c awaited verdict d.rx fs where
  ends := by
    rintro ⟨f, hf, hid⟩
    obtain ⟨last, hlast⟩ : ∃ last, fs.getLast? = some last :=
      ⟨_, List.getLast?_eq_some_getLast (List.ne_nil_of_mem hf)⟩
    refine ⟨last, hlast, Decidable.byContradiction fun hother => ?_⟩
    -- the whole stream in one receive goes unanswered
    have hpos : ∀ g ∈ fs, 0 < g.bytes.length := fun g hg => (hreads g hg).length_pos hs
    have hne : stream fs ≠ [] := stream_ne_nil (hpos f hf) hf
    have hreported : (F.reports d.rx (stream fs)).getLast? = some last.msg := by
      have hall := Framer.reports_take hs hreads (stream fs).length
      rw [List.take_length, Lib.completed_of_le (Nat.le_refl _)] at hall
      rw [hall, List.getLast?_map, hlast, Option.map_some]
    have hone : awaitReply F c awaited verdict 10 0 [stream fs] d = _ :=
      hfree 10 (by decide) [stream fs] ⟨List.flatten_singleton, by simpa using hlimit⟩
        (Nat.lt_of_sub_eq_succ rfl)
    rw [awaitReply, if_neg hne, (receiveAndProcess_spec F c d _).2, hreported,
      Option.map_some, if_neg (fun heq => hother (Option.some.inj heq))] at hone
    cases hfind : fs.find? (isAwaited c awaited) with
    | some first =>
      rw [determined_some hfind] at hone
      exact hv _ (Option.some.inj hone).symm
    | none => exact not_awaited_of_find hfind f hf hid
  shows := by
    intro n m hm hid first hfirst
    -- a first receive of `n` bytes
    have hreported : (F.reports d.rx ((stream fs).take n)).getLast? = some m := by
      rw [Framer.reports_take hs hreads]
      exact hm
    have hne : (stream fs).take n ≠ [] := by
      intro hempty
      rw [hempty] at hreported
      exact absurd hreported.symm (Option.some_ne_none m)
    have htwo : awaitReply F c awaited verdict 20 0 [(stream fs).take n, (stream fs).drop n] d = _ :=
      hfree 20 (by decide) [(stream fs).take n, (stream fs).drop n]
        ⟨by simp, by simp; omega⟩ (Nat.lt_of_sub_eq_succ rfl)
    rw [awaitReply_first (by decide) hne hreported hid, determined_some hfirst] at htwo
    exact Option.some.inj htwo

/-- **A reply awaited.** -/
theorem awaitReply_chunkFree_iff (hs : idle d.rx) (hreads : ∀ f ∈ fs, F.Reads idle f)
    (hv : ∀ m, verdict m ≠ .etimedout) (hlimit : (stream fs).length ≤ limit) :
    (ChunkFree c awaited verdict fs limit fun timeout chunks =>
        awaitReply F c awaited verdict timeout 0 chunks d) ↔
      Settled F c awaited verdict d.rx fs :=
  ⟨settled_of_chunkFree hs hreads hv hlimit, awaitReply_chunkFree hs hreads⟩

/-! ### The one that looks at `rx_msg` -/

theorem waitBootloaderAck_of_settled {command expected : UInt8} {s : σ} (hs : idle s)
    (hreads : ∀ f ∈ fs, F.Reads idle f)
    (hset : SettledMsg F c .bootloaderAck (blResultVerdict c command expected) s fs)
    (hd : d.rx = F.run s ((stream fs).take n)) (hdrop : (stream fs).drop n = chunks.flatten) :
    some (waitBootloaderAck F c command expected chunks d) =
      if chunks.flatten = [] then some .etimedout
      else determined c .bootloaderAck (blResultVerdict c command expected) (some .etimedout) fs := by
  induction chunks generalizing d n with
  | nil => rfl
  | cons chunk rest ih =>
    rw [waitBootloaderAck]
    rw [List.flatten_cons] at hdrop ⊢
    by_cases hempty : chunk = []
    · rw [hempty] at hdrop ⊢
      exact ih hd hdrop
    · rw [if_neg hempty, if_neg (fun hnil => hempty (List.append_eq_nil_iff.mp hnil).1)]
      obtain ⟨hrx, -, hrest⟩ := receive_at (c := c) hs hreads hd hdrop
      have hcount := congrArg List.length hdrop
      have hpos := List.length_pos_of_ne_nil hempty
      rw [List.length_drop, List.length_append] at hcount
      by_cases hack : c.msgid (shown F s fs (n + chunk.length)) = .bootloaderAck
      · rw [hrx, if_neg (fun hno => hno hack)]
        have hshows := hset.shows _ (by omega) (by omega) hack
        cases hfind : fs.find? (isAwaited c .bootloaderAck) with
        | some first =>
          rw [determined_some hfind] at hshows ⊢
          exact hshows.symm
        | none =>
          rw [determined_none hfind] at hshows
          exact absurd hshows.symm (Option.some_ne_none _)
      · have hno : c.msgid (F.msg (d.receiveAndProcess F c chunk).2.rx) ≠ .bootloaderAck := by
          rw [hrx]
          exact hack
        rw [if_pos hno, ih hrx hrest]
        split
        · -- the stream is over, and its last frame is not an acknowledgement
          rename_i hend
          cases hfind : fs.find? (isAwaited c .bootloaderAck) with
          | some first =>
            obtain ⟨last, hlast, hid⟩ := hset.ends (awaited_of_find hfind)
            have hlen : (stream fs).length ≤ n + chunk.length :=
              List.drop_eq_nil_iff.mp (hrest.trans hend)
            refine absurd ?_ hack
            rw [shown, List.take_of_length_le hlen, Framer.msg_run_stream hs hreads hlast, hid]
          | none => rw [determined_none hfind]
        · rfl

/-- **The acknowledgement in `rx_msg`.** -/
theorem waitBootloaderAck_chunkFree_iff (command expected : UInt8) (hs : idle d.rx)
    (hreads : ∀ f ∈ fs, F.Reads idle f) (hlimit : (stream fs).length ≤ limit) :
    (∀ chunks, Delivers fs limit chunks →
      some (waitBootloaderAck F c command expected chunks d) =
        determined c .bootloaderAck (blResultVerdict c command expected) (some .etimedout) fs) ↔
      SettledMsg F c .bootloaderAck (blResultVerdict c command expected) d.rx fs := by
  have hv := blResultVerdict_ne c command expected
  constructor
  · intro hfree
    refine ⟨?_, ?_⟩
    · rintro ⟨f, hf, hid⟩
      obtain ⟨last, hlast⟩ : ∃ last, fs.getLast? = some last :=
        ⟨_, List.getLast?_eq_some_getLast (List.ne_nil_of_mem hf)⟩
      refine ⟨last, hlast, Decidable.byContradiction fun hother => ?_⟩
      have hne : stream fs ≠ [] := stream_ne_nil ((hreads f hf).length_pos hs) hf
      have hone := hfree [stream fs] ⟨List.flatten_singleton, by simpa using hlimit⟩
      have hshown : c.msgid (F.msg (d.receiveAndProcess F c (stream fs)).2.rx)
          ≠ .bootloaderAck := by
        rw [(receiveAndProcess_spec F c d _).1, Framer.msg_run_stream hs hreads hlast]
        exact hother
      rw [waitBootloaderAck, if_neg hne, if_pos hshown] at hone
      cases hfind : fs.find? (isAwaited c .bootloaderAck) with
      | some first =>
        rw [determined_some hfind] at hone
        exact hv _ (Option.some.inj hone).symm
      | none => exact not_awaited_of_find hfind f hf hid
    · intro n hn hle hack
      have hne : (stream fs).take n ≠ [] := by
        rw [← List.length_pos_iff, List.length_take]
        omega
      have htwo := hfree [(stream fs).take n, (stream fs).drop n] ⟨by simp, by simp; omega⟩
      rw [waitBootloaderAck, if_neg hne, (receiveAndProcess_spec F c d _).1,
        if_neg (fun hno => hno hack)] at htwo
      cases hfind : fs.find? (isAwaited c .bootloaderAck) with
      | some first =>
        rw [determined_some hfind] at htwo ⊢
        exact htwo.symm
      | none =>
        rw [determined_none hfind] at htwo
        exact absurd (Option.some.inj htwo) (hv _)
  · intro hset chunks hdel
    have hdrop : (stream fs).drop 0 = chunks.flatten := by rw [List.drop_zero, hdel.whole]
    rw [waitBootloaderAck_of_settled hs hreads hset (n := 0) rfl hdrop, hdel.whole]
    split
    · rename_i hempty
      cases hfind : fs.find? (isAwaited c .bootloaderAck) with
      | some first =>
        obtain ⟨f, hf, -⟩ := awaited_of_find hfind
        exact absurd hempty (stream_ne_nil ((hreads f hf).length_pos hs) hf)
      | none => rw [determined_none hfind]
    · rfl

end iff

/-! ### All five -/

/-- **Chunking independence.**  For every stream of frames that the parser reads, each of the five
waiters answers, over all cuts of the stream into receives before its deadline, as the first
acknowledgement determines, exactly if the stream is settled for it.  Cuts may be restricted to
receives of some size, as long as the whole stream fits into one. -/
theorem waiters_chunking_iff (F : Framer σ R) (c : Codec R) (idle : σ → Prop)
    (fs : List (Frame R)) (d : Device σ) (limit : Nat) (hs : idle d.rx)
    (hreads : ∀ f ∈ fs, F.Reads idle f) (hlimit : (stream fs).length ≤ limit) :
    (∀ targetId speed direction,
      ChunkFree c .motorAck (motorAckVerdict c targetId) fs limit
          (sendMotorControl F c d targetId speed direction) ↔
        Settled F c .motorAck (motorAckVerdict c targetId) d.rx fs) ∧
    (∀ motorId,
      ChunkFree c .motorStatus (motorStatusVerdict c motorId) fs limit
          (queryMotorStatus F c d motorId) ↔
        Settled F c .motorStatus (motorStatusVerdict c motorId) d.rx fs) ∧
    (∀ direction path fileSize,
      ChunkFree c .fileTransferAck (ftAckVerdict c direction) fs limit
          (sendFtStart F c d direction path fileSize) ↔
        Settled F c .fileTransferAck (ftAckVerdict c direction) d.rx fs) ∧
    (∀ command firmwareSize firmwareCrc32 filename,
      ChunkFree c .bootloaderAck (blAckVerdict c command) fs limit
          (sendBootloaderUpdate F c d command firmwareSize firmwareCrc32 filename) ↔
        Settled F c .bootloaderAck (blAckVerdict c command) d.rx fs) ∧
    ∀ command expectedResult,
      (∀ chunks, Delivers fs limit chunks →
        some (waitBootloaderAck F c command expectedResult chunks d) =
          determined c .bootloaderAck (blResultVerdict c command expectedResult)
            (some .etimedout) fs) ↔
        SettledMsg F c .bootloaderAck (blResultVerdict c command expectedResult) d.rx fs := by
  refine ⟨?_, ?_, ?_, ?_, ?_⟩
  · intro targetId speed direction
    exact awaitReply_chunkFree_iff (d := d.send _) hs hreads (motorAckVerdict_ne c targetId) hlimit
  · intro motorId
    exact awaitReply_chunkFree_iff (d := d.send _) hs hreads (motorStatusVerdict_ne c motorId) hlimit
  · intro direction path fileSize
    exact awaitReply_chunkFree_iff (d := d.send _) hs hreads (ftAckVerdict_ne c direction) hlimit
  · intro command firmwareSize firmwareCrc32 filename
    exact awaitReply_chunkFree_iff (d := d.send _) hs hreads (blAckVerdict_ne c command) hlimit
  · intro command expectedResult
    exact waitBootloaderAck_chunkFree_iff command expectedResult hs hreads hlimit

/-- A parser of frames of one byte, which is the message. -/
def byteFramer : Framer UInt8 UInt8 := ⟨fun _ b => (b, true), fun b => b⟩

/-- Byte 0 is a positive `MOTOR_ACK`, every other byte a heartbeat. -/
def byteCodec : Codec UInt8 where
  msgid := fun b => if b = 0 then .motorAck else .systemHeartbeat
  motorControl := fun _ => ⟨0, 0, 0⟩
  motorStatusQuery := fun _ => 0
  motorStatus := fun _ => ⟨0, 0, 0, 0⟩
  motorAck := fun _ => ⟨0, MAV_ACK_RESULT_OK⟩
  imageControl := fun _ => ⟨0, 0⟩
  systemHeartbeat := fun _ => ⟨MAV_SYSTEM_STATUS_ACTIVE, 0, 0⟩
  fileTransferStart := fun _ => ⟨0, 0, []⟩
  fileTransferAck := fun _ => ⟨0, 0, 0⟩
  fileTransferProgress := fun _ => ⟨0, 0, 0, 0⟩
  fileTransferCancel := fun _ => 0
  bootloaderUpdateCmd := fun _ => ⟨0, 0, 0, []⟩
  bootloaderAck := fun _ => ⟨0, 0⟩
  ringCmd := fun _ => ⟨0, 0, 0, 0, 0, 0, 0, []⟩
  ringAck := fun _ => ⟨0, 0, 0⟩
  ringError := fun _ => ⟨0, 0, 0, 0, 0⟩

def byteFrame (b : UInt8) : Frame UInt8 := ⟨[b], b⟩

theorem byteFramer_reads (b : UInt8) : byteFramer.Reads (fun _ => True) (byteFrame b) where
  early := by
    intro s _ n hn
    obtain rfl : n = 0 := Nat.lt_one_iff.mp hn
    rfl
  whole := fun _ _ => rfl
  msg   := fun _ _ => rfl
  idle  := fun _ _ => trivial

/-- A heartbeat before the acknowledgement does no harm. -/
theorem waiters_chunking_iff_heartbeat :
    (∀ f ∈ [byteFrame 1, byteFrame 0], byteFramer.Reads (fun _ => True) f) ∧
    (ChunkFree byteCodec .motorAck (motorAckVerdict byteCodec 0) [byteFrame 1, byteFrame 0] 1023
        (sendMotorControl byteFramer byteCodec (mavlinkInit 1) 0 900 1) ↔
      Settled byteFramer byteCodec .motorAck (motorAckVerdict byteCodec 0) 1
        [byteFrame 1, byteFrame 0]) := by
  have hreads : ∀ f ∈ [byteFrame 1, byteFrame 0], byteFramer.Reads (fun _ => True) f := by
    intro f hf
    simp only [List.mem_cons, List.not_mem_nil, or_false] at hf
    rcases hf with rfl | rfl
    · exact byteFramer_reads 1
    · exact byteFramer_reads 0
  exact ⟨hreads, (waiters_chunking_iff byteFramer byteCodec (fun _ => True) _ (mavlinkInit 1) 1023
    trivial hreads (by decide)).1 0 900 1⟩

/-- **A heartbeat after it does**: received together with the acknowledgement it hides it, and the
waiter times out where it succeeds with one receive for each. -/
theorem heartbeat_hides_ack :
    (∀ f ∈ [byteFrame 0, byteFrame 1], byteFramer.Reads (fun _ => True) f) ∧
    Delivers [byteFrame 0, byteFrame 1] 1023 [[0], [1]] ∧
    Delivers [byteFrame 0, byteFrame 1] 1023 [[0, 1]] ∧
    sendMotorControl byteFramer byteCodec (mavlinkInit 1) 0 900 1 100 [[0], [1]] = some .ok ∧
    sendMotorControl byteFramer byteCodec (mavlinkInit 1) 0 900 1 100 [[0, 1]] =
      some .etimedout := by
  refine ⟨?_, ⟨rfl, by decide⟩, ⟨rfl, by decide⟩, by decide, by decide⟩
  intro f hf
  simp only [List.mem_cons, List.not_mem_nil, or_false] at hf
  rcases hf with rfl | rfl
  · exact byteFramer_reads 0
  · exact byteFramer_reads 1

end Kinetis.Mavlink
