import Kinetis.Hydrology.DeviceProcess
import Kinetis.Hydrology.HostReceive

/-!
# Hydrology — a session as the host receives it

`hydrology_host_process_m3` of `hydrology-host.c`: frames are received and processed one after the
other up to the one that does not end in `ETB`; a frame that was not processed is noted in a bitmap,
and at the end every frame noted there is requested again.

The note is taken right before the function returns: a frame that is not processed ends the
session, and the requests at its end find an empty bitmap.

* `hostProcessM3_run`: what a session of frames comes to.
* `session_law_iff`: a session is carried through exactly when every frame is processed.
-/

namespace Kinetis.Hydrology
open Lib

/-- What a session meets, reception by reception. -/
structure HostLink where
  env     : Nat → Env
  /-- `hydrology_port_receive`. -/
  receive : Nat → Except Errno Input
  /-- `hydrology_host_print_up_packet`. -/
  print   : Nat → Option Errno
  /-- How long the loop over interleaved elements may run. -/
  fuel    : Nat → Nat

/-- `hydrology_host_process_receieve`: its result.  What `hydrology_response_upstream` returns is not
looked at. -/
def hostReceieveResult (heap : Heap) (fuel : Nat) (print : Option Errno) (inp : Input) :
    Option Errno :=
  if kmalloc heap .packet 1 then
    match (hostParse inp heap fuel).2.error with
    | some e => some e
    | none => print
  else some .enomem

def HostLink.receieve (l : HostLink) (i : Nat) (inp : Input) : Option Errno :=
  hostReceieveResult (l.env i).heap (l.fuel i) (l.print i) inp

/-! ### A request for a frame -/

/-- `hydrology_host_make_err_down_tail_and_send`; the frame number is a `u8`. -/
def hostMakeErrDownTailAndSend (env : Env) (p : DownPacket) (mode : Mode) (funcode : BodyType)
    (errPacket : UInt8) : Sent :=
  let size := (p.header.len + p.body.len + 3) % 2 ^ 16
  if kmalloc env.heap .frame size then
    let h := (p.header.setSequence errPacket.toNat 0).addLen p.body.len
    let r := sendFrame (.alloc size) (h.downBytes.take h.headerLen)
      (downPieces env mode funcode.downCase p.body) NAK
    ⟨none, [r.2], [r.1]⟩
  else ⟨some .enomem, [], []⟩

/-- What the requests of a session came to. -/
structure Requests where
  /-- How many receptions there were before. -/
  received : Nat
  /-- The frames that were requested. -/
  numbers  : List UInt8
  /-- Those that were received again, and processed. -/
  repaired : List UInt8

/-- `hydrology_host_process_m3_err_packet`, with no element table.  A request without an answer is
made again, up to three times. -/
def hostProcessM3ErrPacket (l : HostLink) (funcode : BodyType) (errPacket : UInt8) (cerr : UInt8)
    (q : Requests) : Requests :=
  match hostMakePacket (l.env q.received) [] .m3 funcode with
  | .error _ => q
  | .ok p =>
    match (hostMakeErrDownTailAndSend (l.env q.received) p .m3 funcode errPacket).error with
    | some _ => q
    | none =>
      let q' := { q with received := q.received + 1, numbers := q.numbers ++ [errPacket] }
      match l.receive q.received with
      | .error _ =>
        if cerr + 1 ≥ 3 then q'
        else hostProcessM3ErrPacket l funcode errPacket (cerr + 1) q'
      | .ok inp =>
        match l.receieve q.received inp with
        | some _ => q'
        | none => { q' with repaired := q'.repaired ++ [errPacket] }
termination_by (3 - cerr).toNat
decreasing_by exact (cerr_decreases ‹_›).1

/-! ### The session -/

structure M3 where
  packetCnt : UInt16
  bitMap    : Nat → UInt32
  received  : Nat

/-- `bit_map[i / 32] & (1 << (i % 32))`. -/
def M3.noted (s : M3) (i : Nat) : Bool := s.bitMap (i / 32) &&& (1 <<< UInt32.ofNat (i % 32)) ≠ 0

/-- `bit_map[packet_cnt / 32] = 1 << (packet_cnt % 32)`. -/
def M3.note (s : M3) : M3 :=
  let i := s.packetCnt.toNat
  { s with bitMap := Function.update s.bitMap (i / 32) (1 <<< UInt32.ofNat (i % 32)) }

/-- The requests at the end of a session; a byte that is no function code takes no case, as
`LINK_REPORT` does. -/
def requestNoted (l : HostLink) (code : UInt8) (s : M3) : Requests :=
  (List.range s.packetCnt.toNat).foldl
    (fun q i =>
      if s.noted i then
        hostProcessM3ErrPacket l ((BodyType.ofCode code).getD .link) (UInt8.ofNat (i + 1)) 0 q
      else q)
    ⟨s.received, [], []⟩

structure M3Done where
  result   : Option Errno
  requests : Requests

/-- It returns where it stands, without a request. -/
def M3.stop (s : M3) (result : Option Errno) : M3Done := ⟨result, s.received, [], []⟩

/-- A frame more is received. -/
def M3.received1 (s : M3) : M3 := { s with received := s.received + 1 }

/-- A frame more is processed. -/
def M3.counted (s : M3) : M3 := { s with packetCnt := s.packetCnt + 1 }

/-- `hydrology_host_process_m3`, over at most `rounds` receptions; `none` when it is still
receiving. -/
def hostProcessM3 (l : HostLink) : Nat → M3 → Option M3Done
  | 0, _ => none
  | rounds + 1, s =>
    match l.receive s.received with
    | .error e => some (s.stop (some e))
    | .ok inp =>
      match l.receieve s.received inp with
      | some e => some (s.received1.note.stop (some e))
      | none =>
        if inp.endIdentifier = ETB then hostProcessM3 l rounds s.received1.counted
        else some ⟨none, requestNoted l (inp.byte 10) s.received1.counted⟩

def M3.start : M3 := ⟨0, fun _ => 0, 0⟩

/-! ### What a session comes to -/

variable {l : HostLink} {frames : List Input} {s : M3}

/-- From reception `i` on the frames of a session arrive, in order: all but the last end in `ETB`,
and the last one in `ETX`. -/
inductive UplinkSession (l : HostLink) : Nat → List Input → Prop where
  | last {i : Nat} {inp : Input} (hr : l.receive i = .ok inp) (hend : inp.endIdentifier = ETX) :
      UplinkSession l i [inp]
  | more {i : Nat} {inp : Input} {frames : List Input} (hr : l.receive i = .ok inp)
      (hend : inp.endIdentifier = ETB) (hrest : UplinkSession l (i + 1) frames) :
      UplinkSession l i (inp :: frames)

/-- Nothing is noted in an empty bitmap. -/
theorem requestNoted_nil (code : UInt8) (h : s.bitMap = fun _ => 0) :
    requestNoted l code s = ⟨s.received, [], []⟩ := by
  have hnoted : ∀ i, s.noted i = false := by
    intro i
    rw [M3.noted, h]
    simp
  rw [requestNoted]
  generalize List.range s.packetCnt.toNat = is
  induction is with
  | nil => rfl
  | cons i is ih => rw [List.foldl_cons, hnoted, if_neg Bool.false_ne_true, ih]

/-- Every frame of the session is processed. -/
def AllProcessed (l : HostLink) (i : Nat) (frames : List Input) : Prop :=
  ∀ k (hk : k < frames.length), l.receieve (i + k) frames[k] = none

variable {inp : Input}

theorem allProcessed_cons {i : Nat} :
    AllProcessed l i (inp :: frames) ↔ l.receieve i inp = none ∧ AllProcessed l (i + 1) frames := by
  constructor
  · intro h
    refine ⟨h 0 (Nat.succ_pos _), fun k hk => ?_⟩
    have hnext := h (k + 1) (Nat.succ_lt_succ hk)
    rw [← Nat.add_assoc, Nat.add_right_comm] at hnext
    exact hnext
  · rintro ⟨hfirst, hrest⟩ k hk
    cases k with
    | zero => exact hfirst
    | succ k =>
      have hnext := hrest k (Nat.lt_of_succ_lt_succ hk)
      rw [Nat.add_right_comm] at hnext
      exact hnext

/-- What a session comes to: with every frame processed it takes them all and returns 0, and
otherwise it returns an error; it requests nothing. -/
structure RunsTo (l : HostLink) (i : Nat) (frames : List Input) (d : M3Done) : Prop where
  silent   : d.requests.numbers = []
  result   : d.result = none ↔ AllProcessed l i frames
  received : d.result = none → d.requests.received = i + frames.length

variable {e : Errno}

/-- A frame that is not processed ends the session. -/
theorem hostProcessM3_failed (hr : l.receive s.received = .ok inp)
    (he : l.receieve s.received inp = some e) (rounds : Nat) :
    hostProcessM3 l (rounds + 1) s = some (s.received1.note.stop (some e)) := by
  rw [hostProcessM3, hr]
  dsimp only
  rw [he]

/-- A frame that is processed goes on to the next one, or to the requests. -/
theorem hostProcessM3_processed (hr : l.receive s.received = .ok inp)
    (he : l.receieve s.received inp = none) (rounds : Nat) :
    hostProcessM3 l (rounds + 1) s =
      if inp.endIdentifier = ETB then hostProcessM3 l rounds s.received1.counted
      else some ⟨none, requestNoted l (inp.byte 10) s.received1.counted⟩ := by
  rw [hostProcessM3, hr]
  dsimp only
  rw [he]

/-- A session whose first frame is not processed. -/
theorem run_of_failed (hr : l.receive s.received = .ok inp)
    (he : l.receieve s.received inp = some e) :
    ∃ d : M3Done, (∀ rounds ≥ (inp :: frames).length, hostProcessM3 l rounds s = some d) ∧
      RunsTo l s.received (inp :: frames) d := by
  refine ⟨s.received1.note.stop (some e), fun rounds hrounds => ?_, ?_⟩
  · obtain ⟨n, rfl⟩ := Nat.exists_eq_add_of_le' (Nat.le_trans (Nat.succ_pos _) hrounds)
    exact hostProcessM3_failed hr he n
  · have hne : (s.received1.note.stop (some e)).result ≠ none := Option.some_ne_none e
    refine ⟨rfl, iff_of_false hne fun hall => ?_, fun h => absurd h hne⟩
    rw [(allProcessed_cons.mp hall).1] at he
    cases he

/-- **A session**, from an empty bitmap. -/
theorem hostProcessM3_run (h : UplinkSession l s.received frames) (hmap : s.bitMap = fun _ => 0) :
    ∃ d : M3Done, (∀ rounds ≥ frames.length, hostProcessM3 l rounds s = some d) ∧
      RunsTo l s.received frames d := by
  obtain ⟨i, hi⟩ : ∃ i, s.received = i := ⟨_, rfl⟩
  rw [hi] at h
  induction h generalizing s with
  | @last i inp hr hend =>
    subst hi
    cases hres : l.receieve s.received inp with
    | some e => exact run_of_failed hr hres
    | none =>
      have hetx : inp.endIdentifier ≠ ETB := by rw [hend]; decide
      refine ⟨⟨none, requestNoted l (inp.byte 10) s.received1.counted⟩, fun rounds hrounds => ?_,
        ?_⟩
      · obtain ⟨n, rfl⟩ := Nat.exists_eq_add_of_le' hrounds
        rw [List.length_singleton, hostProcessM3_processed hr hres, if_neg hetx]
      · rw [requestNoted_nil _ (show s.received1.counted.bitMap = _ from hmap)]
        refine ⟨rfl, iff_of_true rfl (allProcessed_cons.mpr ⟨hres, ?_⟩), fun _ => rfl⟩
        exact fun k hk => absurd hk (Nat.not_lt_zero k)
  | @more i inp frames hr hend hrest ih =>
    subst hi
    cases hres : l.receieve s.received inp with
    | some e => exact run_of_failed hr hres
    | none =>
      obtain ⟨d, hd, hruns⟩ := ih (s := s.received1.counted) hmap rfl
      refine ⟨d, fun rounds hrounds => ?_, hruns.silent, ?_, fun h => ?_⟩
      · obtain ⟨n, rfl⟩ := Nat.exists_eq_add_of_le' (Nat.le_trans (Nat.succ_pos _) hrounds)
        rw [hostProcessM3_processed hr hres, if_pos hend]
        rw [List.length_cons] at hrounds
        exact hd n (by omega)
      · rw [allProcessed_cons, hruns.result]
        exact ⟨fun hall => ⟨hres, hall⟩, fun hall => hall.2⟩
      · rw [hruns.received h]
        exact Nat.succ_add_eq_add_succ _ _

/-- **What a session should come to**: the frames are received up to the last one, a request is made
for exactly the frames that were not processed, by their number, and 0 is returned only if each of
these was received again and processed. -/
structure SessionLaw (l : HostLink) (frames : List Input) (d : M3Done) : Prop where
  upToEnd  : frames.length ≤ d.requests.received
  requests : ∀ n : Nat, (∃ m ∈ d.requests.numbers, m.toNat = n) ↔
    ∃ k, ∃ hk : k < frames.length, n = k + 1 ∧ l.receieve k frames[k] ≠ none
  repaired : d.result = none → ∀ k, ∀ hk : k < frames.length, l.receieve k frames[k] ≠ none →
    ∃ m ∈ d.requests.repaired, m.toNat = k + 1

/-- **A session of frames**, any of which may fail to be processed: with enough rounds it returns,
and it keeps the law exactly when every frame is processed. -/
theorem session_law_iff (l : HostLink) (frames : List Input) (h : UplinkSession l 0 frames) :
    ∃ d : M3Done, (∀ rounds ≥ frames.length, hostProcessM3 l rounds M3.start = some d) ∧
      (SessionLaw l frames d ↔ ∀ k, ∀ hk : k < frames.length, l.receieve k frames[k] = none) := by
  obtain ⟨d, hd, hruns⟩ := hostProcessM3_run (s := M3.start) h rfl
  have hall : AllProcessed l 0 frames ↔ ∀ k, ∀ hk : k < frames.length, l.receieve k frames[k] = none := by
    simp only [AllProcessed, Nat.zero_add]
  refine ⟨d, hd, ?_⟩
  rw [← hall]
  constructor
  · intro hlaw k hk
    rw [Nat.zero_add]
    by_contra hne
    -- the frame would have been requested, and nothing is
    obtain ⟨m, hm, -⟩ := (hlaw.requests (k + 1)).mpr ⟨k, hk, rfl, hne⟩
    rw [hruns.silent] at hm
    exact List.not_mem_nil hm
  · intro hproc
    have hok := hall.mp hproc
    refine ⟨?_, fun n => iff_of_false ?_ ?_, fun _ k hk hne => absurd (hok k hk) hne⟩
    · rw [hruns.received (hruns.result.mpr hproc)]
      exact Nat.le_add_left _ _
    · rintro ⟨m, hm, -⟩
      rw [hruns.silent] at hm
      exact List.not_mem_nil hm
    · rintro ⟨k, hk, -, hne⟩
      exact hne (hok k hk)

/-- A frame of a link report, with stream number and time. -/
def linkFrame (end_ : UInt8) : List UInt8 :=
  frameOf [SOH, SOH, 1, 0, 0, 0, 0, 0, 0, 0, 0x2F, 0, 8, STX] [0, 1, 0, 0, 0, 0, 0, 0] end_

/-- A line on which `first` arrives, and then a last frame. -/
def twoFrames (first : List UInt8) : HostLink where
  env _ := calmEnv
  receive i := .ok (.ofFrame (if i = 0 then first else linkFrame ETX))
  print _ := none
  fuel _ := 0

theorem twoFrames_session {first : List UInt8} (h : (Input.ofFrame first).endIdentifier = ETB) :
    UplinkSession (twoFrames first) 0 [.ofFrame first, .ofFrame (linkFrame ETX)] :=
  .more rfl h (.last rfl (by decide +kernel))

/-- Two frames as they should be. -/
theorem session_law_two : ∃ d : M3Done,
    hostProcessM3 (twoFrames (linkFrame ETB)) 2 M3.start = some d ∧
      SessionLaw (twoFrames (linkFrame ETB))
        [.ofFrame (linkFrame ETB), .ofFrame (linkFrame ETX)] d := by
  obtain ⟨d, hd, hiff⟩ := session_law_iff (twoFrames (linkFrame ETB)) _
    (twoFrames_session (by decide +kernel))
  exact ⟨d, hd 2 (Nat.le_refl 2), hiff.mpr (by decide +kernel)⟩

/-- The first of two frames arrives with a byte changed: an error is returned, the second frame is
not received, and nothing is requested. -/
theorem failed_frame_ends_session :
    UplinkSession (twoFrames ((linkFrame ETB).set 14 7)) 0
        [.ofFrame ((linkFrame ETB).set 14 7), .ofFrame (linkFrame ETX)] ∧
      (hostProcessM3 (twoFrames ((linkFrame ETB).set 14 7)) 2 M3.start).map
        (fun d => (d.result.isSome, d.requests.received, d.requests.numbers)) =
          some (true, 1, []) :=
  ⟨twoFrames_session (by decide +kernel), by decide +kernel⟩

end Kinetis.Hydrology
