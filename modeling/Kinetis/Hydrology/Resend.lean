import Kinetis.Hydrology.DeviceProcess
import Kinetis.Hydrology.Uplink
import Kinetis.Lib.Retry

/-!
# Hydrology — frames sent again, and reports sent again

What an exchange does when something went wrong on the way: a `NAK` names a frame of a split report
that did not arrive, and a report that is not answered in time is sent again.

* `nak_resend_iff`: the frame that a `NAK` names is sent again only as long as the request is still
  there, and where the second byte of its sequence field is zero.
* `RetryLaw` says what the attempts of an exchange come to; `retry_law_iff`: when it holds.
-/

namespace Kinetis.Hydrology
open Lib

/-! ### The frame that a request names -/

section Resend

variable {env : Env} {table : List ElementInfo} {funcode : BodyType} {p : UpPacket} {nak : Input}

/-- The number that the device takes from the sequence field of a request. -/
theorem errSeq_eq {h : Header} (hseq : h.countSeq = nak.field 14 3) :
    errSeq h = (nak.byte 15).toNat + (nak.byte 16).toNat := by
  have h1 : h.countSeq.1.getD 1 0 = nak.byte 15 := by
    rw [hseq]
    rfl
  have h2 : h.countSeq.1.getD 2 0 = nak.byte 16 := by
    rw [hseq]
    rfl
  have hmask : (nak.byte 15 &&& 0xFF).toNat = (nak.byte 15).toNat := by
    have : (nak.byte 15).toNat &&& 255 = (nak.byte 15).toNat % 256 :=
      Nat.and_two_pow_sub_one_eq_mod _ 8
    rw [UInt8.toNat_and]
    exact this.trans (Nat.mod_eq_of_lt (nak.byte 15).toNat_lt)
  have := (nak.byte 15).toNat_lt
  have := (nak.byte 16).toNat_lt
  rw [errSeq, h1, h2, hmask]
  exact Nat.mod_eq_of_lt (by omega)

/-- It is the number of the frame when the byte that both numbers share is zero. -/
theorem errSeq_eq_seqNumber_iff {h : Header} (hseq : h.countSeq = nak.field 14 3) :
    errSeq h = nak.seqNumber ↔ nak.seqTotal % 16 = 0 ∧ nak.seqNumber < 256 := by
  have h15 := (nak.byte 15).toNat_lt
  have h16 := (nak.byte 16).toNat_lt
  rw [errSeq_eq hseq, Input.seqNumber, Input.seqTotal]
  omega

/-- A packet that can be made is made again. -/
theorem deviceMakeErrPacket_eq {mode : Mode} (h : deviceMakePacket env table mode funcode = .ok p) :
    deviceMakeErrPacket env table mode funcode = .ok p := by
  rw [deviceMakePacket] at h
  rw [deviceMakeErrPacket]
  by_cases hk : kmalloc env.heap .packet 1 = true
  · rw [if_pos hk] at h ⊢
    generalize deviceMakeUpHeader env.store mode funcode = r at h ⊢
    obtain ⟨err, header⟩ := r
    cases err with
    | some e => cases h
    | none =>
      generalize deviceMakeUpBody env table _ funcode = b at h ⊢
      cases b with
      | error e => cases h
      | ok body => exact h
  · rw [if_neg hk] at h
    cases h

/-- The frame that is sent for a request, whatever number was taken from it. -/
theorem deviceMakeErr_frame {n : Nat} (hc : funcode.upCase.listFixed = some n)
    (hheap : env.heap = Heap.ample) (hlen : p.header.len = 14) (hpos : 0 < p.body.len)
    (hmax : p.body.len < 2 ^ 16) (h : Header) :
    (deviceMakeErrUpTailAndSend env p funcode h).error = none ∧
      (deviceMakeErrUpTailAndSend env p funcode h).frames =
        [(deviceSplitTransfer ((bodyPieces funcode.upCase p.body).foldl Writer.put
            ⟨.alloc p.body.len, 0⟩).buf.mem (.alloc 145) p.header p.body.len (errSeq h)
            (splitTotal p.body.len)).2] := by
  have hsize : (p.header.len + bodyMaxLen + 3) % 2 ^ 16 = 145 := by rw [hlen]; rfl
  have hframe : kmalloc env.heap .frame 145 = true := by rw [hheap]; decide
  have hbuffer : kmalloc env.heap .bodyBuffer p.body.len = true := by
    rw [hheap]
    exact kmalloc_ample hpos (by omega)
  rw [deviceMakeErrUpTailAndSend, hsize, if_pos hframe, if_pos hbuffer, splitFrame_list hc]
  exact ⟨rfl, rfl⟩

/-- Frame `k` of a report with the body `data` is what was sent: one frame, accepted, numbered `k` of
as many as the body takes, with its 128 bytes of the body or what is left of it. -/
def ResendsFrame (s : Sent) (data : List UInt8) (k : Nat) : Prop :=
  s.error = none ∧ ∃ frame, s.frames = [frame] ∧ ∀ inp : Input, inp.Holds frame →
    inp.Accepted ∧ inp.seqTotal = (data.length + 127) / 128 ∧ inp.seqNumber = k ∧
      inp.body = slice data (128 * (k - 1)) 128 ∧
      inp.endByte = if k = (data.length + 127) / 128 then ETX else ETB

/-- The frame that is sent for a request is the one it names when the number was read off right. -/
theorem resendsFrame_iff {n : Nat} {data : List UInt8} {h : Header}
    (hc : funcode.upCase.listFixed = some n) (hheap : env.heap = Heap.ample)
    (hh : p.header.Full .m3 funcode 0) (hdata : data.length = p.body.len)
    (hbuffer : readMem ((bodyPieces funcode.upCase p.body).foldl Writer.put
      ⟨.alloc p.body.len, 0⟩).buf.mem 0 p.body.len = data)
    (hmax : p.body.len < 2 ^ 16) (hseq : h.countSeq = nak.field 14 3) (hk0 : 0 < nak.seqNumber)
    (hkT : nak.seqNumber ≤ (data.length + 127) / 128) :
    ResendsFrame (deviceMakeErrUpTailAndSend env p funcode h) data nak.seqNumber ↔
      nak.seqTotal % 16 = 0 ∧ nak.seqNumber < 256 := by
  obtain ⟨herr, hframes⟩ := deviceMakeErr_frame hc hheap hh.len (by omega) hmax h
  have hT : splitTotal p.body.len = (data.length + 127) / 128 := by rw [hdata, splitTotal_eq]
  rw [← errSeq_eq_seqNumber_iff hseq]
  refine ⟨?_, fun hk => ⟨herr, _, hframes, fun inp hin => ?_⟩⟩
  · -- the number in the frame is the one that was taken from the request
    rintro ⟨-, frame, hf, hall⟩
    rw [hframes, deviceSplitTransfer_frame, List.singleton_inj] at hf
    obtain ⟨inp, hin⟩ : ∃ inp : Input, inp.Holds frame := ⟨_, Input.holds_ofFrame frame⟩
    have hnamed := (hall inp hin).2.2.1
    rw [← hf] at hin
    have hl := located_frame hin (framed_split hh.start _ _ _)
    have hlt : errSeq h < 4096 := by
      have := (nak.byte 15).toNat_lt
      have := (nak.byte 16).toNat_lt
      rw [errSeq_eq hseq]
      omega
    obtain ⟨-, hnum⟩ := sequence_at hlt (by omega) hl.seqAt
    exact hnum.symm.trans hnamed
  · have hk1 : errSeq h = nak.seqNumber - 1 + 1 := by omega
    rw [hk1, deviceSplitTransfer_slice hbuffer (by omega)] at hin
    obtain ⟨hacc, htotal, hnum, hbody, hend⟩ := split_frame_at hh.start hdata hmax (by omega) hin
    refine ⟨hacc, htotal.trans hT, hnum.trans (by omega), ?_, ?_⟩
    · rw [hbody, Nat.mul_comm]
    · rw [hend, splitEnd, hT, Nat.sub_add_cancel hk0]

/-- **When the frame that a `NAK` names is sent again.**  The request must still be there when the
frame is made, and of its sequence field the byte that holds the low bits of the total and the high
bits of the number must be zero.  After an answer was processed the request is gone, and reading it
is a fault. -/
theorem nak_resend_iff (env : Env) (table : List ElementInfo) (funcode : BodyType) (n : Nat)
    (hlist : funcode.upCase = .observed ∨ funcode.upCase = .listed)
    (hc : funcode.upCase.listFixed = some n) (htable : table ≠ []) (hcount : table.length < 256)
    (hpos : ∀ info ∈ table.take (funcode.upCount table.length), 0 < info.num)
    (hheap : env.heap = Heap.ample) (hstore : env.store.Healthy)
    (nak : Input) (down : Option Header) (hdown : ∀ h ∈ down, h.countSeq = nak.field 14 3) :
    ∃ p, deviceMakePacket env table .m3 funcode = .ok p ∧
      (0 < nak.seqNumber →
        nak.seqNumber ≤ ((p.body.fixed.take n ++ listBytes p.body.elements).length + 127) / 128 →
        ((∃ s, deviceResend env table .m3 funcode down = some s ∧
          ResendsFrame s (p.body.fixed.take n ++ listBytes p.body.elements) nak.seqNumber) ↔
            down ≠ none ∧ nak.seqTotal % 16 = 0 ∧ nak.seqNumber < 256)) ∧
      ∀ h, deviceResend env table .m3 funcode (downAfter none h) = none := by
  obtain ⟨p, hp, hes, -⟩ := deviceMakePacket_list .m3 hlist htable hheap hstore hpos
  obtain ⟨hh, hm⟩ := deviceMakePacket_ok hcount hp
  have hfile : funcode.upCase.isFile = false := by
    obtain h | h := hlist <;> rw [h] <;> rfl
  have hlen : p.body.len = funcode.upCase.total p.body.elements := by
    rw [hm.len, Nat.mod_eq_of_lt (hm.small hfile)]
  have hmax : p.body.len < 2 ^ 16 := hlen ▸ hm.small hfile
  have hdata : (p.body.fixed.take n ++ listBytes p.body.elements).length = p.body.len := by
    rw [← bodyOf_list hc, length_list hc (hm.whole hfile), hlen]
  have hbuffer := bodyBuffer_list hc (hm.whole hfile) hlen hmax
  rw [bodyOf_list hc] at hbuffer
  have hresend : ∀ down, deviceResend env table .m3 funcode down =
      down.map (deviceMakeErrUpTailAndSend env p funcode) := by
    intro down
    rw [deviceResend, deviceMakeErrPacket_eq hp]
  refine ⟨p, hp, fun hk0 hkT => ?_, fun h => hresend none⟩
  rw [hresend]
  cases down with
  | none =>
    refine iff_of_false ?_ fun h => h.1 rfl
    rintro ⟨s, hs, -⟩
    cases hs
  | some h =>
    have hiff := resendsFrame_iff hc hheap hh hdata hbuffer hmax (hdown h rfl) hk0 hkT
    refine ⟨?_, fun hcond => ⟨_, rfl, hiff.mpr hcond.2⟩⟩
    rintro ⟨s, hs, hsent⟩
    cases hs
    exact ⟨Option.some_ne_none h, hiff.mp hsent⟩

/-- A request for one frame of a test report, its sequence field and its end identifier given. -/
def frameRequest (s0 s1 s2 end_ : UInt8) : List UInt8 :=
  frameOf [SOH, SOH, 0, 0x12, 0x34, 0x56, 0x78, 1, 0, 0, 0x30, 0x80, 8, SYN, s0, s1, s2]
    [0, 1, 0, 0, 0, 0, 0, 0] end_

/-- Five elements of thirty bytes, which take two frames. -/
def fiveElements : List ElementInfo := List.replicate 5 ⟨0x39, 60, 0, 0⟩

theorem fiveElements_packet : ∃ p, deviceMakePacket calmEnv fiveElements .m3 .test = .ok p ∧
    p.body.elements = fiveElements.map (storedElement calmEnv.store) := by
  have hpos : ∀ info ∈ fiveElements.take (BodyType.test.upCount fiveElements.length),
      0 < info.num := by decide
  obtain ⟨p, hp, hes, -⟩ := deviceMakePacket_list .m3 (.inl rfl) (List.cons_ne_nil _ _)
    rfl calmEnv_healthy hpos
  exact ⟨p, hp, hes⟩

/-- Frame 2 of a total of 16, named by a request that is still there. -/
theorem nak_resend_iff_second : ∃ p s,
    deviceMakePacket calmEnv fiveElements .m3 .test = .ok p ∧
      deviceResend calmEnv fiveElements .m3 .test
        (some (deviceParse (.ofFrame (frameRequest 1 0 2 NAK)) Heap.ample).1) = some s ∧
      ResendsFrame s (p.body.fixed.take 23 ++ listBytes p.body.elements) 2 := by
  obtain ⟨p, hp, hiff, -⟩ := nak_resend_iff calmEnv fiveElements .test 23 (.inl rfl) rfl (by decide)
    (by decide) (by decide) rfl calmEnv_healthy (.ofFrame (frameRequest 1 0 2 NAK))
    (some (deviceParse (.ofFrame (frameRequest 1 0 2 NAK)) Heap.ample).1)
    (by simp only [Option.mem_some_iff, forall_eq']; decide +kernel)
  have hnum : (Input.ofFrame (frameRequest 1 0 2 NAK)).seqNumber = 2 := by decide +kernel
  obtain ⟨p', hp', hes⟩ := fiveElements_packet
  cases hp.symm.trans hp'
  rw [hnum] at hiff
  obtain ⟨s, hs, hsent⟩ := (hiff (by decide) (by
    rw [List.length_append, List.length_take, UpBody.length_fixed, hes]
    decide +kernel)).mpr ⟨Option.some_ne_none _, by decide +kernel, by decide⟩
  exact ⟨p, s, hp, hs, hsent⟩

/-- A `NAK` for frame 1 of 2, processed without an error: the request is gone when its frame is to
be sent again.  Had it been there, the frame would have been number 33. -/
theorem nak_read_after_release :
    (Input.ofFrame (frameRequest 0 0x20 1 NAK)).Accepted ∧
      receieveResult Heap.ample (fun _ => none) (.ofFrame (frameRequest 0 0x20 1 NAK)) = none ∧
      deviceResend calmEnv fiveElements .m3 .test
        (downAfter (receieveResult Heap.ample (fun _ => none) (.ofFrame (frameRequest 0 0x20 1 NAK)))
          (deviceParse (.ofFrame (frameRequest 0 0x20 1 NAK)) Heap.ample).1) = none ∧
      errSeq (deviceParse (.ofFrame (frameRequest 0 0x20 1 NAK)) Heap.ample).1 = 33 := by
  have hres : receieveResult Heap.ample (fun _ => none)
      (.ofFrame (frameRequest 0 0x20 1 NAK)) = none := by decide +kernel
  refine ⟨by decide +kernel, hres, ?_, by decide +kernel⟩
  rw [hres, downAfter, deviceResend]
  obtain ⟨p, hp, -⟩ := fiveElements_packet
  rw [deviceMakeErrPacket_eq hp]
  rfl

end Resend

/-! ### The attempts of an exchange -/

section Retry

/-- The answer that came in time for attempt `i`. -/
def Link.answer (l : Link) (i : Nat) : Option Input := (l.receive i).toOption

/-- **What the attempts of an exchange come to.**  At most three transmissions; none after the first
that is answered, whose answer is processed once; and success when an answer was processed with
success. -/
structure RetryLaw (l : Link) (success : Nat → Input → Prop) (x : Exchange) : Prop where
  atMost : x.sends.length ≤ 3
  once   : ∀ j < x.sends.length, ∀ inp, l.answer j = some inp →
    x.sends.length = j + 1 ∧ x.processed = [inp]
  idle   : (∀ j < x.sends.length, l.answer j = none) → x.processed = []
  result : x.ending = .returned none ↔
    ∃ j < x.sends.length, ∃ inp, l.answer j = some inp ∧ success j inp

/-- An attempt after the first, of at most `n`, is the first to be answered, and its answer is
processed with success. -/
def LateSuccess (l : Link) (sent : Nat → Prop) (success : Nat → Input → Prop) (n : Nat) : Prop :=
  ∃ j inp, 0 < j ∧ j < n ∧ (∀ t ≤ j, sent t) ∧ (∀ t < j, l.answer t = none) ∧
    l.answer j = some inp ∧ success j inp

variable {l : Link} {table : List ElementInfo} {funcode : BodyType} {down : Option Header}

/-- Attempts `i`, `i + 1`, … of an exchange, at most `n`: what the first is answered decides. -/
structure Attempted (l : Link) (sent : Nat → Prop) [DecidablePred sent]
    (success : Nat → Input → Prop) (n i : Nat) (x : Exchange) : Prop where
  sends     : x.sends.length = attempts sent l.answer n i
  processed : x.processed = answers sent l.answer n i
  ending    : x.ending = .returned none ↔ sent i ∧ ∃ inp, l.answer i = some inp ∧ success i inp

/-- An exchange whose outcome the first attempt decides keeps the law unless a later one
succeeds. -/
theorem Attempted.law_iff {sent : Nat → Prop} [DecidablePred sent] {success : Nat → Input → Prop}
    {n : Nat} {x : Exchange} (h : Attempted l sent success n 0 x) (hpos : 0 < n) (hn : n ≤ 3) :
    RetryLaw l success x ↔ ¬ LateSuccess l sent success n := by
  have hlt : ∀ j, j < x.sends.length ↔
      j < n ∧ (∀ t ≤ j, sent t) ∧ ∀ t < j, l.answer t = none := by
    intro j
    rw [h.sends, lt_attempts_iff]
    simp only [Nat.zero_add]
  refine ⟨fun law hlate => ?_, fun hlate => ⟨?_, fun j hj inp hinp => ?_, fun hnone => ?_, ?_⟩⟩
  · obtain ⟨j, inp, hj0, hjn, hsent, hnone, hinp, hok⟩ := hlate
    have hret := law.result.mpr ⟨j, (hlt j).mpr ⟨hjn, hsent, hnone⟩, inp, hinp, hok⟩
    obtain ⟨-, inp', hinp', -⟩ := h.ending.mp hret
    rw [hnone 0 hj0] at hinp'
    cases hinp'
  · rw [h.sends]
    exact attempts_le.trans hn
  · rw [h.sends] at hj ⊢
    rw [h.processed]
    exact attempts_answered hj (by rwa [Nat.zero_add])
  · rw [h.processed]
    refine answers_eq_nil fun j hj => ?_
    rw [Nat.zero_add]
    exact hnone j (by rwa [h.sends])
  · rw [h.ending]
    refine ⟨fun ⟨hsent, inp, hinp, hok⟩ => ⟨0, (hlt 0).mpr ⟨hpos, fun t ht => ?_, fun t ht => ?_⟩,
      inp, hinp, hok⟩, ?_⟩
    · obtain rfl : t = 0 := by omega
      exact hsent
    · exact absurd ht (Nat.not_lt_zero t)
    · rintro ⟨j, hj, inp, hinp, hok⟩
      obtain ⟨hjn, hsent, hnone⟩ := (hlt j).mp hj
      obtain rfl | hj0 := Nat.eq_zero_or_pos j
      · exact ⟨hsent 0 le_rfl, inp, hinp, hok⟩
      · exact absurd ⟨j, inp, hj0, hjn, hsent, hnone, hinp, hok⟩ hlate

/-- The report of attempt `i` went out. -/
def SentM2 (l : Link) (table : List ElementInfo) (funcode : BodyType) (i : Nat) : Prop :=
  (deviceProcessSend (l.env i) table .m2 funcode).error = none

instance : DecidablePred (SentM2 l table funcode) := fun i =>
  inferInstanceAs (Decidable ((deviceProcessSend (l.env i) table .m2 funcode).error = none))

/-- The answer of attempt `i` was processed with success, end identifier included. -/
def SucceedsM2 (l : Link) (table : List ElementInfo) (funcode : BodyType) (i : Nat) (inp : Input) :
    Prop := (deviceAnswer l table funcode i inp).ending = .returned none

/-- The frame of attempt `i` was sent again. -/
def SentM3 (l : Link) (table : List ElementInfo) (funcode : BodyType) (down : Option Header)
    (i : Nat) : Prop :=
  (deviceResend (l.env i) table .m3 funcode down).map Sent.error = some none

instance : DecidablePred (SentM3 l table funcode down) := fun i =>
  inferInstanceAs
    (Decidable ((deviceResend (l.env i) table .m3 funcode down).map Sent.error = some none))

/-- The answer of attempt `i` was processed with success; its end identifier only decides what is
done about the line. -/
def SucceedsM3 (l : Link) (i : Nat) (inp : Input) : Prop := l.receieve i inp = none

/-- An answer in an exchange in mode M2 is processed, and nothing more is sent. -/
theorem deviceAnswer_quiet (l : Link) (table : List ElementInfo) (funcode : BodyType) (i : Nat)
    (inp : Input) : (deviceAnswer l table funcode i inp).sends = [] ∧
      (deviceAnswer l table funcode i inp).processed = [inp] := by
  have hstop : ∀ end_ k, (deviceProcessEndIdentifier l table funcode none end_ k).sends = [] ∧
      (deviceProcessEndIdentifier l table funcode none end_ k).processed = [] := by
    intro end_ k
    rw [deviceProcessEndIdentifier]
    split
    · -- the request is gone: there is an error before the frame is made, or a fault
      rw [deviceProcessM3ErrPacket, deviceResend]
      cases deviceMakeErrPacket (l.env k) table .m3 funcode with
      | error e => exact ⟨rfl, rfl⟩
      | ok p => exact ⟨rfl, rfl⟩
    · split <;> exact ⟨rfl, rfl⟩
  rw [deviceAnswer]
  cases l.receieve i inp with
  | some e => exact ⟨rfl, rfl⟩
  | none => exact ⟨(hstop _ _).1, congrArg (inp :: ·) (hstop _ _).2⟩

/-! The three things that can come of an attempt. -/

section Attempt

variable {sent : Nat → Prop} [DecidablePred sent] {success : Nat → Input → Prop} {n i : Nat}
  {x : Exchange} {frames : List (List UInt8)}

theorem attempted_unsent (h : ¬ sent i) (hsends : x.sends = []) (hprocessed : x.processed = [])
    (hending : x.ending ≠ .returned none) : Attempted l sent success n i x := by
  obtain ⟨hlen, htaken⟩ : attempts sent l.answer n i = 0 ∧ answers sent l.answer n i = [] :=
    attempts_of_not h
  refine ⟨?_, hprocessed.trans htaken.symm, iff_of_false hending fun hs => h hs.1⟩
  rw [hlen, hsends]
  rfl

theorem attempted_answered {inp : Input} (h : sent i) (hr : l.receive i = .ok inp)
    (hsends : x.sends = []) (hprocessed : x.processed = [inp])
    (hending : x.ending = .returned none ↔ success i inp) :
    Attempted l sent success (n + 1) i (x.after frames) := by
  have hsome : l.answer i = some inp := by
    rw [Link.answer, hr]
    rfl
  obtain ⟨hlen, htaken⟩ := attempts_of_some (n := n) h hsome
  refine ⟨?_, hprocessed.trans htaken.symm, ?_⟩
  · rw [hlen, Exchange.after, hsends]
    rfl
  · refine hending.trans ⟨fun hok => ⟨h, inp, hsome, hok⟩, fun ⟨_, inp', hinp', hok⟩ => ?_⟩
    cases hsome.symm.trans hinp'
    exact hok

/-- After a timeout the attempts that follow make up the rest, and success is not reported. -/
theorem attempted_timeout {e : Errno} (h : sent i) (hr : l.receive i = .error e)
    (hsends : x.sends.length = attempts sent l.answer n (i + 1))
    (hprocessed : x.processed = answers sent l.answer n (i + 1))
    (hending : x.ending ≠ .returned none) :
    Attempted l sent success (n + 1) i (x.after frames) := by
  have hnone : l.answer i = none := by
    rw [Link.answer, hr]
    rfl
  obtain ⟨hlen, htaken⟩ := attempts_of_none (n := n) h hnone
  refine ⟨?_, hprocessed.trans htaken.symm, iff_of_false hending ?_⟩
  · rw [hlen, ← hsends]
    rfl
  · rintro ⟨-, inp, hinp, -⟩
    cases hnone.symm.trans hinp

end Attempt

/-- One attempt of an exchange in mode M2, given the attempts after it. -/
theorem attempted_m2_step {n i : Nat} {cerr : UInt8} (hlast : cerr + 1 ≥ 3 → n = 0)
    (hnext : ¬ cerr + 1 ≥ 3 → Attempted l (SentM2 l table funcode) (SucceedsM2 l table funcode) n
      (i + 1) (deviceProcessM2 l table funcode (cerr + 1) (i + 1))) :
    Attempted l (SentM2 l table funcode) (SucceedsM2 l table funcode) (n + 1) i
      (deviceProcessM2 l table funcode cerr i) := by
  rw [deviceProcessM2]
  cases he : (deviceProcessSend (l.env i) table .m2 funcode).error with
  | some e =>
    refine attempted_unsent (fun hsent => ?_) rfl rfl
      fun h => Option.some_ne_none e (Ending.returned.inj h)
    exact Option.some_ne_none e (he.symm.trans hsent)
  | none =>
    cases hr : l.receive i with
    | ok inp =>
      obtain ⟨hsends, hprocessed⟩ := deviceAnswer_quiet l table funcode i inp
      exact attempted_answered he hr hsends hprocessed Iff.rfl
    | error e =>
      dsimp only
      by_cases hc : cerr + 1 ≥ 3
      · obtain rfl := hlast hc
        rw [if_pos hc]
        exact attempted_timeout he hr rfl rfl
          fun h => Option.some_ne_none _ (Ending.returned.inj h)
      · rw [if_neg hc]
        have hx := hnext hc
        generalize deviceProcessM2 l table funcode (cerr + 1) (i + 1) = x at hx ⊢
        by_cases hf : x.ending = .fault
        · rw [if_pos hf]
          exact attempted_timeout he hr hx.sends hx.processed
            fun h => Ending.noConfusion (hf.symm.trans h)
        · rw [if_neg hf]
          exact attempted_timeout he hr hx.sends hx.processed
            fun h => Option.some_ne_none e (Ending.returned.inj h)

/-- Three attempts, from a counter of 0. -/
theorem attempted_m2 (i : Nat) :
    Attempted l (SentM2 l table funcode) (SucceedsM2 l table funcode) 3 i
      (deviceProcessM2 l table funcode 0 i) := by
  refine attempted_m2_step (fun h => absurd h (by decide)) fun _ => ?_
  refine attempted_m2_step (fun h => absurd h (by decide)) fun _ => ?_
  exact attempted_m2_step (fun _ => rfl) fun h => absurd h (by decide)

/-- One attempt to send a frame again, given the attempts after it. -/
theorem attempted_m3_step {n i : Nat} {cerr : UInt8} (hlast : cerr + 1 ≥ 3 → n = 0)
    (hnext : ¬ cerr + 1 ≥ 3 → Attempted l (SentM3 l table funcode down) (SucceedsM3 l) n (i + 1)
      (deviceProcessM3ErrPacket l table funcode down .m3 (cerr + 1 + 1) (i + 1))) :
    Attempted l (SentM3 l table funcode down) (SucceedsM3 l) (n + 1) i
      (deviceProcessM3ErrPacket l table funcode down .m3 cerr i) := by
  rw [deviceProcessM3ErrPacket]
  cases hs : deviceResend (l.env i) table .m3 funcode down with
  | none =>
    refine attempted_unsent (fun hsent => ?_) rfl rfl fun h => Ending.noConfusion h
    rw [SentM3, hs] at hsent
    cases hsent
  | some s =>
    dsimp only
    cases he : s.error with
    | some e =>
      refine attempted_unsent (fun hsent => ?_) rfl rfl
        fun h => Option.some_ne_none e (Ending.returned.inj h)
      rw [SentM3, hs, Option.map_some, he] at hsent
      cases hsent
    | none =>
      have hsent : SentM3 l table funcode down i := by rw [SentM3, hs, Option.map_some, he]
      cases hr : l.receive i with
      | ok inp =>
        exact attempted_answered hsent hr rfl rfl
          ⟨fun h => Ending.returned.inj h, fun h => congrArg Ending.returned h⟩
      | error e =>
        by_cases hc : cerr + 1 ≥ 3
        · obtain rfl := hlast hc
          rw [if_pos hc]
          exact attempted_timeout hsent hr rfl rfl
            fun h => Option.some_ne_none _ (Ending.returned.inj h)
        · rw [if_neg hc]
          have hx := hnext hc
          generalize deviceProcessM3ErrPacket l table funcode down .m3 (cerr + 1 + 1) (i + 1) = x
            at hx ⊢
          by_cases hret : x.ending = .returned none
          · -- the answer that this attempt never had is processed
            rw [if_pos hret]
            refine attempted_timeout hsent hr hx.sends hx.processed ?_
            rw [receieveNull]
            split
            · exact fun h => Ending.noConfusion h
            · exact fun h => Option.some_ne_none _ (Ending.returned.inj h)
          · rw [if_neg hret]
            exact attempted_timeout hsent hr hx.sends hx.processed hret

/-- Two attempts, from a counter of 0. -/
theorem attempted_m3 (i : Nat) :
    Attempted l (SentM3 l table funcode down) (SucceedsM3 l) 2 i
      (deviceProcessM3ErrPacket l table funcode down .m3 0 i) := by
  refine attempted_m3_step (fun h => absurd h (by decide)) fun _ => ?_
  exact attempted_m3_step (fun _ => rfl) fun h => absurd h (by decide)

/-- **When the attempts of an exchange come to what they should.**  They do unless an attempt after
the first is the one that succeeds: in mode M2 the first attempt's timeout is returned then, and when
a frame is sent again the answer of the first attempt, which never came, is processed. -/
theorem retry_law_iff (l : Link) (table : List ElementInfo) (funcode : BodyType)
    (down : Option Header) :
    (RetryLaw l (SucceedsM2 l table funcode) (deviceProcessM2 l table funcode 0 0) ↔
      ¬ LateSuccess l (SentM2 l table funcode) (SucceedsM2 l table funcode) 3) ∧
    (RetryLaw l (SucceedsM3 l) (deviceProcessM3ErrPacket l table funcode down .m3 0 0) ↔
      ¬ LateSuccess l (SentM3 l table funcode down) (SucceedsM3 l) 2) :=
  ⟨(attempted_m2 0).law_iff (by decide) (by decide),
    (attempted_m3 0).law_iff (by decide) (by decide)⟩

/-- A line on which the first report stays unanswered, and the second is acknowledged. -/
def lateLink : Link where
  env _ := calmEnv
  receive i := if i = 0 then .error .etimedout else .ok (.ofFrame (frameRequest 0 0x20 1 ACK))
  commands _ _ := none

/-- The second report is acknowledged and the acknowledgement processed, but the timeout of the first
is what is returned; and where a frame is sent again there is a fault. -/
theorem late_answer_lost : ∃ h,
    (deviceProcessM2 lateLink fiveElements .test 0 0).ending = .returned (some .etimedout) ∧
      (deviceProcessM3ErrPacket lateLink fiveElements .test (some h) .m3 0 0).ending = .fault ∧
      (deviceAnswer lateLink fiveElements .test 1
        (.ofFrame (frameRequest 0 0x20 1 ACK))).ending = .returned none := by
  refine ⟨(deviceParse (.ofFrame (frameRequest 1 0 2 NAK)) Heap.ample).1, ?_, ?_, ?_⟩
  · rw [deviceProcessM2, deviceProcessM2]
    decide +kernel
  · rw [deviceProcessM3ErrPacket, deviceProcessM3ErrPacket]
    decide +kernel
  · decide +kernel

end Retry

end Kinetis.Hydrology
