import Kinetis.Hydrology.Codec

/-!
# Hydrology — what the host reads of an uplink

The reports that list their elements one after the other, from the element table of the device to
the body the host has in hand.

* `uplink_round_trip`: a report of at most 128 bytes is one frame, which the host accepts and reads
  back.
* `split_frames`: a longer one is a run of numbered frames, each accepted, that carry its body in
  order.
-/

namespace Kinetis.Hydrology
open Lib

/-! ### What the device makes -/

section Made

variable {env : Env} {mode : Mode} {funcode : BodyType} {table : List ElementInfo}

variable {store : Store}

theorem Header.readField_healthy (hstore : store.Healthy) {addr n : Nat} (hn : 0 < n)
    (set : Header → Bytes n → Header) (h : Header) :
    ∃ h', Header.readField store addr n set h = (none, h') := by
  rw [Header.readField, Store.read_eq hstore _ _ hn]
  exact ⟨_, rfl⟩

theorem deviceMakeUpHeader_healthy (hstore : store.Healthy) (mode : Mode) (funcode : BodyType) :
    ∃ h, deviceMakeUpHeader store mode funcode = (none, h) := by
  rw [deviceMakeUpHeader]
  obtain ⟨h1, hr1⟩ := Header.readField_healthy (n := 1) hstore (by decide) _ _
  obtain ⟨h2, hr2⟩ := Header.readField_healthy (n := 5) hstore (by decide) _ h1
  obtain ⟨h3, hr3⟩ := Header.readField_healthy (n := 2) hstore (by decide) _ h2
  rw [hr1, Outcome.andThen, hr2, Outcome.andThen, hr3]
  exact ⟨_, rfl⟩

/-- The fixed bytes of the reports that list their elements. -/
def UpCase.listFixed : UpCase → Option Nat
  | .observed => some 23
  | .listed | .single => some 15
  | _ => none

/-- The fields after the first `n` fixed bytes are zero. -/
def UpBody.Blank (b : UpBody) (n : Nat) : Prop :=
  n < 23 → b.rtuType = 0 ∧ b.observationTimeId = fill 2 [] ∧ b.observationTime = fill 5 []

theorem UpBody.withRtuAddr_healthy (hstore : env.store.Healthy) (b : UpBody) :
    ∃ addr, b.withRtuAddr env = .ok { b with rtuAddrId := ⟨[0xF1, 0xF1], rfl⟩, rtuAddr := addr } := by
  rw [withRtuAddr, Store.read_eq hstore _ _ (by decide)]
  exact ⟨_, rfl⟩

theorem UpBody.withObservation_healthy (hstore : env.store.Healthy) (info : ElementInfo)
    (b : UpBody) : ∃ b' : UpBody, b.withObservation env info = .ok b' := by
  rw [withObservation, Store.read_eq hstore _ _ (by decide)]
  exact ⟨_, rfl⟩

/-- **A healthy device makes the report** of every table whose elements have a value. -/
theorem deviceMakeUpBody_list (hlist : funcode.upCase = .observed ∨ funcode.upCase = .listed)
    (htable : table ≠ []) (hheap : env.heap = Heap.ample) (hstore : env.store.Healthy)
    {count : Nat} (hpos : ∀ info ∈ table.take count, 0 < info.num) :
    ∃ b, deviceMakeUpBody env table count funcode = .ok b ∧
      b.elements = (table.take count).map (storedElement env.store) ∧
      ∀ n, funcode.upCase.listFixed = some n → b.Blank n := by
  have hread := readElements_healthy hstore hpos 0
  rw [← hheap] at hread
  obtain ⟨addr, haddr⟩ := UpBody.withRtuAddr_healthy hstore (UpBody.stamped env)
  rw [deviceMakeUpBody, if_neg fun h => htable h.1]
  obtain hc | hc := hlist
  · obtain ⟨b2, hb2⟩ := UpBody.withObservation_healthy hstore (firstInfo table)
      { UpBody.stamped env with rtuAddrId := ⟨[0xF1, 0xF1], rfl⟩, rtuAddr := addr }
    simp only [hc, haddr, hb2, hread, bind, Except.bind]
    refine ⟨_, rfl, rfl, fun n hn => ?_⟩
    cases hn
    exact fun hlt => absurd hlt (by decide)
  · simp only [hc, haddr, hread, bind, Except.bind]
    refine ⟨_, rfl, rfl, fun n _ _ => ⟨rfl, rfl, rfl⟩⟩

theorem upCount_pos (hlist : funcode.upCase = .observed ∨ funcode.upCase = .listed)
    (htable : table ≠ []) : 0 < funcode.upCount table.length := by
  have hlen := List.length_pos_of_ne_nil htable
  cases funcode <;> first | exact hlen | exact Nat.one_pos | exact absurd hlist (by decide)

theorem deviceMakePacket_list (mode : Mode)
    (hlist : funcode.upCase = .observed ∨ funcode.upCase = .listed)
    (htable : table ≠ []) (hheap : env.heap = Heap.ample) (hstore : env.store.Healthy)
    (hpos : ∀ info ∈ table.take (funcode.upCount table.length), 0 < info.num) :
    ∃ p, deviceMakePacket env table mode funcode = .ok p ∧
      p.body.elements = (table.take (funcode.upCount table.length)).map (storedElement env.store) ∧
      ∀ n, funcode.upCase.listFixed = some n → p.body.Blank n := by
  obtain ⟨h, hh⟩ := deviceMakeUpHeader_healthy hstore mode funcode
  obtain ⟨b, hb, hes, hblank⟩ := deviceMakeUpBody_list hlist htable hheap hstore hpos
  have hm : kmalloc env.heap .packet 1 = true := hheap ▸ kmalloc_ample (by decide) (by decide)
  refine ⟨⟨h, b⟩, ?_, hes, hblank⟩
  rw [deviceMakePacket, if_pos hm, hh]
  simp only [hb]

end Made

/-! ### List reports -/

section Lists

variable {c : UpCase} {n : Nat}

theorem bodyOf_list (hc : c.listFixed = some n) (b : UpBody) :
    bodyOf (bodyPieces c b) = b.fixed.take n ++ listBytes b.elements := by
  cases c with
  | observed | listed | single =>
    cases hc
    rw [bodyPieces, bodyOf_cons, bodyOf_elementPieces]
    rfl
  | _ => cases hc

theorem total_list (hc : c.listFixed = some n) (es : List Element) :
    c.total es = n + listLen es := by
  cases c with
  | observed | listed | single => cases hc; rfl
  | _ => cases hc

theorem singlePieces_list (hc : c.listFixed = some n) (store : Store) (b : UpBody) :
    singlePieces store c b = bodyPieces c b := by
  cases c with
  | observed | listed | single => rfl
  | _ => cases hc

theorem whole_list (hc : c.listFixed = some n) {b : UpBody}
    (hb : ∀ e ∈ b.elements, e.value.length = e.num) : ∀ q ∈ bodyPieces c b, q.Whole := by
  cases c with
  | observed | listed | single => exact whole_cons (Piece.whole_ofBytes _) (tame_elements hb).1
  | _ => cases hc

theorem listFixed_eq (hc : c.listFixed = some n) : n = 15 ∨ n = 23 := by
  cases c with
  | observed | listed | single => cases hc; decide
  | _ => cases hc

theorem length_list (hc : c.listFixed = some n) {b : UpBody}
    (hb : ∀ e ∈ b.elements, e.value.length = e.num) :
    (bodyOf (bodyPieces c b)).length = c.total b.elements := by
  have hn : n ≤ 23 := by
    obtain rfl | rfl := listFixed_eq hc <;> decide
  rw [bodyOf_list hc, total_list hc, List.length_append, length_listBytes hb, List.length_take,
    UpBody.length_fixed, min_eq_left hn]

theorem hostCase_list {funcode : BodyType} (hc : funcode.upCase.listFixed = some n) :
    hostCase (some funcode) = .list n := by
  cases funcode <;> first | cases hc; rfl | cases hc

end Lists

/-! ### What the host reads -/

section Host

variable {inp : Input} {n : Nat} {b : UpBody}

theorem takeFixed_at {pos : Nat} (hn : n = 15 ∨ n = 23) (hb : b.Blank n)
    (h : inp.At pos (b.fixed.take n)) :
    takeFixed inp pos n = { b with elements := [], len := 0 } := by
  have hs := b.streamId.2
  have ht := b.sendTime.2
  have hi := b.rtuAddrId.2
  have ha := b.rtuAddr.2
  have ho := b.observationTimeId.2
  have hsplit : b.fixed = (b.streamId.1 ++ (b.sendTime.1 ++ (b.rtuAddrId.1 ++ b.rtuAddr.1))) ++
      (b.rtuType :: (b.observationTimeId.1 ++ b.observationTime.1)) := by
    simp [UpBody.fixed]
  have h15 : (b.streamId.1 ++ (b.sendTime.1 ++ (b.rtuAddrId.1 ++ b.rtuAddr.1))).length = 15 := by
    simp [hs, ht, hi, ha]
  obtain rfl | rfl := hn
  · obtain ⟨hz1, hz2, hz3⟩ := hb (by decide)
    rw [hsplit, List.take_left' h15] at h
    simp only [Input.at_append, hs, ht, hi] at h
    obtain ⟨h0, h2, h8, h10⟩ := h
    have h0 := h0.field
    have h2 := h2.field
    have h8 := h8.field
    have h10 := h10.field
    push_cast [Nat.add_assoc] at h2 h8 h10
    simp [takeFixed, h0, h2, h8, h10, hz1, hz2, hz3]
  · rw [hsplit, List.take_of_length_le (by rw [← hsplit]; simp)] at h
    simp only [Input.at_append, Input.at_cons, hs, ht, hi, ho, h15] at h
    obtain ⟨⟨h0, h2, h8, h10⟩, h15, h16, h18⟩ := h
    have h0 := h0.field
    have h2 := h2.field
    have h8 := h8.field
    have h10 := h10.field
    have h16 := h16.field
    have h18 := h18.field
    push_cast [Nat.add_assoc] at h2 h8 h10 h15 h16 h18
    simp [takeFixed, h0, h2, h8, h10, h15, h16, h18]

theorem sum_fixedTakes (hn : n = 15 ∨ n = 23) : (fixedTakes n).sum = n := by
  obtain rfl | rfl := hn <;> rfl

/-- **A list report is read back.** -/
theorem hostMakeUpBody_at {c : Cursor} {funcode : BodyType} (inp : Input) (fuel : Nat)
    (hc : hostCase (some funcode) = .list n) (hn : n = 15 ∨ n = 23) (hb : b.Blank n)
    (hes : ∀ e ∈ b.elements, e.Sound)
    (hne : b.elements ≠ []) (hshort : b.elements.length < 2 ^ 31)
    (hat : inp.At c.position (b.fixed.take n ++ listBytes b.elements))
    (hlen : c.len = n + listLen b.elements) :
    (hostMakeUpBody inp Heap.ample fuel c (some funcode)).error = none ∧
      (hostMakeUpBody inp Heap.ample fuel c (some funcode)).body = { b with len := 0 } ∧
      (hostMakeUpBody inp Heap.ample fuel c (some funcode)).cursor.len = 0 := by
  have hn23 : n ≤ 23 := by
    obtain rfl | rfl := hn <;> decide
  rw [Input.at_append, List.length_take, UpBody.length_fixed, min_eq_left hn23] at hat
  obtain ⟨hfixed, hlist⟩ := hat
  obtain ⟨herr, hel, hrest⟩ := takeList_at hes hne (c.takes (fixedTakes n))
    (by rwa [Cursor.position_takes, sum_fixedTakes hn])
    (by rw [Cursor.len_takes, sum_fixedTakes hn]; omega) hshort rfl
  rw [hostMakeUpBody, hc]
  refine ⟨herr, ?_, hrest⟩
  have hfields := takeFixed_at hn hb hfixed
  simp only [HostCase.fixed, takeUp, hfields, hel]

theorem takeHeader_addrs (inp : Input) (center remote : Nat) (reads : Reads) :
    (takeHeader inp center remote reads).1.centerAddr = inp.byte center ∧
      (takeHeader inp center remote reads).1.remoteAddr = inp.field remote 5 := by
  rw [takeHeader]
  split <;> exact ⟨rfl, rfl⟩

/-- An accepted uplink, parsed. -/
theorem hostParse_accepted (h : inp.Accepted) (heap : Heap) (fuel : Nat) :
    hostParse inp heap fuel = ((takeHeader inp 2 3 (checkPacket inp).2).1,
      hostMakeUpBody inp heap fuel (takeHeader inp 2 3 (checkPacket inp).2).2
        (BodyType.ofCode (inp.byte 10))) := by
  rw [hostParse, hostMakeUpHeader, show (checkPacket inp).1 = none from h]
  simp only [takeHeader_funcode]

end Host

/-! ### One frame -/

variable {data : List UInt8} {total : Nat}

section Single

variable {env : Env} {mode : Mode} {funcode : BodyType} {p : UpPacket} {n : Nat}

/-- The bytes before the body of a frame that is not split. -/
def Header.singleBytes (h : Header) (len : Nat) : List UInt8 :=
  (h.single len).upBytes.take (h.single len).headerLen

theorem length_singleBytes_le (h : Header) (len : Nat) : (h.singleBytes len).length ≤ 17 := by
  rw [Header.singleBytes, List.length_take]
  exact (min_le_left _ _).trans (Header.headerLen_le _)

/-- What is sent of a body that fits a frame. -/
theorem sendSingle_eq (hfit : p.body.len ≤ bodyMaxLen)
    (hwhole : ∀ q ∈ singlePieces env.store funcode.upCase p.body, q.Whole)
    (hbytes : (bodyOf (singlePieces env.store funcode.upCase p.body)).length ≤ bodyMaxLen)
    (hk : kmalloc env.heap .frame ((p.header.len + p.body.len + 3) % 2 ^ 16) = true) :
    (deviceMakeUpTailAndSend env p funcode).error = none ∧
      (deviceMakeUpTailAndSend env p funcode).frames =
        [frameOf (p.header.singleBytes p.body.len)
          (bodyOf (singlePieces env.store funcode.upCase p.body)) ETX] := by
  have hhead := length_singleBytes_le p.header p.body.len
  rw [bodyMaxLen] at hbytes
  rw [deviceMakeUpTailAndSend, if_pos hfit, deviceSendSingle, if_pos hk]
  refine ⟨rfl, ?_⟩
  simp only
  rw [← Header.singleBytes, sendFrame_eq _ hwhole _ (by omega)]

/-- What is sent of a short list report. -/
theorem send_single (env : Env) (hc : funcode.upCase.listFixed = some n) (hm : p.body.Made funcode.upCase)
    (hheap : env.heap = Heap.ample) (hlen : p.header.len = 14)
    (hshort : funcode.upCase.total p.body.elements ≤ bodyMaxLen) :
    (deviceMakeUpTailAndSend env p funcode).error = none ∧
      (deviceMakeUpTailAndSend env p funcode).frames =
        [frameOf (p.header.singleBytes p.body.len)
          (p.body.fixed.take n ++ listBytes p.body.elements) ETX] := by
  have hfile : funcode.upCase.isFile = false := by
    generalize funcode.upCase = c at hc
    cases c with
    | artificial | picture => cases hc
    | _ => rfl
  rw [bodyMaxLen] at hshort
  have hbody : p.body.len = funcode.upCase.total p.body.elements := by
    rw [hm.len, Nat.mod_eq_of_lt (by omega)]
  have hk : kmalloc env.heap .frame ((p.header.len + p.body.len + 3) % 2 ^ 16) = true := by
    rw [hheap, hlen, hbody]
    exact kmalloc_ample (by omega) (by omega)
  rw [← bodyOf_list hc, ← singlePieces_list hc env.store]
  refine sendSingle_eq (by rw [hbody]; exact hshort) ?_ ?_ hk
  · rw [singlePieces_list hc]
    exact whole_list hc (hm.whole hfile)
  · rw [singlePieces_list hc, length_list hc (hm.whole hfile)]
    exact hshort

/-- **A frame that is not split is accepted**, and the host goes on to read the body that was
sent. -/
theorem hostParse_single {inp : Input} (hh : p.header.Full mode funcode 0)
    (hdata : data.length = p.body.len) (hlt : p.body.len < 4096)
    (hin : inp.Holds (frameOf (p.header.singleBytes p.body.len) data ETX)) :
    inp.Accepted ∧ ∃ c : Cursor, inp.At c.position data ∧ c.len = p.body.len ∧
      c.position ≤ 17 ∧ ∀ heap fuel,
        (hostParse inp heap fuel).2 = hostMakeUpBody inp heap fuel c (some funcode) ∧
        (hostParse inp heap fuel).1.centerAddr = p.header.centerAddr ∧
        (hostParse inp heap fuel).1.remoteAddr = p.header.remoteAddr := by
  obtain ⟨hks, hkc, hkr, hkf⟩ := p.header.single_keeps p.body.len
  have hframed := (p.header.single p.body.len).framed_up (by rw [hks]; exact hh.start)
  have hl := located_frame hin hframed
  obtain ⟨hacc, hstart, hlen⟩ := single_frame_at hframed (by rw [hh.dirLen0]; rfl) hh.dirLen1 hdata
    hlt hin
  obtain ⟨hpos, hclen, -⟩ := takeHeader_cursor inp 2 3 (checkPacket inp).2
  obtain ⟨hcenter, hremote⟩ := takeHeader_addrs inp 2 3 (checkPacket inp).2
  have hcode : BodyType.ofCode (inp.byte 10) = some funcode := by
    rw [hl.code, hkf, hh.funcode, BodyType.ofCode_code]
  have hpre := hl.preAt
  rw [List.cons_append, Input.at_cons, Input.at_append, hkc, hkr] at hpre
  refine ⟨hacc, (takeHeader inp 2 3 (checkPacket inp).2).2, by rw [hpos, hstart]; exact hl.bodyAt,
    by rw [hclen, hlen], ?_, fun heap fuel => ?_⟩
  · rw [hpos, Input.bodyStart]
    split <;> decide
  · rw [hostParse_accepted hacc, hcode]
    exact ⟨rfl, hcenter.trans hpre.1, hremote.trans hpre.2.1.field⟩

/-- The host reads a short list report back. -/
theorem host_reads_single {inp : Input} (fuel : Nat) (hc : funcode.upCase.listFixed = some n)
    (hh : p.header.Full mode funcode 0) (hm : p.body.Made funcode.upCase) (hb : p.body.Blank n)
    (hes : ∀ e ∈ p.body.elements, e.Sound) (hne : p.body.elements ≠ [])
    (hshort : funcode.upCase.total p.body.elements ≤ bodyMaxLen)
    (hin : inp.Holds (frameOf (p.header.singleBytes p.body.len)
      (p.body.fixed.take n ++ listBytes p.body.elements) ETX)) :
    inp.Accepted ∧ (hostParse inp Heap.ample fuel).2.error = none ∧
      (hostParse inp Heap.ample fuel).2.body = { p.body with len := 0 } ∧
      (hostParse inp Heap.ample fuel).2.cursor.len = 0 ∧
      (hostParse inp Heap.ample fuel).1.centerAddr = p.header.centerAddr ∧
      (hostParse inp Heap.ample fuel).1.remoteAddr = p.header.remoteAddr := by
  rw [bodyMaxLen] at hshort
  have hbody : p.body.len = funcode.upCase.total p.body.elements := by
    rw [hm.len, Nat.mod_eq_of_lt (by omega)]
  have hbytes := length_list hc fun e he => (hes e he).value
  rw [bodyOf_list hc, ← hbody] at hbytes
  obtain ⟨hacc, c, hat, hclen, -, hparse⟩ := hostParse_single hh hbytes (by omega) hin
  obtain ⟨hparse, haddrs⟩ := hparse Heap.ample fuel
  have hcount : p.body.elements.length < 2 ^ 31 := by
    have := length_le_listLen p.body.elements
    rw [total_list hc] at hshort
    omega
  obtain ⟨herr, hread, hrest⟩ := hostMakeUpBody_at inp fuel (hostCase_list hc) (listFixed_eq hc) hb
    hes hne hcount hat (by rw [hclen, hbody, total_list hc]; push_cast; rfl)
  rw [hparse]
  exact ⟨hacc, herr, hread, hrest, haddrs⟩

/-- **An element-list report is read back by the host.**  The device makes one frame of a table
whose elements have one to 62 digits and up to seven places; the host accepts it, and has the body
the device had: stream number, time, station address, and every element with its guide, length and
value.  `STATUS` reports the first entry of its table. -/
theorem uplink_round_trip (env : Env) (table : List ElementInfo) (mode : Mode) (funcode : BodyType)
    (hlist : funcode.upCase = .observed ∨ funcode.upCase = .listed) (htable : table ≠ [])
    (hcount : table.length < 256)
    (hdigits : ∀ info ∈ table, 0 < info.D ∧ info.D ≤ 62 ∧ info.d ≤ 7)
    (hheap : env.heap = Heap.ample) (hstore : env.store.Healthy)
    (hshort : funcode.upCase.total ((table.take (funcode.upCount table.length)).map
      (storedElement env.store)) ≤ bodyMaxLen) :
    ∃ p frame, deviceMakePacket env table mode funcode = .ok p ∧
      p.body.elements = (table.take (funcode.upCount table.length)).map (storedElement env.store) ∧
      (deviceProcessSend env table mode funcode).error = none ∧
      (deviceProcessSend env table mode funcode).frames = [frame] ∧
      ∀ inp : Input, inp.Holds frame → ∀ fuel,
        inp.Accepted ∧ (hostParse inp Heap.ample fuel).2.error = none ∧
          (hostParse inp Heap.ample fuel).2.body = { p.body with len := 0 } ∧
          (hostParse inp Heap.ample fuel).2.cursor.len = 0 ∧
          (hostParse inp Heap.ample fuel).1.centerAddr = p.header.centerAddr ∧
          (hostParse inp Heap.ample fuel).1.remoteAddr = p.header.remoteAddr := by
  have hmem : ∀ info ∈ table.take (funcode.upCount table.length),
      0 < info.D ∧ info.D ≤ 62 ∧ info.d ≤ 7 := fun info hi => hdigits info (List.mem_of_mem_take hi)
  have hsound : ∀ info ∈ table.take (funcode.upCount table.length),
      (storedElement env.store info).Sound := fun info hi =>
    storedElement_sound ⟨(hmem info hi).1, (hmem info hi).2.1⟩ (hmem info hi).2.2
  obtain ⟨p, hp, hes, hblank⟩ := deviceMakePacket_list mode hlist htable hheap hstore
    fun info hi => (hsound info hi).pos
  obtain ⟨hh, hm⟩ := deviceMakePacket_ok hcount hp
  obtain ⟨n, hc⟩ : ∃ n, funcode.upCase.listFixed = some n := by
    obtain h | h := hlist <;> exact ⟨_, by rw [h]; rfl⟩
  have hupCount : 0 < funcode.upCount table.length := upCount_pos hlist htable
  have hne : p.body.elements ≠ [] := by
    rw [hes]
    intro hnil
    obtain h0 | h0 := List.take_eq_nil_iff.mp (List.map_eq_nil_iff.mp hnil)
    · omega
    · exact htable h0
  rw [← hes] at hshort
  obtain ⟨herr, hframes⟩ := send_single env hc hm hheap hh.len hshort
  have hsend : deviceProcessSend env table mode funcode = deviceMakeUpTailAndSend env p funcode := by
    rw [deviceProcessSend, hp]
  rw [hsend]
  refine ⟨p, _, hp, hes, herr, hframes, fun inp hin fuel => ?_⟩
  refine host_reads_single fuel hc hh hm (hblank n hc) ?_ hne hshort hin
  rw [hes]
  intro e he
  obtain ⟨info, hi, rfl⟩ := List.mem_map.mp he
  exact hsound info hi

/-- A test report of one element of four digits. -/
theorem uplink_round_trip_test :
    ∃ p frame, deviceMakePacket calmEnv [⟨0x39, 4, 0, 0⟩] .m1 .test = .ok p ∧
      (deviceProcessSend calmEnv [⟨0x39, 4, 0, 0⟩] .m1 .test).frames = [frame] ∧
      ((hostParse (.ofFrame frame) Heap.ample 0).2.body = { p.body with len := 0 }) := by
  obtain ⟨p, frame, hp, -, -, hf, hall⟩ := uplink_round_trip calmEnv [⟨0x39, 4, 0, 0⟩] .m1 .test
    (.inl rfl) (by decide) (by decide) (by decide) rfl calmEnv_healthy (by decide)
  exact ⟨p, frame, hp, hf, (hall _ (Input.holds_ofFrame frame) 0).2.2.1⟩

/-- An element without digits: its value cannot be allocated, and nothing is sent. -/
theorem no_digits_nothing_sent :
    (deviceProcessSend calmEnv [⟨0x39, 0, 0, 0⟩] .m1 .test).error = some .enomem ∧
      (deviceProcessSend calmEnv [⟨0x39, 0, 0, 0⟩] .m1 .test).frames = [] := by
  decide +kernel

end Single

/-! ### A run of frames -/

namespace Input

/-- The total of the sequence field, its first twelve bits. -/
def seqTotal (inp : Input) : Nat := (inp.byte 14).toNat * 16 + (inp.byte 15).toNat / 16

/-- The number of the sequence field, its last twelve bits. -/
def seqNumber (inp : Input) : Nat := (inp.byte 15).toNat % 16 * 256 + (inp.byte 16).toNat

/-- The body of a received frame. -/
def body (inp : Input) : List UInt8 := inp.bytes inp.bodyStart inp.bodyLen

/-- The end identifier of a received frame. -/
def endByte (inp : Input) : UInt8 := inp.byte ((inp.bodyStart + inp.bodyLen : Nat) : Int)

end Input

/-- The two halves of the sequence field are read back. -/
theorem sequence_at {inp : Input} {h : Header} {cnt : Nat} (hcnt : cnt < 4096)
    (htotal : total < 4096) (hat : inp.At 14 (h.setSequence cnt total).countSeq.1) :
    inp.seqTotal = total ∧ inp.seqNumber = cnt := by
  simp only [Header.setSequence, Input.at_cons] at hat
  obtain ⟨h14, h15, h16, -⟩ := hat
  have hlow4 : total &&& 15 = total % 16 := Nat.and_two_pow_sub_one_eq_mod total 4
  have hlow8 : cnt &&& 255 = cnt % 256 := Nat.and_two_pow_sub_one_eq_mod cnt 8
  have hb14 : (inp.byte 14).toNat = total / 16 := by
    refine (congrArg UInt8.toNat h14).trans ?_
    rw [UInt8.toNat_ofNat', Nat.shiftRight_eq_div_pow]
    omega
  have hb15 : (inp.byte 15).toNat = total % 16 * 16 + cnt / 256 := by
    refine (congrArg UInt8.toNat h15).trans ?_
    rw [UInt8.toNat_ofNat', hlow4, Nat.shiftRight_eq_div_pow, Nat.shiftLeft_eq]
    omega
  have hb16 : (inp.byte 16).toNat = cnt % 256 := by
    refine (congrArg UInt8.toNat h16).trans ?_
    rw [UInt8.toNat_ofNat', hlow8]
    omega
  rw [Input.seqTotal, Input.seqNumber]
  omega

/-- Frames that do not depend on what the buffer held before. -/
theorem frames_sendFrames {frame : Nat → Buf → Buf × List UInt8} {sent : Nat → List UInt8}
    (h : ∀ k < total, ∀ buf, (frame (k + 1) buf).2 = sent k) (buf : Buf) :
    (sendFrames frame total buf).2 = (List.range total).map sent := by
  induction total with
  | zero => rfl
  | succ total ih =>
    rw [sendFrames_succ, List.range_succ, ih fun k hk => h k (Nat.lt_succ_of_lt hk)]
    simp [h total (Nat.lt_succ_self total)]

section Split

variable {len : Nat}

theorem splitTotal_eq (len : Nat) : splitTotal len = (len + 127) / 128 := by
  rw [splitTotal, bodyMaxLen]
  split <;> omega

variable {k : Nat}

/-- What frame `k + 1` carries: 128 bytes, or what is left. -/
theorem splitLen_eq (hk : k < splitTotal len) :
    (if k + 1 = splitTotal len then lastLen len else bodyMaxLen) = min 128 (len - k * 128) := by
  rw [splitTotal_eq] at hk ⊢
  rw [lastLen, bodyMaxLen]
  split
  · split <;> omega
  · omega

variable {h : Header} {inp : Input}

theorem framed_split (hs : h.frameStart.1 = [SOH, SOH]) (len i total : Nat) :
    Framed (splitHeader h len i total).upBytes (h.centerAddr :: h.remoteAddr.1 ++ h.password.1)
      h.funcode (splitHeader h len i total).dirLen0 (splitHeader h len i total).dirLen1 SYN
      (h.setSequence i total).countSeq.1 := by
  have hframed := (splitHeader h len i total).framed_up hs
  rwa [show (splitHeader h len i total).headerLen = 17 from rfl,
    List.take_of_length_le (by simp)] at hframed

/-- What the host sees of frame `k + 1` of a split body. -/
theorem split_frame_at (hs : h.frameStart.1 = [SOH, SOH])
    (hdata : data.length = len) (hmax : len < 2 ^ 16) (hk : k < splitTotal len)
    (hin : inp.Holds (frameOf (splitHeader h len (k + 1) (splitTotal len)).upBytes
      (slice data (k * 128) 128) (splitEnd (k + 1) (splitTotal len)))) :
    inp.Accepted ∧ inp.seqTotal = splitTotal len ∧ inp.seqNumber = k + 1 ∧
      inp.body = slice data (k * 128) 128 ∧ inp.endByte = splitEnd (k + 1) (splitTotal len) := by
  have hframed := framed_split hs len (k + 1) (splitTotal len)
  have hl := located_frame hin hframed
  have hn := splitLen_eq hk
  have hdir : ((splitHeader h len (k + 1) (splitTotal len)).dirLen0 &&& 0x0F).toNat * 256 +
      (splitHeader h len (k + 1) (splitTotal len)).dirLen1.toNat =
        (slice data (k * 128) 128).length := by
    rw [length_slice, hdata, ← hn]
    refine Header.dirLen_addLen (by simp) rfl ?_
    rw [hn]
    omega
  obtain ⟨hacc, hstart, hlen⟩ := accepted_frame hin hframed hdir
  have htotal : splitTotal len < 4096 := by
    rw [splitTotal_eq]
    omega
  obtain ⟨hseq, hnum⟩ := sequence_at (by omega) htotal hl.seqAt
  refine ⟨hacc, hseq, hnum, ?_, ?_⟩
  · rw [Input.body, hstart, hlen]
    exact hl.bodyAt
  · rw [Input.endByte, hstart, hlen]
    exact hl.tail

/-- The bodies of the frames make up what was split. -/
theorem flatten_split_bodies (hs : h.frameStart.1 = [SOH, SOH]) (hdata : data.length = len)
    (hmax : len < 2 ^ 16) :
    ((List.range (splitTotal len)).map fun k => (Input.ofFrame (frameOf
      (splitHeader h len (k + 1) (splitTotal len)).upBytes (slice data (k * 128) 128)
      (splitEnd (k + 1) (splitTotal len)))).body).flatten = data := by
  have hbodies : ∀ k ∈ List.range (splitTotal len), (Input.ofFrame (frameOf _ _ _)).body =
      slice data (k * 128) 128 := fun k hk =>
    (split_frame_at hs hdata hmax (List.mem_range.mp hk) (Input.holds_ofFrame _)).2.2.2.1
  refine (congrArg List.flatten (List.map_congr_left hbodies)).trans ?_
  rw [flatten_slices, List.take_of_length_le]
  rw [splitTotal_eq]
  omega

variable {env : Env} {funcode : BodyType} {p : UpPacket} {n : Nat}

/-- One frame of a split body. -/
theorem deviceSplitTransfer_frame (mem : Nat → UInt8) (buf : Buf) (h : Header) (len i total : Nat) :
    (deviceSplitTransfer mem buf h len i total).2 =
      frameOf (splitHeader h len i total).upBytes
        (readMem mem ((i - 1) * bodyMaxLen) (if i = total then lastLen len else bodyMaxLen))
        (splitEnd i total) := by
  have hn : (if i = total then lastLen len else bodyMaxLen) ≤ 128 := by
    rw [lastLen, bodyMaxLen]
    split
    · split <;> omega
    · omega
  rw [deviceSplitTransfer,
    sendFrame_eq _ (List.forall_mem_singleton.mpr (Piece.whole_ofBytes _)) _ (by simp; omega),
    bodyOf_cons, bodyOf_nil, List.append_nil, Piece.ofBytes_data]

/-- A frame within the body carries its slice. -/
theorem deviceSplitTransfer_slice {mem : Nat → UInt8} (hmem : readMem mem 0 len = data)
    (hk : k < splitTotal len) (buf : Buf) (h : Header) :
    (deviceSplitTransfer mem buf h len (k + 1) (splitTotal len)).2 =
      frameOf (splitHeader h len (k + 1) (splitTotal len)).upBytes (slice data (k * 128) 128)
        (splitEnd (k + 1) (splitTotal len)) := by
  have hslice : readMem mem (k * bodyMaxLen) (min 128 (len - k * 128)) = slice data (k * 128) 128 := by
    rw [splitTotal_eq] at hk
    rw [← hmem, ← slice_min, length_readMem, slice_readMem _ _ (by omega), Nat.zero_add, bodyMaxLen]
  rw [deviceSplitTransfer_frame, Nat.add_sub_cancel, splitLen_eq hk, hslice]

/-- A list report is split from its buffer. -/
theorem splitFrame_list (hc : funcode.upCase.listFixed = some n) (store : Store) (p : UpPacket) :
    splitFrame store p funcode.upCase = fun mem i buf =>
      deviceSplitTransfer mem buf p.header p.body.len i (splitTotal p.body.len) := by
  generalize funcode.upCase = c at hc
  cases c with
  | artificial | picture => cases hc
  | _ => rfl

/-- The buffer of a split list report holds its body. -/
theorem bodyBuffer_list (hc : funcode.upCase.listFixed = some n)
    (hwhole : ∀ e ∈ p.body.elements, e.value.length = e.num)
    (hlen : p.body.len = funcode.upCase.total p.body.elements) (hmax : p.body.len < 2 ^ 16) :
    readMem ((bodyPieces funcode.upCase p.body).foldl Writer.put ⟨.alloc p.body.len, 0⟩).buf.mem 0
      p.body.len = bodyOf (bodyPieces funcode.upCase p.body) := by
  have hbytes := length_list hc hwhole
  rw [← hlen] at hbytes
  have h0 : Writer.Holds ⟨.alloc p.body.len, 0⟩ 0 [] := ⟨rfl, rfl, rfl⟩
  have hw := h0.puts (whole_list hc hwhole) (by simpa [hbytes] using hmax)
  rw [List.nil_append] at hw
  have hmem := hw.mem
  rwa [hw.pointer, hbytes] at hmem

/-- What is sent of a long list report. -/
theorem send_split (hc : funcode.upCase.listFixed = some n)
    (hwhole : ∀ e ∈ p.body.elements, e.value.length = e.num)
    (hlen : p.body.len = funcode.upCase.total p.body.elements) (hlong : bodyMaxLen < p.body.len)
    (hmax : p.body.len < 2 ^ 16)
    (hframe : kmalloc env.heap .frame ((p.header.len + bodyMaxLen + 3) % 2 ^ 16) = true)
    (hbuffer : kmalloc env.heap .bodyBuffer p.body.len = true) :
    (deviceMakeUpTailAndSend env p funcode).error = none ∧
      (deviceMakeUpTailAndSend env p funcode).frames =
        (List.range (splitTotal p.body.len)).map fun k =>
          frameOf (splitHeader p.header p.body.len (k + 1) (splitTotal p.body.len)).upBytes
            (slice (bodyOf (bodyPieces funcode.upCase p.body)) (k * 128) 128)
            (splitEnd (k + 1) (splitTotal p.body.len)) := by
  rw [deviceMakeUpTailAndSend, if_neg (by omega), deviceSendSplit, if_pos hframe, if_pos hbuffer]
  refine ⟨rfl, frames_sendFrames (fun k hk buf => ?_) _⟩
  rw [splitFrame_list hc]
  exact deviceSplitTransfer_slice (bodyBuffer_list hc hwhole hlen hmax) hk buf p.header

/-- **A long element-list report is a run of frames.**  There are as many as 128 bytes go into its
body; they are numbered from one, with the total, and each is accepted.  All but the last carry 128
bytes and end in `ETB`; the last carries the rest, which is not empty, and ends in `ETX`.  Their
bodies make up the body of the report. -/
theorem split_frames (env : Env) (p : UpPacket) (funcode : BodyType) (n : Nat)
    (hc : funcode.upCase.listFixed = some n) (hstart : p.header.frameStart.1 = [SOH, SOH])
    (hwhole : ∀ e ∈ p.body.elements, e.value.length = e.num)
    (hlen : p.body.len = funcode.upCase.total p.body.elements)
    (hlong : 128 < p.body.len) (hmax : p.body.len ≤ 65535)
    (hframe : kmalloc env.heap .frame ((p.header.len + bodyMaxLen + 3) % 2 ^ 16) = true)
    (hbuffer : kmalloc env.heap .bodyBuffer p.body.len = true) :
    (deviceMakeUpTailAndSend env p funcode).error = none ∧
      (deviceMakeUpTailAndSend env p funcode).frames.length = (p.body.len + 127) / 128 ∧
      (∀ k frame, (deviceMakeUpTailAndSend env p funcode).frames[k]? = some frame →
        ∀ inp : Input, inp.Holds frame →
          inp.Accepted ∧ inp.seqTotal = (p.body.len + 127) / 128 ∧ inp.seqNumber = k + 1 ∧
            (k + 1 < (p.body.len + 127) / 128 → inp.body.length = 128 ∧ inp.endByte = ETB) ∧
            (k + 1 = (p.body.len + 127) / 128 →
              inp.body.length = p.body.len - k * 128 ∧ 0 < inp.body.length ∧ inp.endByte = ETX)) ∧
      ((deviceMakeUpTailAndSend env p funcode).frames.map fun frame =>
        (Input.ofFrame frame).body).flatten =
          p.body.fixed.take n ++ listBytes p.body.elements := by
  obtain ⟨herr, hframes⟩ := send_split hc hwhole hlen hlong (by omega) hframe hbuffer
  have hbytes := length_list hc hwhole
  rw [← hlen] at hbytes
  rw [bodyOf_list hc] at hframes hbytes
  rw [hframes, ← splitTotal_eq]
  generalize p.body.fixed.take n ++ listBytes p.body.elements = data at hbytes
  refine ⟨herr, by rw [List.length_map, List.length_range], fun k frame hget inp hin => ?_, ?_⟩
  · rw [List.getElem?_map] at hget
    obtain ⟨j, hj, rfl⟩ := Option.map_eq_some_iff.mp hget
    obtain ⟨hk, hj⟩ := List.getElem?_eq_some_iff.mp hj
    rw [List.length_range] at hk
    rw [List.getElem_range] at hj
    subst hj
    obtain ⟨hacc, htotal, hnum, hbody, hend⟩ :=
      split_frame_at hstart hbytes (by omega) hk hin
    have hsize : inp.body.length = min 128 (p.body.len - k * 128) := by
      rw [hbody, length_slice, hbytes]
    rw [splitTotal_eq] at hk hend htotal ⊢
    refine ⟨hacc, htotal, hnum, fun hlt => ⟨by omega, ?_⟩, fun heq => ⟨by omega, by omega, ?_⟩⟩
    · rw [hend, splitEnd, if_neg (by omega)]
    · rw [hend, splitEnd, if_pos heq]
  · rw [List.map_map]
    exact flatten_split_bodies hstart hbytes (by omega)

/-- A test report of four elements of 30 bytes. -/
def longReport : UpPacket :=
  ⟨{ Header.zero with frameStart := sohPair, funcode := 0x30, len := 14 },
    { UpBody.stamped calmEnv with
      elements := List.replicate 4 ⟨0x39, 0xF0, 30, List.replicate 30 0⟩, len := 151 }⟩

theorem split_frames_longReport :
    (deviceMakeUpTailAndSend calmEnv longReport .test).frames.length = 2 ∧
      ((deviceMakeUpTailAndSend calmEnv longReport .test).frames.map fun frame =>
        (Input.ofFrame frame).body).flatten =
          longReport.body.fixed.take 23 ++ listBytes longReport.body.elements := by
  obtain ⟨-, hcount, -, hbody⟩ := split_frames calmEnv longReport .test 23 rfl rfl (by decide)
    (by decide) (by decide) (by decide) (by decide) (by decide)
  exact ⟨hcount, hbody⟩

end Split

end Kinetis.Hydrology
