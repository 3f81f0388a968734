import Kinetis.Hydrology.HostSend

/-!
# Hydrology — what a send writes

Frame buffers are allocated as `header->len + len + 3`, where `header->len` is 14 in every mode,
while a frame with a sequence field has a header of 17 bytes.

* A single frame in mode M3 is three bytes longer than its buffer, unless its body is at least
  three bytes shorter than was counted (`UpCase.slack`).
* A split frame is three bytes longer than its buffer, in every mode.
* The length of a file is cut to 16 bits.  Where that makes it short, the frame is sent as a single
  one and the whole file is read into its buffer.
* The host's frames are three bytes too long in mode M3, and in every mode when the header was cut
  short by a failed read.

`writes_fit_iff` puts it together.
-/

namespace Kinetis.Hydrology
open Lib

/-! ### Headers -/

variable {addr n : Nat}

section Headers

variable {store : Store} {mode : Mode} {funcode : BodyType} {h : Header}

variable {h' : Header}

/-- A header field that was read keeps the rest of the header and adds to its length. -/
theorem Header.readField_ok {set : Header → Bytes n → Header} {h : Header}
    (hr : Header.readField store addr n set h = (none, h')) :
    ∃ data : Bytes n, h' = { set h data with len := (set h data).len + n } := by
  have herr := congrArg Prod.fst hr
  have hh := congrArg Prod.snd hr
  simp only [Header.readField] at herr hh
  rw [if_pos herr] at hh
  exact ⟨_, hh.symm⟩

/-- A header field that was not read in full. -/
theorem Header.readField_error {set : Header → Bytes n → Header} {h : Header} {e : Errno}
    (hr : Header.readField store addr n set h = (some e, h')) :
    ∃ data : Bytes n, h' = set h data := by
  have herr := congrArg Prod.fst hr
  have hh := congrArg Prod.snd hr
  simp only [Header.readField] at herr hh
  rw [if_neg (by rw [herr]; exact nofun)] at hh
  exact ⟨_, hh.symm⟩

/-- What a header that was made in full holds. -/
structure Header.Full (mode : Mode) (funcode : BodyType) (dir : UInt8) (h : Header) : Prop where
  start   : h.frameStart.1 = [SOH, SOH]
  funcode : h.funcode = funcode.code
  dirLen0 : h.dirLen0 = dir
  dirLen1 : h.dirLen1 = 0
  paket   : h.paketStart = mode.paketStart
  len     : h.len = 14

theorem deviceMakeUpHeader_ok (hh : deviceMakeUpHeader store mode funcode = (none, h)) :
    h.Full mode funcode 0 := by
  obtain ⟨h3, hh, hlast⟩ := Outcome.andThen_eq_ok.mp hh
  obtain ⟨h2, hh, hr3⟩ := Outcome.andThen_eq_ok.mp hh
  obtain ⟨h1, hr1, hr2⟩ := Outcome.andThen_eq_ok.mp hh
  obtain ⟨d1, rfl⟩ := Header.readField_ok hr1
  obtain ⟨d2, rfl⟩ := Header.readField_ok hr2
  obtain ⟨d3, rfl⟩ := Header.readField_ok hr3
  cases hlast
  exact ⟨rfl, rfl, rfl, rfl, rfl, rfl⟩

theorem hostMakeDownHeader_ok (hh : hostMakeDownHeader store mode funcode = (none, h)) :
    h.Full mode funcode 0x80 := by
  obtain ⟨h3, hh, hlast⟩ := Outcome.andThen_eq_ok.mp hh
  obtain ⟨h2, hh, hr3⟩ := Outcome.andThen_eq_ok.mp hh
  obtain ⟨h1, hr1, hr2⟩ := Outcome.andThen_eq_ok.mp hh
  obtain ⟨d1, rfl⟩ := Header.readField_ok hr1
  obtain ⟨d2, rfl⟩ := Header.readField_ok hr2
  obtain ⟨d3, rfl⟩ := Header.readField_ok hr3
  cases hlast
  exact ⟨rfl, rfl, rfl, rfl, rfl, rfl⟩

/-- What a header cut short by a failed read holds. -/
structure Header.Cut (h : Header) : Prop where
  start   : h.frameStart.1 = [SOH, SOH]
  funcode : h.funcode = 0
  dirLen0 : h.dirLen0 = 0
  dirLen1 : h.dirLen1 = 0
  paket   : h.paketStart = 0
  len     : h.len < 14

theorem hostMakeDownHeader_error (hh : (hostMakeDownHeader store mode funcode).1 ≠ none) :
    (hostMakeDownHeader store mode funcode).2.Cut := by
  rw [hostMakeDownHeader] at hh ⊢
  generalize hr1 : Header.readField store HYDROLOGY_BA_REMOTE 5 _ _ = r1 at hh ⊢
  obtain ⟨err1, h1⟩ := r1
  cases err1 with
  | some e =>
    obtain ⟨d1, rfl⟩ := Header.readField_error hr1
    exact ⟨rfl, rfl, rfl, rfl, rfl, show 2 < 14 by decide⟩
  | none =>
    obtain ⟨d1, rfl⟩ := Header.readField_ok hr1
    rw [Outcome.andThen_ok] at hh ⊢
    generalize hr2 : Header.readField store HYDROLOGY_BA_CENTER 1 _ _ = r2 at hh ⊢
    obtain ⟨err2, h2⟩ := r2
    cases err2 with
    | some e =>
      obtain ⟨d2, rfl⟩ := Header.readField_error hr2
      exact ⟨rfl, rfl, rfl, rfl, rfl, show 2 + 5 < 14 by decide⟩
    | none =>
      obtain ⟨d2, rfl⟩ := Header.readField_ok hr2
      rw [Outcome.andThen_ok] at hh ⊢
      generalize hr3 : Header.readField store HYDROLOGY_BA_PASSWORD 2 _ _ = r3 at hh ⊢
      obtain ⟨err3, h3⟩ := r3
      cases err3 with
      | some e =>
        obtain ⟨d3, rfl⟩ := Header.readField_error hr3
        exact ⟨rfl, rfl, rfl, rfl, rfl, show 2 + 5 + 1 < 14 by decide⟩
      | none => exact absurd rfl hh

theorem Header.Full.headerLen {dir : UInt8} (hh : h.Full mode funcode dir) :
    h.headerLen = if mode = .m3 then 17 else 14 := by
  rw [Header.headerLen, hh.paket]
  exact if_congr Mode.paketStart_eq_SYN rfl rfl

theorem Header.Cut.headerLen (hh : h.Cut) : h.headerLen = 14 := by
  rw [Header.headerLen, hh.paket]
  rfl

end Headers

/-! ### Pieces of an uplink body -/

section Pieces

/-- The bytes that `upbody->len` counts and a single frame does not carry. -/
def UpCase.slack (c : UpCase) (es : List Element) : Nat :=
  match c with
  | .picture => 15
  | .evenPeriod => (es.tail.map fun e => e.num % 12).sum
  | _ => 0

theorem advanceOf_elementPieces (es : List Element) :
    advanceOf (es.flatMap elementPieces) = listLen es := by
  induction es with
  | nil => rfl
  | cons e es ih =>
    simp [elementPieces, valuePiece, Element.guide]
    omega

theorem advanceOf_lengthPieces (es : List Element) :
    advanceOf (es.flatMap lengthPieces) = (es.map fun e => e.num + 1).sum := by
  induction es with
  | nil => rfl
  | cons e es ih =>
    have hone : advanceOf (lengthPieces e) = e.num + 1 := Nat.add_comm 1 e.num
    rw [List.flatMap_cons, advanceOf_append, ih, List.map_cons, List.sum_cons, hone]

theorem advanceOf_valuePieces (es : List Element) :
    advanceOf (es.map valuePiece) = (es.map Element.num).sum := by
  rw [advanceOf, List.map_map]
  rfl

theorem advance_twelfthPiece (k : Nat) (e : Element) : (twelfthPiece k e).advance = e.num / 12 := by
  rw [twelfthPiece]
  split
  · exact Eq.symm ‹_›
  · split
    · exact Eq.symm ‹_›
    · rfl

theorem advanceOf_twelfths (es : List Element) (n : Nat) :
    advanceOf ((List.range n).flatMap fun k => es.map (twelfthPiece k)) =
      n * (es.map fun e => e.num / 12).sum := by
  induction n with
  | zero => simp
  | succ n ih =>
    have hrow : advanceOf (es.map (twelfthPiece n)) = (es.map fun e => e.num / 12).sum := by
      rw [advanceOf, List.map_map]
      exact congrArg _ (List.map_congr_left fun e _ => advance_twelfthPiece n e)
    rw [List.range_succ, List.flatMap_append, advanceOf_append, ih, List.flatMap_singleton, hrow,
      Nat.succ_mul]

theorem advanceOf_guides (es : List Element) :
    advanceOf (es.map fun e => Piece.ofBytes e.guide) = 2 * es.length := by
  induction es with
  | nil => rfl
  | cons e es ih =>
    rw [List.map_cons, advanceOf_cons, ih]
    simp [Element.guide]
    omega

/-- Interleaved, a value loses what is left over when it is cut in twelve. -/
theorem advanceOf_evenPieces (e : Element) (es : List Element) :
    advanceOf (evenPieces (e :: es)) + (es.map fun e => e.num % 12).sum = listLen (e :: es) := by
  have hsplit : 2 * es.length + 12 * (es.map fun e => e.num / 12).sum +
      (es.map fun e => e.num % 12).sum = listLen es := by
    induction es with
    | nil => rfl
    | cons e es ih =>
      rw [List.length_cons, List.map_cons, List.map_cons, List.sum_cons, List.sum_cons,
        listLen_cons]
      omega
  rw [evenPieces, advanceOf_append, advanceOf_append, advanceOf_twelfths, advanceOf_guides]
  simp [elementPieces, valuePiece, Element.guide]
  omega

theorem advance_fixedPiece (body : UpBody) (h : n ≤ 23) : (fixedPiece body n).advance = n := by
  rw [fixedPiece, Piece.ofBytes_advance, List.length_take, UpBody.length_fixed]
  omega

variable {body : UpBody}

/-- A single frame carries what was counted, but for the slack. -/
theorem advanceOf_singlePieces (store : Store) {c : UpCase} (hm : body.Made c) :
    advanceOf (singlePieces store c body) + c.slack body.elements = c.total body.elements := by
  have h8 := advance_fixedPiece body (show 8 ≤ 23 by decide)
  have h15 := advance_fixedPiece body (show 15 ≤ 23 by decide)
  have h23 := advance_fixedPiece body (show 23 ≤ 23 by decide)
  cases c with
  | evenPeriod =>
    obtain ⟨e, es, hes⟩ := List.exists_cons_of_ne_nil (hm.even rfl)
    have := advanceOf_evenPieces e es
    simp only [singlePieces, bodyPieces, UpCase.slack, UpCase.total, advanceOf_cons, hes, h23,
      List.tail_cons]
    omega
  | artificial | picture =>
    obtain ⟨e, he⟩ := hm.file rfl
    simp [singlePieces, UpCase.slack, UpCase.total, he, h8, fileRead, Element.guide]
    omega
  | _ =>
    simp [singlePieces, bodyPieces, UpCase.slack, UpCase.total, h8, h15, h23,
      advanceOf_elementPieces, advanceOf_lengthPieces, advanceOf_valuePieces]

variable {es : List Element}

theorem tame_elements (h : ∀ e ∈ es, e.value.length = e.num) :
    (∀ p ∈ es.flatMap elementPieces, p.Whole) ∧ (∀ p ∈ es.flatMap lengthPieces, p.Whole) ∧
      ∀ p ∈ es.map valuePiece, p.Whole := by
  refine ⟨fun p hp => ?_, fun p hp => ?_, fun p hp => ?_⟩
  · obtain ⟨e, he, hp⟩ := List.mem_flatMap.mp hp
    simp only [elementPieces, List.mem_cons, List.not_mem_nil, or_false] at hp
    obtain rfl | rfl := hp
    · exact Piece.whole_ofBytes _
    · exact h e he
  · obtain ⟨e, he, hp⟩ := List.mem_flatMap.mp hp
    simp only [lengthPieces, List.mem_cons, List.not_mem_nil, or_false] at hp
    obtain rfl | rfl := hp
    · exact Piece.whole_ofBytes _
    · exact h e he
  · obtain ⟨e, he, rfl⟩ := List.mem_map.mp hp
    exact h e he

theorem tame_twelfthPiece (k : Nat) (e : Element) : (twelfthPiece k e).Tame := by
  rw [twelfthPiece]
  split
  · simp [Piece.Tame]
  · split <;> simp [Piece.Tame]

theorem tame_evenPieces (h : ∀ e ∈ es, e.value.length = e.num) : ∀ p ∈ evenPieces es, p.Tame := by
  cases es with
  | nil => exact fun p hp => nomatch hp
  | cons e es =>
    intro p hp
    rw [evenPieces, List.mem_append, List.mem_append] at hp
    obtain (hp | hp) | hp := hp
    · have he : ∀ e' ∈ [e], e'.value.length = e'.num :=
        List.forall_mem_singleton.mpr (h e (List.mem_cons_self ..))
      exact ((tame_elements he).1 p (by simpa using hp)).tame
    · obtain ⟨e', -, rfl⟩ := List.mem_map.mp hp
      exact (Piece.whole_ofBytes _).tame
    · obtain ⟨k, -, hp⟩ := List.mem_flatMap.mp hp
      obtain ⟨e', -, rfl⟩ := List.mem_map.mp hp
      exact tame_twelfthPiece k e'

theorem tame_cons {p : Piece} {ps : List Piece} (hp : p.Tame) (hps : ∀ q ∈ ps, q.Tame) :
    ∀ q ∈ p :: ps, q.Tame := List.forall_mem_cons.mpr ⟨hp, hps⟩

theorem tame_fixedPiece (body : UpBody) (n : Nat) : (fixedPiece body n).Tame :=
  (Piece.whole_ofBytes _).tame

theorem tame_fileRead (store : Store) (c : UpCase) (offset len : Nat) :
    (fileRead store c offset len).Tame := store.length_read_le _ _ _

theorem tame_singlePieces (store : Store) {c : UpCase} (hm : body.Made c) :
    ∀ p ∈ singlePieces store c body, p.Tame := by
  have whole : c.isFile = false → _ := fun hc => tame_elements (hm.whole hc)
  cases c with
  | link | bare => exact List.forall_mem_singleton.mpr (tame_fixedPiece body _)
  | evenPeriod => exact tame_cons (tame_fixedPiece body _) (tame_evenPieces (hm.whole rfl))
  | observed | listed | single =>
    exact tame_cons (tame_fixedPiece body _) fun p hp => ((whole rfl).1 p hp).tame
  | swVersion | pump | valve | gate =>
    exact tame_cons (tame_fixedPiece body _) fun p hp => ((whole rfl).2.1 p hp).tame
  | waterSetting | record =>
    exact tame_cons (tame_fixedPiece body _) fun p hp => ((whole rfl).2.2 p hp).tame
  | artificial | picture =>
    refine tame_cons (tame_fixedPiece body _) fun p hp => ?_
    obtain ⟨e, -, hp⟩ := List.mem_flatMap.mp hp
    simp only [List.mem_cons, List.not_mem_nil, or_false] at hp
    obtain rfl | rfl := hp
    · exact (Piece.whole_ofBytes _).tame
    · exact tame_fileRead store _ _ _

end Pieces

/-! ### Device -/

section Device

variable {env : Env} {p : UpPacket} {mode : Mode} {funcode : BodyType} {table : List ElementInfo}

theorem deviceMakePacket_ok (htable : table.length < 256)
    (h : deviceMakePacket env table mode funcode = .ok p) :
    p.header.Full mode funcode 0 ∧ p.body.Made funcode.upCase := by
  rw [deviceMakePacket] at h
  split at h
  · generalize hh : deviceMakeUpHeader env.store mode funcode = r at h
    obtain ⟨err, header⟩ := r
    cases err with
    | some e => cases h
    | none =>
      generalize hb : deviceMakeUpBody env table _ funcode = r at h
      cases r with
      | error e => cases h
      | ok body =>
        cases h
        exact ⟨deviceMakeUpHeader_ok hh, deviceMakeUpBody_ok htable hb⟩
  · cases h

/-- The uplink packets whose frames fit their buffers. -/
def DeviceFits (mode : Mode) (funcode : BodyType) (body : UpBody) : Prop :=
  funcode.upCase.total body.elements ≤ bodyMaxLen ∧
    (mode ≠ .m3 ∨ 3 ≤ funcode.upCase.slack body.elements)

instance (mode : Mode) (funcode : BodyType) (body : UpBody) :
    Decidable (DeviceFits mode funcode body) := inferInstanceAs (Decidable (_ ∧ _))

/-- A single frame of a short body. -/
theorem deviceSendSingle_inBounds (hh : p.header.Full mode funcode 0)
    (hm : p.body.Made funcode.upCase) (hshort : funcode.upCase.total p.body.elements ≤ bodyMaxLen)
    (hheap : kmalloc env.heap .frame ((p.header.len + p.body.len + 3) % 2 ^ 16) = true) :
    (deviceSendSingle env p funcode).InBounds ↔
      mode ≠ .m3 ∨ 3 ≤ funcode.upCase.slack p.body.elements := by
  have hadv := advanceOf_singlePieces env.store hm
  have htame := tame_singlePieces env.store hm
  rw [bodyMaxLen] at hshort
  have hlen : p.body.len = funcode.upCase.total p.body.elements := by
    rw [hm.len, Nat.mod_eq_of_lt (by omega)]
  have hhead : ((p.header.single p.body.len).upBytes.take
      (p.header.single p.body.len).headerLen).length = p.header.headerLen := by
    rw [List.length_take, Header.length_upBytes, Header.headerLen_single,
      Nat.min_eq_left p.header.headerLen_le]
  have hle := p.header.headerLen_le
  have hext := sendFrame_extent (.alloc ((p.header.len + p.body.len + 3) % 2 ^ 16))
    ((p.header.single p.body.len).upBytes.take (p.header.single p.body.len).headerLen) ETX htame
    (by omega)
  rw [deviceSendSingle, if_pos hheap, Sent.InBounds]
  simp only [List.mem_singleton, forall_eq, Buf.Fits, size_sendFrame, Buf.size_alloc]
  rw [hext, hhead, Buf.extent_alloc, hh.len, hh.headerLen]
  by_cases hmode : mode = .m3
  · simp only [hmode, if_true, ne_eq, not_true_eq_false, false_or]
    omega
  · simp only [hmode, if_false, ne_eq, not_false_eq_true, true_or, iff_true]
    omega

/-- A file whose length, cut to 16 bits, passes for a short one is read past the buffer. -/
theorem deviceSendSingle_overflow (hh : p.header.Full mode funcode 0)
    (hm : p.body.Made funcode.upCase) (hlong : 2 ^ 16 ≤ funcode.upCase.total p.body.elements)
    (hshort : p.body.len ≤ bodyMaxLen) (hheap : env.heap = Heap.ample)
    (hstore : env.store.Healthy) : ¬ (deviceSendSingle env p funcode).InBounds := by
  rw [bodyMaxLen] at hshort
  have hsize : (p.header.len + p.body.len + 3) % 2 ^ 16 = p.body.len + 17 := by
    rw [hh.len, Nat.mod_eq_of_lt (by omega)]
    omega
  have hk : kmalloc env.heap .frame ((p.header.len + p.body.len + 3) % 2 ^ 16) = true := by
    rw [hsize, hheap]
    exact kmalloc_ample (by omega) (by omega)
  have hfile : funcode.upCase.isFile = true := by
    by_contra hf
    have := hm.small (Bool.eq_false_iff.mpr hf)
    omega
  obtain ⟨e, he⟩ := hm.file hfile
  -- the whole file is one piece of the frame
  have hpiece : fileRead env.store funcode.upCase 0 e.num ∈
      singlePieces env.store funcode.upCase p.body := by
    generalize funcode.upCase = c at hfile
    cases c with
    | artificial | picture => simp [singlePieces, he]
    | _ => cases hfile
  have hnum : 2 ^ 16 ≤ 23 + (e.num + 2) := by
    generalize funcode.upCase = c at hfile hlong
    cases c with
    | artificial | picture =>
      simp only [UpCase.total, he, listLen_cons, listLen_nil] at hlong
      omega
    | _ => cases hfile
  have hdata : (fileRead env.store funcode.upCase 0 e.num).data.length = e.num := by
    rw [fileRead, Store.read_eq hstore _ _ (by omega), length_readMem]
  intro hin
  rw [deviceSendSingle, if_pos hk, Sent.InBounds] at hin
  simp only [List.mem_singleton, forall_eq, Buf.Fits, size_sendFrame, Buf.size_alloc] at hin
  have hle := (length_le_sendFrame hpiece).trans hin
  omega

/-! #### Split transfers -/

variable {frame : Nat → Buf → Buf × List UInt8}

theorem extent_le_sendFrames (hmono : ∀ i buf, buf.extent ≤ (frame i buf).1.extent) (total : Nat)
    (buf : Buf) : (frame 1 buf).1.extent ≤ (sendFrames frame (total + 1) buf).1.extent := by
  induction total with
  | zero => exact le_rfl
  | succ total ih =>
    rw [sendFrames_succ]
    exact ih.trans (hmono _ _)

theorem size_sendFrames (hsize : ∀ i buf, (frame i buf).1.size = buf.size) (total : Nat) (buf : Buf)
    :
    (sendFrames frame total buf).1.size = buf.size := by
  induction total with
  | zero => rfl
  | succ total ih => rw [sendFrames_succ, hsize, ih]

theorem two_le_splitTotal {len : Nat} (h : bodyMaxLen < len) : 2 ≤ splitTotal len := by
  rw [bodyMaxLen] at h
  rw [splitTotal, bodyMaxLen]
  split <;> omega

section Split

variable (store : Store) (p : UpPacket) (c : UpCase) (mem : Nat → UInt8)

/-- Every split frame is a frame under a header with a sequence field. -/
theorem splitFrame_eq (i : Nat) : ∃ pieces, ∀ buf, splitFrame store p c mem i buf =
    sendFrame buf (splitHeader p.header p.body.len i (splitTotal p.body.len)).upBytes pieces
      (splitEnd i (splitTotal p.body.len)) := by
  cases c <;> exact ⟨_, fun _ => rfl⟩

theorem extent_le_splitFrame (i : Nat) (buf : Buf) :
    buf.extent ≤ (splitFrame store p c mem i buf).1.extent := by
  obtain ⟨pieces, h⟩ := splitFrame_eq store p c mem i
  rw [h]
  exact extent_le_sendFrame

theorem size_splitFrame (i : Nat) (buf : Buf) :
    (splitFrame store p c mem i buf).1.size = buf.size := by
  obtain ⟨pieces, h⟩ := splitFrame_eq store p c mem i
  rw [h, size_sendFrame]

/-- The first of several split frames is 148 bytes long. -/
theorem splitFrame_first {c : UpCase} (hm : p.body.Made c) (hlen : bodyMaxLen < p.body.len)
    (buf : Buf) : (splitFrame store p c mem 1 buf).1.extent = max buf.extent 148 := by
  have htotal : 1 ≠ splitTotal p.body.len := by
    have := two_le_splitTotal hlen
    omega
  by_cases hfile : c.isFile = true
  · obtain ⟨e, he⟩ := hm.file hfile
    have hfixed : c.fileFixed ≤ 23 := by cases c <;> decide
    have hfirst : c.fileFixed + (2 + (bodyMaxLen - (c.fileFixed + 2))) = 128 := by
      rw [bodyMaxLen]
      omega
    have hpieces : fileSplitPieces store c p.body 1 (splitTotal p.body.len) =
        [fixedPiece p.body c.fileFixed, .ofBytes e.guide,
          fileRead store c 0 (bodyMaxLen - (c.fileFixed + 2))] := by
      simp [fileSplitPieces, he, htotal]
    have hadv : advanceOf (fileSplitPieces store c p.body 1 (splitTotal p.body.len)) = 128 := by
      rw [hpieces, advanceOf_cons, advance_fixedPiece p.body hfixed]
      simpa [Element.guide, fileRead] using hfirst
    have htame : ∀ q ∈ fileSplitPieces store c p.body 1 (splitTotal p.body.len), q.Tame := by
      rw [hpieces]
      exact tame_cons (tame_fixedPiece _ _) (tame_cons (Piece.whole_ofBytes _).tame
        (List.forall_mem_singleton.mpr (tame_fileRead _ _ _ _)))
    have hext := sendFrame_extent buf (splitHeader p.header p.body.len 1
      (splitTotal p.body.len)).upBytes (splitEnd 1 (splitTotal p.body.len)) htame
      (by rw [Header.length_upBytes]; omega)
    rw [hadv, Header.length_upBytes] at hext
    cases c with
    | artificial | picture => exact hext
    | _ => cases hfile
  · have hchunk : splitFrame store p c mem 1 buf =
        deviceSplitTransfer mem buf p.header p.body.len 1 (splitTotal p.body.len) := by
      cases c <;> first | exact absurd rfl hfile | rfl
    rw [hchunk, deviceSplitTransfer, sendFrame_extent]
    · simp [htotal, bodyMaxLen]
    · exact List.forall_mem_singleton.mpr (Piece.whole_ofBytes _).tame
    · simp [htotal, bodyMaxLen]

end Split

/-- **No split transfer fits its frame buffer.** -/
theorem deviceSendSplit_overflow (hh : p.header.Full mode funcode 0)
    (hm : p.body.Made funcode.upCase) (hlen : bodyMaxLen < p.body.len)
    (hheap : env.heap = Heap.ample) : ¬ (deviceSendSplit env p funcode).InBounds := by
  have hsmall : p.body.len < 2 ^ 16 := by
    rw [hm.len]
    exact Nat.mod_lt _ (by decide)
  have hframe : kmalloc env.heap .frame ((p.header.len + bodyMaxLen + 3) % 2 ^ 16) = true := by
    rw [hheap, hh.len]
    decide
  have hbody : kmalloc env.heap .bodyBuffer p.body.len = true := by
    rw [hheap]
    exact kmalloc_ample (by omega) (by omega)
  obtain ⟨n, hn⟩ : ∃ n, splitTotal p.body.len = n + 1 :=
    ⟨_, (Nat.sub_add_cancel (Nat.le_of_succ_le (two_le_splitTotal hlen))).symm⟩
  intro hin
  rw [deviceSendSplit, if_pos hframe, if_pos hbody] at hin
  have hfits := hin _ (List.mem_cons_self ..)
  rw [Buf.Fits, size_sendFrames (size_splitFrame _ _ _ _), hn] at hfits
  have hext := (extent_le_sendFrames (extent_le_splitFrame env.store p funcode.upCase _) n _).trans
    hfits
  rw [splitFrame_first _ _ _ hm hlen] at hext
  have := (le_max_right _ _).trans hext
  rw [Buf.size_alloc, hh.len, bodyMaxLen] at this
  omega

/-- The frames of a device fit their buffers on every heap and store just for these packets. -/
theorem device_inBounds_iff (hh : p.header.Full mode funcode 0) (hm : p.body.Made funcode.upCase) :
    (∀ env, (deviceMakeUpTailAndSend env p funcode).InBounds) ↔ DeviceFits mode funcode p.body := by
  constructor
  · intro hin
    have henv := hin calmEnv
    rw [deviceMakeUpTailAndSend] at henv
    by_cases hlen : p.body.len ≤ bodyMaxLen
    · rw [if_pos hlen] at henv
      have hshort : funcode.upCase.total p.body.elements < 2 ^ 16 := by
        by_contra hlong
        exact deviceSendSingle_overflow hh hm (by omega) hlen rfl calmEnv_healthy henv
      have htotal : funcode.upCase.total p.body.elements ≤ bodyMaxLen := by
        rwa [hm.len, Nat.mod_eq_of_lt hshort] at hlen
      have hk : kmalloc calmEnv.heap .frame ((p.header.len + p.body.len + 3) % 2 ^ 16) = true := by
        rw [bodyMaxLen] at hlen
        rw [hh.len, Nat.mod_eq_of_lt (by omega)]
        exact kmalloc_ample (by omega) (by omega)
      exact ⟨htotal, (deviceSendSingle_inBounds hh hm htotal hk).mp henv⟩
    · rw [if_neg hlen] at henv
      exact absurd henv (deviceSendSplit_overflow hh hm (by omega) rfl)
  · rintro ⟨htotal, hroom⟩ env
    have hlen : p.body.len ≤ bodyMaxLen := by
      rw [hm.len]
      exact (Nat.mod_le _ _).trans htotal
    rw [deviceMakeUpTailAndSend, if_pos hlen]
    by_cases hk : kmalloc env.heap .frame ((p.header.len + p.body.len + 3) % 2 ^ 16) = true
    · exact (deviceSendSingle_inBounds hh hm htotal hk).mpr hroom
    · rw [deviceSendSingle, if_neg hk]
      exact fun b hb => nomatch hb

end Device

/-! ### Host -/

section Host

variable {env : Env} {p : DownPacket} {mode : Mode} {funcode : BodyType} {table : List ElementInfo}
  {end_ : UInt8}

/-- What every downlink body that was made satisfies: it is sent whole, and is as long as was
counted. -/
structure DownBody.Made (mode : Mode) (c : DownCase) (b : DownBody) : Prop where
  small : b.len + 64 < 2 ^ 16
  whole : ∀ env, ∀ q ∈ downPieces env mode c b, q.Whole
  len   : ∀ env, advanceOf (downPieces env mode c b) = b.len

theorem whole_cons {q : Piece} {qs : List Piece} (hq : q.Whole) (hqs : ∀ r ∈ qs, r.Whole) :
    ∀ r ∈ q :: qs, r.Whole := List.forall_mem_cons.mpr ⟨hq, hqs⟩

theorem whole_guides (es : List Element) : ∀ q ∈ es.map fun e => Piece.ofBytes e.guide, q.Whole := by
  intro q hq
  obtain ⟨e, -, rfl⟩ := List.mem_map.mp hq
  exact Piece.whole_ofBytes _

variable {e : Element} {lenAddr : Nat}

theorem checkedValue_ok {guide0 : UInt8} {num : Nat} (h : checkedValue env guide0 addr num = .ok e)
    :
    e = ⟨guide0, 0, num, readMem (env.store.data .elementData) addr num⟩ ∧ 0 < num := by
  rw [checkedValue] at h
  split at h
  · generalize hr : env.store.read .elementData addr num = r at h
    obtain ⟨err, data⟩ := r
    cases err with
    | some err => cases h
    | none =>
      obtain ⟨rfl, hpos⟩ := Store.read_ok hr
      cases h
      exact ⟨rfl, hpos⟩
  · cases h

variable {num : UInt8 → Nat}

/-- A length byte and the stored bytes it calls for. -/
theorem lengthElement_ok (h : lengthElement env lenAddr addr num = .ok e) :
    ∃ n, e = ⟨n, 0, num n, readMem (env.store.data .elementData) addr (num n)⟩ ∧ 0 < num n := by
  rw [lengthElement] at h
  split at h
  · cases h
  · exact ⟨_, checkedValue_ok h⟩

variable {b : DownBody}

/-- A request with a length byte: its element in mode M4, nothing in the others. -/
theorem m4Body_made {b' : DownBody}
    (hnum : ∀ n, num n ≤ 255) {c : DownCase}
    (hc : ∀ env b, downPieces env mode c b = .ofBytes b.fixed ::
      if mode = .m4 then b.elements.flatMap lengthPieces else [])
    (h : m4Body b mode (lengthElement env lenAddr addr num) = .ok b') : b'.Made mode c := by
  rw [m4Body] at h
  by_cases hmode : mode = .m4
  · rw [if_pos hmode] at h
    obtain ⟨e, he, h⟩ := bind_eq_ok.mp h
    obtain ⟨n, rfl, -⟩ := lengthElement_ok he
    cases h
    have := hnum n
    refine ⟨by simp only; omega, fun env' => ?_, fun env' => ?_⟩
    · rw [hc, if_pos hmode]
      refine whole_cons (Piece.whole_ofBytes _) (tame_elements ?_).2.1
      exact List.forall_mem_singleton.mpr (length_readMem _ _ _)
    · rw [hc, if_pos hmode, advanceOf_cons, advanceOf_lengthPieces]
      simp
  · rw [if_neg hmode] at h
    cases h
    refine ⟨by simp only; decide, fun env' => ?_, fun env' => ?_⟩
    · rw [hc, if_neg hmode]
      exact List.forall_mem_singleton.mpr (Piece.whole_ofBytes _)
    · rw [hc, if_neg hmode]
      simp

/-- **What `hydrology_host_make_down_body` makes.** -/
theorem hostMakeDownBody_ok {count : Nat} (htable : table.length < 256)
    (h : hostMakeDownBody env table count mode funcode = .ok b) : b.Made mode funcode.downCase := by
  have htake : (table.take count).length < 256 := (List.length_take_le' _ _).trans_lt htable
  rw [hostMakeDownBody] at h
  generalize funcode.downCase = c at h ⊢
  cases c with
  | link =>
    cases h
    exact ⟨by simp only; decide, fun _ q hq => (nomatch hq), fun _ => rfl⟩
  | simple =>
    cases h
    exact ⟨by simp only; decide, fun _ => List.forall_mem_singleton.mpr (Piece.whole_ofBytes _),
      fun _ => by simp [downPieces]⟩
  | period =>
    cases table with
    | nil => cases h
    | cons i0 rest =>
      cases rest with
      | nil => cases h
      | cons i1 rest =>
        obtain ⟨e0, he0, h⟩ := bind_eq_ok.mp h
        cases h
        obtain ⟨rfl, hpos⟩ := readElement_ok he0
        have := i0.num_le
        refine ⟨by simp only [storedElement_num]; omega, fun env' => ?_, fun env' => ?_⟩
        · refine whole_cons (Piece.whole_ofBytes _) (whole_cons (Piece.whole_ofBytes _)
            (whole_cons (Piece.whole_ofBytes _) (whole_cons (Piece.whole_ofBytes _)
            (whole_cons ?_ (List.forall_mem_singleton.mpr (Piece.whole_ofBytes _))))))
          exact length_storedElement_value env.store i0
        · simp [downPieces, ctime, elementPieces, valuePiece, Element.guide,
            env'.tailTime.2]
          omega
  | guides | oneGuide =>
    simp only at h
    split at h
    · cases h
      refine ⟨?_, fun _ => whole_cons (Piece.whole_ofBytes _) (whole_guides _), fun _ => ?_⟩
      · simp only [List.length_map, List.length_take]
        omega
      · rw [downPieces, advanceOf_cons, advanceOf_guides]
        simp only [Piece.ofBytes_advance, DownBody.length_fixed, List.length_map,
          List.length_take]
        omega
    · cases h
  | values | changePassword | setIcCard =>
    simp only at h
    split at h
    · obtain ⟨es, hes, h⟩ := bind_eq_ok.mp h
      cases h
      obtain ⟨hsmall, hwhole⟩ := readElements_small hes htake
      refine ⟨by simp only; omega, fun _ => whole_cons (Piece.whole_ofBytes _)
        (tame_elements hwhole).1, fun _ => ?_⟩
      rw [downPieces, advanceOf_cons, advanceOf_elementPieces]
      simp only [Piece.ofBytes_advance, DownBody.length_fixed]
      omega
    · cases h
  | pump | valve => exact m4Body_made (fun n => Nat.le_of_lt_succ n.toNat_lt) (fun _ _ => rfl) h
  | gate => exact m4Body_made (fun n => (gateNum_le n).trans (by decide)) (fun _ _ => rfl) h
  | waterSetting =>
    obtain ⟨e, he, h⟩ := bind_eq_ok.mp h
    obtain ⟨rfl, -⟩ := checkedValue_ok he
    cases h
    refine ⟨by simp only; decide, fun _ => whole_cons (Piece.whole_ofBytes _) ?_, fun _ => ?_⟩
    · exact List.forall_mem_singleton.mpr (length_readMem _ _ _)
    · simp [downPieces, valuePiece]

theorem hostMakePacket_ok (htable : table.length < 256)
    (h : hostMakePacket env table mode funcode = .ok p) :
    p.header = (hostMakeDownHeader env.store mode funcode).2 ∧
      p.body.Made mode funcode.downCase := by
  rw [hostMakePacket] at h
  split at h
  · generalize hb : hostMakeDownBody env table _ mode funcode = r at h
    cases r with
    | error e => cases h
    | ok body =>
      cases h
      exact ⟨rfl, hostMakeDownBody_ok htable hb⟩
  · cases h

/-- A downlink frame fits its buffer just when its header is no longer than was counted. -/
theorem host_inBounds_iff (hm : p.body.Made mode funcode.downCase) (hlen : p.header.len ≤ 14) :
    (∀ env, (hostMakeDownTailAndSend env p mode funcode end_).InBounds) ↔
      p.header.headerLen ≤ p.header.len := by
  have hsmall := hm.small
  have hsize : (p.header.len + p.body.len + 3) % 2 ^ 16 = p.header.len + p.body.len + 3 :=
    Nat.mod_eq_of_lt (by omega)
  have hhead : ((p.header.single p.body.len).downBytes.take
      (p.header.single p.body.len).headerLen).length = p.header.headerLen := by
    rw [List.length_take, Header.length_downBytes, Header.headerLen_single,
      Nat.min_eq_left p.header.headerLen_le]
  have hle := p.header.headerLen_le
  have key : ∀ env : Env, kmalloc env.heap .frame (p.header.len + p.body.len + 3) = true →
      ((hostMakeDownTailAndSend env p mode funcode end_).InBounds ↔
        p.header.headerLen ≤ p.header.len) := by
    intro env hk
    have hext := sendFrame_extent (.alloc (p.header.len + p.body.len + 3))
      ((p.header.single p.body.len).downBytes.take (p.header.single p.body.len).headerLen) end_
      (fun q hq => (hm.whole env q hq).tame) (by rw [hm.len env]; omega)
    rw [hostMakeDownTailAndSend, hsize, if_pos hk, Sent.InBounds]
    simp only [List.mem_singleton, forall_eq, Buf.Fits, size_sendFrame, Buf.size_alloc]
    rw [hext, hhead, hm.len env, Buf.extent_alloc]
    omega
  constructor
  · intro hin
    exact (key calmEnv (kmalloc_ample (by omega) (by omega))).mp (hin calmEnv)
  · intro hroom env
    by_cases hk : kmalloc env.heap .frame (p.header.len + p.body.len + 3) = true
    · exact (key env hk).mpr hroom
    · rw [hostMakeDownTailAndSend, hsize, if_neg hk]
      exact fun b hb => nomatch hb

end Host

/-- **When the buffers suffice.**  Whatever the heap and the store answer while a packet is sent,
the device writes inside its buffers just when the body has at most 128 bytes and the mode is not
M3, unless the frame carries three bytes less than was counted; the host, just when the mode is not
M3 and its header was read in full. -/
theorem writes_fit_iff (env : Env) (table : List ElementInfo) (htable : table.length < 256)
    (mode : Mode) (funcode : BodyType) :
    (∀ p, deviceMakePacket env table mode funcode = .ok p →
      ((∀ env', (deviceMakeUpTailAndSend env' p funcode).InBounds) ↔
        DeviceFits mode funcode p.body)) ∧
    (∀ p end_, hostMakePacket env table mode funcode = .ok p →
      ((∀ env', (hostMakeDownTailAndSend env' p mode funcode end_).InBounds) ↔
        mode ≠ .m3 ∧ (hostMakeDownHeader env.store mode funcode).1 = none)) := by
  refine ⟨fun p hp => ?_, fun p end_ hp => ?_⟩
  · obtain ⟨hh, hm⟩ := deviceMakePacket_ok htable hp
    exact device_inBounds_iff hh hm
  · obtain ⟨hh, hm⟩ := hostMakePacket_ok htable hp
    by_cases herr : (hostMakeDownHeader env.store mode funcode).1 = none
    · have hfull : p.header.Full mode funcode 0x80 :=
        hostMakeDownHeader_ok (Prod.ext herr hh.symm)
      rw [host_inBounds_iff hm hfull.len.le, hfull.len, hfull.headerLen]
      by_cases hmode : mode = .m3 <;> simp [hmode, herr]
    · have hcut := hostMakeDownHeader_error herr
      have hlt := hcut.len
      rw [host_inBounds_iff hm (by rw [hh]; omega), hh, hcut.headerLen]
      refine iff_of_false (by omega) fun hand => herr hand.2

/-- A table of one element of four digits. -/
def oneElement : List ElementInfo := [⟨0x20, 4, 1, 0⟩]

/-- A test report of one element, in mode M2, fits. -/
theorem writes_fit_iff_test : ∃ p, deviceMakePacket calmEnv oneElement .m2 .test = .ok p ∧
    ((∀ env', (deviceMakeUpTailAndSend env' p .test).InBounds) ↔ DeviceFits .m2 .test p.body) ∧
    DeviceFits .m2 .test p.body :=
  ⟨_, rfl, (writes_fit_iff calmEnv oneElement (by decide) .m2 .test).1 _ rfl, by decide⟩

/-- The same report in mode M3 is 47 bytes long, in a buffer of 44. -/
theorem m3_report_overflows :
    (deviceProcessSend calmEnv oneElement .m3 .test).buffers.map (fun b => (b.size, b.extent)) =
        [(44, 47)] ∧
      ¬ (deviceProcessSend calmEnv oneElement .m3 .test).InBounds := by
  decide +kernel

end Kinetis.Hydrology
