import Kinetis.Hydrology.Bounds
import Kinetis.Hydrology.Counts

/-!
# Hydrology — from a frame back to its parts

What one end sends is what the other end reads, part by part.

* `Input.At inp pos data`: the input holds `data` from `pos` on.  It splits along `++`.
* `accepted_frame`: a frame under a well-formed header passes the check, with its body where the
  header says.
* `countElements_at`, `takeElements_at`: a list of elements whose guides tell their lengths is
  counted and read back.
-/

namespace Kinetis.Hydrology
open Lib

/-! ### What the input holds -/

section At

variable {inp : Input}

/-- The input holds `data` from `pos` on. -/
def Input.At (inp : Input) (pos : Nat) (data : List UInt8) : Prop :=
  inp.bytes pos data.length = data

theorem Input.bytes_append (inp : Input) (pos m n : Nat) :
    inp.bytes pos (m + n) = inp.bytes pos m ++ inp.bytes ((pos + m : Nat) : Int) n := by
  rw [bytes, List.range_add, List.map_append, List.map_map]
  refine congrArg _ (List.map_congr_left fun i _ => ?_)
  simp [Int.add_assoc]

variable {pos : Nat}

theorem Input.at_append {a b : List UInt8} :
    inp.At pos (a ++ b) ↔ inp.At pos a ∧ inp.At (pos + a.length) b := by
  rw [At, List.length_append, bytes_append]
  exact ⟨fun h => List.append_inj h (length_bytes inp pos a.length), fun h => congrArg₂ _ h.1 h.2⟩

theorem Input.at_cons {x : UInt8} {xs : List UInt8} :
    inp.At pos (x :: xs) ↔ inp.byte pos = x ∧ inp.At (pos + 1) xs := by
  have h : inp.At pos ([x] ++ xs) ↔ _ := at_append
  have hone : inp.At pos [x] ↔ inp.byte pos = x := by simp [At, bytes]
  rwa [List.singleton_append, hone] at h

theorem Input.At.field {n : Nat} {b : Bytes n} (h : inp.At pos b.1) : inp.field pos n = b := by
  refine Subtype.ext ?_
  rw [At, b.2] at h
  exact h

theorem Input.Holds.at {frame : List UInt8} (h : inp.Holds frame) : inp.At 0 frame := by
  have hbytes : inp.bytes (0 : Nat) frame.length = _ := h.bytes (by omega)
  exact hbytes.trans (by simp [slice])

end At

/-! ### Headers -/

/-- A header as it is sent: eight bytes of addresses and password, the function code, the length,
the start of the text, and a sequence field where that is `SYN`. -/
structure Framed (header pre : List UInt8) (f d0 d1 ps : UInt8) (seq : List UInt8) : Prop where
  eq  : header = SOH :: SOH :: (pre ++ f :: d0 :: d1 :: ps :: seq)
  pre : pre.length = 8
  seq : seq.length = if ps = SYN then 3 else 0

theorem Header.framed_up (h : Header) (hs : h.frameStart.1 = [SOH, SOH]) :
    Framed (h.upBytes.take h.headerLen) (h.centerAddr :: h.remoteAddr.1 ++ h.password.1) h.funcode
      h.dirLen0 h.dirLen1 h.paketStart (if h.paketStart = SYN then h.countSeq.1 else []) := by
  have hr := h.remoteAddr.2
  have hp := h.password.2
  have hq := h.countSeq.2
  refine ⟨?_, by simp [hr, hp], ?_⟩
  · rw [upBytes, hs, headerLen]
    split
    · rw [List.take_of_length_le (by simp [hr, hp, hq])]
      simp
    · rw [List.take_left' (by simp [hr, hp])]
      simp
  · split <;> simp [hq]

theorem Header.framed_down (h : Header) (hs : h.frameStart.1 = [SOH, SOH]) :
    Framed (h.downBytes.take h.headerLen) (h.remoteAddr.1 ++ h.centerAddr :: h.password.1) h.funcode
      h.dirLen0 h.dirLen1 h.paketStart (if h.paketStart = SYN then h.countSeq.1 else []) := by
  have hr := h.remoteAddr.2
  have hp := h.password.2
  have hq := h.countSeq.2
  refine ⟨?_, by simp [hr, hp], ?_⟩
  · rw [downBytes, hs, headerLen]
    split
    · rw [List.take_of_length_le (by simp [hr, hp, hq])]
      simp
    · rw [List.take_left' (by simp [hr, hp])]
      simp
  · split <;> simp [hq]

variable {h : Header} {len : Nat}

/-- The length that `addLen` put into the header is read back. -/
theorem Header.dirLen_addLen (h0 : h.dirLen0 &&& 0x0F = 0) (h1 : h.dirLen1 = 0) (hlen : len < 4096)
    :
    ((h.addLen len).dirLen0 &&& 0x0F).toNat * 256 + (h.addLen len).dirLen1.toNat = len := by
  have h0' : h.dirLen0.toNat &&& 15 = 0 := by
    have := congrArg UInt8.toNat h0
    rwa [UInt8.toNat_and] at this
  have hhigh : ((h.addLen len).dirLen0 &&& 0x0F).toNat = len / 256 := by
    have hshift : len >>> 8 % 256 &&& 15 = len / 256 := by
      rw [Nat.and_two_pow_sub_one_eq_mod _ 4, Nat.shiftRight_eq_div_pow]
      omega
    rw [addLen, UInt8.toNat_and, UInt8.toNat_or, UInt8.toNat_ofNat', Nat.and_or_distrib_right]
    exact (congrArg (· ||| _) h0').trans ((Nat.zero_or _).trans hshift)
  have hlow : (h.addLen len).dirLen1.toNat = len % 256 := by
    have hmask : len &&& 255 = len % 256 := Nat.and_two_pow_sub_one_eq_mod len 8
    simp [addLen, h1, hmask]
  omega

theorem Header.dirLen_single (h : Header) (len : Nat) :
    (h.single len).dirLen0 = (h.addLen len).dirLen0 ∧
      (h.single len).dirLen1 = (h.addLen len).dirLen1 := by
  rw [single]
  split <;> exact ⟨rfl, rfl⟩

/-- The length and the sequence are all that a single frame adds to the header. -/
theorem Header.single_keeps (h : Header) (len : Nat) :
    (h.single len).frameStart = h.frameStart ∧ (h.single len).centerAddr = h.centerAddr ∧
      (h.single len).remoteAddr = h.remoteAddr ∧ (h.single len).funcode = h.funcode := by
  rw [single]
  split <;> exact ⟨rfl, rfl, rfl, rfl⟩

/-! ### The check -/

/-- The two CRC bytes of a frame, put together again. -/
theorem crc_join (x : UInt16) :
    ((x >>> 8).toUInt8.toUInt16 <<< 8) ||| (x &&& 0xFF).toUInt8.toUInt16 = x := by
  apply UInt16.toNat_inj.mp
  have hx := x.toNat_lt
  have hhi : (x.toNat >>> 8) % 256 = x.toNat / 256 := by
    rw [Nat.shiftRight_eq_div_pow]
    omega
  have hlo : x.toNat &&& 255 = x.toNat % 256 := Nat.and_two_pow_sub_one_eq_mod x.toNat 8
  simp only [UInt16.toNat_or, UInt16.toNat_shiftLeft, UInt8.toNat_toUInt16, UInt16.toNat_toUInt8,
    UInt16.toNat_shiftRight, UInt16.toNat_and]
  simp only [show (8 : UInt16).toNat % 16 = 8 from rfl, show (255 : UInt16).toNat = 255 from rfl,
    hhi, hlo]
  have hshift : (x.toNat / 256) <<< 8 % 2 ^ 16 = (x.toNat / 256) <<< 8 := by
    rw [Nat.shiftLeft_eq]
    omega
  rw [hshift, ← Nat.shiftLeft_add_eq_or_of_lt (by omega)]
  omega

section Accept

variable {inp : Input} {header pre body seq : List UInt8} {f d0 d1 ps end_ : UInt8}

/-- Where the parts of a received frame are. -/
structure Located (inp : Input) (pre : List UInt8) (f d0 d1 ps : UInt8) (seq body : List UInt8)
    (end_ : UInt8) : Prop where
  start  : inp.byte 0 = SOH ∧ inp.byte 1 = SOH
  preAt  : inp.At 2 pre
  code   : inp.byte 10 = f
  len    : inp.byte 11 = d0 ∧ inp.byte 12 = d1
  paket  : inp.byte 13 = ps
  seqAt  : inp.At 14 seq
  bodyAt : inp.At (14 + seq.length) body
  tail   : inp.byte ((14 + seq.length + body.length : Nat) : Int) = end_

theorem located_frame (h : inp.Holds (frameOf header body end_))
    (hf : Framed header pre f d0 d1 ps seq) : Located inp pre f d0 d1 ps seq body end_ := by
  have hat := h.at
  rw [frameOf, withCrc, hf.eq] at hat
  simp only [List.cons_append, List.append_assoc, Input.at_cons, Input.at_append, hf.pre] at hat
  obtain ⟨h0, h1, hpre, h10, h11, h12, h13, hseq, hbody, hend, -⟩ := hat
  exact ⟨⟨h0, h1⟩, hpre, h10, ⟨h11, h12⟩, h13, hseq, hbody, hend⟩

theorem length_framed (hf : Framed header pre f d0 d1 ps seq) :
    header.length = 14 + seq.length := by
  rw [hf.eq]
  simp [hf.pre]
  omega

/-- **A frame under a well-formed header passes the check**, and its body is where the header
ends. -/
theorem accepted_frame (h : inp.Holds (frameOf header body end_))
    (hf : Framed header pre f d0 d1 ps seq)
    (hn : (d0 &&& 0x0F).toNat * 256 + d1.toNat = body.length) :
    inp.Accepted ∧ inp.bodyStart = 14 + seq.length ∧ inp.bodyLen = body.length := by
  have hl := located_frame h hf
  have hbodyLen : inp.bodyLen = body.length := by rw [Input.bodyLen, hl.len.1, hl.len.2, hn]
  have hshort := bodyLen_lt inp
  have hlen : inp.len = 14 + seq.length + body.length + 3 := by
    rw [h.1, length_frameOf, length_framed hf]
  have hseq := hf.seq
  have hstart : inp.bodyStart = 14 + seq.length := by
    rw [Input.bodyStart, hl.paket, hseq]
    split <;> rfl
  have hexpected : inp.expectedLen = body.length := by
    rw [Input.expectedLen, hl.paket, hlen]
    split at hseq
    · rw [if_pos ‹_›]
      push_cast
      omega
    · rw [if_neg ‹_›]
      push_cast
      omega
  have hseq3 : seq.length ≤ 3 := by
    rw [hseq]
    split <;> omega
  refine ⟨Input.accepted_iff.mpr ⟨?_, ?_, by omega, by omega, by omega⟩, hstart, hbodyLen⟩
  · -- the CRC is taken over all but the two last bytes
    have hcrcLen : inp.crcLen = (header ++ body ++ [end_]).length := by
      rw [Input.crcLen, hlen]
      simp only [List.length_append, List.length_singleton, length_framed hf]
      omega
    have hat := h.at
    rw [frameOf, withCrc] at hat
    simp only [Input.at_append, Input.at_cons] at hat
    obtain ⟨⟨⟨hhead, hbody⟩, hend, -⟩, hhi, hlo, -⟩ := hat
    have hdata : inp.bytes 0 inp.crcLen = header ++ body ++ [end_] := by
      rw [hcrcLen]
      exact Input.at_append.mpr ⟨Input.at_append.mpr ⟨hhead, hbody⟩, Input.at_cons.mpr ⟨hend, rfl⟩⟩
    have hcrc : inp.inputCrc = crc16 0xFFFF (header ++ body ++ [end_]) := by
      have h2 : (inp.len : Int) - 2 = ((0 + (header ++ body ++ [end_]).length : Nat) : Int) := by
        rw [hlen]
        simp only [List.length_append, List.length_singleton, length_framed hf]
        omega
      have h1 : (inp.len : Int) - 1 = ((0 + (header ++ body ++ [end_]).length + 1 : Nat) : Int) := by
        omega
      rw [Input.inputCrc, h2, h1, hhi, hlo]
      exact crc_join _
    rw [Input.crcOk, hdata, hcrc]
    simp
  · rw [Input.startOk, hl.start.1, hl.start.2]
    rfl

/-- The same for a frame that is not split, of a body of `len` bytes. -/
theorem single_frame_at
    (hf : Framed header pre (h.single len).funcode (h.single len).dirLen0 (h.single len).dirLen1
      (h.single len).paketStart seq)
    (h0 : h.dirLen0 &&& 0x0F = 0) (h1 : h.dirLen1 = 0) (hlen : body.length = len)
    (hlt : len < 4096) (hin : inp.Holds (frameOf header body end_)) :
    inp.Accepted ∧ inp.bodyStart = 14 + seq.length ∧ inp.bodyLen = len := by
  obtain ⟨hd0, hd1⟩ := h.dirLen_single len
  have hdir := Header.dirLen_addLen h0 h1 hlt
  rw [← hd0, ← hd1] at hdir
  obtain ⟨hacc, hstart, hbody⟩ := accepted_frame hin hf (hdir.trans hlen.symm)
  exact ⟨hacc, hstart, hbody.trans hlen⟩

end Accept

/-! ### Element lists -/

section Elements

variable {inp : Input}

/-- An element whose guide tells the length of its value. -/
structure Element.Sound (e : Element) : Prop where
  num   : guideNum e.guide1 = e.num
  value : e.value.length = e.num
  pos   : 0 < e.num

theorem storedElement_sound {store : Store} {info : ElementInfo} (hD : 0 < info.D ∧ info.D ≤ 62)
    (hd : info.d ≤ 7) : (storedElement store info).Sound := by
  refine ⟨guideNum_hydrologyGetGuideId hD.2 hd, length_storedElement_value store info, ?_⟩
  have : 0 < info.D.toNat := UInt8.lt_iff_toNat_lt.mp hD.1
  rw [storedElement_num, ElementInfo.num]
  split <;> omega

/-- The bytes of a list of elements. -/
def listBytes (es : List Element) : List UInt8 := es.flatMap Element.bytes

@[simp] theorem listBytes_cons (e : Element) (es : List Element) :
    listBytes (e :: es) = e.guide0 :: e.guide1 :: (e.value ++ listBytes es) := rfl

variable {es : List Element}

theorem length_listBytes (h : ∀ e ∈ es, e.value.length = e.num) :
    (listBytes es).length = listLen es := by
  induction es with
  | nil => rfl
  | cons e es ih =>
    obtain ⟨he, hes⟩ := List.forall_mem_cons.mp h
    rw [listBytes_cons, listLen_cons, List.length_cons, List.length_cons, List.length_append,
      ih hes]
    omega

theorem bodyOf_elementPieces (es : List Element) :
    bodyOf (es.flatMap elementPieces) = listBytes es := by
  induction es with
  | nil => rfl
  | cons e es ih =>
    rw [List.flatMap_cons, bodyOf_append, ih]
    simp [elementPieces, valuePiece, Element.guide]

theorem takeElement_at {c : Cursor} {e : Element} (he : e.Sound) (i : Nat)
    (h : inp.At c.position e.bytes) :
    takeElement inp Heap.ample i c = ⟨none, [e], c.takes [2, e.num]⟩ := by
  have hcons : e.bytes = e.guide0 :: e.guide1 :: e.value := rfl
  rw [hcons, Input.at_cons, Input.at_cons] at h
  obtain ⟨h0, h1, hv⟩ := h
  have h1' : inp.byte ((c.position : Int) + 1) = e.guide1 := by simpa using h1
  have hlt := guideNum_lt e.guide1
  have hk : kmalloc Heap.ample (.value i) e.num = true :=
    kmalloc_ample he.pos (by rw [← he.num]; omega)
  have hvalue : inp.bytes ((c.take 2).position : Int) e.num = e.value := by
    rw [Input.At, he.value] at hv
    simpa [Nat.add_assoc] using hv
  rw [takeElement, takeValue]
  simp only [h0, h1', he.num, if_pos hk, hvalue]
  rfl

/-- **An element list is read back.** -/
theorem takeElements_at (hes : ∀ e ∈ es, e.Sound) (i : Nat) (c : Cursor)
    (h : inp.At c.position (listBytes es)) :
    (takeElements inp Heap.ample i es.length c).error = none ∧
      (takeElements inp Heap.ample i es.length c).elements = es ∧
      (takeElements inp Heap.ample i es.length c).cursor.position = c.position + listLen es ∧
      (takeElements inp Heap.ample i es.length c).cursor.len = c.len - listLen es := by
  induction es generalizing i c with
  | nil => exact ⟨rfl, rfl, rfl, by simp [takeElements]⟩
  | cons e es ih =>
    obtain ⟨he, hrest⟩ := List.forall_mem_cons.mp hes
    have hsplit : listBytes (e :: es) = e.bytes ++ listBytes es := rfl
    rw [hsplit, Input.at_append] at h
    have hlen : e.bytes.length = 2 + e.num := by
      rw [← he.value]
      simp [Element.bytes, Element.guide]
      omega
    obtain ⟨herr, hel, hpos, hlen'⟩ := ih hrest (i + 1) (c.takes [2, e.num]) (by
      simpa [hlen, Nat.add_assoc] using h.2)
    simp only [List.length_cons, takeElements, takeElement_at he i h.1, herr, hel, hpos, hlen',
      Cursor.position_takes, Cursor.len_takes, listLen_cons, List.sum_cons, List.sum_nil]
    refine ⟨trivial, rfl, by omega, ?_⟩
    push_cast
    omega

/-- **The elements of a list are counted.** -/
theorem countElements_at (hes : ∀ e ∈ es, e.Sound) (c : Cursor)
    (h : inp.At c.position (listBytes es)) (hlen : c.len = listLen es) :
    (countElements inp c).count = es.length := by
  have key : ∀ (es : List Element) (fuel pos : Nat) (len : Int), (∀ e ∈ es, e.Sound) →
      inp.At pos (listBytes es) → len = listLen es → len ≤ fuel →
      walkCount inp fuel pos len = es.length := by
    intro es
    induction es with
    | nil =>
      intro fuel pos len _ _ hl _
      cases fuel with
      | zero => rfl
      | succ fuel => rw [walkCount, if_neg (by simp [hl])]; rfl
    | cons e es ih =>
      intro fuel pos len hes hat hl hfuel
      obtain ⟨he, hrest⟩ := List.forall_mem_cons.mp hes
      rw [listLen_cons] at hl
      rw [listBytes_cons, Input.at_cons, Input.at_cons, Input.at_append] at hat
      obtain ⟨-, h1, -, hrestAt⟩ := hat
      have h1' : inp.byte ((pos : Int) + 1) = e.guide1 := by simpa using h1
      obtain ⟨fuel, rfl⟩ : ∃ m, fuel = m + 1 := ⟨fuel - 1, by omega⟩
      rw [walkCount, if_pos (by omega), h1', he.num]
      rw [he.value] at hrestAt
      refine congrArg (· + 1) (ih fuel _ _ hrest ?_ (by push_cast; omega) (by push_cast; omega))
      rw [show pos + (e.num + 2) = pos + 1 + 1 + e.num by omega]
      exact hrestAt
  rw [count_countElements]
  exact key es _ _ _ hes h hlen (by omega)

/-- **A list that fills the rest of the body is counted and read back.** -/
theorem takeList_at (hes : ∀ e ∈ es, e.Sound) (hne : es ≠ []) (c : Cursor)
    (h : inp.At c.position (listBytes es)) (hlen : c.len = listLen es)
    (hshort : es.length < 2 ^ 31) {t : Taken}
    (ht : t = takeList Heap.ample (countElements inp c).count
      (takeElements inp Heap.ample 0 (countElements inp c).count)
      { c with reads := (countElements inp c).reads }) :
    t.error = none ∧ t.elements = es ∧ t.cursor.len = 0 := by
  have hpos : 0 < es.length := List.length_pos_of_ne_nil hne
  rw [countElements_at hes c h hlen, takeList, if_neg (Nat.ne_of_gt hpos), takeCount,
    if_pos (kmalloc_ample hpos hshort)] at ht
  obtain ⟨herr, hel, -, hrest⟩ :=
    takeElements_at hes 0 { c with reads := (countElements inp c).reads } h
  subst ht
  refine ⟨herr, hel, ?_⟩
  rw [hrest, hlen]
  exact Int.sub_self _

end Elements

end Kinetis.Hydrology
