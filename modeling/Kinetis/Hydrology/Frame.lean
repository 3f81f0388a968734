import Kinetis.Hydrology.Packet

/-!
# Hydrology — frame buffers

How a frame is put together: `memcpy` into an allocated buffer at a running 16-bit pointer, then
the end identifier and the CRC of everything before it.

* `Buf` is an allocated buffer with its size, what it holds and how far it was written.  Writing
  past the size is recorded, not refused: it is what the bounds are about.
* A `Piece` is one `memcpy` of a body with the advance of the pointer after it.  The two differ
  where a read of the store stops early.
* `sendFrame_eq`: a frame whose pieces are whole is header, body, end identifier and CRC
  (`frameOf`).  `sendFrame_extent`: how far it was written.
-/

namespace Kinetis.Hydrology
open Lib

/-! ### Buffers -/

/-- An allocated buffer; `extent` is one past the highest index written. -/
structure Buf where
  size   : Nat
  mem    : Nat → UInt8
  extent : Nat

namespace Buf

/-- `kmalloc(size, __GFP_ZERO)`. -/
def alloc (size : Nat) : Buf := ⟨size, fun _ => 0, 0⟩

/-- `memcpy(&buffer[pos], data, n)`. -/
def copy (b : Buf) (pos : Nat) (data : List UInt8) : Buf :=
  { b with mem    := overlay b.mem pos data
           extent := if data = [] then b.extent else max b.extent (pos + data.length) }

/-- Every byte written has an index below the size. -/
def Fits (b : Buf) : Prop := b.extent ≤ b.size

instance (b : Buf) : Decidable b.Fits := inferInstanceAs (Decidable (_ ≤ _))

@[simp] theorem size_alloc (size : Nat) : (alloc size).size = size := rfl
@[simp] theorem extent_alloc (size : Nat) : (alloc size).extent = 0 := rfl
@[simp] theorem size_copy (b : Buf) (pos : Nat) (data : List UInt8) :
    (b.copy pos data).size = b.size := rfl

theorem extent_copy_le (b : Buf) {pos m : Nat} {data : List UInt8} (hb : b.extent ≤ m)
    (hd : pos + data.length ≤ m) : (b.copy pos data).extent ≤ m := by
  rw [copy]
  split
  · exact hb
  · exact max_le hb hd

theorem le_extent_copy (b : Buf) (pos : Nat) {data : List UInt8} (h : data ≠ []) :
    pos + data.length ≤ (b.copy pos data).extent := by
  rw [copy, if_neg h]
  exact le_max_right _ _

theorem extent_le_copy (b : Buf) (pos : Nat) (data : List UInt8) :
    b.extent ≤ (b.copy pos data).extent := by
  rw [copy]
  split
  · exact le_rfl
  · exact le_max_left _ _

end Buf

/-! ### Writers -/

/-- One `memcpy` of a body: what is copied, and what is added to the pointer. -/
structure Piece where
  data    : List UInt8
  advance : Nat

/-- All that was asked for was copied. -/
def Piece.Whole (p : Piece) : Prop := p.data.length = p.advance

/-- No more was copied than was asked for. -/
def Piece.Tame (p : Piece) : Prop := p.data.length ≤ p.advance

theorem Piece.Whole.tame {p : Piece} (h : p.Whole) : p.Tame := le_of_eq h

/-- The `memcpy` of a field. -/
def Piece.ofBytes (data : List UInt8) : Piece := ⟨data, data.length⟩

@[simp] theorem Piece.ofBytes_data (data : List UInt8) : (Piece.ofBytes data).data = data := rfl
@[simp] theorem Piece.ofBytes_advance (data : List UInt8) :
    (Piece.ofBytes data).advance = data.length := rfl

theorem Piece.whole_ofBytes (data : List UInt8) : (Piece.ofBytes data).Whole := rfl

/-- The body bytes of a list of pieces. -/
def bodyOf (pieces : List Piece) : List UInt8 := pieces.flatMap Piece.data

/-- How far a list of pieces advances the pointer. -/
def advanceOf (pieces : List Piece) : Nat := (pieces.map Piece.advance).sum

@[simp] theorem bodyOf_nil : bodyOf [] = [] := rfl
@[simp] theorem bodyOf_cons (p : Piece) (ps : List Piece) : bodyOf (p :: ps) = p.data ++ bodyOf ps :=
  rfl
@[simp] theorem bodyOf_append (ps qs : List Piece) : bodyOf (ps ++ qs) = bodyOf ps ++ bodyOf qs :=
  List.flatMap_append
@[simp] theorem advanceOf_nil : advanceOf [] = 0 := rfl
@[simp] theorem advanceOf_cons (p : Piece) (ps : List Piece) :
    advanceOf (p :: ps) = p.advance + advanceOf ps := rfl
@[simp] theorem advanceOf_append (ps qs : List Piece) :
    advanceOf (ps ++ qs) = advanceOf ps + advanceOf qs := by
  rw [advanceOf, List.map_append, List.sum_append]
  rfl

/-- Whole pieces advance the pointer by what they copy. -/
theorem length_bodyOf {pieces : List Piece} (h : ∀ p ∈ pieces, p.Whole) :
    (bodyOf pieces).length = advanceOf pieces := by
  induction pieces with
  | nil => rfl
  | cons p ps ih =>
    obtain ⟨hp, hps⟩ := List.forall_mem_cons.mp h
    rw [bodyOf_cons, advanceOf_cons, List.length_append, ih hps, hp]

/-- A buffer and the 16-bit pointer into it. -/
structure Writer where
  buf     : Buf
  pointer : Nat

namespace Writer

def put (w : Writer) (p : Piece) : Writer :=
  ⟨w.buf.copy w.pointer p.data, (w.pointer + p.advance) % 2 ^ 16⟩

/-- The end identifier and the CRC, high byte first. -/
def close (w : Writer) (end_ : UInt8) : Writer :=
  let w := w.put (.ofBytes [end_])
  let crc := crc16 0xFFFF (readMem w.buf.mem 0 w.pointer)
  (w.put (.ofBytes [(crc >>> 8).toUInt8])).put (.ofBytes [(crc &&& 0xFF).toUInt8])

/-- What `hydrology_port_transmit` is given. -/
def transmitted (w : Writer) : List UInt8 := readMem w.buf.mem 0 w.pointer

/-- `w` holds exactly `data`, over a buffer that was written up to `e` before. -/
structure Holds (w : Writer) (e : Nat) (data : List UInt8) : Prop where
  mem     : readMem w.buf.mem 0 w.pointer = data
  pointer : w.pointer = data.length
  extent  : w.buf.extent = max e data.length

end Writer

/-- The frame that is sent: what comes before, and its CRC. -/
def withCrc (data : List UInt8) : List UInt8 :=
  let crc := crc16 0xFFFF data
  data ++ [(crc >>> 8).toUInt8, (crc &&& 0xFF).toUInt8]

/-- A frame: header, body, end identifier and CRC. -/
def frameOf (header body : List UInt8) (end_ : UInt8) : List UInt8 :=
  withCrc (header ++ body ++ [end_])

@[simp] theorem length_withCrc (data : List UInt8) : (withCrc data).length = data.length + 2 := by
  simp [withCrc]

@[simp] theorem length_frameOf (header body : List UInt8) (end_ : UInt8) :
    (frameOf header body end_).length = header.length + body.length + 3 := by
  simp [frameOf, Nat.add_assoc]

/-- A frame put into `buf` from its start and sent: the buffer after it, and what was sent. -/
def sendFrame (buf : Buf) (header : List UInt8) (pieces : List Piece) (end_ : UInt8) :
    Buf × List UInt8 :=
  let w := (pieces.foldl Writer.put (Writer.put ⟨buf, 0⟩ (.ofBytes header))).close end_
  (w.buf, w.transmitted)

namespace Writer

variable {w : Writer} {e : Nat} {data : List UInt8}

theorem Holds.put (h : w.Holds e data) {p : Piece} (hp : p.Whole)
    (hlen : data.length + p.data.length < 2 ^ 16) : (w.put p).Holds e (data ++ p.data) := by
  have hptr : (w.put p).pointer = data.length + p.data.length := by
    rw [Writer.put, h.pointer, ← hp, Nat.mod_eq_of_lt hlen]
  refine ⟨?_, by rw [hptr, List.length_append], ?_⟩
  · -- the new bytes follow the old ones, which the copy leaves alone
    have hmem : (w.put p).buf.mem = overlay w.buf.mem data.length p.data := by
      rw [Writer.put, h.pointer]
      rfl
    have hold : readMem (overlay w.buf.mem data.length p.data) 0 data.length = data := by
      conv_rhs => rw [← h.mem, h.pointer]
      refine List.map_congr_left fun i hi => ?_
      rw [overlay_of_lt (by rw [Nat.zero_add]; exact List.mem_range.mp hi)]
    rw [hptr, hmem, readMem_append, hold, Nat.zero_add, readMem_overlay]
  · rw [Writer.put, h.pointer]
    simp only [Buf.copy]
    split
    · rename_i hnil
      rw [h.extent, hnil, List.append_nil]
    · rw [h.extent, List.length_append, max_assoc, max_eq_right (Nat.le_add_right _ _)]

theorem Holds.puts (h : w.Holds e data) {pieces : List Piece} (hp : ∀ p ∈ pieces, p.Whole)
    (hlen : data.length + (bodyOf pieces).length < 2 ^ 16) :
    (pieces.foldl Writer.put w).Holds e (data ++ bodyOf pieces) := by
  induction pieces generalizing w data with
  | nil => rwa [List.foldl_nil, bodyOf_nil, List.append_nil]
  | cons p ps ih =>
    obtain ⟨hw, hws⟩ := List.forall_mem_cons.mp hp
    rw [bodyOf_cons, List.length_append] at hlen
    have h' := ih (h.put hw (by omega)) hws (by rw [List.length_append]; omega)
    rwa [bodyOf_cons, ← List.append_assoc]

theorem Holds.close (h : w.Holds e data) (end_ : UInt8) (hlen : data.length + 3 < 2 ^ 16) :
    (w.close end_).Holds e (withCrc (data ++ [end_])) := by
  have h1 := h.put (Piece.whole_ofBytes [end_]) (by simp; omega)
  have hcrc : readMem (w.put (.ofBytes [end_])).buf.mem 0 (w.put (.ofBytes [end_])).pointer =
      data ++ [end_] := h1.mem
  have h2 := (h1.put (Piece.whole_ofBytes [(crc16 0xFFFF (data ++ [end_]) >>> 8).toUInt8])
    (by simp; omega)).put (Piece.whole_ofBytes [(crc16 0xFFFF (data ++ [end_]) &&& 0xFF).toUInt8])
    (by simp; omega)
  rw [Writer.close, hcrc, withCrc]
  simpa [List.append_assoc] using h2

end Writer

/-- **A frame of whole pieces** is header, body, end identifier and CRC, and is written to its
length. -/
theorem sendFrame_eq (buf : Buf) {header : List UInt8} {pieces : List Piece}
    (hp : ∀ p ∈ pieces, p.Whole) (end_ : UInt8)
    (hlen : header.length + (bodyOf pieces).length + 3 < 2 ^ 16) :
    (sendFrame buf header pieces end_).2 = frameOf header (bodyOf pieces) end_ := by
  have h0 : Writer.Holds ⟨buf, 0⟩ buf.extent [] := ⟨rfl, rfl, by simp⟩
  have h1 := h0.put (Piece.whole_ofBytes header) (by simp; omega)
  rw [List.nil_append, Piece.ofBytes_data] at h1
  have h2 := (h1.puts hp (by omega)).close end_ (by rw [List.length_append]; omega)
  exact h2.mem

/-! ### How far a frame is written -/

section Extent

variable {buf : Buf} {header : List UInt8} {pieces : List Piece} {end_ : UInt8}

@[simp] theorem size_put (w : Writer) (p : Piece) : (w.put p).buf.size = w.buf.size := rfl

@[simp] theorem size_close (w : Writer) : (w.close end_).buf.size = w.buf.size := rfl

theorem size_puts (w : Writer) (ps : List Piece) :
    (ps.foldl Writer.put w).buf.size = w.buf.size := by
  induction ps generalizing w with
  | nil => rfl
  | cons p ps ih => rw [List.foldl_cons, ih, size_put]

@[simp] theorem size_sendFrame : (sendFrame buf header pieces end_).1.size = buf.size := by
  exact (size_close _).trans (size_puts _ _)

theorem extent_le_put (w : Writer) (p : Piece) : w.buf.extent ≤ (w.put p).buf.extent :=
  Buf.extent_le_copy _ _ _

theorem extent_le_puts (w : Writer) (ps : List Piece) :
    w.buf.extent ≤ (ps.foldl Writer.put w).buf.extent := by
  induction ps generalizing w with
  | nil => exact le_rfl
  | cons p ps ih => exact (extent_le_put w p).trans (ih (w.put p))

theorem extent_le_close (w : Writer) : w.buf.extent ≤ (w.close end_).buf.extent :=
  ((extent_le_put _ _).trans (extent_le_put _ _)).trans (extent_le_put _ _)

theorem extent_le_sendFrame : buf.extent ≤ (sendFrame buf header pieces end_).1.extent :=
  ((extent_le_put ⟨buf, 0⟩ (.ofBytes header)).trans (extent_le_puts _ _)).trans (extent_le_close _)

theorem length_le_puts (w : Writer) {ps : List Piece} {p : Piece} (h : p ∈ ps) :
    p.data.length ≤ (ps.foldl Writer.put w).buf.extent := by
  induction ps generalizing w with
  | nil => cases h
  | cons q ps ih =>
    obtain rfl | h := List.mem_cons.mp h
    · refine le_trans ?_ (extent_le_puts (w.put p) ps)
      by_cases hnil : p.data = []
      · rw [hnil]
        exact Nat.zero_le _
      · exact (Nat.le_add_left _ _).trans (Buf.le_extent_copy _ _ hnil)
    · exact ih (w.put q) h

/-- A frame is written at least as far as any of its pieces is long. -/
theorem length_le_sendFrame {p : Piece} (h : p ∈ pieces) :
    p.data.length ≤ (sendFrame buf header pieces end_).1.extent :=
  (length_le_puts _ h).trans (extent_le_close _)

/-- The three bytes of the tail, each one further. -/
theorem extent_close (w : Writer) (hlen : w.pointer + 3 < 2 ^ 16) :
    (w.close end_).buf.extent = max w.buf.extent (w.pointer + 3) := by
  simp only [Writer.close, Writer.put, Buf.copy, Piece.ofBytes_data, Piece.ofBytes_advance,
    List.cons_ne_nil, if_false, List.length_cons, List.length_nil]
  omega

/-- Pieces that do not wrap the pointer leave it at their end, and write no further. -/
theorem puts_pointer (w : Writer) (hp : ∀ p ∈ pieces, p.Tame)
    (hw : w.buf.extent ≤ max buf.extent w.pointer) (hlen : w.pointer + advanceOf pieces < 2 ^ 16) :
    (pieces.foldl Writer.put w).pointer = w.pointer + advanceOf pieces ∧
      (pieces.foldl Writer.put w).buf.extent ≤ max buf.extent (w.pointer + advanceOf pieces) := by
  induction pieces generalizing w with
  | nil => exact ⟨rfl, hw⟩
  | cons p ps ih =>
    obtain ⟨hp, hps⟩ := List.forall_mem_cons.mp hp
    rw [advanceOf_cons] at hlen ⊢
    have hptr : (w.put p).pointer = w.pointer + p.advance := Nat.mod_eq_of_lt (by omega)
    have hext : (w.put p).buf.extent ≤ max buf.extent (w.put p).pointer := by
      rw [hptr]
      refine Buf.extent_copy_le _ (hw.trans (max_le_max le_rfl (Nat.le_add_right _ _))) ?_
      exact le_max_of_le_right (Nat.add_le_add_left hp _)
    have h := ih (w.put p) hps hext (by omega)
    rwa [hptr, Nat.add_assoc] at h

/-- **How far a frame is written**, when the pointer does not wrap: to the end of its CRC. -/
theorem sendFrame_extent (buf : Buf) (header : List UInt8) (end_ : UInt8) (hp : ∀ p ∈ pieces, p.Tame)
    (hlen : header.length + advanceOf pieces + 3 < 2 ^ 16) :
    (sendFrame buf header pieces end_).1.extent =
      max buf.extent (header.length + advanceOf pieces + 3) := by
  have hhead : (Writer.put ⟨buf, 0⟩ (.ofBytes header)).pointer = header.length := by
    simp only [Writer.put, Piece.ofBytes_advance, Nat.zero_add]
    exact Nat.mod_eq_of_lt (by omega)
  have hext : (Writer.put ⟨buf, 0⟩ (.ofBytes header)).buf.extent ≤
      max buf.extent (Writer.put ⟨buf, 0⟩ (.ofBytes header)).pointer := by
    rw [hhead]
    exact Buf.extent_copy_le _ (le_max_left _ _) (by simp)
  obtain ⟨hptr, hle⟩ := puts_pointer _ hp hext (by omega)
  have hge : buf.extent ≤ (pieces.foldl Writer.put
      (Writer.put ⟨buf, 0⟩ (.ofBytes header))).buf.extent :=
    (extent_le_put ⟨buf, 0⟩ (.ofBytes header)).trans (extent_le_puts _ _)
  have hclose : (sendFrame buf header pieces end_).1.extent = _ := extent_close _ (by omega)
  omega

end Extent

end Kinetis.Hydrology
