import Kinetis.Hydrology.Frame
import Kinetis.Lib.Loops

/-!
# Hydrology — reading a frame

What both ends do with a received frame before they look at its body: the length and CRC check
(`hydrology_host_check_up_packet` and `hydrology_device_check_down_packet`, which are the same
code), the header, and the ways a body is read.

* `Input` is the received memory with the length that was reported.  Every index can be read; which
  ones were is kept in a list of `Reads`.
* `Cursor` is the position in the input with the remaining length, which may go below zero.
* `Input.accepted_iff`: what a frame that passes the check looks like.
-/

namespace Kinetis.Hydrology
open Lib

/-! ### Input and reads -/

/-- The memory from the start of the input buffer on, and the length received. -/
structure Input where
  byte : Int → UInt8
  len  : Nat

/-- Stretches of the input that were read: first index and number of bytes. -/
abbrev Reads := List (Int × Nat)

/-- Only indices of `[0, n)` were read. -/
def Reads.Within (reads : Reads) (n : Nat) : Prop :=
  ∀ r ∈ reads, r.2 = 0 ∨ (0 ≤ r.1 ∧ r.1 + r.2 ≤ n)

instance (reads : Reads) (n : Nat) : Decidable (reads.Within n) :=
  inferInstanceAs (Decidable (∀ r ∈ reads, r.2 = 0 ∨ (0 ≤ r.1 ∧ r.1 + r.2 ≤ n)))

theorem Reads.within_append {a b : Reads} {n : Nat} :
    Reads.Within (a ++ b) n ↔ a.Within n ∧ b.Within n := List.forall_mem_append

theorem Reads.within_cons {r : Int × Nat} {a : Reads} {n : Nat} :
    Reads.Within (r :: a) n ↔ (r.2 = 0 ∨ (0 ≤ r.1 ∧ r.1 + r.2 ≤ n)) ∧ a.Within n :=
  List.forall_mem_cons

theorem Reads.within_nil {n : Nat} : Reads.Within [] n := fun _ h => nomatch h

namespace Input

/-- `n` bytes from `pos` on. -/
def bytes (inp : Input) (pos : Int) (n : Nat) : List UInt8 :=
  (List.range n).map fun i : Nat => inp.byte (pos + i)

@[simp] theorem length_bytes (inp : Input) (pos : Int) (n : Nat) : (inp.bytes pos n).length = n := by
  simp [bytes]

/-- `n` bytes as a field. -/
def field (inp : Input) (pos : Int) (n : Nat) : Bytes n := ⟨inp.bytes pos n, inp.length_bytes pos n⟩

/-- A received byte string, followed and preceded by arbitrary memory. -/
def Holds (inp : Input) (frame : List UInt8) : Prop :=
  inp.len = frame.length ∧ ∀ i (h : i < frame.length), inp.byte (i : Nat) = frame[i]

/-- A byte string in a memory of zeros. -/
def ofFrame (frame : List UInt8) : Input :=
  ⟨fun i => if i < 0 then 0 else frame.getD i.toNat 0, frame.length⟩

theorem holds_ofFrame (frame : List UInt8) : (ofFrame frame).Holds frame := by
  refine ⟨rfl, fun i h => ?_⟩
  have hi : ¬ ((i : Nat) : Int) < 0 := by omega
  simp only [ofFrame, hi, if_false, Int.toNat_natCast]
  rw [List.getD_eq_getElem?_getD, List.getElem?_eq_getElem h, Option.getD_some]

/-- Inside the frame, the input reads as the frame does. -/
theorem Holds.bytes {inp : Input} {frame : List UInt8} (h : inp.Holds frame) {pos n : Nat}
    (hn : pos + n ≤ frame.length) : inp.bytes pos n = slice frame pos n := by
  refine List.ext_getElem? fun i => ?_
  rw [Input.bytes, slice, List.getElem?_map, List.getElem?_take]
  by_cases hi : i < n
  · have hget := h.2 (pos + i) (by omega)
    rw [if_pos hi, List.getElem?_range hi, List.getElem?_drop, List.getElem?_eq_getElem (by omega)]
    simpa using hget
  · rw [if_neg hi, List.getElem?_eq_none (by simpa using hi)]
    rfl

end Input

/-! ### The check -/

namespace Input

/-- The bytes that the CRC is taken over: a length cut to 16 bits. -/
def crcLen (inp : Input) : Nat := (((inp.len : Int) - 2) % 2 ^ 16).toNat

/-- The two last bytes, high byte first. -/
def inputCrc (inp : Input) : UInt16 :=
  ((inp.byte ((inp.len : Int) - 2)).toUInt16 <<< 8) ||| (inp.byte ((inp.len : Int) - 1)).toUInt16

def crcOk (inp : Input) : Bool := crc16 0xFFFF (inp.bytes 0 inp.crcLen) = inp.inputCrc

def startOk (inp : Input) : Bool := inp.byte 0 = SOH && inp.byte 1 = SOH

/-- The length of the body, as the header has it. -/
def bodyLen (inp : Input) : Nat := (inp.byte 11 &&& 0x0F).toNat * 256 + (inp.byte 12).toNat

/-- The length of the body, as the length of the frame has it. -/
def expectedLen (inp : Input) : Int :=
  if inp.byte 13 = SYN then (inp.len : Int) - 17 - 3 else (inp.len : Int) - 17

/-- Where the body starts. -/
def bodyStart (inp : Input) : Nat := if inp.byte 13 = SYN then 17 else 14

end Input

/-- `hydrology_host_check_up_packet` and `hydrology_device_check_down_packet`: the result, and what
was read.  The two length bytes are read before the length of the frame is looked at. -/
def checkPacket (inp : Input) : Option Errno × Reads :=
  let n : Int := inp.len
  let reads : Reads := [(0, inp.crcLen), (n - 2, 1), (n - 1, 1)]
  if !inp.crcOk then (some .epipe, reads)
  else
    let reads := reads ++ [(0, 2)]
    if !inp.startOk then (some .epipe, reads)
    else
      let reads := reads ++ [(11, 2)]
      if inp.len < 17 then (some .epipe, reads)
      else
        let reads := reads ++ [(13, 1)]
        if inp.expectedLen < 0 ∨ (inp.bodyLen : Int) ≠ inp.expectedLen % 2 ^ 16 then
          (some .epipe, reads)
        else (none, reads)

/-- The frame passes the check. -/
def Input.Accepted (inp : Input) : Prop := (checkPacket inp).1 = none

instance (inp : Input) : Decidable inp.Accepted :=
  inferInstanceAs (Decidable ((checkPacket inp).1 = none))

theorem Input.accepted_iff {inp : Input} : inp.Accepted ↔
    inp.crcOk = true ∧ inp.startOk = true ∧ 17 ≤ inp.len ∧ 0 ≤ inp.expectedLen ∧
      (inp.bodyLen : Int) = inp.expectedLen % 2 ^ 16 := by
  rw [Accepted, checkPacket]
  cases hc : inp.crcOk with
  | false => simp
  | true =>
    cases hs : inp.startOk with
    | false => simp
    | true =>
      by_cases hlen : inp.len < 17
      · simp [hlen]
      · by_cases he : inp.expectedLen < 0 ∨ (inp.bodyLen : Int) ≠ inp.expectedLen % 2 ^ 16
        · simp only [hlen, he, Bool.not_true, Bool.false_eq_true, if_false, if_true]
          simp
          omega
        · simp only [hlen, he, Bool.not_true, Bool.false_eq_true, if_false]
          simp
          omega

/-- A frame that passes ends three bytes after its body, or later. -/
theorem Input.Accepted.body_le {inp : Input} (h : inp.Accepted) :
    inp.bodyStart + inp.bodyLen + 3 ≤ inp.len := by
  obtain ⟨-, -, hlen, hpos, heq⟩ := accepted_iff.mp h
  rw [bodyStart]
  by_cases hsyn : inp.byte 13 = SYN
  · rw [expectedLen, if_pos hsyn] at hpos heq
    rw [if_pos hsyn]
    omega
  · rw [expectedLen] at hpos heq
    rw [if_neg hsyn]
    omega

/-! ### Cursor -/

structure Cursor where
  position : Nat
  len      : Int
  reads    : Reads

namespace Cursor

/-- Go over `n` bytes that are copied. -/
def take (c : Cursor) (n : Nat) : Cursor :=
  ⟨c.position + n, c.len - n, c.reads ++ [((c.position : Int), n)]⟩

/-- Go over several fields. -/
def takes (c : Cursor) (ns : List Nat) : Cursor := ns.foldl take c

@[simp] theorem position_take (c : Cursor) (n : Nat) : (c.take n).position = c.position + n := rfl
@[simp] theorem len_take (c : Cursor) (n : Nat) : (c.take n).len = c.len - n := rfl
@[simp] theorem reads_take (c : Cursor) (n : Nat) :
    (c.take n).reads = c.reads ++ [((c.position : Int), n)] := rfl

/-- From `c` on, `c'` has read all up to its position, and nothing else. -/
structure Swept (c c' : Cursor) : Prop where
  le     : c.position ≤ c'.position
  len    : c'.len = c.len - (c'.position - c.position : Nat)
  within : ∀ n, c'.reads.Within n ↔ c.reads.Within n ∧ (c.position = c'.position ∨ c'.position ≤ n)

theorem Swept.refl (c : Cursor) : c.Swept c := ⟨le_rfl, by simp, fun n => by simp⟩

theorem swept_take (c : Cursor) (n : Nat) : c.Swept (c.take n) := by
  refine ⟨Nat.le_add_right _ _, by simp, fun m => ?_⟩
  rw [reads_take, Reads.within_append, Reads.within_cons, position_take]
  simp only [Reads.within_nil, and_true]
  refine and_congr_right fun _ => ?_
  omega

theorem Swept.trans {a b c : Cursor} (hab : a.Swept b) (hbc : b.Swept c) : a.Swept c := by
  have h1 := hab.le
  have h2 := hbc.le
  refine ⟨h1.trans h2, ?_, fun n => ?_⟩
  · rw [hbc.len, hab.len]
    omega
  · rw [hbc.within, hab.within, and_assoc]
    refine and_congr_right fun _ => ?_
    omega

theorem Swept.take {a b : Cursor} (h : a.Swept b) (n : Nat) : a.Swept (b.take n) :=
  h.trans (swept_take b n)

theorem swept_takes (c : Cursor) (ns : List Nat) : c.Swept (c.takes ns) := by
  induction ns generalizing c with
  | nil => exact .refl c
  | cons n ns ih => exact (swept_take c n).trans (ih (c.take n))

@[simp] theorem position_takes (c : Cursor) (ns : List Nat) :
    (c.takes ns).position = c.position + ns.sum := by
  induction ns generalizing c with
  | nil => rfl
  | cons n ns ih => rw [takes, List.foldl_cons, ← takes, ih, position_take, List.sum_cons, Nat.add_assoc]

@[simp] theorem len_takes (c : Cursor) (ns : List Nat) : (c.takes ns).len = c.len - ns.sum := by
  have h := (swept_takes c ns).len
  rw [h, position_takes, Nat.add_sub_cancel_left]

end Cursor

/-! ### Header -/

/-- The header of a frame that passed the check, with the addresses at the given offsets; and the
cursor at the start of the body. -/
def takeHeader (inp : Input) (center remote : Nat) (reads : Reads) : Header × Cursor :=
  let paketStart := inp.byte 13
  let h : Header :=
    { Header.zero with
      frameStart := inp.field 0 2, centerAddr := inp.byte center, remoteAddr := inp.field remote 5,
      password := inp.field 8 2, funcode := inp.byte 10, dirLen0 := inp.byte 11 >>> 4,
      paketStart := paketStart }
  let c := Cursor.takes ⟨0, 0, reads⟩ [2, 6, 2, 1, 2, 1]
  if paketStart = SYN then
    ({ h with countSeq := inp.field 14 3 }, { c.take 3 with len := inp.bodyLen })
  else (h, { c with len := inp.bodyLen })

/-- `hydrology_host_make_up_header`. -/
def hostMakeUpHeader (inp : Input) : Option Errno × Header × Cursor :=
  let check := checkPacket inp
  match check.1 with
  | some _ => (some .epipe, Header.zero, ⟨0, 0, check.2⟩)
  | none => (none, takeHeader inp 2 3 check.2)

/-- `hydrology_device_make_down_header`. -/
def deviceMakeDownHeader (inp : Input) : Option Errno × Header × Cursor :=
  let check := checkPacket inp
  match check.1 with
  | some e => (some e, Header.zero, ⟨0, 0, check.2⟩)
  | none => (none, takeHeader inp 7 2 check.2)

/-! ### Elements -/

/-- What the loop that counts elements works on. -/
structure Walk where
  position : Nat
  len      : Int
  count    : Nat
  reads    : Reads

/-- `while (tmp_len > 0)`. -/
def Walk.going (w : Walk) : Bool := 0 < w.len

/-- One element further, by the length in its guide. -/
def Walk.step (inp : Input) (w : Walk) : Walk :=
  let offset := guideNum (inp.byte (w.position + 1)) + 2
  ⟨w.position + offset, w.len - offset, w.count + 1, w.reads ++ [((w.position : Int) + 1, 1)]⟩

/-- The loop that counts the elements of a body. -/
def countElements (inp : Input) (c : Cursor) : Walk :=
  iterWhile Walk.going (Walk.step inp) c.len.toNat ⟨c.position, c.len, 0, c.reads⟩

/-- The loop that counts the guides of a body. -/
def countGuides (c : Cursor) : Walk :=
  iterWhile Walk.going (fun w => ⟨w.position + 2, w.len - 2, w.count + 1, w.reads⟩) c.len.toNat
    ⟨c.position, c.len, 0, c.reads⟩

/-- The elements read so far, and the error that ended it. -/
structure Taken where
  error    : Option Errno
  elements : List Element
  cursor   : Cursor

/-- `num` bytes of value, when they can be allocated. -/
def takeValue (inp : Input) (heap : Heap) (i : Nat) (guide0 guide1 : UInt8) (num : Nat)
    (c : Cursor) : Taken :=
  if kmalloc heap (.value i) num then
    ⟨none, [⟨guide0, guide1, num, inp.bytes c.position num⟩], c.take num⟩
  else ⟨some .enomem, [⟨guide0, guide1, num, []⟩], c⟩

/-- Guide, length and value of an element. -/
def takeElement (inp : Input) (heap : Heap) (i : Nat) (c : Cursor) : Taken :=
  let guide0 := inp.byte c.position
  let guide1 := inp.byte (c.position + 1)
  takeValue inp heap i guide0 guide1 (guideNum guide1) (c.take 2)

/-- `k` elements, the first of index `i`. -/
def takeElements (inp : Input) (heap : Heap) : Nat → Nat → Cursor → Taken
  | _, 0, c => ⟨none, [], c⟩
  | i, k + 1, c =>
    let first := takeElement inp heap i c
    match first.error with
    | some e => ⟨some e, first.elements, first.cursor⟩
    | none =>
      let rest := takeElements inp heap (i + 1) k first.cursor
      ⟨rest.error, first.elements ++ rest.elements, rest.cursor⟩

/-- `count` elements are allocated and then read. -/
def takeCount (heap : Heap) (count : Nat) (take : Cursor → Taken) (c : Cursor) : Taken :=
  if kmalloc heap .packet count then take c else ⟨some .enomem, [], c⟩

/-- A list is read whose elements were counted; an empty one is an error. -/
def takeList (heap : Heap) (count : Nat) (take : Cursor → Taken) (c : Cursor) : Taken :=
  if count = 0 then ⟨some .einval, [], c⟩ else takeCount heap count take c

/-- `k` guides. -/
def takeGuides (inp : Input) : Nat → Cursor → Taken
  | 0, c => ⟨none, [], c⟩
  | k + 1, c =>
    let rest := takeGuides inp k (c.take 2)
    ⟨rest.error, ⟨inp.byte c.position, inp.byte (c.position + 1), 0, []⟩ :: rest.elements,
      rest.cursor⟩

end Kinetis.Hydrology
