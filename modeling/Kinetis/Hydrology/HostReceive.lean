import Kinetis.Hydrology.DeviceSend
import Kinetis.Hydrology.Receive

/-!
# Hydrology — the host reads an uplink

`hydrology_host_make_up_body`: 8, 15 or 23 fixed bytes, then the elements.  Most reports list them
one after the other; `EVEN_PERIOD_INFO_REPORT` interleaves the values after the first.
-/

namespace Kinetis.Hydrology
open Lib

/-- The case groups of the host, with the number of fixed bytes. -/
inductive HostCase where
  /-- Nothing but the fixed bytes. -/
  | bare (fixed : Nat)
  /-- An element list. -/
  | list (fixed : Nat)
  /-- `EVEN_PERIOD_INFO_REPORT`. -/
  | even
  /-- A guide, and the rest of the body. -/
  | file (fixed : Nat)
  /-- A length byte and as many bytes. -/
  | counted
  /-- A number of gates and a bitmap of them. -/
  | gate
  /-- A value of known length. -/
  | block (num : Nat)
  deriving DecidableEq, Repr

namespace HostCase

def fixed : HostCase → Nat
  | bare n => n
  | list n => n
  | even => 23
  | file n => n
  | counted => 15
  | gate => 15
  | block _ => 15

end HostCase

/-- The cases of `hydrology_host_make_up_body`; a byte that is no function code takes none. -/
def hostCase : Option BodyType → HostCase
  | none => .bare 8
  | some .link => .bare 8
  | some .test => .list 23
  | some .timer => .list 23
  | some .add => .list 23
  | some .hour => .list 23
  | some .realTime => .list 23
  | some .period => .list 23
  | some .specifiedElement => .list 23
  | some .waterPumpMotor => .list 23
  | some .evenPeriodInfo => .even
  | some .artificialNum => .file 8
  | some .inquireArtificialNum => .file 8
  | some .picture => .file 23
  | some .configWrite => .list 15
  | some .configRead => .list 15
  | some .paraWrite => .list 15
  | some .paraRead => .list 15
  | some .status => .list 15
  | some .changePassword => .list 15
  | some .setIcCard => .list 15
  | some .swVersion => .counted
  | some .pump => .counted
  | some .valve => .counted
  | some .gate => .gate
  | some .waterSetting => .block 1
  | some .record => .block 64
  | some .initSolidStorage => .bare 15
  | some .reset => .bare 15
  | some .setClock => .bare 15
  | some .time => .bare 15

/-! ### Interleaved elements -/

/-- What the loop that counts interleaved elements works on, in 32 bits. -/
structure EvenWalk where
  position : Nat
  offset   : Nat
  i        : Nat
  reads    : Reads

/-- `offset < tmp_len`, compared unsigned. -/
def EvenWalk.going (len : Int) (w : EvenWalk) : Bool := w.offset < (len % 2 ^ 32).toNat

def EvenWalk.step (inp : Input) (w : EvenWalk) : EvenWalk :=
  let index : Nat := (w.position + 1) % 2 ^ 32
  ⟨(w.position + 2) % 2 ^ 32, (w.offset + (guideNum (inp.byte index) + 2)) % 2 ^ 32,
    (w.i + 1) % 2 ^ 32, w.reads ++ [((index : Int), 1)]⟩

def EvenWalk.start (inp : Input) (c : Cursor) : EvenWalk :=
  let offset := guideNum (inp.byte (c.position + 1)) + 2
  ⟨c.position + offset, offset, 1, c.reads ++ [((c.position : Int) + 1, 1)]⟩

/-- Guides of the elements after the first, each with its value allocated. -/
def takeEvenGuides (inp : Input) (heap : Heap) : Nat → Nat → Cursor → Taken
  | _, 0, c => ⟨none, [], c⟩
  | i, k + 1, c =>
    let guide1 := inp.byte (c.position + 1)
    let e : Element := ⟨inp.byte c.position, guide1, guideNum guide1, []⟩
    let c := c.take 2
    if kmalloc heap (.value i) e.num then
      let rest := takeEvenGuides inp heap (i + 1) k c
      ⟨rest.error, e :: rest.elements, rest.cursor⟩
    else ⟨some .enomem, [e], c⟩

/-- One round over the elements: a twelfth of each value. -/
def takeRound (inp : Input) : List Element → Cursor → List Element × Cursor
  | [], c => ([], c)
  | e :: es, c =>
    let n := e.num / 12
    let rest := takeRound inp es (c.take n)
    ({ e with value := e.value ++ inp.bytes c.position n } :: rest.1, rest.2)

/-- Twelve rounds. -/
def takeRounds (inp : Input) (es : List Element) (c : Cursor) : List Element × Cursor :=
  (List.range 12).foldl (fun s _ => takeRound inp s.1 s.2) (es, c)

/-- The elements of an `EVEN_PERIOD_INFO_REPORT`, `count` of them. -/
def takeEven (inp : Input) (heap : Heap) (count : Nat) (c : Cursor) : Taken :=
  let first := takeElement inp heap 0 c
  match first.error with
  | some e => ⟨some e, first.elements, first.cursor⟩
  | none =>
    let guides := takeEvenGuides inp heap 1 (count - 1) first.cursor
    match guides.error with
    | some e => ⟨some e, first.elements ++ guides.elements, guides.cursor⟩
    | none =>
      let r := takeRounds inp guides.elements guides.cursor
      ⟨none, first.elements ++ r.1.map fun e => { e with value := (fill e.num e.value).1 }, r.2⟩

/-! ### Body -/

/-- An uplink body as far as it was read. -/
structure ParsedUp where
  error  : Option Errno
  body   : UpBody
  cursor : Cursor

/-- The fixed bytes at `pos`, as many as the case has. -/
def takeFixed (inp : Input) (pos fixed : Nat) : UpBody :=
  let b : UpBody := ⟨inp.field pos 2, inp.field (pos + 2) 6, fill 2 [], fill 5 [], 0, fill 2 [],
    fill 5 [], [], 0⟩
  if fixed < 15 then b
  else
    let b := { b with rtuAddrId := inp.field (pos + 8) 2, rtuAddr := inp.field (pos + 10) 5 }
    if fixed < 23 then b
    else { b with rtuType := inp.byte (pos + 15), observationTimeId := inp.field (pos + 16) 2,
                  observationTime := inp.field (pos + 18) 5 }

/-- The `memcpy` calls that read them. -/
def fixedTakes (fixed : Nat) : List Nat :=
  if fixed < 15 then [2, 6] else if fixed < 23 then [2, 6, 2, 5] else [2, 6, 2, 5, 1, 2, 5]

/-- The rest of the body as one value, its length taken as 32 bits. -/
def takeFile (inp : Input) (heap : Heap) (c : Cursor) : Taken :=
  let guide0 := inp.byte c.position
  let guide1 := inp.byte (c.position + 1)
  let c := c.take 2
  takeValue inp heap 0 guide0 guide1 (c.len % 2 ^ 32).toNat c

/-- A length byte that is kept, and the value it calls for. -/
def takeSized (inp : Input) (heap : Heap) (num : UInt8 → Nat) (c : Cursor) : Taken :=
  let n := inp.byte c.position
  takeValue inp heap 0 n 0 (num n) (c.take 1)

/-- The elements after the fixed bytes.  `fuel` bounds the loop that counts interleaved elements,
which need not end: a run that is still in it has read what it has read, and gives `EAGAIN`. -/
def takeUp (inp : Input) (heap : Heap) (fuel : Nat) (c : Cursor) : HostCase → Taken
  | .bare _ => ⟨none, [], c⟩
  | .list _ =>
    let w := countElements inp c
    takeList heap w.count (takeElements inp heap 0 w.count) { c with reads := w.reads }
  | .even =>
    let w := iterWhile (EvenWalk.going c.len) (EvenWalk.step inp) fuel (EvenWalk.start inp c)
    let count := w.i % 2 ^ 16
    if w.going c.len then ⟨some .eagain, [], { c with reads := w.reads }⟩
    else takeList heap count (takeEven inp heap count) { c with reads := w.reads }
  | .file _ => takeCount heap 1 (takeFile inp heap) c
  | .counted => takeCount heap 1 (takeSized inp heap UInt8.toNat) c
  | .gate => takeCount heap 1 (takeSized inp heap gateNum) c
  | .block num => takeCount heap 1 (takeValue inp heap 0 0 0 num) c

/-- `hydrology_host_make_up_body`. -/
def hostMakeUpBody (inp : Input) (heap : Heap) (fuel : Nat) (c : Cursor)
    (funcode : Option BodyType) : ParsedUp :=
  let case := hostCase funcode
  let t := takeUp inp heap fuel (c.takes (fixedTakes case.fixed)) case
  ⟨t.error, { takeFixed inp c.position case.fixed with elements := t.elements }, t.cursor⟩

/-- Check, header and body of an uplink. -/
def hostParse (inp : Input) (heap : Heap) (fuel : Nat) : Header × ParsedUp :=
  let h := hostMakeUpHeader inp
  match h.1 with
  | some e => (h.2.1, ⟨some e, takeFixed ⟨fun _ => 0, 0⟩ 0 0, h.2.2⟩)
  | none => (h.2.1, hostMakeUpBody inp heap fuel h.2.2 (BodyType.ofCode h.2.1.funcode))

end Kinetis.Hydrology
