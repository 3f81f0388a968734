import Kinetis.Hydrology.HostSend
import Kinetis.Hydrology.Receive

/-!
# Hydrology — the device reads a downlink

`hydrology_device_make_down_body`: stream number and time, then the elements that the function code
calls for.  How many there are follows from the body for requests that list guides or elements, and
from the function code for the others.  The mode is not looked at.
-/

namespace Kinetis.Hydrology
open Lib

/-- A downlink body as far as it was read. -/
structure ParsedDown where
  error  : Option Errno
  body   : DownBody
  cursor : Cursor

/-- The element of index 0 with its value, and the guide of a second one. -/
def takePeriod (inp : Input) (heap : Heap) (c : Cursor) : Taken :=
  let first := takeElement inp heap 0 c
  match first.error with
  | some e => ⟨some e, first.elements, first.cursor⟩
  | none =>
    let second := takeGuides inp 1 first.cursor
    ⟨none, first.elements ++ second.elements, second.cursor⟩

/-- A length byte, which becomes `num` bytes of value. -/
def takeCounted (inp : Input) (heap : Heap) (num : UInt8 → Nat) (c : Cursor) : Taken :=
  takeValue inp heap 0 0 0 (num (inp.byte c.position)) (c.take 1)

/-- What comes after stream number and time. -/
def takeDown (inp : Input) (heap : Heap) (c : Cursor) : Option DownCase → Taken
  | none | some .link | some .simple => ⟨none, [], c⟩
  | some .period => takeCount heap 2 (takePeriod inp heap) (c.takes [4, 4])
  | some .guides =>
    let w := countGuides c
    takeList heap w.count (takeGuides inp w.count) c
  | some .values =>
    let w := countElements inp c
    takeList heap w.count (takeElements inp heap 0 w.count) { c with reads := w.reads }
  | some .oneGuide => takeCount heap 1 (takeGuides inp 1) c
  | some .changePassword => takeCount heap 2 (takeElements inp heap 0 2) c
  | some .setIcCard => takeCount heap 1 (takeElements inp heap 0 1) c
  | some .pump | some .valve => takeCount heap 1 (takeCounted inp heap UInt8.toNat) c
  | some .gate => takeCount heap 1 (takeCounted inp heap fun n => (n >>> 3).toNat) c
  | some .waterSetting => takeCount heap 1 (takeValue inp heap 0 0 0 1) c

/-- `hydrology_device_make_down_body`. -/
def deviceMakeDownBody (inp : Input) (heap : Heap) (c : Cursor) (funcode : Option BodyType) :
    ParsedDown :=
  let t := takeDown inp heap (c.takes [2, 6]) (funcode.map BodyType.downCase)
  ⟨t.error, ⟨inp.field c.position 2, inp.field (c.position + 2) 6, t.elements, 0⟩, t.cursor⟩

/-- Check, header and body of `hydrology_device_process_receieve`. -/
def deviceParse (inp : Input) (heap : Heap) : Header × ParsedDown :=
  let h := deviceMakeDownHeader inp
  match h.1 with
  | some e => (h.2.1, ⟨some e, ⟨fill 2 [], fill 6 [], [], 0⟩, h.2.2⟩)
  | none => (h.2.1, deviceMakeDownBody inp heap h.2.2 (BodyType.ofCode h.2.1.funcode))

end Kinetis.Hydrology
