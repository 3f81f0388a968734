import Kinetis.Hydrology.DeviceSend

/-!
# Hydrology — the host's downlink

`hydrology-host.c`, from `hydrology_host_init_send` to `hydrology_host_process_send`: a packet made
of a header and a body read from the host's store, and sent as one frame.

* `DownCase` names the case groups of the downlink, as the host sends and the device reads them.
* `hostMakeDownHeader` may stop at a failed read; `hydrology_host_process_send` does not look at
  its result and goes on with what is there.
* `downPieces` is what a body consists of; in modes other than M4 a pump, valve or gate request has
  no element in it.
-/

namespace Kinetis.Hydrology
open Lib

/-! ### Cases -/

/-- The case groups of the downlink. -/
inductive DownCase where
  | link
  /-- Requests with a stream number and a time only. -/
  | simple
  | period
  /-- Requests that list guides. -/
  | guides
  /-- `INIT_SOLID_STORAGE_REPORT`, `RESET_REPORT`: one guide. -/
  | oneGuide
  /-- Requests that list elements with values. -/
  | values
  | changePassword
  | setIcCard
  | pump
  | valve
  | gate
  | waterSetting
  deriving DecidableEq, Repr

def BodyType.downCase : BodyType → DownCase
  | link => .link
  | test => .simple
  | evenPeriodInfo => .simple
  | timer => .simple
  | add => .simple
  | hour => .simple
  | artificialNum => .simple
  | picture => .simple
  | realTime => .simple
  | inquireArtificialNum => .simple
  | waterPumpMotor => .simple
  | swVersion => .simple
  | status => .simple
  | setClock => .simple
  | record => .simple
  | time => .simple
  | period => .period
  | specifiedElement => .guides
  | configRead => .guides
  | paraRead => .guides
  | initSolidStorage => .oneGuide
  | reset => .oneGuide
  | configWrite => .values
  | paraWrite => .values
  | changePassword => .changePassword
  | setIcCard => .setIcCard
  | pump => .pump
  | valve => .valve
  | gate => .gate
  | waterSetting => .waterSetting

/-- The element count of `hydrology_host_init_send`. -/
def BodyType.downCount (funcode : BodyType) (cnt : Nat) : Nat :=
  match funcode with
  | link | test | evenPeriodInfo | timer | add | hour | artificialNum | picture | realTime
  | inquireArtificialNum | swVersion | status | setClock | record | time => 0
  | period | specifiedElement | configWrite | configRead | paraWrite | paraRead | waterPumpMotor
  | changePassword => cnt
  | initSolidStorage | reset | setIcCard | pump | valve | gate | waterSetting => 1

/-! ### Header and body -/

/-- `hydrology_host_make_down_header`. -/
def hostMakeDownHeader (store : Store) (mode : Mode) (funcode : BodyType) : Outcome Header :=
  let h : Header := { Header.zero with frameStart := sohPair, len := 2 }
  (((Header.readField store HYDROLOGY_BA_REMOTE 5 (fun h b => { h with remoteAddr := b }) h).andThen
      (Header.readField store HYDROLOGY_BA_CENTER 1
        fun h b => { h with centerAddr := b.1.headD 0 })).andThen
      (Header.readField store HYDROLOGY_BA_PASSWORD 2 fun h b => { h with password := b })).andThen
      fun h => (none, { h with funcode := funcode.code, dirLen0 := 0x80,
                               paketStart := mode.paketStart, len := h.len + 1 + 2 + 1 })

/-- `struct hydrology_down_body`; its count is the number of elements. -/
structure DownBody where
  streamId : Bytes 2
  sendTime : Bytes 6
  elements : List Element
  len      : Nat
  deriving DecidableEq, Repr

/-- Stream number and time, the 8 bytes before everything else. -/
def DownBody.fixed (b : DownBody) : List UInt8 := b.streamId.1 ++ b.sendTime.1

@[simp] theorem DownBody.length_fixed (b : DownBody) : b.fixed.length = 8 := by
  simp [fixed, b.streamId.2, b.sendTime.2]

/-- An element of which only the guide is sent. -/
def guideElement (info : ElementInfo) : Element :=
  ⟨info.ID, hydrologyGetGuideId info.D info.d, 0, []⟩

/-- A value of `num` bytes allocated and read from `addr`. -/
def checkedValue (env : Env) (guide0 : UInt8) (addr num : Nat) : Except Errno Element :=
  if kmalloc env.heap (.value 0) num then
    match env.store.read .elementData addr num with
    | (none, data) => .ok ⟨guide0, 0, num, data⟩
    | (some e, _) => .error e
  else .error .enomem

/-- The element of a pump, valve or gate request in mode M4: a length byte, and as many bytes as
`num` makes of it. -/
def lengthElement (env : Env) (lenAddr addr : Nat) (num : UInt8 → Nat) : Except Errno Element :=
  match env.store.read .elementData lenAddr 1 with
  | (some e, _) => .error e
  | (none, data) => checkedValue env (data.headD 0) addr (num (data.headD 0))

/-- A request whose element is sent in mode M4 only. -/
def m4Body (b : DownBody) (mode : Mode) (element : Except Errno Element) : Except Errno DownBody :=
  if mode = .m4 then do
    let e ← element
    return { b with elements := [e], len := 8 + (e.num + 1) }
  else .ok { b with len := 8 }

/-- A period request: one element with its value, the guide of a second one, and two times that
the tail adds. -/
def periodBody (env : Env) (b : DownBody) (count : Nat) : List ElementInfo → Except Errno DownBody
  | i0 :: i1 :: _ => do
    let e0 ← readElement env.heap env.store 0 i0
    return { b with elements := e0 :: guideElement i1 :: List.replicate (count - 2) .zero,
                    len := 8 + 8 + (e0.num + 2) + 2 }
  | _ => .error .einval

/-- `hydrology_host_make_down_body`.  A table with fewer entries than the case reads is no call of
this function. -/
def hostMakeDownBody (env : Env) (table : List ElementInfo) (count : Nat) (mode : Mode)
    (funcode : BodyType) : Except Errno DownBody :=
  let zeros := List.replicate count Element.zero
  let blank : DownBody := ⟨clear2, clear6, zeros, 0⟩
  let b : DownBody := ⟨hydrologyGetStreamId env.streamId, env.time, zeros, 0⟩
  match funcode.downCase with
  | .link => .ok blank
  | .simple => .ok { b with len := 8 }
  | .period => periodBody env b count table
  | .guides | .oneGuide =>
    if count ≤ table.length then
      let es := (table.take count).map guideElement
      .ok { b with elements := es, len := (8 + 2 * es.length) % 2 ^ 16 }
    else .error .einval
  | .values | .changePassword | .setIcCard =>
    if count ≤ table.length then do
      let es ← readElements env.heap env.store 0 (table.take count)
      return { b with elements := es, len := (8 + listLen es) % 2 ^ 16 }
    else .error .einval
  | .pump => m4Body b mode (lengthElement env HYDROLOGY_PDA_PUMP_LEN HYDROLOGY_PDA_PUMP UInt8.toNat)
  | .valve =>
    m4Body b mode (lengthElement env HYDROLOGY_PDA_VALVE_LEN HYDROLOGY_PDA_VALVE UInt8.toNat)
  | .gate => m4Body b mode (lengthElement env HYDROLOGY_PDA_GATE_LEN HYDROLOGY_PDA_GATE gateNum)
  | .waterSetting => do
    let e ← checkedValue env 1 HYDROLOGY_PDA_WATERSETTING 1
    return { b with elements := [e], len := 8 + e.num }

/-! ### Sending -/

/-- `ctime` of a period request: four bytes of the time, the hour one less. -/
def ctime (stime : Bytes 6) : List UInt8 := stime.1.take 3 ++ [stime.1.getD 3 0 - 1]

/-- What a downlink body consists of. -/
def downPieces (env : Env) (mode : Mode) (c : DownCase) (body : DownBody) : List Piece :=
  match c with
  | .link => []
  | .simple => [.ofBytes body.fixed]
  | .period =>
    match body.elements with
    | e0 :: e1 :: _ =>
      .ofBytes body.fixed :: .ofBytes (env.tailTime.1.take 4) :: .ofBytes (ctime env.tailTime) ::
        elementPieces e0 ++ [.ofBytes e1.guide]
    | _ => []
  | .guides | .oneGuide => .ofBytes body.fixed :: body.elements.map fun e => .ofBytes e.guide
  | .values | .changePassword | .setIcCard =>
    .ofBytes body.fixed :: body.elements.flatMap elementPieces
  | .pump | .valve | .gate =>
    .ofBytes body.fixed :: if mode = .m4 then body.elements.flatMap lengthPieces else []
  | .waterSetting => .ofBytes body.fixed :: body.elements.map valuePiece

structure DownPacket where
  header : Header
  body   : DownBody

/-- `hydrology_host_make_down_tail_and_send`. -/
def hostMakeDownTailAndSend (env : Env) (p : DownPacket) (mode : Mode) (funcode : BodyType)
    (end_ : UInt8) : Sent :=
  let size := (p.header.len + p.body.len + 3) % 2 ^ 16
  if kmalloc env.heap .frame size then
    let h := p.header.single p.body.len
    let r := sendFrame (.alloc size) (h.downBytes.take h.headerLen)
      (downPieces env mode funcode.downCase p.body) end_
    ⟨none, [r.2], [r.1]⟩
  else ⟨some .enomem, [], []⟩

/-- `hydrology_host_process_send`, up to the packet that is sent. -/
def hostMakePacket (env : Env) (table : List ElementInfo) (mode : Mode) (funcode : BodyType) :
    Except Errno DownPacket :=
  if kmalloc env.heap .packet 1 then
    match hostMakeDownBody env table (funcode.downCount table.length) mode funcode with
    | .error e => .error e
    | .ok body => .ok ⟨(hostMakeDownHeader env.store mode funcode).2, body⟩
  else .error .enomem

end Kinetis.Hydrology
