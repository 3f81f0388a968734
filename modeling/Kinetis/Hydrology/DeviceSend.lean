import Kinetis.Hydrology.Frame

/-!
# Hydrology — the device's uplink

`hydrology-device.c`, from `hydrology_device_init_send` to `hydrology_device_process_send`: a packet
is made of a header and a body read from the store, and sent as one frame, or, when its body is
longer than 128 bytes, as a run of numbered frames of one buffer.

* `UpCase` names the case groups of the `switch` statements over the function code.
* `deviceMakeUpBody` makes the body; `deviceMakeUpBody_ok` says what it made, and that
  `upbody->len` is the length the case calls for, in 16 bits.
* `deviceMakeUpTailAndSend` sends it.  The pieces of a body are the same in both branches, except
  for the reports that send a file.
-/

namespace Kinetis.Hydrology
open Lib

theorem bind_eq_ok {α β : Type} {x : Except Errno α} {f : α → Except Errno β} {b : β} :
    (x >>= f) = .ok b ↔ ∃ a, x = .ok a ∧ f a = .ok b := by
  cases x with
  | error e => simp [bind, Except.bind]
  | ok a => simp [bind, Except.bind]

/-! ### Cases -/

/-- The case groups of the uplink. -/
inductive UpCase where
  | link
  /-- `EVEN_PERIOD_INFO_REPORT`, `PERIOD_REPORT`: elements after the first are interleaved. -/
  | evenPeriod
  /-- Observed elements: 23 fixed bytes and an element list. -/
  | observed
  /-- `ARTIFICIAL_NUM_REPORT`, `INQUIRE_ARTIFICIAL_NUM_REPORT`. -/
  | artificial
  | picture
  /-- Stored elements: 15 fixed bytes and an element list. -/
  | listed
  | swVersion
  /-- Nothing but the 15 fixed bytes. -/
  | bare
  /-- `CHANGE_PASSWORD_REPORT`, `SET_IC_CARD_REPORT`: one element. -/
  | single
  | pump
  | valve
  | gate
  | waterSetting
  | record
  deriving DecidableEq, Repr

def BodyType.upCase : BodyType → UpCase
  | link => .link
  | evenPeriodInfo => .evenPeriod
  | period => .evenPeriod
  | test => .observed
  | timer => .observed
  | add => .observed
  | hour => .observed
  | waterPumpMotor => .observed
  | realTime => .observed
  | specifiedElement => .observed
  | artificialNum => .artificial
  | inquireArtificialNum => .artificial
  | picture => .picture
  | status => .listed
  | configWrite => .listed
  | configRead => .listed
  | paraWrite => .listed
  | paraRead => .listed
  | swVersion => .swVersion
  | initSolidStorage => .bare
  | reset => .bare
  | setClock => .bare
  | time => .bare
  | changePassword => .single
  | setIcCard => .single
  | pump => .pump
  | valve => .valve
  | gate => .gate
  | waterSetting => .waterSetting
  | record => .record

/-- The element count of `hydrology_device_init_send`. -/
def BodyType.upCount (funcode : BodyType) (cnt : Nat) : Nat :=
  match funcode with
  | link | initSolidStorage | reset | setClock | time => 0
  | test | evenPeriodInfo | timer | add | hour | realTime | period | specifiedElement
  | configWrite | configRead | paraWrite | paraRead | waterPumpMotor => cnt
  | artificialNum | picture | inquireArtificialNum | swVersion | status | changePassword
  | setIcCard | pump | valve | gate | waterSetting | record => 1

/-- The function codes that are sent without an element table. -/
def BodyType.upTableless : BodyType → Bool
  | link | initSolidStorage | reset | setClock | time | artificialNum | inquireArtificialNum
  | picture | swVersion | pump | valve | gate => true
  | _ => false

/-! ### Header -/

/-- `hydrology_device_make_up_header`. -/
def deviceMakeUpHeader (store : Store) (mode : Mode) (funcode : BodyType) : Outcome Header :=
  let h : Header := { Header.zero with frameStart := sohPair, len := 2 }
  (((Header.readField store HYDROLOGY_BA_CENTER 1
        (fun h b => { h with centerAddr := b.1.headD 0 }) h).andThen
      (Header.readField store HYDROLOGY_BA_REMOTE 5 fun h b => { h with remoteAddr := b })).andThen
      (Header.readField store HYDROLOGY_BA_PASSWORD 2 fun h b => { h with password := b })).andThen
      fun h => (none, { h with funcode := funcode.code, dirLen0 := 0, paketStart := mode.paketStart,
                               len := h.len + 1 + 2 + 1 })

/-! ### Body -/

/-- `struct hydrology_up_body`; its count is the number of elements. -/
structure UpBody where
  streamId          : Bytes 2
  sendTime          : Bytes 6
  rtuAddrId         : Bytes 2
  rtuAddr           : Bytes 5
  rtuType           : UInt8
  observationTimeId : Bytes 2
  observationTime   : Bytes 5
  elements          : List Element
  len               : Nat
  deriving DecidableEq, Repr

namespace UpBody

/-- The 23 bytes that stand before `count` in the structure. -/
def fixed (b : UpBody) : List UInt8 :=
  b.streamId.1 ++ b.sendTime.1 ++ b.rtuAddrId.1 ++ b.rtuAddr.1 ++ [b.rtuType] ++
    b.observationTimeId.1 ++ b.observationTime.1

@[simp] theorem length_fixed (b : UpBody) : b.fixed.length = 23 := by
  simp [fixed, b.streamId.2, b.sendTime.2, b.rtuAddrId.2, b.rtuAddr.2, b.observationTimeId.2,
    b.observationTime.2]

/-- Stream number and time of sending; everything else zeroed. -/
def stamped (env : Env) : UpBody :=
  ⟨hydrologyGetStreamId env.streamId, env.time, clear2, clear5, 0,
    clear2, clear5, [], 0⟩

/-- `rtu_addr_id` and `rtu_addr`. -/
def withRtuAddr (env : Env) (b : UpBody) : Except Errno UpBody :=
  match env.store.read .elementData HYDROLOGY_BA_REMOTE 5 with
  | (none, data) => .ok { b with rtuAddrId := ⟨[0xF1, 0xF1], rfl⟩, rtuAddr := fill 5 data }
  | (some e, _) => .error e

/-- `hydrology_get_observation_time`: the five bytes after the value of an element, or zeros. -/
def observationTimeOf (env : Env) (info : ElementInfo) : Bytes 5 :=
  match env.store.read .elementData ((info.num + info.addr.toNat) % 2 ^ 32) 5 with
  | (none, data) => fill 5 data
  | (some _, _) => fill 5 []

/-- `rtu_type`, `observationtimeid` and `observation_time`. -/
def withObservation (env : Env) (info : ElementInfo) (b : UpBody) : Except Errno UpBody :=
  match env.store.read .elementData HYDROLOGY_PDA_RTUTYPE 1 with
  | (none, data) => .ok { b with rtuType := data.headD 0, observationTimeId := ⟨[0xF0, 0xF0], rfl⟩,
                                 observationTime := observationTimeOf env info }
  | (some e, _) => .error e

end UpBody

/-- A value of `num` bytes allocated and read from `addr`; a failed read is ignored. -/
def storedValue (env : Env) (guide0 : UInt8) (addr num : Nat) : Except Errno Element :=
  if kmalloc env.heap (.value 0) num then
    .ok ⟨guide0, 0, num, (fill num (env.store.read .elementData addr num).2).1⟩
  else .error .enomem

/-- The length byte at `addr`, zero where nothing was read. -/
def lengthByte (env : Env) (addr : Nat) : UInt8 :=
  (env.store.read .elementData addr 1).2.headD 0

/-- Bytes of a bitmap of `n` gates. -/
def gateNum (n : UInt8) : Nat := if n.toNat % 8 = 0 then n.toNat / 8 else n.toNat / 8 + 1

/-- The element of a version, pump, valve or gate report: a length byte and that many bytes. -/
def deviceElement (env : Env) : UpCase → Except Errno Element
  | .swVersion =>
    match env.store.read .elementData HYDROLOGY_PDA_SW_VERSION_LEN 1 with
    | (some e, _) => .error e
    | (none, data) =>
      let num := (data.headD 0).toNat
      match storedValue env (data.headD 0) HYDROLOGY_PDA_SW_VERSION num with
      | .error e => .error e
      | .ok element =>
        match (env.store.read .elementData HYDROLOGY_PDA_SW_VERSION num).1 with
        | some e => .error e
        | none => .ok element
  | .pump =>
    match env.store.read .elementData HYDROLOGY_PDA_PUMP_LEN 1 with
    | (some e, _) => .error e
    | (none, data) => storedValue env (data.headD 0) HYDROLOGY_PDA_PUMP (data.headD 0).toNat
  | .valve =>
    let n := lengthByte env HYDROLOGY_PDA_VALVE_LEN
    storedValue env n HYDROLOGY_PDA_VALVE n.toNat
  | .gate =>
    let n := lengthByte env HYDROLOGY_PDA_GATE_LEN
    storedValue env n HYDROLOGY_PDA_GATE (gateNum n)
  | .waterSetting => storedValue env 1 HYDROLOGY_PDA_WATERSETTING 1
  | .record => storedValue env 64 HYDROLOGY_PDA_RECORD 64
  | _ => .error .einval

/-- `hydrology_malloc_element` and a read whose failure is ignored. -/
def singleElement (env : Env) (info : ElementInfo) : Except Errno Element :=
  match hydrologyMallocElement env.heap 0 info with
  | .error e => .error e
  | .ok element =>
    .ok { element with
      value := (fill info.num (env.store.read .elementData info.addr.toNat info.num).2).1 }

/-- The element that stands for a whole file. -/
def fileElement (env : Env) (guide : UInt8) (file : StoreFile) : Element :=
  ⟨guide, guide, ((env.store.fileSize file).getD 0).toNat, []⟩

/-- `element_table[0]`. -/
def firstInfo (table : List ElementInfo) : ElementInfo := table.headD ⟨0, 0, 0, 0⟩

/-- `HYDROLOGY_E_PIC`. -/
def HYDROLOGY_E_PIC : ElementInfo := ⟨0xF3, 0, 0, HYDROLOGY_EA_PIC⟩

/-- `hydrology_device_make_up_body`, for a table that is `NULL` when it has no entry.  `len` is
the sum of what the function adds to `upbody->len`. -/
def deviceMakeUpBody (env : Env) (table : List ElementInfo) (count : Nat) (funcode : BodyType) :
    Except Errno UpBody :=
  if table = [] ∧ funcode.upTableless = false then .error .einval
  else match funcode.upCase with
    | .link => .ok { UpBody.stamped env with len := 8 }
    | .evenPeriod | .observed => do
      let b ← (UpBody.stamped env).withRtuAddr env
      let b ← b.withObservation env (firstInfo table)
      let es ← readElements env.heap env.store 0 (table.take count)
      return { b with elements := es, len := (23 + listLen es) % 2 ^ 16 }
    | .artificial =>
      let e := fileElement env 0xF2 .rgzs
      .ok { UpBody.stamped env with elements := [e], len := (8 + listLen [e]) % 2 ^ 16 }
    | .picture => do
      let b ← (UpBody.stamped env).withRtuAddr env
      let b ← b.withObservation env HYDROLOGY_E_PIC
      let e := fileElement env 0xF3 .picture
      return { b with elements := [e], len := (23 + listLen [e]) % 2 ^ 16 }
    | .listed => do
      let b ← (UpBody.stamped env).withRtuAddr env
      let es ← readElements env.heap env.store 0 (table.take count)
      return { b with elements := es, len := (15 + listLen es) % 2 ^ 16 }
    | .bare => do
      let b ← (UpBody.stamped env).withRtuAddr env
      return { b with len := 15 }
    | .single => do
      let b ← (UpBody.stamped env).withRtuAddr env
      let e ← singleElement env (firstInfo table)
      return { b with elements := [e], len := (15 + listLen [e]) % 2 ^ 16 }
    | .swVersion | .pump | .valve | .gate => do
      let b ← (UpBody.stamped env).withRtuAddr env
      let e ← deviceElement env funcode.upCase
      return { b with elements := [e], len := (15 + e.num + 1) % 2 ^ 16 }
    | .waterSetting | .record => do
      let b ← (UpBody.stamped env).withRtuAddr env
      let e ← deviceElement env funcode.upCase
      return { b with elements := [e], len := (15 + e.num) % 2 ^ 16 }

/-! ### Pieces -/

/-- `memcpy(&buffer[pointer], upbody, n)`. -/
def fixedPiece (body : UpBody) (n : Nat) : Piece := .ofBytes (body.fixed.take n)

/-- `memcpy` of an element's value. -/
def valuePiece (e : Element) : Piece := ⟨e.value, e.num⟩

/-- Guide and value of an element. -/
def elementPieces (e : Element) : List Piece := [.ofBytes e.guide, valuePiece e]

/-- The `k`-th twelfth of a value: copied when it is one byte or two, passed over otherwise. -/
def twelfthPiece (k : Nat) (e : Element) : Piece :=
  if e.num / 12 = 1 then ⟨slice e.value k 1, 1⟩
  else if e.num / 12 = 2 then ⟨slice e.value (2 * k) 2, 2⟩
  else ⟨[], e.num / 12⟩

/-- Elements of a period report: the first in full, the guides of the others, then their values
interleaved, a twelfth at a time. -/
def evenPieces : List Element → List Piece
  | [] => []
  | e :: es =>
    elementPieces e ++ es.map (fun e => .ofBytes e.guide) ++
      (List.range 12).flatMap fun k => es.map (twelfthPiece k)

/-- A length byte and a value. -/
def lengthPieces (e : Element) : List Piece := [.ofBytes [e.guide0], valuePiece e]

/-- What a body consists of, but for the reports that send a file. -/
def bodyPieces (c : UpCase) (body : UpBody) : List Piece :=
  match c with
  | .link => [fixedPiece body 8]
  | .evenPeriod => fixedPiece body 23 :: evenPieces body.elements
  | .observed => fixedPiece body 23 :: body.elements.flatMap elementPieces
  | .listed | .single => fixedPiece body 15 :: body.elements.flatMap elementPieces
  | .bare => [fixedPiece body 15]
  | .swVersion | .pump | .valve | .gate => fixedPiece body 15 :: body.elements.flatMap lengthPieces
  | .waterSetting | .record => fixedPiece body 15 :: body.elements.map valuePiece
  | .artificial | .picture => []

/-- The file that a report sends. -/
def UpCase.file : UpCase → StoreFile
  | .picture => .picture
  | _ => .rgzs

/-- `len` bytes of the file from `offset` on; the pointer advances even where the read fails. -/
def fileRead (store : Store) (c : UpCase) (offset len : Nat) : Piece :=
  ⟨(store.read c.file offset len).2, len⟩

/-- The pieces of a single frame. -/
def singlePieces (store : Store) (c : UpCase) (body : UpBody) : List Piece :=
  match c with
  | .artificial | .picture =>
    fixedPiece body 8 :: body.elements.flatMap fun e =>
      [.ofBytes e.guide, fileRead store c 0 e.num]
  | _ => bodyPieces c body

/-! ### Sending -/

/-- What a send leaves: the error, the frames sent in order, and the buffers it wrote. -/
structure Sent where
  error   : Option Errno
  frames  : List (List UInt8)
  buffers : List Buf

/-- Every byte was written below the size of its buffer. -/
def Sent.InBounds (s : Sent) : Prop := ∀ b ∈ s.buffers, b.Fits

instance (s : Sent) : Decidable s.InBounds := inferInstanceAs (Decidable (∀ b ∈ s.buffers, b.Fits))

structure UpPacket where
  header : Header
  body   : UpBody

/-- The branch for a body that fits a frame. -/
def deviceSendSingle (env : Env) (p : UpPacket) (funcode : BodyType) : Sent :=
  let size := (p.header.len + p.body.len + 3) % 2 ^ 16
  if kmalloc env.heap .frame size then
    let h := p.header.single p.body.len
    let r := sendFrame (.alloc size) (h.upBytes.take h.headerLen)
      (singlePieces env.store funcode.upCase p.body) ETX
    ⟨none, [r.2], [r.1]⟩
  else ⟨some .enomem, [], []⟩

/-- The length of the last frame's body. -/
def lastLen (len : Nat) : Nat := if len % bodyMaxLen = 0 then bodyMaxLen else len % bodyMaxLen

/-- The number of frames. -/
def splitTotal (len : Nat) : Nat :=
  if len % bodyMaxLen = 0 then len / bodyMaxLen else len / bodyMaxLen + 1

/-- The header of frame `i` of `total`. -/
def splitHeader (h : Header) (len i total : Nat) : Header :=
  let h := { h.setSequence i total with dirLen0 := 0, dirLen1 := 0, paketStart := SYN }
  h.addLen (if i = total then lastLen len else bodyMaxLen)

def splitEnd (i total : Nat) : UInt8 := if i = total then ETX else ETB

/-- `hydrology_device_split_transfer`: frame `i` of the unsplit body `mem`. -/
def deviceSplitTransfer (mem : Nat → UInt8) (buf : Buf) (h : Header) (len i total : Nat) :
    Buf × List UInt8 :=
  let n := if i = total then lastLen len else bodyMaxLen
  sendFrame buf (splitHeader h len i total).upBytes
    [.ofBytes (readMem mem ((i - 1) * bodyMaxLen) n)] (splitEnd i total)

/-- The fixed bytes that the first frame of a split file report starts with. -/
def UpCase.fileFixed : UpCase → Nat
  | .picture => 23
  | _ => 8

/-- What is left of a file of `num` bytes for the last frame, the first one having held `first`. -/
def fileLastLen (num first : Nat) : Nat :=
  let n := (num + 2 ^ 32 - first) % 2 ^ 32 % bodyMaxLen
  if n = 0 then bodyMaxLen else n

/-- The pieces of frame `i` of a split file report. -/
def fileSplitPieces (store : Store) (c : UpCase) (body : UpBody) (i total : Nat) : List Piece :=
  let first := bodyMaxLen - (c.fileFixed + 2)
  body.elements.flatMap fun e =>
    if i = total then
      [fileRead store c (first + (i - 2) * bodyMaxLen) (fileLastLen e.num first)]
    else if i = 1 then
      [fixedPiece body c.fileFixed, .ofBytes e.guide, fileRead store c 0 first]
    else [fileRead store c (first + (i - 2) * bodyMaxLen) bodyMaxLen]

/-- Frame `i` of a split report, `mem` holding its unsplit body. -/
def splitFrame (store : Store) (p : UpPacket) (c : UpCase) (mem : Nat → UInt8) (i : Nat)
    (buf : Buf) : Buf × List UInt8 :=
  let len := p.body.len
  let total := splitTotal len
  match c with
  | .artificial | .picture =>
    sendFrame buf (splitHeader p.header len i total).upBytes
      (fileSplitPieces store c p.body i total) (splitEnd i total)
  | _ => deviceSplitTransfer mem buf p.header len i total

/-- Frames `1 .. total` of one buffer, in order. -/
def sendFrames (frame : Nat → Buf → Buf × List UInt8) (total : Nat) (buf : Buf) :
    Buf × List (List UInt8) :=
  (List.range total).foldl
    (fun s k => let r := frame (k + 1) s.1; (r.1, s.2 ++ [r.2])) (buf, [])

theorem sendFrames_succ (frame : Nat → Buf → Buf × List UInt8) (total : Nat) (buf : Buf) :
    sendFrames frame (total + 1) buf =
      ((frame (total + 1) (sendFrames frame total buf).1).1,
        (sendFrames frame total buf).2 ++ [(frame (total + 1) (sendFrames frame total buf).1).2]) := by
  simp only [sendFrames, List.range_succ, List.foldl_append, List.foldl_cons, List.foldl_nil]

/-- The branch for a longer body. -/
def deviceSendSplit (env : Env) (p : UpPacket) (funcode : BodyType) : Sent :=
  let size := (p.header.len + bodyMaxLen + 3) % 2 ^ 16
  if kmalloc env.heap .frame size then
    if kmalloc env.heap .bodyBuffer p.body.len then
      let w := (bodyPieces funcode.upCase p.body).foldl Writer.put ⟨.alloc p.body.len, 0⟩
      let r := sendFrames (splitFrame env.store p funcode.upCase w.buf.mem)
        (splitTotal p.body.len) (.alloc size)
      ⟨none, r.2, [r.1, w.buf]⟩
    else ⟨some .enomem, [], []⟩
  else ⟨some .enomem, [], []⟩

/-- `hydrology_device_make_up_tail_and_send`. -/
def deviceMakeUpTailAndSend (env : Env) (p : UpPacket) (funcode : BodyType) : Sent :=
  if p.body.len ≤ bodyMaxLen then deviceSendSingle env p funcode
  else deviceSendSplit env p funcode

/-- `hydrology_device_process_send`, up to the packet that is sent. -/
def deviceMakePacket (env : Env) (table : List ElementInfo) (mode : Mode) (funcode : BodyType) :
    Except Errno UpPacket :=
  if kmalloc env.heap .packet 1 then
    match deviceMakeUpHeader env.store mode funcode with
    | (some e, _) => .error e
    | (none, header) =>
      match deviceMakeUpBody env table (funcode.upCount table.length) funcode with
      | .error e => .error e
      | .ok body => .ok ⟨header, body⟩
  else .error .enomem

/-- `hydrology_device_process_send`. -/
def deviceProcessSend (env : Env) (table : List ElementInfo) (mode : Mode) (funcode : BodyType) :
    Sent :=
  match deviceMakePacket env table mode funcode with
  | .error e => ⟨some e, [], []⟩
  | .ok p => deviceMakeUpTailAndSend env p funcode

/-! ### What was made -/

/-- The reports that send a file. -/
def UpCase.isFile : UpCase → Bool
  | .artificial | .picture => true
  | _ => false

/-- The length of a body with the given elements. -/
def UpCase.total (c : UpCase) (es : List Element) : Nat :=
  match c with
  | .link => 8
  | .evenPeriod | .observed | .picture => 23 + listLen es
  | .artificial => 8 + listLen es
  | .listed | .single => 15 + listLen es
  | .bare => 15
  | .swVersion | .pump | .valve | .gate => 15 + (es.map fun e => e.num + 1).sum
  | .waterSetting | .record => 15 + (es.map Element.num).sum

/-- What every body that was made satisfies. -/
structure UpBody.Made (c : UpCase) (b : UpBody) : Prop where
  len   : b.len = c.total b.elements % 2 ^ 16
  /-- Only the length of a file can take more than 16 bits. -/
  small : c.isFile = false → c.total b.elements < 2 ^ 16
  whole : c.isFile = false → ∀ e ∈ b.elements, e.value.length = e.num
  file  : c.isFile = true → ∃ e, b.elements = [e]
  even  : c = .evenPeriod → b.elements ≠ []

variable {c : UpCase} {b : UpBody}

theorem UpBody.Made.of_small (hfile : c.isFile = false) (hlen : b.len = c.total b.elements % 2 ^ 16)
    (hsmall : c.total b.elements < 2 ^ 16) (hwhole : ∀ e ∈ b.elements, e.value.length = e.num)
    (heven : c = .evenPeriod → b.elements ≠ []) : b.Made c :=
  ⟨hlen, fun _ => hsmall, fun _ => hwhole, fun h => by simp [hfile] at h, heven⟩

variable {es : List Element}

theorem listLen_le {m : Nat} (h : ∀ e ∈ es, e.num ≤ m) : listLen es ≤ (m + 2) * es.length := by
  induction es with
  | nil => exact Nat.zero_le _
  | cons e es ih =>
    obtain ⟨he, hes⟩ := List.forall_mem_cons.mp h
    have := ih hes
    rw [listLen_cons, List.length_cons, Nat.mul_succ]
    omega

variable {table : List ElementInfo}

theorem readElements_small {heap : Heap} {store : Store}
    (hes : readElements heap store 0 table = .ok es) (htable : table.length < 256) :
    listLen es ≤ 130 * 255 ∧ ∀ e ∈ es, e.value.length = e.num := by
  obtain ⟨rfl, -⟩ := readElements_ok hes
  have hnum : ∀ e ∈ table.map (storedElement store), e.num ≤ 128 ∧ e.value.length = e.num := by
    intro e he
    obtain ⟨info, -, rfl⟩ := List.mem_map.mp he
    exact ⟨info.num_le, length_storedElement_value store info⟩
  refine ⟨?_, fun e he => (hnum e he).2⟩
  have := listLen_le fun e he => (hnum e he).1
  rw [List.length_map] at this
  omega

variable {env : Env} {e : Element}

theorem storedValue_ok {guide0 : UInt8} {addr num : Nat}
    (h : storedValue env guide0 addr num = .ok e) : e.value.length = e.num ∧ e.num = num := by
  rw [storedValue] at h
  split at h
  · cases h
    exact ⟨(fill num _).2, rfl⟩
  · cases h

theorem gateNum_le (n : UInt8) : gateNum n ≤ 32 := by
  have := n.toNat_lt
  rw [gateNum]
  split <;> omega

theorem deviceElement_ok (h : deviceElement env c = .ok e) :
    e.value.length = e.num ∧ e.num ≤ 255 := by
  cases c with
  | swVersion =>
    rw [deviceElement] at h
    generalize env.store.read .elementData HYDROLOGY_PDA_SW_VERSION_LEN 1 = r at h
    obtain ⟨err, data⟩ := r
    cases err with
    | some err => cases h
    | none =>
      simp only at h
      generalize hv : storedValue env _ _ _ = v at h
      cases v with
      | error err => cases h
      | ok element =>
        obtain ⟨hwhole, hnum⟩ := storedValue_ok hv
        simp only at h
        split at h
        · cases h
        · cases h
          exact ⟨hwhole, hnum ▸ Nat.le_of_lt_succ (UInt8.toNat_lt _)⟩
  | pump =>
    rw [deviceElement] at h
    generalize env.store.read .elementData HYDROLOGY_PDA_PUMP_LEN 1 = r at h
    obtain ⟨err, data⟩ := r
    cases err with
    | some err => cases h
    | none =>
      obtain ⟨hwhole, hnum⟩ := storedValue_ok h
      exact ⟨hwhole, hnum ▸ Nat.le_of_lt_succ (UInt8.toNat_lt _)⟩
  | valve =>
    obtain ⟨hwhole, hnum⟩ := storedValue_ok h
    exact ⟨hwhole, hnum ▸ Nat.le_of_lt_succ (UInt8.toNat_lt _)⟩
  | gate =>
    obtain ⟨hwhole, hnum⟩ := storedValue_ok h
    exact ⟨hwhole, hnum ▸ (gateNum_le _).trans (by decide)⟩
  | waterSetting =>
    obtain ⟨hwhole, hnum⟩ := storedValue_ok h
    exact ⟨hwhole, hnum ▸ by decide⟩
  | record =>
    obtain ⟨hwhole, hnum⟩ := storedValue_ok h
    exact ⟨hwhole, hnum ▸ by decide⟩
  | _ => cases h

theorem singleElement_ok {info : ElementInfo} (h : singleElement env info = .ok e) :
    e.value.length = e.num ∧ e.num ≤ 128 := by
  rw [singleElement, hydrologyMallocElement] at h
  split at h
  · cases h
  · rename_i hm
    split at hm
    · cases hm
      cases h
      exact ⟨(fill info.num _).2, info.num_le⟩
    · cases hm

variable {funcode : BodyType}

theorem BodyType.evenPeriod_count (h : funcode.upCase = .evenPeriod) (cnt : Nat) :
    funcode.upTableless = false ∧ funcode.upCount cnt = cnt := by
  cases funcode <;> first | exact ⟨rfl, rfl⟩ | cases h

/-- The one element of a short report. -/
theorem UpBody.made_element (hfile : c.isFile = false) (hc : c ≠ .evenPeriod)
    (hes : b.elements = [e]) (hlen : b.len = c.total [e] % 2 ^ 16) (hsmall : c.total [e] < 2 ^ 16)
    (hwhole : e.value.length = e.num) : b.Made c := by
  refine .of_small hfile (hes ▸ hlen) (hes ▸ hsmall) ?_ fun h => absurd h hc
  rw [hes]
  exact List.forall_mem_singleton.mpr hwhole

/-- **What `hydrology_device_make_up_body` makes.** -/
theorem deviceMakeUpBody_ok (htable : table.length < 256)
    (h : deviceMakeUpBody env table (funcode.upCount table.length) funcode = .ok b) :
    b.Made funcode.upCase := by
  have htake : (table.take (funcode.upCount table.length)).length < 256 :=
    (List.length_take_le' _ _).trans_lt htable
  rw [deviceMakeUpBody] at h
  split at h
  · cases h
  rename_i hnull
  have heven : funcode.upCase = .evenPeriod →
      table.take (funcode.upCount table.length) ≠ [] := by
    intro hc
    obtain ⟨hless, hcount⟩ := BodyType.evenPeriod_count hc table.length
    rw [hcount, List.take_length]
    exact fun hnil => hnull ⟨hnil, hless⟩
  generalize funcode.upCase = c at h heven ⊢
  cases c with
  | link =>
    cases h
    exact .of_small rfl rfl (by simp only [UpCase.total]; decide) (fun _ he => nomatch he) nofun
  | evenPeriod | observed =>
    obtain ⟨b1, -, h⟩ := bind_eq_ok.mp h
    obtain ⟨b2, -, h⟩ := bind_eq_ok.mp h
    obtain ⟨es, hes, h⟩ := bind_eq_ok.mp h
    cases h
    obtain ⟨hsmall, hwhole⟩ := readElements_small hes htake
    refine .of_small rfl rfl (by simp only [UpCase.total]; omega) hwhole fun hc hnil => ?_
    obtain ⟨rfl, -⟩ := readElements_ok hes
    exact heven hc (List.map_eq_nil_iff.mp hnil)
  | artificial =>
    cases h
    exact ⟨rfl, nofun, nofun, fun _ => ⟨_, rfl⟩, nofun⟩
  | picture =>
    obtain ⟨b1, -, h⟩ := bind_eq_ok.mp h
    obtain ⟨b2, -, h⟩ := bind_eq_ok.mp h
    cases h
    exact ⟨rfl, nofun, nofun, fun _ => ⟨_, rfl⟩, nofun⟩
  | listed =>
    obtain ⟨b1, -, h⟩ := bind_eq_ok.mp h
    obtain ⟨es, hes, h⟩ := bind_eq_ok.mp h
    cases h
    obtain ⟨hsmall, hwhole⟩ := readElements_small hes htake
    exact .of_small rfl rfl (by simp only [UpCase.total]; omega) hwhole nofun
  | bare =>
    obtain ⟨b1, hb1, h⟩ := bind_eq_ok.mp h
    cases h
    refine .of_small rfl rfl (by simp only [UpCase.total]; decide) ?_ nofun
    rw [UpBody.withRtuAddr] at hb1
    split at hb1
    · cases hb1
      exact fun _ he => nomatch he
    · cases hb1
  | single =>
    obtain ⟨b1, -, h⟩ := bind_eq_ok.mp h
    obtain ⟨e, he, h⟩ := bind_eq_ok.mp h
    cases h
    obtain ⟨hwhole, hnum⟩ := singleElement_ok he
    exact UpBody.made_element rfl nofun rfl rfl (by simp [UpCase.total]; omega) hwhole
  | swVersion | pump | valve | gate | waterSetting | record =>
    obtain ⟨b1, -, h⟩ := bind_eq_ok.mp h
    obtain ⟨e, he, h⟩ := bind_eq_ok.mp h
    cases h
    obtain ⟨hwhole, hnum⟩ := deviceElement_ok he
    exact UpBody.made_element rfl nofun rfl (by simp [UpCase.total, Nat.add_assoc])
      (by simp [UpCase.total]; omega) hwhole

end Kinetis.Hydrology
