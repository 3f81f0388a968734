import Kinetis.Lib.Memory
import Kinetis.Lib.Words
import Kinetis.Platform.Crc
import Kinetis.Platform.Files

/-!
# Hydrology — packets

The data of the telemetry protocol (`hydrology.h`, `hydrology-lib.c`) that both ends share: modes
and function codes, the element table, packet headers, bodies and elements, and what both ends ask
of their surroundings.

* `Store` answers `fatfs_read_store_info`.  A read that fails may have copied part of the data.
* `Heap` answers `kmalloc`.  It never gives a block of no bytes, nor one of 2 GiB.
* `hydrologyGetGuideId` packs the length of an element into five bits of its guide.
-/

namespace Kinetis.Hydrology
open Lib

/-! ### Modes and function codes -/

/-- `enum hydrology_mode`. -/
inductive Mode where
  | m1
  | m2
  | m3
  | m4
  deriving DecidableEq, Repr

/-- `enum hydrology_body_type`. -/
inductive BodyType where
  | link
  | test
  | evenPeriodInfo
  | timer
  | add
  | hour
  | artificialNum
  | picture
  | realTime
  | period
  | inquireArtificialNum
  | specifiedElement
  | configWrite
  | configRead
  | paraWrite
  | paraRead
  | waterPumpMotor
  | swVersion
  | status
  | initSolidStorage
  | reset
  | changePassword
  | setClock
  | setIcCard
  | pump
  | valve
  | gate
  | waterSetting
  | record
  | time
  deriving DecidableEq, Repr

namespace BodyType

/-- The function code as it stands in a header. -/
def code : BodyType → UInt8
  | link => 0x2F
  | test => 0x30
  | evenPeriodInfo => 0x31
  | timer => 0x32
  | add => 0x33
  | hour => 0x34
  | artificialNum => 0x35
  | picture => 0x36
  | realTime => 0x37
  | period => 0x38
  | inquireArtificialNum => 0x39
  | specifiedElement => 0x3A
  | configWrite => 0x40
  | configRead => 0x41
  | paraWrite => 0x42
  | paraRead => 0x43
  | waterPumpMotor => 0x44
  | swVersion => 0x45
  | status => 0x46
  | initSolidStorage => 0x47
  | reset => 0x48
  | changePassword => 0x49
  | setClock => 0x4A
  | setIcCard => 0x4B
  | pump => 0x4C
  | valve => 0x4D
  | gate => 0x4E
  | waterSetting => 0x4F
  | record => 0x50
  | time => 0x51

def all : List BodyType :=
  [link, test, evenPeriodInfo, timer, add, hour, artificialNum, picture, realTime, period,
    inquireArtificialNum, specifiedElement, configWrite, configRead, paraWrite, paraRead,
    waterPumpMotor, swVersion, status, initSolidStorage, reset, changePassword, setClock,
    setIcCard, pump, valve, gate, waterSetting, record, time]

/-- The cast of a header byte; a byte that is no function code takes no case of any `switch`. -/
def ofCode (b : UInt8) : Option BodyType := all.find? fun f => f.code = b

@[simp] theorem ofCode_code (f : BodyType) : ofCode f.code = some f := by
  cases f <;> decide

end BodyType

def SOH : UInt8 := 0x7E
def STX : UInt8 := 0x02
def SYN : UInt8 := 0x16
def ETX : UInt8 := 0x03
def ETB : UInt8 := 0x17
def ENQ : UInt8 := 0x05
def EOT : UInt8 := 0x04
def ACK : UInt8 := 0x06
def NAK : UInt8 := 0x15
def ESC : UInt8 := 0x1B

/-- `HYDROLOGY_BODY_MAX_LEN`. -/
def bodyMaxLen : Nat := 128

/-- `paket_start` of a frame sent in `mode`. -/
def Mode.paketStart : Mode → UInt8
  | .m1 => STX
  | .m2 => STX
  | .m3 => SYN
  | .m4 => STX

theorem Mode.paketStart_eq_SYN {mode : Mode} : mode.paketStart = SYN ↔ mode = .m3 := by
  cases mode <;> decide

/-! ### Fields -/

/-- An `n`-byte array of a packet. -/
abbrev Bytes (n : Nat) := { l : List UInt8 // l.length = n }

/-- A zeroed `n`-byte array after `data` was copied to its start. -/
def fill (n : Nat) (data : List UInt8) : Bytes n :=
  ⟨(data ++ List.replicate n 0).take n, by simp⟩

/-- Address and identifier fields that `memset` cleared. -/
def clear2 : Bytes 2 := ⟨[0, 0], rfl⟩

def clear5 : Bytes 5 := ⟨[0, 0, 0, 0, 0], rfl⟩

def clear6 : Bytes 6 := ⟨[0, 0, 0, 0, 0, 0], rfl⟩

/-- The frame start of a hexadecimal frame. -/
def sohPair : Bytes 2 := ⟨[SOH, SOH], rfl⟩

variable {data : List UInt8} {i : Nat}

theorem fill_eq {n : Nat} (h : data.length = n) : fill n data = ⟨data, h⟩ :=
  Subtype.ext (List.take_left' h)

/-! ### The store and the heap -/

/-- The files of the element store that the packet code reads. -/
inductive StoreFile where
  /-- `HYDROLOGY_D_FILE_E_DATA` on the device, `HYDROLOGY_H_FILE_E_DATA` on the host. -/
  | elementData
  /-- `HYDROLOGY_D_FILE_RGZS`. -/
  | rgzs
  /-- `HYDROLOGY_D_FILE_PICTURE`. -/
  | picture
  deriving DecidableEq, Repr

/-- The element store: what is in its files, and which reads of it fail, after how many bytes. -/
structure Store where
  data      : StoreFile → Nat → UInt8
  fault     : StoreFile → Nat → Nat → Option Nat
  /-- `fatfs_read_file_size`; `none` where it fails. -/
  fileSize  : StoreFile → Option UInt32

variable {store : Store}

namespace Store

/-- `fatfs_read_store_info(path, file, offset, pdata, len)`: the error, and the bytes copied. -/
def read (store : Store) (file : StoreFile) (offset len : Nat) : Option Errno × List UInt8 :=
  if len = 0 then (some .einval, [])
  else match store.fault file offset len with
    | none => (none, readMem (store.data file) offset len)
    | some got => (some .eio, readMem (store.data file) offset (min got len))

/-- A store none of whose reads fails. -/
def Healthy (store : Store) : Prop := ∀ file offset len, store.fault file offset len = none

variable {len : Nat}

theorem read_eq (h : store.Healthy) (file : StoreFile) (offset : Nat) (hlen : 0 < len) :
    store.read file offset len = (none, readMem (store.data file) offset len) := by
  rw [read, if_neg (by omega), h file offset len]

theorem length_read_le (store : Store) (file : StoreFile) (offset len : Nat) :
    (store.read file offset len).2.length ≤ len := by
  rw [read]
  split
  · exact Nat.zero_le _
  · split <;> simp

/-- A read that succeeds copied all it was asked for. -/
theorem read_ok {file : StoreFile} {offset : Nat} (h : store.read file offset len = (none, data)) :
    data = readMem (store.data file) offset len ∧ 0 < len := by
  rw [read] at h
  split at h
  · cases h
  · split at h
    · cases h; exact ⟨rfl, by omega⟩
    · cases h

end Store

/-- The places that allocate. -/
inductive Site where
  /-- The packet, its header, its body and the array of element pointers. -/
  | packet
  /-- `element[i]->value`. -/
  | value (i : Nat)
  /-- The frame buffer. -/
  | frame
  /-- The unsplit body of a split transfer. -/
  | bodyBuffer
  deriving DecidableEq, Repr

/-- Which allocations the heap can serve. -/
abbrev Heap := Site → Nat → Bool

/-- `kmalloc(size, __GFP_ZERO) != NULL`. -/
def kmalloc (heap : Heap) (site : Site) (size : Nat) : Bool :=
  size ≠ 0 && size < 2 ^ 31 && heap site size

/-- A heap that serves every request it can. -/
def Heap.ample : Heap := fun _ _ => true

theorem kmalloc_ample {site : Site} {size : Nat} (h0 : 0 < size) (h1 : size < 2 ^ 31) :
    kmalloc Heap.ample site size = true := by
  simp only [kmalloc, Heap.ample, Bool.and_eq_true, decide_eq_true_eq]
  exact ⟨⟨by omega, h1⟩, trivial⟩

/-! ### Elements -/

/-- `struct hydrology_element_info`: an entry of an element table. -/
structure ElementInfo where
  ID   : UInt8
  /-- Decimal digits. -/
  D    : UInt8
  /-- Decimal places. -/
  d    : UInt8
  addr : UInt32
  deriving DecidableEq, Repr

def hydrologyGetEvenNum (num : Nat) : Nat := if num % 2 = 0 then num else num + 1

/-- `hydrology_get_guide_id`: five bits of length, three of decimal places. -/
def hydrologyGetGuideId (D d : UInt8) : UInt8 :=
  let evenD := UInt8.ofNat (hydrologyGetEvenNum D.toNat)
  let high5 := (evenD / 2) <<< 3
  high5 ||| d

/-- The bytes that `hydrology_malloc_element` allocates for the value. -/
def ElementInfo.num (info : ElementInfo) : Nat :=
  if info.D.toNat % 2 = 0 then info.D.toNat / 2 else (info.D.toNat + 1) / 2

theorem ElementInfo.num_le (info : ElementInfo) : info.num ≤ 128 := by
  have := info.D.toNat_lt
  rw [num]
  split <;> omega

/-- `struct hydrology_element`. -/
structure Element where
  guide0 : UInt8
  guide1 : UInt8
  num    : Nat
  value  : List UInt8
  deriving DecidableEq, Repr

namespace Element

/-- A zeroed element. -/
def zero : Element := ⟨0, 0, 0, []⟩

def guide (e : Element) : List UInt8 := [e.guide0, e.guide1]

/-- What an element takes in a body: its guide and its value. -/
def bytes (e : Element) : List UInt8 := e.guide ++ e.value

end Element

/-- The length the other end reads from a guide. -/
def guideNum (guide1 : UInt8) : Nat := (guide1 >>> 3).toNat

variable {info : ElementInfo}

/-- **Up to 62 digits and 7 places, the guide tells the length of the value.** -/
theorem guideNum_hydrologyGetGuideId (hD : info.D ≤ 62) (hd : info.d ≤ 7) :
    guideNum (hydrologyGetGuideId info.D info.d) = info.num := by
  obtain ⟨ID, D, d, addr⟩ := info
  have key : ∀ D : Fin 63, ∀ d : Fin 8,
      guideNum (hydrologyGetGuideId (UInt8.ofNat D) (UInt8.ofNat d)) =
        ElementInfo.num ⟨0, UInt8.ofNat D, 0, 0⟩ := by decide +kernel
  have hDn : D.toNat < 63 := Nat.lt_succ_of_le (UInt8.le_iff_toNat_le.mp hD)
  have hdn : d.toNat < 8 := Nat.lt_succ_of_le (UInt8.le_iff_toNat_le.mp hd)
  have h := key ⟨D.toNat, hDn⟩ ⟨d.toNat, hdn⟩
  simp only [UInt8.ofNat_toNat] at h
  exact h

/-- `hydrology_malloc_element`, for the element at index `i`. -/
def hydrologyMallocElement (heap : Heap) (i : Nat) (info : ElementInfo) : Except Errno Element :=
  if kmalloc heap (.value i) info.num then
    .ok ⟨info.ID, hydrologyGetGuideId info.D info.d, info.num, List.replicate info.num 0⟩
  else .error .enomem

/-- An element allocated and its value read from the store. -/
def readElement (heap : Heap) (store : Store) (i : Nat) (info : ElementInfo) :
    Except Errno Element :=
  match hydrologyMallocElement heap i info with
  | .error e => .error e
  | .ok element =>
    match store.read .elementData info.addr.toNat info.num with
    | (none, data) => .ok { element with value := data }
    | (some e, _) => .error e

/-- The loop over an element table, from index `i` on. -/
def readElements (heap : Heap) (store : Store) : Nat → List ElementInfo → Except Errno (List Element)
  | _, [] => .ok []
  | i, info :: table =>
    match readElement heap store i info with
    | .error e => .error e
    | .ok element =>
      match readElements heap store (i + 1) table with
      | .error e => .error e
      | .ok elements => .ok (element :: elements)

/-- An element of a table entry with the value the store has for it. -/
def storedElement (store : Store) (info : ElementInfo) : Element :=
  ⟨info.ID, hydrologyGetGuideId info.D info.d, info.num,
    readMem (store.data .elementData) info.addr.toNat info.num⟩

@[simp] theorem storedElement_num (store : Store) (info : ElementInfo) :
    (storedElement store info).num = info.num := rfl

@[simp] theorem length_storedElement_value (store : Store) (info : ElementInfo) :
    (storedElement store info).value.length = info.num := by
  rw [storedElement, length_readMem]

variable {heap : Heap}

theorem readElement_ok {element : Element} (h : readElement heap store i info = .ok element) :
    element = storedElement store info ∧ 0 < info.num := by
  rw [readElement, hydrologyMallocElement] at h
  by_cases hm : kmalloc heap (.value i) info.num = true
  · rw [if_pos hm] at h
    generalize hr : store.read .elementData info.addr.toNat info.num = r at h
    obtain ⟨err, data⟩ := r
    cases err with
    | none =>
      obtain ⟨rfl, hpos⟩ := Store.read_ok hr
      cases h
      exact ⟨rfl, hpos⟩
    | some e => cases h
  · rw [if_neg hm] at h
    cases h

variable {table : List ElementInfo}

/-- A table read without an error gives every entry with its stored value. -/
theorem readElements_ok {elements : List Element}
    (h : readElements heap store i table = .ok elements) :
    elements = table.map (storedElement store) ∧ ∀ info ∈ table, 0 < info.num := by
  induction table generalizing i elements with
  | nil =>
    cases h
    exact ⟨rfl, fun _ hin => nomatch hin⟩
  | cons info table ih =>
    rw [readElements] at h
    generalize hr : readElement heap store i info = r at h
    cases r with
    | error e => cases h
    | ok element =>
      obtain ⟨rfl, hpos⟩ := readElement_ok hr
      generalize hrest : readElements heap store (i + 1) table = rest at h
      cases rest with
      | error e => cases h
      | ok rest =>
        cases h
        obtain ⟨rfl, hall⟩ := ih hrest
        exact ⟨rfl, List.forall_mem_cons.mpr ⟨hpos, hall⟩⟩

theorem readElement_healthy (hstore : store.Healthy) (hpos : 0 < info.num) (i : Nat) :
    readElement Heap.ample store i info = .ok (storedElement store info) := by
  have hm : kmalloc Heap.ample (.value i) info.num = true :=
    kmalloc_ample hpos (by have := info.num_le; omega)
  rw [readElement, hydrologyMallocElement, if_pos hm, Store.read_eq hstore _ _ hpos]
  rfl

theorem readElements_healthy (hstore : store.Healthy) (hpos : ∀ info ∈ table, 0 < info.num)
    (i : Nat) : readElements Heap.ample store i table = .ok (table.map (storedElement store)) := by
  induction table generalizing i with
  | nil => rfl
  | cons info table ih =>
    obtain ⟨hinfo, htable⟩ := List.forall_mem_cons.mp hpos
    rw [readElements, readElement_healthy hstore hinfo, ih htable]
    rfl

/-- The bytes that the elements of a list take in a body. -/
def listLen (elements : List Element) : Nat := (elements.map fun e => e.num + 2).sum

@[simp] theorem listLen_nil : listLen [] = 0 := rfl

@[simp] theorem listLen_cons (e : Element) (elements : List Element) :
    listLen (e :: elements) = e.num + 2 + listLen elements := rfl

theorem listLen_append (a b : List Element) : listLen (a ++ b) = listLen a + listLen b := by
  rw [listLen, List.map_append, List.sum_append]
  rfl

theorem length_le_listLen (elements : List Element) : elements.length ≤ listLen elements := by
  induction elements with
  | nil => exact le_rfl
  | cons e elements ih =>
    rw [List.length_cons, listLen_cons]
    omega

/-! ### Headers -/

/-- `struct hydrology_up_header` and `struct hydrology_down_header`, which differ in the order of
the two addresses only. -/
structure Header where
  frameStart : Bytes 2
  centerAddr : UInt8
  remoteAddr : Bytes 5
  password   : Bytes 2
  funcode    : UInt8
  dirLen0    : UInt8
  dirLen1    : UInt8
  paketStart : UInt8
  countSeq   : Bytes 3
  len        : Nat
  deriving DecidableEq, Repr

namespace Header

def zero : Header :=
  ⟨clear2, 0, clear5, clear2, 0, 0, 0, 0, ⟨[0, 0, 0], rfl⟩, 0⟩

/-- The first 17 bytes of `struct hydrology_up_header`. -/
def upBytes (h : Header) : List UInt8 :=
  h.frameStart.1 ++ ([h.centerAddr] ++ h.remoteAddr.1) ++ h.password.1 ++
    [h.funcode, h.dirLen0, h.dirLen1, h.paketStart] ++ h.countSeq.1

/-- The first 17 bytes of `struct hydrology_down_header`. -/
def downBytes (h : Header) : List UInt8 :=
  h.frameStart.1 ++ (h.remoteAddr.1 ++ [h.centerAddr]) ++ h.password.1 ++
    [h.funcode, h.dirLen0, h.dirLen1, h.paketStart] ++ h.countSeq.1

@[simp] theorem length_upBytes (h : Header) : h.upBytes.length = 17 := by
  simp [upBytes, h.frameStart.2, h.remoteAddr.2, h.password.2, h.countSeq.2]

@[simp] theorem length_downBytes (h : Header) : h.downBytes.length = 17 := by
  simp [downBytes, h.frameStart.2, h.remoteAddr.2, h.password.2, h.countSeq.2]

/-- `hydrology_device_set_up_header_sequence` and `hydrology_host_set_down_header_sequence`:
12 bits of total and 12 bits of number, packed. -/
def setSequence (h : Header) (cnt total : Nat) : Header :=
  { h with countSeq := ⟨[UInt8.ofNat (total >>> 4),
      UInt8.ofNat (((total &&& 0x000F) <<< 4) + (cnt >>> 8)), UInt8.ofNat (cnt &&& 0x00FF)], rfl⟩ }

/-- `header->dir_len[0] |= len >> 8; header->dir_len[1] |= len & 0xFF`. -/
def addLen (h : Header) (len : Nat) : Header :=
  { h with dirLen0 := h.dirLen0 ||| UInt8.ofNat (len >>> 8),
           dirLen1 := h.dirLen1 ||| UInt8.ofNat (len &&& 0xFF) }

/-- The header of a frame that is not split, with a body of `len` bytes. -/
def single (h : Header) (len : Nat) : Header :=
  let h := h.addLen len
  if h.paketStart = SYN then h.setSequence 1 1 else h

/-- The header bytes that `memcpy` puts in a frame: 17 with the sequence field, 14 without. -/
def headerLen (h : Header) : Nat := if h.paketStart = SYN then 17 else 14

theorem headerLen_le (h : Header) : h.headerLen ≤ 17 := by
  rw [headerLen]
  split <;> omega

@[simp] theorem paketStart_single (h : Header) (len : Nat) :
    (h.single len).paketStart = h.paketStart := by
  rw [single]
  split <;> rfl

@[simp] theorem headerLen_single (h : Header) (len : Nat) :
    (h.single len).headerLen = h.headerLen := by
  rw [headerLen, headerLen, paketStart_single]

end Header

def HYDROLOGY_BA_CENTER : Nat := 1258
def HYDROLOGY_BA_REMOTE : Nat := 1262
def HYDROLOGY_BA_PASSWORD : Nat := 1267
def HYDROLOGY_EA_PIC : UInt32 := 20
def HYDROLOGY_PDA_RTUTYPE : Nat := 1854
def HYDROLOGY_PDA_SW_VERSION_LEN : Nat := 1863
def HYDROLOGY_PDA_SW_VERSION : Nat := 1864
def HYDROLOGY_PDA_PUMP_LEN : Nat := 1884
def HYDROLOGY_PDA_PUMP : Nat := 1885
def HYDROLOGY_PDA_VALVE_LEN : Nat := 1895
def HYDROLOGY_PDA_VALVE : Nat := 1896
def HYDROLOGY_PDA_GATE_LEN : Nat := 1906
def HYDROLOGY_PDA_GATE : Nat := 1907
def HYDROLOGY_PDA_WATERSETTING : Nat := 1917
def HYDROLOGY_PDA_RECORD : Nat := 1918

/-- A field of a header read from the store; its size is added to `header->len` on success. -/
def Header.readField (store : Store) (addr n : Nat) (set : Header → Bytes n → Header) (h : Header) :
    Outcome Header :=
  let r := store.read .elementData addr n
  let h' := set h (fill n r.2)
  (r.1, if r.1 = none then { h' with len := h'.len + n } else h')

/-- What `hydrology_get_time`, `hydrology_get_stream_id` and the surroundings answer. -/
structure Env where
  heap     : Heap
  store    : Store
  /-- `id` of `hydrology_get_stream_id`. -/
  streamId : UInt16
  /-- The calendar, when the body and when the tail of a packet is made. -/
  time     : Bytes 6
  tailTime : Bytes 6

/-- A node with an ample heap and a store of zeros none of whose reads fails. -/
def calmEnv : Env :=
  ⟨Heap.ample, ⟨fun _ _ => 0, fun _ _ _ => none, fun _ => some 0⟩, 0, fill 6 [], fill 6 []⟩

theorem calmEnv_healthy : calmEnv.store.Healthy := fun _ _ _ => rfl

/-- `hydrology_get_stream_id`. -/
def hydrologyGetStreamId (id : UInt16) : Bytes 2 :=
  let next := if id + 1 = 0 then 1 else id + 1
  ⟨[(next >>> 8).toUInt8, next.toUInt8], rfl⟩

end Kinetis.Hydrology
