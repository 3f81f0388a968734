import Kinetis.Flash.W25q

/-!
# Flash — the W25Qxx driver on the plain SPI transport

Without the QSPI operations the driver talks to the chip byte by byte: between `cs_low` and
`cs_high` it sends an instruction and the bytes of the address, the highest first, and then sends
or receives the data with `write_bytes` and `read_bytes`.  The length of these two is a `u8`.

The chip is the one of the QSPI transport: it decodes what is sent under one chip select into the
same requests.  What it is sent is not the same, though: of a whole page, 256 bytes, the transport
moves none, and of a longer read it moves the length modulo 256.

* `writeData_leaves`: what a write leaves, sector by sector.
* `transports_agree_iff`: when a read gives, and a write leaves, what it does on QSPI.
-/

namespace Kinetis.W25q.Spi
open Lib

def WRITE_ENABLE : UInt8 := 0x06
def PAGE_PROGRAM : UInt8 := 0x02
def SECTOR_ERASE : UInt8 := 0x20

/-! ### The transport -/

/-- The bytes of `sub_addr` that are sent. -/
def subAddr (id : UInt8) (addr : Nat) : List UInt8 :=
  (if w25qxxxNeed4byteAddr id then [UInt8.ofNat (addr / 2 ^ 24)] else []) ++
    [UInt8.ofNat (addr / 2 ^ 16), UInt8.ofNat (addr / 2 ^ 8), UInt8.ofNat addr]

/-- `write_bytes`, with its `u8` length. -/
def writeBytes (pdata : List UInt8) (length : Nat) : List UInt8 := pdata.take (length % 2 ^ 8)

/-- The address in what follows an instruction. -/
def addressOf (id : UInt8) (bytes : List UInt8) : Nat := leNat (bytes.take (addressSize id)).reverse

/-- What the chip makes of the bytes it is sent under one chip select. -/
def decode (id : UInt8) : List UInt8 → Option Request
  | [] => none
  | op :: bytes =>
    if op = WRITE_ENABLE then some .writeEnable
    else if op = PAGE_PROGRAM then
      some (.pageProgram (addressOf id bytes) (addressSize id) (bytes.drop (addressSize id)))
    else if op = SECTOR_ERASE then some (.sectorErase (addressOf id bytes) (addressSize id))
    else none

def transmit (id : UInt8) (bytes : List UInt8) (c : Chip) : Chip :=
  match decode id bytes with
  | some q => c.request q
  | none => c

/-- What a run is given from outside: what `w25qxxx_wait_busy` returns, by the number of requests
made before, and what the uninitialised buffer holds when a part of a sector is written, by the
address of the part. -/
structure Env where
  waitBusy : Nat → Option Errno
  stack : Nat → Nat → UInt8

/-! ### The driver -/

/-- `w25qxxx_read_data`: the bytes `read_bytes` stores at `pdata`, none when it refuses. -/
def w25qxxxReadData (id : UInt8) (addr length : Nat) (c : Chip) : List UInt8 :=
  let remain := if w25qxxxGetMaxAddr id ≠ 0 then remain id addr else 0
  if remain < length ∨ remain = 0 then []
  else readMem c.mem (addressOf id (subAddr id addr)) (length % 2 ^ 8)

variable (env : Env) (id : UInt8)

def w25qxxxWaitBusy (timeout : Nat) (c : Chip) : Outcome Chip :=
  (env.waitBusy c.log.length, c.request (.readStatus timeout))

def w25qxxxPageProgram (addr : Nat) (pdata : List UInt8) (length : Nat) (c : Chip) :
    Outcome Chip :=
  if length = 0 then (some .einval, c)
  else w25qxxxWaitBusy env W25Q_PAGE_PROGRAM_TIMEOUT
    (transmit id (PAGE_PROGRAM :: subAddr id addr ++ writeBytes pdata length)
      (transmit id [WRITE_ENABLE] c))

def w25qxxxSectorErase (addr : Nat) (c : Chip) : Outcome Chip :=
  if ¬ w25qIsValid id then (some .einval, c)
  else
    match w25qxxxWaitBusy env W25Q_SECTOR_ERASE_TIMEOUT
      (transmit id (SECTOR_ERASE :: subAddr id addr) (transmit id [WRITE_ENABLE] c)) with
    | (some _, c) => (some .etimedout, c)
    | (none, c) => (none, c)

/-- `w25qxxx_multi_page_program`, on the page program of this transport. -/
def w25qxxxMultiPageProgram : Writer :=
  multiProgram W25Q_PAGE_SIZE (· % 2 ^ 8) (w25qxxxPageProgram env id) (w25qxxxPageProgram env id)

def w25qxxxProcessPartialSector (startAddr : Nat) (pdata : List UInt8) (length : Nat) (c : Chip) :
    Outcome Chip :=
  if length = 0 then (none, c)
  else
    let offset := startAddr % SECTOR_SIZE
    let addr := startAddr - offset
    let sector := overlay (env.stack startAddr) offset (w25qxxxReadData id startAddr length c)
    if (readMem sector offset length).any (· ≠ 0xFF) then
      let sector := overlay sector 0 (w25qxxxReadData id addr offset c)
      let sector := overlay sector (offset + length)
        (w25qxxxReadData id ((startAddr + length) % 2 ^ 32) (SECTOR_SIZE - offset - length) c)
      let sector := overlay sector offset (pdata.take length)
      (w25qxxxSectorErase env id addr c).andThen
        (w25qxxxMultiPageProgram env id addr (readMem sector 0 SECTOR_SIZE) SECTOR_SIZE)
    else w25qxxxMultiPageProgram env id startAddr pdata length c

/-- A sector written whole. -/
def programSector : Writer := fun addr pdata length c =>
  (w25qxxxSectorErase env id addr c).andThen (w25qxxxMultiPageProgram env id addr pdata length)

def w25qxxxMultiSectorProgram : Writer :=
  multiProgram SECTOR_SIZE (· % 2 ^ 32) (programSector env id)
    fun addr pdata length => w25qxxxProcessPartialSector env id addr pdata (length % 2 ^ 16)

def w25qxxxWriteData (addr : Nat) (pdata : Option (List UInt8)) (length : Nat) (c : Chip) :
    Ret × Chip :=
  let length := length % 2 ^ 16
  match pdata with
  | none => (.int (some .einval), c)
  | some pdata =>
    if length = 0 then (.int (some .einval), c)
    else if w25qxxxGetMaxAddr id = 0 then (.int (some .einval), c)
    else if remain id addr < length then (.int (some .enospc), c)
    else
      let (e, c) := w25qxxxMultiSectorProgram env id addr pdata length c
      (.int e, c)

/-! ### What the chip is asked for -/

variable {env id}

/-- The address bytes are those of a QSPI request. -/
theorem subAddr_eq (id : UInt8) (addr : Nat) :
    subAddr id addr = (leBytes (addressSize id) addr).reverse := by
  rw [subAddr, addressSize]
  split <;> simp [leBytes, Nat.div_div_eq_div_mul]

theorem length_subAddr (id : UInt8) (addr : Nat) : (subAddr id addr).length = addressSize id := by
  rw [subAddr_eq, List.length_reverse, length_leBytes]

theorem addressOf_subAddr (id : UInt8) (addr : Nat) (bytes : List UInt8) :
    addressOf id (subAddr id addr ++ bytes) = wire addr (addressSize id) := by
  rw [addressOf, List.take_left' (length_subAddr id addr), subAddr_eq, List.reverse_reverse,
    leNat_leBytes, wire]

theorem wire_wire (addr n : Nat) : wire (wire addr n) n = wire addr n := Nat.mod_mod addr _

theorem transmit_pageProgram (addr : Nat) (data : List UInt8) (c : Chip) :
    transmit id (PAGE_PROGRAM :: subAddr id addr ++ data) c =
      c.request (.pageProgram (wire addr (addressSize id)) (addressSize id) data) := by
  show c.request (.pageProgram (addressOf id (subAddr id addr ++ data)) (addressSize id)
    ((subAddr id addr ++ data).drop (addressSize id))) = _
  rw [addressOf_subAddr, List.drop_left' (length_subAddr id addr)]

theorem transmit_sectorErase (addr : Nat) (c : Chip) :
    transmit id (SECTOR_ERASE :: subAddr id addr) c =
      c.request (.sectorErase (wire addr (addressSize id)) (addressSize id)) := by
  have haddr := addressOf_subAddr id addr []
  rw [List.append_nil] at haddr
  show c.request (.sectorErase (addressOf id (subAddr id addr)) (addressSize id)) = _
  rw [haddr]

/-! ### What a write leaves -/

/-- A page program sends the length modulo 256. -/
def pageEffect : Effect UInt8 := fun mem addr data =>
  program W25Q_PAGE_SIZE mem addr (writeBytes data data.length)

/-- The bytes the check of a part of a sector looks at: those the read moved, and then what the
buffer held. -/
def checked (stack mem : Nat → UInt8) (addr length : Nat) : List UInt8 :=
  readMem mem addr (length % 2 ^ 8) ++
    readMem stack (addr % SECTOR_SIZE + length % 2 ^ 8) (length - length % 2 ^ 8)

/-- The sector is erased and stays so, or the part is programmed page by page. -/
def sectorEffect (stack : Nat → Nat → UInt8) : Effect UInt8 := fun mem addr data =>
  if data.length = SECTOR_SIZE ∨ (checked (stack addr) mem addr data.length).any (· ≠ 0xFF) then
    erase SECTOR_SIZE mem addr
  else unitwise W25Q_PAGE_SIZE pageEffect mem addr data

/-- No wait for the chip times out. -/
def Env.Prompt (env : Env) : Prop := ∀ n, env.waitBusy n = none

theorem composes_unitwise {unit : Nat} {E : Effect UInt8} (hE : LocalTo unit E) (hunit : 0 < unit) :
    Composes unit (fun _ _ _ => True) (unitwise unit E) where
  nil _ _ := unitwise_nil E
  append d₁ d₂ hcut := unitwise_append hE hunit d₁ d₂ hcut
  front _ := trivial
  back _ := trivial

theorem localTo_page : LocalTo W25Q_PAGE_SIZE pageEffect where
  outside _ hout := if_neg hout
  inside _ hin hsame := by
    rw [pageEffect, pageEffect, program, program, hsame _ hin]

/-- **The pages of a write**: a page that is written whole stays as it was, and in the others the
data is programmed. -/
theorem pages_eq (mem : Nat → UInt8) (addr : Nat) (data : List UInt8) (a : Nat) :
    unitwise W25Q_PAGE_SIZE pageEffect mem addr data a =
      if addr ≤ a / 256 * 256 ∧ a / 256 * 256 + 256 ≤ addr + data.length then mem a
      else mem a &&& overlay (fun _ => 0xFF) addr data a := by
  have hunit : 0 < W25Q_PAGE_SIZE := by decide
  have hsize : W25Q_PAGE_SIZE = 256 := rfl
  rw [unitwise]
  by_cases hmeet : unitStart W25Q_PAGE_SIZE addr a < unitEnd W25Q_PAGE_SIZE addr data.length a
  · have hlen := length_unitPart hmeet
    have hfit := unitPart_fits hmeet
    rw [if_pos hmeet, pageEffect]
    split
    · -- 256 bytes, and the transport takes their number modulo 256
      rename_i hwhole
      have hzero : (unitPart W25Q_PAGE_SIZE addr data a).length % 2 ^ 8 = 0 := by
        rw [hlen, unitStart, unitEnd, hsize]
        omega
      rw [writeBytes, hzero, List.take_zero, program_eq_and (by rw [List.length_nil]; omega),
        overlay_nil]
      exact UInt8.and_neg_one
    · have hself : writeBytes (unitPart W25Q_PAGE_SIZE addr data a)
          (unitPart W25Q_PAGE_SIZE addr data a).length = unitPart W25Q_PAGE_SIZE addr data a := by
        have hlt : (unitPart W25Q_PAGE_SIZE addr data a).length < 2 ^ 8 := by
          rw [hlen]
          rw [unitStart, unitEnd, hsize] at *
          omega
        rw [writeBytes, Nat.mod_eq_of_lt hlt, List.take_length]
      rw [hself, program_eq_and hfit]
      exact congrArg _ (overlay_unitPart hunit _)
  · rw [if_neg hmeet, overlay_of_not_meet hunit hmeet, if_neg]
    · exact UInt8.and_neg_one.symm
    · rw [unitStart, unitEnd, hsize] at hmeet
      omega

variable {mem : Nat → UInt8} {addr a n : Nat} {data : List UInt8}

/-- The bytes that are not written stay. -/
theorem pages_of_notMem (h : ¬ (addr ≤ a ∧ a < addr + data.length)) :
    unitwise W25Q_PAGE_SIZE pageEffect mem addr data a = mem a := by
  rw [pages_eq, overlay_of_notMem h]
  split
  · rfl
  · exact UInt8.and_neg_one

/-- Of a sector that is programmed whole, no page is. -/
theorem pages_sector (haddr : addr % SECTOR_SIZE = 0) (hlen : data.length = SECTOR_SIZE) :
    unitwise W25Q_PAGE_SIZE pageEffect mem addr data = mem := by
  funext a
  by_cases hin : addr ≤ a ∧ a < addr + data.length
  · rw [pages_eq, if_pos]
    rw [SECTOR_SIZE] at *
    omega
  · exact pages_of_notMem hin

theorem readMem_congr {mem' : Nat → UInt8} (h : ∀ b, addr ≤ b → b < addr + n → mem b = mem' b) :
    readMem mem addr n = readMem mem' addr n :=
  List.map_congr_left fun i hi => h _ (by omega) (by have := List.mem_range.mp hi; omega)

theorem localTo_sector (stack : Nat → Nat → UInt8) : LocalTo SECTOR_SIZE (sectorEffect stack) where
  outside := by
    intro mem addr data a hfit hout
    rw [sectorEffect]
    split
    · exact if_neg hout
    · refine pages_of_notMem fun hin => hout ?_
      rw [SECTOR_SIZE] at *
      omega
  inside := by
    intro mem mem' addr data a hfit hin hsame
    have hread : readMem mem addr (data.length % 2 ^ 8) = readMem mem' addr (data.length % 2 ^ 8) := by
      refine readMem_congr fun b hle hlt => hsame b ?_
      rw [SECTOR_SIZE] at *
      omega
    rw [sectorEffect, sectorEffect, checked, checked, hread]
    split
    · rw [erase, erase, if_pos hin, if_pos hin]
    · rw [pages_eq, pages_eq, hsame a hin]

/-! ### The driver leaves it -/

section Prompt

variable (hprompt : env.Prompt) (hid : w25qIsValid id)
include hid

variable {length : Nat} {pdata : List UInt8}

theorem readData_eq (c : Chip) (h : addr + length ≤ capacity id) :
    w25qxxxReadData id addr length c = readMem c.mem addr (length % 2 ^ 8) := by
  have haddr := addressOf_subAddr id addr []
  rw [List.append_nil] at haddr
  rw [w25qxxxReadData]
  simp only [if_pos (capacity_le hid).2.2.2, remain_of_le hid (show addr ≤ capacity id by omega)]
  split
  · have hzero : length = 0 := by omega
    rw [hzero]
    rfl
  · rw [haddr, wire_of_lt hid (by omega)]

include hprompt

/-- A page program, of at most a page. -/
theorem pageProgram_leaves (c : Chip) (hpos : 0 < length) (hlen : length ≤ pdata.length)
    (hfit : addr % W25Q_PAGE_SIZE + length ≤ W25Q_PAGE_SIZE) (hend : addr + length ≤ capacity id) :
    Leaves (w25qxxxPageProgram env id addr pdata length c)
      (unitwise W25Q_PAGE_SIZE pageEffect c.mem addr (pdata.take length)) := by
  have htake : (pdata.take length).length = length := List.length_take_of_le hlen
  have hsent : writeBytes (pdata.take length) length = writeBytes pdata length := by
    rw [writeBytes, writeBytes, List.take_take, Nat.min_eq_left (Nat.mod_le _ _)]
  rw [w25qxxxPageProgram, if_neg (Nat.ne_of_gt hpos), transmit_pageProgram,
    unitwise_of_fits localTo_page (by decide) (by rw [htake]; exact hfit) (by rw [htake]; exact hpos),
    pageEffect, htake, hsent]
  refine ⟨hprompt _, ?_⟩
  show (if true then program W25Q_PAGE_SIZE c.mem
    (wire (wire addr (addressSize id)) (addressSize id)) (writeBytes pdata length) else c.mem) = _
  rw [if_pos rfl, wire_wire, wire_of_lt hid (by omega)]

theorem multiPageProgram_leaves (c : Chip) (hpos : 0 < length) (hmax : length < 2 ^ 16)
    (hlen : length ≤ pdata.length) (hend : addr + length ≤ capacity id) :
    Leaves (w25qxxxMultiPageProgram env id addr pdata length c)
      (unitwise W25Q_PAGE_SIZE pageEffect c.mem addr (pdata.take length)) := by
  have hunit : 0 < W25Q_PAGE_SIZE := by decide
  refine multiProgram_leaves (composes_unitwise localTo_page hunit) ?_ ?_ hunit (capacity_le hid).2.1
    (page_counters hmax) c hpos hlen hend trivial
  · intro addr pdata c hlen haddr hend _
    exact pageProgram_leaves hprompt hid c hunit hlen (by omega) hend
  · intro addr pdata length c hpos _ hlen hfit hend _
    exact pageProgram_leaves hprompt hid c hpos hlen hfit hend

theorem sectorErase_leaves (c : Chip) (hend : addr < capacity id) :
    Leaves (w25qxxxSectorErase env id addr c) (erase SECTOR_SIZE c.mem addr) := by
  rw [w25qxxxSectorErase, if_neg (Classical.not_not.mpr hid), transmit_sectorErase, w25qxxxWaitBusy, hprompt]
  refine ⟨rfl, ?_⟩
  show (if true then erase SECTOR_SIZE c.mem
    (wire (wire addr (addressSize id)) (addressSize id)) else c.mem) = _
  rw [if_pos rfl, wire_wire, wire_of_lt hid hend]

/-- A sector that is erased and programmed whole stays erased. -/
theorem programSector_leaves (c : Chip) (haddr : addr % SECTOR_SIZE = 0)
    (hlen : SECTOR_SIZE ≤ pdata.length) (hend : addr + SECTOR_SIZE ≤ capacity id) :
    Leaves (programSector env id addr pdata SECTOR_SIZE c) (erase SECTOR_SIZE c.mem addr) := by
  have hsize : 0 < SECTOR_SIZE := by decide
  refine Leaves.andThen (sectorErase_leaves hprompt hid c (by omega)) fun c' hc' => ?_
  have hpages := multiPageProgram_leaves hprompt hid c' hsize (by decide) hlen hend
  rw [pages_sector haddr (List.length_take_of_le hlen), hc'] at hpages
  exact hpages

/-- **A part of a sector.** -/
theorem processPartialSector_leaves (c : Chip) (hpos : 0 < length) (hpart : length < SECTOR_SIZE)
    (hlen : length ≤ pdata.length) (hend : addr + length ≤ capacity id) :
    Leaves (w25qxxxProcessPartialSector env id addr pdata length c)
      (sectorEffect env.stack c.mem addr (pdata.take length)) := by
  have htake : (pdata.take length).length = length := List.length_take_of_le hlen
  have hmod : length % 2 ^ 8 ≤ length := Nat.mod_le _ _
  have hsee : readMem (overlay (env.stack addr) (addr % SECTOR_SIZE)
      (readMem c.mem addr (length % 2 ^ 8))) (addr % SECTOR_SIZE) length =
        checked (env.stack addr) c.mem addr length := by
    rw [readMem_overlay_append _ _ (by rw [length_readMem]; exact hmod), length_readMem, checked]
  rw [w25qxxxProcessPartialSector, if_neg (Nat.ne_of_gt hpos), readData_eq hid c hend]
  simp only [hsee]
  rw [sectorEffect, htake]
  split
  · -- the sector is erased, and what is written back does not reach the chip
    rename_i hdirty
    rw [if_pos (.inr hdirty)]
    obtain ⟨hbase, hlast⟩ := sector_base hid (show addr < capacity id by omega)
    have hsector : erase SECTOR_SIZE c.mem addr =
        erase SECTOR_SIZE c.mem (addr - addr % SECTOR_SIZE) := by
      have hdiv : (addr - addr % SECTOR_SIZE) / SECTOR_SIZE = addr / SECTOR_SIZE := by
        rw [SECTOR_SIZE]
        omega
      funext a
      rw [erase, erase, hdiv]
    rw [hsector]
    exact programSector_leaves hprompt hid c hbase (Nat.le_of_eq (length_readMem _ _ _).symm) hlast
  · rename_i hclean
    rw [if_neg (not_or.mpr ⟨Nat.ne_of_lt hpart, hclean⟩)]
    exact multiPageProgram_leaves hprompt hid c hpos (by rw [SECTOR_SIZE] at hpart; omega) hlen hend

theorem multiSectorProgram_leaves (c : Chip) (hpos : 0 < length) (hlen : length ≤ pdata.length)
    (hend : addr + length ≤ capacity id) :
    Leaves (w25qxxxMultiSectorProgram env id addr pdata length c)
      (unitwise SECTOR_SIZE (sectorEffect env.stack) c.mem addr (pdata.take length)) := by
  have hcap := (capacity_le hid).2.1
  have hunit : 0 < SECTOR_SIZE := by decide
  have hlocal := localTo_sector env.stack
  refine multiProgram_leaves (composes_unitwise hlocal hunit) ?_ ?_ hunit hcap
    (sector_counters (by omega)) c hpos hlen hend trivial
  · intro addr pdata c hlen haddr hend _
    have htake : (pdata.take SECTOR_SIZE).length = SECTOR_SIZE := List.length_take_of_le hlen
    rw [unitwise_of_fits hlocal hunit (by omega) (by omega), sectorEffect, if_pos (.inl htake)]
    exact programSector_leaves hprompt hid c haddr hlen hend
  · intro addr pdata length c hpos hpart hlen hfit hend _
    have htake : (pdata.take length).length = length := List.length_take_of_le hlen
    have hmax : length % 2 ^ 16 = length := by
      rw [SECTOR_SIZE] at hpart
      exact Nat.mod_eq_of_lt (by omega)
    show Leaves (w25qxxxProcessPartialSector env id addr pdata (length % 2 ^ 16) c) _
    rw [unitwise_of_fits hlocal hunit (by omega) (by omega), hmax]
    exact processPartialSector_leaves hprompt hid c hpos hpart hlen hend

/-- **A write inside the capacity** leaves what its sectors are left with. -/
theorem writeData_leaves (c : Chip) (hmax : length < 2 ^ 16) (hlen : length ≤ pdata.length)
    (hend : addr + length ≤ capacity id) :
    (w25qxxxWriteData env id addr (some pdata) length c).2.mem =
      unitwise SECTOR_SIZE (sectorEffect env.stack) c.mem addr (pdata.take length) := by
  rw [w25qxxxWriteData]
  simp only [Nat.mod_eq_of_lt hmax]
  split
  · rename_i hzero
    rw [hzero, List.take_zero, unitwise_nil]
  · rename_i hpos
    rw [if_neg (capacity_le hid).2.2.2, remain_of_le hid (by omega), if_neg (by omega)]
    exact (multiSectorProgram_leaves hprompt hid c (by omega) hlen hend).2

end Prompt

/-! ### The two transports -/

/-- The part `[lo, hi)` of a write, in its sector, leaves `new` of the bytes `mem`.  A sector that is
erased stays erased, so it has to be all ones; otherwise a page that is written whole has to hold
the data already, and elsewhere the data has to clear bits only. -/
def SectorAgrees (stack : Nat → Nat → UInt8) (mem new : Nat → UInt8) (lo hi : Nat) : Prop :=
  if hi - lo = SECTOR_SIZE ∨ (checked (stack lo) mem lo (hi - lo)).any (· ≠ 0xFF) then
    ∀ a, a / SECTOR_SIZE = lo / SECTOR_SIZE → new a = 0xFF
  else ∀ a, lo ≤ a → a < hi →
    if lo ≤ a / 256 * 256 ∧ a / 256 * 256 + 256 ≤ hi then mem a = new a else mem a &&& new a = new a

theorem sectorEffect_eq_iff (stack : Nat → Nat → UInt8) (mem : Nat → UInt8)
    (hmeet : unitStart SECTOR_SIZE addr a < unitEnd SECTOR_SIZE addr data.length a) :
    (∀ b, b / SECTOR_SIZE = a / SECTOR_SIZE →
      sectorEffect stack mem (unitStart SECTOR_SIZE addr a) (unitPart SECTOR_SIZE addr data a) b =
        overlay mem addr data b) ↔
      SectorAgrees stack mem (overlay mem addr data) (unitStart SECTOR_SIZE addr a)
        (unitEnd SECTOR_SIZE addr data.length a) := by
  have hunit : 0 < SECTOR_SIZE := by decide
  have hdiv := div_unitStart hmeet
  have hlen := length_unitPart hmeet
  have hlast := Nat.add_sub_cancel' (Nat.le_of_lt hmeet)
  rw [SectorAgrees, sectorEffect, hlen, hdiv]
  split
  · refine forall_congr' fun b => forall_congr' fun hb => ?_
    rw [erase, if_pos (hb.trans hdiv.symm)]
    exact eq_comm
  · have hpages : ∀ b, b / SECTOR_SIZE = a / SECTOR_SIZE →
        unitwise W25Q_PAGE_SIZE pageEffect mem (unitStart SECTOR_SIZE addr a)
          (unitPart SECTOR_SIZE addr data a) b =
        if unitStart SECTOR_SIZE addr a ≤ b / 256 * 256 ∧
            b / 256 * 256 + 256 ≤ unitEnd SECTOR_SIZE addr data.length a then mem b
        else mem b &&& overlay (fun _ => 0xFF) addr data b := by
      intro b hb
      have hover : overlay (fun _ => (0xFF : UInt8)) (unitStart SECTOR_SIZE addr b)
          (unitPart SECTOR_SIZE addr data b) b = overlay (fun _ => 0xFF) addr data b :=
        overlay_unitPart hunit _
      rw [unitPart, unitStart, unitEnd, hb, ← unitStart, ← unitEnd, ← unitPart] at hover
      rw [pages_eq, hlen, hlast, hover]
    have hrange : ∀ b, (unitStart SECTOR_SIZE addr a ≤ b ∧ b < unitEnd SECTOR_SIZE addr data.length a) →
        addr ≤ b ∧ b < addr + data.length ∧ b / SECTOR_SIZE = a / SECTOR_SIZE := by
      rintro b ⟨hle, hlt⟩
      rw [unitStart] at hle
      rw [unitEnd] at hlt
      exact ⟨by omega, by omega, div_eq_of_mem_unit (by omega) (by omega)⟩
    have heq : ∀ b (_ : unitStart SECTOR_SIZE addr a ≤ b ∧
        b < unitEnd SECTOR_SIZE addr data.length a),
        (unitwise W25Q_PAGE_SIZE pageEffect mem (unitStart SECTOR_SIZE addr a)
          (unitPart SECTOR_SIZE addr data a) b = overlay mem addr data b ↔
        if unitStart SECTOR_SIZE addr a ≤ b / 256 * 256 ∧
            b / 256 * 256 + 256 ≤ unitEnd SECTOR_SIZE addr data.length a then
          mem b = overlay mem addr data b
        else mem b &&& overlay mem addr data b = overlay mem addr data b) := by
      intro b hin
      obtain ⟨hlo, hhi, hb⟩ := hrange b hin
      rw [hpages b hb, overlay_of_mem mem ⟨hlo, hhi⟩]
      split <;> exact Iff.rfl
    constructor
    · intro h b hle hlt
      exact (heq b ⟨hle, hlt⟩).mp (h b (hrange b ⟨hle, hlt⟩).2.2)
    · intro h b hb
      by_cases hin : unitStart SECTOR_SIZE addr a ≤ b ∧ b < unitEnd SECTOR_SIZE addr data.length a
      · exact (heq b hin).mpr (h b hin.1 hin.2)
      · -- a byte of the sector that is not written
        have hmem := unit_mem hunit b
        have hout : ¬ (addr ≤ b ∧ b < addr + data.length) := by
          rw [unitStart, unitEnd, ← hb] at hin
          omega
        rw [hpages b hb, overlay_of_notMem hout, overlay_of_notMem hout]
        split
        · rfl
        · exact UInt8.and_neg_one

/-- A write leaves the same when every sector it meets does. -/
theorem unitwise_eq_overlay_iff (stack : Nat → Nat → UInt8) (mem : Nat → UInt8) (addr : Nat)
    (data : List UInt8) :
    unitwise SECTOR_SIZE (sectorEffect stack) mem addr data = overlay mem addr data ↔
      ∀ a, unitStart SECTOR_SIZE addr a < unitEnd SECTOR_SIZE addr data.length a →
        SectorAgrees stack mem (overlay mem addr data) (unitStart SECTOR_SIZE addr a)
          (unitEnd SECTOR_SIZE addr data.length a) := by
  constructor
  · intro h a hmeet
    refine (sectorEffect_eq_iff stack mem hmeet).mp fun b hb => ?_
    have hat := congrFun h b
    have hsame : unitStart SECTOR_SIZE addr b = unitStart SECTOR_SIZE addr a ∧
        unitEnd SECTOR_SIZE addr data.length b = unitEnd SECTOR_SIZE addr data.length a := by
      rw [unitStart, unitStart, unitEnd, unitEnd, hb]
      exact ⟨rfl, rfl⟩
    rw [unitwise, unitPart, hsame.1, hsame.2, if_pos hmeet] at hat
    exact hat
  · intro h
    funext a
    rw [unitwise]
    split
    · rename_i hmeet
      exact (sectorEffect_eq_iff stack mem hmeet).mpr (h a hmeet) a rfl
    · rename_i hmeet
      exact (overlay_of_not_meet (by decide) hmeet).symm

/-- A read stores the same when the bytes it does not move are there already. -/
theorem filled_eq_iff {m : Nat} {buf : List UInt8} (hmn : m ≤ n) (hbuf : n ≤ buf.length) :
    filled buf (readMem mem addr m) = filled buf (readMem mem addr n) ↔
      ∀ k, m ≤ k → k < n → buf[k]? = some (mem (addr + k)) := by
  rw [filled, filled, length_readMem, length_readMem, List.ext_getElem?_iff]
  have hget : ∀ j i, j ≤ buf.length → (readMem mem addr j ++ buf.drop j)[i]? =
      if i < j then some (mem (addr + i)) else buf[i]? := by
    intro j i hj
    rw [List.getElem?_append, length_readMem, getElem?_readMem, List.getElem?_drop]
    split
    · rfl
    · rw [Nat.add_sub_cancel' (by omega)]
  constructor
  · intro h k hle hlt
    have hk := h k
    rw [hget m k (by omega), hget n k hbuf, if_neg (by omega), if_pos hlt] at hk
    exact hk
  · intro h k
    rw [hget m k (by omega), hget n k hbuf]
    split
    · rw [if_pos (by omega)]
    · split
      · rename_i hle hlt
        exact h k (by omega) hlt
      · rfl

/-- **The two transports.**  On a chip that answers in time, inside its capacity: a read stores what
it stores on QSPI exactly when the bytes past the length modulo 256 are in the buffer already, and a
write leaves the flash as it does on QSPI exactly when every sector it meets agrees. -/
theorem transports_agree_iff (qspi : W25q.Env) (env : Env) (id : UInt8) (addr length : Nat)
    (c : Chip) (hqspi : qspi.Prompt) (hspi : env.Prompt) (hid : w25qIsValid id)
    (hend : addr + length ≤ capacity id) :
    (∀ buf : List UInt8, length ≤ buf.length →
      (filled buf (w25qxxxReadData id addr length c) =
          filled buf (W25q.w25qxxxReadData id addr length c).2.1 ↔
        ∀ k, length % 2 ^ 8 ≤ k → k < length → buf[k]? = some (c.mem (addr + k)))) ∧
    ∀ pdata : List UInt8, length < 2 ^ 16 → length ≤ pdata.length →
      ((w25qxxxWriteData env id addr (some pdata) length c).2.mem =
          (W25q.w25qxxxWriteData qspi id addr (some pdata) length c).2.mem ↔
        ∀ a, unitStart SECTOR_SIZE addr a < unitEnd SECTOR_SIZE addr length a →
          SectorAgrees env.stack c.mem (overlay c.mem addr (pdata.take length))
            (unitStart SECTOR_SIZE addr a) (unitEnd SECTOR_SIZE addr length a)) := by
  refine ⟨fun buf hbuf => ?_, fun pdata hmax hlen => ?_⟩
  · obtain ⟨c', hread, -⟩ := readData_spec hid c hend
    rw [readData_eq hid c hend, hread]
    exact filled_eq_iff (Nat.mod_le _ _) hbuf
  · have hiff := unitwise_eq_overlay_iff env.stack c.mem addr (pdata.take length)
    rw [List.length_take_of_le hlen] at hiff
    rw [writeData_leaves hspi hid c hmax hlen hend, writeData_mem hqspi hid c hmax hlen hend]
    exact hiff

/-- A chip that is never slow, and a stack of ones. -/
def spiEnv : Env := ⟨fun _ => none, fun _ _ => 0xFF⟩

theorem spiEnv_prompt : spiEnv.Prompt := fun _ => rfl

theorem promptEnv_prompt : promptEnv.Prompt := fun _ => rfl

/-- An erased chip, and two bytes: a short transfer is the same. -/
theorem transports_agree_short :
    filled [0, 0] (w25qxxxReadData W25Q64 0 2 ⟨fun _ => 0xFF, false, []⟩) =
        filled [0, 0] (W25q.w25qxxxReadData W25Q64 0 2 ⟨fun _ => 0xFF, false, []⟩).2.1 ∧
      (w25qxxxWriteData spiEnv W25Q64 0 (some [0x5A, 0xA5]) 2 ⟨fun _ => 0xFF, false, []⟩).2.mem =
        (W25q.w25qxxxWriteData promptEnv W25Q64 0 (some [0x5A, 0xA5]) 2
          ⟨fun _ => 0xFF, false, []⟩).2.mem := by
  obtain ⟨hread, hwrite⟩ := transports_agree_iff promptEnv spiEnv W25Q64 0 2
    ⟨fun _ => 0xFF, false, []⟩ promptEnv_prompt spiEnv_prompt (by decide) (by decide)
  refine ⟨(hread [0, 0] (by decide)).mpr fun k hle hlt => ?_,
    (hwrite [0x5A, 0xA5] (by decide) (by decide)).mpr fun a ha => ?_⟩
  · exact absurd hlt (Nat.not_lt.mpr hle)
  · -- the two bytes are in the first sector, and in a page that is not written whole
    rw [unitStart, unitEnd, SECTOR_SIZE] at *
    have hzero : a / 4096 = 0 := by omega
    rw [hzero, SectorAgrees, if_neg (by decide)]
    intro b _ hb
    rw [if_neg (by omega)]
    exact UInt8.neg_one_and

/-- A byte written over another one: on SPI the sector is erased, and nothing is written back. -/
theorem rewrite_erases :
    (w25qxxxWriteData spiEnv W25Q64 0 (some [0x5A]) 1 ⟨fun _ => 0, false, []⟩).2.mem 0 = 0xFF ∧
      (W25q.w25qxxxWriteData promptEnv W25Q64 0 (some [0x5A]) 1 ⟨fun _ => 0, false, []⟩).2.mem 0 =
        0x5A := by
  rw [writeData_leaves spiEnv_prompt (by decide) _ (by decide) (by decide) (by decide),
    writeData_mem promptEnv_prompt (by decide) _ (by decide) (by decide) (by decide)]
  decide

end Kinetis.W25q.Spi
