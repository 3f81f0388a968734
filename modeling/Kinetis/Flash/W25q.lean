import Kinetis.Lib.Nor
import Kinetis.Lib.Units
import Kinetis.Lib.Words
import Kinetis.Platform.Files

/-!
# Flash — the W25Qxx serial flash driver

`w25qxxx_read_data` and `w25qxxx_write_data` of `drivers/kinetis/w25qxxx.c`, on the QSPI
transport.  A write is split at the 4 KB sectors and, inside a sector, at the 256-byte pages.  A
sector that is written whole is erased and programmed; a part of a sector is programmed as it is
when its bytes are erased, and is otherwise read, modified, erased and written back.

The transport is the chip and a log of the requests asked of it.  The chip takes the low bytes of
an address, as many as the request carries, and erases and programs only after a write enable.

* `writeData_stores`: on every chip, a write inside the capacity stores the data and changes no
  other byte.
* `past_end_refused`: at an address of the chip, a transfer over its end asks the chip for nothing.
-/

namespace Kinetis.W25q
open Lib

def W25Q_PAGE_SIZE : Nat := 256
def SECTOR_SIZE : Nat := 4096
def W25Q_PAGE_PROGRAM_TIMEOUT : Nat := 3000
def W25Q_SECTOR_ERASE_TIMEOUT : Nat := 400000

def W25Q64 : UInt8 := 0x16
def W25Q128 : UInt8 := 0x17
def W25Q256 : UInt8 := 0x18
def W25Q512 : UInt8 := 0x19

def w25qIsValid (id : UInt8) : Bool := id = W25Q64 ∨ id = W25Q128 ∨ id = W25Q256 ∨ id = W25Q512

def w25qxxxGetMaxAddr (id : UInt8) : Nat :=
  if id = W25Q64 then 0x7FFFFF
  else if id = W25Q128 then 0xFFFFFF
  else if id = W25Q256 then 0x1FFFFFF
  else if id = W25Q512 then 0x3FFFFFF
  else 0

def w25qxxxNeed4byteAddr (id : UInt8) : Bool := id = W25Q256 ∨ id = W25Q512

/-- The bytes of the chip. -/
def capacity (id : UInt8) : Nat := w25qxxxGetMaxAddr id + 1

/-! ### The chip behind the transport -/

/-- A `qspi_request_block`, by its instruction. -/
inductive Request where
  | writeEnable
  | fastRead (addr addressSize length : Nat)
  | pageProgram (addr addressSize : Nat) (data : List UInt8)
  | sectorErase (addr addressSize : Nat)
  | readStatus (timeout : Nat)
  deriving DecidableEq, Repr

structure Chip where
  mem : Nat → UInt8
  /-- The write enable latch. -/
  wel : Bool
  log : List Request

/-- The address the chip sees. -/
def wire (addr addressSize : Nat) : Nat := addr % 256 ^ addressSize

def Chip.request (c : Chip) (q : Request) : Chip :=
  match q with
  | .writeEnable => { c with wel := true, log := c.log ++ [q] }
  | .fastRead .. => { c with log := c.log ++ [q] }
  | .readStatus .. => { c with log := c.log ++ [q] }
  | .pageProgram addr size data =>
    { mem := if c.wel then program W25Q_PAGE_SIZE c.mem (wire addr size) data else c.mem
      wel := false
      log := c.log ++ [q] }
  | .sectorErase addr size =>
    { mem := if c.wel then erase SECTOR_SIZE c.mem (wire addr size) else c.mem
      wel := false
      log := c.log ++ [q] }

/-- What a run is given from outside, by the number of requests made before: what
`w25qxxx_wait_busy` returns, and what an uninitialised buffer holds. -/
structure Env where
  waitBusy : Nat → Option Errno
  stack : Nat → Nat → UInt8

def addressSize (id : UInt8) : Nat := if w25qxxxNeed4byteAddr id then 4 else 3

/-! ### Read -/

/-- The `remain` of the range checks, a `u32`. -/
def remain (id : UInt8) (addr : Nat) : Nat :=
  (w25qxxxGetMaxAddr id + 2 ^ 32 - addr + 1) % 2 ^ 32

/-- What a function gives its caller back: nothing, or `0` or an error. -/
inductive Ret where
  | void
  | int (e : Option Errno)
  deriving DecidableEq, Repr

def Ret.isError : Ret → Bool
  | .int (some _) => true
  | _ => false

/-- `w25qxxx_read_data`: the bytes it stores at `pdata`, none when it refuses, and the chip. -/
def w25qxxxReadData (id : UInt8) (addr length : Nat) (c : Chip) : Ret × List UInt8 × Chip :=
  let remain := if w25qxxxGetMaxAddr id ≠ 0 then remain id addr else 0
  if remain < length ∨ remain = 0 then (.void, [], c)
  else (.void, readMem c.mem (wire addr (addressSize id)) length,
    c.request (.fastRead addr (addressSize id) length))

/-! ### Program and erase -/

variable (env : Env) (id : UInt8)

def w25qxxxWaitBusy (timeout : Nat) (c : Chip) : Outcome Chip :=
  (env.waitBusy c.log.length, c.request (.readStatus timeout))

def w25qxxxPageProgram (addr : Nat) (pdata : List UInt8) (length : Nat) (c : Chip) :
    Outcome Chip :=
  if length = 0 then (some .einval, c)
  else w25qxxxWaitBusy env W25Q_PAGE_PROGRAM_TIMEOUT
    ((c.request .writeEnable).request (.pageProgram addr (addressSize id) (pdata.take length)))

def w25qxxxSectorErase (addr : Nat) (c : Chip) : Outcome Chip :=
  if ¬ w25qIsValid id then (some .einval, c)
  else
    match w25qxxxWaitBusy env W25Q_SECTOR_ERASE_TIMEOUT
      ((c.request .writeEnable).request (.sectorErase addr (addressSize id))) with
    | (some _, c) => (some .etimedout, c)
    | (none, c) => (none, c)

abbrev Writer := Nat → List UInt8 → Nat → Chip → Outcome Chip

/-- The loop over the whole units, and the part after it. -/
def programUnits (unit : Nat) (whole part : Writer) :
    Nat → Nat → Nat → List UInt8 → Chip → Outcome Chip
  | 0, single, addr, pdata, c => if single ≠ 0 then part addr pdata single c else (none, c)
  | n + 1, single, addr, pdata, c =>
    (whole addr pdata unit c).andThen
      (programUnits unit whole part n single ((addr + unit) % 2 ^ 32) (pdata.drop unit))

/-- The split of a write at the units it runs over: pages of a sector, and sectors of the chip.
`narrow` is the width of the counters. -/
def multiProgram (unit : Nat) (narrow : Nat → Nat) (whole part : Writer) : Writer :=
  fun addr pdata length c =>
  let offset := narrow (addr % unit)
  let cnt := narrow (unit - offset)
  let numOfUnit := narrow (length / unit)
  let numOfSingle := narrow (length % unit)
  if offset = 0 then
    if numOfUnit = 0 then part addr pdata length c
    else programUnits unit whole part numOfUnit numOfSingle addr pdata c
  else if numOfUnit = 0 then
    if cnt < numOfSingle then
      (part addr pdata cnt c).andThen
        (part ((addr + cnt) % 2 ^ 32) (pdata.drop cnt) (narrow (numOfSingle - cnt)))
    else part addr pdata length c
  else
    let length := length - cnt
    (part addr pdata cnt c).andThen
      (programUnits unit whole part (narrow (length / unit)) (narrow (length % unit))
        ((addr + cnt) % 2 ^ 32) (pdata.drop cnt))

/-- `w25qxxx_multi_page_program`: the counters are `u8`. -/
def w25qxxxMultiPageProgram : Writer :=
  multiProgram W25Q_PAGE_SIZE (· % 2 ^ 8) (w25qxxxPageProgram env id) (w25qxxxPageProgram env id)

def w25qxxxProcessPartialSector (startAddr : Nat) (pdata : List UInt8) (length : Nat) (c : Chip) :
    Outcome Chip :=
  if length = 0 then (none, c)
  else
    let offset := startAddr % SECTOR_SIZE
    let addr := startAddr - offset
    let (_, old, c₁) := w25qxxxReadData id startAddr length c
    let sector := overlay (env.stack c.log.length) offset old
    if (readMem sector offset length).any (· ≠ 0xFF) then
      let (_, head, c₂) := w25qxxxReadData id addr offset c₁
      let sector := overlay sector 0 head
      let (_, tail, c₃) := w25qxxxReadData id ((startAddr + length) % 2 ^ 32)
        (SECTOR_SIZE - offset - length) c₂
      let sector := overlay sector (offset + length) tail
      let sector := overlay sector offset (pdata.take length)
      (w25qxxxSectorErase env id addr c₃).andThen
        (w25qxxxMultiPageProgram env id addr (readMem sector 0 SECTOR_SIZE) SECTOR_SIZE)
    else w25qxxxMultiPageProgram env id startAddr pdata length c₁

/-- A sector written whole. -/
def programSector : Writer := fun addr pdata length c =>
  (w25qxxxSectorErase env id addr c).andThen (w25qxxxMultiPageProgram env id addr pdata length)

/-- `w25qxxx_multi_sector_program`: the counters are `u32`, and a part's length is passed as a
`u16`. -/
def w25qxxxMultiSectorProgram : Writer :=
  multiProgram SECTOR_SIZE (· % 2 ^ 32) (programSector env id)
    fun addr pdata length => w25qxxxProcessPartialSector env id addr pdata (length % 2 ^ 16)

/-- `w25qxxx_write_data`: the length is passed as a `u16`. -/
def w25qxxxWriteData (addr : Nat) (pdata : Option (List UInt8)) (length : Nat) (c : Chip) :
    Ret × Chip :=
  let length := length % 2 ^ 16
  match pdata with
  | none => (.int (some .einval), c)
  | some pdata =>
    if length = 0 then (.int (some .einval), c)
    else if w25qxxxGetMaxAddr id = 0 then (.int (some .einval), c)
    else if remain id addr < length then (.int (some .enospc), c)
    else
      let (e, c) := w25qxxxMultiSectorProgram env id addr pdata length c
      (.int e, c)

/-! ### What each function writes -/

/-- The function succeeds, and leaves the bytes `mem`. -/
def Leaves (q : Outcome Chip) (mem : Nat → UInt8) : Prop := q.1 = none ∧ q.2.mem = mem

variable {env id}

variable {q : Outcome Chip} {f : Chip → Outcome Chip} {mem : Nat → UInt8} {addr n length : Nat}
  {pdata : List UInt8}

theorem Leaves.andThen {mem' : Nat → UInt8} (hq : Leaves q mem)
    (hf : ∀ c, c.mem = mem → Leaves (f c) mem') : Leaves (q.andThen f) mem' := by
  obtain ⟨e, c⟩ := q
  obtain ⟨rfl, hmem⟩ := hq
  exact hf c hmem

theorem Leaves.eq_ok (h : Leaves q mem) : ∃ c, q = (none, c) ∧ c.mem = mem := by
  obtain ⟨e, c⟩ := q
  obtain ⟨rfl, hmem⟩ := h
  exact ⟨c, rfl, hmem⟩

/-- On the chips of capacity `cap`, inside one unit, where `Ready` holds of the bytes written to:
`f` writes the first `length` bytes at `pdata`. -/
def Stores (cap unit : Nat) (Ready : (Nat → UInt8) → Nat → Nat → Prop) (f : Writer) : Prop :=
  ∀ addr pdata length c, 0 < length → length ≤ pdata.length → addr % unit + length ≤ unit →
    addr + length ≤ cap → Ready c.mem addr length →
    Leaves (f addr pdata length c) (overlay c.mem addr (pdata.take length))

/-- `f` writes a whole unit. -/
def StoresUnit (cap unit : Nat) (Ready : (Nat → UInt8) → Nat → Nat → Prop) (f : Writer) : Prop :=
  ∀ addr pdata c, unit ≤ pdata.length → addr % unit = 0 → addr + unit ≤ cap →
    Ready c.mem addr unit →
    Leaves (f addr pdata unit c) (overlay c.mem addr (pdata.take unit))

/-- What `Ready` has to satisfy: it holds of the parts of a range, also after the parts before
them are written. -/
structure Splits (Ready : (Nat → UInt8) → Nat → Nat → Prop) : Prop where
  front : ∀ {mem addr m n}, Ready mem addr (m + n) → Ready mem addr m
  back : ∀ {mem addr n} {data : List UInt8}, Ready mem addr (data.length + n) →
    Ready (overlay mem addr data) (addr + data.length) n

theorem splits_erased : Splits Erased where
  front h := fun a ha hlt => h a ha (by omega)
  back h := (h.sub (Nat.le_refl _)).overlay

theorem splits_any : Splits fun _ _ _ => True := ⟨fun _ => trivial, fun _ => trivial⟩

/-- `Stores`, for a write of less than a unit that leaves `F`. -/
def StoresBy (F : Effect UInt8) (cap unit : Nat) (Ready : (Nat → UInt8) → Nat → Nat → Prop)
    (f : Writer) : Prop :=
  ∀ addr pdata length c, 0 < length → length < unit → length ≤ pdata.length →
    addr % unit + length ≤ unit → addr + length ≤ cap → Ready c.mem addr length →
    Leaves (f addr pdata length c) (F c.mem addr (pdata.take length))

theorem Stores.by_overlay {cap unit : Nat} {Ready : (Nat → UInt8) → Nat → Nat → Prop} {f : Writer}
    (h : Stores cap unit Ready f) : StoresBy overlay cap unit Ready f :=
  fun addr pdata length c hpos _ => h addr pdata length c hpos

/-- `StoresUnit`, for a write that leaves `F`. -/
def StoresUnitBy (F : Effect UInt8) (cap unit : Nat) (Ready : (Nat → UInt8) → Nat → Nat → Prop)
    (f : Writer) : Prop :=
  ∀ addr pdata c, unit ≤ pdata.length → addr % unit = 0 → addr + unit ≤ cap →
    Ready c.mem addr unit → Leaves (f addr pdata unit c) (F c.mem addr (pdata.take unit))

/-- What `F` and `Ready` have to satisfy for a write to be split at the units. -/
structure Composes (unit : Nat) (Ready : (Nat → UInt8) → Nat → Nat → Prop) (F : Effect UInt8) :
    Prop where
  nil : ∀ mem addr, F mem addr [] = mem
  append : ∀ {mem addr} (d₁ d₂ : List UInt8), (addr + d₁.length) % unit = 0 →
    F (F mem addr d₁) (addr + d₁.length) d₂ = F mem addr (d₁ ++ d₂)
  front : ∀ {mem addr m n}, Ready mem addr (m + n) → Ready mem addr m
  back : ∀ {mem addr n} {data : List UInt8}, Ready mem addr (data.length + n) →
    Ready (F mem addr data) (addr + data.length) n

theorem Splits.composes {unit : Nat} {Ready : (Nat → UInt8) → Nat → Nat → Prop}
    (hs : Splits Ready) : Composes unit Ready overlay where
  nil mem addr := overlay_nil mem addr
  append d₁ d₂ _ := overlay_append _ _ d₁ d₂
  front := hs.front
  back := hs.back

section Split

variable {cap unit : Nat} {Ready : (Nat → UInt8) → Nat → Nat → Prop} {whole part : Writer}
  {F : Effect UInt8}

/-- A write of the first `m` bytes, up to the start of a unit, and one of the `n` bytes after
them. -/
theorem Leaves.andRest (hs : Composes unit Ready F) {m : Nat}
    {c : Chip} (hlen : m ≤ pdata.length)
    (hcut : (addr + m) % unit = 0) (hready : Ready c.mem addr (m + n))
    (hq : Leaves q (F c.mem addr (pdata.take m)))
    (hf : ∀ c', Ready c'.mem (addr + m) n →
      Leaves (f c') (F c'.mem (addr + m) ((pdata.drop m).take n))) :
    Leaves (q.andThen f) (F c.mem addr (pdata.take (m + n))) := by
  have htake : (pdata.take m).length = m := List.length_take_of_le hlen
  refine hq.andThen fun c' hc' => ?_
  have hback : Ready (F c.mem addr (pdata.take m)) (addr + (pdata.take m).length) n :=
    hs.back (by rw [htake]; exact hready)
  have happend : F (F c.mem addr (pdata.take m)) (addr + (pdata.take m).length)
      ((pdata.drop m).take n) = F c.mem addr (pdata.take m ++ (pdata.drop m).take n) :=
    hs.append _ _ (by rw [htake]; exact hcut)
  rw [htake] at hback happend
  rw [List.take_add, ← happend, ← hc']
  rw [← hc'] at hback
  exact hf c' hback

/-- **The loop over the units** writes them and the part after them. -/
theorem programUnits_leaves (hs : Composes unit Ready F)
    (hwhole : StoresUnitBy F cap unit Ready whole) (hpart : StoresBy F cap unit Ready part)
    (hcap : cap < 2 ^ 32) (n : Nat) {single : Nat} (c : Chip) (hsingle : single < unit)
    (haddr : addr % unit = 0) (pdata : List UInt8) (hlen : unit * n + single ≤ pdata.length)
    (hend : addr + (unit * n + single) ≤ cap) (hready : Ready c.mem addr (unit * n + single)) :
    Leaves (programUnits unit whole part n single addr pdata c)
      (F c.mem addr (pdata.take (unit * n + single))) := by
  induction n generalizing addr pdata c with
  | zero =>
    rw [Nat.mul_zero, Nat.zero_add] at *
    rw [programUnits]
    split
    · exact hpart addr pdata single c (by omega) hsingle hlen (by omega) hend hready
    · rename_i h
      rw [Classical.not_not.mp h, List.take_zero, hs.nil]
      exact ⟨rfl, rfl⟩
  | succ n ih =>
    have hsplit : unit * (n + 1) + single = unit + (unit * n + single) := by
      rw [Nat.mul_add_one]; omega
    have hnext : (addr + unit) % unit = 0 := by rw [Nat.add_mod_right]; exact haddr
    rw [hsplit] at hlen hend hready
    rw [programUnits, Nat.mod_eq_of_lt (show addr + unit < 2 ^ 32 by omega), hsplit]
    refine Leaves.andRest hs (by omega) hnext hready
      (hwhole addr pdata c (by omega) haddr (by omega) (hs.front hready)) fun c' hc' => ?_
    exact ih c' hnext _ (by rw [List.length_drop]; omega) (by omega) hc'

theorem next_aligned {cnt : Nat} (hunit : 0 < unit) (hcnt : unit - addr % unit = cnt) :
    (addr + cnt) % unit = 0 := by
  have hoff := Nat.mod_lt addr hunit
  have ha := Nat.div_add_mod addr unit
  have hsum : addr + cnt = unit * (addr / unit + 1) := by
    rw [Nat.mul_add_one]; omega
  rw [hsum, Nat.mul_mod_right]

/-- **The split** writes the whole range. -/
theorem multiProgram_leaves {narrow : Nat → Nat} (hs : Composes unit Ready F)
    (hwhole : StoresUnitBy F cap unit Ready whole) (hpart : StoresBy F cap unit Ready part)
    (hunit : 0 < unit) (hcap : cap < 2 ^ 32)
    (hnarrow : ∀ n, n < unit ∨ n ≤ length / unit → narrow n = n) (c : Chip) (hpos : 0 < length)
    (hlen : length ≤ pdata.length) (hend : addr + length ≤ cap) (hready : Ready c.mem addr length) :
    Leaves (multiProgram unit narrow whole part addr pdata length c)
      (F c.mem addr (pdata.take length)) := by
  have hoff := Nat.mod_lt addr hunit
  have hmod := Nat.mod_lt length hunit
  have hdm := Nat.div_add_mod length unit
  rw [multiProgram]
  simp only [hnarrow _ (.inl hoff), hnarrow _ (.inl hmod), hnarrow _ (.inr (Nat.le_refl _))]
  split
  · rename_i halign
    split
    · rename_i hzero
      rw [hzero] at hdm
      exact hpart addr pdata length c hpos (by omega) hlen (by omega) hend hready
    · rw [← hdm] at hlen hend hready
      have hloop := programUnits_leaves hs hwhole hpart hcap (length / unit) c hmod halign
        pdata hlen hend hready
      rw [hdm] at hloop
      exact hloop
  · rename_i halign
    obtain ⟨cnt, hcnt⟩ : ∃ cnt, unit - addr % unit = cnt := ⟨_, rfl⟩
    rw [hcnt, hnarrow cnt (.inl (by omega))]
    split
    · rename_i hzero
      rw [hzero, Nat.mul_zero, Nat.zero_add] at hdm
      rw [hdm]
      split
      · -- inside the first unit and the next one
        rename_i hover
        obtain ⟨n, rfl⟩ := Nat.exists_eq_add_of_le (Nat.le_of_lt hover)
        rw [Nat.add_sub_cancel_left, hnarrow n (.inl (by omega)),
          Nat.mod_eq_of_lt (show addr + cnt < 2 ^ 32 by omega)]
        have hnext := next_aligned hunit hcnt
        refine Leaves.andRest hs (by omega) hnext hready (hpart addr pdata cnt c (by omega)
          (by omega) (by omega) (by omega) (by omega) (hs.front hready)) fun c' hc' => ?_
        exact hpart (addr + cnt) (pdata.drop cnt) n c' (by omega) (by omega)
          (by rw [List.length_drop]; omega) (by omega) (by omega) hc'
      · exact hpart addr pdata length c hpos (by omega) hlen (by omega) hend hready
    · rename_i hunits
      have hle : cnt ≤ length := by
        have hone : unit * 1 ≤ unit * (length / unit) :=
          Nat.mul_le_mul_left unit (Nat.pos_of_ne_zero hunits)
        omega
      obtain ⟨n, rfl⟩ := Nat.exists_eq_add_of_le hle
      have hdiv : n / unit ≤ (cnt + n) / unit := Nat.div_le_div_right (by omega)
      have hnmod := Nat.mod_lt n hunit
      have hndm := Nat.div_add_mod n unit
      rw [Nat.add_sub_cancel_left, hnarrow _ (.inr hdiv), hnarrow _ (.inl hnmod),
        Nat.mod_eq_of_lt (show addr + cnt < 2 ^ 32 by omega)]
      have hnext := next_aligned hunit hcnt
      refine Leaves.andRest hs (by omega) hnext hready (hpart addr pdata cnt c (by omega) (by omega)
        (by omega) (by omega) (by omega) (hs.front hready)) fun c' hc' => ?_
      have hloop := programUnits_leaves hs hwhole hpart hcap (n / unit) c' hnmod hnext
        (pdata.drop cnt)
        (by rw [List.length_drop]; omega) (by omega) (by rw [hndm]; exact hc')
      rw [hndm] at hloop
      exact hloop

end Split

/-! ### The driver -/

/-- No wait for the chip times out. -/
def Env.Prompt (env : Env) : Prop := ∀ n, env.waitBusy n = none

theorem valid_cases (hid : w25qIsValid id) :
    id = W25Q64 ∨ id = W25Q128 ∨ id = W25Q256 ∨ id = W25Q512 := of_decide_eq_true hid

/-- The addresses of a supported chip fit into what a request carries. -/
theorem capacity_le (hid : w25qIsValid id) :
    capacity id ≤ 256 ^ addressSize id ∧ capacity id < 2 ^ 32 ∧ capacity id % SECTOR_SIZE = 0 ∧
      w25qxxxGetMaxAddr id ≠ 0 := by
  rcases valid_cases hid with rfl | rfl | rfl | rfl <;> decide

theorem wire_of_lt (hid : w25qIsValid id) (h : addr < capacity id) :
    wire addr (addressSize id) = addr :=
  Nat.mod_eq_of_lt (Nat.lt_of_lt_of_le h (capacity_le hid).1)

theorem remain_of_le (hid : w25qIsValid id) (h : addr ≤ capacity id) :
    remain id addr = capacity id - addr := by
  have hcap := (capacity_le hid).2.1
  rw [capacity] at *
  rw [remain]
  omega

theorem readData_spec (hid : w25qIsValid id) (c : Chip) (h : addr + length ≤ capacity id) :
    ∃ c', w25qxxxReadData id addr length c = (.void, readMem c.mem addr length, c') ∧
      c'.mem = c.mem := by
  rw [w25qxxxReadData]
  simp only [if_pos (capacity_le hid).2.2.2, remain_of_le hid (show addr ≤ capacity id by omega)]
  split
  · -- inside the capacity only an empty read at its end is refused
    rename_i hrefuse
    have hzero : length = 0 := by omega
    rw [hzero]
    exact ⟨c, rfl, rfl⟩
  · rw [wire_of_lt hid (by omega)]
    exact ⟨_, rfl, rfl⟩

theorem pageProgram_stores (hprompt : env.Prompt) (hid : w25qIsValid id) :
    Stores (capacity id) W25Q_PAGE_SIZE Erased (w25qxxxPageProgram env id) := by
  intro addr pdata length c hpos hlen hpage hend herased
  have htake : (pdata.take length).length = length := List.length_take_of_le hlen
  rw [w25qxxxPageProgram, if_neg (Nat.ne_of_gt hpos)]
  refine ⟨hprompt _, ?_⟩
  show (if true then program W25Q_PAGE_SIZE c.mem (wire addr (addressSize id)) (pdata.take length)
    else c.mem) = _
  rw [if_pos rfl, wire_of_lt hid (by omega),
    program_eq_overlay (by rw [htake]; exact hpage) (by rw [htake]; exact herased)]

/-- A `u16` length has fewer than 256 pages, so the `u8` counters hold every value. -/
theorem page_counters (hmax : length < 2 ^ 16) (n : Nat)
    (hn : n < W25Q_PAGE_SIZE ∨ n ≤ length / W25Q_PAGE_SIZE) : n % 2 ^ 8 = n := by
  have hdiv : length / W25Q_PAGE_SIZE < 2 ^ 8 := Nat.div_lt_of_lt_mul hmax
  have hsize : W25Q_PAGE_SIZE = 2 ^ 8 := rfl
  exact Nat.mod_eq_of_lt (by omega)

theorem sector_counters (hmax : length < 2 ^ 32) (n : Nat)
    (hn : n < SECTOR_SIZE ∨ n ≤ length / SECTOR_SIZE) : n % 2 ^ 32 = n := by
  have hdiv := Nat.div_le_self length SECTOR_SIZE
  have hsize : SECTOR_SIZE = 4096 := rfl
  exact Nat.mod_eq_of_lt (by omega)

theorem multiPageProgram_leaves (hprompt : env.Prompt) (hid : w25qIsValid id) (c : Chip)
    (hpos : 0 < length) (hmax : length < 2 ^ 16) (hlen : length ≤ pdata.length)
    (hend : addr + length ≤ capacity id) (herased : Erased c.mem addr length) :
    Leaves (w25qxxxMultiPageProgram env id addr pdata length c)
      (overlay c.mem addr (pdata.take length)) := by
  have hpage := pageProgram_stores hprompt hid
  have hunit : 0 < W25Q_PAGE_SIZE := by decide
  refine multiProgram_leaves splits_erased.composes ?_ hpage.by_overlay hunit (capacity_le hid).2.1
    (page_counters hmax) c hpos hlen hend herased
  intro addr pdata c hlen haddr hend herased
  exact hpage addr pdata W25Q_PAGE_SIZE c hunit hlen (by omega) hend herased

theorem sectorErase_leaves (hprompt : env.Prompt) (hid : w25qIsValid id) (c : Chip)
    (hend : addr < capacity id) :
    Leaves (w25qxxxSectorErase env id addr c) (erase SECTOR_SIZE c.mem addr) := by
  rw [w25qxxxSectorErase, if_neg (Classical.not_not.mpr hid), w25qxxxWaitBusy, hprompt]
  refine ⟨rfl, ?_⟩
  show (if true then erase SECTOR_SIZE c.mem (wire addr (addressSize id)) else c.mem) = _
  rw [if_pos rfl, wire_of_lt hid hend]

/-- An erase of a sector and the program of all of it. -/
theorem programSector_leaves (hprompt : env.Prompt) (hid : w25qIsValid id) (c : Chip)
    (haddr : addr % SECTOR_SIZE = 0) (hlen : SECTOR_SIZE ≤ pdata.length)
    (hend : addr + SECTOR_SIZE ≤ capacity id) :
    Leaves (programSector env id addr pdata SECTOR_SIZE c)
      (overlay c.mem addr (pdata.take SECTOR_SIZE)) := by
  have hsize : 0 < SECTOR_SIZE := by decide
  have htake : (pdata.take SECTOR_SIZE).length = SECTOR_SIZE := List.length_take_of_le hlen
  refine Leaves.andThen (sectorErase_leaves hprompt hid c (by omega)) fun c' hc' => ?_
  have hpages := multiPageProgram_leaves hprompt hid c' hsize (by decide) hlen hend
    (by rw [hc']; exact erased_erase SECTOR_SIZE c.mem haddr)
  rw [hc', overlay_erase c.mem hsize haddr htake] at hpages
  exact hpages

/-- The sector buffer, once its head and its tail are read and the data is copied in. -/
theorem sector_buffer (stack : Nat → UInt8) (head data tail : List UInt8) :
    readMem (overlay (overlay (overlay stack 0 head) (head.length + data.length) tail)
      head.length data) 0 (head.length + data.length + tail.length) = head ++ data ++ tail := by
  rw [readMem_append, readMem_append, Nat.zero_add, Nat.zero_add, readMem_overlay,
    readMem_overlay_of_disjoint (.inl (by omega)), readMem_overlay_of_disjoint (.inl (by omega)),
    readMem_overlay, readMem_overlay_of_disjoint (.inr (Nat.le_refl _)), readMem_overlay]

/-- Written back over its sector, the buffer changes the data's bytes only. -/
theorem overlay_sector_buffer (stack mem : Nat → UInt8) (base : Nat) {off size : Nat}
    (data : List UInt8) (h : off + data.length ≤ size) :
    overlay mem base (readMem (overlay (overlay (overlay stack 0 (readMem mem base off))
      (off + data.length) (readMem mem (base + off + data.length) (size - off - data.length)))
      off data) 0 size) = overlay mem (base + off) data := by
  have hbuf := sector_buffer stack (readMem mem base off) data
    (readMem mem (base + off + data.length) (size - off - data.length))
  simp only [length_readMem] at hbuf
  rw [show off + data.length + (size - off - data.length) = size by omega] at hbuf
  rw [hbuf, ← overlay_modify mem base off size data h, take_readMem mem base (by omega),
    drop_readMem mem base h, Nat.add_assoc, Nat.sub_sub]

theorem erased_of_all (h : ¬ (readMem mem addr n).any (· ≠ 0xFF) = true) : Erased mem addr n := by
  intro a hle hlt
  by_contra hne
  refine h (List.any_eq_true.mpr ⟨mem a, List.mem_map.mpr ⟨a - addr, ?_, ?_⟩, decide_eq_true hne⟩)
  · exact List.mem_range.mpr (by omega)
  · rw [Nat.add_sub_cancel' hle]

/-- The sector of an address starts at a multiple of its size, and is all there. -/
theorem sector_base (hid : w25qIsValid id) (h : addr < capacity id) :
    (addr - addr % SECTOR_SIZE) % SECTOR_SIZE = 0 ∧
      addr - addr % SECTOR_SIZE + SECTOR_SIZE ≤ capacity id := by
  have haligned := (capacity_le hid).2.2.1
  rw [SECTOR_SIZE] at *
  omega

/-- **A part of a sector.** -/
theorem processPartialSector_stores (hprompt : env.Prompt) (hid : w25qIsValid id) :
    Stores (capacity id) SECTOR_SIZE (fun _ _ _ => True) (w25qxxxProcessPartialSector env id) := by
  intro addr pdata length c hpos hlen hin hend _
  have htake : (pdata.take length).length = length := List.length_take_of_le hlen
  have hcap := (capacity_le hid).2.1
  obtain ⟨hbase, hlast⟩ := sector_base hid (show addr < capacity id by omega)
  obtain ⟨c₁, hread, hc₁⟩ := readData_spec hid c hend
  rw [w25qxxxProcessPartialSector, if_neg (Nat.ne_of_gt hpos), hread]
  have hcheck : readMem (overlay (env.stack c.log.length) (addr % SECTOR_SIZE)
      (readMem c.mem addr length)) (addr % SECTOR_SIZE) length = readMem c.mem addr length := by
    have hback := readMem_overlay (env.stack c.log.length) (addr % SECTOR_SIZE)
      (readMem c.mem addr length)
    rw [length_readMem] at hback
    exact hback
  simp only [hcheck]
  split
  · -- read, modify, erase, write back
    obtain ⟨c₂, hhead, hc₂⟩ := readData_spec hid c₁
      (show addr - addr % SECTOR_SIZE + addr % SECTOR_SIZE ≤ capacity id by omega)
    obtain ⟨c₃, htail, hc₃⟩ := readData_spec hid c₂
      (show addr + length + (SECTOR_SIZE - addr % SECTOR_SIZE - length) ≤ capacity id by omega)
    rw [hhead]
    simp only [Nat.mod_eq_of_lt (show addr + length < 2 ^ 32 by omega), htail]
    rw [hc₂, hc₁]
    generalize overlay (env.stack c.log.length) _ _ = stack
    have hmem : c₃.mem = c.mem := hc₃.trans (hc₂.trans hc₁)
    have hfit : addr % SECTOR_SIZE + (pdata.take length).length ≤ SECTOR_SIZE := by
      rw [htake]; exact hin
    have hbuf := overlay_sector_buffer stack c₃.mem (addr - addr % SECTOR_SIZE) (pdata.take length)
      hfit
    rw [htake, Nat.sub_add_cancel (Nat.mod_le addr SECTOR_SIZE)] at hbuf
    rw [← hmem, ← hbuf]
    have hback : ∀ buf : List UInt8, buf.length = SECTOR_SIZE →
        Leaves (programSector env id (addr - addr % SECTOR_SIZE) buf SECTOR_SIZE c₃)
          (overlay c₃.mem (addr - addr % SECTOR_SIZE) buf) := by
      intro buf hlen
      have hsector := programSector_leaves hprompt hid c₃ hbase (Nat.le_of_eq hlen.symm) hlast
      rw [List.take_of_length_le (Nat.le_of_eq hlen)] at hsector
      exact hsector
    exact hback _ (length_readMem _ _ _)
  · rename_i hall
    have hpages := multiPageProgram_leaves hprompt hid c₁ hpos (by rw [SECTOR_SIZE] at hin; omega)
      hlen hend (by rw [hc₁]; exact erased_of_all hall)
    rw [hc₁] at hpages
    exact hpages

theorem multiSectorProgram_leaves (hprompt : env.Prompt) (hid : w25qIsValid id) (c : Chip)
    (hpos : 0 < length) (hlen : length ≤ pdata.length) (hend : addr + length ≤ capacity id) :
    Leaves (w25qxxxMultiSectorProgram env id addr pdata length c)
      (overlay c.mem addr (pdata.take length)) := by
  have hcap := (capacity_le hid).2.1
  have hwhole : StoresUnit (capacity id) SECTOR_SIZE (fun _ _ _ => True) (programSector env id) :=
    fun addr pdata c hlen haddr hend _ => programSector_leaves hprompt hid c haddr hlen hend
  refine multiProgram_leaves splits_any.composes hwhole ?_ (by decide) hcap
    (sector_counters (by omega)) c hpos hlen hend trivial
  intro addr pdata length c hpos _ hlen hin hend hready
  have hmax : length % 2 ^ 16 = length := by
    rw [SECTOR_SIZE] at hin
    exact Nat.mod_eq_of_lt (by omega)
  show Leaves (w25qxxxProcessPartialSector env id addr pdata (length % 2 ^ 16) c) _
  rw [hmax]
  exact processPartialSector_stores hprompt hid addr pdata length c hpos hlen hin hend hready

/-- The bytes a write inside the capacity leaves; a write of no bytes is refused. -/
theorem writeData_mem (hprompt : env.Prompt) (hid : w25qIsValid id) (c : Chip)
    (hmax : length < 2 ^ 16) (hlen : length ≤ pdata.length) (hend : addr + length ≤ capacity id) :
    (w25qxxxWriteData env id addr (some pdata) length c).2.mem =
      overlay c.mem addr (pdata.take length) := by
  rw [w25qxxxWriteData]
  simp only [Nat.mod_eq_of_lt hmax]
  split
  · rename_i hzero
    rw [hzero, List.take_zero, overlay_nil]
  · rename_i hpos
    rw [if_neg (capacity_le hid).2.2.2, remain_of_le hid (by omega), if_neg (by omega)]
    exact (multiSectorProgram_leaves hprompt hid c (by omega) hlen hend).2

/-- **A write inside the capacity.**  With no wait timing out, the data is stored and every other
byte of the chip is as it was. -/
theorem writeData_stores (env : Env) (id : UInt8) (addr length : Nat) (pdata : List UInt8)
    (c : Chip) (hprompt : env.Prompt) (hid : w25qIsValid id) (hpos : 1 ≤ length)
    (hmax : length ≤ 65535) (hbuf : length ≤ pdata.length) (hend : addr + length ≤ capacity id) :
    ∃ c', w25qxxxWriteData env id addr (some pdata) length c = (.int none, c') ∧
      readMem c'.mem addr length = pdata.take length ∧
      ∀ a, a < addr ∨ addr + length ≤ a → c'.mem a = c.mem a := by
  have hlen : (pdata.take length).length = length := List.length_take_of_le hbuf
  obtain ⟨c', hstores, hmem⟩ := (multiSectorProgram_leaves hprompt hid c hpos hbuf hend).eq_ok
  rw [w25qxxxWriteData]
  simp only [Nat.mod_eq_of_lt (show length < 2 ^ 16 by omega)]
  rw [if_neg (by omega), if_neg (capacity_le hid).2.2.2, remain_of_le hid (by omega),
    if_neg (by omega), hstores]
  refine ⟨c', rfl, ?_, ?_⟩
  · have hback := readMem_overlay c.mem addr (pdata.take length)
    rw [hlen] at hback
    rw [hmem]
    exact hback
  · intro a ha
    rw [hmem]
    rcases ha with ha | ha
    · exact overlay_of_lt ha
    · exact overlay_of_le (by rw [hlen]; exact ha)

/-- A chip that is never slow, and a stack of zeros. -/
def promptEnv : Env := ⟨fun _ => none, fun _ _ => 0⟩

/-- The last two bytes of a chip of zeros. -/
theorem writeData_stores_last :
    ∃ c', w25qxxxWriteData promptEnv W25Q64 0x7FFFFE (some [0x5A, 0xA5, 0]) 2
        ⟨fun _ => 0, false, []⟩ = (.int none, c') ∧
      readMem c'.mem 0x7FFFFE 2 = [0x5A, 0xA5] ∧
      ∀ a, a < 0x7FFFFE ∨ 0x7FFFFE + 2 ≤ a → c'.mem a = 0 :=
  writeData_stores promptEnv W25Q64 0x7FFFFE 2 [0x5A, 0xA5, 0] ⟨fun _ => 0, false, []⟩
    (fun _ => rfl) (by decide) (by decide) (by decide) (by decide) (by decide)

/-- A write of fewer than `2 ^ 16` bytes inside the capacity. -/
structure Write (id : UInt8) where
  addr  : Nat
  pdata : List UInt8
  short : pdata.length < 2 ^ 16
  fits  : addr + pdata.length ≤ capacity id

def Write.run (env : Env) (c : Chip) (w : Write id) : Chip :=
  (w25qxxxWriteData env id w.addr (some w.pdata) w.pdata.length c).2

/-- **The chip is a memory.**  With no wait timing out, a read after any sequence of writes gives the
bytes of a memory that took them, although every write erases whole sectors. -/
theorem flash_is_memory (hprompt : env.Prompt) (hid : w25qIsValid id) (ws : List (Write id))
    (c : Chip) (hend : addr + length ≤ capacity id) :
    (w25qxxxReadData id addr length (ws.foldl (Write.run env) c)).2.1 =
      readMem (ws.foldl (fun mem w => overlay mem w.addr w.pdata) c.mem) addr length := by
  have hmem : ws.foldl (fun mem w => overlay mem w.addr w.pdata) c.mem =
      (ws.foldl (Write.run env) c).mem := by
    refine List.foldl_hom Chip.mem fun c w => ?_
    rw [Write.run, writeData_mem hprompt hid c w.short (Nat.le_refl _) w.fits, List.take_length]
  obtain ⟨c', hread, -⟩ := readData_spec hid (ws.foldl (Write.run env) c) hend
  rw [hread, hmem]

theorem flash_is_memory_overlap :
    let ws : List (Write W25Q64) :=
      [⟨4094, [1, 2], by decide, by decide⟩, ⟨4095, [3, 4], by decide, by decide⟩]
    (w25qxxxReadData W25Q64 4094 3 (ws.foldl (Write.run promptEnv) ⟨fun _ => 0, false, []⟩)).2.1 =
      [1, 3, 4] :=
  flash_is_memory (fun _ => rfl) (by decide) _ _ (by decide)

/-! ### The range checks -/

/-- **Over the end of the chip.**  From an address of the chip, its end included, a write past the
end returns an error and a read, which has no result to return, stores nothing; neither asks the
chip for anything. -/
theorem past_end_refused (env : Env) (id : UInt8) (addr length : Nat)
    (pdata : Option (List UInt8)) (c : Chip) (hid : w25qIsValid id) (haddr : addr ≤ capacity id)
    (hpast : capacity id < addr + length) :
    (length < 2 ^ 16 → ∃ e, w25qxxxWriteData env id addr pdata length c = (.int (some e), c)) ∧
      w25qxxxReadData id addr length c = (.void, [], c) := by
  refine ⟨fun hlen => ?_, ?_⟩
  · rw [w25qxxxWriteData.eq_def]
    simp only [Nat.mod_eq_of_lt hlen]
    cases pdata with
    | none => exact ⟨.einval, rfl⟩
    | some pdata =>
      refine ⟨.enospc, ?_⟩
      dsimp only
      rw [if_neg (by omega), if_neg (capacity_le hid).2.2.2, remain_of_le hid haddr,
        if_pos (by omega)]
  · rw [w25qxxxReadData]
    simp only [if_pos (capacity_le hid).2.2.2, remain_of_le hid haddr]
    rw [if_pos (by omega)]

theorem past_end_refused_last :
    (∃ e, w25qxxxWriteData promptEnv W25Q64 0x7FFFFF (some [0x5A, 0xA5]) 2
        ⟨fun _ => 0, false, []⟩ = (.int (some e), ⟨fun _ => 0, false, []⟩)) ∧
      w25qxxxReadData W25Q64 0x7FFFFF 2 ⟨fun _ => 0, false, []⟩ =
        (.void, [], ⟨fun _ => 0, false, []⟩) := by
  obtain ⟨hwrite, hread⟩ := past_end_refused promptEnv W25Q64 0x7FFFFF 2 (some [0x5A, 0xA5])
    ⟨fun _ => 0, false, []⟩ (by decide) (by decide) (by decide)
  exact ⟨hwrite (by decide), hread⟩

/-- A read over the end returns no error: it returns nothing. -/
theorem refused_read_returns_nothing :
    capacity W25Q64 < 0x7FFFFF + 2 ∧
      (w25qxxxReadData W25Q64 0x7FFFFF 2 ⟨fun _ => 0, false, []⟩).1.isError = false := by
  decide

/-- Past the capacity the `u32` difference of the range check wraps around: there the check lets
through every length that does not wrap back. -/
theorem readData_past_capacity (hid : w25qIsValid id) {addr length : Nat} (c : Chip)
    (haddr : capacity id < addr) (hmax : addr < 2 ^ 32)
    (hlen : addr + length ≤ 2 ^ 32 + capacity id) :
    (w25qxxxReadData id addr length c).2.2.log =
      c.log ++ [.fastRead addr (addressSize id) length] := by
  have hrem : remain id addr = 2 ^ 32 + capacity id - addr := by
    rw [capacity] at *
    rw [remain]
    omega
  rw [w25qxxxReadData]
  simp only [if_pos (capacity_le hid).2.2.2, hrem]
  rw [if_neg (by omega)]
  rfl

end Kinetis.W25q
