import Kinetis.Lib.Nor
import Kinetis.Platform.Files
import Mathlib.Algebra.Order.Group.Nat

/-!
# Eeprom — the AT24C02 driver

The driver of a 256-byte EEPROM with 8-byte pages.  A write of any length is split at the page
boundaries: a head up to the next boundary, whole pages, and a tail.  The counters of the split
are `u8`, the address is narrowed to `u8` on its way to the bus, and so is a transfer's length.

The chip takes the bytes of a write into a page buffer that wraps at the end of the page, so a
write that is split wrongly overwrites the start of its page.  The chip acknowledges everything.

* `splitWrite_rel`: what holds of every page write inside a page, and of two writes in a row, holds
  of the split;
* `Wrote` is what a part of the split does: the bytes it is for are stored, nothing else changes,
  and each transfer stays inside a page; parts compose (`Wrote.trans`);
* `writeData_stores_in_pages`: in range, a write stores the data and nothing else;
* `out_of_range_refused_iff`: out of range, the three entry points refuse exactly while the sum
  of address and length does not wrap.
-/

namespace Kinetis.At24cxx
open Lib

def PAGE_SIZE : Nat := 8
def AT24CXX_VOLUME : Nat := 256

/-! ### The chip and the bus -/

/-- A transfer on the bus. -/
inductive Transfer where
  | write (addr : Nat) (data : List UInt8)
  | read (addr length : Nat)
  deriving DecidableEq, Repr

/-- The chip, what went over the bus, and the driver's write counters. -/
structure Eeprom where
  mem              : Nat → UInt8
  bus              : List Transfer
  writeCycles      : Nat → UInt32
  totalWriteCycles : UInt32

/-- The page of `addr` after the bytes `data` were sent to it from `addr` on. -/
def pageStore (mem : Nat → UInt8) (addr : Nat) (data : List UInt8) : Nat → UInt8 := fun a =>
  if a / PAGE_SIZE = addr / PAGE_SIZE then
    latch PAGE_SIZE (addr % PAGE_SIZE) data (fun off => mem (addr / PAGE_SIZE * PAGE_SIZE + off))
      (a % PAGE_SIZE)
  else mem a

variable (pdata : Nat → UInt8)

/-- `iic_master_port_multi_transmit` to the chip: `length` is a `u8`, and nothing is sent when it
is 0.  `pos` is how far `pdata` has been advanced. -/
def iicMasterPortMultiTransmit (addr pos length : Nat) (e : Eeprom) : Eeprom :=
  if length % 2 ^ 8 = 0 then e
  else
    let data := readMem pdata pos (length % 2 ^ 8)
    { e with mem := pageStore e.mem addr data, bus := e.bus ++ [.write addr data] }

/-- `iic_master_port_multi_receive` from the chip: the bytes it stores at the caller's pointer. -/
def iicMasterPortMultiReceive (addr length : Nat) (e : Eeprom) : List UInt8 × Eeprom :=
  if length % 2 ^ 8 = 0 then ([], e)
  else ((List.range (length % 2 ^ 8)).map fun i => e.mem ((addr + i) % AT24CXX_VOLUME),
    { e with bus := e.bus ++ [.read addr (length % 2 ^ 8)] })

/-! ### The driver -/

/-- `at24cxx_page_write`: the address is a `u8`. -/
def at24cxxPageWrite (addr pos length : Nat) (e : Eeprom) : Eeprom :=
  iicMasterPortMultiTransmit pdata (addr % 2 ^ 8) pos length e

/-- The loop `while (num_of_page--)`, and what comes after it. -/
def writePages (rest : Nat → Nat → Eeprom → Eeprom) : Nat → Nat → Nat → Eeprom → Eeprom
  | 0, addr, pos, e => rest addr pos e
  | n + 1, addr, pos, e =>
    writePages rest n ((addr + PAGE_SIZE) % 2 ^ 32) (pos + PAGE_SIZE)
      (at24cxxPageWrite pdata addr pos PAGE_SIZE e)

/-- `at24cxx_multi_page_write`: `length` is a `u16`, the counters are `u8`. -/
def at24cxxMultiPageWrite (addr length : Nat) (e : Eeprom) : Eeprom :=
  let length := length % 2 ^ 16
  let subAddr := addr % PAGE_SIZE % 2 ^ 8
  let cnt := (PAGE_SIZE - subAddr) % 2 ^ 8
  let numOfPage := length / PAGE_SIZE % 2 ^ 8
  let numOfSingle := length % PAGE_SIZE % 2 ^ 8
  if subAddr = 0 then
    if numOfPage = 0 then at24cxxPageWrite pdata addr 0 length e
    else
      -- the tail is sent even when it is empty
      writePages pdata (fun addr pos => at24cxxPageWrite pdata addr pos numOfSingle) numOfPage
        addr 0 e
  else if numOfPage = 0 then
    if numOfSingle > cnt then
      let remainOfSingle := (numOfSingle - cnt) % 2 ^ 8
      at24cxxPageWrite pdata ((addr + cnt) % 2 ^ 32) cnt remainOfSingle
        (at24cxxPageWrite pdata addr 0 cnt e)
    else at24cxxPageWrite pdata addr 0 length e
  else
    let length := (length + 2 ^ 16 - cnt) % 2 ^ 16
    let numOfPage := length / PAGE_SIZE % 2 ^ 8
    let numOfSingle := length % PAGE_SIZE % 2 ^ 8
    writePages pdata
      (fun addr pos e =>
        if numOfSingle ≠ 0 then at24cxxPageWrite pdata addr pos numOfSingle e else e)
      numOfPage ((addr + cnt) % 2 ^ 32) cnt (at24cxxPageWrite pdata addr 0 cnt e)

/-- The counting loop of `at24cxx_update_write_cycle_count`; `startPage` is a `u8`. -/
def countPages : Nat → Nat → Eeprom → Eeprom
  | 0, _, e => e
  | n + 1, startPage, e =>
    countPages n ((startPage + 1) % 2 ^ 8)
      (if startPage < AT24CXX_VOLUME / PAGE_SIZE then
        { e with
          writeCycles := Function.update e.writeCycles startPage (e.writeCycles startPage + 1)
          totalWriteCycles := e.totalWriteCycles + 1 }
      else e)

/-- `at24cxx_update_write_cycle_count`; the check for wear leveling that follows only prints. -/
def at24cxxUpdateWriteCycleCount (addr length : Nat) (e : Eeprom) : Eeprom :=
  let startPage := addr % 2 ^ 8 / PAGE_SIZE
  let endPage := (addr + length + 2 ^ 32 - 1) % 2 ^ 8 / PAGE_SIZE
  let pagesAffected := (endPage + 2 ^ 32 - startPage + 1) % 2 ^ 32
  countPages pagesAffected startPage e

/-- `at24cxx_write_data`: `addr` is a `u8` and `length` a `u32`, and their sum wraps. -/
def at24cxxWriteData (addr length : Nat) (e : Eeprom) : Outcome Eeprom :=
  if (addr + length) % 2 ^ 32 > AT24CXX_VOLUME then (some .einval, e)
  else
    let e := at24cxxMultiPageWrite pdata addr length e
    (none, at24cxxUpdateWriteCycleCount addr length e)

/-- The retry loop. -/
def retryWrite (addr length : Nat) : Nat → Eeprom → Outcome Eeprom
  | 0, e => (some .eio, e)
  | n + 1, e =>
    match at24cxxWriteData pdata addr length e with
    | (none, e) => (none, e)
    | (some _, e) => retryWrite addr length n e

/-- `at24cxx_write_data_with_retry`. -/
def at24cxxWriteDataWithRetry (addr length maxRetry : Nat) (e : Eeprom) : Outcome Eeprom :=
  if (addr + length) % 2 ^ 32 > AT24CXX_VOLUME then (some .einval, e)
  else retryWrite pdata addr length maxRetry e

/-- `at24cxx_read_data`, which is `current_random_read`. -/
def at24cxxReadData (addr length : Nat) (e : Eeprom) : Option Errno × List UInt8 × Eeprom :=
  if (addr + length) % 2 ^ 32 > AT24CXX_VOLUME then (some .einval, [], e)
  else
    let (data, e) := iicMasterPortMultiReceive addr length e
    (none, data, e)

/-! ### Parts of a write -/

/-- A transfer that stays inside one page of the chip. -/
def Transfer.InPage : Transfer → Prop
  | .write addr data => addr < AT24CXX_VOLUME ∧ addr % PAGE_SIZE + data.length ≤ PAGE_SIZE
  | .read .. => False

/-- From `e` to `e'`, `data` was written at `addr`, by page writes that stay inside a page. -/
structure Wrote (addr : Nat) (data : List UInt8) (e e' : Eeprom) : Prop where
  mem : e'.mem = overlay e.mem addr data
  bus : ∃ ts, e'.bus = e.bus ++ ts ∧ ∀ t ∈ ts, t.InPage

variable {pdata}
variable {e e' e'' : Eeprom} {addr pos length : Nat}

theorem Wrote.nil (addr : Nat) (e : Eeprom) : Wrote addr [] e e :=
  ⟨(overlay_nil _ _).symm, [], (List.append_nil _).symm, nofun⟩

/-- A write of the first bytes and one of those after them. -/
theorem Wrote.trans {m n : Nat} (h : Wrote addr (readMem pdata pos m) e e')
    (h' : Wrote (addr + m) (readMem pdata (pos + m) n) e' e'') :
    Wrote addr (readMem pdata pos (m + n)) e e'' := by
  obtain ⟨ts, hts, hin⟩ := h.bus
  obtain ⟨ts', hts', hin'⟩ := h'.bus
  refine ⟨?_, ts ++ ts', ?_, ?_⟩
  · have happ := overlay_append e.mem addr (readMem pdata pos m) (readMem pdata (pos + m) n)
    rw [length_readMem] at happ
    rw [h'.mem, h.mem, happ, readMem_append]
  · rw [hts', hts, List.append_assoc]
  · intro t ht
    rcases List.mem_append.mp ht with ht | ht
    · exact hin t ht
    · exact hin' t ht

/-- Data that stays inside its page is stored in place. -/
theorem pageStore_eq_overlay (mem : Nat → UInt8) {data : List UInt8}
    (h : addr % PAGE_SIZE + data.length ≤ PAGE_SIZE) :
    pageStore mem addr data = overlay mem addr data := by
  rw [PAGE_SIZE] at *
  funext a
  rw [pageStore, PAGE_SIZE, latch_eq_overlay _ h]
  split
  · rename_i hpage
    by_cases hle : addr ≤ a
    · have hsub : a % 8 - addr % 8 = a - addr := by omega
      have hback : addr / 8 * 8 + a % 8 = a := by omega
      rw [overlay, if_pos (by omega), overlay, if_pos hle, hsub, hback]
    · have hback : addr / 8 * 8 + a % 8 = a := by omega
      rw [overlay_of_lt (by omega), overlay_of_lt (by omega), hback]
  · rename_i hpage
    by_cases hle : addr ≤ a
    · rw [overlay_of_le (by omega)]
    · rw [overlay_of_lt (by omega)]

/-- One page write. -/
theorem pageWrite_wrote (e : Eeprom) (pos : Nat) (hin : addr % 8 + length ≤ 8)
    (hend : addr + length ≤ 256) :
    Wrote addr (readMem pdata pos length) e (at24cxxPageWrite pdata addr pos length e) := by
  have hlen : length % 2 ^ 8 = length := by omega
  rw [at24cxxPageWrite, iicMasterPortMultiTransmit, hlen]
  split
  · rename_i hzero
    rw [hzero]
    exact Wrote.nil addr e
  · have haddr : addr % 2 ^ 8 = addr := by omega
    have hdata : addr % 8 + (readMem pdata pos length).length ≤ 8 := by rwa [length_readMem]
    rw [haddr]
    refine ⟨pageStore_eq_overlay e.mem hdata, _, rfl, ?_⟩
    intro t ht
    rw [List.mem_singleton.mp ht]
    exact ⟨(by omega : addr < 256), hdata⟩

/-! ### The split, for any page write -/

section Split

variable {σ : Type} (write : Nat → Nat → Nat → σ → σ)

/-- `writePages`, for any page write. -/
def splitPages (rest : Nat → Nat → σ → σ) : Nat → Nat → Nat → σ → σ
  | 0, addr, pos, s => rest addr pos s
  | n + 1, addr, pos, s =>
    splitPages rest n ((addr + PAGE_SIZE) % 2 ^ 32) (pos + PAGE_SIZE) (write addr pos PAGE_SIZE s)

/-- `at24cxx_multi_page_write`, for any page write. -/
def splitWrite (addr length : Nat) (s : σ) : σ :=
  let length := length % 2 ^ 16
  let subAddr := addr % PAGE_SIZE % 2 ^ 8
  let cnt := (PAGE_SIZE - subAddr) % 2 ^ 8
  let numOfPage := length / PAGE_SIZE % 2 ^ 8
  let numOfSingle := length % PAGE_SIZE % 2 ^ 8
  if subAddr = 0 then
    if numOfPage = 0 then write addr 0 length s
    else splitPages write (fun addr pos => write addr pos numOfSingle) numOfPage addr 0 s
  else if numOfPage = 0 then
    if numOfSingle > cnt then
      let remainOfSingle := (numOfSingle - cnt) % 2 ^ 8
      write ((addr + cnt) % 2 ^ 32) cnt remainOfSingle (write addr 0 cnt s)
    else write addr 0 length s
  else
    let length := (length + 2 ^ 16 - cnt) % 2 ^ 16
    let numOfPage := length / PAGE_SIZE % 2 ^ 8
    let numOfSingle := length % PAGE_SIZE % 2 ^ 8
    splitPages write (fun addr pos s => if numOfSingle ≠ 0 then write addr pos numOfSingle s else s)
      numOfPage ((addr + cnt) % 2 ^ 32) cnt (write addr 0 cnt s)

theorem writePages_eq_split (rest : Nat → Nat → Eeprom → Eeprom) (n : Nat) :
    writePages pdata rest n = splitPages (at24cxxPageWrite pdata) rest n := by
  induction n with
  | zero => rfl
  | succ n ih =>
    funext addr pos e
    rw [writePages, splitPages, ih]

theorem multiPageWrite_eq_split (addr length : Nat) (e : Eeprom) :
    at24cxxMultiPageWrite pdata addr length e =
      splitWrite (at24cxxPageWrite pdata) addr length e := by
  simp only [at24cxxMultiPageWrite, splitWrite, writePages_eq_split]

/-- A relation of address, position in the data and length to the states before and after, that
holds of every page write inside a page, and of two writes in a row when the second one starts a
page. -/
structure SplitRule (R : Nat → Nat → Nat → σ → σ → Prop) : Prop where
  nil : ∀ addr pos s, R addr pos 0 s s
  trans : ∀ {addr pos m n s s' s''}, (addr + m) % 8 = 0 → R addr pos m s s' →
    R (addr + m) (pos + m) n s' s'' → R addr pos (m + n) s s''
  write : ∀ addr pos length s, addr % 8 + length ≤ 8 → addr + length ≤ 256 →
    R addr pos length s (write addr pos length s)

variable {write} {R : Nat → Nat → Nat → σ → σ → Prop}

/-- **The loop over the pages**, and what comes after it. -/
theorem splitPages_rel (hR : SplitRule write R) {rest : Nat → Nat → σ → σ} {single : Nat}
    (hrest : ∀ addr pos s, addr % 8 = 0 → addr + single ≤ 256 →
      R addr pos single s (rest addr pos s))
    (n : Nat) (s : σ) (pos : Nat) (haddr : addr % 8 = 0) (hend : addr + (8 * n + single) ≤ 256) :
    R addr pos (8 * n + single) s (splitPages write rest n addr pos s) := by
  induction n generalizing addr pos s with
  | zero =>
    rw [Nat.zero_add] at *
    exact hrest addr pos s haddr hend
  | succ n ih =>
    have hsplit : 8 * (n + 1) + single = 8 + (8 * n + single) := by omega
    have hnext : (addr + 8) % 2 ^ 32 = addr + 8 := by omega
    rw [hsplit] at hend ⊢
    rw [splitPages, PAGE_SIZE, hnext]
    refine hR.trans (by omega) (hR.write addr pos 8 s (by omega) (by omega)) ?_
    exact ih _ _ (by omega) (by omega)

/-- **The split** covers the whole range, page by page. -/
theorem splitWrite_rel (hR : SplitRule write R) (s : σ) (hend : addr + length ≤ 256) :
    R addr 0 length s (splitWrite write addr length s) := by
  have hdm : 8 * (length / 8) + length % 8 = length := Nat.div_add_mod length 8
  have hlen : length % 2 ^ 16 = length := by omega
  have hsub : addr % 8 % 2 ^ 8 = addr % 8 := by omega
  have hcnt : (8 - addr % 8) % 2 ^ 8 = 8 - addr % 8 := by omega
  have hpages : length / 8 % 2 ^ 8 = length / 8 := by omega
  have hsingle : length % 8 % 2 ^ 8 = length % 8 := by omega
  rw [splitWrite]
  simp only [PAGE_SIZE, hlen, hsub, hcnt, hpages, hsingle]
  split
  · -- the address is aligned
    rename_i halign
    split
    · exact hR.write addr 0 length s (by omega) hend
    · have hrest : ∀ addr pos s, addr % 8 = 0 → addr + length % 8 ≤ 256 →
          R addr pos (length % 8) s (write addr pos (length % 8) s) :=
        fun addr pos s ha he => hR.write addr pos _ s (by omega) he
      have hloop := splitPages_rel hR hrest (length / 8) s 0 halign (by omega)
      rw [hdm] at hloop
      exact hloop
  · rename_i halign
    obtain ⟨cnt, hc⟩ : ∃ cnt, 8 - addr % 8 = cnt := ⟨_, rfl⟩
    rw [hc]
    split
    · split
      · -- the rest of this page and the start of the next
        rename_i hover
        obtain ⟨n, rfl⟩ : ∃ n, length = cnt + n := Nat.exists_eq_add_of_le (by omega)
        have hrem : ((cnt + n) % 8 - cnt) % 2 ^ 8 = n := by omega
        have hnext : (addr + cnt) % 2 ^ 32 = addr + cnt := by omega
        rw [hrem, hnext]
        refine hR.trans (by omega) (hR.write addr 0 cnt s (by omega) (by omega)) ?_
        rw [Nat.zero_add]
        exact hR.write _ cnt n _ (by omega) (by omega)
      · exact hR.write addr 0 length s (by omega) hend
    · -- the rest of this page, whole pages, and a tail if there is one
      obtain ⟨n, rfl⟩ : ∃ n, length = cnt + n := Nat.exists_eq_add_of_le (by omega)
      have hrest : (cnt + n + 2 ^ 16 - cnt) % 2 ^ 16 = n := by omega
      have hndm : 8 * (n / 8) + n % 8 = n := Nat.div_add_mod n 8
      have hnpages : n / 8 % 2 ^ 8 = n / 8 := by omega
      have hnsingle : n % 8 % 2 ^ 8 = n % 8 := by omega
      have hnext : (addr + cnt) % 2 ^ 32 = addr + cnt := by omega
      rw [hrest, hnpages, hnsingle, hnext]
      refine hR.trans (by omega) (hR.write addr 0 cnt s (by omega) (by omega)) ?_
      have htail : ∀ addr pos s, addr % 8 = 0 → addr + n % 8 ≤ 256 →
          R addr pos (n % 8) s (if n % 8 ≠ 0 then write addr pos (n % 8) s else s) := by
        intro addr pos s ha he
        split
        · exact hR.write addr pos _ s (by omega) he
        · rename_i hzero
          rw [Classical.not_not.mp hzero]
          exact hR.nil addr pos s
      have hloop := splitPages_rel hR htail (n / 8) (write addr 0 cnt s) cnt
        (by omega : (addr + cnt) % 8 = 0) (by omega)
      rw [hndm] at hloop
      rw [Nat.zero_add]
      exact hloop

variable {τ : Type} {write' : Nat → Nat → Nat → τ → τ} {S : σ → τ → Prop}

theorem splitPages_sim (hS : ∀ addr pos length s t, S s t →
      S (write addr pos length s) (write' addr pos length t))
    {rest : Nat → Nat → σ → σ} {rest' : Nat → Nat → τ → τ}
    (hrest : ∀ addr pos s t, S s t → S (rest addr pos s) (rest' addr pos t)) (n : Nat) {s : σ} {t : τ}
    (pos : Nat) (h : S s t) :
    S (splitPages write rest n addr pos s) (splitPages write' rest' n addr pos t) := by
  induction n generalizing addr pos s t with
  | zero => exact hrest addr pos s t h
  | succ n ih => exact ih _ (hS _ _ _ _ _ h)

/-- Two page writes that agree, split alike, agree; the split does not look at the state. -/
theorem splitWrite_sim (hS : ∀ addr pos length s t, S s t →
      S (write addr pos length s) (write' addr pos length t)) {s : σ} {t : τ} (h : S s t) :
    S (splitWrite write addr length s) (splitWrite write' addr length t) := by
  rw [splitWrite, splitWrite]
  split
  · split
    · exact hS _ _ _ _ _ h
    · exact splitPages_sim hS (fun addr pos s t h => hS addr pos _ s t h) _ _ h
  · split
    · split
      · exact hS _ _ _ _ _ (hS _ _ _ _ _ h)
      · exact hS _ _ _ _ _ h
    · refine splitPages_sim hS (fun _ _ _ _ h => ?_) _ _ (hS _ _ _ _ _ h)
      split
      · exact hS _ _ _ _ _ h
      · exact h

end Split

/-- **The split** writes the whole range. -/
theorem multiPageWrite_wrote (e : Eeprom) (hend : addr + length ≤ 256) :
    Wrote addr (readMem pdata 0 length) e (at24cxxMultiPageWrite pdata addr length e) := by
  rw [multiPageWrite_eq_split]
  refine splitWrite_rel (R := fun addr pos length => Wrote addr (readMem pdata pos length)) ?_ e hend
  exact
    { nil := fun addr pos e => Wrote.nil addr e
      trans := fun _ h h' => h.trans h'
      write := fun addr pos length e hin hend => pageWrite_wrote e pos hin hend }

theorem countPages_mem (n startPage : Nat) (e : Eeprom) :
    (countPages n startPage e).mem = e.mem ∧ (countPages n startPage e).bus = e.bus := by
  induction n generalizing startPage e with
  | zero => exact ⟨rfl, rfl⟩
  | succ n ih =>
    rw [countPages]
    obtain ⟨hmem, hbus⟩ := ih ((startPage + 1) % 2 ^ 8)
      (if startPage < AT24CXX_VOLUME / PAGE_SIZE then
        { e with
          writeCycles := Function.update e.writeCycles startPage (e.writeCycles startPage + 1)
          totalWriteCycles := e.totalWriteCycles + 1 }
      else e)
    rw [hmem, hbus]
    split
    · exact ⟨rfl, rfl⟩
    · exact ⟨rfl, rfl⟩

/-! ### The entry points -/

/-- **A write in range** issues page writes that stay inside a page, stores the data, and leaves
every other byte as it was. -/
theorem writeData_stores_in_pages (pdata : Nat → UInt8) (e : Eeprom) (addr length : Nat)
    (hpos : 1 ≤ length) (hend : addr + length ≤ AT24CXX_VOLUME) :
    ∃ e', at24cxxWriteData pdata addr length e = (none, e') ∧
      (∃ ts, e'.bus = e.bus ++ ts ∧ ∀ t ∈ ts, t.InPage) ∧
      (∀ i < length, e'.mem (addr + i) = pdata i) ∧
      ∀ a, a < addr ∨ addr + length ≤ a → e'.mem a = e.mem a := by
  have hguard : ¬ (addr + length) % 2 ^ 32 > AT24CXX_VOLUME := by
    rw [AT24CXX_VOLUME] at *
    omega
  have hw : Wrote addr (readMem pdata 0 length) e (at24cxxMultiPageWrite pdata addr length e) :=
    multiPageWrite_wrote e hend
  rw [at24cxxWriteData, if_neg hguard]
  obtain ⟨hmem, hbus⟩ := countPages_mem _ _ (at24cxxMultiPageWrite pdata addr length e)
  refine ⟨_, rfl, ?_, ?_, ?_⟩
  · rw [at24cxxUpdateWriteCycleCount, hbus]
    exact hw.bus
  · intro i hi
    rw [at24cxxUpdateWriteCycleCount, hmem, hw.mem]
    have hget := getElem?_readMem pdata 0 length i
    rw [if_pos hi, Nat.zero_add] at hget
    rw [overlay, if_pos (Nat.le_add_right addr i), Nat.add_sub_cancel_left, hget, Option.getD_some]
  · intro a ha
    rw [at24cxxUpdateWriteCycleCount, hmem, hw.mem]
    rcases ha with ha | ha
    · exact overlay_of_lt ha
    · exact overlay_of_le (by rw [length_readMem]; exact ha)

/-- The chip as it is delivered. -/
def blank : Eeprom := ⟨fun _ => 0xFF, [], fun _ => 0, 0⟩

/-- A write that ends at the end of the chip. -/
theorem writeData_stores_at_end :
    251 + 5 ≤ AT24CXX_VOLUME ∧
      ∃ e', at24cxxWriteData (fun i => UInt8.ofNat i) 251 5 blank = (none, e') ∧
        e'.mem (251 + 4) = 4 := by
  obtain ⟨e', heq, -, hdata, -⟩ :=
    writeData_stores_in_pages (fun i => UInt8.ofNat i) blank 251 5 (by decide) (by decide)
  exact ⟨by decide, e', heq, hdata 4 (by decide)⟩

/-- An error is returned, and chip, bus and counters are as they were. -/
def Refused (q : Outcome Eeprom) (e : Eeprom) : Prop := q.1.isSome ∧ q.2 = e

theorem refused_error (err : Errno) (e : Eeprom) : Refused (some err, e) e := ⟨rfl, rfl⟩

theorem not_refused_ok (e e' : Eeprom) : ¬ Refused (none, e') e := fun h => Bool.false_ne_true h.1

/-- The range check fires exactly when the sum, which is out of range, does not wrap. -/
theorem guard_iff (haddr : addr < 2 ^ 8) (hlen : length < 2 ^ 32)
    (hout : AT24CXX_VOLUME < addr + length) :
    (addr + length) % 2 ^ 32 > AT24CXX_VOLUME ↔ addr + length < 2 ^ 32 := by
  rw [AT24CXX_VOLUME] at *
  omega

theorem writeData_refused_iff (pdata : Nat → UInt8) (e : Eeprom) (haddr : addr < 2 ^ 8)
    (hlen : length < 2 ^ 32) (hout : AT24CXX_VOLUME < addr + length) :
    Refused (at24cxxWriteData pdata addr length e) e ↔ addr + length < 2 ^ 32 := by
  rw [← guard_iff haddr hlen hout, at24cxxWriteData]
  split
  · rename_i h
    exact iff_of_true (refused_error _ e) h
  · rename_i h
    exact iff_of_false (not_refused_ok e _) h

/-- **Out of range.**  For an address and a length whose sum is past the end of the chip: a write,
a read and a write with retries return an error and touch nothing exactly when the sum is below
`2 ^ 32`; a write with no retry at all also returns an error when it is not. -/
theorem out_of_range_refused_iff (pdata : Nat → UInt8) (e : Eeprom) (addr length : Nat)
    (haddr : addr < 2 ^ 8) (hlen : length < 2 ^ 32) (hout : AT24CXX_VOLUME < addr + length) :
    (Refused (at24cxxWriteData pdata addr length e) e ↔ addr + length < 2 ^ 32) ∧
      (∀ maxRetry < 2 ^ 8, Refused (at24cxxWriteDataWithRetry pdata addr length maxRetry e) e ↔
        addr + length < 2 ^ 32 ∨ maxRetry = 0) ∧
      (Refused ((at24cxxReadData addr length e).1, (at24cxxReadData addr length e).2.2) e ↔
        addr + length < 2 ^ 32) := by
  have hguard := guard_iff haddr hlen hout
  refine ⟨writeData_refused_iff pdata e haddr hlen hout, ?_, ?_⟩
  · intro maxRetry _
    rw [← hguard, at24cxxWriteDataWithRetry]
    split
    · rename_i h
      exact iff_of_true (refused_error _ e) (.inl h)
    · rename_i h
      rcases maxRetry with _ | n
      · exact iff_of_true (refused_error _ e) (.inr rfl)
      · -- the first attempt is let through, and succeeds
        obtain ⟨e', hok⟩ : ∃ e', at24cxxWriteData pdata addr length e = (none, e') :=
          ⟨_, if_neg h⟩
        rw [retryWrite, hok]
        exact iff_of_false (not_refused_ok e _) (by omega)
  · rw [← hguard, at24cxxReadData]
    split
    · rename_i h
      exact iff_of_true (refused_error _ e) h
    · rename_i h
      exact iff_of_false (not_refused_ok e _) h

theorem out_of_range_refused_iff_last :
    AT24CXX_VOLUME < 255 + 2 ∧ Refused (at24cxxWriteData (fun _ => 0) 255 2 blank) blank :=
  ⟨by decide, (out_of_range_refused_iff (fun _ => 0) blank 255 2 (by decide) (by decide)
    (by decide)).1.mpr (by decide)⟩

/-- From address 1 on, `2 ^ 32 - 1` bytes are not refused. -/
theorem wrapped_length_written :
    AT24CXX_VOLUME < 1 + (2 ^ 32 - 1) ∧
      ¬ Refused (at24cxxWriteData (fun _ => 0) 1 (2 ^ 32 - 1) blank) blank := by
  refine ⟨by decide, fun h => ?_⟩
  have hlt := (writeData_refused_iff (fun _ => 0) blank (by decide) (by decide) (by decide)).mp h
  exact absurd hlt (by decide)

end Kinetis.At24cxx
