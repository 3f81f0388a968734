import Kinetis.Eeprom.At24cxx
import Mathlib.Algebra.BigOperators.Group.Finset.Piecewise
import Mathlib.Data.UInt

/-!
# Eeprom — the write counters

`at24cxx_write_data` counts, for every page of the chip, the calls that wrote to it, and all of
these together.  The pages are computed from the first and the last address of the call, as `u8`s;
for a call of no bytes the last address is the one before the first.

* `countPages_total`: the total is the sum of the counters, whatever the calls are.
* `counters_agree`: over calls that write something inside the chip, or are refused, a page's
  counter is the number of calls that wrote to it.
-/

namespace Kinetis.At24cxx
open Lib

def at24cxxInitWearLeveling (e : Eeprom) : Eeprom :=
  { e with writeCycles := fun _ => 0, totalWriteCycles := 0 }

/-- The arguments of a call of `at24cxx_write_data`. -/
structure Call where
  addr   : UInt8
  pdata  : Nat → UInt8
  length : UInt32

def Call.run (c : Call) (e : Eeprom) : Eeprom :=
  (at24cxxWriteData c.pdata c.addr.toNat c.length.toNat e).2

def runCalls : List Call → Eeprom → Eeprom
  | [], e => e
  | c :: calls, e => runCalls calls (c.run e)

/-- A page write of at least a byte, to the page `p`. -/
def Transfer.writesPage (p : Nat) : Transfer → Bool
  | .write addr data => !data.isEmpty && addr / PAGE_SIZE == p
  | .read .. => false

/-- Between `e` and `e'` a byte of the page `p` was written. -/
def wrotePage (p : Nat) (e e' : Eeprom) : Bool := (e'.bus.drop e.bus.length).any (·.writesPage p)

/-- The number of calls that write a byte of the page `p`. -/
def pageWrites (p : Nat) : List Call → Eeprom → Nat
  | [], _ => 0
  | c :: calls, e => (if wrotePage p e (c.run e) then 1 else 0) + pageWrites p calls (c.run e)

/-! ### The counting loop -/

variable {pdata : Nat → UInt8} {e e' : Eeprom} {addr length : Nat}

/-- One page counted. -/
def countPage (startPage : Nat) (e : Eeprom) : Eeprom :=
  if startPage < AT24CXX_VOLUME / PAGE_SIZE then
    { e with
      writeCycles := Function.update e.writeCycles startPage (e.writeCycles startPage + 1)
      totalWriteCycles := e.totalWriteCycles + 1 }
  else e

theorem countPages_succ (n startPage : Nat) (e : Eeprom) :
    countPages (n + 1) startPage e = countPages n ((startPage + 1) % 2 ^ 8) (countPage startPage e) :=
  rfl

theorem countPage_writeCycles {startPage : Nat} (h : startPage < 32) (e : Eeprom) (p : Nat) :
    (countPage startPage e).writeCycles p = e.writeCycles p + if p = startPage then 1 else 0 := by
  have hpage : startPage < AT24CXX_VOLUME / PAGE_SIZE := h
  rw [countPage, if_pos hpage]
  show Function.update e.writeCycles startPage (e.writeCycles startPage + 1) p = _
  by_cases hp : p = startPage
  · rw [hp, Function.update_self, if_pos rfl]
  · rw [Function.update_of_ne hp, if_neg hp, add_zero]

/-- Inside the chip, the loop counts every page of its range once. -/
theorem countPages_writeCycles (n : Nat) {startPage : Nat} (e : Eeprom) (p : Nat)
    (h : startPage + n ≤ 32) :
    (countPages n startPage e).writeCycles p =
      e.writeCycles p + if startPage ≤ p ∧ p < startPage + n then 1 else 0 := by
  induction n generalizing startPage e with
  | zero => rw [countPages, if_neg (by omega), add_zero]
  | succ n ih =>
    have hnext : (startPage + 1) % 2 ^ 8 = startPage + 1 := by omega
    rw [countPages_succ, ih _ (by omega), countPage_writeCycles (by omega)]
    by_cases hp : p = startPage
    · rw [if_pos hp, if_neg (by omega), if_pos (by omega), add_zero]
    · rw [if_neg hp, add_zero]
      refine congrArg _ (if_congr ?_ rfl rfl)
      omega

/-- The total is the sum of the counters. -/
def Summed (e : Eeprom) : Prop := e.totalWriteCycles = ∑ p ∈ Finset.range 32, e.writeCycles p

theorem countPage_total (startPage : Nat) (h : Summed e) : Summed (countPage startPage e) := by
  rw [countPage]
  split
  · rename_i hpage
    have hmem : startPage ∈ Finset.range 32 := Finset.mem_range.mpr hpage
    show e.totalWriteCycles + 1 = _
    rw [Finset.sum_update_of_mem hmem, h, Finset.sum_eq_add_sum_sdiff_singleton_of_mem hmem]
    exact add_right_comm _ _ _
  · exact h

/-- **The loop keeps the total**, wherever it starts and however long it is. -/
theorem countPages_total (n startPage : Nat) (h : Summed e) : Summed (countPages n startPage e) := by
  induction n generalizing startPage e with
  | zero => exact h
  | succ n ih => exact ih _ (countPage_total startPage h)

/-! ### The pages a call writes -/

/-- From `e` to `e'` the pages of the range were written, and no others. -/
def PagesWritten (addr _pos length : Nat) (e e' : Eeprom) : Prop :=
  ∃ ts, e'.bus = e.bus ++ ts ∧
    ∀ p, (∃ t ∈ ts, t.writesPage p = true) ↔ ∃ a, addr ≤ a ∧ a < addr + length ∧ a / 8 = p

theorem pagesWritten_nil (addr pos : Nat) (e : Eeprom) : PagesWritten addr pos 0 e e :=
  ⟨[], (List.append_nil _).symm, fun _ =>
    iff_of_false (fun ⟨_, ht, _⟩ => List.not_mem_nil ht) fun ⟨_, hle, hlt, _⟩ =>
      absurd hlt (Nat.not_lt.mpr hle)⟩

theorem splitRule_pages : SplitRule (at24cxxPageWrite pdata) PagesWritten where
  nil := pagesWritten_nil
  trans := by
    rintro addr pos m n e e' e'' - ⟨ts, hbus, hiff⟩ ⟨ts', hbus', hiff'⟩
    refine ⟨ts ++ ts', by rw [hbus', hbus, List.append_assoc], fun p => ?_⟩
    simp only [List.mem_append, or_and_right, exists_or, hiff p, hiff' p]
    constructor
    · rintro (⟨a, hle, hlt, hp⟩ | ⟨a, hle, hlt, hp⟩)
      · exact ⟨a, hle, by omega, hp⟩
      · exact ⟨a, by omega, by omega, hp⟩
    · rintro ⟨a, hle, hlt, hp⟩
      rcases Nat.lt_or_ge a (addr + m) with ham | ham
      · exact .inl ⟨a, hle, ham, hp⟩
      · exact .inr ⟨a, ham, by omega, hp⟩
  write := by
    intro addr pos length e hfit hend
    have hlen : length % 2 ^ 8 = length := by omega
    rw [at24cxxPageWrite, iicMasterPortMultiTransmit, hlen]
    split
    · rename_i hzero
      subst hzero
      exact pagesWritten_nil addr pos e
    · rename_i hpos
      refine ⟨_, rfl, fun p => ?_⟩
      have hdata : (readMem pdata pos length).isEmpty = false := by
        rw [List.isEmpty_eq_false_iff_exists_mem]
        exact ⟨_, List.mem_map.mpr ⟨0, List.mem_range.mpr (by omega), rfl⟩⟩
      have hpage : (Transfer.write (addr % 2 ^ 8) (readMem pdata pos length)).writesPage p = true ↔
          addr % 2 ^ 8 / 8 = p := by
        rw [Transfer.writesPage, hdata, PAGE_SIZE, Bool.not_false, Bool.true_and, beq_iff_eq]
      simp only [List.mem_singleton, exists_eq_left, hpage]
      constructor
      · intro h
        exact ⟨addr, Nat.le_refl _, by omega, by omega⟩
      · rintro ⟨a, hle, hlt, rfl⟩
        omega

/-- The split looks at a `u16` of the length only. -/
theorem multiPageWrite_congr {length' : Nat} (h : length % 2 ^ 16 = length' % 2 ^ 16) (e : Eeprom) :
    at24cxxMultiPageWrite pdata addr length e = at24cxxMultiPageWrite pdata addr length' e := by
  rw [at24cxxMultiPageWrite, at24cxxMultiPageWrite]
  simp only [h]

/-! ### A call -/

/-- The call is refused, or it ends after its address, as the sum of the two wraps, or it is a call
of no bytes at the start of a page other than the first. -/
def Call.Sound (c : Call) : Prop :=
  let last := (c.addr.toNat + c.length.toNat) % 2 ^ 32
  last > AT24CXX_VOLUME ∨ c.addr.toNat < last ∨
    c.length.toNat = 0 ∧ c.addr.toNat % PAGE_SIZE = 0 ∧ c.addr.toNat ≠ 0

theorem wrotePage_self (p : Nat) (e : Eeprom) : wrotePage p e e = false := by
  rw [wrotePage, List.drop_length]
  rfl

/-- Writing to the chip does not touch the counters. -/
theorem multiPageWrite_counters (pdata : Nat → UInt8) (addr length : Nat) (e : Eeprom) :
    (at24cxxMultiPageWrite pdata addr length e).writeCycles = e.writeCycles ∧
      (at24cxxMultiPageWrite pdata addr length e).totalWriteCycles = e.totalWriteCycles := by
  rw [multiPageWrite_eq_split]
  refine @splitWrite_sim _ _ _ _ _ (fun _ _ _ (u : Unit) => u)
    (fun (s : Eeprom) _ => s.writeCycles = e.writeCycles ∧
      s.totalWriteCycles = e.totalWriteCycles) ?_ _ () ⟨rfl, rfl⟩
  intro addr pos length s _ h
  rw [at24cxxPageWrite, iicMasterPortMultiTransmit]
  split
  · exact h
  · exact h

theorem wrotePage_iff {ts : List Transfer} (h : e'.bus = e.bus ++ ts) (p : Nat) :
    wrotePage p e e' = true ↔ ∃ t ∈ ts, t.writesPage p = true := by
  rw [wrotePage, h, List.drop_left, List.any_eq_true]

/-- The pages that are counted, from the first and the last address, are those of the range. -/
theorem counted_pages {last n : Nat} (haddr : addr < 256) (hlast : last ≤ 256)
    (hsound : addr < last ∨ last = addr ∧ addr % 8 = 0 ∧ addr ≠ 0)
    (hn : n = ((last + 2 ^ 32 - 1) % 2 ^ 8 / 8 + 2 ^ 32 - addr / 8 + 1) % 2 ^ 32) :
    addr / 8 + n ≤ 32 ∧
      ∀ p, (addr / 8 ≤ p ∧ p < addr / 8 + n) ↔ ∃ a, addr ≤ a ∧ a < last ∧ a / 8 = p := by
  refine ⟨by omega, fun p => ⟨fun h => ?_, ?_⟩⟩
  · exact ⟨max addr (8 * p), by omega, by omega, by omega⟩
  · rintro ⟨a, hle, hlt, rfl⟩
    omega

/-- **A write** counts the pages it writes, and no others. -/
theorem writeData_counts (pdata : Nat → UInt8) (e : Eeprom) (haddr : addr < 2 ^ 8)
    (hlength : length < 2 ^ 32) (hguard : (addr + length) % 2 ^ 32 ≤ 256)
    (hsound : addr < (addr + length) % 2 ^ 32 ∨ length = 0 ∧ addr % 8 = 0 ∧ addr ≠ 0) (p : Nat) :
    (at24cxxWriteData pdata addr length e).2.writeCycles p = e.writeCycles p +
      if wrotePage p e (at24cxxWriteData pdata addr length e).2 then 1 else 0 := by
  obtain ⟨last, hlast⟩ : ∃ last, (addr + length) % 2 ^ 32 = last := ⟨_, rfl⟩
  rw [hlast] at hguard hsound
  obtain ⟨n, hn⟩ : ∃ n, n = ((last + 2 ^ 32 - 1) % 2 ^ 8 / 8 + 2 ^ 32 - addr / 8 + 1) % 2 ^ 32 :=
    ⟨_, rfl⟩
  obtain ⟨hin, hpages⟩ := counted_pages (by omega) hguard (by omega) hn
  have hrun : (at24cxxWriteData pdata addr length e).2 =
      countPages n (addr / 8) (at24cxxMultiPageWrite pdata addr (last - addr) e) := by
    have hsame : length % 2 ^ 16 = (last - addr) % 2 ^ 16 := by omega
    have hstart : addr % 2 ^ 8 / 8 = addr / 8 := by rw [Nat.mod_eq_of_lt haddr]
    have hend : (addr + length + 2 ^ 32 - 1) % 2 ^ 8 = (last + 2 ^ 32 - 1) % 2 ^ 8 := by omega
    have hcount : ((addr + length + 2 ^ 32 - 1) % 2 ^ 8 / 8 + 2 ^ 32 - addr % 2 ^ 8 / 8 + 1) %
        2 ^ 32 = n := by rw [hend, hstart, hn]
    rw [at24cxxWriteData, if_neg (by rw [AT24CXX_VOLUME]; omega)]
    simp only [at24cxxUpdateWriteCycleCount, PAGE_SIZE]
    rw [hcount, hstart, multiPageWrite_congr hsame]
  have hrule : SplitRule (at24cxxPageWrite pdata) PagesWritten := splitRule_pages
  obtain ⟨ts, hbus, hiff⟩ := splitWrite_rel hrule e
    (show addr + (last - addr) ≤ 256 by omega)
  rw [← multiPageWrite_eq_split] at hbus
  have hsent : (at24cxxWriteData pdata addr length e).2.bus = e.bus ++ ts := by
    rw [hrun, (countPages_mem _ _ _).2, hbus]
  have hwrote := wrotePage_iff hsent p
  rw [hiff p] at hwrote
  rw [hrun, countPages_writeCycles n _ p hin, (multiPageWrite_counters pdata addr _ e).1, ← hrun]
  refine congrArg _ (if_congr ?_ rfl rfl)
  rw [hpages p, hwrote]
  refine exists_congr fun a => ?_
  omega

theorem Call.run_counts {c : Call} (hsound : c.Sound) (e : Eeprom) (p : Nat) :
    (c.run e).writeCycles p = e.writeCycles p + if wrotePage p e (c.run e) then 1 else 0 := by
  by_cases hguard : (c.addr.toNat + c.length.toNat) % 2 ^ 32 > AT24CXX_VOLUME
  · have hrefused : c.run e = e := by rw [Call.run, at24cxxWriteData, if_pos hguard]
    rw [hrefused, wrotePage_self, if_neg Bool.false_ne_true, add_zero]
  · exact writeData_counts c.pdata e c.addr.toNat_lt c.length.toNat_lt (Nat.not_lt.mp hguard)
      (hsound.resolve_left hguard) p

theorem Call.run_summed (c : Call) (h : Summed e) : Summed (c.run e) := by
  rw [Call.run, at24cxxWriteData]
  split
  · exact h
  · refine countPages_total _ _ ?_
    obtain ⟨hcycles, htotal⟩ := multiPageWrite_counters c.pdata c.addr.toNat c.length.toNat e
    rw [Summed, hcycles, htotal]
    exact h

/-! ### Any sequence of calls -/

theorem runCalls_summed (calls : List Call) (h : Summed e) : Summed (runCalls calls e) := by
  induction calls generalizing e with
  | nil => exact h
  | cons c calls ih => exact ih (c.run_summed h)

theorem runCalls_counts {calls : List Call} (hsound : ∀ c ∈ calls, c.Sound) (e : Eeprom) (p : Nat) :
    (runCalls calls e).writeCycles p = e.writeCycles p + UInt32.ofNat (pageWrites p calls e) := by
  induction calls generalizing e with
  | nil => exact (add_zero _).symm
  | cons c calls ih =>
    rw [List.forall_mem_cons] at hsound
    rw [runCalls, ih hsound.2, c.run_counts hsound.1, pageWrites, UInt32.ofNat_add, add_assoc]
    split <;> rfl

theorem pageWrites_le (p : Nat) (calls : List Call) (e : Eeprom) :
    pageWrites p calls e ≤ calls.length := by
  induction calls generalizing e with
  | nil => exact Nat.le_refl 0
  | cons c calls ih =>
    have hrest := ih (c.run e)
    rw [pageWrites, List.length_cons]
    split <;> omega

/-- **The counters.**  From fresh counters, after any calls of `at24cxx_write_data`: the total is the
sum of the counters, as a `u32`; and if every call is sound, and they are fewer than `2 ^ 32`, the
counter of a page is the number of calls that wrote a byte of it. -/
theorem counters_agree (e : Eeprom) (calls : List Call) :
    ((runCalls calls (at24cxxInitWearLeveling e)).totalWriteCycles =
        ∑ p ∈ Finset.range (AT24CXX_VOLUME / PAGE_SIZE),
          (runCalls calls (at24cxxInitWearLeveling e)).writeCycles p) ∧
      ((∀ c ∈ calls, c.Sound) → calls.length < 2 ^ 32 → ∀ p < AT24CXX_VOLUME / PAGE_SIZE,
        ((runCalls calls (at24cxxInitWearLeveling e)).writeCycles p).toNat =
          pageWrites p calls (at24cxxInitWearLeveling e)) := by
  refine ⟨runCalls_summed calls ?_, fun hsound hlen p _ => ?_⟩
  · exact (Finset.sum_const_zero (s := Finset.range 32)).symm
  · rw [runCalls_counts hsound]
    have hle := pageWrites_le p calls (at24cxxInitWearLeveling e)
    show (0 + UInt32.ofNat _).toNat = _
    rw [zero_add, UInt32.toNat_ofNat']
    exact Nat.mod_eq_of_lt (by omega)

/-- A write over the end of a page, and then one of no bytes at the start of another. -/
theorem counters_agree_two :
    (((runCalls [⟨6, fun _ => 1, 4⟩, ⟨8, fun _ => 1, 0⟩]
        (at24cxxInitWearLeveling blank)).writeCycles 1).toNat = 1) := by
  have hcounts := (counters_agree blank [⟨6, fun _ => 1, 4⟩, ⟨8, fun _ => 1, 0⟩]).2
    (by simp only [Call.Sound]; decide) (by decide) 1 (by decide)
  rw [hcounts]
  rfl

/-- A write of no bytes at address 0 counts every page. -/
theorem empty_write_counted :
    pageWrites 5 [⟨0, fun _ => 1, 0⟩] (at24cxxInitWearLeveling blank) = 0 ∧
      (runCalls [⟨0, fun _ => 1, 0⟩] (at24cxxInitWearLeveling blank)).writeCycles 5 = 1 := by
  decide

end Kinetis.At24cxx
