import Kinetis.Allocator.Realloc
import Mathlib.Algebra.Order.BigOperators.Group.List

/-!
# Allocator — the statistics

`mem_get_largest_free_block` walks the gaps of each region in its own way, and the two percentages
are computed in `u32`.

* `regionLargest_eq`: its walk yields the widest gap of the line of blocks;
* `alloc_succeeds_iff_largest`: an unaligned allocation succeeds exactly when a descriptor is left
  and the request is no longer than the largest free block;
* `percents_exact_iff`: the percentages are exact exactly while a hundred times the used bytes, and
  a hundred times the largest free block, fit in a `u32`.
-/

namespace Kinetis.Allocator
open Lib

variable {L : Layout} {s : State} {r : Nat} {c : RegionConfig}

/-! ### The largest free block -/

variable {reg : Region} {bs : List Block} {x y : Nat}

/-- The walk from one used block to the next, over a packed line. -/
theorem regionLargest_between (hsize : reg.size < 2 ^ 32) (hstop : reg.start + reg.size < 2 ^ 64)
    {best : Nat} {prev : Block} (hlo : reg.start ≤ prev.span.stop)
    (hp : Packed (reg.start + reg.size) prev.span.stop (bs.map Block.span)) :
    regionLargest.between reg best prev bs =
      max best (widestGap (reg.start + reg.size) prev.span.stop (bs.map Block.span)) := by
  induction bs generalizing best prev with
  | nil =>
    have hle : prev.span.stop ≤ reg.start + reg.size := hp
    rw [Block.span_stop] at hle hlo
    have hgap : (reg.start + reg.size + 2 ^ 64 - (prev.start + prev.actualSize) % 2 ^ 64) % 2 ^ 64
        % 2 ^ 32 = reg.start + reg.size - (prev.start + prev.actualSize) := by omega
    rw [regionLargest.between, hgap]
    rfl
  | cons b bs ih =>
    have hle := hp.2.le
    have hprev := hp.1
    rw [Block.span_stop] at hle
    rw [Block.span_stop, Block.span_start] at hprev
    rw [Block.span_stop] at hlo
    have hgap : (b.start + 2 ^ 64 - (prev.start + prev.actualSize) % 2 ^ 64) % 2 ^ 64 % 2 ^ 32 =
        b.start - (prev.start + prev.actualSize) := by omega
    rw [regionLargest.between, hgap, ih (by rw [Block.span_stop]; omega) hp.2, max_assoc]
    rfl

theorem regionLargest_eq (hsize : reg.size < 2 ^ 32) (hstop : reg.start + reg.size < 2 ^ 64)
    (hp : Packed (reg.start + reg.size) reg.start (bs.map Block.span)) :
    regionLargest reg bs = widestGap (reg.start + reg.size) reg.start (bs.map Block.span) := by
  cases bs with
  | nil =>
    rw [regionLargest, List.map_nil, widestGap, Nat.add_sub_cancel_left]
  | cons b bs =>
    have hle := hp.2.le
    have hlo := hp.1
    rw [Block.span_stop] at hle
    rw [Block.span_start] at hlo
    have hgap : (b.start + 2 ^ 64 - reg.start) % 2 ^ 64 % 2 ^ 32 = b.start - reg.start := by omega
    rw [regionLargest, hgap, regionLargest_between hsize hstop (by rw [Block.span_stop]; omega)
      hp.2]
    rfl

theorem Inv.regionLargest_eq (h : Inv L s) (hc : L.configs[r]? = some c) :
    regionLargest (s.regions r) (usedInRegion s r) =
      widestGap c.stop c.start.toNat (spans s r) := by
  have hp := h.packed_spans hc
  have hreg := h.regions r c hc
  have hstop : (s.regions r).start + (s.regions r).size = c.stop := by rw [hreg]; rfl
  have hstart : (s.regions r).start = c.start.toNat := by rw [hreg]
  have hsize : (s.regions r).size < 2 ^ 32 := by rw [hreg]; exact c.size.toNat_lt
  rw [← hstop, ← hstart] at hp ⊢
  exact Allocator.regionLargest_eq hsize (hstop ▸ L.stop_lt hc) hp

/-- The loop over the regions takes the widest of their gaps. -/
theorem Inv.le_largest_iff (h : Inv L s) (n : Nat) :
    n ≤ (memGetLargestFreeBlock s).2 ↔ n = 0 ∨ ∃ r < s.regionCount,
      n ≤ regionLargest (s.regions r) (usedInRegion s r) := by
  -- from region to region, the sort leaves everything but its flag alone
  have hloop : ∀ (rs : List Nat) (s₁ : State) (best : Nat), Resort s s₁ →
      (n ≤ (rs.foldl (fun p r =>
          let s := ensureBlocksSorted p.1
          (s, max p.2 (regionLargest (s.regions r) (usedInRegion s r)))) (s₁, best)).2 ↔
        n ≤ best ∨ ∃ r ∈ rs, n ≤ regionLargest (s.regions r) (usedInRegion s r)) := by
    intro rs
    induction rs with
    | nil =>
      intro s₁ best _
      simp
    | cons r rs ih =>
      intro s₁ best hs₁
      have hs₂ := hs₁.trans (h.sorted.resort hs₁).resort_sorted
      rw [List.foldl_cons, ih _ _ hs₂, le_max_iff, List.exists_mem_cons_iff, or_assoc]
      obtain ⟨_, hs₂⟩ := hs₂
      rw [hs₂]
      rfl
  refine (hloop (List.range s.regionCount) s 0 (.refl s)).trans ?_
  simp only [List.mem_range, Nat.le_zero]

/-- **The largest free block** is the length of the longest interval of a region that meets no live
block. -/
theorem Inv.le_largest_iff_room (h : Inv L s) (n : Nat) :
    n ≤ (memGetLargestFreeBlock s).2 ↔ ∃ r a, Room L s n 1 r a := by
  have hroom : ∀ r c, L.configs[r]? = some c →
      ((∃ a, Room L s n 1 r a) ↔ n ≤ regionLargest (s.regions r) (usedInRegion s r)) := by
    intro r c hc
    rw [h.regionLargest_eq hc, le_widestGap_iff (h.packed_spans hc)]
    refine exists_congr fun a => ?_
    rw [h.room_iff_fits hc, alignUp_one]
  have hregion : ∀ r a, Room L s n 1 r a → r < s.regionCount := by
    rintro r a ⟨c, hc, -⟩
    rw [h.regionCount]
    exact (List.getElem?_eq_some_iff.mp hc).1
  rw [h.le_largest_iff]
  constructor
  · rintro (rfl | ⟨r, hr, hle⟩)
    · -- an empty interval fits in the first region there is
      have hpos : 0 < s.regionCount := by
        rw [h.regionCount]
        exact List.length_pos_iff.mpr L.nonempty
      obtain ⟨c, hc⟩ := h.getElem?_configs hpos
      exact ⟨0, (hroom 0 c hc).mpr (Nat.zero_le _)⟩
    · obtain ⟨c, hc⟩ := h.getElem?_configs hr
      exact ⟨r, (hroom r c hc).mpr hle⟩
  · rintro ⟨r, a, hfit⟩
    have hr := hregion r a hfit
    obtain ⟨c, hc⟩ := h.getElem?_configs hr
    exact .inr ⟨r, hr, (hroom r c hc).mp ⟨a, hfit⟩⟩

theorem Inv.isGreatest_largest (h : Inv L s) :
    IsGreatest {n | ∃ r a, Room L s n 1 r a} (memGetLargestFreeBlock s).2 :=
  ⟨(h.le_largest_iff_room _).mp le_rfl, fun n hn => (h.le_largest_iff_room n).mpr hn⟩

/-! ### Unaligned allocations -/

/-- A gap of a line below `2 ^ 64` does not wrap when nothing is aligned. -/
theorem not_wrapGap_one {size hi : Nat} (hhi : hi < 2 ^ 64) :
    ∀ {lo : Nat} {bs : List Span}, Packed hi lo bs → ¬ WrapGap size 1 hi lo bs
  | lo, [], _, hw => by
    have htop := hw.2
    have hfit := hw.1
    rw [alignUp_one] at htop
    omega
  | lo, b :: bs, hp, hw => by
    rcases hw with hw | hw
    · have htop := hw.2
      have hfit := hw.1
      have hle := hp.2.le
      simp only [Span.stop] at hle
      rw [alignUp_one] at htop
      omega
    · exact not_wrapGap_one hhi hp.2 hw

theorem Inv.not_allocWraps_one (h : Inv L s) (size : Nat) : ¬ AllocWraps s size 1 := by
  rintro ⟨-, r, hr, hw, -⟩
  obtain ⟨c, hc⟩ := h.getElem?_configs hr
  exact not_wrapGap_one (L.stop_lt hc) (h.packed_spans hc) ((h.wraps_iff hc).mp hw).2

/-- **An unaligned allocation succeeds** exactly when a descriptor is left and the request is no
longer than the largest free block, in every state of a run whose calls never allocate from a gap
that wraps. -/
theorem alloc_succeeds_iff_largest (L : Layout) (s₀ : State) {s : State}
    (h : Run (fun s k => ¬ Wrapping s k) step (memInitWithConfig s₀ L.configs) s) (n : UInt32)
    (hn : 1 ≤ n.toNat) :
    (memAllocAligned s n.toNat 1).2 ≠ 0 ↔
      s.blockCount < MAX_BLOCKS ∧ n.toNat ≤ (memGetLargestFreeBlock s).2 := by
  have hinv := inv_of_run h
  have hans := hinv.firstFitAnswer n.toNat_lt (by decide) (hinv.not_allocWraps_one n.toNat)
  have hlt := n.toNat_lt
  rw [hans.ne_zero_iff, hinv.le_largest_iff_room]
  constructor
  · rintro ⟨-, -, -, hcount, hroom⟩
    exact ⟨hcount, hroom⟩
  · rintro ⟨hcount, hroom⟩
    exact ⟨by omega, ⟨0, rfl⟩, hlt, hcount, hroom⟩

theorem alloc_succeeds_iff_largest_sram :
    (memAllocAligned (sramAfter [.allocAligned 16 8]) 0xFF0 1).2 ≠ 0 :=
  (alloc_succeeds_iff_largest sramLayout .boot (run_sramAfter [.allocAligned 16 8]) 0xFF0
    (by decide)).mpr ⟨by decide +kernel, by decide +kernel⟩

/-- Behind a block that runs to the top the largest free block is the whole of the address space
below, cut to 32 bits, and nothing can be allocated there. -/
theorem largest_behind_top :
    (step (memInitWithConfig .boot topLayout.configs) (.allocAligned 0x1000 0x1000)).blockCount
        < MAX_BLOCKS ∧
      0x2000 ≤ (memGetLargestFreeBlock
        (step (memInitWithConfig .boot topLayout.configs) (.allocAligned 0x1000 0x1000))).2 ∧
      (memAllocAligned
        (step (memInitWithConfig .boot topLayout.configs) (.allocAligned 0x1000 0x1000))
        0x2000 1).2 = 0 := by
  refine ⟨by decide +kernel, by decide +kernel, by decide +kernel⟩

/-! ### Sums over the regions -/

/-- The bytes that the live blocks occupy. -/
def usedBytes (s : State) : Nat := ((live s).map Block.actualSize).sum

/-- The bytes of all regions. -/
def Layout.total (L : Layout) : Nat := (L.configs.map fun c => c.size.toNat).sum

theorem sumRegions_eq (s : State) (f : Region → Nat) :
    sumRegions s f = ((List.range s.regionCount).map fun i => f (s.regions i)).sum % 2 ^ 32 := by
  have hfold : ∀ (l : List Nat) (total : Nat),
      l.foldl (fun total i => (total + f (s.regions i)) % 2 ^ 32) (total % 2 ^ 32) =
        (total + (l.map fun i => f (s.regions i)).sum) % 2 ^ 32 := by
    intro l
    induction l with
    | nil =>
      intro total
      rfl
    | cons i l ih =>
      intro total
      rw [List.foldl_cons, Nat.mod_add_mod, ih, List.map_cons, List.sum_cons, Nat.add_assoc]
  have hzero := hfold (List.range s.regionCount) 0
  rw [Nat.zero_add] at hzero
  exact hzero

/-- The usages of all regions add up to the bytes of all blocks. -/
theorem sum_usage {n : Nat} (h : ∀ b ∈ bs, b.regionId < n) :
    ((List.range n).map fun r => usage r bs).sum = (bs.map Block.actualSize).sum := by
  induction bs with
  | nil =>
    have hzero : ∀ l : List Nat, (l.map fun r => usage r []).sum = 0 := by
      intro l
      induction l with
      | nil => rfl
      | cons r l ih => rw [List.map_cons, List.sum_cons, ih]; rfl
    exact hzero _
  | cons b bs ih =>
    obtain ⟨hb, hbs⟩ := List.forall_mem_cons.mp h
    have hone : ∀ n, ((List.range n).map fun r => if b.regionId = r then b.actualSize else 0).sum =
        if b.regionId < n then b.actualSize else 0 := by
      intro n
      induction n with
      | zero => rfl
      | succ n ihn =>
        rw [List.sum_range_succ, ihn]
        split <;> split <;> split <;> omega
    simp only [usage_cons]
    rw [List.sum_map_add, hone, if_pos hb, ih hbs, List.map_cons, List.sum_cons]

section sums

variable (h : Inv L s)
include h

theorem Inv.sum_used : ((List.range s.regionCount).map fun r => (s.regions r).memoryUsed).sum =
    usedBytes s := by
  rw [usedBytes, ← sum_usage (n := s.regionCount) fun b hb => ?_]
  · refine congrArg List.sum (List.map_congr_left fun r hr => ?_)
    obtain ⟨c, hc⟩ := h.getElem?_configs (List.mem_range.mp hr)
    rw [h.regions r c hc]
  · obtain ⟨c, hc, -⟩ := (h.heap.ok b hb).inside
    rw [h.regionCount]
    exact (List.getElem?_eq_some_iff.mp hc).1

theorem Inv.sum_size : ((List.range s.regionCount).map fun r => (s.regions r).size).sum =
    L.total := by
  refine congrArg List.sum (List.ext_getElem? fun r => ?_)
  rw [List.getElem?_map, List.getElem?_map]
  by_cases hr : r < s.regionCount
  · obtain ⟨c, hc⟩ := h.getElem?_configs hr
    rw [List.getElem?_range hr, hc, Option.map_some, Option.map_some, h.regions r c hc]
  · rw [List.getElem?_eq_none (by simpa using hr),
      List.getElem?_eq_none (by rw [← h.regionCount]; omega)]
    rfl

theorem Inv.sum_free :
    ((List.range s.regionCount).map fun r =>
        ((s.regions r).size + 2 ^ 32 - (s.regions r).memoryUsed) % 2 ^ 32).sum + usedBytes s =
      L.total := by
  rw [← h.sum_used, ← h.sum_size, ← List.sum_map_add]
  refine congrArg List.sum (List.map_congr_left fun r hr => ?_)
  obtain ⟨c, hc⟩ := h.getElem?_configs (List.mem_range.mp hr)
  have hle := h.heap.usage_le hc
  have hlt := c.size.toNat_lt
  rw [h.regions r c hc]
  simp only
  omega

end sums

/-! ### The percentages -/

section percents

variable (h : Inv L s) (htotal : L.total < 2 ^ 32)
include h htotal

theorem Inv.memGetTotal_eq : memGetTotal s = L.total := by
  rw [memGetTotal, sumRegions_eq, h.sum_size, Nat.mod_eq_of_lt htotal]

theorem Inv.memGetUsed_eq : memGetUsed s = usedBytes s := by
  have hsum := h.sum_free
  rw [memGetUsed, sumRegions_eq, h.sum_used, Nat.mod_eq_of_lt (by omega)]

theorem Inv.memGetFree_eq : memGetFree s = L.total - usedBytes s := by
  have hsum := h.sum_free
  rw [memGetFree, sumRegions_eq]
  omega

end percents

/-- A scaled quotient computed in `u32` is exact exactly when the product fits. -/
theorem scaled_div_eq_iff {d : Nat} (hd : 0 < d) (hd' : d < 2 ^ 32) :
    x * 100 % 2 ^ 32 / d = 100 * x / d ↔ 100 * x < 2 ^ 32 := by
  constructor
  · intro heq
    by_contra hge
    -- the part that is cut off is at least one more `d`
    have hcut : x * 100 % 2 ^ 32 + d ≤ 100 * x := by
      have := Nat.mod_add_div (x * 100) (2 ^ 32)
      have hdiv : 1 ≤ x * 100 / 2 ^ 32 := by omega
      omega
    have hle := Nat.div_le_div_right (c := d) hcut
    rw [Nat.add_div_right _ hd] at hle
    omega
  · intro hlt
    rw [Nat.mul_comm x, Nat.mod_eq_of_lt hlt]

/-- The widest gap of a region is within its free bytes, and nil only if it has none. -/
theorem Inv.regionLargest_free (h : Inv L s) (hr : r < s.regionCount) :
    regionLargest (s.regions r) (usedInRegion s r) + (s.regions r).memoryUsed ≤ (s.regions r).size ∧
      (regionLargest (s.regions r) (usedInRegion s r) = 0 →
        (s.regions r).memoryUsed = (s.regions r).size) := by
  obtain ⟨c, hc⟩ := h.getElem?_configs hr
  have hsum : ((spans s r).map Span.len).sum = usage r (live s) := by
    rw [spans, h.usedInRegion_eq, List.map_map]
    rfl
  obtain ⟨hle, hnil⟩ := (h.packed_spans hc).widestGap_add_sum_le
  rw [RegionConfig.stop] at hle hnil
  rw [h.regionLargest_eq hc, h.regions r c hc]
  simp only
  rw [RegionConfig.stop]
  omega

/-- The largest free block is within the free bytes, and nil only if there are none. -/
theorem Inv.largest_free (h : Inv L s) :
    (memGetLargestFreeBlock s).2 ≤ L.total - usedBytes s ∧
      ((memGetLargestFreeBlock s).2 = 0 → L.total - usedBytes s = 0) := by
  have hsum := h.sum_free
  have hterm : ∀ r < s.regionCount,
      ((s.regions r).size + 2 ^ 32 - (s.regions r).memoryUsed) % 2 ^ 32 =
        (s.regions r).size - (s.regions r).memoryUsed := by
    intro r hr
    obtain ⟨c, hc⟩ := h.getElem?_configs hr
    have hle := h.heap.usage_le hc
    have hlt := c.size.toNat_lt
    rw [h.regions r c hc]
    simp only
    omega
  constructor
  · rcases (h.le_largest_iff (memGetLargestFreeBlock s).2).mp le_rfl with hzero | ⟨r, hr, hle⟩
    · omega
    · have hmem := List.le_sum_of_mem (List.mem_map_of_mem (f := fun r =>
        ((s.regions r).size + 2 ^ 32 - (s.regions r).memoryUsed) % 2 ^ 32) (List.mem_range.mpr hr))
      have hfree := (h.regionLargest_free hr).1
      simp only [hterm r hr] at hmem
      omega
  · intro hzero
    have hall : ∀ x ∈ (List.range s.regionCount).map (fun r =>
        ((s.regions r).size + 2 ^ 32 - (s.regions r).memoryUsed) % 2 ^ 32), x = 0 := by
      intro x hx
      obtain ⟨r, hr, rfl⟩ := List.mem_map.mp hx
      have hr := List.mem_range.mp hr
      have hgap : regionLargest (s.regions r) (usedInRegion s r) = 0 := by
        have hle := (h.le_largest_iff _).mpr (.inr ⟨r, hr, le_rfl⟩)
        omega
      have hfull := (h.regionLargest_free hr).2 hgap
      rw [hterm r hr]
      omega
    have hnil := List.sum_eq_zero hall
    omega

theorem asInt_of_le (h : x ≤ 100) : asInt x = x := by
  rw [asInt, if_pos (by omega)]

theorem percent_iff (h : x ≤ 100) :
    ((x : Int) = (y : Nat) ∧ 0 ≤ (x : Int) ∧ (x : Int) ≤ 100) ↔ x = y := by
  omega

/-- A share of a whole is at most a hundred, wrapped or not. -/
theorem scaled_div_le (h : x ≤ y) : x * 100 % 2 ^ 32 / y ≤ 100 := by
  have hle : x * 100 % 2 ^ 32 ≤ 100 * y := (Nat.mod_le _ _).trans (by omega)
  exact Nat.div_le_of_le_mul (by rwa [Nat.mul_comm y])

/-- The usage is exact while a hundred times the used bytes fit in a `u32`. -/
theorem Inv.usage_exact_iff (h : Inv L s) (htotal : L.total < 2 ^ 32) (hpos : 0 < L.total) :
    (memGetUsagePercent s = (100 * usedBytes s / L.total : Nat) ∧
      0 ≤ memGetUsagePercent s ∧ memGetUsagePercent s ≤ 100) ↔ 100 * usedBytes s < 2 ^ 32 := by
  have hsum := h.sum_free
  have husage : usedBytes s * 100 % 2 ^ 32 / L.total ≤ 100 := scaled_div_le (by omega)
  have heq : memGetUsagePercent s = (usedBytes s * 100 % 2 ^ 32 / L.total : Nat) := by
    rw [memGetUsagePercent, h.memGetTotal_eq htotal, h.memGetUsed_eq htotal, if_neg hpos.ne',
      asInt_of_le husage]
  rw [heq, ← scaled_div_eq_iff hpos htotal]
  exact percent_iff husage

/-- The fragmentation is exact while a hundred times the largest free block fit in a `u32`. -/
theorem Inv.fragmentation_exact_iff (h : Inv L s) (htotal : L.total < 2 ^ 32) {m : Nat}
    (hm : (memGetLargestFreeBlock s).2 = m) :
    ((memGetFragmentationPercent s).2 =
        (if L.total - usedBytes s = 0 then 0 else 100 - 100 * m / (L.total - usedBytes s) : Nat) ∧
      0 ≤ (memGetFragmentationPercent s).2 ∧ (memGetFragmentationPercent s).2 ≤ 100) ↔
      100 * m < 2 ^ 32 := by
  obtain ⟨hfree, hnil⟩ := h.largest_free
  rw [hm] at hfree hnil
  by_cases hnone : L.total - usedBytes s = 0
  · -- nothing is free
    have hfrag : (memGetFragmentationPercent s).2 = 0 := by
      rw [memGetFragmentationPercent, h.memGetFree_eq htotal, hnone]
      rfl
    rw [if_pos hnone]
    omega
  · have hm0 : m ≠ 0 := fun h0 => hnone (hnil h0)
    have hquot := scaled_div_le hfree
    have hexact : 100 * m / (L.total - usedBytes s) ≤ 100 :=
      Nat.div_le_of_le_mul (by rw [Nat.mul_comm]; exact Nat.mul_le_mul_right 100 hfree)
    have hmod : ∀ x ≤ 100, (100 + 2 ^ 32 - x) % 2 ^ 32 = 100 - x := by
      intro x hx
      omega
    have hfrag : (memGetFragmentationPercent s).2 =
        (100 - m * 100 % 2 ^ 32 / (L.total - usedBytes s) : Nat) := by
      rw [memGetFragmentationPercent, h.memGetFree_eq htotal]
      simp only [hm]
      rw [if_neg (not_or.mpr ⟨hnone, hm0⟩)]
      simp only [hmod _ hquot]
      exact asInt_of_le (Nat.sub_le _ _)
    have hdiv := scaled_div_eq_iff (x := m) (Nat.pos_of_ne_zero hnone)
      (Nat.lt_of_le_of_lt (Nat.sub_le _ _) htotal)
    rw [hfrag, if_neg hnone, ← hdiv, percent_iff (Nat.sub_le _ _)]
    exact ⟨fun he => by rw [← Nat.sub_sub_self hquot, he, Nat.sub_sub_self hexact],
      fun he => by rw [he]⟩

/-- **The percentages are exact** exactly while a hundred times the used bytes and a hundred times
the largest free block fit in a `u32`, in every state of a run whose calls never allocate from a gap
that wraps; they always lie between 0 and 100. -/
theorem percents_exact_iff (L : Layout) (s₀ : State) {s : State} (htotal : L.total < 2 ^ 32)
    (hpos : 0 < L.total)
    (h : Run (fun s k => ¬ Wrapping s k) step (memInitWithConfig s₀ L.configs) s) {m : Nat}
    (hm : IsGreatest {n | ∃ r a, Room L s n 1 r a} m) :
    ((memGetUsagePercent s = (100 * usedBytes s / L.total : Nat) ∧
        0 ≤ memGetUsagePercent s ∧ memGetUsagePercent s ≤ 100) ∧
      (memGetFragmentationPercent s).2 =
          (if L.total - usedBytes s = 0 then 0 else 100 - 100 * m / (L.total - usedBytes s) : Nat) ∧
        0 ≤ (memGetFragmentationPercent s).2 ∧ (memGetFragmentationPercent s).2 ≤ 100) ↔
      100 * usedBytes s < 2 ^ 32 ∧ 100 * m < 2 ^ 32 := by
  have hinv := inv_of_run h
  have hlargest : (memGetLargestFreeBlock s).2 = m := hinv.isGreatest_largest.unique hm
  exact and_congr (hinv.usage_exact_iff htotal hpos) (hinv.fragmentation_exact_iff htotal hlargest)

theorem percents_exact_iff_sram :
    memGetUsagePercent (sramAfter [.allocAligned 16 8]) =
      (100 * usedBytes (sramAfter [.allocAligned 16 8]) / sramLayout.total : Nat) :=
  ((percents_exact_iff sramLayout .boot (by decide) (by decide) (run_sramAfter [.allocAligned 16 8])
    (inv_of_run (run_sramAfter _)).isGreatest_largest).mpr
    ⟨by decide +kernel, by decide +kernel⟩).1.1

/-- One pool of 64 MiB in external memory. -/
def sdramLayout : Layout where
  configs := [⟨0x60000000, 0x4000000⟩]
  nonempty := by decide
  length := by decide
  start := by decide
  noWrap := by decide
  disjoint := by decide

/-- **The product wraps**: with three quarters of 64 MiB used the usage reads 11 %, and the pool
reads 64 % fragmented while it is empty. -/
theorem percents_wrap_sdram :
    memGetUsagePercent (step (memInitWithConfig .boot sdramLayout.configs)
        (.allocAligned 0x3000000 4)) = 11 ∧
      100 * usedBytes (step (memInitWithConfig .boot sdramLayout.configs)
        (.allocAligned 0x3000000 4)) / sdramLayout.total = 75 ∧
      (memGetFragmentationPercent (memInitWithConfig .boot sdramLayout.configs)).2 = 64 ∧
      (memGetLargestFreeBlock (memInitWithConfig .boot sdramLayout.configs)).2 =
        sdramLayout.total := by
  refine ⟨by decide +kernel, by decide +kernel, by decide +kernel, by decide +kernel⟩

end Kinetis.Allocator
