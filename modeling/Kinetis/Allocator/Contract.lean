import Kinetis.Allocator.Safety

/-!
# Allocator — the contract of the public interface

What a client of `memory_allocator.h` may rely on, stated over the C state with no reference to
the internal invariant, and proved of every state a run of the interface reaches.

* `WellFormed`: the descriptor table and the usage counters.
* `FirstFitAnswer`: the answer of `mem_alloc_aligned`.
-/

namespace Kinetis.Allocator
open Lib

/-- The table and the counters, over the regions of `L`. -/
structure WellFormed (L : Layout) (s : State) : Prop where
  regionCount : s.regionCount = L.configs.length
  regions     : ∀ r c, L.configs[r]? = some c →
    (s.regions r).start = c.start.toNat ∧ (s.regions r).size = c.size.toNat
  count       : s.blockCount ≤ MAX_BLOCKS
  used_iff    : ∀ i < MAX_BLOCKS, (s.blocks i).status = .used ↔ i < s.blockCount
  increasing  : ∀ i j, i < j → j < s.blockCount → (s.blocks i).start < (s.blocks j).start
  disjoint    : ∀ i j, i < s.blockCount → j < s.blockCount → i ≠ j →
    (s.blocks i).start + (s.blocks i).actualSize ≤ (s.blocks j).start ∨
      (s.blocks j).start + (s.blocks j).actualSize ≤ (s.blocks i).start
  inside      : ∀ i < s.blockCount, ∃ c, L.configs[(s.blocks i).regionId]? = some c ∧
    c.start.toNat ≤ (s.blocks i).start ∧
      (s.blocks i).start + (s.blocks i).actualSize ≤ c.start.toNat + c.size.toNat
  size_le     : ∀ i < s.blockCount, (s.blocks i).size ≤ (s.blocks i).actualSize
  used_eq     : ∀ r < s.regionCount, (s.regions r).memoryUsed = usage r (live s)
  used_le     : ∀ r < s.regionCount, (s.regions r).memoryUsed ≤ (s.regions r).size

variable {L : Layout} {s s₀ : State}

theorem Inv.wellFormed (h : Inv L s) : WellFormed L s where
  regionCount := h.regionCount
  regions r c hc := by rw [h.regions r c hc]; exact ⟨rfl, rfl⟩
  count := h.count
  used_iff i hi := by
    refine ⟨fun hused => ?_, fun hlt => (h.heap.ok _ (mem_live_of_lt hlt)).used⟩
    by_contra hge
    rw [h.free i (Nat.not_lt.mp hge) hi] at hused
    cases hused
  increasing i j hij hj := h.start_lt hij hj
  disjoint := by
    have hall := List.pairwise_iff_getElem.mp h.heap.order
    simp only [getElem_live, length_live, Block.span_stop] at hall
    intro i j hi hj hne
    rcases Nat.lt_or_gt_of_ne hne with hlt | hlt
    · exact .inl (hall i j hi hj hlt)
    · exact .inr (hall j i hj hi hlt)
  inside i hi := (h.heap.ok _ (mem_live_of_lt hi)).inside
  size_le i hi := (h.heap.ok _ (mem_live_of_lt hi)).size_le
  used_eq r hr := by
    obtain ⟨c, hc⟩ := h.getElem?_configs hr
    rw [h.regions r c hc]
  used_le r hr := by
    obtain ⟨c, hc⟩ := h.getElem?_configs hr
    rw [h.regions r c hc]
    exact h.heap.usage_le hc

/-- A block that runs to the top of the address space is inside no region. -/
theorem WellFormed.not_overruns (h : WellFormed L s) : ¬ Overruns s := by
  rintro ⟨b, hb, htop⟩
  obtain ⟨i, hi, rfl⟩ := mem_live.mp hb
  obtain ⟨c, hc, -, hle⟩ := h.inside i hi
  have hstop : c.start.toNat + c.size.toNat < 2 ^ 64 := L.stop_lt hc
  rw [Block.span_stop] at htop
  omega

/-- The states of a run whose calls never allocate from a gap that wraps. -/
theorem inv_of_run (h : Run (fun s k => ¬ Wrapping s k) step (memInitWithConfig s₀ L.configs) s) :
    Inv L s :=
  h.invariant (fun _ _ hs hk => hs.of_step hk) (inv_memInitWithConfig L s₀)

/-- **The table stays well formed** in every run whose calls never allocate from a gap that
wraps, and from each of its states one more call keeps it so exactly when it is such a call. -/
theorem wellFormed_of_run (L : Layout) (s₀ : State) {s : State}
    (h : Run (fun s k => ¬ Wrapping s k) step (memInitWithConfig s₀ L.configs) s) :
    WellFormed L s ∧ ∀ k, WellFormed L (step s k) ↔ ¬ Wrapping s k := by
  have hinv := inv_of_run h
  exact ⟨hinv.wellFormed, fun _ =>
    ⟨fun hwf hw => hwf.not_overruns (hinv.overruns_step hw), fun hw => (hinv.of_step hw).wellFormed⟩⟩

/-! ### Regions away from the top of the address space -/

/-- Every region ends at least 4 GiB below `2 ^ 64`, as all 32-bit addresses do. -/
def Layout.Low (L : Layout) : Prop := ∀ c ∈ L.configs, c.stop + 2 ^ 32 ≤ 2 ^ 64

theorem Inv.not_wraps (h : Inv L s) (hlow : L.Low) {r size alignment : Nat}
    (hr : r < s.regionCount) (hadm : Admitted s size alignment) (hsize : size < 2 ^ 32)
    (hal : alignment < 2 ^ 32) :
    ¬ Wraps s r (searchSize size alignment) (effectiveAlignment alignment) := by
  intro hw
  obtain ⟨c, hc⟩ := h.getElem?_configs hr
  obtain ⟨-, hreq, -⟩ := hadm.request hsize hal
  obtain ⟨a, ha⟩ := exists_top size alignment
  obtain ⟨-, hlt, -⟩ := ((h.wraps_iff hc).mp hw).2.bounds hreq ha (h.packed_spans hc)
  have hsz : searchSize size alignment < 2 ^ 32 := Nat.mod_lt _ (Nat.two_pow_pos 32)
  have := hlow c (List.mem_of_getElem? hc)
  omega

theorem Inv.not_allocWraps (h : Inv L s) (hlow : L.Low) {size alignment : Nat}
    (hsize : size < 2 ^ 32) (hal : alignment < 2 ^ 32) : ¬ AllocWraps s size alignment := by
  rintro ⟨hadm, r, hr, hw, -⟩
  exact h.not_wraps hlow hr hadm hsize hal hw

theorem Inv.not_wrapping_of_low (h : Inv L s) (hlow : L.Low) (k : Call) : ¬ Wrapping s k := by
  cases k with
  | allocAligned size alignment =>
    exact h.not_allocWraps hlow size.toNat_lt alignment.toNat_lt
  | allocAlignedFromRegion r size alignment =>
    rintro ⟨hadm, hr0, hr, hw⟩
    exact h.not_wraps hlow (by omega) hadm size.toNat_lt alignment.toNat_lt hw
  | callocAligned count size alignment =>
    exact fun hw => h.not_allocWraps hlow (Nat.mod_lt _ (Nat.two_pow_pos 32))
      alignment.toNat_lt hw.2
  | reallocAligned ptr newSize alignment =>
    exact fun hw => h.not_allocWraps hlow newSize.toNat_lt alignment.toNat_lt hw.1
  | free ptr => exact id

/-- **On 32-bit addresses the table is well formed after any calls whatever.** -/
theorem wellFormed_of_low (hlow : L.Low)
    (h : Run (fun _ _ => True) step (memInitWithConfig s₀ L.configs) s) : WellFormed L s := by
  have hinv : Inv L s := h.invariant (fun _ k hs _ => hs.of_step (hs.not_wrapping_of_low hlow k))
    (inv_memInitWithConfig L s₀)
  exact hinv.wellFormed

/-! ### Two layouts -/

/-- The globals before `mem_init`. -/
def State.boot : State where
  blocks _ := .cleared
  blockCount := 0
  initialized := false
  needSort := false
  regions _ := ⟨0, 0, 0⟩
  regionCount := 0
  mempool _ := (0, 0)
  mem _ := 0

/-- One 4 KiB pool in SRAM. -/
def sramLayout : Layout where
  configs := [⟨0x20000000, 0x1000⟩]
  nonempty := by decide
  length := by decide
  start := by decide
  noWrap := by decide
  disjoint := by decide

theorem sramLayout_low : sramLayout.Low := by
  simp only [Layout.Low, sramLayout, RegionConfig.stop]
  decide

/-- One pool whose last byte is next to the last of the address space. -/
def topLayout : Layout where
  configs := [⟨0xFFFFFFFFFFFFE800, 0x17FF⟩]
  nonempty := by decide
  length := by decide
  start := by decide
  noWrap := by decide
  disjoint := by decide

theorem wellFormed_of_run_sram :
    WellFormed sramLayout
      (step (memInitWithConfig .boot sramLayout.configs) (.allocAligned 16 8)) :=
  (wellFormed_of_run sramLayout .boot
    (.more ((inv_memInitWithConfig sramLayout .boot).not_wrapping_of_low sramLayout_low _)
      (.refl _))).1

theorem wellFormed_of_low_sram :
    WellFormed sramLayout (step (memInitWithConfig .boot sramLayout.configs) (.allocAligned 9 8)) :=
  wellFormed_of_low sramLayout_low (.more trivial (.refl _))

/-- A page-aligned page is placed at `2 ^ 64 - 4096`, one byte past the end of the pool. -/
theorem not_wellFormed_top :
    ¬ WellFormed topLayout
      (step (memInitWithConfig .boot topLayout.configs) (.allocAligned 0x1000 0x1000)) := by
  intro h
  obtain ⟨c, hc, -, hle⟩ := h.inside 0 (by decide +kernel)
  have hblock : (step (memInitWithConfig .boot topLayout.configs)
      (.allocAligned 0x1000 0x1000)).blocks 0 = ⟨2 ^ 64 - 0x1000, 0x1000, 0x1000, .used, 0⟩ := by
    decide +kernel
  rw [hblock] at hc hle
  have hstop : c.start.toNat + c.size.toNat < 2 ^ 64 := topLayout.stop_lt hc
  simp only at hle
  omega

/-! ### The answer of an allocation -/

/-- Region `r` has room at `a`: an aligned, rounded block there stays in the region and meets no
live block. -/
def Room (L : Layout) (s : State) (size alignment r a : Nat) : Prop :=
  ∃ c, L.configs[r]? = some c ∧ alignment ∣ a ∧ c.start.toNat ≤ a ∧
    a + alignUp size alignment ≤ c.start.toNat + c.size.toNat ∧
    ∀ b ∈ live s, a + alignUp size alignment ≤ b.start ∨ b.start + b.actualSize ≤ a

/-- The pointer `p` answers a request: it is not `NULL` exactly when the request is sound, a
descriptor is left and some region has room; it is then the least address with room in the
first region that has any. -/
structure FirstFitAnswer (L : Layout) (s : State) (size alignment p : Nat) : Prop where
  ne_zero_iff : p ≠ 0 ↔ size ≠ 0 ∧ (∃ k, alignment = 2 ^ k) ∧ size + alignment - 1 < 2 ^ 32 ∧
    s.blockCount < MAX_BLOCKS ∧ ∃ r a, Room L s size alignment r a
  least       : p ≠ 0 → ∃ r, IsLeast {a | Room L s size alignment r a} p ∧
    ∀ r' < r, ∀ a, ¬ Room L s size alignment r' a

theorem requestOk_iff {size alignment : Nat} (hal : 0 < alignment) : requestOk size alignment = true ↔
    size ≠ 0 ∧ (∃ k, alignment = 2 ^ k) ∧ size + alignment - 1 < 2 ^ 32 := by
  simp only [requestOk, Bool.and_eq_true, bne_iff_ne, isPowerOf2_iff, decide_eq_true_eq, and_assoc]
  refine and_congr_right fun _ => and_congr_right fun _ => ?_
  omega

/-- Clearance from the region's own blocks is clearance from all. -/
theorem Inv.room_iff_fits (h : Inv L s) {size alignment r a : Nat} {c : RegionConfig}
    (hc : L.configs[r]? = some c) :
    Room L s size alignment r a ↔
      Fits alignment (alignUp size alignment) c.start.toNat c.stop (spans s r) a := by
  rw [spans, h.usedInRegion_eq]
  constructor
  · rintro ⟨d, hd, hdvd, hlo, hhi, hall⟩
    obtain rfl := Option.some.inj (hc.symm.trans hd)
    refine ⟨hdvd, hlo, hhi, List.forall_mem_map.mpr fun b hb => ?_⟩
    exact hall b (List.mem_filter.mp hb).1
  · intro hfit
    refine ⟨c, hc, hfit.1, hfit.2.1, hfit.2.2.1, ?_⟩
    exact h.heap.clear_of_fits (b := ⟨a, size, alignUp size alignment, .used, r⟩) hc hfit

section Answer

variable {size alignment r a : Nat} {c : RegionConfig} (h : Inv L s)
  (hadm : Admitted s size alignment) (hsize : size < 2 ^ 32) (hal : alignment < 2 ^ 32)
include h hadm hsize hal

theorem Inv.room_iff (hc : L.configs[r]? = some c) :
    Room L s size (effectiveAlignment alignment) r a ↔
      Fits (effectiveAlignment alignment) (searchSize size alignment) c.start.toNat c.stop
        (spans s r) a := by
  obtain ⟨heq, -, -⟩ := hadm.request hsize hal
  rw [heq]
  exact h.room_iff_fits hc

theorem Inv.isLeast_room_iff (hc : L.configs[r]? = some c) :
    IsLeast {a | Room L s size (effectiveAlignment alignment) r a} a ↔
      place s r (searchSize size alignment) (effectiveAlignment alignment) = some a := by
  obtain ⟨-, hreq, -⟩ := hadm.request hsize hal
  rw [h.place_eq_some_iff hc hreq]
  simp only [h.room_iff hadm hsize hal hc]

theorem Inv.not_room_iff (hc : L.configs[r]? = some c) :
    (∀ a, ¬ Room L s size (effectiveAlignment alignment) r a) ↔
      place s r (searchSize size alignment) (effectiveAlignment alignment) = none := by
  obtain ⟨-, hreq, -⟩ := hadm.request hsize hal
  rw [h.place_eq_none_iff hc hreq]
  simp only [h.room_iff hadm hsize hal hc]

end Answer

theorem Inv.firstFitAnswer (h : Inv L s) {size alignment : Nat} (hsize : size < 2 ^ 32)
    (hal : alignment < 2 ^ 32) (hw : ¬ AllocWraps s size alignment) :
    FirstFitAnswer L s size (effectiveAlignment alignment) (memAllocAligned s size alignment).2 := by
  have hpos : 0 < effectiveAlignment alignment := by rw [effectiveAlignment]; split <;> omega
  rcases h.memAllocAligned_cases hsize hal with
    ⟨r, a, s₁, hadm, hr, hserves, -, heq⟩ | ⟨hnone, s₁, -, heq⟩
  · -- the exact search agrees with the source's in `r` and fails before it
    obtain ⟨c, hc⟩ := h.getElem?_configs hr
    obtain ⟨-, hreq, -⟩ := hadm.request hsize hal
    have hp := (h.place_of_serves hsize hal hadm hr hserves).resolve_right fun hc => hw hc.1
    have hleast := (h.isLeast_room_iff hadm hsize hal hc).mpr hp
    have ha : a ≠ 0 := by
      have := (h.found_bounds hc hreq hserves.1).1
      have := L.start_pos hc
      omega
    rw [heq]
    refine ⟨iff_of_true ha ?_, fun _ => ⟨r, hleast, fun r' hr' => ?_⟩⟩
    · obtain ⟨h₁, h₂, h₃⟩ := (requestOk_iff hpos).mp hadm.1
      exact ⟨h₁, h₂, h₃, hadm.2, r, a, hleast.1⟩
    · obtain ⟨d, hd⟩ := h.getElem?_configs (hr'.trans hr)
      rw [h.not_room_iff hadm hsize hal hd, Option.eq_none_iff_forall_ne_some]
      intro x hx
      have hfound := (h.found_eq_some_iff hd hreq).mpr (.inl hx)
      rw [hserves.2 r' hr'] at hfound
      cases hfound
  · rw [heq]
    refine ⟨iff_of_false (by simp) ?_, fun hne => absurd rfl hne⟩
    rintro ⟨h₁, h₂, h₃, hcount, r, a, hroom⟩
    have hadm : Admitted s size alignment := ⟨(requestOk_iff hpos).mpr ⟨h₁, h₂, h₃⟩, hcount⟩
    obtain ⟨-, hreq, -⟩ := hadm.request hsize hal
    obtain ⟨c, hc, -⟩ := id hroom
    have hr : r < s.regionCount := by
      rw [h.regionCount]
      exact (List.getElem?_eq_some_iff.mp hc).1
    have hplace : place s r (searchSize size alignment) (effectiveAlignment alignment) = none := by
      rw [Option.eq_none_iff_forall_ne_some]
      intro x hx
      have hfound := (h.found_eq_some_iff hc hreq).mpr (.inl hx)
      rw [hnone hadm r hr] at hfound
      cases hfound
    exact (h.not_room_iff hadm hsize hal hc).mpr hplace a hroom

/-- **First fit.**  In every state of a run whose calls never allocate from a gap that wraps,
`mem_alloc_aligned` answers by first fit exactly when the request itself meets no such gap. -/
theorem memAllocAligned_firstFit_iff (L : Layout) (s₀ : State) {s : State}
    (h : Run (fun s k => ¬ Wrapping s k) step (memInitWithConfig s₀ L.configs) s)
    (size alignment : UInt32) :
    FirstFitAnswer L s size.toNat (effectiveAlignment alignment.toNat)
        (memAllocAligned s size.toNat alignment.toNat).2 ↔
      ¬ AllocWraps s size.toNat alignment.toNat := by
  have hinv := inv_of_run h
  refine ⟨fun hans hw => ?_, hinv.firstFitAnswer size.toNat_lt alignment.toNat_lt⟩
  obtain ⟨r, a, s₁, ha, -, ha0, -, -, heq⟩ :=
    hinv.memAllocAligned_wraps size.toNat_lt alignment.toNat_lt hw
  obtain ⟨hsz, -, -⟩ := hw.1.request size.toNat_lt alignment.toNat_lt
  rw [heq] at hans
  obtain ⟨r', ⟨⟨c, hc, -, -, hhi, -⟩, -⟩, -⟩ := hans.least ha0
  have hstop : c.start.toNat + c.size.toNat < 2 ^ 64 := L.stop_lt hc
  rw [← hsz] at hhi
  omega

theorem memAllocAligned_firstFit_sram :
    FirstFitAnswer sramLayout (memInitWithConfig .boot sramLayout.configs) 16 8
      (memAllocAligned (memInitWithConfig .boot sramLayout.configs) 16 8).2 :=
  (memAllocAligned_firstFit_iff sramLayout .boot (.refl _) 16 8).mpr
    ((inv_memInitWithConfig sramLayout .boot).not_allocWraps sramLayout_low (by decide) (by decide))

/-- No address of the pool has room for a page-aligned page, yet one is handed out. -/
theorem not_firstFitAnswer_top :
    ¬ FirstFitAnswer topLayout (memInitWithConfig .boot topLayout.configs) 0x1000 0x1000
      (memAllocAligned (memInitWithConfig .boot topLayout.configs) 0x1000 0x1000).2 := by
  intro h
  have hptr : (memAllocAligned (memInitWithConfig .boot topLayout.configs) 0x1000 0x1000).2 =
      2 ^ 64 - 0x1000 := by decide +kernel
  rw [hptr] at h
  obtain ⟨r, ⟨⟨c, hc, -, -, hhi, -⟩, -⟩, -⟩ := h.least (by decide)
  have hstop : c.start.toNat + c.size.toNat < 2 ^ 64 := topLayout.stop_lt hc
  have hround : alignUp 0x1000 0x1000 = 0x1000 := by decide
  omega

end Kinetis.Allocator
