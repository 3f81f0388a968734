import Kinetis.Allocator.Invariant

/-!
# Allocator — safety and first fit along every run

The invariant of the descriptor table over whole runs of the public interface, and what one
allocation returns in a state such a run reaches.

The one step that breaks the table is an allocation served from a gap that wraps
(`Wrapping`): its block ends at `2 ^ 64`, past the end of its region.  Every run without such a
step keeps the table well formed, and in every state of such a run a step keeps it so exactly
when it is not such a step.  Regions that lie in the 32-bit address space never wrap
(`not_wrapping_of_low`).
-/

namespace Kinetis.Allocator
open Lib

/-- The region loop reaches a region with a gap that wraps before one with room. -/
def AllocWraps (s : State) (size alignment : Nat) : Prop :=
  Admitted s size alignment ∧ ∃ r < s.regionCount,
    Wraps s r (searchSize size alignment) (effectiveAlignment alignment) ∧
      ∀ r' < r, place s r' (searchSize size alignment) (effectiveAlignment alignment) = none

/-- The call allocates from a gap that wraps. -/
def Wrapping (s : State) : Call → Prop
  | .allocAligned size alignment => AllocWraps s size.toNat alignment.toNat
  | .allocAlignedFromRegion r size alignment =>
    Admitted s size.toNat alignment.toNat ∧ 0 ≤ r ∧ r < s.regionCount ∧
      Wraps s r.toNat (searchSize size.toNat alignment.toNat)
        (effectiveAlignment alignment.toNat)
  | .callocAligned count size alignment =>
    ¬ (size.toNat ≠ 0 ∧ 0xFFFFFFFF / size.toNat < count.toNat) ∧
      AllocWraps s (count.toNat * size.toNat % 2 ^ 32) alignment.toNat
  | .reallocAligned ptr newSize alignment =>
    AllocWraps s newSize.toNat alignment.toNat ∧
      (ptr = 0 ∨ ∃ i, findBlock s ptr.toNat = some i ∧ (s.blocks i).size < newSize.toNat)
  | .free _ => False

variable {L : Layout} {s : State} {r size alignment sz a : Nat} {c : RegionConfig}

/-! ### One call -/

theorem Admitted.request (hadm : Admitted s size alignment) (hsize : size < 2 ^ 32)
    (hal : alignment < 2 ^ 32) :
    searchSize size alignment = alignUp size (effectiveAlignment alignment) ∧
      Request (searchSize size alignment) (effectiveAlignment alignment) ∧
      size ≤ searchSize size alignment :=
  request_of_ok hsize (effectiveAlignment_lt hal) hadm.1

theorem exists_top (size alignment : Nat) : ∃ a, a + searchSize size alignment = 2 ^ 64 := by
  have hlt : searchSize size alignment < 2 ^ 32 := Nat.mod_lt _ (Nat.two_pow_pos 32)
  exact ⟨2 ^ 64 - searchSize size alignment, by omega⟩

/-- `mem_alloc_aligned_from_region` checks its arguments and searches one region. -/
theorem memAllocAlignedFromRegion_eq (h : s.initialized = true) (r : Int) (size alignment : Nat) :
    memAllocAlignedFromRegion s r size alignment =
      if 0 ≤ r ∧ r < s.regionCount ∧ requestOk size (effectiveAlignment alignment) = true then
        tryAllocInRegion s r.toNat size (effectiveAlignment alignment) (searchSize size alignment)
      else (s, 0) := by
  have hinit : ensureInitialized s = s := by rw [ensureInitialized, h]; rfl
  rw [memAllocAlignedFromRegion, hinit]
  by_cases hr : r < 0 ∨ (s.regionCount : Int) ≤ r
  · rw [if_pos hr, if_neg (by omega)]
  · rw [if_neg hr]
    by_cases hok : requestOk size (effectiveAlignment alignment) = true
    · have hall : 0 ≤ r ∧ r < s.regionCount ∧
          requestOk size (effectiveAlignment alignment) = true := ⟨by omega, by omega, hok⟩
      rw [if_pos hall]
      exact if_pos hok
    · simp only [hok, Bool.false_eq_true, if_false, and_false]

section Alloc

variable (h : Inv L s) (hsize : size < 2 ^ 32) (hal : alignment < 2 ^ 32)
include h hsize hal

/-- Where the source serves a request, the exact search agrees unless the call wraps. -/
theorem Inv.place_of_serves (hadm : Admitted s size alignment) (hr : r < s.regionCount)
    (hs : Serves s (effectiveAlignment alignment) (searchSize size alignment) r a) :
    place s r (searchSize size alignment) (effectiveAlignment alignment) = some a ∨
      AllocWraps s size alignment ∧ a + searchSize size alignment = 2 ^ 64 := by
  obtain ⟨-, hreq, -⟩ := hadm.request hsize hal
  obtain ⟨c, hc⟩ := h.getElem?_configs hr
  rcases (h.found_eq_some_iff hc hreq).mp hs.1 with hp | ⟨hw, ha⟩
  · exact .inl hp
  · refine .inr ⟨⟨hadm, r, hr, hw, fun r' hr' => ?_⟩, ha⟩
    obtain ⟨d, hd⟩ := h.getElem?_configs (hr'.trans hr)
    rw [Option.eq_none_iff_forall_ne_some]
    intro x hx
    have hfound := (h.found_eq_some_iff hd hreq).mpr (.inl hx)
    rw [hs.2 r' hr'] at hfound
    cases hfound

theorem Inv.of_memAllocAligned (hw : ¬ AllocWraps s size alignment) :
    Inv L (memAllocAligned s size alignment).1 := by
  rcases h.memAllocAligned_cases hsize hal with
    ⟨r, a, s₀, hadm, hr, hserves, hs₀, heq⟩ | ⟨-, s₀, hs₀, heq⟩
  · obtain ⟨-, hreq, hle⟩ := hadm.request hsize hal
    obtain ⟨c, hc⟩ := h.getElem?_configs hr
    have hp := (h.place_of_serves hsize hal hadm hr hserves).resolve_right fun hc => hw hc.1
    rw [heq]
    exact (h.resort hs₀).commit_of_place hc hreq (hs₀.blockCount_eq ▸ hadm.2) hle
      ((place_resort hs₀ _ _ _).trans hp)
  · rw [heq]
    exact h.resort hs₀

theorem Inv.of_memAllocAlignedFromRegion {r : Int}
    (hw : ¬ (Admitted s size alignment ∧ 0 ≤ r ∧ r < s.regionCount ∧
      Wraps s r.toNat (searchSize size alignment) (effectiveAlignment alignment))) :
    Inv L (memAllocAlignedFromRegion s r size alignment).1 := by
  rw [memAllocAlignedFromRegion_eq h.init]
  split
  swap
  · exact h
  next hr =>
  obtain ⟨hr0, hr, hok⟩ := hr
  obtain ⟨c, hc⟩ := h.getElem?_configs (r := r.toNat) (by omega)
  have hreq : Request (searchSize size alignment) (effectiveAlignment alignment) ∧
      size ≤ searchSize size alignment := (request_of_ok hsize (effectiveAlignment_lt hal) hok).2
  obtain ⟨s₀, hs₀, heq⟩ := h.byAnswer hc hreq.1 size
  rw [heq]
  split
  · rename_i hans
    have hf := (h.fitIn_ne_zero_iff hc hreq.1).mp hans.2
    have hp := ((h.found_eq_some_iff hc hreq.1).mp hf).resolve_right fun hwr =>
      hw ⟨⟨hok, hans.1⟩, hr0, hr, hwr.1⟩
    exact (h.resort hs₀).commit_of_place hc hreq.1 (hs₀.blockCount_eq ▸ hans.1) hreq.2
      ((place_resort hs₀ _ _ _).trans hp)
  · exact h.resort hs₀

end Alloc

theorem effectiveAlignment_idem (alignment : Nat) :
    effectiveAlignment (effectiveAlignment alignment) = effectiveAlignment alignment := by
  simp only [effectiveAlignment]
  split <;> simp_all

/-- An allocation of a rounded alignment is the allocation itself. -/
theorem memAllocAligned_effective (s : State) (size alignment : Nat) :
    memAllocAligned s size (effectiveAlignment alignment) = memAllocAligned s size alignment := by
  simp only [memAllocAligned, effectiveAlignment_idem]

variable {count ptr newSize : Nat}

/-- `calloc` allocates, then clears. -/
theorem memCallocAligned_eq (s : State) (alignment : Nat)
    (hover : ¬ (size ≠ 0 ∧ 0xFFFFFFFF / size < count)) :
    ∃ m, (memCallocAligned s count size alignment).1 =
      { (memAllocAligned s (count * size % 2 ^ 32) alignment).1 with mem := m } := by
  rw [memCallocAligned, if_neg hover]
  by_cases hp : (memAllocAligned s (count * size % 2 ^ 32) alignment).2 = 0
  · refine ⟨(memAllocAligned s (count * size % 2 ^ 32) alignment).1.mem, ?_⟩
    simp only [hp, ne_eq, not_true_eq_false, if_false]
  · simp only [hp, ne_eq, not_false_eq_true, if_true]
    exact ⟨_, rfl⟩

theorem Inv.of_memCallocAligned (h : Inv L s) (hal : alignment < 2 ^ 32)
    (hw : ¬ (¬ (size ≠ 0 ∧ 0xFFFFFFFF / size < count) ∧
      AllocWraps s (count * size % 2 ^ 32) alignment)) :
    Inv L (memCallocAligned s count size alignment).1 := by
  by_cases hover : size ≠ 0 ∧ 0xFFFFFFFF / size < count
  · rw [memCallocAligned, if_pos hover]
    exact h
  · obtain ⟨m, hm⟩ := memCallocAligned_eq s alignment hover
    rw [hm]
    exact (h.of_memAllocAligned (Nat.mod_lt (count * size) (Nat.two_pow_pos 32)) hal
      fun hc => hw ⟨hover, hc⟩).setMem m

/-- `realloc` of a live block that has to grow allocates, and on success copies and releases. -/
theorem memReallocAligned_grow {i : Nat} (hptr : ptr ≠ 0)
    (hpow : isPowerOf2 (effectiveAlignment alignment) = true) (hf : findBlock s ptr = some i)
    (hgrow : (s.blocks i).size < newSize) :
    memReallocAligned s ptr newSize alignment =
      if (memAllocAligned s newSize alignment).2 = 0 then
        ((memAllocAligned s newSize alignment).1, ptr)
      else (memFree (memmove (memAllocAligned s newSize alignment).1
        (memAllocAligned s newSize alignment).2 ptr (min newSize (s.blocks i).size)) ptr,
        (memAllocAligned s newSize alignment).2) := by
  have hzero : newSize ≠ 0 := by omega
  rw [memReallocAligned, if_neg hptr, if_neg hzero]
  simp only [hpow, hf, memAllocAligned_effective, Bool.not_true, Bool.false_eq_true, if_false,
    if_neg (Nat.not_le.mpr hgrow)]

theorem Inv.of_memReallocAligned (h : Inv L s) (hsize : newSize < 2 ^ 32)
    (hal : alignment < 2 ^ 32)
    (hw : ¬ (AllocWraps s newSize alignment ∧
      (ptr = 0 ∨ ∃ i, findBlock s ptr = some i ∧ (s.blocks i).size < newSize))) :
    Inv L (memReallocAligned s ptr newSize alignment).1 := by
  by_cases hptr : ptr = 0
  · rw [memReallocAligned, if_pos hptr]
    exact h.of_memAllocAligned hsize hal fun hc => hw ⟨hc, .inl hptr⟩
  by_cases hzero : newSize = 0
  · rw [memReallocAligned, if_neg hptr, if_pos hzero]
    exact h.of_memFree ptr
  by_cases hpow : isPowerOf2 (effectiveAlignment alignment) = true
  swap
  · rw [memReallocAligned, if_neg hptr, if_neg hzero]
    simp only [hpow, Bool.not_false, if_true]
    exact h
  cases hf : findBlock s ptr with
  | none =>
    rw [memReallocAligned, if_neg hptr, if_neg hzero]
    simp only [hpow, hf, Bool.not_true, Bool.false_eq_true, if_false]
    exact h
  | some i =>
    by_cases hle : newSize ≤ (s.blocks i).size
    · rw [memReallocAligned, if_neg hptr, if_neg hzero]
      simp only [hpow, hf, hle, Bool.not_true, Bool.false_eq_true, if_false, if_true]
      exact h.of_setSize (findBlock_eq_some hf).1 hle
    · have hgrow := Nat.not_le.mp hle
      have halloc := h.of_memAllocAligned hsize hal fun hc => hw ⟨hc, .inr ⟨i, hf, hgrow⟩⟩
      rw [memReallocAligned_grow hptr hpow hf hgrow]
      split
      · exact halloc
      · exact (halloc.setMem _).of_memFree ptr

variable {k : Call}

/-- **One call keeps the invariant** unless it allocates from a gap that wraps. -/
theorem Inv.of_step (h : Inv L s) (hw : ¬ Wrapping s k) : Inv L (step s k) := by
  cases k with
  | allocAligned size alignment =>
    exact h.of_memAllocAligned size.toNat_lt alignment.toNat_lt hw
  | allocAlignedFromRegion r size alignment =>
    exact h.of_memAllocAlignedFromRegion size.toNat_lt alignment.toNat_lt hw
  | callocAligned count size alignment => exact h.of_memCallocAligned alignment.toNat_lt hw
  | reallocAligned ptr newSize alignment =>
    refine h.of_memReallocAligned newSize.toNat_lt alignment.toNat_lt ?_
    simpa only [Wrapping, ← UInt64.toNat_inj, UInt64.toNat_zero] using hw
  | free ptr => exact h.of_memFree ptr.toNat

theorem inv_memInitWithConfig (L : Layout) (s : State) : Inv L (memInitWithConfig s L.configs) := by
  have hlive : live (memInitWithConfig s L.configs) = [] := rfl
  refine ⟨rfl, Nat.min_eq_left L.length, Nat.zero_le _, fun i _ hi => ?_, ?_, fun r c hc => ?_⟩
  · simp [memInitWithConfig, hi, Block.cleared]
  · exact .nil L
  · rw [hlive]
    simp [memInitWithConfig, List.take_of_length_le L.length, hc, usage, inRegion]

/-! ### The step that breaks the table -/

/-- Some live block runs to the top of the address space. -/
def Overruns (s : State) : Prop := ∃ b ∈ live s, b.span.stop = 2 ^ 64

theorem overruns_commit (h : Inv L s) (hcount : s.blockCount < MAX_BLOCKS) (ha : a + sz = 2 ^ 64)
    (r size : Nat) :
    ∃ b ∈ live (commit s r a size sz), b.start = a ∧ b.span.stop = 2 ^ 64 := by
  have hlive : live (commit s r a size sz) = live (insertBlockSorted s r a size sz) := rfl
  rw [hlive, live_insertBlockSorted h.sorted hcount]
  exact ⟨_, List.mem_append_right _ List.mem_cons_self, rfl, ha⟩

/-- A release of another block leaves an overrunning block in place. -/
theorem overruns_memFree {b : Block} (hb : b ∈ live s) (hne : b.start ≠ ptr)
    (htop : b.span.stop = 2 ^ 64) : Overruns (memFree s ptr) := by
  by_cases hptr : ptr = 0
  · rw [memFree, if_pos hptr]
    exact ⟨b, hb, htop⟩
  cases hf : findBlock s ptr with
  | none =>
    rw [memFree, if_neg hptr, hf]
    exact ⟨b, hb, htop⟩
  | some i =>
    obtain ⟨hi, hstart, -⟩ := findBlock_eq_some hf
    rw [memFree, if_neg hptr, hf]
    set s₁ := subUsed s (s.blocks i).regionId (s.blocks i).actualSize with hs₁
    have hsame : s₁.blocks = s.blocks ∧ s₁.blockCount = s.blockCount := by
      rw [hs₁, subUsed]
      split <;> exact ⟨rfl, rfl⟩
    have hlive : live s₁ = live s := by rw [live, live, hsame.1, hsame.2]
    refine ⟨b, ?_, htop⟩
    rw [live_removeBlock (hsame.2 ▸ hi), hlive]
    obtain ⟨j, hj, rfl⟩ := List.mem_iff_getElem.mp hb
    refine List.mem_eraseIdx_iff_getElem.mpr ⟨j, hj, fun hji => hne ?_, rfl⟩
    subst hji
    rw [getElem_live, hstart]

/-- The address a wrapping gap yields starts no span of the line. -/
theorem WrapGap.start_ne (hreq : Request sz alignment) {hi : Nat} (ha : a + sz = 2 ^ 64) :
    ∀ {lo : Nat} {bs : List Span}, Packed hi lo bs → WrapGap sz alignment hi lo bs →
      ∀ b ∈ bs, 0 < b.len → b.start ≠ a
  | _, [], _, _, _, hb, _ => by cases hb
  | lo, b :: bs, hp, hw, b', hb', hpos => by
    rcases hw with hw | hw
    · have hlt := (hw.bounds hreq ha).2.1
      rcases List.mem_cons.mp hb' with rfl | hb'
      · omega
      · have := (hp.2.stop_le_of_mem hb').1
        simp only [Span.stop] at this
        omega
    · rcases List.mem_cons.mp hb' with rfl | hb'
      · have := (hw.bounds hreq ha hp.2).1
        simp only [Span.stop] at this
        omega
      · exact WrapGap.start_ne hreq ha hp.2 hw b' hb' hpos

theorem Inv.start_ne_of_wraps (h : Inv L s) (hc : L.configs[r]? = some c)
    (hreq : Request sz alignment) (hw : Wraps s r sz alignment) (ha : a + sz = 2 ^ 64) :
    ∀ b ∈ live s, b.start ≠ a := by
  intro b hb
  have hgap := ((h.wraps_iff hc).mp hw).2
  by_cases hr : b.regionId = r
  · refine hgap.start_ne hreq ha (h.packed_spans hc) b.span ?_ (h.heap.ok b hb).pos
    rw [spans, h.usedInRegion_eq]
    exact List.mem_map_of_mem (List.mem_filter.mpr ⟨hb, by simpa using hr⟩)
  · obtain ⟨hlo, hhi, -⟩ := hgap.bounds hreq ha (h.packed_spans hc)
    obtain ⟨d, hd, hdlo, hdhi⟩ := (h.heap.ok b hb).inside
    have hpos := (h.heap.ok b hb).pos
    rw [Block.span_stop] at hdhi
    rcases L.apart hc hd (Ne.symm hr) with hcd | hdc <;> omega

/-- An allocation that wraps returns the address `2 ^ 64 - size` and commits a block there. -/
theorem Inv.memAllocAligned_wraps (h : Inv L s) (hsize : size < 2 ^ 32) (hal : alignment < 2 ^ 32)
    (hw : AllocWraps s size alignment) :
    ∃ r a s₀, a + searchSize size alignment = 2 ^ 64 ∧ (∀ b ∈ live s, b.start ≠ a) ∧ a ≠ 0 ∧
      s.blockCount < MAX_BLOCKS ∧ Resort s s₀ ∧
      memAllocAligned s size alignment = (commit s₀ r a size (searchSize size alignment), a) := by
  obtain ⟨hadm, r₀, hr₀, hwr, hbefore⟩ := hw
  obtain ⟨-, hreq, -⟩ := hadm.request hsize hal
  obtain ⟨c₀, hc₀⟩ := h.getElem?_configs hr₀
  obtain ⟨a₀, ha₀⟩ := exists_top size alignment
  have hfound₀ := (h.found_eq_some_iff hc₀ hreq).mpr (.inr ⟨hwr, ha₀⟩)
  rcases h.memAllocAligned_cases hsize hal with
    ⟨r, a, s₀, -, hr, hserves, hs₀, heq⟩ | ⟨hnone, -⟩
  · obtain ⟨c, hc⟩ := h.getElem?_configs hr
    have hle : r ≤ r₀ := by
      by_contra hlt
      rw [hserves.2 r₀ (by omega)] at hfound₀
      cases hfound₀
    have hplace : place s r (searchSize size alignment) (effectiveAlignment alignment) = none := by
      rcases Nat.eq_or_lt_of_le hle with rfl | hlt
      · exact hwr.1
      · exact hbefore r hlt
    obtain ⟨hwr', ha⟩ := ((h.found_eq_some_iff hc hreq).mp hserves.1).resolve_left (by simp [hplace])
    have hlo := (h.found_bounds hc hreq hserves.1).1
    have hpos := L.start_pos hc
    exact ⟨r, a, s₀, ha, h.start_ne_of_wraps hc hreq hwr' ha, by omega, hadm.2, hs₀, heq⟩
  · rw [hnone hadm r₀ hr₀] at hfound₀
    cases hfound₀

theorem Inv.overruns_memAllocAligned (h : Inv L s) (hsize : size < 2 ^ 32)
    (hal : alignment < 2 ^ 32) (hw : AllocWraps s size alignment) :
    Overruns (memAllocAligned s size alignment).1 := by
  obtain ⟨r, a, s₀, ha, -, -, hcount, hs₀, heq⟩ := h.memAllocAligned_wraps hsize hal hw
  rw [heq]
  obtain ⟨b, hb, -, htop⟩ :=
    overruns_commit (h.resort hs₀) (hs₀.blockCount_eq ▸ hcount) ha r size
  exact ⟨b, hb, htop⟩

/-- **A call that allocates from a gap that wraps leaves a block past the end of its region.** -/
theorem Inv.overruns_step (h : Inv L s) (hw : Wrapping s k) : Overruns (step s k) := by
  cases k with
  | allocAligned size alignment =>
    exact h.overruns_memAllocAligned size.toNat_lt alignment.toNat_lt hw
  | allocAlignedFromRegion r size alignment =>
    obtain ⟨hadm, hr0, hr, hwr⟩ := hw
    obtain ⟨-, hreq, -⟩ := hadm.request size.toNat_lt alignment.toNat_lt
    obtain ⟨c, hc⟩ := h.getElem?_configs (r := r.toNat) (by omega)
    obtain ⟨a, ha⟩ := exists_top size.toNat alignment.toNat
    have hf := (h.found_eq_some_iff hc hreq).mpr (.inr ⟨hwr, ha⟩)
    obtain ⟨s₀, hs₀, heq⟩ := h.tryAllocInRegion_some hc hreq hadm.2 hf size.toNat
    obtain ⟨b, hb, -, htop⟩ := overruns_commit (h.resort hs₀)
      (hs₀.blockCount_eq ▸ hadm.2) ha r.toNat size.toNat
    rw [step, call, memAllocAlignedFromRegion_eq h.init, if_pos ⟨hr0, hr, hadm.1⟩, heq]
    exact ⟨b, hb, htop⟩
  | callocAligned count size alignment =>
    obtain ⟨m, hm⟩ := memCallocAligned_eq s alignment.toNat hw.1
    rw [step, call, hm]
    exact h.overruns_memAllocAligned (Nat.mod_lt _ (Nat.two_pow_pos 32)) alignment.toNat_lt hw.2
  | reallocAligned ptr newSize alignment =>
    obtain ⟨hwr, hptr⟩ := hw
    rw [step, call]
    by_cases hzero : ptr = 0
    · rw [memReallocAligned, if_pos (by rw [hzero]; rfl)]
      exact h.overruns_memAllocAligned newSize.toNat_lt alignment.toNat_lt hwr
    · obtain ⟨i, hf, hgrow⟩ := hptr.resolve_left hzero
      have hptr0 : ptr.toNat ≠ 0 := fun h0 => hzero (UInt64.toNat_inj.mp h0)
      have hpow : isPowerOf2 (effectiveAlignment alignment.toNat) = true := by
        have := hwr.1.1
        simp only [requestOk, Bool.and_eq_true] at this
        exact this.1.2
      obtain ⟨r, a, s₀, ha, hne, ha0, hcount, hs₀, heq⟩ :=
        h.memAllocAligned_wraps newSize.toNat_lt alignment.toNat_lt hwr
      obtain ⟨b, hb, hbstart, htop⟩ := overruns_commit (h.resort hs₀)
        (hs₀.blockCount_eq ▸ hcount) ha r newSize.toNat
      rw [memReallocAligned_grow hptr0 hpow hf hgrow, heq, if_neg ha0]
      obtain ⟨hi, hstart, -⟩ := findBlock_eq_some hf
      refine overruns_memFree (b := b) hb ?_ htop
      rw [hbstart, ← hstart]
      exact (hne _ (mem_live_of_lt hi)).symm
  | free ptr => exact hw.elim

end Kinetis.Allocator
