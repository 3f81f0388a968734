import Kinetis.Allocator.Safety

/-!
# Allocator — what any calls keep

An allocation from a gap that wraps breaks the heap, but not the table: a block may run over its
neighbours to the top of the address space, and the table is in address order all the same.
`Coarse` is what holds in every state that any calls at all reach.

* `searchGaps_beyond`: an address that the gap search finds is `NULL` or the start of no block;
* `Coarse.byAnswer`: an attempt at one region commits a block at the address found;
* `coarse_of_run`: the invariant.
-/

namespace Kinetis.Allocator
open Lib

/-- `b` starts after `a`, and outside it unless `a` runs to the top of the address space. -/
def Beyond (a b : Span) : Prop := a.start < b.start ∧ (a.stop ≤ b.start ∨ a.stop = 2 ^ 64)

/-- A live block that starts in the region it names; if it leaves it, it runs to the top. -/
structure Entry (L : Layout) (b : Block) : Prop where
  used   : b.status = .used
  pos    : 0 < b.actualSize
  lt     : b.actualSize < 2 ^ 32
  inside : ∃ c, L.configs[b.regionId]? = some c ∧ c.start.toNat ≤ b.start ∧ b.start < c.stop ∧
    (b.span.stop ≤ c.stop ∨ b.span.stop = 2 ^ 64)

/-- The table is in address order, its entries are live blocks, and the rest of it is clear. -/
structure Coarse (L : Layout) (s : State) : Prop where
  init        : s.initialized = true
  regionCount : s.regionCount = L.configs.length
  count       : s.blockCount ≤ MAX_BLOCKS
  cleared     : ∀ i, s.blockCount ≤ i → i < MAX_BLOCKS → s.blocks i = .cleared
  order       : (live s).Pairwise fun a b => Beyond a.span b.span
  entry       : ∀ b ∈ live s, Entry L b
  regions     : ∀ r c, L.configs[r]? = some c → (s.regions r).start = c.start.toNat ∧
    (s.regions r).size = c.size.toNat ∧ (s.regions r).memoryUsed < 2 ^ 32

/-! ### The gap search -/

section search

variable {size alignment hi a : Nat}

/-- Behind a block that runs to the top the gap starts at `NULL`, and that is the answer. -/
theorem searchGaps_zero (hreq : Request size alignment) (hhi : hi < 2 ^ 64) (hroom : size ≤ hi)
    {bs : List Block} (hbs : ∀ b ∈ bs, size ≤ b.start ∧ b.start < 2 ^ 64) :
    searchGaps size alignment hi 0 bs = some 0 := by
  have hzero : alignUp 0 alignment = 0 :=
    Nat.le_zero.mp (alignUp_le hreq.align_pos (Nat.dvd_zero alignment) le_rfl)
  cases bs with
  | nil =>
    rw [searchGaps, tryGap_eq_some_iff hreq (Nat.zero_le hi) hhi, hzero, Nat.zero_add]
    exact ⟨rfl, .inl hroom⟩
  | cons b bs =>
    obtain ⟨hsize, hlt⟩ := hbs b List.mem_cons_self
    have hgap : tryGap size alignment 0 b.start = some 0 := by
      rw [tryGap_eq_some_iff hreq (Nat.zero_le b.start) hlt, hzero, Nat.zero_add]
      exact ⟨rfl, .inl hsize⟩
    rw [searchGaps, hgap, Option.some_or]

/-- A gap, and what it is found to hold. -/
theorem tryGap_bounds (hreq : Request size alignment) {lo : Nat} (hle : lo ≤ hi) (hhi : hi < 2 ^ 64)
    (h : tryGap size alignment lo hi = some a) :
    lo ≤ a ∧ a < hi ∧ lo + size ≤ hi ∧ (a + size ≤ hi ∨ a + size = 2 ^ 64) := by
  obtain ⟨rfl, hfit⟩ := (tryGap_eq_some_iff hreq hle hhi).mp h
  have hpos := hreq.pos
  have hlo : lo ≤ alignUp lo alignment := le_alignUp hreq.align_pos
  rcases hfit with hfit | hwrap
  · exact ⟨hlo, by omega, by omega, .inl hfit⟩
  · obtain ⟨-, hlt, hsize⟩ := hwrap.bounds hreq hwrap.2
    exact ⟨hlo, hlt, hsize, .inr hwrap.2⟩

/-- **The gap loop** over blocks in order, some of which may run to the top. -/
theorem searchGaps_beyond (hreq : Request size alignment) (hsize : size < 2 ^ 32)
    (hhi : hi < 2 ^ 64) :
    ∀ {lo : Nat} {bs : List Block}, lo ≤ hi → (∀ b ∈ bs, lo ≤ b.start) →
      (bs.Pairwise fun a b => Beyond a.span b.span) →
      (∀ b ∈ bs, 0 < b.actualSize ∧ b.actualSize < 2 ^ 32 ∧ b.start < hi ∧
        (b.span.stop ≤ hi ∨ b.span.stop = 2 ^ 64)) →
      searchGaps size alignment hi lo bs = some a → a ≠ 0 →
      lo ≤ a ∧ a < hi ∧ lo + size ≤ hi ∧ (a + size ≤ hi ∨ a + size = 2 ^ 64) ∧
        ∀ b ∈ bs, Beyond b.span ⟨a, size⟩ ∨ Beyond ⟨a, size⟩ b.span
  | lo, [], hle, _, _, _, h, _ => by
    obtain ⟨h₁, h₂, h₃, h₄⟩ := tryGap_bounds hreq hle hhi h
    exact ⟨h₁, h₂, h₃, h₄, fun b hb => absurd hb List.not_mem_nil⟩
  | lo, b :: bs, hle, hstart, horder, hok, h, hne => by
    obtain ⟨hpos, hlt, hbhi, hstop⟩ := hok b List.mem_cons_self
    obtain ⟨hafter, horder⟩ := List.pairwise_cons.mp horder
    have hlob := hstart b List.mem_cons_self
    rw [searchGaps, Option.or_eq_some_iff] at h
    rcases h with hgap | ⟨-, hrest⟩
    · obtain ⟨h₁, h₂, h₃, h₄⟩ := tryGap_bounds hreq hlob (hbhi.trans hhi) hgap
      refine ⟨h₁, by omega, by omega, by omega, fun b' hb' => .inr ?_⟩
      rcases List.mem_cons.mp hb' with rfl | hb'
      · exact ⟨h₂, h₄⟩
      · have hb : b.start < b'.start := (hafter b' hb').1
        refine ⟨h₂.trans hb, ?_⟩
        simp only [Span.stop, Block.span_start]
        omega
    · have hok' := fun b' hb' => hok b' (List.mem_cons_of_mem b hb')
      by_cases htop : b.span.stop = 2 ^ 64
      · -- behind `b` the loop answers `NULL`
        have hmod : (b.start + b.actualSize) % 2 ^ 64 = 0 := by
          rw [← Block.span_stop, htop, Nat.mod_self]
        rw [Block.span_stop] at htop
        rw [hmod, searchGaps_zero hreq hhi (by omega) fun b' hb' => ?_] at hrest
        · exact absurd (Option.some.inj hrest).symm hne
        · have hb : b.start < b'.start := (hafter b' hb').1
          have := (hok' b' hb').2.2.1
          omega
      · have hstop' := hstop.resolve_right htop
        rw [Block.span_stop] at hstop' htop
        have hmod : (b.start + b.actualSize) % 2 ^ 64 = b.start + b.actualSize :=
          Nat.mod_eq_of_lt (by omega)
        have hbeyond : ∀ b' ∈ bs, b.start + b.actualSize ≤ b'.start :=
          fun b' hb' => (hafter b' hb').2.resolve_right htop
        rw [hmod] at hrest
        obtain ⟨h₁, h₂, h₃, h₄, h₅⟩ :=
          searchGaps_beyond hreq hsize hhi hstop' hbeyond horder hok' hrest hne
        refine ⟨by omega, h₂, by omega, h₄, fun b' hb' => ?_⟩
        rcases List.mem_cons.mp hb' with rfl | hb'
        · exact .inl ⟨by simp only [Block.span_start]; omega, .inl h₁⟩
        · exact h₅ b' hb'

end search

variable {L : Layout} {s s' : State} {r size alignment sz a : Nat} {c : RegionConfig}

variable {s₀ : State}

namespace Coarse

theorem resort (h : Coarse L s) (hs : Resort s s') : Coarse L s' := by
  obtain ⟨_, rfl⟩ := hs
  exact ⟨h.init, h.regionCount, h.count, h.cleared, h.order, h.entry, h.regions⟩

theorem setMem (h : Coarse L s) (m : Nat → UInt8) : Coarse L { s with mem := m } :=
  ⟨h.init, h.regionCount, h.count, h.cleared, h.order, h.entry, h.regions⟩

variable {i ptr newSize : Nat}

theorem start_lt (h : Coarse L s) {j : Nat} (hij : i < j) (hj : j < s.blockCount) :
    (s.blocks i).start < (s.blocks j).start := by
  have hall := List.pairwise_iff_getElem.mp h.order i j (by simpa using hij.trans hj)
    (by simpa using hj) hij
  simpa only [getElem_live, Block.span_start] using hall.1

theorem sorted (h : Coarse L s) : Sorted s := fun _ _ hij hj => (h.start_lt hij hj).le

theorem used (h : Coarse L s) : ∀ b ∈ live s, b.status = .used := fun b hb => (h.entry b hb).used

theorem findFreeBlock_isNone_iff (h : Coarse L s) :
    (findFreeBlock s).isNone = true ↔ s.blockCount = MAX_BLOCKS :=
  Allocator.findFreeBlock_isNone_iff h.count h.used fun i hi hi' => by rw [h.cleared i hi hi']; rfl

theorem getElem?_configs (h : Coarse L s) (hr : r < s.regionCount) :
    ∃ c, L.configs[r]? = some c :=
  ⟨_, List.getElem?_eq_getElem (h.regionCount ▸ hr)⟩

/-! ### One region -/

/-- **Where a block may be committed**: in its region or on to the top, and beyond or before every
block. -/
structure Slot (L : Layout) (s : State) (r sz a : Nat) : Prop where
  room   : s.blockCount < MAX_BLOCKS
  ne     : a ≠ 0
  inside : ∃ c, L.configs[r]? = some c ∧ c.start.toNat ≤ a ∧ a < c.stop ∧ sz ≤ c.size.toNat ∧
    (a + sz ≤ c.stop ∨ a + sz = 2 ^ 64)
  clear  : ∀ b ∈ live s, Beyond b.span ⟨a, sz⟩ ∨ Beyond ⟨a, sz⟩ b.span

theorem regionEnd_eq (h : Coarse L s) (hc : L.configs[r]? = some c) :
    regionEnd (s.regions r) = c.stop := by
  rw [regionEnd, (h.regions r c hc).1, (h.regions r c hc).2.1]
  exact Nat.mod_eq_of_lt (L.stop_lt hc)

variable {b : Block}

/-- The blocks of a region start in it. -/
theorem inside_of_mem (h : Coarse L s) (hc : L.configs[r]? = some c)
    (hb : b ∈ inRegion r (live s)) : c.start.toNat ≤ b.start ∧ 0 < b.actualSize ∧
      b.actualSize < 2 ^ 32 ∧ b.start < c.stop ∧ (b.span.stop ≤ c.stop ∨ b.span.stop = 2 ^ 64) := by
  obtain ⟨hmem, hr⟩ := List.mem_filter.mp hb
  have hentry := h.entry b hmem
  obtain ⟨d, hd, hlo, hhi, hstop⟩ := hentry.inside
  rw [of_decide_eq_true hr, hc] at hd
  obtain rfl := Option.some.inj hd
  exact ⟨hlo, hentry.pos, hentry.lt, hhi, hstop⟩

/-- **An answer of the search is a slot.** -/
theorem slot_of_fitIn (h : Coarse L s) (hc : L.configs[r]? = some c) (hreq : Request sz alignment)
    (hsz : sz < 2 ^ 32) (hcount : s.blockCount < MAX_BLOCKS) (hne : fitIn s r sz alignment ≠ 0) :
    Slot L s r sz (fitIn s r sz alignment) := by
  cases hf : found s r sz alignment with
  | none => exact absurd (by rw [fitIn, hf]; rfl) hne
  | some a =>
    have hget : fitIn s r sz alignment = a := by rw [fitIn, hf]; rfl
    rw [hget] at hne ⊢
    rw [found, h.regionEnd_eq hc, (h.regions r c hc).1, usedInRegion_eq h.used] at hf
    obtain ⟨hlo, hhi, hsize, hstop, hclear⟩ := searchGaps_beyond hreq hsz (L.stop_lt hc)
      (Nat.le_add_right _ _) (fun b hb => (h.inside_of_mem hc hb).1)
      (h.order.sublist List.filter_sublist) (fun b hb => (h.inside_of_mem hc hb).2) hf hne
    refine ⟨hcount, hne, ⟨c, hc, hlo, hhi, Nat.le_of_add_le_add_left hsize, hstop⟩, fun b hb => ?_⟩
    by_cases hr : b.regionId = r
    · exact hclear b (List.mem_filter.mpr ⟨hb, by simpa using hr⟩)
    · -- another region lies wholly before or after this one
      obtain ⟨d, hd, hdlo, hdhi, hdstop⟩ := (h.entry b hb).inside
      rcases L.apart hc hd (Ne.symm hr) with hcd | hdc
      · refine .inr ⟨by simp only [Block.span_start]; omega, ?_⟩
        simp only [Span.stop, Block.span_start]
        omega
      · exact .inl ⟨by simp only [Block.span_start]; omega,
          hdstop.imp_left fun hle => hle.trans (hdc.trans hlo)⟩

/-- One region, by its answer. -/
theorem byAnswer (h : Coarse L s) (hc : L.configs[r]? = some c) (hreq : Request sz alignment)
    (hsz : sz < 2 ^ 32) (size : Nat) : ByAnswer s r size alignment sz := by
  refine h.sorted.byAnswer h.count h.findFreeBlock_isNone_iff (fun hcount hne => ?_) size
  have hstop := L.stop_lt hc
  obtain ⟨-, -, ⟨d, hd, hlo, hhi, hsize, hend⟩, -⟩ := h.slot_of_fitIn hc hreq hsz hcount hne
  obtain rfl := Option.some.inj (hc.symm.trans hd)
  rw [h.regionEnd_eq hc, (h.regions r c hc).1, (h.regions r c hc).2.1]
  refine ⟨hsize, hlo, hhi, ?_⟩
  rcases hend with hend | hend
  · rwa [Nat.mod_eq_of_lt (hend.trans_lt hstop)]
  · rw [hend, Nat.mod_self]
    exact Nat.zero_le _

/-- **A commit in a slot keeps the table.** -/
theorem commit (h : Coarse L s) (hslot : Slot L s r sz a) (hsz : sz < 2 ^ 32) (hpos : 0 < sz)
    (size : Nat) : Coarse L (commit s r a size sz) := by
  obtain ⟨c, hc, hlo, hhi, -, hstop⟩ := hslot.inside
  have hcom := h.sorted.committed hslot.room hc a size sz
  generalize Allocator.commit s r a size sz = s' at hcom ⊢
  refine ⟨hcom.init.trans h.init, hcom.regionCount.trans h.regionCount, ?_, fun i hi hi' => ?_, ?_,
    ?_, fun r' d hd => ?_⟩
  · rw [hcom.count]
    exact hslot.room
  · rw [hcom.count] at hi
    exact (hcom.past i hi).trans (h.cleared i (Nat.le_of_lt hi) hi')
  · -- the new block goes between those that start before it and those that start after it
    have hbefore : ∀ b ∈ (live s).take (insertPos s a), Beyond b.span ⟨a, sz⟩ := by
      intro b hb
      have hle := start_le_of_mem_take hb
      refine (hslot.clear b (List.mem_of_mem_take hb)).resolve_right fun hc => ?_
      exact absurd hc.1 (Nat.not_lt.mpr hle)
    have hafter : ∀ b ∈ (live s).drop (insertPos s a), Beyond ⟨a, sz⟩ b.span := by
      intro b hb
      have hlt := lt_start_of_mem_drop h.sorted hb
      refine (hslot.clear b (List.mem_of_mem_drop hb)).resolve_left fun hc => ?_
      exact absurd hc.1 (Nat.not_lt.mpr hlt.le)
    have horder := h.order
    rw [← List.take_append_drop (insertPos s a) (live s), List.pairwise_append] at horder
    obtain ⟨htake, hdrop, hcross⟩ := horder
    rw [hcom.live, List.pairwise_append, List.pairwise_cons]
    refine ⟨htake, ⟨hafter, hdrop⟩, fun x hx y hy => ?_⟩
    rcases List.mem_cons.mp hy with rfl | hy
    · exact hbefore x hx
    · exact hcross x hx y hy
  · rw [hcom.live]
    intro b hb
    rcases List.mem_append.mp hb with hb | hb
    · exact h.entry b (List.mem_of_mem_take hb)
    · rcases List.mem_cons.mp hb with rfl | hb
      · exact ⟨rfl, hpos, hsz, c, hc, hlo, hhi, hstop⟩
      · exact h.entry b (List.mem_of_mem_drop hb)
  · rw [hcom.regions]
    by_cases hrr : r' = r
    · subst hrr
      rw [Function.update_self]
      exact ⟨(h.regions r' d hd).1, (h.regions r' d hd).2.1, Nat.mod_lt _ (Nat.two_pow_pos 32)⟩
    · rw [Function.update_of_ne hrr]
      exact h.regions r' d hd

/-! ### Allocation -/

theorem searchSize_lt (size alignment : Nat) : searchSize size alignment < 2 ^ 32 :=
  Nat.mod_lt _ (Nat.two_pow_pos 32)

/-- Region `r` serves the request: `find_fit_in_region` has an answer there, and none before. -/
def Serving (s : State) (size alignment r : Nat) : Prop :=
  r < s.regionCount ∧ fitIn s r (searchSize size alignment) (effectiveAlignment alignment) ≠ 0 ∧
    ∀ r' < r, fitIn s r' (searchSize size alignment) (effectiveAlignment alignment) = 0

theorem Serving.unique {r r' : Nat} (h : Serving s size alignment r)
    (h' : Serving s size alignment r') : r = r' := by
  rcases Nat.lt_trichotomy r r' with hlt | rfl | hlt
  · exact absurd (h'.2.2 r hlt) h.2.1
  · rfl
  · exact absurd (h.2.2 r' hlt) h'.2.1

/-- **What an allocation does**: it commits a block in a slot of the region that serves it, or
leaves the state alone. -/
theorem memAllocAligned_cases (h : Coarse L s) (hsize : size < 2 ^ 32) (hal : alignment < 2 ^ 32) :
    ∃ s₀, Resort s s₀ ∧ ((∃ r a, Serving s size alignment r ∧ 0 < searchSize size alignment ∧
        Slot L s r (searchSize size alignment) a ∧
        memAllocAligned s size alignment = (Allocator.commit s₀ r a size (searchSize size alignment), a)) ∨
      memAllocAligned s size alignment = (s₀, 0)) := by
  have hinit : ensureInitialized s = s := by rw [ensureInitialized, h.init]; rfl
  rw [memAllocAligned, hinit]
  by_cases hok : requestOk size (effectiveAlignment alignment) = true
  · obtain ⟨-, hreq, -⟩ := request_of_ok hsize (effectiveAlignment_lt hal) hok
    rw [if_pos hok]
    have hone : ∀ s₁ r, Resort s s₁ → r < s.regionCount →
        ByAnswer s₁ r size (effectiveAlignment alignment) (searchSize size alignment) := by
      intro s₁ r hs₁ hr
      obtain ⟨c, hc⟩ := h.getElem?_configs hr
      exact (h.resort hs₁).byAnswer hc hreq (searchSize_lt size alignment) size
    obtain ⟨s₀, hs₀, ⟨r, hr, hcount, hne, hbefore, heq⟩ | ⟨-, heq⟩⟩ :=
      tryRegions_cases h.sorted hone
    · obtain ⟨c, hc⟩ := h.getElem?_configs hr
      exact ⟨s₀, hs₀, .inl ⟨r, _, ⟨hr, hne, hbefore⟩, hreq.pos,
        h.slot_of_fitIn hc hreq (searchSize_lt size alignment) hcount hne, heq⟩⟩
    · exact ⟨s₀, hs₀, .inr heq⟩
  · rw [if_neg hok]
    exact ⟨s, .refl s, .inr rfl⟩

theorem memAllocAlignedFromRegion_cases (h : Coarse L s) (hsize : size < 2 ^ 32)
    (hal : alignment < 2 ^ 32) (r : Int) :
    ∃ s₀, Resort s s₀ ∧ ((∃ a, 0 < searchSize size alignment ∧
        Slot L s r.toNat (searchSize size alignment) a ∧
        memAllocAlignedFromRegion s r size alignment =
          (Allocator.commit s₀ r.toNat a size (searchSize size alignment), a)) ∨
      memAllocAlignedFromRegion s r size alignment = (s₀, 0)) := by
  rw [memAllocAlignedFromRegion_eq h.init]
  by_cases hr : 0 ≤ r ∧ r < s.regionCount ∧ requestOk size (effectiveAlignment alignment) = true
  · have hreq : Request (searchSize size alignment) (effectiveAlignment alignment) :=
      (request_of_ok hsize (effectiveAlignment_lt hal) hr.2.2).2.1
    obtain ⟨c, hc⟩ := h.getElem?_configs (r := r.toNat) (by omega)
    obtain ⟨s₀, hs₀, heq⟩ := h.byAnswer hc hreq (searchSize_lt size alignment) size
    rw [if_pos hr]
    refine ⟨s₀, hs₀, ?_⟩
    by_cases hans : s.blockCount < MAX_BLOCKS ∧
        fitIn s r.toNat (searchSize size alignment) (effectiveAlignment alignment) ≠ 0
    · rw [if_pos hans] at heq
      exact .inl ⟨_, hreq.pos,
        h.slot_of_fitIn hc hreq (searchSize_lt size alignment) hans.1 hans.2, heq⟩
    · rw [if_neg hans] at heq
      exact .inr heq
  · rw [if_neg hr]
    exact ⟨s, .refl s, .inr rfl⟩

theorem slot_resort (hs : Resort s s₀) (h : Slot L s r sz a) : Slot L s₀ r sz a := by
  obtain ⟨_, rfl⟩ := hs
  exact ⟨h.room, h.ne, h.inside, h.clear⟩

theorem of_memAllocAligned (h : Coarse L s) (hsize : size < 2 ^ 32) (hal : alignment < 2 ^ 32) :
    Coarse L (memAllocAligned s size alignment).1 := by
  obtain ⟨s₀, hs₀, ⟨r, a, -, hpos, hslot, heq⟩ | heq⟩ := h.memAllocAligned_cases hsize hal
  · rw [heq]
    exact (h.resort hs₀).commit (slot_resort hs₀ hslot) (searchSize_lt _ _) hpos size
  · rw [heq]
    exact h.resort hs₀

theorem of_memAllocAlignedFromRegion (h : Coarse L s) (hsize : size < 2 ^ 32)
    (hal : alignment < 2 ^ 32) (r : Int) :
    Coarse L (memAllocAlignedFromRegion s r size alignment).1 := by
  obtain ⟨s₀, hs₀, ⟨a, hpos, hslot, heq⟩ | heq⟩ := h.memAllocAlignedFromRegion_cases hsize hal r
  · rw [heq]
    exact (h.resort hs₀).commit (slot_resort hs₀ hslot) (searchSize_lt _ _) hpos size
  · rw [heq]
    exact h.resort hs₀

/-! ### Release and shrink -/

theorem regionId_lt (h : Coarse L s) (hb : b ∈ live s) : b.regionId < s.regionCount := by
  obtain ⟨c, hc, -⟩ := (h.entry b hb).inside
  rw [h.regionCount]
  exact (List.getElem?_eq_some_iff.mp hc).1

theorem memFree_eq (h : Coarse L s) (hptr : ptr ≠ 0) (hf : findBlock s ptr = some i) :
    memFree s ptr = removeBlock
      { s with regions := refund s (s.blocks i).regionId (s.blocks i).actualSize } i :=
  Allocator.memFree_eq hptr hf (h.regionId_lt (mem_live_of_lt (findBlock_eq_some hf).1))

theorem of_memFree (h : Coarse L s) (ptr : Nat) : Coarse L (memFree s ptr) := by
  by_cases hptr : ptr = 0
  · rw [memFree, if_pos hptr]
    exact h
  cases hf : findBlock s ptr with
  | none =>
    rw [memFree, if_neg hptr, hf]
    exact h
  | some i =>
    obtain ⟨hi, -, -⟩ := findBlock_eq_some hf
    rw [h.memFree_eq hptr hf]
    set regs := refund s (s.blocks i).regionId (s.blocks i).actualSize with hregs
    have hlive : live (removeBlock { s with regions := regs } i) = (live s).eraseIdx i :=
      live_removeBlock (s := { s with regions := regs }) hi
    have hsub := List.eraseIdx_sublist (live s) i
    refine ⟨h.init, h.regionCount, ?_, fun k hk hk' => ?_, ?_, ?_, fun r c hc => ?_⟩
    · exact (Nat.sub_le _ _).trans h.count
    · have hk : s.blockCount - 1 ≤ k := hk
      rcases Nat.eq_or_lt_of_le hk with rfl | hk
      · exact removeBlock_last (s := { s with regions := regs })
      · rw [removeBlock_free (s := { s with regions := regs }) (by simp only; omega),
          if_neg (by simp only; omega)]
        exact h.cleared k (by omega) hk'
    · rw [hlive]
      exact h.order.sublist hsub
    · rw [hlive]
      exact fun b hb => h.entry b (hsub.subset hb)
    · change (regs r).start = _ ∧ (regs r).size = _ ∧ (regs r).memoryUsed < _
      rw [hregs, refund]
      by_cases hr : r = (s.blocks i).regionId
      · subst hr
        rw [Function.update_self]
        have := h.regions _ c hc
        exact ⟨this.1, this.2.1, (Nat.sub_le _ _).trans_lt this.2.2⟩
      · rw [Function.update_of_ne hr]
        exact h.regions r c hc

theorem of_setSize (h : Coarse L s) (hi : i < s.blockCount) : Coarse L (setSize s i newSize) := by
  have hi' : i < (live s).length := by simpa using hi
  have hspan : (live (setSize s i newSize)).map Block.span = (live s).map Block.span := by
    have hsame : Block.span { s.blocks i with size := newSize } = (live s)[i].span := by
      rw [getElem_live]
      rfl
    rw [live_setSize hi, List.map_set, hsame, ← List.getElem_map Block.span (h := by simpa using hi'),
      List.set_getElem_self]
  refine ⟨h.init, h.regionCount, h.count, fun k hk hk' => ?_, ?_, fun b hb => ?_, h.regions⟩
  · have hne : k ≠ i := by have : s.blockCount ≤ k := hk; omega
    exact (Function.update_of_ne hne _ _).trans (h.cleared k hk hk')
  · have horder : ((live s).map Block.span).Pairwise Beyond := List.pairwise_map.mpr h.order
    rw [← hspan] at horder
    exact List.pairwise_map.mp horder
  · rw [live_setSize hi] at hb
    rcases List.mem_or_eq_of_mem_set hb with hb | rfl
    · exact h.entry b hb
    · have hentry := h.entry _ (mem_live_of_lt hi)
      exact ⟨hentry.used, hentry.pos, hentry.lt, hentry.inside⟩

/-! ### Runs -/

theorem of_memReallocAligned (h : Coarse L s) (hsize : newSize < 2 ^ 32)
    (hal : alignment < 2 ^ 32) : Coarse L (memReallocAligned s ptr newSize alignment).1 := by
  rw [memReallocAligned]
  split
  · exact h.of_memAllocAligned hsize hal
  · split
    · exact h.of_memFree ptr
    · dsimp only
      split
      · exact h
      · split
        · exact h
        · rename_i i hf
          split
          · exact h.of_setSize (findBlock_eq_some hf).1
          · have halloc := h.of_memAllocAligned hsize (effectiveAlignment_lt hal)
            split
            · exact halloc
            · exact (halloc.setMem _).of_memFree ptr

/-- **Any call** keeps the table. -/
theorem of_step (h : Coarse L s) (k : Call) : Coarse L (step s k) := by
  cases k with
  | allocAligned size alignment => exact h.of_memAllocAligned size.toNat_lt alignment.toNat_lt
  | allocAlignedFromRegion r size alignment =>
    exact h.of_memAllocAlignedFromRegion size.toNat_lt alignment.toNat_lt r
  | callocAligned count size alignment =>
    rw [step, call]
    by_cases hover : size.toNat ≠ 0 ∧ 0xFFFFFFFF / size.toNat < count.toNat
    · rw [memCallocAligned, if_pos hover]
      exact h
    · obtain ⟨m, hm⟩ := memCallocAligned_eq s alignment.toNat hover
      rw [hm]
      exact (h.of_memAllocAligned (Nat.mod_lt _ (Nat.two_pow_pos 32)) alignment.toNat_lt).setMem m
  | reallocAligned ptr newSize alignment =>
    exact h.of_memReallocAligned newSize.toNat_lt alignment.toNat_lt
  | free ptr => exact h.of_memFree ptr.toNat

end Coarse

theorem coarse_memInitWithConfig (L : Layout) (s : State) :
    Coarse L (memInitWithConfig s L.configs) := by
  refine ⟨rfl, Nat.min_eq_left L.length, Nat.zero_le _, fun i _ hi => ?_, .nil,
    fun b hb => absurd hb List.not_mem_nil, fun r c hc => ?_⟩
  · simp [memInitWithConfig, hi]
  · simp [memInitWithConfig, List.take_of_length_le L.length, hc]

/-- **The table stays in order**, whatever is called. -/
theorem coarse_of_run (h : Run (fun _ _ => True) step (memInitWithConfig s₀ L.configs) s) :
    Coarse L s :=
  h.invariant (fun _ k hs _ => hs.of_step k) (coarse_memInitWithConfig L s₀)

end Kinetis.Allocator
