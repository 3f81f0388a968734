import Kinetis.Allocator.Heap
import Kinetis.Lib.Runs

/-!
# Allocator — the table represents a heap

`Inv L s`: the live entries of the table form a heap over the layout `L`, every other entry is
free, and the usage counters are those of the heap.

Every operation is described once, by what it does to such a state: an allocation either leaves
the state alone up to the `need_sort` flag (`Resort`) or commits one block (`commit`), and a
release drops one entry.  `Inv` is kept by a commit whose address is the exact first fit
(`Inv.commit_of_place`), by a release (`Inv.of_memFree`), and by a shrink (`Inv.of_setSize`).

The source's own search (`found`) can differ from the exact one (`place`) in a gap that wraps;
`Wraps` says that it does.
-/

namespace Kinetis.Allocator
open Lib

/-- The live entries form a heap, the rest of the table is free, the counters are exact. -/
structure Inv (L : Layout) (s : State) : Prop where
  init        : s.initialized = true
  regionCount : s.regionCount = L.configs.length
  count       : s.blockCount ≤ MAX_BLOCKS
  free        : ∀ i, s.blockCount ≤ i → i < MAX_BLOCKS → (s.blocks i).status = .free
  heap        : Heap L (live s)
  regions     : ∀ r c, L.configs[r]? = some c →
    s.regions r = ⟨c.start.toNat, c.size.toNat, usage r (live s)⟩

/-! ### The sort flag -/

/-- `s'` is `s` up to the `need_sort` flag. -/
def Resort (s s' : State) : Prop := ∃ n, s' = { s with needSort := n }

theorem Resort.refl (s : State) : Resort s s := ⟨s.needSort, rfl⟩

theorem Resort.trans {s s₁ s' : State} (h₁ : Resort s s₁) (h₂ : Resort s₁ s') : Resort s s' := by
  obtain ⟨_, rfl⟩ := h₁
  obtain ⟨n, rfl⟩ := h₂
  exact ⟨n, rfl⟩

theorem Resort.blockCount_eq {s s' : State} (hs : Resort s s') : s'.blockCount = s.blockCount := by
  obtain ⟨_, rfl⟩ := hs
  rfl

variable {L : Layout} {s s' : State} {r size alignment sz a : Nat} {c : RegionConfig}

theorem Sorted.resort (h : Sorted s) (hs : Resort s s') : Sorted s' := by
  obtain ⟨_, rfl⟩ := hs
  exact h

theorem Sorted.resort_sorted (h : Sorted s) : Resort s (ensureBlocksSorted s) :=
  ⟨_, ensureBlocksSorted_eq h⟩

/-- A descriptor is left unless the table is full. -/
theorem findFreeBlock_isNone_iff (hcount : s.blockCount ≤ MAX_BLOCKS)
    (hused : ∀ b ∈ live s, b.status = .used)
    (hfree : ∀ i, s.blockCount ≤ i → i < MAX_BLOCKS → (s.blocks i).status = .free) :
    (findFreeBlock s).isNone = true ↔ s.blockCount = MAX_BLOCKS := by
  rw [findFreeBlock, Option.isNone_iff_eq_none, List.find?_eq_none]
  simp only [List.mem_range, decide_eq_true_eq]
  constructor
  · intro hnone
    by_contra hne
    have hlt : s.blockCount < MAX_BLOCKS := Nat.lt_of_le_of_ne hcount hne
    exact hnone s.blockCount hlt (hfree _ le_rfl hlt)
  · intro hfull i hi
    rw [hused _ (mem_live_of_lt (hfull ▸ hi))]
    exact BlockStatus.noConfusion

theorem usedInRegion_eq (hused : ∀ b ∈ live s, b.status = .used) (r : Nat) :
    usedInRegion s r = inRegion r (live s) := by
  rw [inRegion, live, List.filter_map]
  refine congrArg (List.map s.blocks) (List.filter_congr fun i hi => ?_)
  simp [hused _ (mem_live_of_lt (List.mem_range.mp hi))]

theorem Inv.resort (h : Inv L s) (hs : Resort s s') : Inv L s' := by
  obtain ⟨_, rfl⟩ := hs
  exact ⟨h.init, h.regionCount, h.count, h.free, h.heap, h.regions⟩

theorem Inv.setMem (h : Inv L s) (m : Nat → UInt8) : Inv L { s with mem := m } :=
  ⟨h.init, h.regionCount, h.count, h.free, h.heap, h.regions⟩

theorem Inv.start_lt (h : Inv L s) {i j : Nat} (hij : i < j) (hj : j < s.blockCount) :
    (s.blocks i).start < (s.blocks j).start := by
  have hall := List.pairwise_iff_getElem.mp h.heap.start_lt i j
    (by simpa using hij.trans hj) (by simpa using hj) hij
  simpa only [getElem_live] using hall

theorem Inv.sorted (h : Inv L s) : Sorted s := fun _ _ hij hj => (h.start_lt hij hj).le

theorem Inv.used (h : Inv L s) : ∀ b ∈ live s, b.status = .used := fun b hb => (h.heap.ok b hb).used

theorem Inv.findFreeBlock_isNone_iff (h : Inv L s) :
    (findFreeBlock s).isNone = true ↔ s.blockCount = MAX_BLOCKS :=
  Allocator.findFreeBlock_isNone_iff h.count h.used h.free

theorem Inv.usedInRegion_eq (h : Inv L s) (r : Nat) : usedInRegion s r = inRegion r (live s) :=
  Allocator.usedInRegion_eq h.used r

/-! ### The search -/

/-- The source's search of one region. -/
def found (s : State) (r sz alignment : Nat) : Option Nat :=
  searchGaps sz alignment (regionEnd (s.regions r)) (s.regions r).start (usedInRegion s r)

/-- The occupied spans of one region. -/
def spans (s : State) (r : Nat) : List Span := (usedInRegion s r).map Block.span

/-- The exact search of one region: the least aligned address with room for `sz` bytes. -/
def place (s : State) (r sz alignment : Nat) : Option Nat :=
  firstFit alignment sz ((s.regions r).start + (s.regions r).size) (s.regions r).start (spans s r)

/-- Nothing fits in the region, but one of its gaps wraps. -/
def Wraps (s : State) (r sz alignment : Nat) : Prop :=
  place s r sz alignment = none ∧
    WrapGap sz alignment ((s.regions r).start + (s.regions r).size) (s.regions r).start (spans s r)

theorem WrapAt.bounds (hreq : Request sz alignment) {lo hi : Nat} (ha : a + sz = 2 ^ 64)
    (hw : WrapAt sz alignment lo hi) : lo ≤ a ∧ a < hi ∧ lo + sz ≤ hi := by
  have hlo : lo ≤ alignUp lo alignment := le_alignUp hreq.align_pos
  have hlt : alignUp lo alignment < lo + alignment := alignUp_lt hreq.align_pos
  have hal := hreq.align_le_size
  obtain ⟨hgap, htop⟩ := hw
  omega

theorem WrapGap.bounds (hreq : Request sz alignment) {hi : Nat} (ha : a + sz = 2 ^ 64) :
    ∀ {lo : Nat} {bs : List Span}, Packed hi lo bs → WrapGap sz alignment hi lo bs →
      lo ≤ a ∧ a < hi ∧ lo + sz ≤ hi
  | _, [], _, hw => WrapAt.bounds hreq ha hw
  | lo, b :: bs, hp, hw => by
    have hb : b.start ≤ b.stop := Nat.le_add_right b.start b.len
    have hhi := hp.2.le
    have hlob := hp.1
    rcases hw with hw | hw
    · have := hw.bounds hreq ha
      omega
    · have := WrapGap.bounds hreq ha hp.2 hw
      omega

section Region

variable (h : Inv L s) (hc : L.configs[r]? = some c)
include h hc

theorem Inv.regionEnd_eq : regionEnd (s.regions r) = c.stop := by
  rw [h.regions r c hc]
  exact Nat.mod_eq_of_lt (L.stop_lt hc)

theorem Inv.packed_spans : Packed c.stop c.start.toNat (spans s r) := by
  rw [spans, h.usedInRegion_eq]
  exact h.heap.packed hc

theorem Inv.place_eq : place s r sz alignment =
    firstFit alignment sz c.stop c.start.toNat (spans s r) := by
  rw [place, h.regions r c hc]
  rfl

theorem Inv.wraps_iff : Wraps s r sz alignment ↔ place s r sz alignment = none ∧
    WrapGap sz alignment c.stop c.start.toNat (spans s r) := by
  rw [Wraps, h.regions r c hc]
  rfl

/-- The two searches agree except in a gap that wraps. -/
theorem Inv.found_eq_some_iff (hreq : Request sz alignment) :
    found s r sz alignment = some a ↔
      place s r sz alignment = some a ∨ Wraps s r sz alignment ∧ a + sz = 2 ^ 64 := by
  rw [h.wraps_iff hc, h.place_eq hc, found, h.regionEnd_eq hc, h.regions r c hc,
    searchGaps_eq_some_iff hreq (L.stop_lt hc) (h.packed_spans hc), and_assoc]
  rfl

theorem Inv.place_eq_some_iff (hreq : Request sz alignment) :
    place s r sz alignment = some a ↔
      IsLeast {x | Fits alignment sz c.start.toNat c.stop (spans s r) x} a := by
  rw [h.place_eq hc]
  exact firstFit_eq_some_iff hreq.align_pos (h.packed_spans hc)

theorem Inv.place_eq_none_iff (hreq : Request sz alignment) :
    place s r sz alignment = none ↔ ∀ x, ¬ Fits alignment sz c.start.toNat c.stop (spans s r) x := by
  rw [h.place_eq hc]
  exact firstFit_eq_none_iff hreq.align_pos (h.packed_spans hc)

/-- Whatever the source finds passes the checks that follow the search. -/
theorem Inv.found_bounds (hreq : Request sz alignment) (hf : found s r sz alignment = some a) :
    c.start.toNat ≤ a ∧ a < c.stop ∧ sz ≤ c.size.toNat ∧ (a + sz) % 2 ^ 64 ≤ c.stop := by
  have hpos := hreq.pos
  have hstop := L.stop_lt hc
  have hdef : c.stop = c.start.toNat + c.size.toNat := rfl
  rcases (h.found_eq_some_iff hc hreq).mp hf with hp | ⟨hw, ha⟩
  · obtain ⟨-, hlo, hhi, -⟩ := ((h.place_eq_some_iff hc hreq).mp hp).1
    omega
  · obtain ⟨hlo, hhi, hsz⟩ := ((h.wraps_iff hc).mp hw).2.bounds hreq ha (h.packed_spans hc)
    omega

end Region

/-! ### One region -/

/-- Record a block and charge it to its region. -/
def commit (s : State) (r a size sz : Nat) : State :=
  addUsed (insertBlockSorted s r a size sz) r sz

/-- **What a commit does** to a table in address order with room. -/
structure Committed (s s' : State) (r a size sz : Nat) : Prop where
  init        : s'.initialized = s.initialized
  regionCount : s'.regionCount = s.regionCount
  count       : s'.blockCount = s.blockCount + 1
  past        : ∀ i, s.blockCount < i → s'.blocks i = s.blocks i
  live        : live s' = (live s).take (insertPos s a) ++
    ⟨a, size, sz, .used, r⟩ :: (live s).drop (insertPos s a)
  regions     : s'.regions = Function.update s.regions r
    { s.regions r with memoryUsed := ((s.regions r).memoryUsed + sz) % 2 ^ 32 }

theorem Sorted.committed (h : Sorted s) (hcount : s.blockCount < MAX_BLOCKS)
    (hc : L.configs[r]? = some c) (a size sz : Nat) :
    Committed s (commit s r a size sz) r a size sz := by
  have hr : r < L.configs.length := (List.getElem?_eq_some_iff.mp hc).1
  have hmod : r % 256 = r := by have := L.length; simp only [MAX_MEM_REGIONS] at this; omega
  have heq := insertBlockSorted_eq h hcount r a size sz
  have hlive := live_insertBlockSorted h hcount r a size sz
  rw [hmod] at hlive
  refine ⟨?_, ?_, ?_, fun i hi => insertBlockSorted_blocks h hcount r a size sz hi, hlive, ?_⟩
  all_goals
    rw [commit, heq]
    rfl

/-- **A commit at the exact first fit keeps the invariant.** -/
theorem Inv.commit_of_place (h : Inv L s) (hc : L.configs[r]? = some c) (hreq : Request sz alignment)
    (hcount : s.blockCount < MAX_BLOCKS) (hsize : size ≤ sz)
    (hp : place s r sz alignment = some a) : Inv L (commit s r a size sz) := by
  have hfit := ((h.place_eq_some_iff hc hreq).mp hp).1
  have hcom := h.sorted.committed hcount hc a size sz
  generalize commit s r a size sz = s' at hcom ⊢
  have hok : BlockOk L ⟨a, size, sz, .used, r⟩ :=
    ⟨rfl, hreq.pos, hsize, c, hc, hfit.2.1, hfit.2.2.1⟩
  have hclear : ∀ b' ∈ live s, Clear ⟨a, size, sz, .used, r⟩ b' := by
    rw [spans, h.usedInRegion_eq] at hfit
    exact h.heap.clear_of_fits hc hfit
  have hheap : Heap L (live s') :=
    hcom.live ▸ h.heap.insert hok hclear (fun _ => start_le_of_mem_take)
      (fun _ => lt_start_of_mem_drop h.sorted)
  refine ⟨hcom.init.trans h.init, hcom.regionCount.trans h.regionCount, ?_, ?_, hheap, ?_⟩
  · rw [hcom.count]
    exact hcount
  · intro i hi hi'
    rw [hcom.count] at hi
    rw [hcom.past i hi]
    exact h.free i (Nat.le_of_lt hi) hi'
  · intro r' d hd
    have husage : usage r' (live s') = (if r = r' then sz else 0) + usage r' (live s) := by
      rw [hcom.live, usage_insert]
    have hle := hheap.usage_le hd
    have hd' := h.regions r' d hd
    rw [husage] at hle ⊢
    rw [hcom.regions]
    by_cases hrr : r = r'
    · subst hrr
      have hlt : usage r (live s) + sz < 2 ^ 32 := by
        have := d.size.toNat_lt
        rw [if_pos rfl] at hle
        omega
      rw [Function.update_self, hd', if_pos rfl, Nat.mod_eq_of_lt hlt, Nat.add_comm sz]
    · rw [Function.update_of_ne (Ne.symm hrr), hd', if_neg hrr, Nat.zero_add]

/-! ### Allocation -/

/-- What the checks of `mem_alloc_aligned` establish. -/
theorem request_of_ok (hsize : size < 2 ^ 32) (hal : alignment < 2 ^ 32)
    (h : requestOk size alignment = true) :
    alignedSize size alignment = alignUp size alignment ∧
      Request (alignedSize size alignment) alignment ∧ size ≤ alignedSize size alignment := by
  simp only [requestOk, Bool.and_eq_true, bne_iff_ne, decide_eq_true_eq] at h
  obtain ⟨⟨hne, hpow⟩, hsum⟩ := h
  obtain ⟨k, rfl⟩ := isPowerOf2_iff.mp hpow
  have hk : k < 32 := (Nat.pow_lt_pow_iff_right Nat.one_lt_two).mp hal
  have hpos : 0 < 2 ^ k := Nat.two_pow_pos k
  have hlt : size + 2 ^ k - 1 < 2 ^ 32 := by omega
  have heq : alignedSize size (2 ^ k) = alignUp size (2 ^ k) := by
    have hmask := add_and_high_mask (w := 64) (k := k) (x := size) (by omega)
      (hlt.trans (by decide))
    have hup : alignUp size (2 ^ k) < size + 2 ^ k := alignUp_lt hpos
    rw [alignedSize, Nat.mod_eq_of_lt hlt, hmask, Nat.mod_eq_of_lt (by omega)]
  have hle : size ≤ alignUp size (2 ^ k) := le_alignUp hpos
  rw [heq]
  exact ⟨rfl, ⟨⟨k, hk, rfl⟩, by omega, dvd_alignUp size (2 ^ k)⟩, hle⟩

theorem effectiveAlignment_lt (hal : alignment < 2 ^ 32) : effectiveAlignment alignment < 2 ^ 32 := by
  rw [effectiveAlignment]
  split <;> omega

theorem Sorted.memGetLargestFreeBlock_fst (h : Sorted s) :
    Resort s (memGetLargestFreeBlock s).1 := by
  rw [memGetLargestFreeBlock]
  generalize (0 : Nat) = largest
  generalize List.range s.regionCount = rs
  induction rs generalizing s largest with
  | nil => exact .refl s
  | cons r rs ih => exact h.resort_sorted.trans (ih (h.resort h.resort_sorted) _)

/-- The source serves the request in region `r`, at `a`: earlier regions have nothing. -/
def Serves (s : State) (alignment sz r a : Nat) : Prop :=
  found s r sz alignment = some a ∧ ∀ r' < r, found s r' sz alignment = none

theorem Inv.getElem?_configs (h : Inv L s) (hr : r < s.regionCount) :
    ∃ c, L.configs[r]? = some c :=
  ⟨_, List.getElem?_eq_getElem (h.regionCount ▸ hr)⟩

theorem found_resort (hs : Resort s s') (r sz alignment : Nat) :
    found s' r sz alignment = found s r sz alignment := by
  obtain ⟨_, rfl⟩ := hs
  rfl

theorem place_resort (hs : Resort s s') (r sz alignment : Nat) :
    place s' r sz alignment = place s r sz alignment := by
  obtain ⟨_, rfl⟩ := hs
  rfl

/-- The answer of `find_fit_in_region`. -/
def fitIn (s : State) (r sz alignment : Nat) : Nat := (found s r sz alignment).getD 0

theorem fitIn_resort (hs : Resort s s') (r sz alignment : Nat) :
    fitIn s' r sz alignment = fitIn s r sz alignment := by
  rw [fitIn, found_resort hs, fitIn]

/-- An attempt at one region goes by its answer: it commits a block there or, where that is `NULL`
or the table is full, leaves the state alone. -/
def ByAnswer (s : State) (r size alignment sz : Nat) : Prop :=
  ∃ s₀, Resort s s₀ ∧ tryAllocInRegion s r size alignment sz =
    if s.blockCount < MAX_BLOCKS ∧ fitIn s r sz alignment ≠ 0 then
      (commit s₀ r (fitIn s r sz alignment) size sz, fitIn s r sz alignment)
    else (s₀, 0)

/-- It does if an answer passes the checks that follow the search. -/
theorem Sorted.byAnswer (h : Sorted s) (hcount : s.blockCount ≤ MAX_BLOCKS)
    (hfull : (findFreeBlock s).isNone = true ↔ s.blockCount = MAX_BLOCKS)
    (hok : s.blockCount < MAX_BLOCKS → fitIn s r sz alignment ≠ 0 →
      sz ≤ (s.regions r).size ∧ (s.regions r).start ≤ fitIn s r sz alignment ∧
        fitIn s r sz alignment < regionEnd (s.regions r) ∧
        (fitIn s r sz alignment + sz) % 2 ^ 64 ≤ regionEnd (s.regions r)) (size : Nat) :
    ByAnswer s r size alignment sz := by
  have hfit : findFitInRegion s r sz alignment =
      (ensureBlocksSorted s, fitIn s r sz alignment) := by
    rw [findFitInRegion, ensureBlocksSorted_eq h]
    rfl
  rw [ByAnswer, tryAllocInRegion, hfit]
  simp only
  by_cases hans : s.blockCount < MAX_BLOCKS ∧ fitIn s r sz alignment ≠ 0
  · obtain ⟨hsize, hlo, hhi, hend⟩ := hok hans.1 hans.2
    refine ⟨_, h.resort_sorted, ?_⟩
    rw [if_pos hans, if_neg (Nat.not_lt.mpr hsize), if_neg fun hn => hans.1.ne (hfull.mp hn),
      if_neg hans.2, if_neg (by omega), if_neg (Nat.not_lt.mpr hend)]
    rfl
  · simp only [if_neg hans]
    by_cases hbig : (s.regions r).size < sz
    · exact ⟨s, .refl s, if_pos hbig⟩
    · rw [if_neg hbig]
      by_cases hnone : (findFreeBlock s).isNone = true
      · exact ⟨s, .refl s, if_pos hnone⟩
      · have hlt : s.blockCount < MAX_BLOCKS :=
          Nat.lt_of_le_of_ne hcount fun he => hnone (hfull.mpr he)
        have hzero : fitIn s r sz alignment = 0 := Classical.not_not.mp fun hne => hans ⟨hlt, hne⟩
        rw [if_neg hnone]
        exact ⟨_, h.resort_sorted, if_pos hzero⟩

/-- **The region loop**, when an attempt at a region goes by its answer: the first region with an
answer serves the request. -/
theorem tryRegions_cases (h : Sorted s) {n : Nat}
    (hone : ∀ s₁ r, Resort s s₁ → r < n → ByAnswer s₁ r size alignment sz) :
    ∃ s₀, Resort s s₀ ∧
      ((∃ r < n, s.blockCount < MAX_BLOCKS ∧ fitIn s r sz alignment ≠ 0 ∧
          (∀ r' < r, fitIn s r' sz alignment = 0) ∧
          tryRegions size alignment sz (List.range n) s =
            (commit s₀ r (fitIn s r sz alignment) size sz, fitIn s r sz alignment)) ∨
        (s.blockCount < MAX_BLOCKS → ∀ r < n, fitIn s r sz alignment = 0) ∧
          tryRegions size alignment sz (List.range n) s = (s₀, 0)) := by
  set answer : Nat → Nat := fun r => fitIn s r sz alignment with hanswer
  -- the loop from region `lo` on, entered in `s₁` after the regions before it had no answer
  have hloop : ∀ (m lo : Nat) (s₁ : State), lo + m = n → Resort s s₁ → ∃ s₀, Resort s s₀ ∧
      ((∃ r, lo ≤ r ∧ r < n ∧ s.blockCount < MAX_BLOCKS ∧ answer r ≠ 0 ∧
          (∀ r', lo ≤ r' → r' < r → answer r' = 0) ∧
          tryRegions size alignment sz (List.range' lo m) s₁ =
            (commit s₀ r (answer r) size sz, answer r)) ∨
        (s.blockCount < MAX_BLOCKS → ∀ r, lo ≤ r → r < n → answer r = 0) ∧
          tryRegions size alignment sz (List.range' lo m) s₁ = (s₀, 0)) := by
    intro m
    induction m with
    | zero =>
      intro lo s₁ hlo hs₁
      exact ⟨_, hs₁.trans (h.resort hs₁).memGetLargestFreeBlock_fst, .inr
        ⟨fun _ r _ _ => by omega, rfl⟩⟩
    | succ m ih =>
      intro lo s₁ hlo hs₁
      obtain ⟨s₂, hs₂, htry⟩ := hone s₁ lo hs₁ (by omega)
      rw [hs₁.blockCount_eq, fitIn_resort hs₁] at htry
      rw [List.range'_succ, tryRegions, htry]
      by_cases hans : s.blockCount < MAX_BLOCKS ∧ answer lo ≠ 0
      · rw [if_pos hans]
        refine ⟨s₂, hs₁.trans hs₂, .inl ⟨lo, le_rfl, by omega, hans.1, hans.2,
          fun r' h₁ h₂ => by omega, if_pos hans.2⟩⟩
      · rw [if_neg hans]
        have hzero : s.blockCount < MAX_BLOCKS → answer lo = 0 :=
          fun hc => Classical.not_not.mp fun hne => hans ⟨hc, hne⟩
        obtain ⟨s₀, hs₀, ⟨r, hlo', hr, hc, hne, hbefore, heq⟩ | ⟨hall, heq⟩⟩ :=
          ih (lo + 1) s₂ (by omega) (hs₁.trans hs₂)
        · refine ⟨s₀, hs₀, .inl ⟨r, by omega, hr, hc, hne, fun r' h₁ h₂ => ?_, heq⟩⟩
          rcases Nat.eq_or_lt_of_le h₁ with rfl | h₁
          · exact hzero hc
          · exact hbefore r' h₁ h₂
        · refine ⟨s₀, hs₀, .inr ⟨fun hc r h₁ h₂ => ?_, heq⟩⟩
          rcases Nat.eq_or_lt_of_le h₁ with rfl | h₁
          · exact hzero hc
          · exact hall hc r h₁ h₂
  obtain ⟨s₀, hs₀, ⟨r, -, hr, hc, hne, hbefore, heq⟩ | ⟨hall, heq⟩⟩ :=
    hloop n 0 s (Nat.zero_add n) (.refl s)
  · rw [← List.range_eq_range'] at heq
    exact ⟨s₀, hs₀, .inl ⟨r, hr, hc, hne, fun r' => hbefore r' (Nat.zero_le r'), heq⟩⟩
  · rw [← List.range_eq_range'] at heq
    exact ⟨s₀, hs₀, .inr ⟨fun hc r => hall hc r (Nat.zero_le r), heq⟩⟩

theorem Inv.fitIn_ne_zero_iff (h : Inv L s) (hc : L.configs[r]? = some c)
    (hreq : Request sz alignment) :
    fitIn s r sz alignment ≠ 0 ↔ found s r sz alignment = some (fitIn s r sz alignment) := by
  rw [fitIn]
  cases hf : found s r sz alignment with
  | none => exact iff_of_false (fun hne => hne rfl) (fun hc => by cases hc)
  | some a =>
    have hlo := (h.found_bounds hc hreq hf).1
    have hpos := L.start_pos hc
    exact iff_of_true (Nat.ne_of_gt (hpos.trans_le hlo)) rfl

theorem Inv.found_eq_none (h : Inv L s) (hc : L.configs[r]? = some c) (hreq : Request sz alignment)
    (hzero : fitIn s r sz alignment = 0) : found s r sz alignment = none := by
  rw [Option.eq_none_iff_forall_ne_some]
  intro a hf
  have hget : fitIn s r sz alignment = a := by rw [fitIn, hf]; rfl
  exact (h.fitIn_ne_zero_iff hc hreq).mpr (hget ▸ hf) hzero

theorem Inv.byAnswer (h : Inv L s) (hc : L.configs[r]? = some c) (hreq : Request sz alignment)
    (size : Nat) : ByAnswer s r size alignment sz := by
  refine h.sorted.byAnswer h.count h.findFreeBlock_isNone_iff (fun _ hne => ?_) size
  obtain ⟨hlo, hhi, hsz, hend⟩ := h.found_bounds hc hreq ((h.fitIn_ne_zero_iff hc hreq).mp hne)
  rw [h.regionEnd_eq hc, h.regions r c hc]
  exact ⟨hsz, hlo, hhi, hend⟩

/-- A search of one region that finds an address commits a block there. -/
theorem Inv.tryAllocInRegion_some (h : Inv L s) (hc : L.configs[r]? = some c)
    (hreq : Request sz alignment) (hcount : s.blockCount < MAX_BLOCKS)
    (hf : found s r sz alignment = some a) (size : Nat) :
    ∃ s₀, Resort s s₀ ∧ tryAllocInRegion s r size alignment sz = (commit s₀ r a size sz, a) := by
  have hget : fitIn s r sz alignment = a := by rw [fitIn, hf]; rfl
  obtain ⟨s₀, hs₀, heq⟩ := h.byAnswer hc hreq size
  rw [if_pos ⟨hcount, (h.fitIn_ne_zero_iff hc hreq).mpr (hget ▸ hf)⟩, hget] at heq
  exact ⟨s₀, hs₀, heq⟩

/-- The request passes the checks and the table has room. -/
def Admitted (s : State) (size alignment : Nat) : Prop :=
  requestOk size (effectiveAlignment alignment) = true ∧ s.blockCount < MAX_BLOCKS

/-- The alignment and the rounded size the search works with. -/
def searchSize (size alignment : Nat) : Nat := alignedSize size (effectiveAlignment alignment)

/-- **What an allocation does.**  It commits a block where the source finds one, or leaves the
state alone. -/
theorem Inv.memAllocAligned_cases (h : Inv L s) (hsize : size < 2 ^ 32)
    (hal : alignment < 2 ^ 32) :
    (∃ r a s₀, Admitted s size alignment ∧ r < s.regionCount ∧
        Serves s (effectiveAlignment alignment) (searchSize size alignment) r a ∧ Resort s s₀ ∧
        memAllocAligned s size alignment = (commit s₀ r a size (searchSize size alignment), a)) ∨
    ((Admitted s size alignment → ∀ r < s.regionCount,
        found s r (searchSize size alignment) (effectiveAlignment alignment) = none) ∧
      ∃ s₀, Resort s s₀ ∧ memAllocAligned s size alignment = (s₀, 0)) := by
  have hinit : ensureInitialized s = s := by rw [ensureInitialized, h.init]; rfl
  rw [memAllocAligned, hinit]
  by_cases hok : requestOk size (effectiveAlignment alignment) = true
  · obtain ⟨-, hreq, -⟩ := request_of_ok hsize (effectiveAlignment_lt hal) hok
    rw [if_pos hok]
    have hone : ∀ s₁ r, Resort s s₁ → r < s.regionCount →
        ByAnswer s₁ r size (effectiveAlignment alignment) (searchSize size alignment) := by
      intro s₁ r hs₁ hr
      obtain ⟨c, hc⟩ := h.getElem?_configs hr
      exact (h.resort hs₁).byAnswer hc hreq size
    obtain ⟨s₀, hs₀, ⟨r, hr, hcount, hne, hbefore, heq⟩ | ⟨hall, heq⟩⟩ :=
      tryRegions_cases h.sorted hone
    · obtain ⟨c, hc⟩ := h.getElem?_configs hr
      refine .inl ⟨r, _, s₀, ⟨hok, hcount⟩, hr, ⟨(h.fitIn_ne_zero_iff hc hreq).mp hne,
        fun r' hr' => ?_⟩, hs₀, heq⟩
      obtain ⟨d, hd⟩ := h.getElem?_configs (hr'.trans hr)
      exact h.found_eq_none hd hreq (hbefore r' hr')
    · refine .inr ⟨fun hadm r hr => ?_, s₀, hs₀, heq⟩
      obtain ⟨c, hc⟩ := h.getElem?_configs hr
      exact h.found_eq_none hc hreq (hall hadm.2 r hr)
  · rw [if_neg hok]
    exact .inr ⟨fun hadm => absurd hadm.1 hok, s, .refl s, rfl⟩

/-! ### Release and shrink -/

/-- Usage after a release: the share of the block is taken off, down to 0. -/
def refund (s : State) (regionId n : Nat) : Nat → Region :=
  Function.update s.regions regionId
    { s.regions regionId with memoryUsed := (s.regions regionId).memoryUsed - n }

/-- **What a release does**: it drops the entry and takes its size off the region's usage. -/
theorem memFree_eq {ptr i : Nat} (hptr : ptr ≠ 0) (hf : findBlock s ptr = some i)
    (hr : (s.blocks i).regionId < s.regionCount) :
    memFree s ptr = removeBlock
      { s with regions := refund s (s.blocks i).regionId (s.blocks i).actualSize } i := by
  rw [memFree, if_neg hptr, hf]
  simp only
  rw [subUsed, if_pos hr]
  have hsub : ∀ m n : Nat, (if m < n then 0 else m - n) = m - n := by
    intro m n
    split <;> omega
  simp only [hsub]
  rfl

/-- **A release keeps the invariant**, whatever the pointer. -/
theorem Inv.of_memFree (h : Inv L s) (ptr : Nat) : Inv L (memFree s ptr) := by
  by_cases hptr : ptr = 0
  · rw [memFree, if_pos hptr]
    exact h
  cases hf : findBlock s ptr with
  | none =>
    rw [memFree, if_neg hptr, hf]
    exact h
  | some i =>
    obtain ⟨hi, -, -⟩ := findBlock_eq_some hf
    obtain ⟨d, hd, -⟩ := (h.heap.ok _ (mem_live_of_lt hi)).inside
    have hr : (s.blocks i).regionId < s.regionCount := by
      rw [h.regionCount]
      exact (List.getElem?_eq_some_iff.mp hd).1
    rw [memFree_eq hptr hf hr]
    set regs := refund s (s.blocks i).regionId (s.blocks i).actualSize with hregs
    have hlive : live (removeBlock { s with regions := regs } i) = (live s).eraseIdx i :=
      live_removeBlock (s := { s with regions := regs }) hi
    refine ⟨h.init, h.regionCount, ?_, fun k hk hk' => ?_, ?_, fun r c hc => ?_⟩
    · exact (Nat.sub_le _ _).trans h.count
    · have hk : s.blockCount - 1 ≤ k := hk
      rcases Nat.eq_or_lt_of_le hk with rfl | hk
      · rw [removeBlock_last (s := { s with regions := regs })]
        rfl
      · rw [removeBlock_free (s := { s with regions := regs }) (by simp only; omega),
          if_neg (by simp only; omega)]
        exact h.free k (by omega) hk'
    · rw [hlive]
      exact h.heap.sublist (List.eraseIdx_sublist _ _)
    · have hi' : i < (live s).length := by simpa using hi
      have husage := usage_eraseIdx r hi'
      rw [getElem_live] at husage
      rw [hlive]
      change regs r = _
      rw [hregs, refund]
      by_cases hr : r = (s.blocks i).regionId
      · subst hr
        rw [if_pos rfl] at husage
        rw [Function.update_self, h.regions _ c hc]
        simp only
        congr 1
        omega
      · rw [if_neg (Ne.symm hr), Nat.zero_add] at husage
        rw [Function.update_of_ne hr, h.regions r c hc, husage]

/-- The in-place path of `realloc` keeps the invariant. -/
theorem Inv.of_setSize (h : Inv L s) {i newSize : Nat} (hi : i < s.blockCount)
    (hle : newSize ≤ (s.blocks i).size) : Inv L (setSize s i newSize) := by
  have hi' : i < (live s).length := by simpa using hi
  have hlive : live (setSize s i newSize) = (live s).set i { s.blocks i with size := newSize } :=
    live_setSize hi
  have hok := h.heap.ok _ (mem_live_of_lt hi)
  refine ⟨h.init, h.regionCount, h.count, fun k hk hk' => ?_, ?_, fun r c hc => ?_⟩
  · have hne : k ≠ i := by have : s.blockCount ≤ k := hk; omega
    change (Function.update s.blocks i _ k).status = _
    rw [Function.update_of_ne hne]
    exact h.free k hk hk'
  · rw [hlive]
    refine h.heap.set hi' ⟨hok.used, hok.pos, hle.trans hok.size_le, hok.inside⟩ ?_
    rw [getElem_live]
    rfl
  · rw [hlive, usage_set r hi' (by rw [getElem_live]) (by rw [getElem_live])]
    exact h.regions r c hc

end Kinetis.Allocator
