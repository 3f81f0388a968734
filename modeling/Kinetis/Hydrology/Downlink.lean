import Kinetis.Hydrology.Codec

/-!
# Hydrology — what the device reads of a downlink

The two ends of a request are written apart, case by case.  A frame of the host always passes the
device's check; whether the device reads back what was put into it depends on the case.

* `Taken.Recovers t es`: what was read is `es`, and it is the whole body.
* `DownReads`: the requests that are read back, by function code, mode and element table.
* `downlink_round_trip_iff`: those, and no others.
-/

namespace Kinetis.Hydrology
open Lib

/-! ### What a downlink carries -/

/-- The elements as they are in the frame: with the guides and the values that are sent.  The byte
before a pump, valve or gate value is its length, not a guide. -/
def DownBody.carried (b : DownBody) (mode : Mode) : DownCase → List Element
  | .link | .simple => []
  | .period => b.elements.take 2
  | .guides | .oneGuide | .values | .changePassword | .setIcCard => b.elements
  | .pump | .valve | .gate =>
    if mode = .m4 then b.elements.map fun e => { e with guide0 := 0, guide1 := 0 } else []
  | .waterSetting => b.elements.map fun e => { e with guide0 := 0, guide1 := 0 }

/-- The guide of a table entry tells the length of its value. -/
def ElementInfo.Told (info : ElementInfo) : Prop :=
  guideNum (hydrologyGetGuideId info.D info.d) = info.num

instance (info : ElementInfo) : Decidable info.Told := inferInstanceAs (Decidable (_ = _))

/-- The requests that the device reads back. -/
def DownReads (store : Store) (table : List ElementInfo) (mode : Mode) : DownCase → Prop
  | .link => False
  | .simple | .oneGuide | .waterSetting => True
  | .period | .setIcCard => (firstInfo table).Told
  | .guides => table ≠ []
  | .values => table ≠ [] ∧ ∀ info ∈ table, info.Told
  | .changePassword => table.length = 2 ∧ ∀ info ∈ table, info.Told
  | .pump | .valve => mode = .m4
  | .gate => mode = .m4 ∧ (store.data .elementData HYDROLOGY_PDA_GATE_LEN).toNat % 8 = 0

/-- `es` was read, without an error, and nothing is left of the body. -/
structure Taken.Recovers (t : Taken) (es : List Element) : Prop where
  error    : t.error = none
  elements : t.elements = es
  len      : t.cursor.len = 0

/-! ### Elements and guides -/

section Take

variable {inp : Input} {heap : Heap}

/-- The device takes the length of a value from its guide. -/
theorem takeElement_num (i : Nat) (c : Cursor) :
    ∀ e ∈ (takeElement inp heap i c).elements, guideNum e.guide1 = e.num := by
  rw [takeElement, takeValue]
  split <;> exact List.forall_mem_singleton.mpr rfl

theorem takeElements_num (i k : Nat) (c : Cursor) :
    ∀ e ∈ (takeElements inp heap i k c).elements, guideNum e.guide1 = e.num := by
  induction k generalizing i c with
  | zero => exact fun e he => nomatch he
  | succ k ih =>
    rw [takeElements]
    split
    · exact takeElement_num i c
    · exact List.forall_mem_append.mpr ⟨takeElement_num i c, ih (i + 1) _⟩

theorem length_takeElements {k : Nat} (i : Nat) (c : Cursor)
    (h : (takeElements inp heap i k c).error = none) :
    (takeElements inp heap i k c).elements.length = k := by
  induction k generalizing i c with
  | zero => rfl
  | succ k ih =>
    have hone : (takeElement inp heap i c).elements.length = 1 := by
      rw [takeElement, takeValue]
      split <;> rfl
    rw [takeElements] at h ⊢
    split at h
    · cases h
    · rename_i hnone
      rw [List.length_append, hone, ih _ _ h, Nat.add_comm]

variable {es : List Element}

/-- `k` elements are read back just when there are `k`, and their guides tell their lengths. -/
theorem takeElements_recovers_iff (k : Nat) (c : Cursor)
    (hwhole : ∀ e ∈ es, e.value.length = e.num ∧ 0 < e.num) (hat : inp.At c.position (listBytes es))
    (hlen : c.len = listLen es) :
    (takeElements inp Heap.ample 0 k c).Recovers es ↔
      es.length = k ∧ ∀ e ∈ es, guideNum e.guide1 = e.num := by
  constructor
  · rintro ⟨herr, hel, -⟩
    refine ⟨by rw [← hel]; exact length_takeElements 0 c herr, ?_⟩
    rw [← hel]
    exact takeElements_num 0 k c
  · rintro ⟨rfl, hnum⟩
    have hes : ∀ e ∈ es, e.Sound := fun e he => ⟨hnum e he, (hwhole e he).1, (hwhole e he).2⟩
    obtain ⟨herr, hel, -, hrest⟩ := takeElements_at hes 0 c hat
    exact ⟨herr, hel, by rw [hrest, hlen]; exact Int.sub_self _⟩

/-- A list of elements is read back just when it is not empty, and its guides tell the lengths. -/
theorem takeList_recovers_iff (c : Cursor) (hwhole : ∀ e ∈ es, e.value.length = e.num ∧ 0 < e.num)
    (hshort : es.length < 2 ^ 31) (hat : inp.At c.position (listBytes es))
    (hlen : c.len = listLen es) :
    (takeList Heap.ample (countElements inp c).count
        (takeElements inp Heap.ample 0 (countElements inp c).count)
        { c with reads := (countElements inp c).reads }).Recovers es ↔
      es ≠ [] ∧ ∀ e ∈ es, guideNum e.guide1 = e.num := by
  constructor
  · intro h
    have hne : es ≠ [] := by
      rintro rfl
      have hzero : (countElements inp c).count = 0 :=
        countElements_at (fun e (he : e ∈ []) => absurd he List.not_mem_nil) c hat hlen
      have herr := h.error
      rw [hzero, takeList, if_pos rfl] at herr
      cases herr
    refine ⟨hne, ?_⟩
    have hel := h.elements
    rw [takeList] at hel
    split at hel
    · exact absurd hel.symm hne
    · rw [takeCount] at hel
      split at hel
      · rw [← hel]
        exact takeElements_num _ _ _
      · exact absurd hel.symm hne
  · rintro ⟨hne, hnum⟩
    have hes : ∀ e ∈ es, e.Sound := fun e he => ⟨hnum e he, (hwhole e he).1, (hwhole e he).2⟩
    obtain ⟨herr, hel, hrest⟩ := takeList_at hes hne c hat hlen hshort rfl
    exact ⟨herr, hel, hrest⟩

/-- Guides are read back. -/
theorem takeGuides_at (table : List ElementInfo) (c : Cursor)
    (hat : inp.At c.position ((table.map guideElement).flatMap Element.guide)) :
    (takeGuides inp table.length c).error = none ∧
      (takeGuides inp table.length c).elements = table.map guideElement ∧
      (takeGuides inp table.length c).cursor.len = c.len - 2 * table.length := by
  induction table generalizing c with
  | nil => exact ⟨rfl, rfl, by simp [takeGuides]⟩
  | cons info table ih =>
    rw [List.map_cons, List.flatMap_cons, Input.at_append] at hat
    obtain ⟨hguide, hrest⟩ := hat
    obtain ⟨h0, h1, -⟩ : inp.byte c.position = info.ID ∧
        inp.byte ((c.position + 1 : Nat) : Int) = hydrologyGetGuideId info.D info.d ∧ _ := by
      simpa only [Element.guide, guideElement, Input.at_cons] using hguide
    have h1 : inp.byte ((c.position : Int) + 1) = hydrologyGetGuideId info.D info.d := by
      simpa using h1
    obtain ⟨herr, hel, hlen⟩ := ih (c.take 2) hrest
    rw [List.length_cons, takeGuides]
    refine ⟨herr, ?_, ?_⟩
    · simp only [h0, h1, hel, List.map_cons]
      rfl
    · simp only [hlen, Cursor.len_take]
      push_cast
      omega

end Take

/-! ### Cases -/

section Cases

variable {env : Env} {table : List ElementInfo} {mode : Mode} {b : DownBody} {inp : Input}
  {c : Cursor}

theorem BodyType.downCount_of (funcode : BodyType) (cnt : Nat) :
    (funcode.downCase = .guides ∨ funcode.downCase = .values ∨ funcode.downCase = .changePassword →
      funcode.downCount cnt = cnt) ∧
    (funcode.downCase = .oneGuide ∨ funcode.downCase = .setIcCard → funcode.downCount cnt = 1) := by
  cases funcode <;> simp [downCase, downCount]

variable {lenAddr addr : Nat} {num : UInt8 → Nat} {e : Element}

/-- The length byte of a stored value, and the bytes it calls for. -/
theorem lengthElement_stored (h : lengthElement env lenAddr addr num = .ok e) :
    e.guide0 = env.store.data .elementData lenAddr ∧ e.num = num e.guide0 ∧ 0 < e.num ∧
      e.value.length = e.num := by
  rw [lengthElement] at h
  generalize hr : env.store.read .elementData lenAddr 1 = r at h
  obtain ⟨err, data⟩ := r
  cases err with
  | some err => cases h
  | none =>
    obtain ⟨rfl, hpos⟩ := checkedValue_ok h
    obtain ⟨rfl, -⟩ := Store.read_ok hr
    exact ⟨by simp [readMem], rfl, hpos, length_readMem _ _ _⟩

theorem bodyOf_guides (es : List Element) :
    bodyOf (es.map fun e => Piece.ofBytes e.guide) = es.flatMap Element.guide := by
  rw [bodyOf, List.flatMap_map]
  rfl

/-- What a counted value recovers. -/
theorem takeCounted_recovers_iff (n : UInt8) (hat : inp.At c.position (n :: e.value))
    (hwhole : e.value.length = e.num) (hpos : 0 < e.num) (hlen : c.len = e.num + 1)
    (hshort : e.num < 2 ^ 31) :
    (takeCount Heap.ample 1 (takeCounted inp Heap.ample num) c).Recovers
      [{ e with guide0 := 0, guide1 := 0 }] ↔ num n = e.num := by
  rw [Input.at_cons] at hat
  obtain ⟨hn, hv⟩ := hat
  rw [takeCount, if_pos (kmalloc_ample (by decide) (by decide)), takeCounted, hn]
  constructor
  · intro h
    have hel := h.elements
    rw [takeValue] at hel
    split at hel <;> exact congrArg Element.num (List.singleton_inj.mp hel)
  · intro h
    rw [takeValue, h, if_pos (kmalloc_ample hpos hshort)]
    rw [Input.At, hwhole] at hv
    refine ⟨rfl, ?_, ?_⟩
    · simp only [Cursor.position_take]
      rw [hv]
    · simp only [Cursor.len_take, hlen]
      push_cast
      omega

/-- A counted value is not in the body: a length byte is read all the same. -/
theorem takeCounted_not_recovers (hlen : c.len = 0) (es : List Element) :
    ¬ (takeCount Heap.ample 1 (takeCounted inp Heap.ample num) c).Recovers es := by
  intro h
  have hrest := h.len
  rw [takeCount, if_pos (kmalloc_ample (by decide) (by decide)), takeCounted, takeValue] at hrest
  split at hrest <;> simp only [Cursor.len_take, hlen] at hrest <;> omega

/-- Where the device is after stream number and time. -/
structure AfterFixed (inp : Input) (env : Env) (mode : Mode) (dc : DownCase) (b : DownBody)
    (c : Cursor) : Prop where
  rest : ∀ rest, downPieces env mode dc b = .ofBytes b.fixed :: rest →
    inp.At c.position (bodyOf rest) ∧ c.len = (bodyOf rest).length
  len  : c.len = b.len - 8

variable {dc : DownCase}

theorem afterFixed {pos : Nat} (hm : b.Made mode dc)
    (hat : inp.At pos (bodyOf (downPieces env mode dc b))) (hpos : c.position = pos + 8)
    (hlen : c.len = b.len - 8) : AfterFixed inp env mode dc b c := by
  refine ⟨fun rest hp => ?_, hlen⟩
  have hbytes := length_bodyOf (hm.whole env)
  rw [hm.len env] at hbytes
  rw [hp, bodyOf_cons, Piece.ofBytes_data] at hat hbytes
  rw [Input.at_append, DownBody.length_fixed] at hat
  rw [List.length_append, DownBody.length_fixed] at hbytes
  refine ⟨hpos ▸ hat.2, ?_⟩
  omega

theorem told_iff (store : Store) (table : List ElementInfo) :
    (∀ e ∈ table.map (storedElement store), guideNum e.guide1 = e.num) ↔
      ∀ info ∈ table, info.Told := List.forall_mem_map

/-- A list of stored elements, in the frame of a request. -/
theorem stored_at (h : AfterFixed inp env mode dc b c)
    (hp : downPieces env mode dc b = .ofBytes b.fixed :: b.elements.flatMap elementPieces)
    (hwhole : ∀ e ∈ b.elements, e.value.length = e.num) :
    inp.At c.position (listBytes b.elements) ∧ c.len = listLen b.elements := by
  obtain ⟨hat, hlen⟩ := h.rest _ hp
  rw [bodyOf_elementPieces] at hat hlen
  exact ⟨hat, by rw [hlen, length_listBytes hwhole]⟩

variable {infos : List ElementInfo}

/-- A list of guides, in the frame of a request. -/
theorem guides_at (h : AfterFixed inp env mode dc b c)
    (hp : downPieces env mode dc b = .ofBytes b.fixed :: b.elements.map fun e => .ofBytes e.guide)
    (hes : b.elements = infos.map guideElement) :
    inp.At c.position ((infos.map guideElement).flatMap Element.guide) ∧
      c.len = 2 * infos.length := by
  obtain ⟨hat, hlen⟩ := h.rest _ hp
  rw [hes, bodyOf_guides] at hat hlen
  refine ⟨hat, ?_⟩
  have hbytes : ∀ infos : List ElementInfo,
      ((infos.map guideElement).flatMap Element.guide).length = 2 * infos.length := by
    intro infos
    induction infos with
    | nil => rfl
    | cons info infos ih =>
      rw [List.map_cons, List.flatMap_cons, List.length_append, ih]
      simp [Element.guide]
      omega
  rw [hlen, hbytes]
  push_cast
  rfl

theorem recovers_guides (h : AfterFixed inp env mode .guides b c)
    (hes : b.elements = infos.map guideElement) (hshort : infos.length < 2 ^ 31) :
    (takeDown inp Heap.ample c (some .guides)).Recovers b.elements ↔ infos ≠ [] := by
  obtain ⟨hat, hlen⟩ := guides_at h rfl hes
  have hcount : (countGuides c).count = infos.length := by
    rw [count_countGuides, hlen]
    omega
  rw [takeDown]
  simp only [hcount, takeList]
  by_cases hnil : infos = []
  · subst hnil
    exact iff_of_false (fun h => Option.some_ne_none _ h.error) fun h => h rfl
  · have hpos := List.length_pos_of_ne_nil hnil
    rw [if_neg (Nat.ne_of_gt hpos), takeCount, if_pos (kmalloc_ample hpos hshort)]
    obtain ⟨herr, hel, hrest⟩ := takeGuides_at infos c hat
    exact iff_of_true ⟨herr, hel.trans hes.symm, by rw [hrest, hlen]; exact Int.sub_self _⟩ hnil

theorem recovers_oneGuide (h : AfterFixed inp env mode .oneGuide b c) {info : ElementInfo}
    (hes : b.elements = [guideElement info]) :
    (takeDown inp Heap.ample c (some .oneGuide)).Recovers b.elements := by
  have hone : b.elements = [info].map guideElement := hes
  obtain ⟨hat, hlen⟩ := guides_at h rfl hone
  obtain ⟨herr, hel, hrest⟩ := takeGuides_at [info] c hat
  exact ⟨herr, hel.trans hone.symm, hrest.trans (by rw [hlen]; exact Int.sub_self _)⟩

/-- A period request: eight bytes of times, an element, a guide. -/
theorem recovers_period (h : AfterFixed inp env mode .period b c) {i0 i1 : ElementInfo}
    {rest : List Element} (hpos : 0 < i0.num)
    (hes : b.elements = storedElement env.store i0 :: guideElement i1 :: rest) :
    (takeDown inp Heap.ample c (some .period)).Recovers
      [storedElement env.store i0, guideElement i1] ↔ i0.Told := by
  obtain ⟨hat, hlen⟩ := h.rest (.ofBytes (env.tailTime.1.take 4) :: .ofBytes (ctime env.tailTime) ::
    (elementPieces (storedElement env.store i0) ++ [.ofBytes (guideElement i1).guide]))
    (by rw [downPieces, hes]; rfl)
  have htail := env.tailTime.2
  have hbytes : (storedElement env.store i0).bytes.length = 2 + i0.num := by
    simp [Element.bytes, Element.guide]
    omega
  have hstime : (env.tailTime.1.take 4).length = 4 := by simp [htail]
  have hctime : (ctime env.tailTime).length = 4 := by simp [ctime, htail]
  have hpieces : bodyOf (elementPieces (storedElement env.store i0) ++
      [.ofBytes (guideElement i1).guide]) =
        (storedElement env.store i0).bytes ++ ([i1].map guideElement).flatMap Element.guide := by
    simp [elementPieces, valuePiece, Element.bytes]
  rw [bodyOf_cons, bodyOf_cons, hpieces] at hat hlen
  simp only [Piece.ofBytes_data, Input.at_append, List.length_append, hstime, hctime, hbytes]
    at hat hlen
  obtain ⟨-, -, helem, hguide⟩ := hat
  rw [takeDown, takeCount, if_pos (kmalloc_ample (by decide) (by decide)), takePeriod]
  constructor
  · intro hr
    have hel := hr.elements
    have hmem : storedElement env.store i0 ∈
        (takeElement inp Heap.ample 0 (c.takes [4, 4])).elements := by
      have hone : ∃ e, (takeElement inp Heap.ample 0 (c.takes [4, 4])).elements = [e] := by
        rw [takeElement, takeValue]
        split <;> exact ⟨_, rfl⟩
      obtain ⟨e, he⟩ := hone
      simp only [he] at hel
      rw [he]
      split at hel
      · exact absurd (congrArg List.length hel) (by simp)
      · exact List.mem_singleton.mpr (List.cons.inj hel).1.symm
    have hnum := takeElement_num 0 _ _ hmem
    exact hnum
  · intro htold
    have hsound : (storedElement env.store i0).Sound :=
      ⟨htold, length_storedElement_value _ _, hpos⟩
    rw [takeElement_at hsound 0 (by rwa [Cursor.position_takes])]
    obtain ⟨herr, hel, hrest⟩ := takeGuides_at [i1]
      ((c.takes [4, 4]).takes [2, (storedElement env.store i0).num])
      (by simpa [Nat.add_assoc] using hguide)
    refine ⟨rfl, ?_, ?_⟩
    · exact congrArg _ hel
    · refine hrest.trans ?_
      simp only [Cursor.len_takes, hlen]
      simp [Element.guide]
      omega

/-- A pump, valve or gate request. -/
theorem recovers_counted {b0 : DownBody}
    {take : UInt8 → Nat} (hnum : ∀ n, num n ≤ 255)
    (hp : ∀ b : DownBody, downPieces env mode dc b = .ofBytes b.fixed ::
      if mode = .m4 then b.elements.flatMap lengthPieces else [])
    (hc : ∀ b : DownBody, b.carried mode dc = if mode = .m4 then
      b.elements.map (fun e => { e with guide0 := 0, guide1 := 0 }) else [])
    (ht : takeDown inp Heap.ample c (some dc) =
      takeCount Heap.ample 1 (takeCounted inp Heap.ample take) c)
    (hb : m4Body b0 mode (lengthElement env lenAddr addr num) = .ok b)
    (h : AfterFixed inp env mode dc b c) :
    (takeDown inp Heap.ample c (some dc)).Recovers (b.carried mode dc) ↔
      mode = .m4 ∧ take (env.store.data .elementData lenAddr) =
        num (env.store.data .elementData lenAddr) := by
  obtain ⟨hat, hlen⟩ := h.rest _ (hp b)
  rw [m4Body] at hb
  rw [ht, hc]
  by_cases hmode : mode = .m4
  · rw [if_pos hmode] at hat hlen hb ⊢
    obtain ⟨e, he, hb⟩ := bind_eq_ok.mp hb
    cases hb
    obtain ⟨hguide, hn, hpos, hwhole⟩ := lengthElement_stored he
    have hsize : e.num ≤ 255 := hn ▸ hnum e.guide0
    have hbytes : bodyOf ([e].flatMap lengthPieces) = e.guide0 :: e.value := by
      simp [lengthPieces, valuePiece]
    rw [hbytes] at hat hlen
    simp only [hmode, true_and]
    refine (takeCounted_recovers_iff e.guide0 hat hwhole hpos
      (by rw [hlen, List.length_cons, hwhole]; push_cast; rfl) (by omega)).trans ?_
    rw [hn, hguide]
  · rw [if_neg hmode] at hlen ⊢
    exact iff_of_false (takeCounted_not_recovers hlen _) fun h => hmode h.1

theorem stored_whole {store : Store} (hpos : ∀ info ∈ infos, 0 < info.num) :
    ∀ e ∈ infos.map (storedElement store), e.value.length = e.num ∧ 0 < e.num :=
  List.forall_mem_map.mpr fun info hi => ⟨length_storedElement_value store info, hpos info hi⟩

/-- The device rounds the number of gates down to bytes, the host up. -/
theorem shiftRight_eq_gateNum_iff (n : UInt8) : (n >>> 3).toNat = gateNum n ↔ n.toNat % 8 = 0 := by
  have hshift : (n >>> 3).toNat = n.toNat / 8 := by
    rw [UInt8.toNat_shiftRight]
    exact Nat.shiftRight_eq_div_pow n.toNat 3
  rw [gateNum]
  split <;> omega

/-- What the device recovers of a request, case by case. -/
theorem recovers_takeDown {funcode : BodyType} (htable : table.length < 256)
    (hb : hostMakeDownBody env table (funcode.downCount table.length) mode funcode = .ok b)
    (h : AfterFixed inp env mode funcode.downCase b c) :
    (takeDown inp Heap.ample c (some funcode.downCase)).Recovers
        (b.carried mode funcode.downCase) ↔
      DownReads env.store table mode funcode.downCase := by
  obtain ⟨hall, hone⟩ := funcode.downCount_of table.length
  rw [hostMakeDownBody] at hb
  generalize funcode.downCase = dc at hb h hall hone ⊢
  cases dc with
  | link =>
    cases hb
    have hlen := h.len
    exact iff_of_false (fun hr => absurd (hr.len.symm.trans hlen) (by simp)) id
  | simple =>
    cases hb
    have hlen := h.len
    exact iff_of_true ⟨rfl, rfl, hlen⟩ trivial
  | period =>
    cases table with
    | nil => cases hb
    | cons i0 rest =>
      cases rest with
      | nil => cases hb
      | cons i1 rest =>
        obtain ⟨e0, he0, hb⟩ := bind_eq_ok.mp hb
        obtain ⟨rfl, hpos⟩ := readElement_ok he0
        cases hb
        exact recovers_period h hpos rfl
  | guides =>
    rw [hall (.inl rfl)] at hb
    simp only [le_refl, if_true, List.take_length] at hb
    cases hb
    exact recovers_guides h rfl (by omega)
  | oneGuide =>
    rw [hone (.inl rfl)] at hb
    cases table with
    | nil => cases hb
    | cons info rest =>
      cases hb
      exact iff_of_true (recovers_oneGuide h rfl) trivial
  | values =>
    rw [hall (.inr (.inl rfl))] at hb
    simp only [le_refl, if_true, List.take_length] at hb
    obtain ⟨es, hes, hb⟩ := bind_eq_ok.mp hb
    obtain ⟨rfl, hpos⟩ := readElements_ok hes
    cases hb
    obtain ⟨hat, hlen⟩ := stored_at h rfl fun e he => (stored_whole hpos e he).1
    refine (takeList_recovers_iff c (stored_whole hpos) ?_ hat hlen).trans
      (and_congr (not_congr List.map_eq_nil_iff) (told_iff env.store table))
    rw [List.length_map]
    omega
  | changePassword =>
    rw [hall (.inr (.inr rfl))] at hb
    simp only [le_refl, if_true, List.take_length] at hb
    obtain ⟨es, hes, hb⟩ := bind_eq_ok.mp hb
    obtain ⟨rfl, hpos⟩ := readElements_ok hes
    cases hb
    obtain ⟨hat, hlen⟩ := stored_at h rfl fun e he => (stored_whole hpos e he).1
    refine (takeElements_recovers_iff 2 c (stored_whole hpos) hat hlen).trans
      (and_congr ?_ (told_iff env.store table))
    rw [List.length_map]
  | setIcCard =>
    rw [hone (.inr rfl)] at hb
    cases table with
    | nil => cases hb
    | cons info rest =>
      obtain ⟨es, hes, hb⟩ := bind_eq_ok.mp hb
      obtain ⟨rfl, hpos⟩ := readElements_ok hes
      cases hb
      obtain ⟨hat, hlen⟩ := stored_at h rfl fun e he => (stored_whole hpos e he).1
      refine (takeElements_recovers_iff 1 c (stored_whole hpos) hat hlen).trans ?_
      rw [told_iff]
      simp [DownReads, firstInfo]
  | pump =>
    refine (recovers_counted (fun n => Nat.le_of_lt_succ n.toNat_lt) (fun _ => rfl) (fun _ => rfl)
      rfl hb h).trans ?_
    exact and_iff_left rfl
  | valve =>
    refine (recovers_counted (fun n => Nat.le_of_lt_succ n.toNat_lt) (fun _ => rfl) (fun _ => rfl)
      rfl hb h).trans ?_
    exact and_iff_left rfl
  | gate =>
    refine (recovers_counted (fun n => (gateNum_le n).trans (by decide)) (fun _ => rfl)
      (fun _ => rfl) rfl hb h).trans (and_congr_right fun _ => ?_)
    exact shiftRight_eq_gateNum_iff _
  | waterSetting =>
    obtain ⟨e, he, hb⟩ := bind_eq_ok.mp hb
    obtain ⟨rfl, -⟩ := checkedValue_ok he
    cases hb
    obtain ⟨hat, hlen⟩ := h.rest _ rfl
    generalize hv : readMem (env.store.data .elementData) HYDROLOGY_PDA_WATERSETTING 1 = v
      at hat hlen ⊢
    have hone : v.length = 1 := by rw [← hv, length_readMem]
    have hbytes : bodyOf ([(⟨1, 0, 1, v⟩ : Element)].map valuePiece) = v := by simp [valuePiece]
    rw [hbytes, hone] at hlen
    rw [hbytes, Input.At, hone] at hat
    rw [takeDown, takeCount, if_pos (kmalloc_ample (by decide) (by decide)), takeValue,
      if_pos (kmalloc_ample (by decide) (by decide)), hat]
    exact iff_of_true ⟨rfl, rfl, by simp [hlen]⟩ trivial

end Cases

/-! ### The frame -/

section Frame

variable {env : Env} {table : List ElementInfo} {mode : Mode} {funcode : BodyType} {p : DownPacket}
  {inp : Input} {end_ : UInt8}

/-- A header has its start bytes and no length yet, whether its reads failed or not; it has the
function code just when none did. -/
theorem hostMakeDownHeader_start (store : Store) (mode : Mode) (funcode : BodyType) {h : Header}
    (hh : h = (hostMakeDownHeader store mode funcode).2) :
    h.frameStart.1 = [SOH, SOH] ∧ h.dirLen0 &&& 0x0F = 0 ∧ h.dirLen1 = 0 ∧
      (h.funcode = funcode.code ↔ (hostMakeDownHeader store mode funcode).1 = none) := by
  by_cases herr : (hostMakeDownHeader store mode funcode).1 = none
  · have hfull : h.Full mode funcode 0x80 := hostMakeDownHeader_ok (Prod.ext herr hh.symm)
    exact ⟨hfull.start, by rw [hfull.dirLen0]; rfl, hfull.dirLen1,
      iff_of_true hfull.funcode herr⟩
  · have hcut := hostMakeDownHeader_error herr
    rw [← hh] at hcut
    refine ⟨hcut.start, by rw [hcut.dirLen0]; rfl, hcut.dirLen1, iff_of_false ?_ herr⟩
    rw [hcut.funcode]
    cases funcode <;> decide

theorem hostMakePacket_body (h : hostMakePacket env table mode funcode = .ok p) :
    hostMakeDownBody env table (funcode.downCount table.length) mode funcode = .ok p.body := by
  rw [hostMakePacket] at h
  split at h
  · generalize hostMakeDownBody env table _ mode funcode = r at h ⊢
    cases r with
    | error e => cases h
    | ok body => cases h; rfl
  · cases h

/-- An accepted downlink, parsed. -/
theorem deviceParse_accepted (h : inp.Accepted) (heap : Heap) :
    deviceParse inp heap = ((takeHeader inp 7 2 (checkPacket inp).2).1,
      deviceMakeDownBody inp heap (takeHeader inp 7 2 (checkPacket inp).2).2
        (BodyType.ofCode (inp.byte 10))) := by
  rw [deviceParse, deviceMakeDownHeader, show (checkPacket inp).1 = none from h]
  simp only [takeHeader_funcode]

/-- The device has the function code, and every element as it was sent; nothing of the body is
left. -/
structure DownRecovered (mode : Mode) (funcode : BodyType) (b : DownBody) (inp : Input) : Prop where
  code     : (deviceParse inp Heap.ample).1.funcode = funcode.code
  error    : (deviceParse inp Heap.ample).2.error = none
  elements : (deviceParse inp Heap.ample).2.body.elements = b.carried mode funcode.downCase
  len      : (deviceParse inp Heap.ample).2.cursor.len = 0

end Frame

end Kinetis.Hydrology
