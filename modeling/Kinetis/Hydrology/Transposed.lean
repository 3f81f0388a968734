import Kinetis.Hydrology.Uplink

/-!
# Hydrology — reports over twelve time slots

`EVEN_PERIOD_INFO_REPORT` and `PERIOD_REPORT`: the first element in full, then the guides of the
others, then their values slot by slot, a twelfth of each value at a time.

* `evenBytes` is the body as the device interleaves it.
* `countEven_at`: the host counts the elements from the sum of their lengths, before it has a value.
* `takeRounds_at`: twelve rounds over the slots give every value back.
* `transposed_round_trip`: a report in one frame is read back.
-/

namespace Kinetis.Hydrology
open Lib

/-! ### Slots -/

/-- A value that the device cuts into twelve slots, of one byte or of two. -/
def Element.Slotted (e : Element) : Prop := e.num = 12 ∨ e.num = 24

/-- What a value has in slot `k`. -/
def Element.slot (k : Nat) (e : Element) : List UInt8 := slice e.value (k * (e.num / 12)) (e.num / 12)

/-- An element whose value is known up to slot `k`. -/
def Element.upTo (k : Nat) (e : Element) : Element :=
  { e with value := e.value.take (k * (e.num / 12)) }

/-- Slot `k` of every element. -/
def slotBytes (es : List Element) (k : Nat) : List UInt8 := es.flatMap (Element.slot k)

/-- The elements of a period report, interleaved. -/
def evenBytes (e : Element) (es : List Element) : List UInt8 :=
  e.bytes ++ (es.flatMap Element.guide ++ (List.range 12).flatMap (slotBytes es))

variable {k fuel : Nat} {e' : Element}

section Slots

variable {e : Element} {es : List Element}

theorem Element.Slotted.mul (h : e.Slotted) : 12 * (e.num / 12) = e.num := by
  obtain h | h := h <;> omega

theorem Element.upTo_zero (e : Element) : e.upTo 0 = { e with value := [] } := by
  rw [upTo, Nat.zero_mul, List.take_zero]

theorem Element.upTo_twelve (h : e.Slotted) (hv : e.value.length = e.num) : e.upTo 12 = e := by
  rw [upTo, h.mul, List.take_of_length_le hv.le]

/-- One slot more. -/
theorem Element.upTo_succ (k : Nat) (e : Element) :
    { e.upTo k with value := (e.upTo k).value ++ e.slot k } = e.upTo (k + 1) := by
  simp only [upTo, slot, slice]
  rw [Nat.succ_mul, List.take_add]

theorem Element.length_slot (h : e.Slotted) (hv : e.value.length = e.num) (hk : k < 12) :
    (e.slot k).length = e.num / 12 := by
  rw [slot, length_slice, hv]
  obtain h | h := h
  · rw [h]
    omega
  · rw [h]
    omega

theorem length_slotBytes (h : ∀ e ∈ es, e.Slotted) (hv : ∀ e ∈ es, e.value.length = e.num)
    (hk : k < 12) : (slotBytes es k).length = roundLen es := by
  rw [slotBytes, List.length_flatMap, roundLen]
  exact congrArg _ (List.map_congr_left fun e he => Element.length_slot (h e he) (hv e he) hk)

theorem length_slots {n : Nat} (h : ∀ e ∈ es, e.Slotted) (hv : ∀ e ∈ es, e.value.length = e.num)
    (hn : n ≤ 12) : ((List.range n).flatMap (slotBytes es)).length = n * roundLen es := by
  induction n with
  | zero => simp
  | succ n ih =>
    rw [List.range_succ, List.flatMap_append, List.length_append, ih (by omega),
      List.flatMap_singleton, length_slotBytes h hv (by omega), Nat.succ_mul]

/-- One value by itself stays in order. -/
theorem slots_singleton (h : e.Slotted) (hv : e.value.length = e.num) :
    (List.range 12).flatMap (slotBytes [e]) = e.value := by
  have hslots : (List.range 12).flatMap (slotBytes [e]) =
      ((List.range 12).map fun k => slice e.value (k * (e.num / 12)) (e.num / 12)).flatten := by
    rw [List.flatMap_def]
    refine congrArg _ (List.map_congr_left fun k _ => ?_)
    rw [slotBytes, List.flatMap_singleton]
    rfl
  rw [hslots, flatten_slices, h.mul, List.take_of_length_le hv.le]

theorem twelfthPiece_eq (k : Nat) (h : e.Slotted) :
    twelfthPiece k e = ⟨e.slot k, e.num / 12⟩ := by
  obtain h | h := h <;> simp [twelfthPiece, Element.slot, h, Nat.mul_comm]

variable {α : Type}

theorem bodyOf_map (f : α → Piece) (l : List α) :
    bodyOf (l.map f) = l.flatMap fun a => (f a).data := List.flatMap_map ..

theorem bodyOf_flatMap (f : α → List Piece) (l : List α) :
    bodyOf (l.flatMap f) = l.flatMap fun a => bodyOf (f a) := List.flatMap_assoc ..

/-- **What the device sends of a period report.** -/
theorem bodyOf_evenPieces (h : ∀ e ∈ es, e.Slotted) :
    bodyOf (evenPieces (e :: es)) = evenBytes e es := by
  have hslots : bodyOf ((List.range 12).flatMap fun k => es.map (twelfthPiece k)) =
      (List.range 12).flatMap (slotBytes es) := by
    rw [bodyOf_flatMap]
    refine List.flatMap_congr fun k _ => ?_
    rw [bodyOf_map]
    exact List.flatMap_congr fun e he => congrArg Piece.data (twelfthPiece_eq k (h e he))
  rw [evenPieces, bodyOf_append, bodyOf_append, hslots, bodyOf_map, evenBytes]
  simp [elementPieces, valuePiece, Element.bytes, List.append_assoc]

theorem whole_evenPieces (h : ∀ e ∈ es, e.Slotted) (hv : ∀ e' ∈ e :: es, e'.value.length = e'.num) :
    ∀ q ∈ evenPieces (e :: es), q.Whole := by
  obtain ⟨he, hes⟩ := List.forall_mem_cons.mp hv
  intro q hq
  rw [evenPieces, List.mem_append, List.mem_append] at hq
  obtain (hq | hq) | hq := hq
  · have hone := (tame_elements (List.forall_mem_singleton.mpr he)).1
    exact hone q (by simpa using hq)
  · exact whole_guides es q hq
  · obtain ⟨k, hk, hq⟩ := List.mem_flatMap.mp hq
    obtain ⟨e', he', rfl⟩ := List.mem_map.mp hq
    rw [twelfthPiece_eq k (h e' he')]
    exact Element.length_slot (h e' he') (hes e' he') (List.mem_range.mp hk)

theorem length_evenBytes (h : ∀ e ∈ es, e.Slotted) (hv : ∀ e' ∈ e :: es, e'.value.length = e'.num) :
    (evenBytes e es).length = listLen (e :: es) := by
  have hrest : (es.map fun e => e.num % 12).sum = 0 := by
    refine List.sum_eq_zero_iff_forall_eq_nat.mpr fun m hm => ?_
    obtain ⟨e', he', rfl⟩ := List.mem_map.mp hm
    obtain h' | h' := h e' he' <;> omega
  have hadv := advanceOf_evenPieces e es
  rw [← bodyOf_evenPieces h, length_bodyOf (whole_evenPieces h hv)]
  omega

/-- With one element after the first, the report is an element list. -/
theorem evenBytes_singleton (h : e'.Slotted) (hv : e'.value.length = e'.num) :
    evenBytes e [e'] = listBytes [e, e'] := by
  rw [evenBytes, slots_singleton h hv]
  simp [listBytes, Element.bytes]

end Slots

/-! ### Counting -/

variable {c : Cursor}

section Count

variable {inp : Input} {e : Element} {es : List Element}

variable {pos t : Nat}

theorem guide_at (h : inp.At pos (es.flatMap Element.guide)) (ht : t < es.length) :
    inp.byte ((pos + 2 * t + 1 : Nat) : Int) = es[t].guide1 := by
  induction es generalizing pos t with
  | nil => exact absurd ht (Nat.not_lt_zero t)
  | cons e es ih =>
    rw [List.flatMap_cons, Input.at_append] at h
    obtain ⟨hfirst, hrest⟩ := h
    rw [Element.guide, Input.at_cons, Input.at_cons] at hfirst
    cases t with
    | zero => exact hfirst.2.1
    | succ t =>
      have := ih hrest (Nat.lt_of_succ_lt_succ ht)
      rw [List.getElem_cons_succ, ← this]
      refine congrArg _ ?_
      simp only [Element.guide, List.length_cons, List.length_nil]
      push_cast
      omega

theorem listLen_take_succ (ht : t < es.length) :
    listLen (es.take (t + 1)) = listLen (es.take t) + (es[t].num + 2) := by
  rw [List.take_succ_eq_append_getElem ht, listLen_append]
  rfl

theorem listLen_take_le (es : List Element) (t : Nat) : listLen (es.take t) ≤ listLen es := by
  conv_rhs => rw [← List.take_append_drop t es, listLen_append]
  exact Nat.le_add_right _ _

/-- The counting loop adds up the lengths of the elements. -/
theorem evenOffset_at (he : e.Sound) (hes : ∀ e ∈ es, e.Sound)
    (hfirst : inp.byte ((pos : Int) + 1) = e.guide1)
    (h : inp.At (pos + (e.num + 2)) (es.flatMap Element.guide)) (hpos : pos ≤ 40)
    (hsmall : listLen (e :: es) ≤ 128) (ht : t ≤ es.length) :
    evenOffset inp pos t = listLen (e :: es.take t) := by
  have hlen := length_le_listLen (e :: es)
  have hlen' := length_le_listLen es
  rw [listLen_cons, List.length_cons] at *
  induction t with
  | zero => rw [evenOffset, hfirst, he.num]; rfl
  | succ t ih =>
    have hindex : evenIndex inp pos t = pos + (e.num + 2) + 2 * t + 1 := by
      rw [evenIndex, hfirst, he.num]
      omega
    have hle := listLen_take_le es (t + 1)
    rw [evenOffset, ih (by omega), hindex, guide_at h (by omega),
      (hes _ (List.getElem_mem _)).num]
    rw [listLen_take_succ (by omega)] at hle ⊢
    rw [Nat.mod_eq_of_lt (by omega)]
    omega

/-- **The elements of an interleaved report are counted**, and the counting ends. -/
theorem countEven_at (he : e.Sound) (hes : ∀ e ∈ es, e.Sound)
    (hat : inp.At c.position (evenBytes e es)) (hlen : c.len = listLen (e :: es))
    (hpos : c.position ≤ 40) (hsmall : listLen (e :: es) ≤ 128) (hfuel : es.length ≤ fuel)
    {w : EvenWalk}
    (hw : w = iterWhile (EvenWalk.going c.len) (EvenWalk.step inp) fuel (EvenWalk.start inp c)) :
    w.i = es.length + 1 ∧ w.going c.len = false := by
  rw [evenBytes, Input.at_append, Input.at_append] at hat
  obtain ⟨hfirst, hguides, -⟩ := hat
  have hbytes : e.bytes.length = e.num + 2 := by
    simp [Element.bytes, Element.guide, he.value]
  rw [hbytes] at hguides
  have hfirst : inp.byte ((c.position : Int) + 1) = e.guide1 := by
    have hcons : e.bytes = e.guide0 :: e.guide1 :: e.value := rfl
    rw [hcons, Input.at_cons, Input.at_cons] at hfirst
    simpa using hfirst.2.1
  have hcount := length_le_listLen es
  have hgoing : ∀ t ≤ es.length,
      EvenWalk.going c.len ((EvenWalk.step inp)^[t] (EvenWalk.start inp c)) =
        decide (t < es.length) := by
    intro t ht
    obtain ⟨-, hoff, -⟩ := evenWalk_iterate inp c (by omega) 0 t
    rw [EvenWalk.going, hoff, evenOffset_at he hes hfirst hguides hpos hsmall ht, hlen]
    have hmod : (((listLen (e :: es) : Nat) : Int) % 2 ^ 32).toNat = listLen (e :: es) := by omega
    rw [hmod, listLen_cons, listLen_cons, decide_eq_decide]
    refine ⟨fun hlt => ?_, fun hlt => ?_⟩
    · by_contra hge
      rw [List.take_of_length_le (by omega)] at hlt
      exact absurd hlt (Nat.lt_irrefl _)
    · have hle := listLen_take_le es (t + 1)
      rw [listLen_take_succ hlt] at hle
      omega
  have hwalk : w = (EvenWalk.step inp)^[es.length] (EvenWalk.start inp c) := by
    rw [hw]
    refine iterWhile_eq_of_stop (fun j hj => ?_) ?_ hfuel
    · rw [hgoing j hj.le, decide_eq_true hj]
    · rw [hgoing _ le_rfl, decide_eq_false (Nat.lt_irrefl _)]
  obtain ⟨-, -, hi, -⟩ := evenWalk_iterate inp c (by omega) 0 es.length
  rw [listLen_cons] at hsmall
  refine ⟨?_, ?_⟩
  · rw [hwalk, hi, Nat.mod_eq_of_lt (by omega)]
  · rw [hwalk, hgoing _ le_rfl, decide_eq_false (Nat.lt_irrefl _)]

end Count

/-! ### Reading -/

section Read

variable {inp : Input} {e : Element} {es : List Element}

theorem takeEvenGuides_at (hes : ∀ e ∈ es, e.Sound) (i : Nat) (c : Cursor)
    (h : inp.At c.position (es.flatMap Element.guide)) :
    (takeEvenGuides inp Heap.ample i es.length c).error = none ∧
      (takeEvenGuides inp Heap.ample i es.length c).elements = es.map (Element.upTo 0) ∧
      (takeEvenGuides inp Heap.ample i es.length c).cursor.position =
        c.position + (es.flatMap Element.guide).length := by
  induction es generalizing i c with
  | nil => exact ⟨rfl, rfl, rfl⟩
  | cons e es ih =>
    obtain ⟨he, hrest⟩ := List.forall_mem_cons.mp hes
    rw [List.flatMap_cons, Input.at_append] at h
    obtain ⟨hguide, hnext⟩ := h
    rw [Element.guide, Input.at_cons, Input.at_cons] at hguide
    obtain ⟨h0, h1, -⟩ := hguide
    have h1' : inp.byte ((c.position : Int) + 1) = e.guide1 := by simpa using h1
    have hk : kmalloc Heap.ample (.value i) e.num = true := by
      have := guideNum_lt e.guide1
      exact kmalloc_ample he.pos (by rw [← he.num]; omega)
    obtain ⟨herr, hel, hpos⟩ := ih hrest (i + 1) (c.take 2) hnext
    simp only [List.length_cons, takeEvenGuides, h0, h1', he.num, if_pos hk, herr, hel, hpos,
      List.map_cons, Element.upTo_zero, List.flatMap_cons, List.length_append, Element.guide,
      Cursor.position_take, List.length_nil]
    exact ⟨trivial, trivial, by omega⟩

/-- A round reads one slot of every element. -/
theorem takeRound_at (hk : k < 12) (h : ∀ e ∈ es, e.Slotted) (hv : ∀ e ∈ es, e.value.length = e.num)
    (c : Cursor) (hat : inp.At c.position (slotBytes es k)) :
    (takeRound inp (es.map (Element.upTo k)) c).1 = es.map (Element.upTo (k + 1)) := by
  induction es generalizing c with
  | nil => rfl
  | cons e es ih =>
    obtain ⟨he, hes⟩ := List.forall_mem_cons.mp h
    obtain ⟨hve, hves⟩ := List.forall_mem_cons.mp hv
    rw [slotBytes, List.flatMap_cons, Input.at_append] at hat
    obtain ⟨hslot, hrest⟩ := hat
    rw [Input.At, Element.length_slot he hve hk] at hslot
    rw [Element.length_slot he hve hk] at hrest
    have hnum : (e.upTo k).num = e.num := rfl
    rw [List.map_cons, List.map_cons, takeRound, ← Element.upTo_succ k e]
    simp only [hnum, hslot]
    exact congrArg _ (ih hes hves (c.take (e.num / 12)) hrest)

/-- **Twelve rounds give every value back.** -/
theorem takeRounds_at (h : ∀ e ∈ es, e.Slotted) (hv : ∀ e ∈ es, e.value.length = e.num) (c : Cursor)
    (hat : inp.At c.position ((List.range 12).flatMap (slotBytes es))) :
    (takeRounds inp (es.map (Element.upTo 0)) c).1 = es := by
  have hround : ∀ k, roundLen (es.map (Element.upTo k)) = roundLen es := by
    intro k
    rw [roundLen, roundLen, List.map_map]
    rfl
  -- after `n` rounds the values are known up to slot `n`, and the cursor is at that slot
  have key : ∀ n ≤ 12, inp.At c.position ((List.range n).flatMap (slotBytes es)) →
      ((List.range n).foldl (fun s _ => takeRound inp s.1 s.2) (es.map (Element.upTo 0), c)).1 =
        es.map (Element.upTo n) ∧
      ((List.range n).foldl (fun s _ => takeRound inp s.1 s.2)
        (es.map (Element.upTo 0), c)).2.position = c.position + n * roundLen es := by
    intro n
    induction n with
    | zero => exact fun _ _ => ⟨rfl, by simp⟩
    | succ n ih =>
      intro hn hat
      rw [List.range_succ, List.flatMap_append, Input.at_append, List.flatMap_singleton,
        length_slots h hv (by omega)] at hat
      obtain ⟨hel, hpos⟩ := ih (by omega) hat.1
      rw [List.range_succ, List.foldl_append, List.foldl_cons, List.foldl_nil]
      generalize (List.range n).foldl _ _ = s at hel hpos ⊢
      rw [hel]
      obtain ⟨-, hend, -⟩ := takeRound_spec inp (es.map (Element.upTo n)) s.2
      refine ⟨takeRound_at (by omega) h hv s.2 (by rw [hpos]; exact hat.2), ?_⟩
      rw [hend, hpos, hround, Nat.succ_mul, Nat.add_assoc]
  rw [takeRounds, (key 12 le_rfl hat).1]
  exact (List.map_congr_left fun e he => Element.upTo_twelve (h e he) (hv e he)).trans (List.map_id es)

/-- **Interleaved elements are read back.** -/
theorem takeEven_at (he : e.Sound) (hes : ∀ e ∈ es, e.Sound) (hslots : ∀ e ∈ es, e.Slotted)
    (c : Cursor) (hat : inp.At c.position (evenBytes e es)) :
    (takeEven inp Heap.ample (es.length + 1) c).error = none ∧
      (takeEven inp Heap.ample (es.length + 1) c).elements = e :: es := by
  rw [evenBytes, Input.at_append, Input.at_append] at hat
  obtain ⟨hfirst, hguides, hvalues⟩ := hat
  have hbytes : e.bytes.length = 2 + e.num := by
    simp [Element.bytes, Element.guide, he.value]
    omega
  have hpos : (c.takes [2, e.num]).position = c.position + e.bytes.length := by
    rw [Cursor.position_takes, hbytes]
    rfl
  obtain ⟨herr, hel, hend⟩ := takeEvenGuides_at hes 1 (c.takes [2, e.num]) (by rwa [hpos])
  have hrounds := takeRounds_at hslots (fun e he => (hes e he).value)
    (takeEvenGuides inp Heap.ample 1 es.length (c.takes [2, e.num])).cursor
    (by rwa [hend, hpos])
  have hfill : es.map (fun e => { e with value := (fill e.num e.value).1 }) = es := by
    refine (List.map_congr_left fun e he => ?_).trans (List.map_id es)
    rw [fill_eq (hes e he).value]
    rfl
  simp only [takeEven, takeElement_at he 0 hfirst, Nat.add_sub_cancel, herr, hel, hrounds, hfill]
  exact ⟨trivial, rfl⟩

variable {b : UpBody}

/-- **The host reads an interleaved report back.** -/
theorem hostMakeUpBody_even (hb : b.elements = e :: es) (he : e.Sound) (hes : ∀ e ∈ es, e.Sound)
    (hslots : ∀ e ∈ es, e.Slotted) (hat : inp.At c.position (b.fixed ++ evenBytes e es))
    (hlen : c.len = 23 + listLen (e :: es)) (hpos : c.position ≤ 17)
    (hsmall : listLen (e :: es) ≤ 128) (hfuel : es.length ≤ fuel) :
    (hostMakeUpBody inp Heap.ample fuel c (some .evenPeriodInfo)).error = none ∧
      (hostMakeUpBody inp Heap.ample fuel c (some .evenPeriodInfo)).body = { b with len := 0 } := by
  rw [Input.at_append, UpBody.length_fixed] at hat
  obtain ⟨hfixed, heven⟩ := hat
  have hsum : (fixedTakes 23).sum = 23 := rfl
  have hfields : takeFixed inp c.position 23 = { b with elements := [], len := 0 } :=
    takeFixed_at (.inr rfl) (fun hlt => absurd hlt (by decide))
      (by rwa [List.take_of_length_le (by simp)])
  have hstart : (c.takes (fixedTakes 23)).position = c.position + 23 := by
    rw [Cursor.position_takes, hsum]
  have hrest : (c.takes (fixedTakes 23)).len = listLen (e :: es) := by
    rw [Cursor.len_takes, hsum, hlen]
    omega
  obtain ⟨hcount, hend⟩ := countEven_at he hes (by rwa [hstart]) hrest (by omega) hsmall hfuel rfl
  have hcount' := length_le_listLen (e :: es)
  rw [List.length_cons] at hcount'
  rw [hostMakeUpBody]
  simp only [hostCase, HostCase.fixed, takeUp, hend, hcount, Bool.false_eq_true, if_false]
  generalize iterWhile _ _ _ _ = w
  obtain ⟨herr, hel⟩ := takeEven_at he hes hslots { c.takes (fixedTakes 23) with reads := w.reads }
    (by rwa [hstart])
  rw [Nat.mod_eq_of_lt (by omega), takeList, if_neg (Nat.succ_ne_zero _), takeCount,
    if_pos (kmalloc_ample (Nat.succ_pos _) (by omega)), hfields]
  exact ⟨herr, by simp only [hel, ← hb]⟩

/-- In a report of two elements the value of the second is in order, and the host reads an element
list. -/
theorem hostMakeUpBody_pair (fuel : Nat) (hb : b.elements = [e, e'])
    (hes : ∀ x ∈ b.elements, x.Sound) (hslot : e'.Slotted)
    (hat : inp.At c.position (b.fixed ++ evenBytes e [e'])) (hlen : c.len = 23 + listLen b.elements)
    :
    (hostMakeUpBody inp Heap.ample fuel c (some .period)).error = none ∧
      (hostMakeUpBody inp Heap.ample fuel c (some .period)).body = { b with len := 0 } := by
  have hlist : hostCase (some .period) = .list 23 := rfl
  have hvalue : e'.value.length = e'.num := (hes e' (by rw [hb]; simp)).value
  rw [evenBytes_singleton hslot hvalue, ← hb] at hat
  obtain ⟨herr, hbody, -⟩ := hostMakeUpBody_at inp fuel hlist (.inr rfl)
    (fun hlt => absurd hlt (by decide)) hes (by rw [hb]; simp) (by rw [hb]; simp)
    (by rwa [List.take_of_length_le (by simp)]) hlen
  exact ⟨herr, hbody⟩

end Read

/-! ### One frame -/

section RoundTrip

variable {env : Env} {table : List ElementInfo} {mode : Mode} {funcode : BodyType} {p : UpPacket}

/-- A period report that was made has an element for every entry of the table. -/
theorem deviceMakePacket_even (hc : funcode.upCase = .evenPeriod)
    (h : deviceMakePacket env table mode funcode = .ok p) :
    p.body.elements = table.map (storedElement env.store) ∧ ∀ info ∈ table, 0 < info.num := by
  rw [deviceMakePacket] at h
  split at h
  · generalize deviceMakeUpHeader env.store mode funcode = r at h
    obtain ⟨err, header⟩ := r
    cases err with
    | some e => cases h
    | none =>
      simp only at h
      generalize hb : deviceMakeUpBody env table _ funcode = r at h
      cases r with
      | error e => cases h
      | ok body =>
        cases h
        rw [deviceMakeUpBody] at hb
        split at hb
        · cases hb
        rw [hc, (BodyType.evenPeriod_count hc table.length).2, List.take_length] at hb
        obtain ⟨b1, -, hb⟩ := bind_eq_ok.mp hb
        obtain ⟨b2, -, hb⟩ := bind_eq_ok.mp hb
        obtain ⟨es, hes, hb⟩ := bind_eq_ok.mp hb
        cases hb
        exact readElements_ok hes
  · cases h

variable {info : ElementInfo}

theorem digits_le_of_slots (h : info.num = 12 ∨ info.num = 24) : info.D ≤ 62 := by
  rw [ElementInfo.num] at h
  rw [UInt8.le_iff_toNat_le]
  split at h <;> simp <;> omega

/-- Every element's guide tells its length. -/
theorem sound_of_slots (store : Store) {infos : List ElementInfo} (hfirst : info.D ≤ 62)
    (hplaces : ∀ i ∈ info :: infos, i.d ≤ 7) (hslots : ∀ i ∈ infos, i.num = 12 ∨ i.num = 24)
    (hpos : ∀ i ∈ info :: infos, 0 < i.num) :
    ∀ e ∈ (info :: infos).map (storedElement store), e.Sound := by
  intro e he
  obtain ⟨i, hi, rfl⟩ := List.mem_map.mp he
  have hD : i.D ≤ 62 := by
    obtain rfl | hi := List.mem_cons.mp hi
    · exact hfirst
    · exact digits_le_of_slots (hslots i hi)
  exact ⟨guideNum_hydrologyGetGuideId hD (hplaces i hi), length_storedElement_value _ i, hpos i hi⟩

/-- What is sent of a period report that fits a frame. -/
theorem send_even {e : Element} {es : List Element} (hc : funcode.upCase = .evenPeriod)
    (hb : p.body.elements = e :: es) (hslots : ∀ e ∈ es, e.Slotted)
    (hv : ∀ e' ∈ e :: es, e'.value.length = e'.num)
    (hlen : p.body.len = 23 + listLen (e :: es)) (hshort : p.body.len ≤ bodyMaxLen)
    {frame : List UInt8} (hsent : (deviceMakeUpTailAndSend env p funcode).frames = [frame]) :
    frame = frameOf (p.header.singleBytes p.body.len) (p.body.fixed ++ evenBytes e es) ETX := by
  have hpieces : singlePieces env.store funcode.upCase p.body =
      fixedPiece p.body 23 :: evenPieces (e :: es) := by
    rw [hc, singlePieces, bodyPieces, hb]
    all_goals
      intro hfile
      cases hfile
  have hbytes : bodyOf (singlePieces env.store funcode.upCase p.body) =
      p.body.fixed ++ evenBytes e es := by
    rw [hpieces, bodyOf_cons, bodyOf_evenPieces hslots, fixedPiece, Piece.ofBytes_data,
      List.take_of_length_le (by simp)]
  by_cases hk : kmalloc env.heap .frame ((p.header.len + p.body.len + 3) % 2 ^ 16) = true
  · obtain ⟨-, hframes⟩ := sendSingle_eq hshort
      (by rw [hpieces]; exact whole_cons (Piece.whole_ofBytes _) (whole_evenPieces hslots hv))
      (by rw [hbytes, List.length_append, UpBody.length_fixed, length_evenBytes hslots hv, ← hlen]
          exact hshort) hk
    rw [hframes, hbytes] at hsent
    exact (List.singleton_inj.mp hsent).symm
  · rw [deviceMakeUpTailAndSend, if_pos hshort, deviceSendSingle, if_neg hk] at hsent
    cases hsent

/-- **A report over twelve time slots is read back by the host.**  An even period report of any
number of elements, or a period report of two, that is sent in one frame: when the guides can tell
the lengths of the values, the host has the elements that the device interleaved.  The counting loop
needs no more steps than there are elements. -/
theorem transposed_round_trip (env : Env) (table : List ElementInfo) (mode : Mode)
    (funcode : BodyType)
    (hcode : funcode = .evenPeriodInfo ∨ funcode = .period ∧ table.length = 2)
    (hcount : table.length < 256) (hfirst : ∀ info ∈ table.head?, info.D ≤ 62)
    (hplaces : ∀ info ∈ table, info.d ≤ 7)
    (hslots : ∀ info ∈ table.tail, info.num = 12 ∨ info.num = 24)
    (hshort : 23 + listLen (table.map (storedElement env.store)) ≤ bodyMaxLen)
    (frame : List UInt8) (hsent : (deviceProcessSend env table mode funcode).frames = [frame]) :
    ∃ p, deviceMakePacket env table mode funcode = .ok p ∧
      p.body.elements = table.map (storedElement env.store) ∧
      ∀ inp : Input, inp.Holds frame → ∀ fuel, table.length ≤ fuel →
        inp.Accepted ∧ (hostParse inp Heap.ample fuel).2.error = none ∧
          (hostParse inp Heap.ample fuel).2.body = { p.body with len := 0 } := by
  have hc : funcode.upCase = .evenPeriod := by
    obtain rfl | ⟨rfl, -⟩ := hcode <;> rfl
  rw [deviceProcessSend] at hsent
  generalize hp : deviceMakePacket env table mode funcode = r at hsent
  cases r with
  | error err => cases hsent
  | ok p =>
  obtain ⟨hh, hm⟩ := deviceMakePacket_ok hcount hp
  obtain ⟨hes, hpos⟩ := deviceMakePacket_even hc hp
  refine ⟨p, rfl, hes, fun inp hin fuel hfuel => ?_⟩
  obtain ⟨info, infos, rfl⟩ := List.exists_cons_of_ne_nil
    fun hnil : table = [] => hm.even hc (by rw [hes, hnil]; rfl)
  have hsound := sound_of_slots env.store (hfirst info rfl) hplaces hslots hpos
  rw [List.map_cons] at hes hshort hsound
  generalize hes' : infos.map (storedElement env.store) = es at hes hshort hsound
  have hslots' : ∀ e ∈ es, e.Slotted := by
    rw [← hes']
    intro e he
    obtain ⟨i, hi, rfl⟩ := List.mem_map.mp he
    exact hslots i hi
  have hcount' : infos.length = es.length := by rw [← hes', List.length_map]
  obtain ⟨hsound0, hsounds⟩ := List.forall_mem_cons.mp hsound
  have hlen : p.body.len = 23 + listLen (storedElement env.store info :: es) := by
    rw [hm.len, hc, UpCase.total, hes]
    rw [bodyMaxLen] at hshort
    exact Nat.mod_eq_of_lt (by omega)
  have hv : ∀ e ∈ storedElement env.store info :: es, e.value.length = e.num :=
    fun e he => (hsound e he).value
  have hbytes : (p.body.fixed ++ evenBytes (storedElement env.store info) es).length =
      p.body.len := by
    rw [List.length_append, UpBody.length_fixed, length_evenBytes hslots' hv, hlen]
  rw [send_even hc hes hslots' hv hlen (by omega) hsent] at hin
  rw [bodyMaxLen] at hshort
  obtain ⟨hacc, c, hat, hclen, hcpos, hparse⟩ := hostParse_single hh hbytes (by omega) hin
  refine ⟨hacc, ?_⟩
  rw [(hparse Heap.ample fuel).1]
  rw [hlen] at hclen
  obtain rfl | ⟨rfl, htwo⟩ := hcode
  · refine hostMakeUpBody_even hes hsound0 hsounds hslots' hat (by rw [hclen]; push_cast; rfl) hcpos
      (by omega) ?_
    rw [← hcount']
    exact Nat.le_of_succ_le hfuel
  · obtain ⟨e', rfl⟩ : ∃ e', es = [e'] := by
      rw [List.length_cons, hcount'] at htwo
      exact List.length_eq_one_iff.mp (by omega)
    rw [← hes] at hsound
    exact hostMakeUpBody_pair fuel hes hsound (hslots' e' List.mem_cons_self) hat
      (by rw [hclen, hes]; push_cast; rfl)

/-- A time step of three bytes, and two series of twelve slots of one byte and of two. -/
def slottedTable : List ElementInfo := [⟨0x04, 6, 0, 0⟩, ⟨0x26, 24, 0, 8⟩, ⟨0x39, 48, 2, 32⟩]

theorem transposed_round_trip_slotted :
    ∃ frame p, (deviceProcessSend calmEnv slottedTable .m1 .evenPeriodInfo).frames = [frame] ∧
      deviceMakePacket calmEnv slottedTable .m1 .evenPeriodInfo = .ok p ∧
      (hostParse (.ofFrame frame) Heap.ample 3).2.body = { p.body with len := 0 } := by
  obtain ⟨frame, hframe⟩ : ∃ frame,
      (deviceProcessSend calmEnv slottedTable .m1 .evenPeriodInfo).frames = [frame] :=
    List.length_eq_one_iff.mp (by decide +kernel)
  obtain ⟨p, hp, -, hall⟩ := transposed_round_trip calmEnv slottedTable .m1 .evenPeriodInfo (.inl rfl)
    (by decide) (by decide) (by decide) (by decide) (by decide) frame hframe
  exact ⟨frame, p, hframe, hp, (hall _ (Input.holds_ofFrame frame) 3 le_rfl).2.2⟩

/-- A first element of 64 digits: its 32 bytes are more than the five bits of the guide can tell.
The frame is sent and accepted, and the host, which reads no length, refuses the element. -/
theorem wide_step_misread :
    (deviceProcessSend calmEnv [⟨0x04, 64, 0, 0⟩] .m1 .evenPeriodInfo).error = none ∧
      ∃ frame, (deviceProcessSend calmEnv [⟨0x04, 64, 0, 0⟩] .m1 .evenPeriodInfo).frames = [frame] ∧
        (Input.ofFrame frame).Accepted ∧
        (hostParse (.ofFrame frame) Heap.ample 64).2.error = some .enomem := by
  refine ⟨by decide +kernel, _, rfl, ?_, ?_⟩
  · decide +kernel
  · decide +kernel

end RoundTrip

end Kinetis.Hydrology
