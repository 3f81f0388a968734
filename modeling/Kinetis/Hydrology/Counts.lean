import Kinetis.Hydrology.DeviceReceive
import Kinetis.Hydrology.HostReceive

/-!
# Hydrology — what a receiver counts

Where the body of a frame starts, and how many elements the loops of both ends find in it.  The loop
over an `EVEN_PERIOD_INFO_REPORT` is different from the others: it goes over the guides only, and
compares a 32-bit sum of lengths with the remaining length.

* `takeHeader_cursor`: the cursor at the start of the body;
* `count_countElements`, `count_countGuides`: the counts of lists;
* `evenWalk_iterate`: the counting loop of the interleaved report after some steps.
-/

namespace Kinetis.Hydrology
open Lib

/-! ### The header -/

theorem takeHeader_funcode (inp : Input) (center remote : Nat) (reads : Reads) :
    (takeHeader inp center remote reads).1.funcode = inp.byte 10 := by
  rw [takeHeader]
  simp only
  split <;> rfl

/-- The cursor at the start of the body. -/
theorem takeHeader_cursor (inp : Input) (center remote : Nat) (reads : Reads) :
    (takeHeader inp center remote reads).2.position = inp.bodyStart ∧
    (takeHeader inp center remote reads).2.len = inp.bodyLen ∧
    ∀ n, (takeHeader inp center remote reads).2.reads.Within n ↔
      reads.Within n ∧ inp.bodyStart ≤ n := by
  have h14 := Cursor.swept_takes ⟨0, 0, reads⟩ [2, 6, 2, 1, 2, 1]
  rw [takeHeader, Input.bodyStart]
  by_cases hsyn : inp.byte 13 = SYN
  · simp only [hsyn, if_true]
    refine ⟨rfl, trivial, fun n => ?_⟩
    have := (h14.take 3).within n
    rw [this]
    simp
  · simp only [hsyn, if_false]
    refine ⟨rfl, trivial, fun n => ?_⟩
    have := h14.within n
    rw [this]
    simp

theorem bodyLen_lt (inp : Input) : inp.bodyLen < 4096 := by
  have h0 : (inp.byte 11 &&& 0x0F).toNat ≤ 15 := by
    rw [UInt8.toNat_and]
    exact Nat.and_le_right
  have h1 := (inp.byte 12).toNat_lt
  rw [Input.bodyLen]
  omega

/-! ### Element lists -/

theorem guideNum_lt (g : UInt8) : guideNum g < 32 := by
  rw [guideNum, UInt8.toNat_shiftRight]
  have := g.toNat_lt
  simp [Nat.shiftRight_eq_div_pow]
  omega

section Lists

variable (inp : Input)

/-- The number of elements that the counting loop finds from `pos` on. -/
def walkCount : Nat → Nat → Int → Nat
  | 0, _, _ => 0
  | fuel + 1, pos, len =>
    if 0 < len then
      walkCount fuel (pos + (guideNum (inp.byte (pos + 1)) + 2))
        (len - (guideNum (inp.byte (pos + 1)) + 2 : Nat)) + 1
    else 0

theorem iterWhile_walk_count (fuel : Nat) (w : Walk) :
    (iterWhile Walk.going (Walk.step inp) fuel w).count =
      w.count + walkCount inp fuel w.position w.len := by
  induction fuel generalizing w with
  | zero => rfl
  | succ fuel ih =>
    rw [walkCount]
    by_cases hgo : 0 < w.len
    · rw [iterWhile_succ (by simp [Walk.going, hgo]), ih, if_pos hgo]
      simp only [Walk.step]
      omega
    · rw [iterWhile_of_not (by simp [Walk.going, hgo]), if_neg hgo]
      rfl

theorem count_countElements (c : Cursor) :
    (countElements inp c).count = walkCount inp c.len.toNat c.position c.len := by
  rw [countElements, iterWhile_walk_count, Nat.zero_add]

end Lists

theorem count_countGuides (c : Cursor) : (countGuides c).count = ((c.len + 1) / 2).toNat := by
  have key : ∀ fuel (w : Walk), (iterWhile Walk.going
      (fun w => ⟨w.position + 2, w.len - 2, w.count + 1, w.reads⟩) fuel w).count =
        w.count + min fuel ((w.len + 1) / 2).toNat := by
    intro fuel
    induction fuel with
    | zero => intro w; simp [iterWhile]
    | succ fuel ih =>
      intro w
      by_cases hgo : 0 < w.len
      · rw [iterWhile_succ (by simp [Walk.going, hgo]), ih]
        simp only
        omega
      · rw [iterWhile_of_not (by simp [Walk.going, hgo])]
        omega
  rw [countGuides, key]
  simp only
  omega

/-! ### Interleaved elements -/

section Even

variable (inp : Input)

/-- The length of a round. -/
def roundLen (es : List Element) : Nat := (es.map fun e => e.num / 12).sum

theorem takeRound_spec (es : List Element) (c : Cursor) :
    c.Swept (takeRound inp es c).2 ∧ (takeRound inp es c).2.position = c.position + roundLen es ∧
      roundLen (takeRound inp es c).1 = roundLen es := by
  induction es generalizing c with
  | nil => exact ⟨.refl c, rfl, rfl⟩
  | cons e es ih =>
    obtain ⟨hs, hp, hr⟩ := ih (c.take (e.num / 12))
    rw [Cursor.position_take] at hp
    refine ⟨(Cursor.swept_take c _).trans hs, ?_, ?_⟩
    · rw [takeRound]
      simp only [hp, roundLen, List.map_cons, List.sum_cons]
      omega
    · rw [roundLen] at hr
      simp only [takeRound, roundLen, List.map_cons, List.sum_cons, hr]

/-- The index of the length byte that the counting loop reads in step `t`. -/
def evenIndex (pos t : Nat) : Nat :=
  (pos + (guideNum (inp.byte (pos + 1)) + 2) + 2 * t + 1) % 2 ^ 32

/-- The sum of lengths before step `t`. -/
def evenOffset (pos : Nat) : Nat → Nat
  | 0 => guideNum (inp.byte (pos + 1)) + 2
  | t + 1 => (evenOffset pos t + (guideNum (inp.byte (evenIndex inp pos t)) + 2)) % 2 ^ 32

/-- The counting loop after `k` steps. -/
theorem evenWalk_iterate (c : Cursor) (hc : c.position < 2 ^ 31) (n k : Nat) :
    ((EvenWalk.step inp)^[k] (EvenWalk.start inp c)).position =
      (c.position + (guideNum (inp.byte (c.position + 1)) + 2) + 2 * k) % 2 ^ 32 ∧
    ((EvenWalk.step inp)^[k] (EvenWalk.start inp c)).offset = evenOffset inp c.position k ∧
    ((EvenWalk.step inp)^[k] (EvenWalk.start inp c)).i = (k + 1) % 2 ^ 32 ∧
    (((EvenWalk.step inp)^[k] (EvenWalk.start inp c)).reads.Within n ↔
      (c.reads.Within n ∧ c.position + 2 ≤ n) ∧ ∀ s < k, evenIndex inp c.position s < n) := by
  have hnum := guideNum_lt (inp.byte (c.position + 1))
  induction k with
  | zero =>
    refine ⟨?_, rfl, rfl, ?_⟩
    · simp only [Function.iterate_zero_apply, EvenWalk.start]
      omega
    · simp only [Function.iterate_zero_apply, EvenWalk.start, Reads.within_append,
        Reads.within_cons, Reads.within_nil, and_true, Nat.not_lt_zero, false_implies,
        implies_true]
      refine and_congr_right fun _ => ?_
      omega
  | succ k ih =>
    obtain ⟨hp, ho, hi, hr⟩ := ih
    have hindex : (((EvenWalk.step inp)^[k] (EvenWalk.start inp c)).position + 1) % 2 ^ 32 =
        evenIndex inp c.position k := by
      rw [hp, evenIndex]
      omega
    rw [Function.iterate_succ_apply']
    generalize (EvenWalk.step inp)^[k] (EvenWalk.start inp c) = w at hp ho hi hr hindex ⊢
    refine ⟨?_, ?_, ?_, ?_⟩
    · simp only [EvenWalk.step, hp]
      omega
    · simp only [EvenWalk.step, hindex, ho, evenOffset]
    · simp only [EvenWalk.step, hi]
      omega
    · simp only [EvenWalk.step, hindex, Reads.within_append, Reads.within_cons, Reads.within_nil,
        and_true, hr, Nat.forall_lt_succ_right, and_assoc]
      refine and_congr_right fun _ => and_congr_right fun _ => and_congr_right fun _ => ?_
      omega

end Even

/-- A downlink with function code `code` and the given body. -/
def sampleRequest (code : UInt8) (body : List UInt8) : List UInt8 :=
  frameOf [SOH, SOH, 0, 0, 0, 0, 0, 1, 0, 0, code, 0x80, UInt8.ofNat body.length, STX] body ENQ

end Kinetis.Hydrology
