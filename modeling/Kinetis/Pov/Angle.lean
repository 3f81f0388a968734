import Kinetis.Pov.Display

/-!
# Pov — the angle as a column

`pov_get_angle` maps the time since the last pass of the magnet to one of the 720 columns and turns
the column by the place of the arm.  The product of the time and the number of columns is a `u32`,
so it wraps for times of 5965233 ticks and more.

* `hallColumn_eq_iff`: the column is the exact one for a time whose product does not wrap, or whose
  wrapped product is still past the last column.
* `getAngleOf_exact_iff`: the same for every arm of any number of arms.
* `hallColumn_monotone_iff`: the periods over which the column grows with the time.
-/

namespace Kinetis.Pov

/-- `hall_get_angle`. -/
def hallGetAngle (angularResolution : UInt32) (hall : HallSample) : UInt32 :=
  if hall.periodTicks = 0 then 0
  else
    let column := hall.rotatedTime * angularResolution / hall.periodTicks
    if angularResolution ≤ column then angularResolution - 1 else column

/-- `pov_get_angle` on a rotor of `armCount` arms. -/
def getAngleOf (armCount : Nat) (armId : UInt8) (angularResolution : UInt32) (hall : HallSample) :
    UInt32 :=
  if hall.periodTicks = 0 then 0
  else
    let angle := hall.rotatedTime * angularResolution / hall.periodTicks
    let angle := if angularResolution ≤ angle then angularResolution - 1 else angle
    if armId = 0 then angle
    else (angle + armId.toUInt32 * (POV_DISPLAY_COLS / armCount).toUInt32)
      % POV_DISPLAY_COLS.toUInt32

theorem getAngle_eq_getAngleOf : getAngle = getAngleOf POV_ARM_COUNT := rfl

/-! ### The column -/

/-- The column of a time `t` in a rotation of `p` ticks. -/
def exactColumn (t p : Nat) : Nat := min (720 * t / p) 719

/-- The column with the product cut to 32 bits. -/
def hallColumn (t p : Nat) : Nat := min (720 * t % 2 ^ 32 / p) 719

theorem exactColumn_lt (t p : Nat) : exactColumn t p < 720 := by
  rw [exactColumn]
  omega

theorem hallColumn_lt (t p : Nat) : hallColumn t p < 720 := by
  rw [hallColumn]
  omega

variable {hall : HallSample} {t p n a : Nat}

theorem hallGetAngle_toNat (hp : hall.periodTicks ≠ 0) :
    (hallGetAngle 720 hall).toNat = hallColumn hall.rotatedTime.toNat hall.periodTicks.toNat := by
  have hq : (hall.rotatedTime * 720 / hall.periodTicks).toNat =
      720 * hall.rotatedTime.toNat % 2 ^ 32 / hall.periodTicks.toNat := by
    rw [UInt32.toNat_div, UInt32.toNat_mul, Nat.mul_comm]
    rfl
  rw [hallGetAngle, if_neg hp, hallColumn, ← hq]
  dsimp only
  split
  · rename_i hle
    have hle : 720 ≤ (hall.rotatedTime * 720 / hall.periodTicks).toNat := hle
    rw [Nat.min_eq_right (by omega)]
    rfl
  · rename_i hlt
    have hlt : ¬ 720 ≤ (hall.rotatedTime * 720 / hall.periodTicks).toNat := hlt
    rw [Nat.min_eq_left (by omega)]

/-- **The column is exact** where the product does not wrap, and where it wraps to a value that
stands for the last column. -/
theorem hallColumn_eq_iff (hp : p ≠ 0) (hlt : p < 2 ^ 32) :
    hallColumn t p = exactColumn t p ↔ 720 * t < 2 ^ 32 ∨ 719 * p ≤ 720 * t % 2 ^ 32 := by
  have hpos : 0 < p := Nat.pos_of_ne_zero hp
  rw [hallColumn, exactColumn, ← Nat.le_div_iff_mul_le hpos]
  rcases Nat.lt_or_ge (720 * t) (2 ^ 32) with hfit | hwrap
  · rw [Nat.mod_eq_of_lt hfit]
    exact iff_of_true rfl (.inl hfit)
  · -- the product exceeds its remainder by a whole period at least
    have hmod : 720 * t % 2 ^ 32 + p ≤ 720 * t := by
      have := Nat.div_add_mod (720 * t) (2 ^ 32)
      have : 1 ≤ 720 * t / 2 ^ 32 := Nat.div_pos hwrap (Nat.two_pow_pos 32)
      omega
    have hdiv : 720 * t % 2 ^ 32 / p + 1 ≤ 720 * t / p := by
      rw [← Nat.add_div_right _ hpos]
      exact Nat.div_le_div_right hmod
    omega

/-! ### The arms -/

/-- The place of arm `a` of `n`, in columns. -/
def armOffset (n a : Nat) : Nat := a * (720 / n)

theorem armOffset_lt (ha : a < n) : armOffset n a < 720 := by
  have hle : 720 / n * n ≤ 720 := Nat.div_mul_le_self 720 n
  rcases Nat.eq_zero_or_pos (720 / n) with h | h
  · rw [armOffset, h, Nat.mul_zero]
    decide
  · calc a * (720 / n) < n * (720 / n) := Nat.mul_lt_mul_of_pos_right ha h
      _ ≤ 720 := by rwa [Nat.mul_comm]

theorem getAngleOf_toNat {a : UInt8} (ha : a.toNat < n) (hp : hall.periodTicks ≠ 0) :
    (getAngleOf n a 720 hall).toNat =
      (hallColumn hall.rotatedTime.toNat hall.periodTicks.toNat + armOffset n a.toNat) % 720 := by
  have hcol := hallGetAngle_toNat hp
  have hlt := hallColumn_lt hall.rotatedTime.toNat hall.periodTicks.toNat
  have hoff : armOffset n a.toNat < 720 := armOffset_lt ha
  rw [hallGetAngle, if_neg hp] at hcol
  rw [getAngleOf, if_neg hp]
  by_cases hzero : a = 0
  · rw [if_pos hzero, hcol, hzero, armOffset]
    simpa using (Nat.mod_eq_of_lt hlt).symm
  · have hstep : (720 / n).toUInt32.toNat = 720 / n :=
      Nat.mod_eq_of_lt (Nat.lt_of_le_of_lt (Nat.div_le_self 720 n) (by decide))
    rw [if_neg hzero, UInt32.toNat_mod, UInt32.toNat_add, hcol, UInt32.toNat_mul,
      POV_DISPLAY_COLS, hstep]
    change (_ + armOffset n a.toNat % 2 ^ 32) % 2 ^ 32 % 720 = _
    rw [Nat.mod_eq_of_lt (a := armOffset n a.toNat) (by omega),
      Nat.mod_eq_of_lt (b := 2 ^ 32) (by omega)]

theorem add_mod_cancel {b c : Nat} (ha : a < 720) (hb : b < 720) :
    (a + c) % 720 = (b + c) % 720 ↔ a = b := by
  omega

/-! ### Growing with the time -/

theorem hallColumn_eq_zero (h : 720 * t % 2 ^ 32 < p) : hallColumn t p = 0 := by
  rw [hallColumn, Nat.div_eq_of_lt h]
  rfl

theorem hallColumn_pos (hp : p ≠ 0) (h : p ≤ 720 * t % 2 ^ 32) : 0 < hallColumn t p := by
  have : 0 < 720 * t % 2 ^ 32 / p := Nat.div_pos h (Nat.pos_of_ne_zero hp)
  rw [hallColumn]
  omega

theorem hallColumn_mono_of_fits {t' : Nat} (hle : t ≤ t') (hfit : 720 * t' < 2 ^ 32) :
    hallColumn t p ≤ hallColumn t' p := by
  rw [hallColumn, hallColumn, Nat.mod_eq_of_lt hfit, Nat.mod_eq_of_lt (by omega)]
  have : 720 * t / p ≤ 720 * t' / p := Nat.div_le_div_right (by omega)
  omega

/-- **The column grows with the time** over a rotation whose products do not wrap, and over one so
long that no product reaches its period. -/
theorem hallColumn_monotone_iff (hp : p ≠ 0) :
    (∀ t t', t ≤ t' → t' < p → hallColumn t p ≤ hallColumn t' p) ↔
      p ≤ 5965233 ∨ 4294967280 < p := by
  constructor
  · intro hmono
    by_contra hno
    -- the last time before the product wraps, or the time whose product is just below `2 ^ 32`
    rcases Nat.lt_or_ge 4294967040 p with hbig | hsmall
    · have hle := hmono 184922203 184922204 (by omega) (by omega)
      have hpos : 0 < hallColumn 184922203 p := hallColumn_pos hp (by omega)
      have hzero : hallColumn 184922204 p = 0 := hallColumn_eq_zero (by omega)
      omega
    · have hle := hmono 5965232 5965233 (by omega) (by omega)
      have hpos : 0 < hallColumn 5965232 p := hallColumn_pos hp (by omega)
      have hzero : hallColumn 5965233 p = 0 := hallColumn_eq_zero (by omega)
      omega
  · rintro (hsmall | hbig) t t' hle hlt
    · exact hallColumn_mono_of_fits hle (by omega)
    · -- the products are multiples of 16
      rw [hallColumn_eq_zero (t := t) (by omega)]
      exact Nat.zero_le _

theorem getAngleOf_zero (hn : 0 < n) (t : UInt32) {p : UInt32} (hp : p ≠ 0) :
    (getAngleOf n 0 720 ⟨t, p⟩).toNat = hallColumn t.toNat p.toNat := by
  rw [getAngleOf_toNat hn hp]
  change (_ + 0 * (720 / n)) % 720 = _
  rw [Nat.zero_mul]
  exact Nat.mod_eq_of_lt (hallColumn_lt _ _)

/-- The order of the columns over words is that over their values. -/
theorem getAngleOf_monotone_iff (hn : 0 < n) {p : UInt32} (hp : p ≠ 0) :
    (∀ t t' : UInt32, t ≤ t' → t' < p → getAngleOf n 0 720 ⟨t, p⟩ ≤ getAngleOf n 0 720 ⟨t', p⟩) ↔
      ∀ t t', t ≤ t' → t' < p.toNat → hallColumn t p.toNat ≤ hallColumn t' p.toNat := by
  simp only [UInt32.le_iff_toNat_le, UInt32.lt_iff_toNat_lt, getAngleOf_zero hn _ hp]
  constructor
  · intro h t t' hle hlt
    have hsize : t' < UInt32.size := Nat.lt_trans hlt p.toNat_lt
    have ht : (UInt32.ofNat t).toNat = t := UInt32.toNat_ofNat_of_lt (Nat.lt_of_le_of_lt hle hsize)
    have ht' : (UInt32.ofNat t').toNat = t' := UInt32.toNat_ofNat_of_lt hsize
    have hmono := h (.ofNat t) (.ofNat t')
    rw [ht, ht'] at hmono
    exact hmono hle hlt
  · exact fun h t t' => h t.toNat t'.toNat

/-- **When the angle is exact**: where the product does not wrap or wraps past the last column, for
every arm; and arm 0 sees the columns in order exactly over the periods whose products do not wrap,
or never reach the period. -/
theorem getAngleOf_exact_iff (n : Nat) (a : UInt8) (t p : UInt32) (hn : n ∣ 720) (ha : a.toNat < n)
    (hp : p ≠ 0) :
    ((getAngleOf n a 720 ⟨t, p⟩).toNat =
        (min (720 * t.toNat / p.toNat) 719 + a.toNat * (720 / n)) % 720 ↔
      720 * t.toNat < 2 ^ 32 ∨ 719 * p.toNat ≤ 720 * t.toNat % 2 ^ 32) ∧
    ((∀ t t' : UInt32, t ≤ t' → t' < p →
        getAngleOf n 0 720 ⟨t, p⟩ ≤ getAngleOf n 0 720 ⟨t', p⟩) ↔
      p ≤ 5965233 ∨ 4294967280 < p) := by
  have hpos : 0 < n := Nat.pos_of_dvd_of_pos hn (by decide)
  have hp' : p.toNat ≠ 0 := fun h => hp (UInt32.toNat_inj.mp h)
  constructor
  · rw [getAngleOf_toNat ha hp]
    change (_ + armOffset n a.toNat) % 720 =
      (exactColumn t.toNat p.toNat + armOffset n a.toNat) % 720 ↔ _
    rw [add_mod_cancel (hallColumn_lt _ _) (exactColumn_lt _ _), hallColumn_eq_iff hp' p.toNat_lt]
  · rw [getAngleOf_monotone_iff hpos hp, hallColumn_monotone_iff hp', UInt32.le_iff_toNat_le,
      UInt32.lt_iff_toNat_lt]
    rfl

theorem getAngleOf_exact_slow : (getAngleOf 2 1 720 ⟨3000, 6000⟩).toNat = (360 + 360) % 720 :=
  (getAngleOf_exact_iff 2 1 3000 6000 (by decide) (by decide) (by decide)).1.mpr (by decide)

/-- At the first time whose product wraps the column falls from 715 to 0, in a rotation of a little
more time. -/
theorem getAngle_wraps :
    getAngle 0 720 ⟨5965232, 6000000⟩ = 715 ∧ getAngle 0 720 ⟨5965233, 6000000⟩ = 0 ∧
      min (720 * 5965233 / 6000000) 719 = 715 := by
  decide

end Kinetis.Pov
