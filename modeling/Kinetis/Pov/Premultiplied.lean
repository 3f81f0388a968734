import Kinetis.Lib.WordExpr
import Kinetis.Pov.BlendPass

/-!
# Pov — premultiplied pixels

A pixel is premultiplied when no colour exceeds its alpha.  The formulas of
`porter_duff_composite_pixel` are written down as terms, so that their intermediate values can be
spoken of: `colourExpr` for a colour, `alphaExpr` for alpha.

* `porterDuffCompositePixel_eq`: the function evaluates these terms.
* `colourExpr_fits`, `alphaExpr_fits`: no operation in them leaves 16 bits, for any channels.
* `colour_le_alpha`: truncation included, a colour stays below alpha in every mode.
* `compositions_premultiplied`: so it does after any sequence of compositions.
-/

namespace Kinetis.Pov
open Lib

/-- No colour exceeds alpha. -/
def RgbaPixel.Premultiplied (p : RgbaPixel) : Prop :=
  p.red ≤ p.alpha ∧ p.green ≤ p.alpha ∧ p.blue ≤ p.alpha

instance (p : RgbaPixel) : Decidable p.Premultiplied :=
  inferInstanceAs (Decidable (_ ∧ _ ∧ _))

/-! ### The formulas -/

/-- What a formula refers to: a channel of the source and of the destination, and their alphas. -/
inductive Channel where
  | src
  | dst
  | srcAlpha
  | dstAlpha

namespace Channel

/-- The variables of a formula, extended to 16 bits. -/
def env (s d sa da : UInt8) : Channel → UInt16
  | .src => s.toUInt16
  | .dst => d.toUInt16
  | .srcAlpha => sa.toUInt16
  | .dstAlpha => da.toUInt16

end Channel

/-- `inv_sa`. -/
def invSa : WordExpr Channel := .sub (.lit 256) (.var .srcAlpha)

/-- `inv_da`. -/
def invDa : WordExpr Channel := .sub (.lit 256) (.var .dstAlpha)

/-- A product of two channels on the scale of one. -/
def scaled (a b : WordExpr Channel) : WordExpr Channel := .shr (.mul a b) 8

/-- The formula for the three colours. -/
def colourExpr : PorterDuffMode → WordExpr Channel
  | .clear => .lit 0
  | .src => .var .src
  | .dst => .var .dst
  | .srcOver => .add (.var .src) (scaled (.var .dst) invSa)
  | .dstOver => .add (.var .dst) (scaled (.var .src) invDa)
  | .srcIn => scaled (.var .src) (.var .dstAlpha)
  | .dstIn => scaled (.var .dst) (.var .srcAlpha)
  | .srcOut => scaled (.var .src) invDa
  | .dstOut => scaled (.var .dst) invSa
  | .srcAtop => .add (scaled (.var .src) (.var .dstAlpha)) (scaled (.var .dst) invSa)
  | .dstAtop => .add (scaled (.var .dst) (.var .srcAlpha)) (scaled (.var .src) invDa)
  | .xor => .add (scaled (.var .src) invDa) (scaled (.var .dst) invSa)
  | .plus => .add (.var .src) (.var .dst)

/-- The formula for alpha. -/
def alphaExpr : PorterDuffMode → WordExpr Channel
  | .clear => .lit 0
  | .src => .var .srcAlpha
  | .dst => .var .dstAlpha
  | .srcOver => .add (.var .srcAlpha) (scaled (.var .dstAlpha) invSa)
  | .dstOver => .add (.var .dstAlpha) (scaled (.var .srcAlpha) invDa)
  | .srcIn => scaled (.var .srcAlpha) (.var .dstAlpha)
  | .dstIn => scaled (.var .dstAlpha) (.var .srcAlpha)
  | .srcOut => scaled (.var .srcAlpha) invDa
  | .dstOut => scaled (.var .dstAlpha) invSa
  | .srcAtop => .var .dstAlpha
  | .dstAtop => .var .srcAlpha
  | .xor =>
    .sub (.add (.var .srcAlpha) (.var .dstAlpha)) (.shr (.mul (.var .srcAlpha) (.var .dstAlpha)) 7)
  | .plus => .add (.var .srcAlpha) (.var .dstAlpha)

/-- A channel of the result: the formula `e` for a channel `s` of the source over `d`, clamped. -/
def compositeChannel (e : WordExpr Channel) (dst src : RgbaPixel) (s d : UInt8) : UInt8 :=
  clampChannel (e.eval (Channel.env s d src.alpha dst.alpha))

/-- **The function evaluates the formulas.** -/
theorem porterDuffCompositePixel_eq (dst src : RgbaPixel) (mode : PorterDuffMode) :
    porterDuffCompositePixel dst src mode =
      ⟨compositeChannel (colourExpr mode) dst src src.red dst.red,
        compositeChannel (colourExpr mode) dst src src.green dst.green,
        compositeChannel (colourExpr mode) dst src src.blue dst.blue,
        compositeChannel (alphaExpr mode) dst src src.alpha dst.alpha⟩ := by
  cases mode with
  | src => simp only [compositeChannel, colourExpr, alphaExpr, WordExpr.eval, Channel.env,
      clampChannel_toUInt16, porterDuffCompositePixel]
  | dst => simp only [compositeChannel, colourExpr, alphaExpr, WordExpr.eval, Channel.env,
      clampChannel_toUInt16, porterDuffCompositePixel]
  | _ => rfl

/-! ### No wrap-around -/

section formulas

variable {s d sa da : UInt8}

/-- A variable is a channel of 8 bits. -/
theorem env_le (c : Channel) : (Channel.env s d sa da c).toNat ≤ 255 := by
  cases c with
  | src => exact Nat.le_of_lt_succ s.toNat_lt
  | dst => exact Nat.le_of_lt_succ d.toNat_lt
  | srcAlpha => exact Nat.le_of_lt_succ sa.toNat_lt
  | dstAlpha => exact Nat.le_of_lt_succ da.toNat_lt

/-- The formula fits, and its value is at most `n`. -/
def FitsWithin (s d sa da : UInt8) (n : Nat) (e : WordExpr Channel) : Prop :=
  e.Fits (Channel.env s d sa da) ∧ e.exact (Channel.env s d sa da) ≤ n

theorem fitsWithin_var (c : Channel) : FitsWithin s d sa da 255 (.var c) := ⟨trivial, env_le c⟩

theorem fitsWithin_inv (c : Channel) : FitsWithin s d sa da 256 (.sub (.lit 256) (.var c)) :=
  ⟨⟨show 256 < 2 ^ 16 by decide, trivial, Nat.le_succ_of_le (env_le c)⟩, Nat.sub_le 256 _⟩

/-- A channel on the scale of another is a channel again. -/
theorem fitsWithin_scaled (c : Channel) {e : WordExpr Channel} (he : FitsWithin s d sa da 256 e) :
    FitsWithin s d sa da 255 (scaled (.var c) e) := by
  have hmul : (Channel.env s d sa da c).toNat * e.exact (Channel.env s d sa da) ≤ 255 * 256 :=
    Nat.mul_le_mul (env_le c) he.2
  exact ⟨⟨⟨trivial, he.1, Nat.lt_of_le_of_lt hmul (by decide)⟩, by decide⟩,
    Nat.div_le_of_le_mul (Nat.le_trans hmul (by decide))⟩

theorem fitsWithin_scaled_var (c c' : Channel) :
    FitsWithin s d sa da 255 (scaled (.var c) (.var c')) :=
  fitsWithin_scaled c ⟨trivial, Nat.le_succ_of_le (env_le c')⟩

theorem fits_add {a b : WordExpr Channel} (ha : FitsWithin s d sa da 255 a)
    (hb : FitsWithin s d sa da 255 b) : (WordExpr.add a b).Fits (Channel.env s d sa da) :=
  ⟨ha.1, hb.1, Nat.lt_of_le_of_lt (Nat.add_le_add ha.2 hb.2) (by decide)⟩

theorem colourExpr_fits (mode : PorterDuffMode) :
    (colourExpr mode).Fits (Channel.env s d sa da) := by
  cases mode with
  | clear => exact show 0 < 2 ^ 16 by decide
  | src => exact trivial
  | dst => exact trivial
  | srcOver => exact fits_add (fitsWithin_var _) (fitsWithin_scaled _ (fitsWithin_inv _))
  | dstOver => exact fits_add (fitsWithin_var _) (fitsWithin_scaled _ (fitsWithin_inv _))
  | srcIn => exact (fitsWithin_scaled_var _ _).1
  | dstIn => exact (fitsWithin_scaled_var _ _).1
  | srcOut => exact (fitsWithin_scaled _ (fitsWithin_inv _)).1
  | dstOut => exact (fitsWithin_scaled _ (fitsWithin_inv _)).1
  | srcAtop =>
    exact fits_add (fitsWithin_scaled_var _ _) (fitsWithin_scaled _ (fitsWithin_inv _))
  | dstAtop =>
    exact fits_add (fitsWithin_scaled_var _ _) (fitsWithin_scaled _ (fitsWithin_inv _))
  | xor =>
    exact fits_add (fitsWithin_scaled _ (fitsWithin_inv _))
      (fitsWithin_scaled _ (fitsWithin_inv _))
  | plus => exact fits_add (fitsWithin_var _) (fitsWithin_var _)

/-- Twice the product of two alphas, on the scale of one, is at most their sum. -/
theorem double_product_le {a b : Nat} (ha : a ≤ 255) (hb : b ≤ 255) : a * b / 128 ≤ a + b := by
  have hleft : a * b ≤ a * 255 := Nat.mul_le_mul_left a hb
  have hright : a * b ≤ 255 * b := Nat.mul_le_mul_right b ha
  omega

theorem alphaExpr_fits (mode : PorterDuffMode) : (alphaExpr mode).Fits (Channel.env s d sa da) := by
  cases mode with
  | clear => exact show 0 < 2 ^ 16 by decide
  | src => exact trivial
  | dst => exact trivial
  | srcOver => exact fits_add (fitsWithin_var _) (fitsWithin_scaled _ (fitsWithin_inv _))
  | dstOver => exact fits_add (fitsWithin_var _) (fitsWithin_scaled _ (fitsWithin_inv _))
  | srcIn => exact (fitsWithin_scaled_var _ _).1
  | dstIn => exact (fitsWithin_scaled_var _ _).1
  | srcOut => exact (fitsWithin_scaled _ (fitsWithin_inv _)).1
  | dstOut => exact (fitsWithin_scaled _ (fitsWithin_inv _)).1
  | srcAtop => exact trivial
  | dstAtop => exact trivial
  | xor =>
    exact ⟨fits_add (fitsWithin_var _) (fitsWithin_var _),
      ⟨(fitsWithin_scaled_var _ _).1.1, by decide⟩,
      double_product_le (env_le .srcAlpha) (env_le .dstAlpha)⟩
  | plus => exact fits_add (fitsWithin_var _) (fitsWithin_var _)

/-! ### Colours stay below alpha -/

theorem scaled_mono {a a' : Nat} (h : a ≤ a') (b : Nat) : a * b / 256 ≤ a' * b / 256 :=
  Nat.div_le_div_right (Nat.mul_le_mul_right b h)

/-- Two parts of `a`, in the proportion of `b` to the rest of the scale, are at most `a`. -/
theorem scaled_parts_le {a b : Nat} (hb : b ≤ 255) : b * a / 256 + a * (256 - b) / 256 ≤ a := by
  have hsum : b * a + a * (256 - b) = 256 * a := by
    rw [Nat.mul_comm b a, ← Nat.mul_add, Nat.add_sub_cancel' (by omega), Nat.mul_comm]
  omega

/-- What each of two alphas leaves of the other, both truncated, is at most alpha in mode `xor`. -/
theorem scaled_xor_le {a b : Nat} (ha : a ≤ 255) (hb : b ≤ 255) :
    a * (256 - b) / 256 + b * (256 - a) / 256 ≤ a + b - a * b / 128 := by
  have hleft : a * b ≤ a * 255 := Nat.mul_le_mul_left a hb
  have hright : a * b ≤ 255 * b := Nat.mul_le_mul_right b ha
  rw [Nat.mul_sub, Nat.mul_sub, Nat.mul_comm b a]
  omega

/-- **A colour below its alpha stays there**, in every mode and truncation included. -/
theorem colour_le_alpha (mode : PorterDuffMode) (hs : s ≤ sa) (hd : d ≤ da) (s' d' : UInt8) :
    (colourExpr mode).exact (Channel.env s d sa da) ≤
      (alphaExpr mode).exact (Channel.env s' d' sa da) := by
  have hsa := Nat.le_of_lt_succ sa.toNat_lt
  have hda := Nat.le_of_lt_succ da.toNat_lt
  cases mode with
  | clear => exact Nat.le_refl 0
  | src => exact hs
  | dst => exact hd
  | srcOver => exact Nat.add_le_add hs (scaled_mono hd _)
  | dstOver => exact Nat.add_le_add hd (scaled_mono hs _)
  | srcIn => exact scaled_mono hs _
  | dstIn => exact scaled_mono hd _
  | srcOut => exact scaled_mono hs _
  | dstOut => exact scaled_mono hd _
  | srcAtop =>
    exact Nat.le_trans (Nat.add_le_add (scaled_mono hs _) (scaled_mono hd _))
      (scaled_parts_le hsa)
  | dstAtop =>
    exact Nat.le_trans (Nat.add_le_add (scaled_mono hd _) (scaled_mono hs _))
      (scaled_parts_le hda)
  | xor =>
    exact Nat.le_trans (Nat.add_le_add (scaled_mono hs _) (scaled_mono hd _))
      (scaled_xor_le hsa hda)
  | plus => exact Nat.add_le_add hs hd

end formulas

/-! ### Compositions -/

theorem clampChannel_toNat (v : UInt16) : (clampChannel v).toNat = min v.toNat 255 := by
  rw [clampChannel]
  split
  · rename_i hgt
    have hgt : 255 < v.toNat := hgt
    rw [Nat.min_eq_right (Nat.le_of_lt hgt)]
    rfl
  · rename_i hle
    have hle : v.toNat ≤ 255 := Nat.le_of_not_lt hle
    rw [UInt16.toNat_toUInt8, Nat.min_eq_left hle, Nat.mod_eq_of_lt (by omega)]

theorem compositeChannel_le {e e' : WordExpr Channel} {dst src : RgbaPixel} {s d s' d' : UInt8}
    (he : e.Fits (Channel.env s d src.alpha dst.alpha))
    (he' : e'.Fits (Channel.env s' d' src.alpha dst.alpha))
    (hle : e.exact (Channel.env s d src.alpha dst.alpha) ≤
      e'.exact (Channel.env s' d' src.alpha dst.alpha)) :
    compositeChannel e dst src s d ≤ compositeChannel e' dst src s' d' := by
  rw [UInt8.le_iff_toNat_le, compositeChannel, compositeChannel, clampChannel_toNat,
    clampChannel_toNat, WordExpr.toNat_eval he, WordExpr.toNat_eval he']
  omega

theorem RgbaPixel.Premultiplied.composite {dst src : RgbaPixel} (hdst : dst.Premultiplied)
    (hsrc : src.Premultiplied) (mode : PorterDuffMode) :
    (porterDuffCompositePixel dst src mode).Premultiplied := by
  obtain ⟨hr, hg, hb⟩ := hdst
  obtain ⟨hr', hg', hb'⟩ := hsrc
  rw [porterDuffCompositePixel_eq]
  exact ⟨compositeChannel_le (colourExpr_fits mode) (alphaExpr_fits mode)
      (colour_le_alpha mode hr' hr _ _),
    compositeChannel_le (colourExpr_fits mode) (alphaExpr_fits mode)
      (colour_le_alpha mode hg' hg _ _),
    compositeChannel_le (colourExpr_fits mode) (alphaExpr_fits mode)
      (colour_le_alpha mode hb' hb _ _)⟩

/-- No operation of one composition leaves 16 bits, in any channel. -/
structure NoWrap (dst src : RgbaPixel) (mode : PorterDuffMode) : Prop where
  red   : (colourExpr mode).Fits (Channel.env src.red dst.red src.alpha dst.alpha)
  green : (colourExpr mode).Fits (Channel.env src.green dst.green src.alpha dst.alpha)
  blue  : (colourExpr mode).Fits (Channel.env src.blue dst.blue src.alpha dst.alpha)
  alpha : (alphaExpr mode).Fits (Channel.env src.alpha dst.alpha src.alpha dst.alpha)

/-- Compositions one after the other. -/
def compositions (dst : RgbaPixel) (steps : List (RgbaPixel × PorterDuffMode)) : RgbaPixel :=
  steps.foldl (fun dst step => porterDuffCompositePixel dst step.1 step.2) dst

/-- None of them wraps. -/
def NoWraps : RgbaPixel → List (RgbaPixel × PorterDuffMode) → Prop
  | _, [] => True
  | dst, (src, mode) :: steps =>
    NoWrap dst src mode ∧ NoWraps (porterDuffCompositePixel dst src mode) steps

theorem noWraps (dst : RgbaPixel) (steps : List (RgbaPixel × PorterDuffMode)) :
    NoWraps dst steps := by
  induction steps generalizing dst with
  | nil => trivial
  | cons step steps ih =>
    exact ⟨⟨colourExpr_fits _, colourExpr_fits _, colourExpr_fits _, alphaExpr_fits _⟩, ih _⟩

/-- Under a source that is not there a channel stays. -/
theorem bare_channel (c : UInt8) :
    clampChannel ((0 : UInt8).toUInt16 + (c.toUInt16 * (256 - (0 : UInt8).toUInt16)) >>> 8) = c := by
  have key : ∀ n : Fin 256, clampChannel ((0 : UInt8).toUInt16 +
      ((UInt8.ofNat n).toUInt16 * (256 - (0 : UInt8).toUInt16)) >>> 8) = UInt8.ofNat n := by
    decide +kernel
  have h := key ⟨c.toNat, c.toNat_lt⟩
  rwa [UInt8.ofNat_toNat] at h

theorem srcOver_zero (dst : RgbaPixel) :
    porterDuffCompositePixel dst ⟨0, 0, 0, 0⟩ .srcOver = dst := by
  simp only [porterDuffCompositePixel, compositeChannels, bare_channel]

/-- **Compositions keep pixels premultiplied**, without wrap-around; in mode `srcOver` an opaque
source replaces the destination, and one that is not there leaves it alone. -/
theorem compositions_premultiplied (dst : RgbaPixel)
    (steps : List (RgbaPixel × PorterDuffMode)) (hdst : dst.Premultiplied)
    (hsteps : ∀ step ∈ steps, step.1.Premultiplied) :
    (compositions dst steps).Premultiplied ∧ NoWraps dst steps ∧
      (∀ src : RgbaPixel, src.alpha = 255 → porterDuffCompositePixel dst src .srcOver = src) ∧
      porterDuffCompositePixel dst ⟨0, 0, 0, 0⟩ .srcOver = dst := by
  refine ⟨?_, noWraps dst steps, fun src h => srcOver_opaque dst h, srcOver_zero dst⟩
  induction steps generalizing dst with
  | nil => exact hdst
  | cons step steps ih =>
    rw [List.forall_mem_cons] at hsteps
    exact ih _ (hdst.composite hsteps.1 step.2) hsteps.2

theorem compositions_premultiplied_xor :
    (compositions ⟨200, 100, 0, 255⟩
      [(⟨255, 0, 9, 255⟩, .xor), (⟨1, 1, 1, 1⟩, .dstAtop)]).Premultiplied :=
  (compositions_premultiplied _ _ (by decide +kernel) (by
    intro step hstep
    rcases List.mem_cons.mp hstep with rfl | hstep
    · decide +kernel
    · obtain rfl := List.mem_singleton.mp hstep
      decide +kernel)).1

end Kinetis.Pov
