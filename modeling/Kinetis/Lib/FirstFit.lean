import Mathlib.Order.Bounds.Basic
import Mathlib.Algebra.Order.Group.Nat
import Mathlib.Tactic.Ring

/-!
# Lib — First fit

First-fit placement in a line of occupied spans, over exact arithmetic.

* `alignUp lo al` is the least multiple of `al` at or above `lo`.
* `Packed lo hi bs`: the spans `bs` lie in `[lo, hi)`, in increasing order and disjoint.
* `Fits al sz lo hi bs a`: `a` is a multiple of `al`, and `[a, a + sz)` lies in `[lo, hi)` and
  meets no span of `bs`.
* `firstFit` scans the gaps of `bs` from the left and takes the first that holds an aligned
  block.  It answers with the least address that fits, and with nothing exactly when none does
  (`firstFit_eq_some_iff`, `firstFit_eq_none_iff`).
-/

namespace Lib

/-! ### Rounding up -/

/-- The least multiple of `al` at or above `lo`. -/
def alignUp (lo al : Nat) : Nat := (lo + al - 1) / al * al

section AlignUp

variable {lo al a : Nat}

theorem dvd_alignUp (lo al : Nat) : al ∣ alignUp lo al := Nat.dvd_mul_left _ _

theorem alignUp_eq (h : 0 < al) : alignUp lo al = lo + al - 1 - (lo + al - 1) % al := by
  have := Nat.div_add_mod (lo + al - 1) al
  rw [alignUp, Nat.mul_comm]; omega

theorem le_alignUp (h : 0 < al) : lo ≤ alignUp lo al := by
  have := Nat.mod_lt (lo + al - 1) h
  rw [alignUp_eq h]; omega

theorem alignUp_lt (h : 0 < al) : alignUp lo al < lo + al := by
  rw [alignUp_eq h]; omega

theorem alignUp_one (lo : Nat) : alignUp lo 1 = lo := by
  rw [alignUp, Nat.div_one, Nat.mul_one, Nat.add_sub_cancel]

/-- No multiple of `al` lies between `lo` and `alignUp lo al`. -/
theorem alignUp_le (h : 0 < al) (hd : al ∣ a) (hle : lo ≤ a) : alignUp lo al ≤ a := by
  obtain ⟨k, rfl⟩ := hd
  obtain ⟨m, hm⟩ := dvd_alignUp lo al
  have hlt : alignUp lo al < lo + al := alignUp_lt h
  rw [hm] at hlt ⊢
  refine Nat.mul_le_mul_left al ?_
  by_contra hk
  have : al * (k + 1) ≤ al * m := Nat.mul_le_mul_left al (by omega)
  rw [Nat.mul_add] at this
  omega

end AlignUp

/-! ### Lines of spans -/

/-- The half-open span `[start, start + len)`. -/
structure Span where
  start : Nat
  len   : Nat
  deriving DecidableEq, Repr

def Span.stop (b : Span) : Nat := b.start + b.len

/-- The spans lie in `[lo, hi)`, in increasing order and disjoint. -/
def Packed (hi : Nat) : Nat → List Span → Prop
  | lo, [] => lo ≤ hi
  | lo, b :: bs => lo ≤ b.start ∧ Packed hi b.stop bs

theorem Packed.le {hi : Nat} : ∀ {lo : Nat} {bs : List Span}, Packed hi lo bs → lo ≤ hi
  | _, [], h => h
  | _, b :: _, h => h.1.trans ((Nat.le_add_right b.start b.len).trans h.2.le)

/-- A line of spans ordered by a pairwise relation is packed in any interval holding them. -/
theorem packed_of_pairwise {hi : Nat} :
    ∀ {lo : Nat} {bs : List Span}, bs.Pairwise (fun a b => a.stop ≤ b.start) → lo ≤ hi →
      (∀ b ∈ bs, lo ≤ b.start ∧ b.stop ≤ hi) → Packed hi lo bs
  | _, [], _, h, _ => h
  | _, b :: bs, hp, _, hb => by
    obtain ⟨hlo, hhi⟩ := hb b (by simp)
    obtain ⟨hall, hp⟩ := List.pairwise_cons.mp hp
    exact ⟨hlo, packed_of_pairwise hp hhi fun c hc =>
      ⟨hall c hc, (hb c (List.mem_cons_of_mem b hc)).2⟩⟩

/-- The lengths of a packed line add up to no more than the interval. -/
theorem Packed.sum_len_le {hi : Nat} :
    ∀ {lo : Nat} {bs : List Span}, Packed hi lo bs → lo + (bs.map Span.len).sum ≤ hi
  | _, [], h => h
  | _, b :: bs, h => by
    have := h.2.sum_len_le
    have := h.1
    simp only [Span.stop, List.map_cons, List.sum_cons] at *
    omega

/-! ### Placement -/

/-- `[a, a + sz)` is aligned, lies in `[lo, hi)` and meets no span of `bs`. -/
def Fits (al sz lo hi : Nat) (bs : List Span) (a : Nat) : Prop :=
  al ∣ a ∧ lo ≤ a ∧ a + sz ≤ hi ∧ ∀ b ∈ bs, a + sz ≤ b.start ∨ b.stop ≤ a

/-- The leftmost aligned block of the leftmost gap that holds one. -/
def firstFit (al sz hi : Nat) : Nat → List Span → Option Nat
  | lo, [] => if alignUp lo al + sz ≤ hi then some (alignUp lo al) else none
  | lo, b :: bs =>
    if alignUp lo al + sz ≤ b.start then some (alignUp lo al) else firstFit al sz hi b.stop bs

section Spec

variable {al sz hi : Nat}

theorem Packed.stop_le_of_mem {b : Span} :
    ∀ {lo : Nat} {bs : List Span}, Packed hi lo bs → b ∈ bs → lo ≤ b.start ∧ b.stop ≤ hi
  | _, c :: cs, h, hb => by
    rcases List.mem_cons.mp hb with rfl | hb
    · exact ⟨h.1, h.2.le⟩
    · obtain ⟨h₁, h₂⟩ := h.2.stop_le_of_mem hb
      exact ⟨h.1.trans ((Nat.le_add_right c.start c.len).trans h₁), h₂⟩

variable {b : Span} {bs : List Span}

/-- Past the first span of a line, fitting is fitting in the rest. -/
theorem fits_cons_iff {lo : Nat} {a : Nat} (hp : Packed hi lo (b :: bs)) (hb : ¬ a + sz ≤ b.start) :
    Fits al sz lo hi (b :: bs) a ↔ Fits al sz b.stop hi bs a := by
  have hlo : lo ≤ b.stop := hp.1.trans (Nat.le_add_right b.start b.len)
  constructor
  · rintro ⟨hd, -, hhi, hall⟩
    exact ⟨hd, (hall b (by simp)).resolve_left hb, hhi,
      fun c hc => hall c (List.mem_cons_of_mem b hc)⟩
  · rintro ⟨hd, hge, hhi, hall⟩
    refine ⟨hd, hlo.trans hge, hhi, fun c hc => ?_⟩
    rcases List.mem_cons.mp hc with rfl | hc
    · exact .inr hge
    · exact hall c hc

/-- A block left of the first span of a packed line is clear of every span. -/
theorem fits_of_le_head {lo : Nat} {a : Nat} (hp : Packed hi lo (b :: bs)) (hd : al ∣ a)
    (hlo : lo ≤ a) (hb : a + sz ≤ b.start) : Fits al sz lo hi (b :: bs) a := by
  have hbs : b.start ≤ b.stop := Nat.le_add_right b.start b.len
  refine ⟨hd, hlo, hb.trans (hbs.trans hp.2.le), fun c hc => .inl ?_⟩
  rcases List.mem_cons.mp hc with rfl | hc
  · exact hb
  · exact hb.trans (hbs.trans (hp.2.stop_le_of_mem hc).1)

/-- **First fit is least fit.** -/
theorem isLeast_of_firstFit (hal : 0 < al) :
    ∀ {lo : Nat} {bs : List Span} {a : Nat}, Packed hi lo bs → firstFit al sz hi lo bs = some a →
      IsLeast {x | Fits al sz lo hi bs x} a
  | lo, [], a, _, h => by
    simp only [firstFit] at h
    split at h
    · next hfit =>
        obtain rfl := Option.some.inj h
        refine ⟨⟨dvd_alignUp lo al, le_alignUp hal, hfit, by simp⟩, fun x hx => ?_⟩
        exact alignUp_le hal hx.1 hx.2.1
    · cases h
  | lo, b :: bs, a, hp, h => by
    simp only [firstFit] at h
    split at h
    · next hfit =>
        obtain rfl := Option.some.inj h
        exact ⟨fits_of_le_head hp (dvd_alignUp lo al) (le_alignUp hal) hfit,
          fun x hx => alignUp_le hal hx.1 hx.2.1⟩
    · next hno =>
        -- nothing fits before `b`: an aligned block there would start at or above `alignUp lo`
        have hno' : ∀ x, al ∣ x → lo ≤ x → ¬ x + sz ≤ b.start := fun x hd hx hle =>
          hno ((Nat.add_le_add_right (alignUp_le hal hd hx) sz).trans hle)
        obtain ⟨hmem, hleast⟩ := isLeast_of_firstFit hal hp.2 h
        have hlo : lo ≤ a := hp.1.trans ((Nat.le_add_right b.start b.len).trans hmem.2.1)
        exact ⟨(fits_cons_iff hp (hno' a hmem.1 hlo)).mpr hmem, fun x hx =>
          hleast ((fits_cons_iff hp (hno' x hx.1 hx.2.1)).mp hx)⟩

/-- **First fit is complete**: it gives up only when no address fits. -/
theorem not_fits_of_firstFit (hal : 0 < al) :
    ∀ {lo : Nat} {bs : List Span}, Packed hi lo bs → firstFit al sz hi lo bs = none →
      ∀ a, ¬ Fits al sz lo hi bs a
  | lo, [], _, h, a, hf => by
    simp only [firstFit, ite_eq_right_iff, reduceCtorEq, imp_false] at h
    exact h ((Nat.add_le_add_right (alignUp_le hal hf.1 hf.2.1) sz).trans hf.2.2.1)
  | lo, b :: bs, hp, h, a, hf => by
    simp only [firstFit] at h
    split at h
    · cases h
    · next hno =>
        have hno' : ¬ a + sz ≤ b.start := fun hle =>
          hno ((Nat.add_le_add_right (alignUp_le hal hf.1 hf.2.1) sz).trans hle)
        exact not_fits_of_firstFit hal hp.2 h a ((fits_cons_iff hp hno').mp hf)

theorem firstFit_eq_some_iff (hal : 0 < al) {lo : Nat} {a : Nat} (hp : Packed hi lo bs) :
    firstFit al sz hi lo bs = some a ↔ IsLeast {x | Fits al sz lo hi bs x} a := by
  refine ⟨isLeast_of_firstFit hal hp, fun h => ?_⟩
  cases hf : firstFit al sz hi lo bs with
  | none => exact absurd h.1 (not_fits_of_firstFit hal hp hf a)
  | some x => rw [(isLeast_of_firstFit hal hp hf).unique h]

theorem firstFit_eq_none_iff (hal : 0 < al) {lo : Nat} (hp : Packed hi lo bs) :
    firstFit al sz hi lo bs = none ↔ ∀ a, ¬ Fits al sz lo hi bs a := by
  refine ⟨not_fits_of_firstFit hal hp, fun h => ?_⟩
  cases hf : firstFit al sz hi lo bs with
  | none => rfl
  | some x => exact absurd (isLeast_of_firstFit hal hp hf).1 (h x)

end Spec

/-! ### The widest gap -/

/-- The length of the widest gap of a line. -/
def widestGap (hi : Nat) : Nat → List Span → Nat
  | lo, [] => hi - lo
  | lo, b :: bs => max (b.start - lo) (widestGap hi b.stop bs)

/-- The widest gap and the spans fit in the interval together, and a line without a gap fills it. -/
theorem Packed.widestGap_add_sum_le {hi : Nat} :
    ∀ {lo : Nat} {bs : List Span}, Packed hi lo bs →
      lo + widestGap hi lo bs + (bs.map Span.len).sum ≤ hi ∧
        (widestGap hi lo bs = 0 → lo + (bs.map Span.len).sum = hi)
  | lo, [], hp => by
    have hle : lo ≤ hi := hp
    simp only [widestGap, List.map_nil, List.sum_nil]
    omega
  | lo, b :: bs, hp => by
    have ih := hp.2.widestGap_add_sum_le
    have hlo := hp.1
    simp only [widestGap, Span.stop, List.map_cons, List.sum_cons] at *
    omega

/-- **The widest gap** is the longest block that fits somewhere. -/
theorem le_widestGap_iff {hi n : Nat} :
    ∀ {lo : Nat} {bs : List Span}, Packed hi lo bs →
      (n ≤ widestGap hi lo bs ↔ ∃ a, Fits 1 n lo hi bs a)
  | lo, [], hp => by
    have hle : lo ≤ hi := hp
    rw [widestGap]
    constructor
    · intro hn
      exact ⟨lo, Nat.one_dvd lo, le_rfl, by omega, fun b hb => absurd hb List.not_mem_nil⟩
    · rintro ⟨a, -, hlo, hhi, -⟩
      omega
  | lo, b :: bs, hp => by
    rw [widestGap, le_max_iff, le_widestGap_iff hp.2]
    have hlo := hp.1
    constructor
    · rintro (hn | ⟨a, hfit⟩)
      · exact ⟨lo, fits_of_le_head hp (Nat.one_dvd lo) le_rfl (by omega)⟩
      · by_cases hb : a + n ≤ b.start
        · -- only an empty block fits both before and behind `b`
          have := hfit.2.1
          simp only [Span.stop] at this
          exact ⟨a, fits_of_le_head hp hfit.1 (by omega) hb⟩
        · exact ⟨a, (fits_cons_iff hp hb).mpr hfit⟩
    · rintro ⟨a, hfit⟩
      by_cases hb : a + n ≤ b.start
      · have := hfit.2.1
        exact .inl (by omega)
      · exact .inr ⟨a, (fits_cons_iff hp hb).mp hfit⟩

end Lib
