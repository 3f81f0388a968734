import Mathlib.Data.List.Basic

/-!
# Lib — Slices

The `n` elements of a list from offset `off` on, how slices nest, a list cut into chunks of `n`
elements, the last one shorter, and a buffer filled from its start.
-/

namespace Lib

variable {α : Type*}

/-- The elements `l[off .. off + n)`, fewer where the list ends. -/
def slice (l : List α) (off n : Nat) : List α := (l.drop off).take n

/-- A buffer with `data` stored at its start. -/
def filled (buf data : List α) : List α := data ++ buf.drop data.length

@[simp] theorem filled_nil (buf : List α) : filled buf [] = buf := rfl

variable {n off i len : Nat}

theorem take_filled {buf data : List α} (h : data.length = n) :
    (filled buf data).take n = data := List.take_left' h

@[simp] theorem length_slice (l : List α) (off n : Nat) :
    (slice l off n).length = min n (l.length - off) := by
  simp [slice]

/-- A slice of a slice is a slice of the list. -/
theorem slice_slice (l : List α) (off n : Nat) {off' n' : Nat} (h : off' + n' ≤ n) :
    slice (slice l off n) off' n' = slice l (off + off') n' := by
  rw [slice, slice, slice, List.drop_take, List.drop_drop, List.take_take, Nat.min_eq_left (by omega)]

variable {l : List α}

theorem slice_eq_nil (h : l.length ≤ off) (n : Nat) : slice l off n = [] := by
  rw [slice, List.drop_of_length_le h, List.take_nil]

theorem getD_slice (h : i < n) (a : α) : (slice l off n).getD i a = l.getD (off + i) a := by
  rw [slice, List.getD_eq_getElem?_getD, List.getElem?_take_of_lt h, List.getElem?_drop,
    List.getD_eq_getElem?_getD]

theorem slice_min (l : List α) (off n : Nat) :
    slice l off (min n (l.length - off)) = slice l off n := by
  rw [slice, slice, List.take_eq_take_iff, List.length_drop, Nat.min_assoc, Nat.min_self]

theorem slice_append_left (h : off + n ≤ l.length) (l' : List α) :
    slice (l ++ l') off n = slice l off n := by
  rw [slice, slice, List.drop_append_of_le_length (by omega),
    List.take_append_of_le_length (by rw [List.length_drop]; omega)]

/-! ### Chunks -/

/-- `l` cut into chunks of `n` elements. -/
def chunks (n : Nat) (l : List α) : List (List α) :=
  (List.range ((l.length + n - 1) / n)).map fun k => slice l (k * n) n

theorem flatten_slices (n : Nat) (l : List α) (k : Nat) :
    ((List.range k).map fun i => slice l (i * n) n).flatten = l.take (k * n) := by
  induction k with
  | zero => simp
  | succ k ih =>
    rw [List.range_succ, List.map_append, List.flatten_append, ih, Nat.succ_mul, List.take_add]
    simp [slice]

/-- The first `k` chunks are a prefix of the list. -/
theorem flatten_take_chunks (n : Nat) (l : List α) {k : Nat} (hk : k ≤ (chunks n l).length) :
    ((chunks n l).take k).flatten = l.take (k * n) := by
  rw [chunks, List.length_map, List.length_range] at hk
  rw [chunks, ← List.map_take, List.take_range, Nat.min_eq_left hk, flatten_slices]

theorem length_chunks (n : Nat) (l : List α) : (chunks n l).length = (l.length + n - 1) / n := by
  simp [chunks]

theorem le_length_chunks (hn : 0 < n) (l : List α) : l.length ≤ (chunks n l).length * n := by
  have hdiv := Nat.div_add_mod (l.length + n - 1) n
  have hmod := Nat.mod_lt (l.length + n - 1) hn
  rw [length_chunks, Nat.mul_comm]
  omega

/-- The chunks make up the list. -/
theorem flatten_chunks (hn : 0 < n) (l : List α) : (chunks n l).flatten = l := by
  have h := flatten_take_chunks n l (Nat.le_refl _)
  rwa [List.take_length, List.take_of_length_le (le_length_chunks hn l)] at h

variable {f : Nat → List α}

/-- Blocks of one length can be told apart in what they make up. -/
theorem flatMap_range_inj {g : Nat → List α} (hf : ∀ i < n, (f i).length = len)
    (hg : ∀ i < n, (g i).length = len) (h : (List.range n).flatMap f = (List.range n).flatMap g) :
    ∀ i < n, f i = g i := by
  induction n with
  | zero => exact fun i hi => absurd hi (Nat.not_lt_zero i)
  | succ n ih =>
    simp only [List.range_succ, List.flatMap_append, List.flatMap_singleton] at h
    obtain ⟨hinit, hlast⟩ := List.append_inj' h
      ((hf n (Nat.lt_succ_self n)).trans (hg n (Nat.lt_succ_self n)).symm)
    intro i hi
    obtain rfl | hlt := Nat.eq_or_lt_of_le (Nat.le_of_lt_succ hi)
    · exact hlast
    · exact ih (fun i hi => hf i (Nat.lt_succ_of_lt hi)) (fun i hi => hg i (Nat.lt_succ_of_lt hi))
        hinit i hlt

theorem length_flatMap_range (hf : ∀ i < n, (f i).length = len) :
    ((List.range n).flatMap f).length = len * n := by
  induction n with
  | zero => rfl
  | succ n ih =>
    rw [List.range_succ, List.flatMap_append, List.length_append, List.flatMap_singleton,
      ih fun i hi => hf i (Nat.lt_succ_of_lt hi), hf n (Nat.lt_succ_self n), Nat.mul_succ]

/-- One of several blocks of one length. -/
theorem slice_flatMap_range (hf : ∀ i < n, (f i).length = len) (hi : i < n) :
    slice ((List.range n).flatMap f) (len * i) len = f i := by
  induction n with
  | zero => exact absurd hi (Nat.not_lt_zero i)
  | succ n ih =>
    have hinit := length_flatMap_range fun i hi => hf i (Nat.lt_succ_of_lt hi)
    rw [List.range_succ, List.flatMap_append, List.flatMap_singleton]
    obtain rfl | hlt := Nat.eq_or_lt_of_le (Nat.le_of_lt_succ hi)
    · rw [slice, ← hinit, List.drop_left,
        List.take_of_length_le (Nat.le_of_eq (hf i (Nat.lt_succ_self i)))]
    · have hroom : len * i + len ≤ len * n := by
        rw [← Nat.mul_succ]
        exact Nat.mul_le_mul_left len hlt
      rw [slice_append_left (hinit ▸ hroom), ih (fun i hi => hf i (Nat.lt_succ_of_lt hi)) hlt]

end Lib
