import Mathlib.Logic.Function.Basic
import Mathlib.Data.List.Nodup

/-!
# Lib — Scans

A directory is scanned: its items are taken one after the other, and each acts on what is stored
under its own key.  An item may report an error, which does not end the scan; reaching for the next
item may fail, which does.

* `scan_at`: with distinct keys, what is stored under a key in the end is what its item made of it.
* `scan_ok_iff`: no error is reported when no item that was reached reports one.
-/

namespace Lib

variable {α κ β ε : Type*} [DecidableEq κ]

/-- Items from number `k` on, until `stop`.  An error replaces an earlier one. -/
def scan (stop : Nat → Bool) (key : α → κ) (act : Nat → α → β → Option ε × β) :
    Nat → List α → Option ε → (κ → β) → Option ε × (κ → β)
  | _, [], e, m => (e, m)
  | k, a :: as, e, m =>
    if stop k then (e, m)
    else
      let r := act k a (m (key a))
      scan stop key act (k + 1) as (r.1.or e) (Function.update m (key a) r.2)

/-- Item `j` of a scan that starts with number `k` is reached. -/
def Reached (stop : Nat → Bool) (k j : Nat) : Prop := ∀ i ≤ j, stop (k + i) = false

instance (stop : Nat → Bool) (k j : Nat) : Decidable (Reached stop k j) :=
  inferInstanceAs (Decidable (∀ i ≤ j, stop (k + i) = false))

variable {stop : Nat → Bool} {key : α → κ} {act : Nat → α → β → Option ε × β} {k j : Nat}
  {as : List α} {a : α} {e : Option ε} {m : κ → β}

theorem reached_zero : Reached stop k 0 ↔ stop k = false := by
  refine ⟨fun h => h 0 (Nat.le_refl 0), fun h i hi => ?_⟩
  obtain rfl : i = 0 := by omega
  exact h

theorem reached_succ : Reached stop k (j + 1) ↔ stop k = false ∧ Reached stop (k + 1) j := by
  refine ⟨fun h => ⟨h 0 (Nat.zero_le _), fun i hi => ?_⟩, fun ⟨h, hs⟩ i hi => ?_⟩
  · rw [Nat.succ_add_eq_add_succ]
    exact h (i + 1) (by omega)
  · cases i with
    | zero => exact h
    | succ i =>
      rw [← Nat.succ_add_eq_add_succ]
      exact hs i (by omega)

theorem scan_stop (h : stop k = true) : scan stop key act k as e m = (e, m) := by
  cases as with
  | nil => rfl
  | cons a as => rw [scan, if_pos h]

theorem scan_cons (h : stop k = false) :
    scan stop key act k (a :: as) e m = scan stop key act (k + 1) as
      ((act k a (m (key a))).1.or e) (Function.update m (key a) (act k a (m (key a))).2) := by
  rw [scan, h]
  rfl

/-- What is stored under a key that no item has stays. -/
theorem scan_of_not_mem {x : κ} (h : x ∉ as.map key) : (scan stop key act k as e m).2 x = m x := by
  induction as generalizing k e m with
  | nil => rfl
  | cons a as ih =>
    rw [List.map_cons, List.mem_cons, not_or] at h
    cases hk : stop k with
    | true => rw [scan_stop hk]
    | false => rw [scan_cons hk, ih h.2, Function.update_of_ne h.1]

/-- **An item has its key for itself.** -/
theorem scan_at (hnodup : (as.map key).Nodup) (ha : as[j]? = some a) :
    (scan stop key act k as e m).2 (key a) =
      if Reached stop k j then (act (k + j) a (m (key a))).2 else m (key a) := by
  induction as generalizing k j e m with
  | nil => cases ha
  | cons b as ih =>
    rw [List.map_cons, List.nodup_cons] at hnodup
    cases hk : stop k with
    | true =>
      rw [scan_stop hk, if_neg]
      intro hr
      have := hr 0 (Nat.zero_le j)
      rw [Nat.add_zero, hk] at this
      cases this
    | false =>
      rw [scan_cons hk]
      cases j with
      | zero =>
        obtain rfl : b = a := Option.some.inj ha
        rw [scan_of_not_mem hnodup.1, if_pos (reached_zero.mpr hk), Function.update_self,
          Nat.add_zero]
      | succ j =>
        have hne : key a ≠ key b := by
          intro h
          exact hnodup.1 (h ▸ List.mem_map_of_mem (List.mem_of_getElem? ha))
        rw [ih hnodup.2 ha, Function.update_of_ne hne, Nat.succ_add_eq_add_succ]
        simp only [reached_succ, hk, true_and]

/-- **No error is reported** when no item that was reached reports one. -/
theorem scan_ok_iff (hnodup : (as.map key).Nodup) :
    (scan stop key act k as e m).1 = none ↔ e = none ∧ ∀ j a, as[j]? = some a →
      Reached stop k j → (act (k + j) a (m (key a))).1 = none := by
  induction as generalizing k e m with
  | nil => exact ⟨fun h => ⟨h, fun j a ha => by cases ha⟩, fun h => h.1⟩
  | cons b as ih =>
    rw [List.map_cons, List.nodup_cons] at hnodup
    cases hk : stop k with
    | true =>
      rw [scan_stop hk]
      refine ⟨fun h => ⟨h, fun j a _ hr => ?_⟩, fun h => h.1⟩
      have := hr 0 (Nat.zero_le j)
      rw [Nat.add_zero, hk] at this
      cases this
    | false =>
      -- later items do not see what the first one stored
      have hne : ∀ j a, as[j]? = some a → key a ≠ key b := fun j a ha h =>
        hnodup.1 (h ▸ List.mem_map_of_mem (List.mem_of_getElem? ha))
      rw [scan_cons hk, ih hnodup.2, Option.or_eq_none_iff, and_comm (a := _ = none), and_assoc]
      refine and_congr_right fun _ => ⟨fun ⟨hb, hall⟩ j a ha hr => ?_, fun hall => ⟨?_, ?_⟩⟩
      · cases j with
        | zero =>
          obtain rfl : b = a := Option.some.inj ha
          exact hb
        | succ j =>
          have := hall j a ha (reached_succ.mp hr).2
          rwa [Function.update_of_ne (hne j a ha), Nat.succ_add_eq_add_succ] at this
      · exact hall 0 b rfl (reached_zero.mpr hk)
      · intro j a ha hr
        rw [Function.update_of_ne (hne j a ha), Nat.succ_add_eq_add_succ]
        exact hall (j + 1) a ha (reached_succ.mpr ⟨hk, hr⟩)

end Lib
