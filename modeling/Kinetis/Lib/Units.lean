import Kinetis.Lib.Memory

/-!
# Lib — Writes split at units

A device that is written in units (the pages of a flash, the sectors of a disk) takes one write as
several, one for each unit the range meets.  `unitwise unit E` is what they leave together when a
write inside one unit leaves `E`.

* `unitwise_append`: at the start of a unit a write may be cut in two.
* `overlay_unitPart`: of a plain write, a unit sees the part in it.
-/

namespace Lib

universe u

variable {β : Type u} {mem : Nat → β} {unit addr a : Nat} {data : List β}

/-- What a write leaves, of the memory before it, the address and the data. -/
abbrev Effect (β : Type u) := (Nat → β) → Nat → List β → Nat → β

/-- A write inside a unit changes no other unit, and reads no other unit. -/
structure LocalTo (unit : Nat) (E : Effect β) : Prop where
  outside : ∀ {mem addr data a}, addr % unit + data.length ≤ unit → a / unit ≠ addr / unit →
    E mem addr data a = mem a
  inside : ∀ {mem mem' addr data a}, addr % unit + data.length ≤ unit → a / unit = addr / unit →
    (∀ b, b / unit = addr / unit → mem b = mem' b) → E mem addr data a = E mem' addr data a

/-- Where the part of a range that is in the unit of `a` starts, and where it ends. -/
def unitStart (unit addr a : Nat) : Nat := max addr (a / unit * unit)
def unitEnd (unit addr n a : Nat) : Nat := min (addr + n) (a / unit * unit + unit)

/-- The data of that part. -/
def unitPart (unit addr : Nat) (data : List β) (a : Nat) : List β :=
  slice data (unitStart unit addr a - addr)
    (unitEnd unit addr data.length a - unitStart unit addr a)

/-- Every unit the range meets written for itself. -/
def unitwise (unit : Nat) (E : Effect β) : Effect β := fun mem addr data a =>
  if unitStart unit addr a < unitEnd unit addr data.length a then
    E mem (unitStart unit addr a) (unitPart unit addr data a) a
  else mem a

/-! ### The part in a unit -/

theorem unit_mem (hunit : 0 < unit) (a : Nat) : a / unit * unit ≤ a ∧ a < a / unit * unit + unit := by
  have hmod := Nat.mod_lt a hunit
  have hdm := Nat.div_add_mod' a unit
  omega

theorem div_eq_of_mem_unit {b : Nat} (hle : a / unit * unit ≤ b) (hlt : b < a / unit * unit + unit) :
    b / unit = a / unit :=
  Nat.div_eq_of_lt_le hle (by rw [Nat.add_one_mul]; exact hlt)

theorem length_unitPart (h : unitStart unit addr a < unitEnd unit addr data.length a) :
    (unitPart unit addr data a).length =
      unitEnd unit addr data.length a - unitStart unit addr a := by
  rw [unitPart, length_slice]
  simp only [unitStart, unitEnd] at *
  omega

theorem div_unitStart (h : unitStart unit addr a < unitEnd unit addr data.length a) :
    unitStart unit addr a / unit = a / unit := by
  simp only [unitStart, unitEnd] at *
  exact div_eq_of_mem_unit (by omega) (by omega)

/-- The part stays inside the unit. -/
theorem unitPart_fits (h : unitStart unit addr a < unitEnd unit addr data.length a) :
    unitStart unit addr a % unit + (unitPart unit addr data a).length ≤ unit := by
  have hdm := Nat.div_add_mod' (unitStart unit addr a) unit
  rw [div_unitStart h] at hdm
  rw [length_unitPart h]
  simp only [unitEnd] at *
  omega

/-- A range inside a unit is the part itself. -/
theorem unitStart_of_fits (hfit : addr % unit + data.length ≤ unit)
    (hin : a / unit = addr / unit) :
    unitStart unit addr a = addr ∧ unitEnd unit addr data.length a = addr + data.length := by
  have hdm := Nat.div_add_mod' addr unit
  rw [unitStart, unitEnd, hin]
  omega

theorem unitPart_of_fits (hfit : addr % unit + data.length ≤ unit)
    (hin : a / unit = addr / unit) : unitPart unit addr data a = data := by
  obtain ⟨hstart, hend⟩ := unitStart_of_fits hfit hin
  rw [unitPart, hstart, hend, Nat.sub_self, Nat.add_sub_cancel_left, slice, List.drop_zero,
    List.take_length]

/-! ### The write as a whole -/

theorem unitwise_nil (E : Effect β) : unitwise unit E mem addr [] = mem := by
  funext a
  rw [unitwise, if_neg]
  rw [unitStart, unitEnd, List.length_nil]
  omega

/-- A write inside one unit is not split. -/
theorem unitwise_of_fits {E : Effect β} (hE : LocalTo unit E) (hunit : 0 < unit)
    (hfit : addr % unit + data.length ≤ unit) (hpos : 0 < data.length) :
    unitwise unit E mem addr data = E mem addr data := by
  funext a
  rw [unitwise]
  by_cases hin : a / unit = addr / unit
  · obtain ⟨hstart, hend⟩ := unitStart_of_fits hfit hin
    rw [unitPart_of_fits hfit hin, hstart, if_pos (by omega)]
  · rw [hE.outside hfit hin, if_neg]
    -- the range has no byte in another unit
    intro hmeet
    have ha := div_unitStart hmeet
    have hdm := Nat.div_add_mod' addr unit
    simp only [unitStart, unitEnd] at *
    have haddr : max addr (a / unit * unit) / unit = addr / unit :=
      Nat.div_eq_of_lt_le (by omega) (by rw [Nat.add_one_mul]; omega)
    exact hin (ha.symm.trans haddr)

/-- **A cut at the start of a unit**: what is before it is written, and then the rest. -/
theorem unitwise_append {E : Effect β} (hE : LocalTo unit E) (hunit : 0 < unit) (d₁ d₂ : List β)
    (hcut : (addr + d₁.length) % unit = 0) :
    unitwise unit E (unitwise unit E mem addr d₁) (addr + d₁.length) d₂ =
      unitwise unit E mem addr (d₁ ++ d₂) := by
  have hmul := Nat.div_add_mod' (addr + d₁.length) unit
  rw [hcut] at hmul
  -- past the cut the first write leaves the unit as it was
  have hskip : ∀ b, addr + d₁.length ≤ b / unit * unit →
      unitwise unit E mem addr d₁ b = mem b := by
    intro b hb
    rw [unitwise, if_neg]
    rw [unitStart, unitEnd]
    omega
  funext a
  rcases Nat.lt_or_ge (a / unit) ((addr + d₁.length) / unit) with hlt | hge
  · -- a unit before the cut
    have hle : a / unit * unit + unit ≤ addr + d₁.length := by
      rw [← hmul, ← Nat.add_one_mul]
      exact Nat.mul_le_mul_right unit hlt
    have hend : unitEnd unit addr (d₁ ++ d₂).length a = unitEnd unit addr d₁.length a := by
      rw [unitEnd, unitEnd, List.length_append]
      omega
    have hpart : unitPart unit addr (d₁ ++ d₂) a = unitPart unit addr d₁ a := by
      rw [unitPart, unitPart, hend]
      by_cases h : unitStart unit addr a < unitEnd unit addr d₁.length a
      · refine slice_append_left ?_ d₂
        simp only [unitStart, unitEnd] at *
        omega
      · rw [Nat.sub_eq_zero_of_le (Nat.le_of_not_lt h), slice, slice, List.take_zero, List.take_zero]
    rw [unitwise, if_neg (by rw [unitStart, unitEnd]; omega), unitwise, unitwise, hend, hpart]
  · -- a unit after it
    have hle : addr + d₁.length ≤ a / unit * unit := by
      rw [← hmul]
      exact Nat.mul_le_mul_right unit hge
    have hstart : unitStart unit (addr + d₁.length) a = unitStart unit addr a := by
      rw [unitStart, unitStart]
      omega
    have hend : unitEnd unit (addr + d₁.length) d₂.length a =
        unitEnd unit addr (d₁ ++ d₂).length a := by
      rw [unitEnd, unitEnd, List.length_append, Nat.add_assoc]
    have hpart : unitPart unit (addr + d₁.length) d₂ a = unitPart unit addr (d₁ ++ d₂) a := by
      have hoff : unitStart unit addr a - addr =
          d₁.length + (unitStart unit addr a - (addr + d₁.length)) := by
        rw [unitStart]
        omega
      rw [unitPart, unitPart, hstart, hend, hoff, slice, slice, ← List.drop_drop, List.drop_left]
    rw [unitwise, hstart, hend, hpart]
    conv_rhs => rw [unitwise]
    split
    · rename_i hmeet
      have hdiv := div_unitStart hmeet
      refine hE.inside (unitPart_fits hmeet) hdiv.symm fun b hb => hskip b ?_
      rw [hb, hdiv]
      exact hle
    · exact hskip a hle

/-- In the unit of `a`, the write of the part there is the write. -/
theorem overlay_unitPart (hunit : 0 < unit) (mem : Nat → β) :
    overlay mem (unitStart unit addr a) (unitPart unit addr data a) a = overlay mem addr data a := by
  have hmem := unit_mem hunit a
  rcases Nat.lt_or_ge a addr with hlt | hge
  · rw [overlay_of_lt hlt, overlay_of_lt (by rw [unitStart]; omega)]
  · have hidx : ∀ i, i + unitStart unit addr a = a → unitStart unit addr a - addr + i = a - addr := by
      intro i hi
      rw [unitStart] at *
      omega
    have hle : unitStart unit addr a ≤ a := by rw [unitStart]; omega
    rw [overlay, overlay, if_pos hle, if_pos hge, unitPart, slice]
    by_cases hin : a < addr + data.length
    · have hlt : a - unitStart unit addr a <
          unitEnd unit addr data.length a - unitStart unit addr a := by
        rw [unitEnd]
        omega
      rw [List.getElem?_take_of_lt hlt, List.getElem?_drop, hidx _ (by omega)]
    · rw [List.getElem?_eq_none (show data.length ≤ a - addr by omega), List.getElem?_eq_none]
      rw [List.length_take, List.length_drop]
      omega

/-- A byte of a unit the range does not meet is not written. -/
theorem overlay_of_not_meet (hunit : 0 < unit)
    (h : ¬ unitStart unit addr a < unitEnd unit addr data.length a) :
    overlay mem addr data a = mem a := by
  have hmem := unit_mem hunit a
  rw [unitStart, unitEnd] at h
  exact overlay_of_notMem (by omega)

end Lib
