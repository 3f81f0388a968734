import Kinetis.Hydrology.Codec

/-!
# Hydrology — the commands that go over the elements

What the device does with a downlink it has parsed: `hydrology_execute_command`, and
`hydrology_response_downstream` in modes M3 and M4.  Five of the functions behind these go over the
elements of the request with an 8-bit index, against a 16-bit count.

* `Sweep` is the state of such a loop, with the indices it has visited.
* `sweep_orderly`: up to 255 elements are visited in order, each once; a loop that looks at what the
  store answers stops at the first element it fails for.
* `sweep_never_ends`: 256 elements are never gone over.
-/

namespace Kinetis.Hydrology
open Lib

/-! ### Loops over the elements -/

/-- `for (i = 0; i < down_body->count; i++)` with an 8-bit `i`: the indices visited, and the error
that ended the loop. -/
structure Sweep where
  i       : UInt8
  visited : List Nat
  stopped : Option Errno

namespace Sweep

def start : Sweep := ⟨0, [], none⟩

def going (count : Nat) (s : Sweep) : Bool := s.stopped = none && s.i.toNat < count

/-- One round.  `visit k i` is what the `k`-th round, for the element `i`, ends the loop with. -/
def step (visit : Nat → Nat → Option Errno) (s : Sweep) : Sweep :=
  match visit s.visited.length s.i.toNat with
  | none => ⟨s.i + 1, s.visited ++ [s.i.toNat], none⟩
  | some e => ⟨s.i, s.visited ++ [s.i.toNat], some e⟩

end Sweep

/-- What the heap and the element store answer to a command, round by round. -/
structure Answers where
  heap     : Heap
  /-- `hydrology_read_specified_element_info`. -/
  readInfo : Nat → Nat → Option Errno
  /-- `fatfs_write_store_info`. -/
  write    : Nat → Nat → Option Errno

/-- A table of `count` entries is allocated, and filled by a loop; `none` when the loop has not
ended after `fuel` rounds.  The sweeps that were made, and the result. -/
def elementLoop (a : Answers) (visit : Nat → Nat → Option Errno) (fuel count : Nat) :
    Option (List Sweep × Option Errno) :=
  if count ≠ 0 ∧ kmalloc a.heap .packet (8 * count) = false then some ([], some .enomem)
  else
    let s := iterWhile (Sweep.going count) (Sweep.step visit) fuel .start
    if s.going count then none else some ([s], s.stopped)

/-- A round that reads an entry and writes the element's value. -/
def Answers.store (a : Answers) (k i : Nat) : Option Errno :=
  match a.readInfo k i with
  | some e => some e
  | none => a.write k i

/-- `hydrology_send_specified_element`: what the store answers is not looked at. -/
def hydrologySendSpecifiedElement (a : Answers) : Nat → Nat → Option (List Sweep × Option Errno) :=
  elementLoop a fun _ _ => none

/-- `hydrology_basic_info_config`. -/
def hydrologyBasicInfoConfig (a : Answers) : Nat → Nat → Option (List Sweep × Option Errno) :=
  elementLoop a a.store

/-- `hydrology_basic_info_read`. -/
def hydrologyBasicInfoRead (a : Answers) : Nat → Nat → Option (List Sweep × Option Errno) :=
  elementLoop a a.readInfo

/-- `hydrology_set_parameter`. -/
def hydrologySetParameter (a : Answers) : Nat → Nat → Option (List Sweep × Option Errno) :=
  elementLoop a a.store

/-- `hydrology_read_parameter`. -/
def hydrologyReadParameter (a : Answers) : Nat → Nat → Option (List Sweep × Option Errno) :=
  elementLoop a a.readInfo

/-! ### Commands -/

/-- `hydrology_execute_command`, as far as it goes over the elements. -/
def hydrologyExecuteCommand (a : Answers) (fuel count : Nat) :
    BodyType → Option (List Sweep × Option Errno)
  | .configWrite => hydrologyBasicInfoConfig a fuel count
  | .paraWrite => hydrologySetParameter a fuel count
  | _ => some ([], none)

/-- `hydrology_response_downstream`, as far as it goes over the elements. -/
def hydrologyResponseDownstream (a : Answers) (fuel count : Nat) :
    BodyType → Option (List Sweep × Option Errno)
  | .specifiedElement => hydrologySendSpecifiedElement a fuel count
  | .configWrite | .configRead => hydrologyBasicInfoRead a fuel count
  | .paraWrite | .paraRead => hydrologyReadParameter a fuel count
  | _ => some ([], none)

/-- What `hydrology_device_process_receieve` does once the body was made: every sweep over the
elements, when all of them have ended after `fuel` rounds. -/
def processCommand (execute respond : Answers) (fuel : Nat) (mode : Mode) (funcode : BodyType)
    (count : Nat) : Option (List Sweep) :=
  match hydrologyExecuteCommand execute fuel count funcode with
  | none => none
  | some (done, some _) => some done
  | some (done, none) =>
    match mode with
    | .m1 | .m2 => some done
    | .m3 | .m4 =>
      (hydrologyResponseDownstream respond fuel count funcode).map fun r => done ++ r.1

/-- `hydrology_device_process_receieve`: the sweeps over the elements of the request. -/
def deviceProcessReceieve (inp : Input) (heap : Heap) (execute respond : Answers) (fuel : Nat)
    (mode : Mode) : Option (List Sweep) :=
  let r := deviceParse inp heap
  match r.2.error, BodyType.ofCode r.1.funcode with
  | none, some funcode =>
    processCommand execute respond fuel mode funcode r.2.body.elements.length
  | _, _ => some []

/-! ### Sweeps -/

/-- The first elements, each once and in order: all of them, or up to the one the loop stopped
at. -/
def Sweep.Orderly (count : Nat) (visit : Nat → Nat → Option Errno) (s : Sweep) : Prop :=
  (s.stopped = none ∧ s.visited = List.range count) ∨
    ∃ k e, k < count ∧ (∀ j < k, visit j j = none) ∧ visit k k = some e ∧ s.stopped = some e ∧
      s.visited = List.range (k + 1)

section Sweeps

variable {count : Nat} {visit : Nat → Nat → Option Errno}

/-- **Up to 255 elements are visited in order.** -/
theorem sweep_orderly (visit : Nat → Nat → Option Errno) (hcount : count ≤ 255) {fuel : Nat}
    (hfuel : count ≤ fuel) :
    (iterWhile (Sweep.going count) (Sweep.step visit) fuel .start).going count = false ∧
      (iterWhile (Sweep.going count) (Sweep.step visit) fuel .start).Orderly count visit := by
  -- by induction on the rounds left, from the state with the first `k` elements visited
  have key : ∀ fuel k, k ≤ count → count ≤ k + fuel → (∀ j < k, visit j j = none) →
      (iterWhile (Sweep.going count) (Sweep.step visit) fuel
        ⟨UInt8.ofNat k, List.range k, none⟩).going count = false ∧
      (iterWhile (Sweep.going count) (Sweep.step visit) fuel
        ⟨UInt8.ofNat k, List.range k, none⟩).Orderly count visit := by
    intro fuel
    induction fuel with
    | zero =>
      intro k hk hle _
      obtain rfl : k = count := by omega
      refine ⟨?_, .inl ⟨rfl, rfl⟩⟩
      simp only [iterWhile, Sweep.going, UInt8.toNat_ofNat']
      simp
      omega
    | succ fuel ih =>
      intro k hk hle hnone
      have hmod : (UInt8.ofNat k).toNat = k := by
        rw [UInt8.toNat_ofNat']
        omega
      obtain rfl | hlt := hk.eq_or_lt
      · have hend : Sweep.going k ⟨UInt8.ofNat k, List.range k, none⟩ = false := by
          simp [Sweep.going, hmod]
        rw [iterWhile_of_not hend]
        exact ⟨hend, .inl ⟨rfl, rfl⟩⟩
      · have hgo : Sweep.going count ⟨UInt8.ofNat k, List.range k, none⟩ = true := by
          simp [Sweep.going, hmod, hlt]
        rw [iterWhile_succ hgo, Sweep.step]
        simp only [List.length_range, hmod, ← List.range_succ]
        cases hv : visit k k with
        | none =>
          have hnext : UInt8.ofNat k + 1 = UInt8.ofNat (k + 1) := by
            rw [UInt8.ofNat_add]
            rfl
          rw [hnext]
          refine ih (k + 1) hlt (by omega) fun j hj => ?_
          obtain hj | rfl := Nat.lt_succ_iff_lt_or_eq.mp hj
          · exact hnone j hj
          · exact hv
        | some e =>
          have hend : Sweep.going count ⟨UInt8.ofNat k, List.range (k + 1), some e⟩ = false := rfl
          rw [iterWhile_of_not hend]
          exact ⟨hend, .inr ⟨k, e, hlt, hnone, hv, rfl, rfl⟩⟩
  exact key fuel 0 (Nat.zero_le _) (by omega) (fun j hj => absurd hj (Nat.not_lt_zero j))

/-- **From 256 elements on**, the index never reaches the count: a loop that nothing stops goes on
forever. -/
theorem sweep_never_ends (hcount : 256 ≤ count) (hvisit : ∀ k i, visit k i = none) :
    ¬ Terminates (Sweep.going count) (Sweep.step visit) .start := by
  refine not_terminates (P := fun s => s.stopped = none) (fun s _ => ?_) (fun s hs => ?_) rfl
  · rw [Sweep.step, hvisit]
  · have := s.i.toNat_lt
    simp only [Sweep.going, hs, decide_true, Bool.true_and, decide_eq_true_eq]
    omega

/-- A loop over up to 255 elements ends, and every sweep it made is orderly. -/
theorem elementLoop_orderly (a : Answers) (visit : Nat → Nat → Option Errno) (hcount : count ≤ 255)
    {fuel : Nat} (hfuel : count ≤ fuel) :
    ∃ r, elementLoop a visit fuel count = some r ∧ ∀ s ∈ r.1, s.Orderly count visit := by
  rw [elementLoop]
  split
  · exact ⟨_, rfl, fun s hs => nomatch hs⟩
  · obtain ⟨hend, horderly⟩ := sweep_orderly visit hcount hfuel
    simp only [hend]
    exact ⟨_, rfl, List.forall_mem_singleton.mpr horderly⟩

end Sweeps

/-! ### A request, parsed and executed -/

theorem countElements_ends (inp : Input) (c : Cursor) : (countElements inp c).going = false := by
  refine iterWhile_ends (P := fun _ => True) (fun w => w.len.toNat) (fun w _ hgo => ⟨trivial, ?_⟩)
    trivial le_rfl
  rw [Walk.going, decide_eq_true_eq] at hgo
  simp only [Walk.step]
  omega

theorem countGuides_ends (c : Cursor) : (countGuides c).going = false := by
  refine iterWhile_ends (P := fun _ => True) (fun w => w.len.toNat) (fun w _ hgo => ⟨trivial, ?_⟩)
    trivial le_rfl
  rw [Walk.going, decide_eq_true_eq] at hgo
  simp only
  omega

theorem execute_orderly (a : Answers) (funcode : BodyType) {fuel count : Nat} (hcount : count ≤ 255)
    (hfuel : count ≤ fuel) : ∃ r, hydrologyExecuteCommand a fuel count funcode = some r ∧
      ∀ s ∈ r.1, s.Orderly count a.store := by
  cases funcode with
  | configWrite | paraWrite => exact elementLoop_orderly a a.store hcount hfuel
  | _ => exact ⟨_, rfl, fun s hs => nomatch hs⟩

theorem respond_orderly (a : Answers) (funcode : BodyType) {fuel count : Nat} (hcount : count ≤ 255)
    (hfuel : count ≤ fuel) : ∃ r, hydrologyResponseDownstream a fuel count funcode = some r ∧
      ∀ s ∈ r.1, s.Orderly count a.readInfo ∨ s.Orderly count fun _ _ => none := by
  cases funcode with
  | specifiedElement =>
    obtain ⟨r, hr, hs⟩ := elementLoop_orderly a (fun _ _ => none) hcount hfuel
    exact ⟨r, hr, fun s h => .inr (hs s h)⟩
  | configWrite | configRead | paraWrite | paraRead =>
    obtain ⟨r, hr, hs⟩ := elementLoop_orderly a a.readInfo hcount hfuel
    exact ⟨r, hr, fun s h => .inl (hs s h)⟩
  | _ => exact ⟨_, rfl, fun s hs => nomatch hs⟩

/-- A command on up to 255 elements ends. -/
theorem processCommand_orderly (execute respond : Answers) (mode : Mode) (funcode : BodyType)
    {count : Nat} (hcount : count ≤ 255) :
    ∃ sweeps, processCommand execute respond count mode funcode count = some sweeps ∧
      ∀ s ∈ sweeps, ∃ visit ∈ [execute.store, respond.readInfo, fun _ _ => none],
        s.Orderly count visit := by
  obtain ⟨⟨done, err⟩, hexec, hdone⟩ := execute_orderly execute funcode hcount le_rfl
  obtain ⟨r, hresp, hr⟩ := respond_orderly respond funcode hcount le_rfl
  have hfirst : ∀ s ∈ done, ∃ visit ∈ [execute.store, respond.readInfo, fun _ _ => none],
      s.Orderly count visit := fun s hs => ⟨_, .head _, hdone s hs⟩
  have hboth : ∀ s ∈ done ++ r.1, ∃ visit ∈ [execute.store, respond.readInfo, fun _ _ => none],
      s.Orderly count visit := by
    refine List.forall_mem_append.mpr ⟨hfirst, fun s hs => ?_⟩
    obtain h | h := hr s hs
    · exact ⟨_, .tail _ (.head _), h⟩
    · exact ⟨_, .tail _ (.tail _ (.head _)), h⟩
  rw [processCommand, hexec]
  cases err with
  | some e => exact ⟨done, rfl, hfirst⟩
  | none =>
    cases mode with
    | m1 | m2 => exact ⟨done, rfl, hfirst⟩
    | m3 | m4 => exact ⟨done ++ r.1, by simp only [hresp]; rfl, hboth⟩

/-- A store that fails at every access. -/
def failingAnswers : Answers := ⟨Heap.ample, fun _ _ => some .eio, fun _ _ => some .eio⟩

/-- A configuration request of two elements of one byte. -/
def configRequest : List UInt8 :=
  sampleRequest 0x40 [0, 1, 0, 0, 0, 0, 0, 0, 0x01, 0x08, 7, 0x02, 0x08, 9]

end Kinetis.Hydrology
