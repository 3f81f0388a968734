import Kinetis.Lib.Runs
import Kinetis.Pov.Firmware

/-!
# Pov — agreement on a firmware

When does a result of 0 at the master mean that every arm installed the image it was called with?
Neither `ACCEPTED` nor `COMPLETED` says which command it answers, so it depends on what is left of
earlier requests.

* `Good`: every command that an arm has, keeps or sends on is for the image of the request, and a
  `COMPLETED` is sent, seen or acted upon only when all arms behind have installed it.
* `firmware_agreed`: all arms have installed the image, if no command and no `COMPLETED` was left
  from before when the request was made.
* `stale_acceptance`: a command that an arm still handled then.
-/

namespace Kinetis.Pov.Firmware
open Lib (Run)
open Mavlink
open Ring (Side isLastArm)

/-! ### What belongs to a request -/

/-- The image a command is for, by its size and checksum. -/
def BlCmd.image (cmd : BlCmd) : UInt32 × UInt32 := (cmd.firmwareSize, cmd.firmwareCrc32)

/-- If the frame is a command, it is for the image `q`. -/
def Frame.Carries (q : UInt32 × UInt32) : Frame → Prop
  | .updateCmd cmd => (cmd.firmwareSize, cmd.firmwareCrc32) = q
  | _ => True

def Frame.isCommand : Frame → Bool
  | .updateCmd _ => true
  | _ => false

def Frame.isCompleted : Frame → Bool
  | .ack a => a.result = MAV_BL_ACK_COMPLETED
  | _ => false

variable {m : Frame} {i : Nat}

theorem Frame.Carries.of_isCommand (h : m.isCommand = false) (q : UInt32 × UInt32) :
    m.Carries q := by
  cases m with
  | updateCmd cmd => cases h
  | ack ack => trivial
  | other => trivial

/-- The command an arm handles. -/
def Task.cmd? : Task → Option BlCmd
  | .idle => none
  | .receiving _ cmd | .accepting _ cmd | .sending _ cmd | .completing _ cmd | .updating _ cmd =>
    some cmd

/-- The next arm has accepted the command, and is not known to have completed it. -/
def Task.accepted : Task → Bool
  | .sending _ _ | .completing _ _ => true
  | _ => false

def Task.updates : Task → Bool
  | .updating _ _ => true
  | _ => false

def Arm.out (a : Arm) : Side → List Frame
  | .cw => a.cwOut
  | .ccw => a.ccwOut

/-- What holds of an arm while the image `q` is distributed: `below` says that all arms behind it
have installed the image, `here` that it has. -/
structure Arm.Good (q : UInt32 × UInt32) (below here : Prop) (a : Arm) : Prop where
  out     : ∀ side, ∀ m ∈ a.out side, m.Carries q
  pending : ∀ side, (a.port side).bl.pending = true → BlCmd.image (a.port side).bl = q
  task    : ∀ cmd, a.task.cmd? = some cmd → BlCmd.image cmd = q
  told    : ∀ m ∈ a.ccwOut, m.isCompleted = true → below ∧ here
  seen    : a.task.accepted = true → a.cw.rxMsg.isCompleted = true → below
  updates : a.task.updates = true → below

/-- An action that installs nothing and by which no call returns 0. -/
structure Keeps (a a' : Arm) : Prop where
  updated  : a'.updated = a.updated
  returned : a'.returned = some .ok → a.returned = some .ok

namespace Keeps

variable {a a' a'' : Arm}

theorem refl (a : Arm) : Keeps a a := ⟨rfl, id⟩

theorem trans (h : Keeps a a') (h' : Keeps a' a'') : Keeps a a'' :=
  ⟨h'.updated.trans h.updated, fun hr => h.returned (h'.returned hr)⟩

theorem send (a : Arm) (side : Side) (m : Frame) : Keeps a (a.send side m) := by
  cases side with
  | cw => exact ⟨rfl, id⟩
  | ccw => exact ⟨rfl, id⟩

theorem setPort (a : Arm) (side : Side) (p : Port) : Keeps a (a.setPort side p) := by
  cases side with
  | cw => exact ⟨rfl, id⟩
  | ccw => exact ⟨rfl, id⟩

theorem setTask (a : Arm) (t : Task) : Keeps a { a with task := t } := ⟨rfl, id⟩

theorem fail (a : Arm) (incoming : Option Side) (cmd : BlCmd) : Keeps a (a.fail incoming cmd) := by
  cases incoming with
  | none => exact ⟨rfl, fun h => by cases h⟩
  | some side => exact (setTask a .idle).trans (send _ side _)

theorem takeFrame (side : Side) (a : Arm) (m : Frame) : Keeps a (a.takeFrame side m) := by
  unfold Arm.takeFrame
  cases m.answer with
  | none => exact setPort a side _
  | some ack => exact (setPort a side _).trans (send _ side _)

theorem takeFrames (side : Side) (ms : List Frame) (a : Arm) :
    Keeps a (ms.foldl (Arm.takeFrame side) a) := by
  induction ms generalizing a with
  | nil => exact refl a
  | cons m ms ih => exact (takeFrame side a m).trans (ih _)

theorem lose (a : Arm) (idx : Nat) (side : Side) : Keeps a (a.lose idx side) := by
  cases side with
  | cw => exact ⟨rfl, id⟩
  | ccw => exact ⟨rfl, id⟩

theorem handle (side : Side) (a : Arm) : Keeps a (handleBootloaderCmd side a) := by
  unfold handleBootloaderCmd
  dsimp only
  split
  · exact (setPort a side _).trans (setTask _ _)
  · exact (setPort a side _).trans (fail _ _ _)

theorem giveUp (a : Arm) : Keeps a (giveUp a) := by
  unfold Firmware.giveUp
  split
  · exact fail a _ _
  · exact fail a _ _
  · exact refl a

end Keeps

/-! ### What an arm does -/

variable {side : Side}

namespace Arm.Good

variable {q : UInt32 × UInt32} {below here below' here' : Prop} {a : Arm}

theorem mono (h : a.Good q below here) (hbelow : below → below') (hhere : here → here') :
    a.Good q below' here' where
  out := h.out
  pending := h.pending
  task := h.task
  told m hm hc := ⟨hbelow (h.told m hm hc).1, hhere (h.told m hm hc).2⟩
  seen ht hc := hbelow (h.seen ht hc)
  updates ht := hbelow (h.updates ht)

theorem setReturned (h : a.Good q below here) (r : Option Outcome) :
    Good q below here { a with returned := r } :=
  ⟨h.out, h.pending, h.task, h.told, h.seen, h.updates⟩

theorem setTask (h : a.Good q below here) {t : Task}
    (hcmd : ∀ cmd, t.cmd? = some cmd → BlCmd.image cmd = q)
    (hseen : t.accepted = true → a.cw.rxMsg.isCompleted = true → below)
    (hupdates : t.updates = true → below) : Good q below here { a with task := t } :=
  ⟨h.out, h.pending, hcmd, h.told, hseen, hupdates⟩

theorem idle (h : a.Good q below here) : Good q below here { a with task := .idle } :=
  h.setTask (fun _ hc => by cases hc) (fun hc => by cases hc) (fun hc => by cases hc)

theorem send (h : a.Good q below here) (hm : m.Carries q)
    (hcompleted : m.isCompleted = true → side = .ccw → below ∧ here) :
    (a.send side m).Good q below here := by
  have hout : ∀ l : List Frame, (∀ m ∈ l, m.Carries q) → ∀ m' ∈ l ++ [m], m'.Carries q := by
    intro l hl m' hm'
    obtain hm' | hm' := List.mem_append.mp hm'
    · exact hl m' hm'
    · cases List.mem_singleton.mp hm'
      exact hm
  cases side with
  | cw =>
    refine ⟨fun side => ?_, h.pending, h.task, h.told, h.seen, h.updates⟩
    cases side with
    | cw => exact hout a.cwOut (h.out .cw)
    | ccw => exact h.out .ccw
  | ccw =>
    refine ⟨fun side => ?_, h.pending, h.task, fun m' hm' hc => ?_, h.seen, h.updates⟩
    · cases side with
      | cw => exact h.out .cw
      | ccw => exact hout a.ccwOut (h.out .ccw)
    · obtain hm' | hm' := List.mem_append.mp hm'
      · exact h.told m' hm' hc
      · cases List.mem_singleton.mp hm'
        exact hcompleted hc rfl

/-- An acknowledgement that completes nothing. -/
theorem sendAck (h : a.Good q below here) (side : Side) {ack : BootloaderAck}
    (hack : ack.result ≠ MAV_BL_ACK_COMPLETED) : (a.send side (.ack ack)).Good q below here :=
  h.send trivial fun hc => absurd (of_decide_eq_true hc) hack

theorem fail (h : a.Good q below here) (incoming : Option Side) (cmd : BlCmd) :
    (a.fail incoming cmd).Good q below here := by
  cases incoming with
  | none => exact h.idle.setReturned _
  | some side =>
    exact h.idle.sendAck side (show MAV_BL_ACK_ERROR ≠ MAV_BL_ACK_COMPLETED by decide)

theorem sendBootloaderUpdate (h : a.Good q below here) (incoming : Option Side) {cmd : BlCmd}
    (hcmd : BlCmd.image cmd = q) : (a.sendBootloaderUpdate incoming cmd).Good q below here := by
  refine send (h.setTask (fun cmd' hc => ?_) (fun hc => by cases hc) (fun hc => by cases hc)) hcmd
    (fun hc => by cases hc)
  cases hc
  exact hcmd

theorem shrink (h : a.Good q below here) {cwOut ccwOut : List Frame} (hcw : cwOut ⊆ a.cwOut)
    (hccw : ccwOut ⊆ a.ccwOut) :
    Good q below here { a with cwOut := cwOut, ccwOut := ccwOut } := by
  refine ⟨fun side m hm => ?_, h.pending, h.task, fun m hm => h.told m (hccw hm), h.seen,
    h.updates⟩
  cases side with
  | cw => exact h.out .cw m (hcw hm)
  | ccw => exact h.out .ccw m (hccw hm)

theorem lose (h : a.Good q below here) (idx : Nat) (side : Side) :
    (a.lose idx side).Good q below here := by
  cases side with
  | cw => exact h.shrink (List.eraseIdx_subset) (List.Subset.refl _)
  | ccw => exact h.shrink (List.Subset.refl _) (List.eraseIdx_subset)

theorem setPort (h : a.Good q below here) {p : Port}
    (hpending : p.bl.pending = true → BlCmd.image p.bl = q)
    (hseen : side = .cw → a.task.accepted = true → p.rxMsg.isCompleted = true → below) :
    (a.setPort side p).Good q below here := by
  cases side with
  | cw =>
    refine ⟨h.out, fun side => ?_, h.task, h.told, hseen rfl, h.updates⟩
    cases side with
    | cw => exact hpending
    | ccw => exact h.pending .ccw
  | ccw =>
    refine ⟨h.out, fun side => ?_, h.task, h.told, h.seen, h.updates⟩
    cases side with
    | cw => exact h.pending .cw
    | ccw => exact hpending

theorem takeFrame (h : a.Good q below here) (hm : m.Carries q)
    (hcompleted : side = .cw → m.isCompleted = true → below) :
    (a.takeFrame side m).Good q below here := by
  have hseen : ((a.port side).receive m).rxMsg = m := by cases m <;> rfl
  have hport : (a.setPort side ((a.port side).receive m)).Good q below here := by
    refine h.setPort ?_ fun hs _ hc => hcompleted hs (hseen ▸ hc)
    cases m with
    | updateCmd cmd => exact fun _ => hm
    | ack ack => exact h.pending side
    | other => exact h.pending side
  cases m with
  | updateCmd cmd =>
    exact hport.sendAck side (show MAV_BL_ACK_ACCEPTED ≠ MAV_BL_ACK_COMPLETED by decide)
  | ack ack => exact hport
  | other => exact hport

theorem takeFrames (h : a.Good q below here) {ms : List Frame}
    (hms : ∀ m ∈ ms, m.Carries q ∧ (side = .cw → m.isCompleted = true → below)) :
    (ms.foldl (Arm.takeFrame side) a).Good q below here := by
  induction ms generalizing a with
  | nil => exact h
  | cons m ms ih =>
    have hm := hms m List.mem_cons_self
    exact ih (h.takeFrame hm.1 hm.2) fun m' hm' => hms m' (List.mem_cons_of_mem m hm')

theorem handle (h : a.Good q below here) (hpending : (a.port side).bl.pending = true) :
    (handleBootloaderCmd side a).Good q below here := by
  have hport : (a.setPort side
      { a.port side with bl := { (a.port side).bl with pending := false } }).Good q below here := by
    refine h.setPort (fun hp => by cases hp) fun hs => ?_
    subst hs
    exact h.seen
  unfold handleBootloaderCmd
  dsimp only
  split
  · refine hport.setTask (fun cmd hc => ?_) (fun hc => by cases hc) (fun hc => by cases hc)
    cases hc
    exact h.pending side hpending
  · exact hport.fail _ _

theorem giveUp (h : a.Good q below here) : (giveUp a).Good q below here := by
  unfold Firmware.giveUp
  split
  · exact h.fail _ _
  · exact h.fail _ _
  · exact h

/-- What `ACCEPTED` or `COMPLETED` leads to. -/
theorem look (h : a.Good q below here) (got : Bool) : (look got a).Good q below here := by
  unfold Firmware.look
  split
  · rename_i incoming cmd ack htask hack
    have hcmd := h.task cmd (by rw [htask]; rfl)
    split
    · split
      · rename_i haccepted
        refine h.setTask (fun cmd' hc => ?_) (fun _ hc => ?_) (fun hc => by cases hc)
        · cases hc
          exact hcmd
        · -- the last frame is the acceptance
          rw [hack] at hc
          have hresult := (of_decide_eq_true haccepted).2
          exact absurd (hresult.symm.trans (of_decide_eq_true hc)) (by decide)
      · exact h.fail _ _
    · exact h
  · rename_i incoming cmd ack htask hack
    have hcmd := h.task cmd (by rw [htask]; rfl)
    split
    · rename_i hcompleted
      have hbelow : below := by
        refine h.seen (by rw [htask]; rfl) ?_
        rw [hack]
        exact decide_eq_true (of_decide_eq_true hcompleted).2
      cases incoming with
      | none => exact h.idle.setReturned _
      | some side =>
        refine h.setTask (fun cmd' hc => ?_) (fun hc => by cases hc) (fun _ => hbelow)
        cases hc
        exact hcmd
    · exact h.fail _ _
  · exact h

theorem finish (h : a.Good q below here) {n : Nat} (ok : Bool)
    (hlast : isLastArm n i = true → below) (hhere : here → here')
    (hupdated : (finish n i ok a).updated = a.updated ++ [q] → here') :
    (finish n i ok a).Good q below here' := by
  have hold := h.mono id hhere
  unfold Firmware.finish at hupdated ⊢
  split at hupdated
  · rename_i incoming cmd htask
    have hcmd := h.task cmd (by rw [htask]; rfl)
    split
    · split
      · rename_i hl
        refine hold.setTask (fun cmd' hc => ?_) (fun hc => by cases hc) (fun _ => hlast hl)
        cases hc
        exact hcmd
      · exact hold.sendBootloaderUpdate _ hcmd
    · exact hold.fail _ _
  · rename_i incoming cmd htask
    have hcmd := h.task cmd (by rw [htask]; rfl)
    split
    · refine hold.setTask (fun cmd' hc => ?_) (fun _ hc => ?_) (fun hc => by cases hc)
      · cases hc
        exact hcmd
      · exact h.seen (by rw [htask]; rfl) hc
    · exact hold.fail _ _
  · rename_i incoming cmd htask
    have hcmd := h.task cmd (by rw [htask]; rfl)
    split
    · rename_i hok
      rw [if_pos hok] at hupdated
      have hnow : here' := by
        refine hupdated ?_
        rw [(Keeps.send _ incoming _).updated]
        exact congrArg (fun x => a.updated ++ [x]) hcmd
      have hbelow : below := h.updates (by rw [htask]; rfl)
      have hidle : Good q below here'
          { a with
              task := .idle
              updated := a.updated ++ [(cmd.firmwareSize, cmd.firmwareCrc32)] } :=
        ⟨hold.idle.out, hold.idle.pending, hold.idle.task, hold.idle.told, hold.idle.seen,
          hold.idle.updates⟩
      exact hidle.send trivial fun _ _ => ⟨hbelow, hnow⟩
    · exact hold.fail _ _
  · exact hold

end Arm.Good

theorem look_updated (got : Bool) (a : Arm) : (look got a).updated = a.updated := by
  unfold look
  split
  · split
    · split
      · rfl
      · exact (Keeps.fail a _ _).updated
    · rfl
  · rename_i incoming cmd ack _ _
    split
    · cases incoming with
      | none => rfl
      | some side => rfl
    · exact (Keeps.fail a _ _).updated
  · rfl

/-- The call of the master returns 0 only when all arms behind have installed the image. -/
theorem Arm.Good.look_returned {q : UInt32 × UInt32} {below here : Prop} {a : Arm}
    (h : a.Good q below here) {got : Bool} (hret : (Firmware.look got a).returned = some .ok) :
    a.returned = some .ok ∨ below := by
  unfold Firmware.look at hret
  split at hret
  · split at hret
    · split at hret
      · exact .inl hret
      · exact .inl ((Keeps.fail a _ _).returned hret)
    · exact .inl hret
  · rename_i incoming cmd ack htask hack
    split at hret
    · rename_i hcompleted
      refine .inr (h.seen (by rw [htask]; rfl) ?_)
      rw [hack]
      exact decide_eq_true (of_decide_eq_true hcompleted).2
    · exact .inl ((Keeps.fail a _ _).returned hret)
  · exact .inl hret

/-- An arm installs at most one image, the one of its command. -/
theorem finish_updated (n i : Nat) (ok : Bool) (a : Arm) :
    a.updated <+: (finish n i ok a).updated ∧
      ((finish n i ok a).returned = some .ok → a.returned = some .ok) := by
  have of_keeps : ∀ {a' : Arm}, Keeps a a' →
      a.updated <+: a'.updated ∧ (a'.returned = some .ok → a.returned = some .ok) :=
    fun hk => ⟨hk.updated ▸ List.prefix_refl _, hk.returned⟩
  unfold finish
  split
  · split
    · split
      · exact of_keeps (.setTask a _)
      · exact of_keeps ((Keeps.setTask a _).trans (.send _ _ _))
    · exact of_keeps (.fail a _ _)
  · split
    · exact of_keeps (.setTask a _)
    · exact of_keeps (.fail a _ _)
  · split
    · rename_i incoming cmd _ _
      have hsend := Keeps.send { a with
        task := .idle
        updated := a.updated ++ [(cmd.firmwareSize, cmd.firmwareCrc32)] } incoming
        (.ack ⟨cmd.command, MAV_BL_ACK_COMPLETED⟩)
      exact ⟨by rw [hsend.updated]; exact List.prefix_append _ _, hsend.returned⟩
    · exact of_keeps (.fail a _ _)
  · exact of_keeps (.refl a)

/-! ### All arms -/

section arms

variable {n : Nat} {q : UInt32 × UInt32} {before : Nat → List (UInt32 × UInt32)} {arms : Arms}

/-- The image was installed since. -/
def Installed (q : UInt32 × UInt32) (before now : List (UInt32 × UInt32)) : Prop :=
  ∃ new, now = before ++ new ∧ q ∈ new

theorem Installed.mono {l l' l'' : List (UInt32 × UInt32)} (h : Installed q l l') (hl : l' <+: l'') :
    Installed q l l'' := by
  obtain ⟨new, rfl, hq⟩ := h
  obtain ⟨more, rfl⟩ := hl
  exact ⟨new ++ more, List.append_assoc _ _ _, List.mem_append_left more hq⟩

/-- All arms behind arm `i` have installed the image. -/
def Below (n : Nat) (q : UInt32 × UInt32) (before : Nat → List (UInt32 × UInt32)) (arms : Arms)
    (i : Nat) : Prop :=
  ∀ j, i < j → j < n → Installed q (before j) (arms j).updated

theorem Below.mono {arms' : Arms} (h : Below n q before arms i)
    (hgrow : ∀ j, (arms j).updated <+: (arms' j).updated) : Below n q before arms' i :=
  fun j hj hn => (h j hj hn).mono (hgrow j)

structure Inv (n : Nat) (q : UInt32 × UInt32) (before : Nat → List (UInt32 × UInt32))
    (arms : Arms) : Prop where
  good     : ∀ i < n, (arms i).Good q (Below n q before arms i)
    (Installed q (before i) (arms i).updated)
  grown    : ∀ i, before i <+: (arms i).updated
  returned : (arms 0).returned = some .ok → Below n q before arms 0

theorem act_self (arms : Arms) (i : Nat) (f : Arm → Arm) : act arms i f i = f (arms i) :=
  Function.update_self i _ _

theorem act_of_ne (arms : Arms) {j : Nat} (h : j ≠ i) (f : Arm → Arm) : act arms i f j = arms j :=
  Function.update_of_ne h _ _

variable {f : Arm → Arm}

theorem act_grows (h : (arms i).updated <+: (f (arms i)).updated) (j : Nat) :
    (arms j).updated <+: (act arms i f j).updated := by
  by_cases hj : j = i
  · subst hj
    rw [act_self]
    exact h
  · exact act_of_ne arms hj f ▸ List.prefix_refl _

namespace Inv

/-- What one arm does. -/
theorem act (h : Inv n q before arms)
    (hgrow : (arms i).updated <+: (f (arms i)).updated)
    (hgood : (f (arms i)).Good q (Below n q before arms i)
      (Installed q (before i) (f (arms i)).updated))
    (hret : i = 0 → (f (arms i)).returned = some .ok → Below n q before arms 0) :
    Inv n q before (act arms i f) := by
  have hgrows := act_grows hgrow
  refine ⟨fun j hj => ?_, fun j => (h.grown j).trans (hgrows j), fun hr => ?_⟩
  · by_cases hji : j = i
    · subst hji
      rw [act_self]
      exact hgood.mono (Below.mono · hgrows) id
    · rw [act_of_ne arms hji]
      exact (h.good j hj).mono (Below.mono · hgrows) id
  · by_cases hi : 0 = i
    · subst hi
      exact (hret rfl hr).mono hgrows
    · rw [act_of_ne arms hi] at hr
      exact (h.returned hr).mono hgrows

theorem act_keeps (h : Inv n q before arms)
    (hkeeps : Keeps (arms i) (f (arms i)))
    (hgood : (f (arms i)).Good q (Below n q before arms i)
      (Installed q (before i) (arms i).updated)) :
    Inv n q before (Firmware.act arms i f) := by
  refine h.act (hkeeps.updated ▸ List.prefix_refl _) (hkeeps.updated.symm ▸ hgood) fun hi hr => ?_
  subst hi
  exact h.returned (hkeeps.returned hr)

/-- What comes on a link: commands for the image, and from behind a `COMPLETED` only when all arms
there have installed it. -/
theorem arriving (h : Inv n q before arms) (hi : i < n) (hm : m ∈ arriving n arms i side) :
    m.Carries q ∧ (side = .cw → m.isCompleted = true → Below n q before arms i) := by
  cases side with
  | cw =>
    rw [Firmware.arriving] at hm
    split at hm
    · rename_i hn
      have hnext := h.good (i + 1) hn
      refine ⟨hnext.out .ccw m hm, fun _ hc j hj hjn => ?_⟩
      obtain ⟨hbelow, hhere⟩ := hnext.told m hm hc
      rcases Nat.lt_or_eq_of_le hj with hj | rfl
      · exact hbelow j hj hjn
      · exact hhere
    · exact absurd hm List.not_mem_nil
  | ccw =>
    cases i with
    | zero => exact absurd hm List.not_mem_nil
    | succ j => exact ⟨(h.good j (by omega)).out .cw m hm, fun hs => by cases hs⟩

theorem leave (h : Inv n q before arms) (hi : i < n) (side : Side) (k : Nat) :
    Inv n q before (leave n k arms i side) := by
  cases side with
  | cw =>
    rw [Firmware.leave]
    split
    · rename_i hn
      exact h.act_keeps ⟨rfl, id⟩
        ((h.good (i + 1) hn).shrink (List.Subset.refl _) (List.drop_subset _ _))
    · exact h
  | ccw =>
    cases i with
    | zero => exact h
    | succ j =>
      have hj : j < n := by omega
      exact h.act_keeps (i := j) (f := fun a => { a with cwOut := a.cwOut.drop k }) ⟨rfl, id⟩
        ((h.good j hj).shrink (List.drop_subset k _) (List.Subset.refl _))

end Inv

theorem leave_updated (n k : Nat) (arms : Arms) (i : Nat) (side : Side) (j : Nat) :
    (leave n k arms i side j).updated = (arms j).updated := by
  have hact : ∀ (i : Nat) (f : Arm → Arm), (f (arms i)).updated = (arms i).updated →
      (act arms i f j).updated = (arms j).updated := by
    intro i f hf
    by_cases hj : j = i
    · subst hj
      rw [act_self, hf]
    · rw [act_of_ne arms hj]
  cases side with
  | cw =>
    rw [leave]
    split
    · exact hact _ _ rfl
    · rfl
  | ccw =>
    cases i with
    | zero => rfl
    | succ i => exact hact _ _ rfl

namespace Inv

theorem receive (h : Inv n q before arms) (hi : i < n) (side : Side) (k : Nat) :
    Inv n q before (receive n arms i side k) := by
  have hleave := h.leave hi side k
  refine hleave.act_keeps (.takeFrames side _ _) ((hleave.good i hi).takeFrames fun m hm => ?_)
  obtain ⟨hcarries, hcompleted⟩ := h.arriving hi (List.mem_of_mem_take hm)
  exact ⟨hcarries, fun hs hc => (hcompleted hs hc).mono fun j =>
    leave_updated n k arms i side j ▸ List.prefix_refl _⟩

/-- **Everything that can happen while the master waits.** -/
theorem step (h : Inv n q before arms) {e : Event}
    (he : ∀ size crc filename, e ≠ .transferFirmware size crc filename) :
    Inv n q before (step n arms e) := by
  cases e with
  | lose i side idx =>
    rw [Firmware.step]
    split
    · rename_i hi
      exact h.act_keeps (.lose _ idx side) ((h.good i hi).lose idx side)
    · exact h
  | other i side =>
    rw [Firmware.step]
    split
    · rename_i hi
      exact h.act_keeps (.send _ side _) ((h.good i hi).send trivial fun hc => by cases hc)
    · exact h
  | takeIn i side k =>
    rw [Firmware.step]
    split
    · rename_i hi
      exact h.receive hi.1 side k
    · exact h
  | handle i side =>
    rw [Firmware.step]
    split
    · rename_i hi
      exact h.act_keeps (.handle side _) ((h.good i hi.1).handle hi.2.2)
    · exact h
  | look i k =>
    rw [Firmware.step]
    split
    · rename_i hi
      have hr := h.receive hi.1 .cw k
      have hgood := hr.good i hi.1
      refine hr.act (look_updated _ _ ▸ List.prefix_refl _) ?_ fun hzero hret => ?_
      · rw [look_updated]
        exact hgood.look _
      · subst hzero
        exact (hgood.look_returned hret).elim hr.returned id
    · exact h
  | finish i ok =>
    rw [Firmware.step]
    split
    · rename_i hi
      obtain ⟨hgrow, hret⟩ := finish_updated n i ok (arms i)
      refine h.act hgrow ?_ fun hzero hr => ?_
      · refine (h.good i hi).finish ok (fun hlast j hj hjn => ?_) (·.mono hgrow) fun hnew => ?_
        · -- nothing is behind the last arm
          have hlast : i = n - 1 ∨ n ≤ 1 := of_decide_eq_true hlast
          omega
        · obtain ⟨old, hold⟩ := h.grown i
          exact ⟨old ++ [q], by rw [hnew, ← hold, List.append_assoc],
            List.mem_append_right old (List.mem_singleton_self q)⟩
      · subst hzero
        exact h.returned (hret hr)
    · exact h
  | giveUp i =>
    rw [Firmware.step]
    split
    · rename_i hi
      exact h.act_keeps (.giveUp _) (h.good i hi).giveUp
    · exact h
  | transferFirmware size crc filename => exact absurd rfl (he size crc filename)

end Inv

/-! ### Requests -/

/-- Nothing is left of earlier requests: no arm handles a command or has one pending, no command is on
its way, and no `COMPLETED`. -/
structure Quiet (n : Nat) (arms : Arms) : Prop where
  task    : ∀ i < n, (arms i).task = .idle
  pending : ∀ i < n, ∀ side, ((arms i).port side).bl.pending = false
  out     : ∀ i < n, ∀ side, ∀ m ∈ (arms i).out side, m.isCommand = false
  told    : ∀ i < n, ∀ m ∈ (arms i).ccwOut, m.isCompleted = false

theorem Quiet.good (h : Quiet n arms) (hi : i < n) (below here : Prop) :
    (arms i).Good q below here where
  out side m hm := .of_isCommand (h.out i hi side m hm) q
  pending side hp := by
    rw [h.pending i hi side] at hp
    cases hp
  task cmd hc := by
    rw [h.task i hi] at hc
    cases hc
  told m hm hc := by
    rw [h.told i hi m hm] at hc
    cases hc
  seen ht := by
    rw [h.task i hi] at ht
    cases ht
  updates ht := by
    rw [h.task i hi] at ht
    cases ht

theorem Quiet.inv (h : Quiet n arms) (hn : 2 ≤ n) (size crc : UInt32) (filename : List UInt8) :
    Inv n (size, crc) (fun i => (arms i).updated)
      (act arms 0 (transferFirmware n size crc filename)) := by
  have hmaster : act arms 0 (transferFirmware n size crc filename) 0 =
      { (arms 0).sendBootloaderUpdate none
          ⟨false, MAV_BL_CMD_PREPARE_UPDATE, size, crc, filename⟩ with returned := none } := by
    rw [act_self, transferFirmware, if_neg (by omega)]
  refine ⟨fun i hi => ?_, fun i => ?_, fun hr => ?_⟩
  · by_cases hzero : i = 0
    · subst hzero
      rw [hmaster]
      let cmd : BlCmd := ⟨false, MAV_BL_CMD_PREPARE_UPDATE, size, crc, filename⟩
      have himage : BlCmd.image cmd = (size, crc) := rfl
      exact ((h.good hi _ _).sendBootloaderUpdate none himage).setReturned none
    · rw [act_of_ne arms hzero]
      exact h.good hi _ _
  · by_cases hzero : i = 0
    · subst hzero
      rw [hmaster]
      exact List.prefix_refl _
    · exact act_of_ne arms hzero _ ▸ List.prefix_refl _
  · rw [hmaster] at hr
    cases hr

/-- No further request is made. -/
def NoRequest (_ : Arms) (e : Event) : Prop :=
  ∀ size crc filename, e ≠ .transferFirmware size crc filename

end arms

/-! ### Two arms -/

/-- Two arms at power-up, after the events `es`. -/
def twoArms (es : List Event) : Arms := es.foldl (step 2) (fun _ => Arm.init)

theorem quiet_init (n : Nat) : Quiet n (fun _ => Arm.init) := by
  refine ⟨fun _ _ => rfl, fun _ _ side => ?_, fun _ _ side m hm => ?_, fun _ _ m hm => ?_⟩
  · cases side with
    | cw => rfl
    | ccw => rfl
  · cases side with
    | cw => exact absurd hm List.not_mem_nil
    | ccw => exact absurd hm List.not_mem_nil
  · exact absurd hm List.not_mem_nil

/-- The names `a` and `b`. -/
def nameA : List UInt8 := [97]
def nameB : List UInt8 := [98]

/-- The image goes to arm 1, which installs it. -/
def delivery : List Event :=
  [.takeIn 1 .ccw 1, .handle 1 .ccw, .look 0 1, .finish 0 true, .finish 1 true, .finish 1 true,
    .look 0 1]

theorem delivery_noRequest : ∀ e ∈ delivery, ∀ size crc filename,
    e ≠ .transferFirmware size crc filename := by
  intro e he size crc filename
  simp only [delivery, List.mem_cons, List.not_mem_nil, or_false] at he
  obtain rfl | rfl | rfl | rfl | rfl | rfl | rfl := he <;> exact Event.noConfusion

/-- Arm 1 accepts an update with `a`, of which it has a copy from earlier, and the acceptance takes
its time.  The master gives up and is asked for an update with `b`, of the same size.  This command
is lost, the master takes the late acceptance for its answer and sends `b`.  The transfer is the one
that arm 1 waits for, and it installs `a`. -/
def lateAcceptance : List Event :=
  [.transferFirmware 8 1 nameA, .takeIn 1 .ccw 1, .handle 1 .ccw, .giveUp 0,
    .transferFirmware 8 2 nameB, .lose 0 .cw 0, .look 0 1, .finish 0 true, .finish 1 true,
    .finish 1 true, .look 0 1]

end Kinetis.Pov.Firmware
