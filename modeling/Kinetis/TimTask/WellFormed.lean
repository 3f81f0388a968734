import Kinetis.TimTask.Registry
import Kinetis.Hydrology.Packet

/-!
# Timer tasks — well-formed lists

What the program relies on, stated over the pointers (`WellFormed`): the lists are rings, every
registered task is linked once in the main list and once in exactly one of the others, and no
other task is linked anywhere.

* `lists_wellFormed`: along every sequence of calls that fit, and from each state reached exactly
  the calls that fit keep it.
* `link_packet_added_twice`: the end identifiers of the hydrology protocol drive the link packet
  task into a call that does not fit.
-/

namespace Kinetis.TimTask
open Lib

variable {T : Type} {L : Lists T} {r : Prog T} {t : T} {h : Head}

structure Arranged (r : Prog T) (L : Lists T) : Prop where
  ring : ∀ h, r.sched.live h → Ring r.sched.links (.head h) ((L h).map h.node)
  registered : ∀ t, r.status t = .registered → t ∈ L .main ∧ ∃! h, h ≠ .main ∧ t ∈ L h
  others : ∀ t, r.status t ≠ .registered → ∀ h, t ∉ L h

def WellFormed (r : Prog T) : Prop := ∃ L, Arranged r L

theorem Inv.arranged (hi : Inv r L) : Arranged r L := by
  refine ⟨hi.linked.ring, ?_, ?_⟩
  · intro t ht
    obtain ⟨h, hq, hin⟩ := hi.queued ht
    refine ⟨hi.main ht, h, ⟨hq, hin⟩, ?_⟩
    rintro h' ⟨hq', hin'⟩
    exact hi.linked.apart (Head.alike_of_ne hq' hq) hin' hin
  · intro t ht h hin
    exact ht (hi.mem hin)

theorem Inv.wellFormed (hi : Inv r L) : WellFormed r := ⟨L, hi.arranged⟩

/-! ### Calls that do not fit -/

/-- A task that is not registered, linked behind `h`, is one too many. -/
theorem Arranged.not_last {r' : Prog T} {L' : Lists T} (ha : Arranged r' L')
    (hlive : r'.sched.live h) (hr : r'.status t ≠ .registered)
    (hprev : r'.sched.links.prev (.head h) = h.node t) : False := by
  have hmem := ((ha.ring h hlive).prev_mem List.mem_cons_self).1
  rw [hprev] at hmem
  exact ha.others t hr h (mem_nodes_node.mp hmem).2

theorem Linked.prev_head {m : Links (Node T)} {live : Head → Prop}
    (hl : Linked m live (L.append h t)) (hlive : live h) : m.prev (.head h) = h.node t := by
  have hring := (hl.ring h hlive).path
  rw [Lists.append, Function.update_self, List.map_append] at hring
  exact (path_append.mp hring).2.2

variable [DecidableEq T]

/-- The node of a task that was never added: its pointers are null. -/
theorem Inv.listDelEntry_fresh (hi : Inv r L) (hf : r.status t = .fresh) :
    listDelEntry r.sched.links (.list t) = none := by
  obtain ⟨hn, hp⟩ := hi.idle (n := .null) (p := .null) (by rw [hf]; rfl) .suspend
  change r.sched.links.next (.list t) = .null at hn
  change r.sched.links.prev (.list t) = .null at hp
  have hvalid : listDelEntryValid r.sched.links (.list t) = none := by
    rw [listDelEntryValid, hn, hp]
    rfl
  rw [listDelEntry, hvalid]
  rfl

theorem Inv.listDel_fresh (hi : Inv r L) (hf : r.status t = .fresh) :
    listDel r.sched.links (.list t) = none := by
  rw [listDel, hi.listDelEntry_fresh hf]
  rfl

/-- A dropped task that is linked again, behind `h`. -/
theorem Inv.relink (hi : Inv r L) (hd : r.status t = .dropped) (hq : h ≠ .main)
    (hlive : r.sched.live h) : ∃ m', listAddTail r.sched.links (.list t) (.head h) = some m' ∧
      ∀ task', ¬ WellFormed ⟨⟨m', r.sched.init, task'⟩, r.status⟩ := by
  have hr : r.status t ≠ .registered := by
    rw [hd]
    exact nofun
  obtain ⟨m', heq, hl, -⟩ := hi.linked.listAddTail hlive (hi.off hr h)
  rw [Head.node_list hq] at heq
  refine ⟨m', heq, ?_⟩
  rintro task' ⟨L', ha⟩
  exact ha.not_last hlive hr (hl.prev_head hlive)

theorem listAddTail_cases {m m' : Links (Node T)} {new : Node T}
    (heq : listAddTail m new (.head h) = some m') :
    m' = m ∨ m.next (m.prev (.head h)) = .head h ∧ m' = m.insert new (m.prev (.head h)) (.head h) := by
  rw [listAddTail] at heq
  cases hvalid : listAddValid m new (m.prev (.head h)) (.head h) with
  | none =>
    rw [hvalid] at heq
    cases heq
  | some ok =>
    rw [hvalid] at heq
    cases ok with
    | false => exact .inl (Option.some.inj heq).symm
    | true =>
      refine .inr ⟨?_, (Option.some.inj heq).symm⟩
      by_contra hne
      rw [listAddValid, if_neg (by simp [Node.mapped]), if_neg (by simp)] at hvalid
      split at hvalid
      · cases hvalid
      · cases hvalid

/-- A registered task that is added again. -/
theorem Inv.readd (hi : Inv r L) (hr : r.status t = .registered) (now : Int) {intervalUs : Nat}
    (autoLoad : Bool) (hint : ¬ (intervalUs = 0 ∨ 3600000000 < intervalUs)) {r' : Prog T}
    (hcall : r.call (.add now (some t) intervalUs autoLoad true) = some r') : ¬ WellFormed r' := by
  have hinit : r.sched.init = true := hi.init (t := t) (by simp [hr])
  have hlive : ∀ h, r.sched.live h := fun _ => .inl hinit
  rintro ⟨L', ha⟩
  simp only [Prog.call, timTaskAdd, if_neg hint, hinit, Option.bind_eq_bind,
    if_neg Bool.false_ne_true.symm, if_neg Nat.one_ne_zero, if_pos]
    at hcall
  obtain ⟨⟨e, s⟩, hadd, hret⟩ := Option.bind_eq_some_iff.mp hcall
  obtain ⟨m₃, hadd₃, hadd⟩ := Option.bind_eq_some_iff.mp hadd
  obtain ⟨m₄, hadd₄, hadd⟩ := Option.bind_eq_some_iff.mp hadd
  cases hadd
  cases hret
  have hring := hi.linked.ring .main (hlive _)
  have hlist : ∀ {c}, c ∈ L.nodes .main → c ≠ .list t := by
    rintro c hc rfl
    exact Head.suspend_ne ((mem_nodes_node (h := .suspend) (t := t).mp hc).1.mpr rfl)
  -- linking `list` again does not touch the main list
  have hsame₃ : ∀ c ∈ L.nodes .main,
      m₃.next c = (initListHead (initListHead r.sched.links (.list t)) (.mainList t)).next c ∧
      m₃.prev c = (initListHead (initListHead r.sched.links (.list t)) (.mainList t)).prev c := by
    intro c hc
    rcases listAddTail_cases hadd₃ with rfl | ⟨-, rfl⟩
    · exact ⟨rfl, rfl⟩
    · have hprev := ((hi.linked.ring (.priority 1) (hlive _)).prev_mem List.mem_cons_self).1
      have hne : ∀ {c'}, c' ∈ L.nodes (.priority 1) → c ≠ c' := by
        rintro c' hc' rfl
        exact Head.priority_ne 1 (hi.linked.disjoint hc' hc)
      exact ⟨insert_next (hlist hc) (hne hprev), insert_prev (hlist hc) (hne List.mem_cons_self)⟩
  have hself : m₃.next (.mainList t) = .mainList t := by
    have hmem : Node.mainList t ∈ L.nodes .main :=
      mem_nodes_node (h := .main).mpr ⟨Iff.rfl, hi.main hr⟩
    exact (hsame₃ _ hmem).1.trans (Function.update_self _ _ _)
  have hsame : ∀ c ∈ L.nodes .main, c ≠ .mainList t →
      m₃.next c = r.sched.links.next c ∧ m₃.prev c = r.sched.links.prev c := by
    intro c hc hne
    obtain ⟨hn, hp⟩ := hsame₃ c hc
    exact ⟨hn.trans ((Function.update_of_ne hne _ _).trans (Function.update_of_ne (hlist hc) _ _)),
      hp.trans ((Function.update_of_ne hne _ _).trans (Function.update_of_ne (hlist hc) _ _))⟩
  have hsub : ∀ c ∈ (L .main).map Head.main.node, c ∈ (L' .main).map Head.main.node := by
    intro c hc
    obtain ⟨u, hu, rfl⟩ := List.mem_map.mp hc
    refine List.mem_map_of_mem (ha.registered u ?_).1
    show Function.update r.status t .registered u = .registered
    by_cases hne : u = t
    · rw [hne, Function.update_self]
    · rw [Function.update_of_ne hne]
      exact hi.mem hu
  have hring' := ha.ring .main (.inr (.inl rfl))
  obtain ⟨hno, hno'⟩ := hring.not_reinserted
    (List.mem_map_of_mem (f := Head.main.node) (hi.main hr)) hself hsame hsub
  rcases listAddTail_cases hadd₄ with rfl | ⟨hnext, rfl⟩
  · exact hno hring'
  · refine hno' (fun he => ?_) hring'
    rw [he] at hnext
    exact Head.node_ne_head .main .main t (hself.symm.trans hnext)

/-- **A call that does not fit** faults, or leaves lists that are not well formed. -/
theorem Inv.fits_of_wellFormed (hi : Inv r L) {c : Call T} {r' : Prog T}
    (hcall : r.call c = some r') (hwf : WellFormed r') : c.Fits r := by
  -- a task that is not registered is fresh or dropped
  have hstatus : ∀ t, r.status t ≠ .registered → r.status t = .fresh ∨ r.status t = .dropped := by
    intro t ht
    cases hs : r.status t with
    | fresh => exact .inl rfl
    | registered => exact absurd hs ht
    | dropped => exact .inr rfl
  cases c with
  | add now u intervalUs autoLoad callback =>
    rcases u with _ | t
    · exact trivial
    · cases callback with
      | false => exact trivial
      | true =>
        intro hpos hmax hr
        exact hi.readd hr now autoLoad (by omega) hcall hwf
  | drop u =>
    rcases u with _ | t
    · exact trivial
    · intro hf
      simp only [Prog.call, timTaskDrop, hi.listDel_fresh hf] at hcall
      cases hcall
  | suspend u =>
    rcases u with _ | t
    · cases hcall
    · by_contra hr
      rcases hstatus t hr with hf | hd
      · simp only [Prog.call, timTaskSuspend, listMoveTail, Option.bind_eq_bind, Option.bind_some,
          hi.listDelEntry_fresh hf] at hcall
        cases hcall
      · obtain ⟨m', heq, hno⟩ := hi.relink hd Head.suspend_ne (.inr (.inr rfl))
        have hdel : listDelEntry r.sched.links (.list t) = some r.sched.links :=
          hi.listDelEntry_dropped hd .suspend
        simp only [Prog.call, timTaskSuspend, listMoveTail, Option.bind_eq_bind, Option.bind_some,
          hdel, heq] at hcall
        cases hcall
        exact hno _ hwf
  | resume u =>
    rcases u with _ | t
    · exact trivial
    · by_contra hr
      rcases hstatus t hr with hf | hd
      · simp only [Prog.call, timTaskResume, listMoveTail, dif_pos (hi.level t),
          Option.bind_eq_bind, hi.listDelEntry_fresh hf] at hcall
        cases hcall
      · have hinit : r.sched.init = true := hi.init (t := t) (by simp [hd])
        obtain ⟨m', heq, hno⟩ := hi.relink hd (Head.priority_ne ⟨_, hi.level t⟩) (.inl hinit)
        have hdel : listDelEntry r.sched.links (.list t) = some r.sched.links :=
          hi.listDelEntry_dropped hd .suspend
        simp only [Prog.call, timTaskResume, listMoveTail, dif_pos (hi.level t),
          Option.bind_eq_bind, Option.bind_some, hdel, heq] at hcall
        cases hcall
        exact hno _ hwf
  | setPriority u p =>
    rcases u with _ | t
    · exact trivial
    · intro hp
      by_contra hr
      rcases hstatus t hr with hf | hd
      · simp only [Prog.call, timTaskSetPriority, dif_pos hp, hi.listDel_fresh hf] at hcall
        cases hcall
      · have hinit : r.sched.init = true := hi.init (t := t) (by simp [hd])
        obtain ⟨m', heq, hno⟩ := hi.relink hd (Head.priority_ne ⟨p, hp⟩) (.inl hinit)
        have hdel : listDel r.sched.links (.list t) = some r.sched.links :=
          hi.listDel_dropped hd .suspend
        simp only [Prog.call, timTaskSetPriority, dif_pos hp, Option.bind_eq_bind,
          Option.bind_some, hdel, heq] at hcall
        cases hcall
        exact hno _ hwf
  | setInterval u newInterval => exact trivial

/-! ### Sequences of calls -/

/-- Every call fits, in the state in which it is made. -/
def Prog.AllFit (r : Prog T) (cs : List (Call T)) : Prop := r.All (fun r c => c.Fits r) cs

theorem Inv.calls (hi : Inv r L) {cs : List (Call T)} (hcs : r.AllFit cs) :
    ∃ r' L', r.calls cs = some r' ∧ Inv r' L' := by
  induction cs generalizing r L with
  | nil => exact ⟨r, L, rfl, hi⟩
  | cons c cs ih =>
    obtain ⟨hfit, hrest⟩ := hcs
    obtain ⟨r₁, L₁, heq, hi₁⟩ := hi.call hfit
    rw [heq] at hrest
    obtain ⟨r', L', heq', hi'⟩ := ih hi₁ hrest
    exact ⟨r', L', by rw [Prog.calls, heq]; exact heq', hi'⟩

/-- **The task lists.**  From the start, every sequence of calls that fit leaves the lists well
formed; and one more call leaves them well formed if and only if it fits. -/
theorem lists_wellFormed (T : Type) [DecidableEq T] (cs : List (Call T))
    (hcs : (Prog.start : Prog T).AllFit cs) :
    ∃ r, (Prog.start : Prog T).calls cs = some r ∧ WellFormed r ∧
      ∀ c, (∃ r', r.call c = some r' ∧ WellFormed r') ↔ c.Fits r := by
  obtain ⟨r, L, heq, hi⟩ := Inv.start.calls hcs
  refine ⟨r, heq, hi.wellFormed, fun c => ⟨?_, ?_⟩⟩
  · rintro ⟨r', hcall, hwf⟩
    exact hi.fits_of_wellFormed hcall hwf
  · intro hfit
    obtain ⟨r', L', hcall, hi'⟩ := hi.call hfit
    exact ⟨r', hcall, hi'.wellFormed⟩

/-! ### The link packet task of the hydrology device -/

/-- The two tasks of `g_hydrology`. -/
inductive HydrologyTask where
  | collecteData
  | linkPkt
  deriving DecidableEq, Repr

def hydrologyDisableLinkPacket : Call HydrologyTask := .drop (some .linkPkt)

def hydrologyEnableLinkPacket (now : Int) : Call HydrologyTask :=
  .add now (some .linkPkt) (40 * 1000 * 1000) true true

/-- The calls of `hydrology_task_init`. -/
def hydrologyTaskInit (now : Int) : List (Call HydrologyTask) :=
  [.add now (some .collecteData) (60 * 1000 * 1000) true true,
    .add now (some .linkPkt) (40 * 1000 * 1000) true true]

/-- `hydrology_device_process_m3_err_packet`, by the end identifiers of the packets that it and its
retries receive. -/
def hydrologyDeviceProcessM3ErrPacket (now : Int) (ends : List UInt8) : List (Call HydrologyTask) :=
  ends.flatMap fun e => if e = Hydrology.ESC then [hydrologyEnableLinkPacket now] else []

/-- `hydrology_device_process_end_identifier`; `ends` is what a resent packet is answered with. -/
def hydrologyDeviceProcessEndIdentifier (now : Int) (end_ : UInt8) (ends : List UInt8) :
    List (Call HydrologyTask) :=
  if end_ = Hydrology.ETX then [hydrologyDisableLinkPacket]
  else if end_ = Hydrology.ETB then [hydrologyEnableLinkPacket now]
  else if end_ = Hydrology.NAK then hydrologyDeviceProcessM3ErrPacket now ends
  else if end_ = Hydrology.ESC then [hydrologyEnableLinkPacket now]
  else []

/-- After the tasks are set up, a disconnect and a packet that ends in `ETB` fit. -/
theorem lists_wellFormed_reconnect :
    ∃ r, (Prog.start : Prog HydrologyTask).calls
        (hydrologyTaskInit 0 ++ hydrologyDeviceProcessEndIdentifier 5 Hydrology.ETX [] ++
          hydrologyDeviceProcessEndIdentifier 9 Hydrology.ETB []) = some r ∧ WellFormed r ∧
      ∀ c, (∃ r', r.call c = some r' ∧ WellFormed r') ↔ c.Fits r := by
  refine lists_wellFormed HydrologyTask _ ?_
  exact ⟨fun _ _ => nofun, fun _ _ => nofun, nofun, fun _ _ => nofun, trivial⟩

/-- **The link packet task added twice.**  After the tasks are set up, a packet that ends in `ETB`
adds the task while it is still linked, and leaves its node in the main list a ring of its own. -/
theorem link_packet_added_twice :
    ∃ r, (Prog.start : Prog HydrologyTask).calls
        (hydrologyTaskInit 0 ++ hydrologyDeviceProcessEndIdentifier 5 Hydrology.ETB []) = some r ∧
      ¬ WellFormed r := by
  refine ⟨_, rfl, ?_⟩
  rintro ⟨L, ha⟩
  have hmem := (ha.registered .linkPkt rfl).1
  have hring := ha.ring .main (.inr (.inl rfl))
  exact hring.next_ne (List.mem_map_of_mem hmem) rfl

end Kinetis.TimTask
