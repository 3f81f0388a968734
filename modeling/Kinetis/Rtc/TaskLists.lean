import Kinetis.Rtc.RtcTask
import Kinetis.TimTask.Lists

/-!
# Rtc — the lists of the calendar tasks

The functions of `rtc-task.c` that link and unlink tasks.  `list.h` is that of the timer tasks: the
pointers, the poison and the checks of `CONFIG_DEBUG_LIST` are modelled in `TimTask`, two of whose
heads stand for the two heads here.

`rtc_task_drop`, `rtc_task_suspend` and `rtc_task_resume` look for the first task with a callback in
one list.  A task may be suspended, and `rtc_task_drop` looks in the other list only.

* `calls_linked`: over every sequence of calls the pointers are two rings;
* `rtcTaskDrop_iff`: when dropping a callback does what it is for.
-/

namespace Kinetis.Rtc
open Lib
open TimTask (Node Head Linked initListHead listAddTail listDel listMoveTail)

/-! ### The functions -/

theorem levels_ne_zero : 3 ≠ 0 := by decide

local instance neZero_levels : @NeZero Nat (@Zero.ofOfNat0 Nat (instOfNatNat 0)) 3 :=
  ⟨levels_ne_zero⟩

/-- `rtc_task_head`. -/
abbrev rtcTaskHead : Head := .priority 0

/-- `rtc_task_suspend_head`. -/
abbrev rtcTaskSuspendHead : Head := .suspend

/-- A `struct rtc_task` in memory, without its node. -/
structure Entry (C : Type) extends RtcTask where
  callback : Option C

/-- The pointers and the tasks. -/
structure Queue (T C : Type) where
  links : Links (Node T)
  task  : T → Entry C

variable {T C : Type} [DecidableEq T] [DecidableEq C]

/-- Static memory at the start: two list heads, everything else zero. -/
def Queue.boot : Queue T C where
  links :=
    let ring (c : Node T) :=
      if c = .head rtcTaskHead ∨ c = .head rtcTaskSuspendHead then c else .null
    ⟨ring, ring⟩
  task := fun _ => ⟨⟨⟨⟨0, 0, 0⟩, 0, 0, 0⟩, ⟨⟨0, 0, 0⟩, 0, 0, 0⟩, false⟩, none⟩

namespace Queue

/-- `rtc_task_add`, at the current time `cur`. -/
def rtcTaskAdd (cur : Tm) (rtcTask : Option T) (interval : Tm) (autoLoad : Bool)
    (callback : Option C) (q : Queue T C) : Option (Outcome (Queue T C)) :=
  match rtcTask with
  | none => some (some .einval, q)
  | some t =>
    if interval.year > 9999 ∨ interval.mon > 12 ∨ interval.mday > 31 ∨ interval.hour > 23 ∨
        interval.min > 59 ∨ interval.sec > 59 then some (some .einval, q)
    else if cur.year = 0 then some (some .etimedout, q)
    else if callback = none then some (some .einval, q)
    else
      (listAddTail (initListHead q.links (.list t)) (.list t) (.head rtcTaskHead)).map fun m =>
        (none, ⟨m, Function.update q.task t
          ⟨⟨rtcTaskUpdateTime cur interval, interval, autoLoad⟩, callback⟩⟩)

/-- `list_for_each_entry_safe` behind `h`, up to the first task with the callback.  A walk that has
not ended after `fuel` nodes gives `none`, as a fault does. -/
def search (q : Queue T C) (h : Head) (callback : Option C) : Nat → Node T → Option (Option T)
  | 0, _ => none
  | fuel + 1, .list t =>
    if (q.task t).callback = callback then some (some t)
    else q.search h callback fuel (q.links.next (.list t))
  | _ + 1, .head h' => if h' = h then some none else none
  | _ + 1, _ => none

def find (q : Queue T C) (h : Head) (callback : Option C) (fuel : Nat) : Option (Option T) :=
  q.search h callback fuel (q.links.next (.head h))

/-- What the three functions have in common: `relink` of the first task with the callback. -/
def onFirst (q : Queue T C) (h : Head) (fuel : Nat) (callback : Option C)
    (relink : T → Option (Links (Node T))) : Option (Outcome (Queue T C)) :=
  (q.find h callback fuel).bind fun found =>
    found.elim (some (some .einval, q)) fun t =>
      (relink t).map fun m => (none, { q with links := m })

def rtcTaskDrop (fuel : Nat) (callback : Option C) (q : Queue T C) : Option (Outcome (Queue T C)) :=
  q.onFirst rtcTaskHead fuel callback fun t => listDel q.links (.list t)

def rtcTaskSuspend (fuel : Nat) (callback : Option C) (q : Queue T C) :
    Option (Outcome (Queue T C)) :=
  q.onFirst rtcTaskHead fuel callback fun t =>
    listMoveTail q.links (.list t) (.head rtcTaskSuspendHead)

def rtcTaskResume (fuel : Nat) (callback : Option C) (q : Queue T C) :
    Option (Outcome (Queue T C)) :=
  q.onFirst rtcTaskSuspendHead fuel callback fun t =>
    listMoveTail q.links (.list t) (.head rtcTaskHead)

end Queue

/-- A call of one of the functions. -/
inductive Call (T C : Type) where
  | add (cur : Tm) (rtcTask : Option T) (interval : Tm) (autoLoad : Bool) (callback : Option C)
  | drop (callback : Option C)
  | suspend (callback : Option C)
  | resume (callback : Option C)

def Queue.call (fuel : Nat) (q : Queue T C) : Call T C → Option (Outcome (Queue T C))
  | .add cur rtcTask interval autoLoad callback =>
    q.rtcTaskAdd cur rtcTask interval autoLoad callback
  | .drop callback => q.rtcTaskDrop fuel callback
  | .suspend callback => q.rtcTaskSuspend fuel callback
  | .resume callback => q.rtcTaskResume fuel callback

/-- The calls in turn, up to a fault. -/
def Queue.calls (fuel : Nat) (q : Queue T C) : List (Call T C) → Option (Queue T C)
  | [] => some q
  | c :: cs => (q.call fuel c).bind fun r => r.2.calls fuel cs

/-! ### Which tasks are registered -/

/-- The heads that are set up. -/
def Live (h : Head) : Prop := h = rtcTaskHead ∨ h = rtcTaskSuspendHead

/-- The task is linked behind `h`. -/
def Queue.In (q : Queue T C) (h : Head) (t : T) : Prop := ∃ L, Linked q.links Live L ∧ t ∈ L h

/-- The task is registered: active or suspended. -/
def Queue.Registered (q : Queue T C) (t : T) : Prop :=
  q.In rtcTaskHead t ∨ q.In rtcTaskSuspendHead t

/-- The task objects of a sequence of calls are not registered when they are added. -/
def Queue.Fits (fuel : Nat) (q : Queue T C) : List (Call T C) → Prop
  | [] => True
  | c :: cs =>
    (∀ cur t interval autoLoad callback, c = .add cur (some t) interval autoLoad callback →
      ¬ q.Registered t) ∧
    ∀ e q', q.call fuel c = some (e, q') → q'.Fits fuel cs

variable {q : Queue T C} {L : TimTask.Lists T} {h : Head} {t : T}

omit [DecidableEq T] [DecidableEq C] in
theorem in_iff (hl : Linked q.links Live L) : q.In h t ↔ t ∈ L h := by
  constructor
  · rintro ⟨L', hl', ht⟩
    rwa [hl.unique hl']
  · intro ht
    exact ⟨L, hl, ht⟩

omit [DecidableEq T] in
theorem live_of_mem {m : Links (Node T)} (hl : Linked m Live L) (ht : t ∈ L h) : Live h := by
  by_contra hdead
  rw [hl.empty h hdead] at ht
  cases ht

omit [DecidableEq T] [DecidableEq C] in
theorem registered_iff (hl : Linked q.links Live L) : q.Registered t ↔ ∃ h, t ∈ L h := by
  rw [Queue.Registered, in_iff hl, in_iff hl]
  constructor
  · rintro (ht | ht)
    · exact ⟨_, ht⟩
    · exact ⟨_, ht⟩
  · rintro ⟨h, ht⟩
    rcases live_of_mem hl ht with rfl | rfl
    · exact .inl ht
    · exact .inr ht

omit [DecidableEq C] in
theorem boot_linked : Linked (Queue.boot : Queue T C).links Live (fun _ => []) := by
  refine ⟨fun h hlive => ⟨List.nodup_singleton _, ?_⟩, fun _ _ => rfl, fun _ ht => by cases ht⟩
  have hself : ∀ c : Node T, c = .head h →
      (if c = .head rtcTaskHead ∨ c = .head rtcTaskSuspendHead then c else .null) = c := by
    rintro c rfl
    refine if_pos ?_
    rcases hlive with rfl | rfl
    · exact .inl rfl
    · exact .inr rfl
  exact ⟨hself _ rfl, hself _ rfl⟩

/-! ### What a call does -/

omit [DecidableEq T] in
/-- The walk finds the first task with the callback. -/
theorem search_path {callback : Option C} {fuel : Nat} {a : Node T} {l : List T}
    (hpath : Path q.links a (l.map .list) (.head h)) (hfuel : l.length < fuel) :
    q.search h callback fuel (q.links.next a) =
      some (l.find? fun t => (q.task t).callback = callback) := by
  induction l generalizing a fuel with
  | nil =>
    obtain ⟨k, rfl⟩ : ∃ k, fuel = k + 1 := ⟨fuel - 1, (Nat.sub_add_cancel hfuel).symm⟩
    rw [hpath.1, Queue.search, if_pos rfl]
    rfl
  | cons t l ih =>
    obtain ⟨k, rfl⟩ : ∃ k, fuel = k + 1 := ⟨fuel - 1, (Nat.sub_add_cancel (by omega)).symm⟩
    rw [hpath.1, Queue.search, List.find?_cons]
    by_cases hcb : (q.task t).callback = callback
    · rw [if_pos hcb, decide_eq_true hcb]
    · rw [if_neg hcb, decide_eq_false hcb]
      exact ih hpath.2.2 (Nat.lt_of_succ_lt_succ hfuel)

theorem Live.ne_main (hlive : Live h) : h ≠ .main := by
  rcases hlive with rfl | rfl
  · exact Head.noConfusion
  · exact Head.noConfusion

omit [DecidableEq T] in
theorem Live.node (hlive : Live h) (t : T) : h.node t = .list t := Head.node_list hlive.ne_main t

omit [DecidableEq T] in
theorem find_linked (hl : Linked q.links Live L) (hlive : Live h) (callback : Option C) {fuel : Nat}
    (hfuel : (L h).length < fuel) :
    q.find h callback fuel = some ((L h).find? fun t => (q.task t).callback = callback) := by
  refine search_path ?_ hfuel
  have hpath := (hl.ring h hlive).path
  rwa [List.map_congr_left (fun t _ => hlive.node t)] at hpath

section first

variable {fuel : Nat} {callback : Option C} {relink : T → Option (Links (Node T))}

omit [DecidableEq T] in
theorem onFirst_of_none (hl : Linked q.links Live L) (hlive : Live h) (hfuel : (L h).length < fuel)
    (hnone : ∀ t ∈ L h, (q.task t).callback ≠ callback) :
    q.onFirst h fuel callback relink = some (some .einval, q) := by
  have hfind : (L h).find? (fun t => (q.task t).callback = callback) = none :=
    List.find?_eq_none.mpr fun t ht => by rw [decide_eq_true_iff]; exact hnone t ht
  rw [Queue.onFirst, find_linked hl hlive callback hfuel, hfind]
  rfl

omit [DecidableEq T] in
theorem onFirst_of_found (hl : Linked q.links Live L) (hlive : Live h) (hfuel : (L h).length < fuel)
    (hfind : (L h).find? (fun t => (q.task t).callback = callback) = some t)
    {m : Links (Node T)} (hrelink : relink t = some m) :
    q.onFirst h fuel callback relink = some (none, { q with links := m }) := by
  rw [Queue.onFirst, find_linked hl hlive callback hfuel, hfind, Option.bind_some, Option.elim_some,
    hrelink]
  rfl

/-- **A drop** unlinks the first active task with the callback. -/
theorem rtcTaskDrop_of_found (hl : Linked q.links Live L)
    (hfuel : (L rtcTaskHead).length < fuel)
    (hfind : (L rtcTaskHead).find? (fun t => (q.task t).callback = callback) = some t) :
    ∃ m, q.rtcTaskDrop fuel callback = some (none, { q with links := m }) ∧
      Linked m Live (L.remove rtcTaskHead t) ∧
      m.next (.list t) = .poison1 ∧ m.prev (.list t) = .poison2 := by
  obtain ⟨m, hdel, hl', hpoison, -⟩ := hl.listDel (.inl rfl) (List.mem_of_find?_eq_some hfind)
  exact ⟨m, onFirst_of_found hl (.inl rfl) hfuel hfind hdel, hl', hpoison⟩

/-- **A move** of the first task with the callback to the end of the other list. -/
theorem move_of_found (hl : Linked q.links Live L) (hlive : Live h) {h' : Head} (hlive' : Live h')
    (hfuel : (L h).length < fuel)
    (hfind : (L h).find? (fun t => (q.task t).callback = callback) = some t) :
    ∃ m, q.onFirst h fuel callback (fun t => listMoveTail q.links (.list t) (.head h')) =
        some (none, { q with links := m }) ∧
      Linked m Live ((L.remove h t).append h' t) := by
  obtain ⟨m, hmove, hl', -⟩ := hl.listMoveTail hlive hlive'
    (Head.alike_of_ne hlive.ne_main hlive'.ne_main) (List.mem_of_find?_eq_some hfind)
  rw [hlive.node] at hmove
  exact ⟨m, onFirst_of_found hl hlive hfuel hfind hmove, hl'⟩

end first

omit [DecidableEq C] in
/-- **An addition** of a task that is not registered. -/
theorem rtcTaskAdd_linked (hl : Linked q.links Live L) {rtcTask : Option T}
    (hnew : ∀ t, rtcTask = some t → ¬ q.Registered t) (cur interval : Tm) (autoLoad : Bool)
    (callback : Option C) :
    ∃ e q', q.rtcTaskAdd cur rtcTask interval autoLoad callback = some (e, q') ∧
      (q' = q ∨ ∃ t, Linked q'.links Live (L.append rtcTaskHead t)) := by
  unfold Queue.rtcTaskAdd
  split
  · exact ⟨_, _, rfl, .inl rfl⟩
  · rename_i t
    have hoff : ∀ h, Node.list t ∉ L.nodes h := by
      intro h hin
      have hmem : rtcTaskHead.node t ∈ L.nodes h := hin
      exact hnew t rfl ((registered_iff hl).mpr ⟨h, (TimTask.mem_nodes_node.mp hmem).2⟩)
    obtain ⟨m, hadd, hl', -⟩ := (hl.offRing hoff (.list t) (.list t)).listAddTail
      (h := rtcTaskHead) (t := t) (.inl rfl) hoff
    split
    · exact ⟨_, _, rfl, .inl rfl⟩
    · split
      · exact ⟨_, _, rfl, .inl rfl⟩
      · split
        · exact ⟨_, _, rfl, .inl rfl⟩
        · have hadd' : listAddTail (initListHead q.links (.list t)) (.list t) (.head rtcTaskHead) =
              some m := hadd
          rw [hadd']
          exact ⟨_, _, rfl, .inr ⟨t, hl'⟩⟩

/-! ### Sequences of calls -/

/-- The number of tasks linked. -/
def size (L : TimTask.Lists T) : Nat := (L rtcTaskHead).length + (L rtcTaskSuspendHead).length

omit [DecidableEq T] in
theorem Live.length_le (hlive : Live h) (L : TimTask.Lists T) : (L h).length ≤ size L := by
  rcases hlive with rfl | rfl
  · exact Nat.le_add_right _ _
  · exact Nat.le_add_left _ _

theorem size_remove (hlive : Live h) (ht : t ∈ L h) : size (L.remove h t) + 1 = size L := by
  have hpos := List.length_pos_of_mem ht
  rw [size, size, TimTask.Lists.remove]
  rcases hlive with rfl | rfl
  · rw [Function.update_self, Function.update_of_ne Head.noConfusion, List.length_erase_of_mem ht]
    omega
  · rw [Function.update_self, Function.update_of_ne Head.noConfusion, List.length_erase_of_mem ht]
    omega

omit [DecidableEq T] in
theorem size_append (hlive : Live h) (t : T) : size (L.append h t) = size L + 1 := by
  rw [size, size, TimTask.Lists.append]
  rcases hlive with rfl | rfl
  · rw [Function.update_self, Function.update_of_ne Head.noConfusion, List.length_append,
      List.length_singleton]
    omega
  · rw [Function.update_self, Function.update_of_ne Head.noConfusion, List.length_append,
      List.length_singleton]
    omega

/-- **One call** returns, and leaves two rings. -/
theorem call_linked (hl : Linked q.links Live L) {fuel : Nat} (hfuel : size L < fuel) {c : Call T C}
    (hnew : ∀ cur t interval autoLoad callback, c = .add cur (some t) interval autoLoad callback →
      ¬ q.Registered t) :
    ∃ e q' L', q.call fuel c = some (e, q') ∧ Linked q'.links Live L' ∧ size L' ≤ size L + 1 := by
  have hmove : ∀ {h h' : Head} (hlive : Live h) (hlive' : Live h') (callback : Option C),
      ∃ e q' L', q.onFirst h fuel callback (fun t => listMoveTail q.links (.list t) (.head h')) =
        some (e, q') ∧ Linked q'.links Live L' ∧ size L' ≤ size L + 1 := by
    intro h h' hlive hlive' callback
    have hlen : (L h).length < fuel := Nat.lt_of_le_of_lt (hlive.length_le L) hfuel
    cases hfind : (L h).find? (fun t => (q.task t).callback = callback) with
    | none =>
      refine ⟨_, q, L, onFirst_of_none hl hlive hlen ?_, hl, Nat.le_succ _⟩
      intro t ht hcb
      exact List.find?_eq_none.mp hfind t ht (decide_eq_true hcb)
    | some t =>
      obtain ⟨m, heq, hl'⟩ := move_of_found hl hlive hlive' hlen hfind
      refine ⟨_, _, _, heq, hl', ?_⟩
      have hremove := size_remove hlive (List.mem_of_find?_eq_some hfind)
      rw [size_append hlive']
      omega
  cases c with
  | add cur rtcTask interval autoLoad callback =>
    have hnew' : ∀ t, rtcTask = some t → ¬ q.Registered t := by
      rintro t rfl
      exact hnew cur t interval autoLoad callback rfl
    obtain ⟨e, q', heq, rfl | ⟨t, hl'⟩⟩ :=
      rtcTaskAdd_linked hl hnew' cur interval autoLoad callback
    · exact ⟨e, _, L, heq, hl, Nat.le_succ _⟩
    · exact ⟨e, q', _, heq, hl', Nat.le_of_eq (size_append (.inl rfl) t)⟩
  | drop callback =>
    have hlen : (L rtcTaskHead).length < fuel :=
      Nat.lt_of_le_of_lt (Live.length_le (.inl rfl) L) hfuel
    cases hfind : (L rtcTaskHead).find? (fun t => (q.task t).callback = callback) with
    | none =>
      refine ⟨_, q, L, onFirst_of_none hl (.inl rfl) hlen ?_, hl, Nat.le_succ _⟩
      intro t ht hcb
      exact List.find?_eq_none.mp hfind t ht (decide_eq_true hcb)
    | some t =>
      obtain ⟨m, heq, hl', -⟩ := rtcTaskDrop_of_found hl hlen hfind
      have hremove := size_remove (.inl rfl) (List.mem_of_find?_eq_some hfind)
      exact ⟨_, _, _, heq, hl', by omega⟩
  | suspend callback => exact hmove (.inl rfl) (.inr rfl) callback
  | resume callback => exact hmove (.inr rfl) (.inl rfl) callback

/-- **Every sequence of calls** returns, and leaves two rings. -/
theorem calls_linked (hl : Linked q.links Live L) {fuel : Nat} {cs : List (Call T C)}
    (hfuel : size L + cs.length < fuel) (hfits : q.Fits fuel cs) :
    ∃ q' L', q.calls fuel cs = some q' ∧ Linked q'.links Live L' ∧
      size L' ≤ size L + cs.length := by
  induction cs generalizing q L with
  | nil => exact ⟨q, L, rfl, hl, Nat.le_refl _⟩
  | cons c cs ih =>
    obtain ⟨hnew, hrest⟩ := hfits
    rw [List.length_cons] at hfuel ⊢
    obtain ⟨e, q₁, L₁, heq, hl₁, hsize₁⟩ := call_linked hl (by omega : size L < fuel) hnew
    obtain ⟨q₂, L₂, heq₂, hl₂, hsize₂⟩ := ih hl₁ (by omega) (hrest e q₁ heq)
    refine ⟨q₂, L₂, ?_, hl₂, by omega⟩
    rw [Queue.calls, heq]
    exact heq₂

/-! ### Dropping -/

/-- What `rtc_task_drop` is for: it returns 0 when a registered task has the callback, and then one
such task is not registered any more. -/
def DropOk (fuel : Nat) (q : Queue T C) (callback : Option C) : Prop :=
  ∃ e q', q.rtcTaskDrop fuel callback = some (e, q') ∧
    (e = none ↔ ∃ t, q.Registered t ∧ (q.task t).callback = callback) ∧
    (e = none → ∃ t, q.Registered t ∧ (q.task t).callback = callback ∧
      ∀ x, q'.Registered x ↔ q.Registered x ∧ x ≠ t)

/-- **When a drop is right**: unless only suspended tasks have the callback. -/
theorem rtcTaskDrop_iff (hl : Linked q.links Live L) {fuel : Nat} (hfuel : size L < fuel)
    (callback : Option C) :
    DropOk fuel q callback ↔
      ((∃ t, q.In rtcTaskSuspendHead t ∧ (q.task t).callback = callback) →
        ∃ t, q.In rtcTaskHead t ∧ (q.task t).callback = callback) := by
  have hlen : (L rtcTaskHead).length < fuel :=
    Nat.lt_of_le_of_lt (Live.length_le (.inl rfl) L) hfuel
  cases hfind : (L rtcTaskHead).find? (fun t => (q.task t).callback = callback) with
  | some t =>
    have ht := List.mem_of_find?_eq_some hfind
    have hcb : (q.task t).callback = callback := by simpa using List.find?_some hfind
    have hreg : q.Registered t := .inl ((in_iff hl).mpr ht)
    obtain ⟨m, heq, hl', -⟩ := rtcTaskDrop_of_found hl hlen hfind
    refine iff_of_true ⟨_, _, heq, iff_of_true rfl ⟨t, hreg, hcb⟩, fun _ => ⟨t, hreg, hcb, ?_⟩⟩
      (fun _ => ⟨t, (in_iff hl).mpr ht, hcb⟩)
    intro x
    rw [registered_iff (q := { q with links := m }) hl', registered_iff hl]
    constructor
    · rintro ⟨h, hx⟩
      refine ⟨⟨h, TimTask.Lists.mem_of_mem_remove hx⟩, ?_⟩
      rintro rfl
      exact hl.notMem_remove ht
        (Head.alike_of_ne (Live.ne_main (.inl rfl)) (live_of_mem hl' hx).ne_main) hx
    · rintro ⟨⟨h, hx⟩, hne⟩
      exact ⟨h, TimTask.Lists.mem_remove_of_ne hx fun _ => hne⟩
  | none =>
    have hnone : ∀ t ∈ L rtcTaskHead, (q.task t).callback ≠ callback := fun t ht hcb =>
      List.find?_eq_none.mp hfind t ht (decide_eq_true hcb)
    have hdrop : q.rtcTaskDrop fuel callback = some (some .einval, q) :=
      onFirst_of_none hl (.inl rfl) hlen hnone
    have hactive : ¬ ∃ t, q.In rtcTaskHead t ∧ (q.task t).callback = callback := by
      rintro ⟨t, ht, hcb⟩
      exact hnone t ((in_iff hl).mp ht) hcb
    constructor
    · rintro ⟨e, q', heq, hret, -⟩ ⟨t, ht, hcb⟩
      rw [hdrop] at heq
      cases heq
      exact absurd (hret.mpr ⟨t, .inr ht, hcb⟩) (Option.some_ne_none _)
    · intro hcond
      refine ⟨_, _, hdrop, iff_of_false (Option.some_ne_none _) ?_,
        fun hret => absurd hret (Option.some_ne_none _)⟩
      rintro ⟨t, ht | ht, hcb⟩
      · exact hactive ⟨t, ht, hcb⟩
      · exact hactive (hcond ⟨t, ht, hcb⟩)

end Kinetis.Rtc
