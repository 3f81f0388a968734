import Kinetis.Lib.Rings
import Kinetis.Platform.Files

/-!
# Timer tasks — the task lists

`drivers/kinetis/tim-task.c` over `list.h`, with the list checks of `lib/list_debug.c`
(`CONFIG_DEBUG_LIST` is set).  Every task has two nodes: `list`, in one of the three priority lists
or in the suspend list, and `main_list`, in the list of all tasks.

The lists are modelled as the pointers they are.  Following a pointer that leads to no node (the
null pointer of zeroed memory, the poison of a deleted node) is a fault: the model gives `none`.
-/

namespace Kinetis.TimTask
open Lib

def MAX_PRIORITY_LEVELS : Nat := 3

/-- The list heads: `tim_task_head`, `tim_task_suspend_head` and `priority_heads[p]`. -/
inductive Head where
  | main
  | suspend
  | priority (p : Fin 3)
  deriving DecidableEq, Repr

/-- What a `struct list_head *` can point to. -/
inductive Node (T : Type) where
  | null
  | poison1
  | poison2
  | head (h : Head)
  | list (t : T)
  | mainList (t : T)
  deriving DecidableEq, Repr

/-- The pointer can be followed. -/
def Node.mapped {T : Type} : Node T → Bool
  | null | poison1 | poison2 => false
  | head _ | list _ | mainList _ => true

variable {T : Type} [DecidableEq T]

/-! ### `list.h` -/

def initListHead (m : Links (Node T)) (list : Node T) : Links (Node T) :=
  (m.setNext list list).setPrev list list

def listAddValid (m : Links (Node T)) (new prev next : Node T) : Option Bool :=
  if ¬ next.mapped then none
  else if m.prev next ≠ prev then some false
  else if ¬ prev.mapped then none
  else if m.next prev ≠ next then some false
  else if new = prev ∨ new = next then some false
  else some true

def listDelEntryValid (m : Links (Node T)) (entry : Node T) : Option Bool :=
  let prev := m.prev entry
  let next := m.next entry
  if next = .poison1 then some false
  else if prev = .poison2 then some false
  else if ¬ prev.mapped then none
  else if m.next prev ≠ entry then some false
  else if ¬ next.mapped then none
  else if m.prev next ≠ entry then some false
  else some true

def listAddTail (m : Links (Node T)) (new head : Node T) : Option (Links (Node T)) := do
  let prev := m.prev head
  if ← listAddValid m new prev head then return m.insert new prev head else return m

def listDelEntry (m : Links (Node T)) (entry : Node T) : Option (Links (Node T)) := do
  if ← listDelEntryValid m entry then return m.unlink (m.prev entry) (m.next entry) else return m

def listDel (m : Links (Node T)) (entry : Node T) : Option (Links (Node T)) := do
  let m ← listDelEntry m entry
  return (m.setNext entry .poison1).setPrev entry .poison2

def listMoveTail (m : Links (Node T)) (list head : Node T) : Option (Links (Node T)) := do
  let m ← listDelEntry m list
  listAddTail m list head

/-! ### The tasks -/

/-- A `struct tim_task`, without its nodes. -/
structure Task where
  timeout : Int
  intervalUs : Nat
  autoLoad : Bool
  priority : Nat
  executionCount : Nat
  deriving DecidableEq, Repr

structure Sched (T : Type) where
  links : Links (Node T)
  /-- `tim_task_init`: the priority heads are set up. -/
  init : Bool
  task : T → Task

def Sched.setTask (s : Sched T) (t : T) (f : Task → Task) : Sched T :=
  { s with task := Function.update s.task t (f (s.task t)) }

theorem Sched.setTask_task_self (s : Sched T) (t : T) (f : Task → Task) :
    (s.setTask t f).task t = f (s.task t) := Function.update_self _ _ _

theorem Sched.setTask_task_of_ne (s : Sched T) {t x : T} (h : x ≠ t) (f : Task → Task) :
    (s.setTask t f).task x = s.task x := Function.update_of_ne h _ _

/-- A field that `f` does not change. -/
theorem Sched.setTask_field {β : Type} (g : Task → β) {f : Task → Task} (h : ∀ k, g (f k) = g k)
    (s : Sched T) (t x : T) : g ((s.setTask t f).task x) = g (s.task x) := by
  by_cases hx : x = t
  · rw [hx, setTask_task_self, h]
  · rw [setTask_task_of_ne s hx]

/-- Static memory at the start: two list heads, everything else zero. -/
def boot : Sched T where
  links :=
    let ring (c : Node T) := if c = .head .main ∨ c = .head .suspend then c else .null
    ⟨ring, ring⟩
  init := false
  task := fun _ => ⟨0, 0, false, 0, 0⟩

def initPriorityHeads (m : Links (Node T)) : Links (Node T) :=
  initListHead (initListHead (initListHead m (.head (.priority 0))) (.head (.priority 1)))
    (.head (.priority 2))

/-- `tim_task_add`, called at the time `now`; `callback` tells whether it is given one. -/
def timTaskAdd (now : Int) (timTask : Option T) (intervalUs : Nat) (autoLoad callback : Bool)
    (s : Sched T) : Option (Outcome (Sched T)) :=
  let priorityLevel := 1
  match timTask with
  | none => some (some .einval, s)
  | some t =>
    if callback = false then some (some .einval, s)
    else if intervalUs = 0 ∨ 3600000000 < intervalUs then some (some .einval, s)
    else do
      let m := if s.init = false then initPriorityHeads s.links else s.links
      let m := initListHead (initListHead m (.list t)) (.mainList t)
      let m ←
        if priorityLevel = 0 then listAddTail m (.list t) (.head (.priority 0))
        else if priorityLevel = 1 then listAddTail m (.list t) (.head (.priority 1))
        else listAddTail m (.list t) (.head (.priority 2))
      let m ← listAddTail m (.mainList t) (.head .main)
      let task := ⟨now + intervalUs, intervalUs, autoLoad, priorityLevel, 0⟩
      return (none, ⟨m, true, Function.update s.task t task⟩)

def timTaskDrop (timTask : Option T) (s : Sched T) : Option (Sched T) :=
  match timTask with
  | none => some s
  | some t => do
    let m ← listDel s.links (.list t)
    let m ← listDel m (.mainList t)
    return { s with links := m }

/-- `tim_task_suspend` does not check for a null pointer. -/
def timTaskSuspend (timTask : Option T) (s : Sched T) : Option (Sched T) := do
  let t ← timTask
  let m ← listMoveTail s.links (.list t) (.head .suspend)
  return { s with links := m }

def timTaskResume (timTask : Option T) (s : Sched T) : Option (Sched T) :=
  match timTask with
  | none => some s
  | some t =>
    if h : (s.task t).priority < MAX_PRIORITY_LEVELS then do
      let m ← listMoveTail s.links (.list t) (.head (.priority ⟨(s.task t).priority, h⟩))
      return { s with links := m }
    else some s

def timTaskSetPriority (timTask : Option T) (newPriority : Nat) (s : Sched T) :
    Option (Outcome (Sched T)) :=
  match timTask with
  | none => some (some .einval, s)
  | some t =>
    if h : newPriority < MAX_PRIORITY_LEVELS then do
      let m ← listDel s.links (.list t)
      let m ← listAddTail m (.list t) (.head (.priority ⟨newPriority, h⟩))
      return (none, { s with links := m }.setTask t fun k => { k with priority := newPriority })
    else some (some .einval, s)

def timTaskSetInterval (timTask : Option T) (newInterval : Nat) (s : Sched T) :
    Option (Outcome (Sched T)) :=
  match timTask with
  | none => some (some .einval, s)
  | some t =>
    if newInterval = 0 ∨ 3600000000 < newInterval then some (some .einval, s)
    else some (none, s.setTask t fun k => { k with intervalUs := newInterval })

/-! ### Calls -/

/-- A call of one of the functions, with its arguments. -/
inductive Call (T : Type) where
  | add (now : Int) (t : Option T) (intervalUs : Nat) (autoLoad callback : Bool)
  | drop (t : Option T)
  | suspend (t : Option T)
  | resume (t : Option T)
  | setPriority (t : Option T) (newPriority : Nat)
  | setInterval (t : Option T) (newInterval : Nat)
  deriving DecidableEq, Repr

/-- A task has never been added, is registered, or was dropped since. -/
inductive Status where
  | fresh
  | registered
  | dropped
  deriving DecidableEq, Repr

/-- The program so far: the scheduler, and which tasks are registered. -/
structure Prog (T : Type) where
  sched : Sched T
  status : T → Status

def Prog.start : Prog T := ⟨boot, fun _ => .fresh⟩

/-- A call.  A task is registered by an `add` that returns `0`, until it is dropped. -/
def Prog.call (r : Prog T) : Call T → Option (Prog T)
  | .add now t intervalUs autoLoad callback => do
    let (e, s) ← timTaskAdd now t intervalUs autoLoad callback r.sched
    match t, e with
    | some t, none => return ⟨s, Function.update r.status t .registered⟩
    | _, _ => return ⟨s, r.status⟩
  | .drop t => do
    let s ← timTaskDrop t r.sched
    match t with
    | some t => return ⟨s, Function.update r.status t .dropped⟩
    | none => return ⟨s, r.status⟩
  | .suspend t => do return ⟨← timTaskSuspend t r.sched, r.status⟩
  | .resume t => do return ⟨← timTaskResume t r.sched, r.status⟩
  | .setPriority t newPriority => do
    let (_, s) ← timTaskSetPriority t newPriority r.sched
    return ⟨s, r.status⟩
  | .setInterval t newInterval => do
    let (_, s) ← timTaskSetInterval t newInterval r.sched
    return ⟨s, r.status⟩

/-- The calls in turn, up to a fault. -/
def Prog.calls (r : Prog T) : List (Call T) → Option (Prog T)
  | [] => some r
  | c :: cs => (r.call c).bind fun r' => r'.calls cs

/-- `P` holds of every call of the sequence, in the state in which it is made. -/
def Prog.All (P : Prog T → Call T → Prop) (r : Prog T) : List (Call T) → Prop
  | [] => True
  | c :: cs =>
    P r c ∧
      match r.call c with
      | some r' => r'.All P cs
      | none => True

theorem Prog.All.and {P Q : Prog T → Call T → Prop} {r : Prog T} {cs : List (Call T)}
    (hp : r.All P cs) (hq : r.All Q cs) : r.All (fun r c => P r c ∧ Q r c) cs := by
  induction cs generalizing r with
  | nil => exact trivial
  | cons c cs ih =>
    refine ⟨⟨hp.1, hq.1⟩, ?_⟩
    have hp₂ := hp.2
    have hq₂ := hq.2
    cases hcall : r.call c with
    | none => exact trivial
    | some r' =>
      rw [hcall] at hp₂ hq₂
      exact ih hp₂ hq₂

end Kinetis.TimTask
