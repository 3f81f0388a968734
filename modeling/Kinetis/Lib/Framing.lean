import Mathlib.Data.List.Basic

/-!
# Lib — Framing

A byte-wise parser that reports a message at the last byte of each frame.  What it has reported
after any number of bytes of a stream of frames depends on that number alone (`reports_take`): cuts
of the stream do not matter to the parser, only to those who look at it between two cuts, and see
the last frame of each piece (`lasts_eq_iff`).
-/

namespace Lib

variable {σ μ : Type*}

/-- A parser: what a byte does to its state and whether it ends a frame, and the message in its
state. -/
structure Framer (σ μ : Type*) where
  feed : σ → UInt8 → σ × Bool
  msg  : σ → μ

/-- The bytes of a message. -/
structure Frame (μ : Type*) where
  bytes : List UInt8
  msg   : μ

/-- The frames one after the other. -/
def stream (fs : List (Frame μ)) : List UInt8 := (fs.map Frame.bytes).flatten

/-- The messages whose frames end within the first `n` bytes. -/
def completed : List (Frame μ) → Nat → List μ
  | [], _ => []
  | f :: fs, n => if f.bytes.length ≤ n then f.msg :: completed fs (n - f.bytes.length) else []

namespace Framer

variable (F : Framer σ μ)

def run (s : σ) (bytes : List UInt8) : σ := bytes.foldl (fun s b => (F.feed s b).1) s

/-- The messages reported, in order. -/
def reports : σ → List UInt8 → List μ
  | _, [] => []
  | s, b :: bytes =>
    if (F.feed s b).2 then F.msg (F.feed s b).1 :: reports (F.feed s b).1 bytes
    else reports (F.feed s b).1 bytes

/-- From any state between frames the parser reads `f`: it reports nothing before the last byte,
there it reports the message of `f` and has it in its state, and it is between frames again. -/
structure Reads (idle : σ → Prop) (f : Frame μ) : Prop where
  early : ∀ s, idle s → ∀ n < f.bytes.length, F.reports s (f.bytes.take n) = []
  whole : ∀ s, idle s → F.reports s f.bytes = [f.msg]
  msg   : ∀ s, idle s → F.msg (F.run s f.bytes) = f.msg
  idle  : ∀ s, idle s → idle (F.run s f.bytes)

theorem run_append (s : σ) (a b : List UInt8) : F.run s (a ++ b) = F.run (F.run s a) b :=
  List.foldl_append

theorem reports_append (s : σ) (a b : List UInt8) :
    F.reports s (a ++ b) = F.reports s a ++ F.reports (F.run s a) b := by
  induction a generalizing s with
  | nil => rfl
  | cons x a ih =>
    rw [List.cons_append, reports, reports, ih]
    split
    · rfl
    · rfl

variable {F} {idle : σ → Prop}

theorem Reads.length_pos {f : Frame μ} (h : F.Reads idle f) {s : σ} (hs : idle s) :
    0 < f.bytes.length := by
  have hwhole := h.whole s hs
  cases hb : f.bytes with
  | nil =>
    rw [hb] at hwhole
    exact absurd hwhole.symm (List.cons_ne_nil _ _)
  | cons b bytes => exact Nat.zero_lt_succ _

section stream

variable {fs : List (Frame μ)} {s : σ}

theorem run_stream_idle (hs : idle s) (h : ∀ f ∈ fs, F.Reads idle f) :
    idle (F.run s (stream fs)) := by
  induction fs generalizing s with
  | nil => exact hs
  | cons f fs ih =>
    rw [stream, List.map_cons, List.flatten_cons, run_append]
    exact ih ((h f List.mem_cons_self).idle s hs) (fun g hg => h g (List.mem_cons_of_mem _ hg))

/-- **What is reported** of the first `n` bytes are the frames that end there. -/
theorem reports_take (hs : idle s) (h : ∀ f ∈ fs, F.Reads idle f) (n : Nat) :
    F.reports s ((stream fs).take n) = completed fs n := by
  induction fs generalizing s n with
  | nil =>
    rw [stream, List.map_nil, List.flatten_nil, List.take_nil]
    rfl
  | cons f fs ih =>
    have hf := h f List.mem_cons_self
    rw [stream, List.map_cons, List.flatten_cons, completed]
    split
    · rename_i hle
      rw [List.take_append, List.take_of_length_le hle, reports_append, hf.whole s hs]
      exact congrArg _ (ih (hf.idle s hs) (fun g hg => h g (List.mem_cons_of_mem _ hg)) _)
    · rename_i hlt
      rw [List.take_append_of_le_length (by omega)]
      exact hf.early s hs n (by omega)

/-- The message in the state after the whole stream is that of the last frame. -/
theorem msg_run_stream {f : Frame μ} (hs : idle s) (h : ∀ f ∈ fs, F.Reads idle f)
    (hlast : fs.getLast? = some f) : F.msg (F.run s (stream fs)) = f.msg := by
  obtain ⟨before, rfl⟩ := List.getLast?_eq_some_iff.mp hlast
  have hbefore : idle (F.run s (stream before)) :=
    run_stream_idle hs (fun g hg => h g (List.mem_append_left _ hg))
  rw [stream, List.map_append, List.flatten_append, run_append]
  rw [List.map_singleton, List.flatten_singleton]
  exact (h f (List.mem_append_right _ List.mem_cons_self)).msg _ hbefore

end stream

end Framer

/-! ### The frames that have ended -/

section completed

variable {fs : List (Frame μ)}

theorem completed_prefix (n : Nat) : completed fs n <+: fs.map Frame.msg := by
  induction fs generalizing n with
  | nil => exact List.prefix_refl _
  | cons f fs ih =>
    rw [completed]
    split
    · exact (List.prefix_cons_inj _).mpr (ih _)
    · exact List.nil_prefix

theorem completed_of_le {n : Nat} (h : (stream fs).length ≤ n) : completed fs n = fs.map Frame.msg := by
  induction fs generalizing n with
  | nil => rfl
  | cons f fs ih =>
    rw [stream, List.map_cons, List.flatten_cons, List.length_append] at h
    rw [completed, if_pos (by omega)]
    exact congrArg _ (ih (by rw [stream]; omega))

/-- Before the end of the stream a frame is missing. -/
theorem length_completed_lt (hpos : ∀ f ∈ fs, 0 < f.bytes.length) {n : Nat}
    (h : n < (stream fs).length) : (completed fs n).length < fs.length := by
  induction fs generalizing n with
  | nil => exact absurd h (Nat.not_lt_zero n)
  | cons f fs ih =>
    rw [stream, List.map_cons, List.flatten_cons, List.length_append] at h
    rw [completed]
    split
    · exact Nat.succ_lt_succ (ih (fun g hg => hpos g (List.mem_cons_of_mem _ hg))
        (by rw [stream]; omega))
    · exact Nat.zero_lt_succ _

end completed

/-! ### Groups of which only the last member is looked at -/

section lasts

variable {α β : Type*} (g : α → Option β)

/-- What `g` finds in the last members of the groups. -/
def lasts (groups : List (List α)) : List β := groups.filterMap fun group => group.getLast?.bind g

theorem lasts_cons (group : List α) (groups : List (List α)) :
    lasts g (group :: groups) = (group.getLast?.bind g).toList ++ lasts g groups := by
  rw [lasts, List.filterMap_cons]
  cases group.getLast?.bind g with
  | none => rfl
  | some b => rfl

theorem filterMap_eq_dropLast (group : List α) :
    group.filterMap g = group.dropLast.filterMap g ++ (group.getLast?.bind g).toList := by
  cases List.eq_nil_or_concat group with
  | inl h =>
    rw [h]
    rfl
  | inr h =>
    obtain ⟨before, x, rfl⟩ := h
    rw [List.concat_eq_append, List.filterMap_append, List.dropLast_concat,
      List.getLast?_concat, Option.bind_some, List.filterMap_cons]
    cases g x with
    | none => rfl
    | some b => rfl

theorem length_lasts_le (groups : List (List α)) :
    (lasts g groups).length ≤ (groups.flatten.filterMap g).length := by
  induction groups with
  | nil => exact Nat.le_refl _
  | cons group groups ih =>
    rw [lasts_cons, List.flatten_cons, List.filterMap_append, filterMap_eq_dropLast]
    simp only [List.length_append]
    omega

/-- **Nothing is missed** iff nothing stands before the last member of a group. -/
theorem lasts_eq_iff (groups : List (List α)) :
    lasts g groups = groups.flatten.filterMap g ↔
      ∀ group ∈ groups, ∀ x ∈ group.dropLast, g x = none := by
  induction groups with
  | nil => exact ⟨fun _ group hg => absurd hg List.not_mem_nil, fun _ => rfl⟩
  | cons group groups ih =>
    rw [lasts_cons, List.flatten_cons, List.filterMap_append, filterMap_eq_dropLast,
      List.forall_mem_cons, ← ih, ← List.filterMap_eq_nil_iff]
    constructor
    · intro h
      have hlen := congrArg List.length h
      have hle := length_lasts_le g groups
      simp only [List.length_append] at hlen
      have hnil : group.dropLast.filterMap g = [] := List.length_eq_zero_iff.mp (by omega)
      rw [hnil] at h
      exact ⟨hnil, List.append_cancel_left h⟩
    · rintro ⟨hnil, h⟩
      rw [hnil, List.nil_append, h]

end lasts

end Lib
