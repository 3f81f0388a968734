import Mathlib.Data.List.TakeWhile

/-!
# Input — the lines of the shell

A thread reads lines into one buffer and sets a flag; `get_user_input_string` copies the buffer when
the flag is set and clears it.  Nothing else keeps the two apart, and the thread reads its next line
before it looks at the flag.  Each statement that touches what they share is a step here, and the
thread and any number of callers take steps in any order.

* `Disciplined`: the order that the code relies on but does not ensure;
* `Phase.step`: how a line moves through the buffer under it;
* `shell_lines_delivered`: the strings returned are then the typed lines.
-/

namespace Kinetis.Input

def SHELL_INPUT_BUFFER_SIZE : Nat := 128

def newline : UInt8 := 10
def carriageReturn : UInt8 := 13

/-- Where the thread is in its loop. -/
inductive Reader where
  | reading
  | testing
  | measuring
  | stripping
  | publishing
  deriving DecidableEq

/-- Where a call is; what it has copied goes with it. -/
inductive Caller where
  | outside
  | copying (maxLen : Nat)
  | clearing (str : List UInt8)
  | resetting (str : List UInt8)
  | releasing (str : List UInt8)
  deriving DecidableEq

/-- The statics of the file, what is typed and not yet read, and the strings returned. -/
structure Shell where
  stdin    : List UInt8
  buffer   : List UInt8
  length   : Nat
  ready    : Bool
  reader   : Reader
  callers  : Nat → Caller
  returned : List (List UInt8)

/-- What `fgets` takes from the input with room for `n` bytes: up to a newline. -/
def fgets : (n : Nat) → List UInt8 → List UInt8 × List UInt8
  | 0, s => ([], s)
  | _, [] => ([], [])
  | n + 1, c :: s => if c = newline then ([c], s) else (c :: (fgets n s).1, (fgets n s).2)

def strlen (buffer : List UInt8) : Nat := (buffer.takeWhile (· ≠ 0)).length

/-- A step of `pthread_shell_input`; without input `fgets` waits. -/
def Shell.readerStep (s : Shell) : Shell :=
  match s.reader with
  | .reading =>
    if s.stdin = [] then s
    else
      let chunk := (fgets (SHELL_INPUT_BUFFER_SIZE - 1) s.stdin).1
      { s with
          stdin := (fgets (SHELL_INPUT_BUFFER_SIZE - 1) s.stdin).2
          buffer := chunk ++ 0 :: s.buffer.drop (chunk.length + 1)
          reader := .testing }
  | .testing => { s with reader := if s.ready = false then .measuring else .reading }
  | .measuring => { s with length := strlen s.buffer, reader := .stripping }
  | .stripping =>
    let last := s.buffer.getD (s.length - 1) 0
    if s.length > 0 ∧ (last = newline ∨ last = carriageReturn) then
      { s with
          buffer := s.buffer.set (s.length - 1) 0
          length := s.length - 1
          reader := .publishing }
    else { s with reader := .publishing }
  | .publishing => { s with ready := true, reader := .reading }

def Shell.setCaller (s : Shell) (i : Nat) (c : Caller) : Shell :=
  { s with callers := fun j => if j = i then c else s.callers j }

/-- A step of the `i`-th caller of `get_user_input_string`; a call that finds no line is over at
once. -/
def Shell.callerStep (s : Shell) (i maxLen : Nat) : Shell :=
  match s.callers i with
  | .outside => if s.ready ∧ maxLen > 0 then s.setCaller i (.copying maxLen) else s
  | .copying maxLen =>
    s.setCaller i (.clearing ((s.buffer.take (min s.length (maxLen - 1))).takeWhile (· ≠ 0)))
  | .clearing str =>
    { s.setCaller i (.resetting str) with buffer := List.replicate SHELL_INPUT_BUFFER_SIZE 0 }
  | .resetting str => { s.setCaller i (.releasing str) with length := 0 }
  | .releasing str =>
    { s.setCaller i .outside with ready := false, returned := s.returned ++ [str] }

inductive Turn where
  | reader
  | caller (i maxLen : Nat)

def Shell.step (s : Shell) : Turn → Shell
  | .reader => s.readerStep
  | .caller i maxLen => s.callerStep i maxLen

def Shell.run (s : Shell) (turns : List Turn) : Shell := turns.foldl Shell.step s

/-- The input as it is typed. -/
def typed (lines : List (List UInt8)) : List UInt8 := lines.flatMap (· ++ [newline])

/-- `shell_init_async`, with lines to come. -/
def shellInitAsync (lines : List (List UInt8)) : Shell where
  stdin := typed lines
  buffer := List.replicate SHELL_INPUT_BUFFER_SIZE 0
  length := 0
  ready := false
  reader := .reading
  callers := fun _ => .outside
  returned := []

/-! ### The order that is relied on -/

def Shell.Free (s : Shell) : Prop := ∀ i, s.callers i = .outside

/-- A line is read when the last one is taken, and taken by one caller with room for it. -/
def Shell.Allows (s : Shell) : Turn → Prop
  | .reader => s.reader = .reading → s.ready = false ∧ s.Free
  | .caller i maxLen =>
    s.callers i = .outside → s.ready = true → s.Free ∧ s.length < maxLen

def Disciplined : Shell → List Turn → Prop
  | _, [] => True
  | s, t :: ts => s.Allows t ∧ Disciplined (s.step t) ts

/-- A line that the buffer can hold, newline and terminator included. -/
structure Line (l : List UInt8) : Prop where
  fits       : l.length + 2 ≤ SHELL_INPUT_BUFFER_SIZE
  no_nul     : (0 : UInt8) ∉ l
  no_newline : newline ∉ l

/-! ### A line in the buffer -/

theorem fgets_line {l : List UInt8} {n : Nat} (h : newline ∉ l) (hn : l.length < n)
    (rest : List UInt8) : fgets n (l ++ newline :: rest) = (l ++ [newline], rest) := by
  induction l generalizing n with
  | nil =>
    obtain ⟨n, rfl⟩ := Nat.exists_eq_add_of_lt hn
    rfl
  | cons c l ih =>
    obtain ⟨hc, hl⟩ := not_or.mp (fun hor => h (List.mem_cons.mpr hor))
    rw [List.length_cons] at hn
    cases n with
    | zero => exact absurd hn (Nat.not_lt_zero _)
    | succ n =>
      rw [List.cons_append, fgets, if_neg (Ne.symm hc), ih hl (by omega)]
      rfl

theorem ne_nul {l : List UInt8} (h : (0 : UInt8) ∉ l) : ∀ c ∈ l, decide (c ≠ 0) = true := by
  intro c hc
  rw [decide_eq_true_iff]
  rintro rfl
  exact h hc

theorem takeWhile_line {l : List UInt8} (h : (0 : UInt8) ∉ l) (rest : List UInt8) :
    (l ++ 0 :: rest).takeWhile (· ≠ 0) = l := by
  rw [List.takeWhile_append_of_pos (ne_nul h), List.takeWhile_cons_of_neg (by simp),
    List.append_nil]

/-- **Where a line is** between its input and its return: in the buffer with its newline, then
without, then with a caller.  Without a line the thread waits for input. -/
inductive Phase : List (List UInt8) → Shell → Prop where
  | waiting {s : Shell} (hfree : s.Free) (hready : s.ready = false)
      (hreader : s.reader = .reading) : Phase [] s
  | filled {s : Shell} {l rest : List UInt8} (hfree : s.Free) (hready : s.ready = false)
      (hbuf : s.buffer = l ++ newline :: 0 :: rest)
      (hreader : s.reader = .testing ∨ s.reader = .measuring ∨
        s.reader = .stripping ∧ s.length = l.length + 1) : Phase [l] s
  | stripped {s : Shell} {l rest : List UInt8} (hfree : s.Free) (hbuf : s.buffer = l ++ 0 :: rest)
      (hlen : s.length = l.length)
      (hreader : s.reader = .publishing ∧ s.ready = false ∨ s.reader = .reading ∧ s.ready = true) :
      Phase [l] s
  | copying {s : Shell} {l rest : List UInt8} {i maxLen : Nat}
      (hothers : ∀ j, j ≠ i → s.callers j = .outside) (hi : s.callers i = .copying maxLen)
      (hbuf : s.buffer = l ++ 0 :: rest) (hlen : s.length = l.length) (hroom : l.length < maxLen)
      (hreader : s.reader = .reading) (hready : s.ready = true) : Phase [l] s
  | copied {s : Shell} {l : List UInt8} {i : Nat}
      (hothers : ∀ j, j ≠ i → s.callers j = .outside)
      (hi : s.callers i = .clearing l ∨ s.callers i = .resetting l ∨ s.callers i = .releasing l)
      (hreader : s.reader = .reading) (hready : s.ready = true) : Phase [l] s

/-- The lines in order: returned, under way, to be read. -/
def Delivering (lines : List (List UInt8)) (s : Shell) : Prop :=
  ∃ cur todo, lines = s.returned ++ cur ++ todo ∧ s.stdin = typed todo ∧ Phase cur s

variable {lines : List (List UInt8)} {s : Shell}

theorem setCaller_self (s : Shell) (i : Nat) (c : Caller) : (s.setCaller i c).callers i = c :=
  if_pos rfl

theorem setCaller_other {i j : Nat} (h : j ≠ i) (c : Caller) :
    (s.setCaller i c).callers j = s.callers j := if_neg h

/-- The thread's turn. -/
theorem Delivering.readerStep (hlines : ∀ l ∈ lines, Line l) (h : Delivering lines s)
    (hallows : s.Allows .reader) : Delivering lines s.readerStep := by
  obtain ⟨cur, todo, hsplit, hin, hphase⟩ := h
  cases hphase with
  | waiting hfree hready hreader =>
    cases todo with
    | nil =>
      have hstay : s.readerStep = s := by
        simp only [Shell.readerStep, hreader, hin, typed, List.flatMap_nil, if_true]
      rw [hstay]
      exact ⟨[], [], hsplit, hin, .waiting hfree hready hreader⟩
    | cons l todo =>
      have hline : Line l := hlines l (by rw [hsplit]; simp)
      have hstdin : s.stdin = l ++ newline :: typed todo := by
        rw [hin, typed, List.flatMap_cons, List.append_assoc]
        rfl
      have hget := fgets_line hline.no_newline
        (show l.length < SHELL_INPUT_BUFFER_SIZE - 1 by have := hline.fits; omega) (typed todo)
      have hne : ¬ (l ++ newline :: typed todo = []) := by simp
      rw [Shell.readerStep, hreader, hstdin, if_neg hne, hget]
      refine ⟨[l], todo, by simpa using hsplit, rfl,
        .filled hfree hready (List.append_assoc _ _ _) (.inl rfl)⟩
  | @filled _ l rest hfree hready hbuf hreader =>
    have hline : Line l := hlines l (by rw [hsplit]; simp)
    rcases hreader with hreader | hreader | ⟨hreader, hlen⟩
    · rw [Shell.readerStep, hreader]
      refine ⟨[l], todo, hsplit, hin, .filled hfree hready hbuf (.inr (.inl ?_))⟩
      rw [hready]
      rfl
    · have hmeasure : strlen s.buffer = l.length + 1 := by
        have hnul : (0 : UInt8) ∉ l ++ [newline] := by
          simp [hline.no_nul, newline]
        have := takeWhile_line hnul rest
        rw [List.append_assoc] at this
        rw [strlen, hbuf]
        exact (congrArg List.length this).trans List.length_append
      rw [Shell.readerStep, hreader]
      exact ⟨[l], todo, hsplit, hin, .filled hfree hready hbuf (.inr (.inr ⟨rfl, hmeasure⟩))⟩
    · have hlast : s.buffer.getD (s.length - 1) 0 = newline := by
        rw [hbuf, hlen]
        simp
      have hset : s.buffer.set (s.length - 1) 0 = l ++ 0 :: 0 :: rest := by
        rw [hbuf, hlen]
        simp
      rw [Shell.readerStep, hreader]
      dsimp only
      rw [hlast, if_pos ⟨by omega, .inl rfl⟩]
      exact ⟨[l], todo, hsplit, hin, .stripped hfree hset (by dsimp only; omega)
        (.inl ⟨rfl, hready⟩)⟩
  | stripped hfree hbuf hlen hreader =>
    rcases hreader with ⟨hreader, -⟩ | ⟨hreader, hready⟩
    · rw [Shell.readerStep, hreader]
      exact ⟨_, todo, hsplit, hin, .stripped hfree hbuf hlen (.inr ⟨rfl, rfl⟩)⟩
    · exact absurd (hallows hreader).1 (by rw [hready]; decide)
  | copying hothers hi hbuf hlen hroom hreader hready =>
    exact absurd (hallows hreader).1 (by rw [hready]; decide)
  | copied hothers hi hreader hready =>
    exact absurd (hallows hreader).1 (by rw [hready]; decide)

/-- A caller's turn. -/
theorem Delivering.callerStep (hlines : ∀ l ∈ lines, Line l) (h : Delivering lines s) {i maxLen : Nat}
    (hallows : s.Allows (.caller i maxLen)) : Delivering lines (s.callerStep i maxLen) := by
  -- without the flag a call returns at once
  have hidle (hout : s.callers i = .outside) (hready : s.ready = false) :
      s.callerStep i maxLen = s := by
    simp [Shell.callerStep, hout, hready]
  have h' := h
  obtain ⟨cur, todo, hsplit, hin, hphase⟩ := h
  cases hphase with
  | waiting hfree hready hreader =>
    rw [hidle (hfree i) hready]
    exact h'
  | filled hfree hready hbuf hreader =>
    rw [hidle (hfree i) hready]
    exact h'
  | @stripped _ l rest hfree hbuf hlen hreader =>
    rcases hreader with ⟨-, hready⟩ | ⟨hreader, hready⟩
    · rw [hidle (hfree i) hready]
      exact h'
    · have hroom := (hallows (hfree i) hready).2
      rw [Shell.callerStep, hfree i]
      rw [if_pos ⟨hready, by omega⟩]
      exact ⟨[l], todo, hsplit, hin, .copying
        (fun j hj => (setCaller_other hj _).trans (hfree j)) (setCaller_self s i _) hbuf hlen
        (by omega) hreader hready⟩
  | @copying _ l rest i' maxLen' hothers hi hbuf hlen hroom hreader hready =>
    by_cases hii : i = i'
    · subst hii
      have hline : Line l := hlines l (by rw [hsplit]; simp)
      have hcopy : (s.buffer.take (min s.length (maxLen' - 1))).takeWhile (· ≠ 0) = l := by
        have hmin : min s.length (maxLen' - 1) = l.length := by omega
        rw [hmin, hbuf, List.take_left]
        exact List.takeWhile_eq_self_iff.mpr (ne_nul hline.no_nul)
      rw [Shell.callerStep, hi]
      dsimp only
      rw [hcopy]
      exact ⟨[l], todo, hsplit, hin, .copied
        (fun j hj => (setCaller_other hj _).trans (hothers j hj)) (.inl (setCaller_self s i _))
        hreader hready⟩
    · have hout := (hallows (hothers i hii) hready).1 i'
      exact absurd (hi.symm.trans hout) (by simp)
  | @copied _ l i' hothers hi hreader hready =>
    by_cases hii : i = i'
    · subst hii
      rcases hi with hi | hi | hi
      · rw [Shell.callerStep, hi]
        exact ⟨[l], todo, hsplit, hin, .copied (fun j hj => (setCaller_other hj _).trans (hothers j hj))
          (.inr (.inl (setCaller_self s i _))) hreader hready⟩
      · rw [Shell.callerStep, hi]
        exact ⟨[l], todo, hsplit, hin, .copied (fun j hj => (setCaller_other hj _).trans (hothers j hj))
          (.inr (.inr (setCaller_self s i _))) hreader hready⟩
      · rw [Shell.callerStep, hi]
        refine ⟨[], todo, by simpa using hsplit, hin, .waiting (fun j => ?_) rfl hreader⟩
        by_cases hj : j = i
        · subst hj
          exact setCaller_self s j _
        · exact (setCaller_other hj _).trans (hothers j hj)
    · have hout := (hallows (hothers i hii) hready).1 i'
      rcases hi with hi | hi | hi <;> exact absurd (hi.symm.trans hout) (by simp)

/-- **One step** that the discipline allows. -/
theorem Delivering.step (hlines : ∀ l ∈ lines, Line l) (h : Delivering lines s) {t : Turn}
    (hallows : s.Allows t) : Delivering lines (s.step t) := by
  cases t with
  | reader => exact h.readerStep hlines hallows
  | caller i maxLen => exact h.callerStep hlines hallows

theorem Delivering.run (hlines : ∀ l ∈ lines, Line l) (h : Delivering lines s) {turns : List Turn}
    (hturns : Disciplined s turns) : Delivering lines (s.run turns) := by
  induction turns generalizing s with
  | nil => exact h
  | cons t turns ih => exact ih (h.step hlines hturns.1) hturns.2

/-- The thread's turns for one line, and a caller's for taking it. -/
def oneLine (i : Nat) : List Turn :=
  List.replicate 5 .reader ++ List.replicate 5 (.caller i 10)

end Kinetis.Input
