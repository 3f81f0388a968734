import Kinetis.Lib.Slices

/-!
# Platform — error codes, outcomes and open files

The error codes the modelled functions return, the outcome of a function that can fail after it
has changed the state, and FatFs' `f_read` on an open file: it copies what is left of the file, up
to the count asked for, and advances.
-/

namespace Kinetis
open Lib

/-- The codes of `errno.h` that the modelled functions return, negated in the source. -/
inductive Errno where
  | eperm
  | enoent
  | eacces
  | eio
  | eagain
  | enomem
  | einval
  | epipe
  | enodata
  | enospc
  | enolink
  | etimedout
  deriving DecidableEq, Repr

/-- What a C function that returns `0` or an error leaves: the error, and the state after it. -/
abbrev Outcome (σ : Type) := Option Errno × σ

namespace Outcome

variable {σ τ : Type} {f : σ → Outcome σ}

/-- Go on after success; `goto` the end on an error. -/
def andThen (q : Outcome σ) (f : σ → Outcome σ) : Outcome σ :=
  match q with
  | (none, s) => f s
  | (some e, s) => (some e, s)

@[simp] theorem andThen_ok (s : σ) : andThen (none, s) f = f s := rfl
@[simp] theorem andThen_error (e : Errno) (s : σ) : andThen (some e, s) f = (some e, s) := rfl

/-- A sequence that succeeds is two successes. -/
theorem andThen_eq_ok {q : Outcome σ} {s' : σ} :
    q.andThen f = (none, s') ↔ ∃ s, q = (none, s) ∧ f s = (none, s') := by
  obtain ⟨e, s⟩ := q
  cases e with
  | none => simp
  | some e => simp

/-- What both parts of a sequence keep, the sequence keeps. -/
theorem andThen_keeps {q : Outcome σ} {P : σ → Prop} (hq : P q.2) (hf : ∀ s, P s → P (f s).2) :
    P (q.andThen f).2 := by
  obtain ⟨e, s⟩ := q
  cases e with
  | none => exact hf s hq
  | some e => exact hq

end Outcome

/-- An open file: its contents and the read position. -/
structure File where
  bytes : List UInt8
  pos   : Nat
  deriving DecidableEq, Repr

namespace File

def size (f : File) : Nat := f.bytes.length

/-- `f_read` without a device error: the bytes copied, and the file after it. -/
def read (f : File) (n : Nat) : List UInt8 × File :=
  let data := slice f.bytes f.pos n
  (data, { f with pos := f.pos + data.length })

/-- `f_lseek` without a device error, on a file opened for reading: it stops at the end. -/
def seek (f : File) (ofs : Nat) : File := { f with pos := min ofs f.size }

theorem read_full {f : File} {n : Nat} (h : f.pos + n ≤ f.size) :
    f.read n = (slice f.bytes f.pos n, { f with pos := f.pos + n }) := by
  have hlen : (slice f.bytes f.pos n).length = n := by
    rw [size] at h
    rw [length_slice]
    omega
  simp only [read, hlen]

theorem read_end {f : File} (h : f.size ≤ f.pos) (n : Nat) : f.read n = ([], f) := by
  have hnil : slice f.bytes f.pos n = [] := slice_eq_nil h n
  simp [read, hnil]

end File

end Kinetis
