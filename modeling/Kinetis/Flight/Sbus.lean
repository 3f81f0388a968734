import Mathlib.Data.List.Basic

/-!
# Flight — receiving SBUS frames

`sbus_get_byte` collects the frames of a remote control: 25 bytes, the first `0x0F` and the last
`0x00`.  Every `0x0F` starts a frame anew, also inside a frame.  Received without gaps, the frames
captured are therefore those whose payload has no such byte (`captured_frames`), and all of them are
captured exactly if no payload has one (`sbus_frames_captured_iff`).
-/

namespace Kinetis.Flight

def SBUS_FRAME_SIZE : Nat := 25
def SBUS_HEAD : UInt8 := 0x0F

/-- The statics of `sbus_get_byte`, and what it has copied to `rc->sbus`, in order; `get_data_cnt`
counts the copies. -/
structure SbusRx where
  buf      : List UInt8
  cnt      : Nat
  time     : Int
  captured : List (List UInt8)

/-- A byte with the two readings of the clock that its call takes, in nanoseconds. -/
structure Arrival where
  data : UInt8
  now  : Int
  now' : Int

/-- What the call does with its byte. -/
def SbusRx.push (s : SbusRx) (data : UInt8) : SbusRx :=
  let cnt := if data = SBUS_HEAD ∨ s.cnt = SBUS_FRAME_SIZE then 0 else s.cnt
  let buf := s.buf.set cnt data
  { s with
      buf := buf
      cnt := cnt + 1
      captured := if cnt + 1 = SBUS_FRAME_SIZE then s.captured ++ [buf] else s.captured }

/-- The time since the last byte is too long. -/
def SbusRx.Late (s : SbusRx) (now : Int) : Prop := (now - s.time).tdiv 1000 > 2500 ∧ s.time ≠ 0

instance (s : SbusRx) (now : Int) : Decidable (s.Late now) := inferInstanceAs (Decidable (_ ∧ _))

/-- `sbus_get_byte`. -/
def sbusGetByte (s : SbusRx) (a : Arrival) : SbusRx :=
  SbusRx.push { s with cnt := if s.Late a.now then 0 else s.cnt, time := a.now' } a.data

def sbusGetBytes (s : SbusRx) (as : List Arrival) : SbusRx := as.foldl sbusGetByte s

/-- No byte comes late. -/
def NoGaps : SbusRx → List Arrival → Prop
  | _, [] => True
  | s, a :: as => ¬ s.Late a.now ∧ NoGaps (sbusGetByte s a) as

/-- The 23 bytes between the first and the last. -/
structure Payload where
  bytes  : List UInt8
  length : bytes.length = 23

def Payload.frame (p : Payload) : List UInt8 := SBUS_HEAD :: (p.bytes ++ [0x00])

def Payload.Clean (p : Payload) : Prop := SBUS_HEAD ∉ p.bytes

instance (p : Payload) : Decidable p.Clean := inferInstanceAs (Decidable (¬ _))

/-! ### Bytes -/

/-- A receiver, whatever it has collected. -/
structure SbusRx.Ready (s : SbusRx) : Prop where
  size : s.buf.length = SBUS_FRAME_SIZE
  cnt  : s.cnt ≤ SBUS_FRAME_SIZE

def SbusRx.pushes (s : SbusRx) (l : List UInt8) : SbusRx := l.foldl SbusRx.push s

theorem SbusRx.pushes_append (s : SbusRx) (l l' : List UInt8) :
    s.pushes (l ++ l') = (s.pushes l).pushes l' := List.foldl_append

variable {s : SbusRx}

/-- The clock does not show in the receiver but for `time`. -/
theorem sbusGetByte_push {a : Arrival} (h : ¬ s.Late a.now) :
    sbusGetByte s a = { s.push a.data with time := a.now' } := by
  rw [sbusGetByte, if_neg h]
  rfl

theorem pushes_time (s : SbusRx) (time : Int) (l : List UInt8) :
    SbusRx.pushes { s with time := time } l = { s.pushes l with time := time } := by
  induction l generalizing s with
  | nil => rfl
  | cons d l ih => exact ih (s.push d)

/-- **Without gaps** only the bytes matter. -/
theorem sbusGetBytes_captured {as : List Arrival} (h : NoGaps s as) :
    (sbusGetBytes s as).captured = (s.pushes (as.map Arrival.data)).captured := by
  induction as generalizing s with
  | nil => rfl
  | cons a as ih =>
    obtain ⟨hlate, hrest⟩ := h
    have hcap := ih hrest
    rw [sbusGetByte_push hlate, pushes_time] at hcap
    rw [sbusGetBytes, List.foldl_cons, sbusGetByte_push hlate]
    exact hcap

theorem SbusRx.Ready.push (h : s.Ready) (data : UInt8) : (s.push data).Ready := by
  obtain ⟨hsize, hcnt⟩ := h
  refine ⟨by rw [SbusRx.push, List.length_set, hsize], ?_⟩
  rw [SbusRx.push]
  dsimp only
  split
  · decide
  · omega

/-- A header starts a frame. -/
theorem SbusRx.Ready.push_head (h : s.Ready) :
    (s.push SBUS_HEAD).cnt = 1 ∧ (s.push SBUS_HEAD).buf.take 1 = [SBUS_HEAD] ∧
      (s.push SBUS_HEAD).captured = s.captured := by
  have hpos : 0 < s.buf.length := by rw [h.size]; decide
  rw [SbusRx.push]
  refine ⟨rfl, ?_, rfl⟩
  obtain ⟨b, rest, hb⟩ := List.exists_cons_of_length_pos hpos
  rw [hb]
  rfl

/-- Too few bytes to fill the buffer, headers among them or not. -/
theorem SbusRx.pushes_short {l : List UInt8} (h : s.cnt + l.length < SBUS_FRAME_SIZE) :
    (s.pushes l).captured = s.captured ∧ (s.pushes l).cnt ≤ s.cnt + l.length := by
  induction l generalizing s with
  | nil => exact ⟨rfl, Nat.le_refl _⟩
  | cons d l ih =>
    rw [List.length_cons] at h ⊢
    have hcnt : (s.push d).cnt ≤ s.cnt + 1 := by
      rw [SbusRx.push]
      dsimp only
      split
      · omega
      · exact Nat.le_refl _
    have hcap : (s.push d).captured = s.captured := by
      rw [SbusRx.push]
      exact if_neg (by split <;> omega)
    obtain ⟨hcap', hcnt'⟩ := ih (s := s.push d) (by omega)
    exact ⟨hcap'.trans hcap, Nat.le_trans hcnt' (by omega)⟩

theorem take_set_succ {b : List UInt8} {n : Nat} (h : n < b.length) (d : UInt8) :
    (b.set n d).take (n + 1) = b.take n ++ [d] := by
  rw [List.take_add_one, List.getElem?_set_self h, List.take_set_of_le (Nat.le_refl n)]
  rfl

/-- **The bytes that fill the buffer**, none of them a header: with the last one the frame is
captured. -/
theorem SbusRx.pushes_fill {l : List UInt8} {d : UInt8} (hs : s.Ready)
    (hlen : s.cnt + l.length + 1 = SBUS_FRAME_SIZE) (hl : ∀ b ∈ l ++ [d], b ≠ SBUS_HEAD) :
    (s.pushes (l ++ [d])).captured = s.captured ++ [s.buf.take s.cnt ++ l ++ [d]] := by
  induction l generalizing s with
  | nil =>
    have hd : d ≠ SBUS_HEAD := hl d (List.mem_singleton_self d)
    have hcnt : s.cnt + 1 = SBUS_FRAME_SIZE := hlen
    have hne : ¬ (d = SBUS_HEAD ∨ s.cnt = SBUS_FRAME_SIZE) := not_or.mpr ⟨hd, by omega⟩
    have htake := take_set_succ (b := s.buf) (n := s.cnt) (by rw [hs.size]; omega) d
    have hall : (s.buf.set s.cnt d).take (s.cnt + 1) = s.buf.set s.cnt d := by
      refine List.take_of_length_le (Nat.le_of_eq ?_)
      rw [List.length_set, hs.size, hcnt]
    change (s.push d).captured = _
    rw [SbusRx.push, if_neg hne, if_pos hcnt, List.append_nil, ← htake, hall]
  | cons b l ih =>
    have hb : b ≠ SBUS_HEAD := hl b List.mem_cons_self
    rw [List.length_cons] at hlen
    have hne : ¬ (b = SBUS_HEAD ∨ s.cnt = SBUS_FRAME_SIZE) := not_or.mpr ⟨hb, by omega⟩
    have hpush : s.push b = { s with buf := s.buf.set s.cnt b, cnt := s.cnt + 1 } := by
      rw [SbusRx.push, if_neg hne, if_neg (by omega)]
    have hrest := ih (s := s.push b) (hs.push b) (by rw [hpush]; dsimp only; omega)
      (fun x hx => hl x (List.mem_cons_of_mem _ hx))
    rw [hpush] at hrest
    rw [take_set_succ (by rw [hs.size]; omega)] at hrest
    change ((s.push b).pushes (l ++ [d])).captured = _
    rw [hpush, hrest]
    simp

/-! ### Frames -/

theorem SbusRx.Ready.pushes (h : s.Ready) (l : List UInt8) : (s.pushes l).Ready := by
  induction l generalizing s with
  | nil => exact h
  | cons d l ih => exact ih (h.push d)

/-- **One frame** is captured unless its payload has a header in it. -/
theorem SbusRx.Ready.frame (h : s.Ready) (p : Payload) :
    (s.pushes p.frame).captured = s.captured ++ if p.Clean then [p.frame] else [] := by
  obtain ⟨hcnt, htake, hcap⟩ := h.push_head
  have hlen := p.length
  change ((s.push SBUS_HEAD).pushes (p.bytes ++ [0x00])).captured = _
  split
  · rename_i hclean
    have hnone : ∀ b ∈ p.bytes ++ [0x00], b ≠ SBUS_HEAD := by
      rintro b hb rfl
      rcases List.mem_append.mp hb with hb | hb
      · exact hclean hb
      · exact absurd (List.mem_singleton.mp hb) (by decide)
    rw [SbusRx.pushes_fill (h.push _) (by rw [hlen]; rfl) hnone, hcnt, htake]
    rfl
  · -- the header inside starts over, and too few bytes follow
    rename_i hdirty
    obtain ⟨u, v, huv⟩ := List.append_of_mem (Decidable.not_not.mp hdirty)
    have hsum : u.length + v.length = 22 := by
      have := congrArg List.length huv
      rw [List.length_append, List.length_cons] at this
      omega
    obtain ⟨hcap', -⟩ := SbusRx.pushes_short (s := s.push SBUS_HEAD) (l := u) (by
      rw [SBUS_FRAME_SIZE]
      omega)
    obtain ⟨hcnt'', -, hcap''⟩ := ((h.push SBUS_HEAD).pushes u).push_head
    obtain ⟨hcapLast, -⟩ := SbusRx.pushes_short (l := v ++ [0x00])
      (s := ((s.push SBUS_HEAD).pushes u).push SBUS_HEAD) (by
        rw [List.length_append, SBUS_FRAME_SIZE]
        dsimp only [List.length_singleton]
        omega)
    have hsplit : p.bytes ++ [0x00] = u ++ (SBUS_HEAD :: (v ++ [0x00])) := by
      rw [huv, List.append_assoc, List.cons_append]
    rw [hsplit, SbusRx.pushes_append, List.append_nil]
    exact (hcapLast.trans hcap'').trans (hcap'.trans hcap)

/-- **A sequence of frames**: those with a clean payload are captured, in order. -/
theorem captured_frames (h : s.Ready) (ps : List Payload) :
    (s.pushes (ps.flatMap Payload.frame)).captured =
      s.captured ++ (ps.filter (fun p => p.Clean)).map Payload.frame := by
  induction ps generalizing s with
  | nil => exact (List.append_nil _).symm
  | cons p ps ih =>
    rw [List.flatMap_cons, SbusRx.pushes_append, ih (h.pushes _), h.frame p]
    by_cases hp : p.Clean
    · simp [hp]
    · simp [hp]

/-- The receiver before its first byte. -/
def sbusIdle : SbusRx := ⟨List.replicate SBUS_FRAME_SIZE 0, 0, 0, []⟩

/-- **Frames without gaps.**  From the idle receiver every frame is captured once, as it was sent and
in order, exactly if no payload has the header's value in it. -/
theorem sbus_frames_captured_iff (ps : List Payload) (as : List Arrival)
    (hbytes : as.map Arrival.data = ps.flatMap Payload.frame) (hgaps : NoGaps sbusIdle as) :
    (sbusGetBytes sbusIdle as).captured = ps.map Payload.frame ↔ ∀ p ∈ ps, p.Clean := by
  have hready : sbusIdle.Ready := ⟨rfl, Nat.zero_le _⟩
  rw [sbusGetBytes_captured hgaps, hbytes, captured_frames hready]
  change [] ++ (ps.filter (fun p => p.Clean)).map Payload.frame = _ ↔ _
  rw [List.nil_append]
  constructor
  · intro heq
    have hlen := congrArg List.length heq
    rw [List.length_map, List.length_map] at hlen
    intro p hp
    exact of_decide_eq_true (List.length_filter_eq_length_iff.mp hlen p hp)
  · intro hclean
    rw [List.filter_eq_self.mpr fun p hp => decide_eq_true (hclean p hp)]

/-- Bytes that all come at the start. -/
def atOnce (l : List UInt8) : List Arrival := l.map fun d => ⟨d, 0, 0⟩

def restPayload : Payload := ⟨List.replicate 23 0x55, rfl⟩

/-- The payload of a frame with the header's value in the middle. -/
def headPayload : Payload := ⟨List.replicate 11 0x55 ++ SBUS_HEAD :: List.replicate 11 0x55, rfl⟩

theorem noGaps_atOnce {l : List UInt8} (h : s.time = 0) : NoGaps s (atOnce l) := by
  induction l generalizing s with
  | nil => trivial
  | cons d l ih => exact ⟨fun hlate => hlate.2 h, ih rfl⟩

/-- Two frames, both captured. -/
theorem sbus_frames_captured_two :
    (sbusGetBytes sbusIdle (atOnce (restPayload.frame ++ restPayload.frame))).captured =
      [restPayload.frame, restPayload.frame] :=
  (sbus_frames_captured_iff [restPayload, restPayload] _ (by decide) (noGaps_atOnce rfl)).mpr
    (by decide)

/-- **A frame with `0x0F` in its payload is lost.** -/
theorem sbus_frame_lost :
    (sbusGetBytes sbusIdle (atOnce headPayload.frame)).captured = [] := by
  decide

end Kinetis.Flight
