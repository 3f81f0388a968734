import Kinetis.Eeprom.At24cxx

/-!
# Eeprom — the bus under the driver

The soft I²C master asks the bus for something with every start and with every byte it sends, and
the bus answers: it is free, or the byte is acknowledged.  Here the answers are any sequence.  A
transfer ends at the first answer that is not a yes, and returns an error.

The driver's `at24cxx_port_multi_transmit` and `at24cxx_port_multi_receive` return nothing, so that
error does not reach the driver: within the range of the chip it returns 0 whatever the bus answers,
and a read of 256 bytes, whose length is 0 as a `u8`, asks the bus for nothing at all.

* `splitRule_asked`: what the bus is asked by a write, over the pages it is split into.
* `log_eq_transfers`: whatever the bus answers, the page writes are the same.
* `success_is_done_iff`: when a returned 0 says what it should.
-/

namespace Kinetis.At24cxx.Iic
open Lib

inductive IicError where
  | ebusy
  | eio
  deriving DecidableEq, Repr

/-- What a step of the master leaves: its error, and how many answers the bus has given. -/
abbrev Asked := Option IicError × Nat

def Asked.andThen (q : Asked) (f : Nat → Asked) : Asked :=
  match q with
  | (none, i) => f i
  | (some err, i) => (some err, i)

variable (acks : Nat → Bool)

/-! ### The master -/

def iicMasterSoftStart (i : Nat) : Asked := (if acks i then none else some .ebusy, i + 1)

/-- `iic_master_soft_send_byte`, which waits for the acknowledge; whatever the byte, the answer is
the next one. -/
def iicMasterSoftSendByte (i : Nat) : Asked := (if acks i then none else some .eio, i + 1)

/-- The loop over the data. -/
def sendBytes : Nat → Nat → Asked
  | 0, i => (none, i)
  | n + 1, i => (iicMasterSoftSendByte acks i).andThen (sendBytes n)

/-- `iic_master_soft_write_bytes_with_addr`: a start, the chip, the address and the data. -/
def iicMasterSoftWriteBytesWithAddr (length i : Nat) : Asked :=
  (((iicMasterSoftStart acks i).andThen (iicMasterSoftSendByte acks)).andThen
    (iicMasterSoftSendByte acks)).andThen (sendBytes acks length)

/-- The address phase of `iic_master_soft_read_bytes_with_addr`: a start, the chip, the address, a
start, and the chip again. -/
def readAddress (i : Nat) : Asked :=
  ((((iicMasterSoftStart acks i).andThen (iicMasterSoftSendByte acks)).andThen
    (iicMasterSoftSendByte acks)).andThen (iicMasterSoftStart acks)).andThen
      (iicMasterSoftSendByte acks)

/-- A page write, and what the bus answered to it. -/
structure PageWrite where
  addr    : Nat
  data    : List UInt8
  answers : List Bool

structure Bus where
  asked : Nat
  log   : List PageWrite

def PageWrite.Acked (t : PageWrite) : Prop := ∀ a ∈ t.answers, a = true

variable (pdata : Nat → UInt8)

/-- `iic_master_port_multi_transmit`: `length` is a `u8`, and 0 of them are sent at once. -/
def iicMasterPortMultiTransmit (addr pos length : Nat) (b : Bus) : Option IicError × Bus :=
  if length % 2 ^ 8 = 0 then (none, b)
  else
    let (ret, i) := iicMasterSoftWriteBytesWithAddr acks (length % 2 ^ 8) b.asked
    let answers := (List.range (i - b.asked)).map fun k => acks (b.asked + k)
    (ret, ⟨i, b.log ++ [⟨addr, readMem pdata pos (length % 2 ^ 8), answers⟩]⟩)

/-- `iic_master_port_multi_receive`: its result, and the bytes it stores.  The chip sends its bytes
from the address on. -/
def iicMasterPortMultiReceive (mem : Nat → UInt8) (addr length i : Nat) :
    Option IicError × List UInt8 :=
  if length % 2 ^ 8 = 0 then (none, [])
  else
    match readAddress acks i with
    | (none, _) =>
      (none, (List.range (length % 2 ^ 8)).map fun k => mem ((addr + k) % AT24CXX_VOLUME))
    | (some err, _) => (some err, [])

/-! ### The driver -/

/-- `at24cxx_page_write`: the result of the transfer is dropped. -/
def at24cxxPageWrite (addr pos length : Nat) (b : Bus) : Bus :=
  (iicMasterPortMultiTransmit acks pdata (addr % 2 ^ 8) pos length b).2

def at24cxxMultiPageWrite (addr length : Nat) (b : Bus) : Bus :=
  splitWrite (at24cxxPageWrite acks pdata) addr length b

/-- `at24cxx_write_data`, without the write counters. -/
def at24cxxWriteData (addr length : Nat) (b : Bus) : Outcome Bus :=
  if (addr + length) % 2 ^ 32 > AT24CXX_VOLUME then (some .einval, b)
  else (none, at24cxxMultiPageWrite acks pdata addr length b)

/-- The page writes of a call from `b` to `b'`. -/
def attempt (b b' : Bus) : List PageWrite := b'.log.drop b.log.length

/-- The retry loop, with the attempts made so far. -/
def retryWrite (addr length : Nat) :
    Nat → Bus → List (List PageWrite) → Option Errno × List (List PageWrite)
  | 0, _, attempts => (some .eio, attempts)
  | n + 1, b, attempts =>
    match at24cxxWriteData acks pdata addr length b with
    | (none, b') => (none, attempts ++ [attempt b b'])
    | (some _, b') => retryWrite addr length n b' (attempts ++ [attempt b b'])

def at24cxxWriteDataWithRetry (addr length maxRetry : Nat) (b : Bus) :
    Option Errno × List (List PageWrite) :=
  if (addr + length) % 2 ^ 32 > AT24CXX_VOLUME then (some .einval, [])
  else retryWrite acks pdata addr length maxRetry b []

/-- `at24cxx_read_data`: its result, and the buffer after it. -/
def at24cxxReadData (mem : Nat → UInt8) (addr length i : Nat) (buf : List UInt8) :
    Option Errno × List UInt8 :=
  if (addr + length) % 2 ^ 32 > AT24CXX_VOLUME then (some .einval, buf)
  else (none, filled buf (iicMasterPortMultiReceive acks mem addr length i).2)

/-! ### What the bus is asked -/

variable {acks pdata}

/-- From `i` on the master asks `n` times: it is always answered yes, or it stops at the first no
with an error. -/
structure Asks (acks : Nat → Bool) (n i : Nat) (q : Asked) : Prop where
  ok : (∀ k < n, acks (i + k) = true) → q = (none, i + n)
  stop : ∀ k < n, (∀ j < k, acks (i + j) = true) → acks (i + k) = false →
    q.1.isSome ∧ q.2 = i + k + 1

/-- One question. -/
theorem asks_one (err : IicError) (i : Nat) :
    Asks acks 1 i (if acks i then none else some err, i + 1) where
  ok h := by
    have hi := h 0 Nat.one_pos
    rw [Nat.add_zero] at hi
    rw [if_pos hi]
  stop k hk _ hno := by
    obtain rfl : k = 0 := by omega
    rw [Nat.add_zero] at hno ⊢
    rw [if_neg (by rw [hno]; exact Bool.false_ne_true)]
    exact ⟨rfl, rfl⟩

theorem asks_start (i : Nat) : Asks acks 1 i (iicMasterSoftStart acks i) := asks_one .ebusy i

theorem asks_sendByte (i : Nat) : Asks acks 1 i (iicMasterSoftSendByte acks i) := asks_one .eio i

variable {m n i addr length : Nat} {q : Asked}

theorem Asks.andThen {f : Nat → Asked} (hq : Asks acks m i q)
    (hf : Asks acks n (i + m) (f (i + m))) : Asks acks (m + n) i (q.andThen f) where
  ok h := by
    rw [hq.ok fun k hk => h k (by omega)]
    have hrest := hf.ok fun k hk => by
      rw [Nat.add_assoc]
      exact h (m + k) (by omega)
    rw [Asked.andThen, hrest, Nat.add_assoc]
  stop k hk hyes hno := by
    rcases Nat.lt_or_ge k m with hlt | hge
    · obtain ⟨herr, hasked⟩ := hq.stop k hlt hyes hno
      obtain ⟨err, j⟩ := q
      cases err with
      | none => exact absurd herr Bool.false_ne_true
      | some err => exact ⟨rfl, hasked⟩
    · obtain ⟨l, rfl⟩ := Nat.exists_eq_add_of_le hge
      rw [hq.ok fun k hk => hyes k (by omega)]
      have hstop := hf.stop l (by omega) (fun j hj => by
        rw [Nat.add_assoc]
        exact hyes (m + j) (by omega)) (by rw [Nat.add_assoc]; exact hno)
      rw [Nat.add_assoc i m l] at hstop
      exact hstop

theorem asks_sendBytes (n i : Nat) : Asks acks n i (sendBytes acks n i) := by
  induction n generalizing i with
  | zero => exact ⟨fun _ => rfl, fun k hk => absurd hk (Nat.not_lt_zero k)⟩
  | succ n ih =>
    rw [Nat.add_comm n 1, Nat.add_comm 1 n, sendBytes, Nat.add_comm n 1]
    exact (asks_sendByte i).andThen (ih (i + 1))

/-- A write of `length` bytes asks three times more. -/
theorem asks_write (length i : Nat) :
    Asks acks (3 + length) i (iicMasterSoftWriteBytesWithAddr acks length i) :=
  (((asks_start i).andThen (asks_sendByte _)).andThen (asks_sendByte _)).andThen
    (asks_sendBytes length _)

theorem asks_readAddress (i : Nat) : Asks acks 5 i (readAddress acks i) :=
  ((((asks_start i).andThen (asks_sendByte _)).andThen (asks_sendByte _)).andThen
    (asks_start _)).andThen (asks_sendByte _)

/-- Some answer is the first no. -/
theorem exists_first_no (h : ¬ ∀ k < n, acks (i + k) = true) :
    ∃ k < n, (∀ j < k, acks (i + j) = true) ∧ acks (i + k) = false := by
  induction n with
  | zero => exact absurd (fun k hk => absurd hk (Nat.not_lt_zero k)) h
  | succ n ih =>
    by_cases hall : ∀ k < n, acks (i + k) = true
    · refine ⟨n, Nat.lt_succ_self n, hall, ?_⟩
      by_contra hne
      refine h fun k hk => ?_
      rcases Nat.lt_succ_iff_lt_or_eq.mp hk with hlt | rfl
      · exact hall k hlt
      · exact Bool.eq_true_of_not_eq_false hne
    · obtain ⟨k, hk, hyes, hno⟩ := ih hall
      exact ⟨k, Nat.lt_succ_of_lt hk, hyes, hno⟩

/-- The answers are all yes when the bus says yes to everything it may be asked. -/
theorem Asks.answers_iff (h : Asks acks n i q) :
    (∀ a ∈ (List.range (q.2 - i)).map fun k => acks (i + k), a = true) ↔
      ∀ k < n, acks (i + k) = true := by
  rw [List.forall_mem_map]
  constructor
  · intro hall
    by_contra hno
    obtain ⟨k, hk, hyes, hfalse⟩ := exists_first_no hno
    have hmem : k ∈ List.range (q.2 - i) := by
      rw [(h.stop k hk hyes hfalse).2, List.mem_range]
      omega
    rw [hall k hmem] at hfalse
    exact Bool.false_ne_true hfalse.symm
  · intro hall k hk
    rw [h.ok hall, List.mem_range] at hk
    exact hall k (by omega)

/-! ### A write over its pages -/

/-- The pages of a range. -/
def pages (addr length : Nat) : Nat :=
  if length = 0 then 0 else (addr + length - 1) / 8 - addr / 8 + 1

/-- How often a write asks the bus: once for every byte, and three times for every page. -/
def asks (addr length : Nat) : Nat := length + 3 * pages addr length

theorem pages_zero (addr : Nat) : pages addr 0 = 0 := if_pos rfl

/-- A range that is cut at the start of a page. -/
theorem pages_add (h : (addr + m) % 8 = 0) :
    pages addr (m + n) = pages addr m + pages (addr + m) n := by
  rcases Nat.eq_zero_or_pos m with rfl | hm
  · rw [Nat.zero_add, Nat.add_zero, pages_zero, Nat.zero_add]
  rcases Nat.eq_zero_or_pos n with rfl | hn
  · rw [Nat.add_zero, pages_zero, Nat.add_zero]
  rw [pages, pages, pages, if_neg (by omega), if_neg (by omega), if_neg (by omega)]
  omega

theorem asks_add (h : (addr + m) % 8 = 0) :
    asks addr (m + n) = asks addr m + asks (addr + m) n := by
  rw [asks, asks, asks, pages_add h]
  omega

theorem asks_of_fits (hfit : addr % 8 + length ≤ 8) (hpos : length ≠ 0) :
    asks addr length = 3 + length := by
  rw [asks, pages, if_neg hpos]
  omega

/-- From `b` to `b'`, over a range, everything the bus was asked was acknowledged exactly when the
answers it has for the range are yes. -/
def RangeAsked (acks : Nat → Bool) (addr _pos length : Nat) (b b' : Bus) : Prop :=
  ∃ ts, b'.log = b.log ++ ts ∧
    ((∀ t ∈ ts, t.Acked) ↔ ∀ k < asks addr length, acks (b.asked + k) = true) ∧
    ((∀ t ∈ ts, t.Acked) → b'.asked = b.asked + asks addr length)

theorem rangeAsked_nil (addr pos : Nat) (b : Bus) : RangeAsked acks addr pos 0 b b :=
  ⟨[], (List.append_nil _).symm,
    iff_of_true (fun _ ht => absurd ht List.not_mem_nil) fun k hk => absurd hk (Nat.not_lt_zero k),
    fun _ => rfl⟩

/-- **The split**: a write asks the bus for its whole range. -/
theorem splitRule_asked : SplitRule (at24cxxPageWrite acks pdata) (RangeAsked acks) where
  nil := rangeAsked_nil
  trans := by
    rintro addr pos m n b b' b'' hcut ⟨ts, hlog, hiff, hasked⟩ ⟨ts', hlog', hiff', hasked'⟩
    refine ⟨ts ++ ts', by rw [hlog', hlog, List.append_assoc], ?_, ?_⟩
    · rw [List.forall_mem_append, asks_add hcut]
      constructor
      · rintro ⟨hall, hall'⟩ k hk
        rcases Nat.lt_or_ge k (asks addr m) with hlt | hge
        · exact hiff.mp hall k hlt
        · obtain ⟨l, rfl⟩ := Nat.exists_eq_add_of_le hge
          have hl := hiff'.mp hall' l (by omega)
          rw [hasked hall, Nat.add_assoc] at hl
          exact hl
      · intro hall
        have hfirst := hiff.mpr fun k hk => hall k (by omega)
        refine ⟨hfirst, hiff'.mpr fun k hk => ?_⟩
        rw [hasked hfirst, Nat.add_assoc]
        exact hall _ (by omega)
    · intro hall
      rw [List.forall_mem_append] at hall
      rw [hasked' hall.2, hasked hall.1, asks_add hcut, Nat.add_assoc]
  write := by
    intro addr pos length b hfit hend
    have hlen : length % 2 ^ 8 = length := by omega
    rw [at24cxxPageWrite, iicMasterPortMultiTransmit, hlen]
    split
    · rename_i hzero
      subst hzero
      exact rangeAsked_nil addr pos b
    · rename_i hpos
      have hasks : Asks acks (3 + length) b.asked _ := asks_write length b.asked
      refine ⟨_, rfl, ?_, ?_⟩
      · rw [List.forall_mem_singleton, asks_of_fits hfit hpos]
        exact hasks.answers_iff
      · intro hall
        rw [List.forall_mem_singleton] at hall
        have hyes := hasks.answers_iff.mp hall
        rw [asks_of_fits hfit hpos]
        exact congrArg Prod.snd (hasks.ok hyes)

/-- **Whatever the bus answers**, the page writes are those of the driver on a chip that acknowledges
everything. -/
theorem log_eq_transfers (addr length : Nat) (b : Bus) (e : Eeprom)
    (h : b.log.map (fun t => Transfer.write t.addr t.data) = e.bus) :
    (at24cxxMultiPageWrite acks pdata addr length b).log.map
        (fun t => Transfer.write t.addr t.data) =
      (At24cxx.at24cxxMultiPageWrite pdata addr length e).bus := by
  rw [multiPageWrite_eq_split]
  refine splitWrite_sim
    (S := fun (b : Bus) (e : Eeprom) => b.log.map (fun t => Transfer.write t.addr t.data) = e.bus)
    ?_ h
  intro addr pos length b e h
  rw [at24cxxPageWrite, iicMasterPortMultiTransmit, At24cxx.at24cxxPageWrite,
    At24cxx.iicMasterPortMultiTransmit]
  split
  · exact h
  · rw [List.map_append, h]
    rfl

theorem log_eq_transfers_silent :
    (at24cxxMultiPageWrite (fun _ => false) (fun _ => 1) 6 4 ⟨0, []⟩).log.map
        (fun t => Transfer.write t.addr t.data) =
      (At24cxx.at24cxxMultiPageWrite (fun _ => 1) 6 4 blank).bus :=
  log_eq_transfers 6 4 _ _ rfl

/-! ### What a returned 0 says -/

theorem guard_of_le (h : addr + length ≤ AT24CXX_VOLUME) :
    ¬ (addr + length) % 2 ^ 32 > AT24CXX_VOLUME := by
  omega

/-- A write in range returns 0, and its page writes are acknowledged exactly when the bus says yes
to all it may be asked. -/
theorem writeData_attempt (acks : Nat → Bool) (pdata : Nat → UInt8) (b : Bus)
    (hend : addr + length ≤ AT24CXX_VOLUME) :
    ∃ b', at24cxxWriteData acks pdata addr length b = (none, b') ∧
      ((∀ t ∈ attempt b b', t.Acked) ↔ ∀ k < asks addr length, acks (b.asked + k) = true) := by
  have hrule : SplitRule (at24cxxPageWrite acks pdata) (RangeAsked acks) := splitRule_asked
  obtain ⟨ts, hlog, hiff, -⟩ := splitWrite_rel hrule b hend
  refine ⟨_, if_neg (guard_of_le hend), ?_⟩
  rw [attempt, at24cxxMultiPageWrite, hlog, List.drop_left]
  exact hiff

/-- The buffer holds the bytes of the chip. -/
def Holds (mem : Nat → UInt8) (addr length : Nat) (buf : List UInt8) : Prop :=
  buf.take length = readMem mem addr length

/-- The read moves bytes: the length is not 0 as a `u8`, and the bus says yes. -/
def Moves (acks : Nat → Bool) (length i : Nat) : Prop :=
  length % 2 ^ 8 ≠ 0 ∧ ∀ k < 5, acks (i + k) = true

theorem receive_of_moves (mem : Nat → UInt8) (hend : addr + length ≤ AT24CXX_VOLUME)
    (h : Moves acks length i) :
    (iicMasterPortMultiReceive acks mem addr length i).2 = readMem mem addr length := by
  obtain ⟨hpos, hyes⟩ := h
  have hlen : length % 2 ^ 8 = length := by
    rw [AT24CXX_VOLUME] at hend
    omega
  rw [iicMasterPortMultiReceive, if_neg hpos, (asks_readAddress i).ok hyes, hlen]
  refine List.map_congr_left fun k hk => ?_
  have hlt := List.mem_range.mp hk
  rw [Nat.mod_eq_of_lt (by omega)]

/-- Otherwise it stores nothing. -/
theorem receive_of_not_moves (mem : Nat → UInt8) (h : ¬ Moves acks length i) :
    (iicMasterPortMultiReceive acks mem addr length i).2 = [] := by
  rw [iicMasterPortMultiReceive]
  split
  · rfl
  · rename_i hpos
    obtain ⟨k, hk, hbefore, hno⟩ := exists_first_no fun hyes => h ⟨hpos, hyes⟩
    have hasks : Asks acks 5 i (readAddress acks i) := asks_readAddress i
    have hstop := (hasks.stop k hk hbefore hno).1
    split
    · rename_i hok
      rw [hok] at hstop
      exact absurd hstop Bool.false_ne_true
    · rfl

/-- **What a returned 0 says.**  In range, with any content of the chip and any answers of the bus:
a read that returns 0 has the bytes in the buffer exactly when the bus said yes to its five
questions and the length is not 0 as a `u8`, or they were there before; and a write that returns 0
has an attempt of which every page write is acknowledged exactly when the bus said yes to all it
was asked, once for every byte and three times for every page, or it was allowed no attempt. -/
theorem success_is_done_iff (acks : Nat → Bool) (mem pdata : Nat → UInt8) (addr length : Nat)
    (hend : addr + length ≤ AT24CXX_VOLUME) :
    (∀ i (buf : List UInt8),
      (((at24cxxReadData acks mem addr length i buf).1 = none →
          Holds mem addr length (at24cxxReadData acks mem addr length i buf).2) ↔
        Moves acks length i ∨ Holds mem addr length buf)) ∧
    (∀ b : Bus,
      (((at24cxxWriteData acks pdata addr length b).1 = none →
          ∀ t ∈ attempt b (at24cxxWriteData acks pdata addr length b).2, t.Acked) ↔
        ∀ k < asks addr length, acks (b.asked + k) = true)) ∧
    ∀ (b : Bus) (maxRetry : Nat),
      (((at24cxxWriteDataWithRetry acks pdata addr length maxRetry b).1 = none →
          ∃ a ∈ (at24cxxWriteDataWithRetry acks pdata addr length maxRetry b).2,
            ∀ t ∈ a, t.Acked) ↔
        maxRetry = 0 ∨ ∀ k < asks addr length, acks (b.asked + k) = true) := by
  refine ⟨fun i buf => ?_, fun b => ?_, fun b maxRetry => ?_⟩
  · rw [at24cxxReadData, if_neg (guard_of_le hend)]
    by_cases hmoves : Moves acks length i
    · rw [receive_of_moves mem hend hmoves]
      exact iff_of_true (fun _ => take_filled (length_readMem _ _ _)) (.inl hmoves)
    · rw [receive_of_not_moves mem hmoves, filled_nil]
      exact ⟨fun h => .inr (h rfl), fun h _ => h.resolve_left hmoves⟩
  · obtain ⟨b', hok, hiff⟩ := writeData_attempt acks pdata b hend
    rw [hok]
    exact ⟨fun h => hiff.mp (h rfl), fun h _ => hiff.mpr h⟩
  · obtain ⟨b', hok, hiff⟩ := writeData_attempt acks pdata b hend
    rw [at24cxxWriteDataWithRetry, if_neg (guard_of_le hend)]
    cases maxRetry with
    | zero => exact iff_of_true (fun h => absurd h (Option.some_ne_none _)) (.inl rfl)
    | succ n =>
      -- the first attempt returns 0, so it is the only one
      rw [retryWrite, hok]
      refine ⟨fun h => .inr (hiff.mp ?_), fun h _ => ⟨_, List.mem_singleton_self _, ?_⟩⟩
      · obtain ⟨a, ha, hall⟩ := h rfl
        rw [List.mem_singleton.mp ha] at hall
        exact hall
      · exact hiff.mpr (h.resolve_left (Nat.succ_ne_zero n))

/-- Two bytes in one page, on a bus that says yes. -/
theorem success_is_done_yes :
    3 + 2 ≤ AT24CXX_VOLUME ∧
      ∀ t ∈ attempt ⟨0, []⟩ (at24cxxWriteData (fun _ => true) (fun _ => 7) 3 2 ⟨0, []⟩).2,
        t.Acked := by
  obtain ⟨-, hwrite, -⟩ :=
    success_is_done_iff (fun _ => true) (fun _ => 0) (fun _ => 7) 3 2 (by decide)
  exact ⟨by decide, (hwrite ⟨0, []⟩).mpr (fun _ _ => rfl) (by decide)⟩

/-- On a bus that answers nothing, a write returns 0 and its page write is not acknowledged; and a
read of 256 bytes returns 0 on any bus and stores none. -/
theorem unanswered_success :
    (at24cxxWriteData (fun _ => false) (fun _ => 7) 0 1 ⟨0, []⟩).1 = none ∧
      attempt ⟨0, []⟩ (at24cxxWriteData (fun _ => false) (fun _ => 7) 0 1 ⟨0, []⟩).2 =
        [⟨0, [7], [false]⟩] ∧
      at24cxxReadData (fun _ => true) (fun _ => 7) 0 256 0 (List.replicate 256 0) =
        (none, List.replicate 256 0) :=
  ⟨rfl, rfl, rfl⟩

end Kinetis.At24cxx.Iic
