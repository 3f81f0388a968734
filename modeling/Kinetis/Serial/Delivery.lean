import Kinetis.Lib.Circular
import Kinetis.Lib.Runs
import Kinetis.Serial.SerialPort

/-!
# Serial — what is sent arrives, once and in order

The invariant counts the bytes of the whole run.  `head` is the number of bytes the receiver has
taken from the ring and `tail` the number the thread has published there; `consumer` and `producer`
are these numbers modulo the size of the ring, which holds the stretch between them, and the mailbox
holds what was sent after `tail`.

* `Inv.transmitStep`, `Inv.copyToOthersStep`, `Inv.receiveStep`: one step of each party;
* `returned_in_order`: over every interleaving, the bytes returned are a prefix of those transmitted.
-/

namespace Kinetis.SerialPort

open Lib (Holds Run)

/-! ### The invariant -/

/-- Bytes beyond `producer` that the thread has already put into the ring. -/
def ThreadPc.copied : ThreadPc → Nat
  | .copying _ _ i => i
  | .storeProducer size _ => size
  | _ => 0

/-- Bytes beyond `consumer` that the receiver has already taken. -/
def RxPc.ahead : RxPc → Nat
  | .copyRead _ _ | .copyCleared _ _ => 1
  | _ => 0

/-- Bytes of the mailbox that are not in the ring. -/
def State.mailed (s : State) : Nat :=
  if s.thread = .storeSize then 0 else s.transmittedSize

/-- The transmitter fills the mailbox only while it is empty. -/
def TxOk (s : State) : Prop :=
  match s.tx with
  | .idle => True
  | .waiting data => 1 ≤ data.length ∧ data.length < 1024
  | .copying data i =>
    (1 ≤ data.length ∧ data.length < 1024) ∧ s.transmittedSize = 0 ∧ i ≤ data.length ∧
      ∀ j < i, data[j]? = some (s.txBuffer j)

/-- The thread works on the message in the mailbox, and copies only with room for all of it. -/
def ThreadOk (s : State) (head tail : Nat) : Prop :=
  match s.thread with
  | .top | .loadSize | .exited => True
  | .space size | .spaceProducer size => size = s.transmittedSize ∧ 0 < size
  | .spaceConsumer size producer =>
    (size = s.transmittedSize ∧ 0 < size) ∧ producer = s.producer
  | .recheck size =>
    (size = s.transmittedSize ∧ 0 < size) ∧ (s.threadSwitch = true → tail + size ≤ head + 1023)
  | .loadPos size => (size = s.transmittedSize ∧ 0 < size) ∧ tail + size ≤ head + 1023
  | .copying size pos i =>
    (size = s.transmittedSize ∧ 0 < size) ∧ tail + size ≤ head + 1023 ∧ pos = s.producer ∧ i ≤ size
  | .storeProducer size pos =>
    (size = s.transmittedSize ∧ 0 < size) ∧ tail + size ≤ head + 1023 ∧ pos = s.producer
  | .storeSize => 0 < s.transmittedSize

/-- The receiver takes only bytes that are in the ring. -/
def RxOk (s : State) (head tail : Nat) : Prop :=
  match s.rx with
  | .idle => s.buffer = []
  | .polling _ elapsed => s.buffer = [] ∧ (elapsed = 0 ∨ s.rxComplete = false)
  | .extract _ _ consumer => s.buffer = [] ∧ consumer = s.consumer
  | .polled _ _ => s.buffer = [] ∧ head + s.receivedSize ≤ tail
  | .copying i => s.buffer.length = i ∧ i ≤ s.receivedSize ∧ head + s.receivedSize ≤ tail + i
  | .copyLoaded i consumer =>
    s.buffer.length = i ∧ i < s.receivedSize ∧ head + s.receivedSize ≤ tail + i ∧
      consumer = s.consumer
  | .copyRead i consumer | .copyCleared i consumer =>
    s.buffer.length = i + 1 ∧ i < s.receivedSize ∧ head + s.receivedSize ≤ tail + i ∧
      consumer = s.consumer
  | .usedProducer | .usedConsumer _ => s.buffer.length = s.receivedSize

/-- **The invariant**, for `head` bytes taken and `tail` bytes published. -/
structure Inv (s : State) (head tail : Nat) : Prop where
  consumer : s.consumer = head % 1024
  producer : s.producer = tail % 1024
  taken_le : head + s.rx.ahead ≤ tail
  room     : tail + s.thread.copied ≤ head + 1023
  ring     : Holds s.rxBuffer 1024 s.transmitted (head + s.rx.ahead) (tail + s.thread.copied)
  mail     : tail + s.mailed = s.transmitted.length
  mailbox  : ∀ j < s.mailed, s.transmitted[tail + j]? = some (s.txBuffer j)
  taken    : s.returned ++ s.buffer = s.transmitted.take (head + s.rx.ahead)
  tx       : TxOk s
  thread   : ThreadOk s head tail
  rx       : RxOk s head tail

variable {s : State} {head tail : Nat}

theorem Inv.init : Inv State.init 0 0 where
  consumer := rfl
  producer := rfl
  taken_le := Nat.le_refl 0
  room     := Nat.zero_le _
  ring     := Holds.empty _ _ _ _
  mail     := rfl
  mailbox  := fun j hj => absurd hj (Nat.not_lt_zero j)
  taken    := rfl
  tx       := trivial
  thread   := trivial
  rx       := rfl

/-! ### What the parties' steps leave alone -/

theorem ThreadOk.mono {head' : Nat} (h : ThreadOk s head tail) (hle : head ≤ head') :
    ThreadOk s head' tail := by
  unfold ThreadOk at *
  split at h
  · trivial
  · trivial
  · trivial
  · exact h
  · exact h
  · exact h
  · exact ⟨h.1, fun hs => Nat.le_trans (h.2 hs) (Nat.add_le_add_right hle _)⟩
  · exact ⟨h.1, Nat.le_trans h.2 (Nat.add_le_add_right hle _)⟩
  · exact ⟨h.1, Nat.le_trans h.2.1 (Nat.add_le_add_right hle _), h.2.2⟩
  · exact ⟨h.1, Nat.le_trans h.2.1 (Nat.add_le_add_right hle _), h.2.2⟩
  · exact h

theorem RxOk.mono {tail' : Nat} (h : RxOk s head tail) (hle : tail ≤ tail') :
    RxOk s head tail' := by
  unfold RxOk at *
  split at h
  · exact h
  · exact h
  · exact h
  · exact ⟨h.1, Nat.le_trans h.2 hle⟩
  · exact ⟨h.1, h.2.1, Nat.le_trans h.2.2 (Nat.add_le_add_right hle _)⟩
  · exact ⟨h.1, h.2.1, Nat.le_trans h.2.2.1 (Nat.add_le_add_right hle _), h.2.2.2⟩
  · exact ⟨h.1, h.2.1, Nat.le_trans h.2.2.1 (Nat.add_le_add_right hle _), h.2.2.2⟩
  · exact ⟨h.1, h.2.1, Nat.le_trans h.2.2.1 (Nat.add_le_add_right hle _), h.2.2.2⟩
  · exact h
  · exact h

/-- With an empty mailbox the thread is between two messages. -/
theorem ThreadOk.of_empty (h : ThreadOk s head tail) (he : s.transmittedSize = 0) :
    s.thread = .top ∨ s.thread = .loadSize ∨ s.thread = .exited := by
  unfold ThreadOk at h
  split at h
  · exact .inl ‹_›
  · exact .inr (.inl ‹_›)
  · exact .inr (.inr ‹_›)
  all_goals omega

/-! ### The transmitter -/

variable {data : List UInt8} {size i pos consumer : Nat}

theorem txSize_of_lt (h : data.length < 1024) : txSize data = data.length :=
  if_neg (Nat.not_le_of_lt h)

theorem Inv.transmitCall (h : Inv s head tail) (hdata : 1 ≤ data.length)
    (hlt : data.length < 1024) : Inv (transmitCall data s) head tail := by
  unfold SerialPort.transmitCall
  split
  · exact { h with tx := ⟨hdata, hlt⟩ }
  · exact h

theorem Inv.publish (h : Inv s head tail) (hlt : data.length < 1024) (hmailed : s.mailed = 0)
    (hempty : s.transmittedSize = 0) (hcopied : ∀ j < data.length, data[j]? = some (s.txBuffer j)) :
    Inv (publish data s) head tail := by
  have hmail := h.mail
  have hlen : s.transmitted.length = tail := by omega
  have htaken := h.taken_le
  -- the thread is not about to empty the mailbox
  have hpc := h.thread.of_empty hempty
  have hnew : (SerialPort.publish data s).mailed = data.length := by
    rw [← txSize_of_lt hlt]
    refine if_neg ?_
    rw [SerialPort.publish]
    rcases hpc with hpc | hpc | hpc
    · simp [hpc]
    · simp [hpc]
    · simp [hpc]
  refine { h with
    ring := h.ring.append data
    mail := ?_
    mailbox := fun j hj => ?_
    taken := ?_
    tx := trivial
    thread := ?_ }
  · rw [hnew, SerialPort.publish, List.length_append, hlen]
  · rw [hnew] at hj
    rw [SerialPort.publish, List.getElem?_append_right (by omega),
      show tail + j - s.transmitted.length = j by omega]
    exact hcopied j hj
  · rw [SerialPort.publish, List.take_append_of_le_length (by dsimp only; omega)]
    exact h.taken
  · unfold ThreadOk SerialPort.publish
    rcases hpc with hpc | hpc | hpc
    · rw [hpc]
      trivial
    · rw [hpc]
      trivial
    · rw [hpc]
      trivial

/-- **One step of the transmitter.** -/
theorem Inv.transmitStep (h : Inv s head tail) : Inv (transmitStep s) head tail := by
  have htx := h.tx
  unfold TxOk at htx
  unfold SerialPort.transmitStep
  split
  · exact h
  · rename_i data hpc
    rw [hpc] at htx
    split
    · exact h
    · rename_i hempty
      exact { h with
        tx := ⟨htx, Nat.eq_zero_of_not_pos hempty, Nat.zero_le _,
          fun j hj => absurd hj (Nat.not_lt_zero j)⟩ }
  · rename_i data i hpc
    rw [hpc] at htx
    obtain ⟨hlen, hempty, hi, hcopied⟩ := htx
    have hmailed : s.mailed = 0 := by
      unfold State.mailed
      split
      · rfl
      · exact hempty
    rw [txSize_of_lt hlen.2]
    split
    · rename_i hlt
      refine { h with
        mailbox := fun j hj => absurd (hmailed ▸ hj : j < 0) (Nat.not_lt_zero j)
        tx := ⟨hlen, hempty, hlt, fun j hj => ?_⟩ }
      dsimp only
      rcases Nat.lt_succ_iff_lt_or_eq.mp hj with hji | rfl
      · rw [Function.update_of_ne (Nat.ne_of_lt hji)]
        exact hcopied j hji
      · rw [Function.update_self, List.getD_eq_getElem?_getD, List.getElem?_eq_getElem hlt,
          Option.getD_some]
    · rename_i hdone
      obtain rfl : i = data.length := Nat.le_antisymm hi (Nat.le_of_not_lt hdone)
      exact h.publish hlen.2 hmailed hempty hcopied

/-! ### The thread -/

theorem availableSpace_eq {head tail : Nat} (hle : head ≤ tail) (hroom : tail ≤ head + 1023)
    (h : ¬ availableSpace (tail % 1024) (head % 1024) < size) : tail + size ≤ head + 1023 := by
  rw [availableSpace, SERIAL_PORT_BUFFER_SIZE] at h
  omega

theorem copyIndex_eq {tail : Nat} (hi : i < size) (hsize : size ≤ 1023) :
    copyIndex size (tail % 1024) i = (tail + i) % 1024 := by
  rw [copyIndex, SERIAL_PORT_BUFFER_SIZE]
  split
  · omega
  · split
    · omega
    · omega

/-- The thread goes on without touching anything shared. -/
theorem Inv.goto (h : Inv s head tail) {pc pc' : ThreadPc} (hpc : s.thread = pc)
    (hcopied : pc'.copied = pc.copied) (hstore : pc ≠ .storeSize) (hstore' : pc' ≠ .storeSize)
    (hok : ThreadOk { s with thread := pc' } head tail) :
    Inv { s with thread := pc' } head tail := by
  subst hpc
  have hmailed : State.mailed { s with thread := pc' } = s.mailed := by
    rw [State.mailed, State.mailed, if_neg hstore, if_neg hstore']
  exact { h with
    room := hcopied ▸ h.room
    ring := hcopied ▸ h.ring
    mail := hmailed ▸ h.mail
    mailbox := hmailed ▸ h.mailbox
    thread := hok }

/-- A byte copied into the ring. -/
theorem Inv.copyByte (h : Inv s head tail) (hpc : s.thread = .copying size pos i) (hi : i < size) :
    Inv { s with
      rxBuffer := Function.update s.rxBuffer (copyIndex size pos i) (s.txBuffer i)
      thread := .copying size pos (i + 1) } head tail := by
  have hth := h.thread
  unfold ThreadOk at hth
  rw [hpc] at hth
  obtain ⟨⟨hsize, hpos⟩, hroom, rfl, -⟩ := hth
  have hmailed : s.mailed = size := by rw [State.mailed, if_neg (by simp [hpc]), hsize]
  have hle := h.taken_le
  have hring := h.ring
  rw [hpc] at hring
  have hbyte : s.transmitted[tail + i]? = some (s.txBuffer i) := h.mailbox i (hmailed ▸ hi)
  have hindex : copyIndex size s.producer i = (tail + i) % 1024 := by
    rw [h.producer, copyIndex_eq hi (by omega)]
  rw [hindex]
  have hmailed' : State.mailed { s with
      rxBuffer := Function.update s.rxBuffer ((tail + i) % 1024) (s.txBuffer i)
      thread := .copying size s.producer (i + 1) } = s.mailed := by
    rw [State.mailed, State.mailed, hpc, if_neg (by simp), if_neg (by simp)]
  exact { h with
    room := by dsimp only [ThreadPc.copied]; omega
    ring := hring.write hbyte (by dsimp only [ThreadPc.copied]; omega)
    mail := hmailed' ▸ h.mail
    mailbox := hmailed' ▸ h.mailbox
    thread := ⟨⟨hsize, hpos⟩, hroom, rfl, hi⟩ }

/-- The store that publishes the message in the ring. -/
theorem Inv.storeProducer (h : Inv s head tail) (hpc : s.thread = .storeProducer size pos) :
    Inv { s with producer := (pos + size) % SERIAL_PORT_BUFFER_SIZE, thread := .storeSize }
      head (tail + size) := by
  have hth := h.thread
  unfold ThreadOk at hth
  rw [hpc] at hth
  obtain ⟨⟨hsize, hpos⟩, hroom, rfl⟩ := hth
  have hmailed : s.mailed = size := by rw [State.mailed, if_neg (by simp [hpc]), hsize]
  have hmail := h.mail
  have hring := h.ring
  rw [hpc] at hring
  refine { h with
    producer := ?_
    taken_le := Nat.le_trans h.taken_le (Nat.le_add_right _ _)
    room := hroom
    ring := hring
    mail := ?_
    mailbox := fun j hj => absurd hj (Nat.not_lt_zero j)
    thread := ?_
    rx := h.rx.mono (Nat.le_add_right _ _) }
  · rw [h.producer, SERIAL_PORT_BUFFER_SIZE, Nat.mod_add_mod]
  · rw [← hmail, hmailed]
    rfl
  · exact hsize ▸ hpos

/-- The store that empties the mailbox. -/
theorem Inv.storeSize (h : Inv s head tail) (hpc : s.thread = .storeSize) :
    Inv { s with transmittedSize := 0, thread := .top } head tail := by
  have hmailed : s.mailed = 0 := by rw [State.mailed, if_pos hpc]
  have htx : TxOk { s with transmittedSize := 0, thread := .top } := by
    have htx := h.tx
    unfold TxOk at htx ⊢
    dsimp only
    cases hpc : s.tx with
    | idle => trivial
    | waiting data =>
      rw [hpc] at htx
      exact htx
    | copying data i =>
      rw [hpc] at htx
      exact ⟨htx.1, rfl, htx.2.2⟩
  have hroom := h.room
  have hring := h.ring
  rw [hpc] at hroom hring
  exact { h with
    room := hroom
    ring := hring
    mail := hmailed ▸ h.mail
    mailbox := fun j hj => absurd hj (Nat.not_lt_zero j)
    tx := htx
    thread := trivial }

/-- **One step of the thread.** -/
theorem Inv.copyToOthersStep (h : Inv s head tail) :
    ∃ tail', Inv (copyToOthersStep s) head tail' := by
  have hth := h.thread
  unfold ThreadOk at hth
  rw [SerialPort.copyToOthersStep]
  cases hpc : s.thread with
  | top =>
    dsimp only
    split
    · exact ⟨tail, h.goto hpc rfl (by simp) (by simp) trivial⟩
    · exact ⟨tail, h.goto hpc rfl (by simp) (by simp) trivial⟩
  | loadSize =>
    dsimp only
    split
    · rename_i hpos
      exact ⟨tail, h.goto hpc rfl (by simp) (by simp) ⟨rfl, hpos⟩⟩
    · exact ⟨tail, h.goto hpc rfl (by simp) (by simp) trivial⟩
  | space size =>
    rw [hpc] at hth
    dsimp only
    split
    · exact ⟨tail, h.goto hpc rfl (by simp) (by simp) hth⟩
    · rename_i hoff
      exact ⟨tail, h.goto hpc rfl (by simp) (by simp) ⟨hth, fun hon => absurd hon hoff⟩⟩
  | spaceProducer size =>
    rw [hpc] at hth
    exact ⟨tail, h.goto hpc rfl (by simp) (by simp) ⟨hth, rfl⟩⟩
  | spaceConsumer size producer =>
    rw [hpc] at hth
    obtain ⟨hsize, rfl⟩ := hth
    have hle := h.taken_le
    have hroom := h.room
    dsimp only
    split
    · exact ⟨tail, h.goto hpc rfl (by simp) (by simp) hsize⟩
    · rename_i hspace
      rw [h.producer, h.consumer] at hspace
      have hfits := availableSpace_eq (by omega) (by omega) hspace
      exact ⟨tail, h.goto hpc rfl (by simp) (by simp) ⟨hsize, fun _ => hfits⟩⟩
  | recheck size =>
    rw [hpc] at hth
    dsimp only
    split
    · rename_i hon
      exact ⟨tail, h.goto hpc rfl (by simp) (by simp) ⟨hth.1, hth.2 hon⟩⟩
    · exact ⟨tail, h.goto hpc rfl (by simp) (by simp) trivial⟩
  | loadPos size =>
    rw [hpc] at hth
    exact ⟨tail, h.goto hpc rfl (by simp) (by simp) ⟨hth.1, hth.2, rfl, Nat.zero_le _⟩⟩
  | copying size pos i =>
    rw [hpc] at hth
    dsimp only
    split
    · rename_i hi
      exact ⟨tail, h.copyByte hpc hi⟩
    · rename_i hdone
      obtain ⟨hsize, hroom, hpos, hi⟩ := hth
      obtain rfl : i = size := Nat.le_antisymm hi (Nat.le_of_not_lt hdone)
      exact ⟨tail, h.goto hpc rfl (by simp) (by simp) ⟨hsize, hroom, hpos⟩⟩
  | storeProducer size pos => exact ⟨tail + size, h.storeProducer hpc⟩
  | storeSize => exact ⟨tail, h.storeSize hpc⟩
  | exited => exact ⟨tail, h⟩

theorem Inv.stopThread (h : Inv s head tail) : Inv (stopThread s) head tail := by
  refine { h with thread := ?_ }
  have hth := h.thread
  unfold ThreadOk SerialPort.stopThread at *
  dsimp only
  split at hth
  · trivial
  · trivial
  · trivial
  · exact hth
  · exact hth
  · exact hth
  · exact ⟨hth.1, fun hon => absurd hon Bool.false_ne_true⟩
  · exact hth
  · exact hth
  · exact hth
  · exact hth

/-! ### The receiver -/

/-- The receiver goes on without touching anything shared. -/
theorem Inv.rxGoto (h : Inv s head tail) {pc pc' : RxPc} {complete : Bool} (hpc : s.rx = pc)
    (hahead : pc'.ahead = pc.ahead)
    (hok : RxOk { s with rxComplete := complete, rx := pc' } head tail) :
    Inv { s with rxComplete := complete, rx := pc' } head tail := by
  subst hpc
  exact { h with
    taken_le := hahead ▸ h.taken_le
    ring := hahead ▸ h.ring
    taken := hahead ▸ h.taken
    rx := hok }

theorem Inv.receiveCall (h : Inv s head tail) (size timeout : Nat) :
    Inv (receiveCall size timeout s) head tail := by
  have hrx := h.rx
  unfold RxOk at hrx
  rw [SerialPort.receiveCall]
  cases hpc : s.rx with
  | idle =>
    rw [hpc] at hrx
    dsimp only
    split
    · exact h
    · exact h.rxGoto hpc rfl ⟨hrx, .inl rfl⟩
  | _ => exact h

theorem Inv.receiveReturn (h : Inv s head tail) (hahead : s.rx.ahead = 0)
    (hlen : s.buffer.length = s.receivedSize) (complete overflow : Bool) :
    Inv (receiveReturn { s with rxComplete := complete, overflow := overflow }) head tail := by
  have htaken_le := h.taken_le
  have hring := h.ring
  have htaken := h.taken
  rw [hahead] at htaken_le hring htaken
  refine { h with taken_le := htaken_le, ring := hring, taken := ?_, rx := rfl }
  rw [SerialPort.receiveReturn]
  rw [List.append_nil, ← hlen, List.take_length, htaken]
  rfl

/-- The byte is read. -/
theorem Inv.copyLoaded (h : Inv s head tail) (hpc : s.rx = .copyLoaded i consumer) :
    Inv { s with buffer := s.buffer ++ [s.rxBuffer consumer], rx := .copyRead i consumer }
      head tail := by
  have hrx := h.rx
  unfold RxOk at hrx
  have hring := h.ring
  have htaken := h.taken
  rw [hpc] at hrx hring htaken
  obtain ⟨hlen, hi, hle, rfl⟩ := hrx
  refine { h with
    taken_le := ?_
    ring := hring.mono (Nat.le_succ _) (Nat.le_refl _)
    taken := ?_
    rx := ⟨?_, hi, hle, rfl⟩ }
  · dsimp only [RxPc.ahead]
    omega
  · dsimp only [RxPc.ahead] at htaken hring ⊢
    rw [hring.take_succ (by omega), ← List.append_assoc, htaken, h.consumer]
    rfl
  · rw [List.length_append, hlen]
    rfl

/-- Its slot is cleared. -/
theorem Inv.copyRead (h : Inv s head tail) (hpc : s.rx = .copyRead i consumer) :
    Inv { s with
      rxBuffer := Function.update s.rxBuffer consumer 0
      rx := .copyCleared i consumer } head tail := by
  have hrx := h.rx
  unfold RxOk at hrx
  have hring := h.ring
  have htaken := h.taken
  have htaken_le := h.taken_le
  have hroom := h.room
  rw [hpc] at hrx hring htaken htaken_le
  obtain ⟨hlen, hi, hle, rfl⟩ := hrx
  have hcleared := hring.clear (by omega) 0
  rw [← h.consumer] at hcleared
  exact { h with
    taken_le := htaken_le
    ring := hcleared
    taken := htaken
    rx := ⟨hlen, hi, hle, rfl⟩ }

/-- The slot is given back to the writer. -/
theorem Inv.copyCleared (h : Inv s head tail) (hpc : s.rx = .copyCleared i consumer) :
    Inv { s with consumer := (consumer + 1) % SERIAL_PORT_BUFFER_SIZE, rx := .copying (i + 1) }
      (head + 1) tail := by
  have hrx := h.rx
  unfold RxOk at hrx
  have hring := h.ring
  have htaken := h.taken
  have htaken_le := h.taken_le
  have hroom := h.room
  rw [hpc] at hrx hring htaken htaken_le
  obtain ⟨hlen, hi, hle, rfl⟩ := hrx
  refine { h with
    consumer := ?_
    taken_le := htaken_le
    room := by dsimp only; omega
    ring := hring
    taken := htaken
    thread := h.thread.mono (Nat.le_succ _)
    rx := ⟨hlen, hi, by dsimp only; omega⟩ }
  rw [h.consumer, SERIAL_PORT_BUFFER_SIZE, Nat.mod_add_mod]

theorem Inv.extract (h : Inv s head tail) {timeout elapsed : Nat}
    (hpc : s.rx = .extract timeout elapsed consumer) :
    let size := (s.producer + SERIAL_PORT_BUFFER_SIZE - consumer) % SERIAL_PORT_BUFFER_SIZE
    Inv { s with receivedSize := size, rxComplete := size > 0, rx := .polled timeout elapsed }
      head tail := by
  have hrx := h.rx
  unfold RxOk at hrx
  have hring := h.ring
  have htaken := h.taken
  have htaken_le := h.taken_le
  have hroom := h.room
  rw [hpc] at hrx hring htaken htaken_le
  obtain ⟨hbuffer, rfl⟩ := hrx
  have hsize : (s.producer + SERIAL_PORT_BUFFER_SIZE - s.consumer) % SERIAL_PORT_BUFFER_SIZE
      = tail - head := by
    rw [h.producer, h.consumer, SERIAL_PORT_BUFFER_SIZE]
    dsimp only [RxPc.ahead] at htaken_le
    omega
  exact { h with
    taken_le := htaken_le
    ring := hring
    taken := htaken
    rx := ⟨hbuffer, by dsimp only; omega⟩ }

/-- **One step of the receiver.** -/
theorem Inv.receiveStep (h : Inv s head tail) : ∃ head', Inv (receiveStep s) head' tail := by
  have hrx := h.rx
  unfold RxOk at hrx
  rw [SerialPort.receiveStep]
  cases hpc : s.rx with
  | idle => exact ⟨head, h⟩
  | polling timeout elapsed =>
    rw [hpc] at hrx
    dsimp only
    split
    · exact ⟨head, h.rxGoto hpc rfl ⟨hrx.1, rfl⟩⟩
    · rename_i hover
      split
      · rename_i hcomplete
        -- the last poll found nothing
        have hfalse : s.rxComplete = false := hrx.2.resolve_left (by omega)
        exact absurd (hcomplete.symm.trans hfalse) (by simp)
      · exact ⟨head, h.rxGoto hpc rfl hrx.1⟩
  | extract timeout elapsed consumer => exact ⟨head, h.extract hpc⟩
  | polled timeout elapsed =>
    rw [hpc] at hrx
    obtain ⟨hbuffer, hle⟩ := hrx
    dsimp only
    split
    · refine ⟨head, h.rxGoto hpc rfl ⟨?_, Nat.zero_le _, hle⟩⟩
      rw [hbuffer]
      rfl
    · rename_i hcomplete
      exact ⟨head, h.rxGoto hpc rfl ⟨hbuffer, .inr (Bool.eq_false_iff.mpr hcomplete)⟩⟩
  | copying i =>
    rw [hpc] at hrx
    obtain ⟨hlen, hi, hle⟩ := hrx
    dsimp only
    split
    · rename_i hlt
      exact ⟨head, h.rxGoto hpc rfl ⟨hlen, hlt, hle, rfl⟩⟩
    · have hall : s.buffer.length = s.receivedSize := by omega
      split
      · exact ⟨head, h.rxGoto hpc rfl hall⟩
      · exact ⟨head, h.receiveReturn (by rw [hpc]; rfl) hall _ _⟩
  | copyLoaded i consumer => exact ⟨head, h.copyLoaded hpc⟩
  | copyRead i consumer => exact ⟨head, h.copyRead hpc⟩
  | copyCleared i consumer => exact ⟨head + 1, h.copyCleared hpc⟩
  | usedProducer =>
    rw [hpc] at hrx
    exact ⟨head, h.rxGoto hpc rfl hrx⟩
  | usedConsumer producer =>
    rw [hpc] at hrx
    dsimp only
    split
    · exact ⟨head, h.receiveReturn (by rw [hpc]; rfl) hrx _ _⟩
    · exact ⟨head, h.receiveReturn (by rw [hpc]; rfl) hrx s.rxComplete s.overflow⟩

/-! ### Every interleaving -/

theorem Inv.step (h : Inv s head tail) {turn : Turn} (hsized : Sized s turn) :
    ∃ head' tail', Inv (step s turn) head' tail' := by
  cases turn with
  | transmitCall data => exact ⟨head, tail, h.transmitCall hsized.1 hsized.2⟩
  | transmit => exact ⟨head, tail, h.transmitStep⟩
  | copyToOthers => exact ⟨head, h.copyToOthersStep⟩
  | receiveCall size timeout => exact ⟨head, tail, h.receiveCall size timeout⟩
  | receive =>
    obtain ⟨head', h'⟩ := h.receiveStep
    exact ⟨head', tail, h'⟩
  | stopThread => exact ⟨head, tail, h.stopThread⟩

/-- The invariant in every state of every run. -/
theorem inv_of_run (h : Run Sized step State.init s) : ∃ head tail, Inv s head tail := by
  refine h.invariant (P := fun s => ∃ head tail, Inv s head tail) ?_ ⟨0, 0, .init⟩
  rintro s turn ⟨head, tail, hinv⟩ hsized
  exact hinv.step hsized

/-- **What arrives is what was sent.**  In every interleaving of a transmitter, the copying thread
and a receiver the bytes returned are a prefix of the bytes transmitted, and all of them once the
mailbox and the ring are empty and the receiver has returned. -/
theorem returned_in_order (h : Run Sized step State.init s) :
    s.returned <+: s.transmitted ∧
    (s.transmittedSize = 0 → s.producer = s.consumer → s.rx = .idle →
      s.returned = s.transmitted) := by
  obtain ⟨head, tail, hinv⟩ := inv_of_run h
  constructor
  · have htaken : s.returned <+: s.transmitted.take (head + s.rx.ahead) :=
      hinv.taken ▸ List.prefix_append _ _
    exact htaken.trans (List.take_prefix _ _)
  · intro hempty heq hidle
    have hrx := hinv.rx
    unfold RxOk at hrx
    rw [hidle] at hrx
    have htaken := hinv.taken
    have hle := hinv.taken_le
    have hroom := hinv.room
    have hmail := hinv.mail
    have hmailed : s.mailed = 0 := by
      rw [State.mailed]
      split
      · rfl
      · exact hempty
    rw [hinv.producer, hinv.consumer] at heq
    rw [hrx, List.append_nil, hidle] at htaken
    rw [hidle] at hle
    dsimp only [RxPc.ahead] at htaken hle
    rw [htaken, List.take_of_length_le (by omega)]

/-- Two bytes on their way, the thread and the receiver taking turns. -/
theorem returned_in_order_two_bytes :
    let turns : List Turn :=
      .transmitCall [104, 105] :: .receiveCall 1024 0 :: List.replicate 4 .transmit ++
        List.replicate 12 .copyToOthers ++ List.replicate 12 .receive
    let s := turns.foldl step State.init
    (s.transmitted = [104, 105] ∧ s.returned = [104, 105]) ∧
      Run Sized step State.init s ∧ s.returned <+: s.transmitted := by
  intro turns s
  have hrun : Run Sized step State.init s := by
    refine Run.foldl_of_mem (fun s turn hturn => ?_) _
    simp only [turns, List.cons_append, List.mem_cons, List.mem_append, List.mem_replicate] at hturn
    rcases hturn with rfl | rfl | (⟨-, rfl⟩ | ⟨-, rfl⟩) | ⟨-, rfl⟩
    · exact ⟨by decide, by decide⟩
    all_goals trivial
  exact ⟨by decide, hrun, (returned_in_order hrun).1⟩

end Kinetis.SerialPort
