import Mathlib.Data.List.Basic
import Mathlib.Logic.Function.Iterate

/-!
# Serial — the bit-banged SPI master and its slave

A master drives chip select, clock and data by hand, and a slave thread polls the lines and reacts to
their edges.  A register write followed by a register read of as many bytes goes through both of
them.

* `step_step`: a further turn of the slave finds nothing to do, so that its speed does not matter;
* `sendByte_bus` and `readByte_due`: a byte each way, for every mode and bit order;
* `readBytes_served`: what a read of some bytes gets;
* `register_read_back_iff`: the data comes back exactly if it ends before index 255, where the slave's
  8-bit index wraps and the byte in front of the buffer is sent.

The counts of bytes and the saved states of the slave are used for messages only and left out, as are
the delays.  The master's line functions write the simulated bus.
-/

namespace Kinetis.SpiSoft

abbrev Byte := BitVec 8

inductive BitOrder where
  | msb
  | lsb

/-- What `spi_soft_set_mode` and `spi_soft_set_bit_order` give to both sides. -/
structure Mode where
  cpol     : Bool
  cpha     : Bool
  bitOrder : BitOrder

structure Lines where
  cs   : Bool
  sck  : Bool
  mosi : Bool
  miso : Bool
  deriving DecidableEq

/-- `|= bit << p`. -/
def withBit (byte : Byte) (p : Nat) (bit : Bool) : Byte := if bit then byte ||| 1#8 <<< p else byte

/-! ### The slave -/

inductive SlaveState where
  | idle
  | matchAddress
  | receivingData
  | transmittingData

structure SpiSlave where
  currentState : SlaveState
  bitCount     : Nat
  currentByte  : Byte
  index        : Nat
  buffer       : List Byte
  /-- What memory holds in front of the buffer. -/
  front        : Byte

def spiSlaveHandleByteReceived (d : SpiSlave) (byte : Byte) : SpiSlave :=
  if d.index < d.buffer.length then
    { d with buffer := d.buffer.set d.index byte, index := (d.index + 1) % 256 }
  else d

/-- `buffer[index - 1]`, where the index may be 0. -/
def byteBehind (front : Byte) (buffer : List Byte) : Nat → Byte
  | 0 => front
  | i + 1 => buffer.getD i 0

def spiSlaveGetNextTxByte (d : SpiSlave) : Byte × SpiSlave :=
  if d.index < d.buffer.length then
    let d := { d with index := (d.index + 1) % 256 }
    (byteBehind d.front d.buffer d.index, d)
  else (0xFF, d)

/-- Where the slave has its bit number `count`. -/
def slavePos (m : Mode) (count : Nat) : Nat :=
  match m.bitOrder with
  | .lsb => count - 1
  | .msb => 8 - count

/-- The bit that is due after `bit_count` has been counted up. -/
def SpiSlave.bit (m : Mode) (d : SpiSlave) : Bool := d.currentByte.getLsbD (slavePos m d.bitCount)

def spiSlavePrepareBit (m : Mode) (d : SpiSlave) (l : Lines) : SpiSlave × Lines :=
  let d := { d with bitCount := d.bitCount + 1 }
  if d.bitCount ≤ 8 then (d, { l with miso := d.bit m })
  else
    let r := spiSlaveGetNextTxByte d
    let d := { r.2 with currentByte := r.1, bitCount := 1 }
    (d, { l with miso := d.bit m })

/-- The eighth bit of an address. -/
def addressReceived (m : Mode) (d : SpiSlave) (l : Lines) : SpiSlave × Lines :=
  let isReadOperation := d.currentByte &&& 0x80#8 ≠ 0
  let d := { d with currentByte := d.currentByte &&& 0x7F#8 }
  let d := if d.currentByte.toNat < d.buffer.length then { d with index := d.currentByte.toNat } else d
  if isReadOperation then
    let r := spiSlaveGetNextTxByte { d with currentState := .transmittingData }
    let d := { r.2 with currentByte := r.1 }
    if !m.cpha then
      let d := { d with bitCount := 1 }
      (d, { l with miso := d.bit m })
    else ({ d with bitCount := 0 }, l)
  else ({ d with currentState := .receivingData, currentByte := 0, bitCount := 0 }, l)

/-- The eighth bit of an address or of a byte of data. -/
def byteReceived (m : Mode) (d : SpiSlave) (l : Lines) : SpiSlave × Lines :=
  match d.currentState with
  | .matchAddress => addressReceived m d l
  | .receivingData =>
    ({ spiSlaveHandleByteReceived d d.currentByte with bitCount := 0, currentByte := 0 }, l)
  | _ => (d, l)

/-- The bit is counted and put in its place. -/
def SpiSlave.shiftIn (m : Mode) (d : SpiSlave) (mosi : Bool) : SpiSlave :=
  let d := { d with bitCount := d.bitCount + 1 }
  if d.bitCount < 9 then { d with currentByte := withBit d.currentByte (slavePos m d.bitCount) mosi }
  else d

def spiSlaveReceiveBit (m : Mode) (d : SpiSlave) (l : Lines) (mosi : Bool) : SpiSlave × Lines :=
  let d := d.shiftIn m mosi
  if d.bitCount = 8 then byteReceived m d l else (d, l)

/-- The edge at which the slave takes a bit. -/
def samples (m : Mode) (last current : Bool) : Bool :=
  if !m.cpha && !m.cpol then !last && current
  else if m.cpha && !m.cpol then last && !current
  else if !m.cpha && m.cpol then last && !current
  else !last && current

/-- The edge at which the slave gives a bit. -/
def prepares (m : Mode) (last current : Bool) : Bool :=
  if !m.cpha && !m.cpol then last && !current
  else if m.cpha && !m.cpol then !last && current
  else if !m.cpha && m.cpol then !last && current
  else last && !current

/-- The slave with its thread's locals, and the lines. -/
structure Bus where
  device  : SpiSlave
  lines   : Lines
  csLast  : Bool
  sckLast : Bool

/-- What the `switch` does. -/
def react (m : Mode) (b : Bus) : SpiSlave × Lines :=
  match b.device.currentState with
  | .idle =>
    if b.csLast && !b.lines.cs then ({ b.device with currentState := .matchAddress }, b.lines)
    else (b.device, b.lines)
  | .matchAddress | .receivingData =>
    if b.lines.cs then
      ({ b.device with currentState := .idle, bitCount := 0, currentByte := 0 },
        { b.lines with mosi := false })
    else if samples m b.sckLast b.lines.sck then
      spiSlaveReceiveBit m b.device b.lines b.lines.mosi
    else (b.device, b.lines)
  | .transmittingData =>
    if b.lines.cs then
      ({ b.device with currentState := .idle, bitCount := 0, currentByte := 0 },
        { b.lines with miso := false })
    else if prepares m b.sckLast b.lines.sck then spiSlavePrepareBit m b.device b.lines
    else (b.device, b.lines)

/-- One turn of `spi_slave_state_machine_thread`. -/
def step (m : Mode) (b : Bus) : Bus where
  device := (react m b).1
  lines := (react m b).2
  csLast := b.lines.cs
  sckLast := b.lines.sck

/-! ### The master -/

/-- The bus, and how often the master has written a line. -/
structure World where
  bus    : Bus
  writes : Nat

/-- The master writes the lines; the slave then takes some turns, at least one if a line has
changed. -/
def pin (m : Mode) (t : Nat → Nat) (l : Lines) (w : World) : World where
  bus := (step m)^[t w.writes + if l = w.bus.lines then 0 else 1] { w.bus with lines := l }
  writes := w.writes + 1

section Master

variable (m : Mode) (t : Nat → Nat)

def cs (v : Bool) (w : World) : World := pin m t { w.bus.lines with cs := v } w
def sck (v : Bool) (w : World) : World := pin m t { w.bus.lines with sck := v } w
def mosi (v : Bool) (w : World) : World := pin m t { w.bus.lines with mosi := v } w

/-- Where the master has the bit of its loop's `i`. -/
def bitPos (i : Nat) : Nat :=
  match m.bitOrder with
  | .msb => i
  | .lsb => 7 - i

/-- One turn of the loop of `spi_master_soft_send_byte`. -/
def sendBit (bit : Bool) (w : World) : World :=
  let w := mosi m t bit w
  if !m.cpha && !m.cpol then sck m t true (sck m t false w)
  else if !m.cpha && m.cpol then sck m t false (sck m t true w)
  else if m.cpha && !m.cpol then sck m t false (sck m t true w)
  else sck m t true (sck m t false w)

/-- The loop from `i = n - 1` down. -/
def sendBits (data : Byte) : Nat → World → World
  | 0, w => w
  | i + 1, w => sendBits data i (sendBit m t (data.getLsbD (bitPos m i)) w)

def spiMasterSoftSendByte (data : Byte) (w : World) : World := sendBits m t data 8 w

/-- One turn of the loop of `spi_master_soft_read_byte`. -/
def readBit (w : World) : Bool × World :=
  if !m.cpha && !m.cpol then
    let w := sck m t true w
    (w.bus.lines.miso, sck m t false w)
  else if !m.cpha && m.cpol then
    let w := sck m t false w
    (w.bus.lines.miso, sck m t true w)
  else if m.cpha && !m.cpol then
    let w := sck m t false (sck m t true w)
    (w.bus.lines.miso, w)
  else
    let w := sck m t true (sck m t false w)
    (w.bus.lines.miso, w)

/-- The loop from `i = n - 1` down. -/
def readBits : Nat → Byte → World → Byte × World
  | 0, data, w => (data, w)
  | i + 1, data, w =>
    readBits i (withBit data (bitPos m i) (readBit m t w).1) (readBit m t w).2

def spiMasterSoftReadByte (w : World) : Byte × World := readBits m t 8 0 w

def EINVAL : Int := 22

def spiMasterSoftWriteBytesWithReg (reg : Byte) (data : List Byte) (w : World) : Int × World :=
  if data.length = 0 then (-EINVAL, w)
  else
    let w := spiMasterSoftSendByte m t (0x7F#8 &&& reg) (cs m t false w)
    (0, cs m t true (data.foldl (fun w byte => spiMasterSoftSendByte m t byte w) w))

/-- The loop over the bytes of a read. -/
def readBytes : Nat → World → List Byte × World
  | 0, w => ([], w)
  | n + 1, w =>
    let r := spiMasterSoftReadByte m t w
    let rest := readBytes n r.2
    (r.1 :: rest.1, rest.2)

def spiMasterSoftReadBytesWithReg (reg : Byte) (length : Nat) (w : World) : Int × List Byte × World :=
  if length = 0 then (-EINVAL, [], w)
  else
    let w := spiMasterSoftSendByte m t (0x80#8 ||| reg) (cs m t false w)
    let r := readBytes m t length w
    (0, r.1, cs m t true r.2)

end Master

/-! ### The slave's speed -/

/-- The slave has seen the lines. -/
structure Settled (b : Bus) : Prop where
  cs   : b.csLast = b.lines.cs
  sck  : b.sckLast = b.lines.sck
  idle : b.lines.cs = true → b.device.currentState = .idle

variable {m : Mode} {t : Nat → Nat} {b : Bus} {w : World} {d : SpiSlave} {l : Lines}

theorem samples_self (v : Bool) : samples m v v = false := by
  cases v <;> simp [samples]

theorem prepares_self (v : Bool) : prepares m v v = false := by
  cases v <;> simp [prepares]

theorem Settled.step_eq (h : Settled b) : step m b = b := by
  have hreact : react m b = (b.device, b.lines) := by
    rw [react, h.cs, h.sck, samples_self, prepares_self]
    cases hcs : b.lines.cs with
    | true => simp [h.idle hcs]
    | false => split <;> simp
  rw [step, hreact, ← h.cs, ← h.sck]

/-- The slave drives the data lines only. -/
def Lines.Kept (l l' : Lines) : Prop := l'.cs = l.cs ∧ l'.sck = l.sck

theorem Lines.Kept.ite {p : Prop} [Decidable p] {r r' : SpiSlave × Lines} (h : l.Kept r.2)
    (h' : l.Kept r'.2) : l.Kept (if p then r else r').2 := by
  split
  · exact h
  · exact h'

theorem spiSlavePrepareBit_kept : l.Kept (spiSlavePrepareBit m d l).2 := .ite ⟨rfl, rfl⟩ ⟨rfl, rfl⟩

theorem byteReceived_kept : l.Kept (byteReceived m d l).2 := by
  rw [byteReceived]
  split
  · exact .ite (.ite ⟨rfl, rfl⟩ ⟨rfl, rfl⟩) ⟨rfl, rfl⟩
  · exact ⟨rfl, rfl⟩
  · exact ⟨rfl, rfl⟩

theorem spiSlaveReceiveBit_kept {x : Bool} : l.Kept (spiSlaveReceiveBit m d l x).2 :=
  .ite byteReceived_kept ⟨rfl, rfl⟩

theorem react_kept : b.lines.Kept (react m b).2 := by
  rw [react]
  split
  · exact .ite ⟨rfl, rfl⟩ ⟨rfl, rfl⟩
  · exact .ite ⟨rfl, rfl⟩ (.ite spiSlaveReceiveBit_kept ⟨rfl, rfl⟩)
  · exact .ite ⟨rfl, rfl⟩ (.ite spiSlaveReceiveBit_kept ⟨rfl, rfl⟩)
  · exact .ite ⟨rfl, rfl⟩ (.ite spiSlavePrepareBit_kept ⟨rfl, rfl⟩)

theorem step_settled (b : Bus) : Settled (step m b) where
  cs := react_kept.1.symm
  sck := react_kept.2.symm
  idle := by
    intro h
    have hcs : b.lines.cs = true := react_kept.1.symm.trans h
    show (react m b).1.currentState = .idle
    rw [react]
    split
    · rename_i hs
      simp [hcs, hs]
    · simp [hcs]
    · simp [hcs]
    · simp [hcs]

/-- **A further turn changes nothing.** -/
theorem step_step (b : Bus) : step m (step m b) = step m b := (step_settled b).step_eq

theorem pin_bus (h : Settled w.bus) : (pin m t l w).bus = step m { w.bus with lines := l } := by
  have hsettled {c : Bus} (hc : Settled c) (n : Nat) : (step m)^[n] c = c :=
    Function.iterate_fixed hc.step_eq n
  rw [pin]
  split
  · rename_i hl
    rw [hl, hsettled h]
    exact h.step_eq.symm
  · rw [Function.iterate_succ_apply, hsettled (step_settled _)]

/-! ### A bit each way -/

/-- The level of the clock after the edge at which both sides take a bit. -/
def Mode.level (m : Mode) : Bool := !(m.cpha ^^ m.cpol)

theorem samples_eq (m : Mode) (last current : Bool) :
    samples m last current = (last != current && current == m.level) := by
  obtain ⟨cpol, cpha, order⟩ := m
  cases cpol <;> cases cpha <;> cases last <;> cases current <;> rfl

theorem prepares_eq (m : Mode) (last current : Bool) :
    prepares m last current = (last != current && current != m.level) := by
  obtain ⟨cpol, cpha, order⟩ := m
  cases cpol <;> cases cpha <;> cases last <;> cases current <;> rfl

theorem sendBit_eq (x : Bool) : sendBit m t x w =
    sck m t m.level (sck m t (!m.level) (mosi m t x w)) := by
  obtain ⟨cpol, cpha, order⟩ := m
  cases cpol <;> cases cpha <;> rfl

theorem readBit_leading (h : m.cpha = false) : readBit m t w =
    ((sck m t m.level w).bus.lines.miso, sck m t (!m.level) (sck m t m.level w)) := by
  obtain ⟨cpol, cpha, order⟩ := m
  cases h
  cases cpol <;> rfl

theorem readBit_trailing (h : m.cpha = true) : readBit m t w =
    ((sck m t m.level (sck m t (!m.level) w)).bus.lines.miso,
      sck m t m.level (sck m t (!m.level) w)) := by
  obtain ⟨cpol, cpha, order⟩ := m
  cases h
  cases cpol <;> rfl

/-- The slave listens: it is selected, has seen the lines and takes an address or data. -/
structure Listening (b : Bus) : Prop where
  settled : Settled b
  cs      : b.lines.cs = false
  state   : b.device.currentState = .matchAddress ∨ b.device.currentState = .receivingData

/-- The slave sends. -/
structure Sending (b : Bus) : Prop where
  settled : Settled b
  cs      : b.lines.cs = false
  state   : b.device.currentState = .transmittingData

theorem Listening.react_eq (h : Listening b) (hcs : l.cs = false) :
    react m { b with lines := l } =
      if samples m b.lines.sck l.sck then spiSlaveReceiveBit m b.device l l.mosi
      else (b.device, l) := by
  rw [react, ← h.settled.sck]
  rcases h.state with hs | hs <;> simp [hs, hcs]

theorem Sending.react_eq (h : Sending b) (hcs : l.cs = false) :
    react m { b with lines := l } =
      if prepares m b.lines.sck l.sck then spiSlavePrepareBit m b.device l else (b.device, l) := by
  rw [react, ← h.settled.sck]
  simp [h.state, hcs]

/-- What the slave makes of a write. -/
theorem pin_react {l' : Lines} (h : Settled w.bus)
    (hr : react m { w.bus with lines := l } = (d, l')) :
    Settled (pin m t l w).bus ∧ (pin m t l w).bus.device = d ∧ (pin m t l w).bus.lines = l' := by
  rw [pin_bus h]
  exact ⟨step_settled _, congrArg Prod.fst hr, congrArg Prod.snd hr⟩

/-- A write that is no edge for the slave. -/
theorem Listening.pin_quiet (h : Listening w.bus) (hcs : l.cs = false)
    (hq : samples m w.bus.lines.sck l.sck = false) :
    Listening (pin m t l w).bus ∧ (pin m t l w).bus.device = w.bus.device ∧
      (pin m t l w).bus.lines = l := by
  have hreact := h.react_eq (m := m) hcs
  rw [hq] at hreact
  obtain ⟨hs, hd, hl⟩ := pin_react (t := t) h.settled hreact
  exact ⟨⟨hs, by rw [hl, hcs], by rw [hd]; exact h.state⟩, hd, hl⟩

theorem Sending.pin_quiet (h : Sending w.bus) (hcs : l.cs = false)
    (hq : prepares m w.bus.lines.sck l.sck = false) :
    Sending (pin m t l w).bus ∧ (pin m t l w).bus.device = w.bus.device ∧
      (pin m t l w).bus.lines = l := by
  have hreact := h.react_eq (m := m) hcs
  rw [hq] at hreact
  obtain ⟨hs, hd, hl⟩ := pin_react (t := t) h.settled hreact
  exact ⟨⟨hs, by rw [hl, hcs], by rw [hd]; exact h.state⟩, hd, hl⟩

/-- A bit of the master is taken by the slave, with the clock left at its sampling level. -/
theorem sendBit_bus (h : Listening w.bus) (x : Bool) : ∃ l : Lines, l.cs = false ∧ l.sck = m.level ∧
    Settled (sendBit m t x w).bus ∧
    (sendBit m t x w).bus.device = (spiSlaveReceiveBit m w.bus.device l x).1 ∧
    (sendBit m t x w).bus.lines = (spiSlaveReceiveBit m w.bus.device l x).2 := by
  rw [sendBit_eq]
  obtain ⟨h₁, hd₁, hl₁⟩ := h.pin_quiet (m := m) (t := t)
    (l := { w.bus.lines with mosi := x }) h.cs (samples_self _)
  generalize hw₁ : mosi m t x w = w₁
  rw [mosi] at hw₁
  rw [hw₁] at h₁ hd₁ hl₁
  have hquiet : samples m w₁.bus.lines.sck (!m.level) = false := by
    rw [samples_eq]
    cases m.level <;> simp
  obtain ⟨h₂, hd₂, hl₂⟩ := h₁.pin_quiet (m := m) (t := t)
    (l := { w₁.bus.lines with sck := !m.level }) h₁.cs hquiet
  generalize hw₂ : sck m t (!m.level) w₁ = w₂
  rw [sck] at hw₂
  rw [hw₂] at h₂ hd₂ hl₂
  refine ⟨{ w₂.bus.lines with sck := m.level }, h₂.cs, rfl, ?_⟩
  have hedge : samples m w₂.bus.lines.sck m.level = true := by
    rw [samples_eq, hl₂]
    cases m.level <;> rfl
  have hx : w₂.bus.lines.mosi = x := by rw [hl₂, hl₁]
  rw [← hx, ← hd₁, ← hd₂]
  exact pin_react h₂.settled
    ((h₂.react_eq (l := { w₂.bus.lines with sck := m.level }) h₂.cs).trans (if_pos hedge))

/-! ### A byte to the slave -/

/-- What the bits of a byte from `n - 1` down give. -/
def assemble (m : Mode) (data : Byte) : Nat → Byte → Byte
  | 0, acc => acc
  | i + 1, acc => assemble m data i (withBit acc (bitPos m i) (data.getLsbD (bitPos m i)))

theorem assemble_eight (m : Mode) (data : Byte) : assemble m data 8 0 = data := by
  obtain ⟨cpol, cpha, order⟩ := m
  revert data
  cases cpol <;> cases cpha <;> cases order <;> decide +kernel

theorem slavePos_eq {i : Nat} (h : i ≤ 7) : slavePos m (8 - i) = bitPos m i := by
  rw [slavePos, bitPos]
  cases m.bitOrder with
  | msb => dsimp only; omega
  | lsb => dsimp only; omega

variable {n k : Nat}

theorem shiftIn_eq (hn : n ≤ 7) (hbits : d.bitCount = 7 - n) (x : Bool) :
    d.shiftIn m x =
      { d with bitCount := 8 - n, currentByte := withBit d.currentByte (bitPos m n) x } := by
  have hcount : d.bitCount + 1 = 8 - n := by omega
  have hlt : 8 - n < 9 := by omega
  simp only [SpiSlave.shiftIn, hcount, if_pos hlt, slavePos_eq hn]

/-- The bits from `n` down end a byte. -/
theorem sendBits_bus (data : Byte) (hn : n ≤ 7) (h : Listening w.bus)
    (hbits : w.bus.device.bitCount = 7 - n) :
    ∃ l : Lines, l.cs = false ∧ l.sck = m.level ∧ Settled (sendBits m t data (n + 1) w).bus ∧
      ((sendBits m t data (n + 1) w).bus.device, (sendBits m t data (n + 1) w).bus.lines) =
        byteReceived m { w.bus.device with
          bitCount := 8, currentByte := assemble m data (n + 1) w.bus.device.currentByte } l := by
  induction n generalizing w with
  | zero =>
    obtain ⟨l, hcs, hsck, hs, hd, hl⟩ :=
      sendBit_bus (m := m) (t := t) h (data.getLsbD (bitPos m 0))
    refine ⟨l, hcs, hsck, hs, ?_⟩
    have hreceive : spiSlaveReceiveBit m w.bus.device l (data.getLsbD (bitPos m 0)) =
        byteReceived m { w.bus.device with
          bitCount := 8, currentByte := assemble m data 1 w.bus.device.currentByte } l := by
      rw [spiSlaveReceiveBit, shiftIn_eq hn hbits]
      rfl
    rw [sendBits, sendBits, hd, hl, hreceive]
  | succ n ih =>
    obtain ⟨l, hcs, hsck, hs, hd, hl⟩ :=
      sendBit_bus (m := m) (t := t) h (data.getLsbD (bitPos m (n + 1)))
    have hreceive : spiSlaveReceiveBit m w.bus.device l (data.getLsbD (bitPos m (n + 1))) =
        ({ w.bus.device with
          bitCount := 8 - (n + 1)
          currentByte := withBit w.bus.device.currentByte (bitPos m (n + 1))
            (data.getLsbD (bitPos m (n + 1))) }, l) := by
      have hcount : 8 - (n + 1) ≠ 8 := by omega
      simp only [spiSlaveReceiveBit, shiftIn_eq hn hbits, if_neg hcount]
    rw [hreceive] at hd hl
    obtain ⟨l', h'⟩ := ih (by omega) ⟨hs, by rw [hl]; exact hcs, by rw [hd]; exact h.state⟩
      (by rw [hd]; dsimp only; omega)
    rw [hd] at h'
    exact ⟨l', h'⟩

/-- A byte sent to a slave at its start. -/
theorem sendByte_bus (data : Byte) (h : Listening w.bus) (hbits : w.bus.device.bitCount = 0)
    (hbyte : w.bus.device.currentByte = 0) :
    ∃ l : Lines, l.cs = false ∧ l.sck = m.level ∧
      Settled (spiMasterSoftSendByte m t data w).bus ∧
      (spiMasterSoftSendByte m t data w).bus.device =
        (byteReceived m { w.bus.device with bitCount := 8, currentByte := data } l).1 ∧
      (spiMasterSoftSendByte m t data w).bus.lines =
        (byteReceived m { w.bus.device with bitCount := 8, currentByte := data } l).2 := by
  obtain ⟨l, hcs, hsck, hs, hpair⟩ := sendBits_bus (t := t) data (Nat.le_refl 7) h hbits
  rw [hbyte, assemble_eight] at hpair
  exact ⟨l, hcs, hsck, hs, congrArg Prod.fst hpair, congrArg Prod.snd hpair⟩

/-- The slave between two bytes that it takes. -/
structure Taking (b : Bus) (i : Nat) (buffer : List Byte) (front : Byte) : Prop where
  settled : Settled b
  cs      : b.lines.cs = false
  device  : b.device = ⟨.receivingData, 0, 0, i, buffer, front⟩

variable {i : Nat} {buffer : List Byte} {front : Byte}

theorem sendByte_taking (data : Byte) (h : Taking w.bus i buffer front)
    (hi : i < buffer.length) :
    Taking (spiMasterSoftSendByte m t data w).bus ((i + 1) % 256) (buffer.set i data)
      front := by
  obtain ⟨l, hcs, -, hs, hd, hl⟩ := sendByte_bus (m := m) (t := t) data
    ⟨h.settled, h.cs, .inr (by rw [h.device])⟩ (by rw [h.device]) (by rw [h.device])
  refine ⟨hs, ?_, ?_⟩
  · rw [hl, byteReceived_kept.1, hcs]
  · rw [hd, h.device]
    simp only [byteReceived, spiSlaveHandleByteReceived, if_pos hi]

/-- The buffer with data from an index on. -/
def stored (buffer : List Byte) (i : Nat) : List Byte → List Byte
  | [] => buffer
  | byte :: data => stored (buffer.set i byte) (i + 1) data

theorem length_stored (data : List Byte) : (stored buffer i data).length = buffer.length := by
  induction data generalizing buffer i with
  | nil => rfl
  | cons byte data ih => rw [stored, ih, List.length_set]

theorem stored_outside {data : List Byte} (hk : k < i ∨ i + data.length ≤ k) :
    (stored buffer i data)[k]? = buffer[k]? := by
  induction data generalizing buffer i with
  | nil => rfl
  | cons byte data ih =>
    rw [List.length_cons] at hk
    rw [stored, ih (by omega), List.getElem?_set_ne (by omega)]

theorem stored_inside {data : List Byte} (hfit : i + data.length ≤ buffer.length)
    (hk : k < data.length) : (stored buffer i data)[i + k]? = data[k]? := by
  induction data generalizing buffer i k with
  | nil => exact absurd hk (Nat.not_lt_zero k)
  | cons byte data ih =>
    rw [List.length_cons] at hfit hk
    rw [stored]
    cases k with
    | zero =>
      rw [stored_outside (.inl (by omega)), Nat.add_zero, List.getElem?_set_self (by omega)]
      rfl
    | succ k =>
      have hindex : i + (k + 1) = i + 1 + k := by omega
      rw [hindex]
      exact ih (by rw [List.length_set]; omega) (by omega)

theorem sendBytes_taking (data : List Byte) (h : Taking w.bus (i % 256) buffer front)
    (hfit : i + data.length ≤ buffer.length) (hsize : buffer.length ≤ 256) :
    Taking (data.foldl (fun w byte => spiMasterSoftSendByte m t byte w) w).bus
      ((i + data.length) % 256) (stored buffer i data) front := by
  induction data generalizing w i buffer with
  | nil => exact h
  | cons byte data ih =>
    rw [List.length_cons] at hfit
    have hi : i % 256 = i := Nat.mod_eq_of_lt (by omega)
    rw [hi] at h
    have hnext := sendByte_taking (m := m) (t := t) byte h (by omega)
    have hrest := ih hnext (by rw [List.length_set]; omega) (by rw [List.length_set]; exact hsize)
    rw [List.length_cons, Nat.add_comm data.length, ← Nat.add_assoc]
    exact hrest

/-! ### A byte from the slave -/

/-- The slave after `spi_slave_prepare_bit`. -/
def SpiSlave.advance (d : SpiSlave) : SpiSlave :=
  if d.bitCount + 1 ≤ 8 then { d with bitCount := d.bitCount + 1 }
  else
    { (spiSlaveGetNextTxByte { d with bitCount := d.bitCount + 1 }).2 with
      currentByte := (spiSlaveGetNextTxByte { d with bitCount := d.bitCount + 1 }).1, bitCount := 1 }

theorem spiSlavePrepareBit_eq :
    spiSlavePrepareBit m d l = (d.advance, { l with miso := d.advance.bit m }) := by
  simp only [spiSlavePrepareBit, SpiSlave.advance]
  split <;> rfl

theorem spiSlaveGetNextTxByte_frame (d : SpiSlave) :
    (spiSlaveGetNextTxByte d).2 = { d with index := (spiSlaveGetNextTxByte d).2.index } := by
  rw [spiSlaveGetNextTxByte]
  split <;> rfl

theorem SpiSlave.advance_frame (d : SpiSlave) : d.advance =
    { d with
      bitCount := d.advance.bitCount, currentByte := d.advance.currentByte
      index := d.advance.index } := by
  rw [SpiSlave.advance]
  split
  · rfl
  · rw [spiSlaveGetNextTxByte_frame]

theorem Sending.pin_edge (h : Sending w.bus) (hcs : l.cs = false)
    (he : prepares m w.bus.lines.sck l.sck = true) :
    Sending (pin m t l w).bus ∧ (pin m t l w).bus.device = w.bus.device.advance ∧
      (pin m t l w).bus.lines = { l with miso := w.bus.device.advance.bit m } := by
  have hstate : w.bus.device.advance.currentState = .transmittingData := by
    rw [SpiSlave.advance_frame]
    exact h.state
  obtain ⟨hs, hd, hl⟩ := pin_react (t := t) h.settled
    (((h.react_eq hcs).trans (if_pos he)).trans spiSlavePrepareBit_eq)
  exact ⟨⟨hs, by rw [hl, hcs], by rw [hd, hstate]⟩, hd, hl⟩

/-- The slave has the bit after `d` to send: where bits are taken at the leading edge it is on the
line already, where they are taken at the trailing one it will be at the leading one. -/
structure Due (m : Mode) (b : Bus) (d : SpiSlave) : Prop where
  sending  : Sending b
  leading  : m.cpha = false → b.device = d.advance ∧ b.lines.miso = d.advance.bit m
  trailing : m.cpha = true → b.device = d ∧ b.lines.sck = m.level

theorem prepares_level (v : Bool) : prepares m v m.level = false := by
  rw [prepares_eq]
  cases m.level <;> simp

theorem prepares_not_level : prepares m m.level (!m.level) = true := by
  rw [prepares_eq]
  cases m.level <;> rfl

/-- A bit of the slave is read by the master. -/
theorem readBit_due (h : Due m w.bus d) :
    (readBit m t w).1 = d.advance.bit m ∧ Due m (readBit m t w).2.bus d.advance := by
  cases hcpha : m.cpha with
  | false =>
    obtain ⟨hdev, hmiso⟩ := h.leading hcpha
    obtain ⟨h₁, hd₁, hl₁⟩ := h.sending.pin_quiet (m := m) (t := t)
      (l := { w.bus.lines with sck := m.level }) h.sending.cs (prepares_level _)
    rw [readBit_leading hcpha]
    generalize hw₁ : sck m t m.level w = w₁
    rw [sck] at hw₁
    rw [hw₁] at h₁ hd₁ hl₁
    have hedge : prepares m w₁.bus.lines.sck (!m.level) = true := by
      rw [hl₁]
      exact prepares_not_level
    obtain ⟨h₂, hd₂, hl₂⟩ := h₁.pin_edge (m := m) (t := t)
      (l := { w₁.bus.lines with sck := !m.level }) h₁.cs hedge
    rw [hd₁, hdev] at hd₂ hl₂
    refine ⟨?_, h₂, fun _ => ⟨hd₂, ?_⟩, fun hc => absurd (hcpha.symm.trans hc) Bool.false_ne_true⟩
    · rw [hl₁]
      exact hmiso
    · rw [sck, hl₂]
  | true =>
    obtain ⟨hdev, hsck⟩ := h.trailing hcpha
    have hedge : prepares m w.bus.lines.sck (!m.level) = true := by
      rw [hsck]
      exact prepares_not_level
    obtain ⟨h₁, hd₁, hl₁⟩ := h.sending.pin_edge (m := m) (t := t)
      (l := { w.bus.lines with sck := !m.level }) h.sending.cs hedge
    rw [readBit_trailing hcpha]
    generalize hw₁ : sck m t (!m.level) w = w₁
    rw [sck] at hw₁
    rw [hw₁, hdev] at hd₁ hl₁
    rw [hw₁] at h₁
    obtain ⟨h₂, hd₂, hl₂⟩ := h₁.pin_quiet (m := m) (t := t)
      (l := { w₁.bus.lines with sck := m.level }) h₁.cs (prepares_level _)
    refine ⟨?_, h₂, fun hc => absurd (hcpha.symm.trans hc).symm Bool.false_ne_true,
      fun _ => ⟨hd₂.trans hd₁, ?_⟩⟩
    · rw [sck, hl₂, hl₁]
    · rw [sck, hl₂]

theorem readBits_due (hn : n ≤ 7) (acc : Byte) (h : Due m w.bus d) (hbits : d.bitCount = 8 - n) :
    (readBits m t n acc w).1 = assemble m d.currentByte n acc ∧
      Due m (readBits m t n acc w).2.bus { d with bitCount := 8 } := by
  induction n generalizing w d acc with
  | zero =>
    obtain ⟨state, bits, byte, i, buf, fr⟩ := d
    cases hbits
    exact ⟨rfl, h⟩
  | succ n ih =>
    have hadvance : d.advance = { d with bitCount := 8 - n } := by
      have hcount : d.bitCount + 1 = 8 - n := by omega
      rw [SpiSlave.advance, hcount, if_pos (by omega)]
    have hbit : d.advance.bit m = d.currentByte.getLsbD (bitPos m n) := by
      rw [SpiSlave.bit, hadvance]
      dsimp only
      rw [slavePos_eq (by omega)]
    obtain ⟨hread, hdue⟩ := readBit_due (t := t) h
    rw [readBits, hread, hbit]
    rw [hadvance] at hdue
    exact ih (d := { d with bitCount := 8 - n }) (by omega) _ hdue rfl

/-- A byte of the slave is read by the master. -/
theorem readByte_due (h : Due m w.bus d) (hfirst : d.advance.bitCount = 1) :
    (spiMasterSoftReadByte m t w).1 = d.advance.currentByte ∧
      Due m (spiMasterSoftReadByte m t w).2.bus { d.advance with bitCount := 8 } := by
  obtain ⟨hread, hdue⟩ := readBit_due (t := t) h
  have hbit : d.advance.bit m = d.advance.currentByte.getLsbD (bitPos m 7) := by
    rw [SpiSlave.bit, hfirst, ← slavePos_eq (Nat.le_refl 7)]
  rw [spiMasterSoftReadByte, readBits, hread, hbit]
  obtain ⟨hbyte, hnext⟩ := readBits_due (t := t) (Nat.le_refl 7)
    (withBit 0 (bitPos m 7) (d.advance.currentByte.getLsbD (bitPos m 7))) hdue hfirst
  exact ⟨hbyte.trans (assemble_eight m _), hnext⟩

/-- The bytes that the slave sends from `d` on. -/
def served : SpiSlave → Nat → List Byte
  | _, 0 => []
  | d, n + 1 => d.advance.currentByte :: served { d.advance with bitCount := 8 } n

/-- **The bytes read are those that the slave sends.** -/
theorem readBytes_served (n : Nat) (h : Due m w.bus d) (hfirst : d.advance.bitCount = 1) :
    (readBytes m t n w).1 = served d n ∧
      ∃ d', Due m (readBytes m t n w).2.bus d' ∧ d'.buffer = d.buffer ∧ d'.front = d.front := by
  induction n generalizing w d with
  | zero => exact ⟨rfl, d, h, rfl, rfl⟩
  | succ n ih =>
    obtain ⟨hread, hdue⟩ := readByte_due (t := t) h hfirst
    obtain ⟨hrest, d', hdue', hbuf, hfront⟩ := ih hdue rfl
    refine ⟨?_, d', hdue', ?_, ?_⟩
    · rw [readBytes, served, hread, hrest]
    · rw [hbuf, SpiSlave.advance_frame]
    · rw [hfront, SpiSlave.advance_frame]

/-! ### Whole transfers -/

/-- The slave is deselected and between two transfers. -/
structure Idle (b : Bus) (i : Nat) (buffer : List Byte) (front : Byte) : Prop where
  settled : Settled b
  cs      : b.lines.cs = true
  device  : b.device = ⟨.idle, 0, 0, i, buffer, front⟩

theorem select (h : Idle w.bus i buffer front) :
    Settled (cs m t false w).bus ∧ (cs m t false w).bus.lines.cs = false ∧
      (cs m t false w).bus.device = ⟨.matchAddress, 0, 0, i, buffer, front⟩ := by
  have hlast : w.bus.csLast = true := h.settled.cs.trans h.cs
  rw [cs, pin_bus h.settled]
  refine ⟨step_settled _, react_kept.1, ?_⟩
  simp [step, react, h.device, hlast]

theorem deselect (hs : Settled w.bus) (hstate : w.bus.device.currentState ≠ .idle) :
    Idle (cs m t true w).bus w.bus.device.index w.bus.device.buffer w.bus.device.front := by
  rw [cs, pin_bus hs]
  refine ⟨step_settled _, react_kept.1, ?_⟩
  rw [step, react]
  split
  · rename_i hidle
    exact absurd hidle hstate
  · rfl
  · rfl
  · rfl

theorem address_write (reg : Byte) (h : reg.toNat < 128) :
    (0x7F#8 &&& reg) &&& 0x80#8 = 0 ∧ ((0x7F#8 &&& reg) &&& 0x7F#8).toNat = reg.toNat := by
  revert reg
  decide +kernel

theorem address_read (reg : Byte) (h : reg.toNat < 128) :
    (0x80#8 ||| reg) &&& 0x80#8 ≠ 0 ∧ ((0x80#8 ||| reg) &&& 0x7F#8).toNat = reg.toNat := by
  revert reg
  decide +kernel

variable {reg : Byte} {data : List Byte}

/-- **A register write** stores its data and leaves the slave idle. -/
theorem writeBytes_idle (h : Idle w.bus i buffer front) (hreg : reg.toNat < 128)
    (hdata : 0 < data.length) (hfit : reg.toNat + data.length ≤ buffer.length)
    (hsize : buffer.length ≤ 256) :
    (spiMasterSoftWriteBytesWithReg m t reg data w).1 = 0 ∧
      ∃ index', Idle (spiMasterSoftWriteBytesWithReg m t reg data w).2.bus index'
        (stored buffer reg.toNat data) front := by
  obtain ⟨hs, hcs, hd⟩ := select (m := m) (t := t) h
  obtain ⟨l, hlcs, -, hs', hd', hl'⟩ := sendByte_bus (m := m) (t := t) (0x7F#8 &&& reg)
    ⟨hs, hcs, .inl (by rw [hd])⟩ (by rw [hd]) (by rw [hd])
  have htaking : Taking (spiMasterSoftSendByte m t (0x7F#8 &&& reg) (cs m t false w)).bus
      (reg.toNat % 256) buffer front := by
    obtain ⟨hflag, haddress⟩ := address_write reg hreg
    refine ⟨hs', by rw [hl', byteReceived_kept.1, hlcs], ?_⟩
    have hin : reg.toNat < buffer.length := by omega
    rw [hd', hd, Nat.mod_eq_of_lt reg.isLt]
    simp [byteReceived, addressReceived, hflag, haddress, hin]
  have hall := sendBytes_taking (m := m) (t := t) data htaking hfit hsize
  have hidle := deselect (m := m) (t := t) hall.settled
    (by rw [hall.device]; exact SlaveState.noConfusion)
  rw [hall.device] at hidle
  rw [spiMasterSoftWriteBytesWithReg, if_neg (by omega)]
  exact ⟨rfl, _, hidle⟩

/-- The slave's answer to the address of a read: the first bit of the first byte is due. -/
theorem address_due (h : Idle w.bus i buffer front) (hreg : reg.toNat < 128)
    (hin : reg.toNat < buffer.length) :
    Due m (spiMasterSoftSendByte m t (0x80#8 ||| reg) (cs m t false w)).bus
      { SpiSlave.advance ⟨.transmittingData, 8, 0, reg.toNat, buffer, front⟩ with bitCount := 0 } := by
  obtain ⟨hs, hcs, hd⟩ := select (m := m) (t := t) h
  obtain ⟨l, hlcs, hlsck, hs', hd', hl'⟩ := sendByte_bus (m := m) (t := t) (0x80#8 ||| reg)
    ⟨hs, hcs, .inl (by rw [hd])⟩ (by rw [hd]) (by rw [hd])
  obtain ⟨hflag, haddress⟩ := address_read reg hreg
  have hcs' : (spiMasterSoftSendByte m t (0x80#8 ||| reg) (cs m t false w)).bus.lines.cs =
      false := by rw [hl', byteReceived_kept.1, hlcs]
  rw [hd] at hd' hl'
  have hfirst : SpiSlave.advance ⟨.transmittingData, 8, 0, reg.toNat, buffer, front⟩ =
      ⟨.transmittingData, 1, byteBehind front buffer ((reg.toNat + 1) % 256),
        (reg.toNat + 1) % 256, buffer, front⟩ := by
    simp [SpiSlave.advance, spiSlaveGetNextTxByte, hin]
  rw [hfirst]
  cases hcpha : m.cpha with
  | false =>
    simp only [byteReceived, addressReceived, spiSlaveGetNextTxByte, hflag, haddress, hin, hcpha,
      ne_eq, not_false_eq_true, if_true, Bool.not_false] at hd' hl'
    refine ⟨⟨hs', hcs', by rw [hd']⟩, fun _ => ⟨hd', by rw [hl']; rfl⟩, fun hc => ?_⟩
    exact absurd (hcpha.symm.trans hc) Bool.false_ne_true
  | true =>
    simp only [byteReceived, addressReceived, spiSlaveGetNextTxByte, hflag, haddress, hin, hcpha,
      ne_eq, not_false_eq_true, if_true, Bool.not_true, Bool.false_eq_true, if_false] at hd' hl'
    refine ⟨⟨hs', hcs', by rw [hd']⟩, fun hc => ?_, fun _ => ⟨hd', by rw [hl', hlsck]⟩⟩
    exact absurd (hcpha.symm.trans hc).symm Bool.false_ne_true

theorem Due.memory (h : Due m b d) : b.device.buffer = d.buffer ∧ b.device.front = d.front := by
  cases hcpha : m.cpha with
  | false =>
    rw [(h.leading hcpha).1, SpiSlave.advance_frame]
    exact ⟨rfl, rfl⟩
  | true =>
    rw [(h.trailing hcpha).1]
    exact ⟨rfl, rfl⟩

/-- **A register read** gets what the slave sends and leaves it idle with its buffer. -/
theorem readBytes_idle (h : Idle w.bus i buffer front) (hreg : reg.toNat < 128) (hn : 0 < n)
    (hin : reg.toNat < buffer.length) :
    (spiMasterSoftReadBytesWithReg m t reg n w).1 = 0 ∧
      (spiMasterSoftReadBytesWithReg m t reg n w).2.1 =
        served ⟨.transmittingData, 8, 0, reg.toNat, buffer, front⟩ n ∧
      ∃ index', Idle (spiMasterSoftReadBytesWithReg m t reg n w).2.2.bus index' buffer front := by
  have hdue := address_due (m := m) (t := t) h hreg hin
  obtain ⟨hdata, d', hdue', hbuf, hfront⟩ := readBytes_served (t := t) n hdue rfl
  have hidle := deselect (m := m) (t := t) hdue'.sending.settled
    (by rw [hdue'.sending.state]; exact SlaveState.noConfusion)
  rw [spiMasterSoftReadBytesWithReg, if_neg (by omega)]
  refine ⟨rfl, ?_, ?_⟩
  · obtain ⟨k, rfl⟩ : ∃ k, n = k + 1 := ⟨n - 1, by omega⟩
    exact hdata
  · rw [hdue'.memory.1, hdue'.memory.2, hbuf, hfront, SpiSlave.advance_frame] at hidle
    exact ⟨_, hidle⟩

/-- What the slave sends is its buffer, except at index 255. -/
theorem served_eq (hbits : d.bitCount = 8) (hi : d.index = i % 256) (hfit : i + n ≤ d.buffer.length)
    (hsize : d.buffer.length ≤ 256) :
    served d n = (List.range' i n).map fun k =>
      if k = 255 then d.front else d.buffer.getD k 0 := by
  induction n generalizing d i with
  | zero => rfl
  | succ n ih =>
    have hindex : i % 256 = i := Nat.mod_eq_of_lt (by omega)
    have hadvance : d.advance = { d with
        bitCount := 1, currentByte := byteBehind d.front d.buffer ((i + 1) % 256)
        index := (i + 1) % 256 } := by
      have hin : i < d.buffer.length := by omega
      simp [SpiSlave.advance, spiSlaveGetNextTxByte, hbits, hi, hindex, hin]
    have hbyte : byteBehind d.front d.buffer ((i + 1) % 256) =
        if i = 255 then d.front else d.buffer.getD i 0 := by
      by_cases h255 : i = 255
      · rw [h255]
        rfl
      · rw [if_neg h255, Nat.mod_eq_of_lt (by omega)]
        rfl
    rw [served, hadvance, List.range'_succ, List.map_cons, ← hbyte]
    exact congrArg _ (ih (d := { d with
      bitCount := 8, currentByte := byteBehind d.front d.buffer ((i + 1) % 256)
      index := (i + 1) % 256 }) rfl rfl (by dsimp only; omega) hsize)

theorem served_stored_iff (hdata : 1 ≤ data.length) (hfit : i + data.length ≤ buffer.length)
    (hsize : buffer.length ≤ 256) :
    served ⟨.transmittingData, 8, 0, i, stored buffer i data, front⟩ data.length = data ↔
      i + data.length ≤ 255 ∨ data.getLast? = some front := by
  have hlength : (stored buffer i data).length = buffer.length := length_stored data
  have hindex : i < 256 := by omega
  rw [served_eq (i := i) rfl (Nat.mod_eq_of_lt hindex).symm (by dsimp only; omega)
    (by dsimp only; omega)]
  generalize hsent : (List.range' i data.length).map (fun k =>
    if k = 255 then front else (stored buffer i data).getD k 0) = sent
  have hbyte (k : Nat) (hk : k < data.length) :
      sent[k]? = if i + k = 255 then some front else data[k]? := by
    rw [← hsent, List.getElem?_map, List.getElem?_range' hk, Nat.one_mul, Option.map_some]
    split
    · rfl
    · rw [List.getD_eq_getElem?_getD, stored_inside hfit hk, List.getElem?_eq_getElem hk]
      rfl
  rw [List.getLast?_eq_getElem?]
  constructor
  · intro heq
    rw [or_iff_not_imp_left]
    intro hend
    have hlast := hbyte (data.length - 1) (by omega)
    rw [heq, if_pos (by omega)] at hlast
    exact hlast
  · intro hcase
    apply List.ext_getElem?
    intro k
    by_cases hk : k < data.length
    · rw [hbyte k hk]
      split
      · have hlast : data.length - 1 = k := by omega
        rw [← hcase.resolve_left (by omega), hlast]
      · rfl
    · have hsize' : sent.length = data.length := by
        rw [← hsent, List.length_map, List.length_range']
      rw [List.getElem?_eq_none (by omega), List.getElem?_eq_none (by omega)]

/-- **A register read after a register write.**  For every mode, bit order and speed of the slave the
data comes back and the rest of the buffer stays as it was exactly if the data ends before index 255,
or if its last byte happens to be the one in front of the buffer. -/
theorem register_read_back_iff (m : Mode) (t : Nat → Nat) (w : World) (index : Nat)
    (buffer data : List Byte) (front reg : Byte) (h : Idle w.bus index buffer front)
    (hsize : buffer.length ≤ 256) (hreg : reg.toNat < 128) (hdata : 1 ≤ data.length ∧ data.length ≤ 255)
    (hfit : reg.toNat + data.length ≤ buffer.length) :
    let written := spiMasterSoftWriteBytesWithReg m t reg data w
    let got := spiMasterSoftReadBytesWithReg m t reg data.length written.2
    (written.1 = 0 ∧ got.1 = 0 ∧ got.2.1 = data ∧
      ∀ k, k < reg.toNat ∨ reg.toNat + data.length ≤ k →
        got.2.2.bus.device.buffer[k]? = buffer[k]?) ↔
    reg.toNat + data.length ≤ 255 ∨ data.getLast? = some front := by
  intro written got
  obtain ⟨hw, j, hidle⟩ := writeBytes_idle (m := m) (t := t) h hreg hdata.1 hfit hsize
  have hlength : (stored buffer reg.toNat data).length = buffer.length := length_stored data
  obtain ⟨hr, hgot, j', hidle'⟩ := readBytes_idle (m := m) (t := t) hidle hreg hdata.1
    (by omega)
  have hbuffer : ∀ k, k < reg.toNat ∨ reg.toNat + data.length ≤ k →
      got.2.2.bus.device.buffer[k]? = buffer[k]? := by
    intro k hk
    rw [hidle'.device]
    exact stored_outside hk
  have hdata' : got.2.1 = data ↔ reg.toNat + data.length ≤ 255 ∨ data.getLast? = some front := by
    rw [← served_stored_iff hdata.1 hfit hsize]
    exact Eq.congr_left hgot
  rw [← hdata']
  exact ⟨fun hall => hall.2.2.1, fun hback => ⟨hw, hr, hback, hbuffer⟩⟩

/-- The bus and a slave after their start. -/
def boot (buffer : List Byte) (front : Byte) : World where
  bus := ⟨⟨.idle, 0, 0, 0, buffer, front⟩, ⟨true, false, false, false⟩, true, false⟩
  writes := 0

theorem boot_idle (buffer : List Byte) (front : Byte) :
    Idle (boot buffer front).bus 0 buffer front := ⟨⟨rfl, rfl, fun _ => rfl⟩, rfl, rfl⟩

/-- Two bytes at register 1 of a buffer of four, with the slave at its slowest. -/
theorem register_read_back_two :
    (spiMasterSoftReadBytesWithReg ⟨false, true, .lsb⟩ (fun _ => 0) 1 2
      (spiMasterSoftWriteBytesWithReg ⟨false, true, .lsb⟩ (fun _ => 0) 1 [0xA5, 0x3C]
        (boot [1, 2, 3, 4] 0)).2).2.1 = [0xA5, 0x3C] :=
  ((register_read_back_iff ⟨false, true, .lsb⟩ (fun _ => 0) (boot [1, 2, 3, 4] 0) 0 [1, 2, 3, 4]
    [0xA5, 0x3C] 0 1 (boot_idle _ _) (by decide) (by decide) (by decide) (by decide)).mpr
      (.inl (by decide))).2.2.1

/-- **The last byte lost.**  255 zeros written to the registers from 1 on of a buffer of 256 with
`0xFF` in front of it do not come back. -/
theorem register_read_back_fails :
    (spiMasterSoftReadBytesWithReg ⟨false, false, .msb⟩ (fun _ => 0) 1 255
      (spiMasterSoftWriteBytesWithReg ⟨false, false, .msb⟩ (fun _ => 0) 1 (List.replicate 255 0)
        (boot (List.replicate 256 0) 0xFF)).2).2.1 ≠ List.replicate 255 0 := by
  have hfit : (1 : Byte).toNat + (List.replicate 255 (0 : Byte)).length ≤
      (List.replicate 256 (0 : Byte)).length := by
    rw [List.length_replicate, List.length_replicate]
    decide
  have hsize : (List.replicate 256 (0 : Byte)).length ≤ 256 := Nat.le_of_eq List.length_replicate
  have hdata : 1 ≤ (List.replicate 255 (0 : Byte)).length := by
    rw [List.length_replicate]
    decide
  obtain ⟨-, j, hidle⟩ := writeBytes_idle (m := ⟨false, false, .msb⟩) (t := fun _ => 0)
    (boot_idle (List.replicate 256 0) 0xFF) (by decide) hdata hfit hsize
  have hlength := (length_stored (i := (1 : Byte).toNat) (List.replicate 255 (0 : Byte))).trans
    (List.length_replicate (n := 256) (a := (0 : Byte)))
  obtain ⟨-, hgot, -⟩ := readBytes_idle (m := ⟨false, false, .msb⟩) (t := fun _ => 0) (n := 255)
    hidle (show (1 : Byte).toNat < 128 by decide) (by decide) (Nat.lt_of_lt_of_eq (by decide) hlength.symm)
  rw [hgot]
  intro hback
  have hcase := (served_stored_iff hdata hfit hsize).mp
    (by rw [List.length_replicate]; exact hback)
  rw [List.length_replicate, List.getLast?_replicate] at hcase
  exact absurd hcase (by decide)

end Kinetis.SpiSoft
