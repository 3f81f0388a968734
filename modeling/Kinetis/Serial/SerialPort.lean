import Mathlib.Logic.Function.Basic
import Mathlib.Data.List.Basic

/-!
# Serial — two ports and the thread between them

A transmitter puts a message into the one-slot mailbox of its port, a thread copies it into the
receive ring of the other port, and a receiver empties the ring.  The three run side by side; every
load and every store of `transmitted_size`, `producer` and `consumer` and every byte copied is a
step of its own, so that a run is an arbitrary interleaving of them.

`transmitted` and `returned` are not part of the program: they record the bytes handed to
`serial_port_transmit_bytes`, from the moment its message is in the mailbox, and the bytes that
`serial_port_receive_bytes` has returned.
-/

namespace Kinetis.SerialPort

def SERIAL_PORT_BUFFER_SIZE : Nat := 1024

/-- `serial_port_available_space`. -/
def availableSpace (producer consumer : Nat) : Nat :=
  (consumer + SERIAL_PORT_BUFFER_SIZE - producer - 1) % SERIAL_PORT_BUFFER_SIZE

/-- `serial_port_rx_used`. -/
def rxUsed (producer consumer : Nat) : Nat :=
  if producer ≥ consumer then producer - consumer
  else SERIAL_PORT_BUFFER_SIZE - (consumer - producer)

/-! ### Where each party stands -/

/-- In `serial_port_transmit_bytes`. -/
inductive TxPc where
  | idle
  /-- The loop that waits for the mailbox. -/
  | waiting (data : List UInt8)
  /-- `memcpy` into `tx_buffer`, `i` bytes done. -/
  | copying (data : List UInt8) (i : Nat)
  deriving DecidableEq

/-- In `serial_port_copy_to_others`. -/
inductive ThreadPc where
  | top
  | loadSize
  /-- The loop that waits for room: its three loads. -/
  | space (size : Nat)
  | spaceProducer (size : Nat)
  | spaceConsumer (size producer : Nat)
  | recheck (size : Nat)
  | loadPos (size : Nat)
  /-- `memcpy` into the ring, `i` bytes done. -/
  | copying (size pos i : Nat)
  | storeProducer (size pos : Nat)
  | storeSize
  | exited
  deriving DecidableEq

/-- In `serial_port_receive_bytes`. -/
inductive RxPc where
  | idle
  /-- The polling loop, and the two loads of `serial_port_extract_data`. -/
  | polling (timeout elapsed : Nat)
  | extract (timeout elapsed consumer : Nat)
  | polled (timeout elapsed : Nat)
  /-- The copying loop, `i` bytes done: load, read, clear, store. -/
  | copying (i : Nat)
  | copyLoaded (i consumer : Nat)
  | copyRead (i consumer : Nat)
  | copyCleared (i consumer : Nat)
  /-- The two loads of `serial_port_rx_used`. -/
  | usedProducer
  | usedConsumer (producer : Nat)
  deriving DecidableEq

/-- The transmitting port's mailbox, the receiving port's ring, and the three parties. -/
structure State where
  txBuffer        : Nat → UInt8
  transmittedSize : Nat
  threadSwitch    : Bool
  rxBuffer        : Nat → UInt8
  producer        : Nat
  consumer        : Nat
  receivedSize    : Nat
  rxComplete      : Bool
  overflow        : Bool
  tx              : TxPc
  thread          : ThreadPc
  rx              : RxPc
  /-- The receiver's buffer, as far as it is filled. -/
  buffer          : List UInt8
  transmitted     : List UInt8
  returned        : List UInt8

/-- Two ports from `serial_port_alloc` and a thread just started. -/
def State.init : State where
  txBuffer        := fun _ => 0
  transmittedSize := 0
  threadSwitch    := true
  rxBuffer        := fun _ => 0
  producer        := 0
  consumer        := 0
  receivedSize    := 0
  rxComplete      := false
  overflow        := false
  tx              := .idle
  thread          := .top
  rx              := .idle
  buffer          := []
  transmitted     := []
  returned        := []

/-! ### The transmitter -/

/-- The size that `serial_port_transmit_bytes` goes on with. -/
def txSize (data : List UInt8) : Nat :=
  if data.length ≥ SERIAL_PORT_BUFFER_SIZE then SERIAL_PORT_BUFFER_SIZE - 1 else data.length

def transmitCall (data : List UInt8) (s : State) : State :=
  match s.tx with
  | .idle => { s with tx := .waiting data }
  | _ => s

/-- The store that puts the message into the mailbox. -/
def publish (data : List UInt8) (s : State) : State :=
  { s with transmittedSize := txSize data, transmitted := s.transmitted ++ data, tx := .idle }

def transmitStep (s : State) : State :=
  match s.tx with
  | .idle => s
  | .waiting data => if s.transmittedSize > 0 then s else { s with tx := .copying data 0 }
  | .copying data i =>
    if i < txSize data then
      { s with txBuffer := Function.update s.txBuffer i (data.getD i 0), tx := .copying data (i + 1) }
    else publish data s

/-! ### The thread -/

/-- Where `memcpy` puts byte `i`: the tail of the ring first, then its start. -/
def copyIndex (size pos i : Nat) : Nat :=
  if size ≤ SERIAL_PORT_BUFFER_SIZE - pos then pos + i
  else if i < SERIAL_PORT_BUFFER_SIZE - pos then pos + i
  else i - (SERIAL_PORT_BUFFER_SIZE - pos)

def copyToOthersStep (s : State) : State :=
  match s.thread with
  | .top => { s with thread := if s.threadSwitch then .loadSize else .exited }
  | .loadSize =>
    { s with thread := if s.transmittedSize > 0 then .space s.transmittedSize else .top }
  | .space size =>
    { s with thread := if s.threadSwitch then .spaceProducer size else .recheck size }
  | .spaceProducer size => { s with thread := .spaceConsumer size s.producer }
  | .spaceConsumer size producer =>
    { s with
        thread := if availableSpace producer s.consumer < size then .space size
          else .recheck size }
  | .recheck size => { s with thread := if s.threadSwitch then .loadPos size else .exited }
  | .loadPos size => { s with thread := .copying size s.producer 0 }
  | .copying size pos i =>
    if i < size then
      { s with
          rxBuffer := Function.update s.rxBuffer (copyIndex size pos i) (s.txBuffer i)
          thread := .copying size pos (i + 1) }
    else { s with thread := .storeProducer size pos }
  | .storeProducer size pos =>
    { s with producer := (pos + size) % SERIAL_PORT_BUFFER_SIZE, thread := .storeSize }
  | .storeSize => { s with transmittedSize := 0, thread := .top }
  | .exited => s

/-- `serial_port_stop_thread`, its store. -/
def stopThread (s : State) : State := { s with threadSwitch := false }

/-! ### The receiver -/

def receiveCall (size timeout : Nat) (s : State) : State :=
  match s.rx with
  | .idle => if size < SERIAL_PORT_BUFFER_SIZE then s else { s with rx := .polling timeout 0 }
  | _ => s

/-- The return of `received_size` bytes to the caller. -/
def receiveReturn (s : State) : State :=
  { s with returned := s.returned ++ s.buffer.take s.receivedSize, buffer := [], rx := .idle }

def receiveStep (s : State) : State :=
  match s.rx with
  | .idle => s
  | .polling timeout elapsed =>
    if timeout = 0 ∨ elapsed < timeout then { s with rx := .extract timeout elapsed s.consumer }
    else if s.rxComplete then { s with rx := .copying 0 }
    else { s with rx := .idle }
  | .extract timeout elapsed consumer =>
    let size := (s.producer + SERIAL_PORT_BUFFER_SIZE - consumer) % SERIAL_PORT_BUFFER_SIZE
    { s with receivedSize := size, rxComplete := size > 0, rx := .polled timeout elapsed }
  | .polled timeout elapsed =>
    if s.rxComplete then { s with rx := .copying 0 }
    else { s with rx := .polling timeout (if timeout = 0 then elapsed else elapsed + 1) }
  | .copying i =>
    if i < s.receivedSize then { s with rx := .copyLoaded i s.consumer }
    else if s.overflow then { s with rxComplete := false, rx := .usedProducer }
    else receiveReturn { s with rxComplete := false }
  | .copyLoaded i consumer =>
    { s with buffer := s.buffer ++ [s.rxBuffer consumer], rx := .copyRead i consumer }
  | .copyRead i consumer =>
    { s with rxBuffer := Function.update s.rxBuffer consumer 0, rx := .copyCleared i consumer }
  | .copyCleared i consumer =>
    { s with consumer := (consumer + 1) % SERIAL_PORT_BUFFER_SIZE, rx := .copying (i + 1) }
  | .usedProducer => { s with rx := .usedConsumer s.producer }
  | .usedConsumer producer =>
    if rxUsed producer s.consumer ≤ SERIAL_PORT_BUFFER_SIZE * 95 / 100 then
      receiveReturn { s with overflow := false }
    else receiveReturn s

/-! ### Interleavings -/

/-- Whose turn it is. -/
inductive Turn where
  | transmitCall (data : List UInt8)
  | transmit
  | copyToOthers
  | receiveCall (size timeout : Nat)
  | receive
  | stopThread

def step (s : State) : Turn → State
  | .transmitCall data => transmitCall data s
  | .transmit => transmitStep s
  | .copyToOthers => copyToOthersStep s
  | .receiveCall size timeout => receiveCall size timeout s
  | .receive => receiveStep s
  | .stopThread => stopThread s

/-- Messages are of a size that the mailbox has room for. -/
def Sized (_ : State) : Turn → Prop
  | .transmitCall data => 1 ≤ data.length ∧ data.length < SERIAL_PORT_BUFFER_SIZE
  | _ => True

end Kinetis.SerialPort
