import Kinetis.Lib.Loops
import Kinetis.Serial.SerialPort
import Mathlib.Algebra.Order.Group.Nat

/-!
# Serial — sending data through the Bluetooth module

`hc_05_send_data` hands data to its serial port in packets.  The size of a packet is a `u16` that may
take over the size of the data, a `u32`; and the port cuts a packet that does not fit its buffer.

* `Whole.step`: short packets put the data into the port, one stretch after the other;
* `Cut.step`: a packet too long for the port leaves bytes out;
* `hc_05_send_data_iff`: the call ends, with all data in the port, exactly for packets of 1 to 1023
  bytes.

The results of the transmissions are inputs; that the port takes the last packet before the next, and
the delay between them, are left out.
-/

namespace Kinetis.Hc05

open Lib SerialPort

def EINVAL : Int := 22

/-- `serial_port_transmit_bytes`: what it puts into `tx_buffer`.  The size is a `u16`. -/
def serialPortTransmitBytes (data : List UInt8) (size : Nat) : List UInt8 :=
  let size := size % 2 ^ 16
  data.take (if size ≥ SERIAL_PORT_BUFFER_SIZE then SERIAL_PORT_BUFFER_SIZE - 1 else size)

/-- The loop of `hc_05_send_data`: the last result, and what each call has put into the port. -/
structure Sending where
  offset : Nat
  ret    : Int
  placed : List (List UInt8)

/-- The packet size that the loop goes on with; `size` is narrowed when it is taken over. -/
def packetOf (size packetSize : Nat) : Nat :=
  if packetSize = 0 ∨ packetSize > size then size % 2 ^ 16 else packetSize

section loop
variable (results : Nat → Int) (data : List UInt8) (packet : Nat)

def chunkSize (offset : Nat) : Nat :=
  if packet > data.length - offset then data.length - offset else packet

def Sending.more (s : Sending) : Bool := s.ret = 0 && s.offset < data.length

def Sending.step (s : Sending) : Sending :=
  let chunk := chunkSize data packet s.offset
  let ret := results s.placed.length
  { offset := if ret = 0 then s.offset + chunk else s.offset
    ret := ret
    placed := s.placed ++ [serialPortTransmitBytes (data.drop s.offset) chunk] }

/-- The loop after at most `fuel` packets. -/
def sendLoop (fuel : Nat) : Sending :=
  iterWhile (Sending.more data) (Sending.step results data packet) fuel ⟨0, 0, []⟩

end loop

/-- `hc_05_send_data`, with what it has put into the port; nothing if the loop has not ended.  The
size is returned as an `int`. -/
def hc05SendData (results : Nat → Int) (data : List UInt8) (packetSize fuel : Nat) :
    Option (Int × List (List UInt8)) :=
  if data.length = 0 then some (-EINVAL, [])
  else
    let s := sendLoop results data (packetOf data.length packetSize) fuel
    if s.more data then none
    else some (if s.ret = 0 then (data.length : Int).bmod (2 ^ 32) else s.ret, s.placed)

/-! ### Packets -/

section packets
variable {results : Nat → Int} {data : List UInt8} {packet : Nat} {s : Sending}

theorem packetOf_le {size packetSize : Nat} : packetOf size packetSize ≤ size := by
  rw [packetOf]
  split
  · exact Nat.mod_le _ _
  · omega

theorem packetOf_lt {size packetSize : Nat} (h : packetSize < 2 ^ 16) :
    packetOf size packetSize < 2 ^ 16 := by
  rw [packetOf]
  split
  · exact Nat.mod_lt _ (by decide)
  · exact h

theorem chunkSize_le (data : List UInt8) (packet offset : Nat) :
    chunkSize data packet offset ≤ data.length - offset := by
  rw [chunkSize]
  split <;> omega

theorem chunkSize_le_packet (data : List UInt8) (packet offset : Nat) :
    chunkSize data packet offset ≤ packet := by
  rw [chunkSize]
  split <;> omega

theorem step_offset (hok : ∀ i, results i = 0) (s : Sending) :
    (s.step results data packet).offset = s.offset + chunkSize data packet s.offset := if_pos (hok _)

theorem flatten_step (s : Sending) : (s.step results data packet).placed.flatten =
    s.placed.flatten ++
      serialPortTransmitBytes (data.drop s.offset) (chunkSize data packet s.offset) := by
  rw [Sending.step, List.flatten_append, List.flatten_singleton]

theorem length_transmitBytes_le (data : List UInt8) {size : Nat} (h : size < 2 ^ 16) :
    (serialPortTransmitBytes data size).length ≤ min size (SERIAL_PORT_BUFFER_SIZE - 1) := by
  rw [serialPortTransmitBytes, List.length_take, Nat.mod_eq_of_lt h]
  split <;> omega

/-- What every packet keeps. -/
structure Within (data : List UInt8) (s : Sending) : Prop where
  ret    : s.ret = 0
  offset : s.offset ≤ data.length

theorem Within.step (hok : ∀ i, results i = 0) (h : Within data s) :
    Within data (s.step results data packet) where
  ret := hok _
  offset := by
    have hle := chunkSize_le data packet s.offset
    have hs := h.offset
    rw [step_offset hok]
    omega

theorem Within.more_iff (h : Within data s) : s.more data = true ↔ s.offset < data.length := by
  rw [Sending.more, h.ret]
  simp

/-- A packet of a byte at least moves on. -/
theorem Within.progress (hok : ∀ i, results i = 0) (hpos : 0 < packet) (h : Within data s)
    (hmore : s.more data = true) :
    data.length - (s.step results data packet).offset < data.length - s.offset := by
  have hlt := h.more_iff.mp hmore
  rw [step_offset hok, chunkSize]
  split <;> omega

/-- **Packets that fit** the port: it has been given the data up to the offset. -/
structure Whole (data : List UInt8) (s : Sending) : Prop extends Within data s where
  placed : s.placed.flatten = data.take s.offset

theorem Whole.step (hok : ∀ i, results i = 0) (hfit : packet < SERIAL_PORT_BUFFER_SIZE)
    (h : Whole data s) : Whole data (s.step results data packet) where
  toWithin := h.toWithin.step hok
  placed := by
    have hchunk := chunkSize_le_packet data packet s.offset
    have hsmall : chunkSize data packet s.offset % 2 ^ 16 = chunkSize data packet s.offset :=
      Nat.mod_eq_of_lt (by rw [SERIAL_PORT_BUFFER_SIZE] at hfit; omega)
    rw [flatten_step, step_offset hok, h.placed, serialPortTransmitBytes, hsmall,
      if_neg (by omega), List.take_add]

/-- **A packet too long** for the port: once there is an offset, a byte before it is missing. -/
structure Cut (data : List UInt8) (s : Sending) : Prop extends Within data s where
  missing : s.placed.flatten.length + min s.offset 1 ≤ s.offset

theorem Cut.step (hok : ∀ i, results i = 0) (hlt : packet < 2 ^ 16) (hle : packet ≤ data.length)
    (hlong : SERIAL_PORT_BUFFER_SIZE ≤ packet) (h : Cut data s) :
    Cut data (s.step results data packet) where
  toWithin := h.toWithin.step hok
  missing := by
    have hchunk := chunkSize_le_packet data packet s.offset
    have hfirst : s.offset = 0 → chunkSize data packet s.offset = packet := by
      intro hzero
      exact if_neg (by omega)
    have hplaced := length_transmitBytes_le (data.drop s.offset) (Nat.lt_of_le_of_lt hchunk hlt)
    have hmissing := h.missing
    rw [SERIAL_PORT_BUFFER_SIZE] at hlong hplaced
    rw [flatten_step, step_offset hok, List.length_append]
    omega

end packets

/-! ### The whole call -/

section call
variable {results : Nat → Int} {data : List UInt8} {packetSize : Nat}

theorem hc05SendData_eq (hne : data ≠ []) (fuel : Nat) : hc05SendData results data packetSize fuel =
    let s := sendLoop results data (packetOf data.length packetSize) fuel
    if s.more data then none
    else some (if s.ret = 0 then (data.length : Int).bmod (2 ^ 32) else s.ret, s.placed) :=
  if_neg (mt List.eq_nil_iff_length_eq_zero.mpr hne)

/-- The call ends if a packet is not empty. -/
theorem hc05SendData_ends (hok : ∀ i, results i = 0) (hne : data ≠ [])
    (hpos : 0 < packetOf data.length packetSize) :
    ∃ fuel r, hc05SendData results data packetSize fuel = some r := by
  have hstart : Within data ⟨0, 0, []⟩ := ⟨rfl, Nat.zero_le _⟩
  have hend : (sendLoop results data (packetOf data.length packetSize) data.length).more data = false :=
    iterWhile_ends (fun s : Sending => data.length - s.offset)
      (fun s h hmore => ⟨h.step hok, h.progress hok hpos hmore⟩) hstart (Nat.le_refl _)
  refine ⟨data.length, ?_⟩
  rw [hc05SendData_eq hne]
  dsimp only
  rw [hend]
  exact ⟨_, rfl⟩

/-- With empty packets it does not. -/
theorem hc05SendData_stuck (hok : ∀ i, results i = 0) (hne : data ≠ [])
    (hzero : packetOf data.length packetSize = 0) (fuel : Nat) :
    hc05SendData results data packetSize fuel = none := by
  have hlen : 0 < data.length := List.length_pos_of_ne_nil hne
  have hstay : (sendLoop results data 0 fuel).ret = 0 ∧ (sendLoop results data 0 fuel).offset = 0 := by
    refine iterWhile_invariant (P := fun s : Sending => s.ret = 0 ∧ s.offset = 0) ?_ fuel ⟨rfl, rfl⟩
    rintro s ⟨-, hoffset⟩ -
    refine ⟨hok _, ?_⟩
    rw [step_offset hok, hoffset, chunkSize, if_neg (Nat.not_lt_zero _)]
  rw [hc05SendData_eq hne, hzero]
  refine if_pos ?_
  rw [Sending.more, hstay.1, hstay.2]
  simpa using hlen

/-- What the loop keeps holds when the call has ended, with all data read. -/
theorem of_invariant {P : Sending → Prop} (hwithin : ∀ s, P s → Within data s)
    (hstep : ∀ s, P s → P (s.step results data (packetOf data.length packetSize)))
    (hstart : P ⟨0, 0, []⟩) (hne : data ≠ []) {fuel : Nat} {r : Int × List (List UInt8)}
    (h : hc05SendData results data packetSize fuel = some r) :
    ∃ s, P s ∧ s.offset = data.length ∧ r = ((data.length : Int).bmod (2 ^ 32), s.placed) := by
  have hP : P (sendLoop results data (packetOf data.length packetSize) fuel) :=
    iterWhile_invariant (fun s hs _ => hstep s hs) fuel hstart
  have hw := hwithin _ hP
  rw [hc05SendData_eq hne] at h
  dsimp only at h
  split at h
  · cases h
  · rename_i hend
    cases h
    rw [hw.more_iff] at hend
    refine ⟨_, hP, Nat.le_antisymm hw.offset (Nat.not_lt.mp hend), ?_⟩
    rw [if_pos hw.ret]

end call

/-- **Sending data.**  With transmissions that report no error the call ends, and has then put
exactly the data into the port if it returns its size, exactly for packets that are not empty and fit
the port. -/
theorem hc_05_send_data_iff (results : Nat → Int) (hok : ∀ i, results i = 0) (data : List UInt8)
    (hne : data ≠ []) (packetSize : Nat) (hu16 : packetSize < 2 ^ 16) :
    ((∃ fuel r, hc05SendData results data packetSize fuel = some r) ∧
      ∀ fuel ret placed, hc05SendData results data packetSize fuel = some (ret, placed) →
        ret = (data.length : Int).bmod (2 ^ 32) → placed.flatten = data) ↔
    0 < packetOf data.length packetSize ∧
      packetOf data.length packetSize < SERIAL_PORT_BUFFER_SIZE := by
  constructor
  · rintro ⟨⟨fuel, r, hrun⟩, hall⟩
    have hpos : 0 < packetOf data.length packetSize := by
      by_contra hzero
      rw [hc05SendData_stuck hok hne (Nat.eq_zero_of_not_pos hzero)] at hrun
      cases hrun
    refine ⟨hpos, ?_⟩
    by_contra hlong
    obtain ⟨s, hcut, hoffset, rfl⟩ := of_invariant (fun _ h => Cut.toWithin h)
      (fun _ h => h.step hok (packetOf_lt hu16) packetOf_le (Nat.not_lt.mp hlong))
      ⟨⟨rfl, Nat.zero_le _⟩, Nat.le_refl _⟩ hne hrun
    have hlen := congrArg List.length (hall fuel _ _ hrun rfl)
    have hmissing := hcut.missing
    have hdata := List.length_pos_of_ne_nil hne
    omega
  · rintro ⟨hpos, hfit⟩
    refine ⟨hc05SendData_ends hok hne hpos, ?_⟩
    intro fuel ret placed hrun _
    obtain ⟨s, hwhole, hoffset, heq⟩ := of_invariant (fun _ h => Whole.toWithin h)
      (fun _ h => h.step hok hfit) ⟨⟨rfl, Nat.zero_le _⟩, rfl⟩ hne hrun
    rw [(Prod.mk.inj heq).2, hwhole.placed, hoffset, List.take_length]

/-- Three bytes, two at a time. -/
theorem hc_05_send_data_three :
    (∃ fuel r, hc05SendData (fun _ => 0) [1, 2, 3] 2 fuel = some r) ∧
      ∀ fuel ret placed, hc05SendData (fun _ => 0) [1, 2, 3] 2 fuel = some (ret, placed) →
        ret = (3 : Int).bmod (2 ^ 32) → placed.flatten = [1, 2, 3] :=
  (hc_05_send_data_iff (fun _ => 0) (fun _ => rfl) [1, 2, 3] (by decide) 2 (by decide)).mpr
    (by decide)

/-- **65536 bytes, unlimited, are never sent**: the packet size becomes 0. -/
theorem hc_05_send_data_hangs :
    packetOf (2 ^ 16) 0 = 0 ∧
      ¬ ∃ fuel r, hc05SendData (fun _ => 0) (List.replicate (2 ^ 16) 0x55) 0 fuel = some r := by
  refine ⟨by decide, ?_⟩
  rintro ⟨fuel, r, hrun⟩
  have hlen : (List.replicate (2 ^ 16) (0x55 : UInt8)).length = 2 ^ 16 := List.length_replicate
  rw [hc05SendData_stuck (fun _ => rfl) (List.ne_nil_of_length_pos (by rw [hlen]; decide))
    (by rw [hlen]; decide)] at hrun
  cases hrun

end Kinetis.Hc05
