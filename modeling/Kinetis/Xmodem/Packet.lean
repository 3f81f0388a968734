import Mathlib.Algebra.Order.Group.Nat
import Mathlib.Data.List.Basic

/-!
# Xmodem — packets and their answers

`xmodem_AssemblePacket` ends a packet with a checksum over what precedes it, and
`xmodem_ProcessReceivePacket` accepts a packet whose checksum, taken over all of it, is zero.  The
checksum is the complement, in 32 bits, of a sum folded into 16, so that its upper half is never
zero (`xmodemCheckSUM8_ne_zero`): every packet is refused.

What the callbacks do is recorded as actions; the data to send come from outside.
-/

namespace Kinetis.Xmodem

def BLOCK_SIZE1 : Nat := 128
def BLOCK_SIZE2 : Nat := 1024
def SOH : UInt8 := 0x01
def STX : UInt8 := 0x02
def EOT : UInt8 := 0x04
def ACK : UInt8 := 0x06
def NAK : UInt8 := 0x15
def CAN : UInt8 := 0x18

/-! ### The checksum -/

/-- The loop over the words; `Index` is a `u8`. -/
def sumWords (pdata : List UInt8) : (words index sum : Nat) → Nat × Nat
  | 0, index, sum => (index, sum)
  | words + 1, index, sum =>
    sumWords pdata words ((index + 2) % 2 ^ 8)
      ((sum + (pdata.getD index 0).toNat * 2 ^ 8 + (pdata.getD (index + 1) 0).toNat) % 2 ^ 32)

/-- The loop that folds the carries into 16 bits, for at most `fuel` turns. -/
def foldCarries : (fuel sum : Nat) → Nat
  | 0, sum => sum
  | fuel + 1, sum =>
    if sum / 2 ^ 16 ≠ 0 then foldCarries fuel (sum % 2 ^ 16 + sum / 2 ^ 16) else sum

/-- `xmodem_CheckSUM8`. -/
def xmodemCheckSUM8 (pdata : List UInt8) (length : Nat) : Nat :=
  if length = 0 then 0
  else
    let r := sumWords pdata (length / 2) 0 0
    let sum := if length % 2 > 0 then (r.2 + (pdata.getD r.1 0).toNat * 2 ^ 8) % 2 ^ 32 else r.2
    2 ^ 32 - 1 - foldCarries sum sum

/-- The turns suffice: the loop ends with 16 bits. -/
theorem foldCarries_lt {fuel sum : Nat} (h : sum ≤ fuel) : foldCarries fuel sum < 2 ^ 16 := by
  induction fuel generalizing sum with
  | zero =>
    rw [foldCarries]
    omega
  | succ fuel ih =>
    rw [foldCarries]
    split
    · exact ih (by omega)
    · omega

theorem xmodemCheckSUM8_ne_zero (pdata : List UInt8) {length : Nat} (h : length ≠ 0) :
    xmodemCheckSUM8 pdata length ≠ 0 := by
  rw [xmodemCheckSUM8, if_neg h]
  dsimp only
  generalize (if length % 2 > 0 then _ else _) = sum
  have hlt := foldCarries_lt (Nat.le_refl sum)
  omega

/-! ### Packets -/

/-- What the callbacks are asked to do. -/
inductive Action where
  | sendReceiveRequest (data : UInt8)
  | processDataBlock (data : List UInt8)
  | sendPacket (data : List UInt8)
  deriving DecidableEq

/-- The globals of the file. -/
structure Globals where
  buffer  : List UInt8
  current : UInt32
  total   : UInt32

/-- `xmodem_AssemblePacket`, with the block that `xmodem_GetTransferData` gives. -/
def xmodemAssemblePacket (block : List UInt8) (s : Globals) : Globals × List Action :=
  let body := SOH :: s.current.toUInt8 :: (~~~s.current).toUInt8 :: block
  let buffer := body ++ [UInt8.ofNat (xmodemCheckSUM8 body (BLOCK_SIZE1 + 3))]
  ({ s with buffer := buffer }, [.sendPacket buffer])

/-- `xmodem_process_sendPacket`. -/
def xmodemProcessSendPacket (block : List UInt8) (s : Globals) : Globals × List Action :=
  xmodemAssemblePacket block { s with current := s.current + 1 }

/-- The two branches for a packet, which differ in the size of the block alone. -/
def receiveBlock (pdata : List UInt8) (size : Nat) : List Action :=
  if xmodemCheckSUM8 pdata (BLOCK_SIZE1 + 4) = 0 then
    [.sendReceiveRequest ACK, .processDataBlock ((pdata.drop 3).take size)]
  else [.sendReceiveRequest NAK]

/-- `xmodem_ProcessReceivePacket`. -/
def xmodemProcessReceivePacket (block pdata : List UInt8) (s : Globals) : Globals × List Action :=
  let head := pdata.getD 0 0
  if head = SOH then (s, receiveBlock pdata BLOCK_SIZE1)
  else if head = STX then (s, receiveBlock pdata BLOCK_SIZE2)
  else if head = EOT then (s, [.sendReceiveRequest ACK])
  else if head = ACK then
    if s.current ≠ s.total then xmodemProcessSendPacket block s else (s, [])
  else if head = NAK then
    if s.current = 0 then xmodemProcessSendPacket block s else (s, [.sendPacket s.buffer])
  else if head = CAN then ({ s with current := 0, total := 0 }, [])
  else (s, [])

/-- Every block is refused. -/
theorem receiveBlock_nak (pdata : List UInt8) (size : Nat) :
    receiveBlock pdata size = [.sendReceiveRequest NAK] :=
  if_neg (xmodemCheckSUM8_ne_zero pdata (by decide))

/-- The packet that is sent for a block. -/
def packetFor (number : UInt32) (block : List UInt8) : List UInt8 :=
  (xmodemAssemblePacket block ⟨[], number, 0⟩).1.buffer

theorem packetFor_block (number : UInt32) {block : List UInt8} (h : block.length = BLOCK_SIZE1) :
    ((packetFor number block).drop 3).take BLOCK_SIZE1 = block := by
  change (block ++ [_]).take BLOCK_SIZE1 = block
  rw [← h, List.take_left]

theorem processReceivePacket_soh (s : Globals) (block : List UInt8) {pdata : List UInt8}
    (h : pdata.getD 0 0 = SOH) :
    (xmodemProcessReceivePacket block pdata s).2 = receiveBlock pdata BLOCK_SIZE1 := by
  rw [xmodemProcessReceivePacket, if_pos h]

/-- **The answer to a packet.**  It is acknowledged and its block handed over exactly if the
checksum of the whole packet is zero, which it is for no packet and no checksum byte: the answer is
always NAK, and nothing is handed over. -/
theorem xmodem_packet_answer (receiver : Globals) (next : List UInt8) (number : UInt32)
    (block : List UInt8) (h : block.length = BLOCK_SIZE1) :
    ((xmodemProcessReceivePacket next (packetFor number block) receiver).2 =
        [.sendReceiveRequest ACK, .processDataBlock block] ↔
      xmodemCheckSUM8 (packetFor number block) (BLOCK_SIZE1 + 4) = 0) ∧
    xmodemCheckSUM8 (packetFor number block) (BLOCK_SIZE1 + 4) ≠ 0 ∧
    ∀ check, (xmodemProcessReceivePacket next
        ((packetFor number block).set (BLOCK_SIZE1 + 3) check) receiver).2 =
      [.sendReceiveRequest NAK] := by
  refine ⟨?_, xmodemCheckSUM8_ne_zero _ (by decide), fun check => ?_⟩
  · rw [processReceivePacket_soh receiver next rfl, receiveBlock, packetFor_block number h]
    split
    · rename_i hsum
      exact iff_of_true rfl hsum
    · rename_i hsum
      exact iff_of_false (by simp) hsum
  · exact (processReceivePacket_soh receiver next rfl).trans (receiveBlock_nak _ _)

/-- A block of zeros. -/
def zeroBlock : List UInt8 := List.replicate BLOCK_SIZE1 0

theorem xmodem_packet_answer_zeros :
    zeroBlock.length = BLOCK_SIZE1 ∧
      (xmodemProcessReceivePacket [] ((packetFor 1 zeroBlock).set 131 0) ⟨[], 0, 0⟩).2 =
        [.sendReceiveRequest NAK] :=
  ⟨rfl, (xmodem_packet_answer ⟨[], 0, 0⟩ [] 1 zeroBlock rfl).2.2 0⟩

/-- **An intact packet is answered with NAK.** -/
theorem xmodem_intact_refused :
    (xmodemProcessReceivePacket [] (packetFor 1 zeroBlock) ⟨[], 0, 0⟩).2 =
      [.sendReceiveRequest NAK] := by
  exact (processReceivePacket_soh _ _ rfl).trans (receiveBlock_nak _ _)

end Kinetis.Xmodem
