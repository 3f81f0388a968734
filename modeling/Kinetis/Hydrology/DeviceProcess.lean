import Kinetis.Hydrology.DeviceReceive

/-!
# Hydrology — an exchange as the device carries it out

`hydrology-device.c`, from `hydrology_device_process_receieve` to `hydrology_device_process_m2`: a
report is sent, an answer is waited for and processed, and a report without an answer is sent again.
An answer that ends in `NAK` has one frame of the report sent again.

* `Link` is what an exchange meets, attempt by attempt: what the heap and the store have, what
  arrives before the timeout, and what the commands of an answer return.
* `g_hydrology.down_packet` is an `Option`: it is cleared when an answer was processed.  Reading
  through it then is a fault.
* `Exchange` is what an exchange did: the reports that were transmitted, the answers that were
  processed, and how it ended.
-/

namespace Kinetis.Hydrology
open Lib

/-! ### Processing an answer -/

/-- What the functions behind `hydrology_execute_command` return. -/
abbrev Commands := BodyType → Option Errno

/-- `hydrology_execute_command`: its result. -/
def executeResult (commands : Commands) : Option BodyType → Option Errno
  | none => some .eperm
  | some funcode =>
    match funcode with
    | .link => some .eperm
    | .configWrite | .paraWrite | .initSolidStorage | .reset | .changePassword | .setIcCard
    | .pump | .valve | .gate | .waterSetting => commands funcode
    | _ => none

/-- `hydrology_device_process_receieve`: its result.  What `hydrology_response_downstream` returns
in modes M3 and M4 is not looked at. -/
def receieveResult (heap : Heap) (commands : Commands) (inp : Input) : Option Errno :=
  if kmalloc heap .packet 1 then
    match (deviceParse inp heap).2.error with
    | some e => some e
    | none => executeResult commands (BodyType.ofCode (deviceParse inp heap).1.funcode)
  else some .enomem

/-- `g_hydrology.down_packet`, by its header, after `hydrology_device_process_receieve` returned
`result`: released on success, left behind on an error. -/
def downAfter (result : Option Errno) (header : Header) : Option Header :=
  match result with
  | none => none
  | some _ => some header

/-! ### Sending a frame again -/

/-- The frame number that `hydrology_device_make_err_up_tail_and_send` takes from a request. -/
def errSeq (nak : Header) : Nat :=
  ((nak.countSeq.1.getD 1 0 &&& 0xFF).toNat + (nak.countSeq.1.getD 2 0).toNat) % 2 ^ 16

/-- `hydrology_device_make_err_up_tail_and_send`.  Beyond the body its buffer reads as zeros here;
no result says anything about what a frame carries from there. -/
def deviceMakeErrUpTailAndSend (env : Env) (p : UpPacket) (funcode : BodyType) (nak : Header) : Sent :=
  let size := (p.header.len + bodyMaxLen + 3) % 2 ^ 16
  if kmalloc env.heap .frame size then
    if kmalloc env.heap .bodyBuffer p.body.len then
      let w := (bodyPieces funcode.upCase p.body).foldl Writer.put ⟨.alloc p.body.len, 0⟩
      let r := splitFrame env.store p funcode.upCase w.buf.mem (errSeq nak) (.alloc size)
      ⟨none, [r.2], [r.1, w.buf]⟩
    else ⟨some .enomem, [], []⟩
  else ⟨some .enomem, [], []⟩

/-- The packet that is sent again; how its header came out is not looked at. -/
def deviceMakeErrPacket (env : Env) (table : List ElementInfo) (mode : Mode) (funcode : BodyType) :
    Except Errno UpPacket :=
  if kmalloc env.heap .packet 1 then
    match deviceMakeUpBody env table (funcode.upCount table.length) funcode with
    | .error e => .error e
    | .ok body => .ok ⟨(deviceMakeUpHeader env.store mode funcode).2, body⟩
  else .error .enomem

/-- One resend of `hydrology_device_process_m3_err_packet`; `none` when it reads the request through
a null pointer. -/
def deviceResend (env : Env) (table : List ElementInfo) (mode : Mode) (funcode : BodyType)
    (down : Option Header) : Option Sent :=
  match deviceMakeErrPacket env table mode funcode with
  | .error e => some ⟨some e, [], []⟩
  | .ok p => down.map (deviceMakeErrUpTailAndSend env p funcode)

/-! ### Exchanges -/

/-- What an exchange meets in its attempts. -/
structure Link where
  env      : Nat → Env
  /-- `hydrology_port_receive`. -/
  receive  : Nat → Except Errno Input
  commands : Nat → Commands

/-- The result of processing the answer of attempt `i`. -/
def Link.receieve (l : Link) (i : Nat) (inp : Input) : Option Errno :=
  receieveResult (l.env i).heap (l.commands i) inp

/-- How an exchange ends: it returns, or runs into a fault. -/
inductive Ending where
  | returned (result : Option Errno)
  | fault
  deriving DecidableEq, Repr

structure Exchange where
  ending    : Ending
  /-- The frames of every transmission. -/
  sends     : List (List (List UInt8))
  processed : List Input

namespace Exchange

/-- It ends where it stands. -/
def stop (ending : Ending) : Exchange := ⟨ending, [], []⟩

/-- A transmission before it. -/
def after (frames : List (List UInt8)) (x : Exchange) : Exchange := { x with sends := frames :: x.sends }

/-- An answer processed before it. -/
def processing (inp : Input) (x : Exchange) : Exchange := { x with processed := inp :: x.processed }

end Exchange

/-- The end identifier of a received frame, `pdata[length - 3]`. -/
def Input.endIdentifier (inp : Input) : UInt8 := inp.byte ((inp.len : Int) - 3)

/-- `hydrology_device_process_receieve(pdata, ..)` where `pdata` is still `NULL`. -/
def receieveNull (heap : Heap) : Ending :=
  if kmalloc heap .packet 1 then .fault else .returned (some .enomem)

/-- What is left of the budget shrinks, by one step of the counter or by two. -/
theorem cerr_decreases {cerr : UInt8} (h : ¬ cerr + 1 ≥ 3) :
    (3 - (cerr + 1)).toNat < (3 - cerr).toNat ∧ (3 - (cerr + 1 + 1)).toNat < (3 - cerr).toNat := by
  have key : ∀ c : Fin 256, ¬ UInt8.ofNat c + 1 ≥ 3 →
      (3 - (UInt8.ofNat c + 1)).toNat < (3 - UInt8.ofNat c).toNat ∧
        (3 - (UInt8.ofNat c + 1 + 1)).toNat < (3 - UInt8.ofNat c).toNat := by decide +kernel
  have h' := key ⟨cerr.toNat, cerr.toNat_lt⟩
  simp only [UInt8.ofNat_toNat] at h'
  exact h' h

/-- `hydrology_device_process_m3_err_packet`, attempt `i`.  The counter goes up before the answer is
waited for, and once more for the next attempt.  After a next attempt that succeeded, an attempt that
timed out goes on to process the answer that it does not have. -/
def deviceProcessM3ErrPacket (l : Link) (table : List ElementInfo) (funcode : BodyType)
    (down : Option Header) (mode : Mode) (cerr : UInt8) (i : Nat) : Exchange :=
  match deviceResend (l.env i) table mode funcode down with
  | none => .stop .fault
  | some s =>
    match s.error with
    | some e => .stop (.returned (some e))
    | none =>
      match l.receive i with
      | .error _ =>
        if cerr + 1 ≥ 3 then Exchange.after s.frames (.stop (.returned (some .enolink)))
        else
          let x := deviceProcessM3ErrPacket l table funcode down .m3 (cerr + 1 + 1) (i + 1)
          Exchange.after s.frames
            (if x.ending = .returned none then
              { x with ending := receieveNull (l.env i).heap }
            else x)
      | .ok inp =>
        Exchange.after s.frames
          (Exchange.processing inp (.stop (.returned (l.receieve i inp))))
termination_by (3 - cerr).toNat
decreasing_by exact (cerr_decreases ‹_›).2

/-- `hydrology_device_process_end_identifier`. -/
def deviceProcessEndIdentifier (l : Link) (table : List ElementInfo) (funcode : BodyType)
    (down : Option Header) (end_ : UInt8) (i : Nat) : Exchange :=
  if end_ = NAK then deviceProcessM3ErrPacket l table funcode down .m3 0 i
  else if end_ ∈ [ETX, ETB, ENQ, EOT, ACK, ESC] then .stop (.returned none)
  else .stop (.returned (some .eperm))

/-- What is done with the answer of attempt `i`. -/
def deviceAnswer (l : Link) (table : List ElementInfo) (funcode : BodyType) (i : Nat) (inp : Input) :
    Exchange :=
  Exchange.processing inp
    (match l.receieve i inp with
    | some e => .stop (.returned (some e))
    | none =>
      deviceProcessEndIdentifier l table funcode
        (downAfter none (deviceParse inp (l.env i).heap).1) inp.endIdentifier (i + 1))

/-- `hydrology_device_process_m2`, attempt `i`.  An attempt that timed out returns that, whatever
the next one came to. -/
def deviceProcessM2 (l : Link) (table : List ElementInfo) (funcode : BodyType) (cerr : UInt8)
    (i : Nat) : Exchange :=
  let s := deviceProcessSend (l.env i) table .m2 funcode
  match s.error with
  | some e => .stop (.returned (some e))
  | none =>
    match l.receive i with
    | .error e =>
      if cerr + 1 ≥ 3 then Exchange.after s.frames (.stop (.returned (some .enolink)))
      else
        let x := deviceProcessM2 l table funcode (cerr + 1) (i + 1)
        Exchange.after s.frames
          (if x.ending = .fault then x else { x with ending := .returned (some e) })
    | .ok inp => Exchange.after s.frames (deviceAnswer l table funcode i inp)
termination_by (3 - cerr).toNat
decreasing_by exact (cerr_decreases ‹_›).1

end Kinetis.Hydrology
