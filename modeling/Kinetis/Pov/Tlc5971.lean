import Kinetis.Pov.Blend

/-!
# Pov — a chain of LED drivers

`drivers/kinetis/tlc5971.c`: a chain of TLC5971 chips is a shift register.  `tlc5971_send` writes one
packet of 224 bits for every chip, in SPI transfers of at most 255 bytes; in the long-chain mode the
packets are followed by idle bits, so that the chips, which count every clock, see a full grayscale
period of 65536.

* `decodeHeader`, `decodeLed` read a packet as a chip does, and `decodeHeader_pack`,
  `decodeLed_pack` say that a chip reads what was packed.
* `Emits` says what a function puts on the bus; it composes (`Emits.andThen`).
* `sendExternalLongChain_spec`: the long-chain mode clocks out the packets and zeros, 65536 bits in
  all, or nothing when the packets do not fit.
-/

namespace Kinetis.Pov
open Lib

@[simp] def TLC5971_LEDS_PER_DEVICE : Nat := 4
@[simp] def TLC5971_PACKET_BYTES : Nat := 28
@[simp] def TLC5971_MAX_WRITE_BYTES : Nat := 255
def EINVAL : Int := 22
def ERANGE : Int := 34
def EOVERFLOW : Int := 75

/-! ### A packet as a chip reads it -/

/-- `struct tlc5971_led`. -/
structure Tlc5971Led where
  r : UInt16
  g : UInt16
  b : UInt16
  deriving DecidableEq, Repr

/-- The function control and brightness control data of a packet. -/
structure ControlBits where
  outtmg : UInt8
  extgck : UInt8
  tmgrst : UInt8
  dsprpt : UInt8
  blank  : UInt8
  bcb    : UInt8
  bcg    : UInt8
  bcr    : UInt8
  deriving DecidableEq, Repr

/-- The write command and the control data at the head of a packet. -/
def decodeHeader (packet : List UInt8) : UInt8 × ControlBits :=
  let byte := fun i => packet.getD i 0
  (byte 0 >>> 2,
    { outtmg := byte 0 >>> 1 &&& 1
      extgck := byte 0 &&& 1
      tmgrst := byte 1 >>> 7
      dsprpt := byte 1 >>> 6 &&& 1
      blank := byte 1 >>> 5 &&& 1
      bcb := (byte 1 &&& 0x1F) <<< 2 ||| byte 2 >>> 6
      bcg := (byte 2 &&& 0x3F) <<< 1 ||| byte 3 >>> 7
      bcr := byte 3 &&& 0x7F })

/-- A grayscale value, high byte first. -/
def decodeGs (packet : List UInt8) (off : Nat) : UInt16 :=
  (packet.getD off 0).toUInt16 <<< 8 ||| (packet.getD (off + 1) 0).toUInt16

/-- The grayscale data of LED `l`: LED 3 first, and blue, green, red. -/
def decodeLed (packet : List UInt8) (l : Nat) : Tlc5971Led :=
  let off := 4 + (TLC5971_LEDS_PER_DEVICE - 1 - l) * 6
  ⟨decodeGs packet (off + 4), decodeGs packet (off + 2), decodeGs packet off⟩

/-! ### What was packed is read -/

theorem gs_recombine (v : UInt16) :
    (v >>> 8).toUInt8.toUInt16 <<< 8 ||| (v &&& 0xFF).toUInt8.toUInt16 = v := by
  have hv := v.toNat_lt
  have hlow : v.toNat &&& 255 = v.toNat % 256 := Nat.and_two_pow_sub_one_eq_mod v.toNat 8
  refine UInt16.toNat_inj.mp ?_
  change (v.toNat >>> 8 % 256) <<< 8 % 65536 ||| (v.toNat &&& 255) % 256 = v.toNat
  rw [Nat.mod_eq_of_lt (b := 65536) (by omega),
    ← Nat.shiftLeft_add_eq_or_of_lt (by omega)]
  omega

/-- **The grayscale data** of a packet, behind any header. -/
theorem decodeLed_pack {header : List UInt8} (hlen : header.length = 4)
    (gsR gsG gsB : Nat → UInt16) {l : Nat} (hl : l < TLC5971_LEDS_PER_DEVICE) :
    decodeLed (header ++ tlc5971PackGs gsR gsG gsB) l = ⟨gsR l, gsG l, gsB l⟩ := by
  obtain ⟨a, b, c, d, rfl⟩ := List.length_eq_four.mp hlen
  rw [Tlc5971Led.mk.injEq]
  rw [TLC5971_LEDS_PER_DEVICE] at hl
  obtain rfl | rfl | rfl | rfl : l = 0 ∨ l = 1 ∨ l = 2 ∨ l = 3 := by omega
  · exact ⟨gs_recombine _, gs_recombine _, gs_recombine _⟩
  · exact ⟨gs_recombine _, gs_recombine _, gs_recombine _⟩
  · exact ⟨gs_recombine _, gs_recombine _, gs_recombine _⟩
  · exact ⟨gs_recombine _, gs_recombine _, gs_recombine _⟩

/-- A byte below `n`, as a number below `n`. -/
theorem exists_fin {n : Nat} {v : UInt8} (h : v.toNat < n) : ∃ i : Fin n, v = UInt8.ofNat i :=
  ⟨⟨v.toNat, h⟩, UInt8.ofNat_toNat.symm⟩

theorem flag_lt (b : UInt8) : (flag b).toNat < 2 := by
  rw [flag]
  split
  · decide
  · decide

/-- Masking and shifting leave as many bits as they leave. -/
theorem and_mask_lt (v : UInt8) (k : Nat) (hk : k ≤ 8) :
    (v &&& UInt8.ofNat (2 ^ k - 1)).toNat < 2 ^ k := by
  have hpos := Nat.two_pow_pos k
  have hle : 2 ^ k ≤ 256 := Nat.pow_le_pow_right (by decide) hk
  rw [UInt8.toNat_and, UInt8.toNat_ofNat']
  exact Nat.lt_of_le_of_lt Nat.and_le_right (by omega)

section bytes

variable {o e t d k low high : UInt8}

theorem header_byte0 (ho : o.toNat < 2) (he : e.toNat < 2) :
    let byte := TLC5971_WRITE_CMD <<< 2 ||| o <<< 1 ||| e
    byte >>> 2 = TLC5971_WRITE_CMD ∧ byte >>> 1 &&& 1 = o ∧ byte &&& 1 = e := by
  have key : ∀ o e : Fin 2,
      let byte := TLC5971_WRITE_CMD <<< 2 ||| UInt8.ofNat o <<< 1 ||| UInt8.ofNat e
      byte >>> 2 = TLC5971_WRITE_CMD ∧ byte >>> 1 &&& 1 = .ofNat o ∧ byte &&& 1 = .ofNat e := by
    decide +kernel
  obtain ⟨o, rfl⟩ := exists_fin ho
  obtain ⟨e, rfl⟩ := exists_fin he
  exact key o e

theorem header_byte1 (ht : t.toNat < 2) (hd : d.toNat < 2) (hk : k.toNat < 2)
    (hhigh : high.toNat < 32) :
    let byte := t <<< 7 ||| d <<< 6 ||| k <<< 5 ||| high
    byte >>> 7 = t ∧ byte >>> 6 &&& 1 = d ∧ byte >>> 5 &&& 1 = k ∧ byte &&& 0x1F = high := by
  have key : ∀ (t d k : Fin 2) (high : Fin 32),
      let byte := UInt8.ofNat t <<< 7 ||| UInt8.ofNat d <<< 6 ||| UInt8.ofNat k <<< 5 |||
        UInt8.ofNat high
      byte >>> 7 = .ofNat t ∧ byte >>> 6 &&& 1 = .ofNat d ∧ byte >>> 5 &&& 1 = .ofNat k ∧
        byte &&& 0x1F = .ofNat high := by
    decide +kernel
  obtain ⟨t, rfl⟩ := exists_fin ht
  obtain ⟨d, rfl⟩ := exists_fin hd
  obtain ⟨k, rfl⟩ := exists_fin hk
  obtain ⟨high, rfl⟩ := exists_fin hhigh
  exact key t d k high

theorem header_byte2 (hlow : low.toNat < 4) (hhigh : high.toNat < 64) :
    (low <<< 6 ||| high) >>> 6 = low ∧ (low <<< 6 ||| high) &&& 0x3F = high := by
  have key : ∀ (low : Fin 4) (high : Fin 64),
      let byte := UInt8.ofNat low <<< 6 ||| UInt8.ofNat high
      byte >>> 6 = .ofNat low ∧ byte &&& 0x3F = .ofNat high := by
    decide +kernel
  obtain ⟨low, rfl⟩ := exists_fin hlow
  obtain ⟨high, rfl⟩ := exists_fin hhigh
  exact key low high

theorem header_byte3 (hlow : low.toNat < 2) (hhigh : high.toNat < 128) :
    (low <<< 7 ||| high) >>> 7 = low ∧ (low <<< 7 ||| high) &&& 0x7F = high := by
  have key : ∀ (low : Fin 2) (high : Fin 128),
      let byte := UInt8.ofNat low <<< 7 ||| UInt8.ofNat high
      byte >>> 7 = .ofNat low ∧ byte &&& 0x7F = .ofNat high := by
    decide +kernel
  obtain ⟨low, rfl⟩ := exists_fin hlow
  obtain ⟨high, rfl⟩ := exists_fin hhigh
  exact key low high

end bytes

/-- A brightness of 7 bits, cut above its lowest two bits or its lowest one, and put together. -/
theorem brightness_recombine (v : UInt8) :
    ((v &&& 0x7F) >>> 2) <<< 2 ||| (v &&& 0x03) = v &&& 0x7F ∧
      ((v &&& 0x7F) >>> 1) <<< 1 ||| (v &&& 0x01) = v &&& 0x7F := by
  have key : ∀ n : Fin 256,
      ((UInt8.ofNat n &&& 0x7F) >>> 2) <<< 2 ||| (UInt8.ofNat n &&& 0x03) = UInt8.ofNat n &&& 0x7F ∧
        ((UInt8.ofNat n &&& 0x7F) >>> 1) <<< 1 ||| (UInt8.ofNat n &&& 0x01) =
          UInt8.ofNat n &&& 0x7F := by
    decide +kernel
  obtain ⟨n, rfl⟩ := exists_fin v.toNat_lt
  exact key n

theorem brightness_lt (v : UInt8) (k : Nat) (hk : k ≤ 7) :
    ((v &&& 0x7F) >>> UInt8.ofNat k).toNat < 2 ^ (7 - k) := by
  have hmask : (v &&& 0x7F).toNat < 2 ^ 7 := and_mask_lt v 7 (by decide)
  have hshift : (UInt8.ofNat k).toNat % 8 = k := by
    rw [UInt8.toNat_ofNat', Nat.mod_eq_of_lt (b := 2 ^ 8) (by omega), Nat.mod_eq_of_lt (by omega)]
  rw [UInt8.toNat_shiftRight, hshift, Nat.shiftRight_eq_div_pow]
  refine Nat.div_lt_of_lt_mul ?_
  rwa [← Nat.pow_add, Nat.add_sub_cancel' hk]

/-- **The header** of a packet, in front of any grayscale data. -/
theorem decodeHeader_pack (outtmg extgck tmgrst dsprpt blank bcb bcg bcr : UInt8)
    (gs : List UInt8) :
    decodeHeader (tlc5971PackHeader outtmg extgck tmgrst dsprpt blank bcb bcg bcr ++ gs) =
      (TLC5971_WRITE_CMD, ⟨flag outtmg, flag extgck, flag tmgrst, flag dsprpt, flag blank,
        bcb &&& 0x7F, bcg &&& 0x7F, bcr &&& 0x7F⟩) := by
  obtain ⟨hcmd, hout, hext⟩ := header_byte0 (flag_lt outtmg) (flag_lt extgck)
  obtain ⟨htmg, hdsp, hblank, hbcb⟩ := header_byte1 (flag_lt tmgrst) (flag_lt dsprpt)
    (flag_lt blank) (brightness_lt bcb 2 (by decide))
  obtain ⟨hbcb', hbcg⟩ := @header_byte2 (bcb &&& 0x03) _ (and_mask_lt bcb 2 (by decide))
    (brightness_lt bcg 1 (by decide))
  obtain ⟨hbcg', hbcr⟩ := @header_byte3 (bcg &&& 0x01) _ (and_mask_lt bcg 1 (by decide))
    (and_mask_lt bcr 7 (by decide))
  have hblue : (bcb &&& 0x7F) >>> 2 <<< 2 ||| (bcb &&& 0x03) = bcb &&& 0x7F :=
    (brightness_recombine bcb).1
  have hgreen : (bcg &&& 0x7F) >>> 1 <<< 1 ||| (bcg &&& 0x01) = bcg &&& 0x7F :=
    (brightness_recombine bcg).2
  rw [← hblue, ← hgreen]
  refine Prod.ext hcmd (ControlBits.mk.injEq .. ▸ ⟨hout, hext, htmg, hdsp, hblank, ?_, ?_, hbcr⟩)
  · exact congrArg₂ (fun x y : UInt8 => x <<< 2 ||| y) hbcb hbcb'
  · exact congrArg₂ (fun x y : UInt8 => x <<< 1 ||| y) hbcg hbcg'

/-! ### The bus -/

/-- The SPI transfers made so far, each as its bytes. -/
abbrev Bus := List (List UInt8)

section driver

variable (spi : Nat → Int)

/-- `write_bytes`; `spi` gives its result by the number of the transfer. -/
def spiWriteBytes (data : List UInt8) (bus : Bus) : Int × Bus := (spi bus.length, bus ++ [data])

/-- `remaining < TLC5971_MAX_WRITE_BYTES ? remaining : TLC5971_MAX_WRITE_BYTES`. -/
def chunkOf (remaining : Nat) : Nat :=
  if remaining < TLC5971_MAX_WRITE_BYTES then remaining else TLC5971_MAX_WRITE_BYTES

theorem chunkOf_pos {remaining : Nat} (h : remaining ≠ 0) : 0 < chunkOf remaining := by
  rw [chunkOf, TLC5971_MAX_WRITE_BYTES]
  split
  · omega
  · omega

theorem chunkOf_le (remaining : Nat) : chunkOf remaining ≤ remaining ∧ chunkOf remaining ≤ 255 := by
  rw [chunkOf, TLC5971_MAX_WRITE_BYTES]
  split
  · omega
  · omega

theorem sub_chunkOf_lt {remaining : Nat} (h : remaining ≠ 0) :
    remaining - chunkOf remaining < remaining := by
  have := chunkOf_pos h
  omega

theorem drop_chunkOf_lt {buf : List UInt8} (h : buf.length ≠ 0) :
    (buf.drop (chunkOf buf.length)).length < buf.length := by
  rw [List.length_drop]
  exact sub_chunkOf_lt h

/-- `tlc5971_write_buf`; the length of a transfer is narrowed to `u8`. -/
def tlc5971WriteBuf (buf : List UInt8) (bus : Bus) : Int × Bus :=
  if buf.length ≠ 0 then
    let r := spiWriteBytes spi (buf.take (chunkOf buf.length % 2 ^ 8)) bus
    if r.1 ≠ 0 then r else tlc5971WriteBuf (buf.drop (chunkOf buf.length)) r.2
  else (0, bus)
termination_by buf.length
decreasing_by exact drop_chunkOf_lt ‹_›

/-- The loop of `tlc5971_send_idle_bits`. -/
def sendIdleBytes (remaining : Nat) (bus : Bus) : Int × Bus :=
  if remaining ≠ 0 then
    let r := tlc5971WriteBuf spi (List.replicate (chunkOf remaining) 0) bus
    if r.1 ≠ 0 then r else sendIdleBytes (remaining - chunkOf remaining) r.2
  else (0, bus)
termination_by remaining
decreasing_by exact sub_chunkOf_lt ‹_›

def tlc5971SendIdleBits (nBits : Nat) (bus : Bus) : Int × Bus :=
  if nBits % 8 ≠ 0 then (-EINVAL, bus) else sendIdleBytes spi (nBits / 8) bus

/-! ### The chain -/

/-- `struct tlc5971_device`, without the clock period and the buffers. -/
structure Tlc5971Device where
  numDevices : UInt32
  outtmg     : UInt8
  extgck     : UInt8
  tmgrst     : UInt8
  dsprpt     : UInt8
  blank      : UInt8
  bcr        : UInt8
  bcg        : UInt8
  bcb        : UInt8
  /-- By device and LED. -/
  slots      : Nat → Nat → Tlc5971Led

/-- `tlc5971_set_fc`. -/
def tlc5971SetFc (dev : Tlc5971Device) (dsprpt tmgrst extgck outtmg blank : UInt8) :
    Tlc5971Device :=
  { dev with
      dsprpt := flag dsprpt
      tmgrst := flag tmgrst
      extgck := flag extgck
      outtmg := flag outtmg
      blank := flag blank }

/-- `tlc5971_serialize`. -/
def tlc5971Serialize (dev : Tlc5971Device) (i : Nat) : List UInt8 :=
  tlc5971PackHeader dev.outtmg dev.extgck dev.tmgrst dev.dsprpt dev.blank dev.bcb dev.bcg dev.bcr ++
    tlc5971PackGs (fun l => (dev.slots i l).r) (fun l => (dev.slots i l).g)
      (fun l => (dev.slots i l).b)

/-- `frame_buf`, as `tlc5971_send` fills it. -/
def frameBuf (dev : Tlc5971Device) : List UInt8 :=
  (List.range dev.numDevices.toNat).flatMap (tlc5971Serialize dev)

/-- `tlc5971_send`, and `tlc5971_send_latched`, which only waits after it. -/
def tlc5971Send (dev : Tlc5971Device) (bus : Bus) : Int × Bus :=
  if dev.numDevices.toNat > (2 ^ 32 - 1) / TLC5971_PACKET_BYTES then (-EOVERFLOW, bus)
  else tlc5971WriteBuf spi (frameBuf dev) bus

/-- `tlc5971_send_external_long_chain`: its result, the device and the bus after it. -/
def sendExternalLongChain (dev : Tlc5971Device) (bus : Bus) : Int × Tlc5971Device × Bus :=
  if dev.numDevices.toNat > (2 ^ 32 - 1) / 224 then (-EOVERFLOW, dev, bus)
  else
    let shiftedBits := dev.numDevices.toNat * 224
    if shiftedBits > 65536 then (-ERANGE, dev, bus)
    else
      let dev := tlc5971SetFc dev 0 1 1 1 0
      let r := tlc5971Send spi dev bus
      if r.1 ≠ 0 then (r.1, dev, r.2)
      else
        let idleBits := 65536 - shiftedBits
        if idleBits = 0 then (0, dev, r.2)
        else
          let r := tlc5971SendIdleBits spi idleBits r.2
          (r.1, dev, r.2)

/-! ### What is put on the bus -/

/-- The function makes transfers of 1 to 255 bytes, which make up `bytes` when it returns 0; it does
when no transfer fails. -/
def Emits (f : Bus → Int × Bus) (bytes : List UInt8) : Prop :=
  ∀ bus, ((∀ k, spi k = 0) → (f bus).1 = 0) ∧
    ∃ sent, (f bus).2 = bus ++ sent ∧ (∀ t ∈ sent, 1 ≤ t.length ∧ t.length ≤ 255) ∧
      ((f bus).1 = 0 → sent.flatten = bytes)

variable {spi}

theorem emits_nothing : Emits spi (fun bus => (0, bus)) [] :=
  fun bus => ⟨fun _ => rfl, [], (List.append_nil bus).symm, fun _ ht => absurd ht List.not_mem_nil,
    fun _ => rfl⟩

/-- Going on after success. -/
theorem Emits.andThen {f g : Bus → Int × Bus} {a b : List UInt8} (hf : Emits spi f a)
    (hg : Emits spi g b) :
    Emits spi (fun bus => if (f bus).1 ≠ 0 then f bus else g (f bus).2) (a ++ b) := by
  intro bus
  obtain ⟨hret, sent, hbus, hlen, hflat⟩ := hf bus
  dsimp only
  split
  · rename_i hne
    exact ⟨fun h => hret h, sent, hbus, hlen, fun h => absurd h hne⟩
  · rename_i heq
    have heq : (f bus).1 = 0 := Decidable.not_not.mp heq
    obtain ⟨hret', sent', hbus', hlen', hflat'⟩ := hg (f bus).2
    refine ⟨hret', sent ++ sent', ?_, ?_, fun h => ?_⟩
    · rw [hbus', hbus, List.append_assoc]
    · intro t ht
      rcases List.mem_append.mp ht with ht | ht
      · exact hlen t ht
      · exact hlen' t ht
    · rw [List.flatten_append, hflat heq, hflat' h]

theorem emits_spiWriteBytes {data : List UInt8} (hpos : 1 ≤ data.length) (hle : data.length ≤ 255) :
    Emits spi (spiWriteBytes spi data) data := by
  intro bus
  refine ⟨fun h => h _, [data], rfl, fun t ht => ?_, fun _ => List.flatten_singleton⟩
  obtain rfl := List.mem_singleton.mp ht
  exact ⟨hpos, hle⟩

theorem emits_tlc5971WriteBuf (buf : List UInt8) : Emits spi (tlc5971WriteBuf spi buf) buf := by
  induction hn : buf.length using Nat.strong_induction_on generalizing buf with
  | h n ih =>
    subst hn
    by_cases hzero : buf.length = 0
    · have hstop : tlc5971WriteBuf spi buf = fun bus => (0, bus) := by
        funext bus
        rw [tlc5971WriteBuf, if_neg (not_not_intro hzero)]
      rw [hstop, List.length_eq_zero_iff.mp hzero]
      exact emits_nothing
    · obtain ⟨hle, hmax⟩ := chunkOf_le buf.length
      have hpos := chunkOf_pos hzero
      have hmod : chunkOf buf.length % 2 ^ 8 = chunkOf buf.length := Nat.mod_eq_of_lt (by omega)
      have hlen : (buf.take (chunkOf buf.length)).length = chunkOf buf.length := by
        rw [List.length_take, Nat.min_eq_left hle]
      have hstep := (@emits_spiWriteBytes spi (buf.take (chunkOf buf.length))
        (by omega) (by omega)).andThen
        (ih _ (drop_chunkOf_lt hzero) (buf.drop (chunkOf buf.length)) rfl)
      rw [List.take_append_drop] at hstep
      have hgo : tlc5971WriteBuf spi buf = fun bus =>
          if (spiWriteBytes spi (buf.take (chunkOf buf.length)) bus).1 ≠ 0 then
            spiWriteBytes spi (buf.take (chunkOf buf.length)) bus
          else tlc5971WriteBuf spi (buf.drop (chunkOf buf.length))
            (spiWriteBytes spi (buf.take (chunkOf buf.length)) bus).2 := by
        funext bus
        rw [tlc5971WriteBuf, if_pos hzero, hmod]
      rw [hgo]
      exact hstep

theorem emits_sendIdleBytes (remaining : Nat) :
    Emits spi (sendIdleBytes spi remaining) (List.replicate remaining 0) := by
  induction remaining using Nat.strong_induction_on with
  | h remaining ih =>
    by_cases hzero : remaining = 0
    · have hstop : sendIdleBytes spi remaining = fun bus => (0, bus) := by
        funext bus
        rw [sendIdleBytes, if_neg (not_not_intro hzero)]
      rw [hstop, hzero]
      exact emits_nothing
    · have hstep := (@emits_tlc5971WriteBuf spi
        (List.replicate (chunkOf remaining) 0)).andThen (ih _ (sub_chunkOf_lt hzero))
      rw [List.replicate_append_replicate, Nat.add_sub_cancel' (chunkOf_le remaining).1] at hstep
      have hgo : sendIdleBytes spi remaining = fun bus =>
          if (tlc5971WriteBuf spi (List.replicate (chunkOf remaining) 0) bus).1 ≠ 0 then
            tlc5971WriteBuf spi (List.replicate (chunkOf remaining) 0) bus
          else sendIdleBytes spi (remaining - chunkOf remaining)
            (tlc5971WriteBuf spi (List.replicate (chunkOf remaining) 0) bus).2 := by
        funext bus
        rw [sendIdleBytes, if_pos hzero]
      rw [hgo]
      exact hstep

variable {dev : Tlc5971Device}

theorem emits_tlc5971Send (h : 224 * dev.numDevices.toNat ≤ 65536) :
    Emits spi (tlc5971Send spi dev) (frameBuf dev) := by
  have hgo : tlc5971Send spi dev = tlc5971WriteBuf spi (frameBuf dev) := by
    funext bus
    rw [tlc5971Send, TLC5971_PACKET_BYTES, if_neg (by omega)]
  rw [hgo]
  exact emits_tlc5971WriteBuf _

end driver

/-! ### A full grayscale period -/

/-- The control data that a device sends. -/
def controlBits (dev : Tlc5971Device) : ControlBits where
  outtmg := flag dev.outtmg
  extgck := flag dev.extgck
  tmgrst := flag dev.tmgrst
  dsprpt := flag dev.dsprpt
  blank := flag dev.blank
  bcb := dev.bcb &&& 0x7F
  bcg := dev.bcg &&& 0x7F
  bcr := dev.bcr &&& 0x7F

/-- What the chips of a chain are to see: 65536 clocks, their packets in the order of the slots, and
zeros. -/
structure FullPeriod (dev : Tlc5971Device) (sent : Bus) : Prop where
  bits      : 8 * sent.flatten.length = 65536
  headers   : ∀ i < dev.numDevices.toNat,
    decodeHeader (slice sent.flatten (TLC5971_PACKET_BYTES * i) TLC5971_PACKET_BYTES) =
      (TLC5971_WRITE_CMD, controlBits dev)
  leds      : ∀ i < dev.numDevices.toNat, ∀ l < TLC5971_LEDS_PER_DEVICE,
    decodeLed (slice sent.flatten (TLC5971_PACKET_BYTES * i) TLC5971_PACKET_BYTES) l =
      dev.slots i l
  idle      : ∀ byte ∈ sent.flatten.drop (TLC5971_PACKET_BYTES * dev.numDevices.toNat), byte = 0
  transfers : ∀ t ∈ sent, 1 ≤ t.length ∧ t.length ≤ 255

theorem length_tlc5971Serialize (dev : Tlc5971Device) (i : Nat) :
    (tlc5971Serialize dev i).length = TLC5971_PACKET_BYTES := rfl

theorem length_frameBuf (dev : Tlc5971Device) :
    (frameBuf dev).length = TLC5971_PACKET_BYTES * dev.numDevices.toNat :=
  length_flatMap_range fun i _ => length_tlc5971Serialize dev i

/-- Packets and zeros up to 65536 bits are a full period. -/
theorem fullPeriod_of_flatten {dev : Tlc5971Device} {sent : Bus}
    (h : 224 * dev.numDevices.toNat ≤ 65536)
    (hflat : sent.flatten =
      frameBuf dev ++ List.replicate ((65536 - dev.numDevices.toNat * 224) / 8) 0)
    (htransfers : ∀ t ∈ sent, 1 ≤ t.length ∧ t.length ≤ 255) : FullPeriod dev sent := by
  have hlen := length_frameBuf dev
  have hpacket : ∀ i < dev.numDevices.toNat,
      slice sent.flatten (TLC5971_PACKET_BYTES * i) TLC5971_PACKET_BYTES =
        tlc5971Serialize dev i := by
    intro i hi
    have hroom : TLC5971_PACKET_BYTES * i + TLC5971_PACKET_BYTES ≤ (frameBuf dev).length := by
      rw [hlen, TLC5971_PACKET_BYTES]
      omega
    rw [hflat, slice_append_left hroom]
    exact slice_flatMap_range (fun i _ => length_tlc5971Serialize dev i) hi
  refine ⟨?_, fun i hi => ?_, fun i hi l hl => ?_, ?_, htransfers⟩
  · rw [hflat, List.length_append, hlen, List.length_replicate, TLC5971_PACKET_BYTES]
    omega
  · rw [hpacket i hi]
    exact decodeHeader_pack _ _ _ _ _ _ _ _ _
  · rw [hpacket i hi]
    exact decodeLed_pack rfl _ _ _ hl
  · rw [hflat, ← hlen, List.drop_left]
    exact fun byte hbyte => List.eq_of_mem_replicate hbyte

section

variable {spi : Nat → Int} {dev : Tlc5971Device}

/-- A chain whose packets fit: the packets and then, where there is room, the idle bits. -/
theorem sendExternalLongChain_eq (h : 224 * dev.numDevices.toNat ≤ 65536) (bus : Bus) :
    let dev' := tlc5971SetFc dev 0 1 1 1 0
    let r := tlc5971Send spi dev' bus
    let out := if r.1 ≠ 0 then r else sendIdleBytes spi ((65536 - dev.numDevices.toNat * 224) / 8) r.2
    sendExternalLongChain spi dev bus = (out.1, dev', out.2) := by
  intro dev' r out
  rw [sendExternalLongChain, if_neg (by omega)]
  dsimp only
  rw [if_neg (by omega)]
  by_cases hret : r.1 = 0
  · have hout : out = sendIdleBytes spi ((65536 - dev.numDevices.toNat * 224) / 8) r.2 :=
      if_neg (not_not_intro hret)
    rw [if_neg (not_not_intro hret), hout]
    split
    · rename_i hidle
      rw [hidle, sendIdleBytes, if_neg (not_not_intro rfl)]
    · rw [tlc5971SendIdleBits, if_neg (by omega)]
  · have hout : out = r := if_pos hret
    rw [if_pos hret, hout]

end

/-- **The long-chain mode.**  A chain whose packets fit into a grayscale period is sent all of it, and
gets it unless a transfer fails; for a longer one nothing is sent. -/
theorem sendExternalLongChain_spec (spi : Nat → Int) (dev : Tlc5971Device) :
    (224 * dev.numDevices.toNat ≤ 65536 →
      ((∀ k, spi k = 0) → (sendExternalLongChain spi dev []).1 = 0) ∧
      ((sendExternalLongChain spi dev []).1 = 0 →
        (sendExternalLongChain spi dev []).2.1 = tlc5971SetFc dev 0 1 1 1 0 ∧
        FullPeriod (tlc5971SetFc dev 0 1 1 1 0) (sendExternalLongChain spi dev []).2.2)) ∧
    (65536 < 224 * dev.numDevices.toNat →
      (sendExternalLongChain spi dev []).1 < 0 ∧ (sendExternalLongChain spi dev []).2.2 = []) := by
  constructor
  · intro h
    have hemits := (@emits_tlc5971Send spi (tlc5971SetFc dev 0 1 1 1 0) h).andThen
      (emits_sendIdleBytes ((65536 - dev.numDevices.toNat * 224) / 8))
    obtain ⟨hret, sent, hbus, htransfers, hflat⟩ := hemits []
    rw [sendExternalLongChain_eq h]
    refine ⟨hret, fun hok => ⟨rfl, ?_⟩⟩
    rw [List.nil_append] at hbus
    rw [hbus]
    exact fullPeriod_of_flatten h (hflat hok) htransfers
  · intro h
    rw [sendExternalLongChain]
    split
    · exact ⟨(by decide : -EOVERFLOW < 0), rfl⟩
    · dsimp only
      rw [if_pos (by omega)]
      exact ⟨(by decide : -ERANGE < 0), rfl⟩

end Kinetis.Pov
