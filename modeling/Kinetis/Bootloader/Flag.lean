import Kinetis.Bootloader.Staging

/-!
# Bootloader — the update flag as a record

`bootloader_write_update_flag` writes a structure of 160 bytes, and a loss of power may leave any
prefix of it in the file.  `read_update_flag` takes eight bytes for enough and zeros for the rest.

* `flag_read_iff`: what is read is what was written exactly if too little arrived to be read at all,
  or nothing was cut off but zeros.
-/

namespace Kinetis.Bootloader
open Lib

/-! ### Fields -/

/-- A field of `n` bytes with a string in it. -/
def stringField (n : Nat) (s : List UInt8) : List UInt8 := s ++ List.replicate (n - s.length) 0

variable {n j : Nat} {s buf : List UInt8}

theorem length_stringField (h : s.length < n) : (stringField n s).length = n := by
  rw [stringField, List.length_append, List.length_replicate]
  omega

theorem cstr_append_zero (h : ∀ c ∈ s, c ≠ 0) (rest : List UInt8) : cstr (s ++ 0 :: rest) = s := by
  rw [cstr, List.takeWhile_append_of_pos fun c hc => decide_eq_true (h c hc),
    List.takeWhile_cons_of_neg (by simp), List.append_nil]

theorem cstr_stringField (hlen : s.length < n) (h : ∀ c ∈ s, c ≠ 0) (rest : List UInt8) :
    cstr (stringField n s ++ rest) = s := by
  obtain ⟨k, hk⟩ : ∃ k, n - s.length = k + 1 := ⟨n - s.length - 1, by omega⟩
  rw [stringField, hk, List.replicate_succ, List.append_assoc, List.cons_append]
  exact cstr_append_zero h _

/-- A zero ends the string. -/
theorem length_cstr_le (h : buf[j]? = some 0) : (cstr buf).length ≤ j := by
  induction buf generalizing j with
  | nil => cases h
  | cons c buf ih =>
    rw [cstr, List.takeWhile_cons]
    split
    · next hc =>
        cases j with
        | zero =>
          cases h
          simp at hc
        | succ j => exact Nat.succ_le_succ (ih h)
    · exact Nat.zero_le _

/-- A byte of a field, after its string, is a zero. -/
theorem stringField_zero {c : UInt8} (hj : s.length ≤ j) (h : (stringField n s)[j]? = some c) :
    c = 0 := by
  rw [stringField, List.getElem?_append_right hj] at h
  exact (List.mem_replicate.mp (List.mem_of_getElem? h)).2

/-! ### The record -/

/-- A flag as it is asked for: strings that fit their fields. -/
structure FlagRecord where
  size     : UInt32
  crc      : UInt32
  name     : List UInt8
  path     : List UInt8
  name_lt  : name.length < 48
  name_nul : ∀ c ∈ name, c ≠ 0
  path_lt  : path.length < 96
  path_nul : ∀ c ∈ path, c ≠ 0

namespace FlagRecord

variable (r : FlagRecord)

/-- `bootloader_write_update_flag`, all of it. -/
def bytes : List UInt8 := bootloaderWriteUpdateFlag r.size r.crc r.name r.path

/-- The structure, field by field. -/
theorem bytes_eq :
    r.bytes =
      leBytes 4 BL_UPDATE_FLAG_MAGIC ++ (leBytes 4 r.size.toNat ++ (leBytes 4 r.crc.toNat ++
        (leBytes 4 0 ++ (stringField 48 r.name ++ stringField 96 r.path)))) := by
  have hstr : ∀ {n : Nat} {s : List UInt8}, s.length < n → (∀ c ∈ s, c ≠ 0) → strncpy n s = s := by
    intro n s hlen hnul
    rw [strncpy, cstr, List.takeWhile_eq_self_iff.mpr fun c hc => decide_eq_true (hnul c hc)]
    exact List.take_of_length_le (by omega)
  unfold bytes bootloaderWriteUpdateFlag
  dsimp only
  rw [hstr r.name_lt r.name_nul, hstr r.path_lt r.path_nul]
  simp only [List.append_assoc, stringField]

@[simp] theorem length_bytes : r.bytes.length = flagSize := by
  rw [bytes_eq]
  simp only [List.length_append, length_leBytes, length_stringField r.name_lt,
    length_stringField r.path_lt]
  rfl

theorem slice_magic : slice r.bytes 0 4 = leBytes 4 BL_UPDATE_FLAG_MAGIC := by
  rw [bytes_eq, slice, List.drop_zero]
  exact List.take_left' (length_leBytes 4 _)

theorem drop_four :
    r.bytes.drop 4 = leBytes 4 r.size.toNat ++ (leBytes 4 r.crc.toNat ++
      (leBytes 4 0 ++ (stringField 48 r.name ++ stringField 96 r.path))) := by
  rw [bytes_eq]
  exact List.drop_left' (length_leBytes 4 _)

theorem drop_eight :
    r.bytes.drop 8 = leBytes 4 r.crc.toNat ++
      (leBytes 4 0 ++ (stringField 48 r.name ++ stringField 96 r.path)) := by
  rw [show (8 : Nat) = 4 + 4 from rfl, ← List.drop_drop, drop_four]
  exact List.drop_left' (length_leBytes 4 _)

theorem drop_twelve :
    r.bytes.drop 12 = leBytes 4 0 ++ (stringField 48 r.name ++ stringField 96 r.path) := by
  rw [show (12 : Nat) = 8 + 4 from rfl, ← List.drop_drop, drop_eight]
  exact List.drop_left' (length_leBytes 4 _)

theorem drop_sixteen : r.bytes.drop 16 = stringField 48 r.name ++ stringField 96 r.path := by
  rw [show (16 : Nat) = 12 + 4 from rfl, ← List.drop_drop, drop_twelve]
  exact List.drop_left' (length_leBytes 4 _)

theorem drop_sixtyfour : r.bytes.drop 64 = stringField 96 r.path := by
  rw [show (64 : Nat) = 16 + 48 from rfl, ← List.drop_drop, drop_sixteen]
  exact List.drop_left' (length_stringField r.name_lt)

theorem slice_size : slice r.bytes 4 4 = leBytes 4 r.size.toNat := by
  rw [slice, drop_four]
  exact List.take_left' (length_leBytes 4 _)

theorem slice_crc : slice r.bytes 8 4 = leBytes 4 r.crc.toNat := by
  rw [slice, drop_eight]
  exact List.take_left' (length_leBytes 4 _)

/-! ### Reading it back -/

/-- What `read_update_flag` has of the structure when its first `k` bytes arrived. -/
def restored (k : Nat) : List UInt8 := r.bytes.take k ++ List.replicate (flagSize - k) 0

variable {k off : Nat}

theorem restored_of_zeros (h : ∀ c ∈ r.bytes.drop k, c = 0) : r.restored k = r.bytes := by
  have hzeros : r.bytes.drop k = List.replicate (flagSize - k) 0 := by
    rw [← r.length_bytes, ← List.length_drop]
    exact List.eq_replicate_of_mem h
  rw [restored, ← hzeros, List.take_append_drop]

theorem getElem?_restored_of_le (hk : k ≤ j) (hj : j < flagSize) : (r.restored k)[j]? = some 0 := by
  have hlen : (r.bytes.take k).length = k := by
    rw [List.length_take, length_bytes]
    omega
  rw [restored, List.getElem?_append_right (by omega), hlen, List.getElem?_replicate_of_lt (by omega)]

/-- The first eight bytes are always there. -/
theorem slice_restored (hk : off + 4 ≤ k) (hk' : k ≤ flagSize) :
    slice (r.restored k) off 4 = slice r.bytes off 4 := by
  have hlen : (r.bytes.take k).length = k := by
    rw [List.length_take, length_bytes]
    omega
  rw [restored, slice_append_left (by omega), slice, slice, List.drop_take, List.take_take]
  congr 1
  omega

/-- What is recovered from a buffer is the record. -/
def Recovered (buf : List UInt8) : Prop :=
  UInt32.ofNat (leNat (slice buf 4 4)) = r.size ∧ UInt32.ofNat (leNat (slice buf 8 4)) = r.crc ∧
    strncpy 64 (buf.drop 16) = r.name ∧ strncpy 96 (buf.drop 64) = r.path

theorem ofNat_leNat_leBytes (x : UInt32) : UInt32.ofNat (leNat (leBytes 4 x.toNat)) = x := by
  have hmod : x.toNat % 256 ^ 4 = x.toNat := Nat.mod_eq_of_lt x.toNat_lt
  rw [leNat_leBytes, hmod]
  exact UInt32.ofNat_toNat

theorem recovered_bytes : r.Recovered r.bytes := by
  have hname : cstr (r.bytes.drop 16) = r.name := by
    rw [drop_sixteen]
    exact cstr_stringField r.name_lt r.name_nul _
  have hpath : cstr (r.bytes.drop 64) = r.path := by
    rw [drop_sixtyfour, ← List.append_nil (stringField 96 r.path)]
    exact cstr_stringField r.path_lt r.path_nul _
  have hname_lt := r.name_lt
  have hpath_lt := r.path_lt
  refine ⟨?_, ?_, ?_, ?_⟩
  · rw [slice_size, ofNat_leNat_leBytes]
  · rw [slice_crc, ofNat_leNat_leBytes]
  · rw [strncpy, hname]
    exact List.take_of_length_le (by omega)
  · rw [strncpy, hpath]
    exact List.take_of_length_le (by omega)

/-- A string that is cut off is not recovered. -/
theorem zero_of_string (hs : strncpy n (buf.drop off) = s)
    (hj : off ≤ j) (hzero : buf[j]? = some 0) : s.length ≤ j - off := by
  have hdrop : (buf.drop off)[j - off]? = some 0 := by
    rw [List.getElem?_drop, Nat.add_sub_cancel' hj]
    exact hzero
  rw [← hs, strncpy]
  exact (List.length_take_le' _ _).trans (length_cstr_le hdrop)

/-- **A byte that is missing and missed.** -/
theorem zeros_of_recovered (hk : 8 ≤ k) (h : r.Recovered (r.restored k)) :
    ∀ c ∈ r.bytes.drop k, c = 0 := by
  intro c hc
  obtain ⟨t, ht⟩ := List.mem_iff_getElem?.mp hc
  rw [List.getElem?_drop] at ht
  obtain ⟨hlt, -⟩ := List.getElem?_eq_some_iff.mp ht
  rw [length_bytes] at hlt
  obtain ⟨-, hcrc, hname, hpath⟩ := h
  have hzero := r.getElem?_restored_of_le (Nat.le_add_right k t) hlt
  generalize hj : k + t = j at *
  -- the byte is one of the checksum, of the reserved word, of the name or of the path
  rcases Nat.lt_or_ge j 12 with h12 | h12
  · have hslice : slice (r.restored k) 8 4 = slice r.bytes 8 4 := by
      have hl : (slice (r.restored k) 8 4).length = 4 := by
        have hflag : flagSize = 160 := rfl
        rw [length_slice, restored, List.length_append, List.length_take, List.length_replicate,
          length_bytes]
        omega
      refine leNat_inj (by rw [hl, slice_crc, length_leBytes]) ?_
      have hbound : leNat (slice (r.restored k) 8 4) < 2 ^ 32 := by
        have hlt' := leNat_lt (slice (r.restored k) 8 4)
        rw [hl] at hlt'
        exact hlt'
      have hval := congrArg UInt32.toNat hcrc
      rw [UInt32.toNat_ofNat', Nat.mod_eq_of_lt hbound] at hval
      have hmod : r.crc.toNat % 256 ^ 4 = r.crc.toNat := Nat.mod_eq_of_lt r.crc.toNat_lt
      rw [hval, slice_crc, leNat_leBytes, hmod]
    have hget := congrArg (fun l => l[j - 8]?) hslice
    simp only [slice, List.getElem?_take, if_pos (show j - 8 < 4 by omega), List.getElem?_drop,
      Nat.add_sub_cancel' (show 8 ≤ j by omega), hzero, ht] at hget
    exact (Option.some.inj hget).symm
  rcases Nat.lt_or_ge j 16 with h16 | h16
  · have hget : (r.bytes.drop 12)[j - 12]? = some c := by
      rw [List.getElem?_drop, Nat.add_sub_cancel' h12]
      exact ht
    rw [drop_twelve, List.getElem?_append_left (by rw [length_leBytes]; omega)] at hget
    have hmem := List.mem_of_getElem? hget
    simpa [leBytes] using hmem
  rcases Nat.lt_or_ge j 64 with h64 | h64
  · have hget : (r.bytes.drop 16)[j - 16]? = some c := by
      rw [List.getElem?_drop, Nat.add_sub_cancel' h16]
      exact ht
    rw [drop_sixteen, List.getElem?_append_left
      (by rw [length_stringField r.name_lt]; omega)] at hget
    exact stringField_zero (zero_of_string hname h16 hzero) hget
  · have hget : (r.bytes.drop 64)[j - 64]? = some c := by
      rw [List.getElem?_drop, Nat.add_sub_cancel' h64]
      exact ht
    rw [drop_sixtyfour] at hget
    exact stringField_zero (zero_of_string hpath h64 hzero) hget

/-- What is read of a prefix. -/
theorem readUpdateFlag_take (ctx : Context) (hk : 8 ≤ k) :
    readUpdateFlag ctx false (some (r.bytes.take k)) =
      some ({ ctx with
        firmwareSize := UInt32.ofNat (leNat (slice (r.restored k) 4 4))
        firmwareCrc32 := UInt32.ofNat (leNat (slice (r.restored k) 8 4))
        firmwareFilename := strncpy 64 ((r.restored k).drop 16)
        firmwarePath := strncpy 96 ((r.restored k).drop 64) },
        UInt32.ofNat (leNat (slice (r.restored k) 4 4)),
        UInt32.ofNat (leNat (slice (r.restored k) 8 4))) := by
  have hflag : flagSize = 160 := rfl
  have hlen : (r.bytes.take k).length = min k flagSize := by rw [List.length_take, length_bytes]
  have hbuf : (r.bytes.take k).take flagSize ++
      List.replicate (flagSize - (r.bytes.take k).length) 0 = r.restored k := by
    rw [List.take_of_length_le (by omega), hlen, restored]
    congr 2
    omega
  have hmagic : leNat (slice (r.restored k) 0 4) = BL_UPDATE_FLAG_MAGIC := by
    rcases Nat.le_total k flagSize with hle | hle
    · rw [r.slice_restored (by omega) hle, slice_magic, leNat_leBytes]
      rfl
    · have hall : r.restored k = r.bytes := by
        rw [restored, List.take_of_length_le (by rw [length_bytes]; exact hle),
          Nat.sub_eq_zero_of_le hle, List.replicate_zero, List.append_nil]
      rw [hall, slice_magic, leNat_leBytes]
      rfl
  unfold readUpdateFlag
  dsimp only
  rw [hbuf, if_neg (by rw [hlen]; simp; omega), if_neg (not_not.mpr hmagic)]

end FlagRecord

/-- **What survives of an update flag.**  Its first `k` bytes reached the file.  If the flag is read
at all, size, checksum, name and path are the written ones exactly if nothing but zeros was cut off;
it is not read if the read fails, or fewer than eight bytes are there. -/
theorem flag_read_iff (r : FlagRecord) (ctx : Context) (flagError : Bool) (k : Nat) :
    (∀ ctx' request, readUpdateFlag ctx flagError (some (r.bytes.take k)) = some (ctx', request) →
      ctx'.firmwareSize = r.size ∧ ctx'.firmwareCrc32 = r.crc ∧ ctx'.firmwareFilename = r.name ∧
        ctx'.firmwarePath = r.path) ↔
      flagError = true ∨ k < 8 ∨ ∀ c ∈ r.bytes.drop k, c = 0 := by
  cases flagError with
  | true =>
    refine iff_of_true (fun ctx' request h => ?_) (.inl rfl)
    simp [readUpdateFlag] at h
  | false =>
    rcases Nat.lt_or_ge k 8 with hk | hk
    · refine iff_of_true (fun ctx' request h => ?_) (.inr (.inl hk))
      unfold readUpdateFlag at h
      dsimp only at h
      rw [if_pos (.inr (by rw [List.length_take]; omega))] at h
      cases h
    · have hread := r.readUpdateFlag_take ctx hk
      constructor
      · intro h
        exact .inr (.inr (r.zeros_of_recovered hk (h _ _ hread)))
      · rintro (h | h | h) ctx' request hsome
        · cases h
        · omega
        · cases hread.symm.trans hsome
          rw [r.restored_of_zeros h]
          exact r.recovered_bytes

/-- **Eight bytes are taken for a flag**, with no checksum and no name. -/
theorem flag_cut_off :
    (readUpdateFlag defaultContext false
      (some ((bootloaderWriteUpdateFlag 8 1 (ascii "a") []).take 8))).map
      (fun r => (r.1.firmwareSize, r.1.firmwareCrc32, r.1.firmwareFilename)) = some (8, 0, []) := by
  decide +kernel

end Kinetis.Bootloader
