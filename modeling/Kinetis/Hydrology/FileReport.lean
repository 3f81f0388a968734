import Kinetis.Hydrology.Uplink

/-!
# Hydrology — reports that send a file

`ARTIFICIAL_NUM_REPORT`, `INQUIRE_ARTIFICIAL_NUM_REPORT` and `PICTURE_REPORT` carry a file of the
store after a guide.  A file that fits one frame is copied whole; a longer one is read piece by
piece, each frame working out for itself where its piece starts and how long it is.

* `fileBody` is the body that the length of the report counts.
* `sendFile_split`: the frames of a long file are the slices of that body.
* `file_report_iff`: what is sent gives the file back, except for a picture that fits one frame.
-/

namespace Kinetis.Hydrology
open Lib

/-! ### The body of a file report -/

/-- The file of a report, of `num` bytes. -/
def storedFile (store : Store) (c : UpCase) (num : Nat) : List UInt8 :=
  readMem (store.data c.file) 0 num

/-- The body of a file report: fixed bytes, guide and file. -/
def fileBody (store : Store) (c : UpCase) (b : UpBody) (e : Element) : List UInt8 :=
  b.fixed.take c.fileFixed ++ e.guide ++ storedFile store c e.num

section Body

variable {store : Store} {c : UpCase} {b : UpBody} {e : Element}

theorem fileFixed_le (c : UpCase) : c.fileFixed ≤ 23 := by
  cases c <;> decide

theorem length_fileHead (c : UpCase) (b : UpBody) (e : Element) :
    (b.fixed.take c.fileFixed ++ e.guide).length = c.fileFixed + 2 := by
  rw [List.length_append, List.length_take, UpBody.length_fixed, min_eq_left (fileFixed_le c)]
  rfl

theorem length_fileBody : (fileBody store c b e).length = c.fileFixed + 2 + e.num := by
  rw [fileBody, List.length_append, length_fileHead, storedFile, length_readMem]

theorem drop_fileBody : (fileBody store c b e).drop (c.fileFixed + 2) = storedFile store c e.num := by
  rw [fileBody, List.drop_left' (length_fileHead c b e)]

theorem fileRead_data (hstore : store.Healthy) (offset len : Nat) :
    (fileRead store c offset len).data = readMem (store.data c.file) offset len := by
  cases len with
  | zero => rfl
  | succ len => rw [fileRead, Store.read_eq hstore _ _ (Nat.succ_pos len)]

theorem fileRead_whole (hstore : store.Healthy) (offset len : Nat) :
    (fileRead store c offset len).Whole := by
  rw [Piece.Whole, fileRead_data hstore, length_readMem]
  rfl

/-- What lies past the guide is a stretch of the file. -/
theorem slice_fileBody {off m : Nat} (hoff : c.fileFixed + 2 ≤ off)
    (hm : off + m ≤ c.fileFixed + 2 + e.num) :
    slice (fileBody store c b e) off m =
      readMem (store.data c.file) (off - (c.fileFixed + 2)) m := by
  obtain ⟨d, rfl⟩ := Nat.exists_eq_add_of_le hoff
  rw [slice, ← List.drop_drop, drop_fileBody, ← slice, storedFile, slice_readMem _ _ (by omega)]
  simp

/-- The start of the body, of the length of a frame. -/
theorem slice_fileBody_zero (hnum : bodyMaxLen - (c.fileFixed + 2) ≤ e.num) :
    slice (fileBody store c b e) 0 128 = b.fixed.take c.fileFixed ++ e.guide ++
      readMem (store.data c.file) 0 (bodyMaxLen - (c.fileFixed + 2)) := by
  have hfixed := fileFixed_le c
  rw [slice, List.drop_zero, fileBody, List.take_append, length_fileHead,
    List.take_of_length_le (by rw [length_fileHead]; omega), storedFile,
    take_readMem _ _ (show 128 - (c.fileFixed + 2) ≤ e.num from hnum)]
  rfl

end Body

/-! ### What is sent -/

section Send

variable {env : Env} {p : UpPacket} {mode : Mode} {funcode : BodyType} {e : Element}

/-- A frame that is not split has its eight fixed bytes, whatever the report. -/
theorem bodyOf_singleFile (hstore : env.store.Healthy) (hfile : funcode.upCase.isFile = true)
    (hb : p.body.elements = [e]) :
    (∀ q ∈ singlePieces env.store funcode.upCase p.body, q.Whole) ∧
      bodyOf (singlePieces env.store funcode.upCase p.body) =
        p.body.fixed.take 8 ++ e.guide ++ storedFile env.store funcode.upCase e.num := by
  generalize funcode.upCase = c at hfile
  have hpieces : singlePieces env.store c p.body =
      [fixedPiece p.body 8, .ofBytes e.guide, fileRead env.store c 0 e.num] := by
    cases c with
    | artificial | picture => rw [singlePieces, hb]; rfl
    | _ => cases hfile
  rw [hpieces]
  refine ⟨whole_cons (Piece.whole_ofBytes _) (whole_cons (Piece.whole_ofBytes _)
    (List.forall_mem_singleton.mpr (fileRead_whole hstore _ _))), ?_⟩
  simp [fixedPiece, fileRead_data hstore, storedFile, List.append_assoc]

/-- The last frame of a file has what the others left. -/
theorem fileLastLen_eq {num pre : Nat} (hpre : pre ≤ 25) (hnum : num ≤ 65000)
    (hlong : 128 < pre + num) :
    fileLastLen num (bodyMaxLen - pre) = pre + num - (splitTotal (pre + num) - 1) * 128 := by
  rw [fileLastLen, splitTotal_eq, bodyMaxLen]
  split <;> omega

/-- **The frames of a long file are slices of its body**, although each works its piece out for
itself. -/
theorem sendFile_split (hstore : env.store.Healthy) (hheap : env.heap = Heap.ample)
    (hfile : funcode.upCase.isFile = true) (hh : p.header.len = 14) (hb : p.body.elements = [e])
    (hnum : e.num ≤ 65000) (hlen : p.body.len = funcode.upCase.fileFixed + 2 + e.num)
    (hlong : bodyMaxLen < p.body.len) :
    (deviceMakeUpTailAndSend env p funcode).error = none ∧
      (deviceMakeUpTailAndSend env p funcode).frames =
        (List.range (splitTotal p.body.len)).map fun k =>
          frameOf (splitHeader p.header p.body.len (k + 1) (splitTotal p.body.len)).upBytes
            (slice (fileBody env.store funcode.upCase p.body e) (k * 128) 128)
            (splitEnd (k + 1) (splitTotal p.body.len)) := by
  have hfixed := fileFixed_le funcode.upCase
  have hframe : kmalloc env.heap .frame ((p.header.len + bodyMaxLen + 3) % 2 ^ 16) = true := by
    rw [hheap, hh]
    decide
  have hbuffer : kmalloc env.heap .bodyBuffer p.body.len = true := by
    rw [hheap]
    rw [bodyMaxLen] at hlong
    exact kmalloc_ample (by omega) (by omega)
  rw [deviceMakeUpTailAndSend, if_neg (by omega), deviceSendSplit, if_pos hframe, if_pos hbuffer]
  refine ⟨rfl, frames_sendFrames (fun k hk buf => ?_) _⟩
  generalize hc : funcode.upCase = c at hfile hlen hfixed ⊢
  have hsplit : ∀ mem, splitFrame env.store p c mem (k + 1) buf =
      sendFrame buf (splitHeader p.header p.body.len (k + 1) (splitTotal p.body.len)).upBytes
        (fileSplitPieces env.store c p.body (k + 1) (splitTotal p.body.len))
        (splitEnd (k + 1) (splitTotal p.body.len)) := by
    intro mem
    cases c with
    | artificial | picture => rfl
    | _ => cases hfile
  -- the pieces of the frame copy whole, and make up its slice of the body
  have hpieces : (∀ q ∈ fileSplitPieces env.store c p.body (k + 1) (splitTotal p.body.len), q.Whole) ∧
      bodyOf (fileSplitPieces env.store c p.body (k + 1) (splitTotal p.body.len)) =
        slice (fileBody env.store c p.body e) (k * 128) 128 := by
    have htwo := two_le_splitTotal hlong
    rw [bodyMaxLen] at hlong
    rw [fileSplitPieces, hb, List.flatMap_singleton]
    by_cases hlast : k + 1 = splitTotal p.body.len
    · rw [if_pos hlast]
      refine ⟨List.forall_mem_singleton.mpr (fileRead_whole hstore _ _), ?_⟩
      have hlastLen : fileLastLen e.num (bodyMaxLen - (c.fileFixed + 2)) =
          p.body.len - k * 128 := by
        rw [fileLastLen_eq (by omega) hnum (by omega), ← hlen, ← hlast, Nat.add_sub_cancel]
      have hoff : bodyMaxLen - (c.fileFixed + 2) + (k + 1 - 2) * bodyMaxLen =
          k * 128 - (c.fileFixed + 2) := by
        rw [bodyMaxLen]
        omega
      rw [splitTotal_eq] at hlast
      rw [bodyOf_cons, bodyOf_nil, List.append_nil, fileRead_data hstore, hlastLen, hoff,
        ← slice_min, length_fileBody, ← hlen, min_eq_right (by omega),
        slice_fileBody (by omega) (by omega)]
    · rw [if_neg hlast]
      have hnext : k + 1 < splitTotal p.body.len := by omega
      rw [splitTotal_eq] at hnext
      cases k with
      | zero =>
        rw [slice_fileBody_zero (by rw [bodyMaxLen]; omega)]
        refine ⟨whole_cons (Piece.whole_ofBytes _) (whole_cons (Piece.whole_ofBytes _)
          (List.forall_mem_singleton.mpr (fileRead_whole hstore _ _))), ?_⟩
        simp [fixedPiece, fileRead_data hstore, List.append_assoc]
      | succ k =>
        rw [if_neg (by omega)]
        refine ⟨List.forall_mem_singleton.mpr (fileRead_whole hstore _ _), ?_⟩
        have hoff : bodyMaxLen - (c.fileFixed + 2) + (k + 1 + 1 - 2) * bodyMaxLen =
            (k + 1) * 128 - (c.fileFixed + 2) := by
          rw [bodyMaxLen]
          omega
        rw [bodyOf_cons, fileRead_data hstore, hoff,
          slice_fileBody (by omega) (by omega)]
        rfl
  simp only [hsplit]
  rw [sendFrame_eq _ hpieces.1 _ (by rw [hpieces.2]; simp; omega), hpieces.2]

/-- The report of a file that a healthy store has. -/
theorem deviceMakePacket_file (mode : Mode) (table : List ElementInfo)
    (hfile : funcode.upCase.isFile = true) (hheap : env.heap = Heap.ample)
    (hstore : env.store.Healthy) {size : UInt32}
    (hsize : env.store.fileSize funcode.upCase.file = some size) (hmax : size.toNat ≤ 65000) :
    ∃ p e, deviceMakePacket env table mode funcode = .ok p ∧ p.header.Full mode funcode 0 ∧
      p.body.elements = [e] ∧ e.num = size.toNat ∧
      p.body.len = funcode.upCase.fileFixed + 2 + e.num := by
  obtain ⟨h, hh⟩ := deviceMakeUpHeader_healthy hstore mode funcode
  have hm : kmalloc env.heap .packet 1 = true := hheap ▸ kmalloc_ample (by decide) (by decide)
  have hless : funcode.upTableless = true := by
    cases funcode <;> first | rfl | cases hfile
  have hbody : ∃ b e, deviceMakeUpBody env table (funcode.upCount table.length) funcode = .ok b ∧
      b.elements = [e] ∧ e.num = size.toNat ∧
      b.len = funcode.upCase.fileFixed + 2 + e.num := by
    rw [deviceMakeUpBody, if_neg (by rw [hless]; simp)]
    generalize funcode.upCase = c at hfile hsize
    cases c with
    | artificial =>
      have hnum : (fileElement env 0xF2 .rgzs).num = size.toNat := by
        rw [fileElement, show env.store.fileSize .rgzs = some size from hsize]
        rfl
      refine ⟨_, _, rfl, rfl, hnum, ?_⟩
      simp only [listLen_cons, listLen_nil, UpCase.fileFixed, hnum]
      omega
    | picture =>
      have hnum : (fileElement env 0xF3 .picture).num = size.toNat := by
        rw [fileElement, show env.store.fileSize .picture = some size from hsize]
        rfl
      obtain ⟨addr, haddr⟩ := UpBody.withRtuAddr_healthy hstore (UpBody.stamped env)
      obtain ⟨b2, hb2⟩ := UpBody.withObservation_healthy hstore HYDROLOGY_E_PIC
        { UpBody.stamped env with rtuAddrId := ⟨[0xF1, 0xF1], rfl⟩, rtuAddr := addr }
      simp only [haddr, hb2, bind, Except.bind]
      refine ⟨_, _, rfl, rfl, hnum, ?_⟩
      simp only [listLen_cons, listLen_nil, UpCase.fileFixed, hnum]
      omega
    | _ => cases hfile
  obtain ⟨b, e, hb, hes, hnum, hlen⟩ := hbody
  refine ⟨⟨h, b⟩, e, ?_, deviceMakeUpHeader_ok hh, hes, hnum, hlen⟩
  rw [deviceMakePacket, if_pos hm, hh]
  simp only [hb]

end Send

/-! ### What arrives -/

section Arrive

variable {env : Env} {p : UpPacket} {mode : Mode} {funcode : BodyType} {inp : Input}

/-- A frame that is not split arrives with its body. -/
theorem single_body_at (hh : p.header.Full mode funcode 0) {data : List UInt8}
    (hdata : data.length = p.body.len) (hlt : p.body.len < 4096)
    (hin : inp.Holds (frameOf (p.header.singleBytes p.body.len) data ETX)) :
    inp.Accepted ∧ inp.body = data := by
  have hframed := (p.header.single p.body.len).framed_up
    (by rw [(p.header.single_keeps p.body.len).1]; exact hh.start)
  obtain ⟨hacc, hstart, hlen⟩ := single_frame_at hframed (by rw [hh.dirLen0]; rfl) hh.dirLen1 hdata
    hlt hin
  refine ⟨hacc, ?_⟩
  have hat := (located_frame hin hframed).bodyAt
  rw [Input.At, hdata] at hat
  rw [Input.body, hstart, hlen, hat]

/-- A frame that announces more than it carries is refused. -/
theorem short_frame_refused (hh : p.header.Full mode funcode 0) {data : List UInt8}
    (hdata : data.length < p.body.len) (hlt : p.body.len < 4096)
    (hin : inp.Holds (frameOf (p.header.singleBytes p.body.len) data ETX)) : ¬ inp.Accepted := by
  intro hacc
  have hframed := (p.header.single p.body.len).framed_up
    (by rw [(p.header.single_keeps p.body.len).1]; exact hh.start)
  have hl := located_frame hin hframed
  obtain ⟨hd0, hd1⟩ := p.header.dirLen_single p.body.len
  have hbodyLen : inp.bodyLen = p.body.len := by
    rw [Input.bodyLen, hl.len.1, hl.len.2, hd0, hd1]
    exact Header.dirLen_addLen (by rw [hh.dirLen0]; rfl) hh.dirLen1 hlt
  have hlen := length_framed hframed
  have hseq := hframed.seq
  have hfit := hacc.body_le
  have hinlen := hin.1
  rw [length_frameOf, Header.singleBytes, hlen, hseq] at hinlen
  rw [Input.bodyStart, hl.paket] at hfit
  split at hinlen
  · rw [if_pos ‹_›] at hfit
    omega
  · rw [if_neg ‹_›] at hfit
    omega

/-- What was sent of a file report arrives: every frame is accepted, and the bodies of the frames,
put together, are the fixed bytes, the guide and the file. -/
def FileArrives (store : Store) (c : UpCase) (size : Nat) (frames : List (List UInt8)) : Prop :=
  (∀ frame ∈ frames, ∀ inp : Input, inp.Holds frame → inp.Accepted) ∧
    ((frames.map fun frame => (Input.ofFrame frame).body).flatten).drop (c.fileFixed + 2) =
      storedFile store c size

/-- A report that fits one frame: of a picture the frame starts with eight of the 23 fixed bytes
that its length counts, and is refused. -/
theorem file_arrives_single_iff {e : Element} (hfile : funcode.upCase.isFile = true)
    (hheap : env.heap = Heap.ample) (hstore : env.store.Healthy)
    (hh : p.header.Full mode funcode 0) (hes : p.body.elements = [e])
    (hlen : p.body.len = funcode.upCase.fileFixed + 2 + e.num) (hshort : p.body.len ≤ bodyMaxLen) :
    (deviceMakeUpTailAndSend env p funcode).error = none ∧
      (deviceMakeUpTailAndSend env p funcode).frames ≠ [] ∧
      (FileArrives env.store funcode.upCase e.num
        (deviceMakeUpTailAndSend env p funcode).frames ↔ funcode ≠ .picture) := by
  have hk : kmalloc env.heap .frame ((p.header.len + p.body.len + 3) % 2 ^ 16) = true := by
    rw [bodyMaxLen] at hshort
    rw [hheap, hh.len]
    exact kmalloc_ample (by omega) (by omega)
  obtain ⟨hwhole, hbytes⟩ := bodyOf_singleFile hstore hfile hes
  have hcarried : (p.body.fixed.take 8 ++ e.guide ++
      storedFile env.store funcode.upCase e.num).length = 10 + e.num := by
    simp [Element.guide, storedFile]
    omega
  have height : 8 ≤ funcode.upCase.fileFixed := by
    cases funcode <;> decide
  obtain ⟨herr, hframes⟩ := sendSingle_eq hshort hwhole (by rw [hbytes]; omega) hk
  rw [bodyMaxLen] at hshort
  rw [hframes, hbytes]
  refine ⟨herr, List.cons_ne_nil _ _, ?_⟩
  by_cases hpic : funcode = .picture
  · subst hpic
    have h23 : p.body.len = 25 + e.num := hlen
    refine iff_of_false (fun harrives => ?_) (not_not_intro rfl)
    exact short_frame_refused hh (by omega) (by omega) (Input.holds_ofFrame _)
      (harrives.1 _ List.mem_cons_self _ (Input.holds_ofFrame _))
  · have hten : funcode.upCase.fileFixed = 8 := by
      cases funcode <;> first | rfl | exact absurd rfl hpic
    have hdata : (p.body.fixed.take 8 ++ e.guide ++
        storedFile env.store funcode.upCase e.num).length = p.body.len := by
      rw [hcarried, hlen, hten]
    refine iff_of_true ⟨?_, ?_⟩ hpic
    · exact List.forall_mem_singleton.mpr fun inp hin => (single_body_at hh hdata (by omega) hin).1
    · rw [List.map_singleton, (single_body_at hh hdata (by omega) (Input.holds_ofFrame _)).2,
        List.flatten_singleton, hten]
      have hdrop : (fileBody env.store funcode.upCase p.body e).drop _ = _ := drop_fileBody
      rwa [fileBody, hten] at hdrop

/-- A report that is split arrives. -/
theorem file_arrives_split {e : Element} (hfile : funcode.upCase.isFile = true)
    (hheap : env.heap = Heap.ample) (hstore : env.store.Healthy)
    (hh : p.header.Full mode funcode 0) (hes : p.body.elements = [e]) (hmax : e.num ≤ 65000)
    (hlen : p.body.len = funcode.upCase.fileFixed + 2 + e.num) (hlong : bodyMaxLen < p.body.len) :
    (deviceMakeUpTailAndSend env p funcode).error = none ∧
      (deviceMakeUpTailAndSend env p funcode).frames ≠ [] ∧
      FileArrives env.store funcode.upCase e.num
        (deviceMakeUpTailAndSend env p funcode).frames := by
  have hfixed := fileFixed_le funcode.upCase
  obtain ⟨herr, hframes⟩ := sendFile_split hstore hheap hfile hh.len hes hmax hlen hlong
  have hdata : (fileBody env.store funcode.upCase p.body e).length = p.body.len := by
    rw [length_fileBody, hlen]
  have htwo := two_le_splitTotal hlong
  rw [hframes]
  refine ⟨herr, fun hnil => ?_, fun frame hmem inp hin => ?_, ?_⟩
  · rw [List.map_eq_nil_iff, List.range_eq_nil] at hnil
    omega
  · obtain ⟨k, hk, rfl⟩ := List.mem_map.mp hmem
    exact (split_frame_at hh.start hdata (by omega) (List.mem_range.mp hk) hin).1
  · rw [List.map_map]
    refine (congrArg _ (flatten_split_bodies hh.start hdata (by omega))).trans ?_
    exact drop_fileBody

/-- **When the file of a report arrives.**  For every stored file of up to 65000 bytes and in every
mode the report is sent; its frames are accepted and carry the file exactly when it is not a picture
that fits one frame.  There the frame starts with eight of the 23 fixed bytes its length counts, and
is refused. -/
theorem file_report_iff (env : Env) (table : List ElementInfo) (mode : Mode) (funcode : BodyType)
    (hfile : funcode.upCase.isFile = true) (hheap : env.heap = Heap.ample)
    (hstore : env.store.Healthy) (size : UInt32)
    (hsize : env.store.fileSize funcode.upCase.file = some size) (hmax : size.toNat ≤ 65000) :
    (deviceProcessSend env table mode funcode).error = none ∧
      (deviceProcessSend env table mode funcode).frames ≠ [] ∧
      (FileArrives env.store funcode.upCase size.toNat
        (deviceProcessSend env table mode funcode).frames ↔
          ¬ (funcode = .picture ∧ size.toNat ≤ 103)) := by
  obtain ⟨p, e, hp, hh, hes, hnum, hlen⟩ :=
    deviceMakePacket_file mode table hfile hheap hstore hsize hmax
  have hsend : deviceProcessSend env table mode funcode = deviceMakeUpTailAndSend env p funcode := by
    rw [deviceProcessSend, hp]
  rw [hsend, ← hnum]
  rw [← hnum] at hmax
  -- a picture's report has 25 bytes beside the picture
  have hpicture : funcode = .picture → p.body.len = 25 + e.num := by
    rintro rfl
    exact hlen
  have hfits : bodyMaxLen = 128 := rfl
  by_cases hshort : p.body.len ≤ bodyMaxLen
  · obtain ⟨herr, hne, hiff⟩ := file_arrives_single_iff hfile hheap hstore hh hes hlen hshort
    refine ⟨herr, hne, hiff.trans (not_congr ⟨fun hpic => ⟨hpic, ?_⟩, And.left⟩)⟩
    have hpic' := hpicture hpic
    omega
  · obtain ⟨herr, hne, harrives⟩ :=
      file_arrives_split hfile hheap hstore hh hes hmax hlen (Nat.lt_of_not_le hshort)
    refine ⟨herr, hne, iff_of_true harrives ?_⟩
    rintro ⟨hpic, hle⟩
    have hpic' := hpicture hpic
    omega

/-- A store whose files are 300 bytes of zeros. -/
def filesEnv : Env := { calmEnv with store := { calmEnv.store with fileSize := fun _ => some 300 } }

theorem file_report_iff_picture :
    FileArrives filesEnv.store .picture 300
      (deviceProcessSend filesEnv [] .m1 .picture).frames :=
  (file_report_iff filesEnv [] .m1 .picture rfl rfl (fun _ _ _ => rfl) 300 rfl
    (by decide)).2.2.mpr fun h => absurd h.2 (by decide)

/-- A picture of no bytes: the one frame that is sent announces 25 bytes and carries ten. -/
theorem short_picture_refused :
    ∃ frame, (deviceProcessSend calmEnv [] .m1 .picture).frames = [frame] ∧
      (Input.ofFrame frame).bodyLen = 25 ∧ frame.length = 14 + 10 + 3 ∧
      ¬ (Input.ofFrame frame).Accepted := by
  refine ⟨_, rfl, ?_, ?_, ?_⟩ <;> decide +kernel

end Arrive

end Kinetis.Hydrology
