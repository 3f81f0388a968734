import Kinetis.Pov.Blend
import Kinetis.Pov.Ring
import Mathlib.Data.List.TakeWhile

/-!
# Pov — listing the image files

`pov_list_image_files` goes through the directories of the layers twice: it counts the files that
can be transferred, and then sends a `FILE_TRANSFER_LIST` message for each and one more at the end.
The counters are `u16`; the fields of the message, and the parameters of `mavlink_send_ft_list`, are
`u8`.

* `sendLayers_listed`: what the second scan sends is `listed`, the files it sees with their numbers.
* `seen_length_eq_iff`: a scan sees all files when no call fails before it has come to one.
* `listImageFiles_exact_iff`: the phone is told the files, their number and their indices exactly
  when there are at most 255 and neither scan misses one.
-/

open Kinetis.Pov.Ring (POV_LAYER_COUNT)

namespace Kinetis.Pov
open Lib

/-! ### The messages -/

/-- The payload of `FILE_TRANSFER_LIST`. -/
structure FileTransferList where
  fileCount : UInt8
  listIndex : UInt8
  fileSize  : UInt32
  filename  : List Char
  deriving DecidableEq, Repr

/-- The payload that `mavlink_send_ft_list` makes of its arguments. -/
def ftList (fileCount listIndex : UInt8) (fileSize : UInt32) (filename : List Char) :
    FileTransferList :=
  ⟨fileCount, listIndex, fileSize, filename.take 31⟩

/-! ### The scans -/

/-- `pov_ring_is_transfer_file`. -/
def isTransferFile (f : LayerFile) : Bool := f.name ≠ [] && f.bytes.length ≠ 0 && f.isImage

/-- The entries that `f_readdir` returns; the end of a directory is an entry without a name. -/
def LayerDir.entries (dir : LayerDir) : List LayerFile := dir.files.takeWhile (·.name ≠ [])

def layerName (l : Nat) : List Char := ("layer" ++ toString l).toList

/-- No layer is named, or this one. -/
def isSelected (layer : Option (List Char)) (l : Nat) : Bool :=
  layer.getD [] = [] || layer.getD [] = layerName l

/-- What fails while the directories are scanned: `f_opendir` by layer, `f_readdir` by layer and
entry. -/
structure ScanFaults where
  openDir : Nat → Bool
  readDir : Nat → Nat → Bool

/-- What fails in the two scans, and the transmissions by their number. -/
structure ListFaults where
  counting : ScanFaults
  sending  : ScanFaults
  transmit : Nat → Option Errno

inductive ListError where
  | eoverflow
  | transmit (e : Errno)
  deriving DecidableEq, Repr

/-- The first scan of one directory, from entry `k` on; `none` is `-EOVERFLOW`. -/
def countFiles (stop : Nat → Bool) : Nat → List LayerFile → UInt16 → Option UInt16
  | _, [], fileCount => some fileCount
  | k, f :: fs, fileCount =>
    if stop k then some fileCount
    else if !isTransferFile f then countFiles stop (k + 1) fs fileCount
    else if fileCount = 0xffff then none
    else countFiles stop (k + 1) fs (fileCount + 1)

def countLayers (w : ScanFaults) (layer : Option (List Char)) (d : Layers) :
    List Nat → UInt16 → Option UInt16
  | [], fileCount => some fileCount
  | l :: ls, fileCount =>
    if !isSelected layer l then countLayers w layer d ls fileCount
    else
      match d.layer l with
      | none => countLayers w layer d ls fileCount
      | some dir =>
        if w.openDir l then countLayers w layer d ls fileCount
        else
          match countFiles (w.readDir l) 0 dir.entries fileCount with
          | none => none
          | some fileCount => countLayers w layer d ls fileCount

/-- What was sent, and `list_index`. -/
structure Listing where
  sent      : List FileTransferList
  listIndex : UInt16

/-- The second scan of one directory. -/
def sendFiles (transmit : Nat → Option Errno) (fileCount : UInt16) (stop : Nat → Bool) :
    Nat → List LayerFile → Listing → Option Errno × Listing
  | _, [], s => (none, s)
  | k, f :: fs, s =>
    if stop k then (none, s)
    else if !isTransferFile f then sendFiles transmit fileCount stop (k + 1) fs s
    else
      match transmit s.sent.length with
      | some e => (some e, s)
      | none =>
        sendFiles transmit fileCount stop (k + 1) fs
          ⟨s.sent ++ [ftList fileCount.toUInt8 s.listIndex.toUInt8 (.ofNat f.bytes.length)
            f.name], s.listIndex + 1⟩

def sendLayers (transmit : Nat → Option Errno) (fileCount : UInt16) (w : ScanFaults)
    (layer : Option (List Char)) (d : Layers) : List Nat → Listing → Option Errno × Listing
  | [], s => (none, s)
  | l :: ls, s =>
    if !isSelected layer l then sendLayers transmit fileCount w layer d ls s
    else
      match d.layer l with
      | none => sendLayers transmit fileCount w layer d ls s
      | some dir =>
        if w.openDir l then sendLayers transmit fileCount w layer d ls s
        else
          match sendFiles transmit fileCount (w.readDir l) 0 dir.entries s with
          | (some e, s) => (some e, s)
          | (none, s) => sendLayers transmit fileCount w layer d ls s

/-- The second half of `pov_list_image_files`. -/
def sendList (w : ListFaults) (layer : Option (List Char)) (d : Layers) (fileCount : UInt16) :
    Option ListError × List FileTransferList :=
  match sendLayers w.transmit fileCount w.sending layer d (List.range POV_LAYER_COUNT) ⟨[], 0⟩ with
  | (some e, s) => (some (.transmit e), s.sent)
  | (none, s) =>
    match w.transmit s.sent.length with
    | some e => (some (.transmit e), s.sent)
    | none => (none, s.sent ++ [ftList s.listIndex.toUInt8 s.listIndex.toUInt8 0 []])

/-- `pov_list_image_files`: its result, and what it sends. -/
def listImageFiles (w : ListFaults) (layer : Option (List Char)) (d : Layers) :
    Option ListError × List FileTransferList :=
  match countLayers w.counting layer d (List.range POV_LAYER_COUNT) 0 with
  | none => (some .eoverflow, [])
  | some fileCount => sendList w layer d fileCount

/-! ### What there is to list -/

/-- The files to transfer in a layer, when it is selected. -/
def layerFiles (layer : Option (List Char)) (d : Layers) (l : Nat) : List LayerFile :=
  match d.layer l with
  | none => []
  | some dir => if isSelected layer l then dir.entries.filter isTransferFile else []

/-- The files to transfer in the selected layers. -/
def transferFiles (layer : Option (List Char)) (d : Layers) : List LayerFile :=
  (List.range POV_LAYER_COUNT).flatMap (layerFiles layer d)

/-- The phone is told of `files`: a message for each, with their number and its own index, and one
that ends the list. -/
def ListsExactly (files : List LayerFile) (sent : List FileTransferList) : Prop :=
  ∃ entries terminator, sent = entries ++ [terminator] ∧ entries.length = files.length ∧
    (∀ m ∈ entries, m.fileCount.toNat = files.length) ∧
    (entries.map (·.listIndex.toNat)).Perm (List.range files.length) ∧
    (entries.map fun m => (m.filename, m.fileSize)).Perm
      (files.map fun f => (f.name.take 31, .ofNat f.bytes.length)) ∧
    terminator.listIndex.toNat = files.length ∧ terminator.filename = [] ∧ terminator.fileSize = 0

/-- No file to transfer is behind a call that fails. -/
def ScansAll (w : ScanFaults) (layer : Option (List Char)) (d : Layers) : Prop :=
  ∀ l < POV_LAYER_COUNT, isSelected layer l = true → ∀ dir, d.layer l = some dir →
    ∀ j f, dir.entries[j]? = some f → isTransferFile f = true →
      w.openDir l = false ∧ Reached (w.readDir l) 0 j

/-! ### What a scan sees -/

/-- The files to transfer among the entries from number `k` on, until a read fails. -/
def seenIn (stop : Nat → Bool) : Nat → List LayerFile → List LayerFile
  | _, [] => []
  | k, f :: fs =>
    if stop k then []
    else if isTransferFile f then f :: seenIn stop (k + 1) fs
    else seenIn stop (k + 1) fs

def seenLayer (w : ScanFaults) (layer : Option (List Char)) (d : Layers) (l : Nat) :
    List LayerFile :=
  match d.layer l with
  | none => []
  | some dir =>
    if isSelected layer l then if w.openDir l then [] else seenIn (w.readDir l) 0 dir.entries
    else []

def seen (w : ScanFaults) (layer : Option (List Char)) (d : Layers) : List LayerFile :=
  (List.range POV_LAYER_COUNT).flatMap (seenLayer w layer d)

theorem seenIn_sublist (stop : Nat → Bool) (k : Nat) (fs : List LayerFile) :
    (seenIn stop k fs).Sublist (fs.filter isTransferFile) := by
  induction fs generalizing k with
  | nil => exact .slnil
  | cons f fs ih =>
    rw [seenIn, List.filter_cons]
    split
    · exact List.nil_sublist _
    · split
      · exact (ih (k + 1)).cons_cons f
      · exact ih (k + 1)

theorem seenIn_eq_filter_iff (stop : Nat → Bool) (k : Nat) (fs : List LayerFile) :
    seenIn stop k fs = fs.filter isTransferFile ↔
      ∀ j f, fs[j]? = some f → isTransferFile f = true → Reached stop k j := by
  induction fs generalizing k with
  | nil => exact iff_of_true rfl fun j f hf => by cases hf
  | cons f fs ih =>
    rw [seenIn]
    cases hk : stop k with
    | true =>
      -- nothing is reached any more, so there must be nothing left
      rw [if_pos rfl, eq_comm, List.filter_eq_nil_iff]
      constructor
      · intro h j g hg ht
        exact absurd ht (h g (List.mem_of_getElem? hg))
      · intro h g hg ht
        obtain ⟨j, hj⟩ := List.mem_iff_getElem?.mp hg
        have hr := h j g hj ht 0 (Nat.zero_le j)
        rw [Nat.add_zero, hk] at hr
        cases hr
    | false =>
      have hrest : (∀ j g, (f :: fs)[j]? = some g → isTransferFile g = true → Reached stop k j) ↔
          ∀ j g, fs[j]? = some g → isTransferFile g = true → Reached stop (k + 1) j := by
        constructor
        · exact fun h j g hg ht => (reached_succ.mp (h (j + 1) g hg ht)).2
        · intro h j g hg ht
          cases j with
          | zero => exact reached_zero.mpr hk
          | succ j => exact reached_succ.mpr ⟨hk, h j g hg ht⟩
      rw [if_neg Bool.false_ne_true, hrest, ← ih, List.filter_cons]
      split
      · rw [List.cons.injEq]
        exact and_iff_right rfl
      · exact Iff.rfl

section scans

variable {w : ScanFaults} {layer : Option (List Char)} {d : Layers}

theorem seenLayer_sublist (l : Nat) : (seenLayer w layer d l).Sublist (layerFiles layer d l) := by
  rw [seenLayer, layerFiles]
  cases d.layer l with
  | none => exact .slnil
  | some dir =>
    dsimp only
    split
    · split
      · exact List.nil_sublist _
      · exact seenIn_sublist _ 0 _
    · exact .slnil

theorem seenLayer_eq_iff (l : Nat) : seenLayer w layer d l = layerFiles layer d l ↔
    (isSelected layer l = true → ∀ dir, d.layer l = some dir →
      ∀ j f, dir.entries[j]? = some f → isTransferFile f = true →
        w.openDir l = false ∧ Reached (w.readDir l) 0 j) := by
  rw [seenLayer, layerFiles]
  cases d.layer l with
  | none => exact iff_of_true rfl fun _ dir hdir => by cases hdir
  | some dir =>
    dsimp only
    cases isSelected layer l with
    | false => exact iff_of_true rfl fun h => by cases h
    | true =>
      simp only [if_true, Option.some.injEq, forall_eq', forall_const]
      cases w.openDir l with
      | true =>
        rw [if_pos rfl, eq_comm, List.filter_eq_nil_iff]
        constructor
        · intro h j g hg ht
          exact absurd ht (h g (List.mem_of_getElem? hg))
        · intro h g hg ht
          obtain ⟨j, hj⟩ := List.mem_iff_getElem?.mp hg
          exact absurd (h j g hj ht).1 (by decide)
      | false =>
        rw [if_neg Bool.false_ne_true, seenIn_eq_filter_iff]
        simp only [true_and]

theorem flatMap_sublist {α β : Type} {f g : α → List β} (hsub : ∀ a, (f a).Sublist (g a))
    (as : List α) : (as.flatMap f).Sublist (as.flatMap g) := by
  induction as with
  | nil => exact .slnil
  | cons a as ih => exact (hsub a).append ih

/-- Lists that are parts of others, one by one, make up as much only when they are the same. -/
theorem flatMap_length_eq_iff {α β : Type} {f g : α → List β} (hsub : ∀ a, (f a).Sublist (g a))
    (as : List α) :
    (as.flatMap f).length = (as.flatMap g).length ↔ ∀ a ∈ as, f a = g a := by
  induction as with
  | nil => exact iff_of_true rfl fun a ha => absurd ha List.not_mem_nil
  | cons a as ih =>
    have hhead := (hsub a).length_le
    have htail := (flatMap_sublist hsub as).length_le
    rw [List.flatMap_cons, List.flatMap_cons, List.length_append, List.length_append,
      List.forall_mem_cons, ← ih]
    constructor
    · intro h
      exact ⟨(hsub a).eq_of_length (by omega), by omega⟩
    · rintro ⟨ha, hrest⟩
      rw [ha, hrest]

/-- **A scan sees all files** when no call fails before it has come to one. -/
theorem seen_length_eq_iff :
    (seen w layer d).length = (transferFiles layer d).length ↔ ScansAll w layer d := by
  rw [seen, transferFiles, flatMap_length_eq_iff seenLayer_sublist]
  simp only [List.mem_range, seenLayer_eq_iff]
  rfl

theorem seen_sublist : (seen w layer d).Sublist (transferFiles layer d) :=
  flatMap_sublist seenLayer_sublist _

theorem seen_eq_files (h : ScansAll w layer d) : seen w layer d = transferFiles layer d :=
  seen_sublist.eq_of_length (seen_length_eq_iff.mpr h)

/-! ### What is sent -/

theorem countFiles_eq {stop : Nat → Bool} {k n : Nat} {fs : List LayerFile}
    (hfit : n + (seenIn stop k fs).length ≤ 0xffff) :
    countFiles stop k fs (.ofNat n) = some (.ofNat (n + (seenIn stop k fs).length)) := by
  induction fs generalizing k n with
  | nil => rfl
  | cons f fs ih =>
    rw [countFiles]
    rw [seenIn] at hfit ⊢
    split
    · rfl
    · rename_i hk
      rw [if_neg hk] at hfit
      cases ht : isTransferFile f with
      | false =>
        simp only [ht, Bool.false_eq_true, if_false, Bool.not_false, if_true] at hfit ⊢
        exact ih hfit
      | true =>
        simp only [ht, if_true, List.length_cons, Bool.not_true, Bool.false_eq_true,
          if_false] at hfit ⊢
        have hfull : UInt16.ofNat n ≠ 0xffff := by
          intro h
          have := congrArg UInt16.toNat h
          rw [UInt16.toNat_ofNat', Nat.mod_eq_of_lt (by omega)] at this
          change n = 65535 at this
          omega
        have hsucc : UInt16.ofNat n + 1 = .ofNat (n + 1) := (UInt16.ofNat_add n 1).symm
        rw [if_neg hfull, hsucc, ih (by omega), Nat.add_right_comm, Nat.add_assoc]

/-- The directory of layer `l` is scanned. -/
def Visits (w : ScanFaults) (layer : Option (List Char)) (d : Layers) (l : Nat) (dir : LayerDir) :
    Prop :=
  isSelected layer l = true ∧ d.layer l = some dir ∧ w.openDir l = false

/-- A layer is passed over, by both scans and without files, or its directory is scanned. -/
theorem visits_or_skips (w : ScanFaults) (layer : Option (List Char)) (d : Layers) (l : Nat) :
    (seenLayer w layer d l = [] ∧
        (∀ ls n, countLayers w layer d (l :: ls) n = countLayers w layer d ls n) ∧
        ∀ t fileCount ls s, sendLayers t fileCount w layer d (l :: ls) s =
          sendLayers t fileCount w layer d ls s) ∨
      ∃ dir, Visits w layer d l dir := by
  simp only [seenLayer, countLayers, sendLayers, Visits]
  cases d.layer l with
  | none => exact .inl ⟨rfl, fun _ _ => ite_self _, fun _ _ _ _ => ite_self _⟩
  | some dir =>
    cases isSelected layer l with
    | false => exact .inl ⟨rfl, fun _ _ => rfl, fun _ _ _ _ => rfl⟩
    | true =>
      cases w.openDir l with
      | true => exact .inl ⟨rfl, fun _ _ => rfl, fun _ _ _ _ => rfl⟩
      | false => exact .inr ⟨dir, rfl, rfl, rfl⟩

variable {l : Nat} {dir : LayerDir}

theorem Visits.seenLayer (h : Visits w layer d l dir) :
    seenLayer w layer d l = seenIn (w.readDir l) 0 dir.entries := by
  obtain ⟨hsel, hdir, hopen⟩ := h
  simp only [Pov.seenLayer, hsel, hdir, hopen, if_true, Bool.false_eq_true, if_false]

theorem Visits.countLayers (h : Visits w layer d l dir) (ls : List Nat) (n : UInt16) :
    countLayers w layer d (l :: ls) n =
      (countFiles (w.readDir l) 0 dir.entries n).bind (Pov.countLayers w layer d ls) := by
  obtain ⟨hsel, hdir, hopen⟩ := h
  simp only [Pov.countLayers, hsel, hdir, hopen, Bool.not_true, Bool.false_eq_true, if_false]
  cases countFiles (w.readDir l) 0 dir.entries n with
  | none => rfl
  | some n => rfl

theorem Visits.sendLayers (h : Visits w layer d l dir) (t : Nat → Option Errno)
    (fileCount : UInt16) (ls : List Nat) (s : Listing) :
    sendLayers t fileCount w layer d (l :: ls) s =
      Outcome.andThen (sendFiles t fileCount (w.readDir l) 0 dir.entries s)
        (Pov.sendLayers t fileCount w layer d ls) := by
  obtain ⟨hsel, hdir, hopen⟩ := h
  simp only [Pov.sendLayers, hsel, hdir, hopen, Bool.not_true, Bool.false_eq_true, if_false]
  rcases sendFiles t fileCount (w.readDir l) 0 dir.entries s with ⟨_ | e, s⟩
  · rfl
  · rfl

theorem countLayers_eq {ls : List Nat} {n : Nat}
    (hfit : n + (ls.flatMap (seenLayer w layer d)).length ≤ 0xffff) :
    countLayers w layer d ls (.ofNat n) =
      some (.ofNat (n + (ls.flatMap (seenLayer w layer d)).length)) := by
  induction ls generalizing n with
  | nil => rfl
  | cons l ls ih =>
    rw [List.flatMap_cons, List.length_append, ← Nat.add_assoc] at hfit ⊢
    rcases visits_or_skips w layer d l with ⟨hseen, hcount, -⟩ | ⟨dir, hv⟩
    · rw [hseen] at hfit ⊢
      rw [hcount]
      exact ih hfit
    · rw [hv.seenLayer] at hfit ⊢
      rw [hv.countLayers, countFiles_eq (by omega)]
      exact ih hfit

/-- The state in which `files` have been sent. -/
def listed (fileCount : UInt16) (files : List LayerFile) : Listing where
  sent := files.mapIdx fun i f =>
    ftList fileCount.toUInt8 (UInt16.ofNat i).toUInt8 (.ofNat f.bytes.length) f.name
  listIndex := .ofNat files.length

theorem listed_nil (fileCount : UInt16) : listed fileCount [] = ⟨[], 0⟩ := rfl

theorem listed_concat (fileCount : UInt16) (files : List LayerFile) (f : LayerFile) :
    listed fileCount (files ++ [f]) =
      ⟨(listed fileCount files).sent ++ [ftList fileCount.toUInt8
        (listed fileCount files).listIndex.toUInt8 (.ofNat f.bytes.length) f.name],
        (listed fileCount files).listIndex + 1⟩ := by
  rw [listed, List.mapIdx_concat, List.length_append, UInt16.ofNat_add]
  rfl

theorem length_listed (fileCount : UInt16) (files : List LayerFile) :
    (listed fileCount files).sent.length = files.length := List.length_mapIdx

variable {t : Nat → Option Errno} {fileCount : UInt16}

theorem sendFiles_listed {stop : Nat → Bool} {k : Nat} {fs done : List LayerFile}
    (hok : (sendFiles t fileCount stop k fs (listed fileCount done)).1 = none) :
    (sendFiles t fileCount stop k fs (listed fileCount done)).2 =
      listed fileCount (done ++ seenIn stop k fs) := by
  induction fs generalizing k done with
  | nil => rw [seenIn, List.append_nil]; rfl
  | cons f fs ih =>
    rw [sendFiles] at hok ⊢
    rw [seenIn]
    split
    · rw [List.append_nil]
    · rename_i hk
      rw [if_neg hk] at hok
      cases ht : isTransferFile f with
      | false =>
        rw [ht] at hok
        exact ih hok
      | true =>
        simp only [ht, Bool.not_true, Bool.false_eq_true, if_false, if_true] at hok ⊢
        cases hsend : t (listed fileCount done).sent.length with
        | some e => rw [hsend] at hok; cases hok
        | none =>
          simp only [hsend] at hok ⊢
          rw [← listed_concat] at hok ⊢
          rw [ih hok, List.append_assoc]
          rfl

/-- **What the second scan sends**: the files it sees, with their numbers. -/
theorem sendLayers_listed {ls : List Nat} {done : List LayerFile}
    (hok : (sendLayers t fileCount w layer d ls (listed fileCount done)).1 = none) :
    (sendLayers t fileCount w layer d ls (listed fileCount done)).2 =
      listed fileCount (done ++ ls.flatMap (seenLayer w layer d)) := by
  induction ls generalizing done with
  | nil => rw [List.flatMap_nil, List.append_nil]; rfl
  | cons l ls ih =>
    rw [List.flatMap_cons, ← List.append_assoc]
    rcases visits_or_skips w layer d l with ⟨hseen, -, hsend⟩ | ⟨dir, hv⟩
    · rw [hsend] at hok ⊢
      rw [hseen, List.append_nil]
      exact ih hok
    · rw [hv.sendLayers] at hok ⊢
      rw [hv.seenLayer]
      have hfiles := @sendFiles_listed t fileCount (w.readDir l) 0 dir.entries done
      revert hok hfiles
      rcases sendFiles t fileCount (w.readDir l) 0 dir.entries (listed fileCount done) with
        ⟨_ | e, s⟩
      · intro hok hfiles
        obtain rfl := hfiles rfl
        exact ih hok
      · intro hok _
        cases hok

theorem sendFiles_ok (ht : ∀ k, t k = none) {stop : Nat → Bool} {k : Nat} {fs : List LayerFile}
    {s : Listing} : (sendFiles t fileCount stop k fs s).1 = none := by
  induction fs generalizing k s with
  | nil => rfl
  | cons f fs ih =>
    rw [sendFiles, ht]
    split
    · rfl
    · split
      · exact ih
      · exact ih

theorem sendLayers_ok (ht : ∀ k, t k = none) {ls : List Nat} {s : Listing} :
    (sendLayers t fileCount w layer d ls s).1 = none := by
  induction ls generalizing s with
  | nil => rfl
  | cons l ls ih =>
    rcases visits_or_skips w layer d l with ⟨-, -, hsend⟩ | ⟨dir, hv⟩
    · rw [hsend]
      exact ih
    · rw [hv.sendLayers]
      have hfiles := @sendFiles_ok t fileCount ht (w.readDir l) 0 dir.entries s
      revert hfiles
      rcases sendFiles t fileCount (w.readDir l) 0 dir.entries s with ⟨_ | e, s⟩
      · exact fun _ => ih
      · intro h
        cases h

end scans

/-! ### The list -/

/-- The message that ends the list of `n` files. -/
def terminator (n : Nat) : FileTransferList :=
  ftList (UInt16.ofNat n).toUInt8 (UInt16.ofNat n).toUInt8 0 []

section list

variable {w : ListFaults} {layer : Option (List Char)} {d : Layers}

theorem seen_length_le (w : ScanFaults) : (seen w layer d).length ≤ (transferFiles layer d).length :=
  seen_sublist.length_le

/-- The call after its first scan, when the files can be counted. -/
theorem listImageFiles_eq (hn : (transferFiles layer d).length ≤ 65534) :
    listImageFiles w layer d = sendList w layer d (.ofNat (seen w.counting layer d).length) := by
  have hle : (seen w.counting layer d).length ≤ (transferFiles layer d).length := seen_length_le _
  have hcount : countLayers w.counting layer d (List.range POV_LAYER_COUNT) (.ofNat 0) =
      some (.ofNat (seen w.counting layer d).length) := by
    rw [countLayers_eq (n := 0), Nat.zero_add, seen]
    rw [Nat.zero_add, ← seen]
    omega
  have hzero : (0 : UInt16) = .ofNat 0 := rfl
  rw [listImageFiles, hzero, hcount]

theorem sendList_sent {fileCount : UInt16} (hret : (sendList w layer d fileCount).1 = none) :
    (sendList w layer d fileCount).2 = (listed fileCount (seen w.sending layer d)).sent ++
      [terminator (seen w.sending layer d).length] := by
  have hsent := @sendLayers_listed w.sending layer d w.transmit fileCount
    (List.range POV_LAYER_COUNT) []
  rw [List.nil_append, ← seen, listed_nil] at hsent
  unfold sendList at hret ⊢
  revert hret hsent
  rcases sendLayers w.transmit fileCount w.sending layer d (List.range POV_LAYER_COUNT) ⟨[], 0⟩ with
    ⟨_ | e, s⟩
  · intro hret hsent
    have hs : s = listed fileCount (seen w.sending layer d) := hsent rfl
    subst hs
    dsimp only at hret ⊢
    revert hret
    cases w.transmit (listed fileCount (seen w.sending layer d)).sent.length with
    | some e => intro hret; cases hret
    | none => exact fun _ => rfl
  · intro hret
    cases hret

/-- **What is sent** by a call that returns 0. -/
theorem listImageFiles_sent (hn : (transferFiles layer d).length ≤ 65534)
    (hret : (listImageFiles w layer d).1 = none) :
    (listImageFiles w layer d).2 =
      (listed (.ofNat (seen w.counting layer d).length) (seen w.sending layer d)).sent ++
        [terminator (seen w.sending layer d).length] := by
  rw [listImageFiles_eq hn] at hret ⊢
  exact sendList_sent hret

/-- A call that can transmit returns 0. -/
theorem listImageFiles_ok (hn : (transferFiles layer d).length ≤ 65534)
    (ht : ∀ k, w.transmit k = none) : (listImageFiles w layer d).1 = none := by
  rw [listImageFiles_eq hn]
  unfold sendList
  have hsend := @sendLayers_ok w.sending layer d w.transmit
    (.ofNat (seen w.counting layer d).length) ht (List.range POV_LAYER_COUNT) ⟨[], 0⟩
  revert hsend
  rcases sendLayers w.transmit (.ofNat (seen w.counting layer d).length) w.sending layer d
    (List.range POV_LAYER_COUNT) ⟨[], 0⟩ with ⟨_ | e, s⟩
  · intro _
    dsimp only
    rw [ht]
  · intro h
    cases h

end list

/-- A number cut to 16 bits and then to 8. -/
theorem toUInt8_ofNat_toNat (n : Nat) : (UInt16.ofNat n).toUInt8.toNat = n % 256 := by
  rw [UInt16.toNat_toUInt8, UInt16.toNat_ofNat']
  exact Nat.mod_mod_of_dvd n (by decide)

theorem listed_indices {fileCount : UInt16} {files : List LayerFile} (hn : files.length ≤ 255) :
    (listed fileCount files).sent.map (·.listIndex.toNat) = List.range files.length := by
  refine List.ext_getElem (by rw [List.length_map, length_listed, List.length_range]) ?_
  intro i hi hi'
  rw [List.length_range] at hi'
  rw [List.getElem_map, List.getElem_range]
  simp only [listed, List.getElem_mapIdx]
  change (UInt16.ofNat i).toUInt8.toNat = i
  rw [toUInt8_ofNat_toNat, Nat.mod_eq_of_lt (by omega)]

theorem listed_files {fileCount : UInt16} {files : List LayerFile} :
    (listed fileCount files).sent.map (fun m => (m.filename, m.fileSize)) =
      files.map fun f => (f.name.take 31, .ofNat f.bytes.length) := by
  refine List.ext_getElem (by rw [List.length_map, length_listed, List.length_map]) ?_
  intro i hi hi'
  simp only [listed, List.getElem_map, List.getElem_mapIdx]
  rfl

theorem listed_fileCount {fileCount : UInt16} {files : List LayerFile} {m : FileTransferList}
    (hm : m ∈ (listed fileCount files).sent) : m.fileCount = fileCount.toUInt8 := by
  obtain ⟨i, hi, rfl⟩ := List.mem_mapIdx.mp hm
  rfl

/-- Messages that name up to 255 files tell exactly of them. -/
theorem listsExactly_listed {files : List LayerFile} (hn : files.length ≤ 255) :
    ListsExactly files ((listed (.ofNat files.length) files).sent ++ [terminator files.length]) := by
  have hlen : (UInt16.ofNat files.length).toUInt8.toNat = files.length := by
    rw [toUInt8_ofNat_toNat, Nat.mod_eq_of_lt (by omega)]
  refine ⟨_, _, rfl, length_listed _ _, fun m hm => ?_, ?_, ?_, hlen, rfl, rfl⟩
  · rw [listed_fileCount hm, hlen]
  · rw [listed_indices hn]
  · rw [listed_files]

/-- Messages that tell exactly of files name as many, in number and in every count. -/
theorem listsExactly_counts {files found : List LayerFile} {count : Nat} (hcount : count ≤ files.length)
    (h : ListsExactly files ((listed (.ofNat count) found).sent ++ [terminator found.length])) :
    files.length ≤ 255 ∧ found.length = files.length ∧ count = files.length := by
  obtain ⟨entries, last, heq, hlen, hcounts, -, -, hlast, -⟩ := h
  obtain ⟨rfl, hterm⟩ := List.append_inj' heq rfl
  obtain rfl : terminator found.length = last := List.cons.inj hterm |>.1
  rw [length_listed] at hlen
  have hlast : found.length % 256 = files.length := by
    rw [← hlast, ← toUInt8_ofNat_toNat]
    rfl
  have hle : files.length ≤ 255 := by omega
  refine ⟨hle, hlen, ?_⟩
  rcases Nat.eq_zero_or_pos files.length with hzero | hpos
  · omega
  · obtain ⟨m, hm⟩ := List.exists_mem_of_length_pos
      (l := (listed (.ofNat count) found).sent) (by rw [length_listed]; omega)
    have := hcounts m hm
    rw [listed_fileCount hm, toUInt8_ofNat_toNat, Nat.mod_eq_of_lt (by omega)] at this
    exact this

/-- **When the list is exact**: there are at most 255 files, and neither scan misses one. -/
theorem listImageFiles_exact_iff (w : ListFaults) (layer : Option (List Char)) (d : Layers)
    (hn : (transferFiles layer d).length ≤ 65534) (hret : (listImageFiles w layer d).1 = none) :
    ListsExactly (transferFiles layer d) (listImageFiles w layer d).2 ↔
      (transferFiles layer d).length ≤ 255 ∧ ScansAll w.counting layer d ∧
        ScansAll w.sending layer d := by
  rw [listImageFiles_sent hn hret]
  constructor
  · intro h
    obtain ⟨hle, hfound, hcount⟩ := listsExactly_counts (seen_length_le w.counting) h
    exact ⟨hle, seen_length_eq_iff.mp hcount, seen_length_eq_iff.mp hfound⟩
  · rintro ⟨hle, hcounting, hsending⟩
    rw [seen_eq_files hcounting, seen_eq_files hsending]
    exact listsExactly_listed hle

/-! ### One file too many -/

/-- Files `.pov`, `a.pov`, `aa.pov` and so on, of one byte each. -/
def numberedFile (i : Nat) : LayerFile where
  name := List.replicate i 'a' ++ ['.', 'p', 'o', 'v']
  dir := false
  sys := false
  bytes := [0]

theorem numberedFile_name_injective : (fun i => (numberedFile i).name).Injective := by
  intro i j h
  have := congrArg List.length h
  simpa [numberedFile] using this

theorem strrchr_numberedFile (i : Nat) :
    strrchr '.' (numberedFile i).name = some ['.', 'p', 'o', 'v'] := by
  induction i with
  | zero => rfl
  | succ i ih =>
    have hname : (numberedFile (i + 1)).name = 'a' :: (numberedFile i).name := rfl
    rw [hname, strrchr, ih]

theorem numberedFile_name_ne_nil (i : Nat) : (numberedFile i).name ≠ [] :=
  List.append_ne_nil_of_right_ne_nil _ (by decide)

theorem isTransferFile_numberedFile (i : Nat) : isTransferFile (numberedFile i) = true := by
  have hext : isPov (numberedFile i).name = true := by
    rw [isPov, strrchr_numberedFile, decide_eq_true_iff]
  rw [isTransferFile, LayerFile.isImage, hext, decide_eq_true (numberedFile_name_ne_nil i)]
  rfl

theorem numberedFiles_nodup (n : Nat) :
    (((List.range n).map numberedFile).map LayerFile.name).Nodup := by
  rw [List.map_map]
  exact List.nodup_range.map numberedFile_name_injective

/-- A directory of `n` images. -/
def numberedDir (n : Nat) : LayerDir := ⟨(List.range n).map numberedFile, numberedFiles_nodup n⟩

/-- A disk with `n` images, all in `layer0`. -/
def numberedLayers (n : Nat) : Layers where
  layer := fun l => if l = 0 then some (numberedDir n) else none
  blend := fun _ => none

def noListFaults : ListFaults where
  counting := ⟨fun _ => false, fun _ _ => false⟩
  sending := ⟨fun _ => false, fun _ _ => false⟩
  transmit := fun _ => none

theorem numberedLayers_files (n : Nat) :
    (transferFiles none (numberedLayers n)).length = n := by
  have hentries : (numberedDir n).entries = (List.range n).map numberedFile := by
    refine List.takeWhile_eq_self_iff.mpr fun f hf => ?_
    obtain ⟨i, -, rfl⟩ := List.mem_map.mp hf
    exact decide_eq_true (numberedFile_name_ne_nil i)
  have hfilter : (numberedDir n).entries.filter isTransferFile = (List.range n).map numberedFile := by
    rw [hentries, List.filter_eq_self]
    intro f hf
    obtain ⟨i, -, rfl⟩ := List.mem_map.mp hf
    exact isTransferFile_numberedFile i
  have hfiles : transferFiles none (numberedLayers n) =
      (numberedDir n).entries.filter isTransferFile ++ ([] ++ ([] ++ ([] ++ []))) := rfl
  rw [hfiles, hfilter]
  simp

theorem scansAll_noListFaults (layer : Option (List Char)) (d : Layers) :
    ScansAll noListFaults.counting layer d :=
  fun _ _ _ _ _ _ _ _ _ => ⟨rfl, fun _ _ => rfl⟩

theorem listImageFiles_exact_three :
    ListsExactly (transferFiles none (numberedLayers 3))
      (listImageFiles noListFaults none (numberedLayers 3)).2 := by
  have hn : (transferFiles none (numberedLayers 3)).length ≤ 65534 := by
    rw [numberedLayers_files]
    decide
  refine (listImageFiles_exact_iff noListFaults none (numberedLayers 3) hn
    (listImageFiles_ok hn fun _ => rfl)).mpr ⟨?_, scansAll_noListFaults _ _,
      scansAll_noListFaults _ _⟩
  rw [numberedLayers_files]
  decide

/-- With 256 files and no failure the call returns 0, and what it sends is not the list. -/
theorem listImageFiles_crowded :
    (transferFiles none (numberedLayers 256)).length = 256 ∧
      (listImageFiles noListFaults none (numberedLayers 256)).1 = none ∧
      ¬ ListsExactly (transferFiles none (numberedLayers 256))
        (listImageFiles noListFaults none (numberedLayers 256)).2 := by
  have hn : (transferFiles none (numberedLayers 256)).length ≤ 65534 := by
    rw [numberedLayers_files]
    decide
  have hret : (listImageFiles noListFaults none (numberedLayers 256)).1 = none :=
    listImageFiles_ok hn fun _ => rfl
  refine ⟨numberedLayers_files 256, hret, fun h => ?_⟩
  rw [listImageFiles_sent hn hret] at h
  have hle := (listsExactly_counts (seen_length_le noListFaults.counting) h).1
  rw [numberedLayers_files] at hle
  exact absurd hle (by decide)

end Kinetis.Pov
