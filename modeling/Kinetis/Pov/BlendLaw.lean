import Kinetis.Pov.BlendPass

/-!
# Pov — what is in `blend` after the layers were composed

* `ComposeLaw` is what `pov_compose_layers` promises when it returns 0: the composition of every valid
  image of `layer0` is in `blend`.
* `compose_law_iff`: when that holds.  An image that cannot be read is not an error, and a file that
  is in `blend` already is kept, whatever became of the layers.
* `compose_calm`: without a fault, into an empty directory, it holds.
-/

namespace Kinetis.Pov
open Lib

/-! ### The whole directory -/

section Directory

variable {w : Faults} {d : Layers} {dir : LayerDir} {f : LayerFile} {k : Nat}

/-- **What `pov_compose_layers` promises** when it returns 0. -/
def ComposeLaw (w : Faults) (d : Layers) : Prop :=
  (povComposeLayers w d).1 = none → ∀ dir, d.layer 0 = some dir → ∀ f ∈ dir.files, f.Valid →
    Composed ((povComposeLayers w d).2 f.name) f.bytes d.backgrounds

/-- A file is created in `blend` for entry `k` of `layer0`. -/
structure Handled (w : Faults) (d : Layers) (k : Nat) (f : LayerFile) : Prop where
  reached : Reached (w.readDir 0) 0 k
  plain   : f.sys = false
  taken   : Taken (w.pass k) (d.blend f.name)

/-- The calls before the first entry succeed. -/
structure Starts (w : Faults) : Prop where
  allocates : w.mallocFails = false
  creates   : w.createDirs = none
  opens     : w.openDir 0 = false

/-- What makes the promise hold: unless an error is returned, every image is handled without an error
and with the backgrounds that are on the disk, or its composition was there before. -/
def Composable (w : Faults) (d : Layers) : Prop :=
  ∀ dir, d.layer 0 = some dir → Starts w →
    (∀ k f, dir.files[k]? = some f → f.Valid → Handled w d k f →
      ¬ WriteFails (w.pass k) f.bytes (openBackgrounds w d)) →
    ∀ k f, dir.files[k]? = some f → f.Valid →
      (Handled w d k f →
        Completes (w.pass k) f.bytes (openBackgrounds w d) ∧ (w.pass k).closeFails = false ∧
        ∀ col < POV_DISPLAY_COLS,
          blendColumn f.bytes ((openBackgrounds w d).filterMap Prod.snd) col =
            blendColumn f.bytes d.backgrounds col) ∧
      (¬ Handled w d k f → Composed (d.blend f.name) f.bytes d.backgrounds)

theorem openBackground_sound {i : Nat} {dir : Option LayerDir} {bytes : List UInt8}
    (h : openBackground w i dir = some (some bytes)) : POV_IMAGE_HEADER_SIZE ≤ bytes.length := by
  rw [openBackground] at h
  split at h
  · cases h
  · split at h
    · split at h <;> cases h
    · rename_i hbad
      cases h
      exact Nat.le_of_not_lt fun hlt => hbad (.inr (.inl hlt))

theorem sound_openBackgrounds (w : Faults) (d : Layers) : Sound (openBackgrounds w d) := by
  intro b hb bytes hbytes
  obtain ⟨i, -, hi⟩ := List.mem_filterMap.mp hb
  obtain ⟨b', hopen, rfl⟩ := Option.map_eq_some_iff.mp hi
  cases hbytes
  exact openBackground_sound hopen

theorem isImage_of_valid (hv : f.Valid) (hs : f.sys = false) : f.isImage = true := by
  rw [LayerFile.isImage, hv.dir, hs, hv.image]
  rfl

/-- An entry that is not a valid image is passed over. -/
theorem composeEntry_of_not_valid {old : Option (List UInt8)} {opened : List (Nat × Background)}
    (h : f.isImage = true → ¬ f.Valid) : composeEntry w opened k f old = (none, old) := by
  rw [composeEntry]
  cases hi : f.isImage with
  | false => rfl
  | true =>
    rw [if_pos rfl]
    have hraw : validateRawLayerFile f.bytes.length f.header true ≠ .ok () := by
      intro hraw
      rw [LayerFile.isImage, Bool.and_eq_true, Bool.not_eq_true', Bool.or_eq_false_iff] at hi
      exact h (by rw [LayerFile.isImage, hi.1.1, hi.1.2, hi.2]; rfl) ⟨hi.1.1, hi.2, hraw⟩
    rw [composeImage]
    split
    · rfl
    · split
      · rfl
      · dsimp only
        split
        · rfl
        · rw [if_pos]
          exact hraw

/-- What the scan makes of entry `k` of `layer0`. -/
theorem compose_entry (hstart : Starts w) (hdir : d.layer 0 = some dir) (hf : dir.files[k]? = some f) :
    (povComposeLayers w d).2 f.name =
      if Reached (w.readDir 0) 0 k then
        (composeEntry w (openBackgrounds w d) k f (d.blend f.name)).2
      else d.blend f.name := by
  rw [povComposeLayers, hstart.allocates, if_neg Bool.false_ne_true, hstart.creates]
  rw [hdir]
  dsimp only
  rw [hstart.opens, if_neg Bool.false_ne_true, scan_at dir.distinct hf, Nat.zero_add]

theorem compose_ok_iff (hdir : d.layer 0 = some dir) :
    (povComposeLayers w d).1 = none ↔ Starts w ∧ ∀ k f, dir.files[k]? = some f →
      Reached (w.readDir 0) 0 k →
        (composeEntry w (openBackgrounds w d) k f (d.blend f.name)).1 = none := by
  rw [povComposeLayers]
  cases hm : w.mallocFails with
  | true =>
    refine iff_of_false (Option.some_ne_none _) fun h => ?_
    have := h.1.allocates
    rw [hm] at this
    cases this
  | false =>
    rw [if_neg Bool.false_ne_true]
    cases hc : w.createDirs with
    | some e =>
      refine iff_of_false (Option.some_ne_none _) fun h => ?_
      have := h.1.creates
      rw [hc] at this
      cases this
    | none =>
      rw [hdir]
      dsimp only
      cases ho : w.openDir 0 with
      | true =>
        refine iff_of_false (Option.some_ne_none _) fun h => ?_
        have := h.1.opens
        rw [ho] at this
        cases this
      | false =>
        rw [if_neg Bool.false_ne_true, scan_ok_iff dir.distinct]
        simp only [Nat.zero_add, true_and]
        exact ⟨fun h => ⟨⟨hm, hc, ho⟩, h⟩, fun h => h.2⟩

theorem sys_of_isImage (h : f.isImage = true) : f.sys = false := by
  rw [LayerFile.isImage, Bool.and_eq_true, Bool.not_eq_true', Bool.or_eq_false_iff] at h
  exact h.1.2

/-- An entry that is reached returns an error when it is handled and a write fails. -/
theorem composeEntry_ok_iff (h : Reached (w.readDir 0) 0 k) :
    (composeEntry w (openBackgrounds w d) k f (d.blend f.name)).1 = none ↔
      (f.Valid → Handled w d k f → ¬ WriteFails (w.pass k) f.bytes (openBackgrounds w d)) := by
  by_cases hv : f.isImage = true ∧ f.Valid
  · rw [composeEntry, if_pos hv.1]
    by_cases ht : Taken (w.pass k) (d.blend f.name)
    · rw [composeImage_ok_iff (sound_openBackgrounds w d) hv.2 ht]
      exact ⟨fun hw _ _ => hw, fun hw => hw hv.2 ⟨h, sys_of_isImage hv.1, ht⟩⟩
    · rw [composeImage_of_not_taken ht]
      exact iff_of_true rfl fun _ hh => absurd hh.taken ht
  · rw [composeEntry_of_not_valid fun hi hval => hv ⟨hi, hval⟩]
    exact iff_of_true rfl fun hval hh => absurd ⟨isImage_of_valid hval hh.plain, hval⟩ hv

/-- What becomes of the file of a valid image. -/
theorem compose_left (hstart : Starts w) (hdir : d.layer 0 = some dir) (hf : dir.files[k]? = some f)
    (hv : f.Valid) :
    (Handled w d k f → (povComposeLayers w d).2 f.name =
      (composeImage (w.pass k) (openBackgrounds w d) f (d.blend f.name)).2) ∧
    (¬ Handled w d k f → (povComposeLayers w d).2 f.name = d.blend f.name) := by
  rw [compose_entry hstart hdir hf]
  refine ⟨fun hh => ?_, fun hh => ?_⟩
  · rw [if_pos hh.reached, composeEntry, if_pos (isImage_of_valid hv hh.plain)]
  · by_cases hr : Reached (w.readDir 0) 0 k
    · rw [if_pos hr, composeEntry]
      cases hi : f.isImage with
      | false => rfl
      | true =>
        rw [if_pos rfl, composeImage_of_not_taken]
        exact fun ht => hh ⟨hr, sys_of_isImage hi, ht⟩
    · rw [if_neg hr]

/-- Nothing goes wrong with an image. -/
def PassFaults.calm : PassFaults where
  findFails := false
  openFails := false
  headerFails := false
  createFails := false
  writeHeader := none
  seekFails _ := false
  readFails _ _ := false
  write _ := none
  closeFails := false
  unlinkFails := false

/-- Nothing goes wrong but what the passes over the images meet. -/
def Faults.withPass (pass : PassFaults) : Faults where
  mallocFails := false
  createDirs := none
  openDir _ := false
  readDir _ _ := false
  openFails _ := false
  headerFails _ := false
  closeFails _ := false
  pass _ := pass

theorem starts_withPass (pass : PassFaults) : Starts (.withPass pass) := ⟨rfl, rfl, rfl⟩

theorem firstImage_eq_find (k : Nat) (files : List LayerFile) :
    firstImage (fun _ => false) k files = files.find? LayerFile.isImage := by
  induction files generalizing k with
  | nil => rfl
  | cons f files ih =>
    rw [firstImage, List.find?_cons, ih]
    cases f.isImage <;> rfl

theorem openBackground_withPass (pass : PassFaults) (i : Nat) (dir : Option LayerDir) :
    openBackground (.withPass pass) i dir = (dir.bind background).map some := by
  cases dir with
  | none => rfl
  | some dir =>
    have hopen : openBackgroundFile (.withPass pass) i (some dir) =
        dir.files.find? LayerFile.isImage := by
      have hread : (Faults.withPass pass).readDir i = fun _ => false := rfl
      have hdir : (Faults.withPass pass).openDir i = false := rfl
      rw [openBackgroundFile, if_neg (by rw [hdir]; decide), hread, firstImage_eq_find]
      cases dir.files.find? LayerFile.isImage <;> rfl
    rw [openBackground, hopen, Option.bind_some, background]
    cases dir.files.find? LayerFile.isImage with
    | none => rfl
    | some f =>
      dsimp only
      by_cases hraw : validateRawLayerFile f.bytes.length f.header false = .ok ()
      · have hsize := (validateRaw_ok hraw).1
        rw [if_pos hraw, if_neg]
        · rfl
        · rintro (h | h | h)
          · cases h
          · exact Nat.not_lt.mpr hsize h
          · exact h hraw
      · rw [if_neg hraw, if_pos (.inr (.inr hraw))]
        rfl

/-- The backgrounds in use are those on the disk. -/
theorem openBackgrounds_withPass (pass : PassFaults) (d : Layers) :
    (openBackgrounds (.withPass pass) d).filterMap Prod.snd = d.backgrounds ∧
      ∀ b ∈ openBackgrounds (.withPass pass) d, b.2 ≠ none := by
  simp only [openBackgrounds, openBackground_withPass]
  constructor
  · rw [List.filterMap_filterMap]
    refine List.filterMap_congr fun i _ => ?_
    cases (d.layer i).bind background <;> rfl
  · intro b hb
    obtain ⟨i, -, hi⟩ := List.mem_filterMap.mp hb
    rw [Option.map_map] at hi
    obtain ⟨bytes, -, rfl⟩ := Option.map_eq_some_iff.mp hi
    exact Option.some_ne_none bytes

/-- **Without a fault, into an empty directory**, every valid image with all of its columns is
composed. -/
theorem compose_calm (hdir : d.layer 0 = some dir) (hempty : ∀ name, d.blend name = none)
    (hf : f ∈ dir.files) (hv : f.Valid) (hsys : f.sys = false)
    (hcols : ∀ col < POV_DISPLAY_COLS, blendColumn f.bytes d.backgrounds col ≠ none) :
    Composed ((povComposeLayers (.withPass .calm) d).2 f.name) f.bytes d.backgrounds := by
  obtain ⟨k, hk⟩ := List.mem_iff_getElem?.mp hf
  obtain ⟨hsame, hsound⟩ := openBackgrounds_withPass .calm d
  have ht : Taken .calm (d.blend f.name) := ⟨.inl (hempty f.name), rfl, rfl, rfl⟩
  have hw : ¬ WriteFails .calm f.bytes (openBackgrounds (.withPass .calm) d) := by
    rintro ⟨-, c, -, hwrite, -⟩
    exact hwrite rfl
  have hmakes : Completes .calm f.bytes (openBackgrounds (.withPass .calm) d) := by
    refine ⟨rfl, fun c hc => ⟨rfl, fun b hb => ⟨hsound b hb, rfl, rfl⟩, ?_⟩⟩
    rw [hsame]
    exact hcols c hc
  have hleft : (povComposeLayers (.withPass .calm) d).2 f.name =
      (composeImage .calm (openBackgrounds (.withPass .calm) d) f (d.blend f.name)).2 :=
    (compose_left (starts_withPass _) hdir hk hv).1 ⟨fun _ _ => rfl, hsys, ht⟩
  rw [hleft]
  refine (composeImage_composed_iff (sound_openBackgrounds _ d) hv ht hw).mpr ⟨hmakes, rfl, ?_⟩
  intro col _
  rw [hsame]

/-! ### Two runs that break the promise -/

/-- A black image in raw colours. -/
def blackFile : LayerFile where
  name := ['a', '.', 'p', 'o', 'v']
  dir := false
  sys := false
  bytes := (imageHeaderInit POV_PAYLOAD_RAW_RGB POV_BYTES_PER_COL POV_DISPLAY_COLS).toBytes ++
    List.replicate (POV_DISPLAY_COLS * POV_BYTES_PER_COL) 0

theorem blackFile_header : blackFile.header =
    imageHeaderInit POV_PAYLOAD_RAW_RGB POV_BYTES_PER_COL POV_DISPLAY_COLS := by
  decide

theorem blackFile_valid : blackFile.Valid := by
  have hlen : blackFile.bytes.length =
      POV_IMAGE_HEADER_SIZE + POV_DISPLAY_COLS * POV_BYTES_PER_COL := by
    rw [blackFile, List.length_append, List.length_replicate]
    rfl
  refine ⟨rfl, rfl, ?_⟩
  rw [hlen]
  decide

/-- A disk with that image alone, and what is under its name in `blend`. -/
def blackLayers (old : Option (List UInt8)) : Layers where
  layer i := if i = 0 then some ⟨[blackFile], List.nodup_singleton _⟩ else none
  blend name := if name = blackFile.name then old else none

/-- No column can be read. -/
def PassFaults.unreadable : PassFaults := { PassFaults.calm with readFails := fun _ _ => true }

theorem blackLayers_ok {pass : PassFaults} (old : Option (List UInt8)) (h : pass.write = fun _ => none) :
    (povComposeLayers (.withPass pass) (blackLayers old)).1 = none := by
  refine (compose_ok_iff rfl).mpr ⟨starts_withPass pass, fun k f _ hr => ?_⟩
  refine (composeEntry_ok_iff hr).mpr fun _ _ ⟨_, c, _, hw, _⟩ => hw ?_
  exact congrFun h c

/-- Without a composition in its file, the promise to the black image is broken. -/
theorem blackLayers_breaks {w : Faults} {old left : Option (List UInt8)}
    (hret : (povComposeLayers w (blackLayers old)).1 = none)
    (hleft : (povComposeLayers w (blackLayers old)).2 blackFile.name = left)
    (hshort : ∀ bytes, left = some bytes → bytes.length ≠ blendSize) :
    ¬ ComposeLaw w (blackLayers old) := by
  intro hlaw
  have hcomp := hlaw hret _ rfl blackFile List.mem_cons_self blackFile_valid
  rw [hleft] at hcomp
  obtain ⟨bytes, hbytes, -⟩ := hcomp.columns
  rw [hbytes] at hcomp
  exact hshort bytes hbytes hcomp.length

end Directory

end Kinetis.Pov
