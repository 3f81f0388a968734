import Mathlib.Data.List.Infix

/-!
# Fatfs — creating the directories of a path

`fatfs_create_dirs` walks along a path and makes each directory on it that is missing.  It looks for
the next `/` and only where there is none for the next `\`, so that a directory that ends with `\`
before a later `/` is passed over.

* `createDirsLoop_eq`: the loop over the characters is a walk over the components, `visit`;
* `visit_spec`: when the walk succeeds, and what it has made then;
* `create_dirs_iff`: all directories are made exactly if those passed over exist and the last level
  leaves room for one character more than its terminator.

Of the volume only the directories and the regular files matter, as lists of components; `f_stat` and
`f_mkdir` take both separators alike.
-/

namespace Kinetis.Fatfs

def FATFS_BUFFER_SIZE : Nat := 64

/-- The results of `f_stat` and `f_mkdir` on a volume that works. -/
inductive FResult where
  | ok
  | noFile
  | noPath
  | exist
  deriving DecidableEq

/-- `fatfs_error_to_linux_error`, for these. -/
def fatfsErrorToLinuxError : FResult → Int
  | .ok => 0
  | .noFile | .noPath => -2
  | .exist => -13

def EINVAL : Int := -22
def ENAMETOOLONG : Int := -36
def ENOTDIR : Int := -20

abbrev Name := List Char

structure Volume where
  dirs  : List (List Name)
  files : List (List Name)

/-! ### Paths for FatFs -/

def isSep (c : Char) : Bool := c = '/' ∨ c = '\\'

/-- A path without its drive, and whether it has one. -/
def dropDrive : List Char → List Char
  | d :: c :: s => if d.isDigit ∧ c = ':' then s else d :: c :: s
  | s => s

/-- The components of a path, with the one that is being read. -/
def split (cur : Name) : List Char → List Name
  | [] => if cur = [] then [] else [cur]
  | c :: s =>
    if isSep c then (if cur = [] then [] else [cur]) ++ split [] s else split (cur ++ [c]) s

def components (path : List Char) : List Name := split [] (dropDrive path)

/-- The directories above `q` exist. -/
def Volume.Above (v : Volume) (q : List Name) : Prop := ∀ d ∈ q.inits, d ≠ [] → d ≠ q → d ∈ v.dirs

instance (v : Volume) (q : List Name) : Decidable (v.Above q) := inferInstanceAs (Decidable (∀ _ ∈ _, _))

/-- `f_stat`, with whether it has found a directory. -/
def Volume.stat (v : Volume) (q : List Name) : FResult × Bool :=
  if ¬ v.Above q then (.noPath, false)
  else if q ∈ v.dirs then (.ok, true)
  else if q ∈ v.files then (.ok, false)
  else (.noFile, false)

/-- `f_mkdir`. -/
def Volume.mkdir (v : Volume) (q : List Name) : FResult × Volume :=
  if ¬ v.Above q then (.noPath, v)
  else if q ∈ v.dirs ∨ q ∈ v.files then (.exist, v)
  else (.ok, { v with dirs := v.dirs ++ [q] })

/-! ### The function -/

/-- One level: it is there, or it is made. -/
def Volume.level (v : Volume) (q : List Name) : Int × Volume :=
  match v.stat q with
  | (.ok, true) => (0, v)
  | (.ok, false) => (ENOTDIR, v)
  | (.noFile, _) => (fatfsErrorToLinuxError (v.mkdir q).1, (v.mkdir q).2)
  | (res, _) => (fatfsErrorToLinuxError res, v)

/-- `strchr`, as what stands before and after. -/
def strchr (c : Char) : List Char → Option (List Char × List Char)
  | [] => none
  | d :: s => if d = c then some ([], s) else (strchr c s).map fun r => (d :: r.1, r.2)

/-- `next_sep`. -/
def nextSep (p : List Char) : Option (List Char × List Char) :=
  match strchr '/' p with
  | some r => some r
  | none => strchr '\\' p

/-- The loop; `before` is the buffer up to `p`, in which every separator has become `/`. -/
def createDirsLoop : (fuel : Nat) → Volume → (before p : List Char) → Int × Volume
  | 0, v, _, _ => (0, v)
  | fuel + 1, v, before, p =>
    if p = [] then (0, v)
    else
      let level := match nextSep p with
        | some r => r.1
        | none => p
      if before.length + level.length + 1 ≥ FATFS_BUFFER_SIZE then (ENAMETOOLONG, v)
      else
        let r := v.level (components (before ++ level))
        if r.1 ≠ 0 then r
        else match nextSep p with
          | some (_, rest) => createDirsLoop fuel r.2 (before ++ level ++ ['/']) rest
          | none => r

/-- The drive and the leading separator, and what follows. -/
def skipPrefix (path : List Char) : List Char × List Char :=
  let p := dropDrive path
  let drive := path.take (path.length - p.length)
  match p with
  | c :: rest => if isSep c then (drive ++ [c], rest) else (drive, p)
  | [] => (drive, [])

/-- `fatfs_create_dirs`. -/
def fatfsCreateDirs (v : Volume) (path : List Char) : Int × Volume :=
  if path = [] then (EINVAL, v)
  else if path.length ≥ FATFS_BUFFER_SIZE then (ENAMETOOLONG, v)
  else createDirsLoop (path.length + 1) v (skipPrefix path).1 (skipPrefix path).2

/-! ### Paths of components -/

/-- A component: no separator, and no colon, which FatFs reserves. -/
def NameOk (n : Name) : Prop := ∀ c ∈ n, isSep c = false ∧ c ≠ ':'

/-- Components with the separators that follow them. -/
def render (parts : List (Name × Char)) : List Char := parts.flatMap fun p => p.1 ++ [p.2]

/-- Nonempty components, each followed by one separator of either kind. -/
def Parts (parts : List (Name × Char)) : Prop :=
  ∀ p ∈ parts, p.1 ≠ [] ∧ NameOk p.1 ∧ isSep p.2 = true

/-- A path: a drive and a leading separator or not, its components, and a last one, which is empty
where a separator ends the path. -/
structure DirPath where
  drive    : Option Char
  lead     : Option Char
  parts    : List (Name × Char)
  last     : Name
  drive_ok : ∀ d ∈ drive, d.isDigit = true
  lead_ok  : ∀ c ∈ lead, isSep c = true
  parts_ok : Parts parts
  last_ok  : NameOk last

def driveText : Option Char → List Char
  | some c => [c, ':']
  | none => []

/-- What the function skips. -/
def DirPath.start (d : DirPath) : List Char := driveText d.drive ++ d.lead.toList

def DirPath.path (d : DirPath) : List Char := d.start ++ (render d.parts ++ d.last)

/-- The components, in order. -/
def namesOf (parts : List (Name × Char)) (last : Name) : List Name :=
  parts.map Prod.fst ++ if last = [] then [] else [last]

def DirPath.names (d : DirPath) : List Name := namesOf d.parts d.last

/-- The directories that the search for the next separator passes over exist. -/
def PassedExist (v : Volume) : (done : List Name) → List (Name × Char) → Prop
  | _, [] => True
  | done, p :: rest =>
    (p.2 ≠ '/' → '/' ∈ rest.map Prod.snd → done ++ [p.1] ∈ v.dirs) ∧
      PassedExist v (done ++ [p.1]) rest

/-! ### Reading paths -/

variable {v : Volume} {parts rest : List (Name × Char)} {n : Name}

theorem render_cons (p : Name × Char) (rest : List (Name × Char)) (s : List Char) :
    render (p :: rest) ++ s = p.1 ++ p.2 :: (render rest ++ s) := by
  simp [render]

theorem render_append (a b : List (Name × Char)) : render (a ++ b) = render a ++ render b :=
  List.flatMap_append

theorem split_name (hn : NameOk n) (cur : Name) (s : List Char) :
    split cur (n ++ s) = split (cur ++ n) s := by
  induction n generalizing cur with
  | nil => rw [List.append_nil, List.nil_append]
  | cons c n ih =>
    have hc : ¬ isSep c = true := by rw [(hn c List.mem_cons_self).1]; decide
    rw [List.cons_append, split, if_neg hc, ih (fun d hd => hn d (List.mem_cons_of_mem _ hd)),
      List.append_assoc]
    rfl

/-- **The components of a path** are the names in it, whatever the separators. -/
theorem split_render (hparts : Parts parts) (hn : NameOk n) (hne : n ≠ []) :
    split [] (render parts ++ n) = parts.map Prod.fst ++ [n] := by
  induction parts with
  | nil =>
    have h := split_name hn [] []
    rw [List.append_nil, List.nil_append, split, if_neg hne] at h
    exact h
  | cons p rest ih =>
    obtain ⟨hp, hrest⟩ := List.forall_mem_cons.mp hparts
    obtain ⟨hpne, hpn, hsep⟩ := hp
    rw [render_cons, split_name hpn, List.nil_append, split, if_pos hsep, if_neg hpne, ih hrest]
    rfl

variable {s : List Char}

theorem dropDrive_of_no_colon (h : ':' ∉ s) : dropDrive s = s := by
  cases s with
  | nil => rfl
  | cons d s =>
    cases s with
    | nil => rfl
    | cons c s =>
      refine if_neg fun hc => h ?_
      rw [hc.2]
      simp

theorem colon_not_mem (hparts : Parts parts) (hn : NameOk n) : ':' ∉ render parts ++ n := by
  have hsep : isSep ':' = false := by decide
  simp only [render, List.mem_append, List.mem_flatMap, List.mem_singleton, not_or, not_exists,
    not_and]
  refine ⟨fun p hp => ⟨fun hc => ((hparts p hp).2.1 _ hc).2 rfl, fun hc => ?_⟩,
    fun hc => (hn _ hc).2 rfl⟩
  have := (hparts p hp).2.2
  rw [← hc] at this
  exact absurd this (by decide)

theorem DirPath.dropDrive_start (d : DirPath) (h : ':' ∉ s) :
    dropDrive (d.start ++ s) = d.lead.toList ++ s := by
  have hcolon : ':' ∉ d.lead.toList ++ s := by
    rw [List.mem_append, not_or]
    refine ⟨fun hc => ?_, h⟩
    have := d.lead_ok _ (Option.mem_toList.mp hc)
    exact absurd this (by decide)
  rw [DirPath.start]
  cases hd : d.drive with
  | none =>
    exact dropDrive_of_no_colon hcolon
  | some c => exact if_pos ⟨d.drive_ok c hd, rfl⟩

/-- The path up to a component, for FatFs. -/
theorem DirPath.components_upTo (d : DirPath) (hparts : Parts parts) (hn : NameOk n)
    (hne : n ≠ []) : components (d.start ++ (render parts ++ n)) = parts.map Prod.fst ++ [n] := by
  rw [components, d.dropDrive_start (colon_not_mem hparts hn), ← split_render hparts hn hne]
  cases hl : d.lead with
  | none => rfl
  | some c =>
    change split [] (c :: _) = _
    rw [split, if_pos (d.lead_ok c hl)]
    rfl

theorem DirPath.skipPrefix_path (d : DirPath) :
    skipPrefix d.path = (d.start, render d.parts ++ d.last) := by
  have hcolon := colon_not_mem d.parts_ok d.last_ok
  have hdrop := d.dropDrive_start hcolon
  have htake (k : List Char) (s : List Char) : (k ++ s).take ((k ++ s).length - s.length) = k := by
    rw [List.length_append, Nat.add_sub_cancel, List.take_left]
  rw [skipPrefix, DirPath.path, hdrop]
  generalize hbody : render d.parts ++ d.last = body
  cases hl : d.lead with
  | some c =>
    have hk : d.start ++ body = driveText d.drive ++ (c :: body) := by
      rw [DirPath.start, hl, List.append_assoc]
      rfl
    change (if isSep c then _ else _) = _
    rw [if_pos (d.lead_ok c hl), hk, DirPath.start, hl]
    exact congrArg (fun k => (k ++ [c], body)) (htake _ (c :: body))
  | none =>
    rw [Option.toList_none, List.nil_append, htake]
    -- a path does not go on with a separator
    cases body with
    | nil => rfl
    | cons c s =>
      refine if_neg (fun hc => ?_)
      have hfirst : ∀ c s, render d.parts ++ d.last = c :: s → isSep c = false := by
        intro c s h
        cases hp : d.parts with
        | nil =>
          rw [hp] at h
          exact (d.last_ok c (by rw [show d.last = c :: s from h]; simp)).1
        | cons p rest =>
          obtain ⟨hpne, hpn, -⟩ := d.parts_ok p (by rw [hp]; simp)
          obtain ⟨c', n, hn⟩ := List.exists_cons_of_ne_nil hpne
          rw [hp, render_cons, hn] at h
          rw [← (List.cons.inj h).1]
          exact (hpn c' (by rw [hn]; simp)).1
      rw [hfirst c s hbody] at hc
      exact absurd hc (by decide)

/-! ### The walk over the components -/

/-- A component is passed over if a `/` comes later. -/
def Passed (p : Name × Char) (rest : List (Name × Char)) : Prop :=
  p.2 ≠ '/' ∧ '/' ∈ rest.map Prod.snd

instance (p : Name × Char) (rest : List (Name × Char)) : Decidable (Passed p rest) :=
  inferInstanceAs (Decidable (_ ∧ _))

/-- One level, if its path of `len` characters is short enough. -/
def Volume.levelAt (v : Volume) (q : List Name) (len : Nat) : Int × Volume :=
  if len + 1 ≥ FATFS_BUFFER_SIZE then (ENAMETOOLONG, v) else v.level q

/-- What the loop does, by components; `len` characters are behind it. -/
def visit (last : Name) : Volume → (done : List Name) → (len : Nat) → List (Name × Char) → Int × Volume
  | v, done, len, [] => if last = [] then (0, v) else v.levelAt (done ++ [last]) (len + last.length)
  | v, done, len, p :: rest =>
    if Passed p rest then visit last v (done ++ [p.1]) (len + p.1.length + 1) rest
    else
      let r := v.levelAt (done ++ [p.1]) (len + p.1.length)
      if r.1 ≠ 0 then r else visit last r.2 (done ++ [p.1]) (len + p.1.length + 1) rest

variable {c : Char}

theorem strchr_none (h : c ∉ s) : strchr c s = none := by
  induction s with
  | nil => rfl
  | cons d s ih =>
    obtain ⟨hd, hs⟩ := not_or.mp (fun hor => h (List.mem_cons.mpr hor))
    rw [strchr, if_neg (Ne.symm hd), ih hs]
    rfl

theorem strchr_some {a : List Char} (h : c ∉ a) (s : List Char) :
    strchr c (a ++ c :: s) = some (a, s) := by
  induction a with
  | nil => exact if_pos rfl
  | cons d a ih =>
    obtain ⟨hd, ha⟩ := not_or.mp (fun hor => h (List.mem_cons.mpr hor))
    rw [List.cons_append, strchr, if_neg (Ne.symm hd), ih ha]
    rfl

theorem NameOk.sep_not_mem (hn : NameOk n) (hc : isSep c = true) : c ∉ n := by
  intro hmem
  rw [(hn c hmem).1] at hc
  exact absurd hc (by decide)

/-- A separator in a rendered path is one of its separators. -/
theorem mem_render_iff (hparts : Parts parts) (hc : isSep c = true) :
    c ∈ render parts ↔ c ∈ parts.map Prod.snd := by
  rw [render, List.mem_flatMap, List.mem_map]
  refine exists_congr fun p => and_congr_right fun hp => ?_
  rw [List.mem_append, List.mem_singleton, or_iff_right ((hparts p hp).2.1.sep_not_mem hc)]
  exact eq_comm

variable {sk : List (Name × Char)}

/-- **The next level**: it ends at the next component that is not passed over. -/
theorem nextSep_eq {p : Name × Char} {last : Name} (hsk : Parts sk) (hp : Parts (p :: rest))
    (hlast : NameOk last) (hslash : '/' ∉ sk.map Prod.snd)
    (hskip : sk ≠ [] → '/' ∈ (p :: rest).map Prod.snd) (hpass : ¬ Passed p rest) :
    nextSep (render sk ++ (render (p :: rest) ++ last)) =
      some (render sk ++ p.1, render rest ++ last) := by
  obtain ⟨⟨-, hpn, hsep⟩, hrest⟩ := List.forall_mem_cons.mp hp
  have hnot : '/' ∉ render sk ++ p.1 := by
    rw [List.mem_append, mem_render_iff hsk (by decide), not_or]
    exact ⟨hslash, hpn.sep_not_mem (by decide)⟩
  rw [nextSep, render_cons, ← List.append_assoc]
  by_cases hp2 : p.2 = '/'
  · rw [hp2, strchr_some hnot]
  · -- no `/` is left, so that nothing was passed over
    have hnone : '/' ∉ rest.map Prod.snd := fun hmem => hpass ⟨hp2, hmem⟩
    have hnil : sk = [] := by
      by_contra hne
      rcases List.mem_cons.mp (hskip hne) with heq | hmem
      · exact hp2 heq.symm
      · exact hnone hmem
    subst hnil
    have hback : p.2 = '\\' := by
      rw [isSep, decide_eq_true_iff] at hsep
      exact hsep.resolve_left hp2
    have hgone : strchr '/' (render [] ++ p.1 ++ p.2 :: (render rest ++ last)) = none := by
      refine strchr_none ?_
      simp only [List.mem_append, List.mem_cons, not_or, mem_render_iff hrest (show isSep '/' = true by
        decide)]
      exact ⟨⟨by simp [render], hpn.sep_not_mem (by decide)⟩, fun heq => hp2 heq.symm, hnone,
        hlast.sep_not_mem (by decide)⟩
    rw [hgone, hback]
    exact strchr_some (hpn.sep_not_mem (by decide)) _

/-- **The loop is the walk.** -/
theorem DirPath.createDirsLoop_eq (d : DirPath) {last : Name} (hlast : NameOk last)
    (hparts : Parts parts) {before : List (Name × Char)} (hbefore : Parts before) (hsk : Parts sk)
    (hslash : '/' ∉ sk.map Prod.snd) (hskip : sk ≠ [] → '/' ∈ parts.map Prod.snd) {fuel : Nat}
    (hfuel : (render sk ++ (render parts ++ last)).length < fuel) (v : Volume) :
    createDirsLoop fuel v (d.start ++ render before) (render sk ++ (render parts ++ last)) =
      visit last v (before.map Prod.fst ++ sk.map Prod.fst)
        ((d.start ++ render before).length + (render sk).length) parts := by
  induction parts generalizing before sk fuel v with
  | nil =>
    have hnil : sk = [] := by
      by_contra hne
      exact absurd (hskip hne) List.not_mem_nil
    subst hnil
    obtain ⟨fuel, rfl⟩ : ∃ k, fuel = k + 1 := ⟨fuel - 1, by omega⟩
    have hnext : nextSep last = none := by
      rw [nextSep, strchr_none (hlast.sep_not_mem (by decide))]
      exact strchr_none (hlast.sep_not_mem (by decide))
    rw [visit]
    change (if last = [] then _ else _) = _
    split
    · rfl
    · rename_i hne
      rw [show render [] ++ (render [] ++ last) = last from rfl, hnext]
      dsimp only
      rw [List.append_assoc, d.components_upTo hbefore hlast hne, Volume.levelAt]
      simp only [List.map_nil, List.append_nil, render, List.flatMap_nil, List.length_nil,
        Nat.add_zero, ite_self]
  | cons p rest ih =>
    obtain ⟨hp, hrest⟩ := List.forall_mem_cons.mp hparts
    by_cases hpass : Passed p rest
    · have hsk' : Parts (sk ++ [p]) :=
        List.forall_mem_append.mpr ⟨hsk, fun q hq => List.mem_singleton.mp hq ▸ hp⟩
      have hslash' : '/' ∉ (sk ++ [p]).map Prod.snd := by
        simp only [List.map_append, List.map_cons, List.map_nil, List.mem_append,
          List.mem_singleton, not_or]
        exact ⟨hslash, fun heq => hpass.1 heq.symm⟩
      have hstring : render (sk ++ [p]) ++ (render rest ++ last) =
          render sk ++ (render (p :: rest) ++ last) := by
        simp [render]
      have hgo := ih hrest hbefore hsk' hslash' (fun _ => hpass.2) (hstring ▸ hfuel) v
      have hlen : (render (sk ++ [p])).length = (render sk).length + p.1.length + 1 := by
        simp [render, Nat.add_assoc]
      rw [hstring, hlen, List.map_append] at hgo
      rw [visit, if_pos hpass]
      refine hgo.trans ?_
      simp only [List.append_assoc, List.map_cons, List.map_nil, Nat.add_assoc]
    · obtain ⟨fuel, rfl⟩ : ∃ k, fuel = k + 1 := ⟨fuel - 1, by omega⟩
      have hnext := nextSep_eq hsk hparts hlast hslash hskip hpass
      have hne : ¬ render sk ++ (render (p :: rest) ++ last) = [] := by
        rw [render_cons]
        simp
      have hcomp : components (d.start ++ render before ++ (render sk ++ p.1)) =
          before.map Prod.fst ++ sk.map Prod.fst ++ [p.1] := by
        have h := d.components_upTo (List.forall_mem_append.mpr ⟨hbefore, hsk⟩) hp.2.1 hp.1
        rw [render_append, List.map_append] at h
        rw [← h]
        simp
      rw [visit, createDirsLoop, if_neg hne, hnext]
      dsimp only
      have hlen : (d.start ++ render before).length + (render sk ++ p.1).length =
          (d.start ++ render before).length + (render sk).length + p.1.length := by
        simp [Nat.add_assoc]
      rw [hcomp, Volume.levelAt, hlen]
      split
      · exact (if_pos (show ENAMETOOLONG ≠ 0 by decide)).symm
      · -- the separator is `/` from now on
        have hbefore' : Parts (before ++ sk ++ [(p.1, '/')]) :=
          List.forall_mem_append.mpr ⟨List.forall_mem_append.mpr ⟨hbefore, hsk⟩,
            fun q hq => List.mem_singleton.mp hq ▸ ⟨hp.1, hp.2.1, show isSep '/' = true by decide⟩⟩
        have hfuel' : (render [] ++ (render rest ++ last)).length < fuel := by
          rw [render_cons] at hfuel
          simp only [List.length_append, List.length_cons] at hfuel ⊢
          have : (render []).length = 0 := rfl
          omega
        split
        · rfl
        · have hgo := ih hrest hbefore' (show Parts [] by simp [Parts]) List.not_mem_nil
            (fun h => absurd rfl h) hfuel' (v.level (before.map Prod.fst ++ sk.map Prod.fst ++ [p.1])).2
          have hstring : d.start ++ render (before ++ sk ++ [(p.1, '/')]) =
              d.start ++ render before ++ (render sk ++ p.1) ++ ['/'] := by
            simp [render]
          rw [hstring] at hgo
          refine hgo.trans ?_
          simp [render, Nat.add_assoc]

/-! ### What the walk makes -/

/-- A directory and all above it. -/
def Volume.Has (v : Volume) (done : List Name) : Prop := ∀ d, d <+: done → d ≠ [] → d ∈ v.dirs

theorem above_iff (v : Volume) (done : List Name) (n : Name) :
    v.Above (done ++ [n]) ↔ v.Has done := by
  simp only [Volume.Above, Volume.Has, List.mem_inits]
  constructor
  · intro h d hd hne
    refine h d (hd.trans (List.prefix_append _ _)) hne ?_
    rintro rfl
    have := hd.length_le
    rw [List.length_append, List.length_singleton] at this
    omega
  · intro h d hd hne hq
    exact h d ((List.prefix_concat_iff.mp hd).resolve_left hq) hne

variable {done : List Name} {last : Name} {len : Nat}

theorem level_ok (habove : v.Has done) (hfile : done ++ [n] ∉ v.files) :
    (v.level (done ++ [n])).1 = 0 ∧ (v.level (done ++ [n])).2.files = v.files ∧
      ∀ d, d ∈ (v.level (done ++ [n])).2.dirs ↔ d ∈ v.dirs ∨ d = done ++ [n] := by
  have hab := (above_iff v done n).mpr habove
  by_cases hdir : done ++ [n] ∈ v.dirs
  · have hlevel : v.level (done ++ [n]) = (0, v) := by
      simp [Volume.level, Volume.stat, hab, hdir]
    rw [hlevel]
    refine ⟨rfl, rfl, fun d => (or_iff_left_of_imp ?_).symm⟩
    rintro rfl
    exact hdir
  · have hlevel : v.level (done ++ [n]) = (0, { v with dirs := v.dirs ++ [done ++ [n]] }) := by
      simp [Volume.level, Volume.stat, Volume.mkdir, hab, hdir, hfile, fatfsErrorToLinuxError]
    rw [hlevel]
    exact ⟨rfl, rfl, fun d => by simp⟩

/-- A level whose path is missing fails. -/
theorem levelAt_missing (h : ¬ v.Has done) (n : Name) (len : Nat) :
    (v.levelAt (done ++ [n]) len).1 ≠ 0 := by
  have hab : ¬ v.Above (done ++ [n]) := fun hc => h ((above_iff v done n).mp hc)
  rw [Volume.levelAt]
  split
  · exact (by decide : ENAMETOOLONG ≠ 0)
  · have hlevel : (v.level (done ++ [n])).1 = -2 := by
      simp [Volume.level, Volume.stat, hab, fatfsErrorToLinuxError]
    rw [hlevel]
    decide

/-- **A directory that was passed over and is missing** ends the walk at the next level. -/
theorem visit_missing (h : ¬ v.Has done) (hmore : parts ≠ [] ∨ last ≠ []) :
    (visit last v done len parts).1 ≠ 0 := by
  induction parts generalizing done len with
  | nil =>
    rw [visit, if_neg (hmore.resolve_left fun hne => hne rfl)]
    exact levelAt_missing h _ _
  | cons p rest ih =>
    rw [visit]
    split
    · rename_i hpass
      refine ih (fun hc => h fun d hd => hc d (hd.trans (List.prefix_append _ _))) (.inl ?_)
      rintro rfl
      exact absurd hpass.2 List.not_mem_nil
    · have hfail := levelAt_missing h p.1 (len + p.1.length)
      rw [if_pos hfail]
      exact hfail

/-- Directories further up do not matter for those still to be passed. -/
theorem passedExist_congr {v' : Volume}
    (h : ∀ d, done.length < d.length → (d ∈ v'.dirs ↔ d ∈ v.dirs)) :
    PassedExist v' done parts ↔ PassedExist v done parts := by
  induction parts generalizing done with
  | nil => exact Iff.rfl
  | cons p rest ih =>
    rw [PassedExist, h _ (by simp)]
    refine and_congr_right fun _ => ih fun d hd => h d ?_
    rw [List.length_append] at hd
    omega

/-- **The walk.**  It succeeds exactly if what it passes over exists and the last level is short
enough, and has then made what was missing, nothing else. -/
theorem visit_spec (hdone : v.Has done) (hfiles : ∀ q, q <+: done ++ namesOf parts last → q ∉ v.files)
    (hlen : len + (render parts).length + last.length < FATFS_BUFFER_SIZE) :
    ((visit last v done len parts).1 = 0 ↔ PassedExist v done parts ∧
        (last = [] ∨ len + (render parts).length + last.length + 1 < FATFS_BUFFER_SIZE)) ∧
      ((visit last v done len parts).1 = 0 → ∀ d, d ∈ (visit last v done len parts).2.dirs ↔
        d ∈ v.dirs ∨ d ≠ [] ∧ d <+: done ++ namesOf parts last) := by
  induction parts generalizing v done len with
  | nil =>
    have habsorb (d : List Name) (hd : d ≠ [] ∧ d <+: done) : d ∈ v.dirs := hdone d hd.2 hd.1
    rw [visit]
    by_cases hl : last = []
    · rw [if_pos hl, namesOf, if_pos hl, List.map_nil, List.append_nil, List.append_nil]
      exact ⟨iff_of_true rfl ⟨trivial, .inl hl⟩, fun _ d => (or_iff_left_of_imp (habsorb d)).symm⟩
    · rw [namesOf, if_neg hl] at hfiles ⊢
      have hrender : (render []).length = 0 := rfl
      rw [Volume.levelAt]
      split
      · rename_i hlong
        have hcode : ENAMETOOLONG ≠ 0 := by decide
        exact ⟨iff_of_false hcode (fun h => absurd (h.2.resolve_left hl) (by omega)),
          fun h0 => absurd h0 hcode⟩
      · rename_i hshort
        obtain ⟨hok, -, hdirs⟩ := level_ok (n := last) hdone (hfiles _ List.prefix_rfl)
        refine ⟨iff_of_true hok ⟨trivial, .inr (by omega)⟩, fun _ d => ?_⟩
        rw [hdirs d]
        constructor
        · rintro (hd | rfl)
          · exact .inl hd
          · exact .inr ⟨by simp, List.prefix_rfl⟩
        · rintro (hd | ⟨hne, hd⟩)
          · exact .inl hd
          · exact (List.prefix_concat_iff.mp hd).symm.imp_left fun h => hdone d h hne
  | cons p rest ih =>
    have hnames : done ++ namesOf (p :: rest) last = done ++ [p.1] ++ namesOf rest last := by
      simp [namesOf]
    have hq : done ++ [p.1] <+: done ++ [p.1] ++ namesOf rest last := List.prefix_append _ _
    have htotal : len + (render (p :: rest)).length =
        len + p.1.length + 1 + (render rest).length := by
      simp only [render, List.flatMap_cons, List.length_append, List.length_singleton]
      omega
    rw [hnames] at hfiles ⊢
    rw [htotal] at hlen ⊢
    rw [visit, PassedExist]
    by_cases hpass : Passed p rest
    · rw [if_pos hpass]
      by_cases hdir : done ++ [p.1] ∈ v.dirs
      · have hhas : v.Has (done ++ [p.1]) := by
          intro d hd hne
          rcases List.prefix_concat_iff.mp hd with rfl | hd
          · exact hdir
          · exact hdone d hd hne
        obtain ⟨hiff, hdirs⟩ := ih hhas hfiles hlen
        rw [and_iff_right (fun _ _ => hdir)]
        exact ⟨hiff, hdirs⟩
      · have hfail : (visit last v (done ++ [p.1]) (len + p.1.length + 1) rest).1 ≠ 0 := by
          refine visit_missing (fun hc => hdir (hc _ List.prefix_rfl (by simp))) (.inl ?_)
          rintro rfl
          exact absurd hpass.2 List.not_mem_nil
        exact ⟨iff_of_false hfail (fun h => hdir (h.1.1 hpass.1 hpass.2)), fun h => absurd h hfail⟩
    · -- a level of its own: it is there afterwards
      obtain ⟨hok, hfiles', hdirs'⟩ := level_ok (n := p.1) hdone (hfiles _ hq)
      have hlevel : v.levelAt (done ++ [p.1]) (len + p.1.length) = v.level (done ++ [p.1]) :=
        if_neg (by omega)
      rw [if_neg hpass, hlevel, if_neg (fun hne => hne hok)]
      have hhas : (v.level (done ++ [p.1])).2.Has (done ++ [p.1]) := by
        intro d hd hne
        rw [hdirs']
        exact (List.prefix_concat_iff.mp hd).symm.imp_left fun h => hdone d h hne
      obtain ⟨hiff, hdirs⟩ := ih hhas (by rw [hfiles']; exact hfiles) hlen
      have hpassed : PassedExist (v.level (done ++ [p.1])).2 (done ++ [p.1]) rest ↔
          PassedExist v (done ++ [p.1]) rest := by
        refine passedExist_congr fun d hd => (hdirs' d).trans (or_iff_left ?_)
        rintro rfl
        exact Nat.lt_irrefl _ hd
      rw [and_iff_right (fun h1 h2 => absurd ⟨h1, h2⟩ hpass), ← hpassed]
      refine ⟨hiff, fun h0 d => (hdirs h0 d).trans ?_⟩
      rw [hdirs' d, or_assoc]
      refine or_congr_right (or_iff_right_of_imp ?_)
      rintro rfl
      exact ⟨by simp, hq⟩

/-- **Creating the directories of a path.**  On a volume where no directory of the path is a regular
file, the function returns 0 and leaves every directory of the path and no other new one exactly if
those before a `\` with a later `/` exist already, and the path ends with a separator or is shorter
than the buffer by two. -/
theorem create_dirs_iff (v : Volume) (d : DirPath) (hne : d.path ≠ [])
    (hlen : d.path.length < FATFS_BUFFER_SIZE) (hfiles : ∀ q, q <+: d.names → q ∉ v.files) :
    ((fatfsCreateDirs v d.path).1 = 0 ∧
      ∀ q, q ∈ (fatfsCreateDirs v d.path).2.dirs ↔ q ∈ v.dirs ∨ q ≠ [] ∧ q <+: d.names) ↔
    PassedExist v [] d.parts ∧ (d.last = [] ∨ d.path.length + 1 < FATFS_BUFFER_SIZE) := by
  have hloop : fatfsCreateDirs v d.path = visit d.last v [] d.start.length d.parts := by
    have hempty : Parts [] := fun _ hmem => absurd hmem List.not_mem_nil
    have hgo := d.createDirsLoop_eq d.last_ok d.parts_ok hempty hempty List.not_mem_nil
      (fun h => absurd rfl h) (show (render [] ++ (render d.parts ++ d.last)).length <
        d.path.length + 1 by
          rw [DirPath.path, @List.length_append _ d.start]
          exact Nat.lt_succ_of_le (Nat.le_add_left _ _)) v
    rw [show d.start ++ render [] = d.start from List.append_nil _] at hgo
    rw [fatfsCreateDirs, if_neg hne, if_neg (by omega), d.skipPrefix_path]
    exact hgo
  have htotal : d.path.length = d.start.length + (render d.parts).length + d.last.length := by
    rw [DirPath.path, List.length_append, List.length_append, Nat.add_assoc]
  have hroot : v.Has [] := fun q hq hq' => absurd (List.prefix_nil.mp hq) hq'
  rw [htotal] at hlen ⊢
  obtain ⟨hiff, hdirs⟩ := visit_spec hroot hfiles hlen
  rw [hloop, ← hiff]
  exact ⟨fun h => h.1, fun h => ⟨h, hdirs h⟩⟩

/-- `0:/a\b`. -/
def backPath : DirPath where
  drive := some '0'
  lead := some '/'
  parts := [(['a'], '\\')]
  last := ['b']
  drive_ok := by
    rintro _ ⟨⟩
    rfl
  lead_ok := by
    rintro _ ⟨⟩
    rfl
  parts_ok := by
    intro p hp
    rw [List.mem_singleton.mp hp]
    exact ⟨by decide, fun c hc => List.mem_singleton.mp hc ▸ by decide, by decide⟩
  last_ok := fun c hc => List.mem_singleton.mp hc ▸ by decide

/-- `0:/a\b` on an empty volume. -/
theorem create_dirs_back :
    (fatfsCreateDirs ⟨[], []⟩ backPath.path).1 = 0 :=
  ((create_dirs_iff ⟨[], []⟩ backPath (by decide) (by decide) (fun _ _ => List.not_mem_nil)).mpr
    ⟨⟨fun _ h => absurd h List.not_mem_nil, trivial⟩, .inr (by decide)⟩).1

/-- **Two failures**: on an empty volume `a\b/c`, whose `a` is passed over, and a name of 63
characters. -/
theorem create_dirs_fails :
    (fatfsCreateDirs ⟨[], []⟩ ['a', '\\', 'b', '/', 'c']).1 = -2 ∧
      (fatfsCreateDirs ⟨[], []⟩ (List.replicate 63 'a')).1 = ENAMETOOLONG := by
  decide

end Kinetis.Fatfs
