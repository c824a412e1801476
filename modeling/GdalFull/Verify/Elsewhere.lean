import GdalFull.Lib.Paths
import GdalFull.Verify.FeatureCount

/-!
# The verifier in another directory

`verify_csv_geoparquet.py` asks `os.path.isdir` and `os.path.isfile` in the directory where it is
started, and calls `ogrinfo` with `cwd=PROJECT_ROOT`. A relative output root on the command line
so has two meanings: the files that are looked for are not the files that are counted.
`elsewhere_iff` says when this cannot be noticed. An output root that is no directory where the
script is started ends it with status 1 before any of that.
-/

namespace GdalFull.Verify

open GdalFull.Convert GdalFull.Lib GdalFull.Merge

/-- The output folders below a place. -/
def foldersAt (ds : Directories) (place : Place) (d : Dataset) : Bool :=
  ds.isDir (place ++ [d.folder])

/-- A file system: the directories, and the feature count of the Parquet file at a path below a
place. -/
structure Disk extends Directories where
  count : Place → Name → Option Nat
  wf : ∀ p (d : Dataset) name, (count p (d.folder ++ '/' :: name)).isSome →
    isDir (p ++ [d.folder]) = true

section Call

variable (s : Summary) (disk : Disk) (tree : InputTree Text) (cwd projectRoot : Place)
variable (outputRoot : Text)

def Disk.outAt (place : Place) : OutTree where
  dirs := foldersAt disk.toDirectories place
  count := disk.count place
  wf := disk.wf place

/-- The files that `ogrinfo` opens. -/
def Disk.opened : OutTree :=
  match disk.resolve projectRoot outputRoot with
  | none => emptyFolders fun _ => false
  | some place => disk.outAt place

/-- The call for a path where a file is seen. -/
def Summary.ogrinfoFrom (seen opened : OutTree) (path : Name) : Option OgrinfoEnd :=
  (seen.count path).map fun _ =>
    match s.ogrinfo opened path with
    | some call => call
    -- What is printed besides does not matter.
    | none => .exited 1 [] (s.stderr path)

/-- The exit status of the script for an input root that is a directory. -/
def Disk.status : Nat :=
  match disk.resolve cwd outputRoot with
  | none => 1
  | some place =>
    exitStatus (s.ogrinfoFrom (disk.outAt place) (disk.opened projectRoot outputRoot))
      (checks tree (disk.outAt place))

/-- The comparison with the files that are seen. -/
def Disk.compared : Nat :=
  match disk.resolve cwd outputRoot with
  | none => 1
  | some place => exitCode tree (disk.outAt place)

end Call

section Accepted

variable {s : Summary} {seen opened : OutTree}

/-- A file that is opened in vain is not accepted. -/
theorem accepted_from_iff {c : Source × Option Text} :
    Accepted (s.ogrinfoFrom seen opened) c ↔
      (∃ n, seen.count (parquetPath c.1) = some n) ∧ Accepted (s.ogrinfo opened) c := by
  unfold Accepted checkPair Summary.ogrinfoFrom
  cases pairRows c with
  | none => simp
  | some rows =>
    cases seen.count (parquetPath c.1) with
    | none => simp
    | some n =>
      cases s.ogrinfo opened (parquetPath c.1) with
      | none => simp [getParquetFeatureCount, bind, Except.bind, pure, Except.pure]
      | some call => simp

/-- Where both meanings are one, a seen file is opened. -/
theorem accepted_from_same (hcounts : Int64Counts seen) {c : Source × Option Text} :
    Accepted (s.ogrinfoFrom seen seen) c ↔ Accepted (s.ogrinfo seen) c := by
  rw [accepted_from_iff, and_iff_right_iff_imp]
  intro hacc
  obtain ⟨_, n, _, hcount, _⟩ := (accepted_iff hcounts).mp hacc
  exact ⟨n, hcount⟩

end Accepted

/-! ## The files of a disk -/

theorem Disk.opened_of_resolve {disk : Disk} {projectRoot place : Place} {outputRoot : Text}
    (h : disk.resolve projectRoot outputRoot = some place) :
    disk.opened projectRoot outputRoot = disk.outAt place := by
  rw [Disk.opened, h]

theorem Disk.int64Counts_opened {disk : Disk} (h : ∀ p, Int64Counts (disk.outAt p))
    (projectRoot : Place) (outputRoot : Text) :
    Int64Counts (disk.opened projectRoot outputRoot) := by
  unfold Disk.opened
  split
  · intro path n hn
    cases hn
  · exact h _

/-- The directories with the files of one output tree and no others. -/
def Disk.lone (ds : Directories) (place : Place) (out : OutTree)
    (h : out.dirs = foldersAt ds place) : Disk where
  toDirectories := ds
  count := fun p path => if p = place then out.count path else none
  wf := by
    intro p d name hsome
    split at hsome
    · rename_i hp
      have hdir := out.wf d name hsome
      rw [h] at hdir
      rw [hp]
      exact hdir
    · cases hsome

theorem Disk.lone_outAt {ds : Directories} {place : Place} {out : OutTree}
    (h : out.dirs = foldersAt ds place) : (Disk.lone ds place out h).outAt place = out := by
  obtain ⟨dirs, count, wf⟩ := out
  cases h
  simp [Disk.lone, Disk.outAt, funext_iff, foldersAt]

theorem Disk.lone_count {ds : Directories} {place p : Place} {out : OutTree}
    (h : out.dirs = foldersAt ds place) (hp : p ≠ place) (path : Name) :
    ((Disk.lone ds place out h).outAt p).count path = none := if_neg hp

theorem Disk.int64Counts_lone {ds : Directories} {place : Place} {out : OutTree}
    (h : out.dirs = foldersAt ds place) (hout : Int64Counts out) (p : Place) :
    Int64Counts ((Disk.lone ds place out h).outAt p) := by
  by_cases hp : p = place
  · rw [hp, Disk.lone_outAt]
    exact hout
  · intro path n hn
    rw [Disk.lone_count h hp] at hn
    cases hn

/-- Nothing is opened below another place. -/
theorem Disk.lone_opened_count {ds : Directories} {place projectRoot : Place} {outputRoot : Text}
    {out : OutTree} (h : out.dirs = foldersAt ds place)
    (hplace : ds.resolve projectRoot outputRoot ≠ some place) (path : Name) :
    ((Disk.lone ds place out h).opened projectRoot outputRoot).count path = none := by
  unfold Disk.opened
  split
  · rfl
  · rename_i p hp
    have hresolve : ds.resolve projectRoot outputRoot = some p := hp
    exact Disk.lone_count h (fun heq => hplace (heq ▸ hresolve)) path

theorem pairsOf_subset {tree : InputTree Text} {dirs : Dataset → Bool} {c : Source × Option Text}
    (h : c ∈ pairsOf tree dirs) : c ∈ pairsOf tree fun _ => true := by
  obtain ⟨d, hd⟩ := mem_checks.mp h
  obtain ⟨folder, htree, -, hc⟩ := mem_checkBlock.mp hd
  exact mem_checks.mpr ⟨d, mem_checkBlock.mpr ⟨folder, htree, rfl, hc⟩⟩

theorem Hopeless.mono {pairs pairs' : List (Source × Option Text)} (hsub : ∀ c ∈ pairs, c ∈ pairs')
    (h : Hopeless pairs) : Hopeless pairs' := by
  rcases h with ⟨c, hc, hnone⟩ | ⟨c, hc, c', hc', hpair⟩
  · exact Or.inl ⟨c, hsub c hc, hnone⟩
  · exact Or.inr ⟨c, hsub c hc, c', hsub c' hc', hpair⟩

/-- **The verifier in another directory.** Take CSV files with fewer than 2^63 rows and names that
hold no number behind a `Feature Count:`, and directories without links. The exit status is that of
the comparison with the feature counts of the files that are seen, whatever the files are, exactly
if the output root is no directory where the script is started, or there is nothing to compare, or
the pairs cannot all pass anyway, or the output root leads to the same directory from
`PROJECT_ROOT`. If its steps up come first, it does so exactly if it is absolute or both directories
are the same after these steps. -/
theorem elsewhere_iff (s : Summary) (tree : InputTree Text) (ds : Directories)
    (cwd projectRoot : Place) (outputRoot : Text)
    (hplain : ∀ c ∈ pairsOf tree fun _ => true, s.Plain (parquetPath c.1))
    (hrows : ∀ c ∈ pairsOf tree fun _ => true, ∀ n, pairRows c = some n → n < 2 ^ 63) :
    ((∀ disk : Disk, disk.toDirectories = ds → (∀ p, Int64Counts (disk.outAt p)) →
        disk.status s tree cwd projectRoot outputRoot = disk.compared tree cwd outputRoot) ↔
      ∀ place, ds.resolve cwd outputRoot = some place →
        pairsOf tree (foldersAt ds place) = [] ∨ Hopeless (pairsOf tree (foldersAt ds place)) ∨
          ds.resolve projectRoot outputRoot = some place) ∧
    (upFirst outputRoot = true → ds.isDir cwd = true → ds.isDir projectRoot = true →
      ∀ place, ds.resolve cwd outputRoot = some place →
        (ds.resolve projectRoot outputRoot = some place ↔ isAbsolute outputRoot = true ∨
          cwd.rdrop (climb outputRoot) = projectRoot.rdrop (climb outputRoot))) := by
  refine ⟨⟨?_, ?_⟩, fun hfirst hcwd hroot place => Directories.resolve_eq_iff hfirst hcwd hroot⟩
  · intro h place hplace
    by_contra hnot
    push Not at hnot
    obtain ⟨hpairs, hhope, hother⟩ := hnot
    -- All files are in order where they are seen, and nothing is where they are opened.
    let right := numbered tree (foldersAt ds place) (rowsAt (pairsOf tree (foldersAt ds place)))
    have hdirs : right.dirs = foldersAt ds place := rfl
    have hright : Int64Counts right :=
      int64Counts_numbered (rowsAt_lt (Nat.two_pow_pos 63) fun c hc => hrows c (pairsOf_subset hc))
    let disk := Disk.lone ds place right hdirs
    have hcounts : ∀ p, Int64Counts (disk.outAt p) := Disk.int64Counts_lone hdirs hright
    have hagree := h disk rfl hcounts
    have hseen : disk.resolve cwd outputRoot = some place := hplace
    rw [Disk.status, Disk.compared, hseen] at hagree
    dsimp only at hagree
    rw [Disk.lone_outAt hdirs, exitStatus_eq_iff] at hagree
    obtain ⟨c, hc⟩ := List.exists_mem_of_ne_nil _ hpairs
    obtain ⟨-, hopen⟩ := accepted_from_iff.mp (hagree.mpr (passes_numbered hhope) c hc)
    obtain ⟨_, n, _, hcount, _⟩ := (accepted_iff (Disk.int64Counts_opened hcounts _ _)).mp hopen
    rw [Disk.lone_opened_count hdirs hother] at hcount
    cases hcount
  · rintro hcase disk rfl hcounts
    unfold Disk.status Disk.compared
    cases hplace : disk.resolve cwd outputRoot with
    | none => rfl
    | some place =>
      rw [exitStatus_eq_iff]
      obtain hnil | hhope | hsame := hcase place hplace
      · have hnil : checks tree (disk.outAt place) = [] := hnil
        rw [hnil]
        simp
      · apply iff_of_false
        · intro hacc
          have hopen := fun c hc => (accepted_from_iff.mp (hacc c hc)).2
          exact not_hopeless_of_accepted (Disk.int64Counts_opened hcounts _ _) hopen hhope
        · intro hpass
          exact not_hopeless_of_passes hpass hhope
      · rw [Disk.opened_of_resolve hsame]
        apply forall₂_congr
        intro c hc
        exact (accepted_from_same (hcounts _)).trans
          (accepted_plain (hcounts _) (hplain c (pairsOf_subset hc)))

/-- `/home` with `work`, `gdal-full`, `out` and `work/out`, and a folder of 土地活用 in both outputs. -/
def besideDirs : Directories where
  isDir := fun p => p ∈ [[], ["home".toList], ["home".toList, "gdal-full".toList],
    ["home".toList, "out".toList], ["home".toList, "out".toList, Dataset.tochi.folder],
    ["home".toList, "work".toList], ["home".toList, "work".toList, "out".toList],
    ["home".toList, "work".toList, "out".toList, Dataset.tochi.folder]]
  up := by simp

/-- From a directory beside `PROJECT_ROOT` the path `../out` means the same, and `out` does not. -/
theorem elsewhere_beside :
    let cwd : Place := ["home".toList, "work".toList]
    let projectRoot : Place := ["home".toList, "gdal-full".toList]
    let tree := oneFile "TH_01103.csv".toList
    (∀ disk : Disk, disk.toDirectories = besideDirs → (∀ p, Int64Counts (disk.outAt p)) →
      disk.status parquetSummary tree cwd projectRoot "../out".toList =
        disk.compared tree cwd "../out".toList) ∧
    ¬ ∀ disk : Disk, disk.toDirectories = besideDirs → (∀ p, Int64Counts (disk.outAt p)) →
      disk.status parquetSummary tree cwd projectRoot "out".toList =
        disk.compared tree cwd "out".toList := by
  intro cwd projectRoot tree
  have hplain : ∀ c ∈ pairsOf tree fun _ => true, parquetSummary.Plain (parquetPath c.1) := by
    decide +kernel
  have hiff := fun outputRoot => (elsewhere_iff parquetSummary tree besideDirs cwd projectRoot
    outputRoot hplain (oneFile_lt _)).1
  constructor
  · rw [hiff]
    intro place hplace
    have hopen : besideDirs.resolve projectRoot "../out".toList =
        besideDirs.resolve cwd "../out".toList := by decide
    exact Or.inr (Or.inr (hopen.trans hplace))
  · rw [hiff]
    intro hall
    have hplace : besideDirs.resolve cwd "out".toList =
        some ["home".toList, "work".toList, "out".toList] := by decide
    have hopen : besideDirs.resolve projectRoot "out".toList = none := by decide
    rcases hall _ hplace with hnil | hhope | hsame
    · exact absurd hnil (by decide)
    · exact not_hopeless_oneFile _ (hhope.mono fun _ => pairsOf_subset)
    · rw [hopen] at hsame
      cases hsame

end GdalFull.Verify
