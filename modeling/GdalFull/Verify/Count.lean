import GdalFull.Convert.Tree
import GdalFull.Lib.PyStr

/-!
# The count verifier

`verify_csv_geoparquet.py` lists the CSV files of the input tree a second time, now with
`os.listdir`, `name.lower().endswith(".csv")` and `name[:-4]`, and compares the rows of each
with the feature count of its Parquet file.

`checks` is that list. A CSV file of the converter is compared at the converter's path when
the output folder is there and no newline stands before `.csv` (`Compared`); a check that
stems from no such file is `Extra`. `verify_iff` says when the exit status is right: some
compared file already fails, or the files that are not compared are in order exactly when the
extra checks pass.
-/

namespace GdalFull.Verify

open GdalFull.Convert GdalFull.Lib

/-- The output tree: which of the four folders are there, and the feature count of the Parquet
file at a path. -/
structure OutTree where
  dirs : Dataset → Bool
  count : Name → Option Nat
  wf : ∀ d name, (count (d.folder ++ '/' :: name)).isSome → dirs d = true

/-- `count_csv_rows` of a text that could be decoded. -/
def countCsvRows (text : Text) (hasHeader : Bool) : Nat :=
  let n := ((readlines text).filter fun line => !(strip line).isEmpty).length
  if hasHeader && 0 < n then n - 1 else n

def hasHeader : Dataset → Bool
  | .tochi => false
  | _ => true

/-- `name.lower().endswith(".csv")`: only `C`, `S` and `V` have these as lower case. -/
def lowerCsv (name : Name) : Bool :=
  csvSuffix.isSuffixOf (name.map Char.toLower)

/-- The base name in the verifier: `name[:-4]`, or `f"{subname}_配置テキスト"`. -/
def pyBase : Source → Name
  | .root _ name => name.take (name.length - 4)
  | .sub name => name ++ haichiSuffix

def parquetPath (s : Source) : Name :=
  s.dataset.folder ++ '/' :: (pyBase s ++ ".parquet".toList)

/-- The loop over `os.listdir(in_dir)` of the first three folders. A directory cannot be opened
as a CSV file. -/
def listed (d : Dataset) (folder : Folder Text) : List (Source × Option Text) :=
  folder.entries.filterMap fun
    | (name, .file text) => if lowerCsv name then some (.root d name, some text) else none
    | (name, .dir _) => if lowerCsv name then some (.root d name, none) else none

/-- The first loop of 公図. -/
def listedSub (folder : Folder Text) : List (Source × Option Text) :=
  folder.entries.filterMap fun
    | (name, .dir (some text)) => some (.sub name, some text)
    | _ => none

/-- The second loop of 公図, with `os.path.isfile`. -/
def listedRoot (folder : Folder Text) : List (Source × Option Text) :=
  folder.entries.filterMap fun
    | (name, .file text) => if lowerCsv name then some (.root .kozu name, some text) else none
    | (_, .dir _) => none

def checkBlock (tree : InputTree Text) (out : OutTree) (d : Dataset) :
    List (Source × Option Text) :=
  match tree d with
  | none => []
  | some folder =>
    if out.dirs d then
      match d with
      | .kozu => listedSub folder ++ listedRoot folder
      | _ => listed d folder
    else []

/-- `pairs`. -/
def checks (tree : InputTree Text) (out : OutTree) : List (Source × Option Text) :=
  [Dataset.gaiku, .toshi, .tochi, .kozu].flatMap (checkBlock tree out)

/-- `[OK]` for one pair. -/
def passes (out : OutTree) (c : Source × Option Text) : Bool :=
  match c.2 with
  | none => false
  | some text => out.count (parquetPath c.1) == some (countCsvRows text (hasHeader c.1.dataset))

/-- The counters `ok` and `ng` after the loop over the pairs. -/
def verifyLoop (out : OutTree) (pairs : List (Source × Option Text)) : Nat × Nat :=
  pairs.foldl (fun n c => if passes out c then (n.1 + 1, n.2) else (n.1, n.2 + 1)) (0, 0)

def exitCode (tree : InputTree Text) (out : OutTree) : Nat :=
  if (verifyLoop out (checks tree out)).2 = 0 then 0 else 1

/-- A CSV file of the converter has its Parquet file, with as many features as rows. -/
def Met (out : OutTree) (x : Source × Text) : Prop :=
  out.count (x.1.outPath .csvToGeoparquet) = some (countCsvRows x.2 (hasHeader x.1.dataset))

/-! ## The loop -/

theorem verifyLoop_eq (out : OutTree) (pairs : List (Source × Option Text)) :
    verifyLoop out pairs = (pairs.countP (passes out), pairs.countP fun c => !passes out c) := by
  suffices h : ∀ ok ng, pairs.foldl
      (fun n c => if passes out c then (n.1 + 1, n.2) else (n.1, n.2 + 1)) (ok, ng) =
      (ok + pairs.countP (passes out), ng + pairs.countP fun c => !passes out c) by
    simpa [verifyLoop] using h 0 0
  induction pairs with
  | nil => simp
  | cons c pairs ih =>
    intro ok ng
    rw [List.foldl_cons, List.countP_cons, List.countP_cons]
    cases hc : passes out c
    · rw [if_neg (by simp), ih]
      simp only [Bool.not_false, if_true, Prod.mk.injEq]
      constructor
      · simp
      · omega
    · rw [if_pos rfl, ih]
      simp only [if_true, Prod.mk.injEq]
      constructor
      · omega
      · simp

theorem exitCode_eq_zero_iff (tree : InputTree Text) (out : OutTree) :
    exitCode tree out = 0 ↔ ∀ c ∈ checks tree out, passes out c = true := by
  rw [exitCode, verifyLoop_eq]
  constructor
  · intro h
    by_contra hfail
    push Not at hfail
    obtain ⟨c, hmem, hc⟩ := hfail
    have hpos : 0 < (checks tree out).countP fun c => !passes out c :=
      List.countP_pos_iff.mpr ⟨c, hmem, by simpa using hc⟩
    rw [if_neg (by omega)] at h
    cases h
  · intro h
    rw [if_pos]
    exact List.countP_eq_zero.mpr fun c hmem => by simp [h c hmem]

/-! ## The two lists -/

/-- The glob of the converter finds the name. -/
def globbed : Source → Bool
  | .root _ name => globCsv name
  | .sub name => globDir name

/-- The base name ends with a newline, which a command substitution drops. -/
def newlineEnd : Source → Bool
  | .root _ name => (name.take (name.length - 4)).getLast? == some '\n'
  | .sub name => name.getLast? == some '\n'

/-- A CSV file of the converter that the verifier compares at the converter's path. -/
def Compared (out : OutTree) (s : Source) : Prop :=
  out.dirs s.dataset = true ∧ newlineEnd s = false

/-- A check of what the converter does not convert to that path: a directory, a name that its
globs do not match, or a base name with a newline at its end. -/
def Extra (c : Source × Option Text) : Prop :=
  c.2 = none ∨ globbed c.1 = false ∨ newlineEnd c.1 = true

theorem cmdSubst_eq_self {name : Name} (h : (name.getLast? == some '\n') = false) :
    cmdSubst name = name := by
  rw [cmdSubst, List.rdropWhile_eq_self_iff]
  intro hne hlast
  rw [List.getLast?_eq_some_getLast hne] at h
  simp [of_decide_eq_true hlast] at h

theorem outPath_eq_parquetPath {s : Source} (hglob : globbed s = true)
    (hnl : newlineEnd s = false) : s.outPath .csvToGeoparquet = parquetPath s := by
  have hbase : s.base = pyBase s := by
    cases s with
    | root d name =>
      have hsuffix : csvSuffix.isSuffixOf name = true := (Bool.and_eq_true_iff.mp hglob).2
      have hne : name ≠ csvSuffix := by
        intro h
        have hdot : globCsv csvSuffix = false := rfl
        rw [globbed, h, hdot] at hglob
        cases hglob
      have hb : basename name csvSuffix = name.take (name.length - 4) := by
        rw [basename, if_pos (by simp [hsuffix, hne])]
        rfl
      rw [Source.base, hb]
      exact cmdSubst_eq_self hnl
    | sub name =>
      rw [Source.base, cmdSubst_eq_self hnl]
      rfl
  rw [Source.outPath, hbase]
  rfl

theorem lowerCsv_of_globCsv {name : Name} (h : globCsv name = true) : lowerCsv name = true := by
  have hsuffix : csvSuffix <:+ name :=
    List.isSuffixOf_iff_suffix.mp (Bool.and_eq_true_iff.mp h).2
  rw [lowerCsv, List.isSuffixOf_iff_suffix]
  exact hsuffix.map Char.toLower

theorem mem_checks {tree : InputTree Text} {out : OutTree} {c : Source × Option Text} :
    c ∈ checks tree out ↔ ∃ d, c ∈ checkBlock tree out d :=
  mem_blocks

theorem mem_checkBlock {tree : InputTree Text} {out : OutTree} {d : Dataset}
    {c : Source × Option Text} :
    c ∈ checkBlock tree out d ↔ ∃ folder, tree d = some folder ∧ out.dirs d = true ∧
      (d = .kozu ∧ (c ∈ listedSub folder ∨ c ∈ listedRoot folder) ∨
        d ≠ .kozu ∧ c ∈ listed d folder) := by
  unfold checkBlock
  cases tree d with
  | none => simp
  | some folder =>
    cases hdir : out.dirs d
    · simp
    · cases d <;> simp

/-- What the converter converts is checked when the output folder is there. -/
theorem mem_checks_of_mem_sources {tree : InputTree Text} {out : OutTree} {x : Source × Text}
    (hx : x ∈ sources tree) (hdir : out.dirs x.1.dataset = true) :
    (x.1, some x.2) ∈ checks tree out := by
  obtain ⟨d, hblock⟩ := mem_sources.mp hx
  obtain ⟨folder, htree, hlist⟩ := mem_blockSources.mp hblock
  obtain ⟨s, text⟩ := x
  refine mem_checks.mpr ⟨d, mem_checkBlock.mpr ⟨folder, htree, ?_⟩⟩
  rcases hlist with hlist | ⟨rfl, hlist⟩
  · obtain ⟨name, hmem, hglob, rfl⟩ := mem_rootSources.mp hlist
    have hlower := lowerCsv_of_globCsv hglob
    refine ⟨hdir, ?_⟩
    by_cases hd : d = .kozu
    · subst hd
      exact Or.inl ⟨rfl, Or.inr (List.mem_filterMap.mpr ⟨_, hmem, if_pos hlower⟩)⟩
    · exact Or.inr ⟨hd, List.mem_filterMap.mpr ⟨_, hmem, if_pos hlower⟩⟩
  · obtain ⟨name, hmem, _, rfl⟩ := mem_subSources.mp hlist
    exact ⟨hdir, Or.inl ⟨rfl, Or.inl (List.mem_filterMap.mpr ⟨_, hmem, rfl⟩)⟩⟩

/-- A check is of a folder that is there on both sides, and what the globs find among the files
is converted. -/
theorem mem_sources_of_mem_checks {tree : InputTree Text} {out : OutTree} {s : Source}
    {text : Option Text} (hc : (s, text) ∈ checks tree out) :
    out.dirs s.dataset = true ∧
      ∀ t, text = some t → globbed s = true → (s, t) ∈ sources tree := by
  obtain ⟨d, hc⟩ := mem_checks.mp hc
  obtain ⟨folder, htree, hdir, hc⟩ := mem_checkBlock.mp hc
  have hfile : ∀ name t, (name, Entry.file t) ∈ folder.entries →
      (Source.root d name, some t) = (s, text) → out.dirs s.dataset = true ∧
        ∀ t, text = some t → globbed s = true → (s, t) ∈ sources tree := by
    intro name t hmem heq
    cases heq
    refine ⟨hdir, ?_⟩
    intro t' ht hglob
    cases ht
    exact mem_sources.mpr ⟨d, mem_blockSources.mpr
      ⟨folder, htree, Or.inl (mem_rootSources.mpr ⟨name, hmem, hglob, rfl⟩)⟩⟩
  rcases hc with ⟨rfl, hc | hc⟩ | ⟨_, hc⟩
  · obtain ⟨⟨name, _ | _ | t⟩, hmem, hx⟩ := List.mem_filterMap.mp hc
    · cases hx
    · cases hx
    · cases hx
      refine ⟨hdir, ?_⟩
      intro t' ht hglob
      cases ht
      exact mem_sources.mpr ⟨.kozu, mem_blockSources.mpr
        ⟨folder, htree, Or.inr ⟨rfl, mem_subSources.mpr ⟨name, hmem, hglob, rfl⟩⟩⟩⟩
  · obtain ⟨⟨name, t | _⟩, hmem, hx⟩ := List.mem_filterMap.mp hc
    · exact hfile name t hmem (Option.some.inj (Option.ite_none_right_eq_some.mp hx).2)
    · cases hx
  · obtain ⟨⟨name, t | _⟩, hmem, hx⟩ := List.mem_filterMap.mp hc
    · exact hfile name t hmem (Option.some.inj (Option.ite_none_right_eq_some.mp hx).2)
    · cases (Option.ite_none_right_eq_some.mp hx).2
      refine ⟨hdir, ?_⟩
      intro t ht
      cases ht

/-! ## The exit status -/

theorem passes_iff_met {out : OutTree} {s : Source} {text : Text} (hglob : globbed s = true)
    (hnl : newlineEnd s = false) : passes out (s, some text) = true ↔ Met out (s, text) := by
  unfold passes Met
  dsimp only
  rw [outPath_eq_parquetPath hglob hnl, beq_iff_eq]

theorem globbed_of_mem_sources {tree : InputTree Text} {x : Source × Text} (hx : x ∈ sources tree) :
    globbed x.1 = true := by
  obtain ⟨d, hblock⟩ := mem_sources.mp hx
  obtain ⟨folder, _, hlist | ⟨_, hlist⟩⟩ := mem_blockSources.mp hblock
  · obtain ⟨name, _, hglob, hs⟩ := mem_rootSources.mp hlist
    rw [hs]
    exact hglob
  · obtain ⟨name, _, hglob, hs⟩ := mem_subSources.mp hlist
    rw [hs]
    exact hglob

/-- The exit status is 0 when the compared files are in order and the extra checks pass. -/
theorem exitCode_split (tree : InputTree Text) (out : OutTree) :
    exitCode tree out = 0 ↔
      (∀ x ∈ sources tree, Compared out x.1 → Met out x) ∧
      ∀ c ∈ checks tree out, Extra c → passes out c = true := by
  rw [exitCode_eq_zero_iff]
  constructor
  · intro h
    refine ⟨?_, fun c hc _ => h c hc⟩
    intro x hx hcmp
    have hpass := h _ (mem_checks_of_mem_sources hx hcmp.1)
    exact (passes_iff_met (globbed_of_mem_sources hx) hcmp.2).mp hpass
  · rintro ⟨hmet, hextra⟩ ⟨s, text⟩ hc
    by_cases he : Extra (s, text)
    · exact hextra _ hc he
    · simp only [Extra, not_or, Bool.not_eq_false, Bool.not_eq_true] at he
      obtain ⟨hsome, hglob, hnl⟩ := he
      obtain ⟨t, rfl⟩ := Option.ne_none_iff_exists'.mp hsome
      obtain ⟨hdir, hconv⟩ := mem_sources_of_mem_checks hc
      exact (passes_iff_met hglob hnl).mpr (hmet _ (hconv t rfl hglob) ⟨hdir, hnl⟩)

/-- **When the exit status is right.** It tells whether every CSV file of the converter has
its Parquet file exactly if some compared file fails, or the files that are not compared are
in order when and only when the extra checks pass. -/
theorem verify_iff (tree : InputTree Text) (out : OutTree) :
    (exitCode tree out = 0 ↔ ∀ x ∈ sources tree, Met out x) ↔
      (∃ x ∈ sources tree, Compared out x.1 ∧ ¬ Met out x) ∨
      ((∀ x ∈ sources tree, ¬ Compared out x.1 → Met out x) ↔
        ∀ c ∈ checks tree out, Extra c → passes out c = true) := by
  have hall : (∀ x ∈ sources tree, Met out x) ↔
      (∀ x ∈ sources tree, Compared out x.1 → Met out x) ∧
        ∀ x ∈ sources tree, ¬ Compared out x.1 → Met out x := by
    constructor
    · intro h
      exact ⟨fun x hx _ => h x hx, fun x hx _ => h x hx⟩
    · rintro ⟨hcmp, hrest⟩ x hx
      by_cases hc : Compared out x.1
      · exact hcmp x hx hc
      · exact hrest x hx hc
  have hex : (∃ x ∈ sources tree, Compared out x.1 ∧ ¬ Met out x) ↔
      ¬ ∀ x ∈ sources tree, Compared out x.1 → Met out x := by
    push Not
    rfl
  rw [exitCode_split, hall, hex]
  tauto

/-- A folder whose output folder is missing drops out of the check. -/
def missingTree : InputTree Text
  | .gaiku => some ⟨[("13101.csv".toList, .file "座標系\n9\n".toList)], by decide⟩
  | _ => none

def missingOut : OutTree where
  dirs := fun _ => false
  count := fun _ => none
  wf := by simp

/-- No CSV file has been converted, and the exit status is 0. -/
theorem verify_missing_folder :
    exitCode missingTree missingOut = 0 ∧ ∃ x ∈ sources missingTree, ¬ Met missingOut x := by
  refine ⟨by decide, (.root .gaiku "13101.csv".toList, "座標系\n9\n".toList), by decide, ?_⟩
  intro h
  cases h

end GdalFull.Verify
