import GdalFull.Merge.Runs
import GdalFull.Verify.EndToEnd

/-!
# Outputs of CSV files that are no longer there

`csv_to_geoparquet.sh` writes an output for every CSV file that it finds and removes none.
`merge_gaiku_geoparquet.py` merges every Parquet file of its folder, and
`verify_csv_geoparquet.py` goes from the CSV files to their outputs.

`orphans_iff`: after runs over a sequence of input trees in which every call succeeds, the
verification of the last tree ends as after one run into an empty folder. The merged layer is that
of the last tree exactly if every CSV file of the earlier trees still has its output name taken.
-/

namespace GdalFull.Merge

open GdalFull.Convert GdalFull.Lib GdalFull.Verify

variable {F : Type}

section Orphans

variable (convert : Source → Text → List F)

/-! ## The folder and the merge -/

/-- The outputs after runs of `csv_to_geoparquet.sh` without `-s` over a sequence of trees, in
which every call succeeds; a Parquet file by its features. -/
def convertTrees (trees : List (InputTree Text)) : Store (List F) :=
  trees.foldl (fun st tree =>
    runTasks false (allDone (tasks .csvToGeoparquet (fun s text => some (convert s text)) tree)) st)
    fun _ => none

/-- The feature counts of the Parquet files. -/
def featureCounts (st : Store (List F)) : Store Nat := counts (fun file => some file.length) st

/-- `parquets`, the files of 街区 in the order of their names. -/
def parquetsIn (names : List Name) (st : Store (List F)) : List (List F) :=
  names.filterMap fun name => st (Dataset.gaiku.folder ++ '/' :: name)

/-- A run of `merge_gaiku_geoparquet.py` over the files in which every file has a zone and every
call succeeds. -/
def mergeRun (zone : List F → Nat) (files : List (List F)) : GaikuRun (List F) F :=
  ⟨some (files.map fun file => ⟨file, some (zone file), .exit 0⟩), .exit 0, true⟩

/-- The merged Parquet file, from no output. -/
def mergedParquet (part : Reading (List F) → List F) (zone : List F → Nat)
    (files : List (List F)) : Option (List F) :=
  ((mergeRun zone files).exec part ⟨none, none⟩).2.parquet

/-- What is read from a file. -/
def mergeReading (zone : List F → Nat) (file : List F) : Reading (List F) :=
  ⟨some (epsgBase + zone file), some gaikuTgtSrs, file⟩

theorem mergedParquet_eq (part : Reading (List F) → List F) (zone : List F → Nat)
    (files : List (List F)) :
    mergedParquet part zone files =
      if files = [] then none
      else some (files.flatMap fun file => part (mergeReading zone file)) := by
  have hreturns : (mergeRun zone files).NoTimeout := by
    intro f hf
    obtain ⟨file, -, rfl⟩ := List.mem_map.mp hf
    exact ⟨0, rfl⟩
  have hattempts : (mergeRun zone files).attempts =
      files.map fun file => ⟨mergeReading zone file, true⟩ := by
    rw [GaikuRun.attempts, GaikuRun.files, mergeRun, Option.getD_some, gaikuAttempts,
      List.filterMap_map]
    exact congrFun (List.filterMap_eq_map (f := fun file => _)) files
  have hsucc : succeeded (mergeRun zone files).attempts = files.map (mergeReading zone) := by
    rw [hattempts, succeeded, List.filter_map, List.map_map]
    simp [Function.comp_def]
  obtain ⟨hnone, hsome⟩ := GaikuRun.exec_cases part hreturns ⟨none, none⟩
  by_cases hfiles : files = []
  · rw [mergedParquet, hnone (by rw [hsucc, hfiles, List.map_nil]), if_pos hfiles]
  · have hne : succeeded (mergeRun zone files).attempts ≠ [] := by
      rw [hsucc]
      simpa using hfiles
    rw [mergedParquet, hsome hne, if_neg hfiles]
    have hmerged : (mergeRun zone files).merged part =
        files.flatMap fun file => part (mergeReading zone file) := by
      rw [GaikuRun.merged, hsucc, List.flatMap_map]
    have hbase : (mergeRun zone files).base [] = [] := by
      unfold GaikuRun.base
      split <;> rfl
    change some ((mergeRun zone files).base [] ++ (mergeRun zone files).merged part) = _
    rw [hbase, List.nil_append, hmerged]

/-! ## What is left in the folder -/

theorem convertTrees_concat (trees : List (InputTree Text)) (cur : InputTree Text) (p : Name) :
    convertTrees convert (trees ++ [cur]) p =
      (convertTrees convert [cur] p).or (convertTrees convert trees p) := by
  simp only [convertTrees, List.foldl_append, List.foldl_cons, List.foldl_nil, runTasks_allDone,
    Option.or_none]

/-- A file at a path is the conversion of a CSV file of some tree. -/
theorem convertTrees_some {trees : List (InputTree Text)} {p : Name} {file : List F}
    (h : convertTrees convert trees p = some file) :
    ∃ tree ∈ trees, ∃ x ∈ sources tree,
      x.1.outPath .csvToGeoparquet = p ∧ convert x.1 x.2 = file := by
  induction trees using List.reverseRecOn with
  | nil => cases h
  | append_singleton trees cur ih =>
    rw [convertTrees_concat, Option.or_eq_some_iff] at h
    rcases h with h | ⟨-, h⟩
    · rw [convertTrees, List.foldl_cons, List.foldl_nil, runTasks_allDone, Option.or_none] at h
      obtain ⟨t, ht, hfile⟩ := List.mem_filterMap.mp (List.mem_of_getLast? h)
      obtain ⟨x, hx, rfl⟩ := List.mem_map.mp ht
      obtain ⟨hout, hconv⟩ := Option.ite_none_right_eq_some.mp hfile
      exact ⟨cur, by simp, x, hx, hout, Option.some.inj hconv⟩
    · obtain ⟨tree, htree, hx⟩ := ih h
      exact ⟨tree, List.mem_append_left _ htree, hx⟩

/-- A CSV file of a tree has a file at its path, and keeps it. -/
theorem convertTrees_isSome {trees : List (InputTree Text)} {tree : InputTree Text}
    (htree : tree ∈ trees) {x : Source × Text} (hx : x ∈ sources tree) :
    (convertTrees convert trees (x.1.outPath .csvToGeoparquet)).isSome = true := by
  induction trees using List.reverseRecOn with
  | nil => cases htree
  | append_singleton trees cur ih =>
    rw [convertTrees_concat, Option.isSome_or, Bool.or_eq_true]
    rcases List.mem_append.mp htree with htree | htree
    · exact Or.inr (ih htree)
    · rw [List.mem_singleton] at htree
      subst htree
      left
      rw [convertTrees, List.foldl_cons, List.foldl_nil, runTasks_allDone, Option.or_none,
        List.getLast?_isSome, Ne, conversionsAt, List.filterMap_eq_nil_iff]
      intro hnone
      have htask := hnone _ (List.mem_map.mpr ⟨x, hx, rfl⟩)
      simp at htask

/-! ## The merged layer and the verification -/

/-- The layer of two folders, the second with files that the first lacks: the same exactly if
there are none. -/
theorem flatMap_or_iff {α β γ : Type} {part : β → List γ} {older newer : α → Option β}
    (hpart : ∀ x b, older x = some b → part b ≠ []) (names : List α) :
    (names.filterMap fun x => (newer x).or (older x)).flatMap part =
        (names.filterMap newer).flatMap part ↔
      ∀ x ∈ names, newer x = none → older x = none := by
  have hlength : ∀ names : List α, ((names.filterMap newer).flatMap part).length ≤
      ((names.filterMap fun x => (newer x).or (older x)).flatMap part).length := by
    intro names
    induction names with
    | nil => exact Nat.le_refl _
    | cons x names ih =>
      cases hn : newer x <;> cases ho : older x <;> simp [hn, ho, -List.length_flatMap] <;> omega
  induction names with
  | nil => simp
  | cons x names ih =>
    rw [List.forall_mem_cons]
    refine Iff.trans ?_ (and_congr_right fun _ => ih)
    cases hn : newer x with
    | some b => simp [hn]
    | none =>
      cases ho : older x with
      | none => simp [hn, ho]
      | some b =>
        refine iff_of_false (fun h => ?_) (by simp)
        have hle := hlength names
        have hpos : 0 < (part b).length := List.length_pos_iff.mpr (hpart x b ho)
        have hlen := congrArg List.length h
        simp [hn, ho, -List.length_flatMap] at hlen
        omega

/-- The merged file of a folder, with files that another one lacks. -/
theorem mergedParquet_or_iff {part : Reading (List F) → List F} (zone : List F → Nat)
    {older newer : Name → Option (List F)}
    (hpart : ∀ name file, older name = some file → part (mergeReading zone file) ≠ [])
    (names : List Name) :
    mergedParquet part zone (names.filterMap fun name => (newer name).or (older name)) =
        mergedParquet part zone (names.filterMap newer) ↔
      ∀ name ∈ names, newer name = none → older name = none := by
  have hiff := @flatMap_or_iff Name (List F) F (fun file => part (mergeReading zone file)) older
    newer hpart names
  rw [← hiff, mergedParquet_eq, mergedParquet_eq]
  by_cases hnew : names.filterMap newer = []
  · have hnone : ∀ name ∈ names, newer name = none := List.filterMap_eq_nil_iff.mp hnew
    have hold : names.filterMap (fun name => (newer name).or (older name)) =
        names.filterMap older :=
      List.filterMap_congr fun name hname => by rw [hnone name hname, Option.none_or]
    rw [if_pos hnew, hold, hnew, List.flatMap_nil, List.flatMap_eq_nil_iff]
    by_cases hfiles : names.filterMap older = []
    · simp [hfiles]
    · refine iff_of_false (by simp [hfiles]) fun hall => ?_
      obtain ⟨file, hfile⟩ := List.exists_mem_of_ne_nil _ hfiles
      obtain ⟨name, -, hname⟩ := List.mem_filterMap.mp hfile
      exact hpart name file hname (hall file hfile)
  · have hor : names.filterMap (fun name => (newer name).or (older name)) ≠ [] := by
      obtain ⟨file, hfile⟩ := List.exists_mem_of_ne_nil _ hnew
      obtain ⟨name, hmem, hname⟩ := List.mem_filterMap.mp hfile
      exact List.ne_nil_of_mem (List.mem_filterMap.mpr ⟨name, hmem, by rw [hname]; rfl⟩)
    rw [if_neg hnew, if_neg hor, Option.some.injEq]

/-- The last tree decides what is at the paths of its own CSV files. -/
theorem convertTrees_cur (trees : List (InputTree Text)) {cur : InputTree Text}
    {x : Source × Text} (hx : x ∈ sources cur) :
    convertTrees convert (trees ++ [cur]) (x.1.outPath .csvToGeoparquet) =
      convertTrees convert [cur] (x.1.outPath .csvToGeoparquet) := by
  have hsome := convertTrees_isSome convert (List.mem_singleton.mpr rfl) hx
  rw [convertTrees_concat, Option.or_of_isSome hsome]

theorem exitCode_convertTrees (trees : List (InputTree Text)) {cur : InputTree Text}
    (hsame : SameNames cur) :
    exitCode cur (outTree cur (featureCounts (convertTrees convert (trees ++ [cur])))) =
      exitCode cur (outTree cur (featureCounts (convertTrees convert [cur]))) := by
  have hiff :
      exitCode cur (outTree cur (featureCounts (convertTrees convert (trees ++ [cur])))) = 0 ↔
        exitCode cur (outTree cur (featureCounts (convertTrees convert [cur]))) = 0 := by
    rw [exitCode_outTree hsame, exitCode_outTree hsame]
    refine forall₂_congr fun x hx => ?_
    rw [featureCounts, featureCounts, counts, counts, convertTrees_cur convert trees hx]
  unfold exitCode at hiff ⊢
  split at hiff <;> split at hiff <;> simp_all

/-- A name of the folder has an old file and no new one, for some name, exactly if some CSV file
is gone. -/
theorem gone_iff (trees : List (InputTree Text)) (cur : InputTree Text) {names : List Name}
    (hnames : ∀ tree ∈ trees, ∀ x ∈ sources tree, x.1.dataset = .gaiku →
      x.1.base ++ Driver.csvToGeoparquet.ext ∈ names) :
    (∀ name ∈ names,
        convertTrees convert [cur] (Dataset.gaiku.folder ++ '/' :: name) = none →
          convertTrees convert trees (Dataset.gaiku.folder ++ '/' :: name) = none) ↔
      ∀ tree ∈ trees, ∀ x ∈ sources tree, x.1.dataset = .gaiku →
        ∃ y ∈ sources cur, y.1.outPath .csvToGeoparquet = x.1.outPath .csvToGeoparquet := by
  constructor
  · intro hall tree htree x hx hd
    have hpath : x.1.outPath .csvToGeoparquet =
        Dataset.gaiku.folder ++ '/' :: (x.1.base ++ Driver.csvToGeoparquet.ext) := by
      rw [Source.outPath, hd]
    have hold := convertTrees_isSome convert htree hx
    by_contra hgone
    have hnone : convertTrees convert [cur] (x.1.outPath .csvToGeoparquet) = none := by
      rw [Option.eq_none_iff_forall_ne_some]
      intro file hfile
      obtain ⟨tree', htree', y, hy, hout, -⟩ := convertTrees_some convert hfile
      rw [List.mem_singleton] at htree'
      subst htree'
      exact hgone ⟨y, hy, hout⟩
    rw [hpath] at hnone hold
    rw [hall _ (hnames tree htree x hx hd) hnone] at hold
    cases hold
  · intro hall name _ hnone
    rw [Option.eq_none_iff_forall_ne_some]
    intro file hfile
    obtain ⟨tree, htree, x, hx, hout, -⟩ := convertTrees_some convert hfile
    obtain ⟨y, hy, hsameOut⟩ := hall tree htree x hx (folder_append_inj hout)
    have hsome := convertTrees_isSome convert (List.mem_singleton.mpr rfl) hy
    rw [hsameOut, hout, hnone] at hsome
    cases hsome

/-- **Outputs of CSV files that are gone.** After runs without `-s` over a sequence of trees, in
which every call succeeds: if both scripts take the names of the last tree alike, its verification
ends as after one run into an empty folder. If every file of 街区 in the earlier trees has a feature
at least, the merged file of 街区 is that of such a run exactly if each of them has the output path
of one that is still there. -/
theorem orphans_iff {part : Reading (List F) → List F}
    (hpart : ∀ r : Reading (List F), r.src ≠ [] → part r ≠ []) (zone : List F → Nat)
    (trees : List (InputTree Text)) (cur : InputTree Text) (hsame : SameNames cur)
    (hfull : ∀ tree ∈ trees, ∀ x ∈ sources tree, x.1.dataset = .gaiku → convert x.1 x.2 ≠ [])
    (names : List Name)
    (hnames : ∀ tree ∈ trees, ∀ x ∈ sources tree, x.1.dataset = .gaiku →
      x.1.base ++ Driver.csvToGeoparquet.ext ∈ names) :
    exitCode cur (outTree cur (featureCounts (convertTrees convert (trees ++ [cur])))) =
        exitCode cur (outTree cur (featureCounts (convertTrees convert [cur]))) ∧
      (mergedParquet part zone (parquetsIn names (convertTrees convert (trees ++ [cur]))) =
          mergedParquet part zone (parquetsIn names (convertTrees convert [cur])) ↔
        ∀ tree ∈ trees, ∀ x ∈ sources tree, x.1.dataset = .gaiku →
          ∃ y ∈ sources cur,
            y.1.outPath .csvToGeoparquet = x.1.outPath .csvToGeoparquet) := by
  refine ⟨exitCode_convertTrees convert trees hsame, ?_⟩
  have holder : ∀ name file,
      convertTrees convert trees (Dataset.gaiku.folder ++ '/' :: name) = some file →
        part (mergeReading zone file) ≠ [] := by
    intro name file hfile
    obtain ⟨tree, htree, x, hx, hout, rfl⟩ := convertTrees_some convert hfile
    exact hpart _ (hfull tree htree x hx (folder_append_inj hout))
  have hor : parquetsIn names (convertTrees convert (trees ++ [cur])) =
      names.filterMap fun name =>
        (convertTrees convert [cur] (Dataset.gaiku.folder ++ '/' :: name)).or
          (convertTrees convert trees (Dataset.gaiku.folder ++ '/' :: name)) := by
    simp only [parquetsIn, convertTrees_concat]
  rw [← gone_iff convert trees cur hnames, hor, parquetsIn, mergedParquet_or_iff zone holder]

end Orphans

/-- 街区 with one CSV file. -/
def gaikuTree (name : String) (h : ([name.toList] : List Name).Nodup) : InputTree Text
  | .gaiku => some ⟨[(name.toList, .file "座標系\n9\n".toList)], h⟩
  | _ => none

/-- A CSV file is renamed between two runs: the verification ends as before, and the merged file
has its features twice. -/
theorem orphans_renamed :
    let old := gaikuTree "H_01101.csv" (by simp)
    let cur := gaikuTree "01101.csv" (by simp)
    let convert : Source → Text → List Nat := fun _ text => [text.length]
    let names := ["01101.parquet".toList, "H_01101.parquet".toList]
    exitCode cur (outTree cur (featureCounts (convertTrees convert ([old] ++ [cur])))) =
        exitCode cur (outTree cur (featureCounts (convertTrees convert [cur]))) ∧
      mergedParquet Reading.src (fun _ => 9)
          (parquetsIn names (convertTrees convert ([old] ++ [cur]))) ≠
        mergedParquet Reading.src (fun _ => 9)
          (parquetsIn names (convertTrees convert [cur])) := by
  intro old cur convert names
  have hold : sources old = [(.root .gaiku "H_01101.csv".toList, "座標系\n9\n".toList)] := by decide
  have hcur : sources cur = [(.root .gaiku "01101.csv".toList, "座標系\n9\n".toList)] := by decide
  have hsame : SameNames cur := by
    have hchecks : checks cur (outTree cur fun _ => none) =
        [(.root .gaiku "01101.csv".toList, some "座標系\n9\n".toList)] := by decide
    intro c hc
    rw [hchecks, List.mem_singleton] at hc
    rw [hc]
    unfold Extra
    decide
  have hnames : ∀ tree ∈ [old], ∀ x ∈ sources tree, x.1.dataset = .gaiku →
      x.1.base ++ Driver.csvToGeoparquet.ext ∈ names := by
    intro tree htree x hx _
    rw [List.mem_singleton] at htree
    rw [htree, hold, List.mem_singleton] at hx
    rw [hx]
    decide
  obtain ⟨hexit, hmerged⟩ := orphans_iff convert (fun r hr => hr) (fun _ => 9) [old] cur hsame
    (fun _ _ _ _ _ => List.cons_ne_nil _ _) names hnames
  refine ⟨hexit, fun hequal => ?_⟩
  obtain ⟨y, hy, hout⟩ := hmerged.mp hequal old List.mem_cons_self
    (.root .gaiku "H_01101.csv".toList, "座標系\n9\n".toList) (by rw [hold]; simp) rfl
  rw [hcur, List.mem_singleton] at hy
  rw [hy] at hout
  exact absurd hout (by decide)

end GdalFull.Merge
