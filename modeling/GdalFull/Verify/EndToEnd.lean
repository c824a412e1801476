import GdalFull.Convert.Resume
import GdalFull.Verify.Count

/-!
# Conversion and verification

`csv_to_geoparquet.sh` writes a Parquet file for every CSV file, with `-s` only where there is none,
and `verify_csv_geoparquet.py` compares the features of each with the rows of its CSV file.

`convert_then_verify_iff` says when the verification passes after any sequence of runs with and
without `-s`, whatever is in the output folder before. A run without `-s` writes every file again.
With `-s` a file that is there is kept, so a wrong one fails the verification after every further
run.
-/

namespace GdalFull.Verify

open GdalFull.Convert GdalFull.Lib

/-! ## The output folders -/

/-- The path is in an output folder that a run makes. -/
def present (tree : InputTree Text) (p : Name) : Bool :=
  [Dataset.gaiku, .toshi, .tochi, .kozu].any fun d =>
    (tree d).isSome && (d.folder ++ ['/']).isPrefixOf p

theorem present_iff {tree : InputTree Text} {d : Dataset} {name : Name} :
    present tree (d.folder ++ '/' :: name) = true ↔ (tree d).isSome = true := by
  unfold present
  rw [List.any_eq_true]
  constructor
  · rintro ⟨d', -, h⟩
    rw [Bool.and_eq_true, List.isPrefixOf_iff_prefix] at h
    obtain ⟨hsome, rest, hrest⟩ := h
    rw [List.append_assoc] at hrest
    rwa [← folder_append_inj hrest]
  · intro h
    refine ⟨d, by cases d <;> simp, ?_⟩
    rw [h, Bool.true_and, List.isPrefixOf_iff_prefix]
    exact ⟨name, by simp⟩

/-- The output folders after a run, with the files that are there. -/
def outTree (tree : InputTree Text) (st : Store Nat) : OutTree where
  dirs := fun d => (tree d).isSome
  count := fun p => if present tree p then st p else none
  wf := by
    intro d name h
    by_cases hp : present tree (d.folder ++ '/' :: name) = true
    · exact present_iff.mp hp
    · simp [hp] at h

/-- Every entry that the verifier lists is one that the converter converts to the same name. -/
def SameNames (tree : InputTree Text) : Prop :=
  ∀ c ∈ checks tree (outTree tree fun _ => none), ¬ Extra c

/-- The rows of a CSV file, as the verifier counts them. -/
def rowsOf (x : Source × Text) : Nat := countCsvRows x.2 (hasHeader x.1.dataset)

theorem exitCode_outTree {tree : InputTree Text} (h : SameNames tree) (st : Store Nat) :
    exitCode tree (outTree tree st) = 0 ↔
      ∀ x ∈ sources tree, st (x.1.outPath .csvToGeoparquet) = some (rowsOf x) := by
  have hdir : ∀ x ∈ sources tree, (tree x.1.dataset).isSome = true := by
    intro x hx
    obtain ⟨d, hx⟩ := mem_sources.mp hx
    obtain ⟨folder, htree, hlist⟩ := mem_blockSources.mp hx
    rw [mem_rootSources, mem_subSources] at hlist
    rcases hlist with ⟨name, -, -, heq⟩ | ⟨rfl, name, -, -, heq⟩ <;>
      · rw [heq]
        exact Option.isSome_iff_exists.mpr ⟨folder, htree⟩
  have hmet : ∀ x ∈ sources tree, Met (outTree tree st) x ↔
      st (x.1.outPath .csvToGeoparquet) = some (rowsOf x) := by
    intro x hx
    have hpresent : present tree (x.1.outPath .csvToGeoparquet) = true :=
      present_iff.mpr (hdir x hx)
    simp [Met, outTree, hpresent, rowsOf]
  have hcompared : ∀ x ∈ sources tree, Compared (outTree tree st) x.1 := by
    intro x hx
    have hcheck : (x.1, some x.2) ∈ checks tree (outTree tree fun _ => none) :=
      mem_checks_of_mem_sources hx (hdir x hx)
    refine ⟨hdir x hx, ?_⟩
    rw [← Bool.not_eq_true]
    exact fun hnl => h _ hcheck (Or.inr (Or.inr hnl))
  rw [exitCode_split]
  constructor
  · rintro ⟨hall, -⟩ x hx
    exact (hmet x hx).mp (hall x hx (hcompared x hx))
  · intro hall
    exact ⟨fun x hx _ => (hmet x hx).mpr (hall x hx), fun c hc hextra => absurd hextra (h c hc)⟩

/-! ## The runs -/

theorem entry_unique {folder : Folder Text} {name : Name} {a b : Entry Text}
    (ha : (name, a) ∈ folder.entries) (hb : (name, b) ∈ folder.entries) : a = b := by
  have hpair := List.inj_on_of_nodup_map folder.nodup ha hb rfl
  exact congrArg Prod.snd hpair

/-- A place has one content. -/
theorem source_content {tree : InputTree Text} {s : Source} {a b : Text}
    (ha : (s, a) ∈ sources tree) (hb : (s, b) ∈ sources tree) : a = b := by
  obtain ⟨d, ha⟩ := mem_sources.mp ha
  obtain ⟨d', hb⟩ := mem_sources.mp hb
  obtain ⟨folder, htree, ha⟩ := mem_blockSources.mp ha
  obtain ⟨folder', htree', hb⟩ := mem_blockSources.mp hb
  rw [mem_rootSources, mem_subSources] at ha hb
  rcases ha with ⟨name, ha, -, rfl⟩ | ⟨rfl, name, ha, -, rfl⟩
  · rcases hb with ⟨name', hb, -, heq⟩ | ⟨rfl, name', hb, -, heq⟩
    · cases heq
      rw [htree, Option.some.injEq] at htree'
      subst htree'
      exact Entry.file.inj (entry_unique ha hb)
    · cases heq
  · rcases hb with ⟨name', hb, -, heq⟩ | ⟨rfl, name', hb, -, heq⟩
    · cases heq
    · cases heq
      rw [htree, Option.some.injEq] at htree'
      subst htree'
      exact Option.some.inj (Entry.dir.inj (entry_unique ha hb))

/-- In an unambiguous tree every CSV file has its output path to itself. -/
theorem ownPath_of_unambiguous {tree : InputTree Text} (h : Unambiguous tree) {x : Source × Text}
    (hx : x ∈ sources tree) (driver : Driver) {File : Type}
    (convert : Source → Text → Option File) :
    OwnPath (tasks driver convert tree) ⟨x.1, x.1.outPath driver, convert x.1 x.2⟩ := by
  refine ⟨List.mem_map.mpr ⟨x, hx, rfl⟩, ?_⟩
  intro t ht hout
  obtain ⟨⟨s, text⟩, hy, rfl⟩ := List.mem_map.mp ht
  obtain ⟨hd, hbase⟩ := outPath_eq_iff.mp hout
  obtain rfl : s = x.1 := h.source_eq hy hx hd hbase
  rw [source_content hy hx]

section Runs

variable {File : Type} (features : File → Option Nat) (convert : Source → Text → Option File)

/-- A run of `csv_to_geoparquet.sh` in which every call of `ogr2ogr` succeeds. Where a preprocessor
fails there is no conversion, and the run goes on. -/
def convertAll (tree : InputTree Text) (st : Store File) (skip : Bool) : Store File :=
  runTasks skip (allDone (tasks .csvToGeoparquet convert tree)) st

/-- Such runs one after the other, each with or without `-s`. -/
def convertRuns (tree : InputTree Text) (st : Store File) (skips : List Bool) : Store File :=
  skips.foldl (convertAll convert tree) st

/-- The feature counts of the files, as `get_parquet_feature_count` gets them: none for a file that
`ogrinfo` cannot read. -/
def counts (st : Store File) : Store Nat := fun p => (st p).bind features

/-- What is at the output path of a CSV file after a run. -/
theorem convertAll_own {tree : InputTree Text} (h : Unambiguous tree) {x : Source × Text}
    (hx : x ∈ sources tree) (st : Store File) :
    convertAll convert tree st false (x.1.outPath .csvToGeoparquet) =
        (convert x.1 x.2).or (st (x.1.outPath .csvToGeoparquet)) ∧
      convertAll convert tree st true (x.1.outPath .csvToGeoparquet) =
        (st (x.1.outPath .csvToGeoparquet)).or (convert x.1 x.2) := by
  have hown := ownPath_of_unambiguous h hx .csvToGeoparquet convert
  obtain ⟨hhead, hlast⟩ := conversionsAt_own hown
  constructor
  · rw [convertAll, runTasks_allDone, hlast]
  · rw [convertAll, runTasks_allDone_skip, hhead]

/-- Runs with `-s` keep what is there, and the first one adds what is missing. A run without it
leaves nothing for the others to do. -/
theorem convertRuns_own {tree : InputTree Text} (h : Unambiguous tree) {x : Source × Text}
    (hx : x ∈ sources tree) (st : Store File) (skips : List Bool) :
    (false ∈ skips → convertRuns convert tree st skips (x.1.outPath .csvToGeoparquet) =
      (convert x.1 x.2).or (st (x.1.outPath .csvToGeoparquet))) ∧
    (false ∉ skips → skips ≠ [] →
      convertRuns convert tree st skips (x.1.outPath .csvToGeoparquet) =
        (st (x.1.outPath .csvToGeoparquet)).or (convert x.1 x.2)) := by
  induction skips using List.reverseRecOn with
  | nil => simp
  | append_singleton skips skip ih =>
    obtain ⟨hwrite, hkeep⟩ := convertAll_own convert h hx (convertRuns convert tree st skips)
    have hlast : convertRuns convert tree st (skips ++ [skip]) =
        convertAll convert tree (convertRuns convert tree st skips) skip := by
      rw [convertRuns, List.foldl_append]
      rfl
    rw [hlast]
    have hnil : convertRuns convert tree st [] = st := rfl
    -- what the earlier runs left, in the three cases
    by_cases hfull : false ∈ skips
    · cases skip with
      | false =>
        rw [hwrite, ih.1 hfull]
        cases convert x.1 x.2 <;> simp
      | true =>
        rw [hkeep, ih.1 hfull]
        cases convert x.1 x.2 <;> simp [hfull]
    · by_cases hskips : skips = []
      · subst hskips
        rw [hnil] at hwrite hkeep ⊢
        cases skip <;> simp [hwrite, hkeep]
      · cases skip with
        | false =>
          rw [hwrite, ih.2 hfull hskips]
          cases convert x.1 x.2 <;> simp
        | true =>
          rw [hkeep, ih.2 hfull hskips]
          cases st (x.1.outPath .csvToGeoparquet) <;> cases convert x.1 x.2 <;> simp [hfull]

/-- A Parquet file with as many features as the CSV file has rows. -/
def Right (x : Source × Text) (file : Option File) : Prop :=
  ∃ f, file = some f ∧ features f = some (rowsOf x)

theorem right_or_iff (x : Source × Text) (a b : Option File) :
    Right features x (a.or b) ↔ Right features x a ∨ a = none ∧ Right features x b := by
  cases a <;> simp [Right]

/-- **Conversion and verification.** For a tree with unambiguous names that both scripts take
alike, and whatever is in the output folder before: after runs of which one is without `-s` the
verification passes exactly if every CSV file is converted right, or is not converted and what is
left of it is right. After runs with `-s` it passes exactly if every file that was there is right
and every missing one is converted right. -/
theorem convert_then_verify_iff {tree : InputTree Text} (hnames : Unambiguous tree)
    (hsame : SameNames tree) (st : Store File) (skips : List Bool) :
    (false ∈ skips →
      (exitCode tree (outTree tree (counts features (convertRuns convert tree st skips))) = 0 ↔
        ∀ x ∈ sources tree, Right features x (convert x.1 x.2) ∨
          convert x.1 x.2 = none ∧ Right features x (st (x.1.outPath .csvToGeoparquet)))) ∧
    (false ∉ skips → skips ≠ [] →
      (exitCode tree (outTree tree (counts features (convertRuns convert tree st skips))) = 0 ↔
        ∀ x ∈ sources tree, Right features x (st (x.1.outPath .csvToGeoparquet)) ∨
          st (x.1.outPath .csvToGeoparquet) = none ∧ Right features x (convert x.1 x.2))) := by
  have hright : ∀ (st : Store File) (x : Source × Text),
      counts features st (x.1.outPath .csvToGeoparquet) = some (rowsOf x) ↔
        Right features x (st (x.1.outPath .csvToGeoparquet)) :=
    fun st x => Option.bind_eq_some_iff
  rw [exitCode_outTree hsame]
  constructor
  · intro hfull
    refine forall₂_congr fun x hx => ?_
    rw [hright, (convertRuns_own convert hnames hx st skips).1 hfull, right_or_iff]
  · intro hskip hne
    refine forall₂_congr fun x hx => ?_
    rw [hright, (convertRuns_own convert hnames hx st skips).2 hskip hne, right_or_iff]

end Runs

/-- One file of 土地活用 with two records. -/
def tochiTree : InputTree Text
  | .tochi => some ⟨[("TH_01103.csv".toList, .file "1,2\r\n3,4\r\n".toList)], by simp⟩
  | _ => none

/-- With a file without its end left by a killed run, three runs with `-s` do not pass, and one
without it does. A file is the list of its features, `none` without its end. -/
theorem convert_then_verify_partial :
    let convert : Source → Text → Option (Option (List Text)) :=
      fun _ text => some (some (readlines text))
    let features : Option (List Text) → Option Nat := Option.map List.length
    let st : Store (Option (List Text)) := fun p =>
      if p = "土地活用推進調査/TH_01103.parquet".toList then some none else none
    let status := fun skips => exitCode tochiTree
      (outTree tochiTree (counts features (convertRuns convert tochiTree st skips)))
    status [true, true, true] ≠ 0 ∧ status [false] = 0 := by
  intro convert features st status
  have hsources : sources tochiTree =
      [(.root .tochi "TH_01103.csv".toList, "1,2\r\n3,4\r\n".toList)] := by decide
  have hpath : st ((Source.root .tochi "TH_01103.csv".toList).outPath .csvToGeoparquet) =
      some none := by
    decide
  have hnames : Unambiguous tochiTree := by
    apply unambiguous_of_source_eq
    intro s₁ s₂ c₁ c₂ h₁ h₂ _ _
    rw [hsources, List.mem_singleton] at h₁ h₂
    rw [(Prod.mk.inj h₁).1, (Prod.mk.inj h₂).1]
  have hsame : SameNames tochiTree := by
    intro c hc
    have hchecks : checks tochiTree (outTree tochiTree fun _ => none) =
        [(.root .tochi "TH_01103.csv".toList, some "1,2\r\n3,4\r\n".toList)] := by decide
    rw [hchecks, List.mem_singleton] at hc
    rw [hc]
    unfold Extra
    decide
  have hiff := convert_then_verify_iff features convert hnames hsame st
  constructor
  · rw [Ne, (hiff [true, true, true]).2 (by decide) (by decide), hsources]
    intro hall
    rcases hall _ List.mem_cons_self with ⟨file, hfile, hcount⟩ | ⟨hnone, -⟩
    · rw [hpath, Option.some.injEq] at hfile
      subst hfile
      cases hcount
    · rw [hpath] at hnone
      cases hnone
  · rw [(hiff [false]).1 (by decide), hsources]
    intro x hx
    rw [List.mem_singleton] at hx
    subst hx
    exact Or.inl ⟨_, rfl, by decide⟩

end GdalFull.Verify
