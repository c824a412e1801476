import Mathlib.Data.List.DropRight
import Mathlib.Data.List.Nodup

/-!
# The input tree and the CSV files that the drivers convert

`csv_to_geopackage.sh` and `csv_to_geoparquet.sh` walk the same four folders with the same
five loops: all `*.csv` of a folder, and for 公図 first `配置テキスト.csv` of every subfolder.
`sources` lists the CSV files in the order of the loops, and `Source.outPath` is the output
path that is built from a directory name, a base name and the extension of the driver.

`outPath_inj_iff` is the answer to when two CSV files of one run get two outputs. The output
name of a subfolder is also the output name of a CSV file next to it, and a command
substitution drops the newlines at the end of a name.
-/

namespace GdalFull.Convert

variable {C : Type}

abbrev Name := List Char

/-- The four folders of point and polygon data. -/
inductive Dataset where
  | gaiku
  | toshi
  | tochi
  | kozu
  deriving DecidableEq

def Dataset.folder : Dataset → Name
  | .gaiku => "街区基準点等データ".toList
  | .toshi => "都市部官民基準点等データ".toList
  | .tochi => "土地活用推進調査".toList
  | .kozu => "公図と現況のずれデータ".toList

/-- An entry of a folder: a file, or a subfolder, of which the scripts only look at the file
`配置テキスト.csv`. -/
inductive Entry (C : Type) where
  | file (content : C)
  | dir (haichi : Option C)
  deriving DecidableEq

/-- A folder, its entries in the order of a glob. -/
structure Folder (C : Type) where
  entries : List (Name × Entry C)
  nodup : (entries.map Prod.fst).Nodup

/-- The folders that are there below a root. -/
abbrev InputTree (C : Type) := Dataset → Option (Folder C)

/-! ## Names -/

def csvSuffix : Name := ".csv".toList

/-- The glob `*.csv`: case sensitive, no dot files. -/
def globCsv (name : Name) : Bool :=
  name.head? != some '.' && csvSuffix.isSuffixOf name

/-- The glob `*/`, for the name of a directory. -/
def globDir (name : Name) : Bool :=
  name.head? != some '.'

/-- `$(...)` drops the newlines at the end of what is printed. -/
def cmdSubst (out : Name) : Name :=
  out.rdropWhile (· = '\n')

/-- `basename NAME SUFFIX`. -/
def basename (name suffix : Name) : Name :=
  if suffix.isSuffixOf name && name != suffix then name.take (name.length - suffix.length)
  else name

/-- `_配置テキスト`, the end of the base name of a subfolder's CSV. -/
def haichiSuffix : Name := "_配置テキスト".toList

/-! ## The CSV files of a run -/

/-- A CSV file by its place: in the folder itself, or `配置テキスト.csv` of a subfolder of 公図. -/
inductive Source where
  | root (d : Dataset) (name : Name)
  | sub (name : Name)
  deriving DecidableEq

def Source.dataset : Source → Dataset
  | .root d _ => d
  | .sub _ => .kozu

/-- `base`: `$(basename "$csv" .csv)`, or `${subname}_配置テキスト`. -/
def Source.base : Source → Name
  | .root _ name => cmdSubst (basename name csvSuffix)
  | .sub name => cmdSubst name ++ haichiSuffix

/-- The driver, by the format that it writes. -/
inductive Driver where
  | csvToGeopackage
  | csvToGeoparquet
  deriving DecidableEq

def Driver.ext : Driver → Name
  | .csvToGeopackage => ".gpkg".toList
  | .csvToGeoparquet => ".parquet".toList

/-- `out`, below the output root. -/
def Source.outPath (driver : Driver) (s : Source) : Name :=
  s.dataset.folder ++ '/' :: (s.base ++ driver.ext)

/-- The loop over `"$IN_DIR"/*.csv`. -/
def rootSources (d : Dataset) (folder : Folder C) : List (Source × C) :=
  folder.entries.filterMap fun
    | (name, .file content) => if globCsv name then some (.root d name, content) else none
    | (_, .dir _) => none

/-- The loop over `"$IN_DIR"/*/`. -/
def subSources (folder : Folder C) : List (Source × C) :=
  folder.entries.filterMap fun
    | (name, .dir (some content)) => if globDir name then some (.sub name, content) else none
    | _ => none

/-- One block of a driver; it is skipped when the folder is not there. -/
def blockSources (tree : InputTree C) (d : Dataset) : List (Source × C) :=
  match tree d with
  | none => []
  | some folder =>
    match d with
    | .kozu => subSources folder ++ rootSources .kozu folder
    | _ => rootSources d folder

/-- The CSV files that a run converts, in order. -/
def sources (tree : InputTree C) : List (Source × C) :=
  [Dataset.gaiku, .toshi, .tochi, .kozu].flatMap (blockSources tree)

theorem mem_rootSources {d : Dataset} {folder : Folder C} {x : Source × C} :
    x ∈ rootSources d folder ↔
      ∃ name, (name, Entry.file x.2) ∈ folder.entries ∧ globCsv name = true ∧
        x.1 = .root d name := by
  unfold rootSources
  rw [List.mem_filterMap]
  constructor
  · rintro ⟨⟨name, _ | _⟩, hmem, hx⟩
    · dsimp only at hx
      split at hx
      · cases hx
        exact ⟨name, hmem, by assumption, rfl⟩
      · cases hx
    · cases hx
  · rintro ⟨name, hmem, hglob, hx⟩
    refine ⟨_, hmem, ?_⟩
    simp only [hglob, if_true, Option.some.injEq]
    exact Prod.ext hx.symm rfl

theorem mem_subSources {folder : Folder C} {x : Source × C} :
    x ∈ subSources folder ↔
      ∃ name, (name, Entry.dir (some x.2)) ∈ folder.entries ∧ globDir name = true ∧
        x.1 = .sub name := by
  unfold subSources
  rw [List.mem_filterMap]
  constructor
  · rintro ⟨⟨name, _ | _ | _⟩, hmem, hx⟩
    · cases hx
    · cases hx
    · dsimp only at hx
      split at hx
      · cases hx
        exact ⟨name, hmem, by assumption, rfl⟩
      · cases hx
  · rintro ⟨name, hmem, hglob, hx⟩
    refine ⟨_, hmem, ?_⟩
    simp only [hglob, if_true, Option.some.injEq]
    exact Prod.ext hx.symm rfl

/-- A CSV file of the folder `d` that the drivers convert. -/
def HasRoot (tree : InputTree C) (d : Dataset) (name : Name) : Prop :=
  ∃ folder content, tree d = some folder ∧ (name, Entry.file content) ∈ folder.entries ∧
    globCsv name = true

/-- A subfolder of 公図 whose `配置テキスト.csv` the drivers convert. -/
def HasSub (tree : InputTree C) (name : Name) : Prop :=
  ∃ folder content, tree .kozu = some folder ∧
    (name, Entry.dir (some content)) ∈ folder.entries ∧ globDir name = true

theorem mem_blockSources {tree : InputTree C} {d : Dataset} {x : Source × C} :
    x ∈ blockSources tree d ↔
      ∃ folder, tree d = some folder ∧
        (x ∈ rootSources d folder ∨ d = .kozu ∧ x ∈ subSources folder) := by
  unfold blockSources
  cases tree d with
  | none => simp
  | some folder => cases d <;> simp [or_comm]

/-- The blocks of a script are those of all four folders. -/
theorem mem_blocks {α : Type} {block : Dataset → List α} {x : α} :
    x ∈ [Dataset.gaiku, .toshi, .tochi, .kozu].flatMap block ↔ ∃ d, x ∈ block d := by
  rw [List.mem_flatMap]
  constructor
  · rintro ⟨d, _, hx⟩
    exact ⟨d, hx⟩
  · rintro ⟨d, hx⟩
    exact ⟨d, by cases d <;> simp, hx⟩

theorem mem_sources {tree : InputTree C} {x : Source × C} :
    x ∈ sources tree ↔ ∃ d, x ∈ blockSources tree d :=
  mem_blocks

theorem root_mem_sources_iff {tree : InputTree C} {d : Dataset} {name : Name} :
    (∃ content, (Source.root d name, content) ∈ sources tree) ↔ HasRoot tree d name := by
  simp only [mem_sources, mem_blockSources, mem_rootSources, mem_subSources, HasRoot]
  constructor
  · rintro ⟨content, d', folder, htree, ⟨name', hmem, hglob, hx⟩ | ⟨_, _, _, _, hx⟩⟩
    · cases hx
      exact ⟨folder, content, htree, hmem, hglob⟩
    · cases hx
  · rintro ⟨folder, content, htree, hmem, hglob⟩
    exact ⟨content, d, folder, htree, Or.inl ⟨name, hmem, hglob, rfl⟩⟩

theorem sub_mem_sources_iff {tree : InputTree C} {name : Name} :
    (∃ content, (Source.sub name, content) ∈ sources tree) ↔ HasSub tree name := by
  simp only [mem_sources, mem_blockSources, mem_rootSources, mem_subSources, HasSub]
  constructor
  · rintro ⟨content, d', folder, htree, ⟨_, _, _, hx⟩ | ⟨rfl, name', hmem, hglob, hx⟩⟩
    · cases hx
    · cases hx
      exact ⟨folder, content, htree, hmem, hglob⟩
  · rintro ⟨folder, content, htree, hmem, hglob⟩
    exact ⟨content, .kozu, folder, htree, Or.inr ⟨rfl, name, hmem, hglob, rfl⟩⟩

/-! ## Output paths -/

theorem folder_append_inj {d₁ d₂ : Dataset} {rest₁ rest₂ : Name}
    (h : d₁.folder ++ rest₁ = d₂.folder ++ rest₂) : d₁ = d₂ := by
  have hhead : d₁.folder.head? = d₂.folder.head? := by
    have h' := congrArg List.head? h
    cases d₁ <;> cases d₂ <;> exact h'
  cases d₁ <;> cases d₂ <;> first | rfl | exact absurd hhead (by decide)

theorem outPath_eq_iff {driver : Driver} {s₁ s₂ : Source} :
    s₁.outPath driver = s₂.outPath driver ↔ s₁.dataset = s₂.dataset ∧ s₁.base = s₂.base := by
  unfold Source.outPath
  constructor
  · intro h
    have hd := folder_append_inj h
    refine ⟨hd, ?_⟩
    rw [hd, List.append_cancel_left_eq, List.cons.injEq, List.append_cancel_right_eq] at h
    exact h.2
  · rintro ⟨hd, hb⟩
    rw [hd, hb]

/-- The names that keep the outputs of a run apart. The names of two CSV files of a folder
differ by more than newlines before `.csv`, the names of two subfolders by more than newlines
at the end, and no CSV file of 公図 is called like the output of a subfolder. -/
structure Unambiguous (tree : InputTree C) : Prop where
  root : ∀ d name₁ name₂, HasRoot tree d name₁ → HasRoot tree d name₂ →
    cmdSubst (basename name₁ csvSuffix) = cmdSubst (basename name₂ csvSuffix) → name₁ = name₂
  sub : ∀ name₁ name₂, HasSub tree name₁ → HasSub tree name₂ →
    cmdSubst name₁ = cmdSubst name₂ → name₁ = name₂
  cross : ∀ name subname, HasRoot tree .kozu name → HasSub tree subname →
    cmdSubst (basename name csvSuffix) ≠ cmdSubst subname ++ haichiSuffix

theorem Unambiguous.source_eq {tree : InputTree C} (h : Unambiguous tree) {s₁ s₂ : Source}
    {c₁ c₂ : C} (h₁ : (s₁, c₁) ∈ sources tree) (h₂ : (s₂, c₂) ∈ sources tree)
    (hd : s₁.dataset = s₂.dataset) (hbase : s₁.base = s₂.base) : s₁ = s₂ := by
  cases s₁ with
  | root d₁ name₁ =>
    have h₁ := root_mem_sources_iff.mp ⟨c₁, h₁⟩
    cases s₂ with
    | root d₂ name₂ =>
      have h₂ := root_mem_sources_iff.mp ⟨c₂, h₂⟩
      cases hd
      exact congrArg (Source.root d₁) (h.root d₁ name₁ name₂ h₁ h₂ hbase)
    | sub name₂ =>
      have h₂ := sub_mem_sources_iff.mp ⟨c₂, h₂⟩
      cases hd
      exact absurd hbase (h.cross name₁ name₂ h₁ h₂)
  | sub name₁ =>
    have h₁ := sub_mem_sources_iff.mp ⟨c₁, h₁⟩
    cases s₂ with
    | root d₂ name₂ =>
      have h₂ := root_mem_sources_iff.mp ⟨c₂, h₂⟩
      cases hd
      exact absurd hbase.symm (h.cross name₂ name₁ h₂ h₁)
    | sub name₂ =>
      have h₂ := sub_mem_sources_iff.mp ⟨c₂, h₂⟩
      exact congrArg Source.sub (h.sub name₁ name₂ h₁ h₂ (List.append_cancel_right hbase))

theorem unambiguous_of_source_eq {tree : InputTree C}
    (h : ∀ {s₁ s₂ : Source} {c₁ c₂ : C}, (s₁, c₁) ∈ sources tree → (s₂, c₂) ∈ sources tree →
      s₁.dataset = s₂.dataset → s₁.base = s₂.base → s₁ = s₂) : Unambiguous tree := by
  refine ⟨?_, ?_, ?_⟩
  · intro d name₁ name₂ h₁ h₂ hbase
    obtain ⟨c₁, h₁⟩ := root_mem_sources_iff.mpr h₁
    obtain ⟨c₂, h₂⟩ := root_mem_sources_iff.mpr h₂
    cases h h₁ h₂ rfl hbase
    rfl
  · intro name₁ name₂ h₁ h₂ hbase
    obtain ⟨c₁, h₁⟩ := sub_mem_sources_iff.mpr h₁
    obtain ⟨c₂, h₂⟩ := sub_mem_sources_iff.mpr h₂
    cases h h₁ h₂ rfl (congrArg (· ++ haichiSuffix) hbase)
    rfl
  · intro name subname h₁ h₂ hbase
    obtain ⟨c₁, h₁⟩ := root_mem_sources_iff.mpr h₁
    obtain ⟨c₂, h₂⟩ := sub_mem_sources_iff.mpr h₂
    cases h h₁ h₂ rfl hbase

/-- **One CSV, one output.** Two CSV files of a run always have two output paths exactly when
the names of the tree are unambiguous. -/
theorem outPath_inj_iff (driver : Driver) (tree : InputTree C) :
    (∀ x₁ ∈ sources tree, ∀ x₂ ∈ sources tree, x₁.1 ≠ x₂.1 →
        x₁.1.outPath driver ≠ x₂.1.outPath driver) ↔
      Unambiguous tree := by
  constructor
  · intro h
    apply unambiguous_of_source_eq
    intro s₁ s₂ c₁ c₂ h₁ h₂ hd hbase
    by_contra hne
    exact h _ h₁ _ h₂ hne (outPath_eq_iff.mpr ⟨hd, hbase⟩)
  · rintro h ⟨s₁, c₁⟩ h₁ ⟨s₂, c₂⟩ h₂ hne hpath
    obtain ⟨hd, hbase⟩ := outPath_eq_iff.mp hpath
    exact hne (h.source_eq h₁ h₂ hd hbase)

/-- A subfolder `01` with its CSV and, next to it, the file `01_配置テキスト.csv`. -/
def clashFolder : Folder Nat where
  entries := [("01".toList, .dir (some 1)), ("01_配置テキスト.csv".toList, .file 2)]
  nodup := by decide

def clashTree : InputTree Nat := fun d => if d = .kozu then some clashFolder else none

/-- Both drivers give the two CSV files of this tree one output path. -/
theorem outPath_clash :
    ∃ x₁ ∈ sources clashTree, ∃ x₂ ∈ sources clashTree, x₁.1 ≠ x₂.1 ∧
      x₁.1.outPath .csvToGeopackage = x₂.1.outPath .csvToGeopackage ∧
      x₁.1.outPath .csvToGeoparquet = x₂.1.outPath .csvToGeoparquet :=
  ⟨(.sub "01".toList, 1), by decide, (.root .kozu "01_配置テキスト.csv".toList, 2), by decide,
    by decide, by decide, by decide⟩

end GdalFull.Convert
