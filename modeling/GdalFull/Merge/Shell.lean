import GdalFull.Merge.Python

/-!
# The shell merge drivers

`merge_gaiku_geopackage.sh`, `merge_toshi_geopackage.sh` and `merge_tochi_geopackage.sh`
share one loop. It differs from the Python loops in the flag: `first=false` stands after
the creating call, and a call that fails continues with the next file, so the creating
call is made again until one succeeds. `shellLoop_eq` reduces it to the lazy machine of
`GdalFull.Merge.Attempts`.
-/

namespace GdalFull.Merge

open Lib

variable {Src Out F : Type}

/-- One `.gpkg` of the input directory and the exit status of the call made for it. -/
structure ShellFile (Src : Type) where
  src : Src
  exit : Nat
  deriving DecidableEq

/-- What the three scripts set differently: the layer name and the reference systems. -/
structure ShellDriver where
  nln : String
  sSrs : Option Nat
  tSrs : Option Nat
  deriving DecidableEq

/-- `merge_gaiku_geopackage.sh`: its inputs are already in EPSG:3857. -/
def mergeGaikuGeopackage : ShellDriver := ⟨"gaiku_merged", none, none⟩

/-- `merge_toshi_geopackage.sh`: its inputs are already in EPSG:3857. -/
def mergeToshiGeopackage : ShellDriver := ⟨"toshi_merged", none, none⟩

/-- `merge_tochi_geopackage.sh`: one reference system for all files, `SRC_SRS`. -/
def mergeTochiGeopackage (srcSrs : Nat) : ShellDriver := ⟨"tochi_merged", some srcSrs, some 3857⟩

section Loop

variable (k : Sink (Reading Src) Out) (d : ShellDriver)

def ShellDriver.reading (f : ShellFile Src) : Reading Src := ⟨d.sSrs, d.tSrs, f.src⟩

/-- The body of the loop. -/
def shellFile (st : Progress Out) (f : ShellFile Src) : Progress Out :=
  if st.first then
    let call : MergeCall Src := ⟨false, d.nln, d.reading f⟩
    if f.exit = 0 then
      { first := false, merged := st.merged + 1, output := some (call.write k st.output) }
    else st
  else
    let call : MergeCall Src := ⟨true, d.nln, d.reading f⟩
    if f.exit = 0 then
      { st with merged := st.merged + 1, output := some (call.write k st.output) }
    else st

def shellLoop (prior : Option Out) (gpkgs : List (ShellFile Src)) : Progress Out :=
  gpkgs.foldl (shellFile k d) (.start prior)

/-- The exit status and the output file. `none` is a missing input directory. -/
def shellMain (prior : Option Out) : Option (List (ShellFile Src)) → Nat × Option Out
  | none => (1, prior)
  | some [] => (1, prior)
  | some gpkgs =>
    let st := shellLoop k d prior gpkgs
    (if st.merged = 0 then 1 else 0, st.output)

def ShellFile.attempt (f : ShellFile Src) : Attempt (Reading Src) :=
  ⟨d.reading f, f.exit == 0⟩

/-! ## Reduction to the lazy machine -/

theorem shellFile_eq (st : Progress Out) (f : ShellFile Src) :
    shellFile k d st f = st.attempt false k (f.attempt d) := by
  obtain ⟨first, merged, output⟩ := st
  by_cases hexit : f.exit = 0 <;> cases first <;>
    simp [shellFile, Progress.attempt, ShellFile.attempt, MergeCall.write, hexit]

theorem shellLoop_eq (prior : Option Out) (gpkgs : List (ShellFile Src)) :
    shellLoop k d prior gpkgs =
      (gpkgs.map (ShellFile.attempt d)).foldl (Progress.attempt false k) (.start prior) := by
  unfold shellLoop
  rw [List.foldl_map]
  congr 1
  funext st f
  exact shellFile_eq k d st f

end Loop

/-- The run of a shell driver that exits with 0 has merged some file. -/
theorem shellMain_zero {k : Sink (Reading Src) Out} {d : ShellDriver}
    {prior out : Option Out} {gpkgs : List (ShellFile Src)}
    (h : shellMain k d prior (some gpkgs) = (0, out)) :
    succeeded (gpkgs.map (ShellFile.attempt d)) ≠ [] ∧
      out = k.grow none (succeeded (gpkgs.map (ShellFile.attempt d))) := by
  cases gpkgs with
  | nil => simp [shellMain] at h
  | cons f gpkgs =>
    simp only [shellMain, shellLoop_eq, foldl_attempt_lazy, Prod.mk.injEq] at h
    obtain ⟨hzero, rfl⟩ := h
    have hne : succeeded ((f :: gpkgs).map (ShellFile.attempt d)) ≠ [] := by
      intro hnil
      rw [hnil] at hzero
      simp at hzero
    exact ⟨hne, by rw [if_neg hne]⟩

/-! ## The merged layer -/

/-- The files whose call succeeded. -/
def mergedFiles (gpkgs : List (ShellFile Src)) : List (ShellFile Src) :=
  gpkgs.filter fun f => f.exit == 0

theorem succeeded_attempts (d : ShellDriver) (gpkgs : List (ShellFile Src)) :
    succeeded (gpkgs.map (ShellFile.attempt d)) = (mergedFiles gpkgs).map d.reading := by
  rw [succeeded, List.filter_map, List.map_map]
  rfl

theorem mergedFiles_eq_nil_iff {gpkgs : List (ShellFile Src)} :
    mergedFiles gpkgs = [] ↔ ∀ f ∈ gpkgs, f.exit ≠ 0 := by
  simp [mergedFiles, List.filter_eq_nil_iff]

/-- The counter of the loop. -/
theorem shellLoop_merged (k : Sink (Reading Src) Out) (d : ShellDriver) (prior : Option Out)
    (gpkgs : List (ShellFile Src)) :
    (shellLoop k d prior gpkgs).merged = (mergedFiles gpkgs).length := by
  rw [shellLoop_eq, foldl_attempt_lazy, succeeded_attempts, List.length_map]

/-- A run over a list of files ends with 1 when the counter has stayed at 0. -/
theorem shellMain_status (k : Sink (Reading Src) Out) (d : ShellDriver) (prior : Option Out)
    (gpkgs : List (ShellFile Src)) :
    (shellMain k d prior (some gpkgs)).1 = if mergedFiles gpkgs = [] then 1 else 0 := by
  cases gpkgs with
  | nil => rfl
  | cons f gpkgs =>
    rw [shellMain]
    simp only [shellLoop_merged, List.length_eq_zero_iff]
    simp

/-- **The shell drivers merge.** For every list of files, every pattern of exit statuses and
every earlier output file: a run that exits with 0 leaves the features of the files whose call
succeeded, in order; the counter is their number; and the run exits with 1 exactly if every call
failed. -/
theorem shellMerge_layer (part : Reading Src → List F) (d : ShellDriver)
    (prior : Option (List F)) (gpkgs : List (ShellFile Src)) :
    ((shellMain (Sink.concat part) d prior (some gpkgs)).1 = 0 →
      (shellMain (Sink.concat part) d prior (some gpkgs)).2 =
        some ((mergedFiles gpkgs).flatMap fun f => part (d.reading f))) ∧
    (shellLoop (Sink.concat part) d prior gpkgs).merged = (mergedFiles gpkgs).length ∧
    ((shellMain (Sink.concat part) d prior (some gpkgs)).1 = 1 ↔ ∀ f ∈ gpkgs, f.exit ≠ 0) := by
  refine ⟨?_, shellLoop_merged _ d prior gpkgs, ?_⟩
  · intro hzero
    have hmain : shellMain (Sink.concat part) d prior (some gpkgs) =
        (0, (shellMain (Sink.concat part) d prior (some gpkgs)).2) := Prod.ext hzero rfl
    obtain ⟨hsome, hout⟩ := shellMain_zero hmain
    rw [hout, Sink.concat_grow part none hsome, succeeded_attempts, List.flatMap_map]
    rfl
  · rw [shellMain_status, ← mergedFiles_eq_nil_iff]
    by_cases hnil : mergedFiles gpkgs = [] <;> simp [hnil]

end GdalFull.Merge
