import GdalFull.Lib.PyStr
import Mathlib.Data.List.Infix
import Mathlib.Logic.Function.Basic
import Mathlib.Tactic.Common

/-!
# The check of the PMTiles driver

`check_pmtiles_write.sh` tries to write a tile set from a GeoPackage of one point. When that
GeoPackage cannot be made, it takes an existing one of the project, by assigning its path to
`MIN_GPKG`. The clean-up runs at the exit, in single quotes: it removes what the variables
name then.

`changed_iff` says which files other than its own the script changes: exactly the GeoPackage
that it fell back on, and it removes it.
-/

namespace GdalFull.Pipeline.CheckWrite

open GdalFull.Lib

variable {F : Type}

abbrev Path := Text

abbrev Files (F : Type) := Path → Option F

/-- How a command that writes a file ends: with the file, or with an error and whatever is then
at the path. -/
inductive WriteEnd (F : Type) where
  | ok (content : F)
  | failed (left : Option F)

def WriteEnd.at (e : WriteEnd F) (path : Path) (fs : Files F) : Files F :=
  match e with
  | .ok content => Function.update fs path (some content)
  | .failed left => Function.update fs path left

def WriteEnd.isOk : WriteEnd F → Bool
  | .ok _ => true
  | .failed _ => false

/-- A run: the directory for temporary files and the process number, what
`ogrinfo --formats` prints, how the GeoJSON and the minimal GeoPackage get written, what `find`
lists, and what the call for the tile set leaves and prints. -/
structure CheckRun (F : Type) where
  tmpDir : Path
  pid : Text
  formats : Text
  geojson : WriteEnd F
  minimal : WriteEnd F
  found : List Path
  tiles : Option F → Option F
  err : Text

namespace CheckRun

variable (r : CheckRun F)

def minGpkg : Path := r.tmpDir ++ "/check_pmtiles_minimal_".toList ++ r.pid ++ ".gpkg".toList

def outPmtiles : Path := r.tmpDir ++ "/check_pmtiles_out_".toList ++ r.pid ++ ".pmtiles".toList

def minGeojson : Path := r.tmpDir ++ "/check_pmtiles_minimal_".toList ++ r.pid ++ ".geojson".toList

/-- The files that are the script's own. -/
def own : List Path := [r.minGpkg, r.outPmtiles, r.minGeojson]

/-- `ogrinfo --formats | grep -q "PMTiles"`. -/
def registered : Bool := "PMTiles".toList <:+: r.formats

/-- `$(find ... | head -1)`. -/
def existing : Path := (r.found.flatMap (· ++ ['\n'])).takeWhile (· ≠ '\n')

end CheckRun

/-- `rm -f` of the paths. -/
def remove (paths : List Path) (fs : Files F) : Files F :=
  fun p => if paths.contains p then none else fs p

/-- The exit status from the last part on, and the files before the clean-up. -/
def writeTiles (r : CheckRun F) (fs : Files F) : Nat × Files F :=
  let fs := Function.update fs r.outPmtiles (r.tiles (fs r.outPmtiles))
  if "does not support data source creation".toList <:+: r.err then (1, fs)
  else if (fs r.outPmtiles).isSome then (0, fs)
  else (2, fs)

/-- `check_pmtiles_write.sh`: the exit status and the files after the clean-up at the exit. -/
def checkPmtilesWrite (r : CheckRun F) (fs : Files F) : Nat × Files F :=
  if r.registered = false then (1, fs)
  else
    let fs := r.geojson.at r.minGeojson fs
    -- `set -e`, with the clean-up as it was set first
    if r.geojson.isOk = false then (1, remove [r.minGpkg, r.outPmtiles] fs)
    else
      let fs := r.minimal.at r.minGpkg fs
      if r.minimal.isOk then
        let (code, fs) := writeTiles r fs
        (code, remove r.own fs)
      else if r.existing = [] ∨ fs r.existing = none then
        (2, remove r.own fs)
      else
        -- `MIN_GPKG="$EXISTING"`
        let (code, fs) := writeTiles r fs
        (code, remove [r.existing, r.outPmtiles, r.minGeojson] fs)

/-! ## What a run changes -/

theorem WriteEnd.at_of_ne {path p : Path} (h : p ≠ path) (e : WriteEnd F) (fs : Files F) :
    e.at path fs p = fs p := by
  cases e <;> exact Function.update_of_ne h _ fs

theorem remove_of_notMem {paths : List Path} {p : Path} (h : p ∉ paths) (fs : Files F) :
    remove paths fs p = fs p := by
  simp [remove, h]

theorem remove_of_mem {paths : List Path} {p : Path} (h : p ∈ paths) (fs : Files F) :
    remove paths fs p = none := by
  simp [remove, h]

theorem writeTiles_of_ne {r : CheckRun F} {p : Path} (h : p ≠ r.outPmtiles) (fs : Files F) :
    (writeTiles r fs).2 p = fs p := by
  have hfs := Function.update_of_ne h (r.tiles (fs r.outPmtiles)) fs
  unfold writeTiles
  dsimp only
  split
  · exact hfs
  · split <;> exact hfs

/-- The GeoPackage of the project that the script takes for its own. -/
def FallsBackOn (r : CheckRun F) (p : Path) : Prop :=
  r.registered = true ∧ r.geojson.isOk = true ∧ r.minimal.isOk = false ∧ r.existing = p ∧ p ≠ []

/-- A file that is not the script's own: it is removed if the script falls back on it, and
nothing else happens to it. -/
theorem check_other {r : CheckRun F} {p : Path} (hp : p ∉ r.own) (fs : Files F) :
    (FallsBackOn r p → (checkPmtilesWrite r fs).2 p = none) ∧
      (¬ FallsBackOn r p → (checkPmtilesWrite r fs).2 p = fs p) := by
  have hgpkg : p ≠ r.minGpkg := fun h => hp (h ▸ by simp [CheckRun.own])
  have hout : p ≠ r.outPmtiles := fun h => hp (h ▸ by simp [CheckRun.own])
  have hjson : p ≠ r.minGeojson := fun h => hp (h ▸ by simp [CheckRun.own])
  have hbefore : ∀ fs : Files F, r.minimal.at r.minGpkg (r.geojson.at r.minGeojson fs) p = fs p :=
    fun fs => (WriteEnd.at_of_ne hgpkg _ _).trans (WriteEnd.at_of_ne hjson _ _)
  unfold checkPmtilesWrite FallsBackOn
  cases hreg : r.registered with
  | false => simp
  | true =>
    cases hgeo : r.geojson.isOk with
    | false => simp [remove, hgpkg, hout, WriteEnd.at_of_ne hjson]
    | true =>
      cases hmin : r.minimal.isOk with
      | true => simp [remove_of_notMem hp, writeTiles_of_ne hout, hbefore]
      | false =>
        simp only [Bool.true_eq_false, Bool.false_eq_true, if_false, true_and]
        split
        · -- no GeoPackage is found, so a path that is meant is not there
          rename_i hnone
          dsimp only
          rw [remove_of_notMem hp, hbefore]
          refine ⟨fun ⟨heq, hne⟩ => ?_, fun _ => rfl⟩
          subst heq
          rcases hnone with hnil | habsent
          · exact absurd hnil hne
          · rwa [hbefore] at habsent
        · rename_i hsome
          refine ⟨fun ⟨heq, _⟩ => remove_of_mem (by simp [heq]) _, fun hnot => ?_⟩
          have hother : p ≠ r.existing := by
            rintro rfl
            exact hnot ⟨rfl, fun hnil => hsome (Or.inl hnil)⟩
          have hnotMem : p ∉ [r.existing, r.outPmtiles, r.minGeojson] := by
            simp [hother, hout, hjson]
          dsimp only
          rw [remove_of_notMem hnotMem, writeTiles_of_ne hout, hbefore]

/-- **What the check changes.** A file that is not the script's own is changed exactly if it is
there and is the GeoPackage that the script falls back on; it is then gone. -/
theorem changed_iff (r : CheckRun F) (fs : Files F) (p : Path) (hp : p ∉ r.own) :
    ((checkPmtilesWrite r fs).2 p ≠ fs p ↔ FallsBackOn r p ∧ (fs p).isSome = true) ∧
      (FallsBackOn r p → (checkPmtilesWrite r fs).2 p = none) := by
  obtain ⟨hback, hkept⟩ := check_other hp fs
  refine ⟨?_, hback⟩
  by_cases h : FallsBackOn r p
  · rw [hback h]
    cases fs p <;> simp [h]
  · simp [hkept h, h]

/-- A run that cannot make its own GeoPackage, in a project with one. -/
def fallbackRun : CheckRun Nat where
  tmpDir := "/tmp".toList
  pid := "7".toList
  formats := "PMTiles -vector- (rw+v)".toList
  geojson := .ok 0
  minimal := .failed none
  found := ["/p/merged.gpkg".toList]
  tiles := fun _ => some 1
  err := []

/-- The check says that tile sets can be written, and the merged GeoPackage is gone. -/
theorem changed_merged :
    let fs : Files Nat := fun p => if p = "/p/merged.gpkg".toList then some 5 else none
    (checkPmtilesWrite fallbackRun fs).1 = 0 ∧
      (checkPmtilesWrite fallbackRun fs).2 "/p/merged.gpkg".toList ≠
        fs "/p/merged.gpkg".toList := by
  intro fs
  have hback : FallsBackOn fallbackRun "/p/merged.gpkg".toList := by
    refine ⟨by decide, rfl, rfl, by decide, by decide⟩
  exact ⟨by decide, (changed_iff fallbackRun fs _ (by decide)).1.mpr ⟨hback, by decide⟩⟩

end GdalFull.Pipeline.CheckWrite
