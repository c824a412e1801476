import GdalFull.Convert.Blocks
import GdalFull.Lib.Interleave
import GdalFull.Pipeline.Pmtiles
import Mathlib.Data.Set.Insert

/-!
# Two runs of the single-file script at the same time

`single_csv_to_pmtiles.sh` writes its temporary CSV to `csv_single_<BASE>.csv`, without the
process number that the batch scripts have in their paths, and goes on to
`gpkg_to_pmtiles.sh`. The commands of both scripts are the steps here: each looks at files and
at the variables of its process, and writes one file. Two processes run at the same time if
their commands come in any order that keeps the order within each.

`serializable_iff`: whatever the two CSV files hold and however the calls end, every such order
ends with the files and the exit statuses of one run after the other, exactly if the two names
have different bases. With one base, a GeoPackage can be made from the records of one file in
the reference system of the other, and reported as a success (`mixed_run`).
-/

namespace GdalFull.Pipeline.Single

open GdalFull.Convert (basename cmdSubst csvSuffix OgrCall Record WriteEnd tochiScript tailOne
  zoneNumber selectColumns)
open GdalFull.Lib
open GdalFull.Pipeline.Pmtiles (Blob GpkgRun)

/-- The variables of a process: `ZONE`, `X_Y_OO`, and the exit status once it has ended. -/
structure Proc where
  zone : Option Nat
  columns : Option (Text × Text)
  ended : Option Nat
  deriving DecidableEq

/-- What the processes share, and the variables of each. The temporary CSV files are kept
apart from the files that `ogr2ogr` writes; their paths end differently. -/
inductive Cell where
  | tmp (path : Convert.Name)
  | file (path : Convert.Name)
  | proc (n : Nat)
  deriving DecidableEq

abbrev Cell.Value : Cell → Type
  | .tmp _ => Option Bytes
  | .file _ => Option (Blob OgrCall)
  | .proc _ => Proc

abbrev World := (c : Cell) → c.Value

/-- A run of the script: the name of its CSV file, the records that are read, and how the
writing of the temporary CSV and the calls of `ogr2ogr` end. -/
structure Job where
  csv : Convert.Name
  rows : Option (List Record)
  write : WriteEnd
  gpkg : Pmtiles.CallEnd
  direct : Pmtiles.CallEnd
  parquet : Pmtiles.CallEnd
  fromParquet : Pmtiles.CallEnd

/-- `BASE=$(basename "$CSV" .csv)`. -/
def baseOf (csv : Convert.Name) : Convert.Name := cmdSubst (basename csv csvSuffix)

def outDir : Convert.Name := "データ_geopackage_marged".toList

namespace Job

variable (j : Job)

def base : Convert.Name := baseOf j.csv

/-- `TMP_CSV`, in the default `TMPDIR`. -/
def tmpCsv : Convert.Name := "/tmp/csv_single_".toList ++ j.base ++ csvSuffix

def gpkgName : Convert.Name := j.base ++ ".gpkg".toList

def gpkgPath : Convert.Name := outDir ++ '/' :: j.gpkgName

/-- `gpkg_to_pmtiles.sh "$GPKG"`. -/
def tilesRun : GpkgRun OgrCall where
  dir := outDir
  name := j.gpkgName
  gpkg := none
  direct := j.direct
  parquet := j.parquet
  fromParquet := j.fromParquet

end Job

/-! ## The commands -/

section Commands

variable (n : Nat) (j : Job)

/-- A command of a process that has not ended. -/
def live (command : Proc → World → World) (w : World) : World :=
  if (w (.proc n)).ended.isSome then w else command (w (.proc n)) w

def exit (status : Nat) (p : Proc) (w : World) : World :=
  Function.update w (.proc n) { p with ended := some status }

/-- What a call of `ogr2ogr` leaves at its output path. -/
def leaveAt (e : Pmtiles.CallEnd) (path : Convert.Name) (result : Blob OgrCall) (w : World) :
    World :=
  Function.update w (.file path) (e.leave result (w (.file path)))

/-- A call of `ogr2ogr` from one file to another. Without its source it writes nothing. -/
def ogr2ogr (e : Pmtiles.CallEnd) (src dst : Convert.Name) (w : World) : World :=
  match w (.file src) with
  | none => w
  | some b => leaveAt e dst { b with run := some n } w

/-- `ZONE=$(python3 ... | tail -1)` and its test. -/
def preprocess (w : World) : World :=
  let e := tochiScript true (w (.tmp j.tmpCsv)) j.rows j.write
  let zone := zoneNumber (cmdSubst (tailOne e.stdout))
  let w := Function.update w (.tmp j.tmpCsv) e.tmp
  Function.update w (.proc n) ⟨zone, none, if zone.isNone then some 1 else none⟩

/-- `if head -1 "$TMP_CSV" | grep -q "X座標"`. -/
def selectStep : World → World :=
  live n fun p w => Function.update w (.proc n)
    { p with columns := some (selectColumns ((w (.tmp j.tmpCsv)).getD [])) }

/-- `ogr2ogr -f GPKG ... "$GPKG" "$TMP_CSV"`; `set -e` ends the script when it fails. -/
def convertStep : World → World :=
  live n fun p w =>
    match w (.tmp j.tmpCsv) with
    | none => exit n 1 p w
    | some bytes =>
      let call : OgrCall := ⟨j.gpkgPath, p.zone.map (6668 + ·), p.columns, some bytes⟩
      let left := leaveAt j.gpkg j.gpkgPath ⟨some n, [call], true⟩ w
      if j.gpkg = .ok then left else exit n 1 p left

/-- `rm -f "$TMP_CSV"`. -/
def removeTmp : World → World :=
  live n fun _ w => Function.update w (.tmp j.tmpCsv) none

/-- `[[ ! -f "$GPKG" ]]` of `gpkg_to_pmtiles.sh`. -/
def findGpkg : World → World :=
  live n fun p w => if (w (.file j.gpkgPath)).isSome then w else exit n 1 p w

def directStep : World → World :=
  live n fun _ w => ogr2ogr n j.direct j.gpkgPath j.tilesRun.outPmtiles w

/-- `if [[ -f "$OUT_PMTILES" ]]; then exit 0; fi`. -/
def directFound : World → World :=
  live n fun p w => if (w (.file j.tilesRun.outPmtiles)).isSome then exit n 0 p w else w

/-- The call that writes the GeoParquet, and the tests of its exit status and of the file. -/
def parquetStep : World → World :=
  live n fun p w =>
    if (w (.file j.gpkgPath)).isSome ∧ j.parquet = .ok then
      ogr2ogr n j.parquet j.gpkgPath j.tilesRun.outParquet w
    else exit n 1 p (ogr2ogr n j.parquet j.gpkgPath j.tilesRun.outParquet w)

def fromParquetStep : World → World :=
  live n fun _ w => ogr2ogr n j.fromParquet j.tilesRun.outParquet j.tilesRun.outPmtiles w

/-- `if [[ -f "$OUT_PMTILES" ]]; then rm -f "$OUT_PARQUET"; exit 0; fi`, and `exit 1`. -/
def finish : World → World :=
  live n fun p w =>
    if (w (.file j.tilesRun.outPmtiles)).isSome then
      exit n 0 p (Function.update w (.file j.tilesRun.outParquet) none)
    else exit n 1 p w

/-- The commands of a run, by process `n`. -/
def commands : List (World → World) :=
  [preprocess n j, selectStep n j, convertStep n j, removeTmp n j, findGpkg n j, directStep n j,
    directFound n j, parquetStep n j, fromParquetStep n j, finish n j]

end Commands

/-! ## The cells of a run -/

/-- The files that a run reads and writes, and its variables. -/
def cells (n : Nat) (j : Job) : Set Cell :=
  {.tmp j.tmpCsv, .file j.gpkgPath, .file j.tilesRun.outPmtiles, .file j.tilesRun.outParquet,
    .proc n}

section Locality

variable (n : Nat) (j : Job)

theorem proc_mem : Cell.proc n ∈ cells n j := by simp [cells]

theorem tmp_mem : Cell.tmp j.tmpCsv ∈ cells n j := by simp [cells]

theorem gpkg_mem : Cell.file j.gpkgPath ∈ cells n j := by simp [cells]

theorem pmtiles_mem : Cell.file j.tilesRun.outPmtiles ∈ cells n j := by simp [cells]

theorem parquet_mem : Cell.file j.tilesRun.outParquet ∈ cells n j := by simp [cells]

variable {n j}

theorem live_local {command : Proc → World → World}
    (h : ∀ p, Local (cells n j) (command p)) : Local (cells n j) (live n command) := by
  refine Local.read (V := Cell.Value) (proc_mem n j)
    (f := fun p w => if p.ended.isSome then w else command p w) ?_
  intro p
  split
  · exact .skip
  · exact h p

theorem exit_local (status : Nat) (p : Proc) : Local (cells n j) (exit n status p) :=
  .write (proc_mem n j) _

theorem leaveAt_local (e : Pmtiles.CallEnd) {path : Convert.Name}
    (hpath : Cell.file path ∈ cells n j) (result : Blob OgrCall) :
    Local (cells n j) (leaveAt e path result) :=
  Local.read (V := Cell.Value) hpath
    (f := fun old w => Function.update w (.file path) (e.leave result old)) fun _ => .write hpath _

theorem ogr2ogr_local (e : Pmtiles.CallEnd) {src dst : Convert.Name}
    (hsrc : Cell.file src ∈ cells n j) (hdst : Cell.file dst ∈ cells n j) :
    Local (cells n j) (ogr2ogr n e src dst) := by
  refine Local.read (V := Cell.Value) hsrc (f := fun found w => match found with
    | none => w
    | some b => leaveAt e dst { b with run := some n } w) ?_
  intro found
  cases found with
  | none => exact .skip
  | some b => exact leaveAt_local e hdst _

/-- A test of a file, `[[ -f ... ]]`. -/
theorem test_local {path : Convert.Name} (hpath : Cell.file path ∈ cells n j)
    {f g : World → World} (hf : Local (cells n j) f) (hg : Local (cells n j) g) :
    Local (cells n j) fun w => if (w (.file path)).isSome then f w else g w := by
  refine Local.read (V := Cell.Value) hpath
    (f := fun found w => if found.isSome then f w else g w) ?_
  intro found
  split
  · exact hf
  · exact hg

theorem preprocess_local : Local (cells n j) (preprocess n j) := by
  refine Local.read (V := Cell.Value) (tmp_mem n j) (f := fun prior w =>
    let e := tochiScript true prior j.rows j.write
    let zone := zoneNumber (cmdSubst (tailOne e.stdout))
    Function.update (Function.update w (.tmp j.tmpCsv) e.tmp) (.proc n)
      ⟨zone, none, if zone.isNone then some 1 else none⟩) ?_
  intro prior
  exact (Local.write (tmp_mem n j) _).comp (Local.write (proc_mem n j) _)

theorem selectStep_local : Local (cells n j) (selectStep n j) := by
  apply live_local
  intro p
  exact Local.read (V := Cell.Value) (tmp_mem n j) (f := fun found w =>
    Function.update w (.proc n) { p with columns := some (selectColumns (found.getD [])) })
    fun _ => .write (proc_mem n j) _

theorem convertStep_local : Local (cells n j) (convertStep n j) := by
  apply live_local
  intro p
  refine Local.read (V := Cell.Value) (tmp_mem n j) (f := fun found w => match found with
    | none => exit n 1 p w
    | some bytes =>
      let call : OgrCall := ⟨j.gpkgPath, p.zone.map (6668 + ·), p.columns, some bytes⟩
      let left := leaveAt j.gpkg j.gpkgPath ⟨some n, [call], true⟩ w
      if j.gpkg = .ok then left else exit n 1 p left) ?_
  intro found
  cases found with
  | none => exact exit_local 1 p
  | some bytes =>
    have hleave := fun result => leaveAt_local j.gpkg (gpkg_mem n j) result
    by_cases hok : j.gpkg = .ok
    · simp only [if_pos hok]
      exact hleave _
    · simp only [if_neg hok]
      exact (hleave _).comp (exit_local 1 p)

theorem parquetStep_local : Local (cells n j) (parquetStep n j) := by
  apply live_local
  intro p
  have hcall := ogr2ogr_local j.parquet (gpkg_mem n j) (parquet_mem n j)
  refine Local.read (V := Cell.Value) (gpkg_mem n j) (f := fun found w =>
    if found.isSome ∧ j.parquet = .ok then
      ogr2ogr n j.parquet j.gpkgPath j.tilesRun.outParquet w
    else exit n 1 p (ogr2ogr n j.parquet j.gpkgPath j.tilesRun.outParquet w)) ?_
  intro found
  split
  · exact hcall
  · exact hcall.comp (exit_local 1 p)

theorem finish_local : Local (cells n j) (finish n j) := by
  apply live_local
  intro p
  exact test_local (pmtiles_mem n j) ((Local.write (parquet_mem n j) none).comp (exit_local 0 p))
    (exit_local 1 p)

/-- Every command of a run keeps to the cells of the run. -/
theorem commands_local : ∀ c ∈ commands n j, Local (cells n j) c := by
  have hremove : Local (cells n j) (removeTmp n j) :=
    live_local fun _ => Local.write (V := Cell.Value) (tmp_mem n j) none
  have hfind : Local (cells n j) (findGpkg n j) :=
    live_local fun p => test_local (gpkg_mem n j) .skip (exit_local 1 p)
  have hdirect : Local (cells n j) (directStep n j) :=
    live_local fun _ => ogr2ogr_local j.direct (gpkg_mem n j) (pmtiles_mem n j)
  have hfound : Local (cells n j) (directFound n j) :=
    live_local fun p => test_local (pmtiles_mem n j) (exit_local 0 p) .skip
  have hfrom : Local (cells n j) (fromParquetStep n j) :=
    live_local fun _ => ogr2ogr_local j.fromParquet (parquet_mem n j) (pmtiles_mem n j)
  simp only [commands, List.forall_mem_cons, List.not_mem_nil, false_implies, implies_true,
    and_true]
  exact ⟨preprocess_local, selectStep_local, convertStep_local, hremove, hfind, hdirect, hfound,
    parquetStep_local, hfrom, finish_local⟩

end Locality

/-! ## Paths of different bases -/

theorem cmdSubst_idem (out : Convert.Name) : cmdSubst (cmdSubst out) = cmdSubst out :=
  List.rdropWhile_idempotent _ out

/-- `gpkg_to_pmtiles.sh` finds the base again, unless it is empty. -/
theorem tilesRun_base {j : Job} (h : j.base ≠ []) : j.tilesRun.base = j.base := by
  have hstrip : basename j.gpkgName ".gpkg".toList = j.base := by
    have hsuffix : ".gpkg".toList.isSuffixOf j.gpkgName = true :=
      List.isSuffixOf_iff_suffix.mpr (List.suffix_append _ _)
    have hne : j.gpkgName ≠ ".gpkg".toList := by
      intro heq
      exact h (List.append_left_eq_self.mp heq)
    rw [basename, hsuffix, bne_iff_ne.mpr hne, Bool.and_self, if_pos rfl, Job.gpkgName,
      List.length_append, Nat.add_sub_cancel, List.take_left]
  rw [GpkgRun.base, Job.tilesRun, hstrip]
  exact cmdSubst_idem _

/-- The ends of the names of the files that `ogr2ogr` writes. -/
def outExts : List Convert.Name := [".gpkg".toList, ".pmtiles".toList, ".parquet".toList]

theorem append_ext_inj {x y e e' : Convert.Name} (he : e ∈ outExts) (he' : e' ∈ outExts)
    (h : x ++ e = y ++ e') : x = y ∧ e = e' := by
  have hne : ∀ e ∈ outExts, e ≠ [] := by decide
  have hinj : ∀ e ∈ outExts, ∀ e' ∈ outExts, e.getLast? = e'.getLast? → e = e' := by decide
  have hlast := congrArg List.getLast? h
  rw [List.getLast?_append_of_ne_nil x (hne e he), List.getLast?_append_of_ne_nil y (hne e' he')]
    at hlast
  obtain rfl := hinj e he e' he' hlast
  exact ⟨List.append_cancel_right h, rfl⟩

/-- The files of a run are named after its base. -/
theorem file_of_mem_cells {n : Nat} {j : Job} (hbase : j.base ≠ []) {path : Convert.Name}
    (h : Cell.file path ∈ cells n j) : ∃ e ∈ outExts, path = outDir ++ '/' :: (j.base ++ e) := by
  have hrun := tilesRun_base hbase
  simp only [cells, Set.mem_insert_iff, Set.mem_singleton_iff, reduceCtorEq, Cell.file.injEq,
    false_or, or_false] at h
  rcases h with rfl | rfl | rfl
  · exact ⟨".gpkg".toList, by decide, rfl⟩
  · exact ⟨".pmtiles".toList, by decide, by rw [GpkgRun.outPmtiles, hrun]; rfl⟩
  · exact ⟨".parquet".toList, by decide, by rw [GpkgRun.outParquet, hrun]; rfl⟩

/-- Runs whose names have different bases have no cell in common. -/
theorem cells_disjoint {n m : Nat} (hnm : n ≠ m) {a b : Job} (ha : a.base ≠ []) (hb : b.base ≠ [])
    (hab : a.base ≠ b.base) : Disjoint (cells n a) (cells m b) := by
  rw [Set.disjoint_left]
  intro c hca hcb
  cases c with
  | tmp path =>
    have hpa : path = a.tmpCsv := by simpa [cells] using hca
    have hpb : path = b.tmpCsv := by simpa [cells] using hcb
    exact hab (List.append_cancel_left (List.append_cancel_right (hpa.symm.trans hpb)))
  | file path =>
    obtain ⟨e, he, rfl⟩ := file_of_mem_cells ha hca
    obtain ⟨e', he', hpath⟩ := file_of_mem_cells hb hcb
    rw [List.append_cancel_left_eq, List.cons.injEq] at hpath
    exact hab (append_ext_inj he he' hpath.2).1
  | proc k =>
    have hka : k = n := by simpa [cells] using hca
    have hkb : k = m := by simpa [cells] using hcb
    exact hnm (hka.symm.trans hkb)

/-! ## One base -/

theorem outPmtiles_ne_gpkgPath (j : Job) : j.tilesRun.outPmtiles ≠ j.gpkgPath := by
  intro h
  rw [GpkgRun.outPmtiles, Job.gpkgPath, Job.tilesRun, List.append_cancel_left_eq,
    List.cons.injEq] at h
  exact absurd (append_ext_inj (by decide) (by decide) h.2).2 (by decide)

/-- What follows the preprocessor. -/
def remaining (n : Nat) (j : Job) : List (World → World) := (commands n j).tail

/-- A run without failures. -/
def smooth (csv : Convert.Name) (rows : List Record) : Job :=
  ⟨csv, some rows, .done, .ok, .ok, .ok, .ok⟩

theorem commands_eq (n : Nat) (j : Job) : commands n j = preprocess n j :: remaining n j := rfl

theorem remaining_local {n : Nat} {j : Job} : ∀ c ∈ remaining n j, Local (cells n j) c :=
  fun c hc => commands_local c (List.mem_cons_of_mem _ hc)

/-- A process that has its zone converts what is then in its temporary CSV, and removes it. -/
theorem remaining_converts {n : Nat} {j : Job} (hgpkg : j.gpkg = .ok) (hdirect : j.direct = .ok)
    {w : World} {zone : Nat} {bytes : Bytes} (hproc : w (.proc n) = ⟨some zone, none, none⟩)
    (htmp : w (.tmp j.tmpCsv) = some bytes) :
    runSteps (remaining n j) w (.file j.gpkgPath) =
        some ⟨some n, [⟨j.gpkgPath, some (6668 + zone), some (selectColumns bytes), some bytes⟩],
          true⟩ ∧
      runSteps (remaining n j) w (.tmp j.tmpCsv) = none ∧
      (runSteps (remaining n j) w (.proc n)).ended = some 0 := by
  have hpath : j.gpkgPath ≠ j.tilesRun.outPmtiles := (outPmtiles_ne_gpkgPath j).symm
  simp [remaining, commands, selectStep, convertStep, removeTmp, findGpkg, directStep,
    directFound, parquetStep, fromParquetStep, finish, live, exit, ogr2ogr, leaveAt, hproc, htmp,
    hgpkg, hdirect, hpath, Pmtiles.CallEnd.leave]

/-- A process that finds no temporary CSV ends there. -/
theorem remaining_stops {n : Nat} {j : Job} {w : World} {p : Proc} (hproc : w (.proc n) = p)
    (hlive : p.ended = none) (htmp : w (.tmp j.tmpCsv) = none) (path : Convert.Name) :
    runSteps (remaining n j) w (.file path) = w (.file path) := by
  simp [remaining, commands, selectStep, convertStep, removeTmp, findGpkg, directStep,
    directFound, parquetStep, fromParquetStep, finish, live, exit, hproc, hlive, htmp]

/-- Records of zone 9, and of zone 10. -/
def nineRows : List Record := [Convert.gaikuHeader, Convert.gaikuRow "1" "2"]

def tenRows : List Record := List.replicate 2 (["", "", "", "", "", "10"].map String.toList)

def nineCsv : Bytes :=
  utf8Encode (csvWrite [Convert.gaikuHeader.map Convert.swapLabel, Convert.gaikuRow "1" "2"])

def tenCsv : Bytes := utf8Encode (csvWrite (Convert.tochiHeader 6 :: tenRows))

theorem nineCsv_ne_tenCsv : nineCsv ≠ tenCsv := by decide

/-- The preprocessor has written the temporary CSV, and the zone is known. -/
theorem preprocess_smooth {rows out : List Record} {z : Int} (hz : 1 ≤ z ∧ z ≤ 19)
    (hrows : Convert.tochiPre rows = some (some z, out)) (n : Nat) (csv : Convert.Name)
    (w : World) :
    preprocess n (smooth csv rows) w (.proc n) = ⟨some z.toNat, none, none⟩ ∧
      preprocess n (smooth csv rows) w (.tmp (smooth csv rows).tmpCsv) =
        some (utf8Encode (csvWrite out)) := by
  have hscript : ∀ prior, tochiScript true prior (smooth csv rows).rows (smooth csv rows).write =
      ⟨0, Convert.zoneLine (some z), some (utf8Encode (csvWrite out))⟩ := by
    intro prior
    rw [smooth, tochiScript, Option.bind_some, hrows]
    rfl
  simp [preprocess, hscript, Convert.zoneNumber_zoneLine hz]

theorem preprocess_nine (n : Nat) (csv : Convert.Name) (w : World) :
    preprocess n (smooth csv nineRows) w (.proc n) = ⟨some 9, none, none⟩ ∧
      preprocess n (smooth csv nineRows) w (.tmp (smooth csv nineRows).tmpCsv) = some nineCsv :=
  preprocess_smooth (z := 9) (by decide) (by decide) n csv w

theorem preprocess_ten (n : Nat) (csv : Convert.Name) (w : World) :
    preprocess n (smooth csv tenRows) w (.proc n) = ⟨some 10, none, none⟩ ∧
      preprocess n (smooth csv tenRows) w (.tmp (smooth csv tenRows).tmpCsv) = some tenCsv :=
  preprocess_smooth (z := 10) (by decide) (by decide) n csv w

theorem tmpCsv_eq {a b : Job} (h : a.base = b.base) : a.tmpCsv = b.tmpCsv := by
  unfold Job.tmpCsv
  rw [h]

theorem gpkgPath_eq {a b : Job} (h : a.base = b.base) : a.gpkgPath = b.gpkgPath := by
  unfold Job.gpkgPath Job.gpkgName
  rw [h]

/-- An order of the commands: both processes write the temporary CSV, then the first goes on to
its end, then the second. -/
def mixed (a b : Job) : List (World → World) :=
  preprocess 0 a :: preprocess 1 b :: (remaining 0 a ++ remaining 1 b)

theorem mixed_interleaved (a b : Job) : Interleaved (commands 0 a) (commands 1 b) (mixed a b) :=
  .left (.right (.append _ _))

/-- With one base, the first process reports success with a GeoPackage that has the records of
the second file in the reference system of the first. -/
theorem mixed_run {a b : Convert.Name} (h : baseOf a = baseOf b) (w : World) :
    let j := smooth a nineRows
    let mixture : OgrCall := ⟨j.gpkgPath, some 6677, some (selectColumns tenCsv), some tenCsv⟩
    runSteps (mixed j (smooth b tenRows)) w (.file j.gpkgPath) =
        some ⟨some 0, [mixture], true⟩ ∧
      (runSteps (mixed j (smooth b tenRows)) w (.proc 0)).ended = some 0 := by
  intro j mixture
  have htmp : (smooth b tenRows).tmpCsv = j.tmpCsv := tmpCsv_eq h.symm
  have hfirst : Cell.proc 0 ∉ cells 1 (smooth b tenRows) := by simp [cells]
  have hsecond : Cell.proc 1 ∉ cells 0 j := by simp [cells]
  obtain ⟨w₁, hw₁⟩ : ∃ w₁, preprocess 0 j w = w₁ := ⟨_, rfl⟩
  obtain ⟨w₂, hw₂⟩ : ∃ w₂, preprocess 1 (smooth b tenRows) w₁ = w₂ := ⟨_, rfl⟩
  obtain ⟨w₃, hw₃⟩ : ∃ w₃, runSteps (remaining 0 j) w₂ = w₃ := ⟨_, rfl⟩
  have hrun : runSteps (mixed j (smooth b tenRows)) w =
      runSteps (remaining 1 (smooth b tenRows)) w₃ := by
    rw [mixed, runSteps_cons, runSteps_cons, runSteps_append, hw₁, hw₂, hw₃]
  -- the second preprocessor has replaced the temporary CSV, the first process has its zone
  obtain ⟨hzone₂, hbytes⟩ := preprocess_ten 1 b w₁
  rw [hw₂] at hzone₂ hbytes
  rw [htmp] at hbytes
  have hzone₁ : w₂ (.proc 0) = ⟨some 9, none, none⟩ := by
    rw [← hw₂, preprocess_local.frame w₁ _ hfirst, ← hw₁]
    exact (preprocess_nine 0 a w).1
  obtain ⟨hfile, hgone, hended⟩ := remaining_converts (j := j) rfl rfl hzone₁ hbytes
  rw [hw₃] at hfile hgone hended
  have hzone₃ : w₃ (.proc 1) = ⟨some 10, none, none⟩ := by
    rw [← hw₃, Local.run_frame remaining_local w₂ hsecond]
    exact hzone₂
  rw [← htmp] at hgone
  rw [hrun]
  refine ⟨?_, ?_⟩
  · rw [remaining_stops hzone₃ rfl hgone]
    exact hfile
  · rw [Local.run_frame remaining_local w₃ hfirst]
    exact hended

/-- The runs of a sequence of two jobs end with the GeoPackage of the second. -/
theorem second_run {n : Nat} {j : Job} (hgpkg : j.gpkg = .ok) (hdirect : j.direct = .ok)
    {zone : Nat} {bytes : Bytes}
    (hpre : ∀ w, preprocess n j w (.proc n) = ⟨some zone, none, none⟩ ∧
      preprocess n j w (.tmp j.tmpCsv) = some bytes) (xs : List (World → World)) (w : World) :
    runSteps (xs ++ commands n j) w (.file j.gpkgPath) =
      some ⟨some n, [⟨j.gpkgPath, some (6668 + zone), some (selectColumns bytes), some bytes⟩],
        true⟩ := by
  rw [runSteps_append, commands_eq, runSteps_cons]
  have hzone := hpre (runSteps xs w)
  exact (remaining_converts hgpkg hdirect hzone.1 hzone.2).1

/-- **Two runs at the same time.** Every order of the commands of two runs ends like one run
after the other, whatever the files hold and however the calls end, exactly if the names of the
CSV files have different bases. -/
theorem serializable_iff (a b : Convert.Name) (ha : baseOf a ≠ []) (hb : baseOf b ≠ []) :
    (∀ ja jb : Job, ja.csv = a → jb.csv = b → ∀ order,
      Interleaved (commands 0 ja) (commands 1 jb) order → ∀ w,
        runSteps order w = runSteps (commands 0 ja ++ commands 1 jb) w ∨
        runSteps order w = runSteps (commands 1 jb ++ commands 0 ja) w) ↔
      baseOf a ≠ baseOf b := by
  constructor
  · intro hserial hbase
    let ja := smooth a nineRows
    let jb := smooth b tenRows
    let w : World := fun
      | .tmp _ => none
      | .file _ => none
      | .proc _ => ⟨none, none, none⟩
    have hmix := (mixed_run hbase w).1
    have hpath : jb.gpkgPath = ja.gpkgPath := gpkgPath_eq hbase.symm
    rcases hserial ja jb rfl rfl _ (mixed_interleaved ja jb) w with hab | hba
    · -- the run number tells that the second run did not write the file
      have hlast := second_run (j := jb) rfl rfl (preprocess_ten 1 b) (commands 0 ja) w
      rw [hpath, ← hab, hmix] at hlast
      simp at hlast
    · have hlast := second_run (j := ja) rfl rfl (preprocess_nine 0 a) (commands 1 jb) w
      rw [← hba, hmix] at hlast
      simp only [Option.some.injEq, Blob.mk.injEq, List.cons.injEq, OgrCall.mk.injEq] at hlast
      exact nineCsv_ne_tenCsv hlast.2.1.1.2.2.2.symm
  · rintro hbase ja jb rfl rfl order horder w
    left
    have hdisjoint := cells_disjoint (n := 0) (m := 1) (by decide) (a := ja) (b := jb) ha hb hbase
    exact horder.run_of_local hdisjoint commands_local commands_local w

/-- Two files of one folder. -/
theorem serializable_H01101_H01102 :
    baseOf "H_01101.csv".toList ≠ baseOf "H_01102.csv".toList ∧
      ∀ ja jb : Job, ja.csv = "H_01101.csv".toList → jb.csv = "H_01102.csv".toList → ∀ order,
        Interleaved (commands 0 ja) (commands 1 jb) order → ∀ w,
          runSteps order w = runSteps (commands 0 ja ++ commands 1 jb) w ∨
          runSteps order w = runSteps (commands 1 jb ++ commands 0 ja) w :=
  ⟨by decide, (serializable_iff _ _ (by decide) (by decide)).mpr (by decide)⟩

end GdalFull.Pipeline.Single
