import GdalFull.Convert.Header
import GdalFull.Convert.Kozu
import GdalFull.Convert.Tree

/-!
# What the drivers do when the preprocessor fails

A preprocessor can fail before it writes anything, it can be killed, or an exception can stop
it in the middle of the temporary CSV. `csv_to_geopackage.sh` looks at its exit status in the
blocks of 土地活用 and 公図. In the blocks of 街区 and 都市部, as in `single_csv_to_pmtiles.sh`, the
script runs in a pipeline with `tail`, and only the zone that it printed is looked at.

`failure_stops_iff`: a failed preprocessor never reaches `ogr2ogr` exactly if no exception
stops the writing of a file whose zone was printed before.
-/

namespace GdalFull.Convert

open GdalFull.Lib

/-! ## The preprocessors -/

/-- How the temporary CSV gets written: completely, or up to an exception, or until the process
is killed, with so many bytes in the file; `none` if it is not even opened. -/
inductive WriteEnd where
  | done
  | raised (written : Option Nat)
  | killed (written : Option Nat)
  deriving DecidableEq

/-- The end of a preprocessor: exit status, what came out of the pipe, and what is at the path
of the temporary CSV. -/
structure ScriptEnd where
  exit : Nat
  stdout : Text
  tmp : Option Bytes
  deriving DecidableEq

def partialFile (prior : Option Bytes) (out : List Record) : Option Nat → Option Bytes
  | none => prior
  | some n => some ((utf8Encode (csvWrite out)).take n)

/-- A line is printed, then the records are written. Standard output is a pipe, so that the line
waits in a buffer until the process ends, and is lost if the process is killed. That is the default
of `python3`, without `-u` and `PYTHONUNBUFFERED`. -/
def writeOut (prior : Option Bytes) (line : Text) (out : List Record) : WriteEnd → ScriptEnd
  | .done => ⟨0, line, some (utf8Encode (csvWrite out))⟩
  | .raised written => ⟨1, line, partialFile prior out written⟩
  | .killed written => ⟨137, [], partialFile prior out written⟩

/-- `print(z)`. -/
def zoneLine : Option Int → Text
  | none => []
  | some z => Nat.toDigits 10 z.toNat ++ ['\n']

/-- `csv_to_geoparquet_tochi.py`. The records are `none` if no codec reads the file, or if a
`csv.Error` ends the script. -/
def tochiScript (print : Bool) (prior : Option Bytes) (rows : Option (List Record))
    (w : WriteEnd) : ScriptEnd :=
  match rows.bind tochiPre with
  | none => ⟨1, [], prior⟩
  | some (zone, out) => writeOut prior (if print then zoneLine zone else []) out w

/-- `csv_to_geoparquet_kozu.py`. -/
def kozuScript (floatRepr : Text → Option Text) (prior : Option Bytes)
    (rows : Option (List Record)) (w : WriteEnd) : ScriptEnd :=
  match rows.bind fun rows => (Kozu.outRows floatRepr rows).toOption with
  | none => ⟨1, [], prior⟩
  | some out => writeOut prior [] out w

/-! ## The blocks of `csv_to_geopackage.sh` -/

/-- `tail -1`. -/
def tailOne (out : Text) : Text :=
  if out.getLast? = some '\n' then out.dropLast.rtakeWhile (· ≠ '\n') ++ ['\n']
  else out.rtakeWhile (· ≠ '\n')

/-- The test of `ZONE`, with its number. The script prints no leading zero, so that the shell
reads a decimal number. -/
def zoneNumber (zone : Text) : Option Nat :=
  if zone ≠ [] ∧ zone.all Char.isDigit then
    let n := ofDigits (zone.map fun c => c.toNat - '0'.toNat)
    if n < 1 ∨ 19 < n then none else some n
  else none

/-- A CSV file of a block, with what happens to it: whether its output is there, what is at the
path of its temporary CSV, the records that are read, the writing, and the exit status of
`ogr2ogr`. -/
structure BlockFile where
  source : Source
  existing : Bool
  prior : Option Bytes
  rows : Option (List Record)
  write : WriteEnd
  ogr : Nat
  deriving DecidableEq

/-- `[[ "$SKIP_EXISTING" == true && -f "$out" ]]`. -/
def BlockFile.skipped (skip : Bool) (f : BlockFile) : Bool :=
  skip && f.existing

/-- A call of `ogr2ogr` on a temporary CSV. -/
structure OgrCall where
  out : Name
  sSrs : Option Nat
  columns : Option (Text × Text)
  tmp : Option Bytes
  deriving DecidableEq

/-- What the body of a loop does: whether `FAILED` is set, and the call. -/
structure FileEnd where
  failed : Bool
  call : Option OgrCall
  deriving DecidableEq

/-- `if ! ogr2ogr ...; then FAILED=1; fi`. -/
def ogrFile (f : BlockFile) (sSrs : Option Nat) (columns : Option (Text × Text))
    (tmp : Option Bytes) : FileEnd :=
  ⟨f.ogr != 0, some ⟨f.source.outPath .csvToGeopackage, sSrs, columns, tmp⟩⟩

/-- The body of the loops over 街区 and 都市部. -/
def pointFile (f : BlockFile) : FileEnd :=
  let e := tochiScript true f.prior f.rows f.write
  match zoneNumber (cmdSubst (tailOne e.stdout)) with
  | none => ⟨true, none⟩
  | some zone => ogrFile f (some (6668 + zone)) (some (xLabel, yLabel)) e.tmp

/-- `if ! python3 ...; then FAILED=1; continue; fi` and the call. -/
def checkedFile (f : BlockFile) (columns : Option (Text × Text)) (e : ScriptEnd) : FileEnd :=
  if e.exit ≠ 0 then ⟨true, none⟩ else ogrFile f none columns e.tmp

section Run

variable (floatRepr : Text → Option Text)

/-- The preprocessor of a block. -/
def preprocess (d : Dataset) (f : BlockFile) : ScriptEnd :=
  match d with
  | .gaiku => tochiScript true f.prior f.rows f.write
  | .toshi => tochiScript true f.prior f.rows f.write
  | .tochi => tochiScript false f.prior f.rows f.write
  | .kozu => kozuScript floatRepr f.prior f.rows f.write

def blockFile (d : Dataset) (f : BlockFile) : FileEnd :=
  match d with
  | .gaiku => pointFile f
  | .toshi => pointFile f
  | .tochi => checkedFile f (some (smallX, smallY)) (preprocess floatRepr .tochi f)
  | .kozu => checkedFile f none (preprocess floatRepr .kozu f)

/-- `FAILED` and the calls of a run so far, each with its block and its file. -/
structure RunState where
  failed : Bool
  calls : List (Dataset × BlockFile × OgrCall)
  deriving DecidableEq

def blockStep (skip : Bool) (d : Dataset) (st : RunState) (f : BlockFile) : RunState :=
  if f.skipped skip then st
  else
    let e := blockFile floatRepr d f
    ⟨st.failed || e.failed, st.calls ++ e.call.toList.map (d, f, ·)⟩

def runBlock (skip : Bool) (files : Dataset → List BlockFile) (st : RunState) (d : Dataset) :
    RunState :=
  (files d).foldl (blockStep floatRepr skip d) st

/-- `csv_to_geopackage.sh`. -/
def csvToGeopackage (skip : Bool) (files : Dataset → List BlockFile) : RunState :=
  [Dataset.gaiku, .toshi, .tochi, .kozu].foldl (runBlock floatRepr skip files) ⟨false, []⟩

end Run

/-- `single_csv_to_pmtiles.sh` for a CSV file that is there: its exit status and its call of
`ogr2ogr`. `ogr` and `pmtiles` are the exit statuses of `ogr2ogr` and `gpkg_to_pmtiles.sh`. -/
def singleCsvToPmtiles (csv : Name) (prior : Option Bytes) (rows : Option (List Record))
    (w : WriteEnd) (ogr pmtiles : Nat) : Nat × Option OgrCall :=
  let e := tochiScript true prior rows w
  match zoneNumber (cmdSubst (tailOne e.stdout)) with
  | none => (1, none)
  | some zone =>
    let base := cmdSubst (basename csv csvSuffix)
    let gpkg := "データ_geopackage_marged/".toList ++ base ++ ".gpkg".toList
    (if ogr ≠ 0 then ogr else pmtiles,
      some ⟨gpkg, some (6668 + zone), some (selectColumns (e.tmp.getD [])), e.tmp⟩)

/-! ## The zone in the pipe -/

/-- The column of the zone, `zukei_col`. -/
def zukeiCol (first : Record) : Nat :=
  if isGaiku first then 11 else 5

/-- The second record has an integer from 1 to 19 in the column of the zone. -/
def HasZone (rows : List Record) : Prop :=
  ∃ first second rest cell z, rows = first :: second :: rest ∧
    second[zukeiCol first]? = some cell ∧ pyInt (strip cell) = some z ∧ 1 ≤ z ∧ z ≤ 19

/-- The file has a zone, and an exception stops the writing. -/
def StoppedAfterZone (rows : Option (List Record)) (w : WriteEnd) : Prop :=
  ∃ records written, rows = some records ∧ HasZone records ∧ w = .raised written

theorem tochiPre_cons (first : Record) (rest : List Record) :
    ∃ out, tochiPre (first :: rest) =
      some (printZukei (first :: rest) (zukeiCol first), out) := by
  unfold zukeiCol
  cases h : isGaiku first with
  | true => exact ⟨_, tochiPre_header h rest⟩
  | false => exact ⟨_, tochiPre_headerless h rest⟩

theorem hasZone_iff (first : Record) (rest : List Record) :
    HasZone (first :: rest) ↔ (printZukei (first :: rest) (zukeiCol first)).isSome = true := by
  rw [Option.isSome_iff_exists]
  constructor
  · rintro ⟨_, second, rest, cell, z, heq, hcell, hz, hrange⟩
    cases heq
    exact ⟨z, printZukei_eq_some_iff.mpr ⟨second, cell, rfl, hcell, hz, hrange⟩⟩
  · rintro ⟨z, hz⟩
    obtain ⟨second, cell, hsecond, hcell, hint, hrange⟩ := printZukei_eq_some_iff.mp hz
    cases rest with
    | nil => cases hsecond
    | cons row rest =>
      cases hsecond
      exact ⟨first, second, rest, cell, z, rfl, hcell, hint, hrange⟩

/-- A zone passes through `print`, `tail`, the command substitution and the test. -/
theorem zoneNumber_zoneLine {z : Int} (h : 1 ≤ z ∧ z ≤ 19) :
    zoneNumber (cmdSubst (tailOne (zoneLine (some z)))) = some z.toNat := by
  have hall : ∀ n ∈ List.range' 1 19,
      zoneNumber (cmdSubst (tailOne (zoneLine (some (n : Int))))) = some n := by decide
  have hz : z = (z.toNat : Int) := by omega
  have hmem : z.toNat ∈ List.range' 1 19 := by
    rw [List.mem_range'_1]
    omega
  rw [hz]
  exact hall _ hmem

theorem zoneNumber_nil : zoneNumber (cmdSubst (tailOne [])) = none := by decide

/-- A preprocessor that fails hands a zone on exactly if an exception stopped the writing. -/
theorem zoneNumber_isSome_iff {prior : Option Bytes} {rows : Option (List Record)} {w : WriteEnd}
    (h : (tochiScript true prior rows w).exit ≠ 0) :
    (zoneNumber (cmdSubst (tailOne (tochiScript true prior rows w).stdout))).isSome = true ↔
      StoppedAfterZone rows w := by
  match rows with
  | none => simp [tochiScript, zoneNumber_nil, StoppedAfterZone]
  | some [] => simp [tochiScript, tochiPre, zoneNumber_nil, StoppedAfterZone, HasZone]
  | some (first :: rest) =>
    obtain ⟨out, hout⟩ := tochiPre_cons first rest
    have hscript : tochiScript true prior (some (first :: rest)) w =
        writeOut prior (zoneLine (printZukei (first :: rest) (zukeiCol first))) out w := by
      simp [tochiScript, hout]
    rw [hscript] at h ⊢
    cases w with
    | done => exact absurd rfl h
    | killed written => simp [writeOut, zoneNumber_nil, StoppedAfterZone]
    | raised written =>
      have hstopped : StoppedAfterZone (some (first :: rest)) (.raised written) ↔
          HasZone (first :: rest) := by simp [StoppedAfterZone]
      rw [hstopped, hasZone_iff]
      cases hzone : printZukei (first :: rest) (zukeiCol first) with
      | none => simp [writeOut, zoneLine, zoneNumber_nil]
      | some z =>
        obtain ⟨_, _, _, _, _, hrange⟩ := printZukei_eq_some_iff.mp hzone
        rw [writeOut, zoneNumber_zoneLine hrange]
        simp

theorem tochiScript_exit_of_stopped (prior : Option Bytes) {rows : Option (List Record)}
    {w : WriteEnd} (h : StoppedAfterZone rows w) : (tochiScript true prior rows w).exit ≠ 0 := by
  obtain ⟨records, written, rfl, ⟨first, second, rest, _, _, rfl, _⟩, rfl⟩ := h
  obtain ⟨out, hout⟩ := tochiPre_cons first (second :: rest)
  simp [tochiScript, hout, writeOut]

/-- With a zone to hand on, the body of the loop makes its call although the preprocessor failed;
without one it sets `FAILED` and goes on. -/
theorem pointFile_of_fail {f : BlockFile} (h : (tochiScript true f.prior f.rows f.write).exit ≠ 0) :
    (StoppedAfterZone f.rows f.write ∧ ∃ call, (pointFile f).call = some call) ∨
      ¬ StoppedAfterZone f.rows f.write ∧ pointFile f = ⟨true, none⟩ := by
  rw [← zoneNumber_isSome_iff h, pointFile]
  cases zoneNumber (cmdSubst (tailOne (tochiScript true f.prior f.rows f.write).stdout)) with
  | none => exact Or.inr ⟨by simp, rfl⟩
  | some zone => exact Or.inl ⟨rfl, _, rfl⟩

/-! ## Whole runs -/

section Run

variable (floatRepr : Text → Option Text) (skip : Bool)

/-- The files of a block that are not skipped. -/
def reached (files : Dataset → List BlockFile) (d : Dataset) : List BlockFile :=
  (files d).filter fun f => !f.skipped skip

theorem foldl_blockStep (d : Dataset) (fs : List BlockFile) (st : RunState) :
    fs.foldl (blockStep floatRepr skip d) st =
      ⟨st.failed || (fs.filter fun f => !f.skipped skip).any fun f =>
          (blockFile floatRepr d f).failed,
        st.calls ++ (fs.filter fun f => !f.skipped skip).flatMap fun f =>
          (blockFile floatRepr d f).call.toList.map (d, f, ·)⟩ := by
  induction fs generalizing st with
  | nil => simp
  | cons f fs ih =>
    rw [List.foldl_cons, ih, blockStep]
    cases hskip : f.skipped skip with
    | true => simp [hskip]
    | false => simp [hskip, Bool.or_assoc]

/-- A run in closed form. -/
theorem csvToGeopackage_eq (files : Dataset → List BlockFile) :
    csvToGeopackage floatRepr skip files =
      ⟨[Dataset.gaiku, .toshi, .tochi, .kozu].any fun d => (reached skip files d).any fun f =>
          (blockFile floatRepr d f).failed,
        [Dataset.gaiku, .toshi, .tochi, .kozu].flatMap fun d =>
          (reached skip files d).flatMap fun f =>
            (blockFile floatRepr d f).call.toList.map (d, f, ·)⟩ := by
  simp [csvToGeopackage, runBlock, foldl_blockStep, reached, Bool.or_assoc]

theorem mem_calls_iff (files : Dataset → List BlockFile) {d : Dataset} {f : BlockFile}
    {call : OgrCall} :
    (d, f, call) ∈ (csvToGeopackage floatRepr skip files).calls ↔
      f ∈ reached skip files d ∧ (blockFile floatRepr d f).call = some call := by
  rw [csvToGeopackage_eq]
  dsimp only
  rw [mem_blocks]
  constructor
  · rintro ⟨d', h⟩
    obtain ⟨f', hf', hcall⟩ := List.mem_flatMap.mp h
    obtain ⟨call', hcall', heq⟩ := List.mem_map.mp hcall
    cases heq
    exact ⟨hf', Option.mem_toList.mp hcall'⟩
  · rintro ⟨hf, hcall⟩
    refine ⟨d, List.mem_flatMap.mpr ⟨f, hf, List.mem_map.mpr ⟨call, ?_, rfl⟩⟩⟩
    exact Option.mem_toList.mpr hcall

theorem failed_of_mem (files : Dataset → List BlockFile) {d : Dataset} {f : BlockFile}
    (hf : f ∈ reached skip files d) (h : (blockFile floatRepr d f).failed = true) :
    (csvToGeopackage floatRepr skip files).failed = true := by
  rw [csvToGeopackage_eq]
  dsimp only
  refine List.any_eq_true.mpr ⟨d, by cases d <;> decide, ?_⟩
  exact List.any_eq_true.mpr ⟨f, hf, h⟩

/-- Every file whose preprocessor fails sets `FAILED`, and `ogr2ogr` is not called for it. -/
def FailureStops (files : Dataset → List BlockFile) : Prop :=
  ∀ d, ∀ f ∈ reached skip files d, (preprocess floatRepr d f).exit ≠ 0 →
    (csvToGeopackage floatRepr skip files).failed = true ∧
      ∀ call, (d, f, call) ∉ (csvToGeopackage floatRepr skip files).calls

theorem stops_of_blockFile {files : Dataset → List BlockFile} {d : Dataset} {f : BlockFile}
    (hf : f ∈ reached skip files d) (h : blockFile floatRepr d f = ⟨true, none⟩) :
    (csvToGeopackage floatRepr skip files).failed = true ∧
      ∀ call, (d, f, call) ∉ (csvToGeopackage floatRepr skip files).calls := by
  refine ⟨failed_of_mem floatRepr skip files hf (by rw [h]), ?_⟩
  intro call hmem
  have hcall := ((mem_calls_iff floatRepr skip files).mp hmem).2
  rw [h] at hcall
  cases hcall

theorem failureStops_iff (files : Dataset → List BlockFile) :
    FailureStops floatRepr skip files ↔
      ∀ d, d = .gaiku ∨ d = .toshi → ∀ f ∈ reached skip files d,
        ¬ StoppedAfterZone f.rows f.write := by
  constructor
  · rintro h d hd f hf hstopped
    have hpoint : blockFile floatRepr d f = pointFile f ∧
        preprocess floatRepr d f = tochiScript true f.prior f.rows f.write := by
      rcases hd with rfl | rfl <;> exact ⟨rfl, rfl⟩
    have hexit := tochiScript_exit_of_stopped f.prior hstopped
    obtain ⟨_, hcalls⟩ := h d f hf (by rwa [hpoint.2])
    rcases pointFile_of_fail hexit with ⟨_, call, hcall⟩ | ⟨hnot, _⟩
    · exact hcalls call ((mem_calls_iff floatRepr skip files).mpr ⟨hf, by rwa [hpoint.1]⟩)
    · exact hnot hstopped
  · intro h d f hf hexit
    apply stops_of_blockFile floatRepr skip hf
    have hpoint : (d = .gaiku ∨ d = .toshi) →
        (tochiScript true f.prior f.rows f.write).exit ≠ 0 → pointFile f = ⟨true, none⟩ := by
      intro hd hexit
      rcases pointFile_of_fail hexit with ⟨hstopped, _⟩ | ⟨_, heq⟩
      · exact absurd hstopped (h d hd f hf)
      · exact heq
    cases d with
    | gaiku => exact hpoint (Or.inl rfl) hexit
    | toshi => exact hpoint (Or.inr rfl) hexit
    | tochi => exact if_pos hexit
    | kozu => exact if_pos hexit

end Run

/-- `single_csv_to_pmtiles.sh` ends with an error and without a call when the preprocessor fails. -/
def SingleStops (csv : Name) (prior : Option Bytes) (rows : Option (List Record)) (w : WriteEnd)
    (ogr pmtiles : Nat) : Prop :=
  (tochiScript true prior rows w).exit ≠ 0 →
    (singleCsvToPmtiles csv prior rows w ogr pmtiles).1 ≠ 0 ∧
      (singleCsvToPmtiles csv prior rows w ogr pmtiles).2 = none

theorem singleStops_iff (csv : Name) (prior : Option Bytes) (rows : Option (List Record))
    (w : WriteEnd) (ogr pmtiles : Nat) :
    SingleStops csv prior rows w ogr pmtiles ↔ ¬ StoppedAfterZone rows w := by
  by_cases hexit : (tochiScript true prior rows w).exit = 0
  · have hnot : ¬ StoppedAfterZone rows w :=
      fun hstopped => tochiScript_exit_of_stopped prior hstopped hexit
    exact iff_of_true (fun h => absurd hexit h) hnot
  · rw [← zoneNumber_isSome_iff hexit, SingleStops, singleCsvToPmtiles]
    cases zoneNumber (cmdSubst (tailOne (tochiScript true prior rows w).stdout)) with
    | none => simp
    | some zone => simp [hexit]

/-- **A failed preprocessor and the converter.** In `csv_to_geopackage.sh` every file whose
preprocessor fails sets `FAILED` and is not handed to `ogr2ogr`, and `single_csv_to_pmtiles.sh`
stops, exactly if for no file of 街区 or 都市部, nor for the single file, an exception stops the
writing after a zone was found. -/
theorem failure_stops_iff (floatRepr : Text → Option Text) (skip : Bool)
    (files : Dataset → List BlockFile) (csv : Name) (prior : Option Bytes)
    (rows : Option (List Record)) (w : WriteEnd) (ogr pmtiles : Nat) :
    FailureStops floatRepr skip files ∧ SingleStops csv prior rows w ogr pmtiles ↔
      (∀ d, d = .gaiku ∨ d = .toshi → ∀ f ∈ reached skip files d,
        ¬ StoppedAfterZone f.rows f.write) ∧ ¬ StoppedAfterZone rows w := by
  rw [failureStops_iff, singleStops_iff]

/-- A file with zone 9 whose disk is full after 30 bytes. -/
def fullDisk : BlockFile where
  source := .root .gaiku "a.csv".toList
  existing := false
  prior := none
  rows := some [gaikuHeader, gaikuRow "1" "2"]
  write := .raised (some 30)
  ogr := 0

/-- The preprocessor exits with 1, `ogr2ogr` is called on the first 30 bytes in EPSG:6677, and
`FAILED` stays 0; the single script exits with 0. -/
theorem fullDisk_converted :
    (preprocess some .gaiku fullDisk).exit = 1 ∧
    (csvToGeopackage some false fun d => if d = .gaiku then [fullDisk] else []) =
      ⟨false, [(.gaiku, fullDisk, ⟨fullDisk.source.outPath .csvToGeopackage, some 6677,
        some (xLabel, yLabel), some ((utf8Encode (csvWrite
          [gaikuHeader.map swapLabel, gaikuRow "1" "2"])).take 30)⟩)]⟩ ∧
    (singleCsvToPmtiles "a.csv".toList none fullDisk.rows fullDisk.write 0 0).1 = 0 ∧
    (singleCsvToPmtiles "a.csv".toList none fullDisk.rows fullDisk.write 0 0).2.isSome = true := by
  decide

end GdalFull.Convert
