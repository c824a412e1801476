import GdalFull.Lib.Groups
import GdalFull.Merge.Attributes
import Mathlib.Data.Char
import Mathlib.Data.List.Lex

/-!
# The samples of `verify_tochi_attributes.py`

With `-d N` the script groups the GeoPackages of 土地活用 by the beginning of their names, takes `N`
of each group and prints the values at the positions 5 and 2 of their first features; with `-n N`
it takes the first `N` files. `mainSamples` is the script from its arguments on.

`diverse_sample`: the files that are taken with `-d N` are, in the order of the names, those with
fewer than `N` files of their group before them, so that every group is shown with `N` of its
files or with all of them. The table ends where `ogrinfo` or `int` raises.
-/

namespace GdalFull.Verify

open GdalFull.Lib
open GdalFull.Merge (OgrinfoEnd ValueError TableRow attrVals digitsZone featurePattern)

/-! ## The lines of a sample -/

/-- `s.replace(sub, "")`, with `k` characters still to go of an occurrence. -/
def removeAll (sub : Text) : Nat → Text → Text
  | _, [] => []
  | k + 1, _ :: t => removeAll sub k t
  | 0, c :: t =>
    if sub.isPrefixOf (c :: t) then removeAll sub (sub.length - 1) t
    else c :: removeAll sub 0 t

/-- `filename_prefix`. -/
def filenamePrefix (name : Text) : Text :=
  let base := removeAll ".GPKG".toList 0 (removeAll ".gpkg".toList 0 name)
  match base.splitOn '_' with
  | first :: second :: _ => if isDigits second then first else first ++ '_' :: second
  | [first] => first
  | [] => base

/-- `os.path.basename(path)`. -/
def pathBase (path : Text) : Text := path.rtakeWhile (· ≠ '/')

def filePrefix (path : Text) : Text := filenamePrefix (pathBase path)

inductive Raised where
  | fileNotFound
  | timeoutExpired
  | valueError
  deriving DecidableEq

/-- `get_first_feature_vals`: the exit status is not looked at. -/
def getFirstFeatureVals : OgrinfoEnd → Except Raised (Option (List Text))
  | .fileNotFound => .error .fileNotFound
  | .timeoutExpired => .error .timeoutExpired
  | .exited _ stdout stderr => .ok ((featurePattern.search (stdout ++ stderr)).map attrVals)

def candidateIndices : List Nat := [5, 2]

/-- `s.ljust(width)`. -/
def ljust (width : Nat) (s : Text) : Text := s ++ List.replicate (width - s.length) ' '

/-- An entry of `parts`. -/
def candidateCell (vals : List Text) (idx : Nat) : Except Raised Text :=
  let v := vals[idx]?.getD "-".toList
  match digitsZone v with
  | .error _ => .error .valueError
  | .ok zone => .ok (ljust 10 (if zone.isSome then v ++ "[候補]".toList else v))

/-- A line of both tables, behind the names. -/
def sampleLine (names : Text) (info : OgrinfoEnd) : Except Raised Text := do
  match ← getFirstFeatureVals info with
  | none => return names ++ "(取得失敗)".toList
  | some vals =>
    let parts ← candidateIndices.mapM (candidateCell vals)
    return names ++ " | ".toList.intercalate parts

def multiLine (info : Text → OgrinfoEnd) (path : Text) : Except Raised Text :=
  sampleLine (ljust 32 ((pathBase path).take 32) ++ " | ".toList) (info path)

def diverseLine (info : Text → OgrinfoEnd) (path : Text) : Except Raised Text :=
  sampleLine (ljust 12 (filePrefix path) ++ " | ".toList ++ ljust 28 ((pathBase path).take 28) ++
    " | ".toList) (info path)

/-- The lines that are printed before the loop ends or raises. -/
def printUntil : List (Except Raised Text) → List Text × Option Raised
  | [] => ([], none)
  | .error e :: _ => ([], some e)
  | .ok line :: rest => (line :: (printUntil rest).1, (printUntil rest).2)

def runMultiSample (info : Text → OgrinfoEnd) (gpkgs : List Text) (n : Nat) :
    List Text × Option Raised :=
  printUntil ((gpkgs.take n).map (multiLine info))

def runDiverseSample (info : Text → OgrinfoEnd) (gpkgs : List Text) (perGroup : Nat) :
    List Text × Option Raised :=
  printUntil ((sampleOf filePrefix perGroup gpkgs).map (diverseLine info))

/-! ## The script -/

structure Options where
  path : Option Text
  outFile : Option Text
  nSamples : Option Int
  diverse : Option Int
  deriving DecidableEq

def Options.none : Options := ⟨.none, .none, .none, .none⟩

/-- The last two branches of the loop over the arguments. -/
def Options.positional (o : Options) (arg : Text) : Options :=
  if o.path = .none ∧ arg.head? ≠ some '-' then { o with path := some arg } else o

def isSamples (arg : Text) : Bool := arg = "-n".toList || arg = "--samples".toList

def isDiverse (arg : Text) : Bool := arg = "-d".toList || arg = "--diverse".toList

/-- The loop over the arguments. -/
def parseArgs (o : Options) : List Text → Except ValueError Options
  | [] => .ok o
  | [arg] => .ok (if isDiverse arg then { o with diverse := some 2 } else o.positional arg)
  | arg :: value :: rest =>
    if isSamples arg then
      parseArgs { o with nSamples := some ((pyInt value).getD 10) } rest
    else if isDiverse arg then
      if isDigits value then
        match pyInt value with
        | .none => .error .valueError
        | some n => parseArgs { o with diverse := some n } rest
      else parseArgs { o with diverse := some 2 } (value :: rest)
    else if arg = "-o".toList then parseArgs { o with outFile := some value } rest
    else parseArgs (o.positional arg) (value :: rest)

/-- `path`, made absolute. -/
def absolute (root path : Text) : Text :=
  if path.head? = some '/' then path else root ++ '/' :: path

/-- What `main` does: it stops in the arguments, prints a sample, prints the attributes of one
file, or ends with status 1. -/
inductive MainEnd where
  | badArgument
  | sample (printed : List Text × Option Raised)
  | single (path : Text) (outFile : Option Text)
  | noFile
  deriving DecidableEq

/-- `main` behind its call of `os.listdir`. The GeoPackages of the folder are given as the script
has sorted them, and none if there is no folder. -/
def mainSamples (args : List Text) (root : Text) (gpkgs : List Text) (isFile : Text → Bool)
    (info : Text → OgrinfoEnd) : MainEnd :=
  match parseArgs .none args with
  | .error _ => .badArgument
  | .ok o =>
    let path := ((o.path.filter (· ≠ [])).map (absolute root)).or gpkgs.head?
    match o.diverse, gpkgs.isEmpty with
    | some n, false => .sample (runDiverseSample info gpkgs n.toNat)
    | _, _ =>
      if o.nSamples.any (1 < ·) && !gpkgs.isEmpty then
        .sample (runMultiSample info gpkgs (min (o.nSamples.getD 0).toNat gpkgs.length))
      else
        match path with
        | some path => if isFile path then .single path o.outFile else .noFile
        | .none => .noFile

/-! ## The sample with `-d` -/

/-- **The sample with `-d N`.** For every folder and every argument list with `-d`: the lines are
those of the files with fewer than `N` files of their prefix before them, in the order of the
names, up to the first one that raises; of every prefix there are `N` files among them, or all. -/
theorem diverse_sample {args : List Text} {o : Options} (hparse : parseArgs .none args = .ok o)
    {n : Int} (hdiverse : o.diverse = some n) {gpkgs : List Text} (hne : gpkgs ≠ [])
    (hsorted : gpkgs.Pairwise (· < ·)) (root : Text) (isFile : Text → Bool)
    (info : Text → OgrinfoEnd) :
    ∃ files : List Text, mainSamples args root gpkgs isFile info =
        .sample (printUntil (files.map (diverseLine info))) ∧
      files.Sublist gpkgs ∧
      (∀ path, path ∈ files ↔ ∃ before after, gpkgs = before ++ path :: after ∧
        (before.countP fun p => filePrefix p = filePrefix path) < n.toNat) ∧
      ∀ name, (files.countP fun p => filePrefix p = name) =
        min n.toNat (gpkgs.countP fun p => filePrefix p = name) := by
  refine ⟨leading filePrefix n.toNat [] gpkgs, ?_, leading_sublist _ _ _ _, ?_, ?_⟩
  · have hempty : gpkgs.isEmpty = false := by simpa using hne
    have hfiles : sampleOf filePrefix n.toNat gpkgs = leading filePrefix n.toNat [] gpkgs :=
      sampleOf_eq_leading filePrefix n.toNat hsorted
    rw [mainSamples, hparse]
    dsimp only
    rw [hdiverse, hempty]
    dsimp only
    rw [runDiverseSample, hfiles]
  · intro path
    have hmem : path ∈ leading filePrefix n.toNat [] gpkgs ↔ _ := mem_leading [] gpkgs
    simpa using hmem
  · intro name
    simpa using countP_leading filePrefix n.toNat name [] gpkgs

/-- Two groups, `TH` with two files and `TT_S` with one. -/
def sampleFolder : List Text :=
  ["TH_01103.gpkg".toList, "TH_01104.gpkg".toList, "TT_S_33204.gpkg".toList]

/-- `-d 1` takes a file of each group. -/
theorem diverse_sample_two :
    ∃ files : List Text, mainSamples ["-d".toList, "1".toList] [] sampleFolder (fun _ => true)
        (fun _ => .exited 0 [] []) =
          .sample (printUntil (files.map (diverseLine fun _ => .exited 0 [] []))) ∧
      (files.countP fun p => filePrefix p = "TH".toList) = 1 ∧
      (files.countP fun p => filePrefix p = "TT_S".toList) = 1 := by
  have hparse : parseArgs .none ["-d".toList, "1".toList] = .ok ⟨.none, .none, .none, some 1⟩ := by
    decide
  have hsorted : sampleFolder.Pairwise (· < ·) := by
    decide
  obtain ⟨files, hmain, -, -, hcount⟩ := diverse_sample hparse rfl (by decide) hsorted []
    (fun _ => true) fun _ => .exited 0 [] []
  refine ⟨files, hmain, ?_, ?_⟩
  · rw [hcount]
    decide
  · rw [hcount]
    decide

end GdalFull.Verify
