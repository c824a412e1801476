import GdalFull.Convert.Tree
import GdalFull.Lib.PyStr
import Mathlib.Logic.Function.Basic

/-!
# Sourcing `env.sh`

`env.sh` runs in the variables of the script that sources it. It exports `PATH`,
`LD_LIBRARY_PATH`, `GDAL_DATA` and `PYTHONPATH`, and on the way it assigns `SCRIPT_DIR`, `LOCAL`
and the loop variable `_p` (`sourceEnv_apply`).

`run_convert_then_verify.sh` keeps its own directory in `SCRIPT_DIR` and reads it after the
`source` line, where it is the project root. A script that it starts there is not the one in
`scripts`, or takes the folder above for the root of its project. `env_frame_iff` says when both go
well all the same.
-/

namespace GdalFull.Pipeline

open GdalFull.Lib GdalFull.Convert

variable {File : Type}

/-- The shell variables that are set. -/
abbrev Env := String → Option Text

/-- `x=v`, with or without `export`. -/
def Env.assign (env : Env) (x : String) (v : Text) : Env :=
  Function.update env x (some v)

/-- `$x`. -/
def Env.value (env : Env) (x : String) : Text :=
  (env x).getD []

/-- `${x:+:$x}`. -/
def Env.colon (env : Env) (x : String) : Text :=
  if env.value x = [] then [] else ':' :: env.value x

/-- What the scripts see of the machine: the tests `-d` and `-x`, the words that a pattern is
expanded to, the file that a path leads to, and the exit status of a script, by the project root
that it takes from its own path and by its arguments. -/
structure Host (File : Type) where
  isDir : Text → Bool
  executable : Text → Bool
  glob : Text → List Text
  file : Text → Option File
  exit : File → Text → List Text → Nat

/-- A script that has been started, with the project root that it works on and its arguments. -/
structure Started (File : Type) where
  script : File
  projectRoot : Text
  args : List Text
  deriving DecidableEq

/-- The folder above a folder, as `cd "$dir/.."` and `os.path.dirname` have it. -/
def parentDir (dir : Text) : Text :=
  let up := (dir.rdropWhile (· ≠ '/')).dropLast
  if up = [] then "/".toList else up

section Source

variable (host : Host File)

/-- The loop that exports `PYTHONPATH`. -/
def pythonLoop : List Text → Env → Env
  | [], env => env
  | p :: rest, env =>
    let env := env.assign "_p" p
    if host.isDir p then env.assign "PYTHONPATH" (p ++ env.colon "PYTHONPATH")
    else pythonLoop rest env

/-- `"$LOCAL"/lib/python*/site-packages`. -/
def sitePackages (root : Text) : List Text :=
  host.glob (root ++ "/local/lib/python*/site-packages".toList)

def localDir (root : Text) : Text := root ++ "/local".toList

def ogr2ogrPath (root : Text) : Text := localDir root ++ "/bin/ogr2ogr".toList

/-- `source env.sh`, for an `env.sh` in the directory `root`: the status and the variables. -/
def sourceEnv (root : Text) (env : Env) : Nat × Env :=
  let env := env.assign "SCRIPT_DIR" root
  let env := env.assign "LOCAL" (localDir root)
  if !host.executable (ogr2ogrPath root) then (1, env)
  else
    let env := env.assign "PATH" (localDir root ++ "/bin:".toList ++ env.value "PATH")
    let arrow := root ++ "/arrow-install/lib".toList
    let libs := if host.isDir arrow then arrow ++ ':' :: localDir root ++ "/lib".toList
      else localDir root ++ "/lib".toList
    let env := env.assign "LD_LIBRARY_PATH" (libs ++ env.colon "LD_LIBRARY_PATH")
    let env := env.assign "GDAL_DATA" (localDir root ++ "/share/gdal".toList)
    (0, pythonLoop host (sitePackages host root) env)

def envPath (root : Text) : Text := root ++ "/env.sh".toList

def scriptsDir (root : Text) : Text := root ++ "/scripts".toList

def convertPath (dir : Text) : Text := dir ++ "/csv_to_geoparquet.sh".toList

def verifyPath (dir : Text) : Text := dir ++ "/verify_csv_geoparquet.py".toList

/-- The arguments of the conversion: `-s` is handed on. -/
def convertArgs (args : List Text) : List Text :=
  if args.head? = some "-s".toList then ["-s".toList] else []

/-- `"$dir/csv_to_geoparquet.sh"`: the shell gives 127 for a file that is not there and 126 for one
without execute permission. The script takes its project root from `BASH_SOURCE`. -/
def startConvert (dir : Text) (args : List Text) : Nat × List (Started File) :=
  match host.file (convertPath dir) with
  | none => (127, [])
  | some f =>
    if !host.executable (convertPath dir) then (126, [])
    else
      let started : Started File := ⟨f, cmdSubst (parentDir dir), convertArgs args⟩
      (host.exit f started.projectRoot started.args, [started])

/-- `python3 "$dir/verify_csv_geoparquet.py"`: a file that is not there gives 2. The script takes
its project root from `__file__`; for a script in `/` it is written `//`, which leads to `/`. -/
def startVerify (dir : Text) : Nat × List (Started File) :=
  match host.file (verifyPath dir) with
  | none => (2, [])
  | some f => (host.exit f (parentDir dir) [], [⟨f, parentDir dir, []⟩])

/-- The two steps after `source`, with the value that `SCRIPT_DIR` has then. -/
def convertThenVerify (scriptDir : Text) (args : List Text) : Nat × List (Started File) :=
  let converted := startConvert host scriptDir args
  if converted.1 ≠ 0 then converted
  else
    let verified := startVerify host scriptDir
    (verified.1, converted.2 ++ verified.2)

/-- `run_convert_then_verify.sh` in the folder `scripts` of a project: its exit status and the
scripts that it has started. -/
def runConvertThenVerify (root : Text) (args : List Text) (env : Env) :
    Nat × List (Started File) :=
  let env := env.assign "SCRIPT_DIR" (scriptsDir root)
  let projectRoot := cmdSubst root
  let env := env.assign "PROJECT_ROOT" projectRoot
  if !host.isDir projectRoot then (1, [])
  else if (host.file (envPath projectRoot)).isNone then (1, [])
  else
    match sourceEnv host projectRoot env with
    | (0, env) => convertThenVerify host (env.value "SCRIPT_DIR") args
    | (_, _) => (1, [])

end Source

/-! ## The variables after `source` -/

def envExports : List String := ["PATH", "LD_LIBRARY_PATH", "GDAL_DATA", "PYTHONPATH"]

/-- The last value of the loop variable: the first directory, or the last word. -/
def loopWord (host : Host File) (words : List Text) : Option Text :=
  (words.find? host.isDir).or words.getLast?

theorem Env.assign_apply (env : Env) (x y : String) (v : Text) :
    env.assign x v y = if y = x then some v else env y := by
  rw [Env.assign, Function.update_apply]

theorem Env.assign_of_ne (env : Env) {x y : String} (h : y ≠ x) (v : Text) :
    env.assign x v y = env y := by
  rw [Env.assign_apply, if_neg h]

theorem pythonLoop_apply (host : Host File) (words : List Text) (env : Env) {x : String}
    (hx : x ≠ "PYTHONPATH") :
    pythonLoop host words env x =
      if x = "_p" then (loopWord host words).or (env x) else env x := by
  induction words generalizing env with
  | nil => simp [pythonLoop, loopWord]
  | cons p rest ih =>
    rw [pythonLoop]
    cases hdir : host.isDir p with
    | true =>
      rw [if_pos rfl, Env.assign_of_ne _ hx, Env.assign_apply]
      simp [loopWord, hdir]
    | false =>
      rw [if_neg Bool.false_ne_true, ih, Env.assign_apply]
      by_cases hp : x = "_p"
      · have hlast : (p :: rest).getLast? = rest.getLast?.or (some p) := by
          rw [List.getLast?_cons]
          cases rest.getLast? <;> rfl
        rw [if_pos hp, if_pos hp, if_pos hp, loopWord, loopWord,
          List.find?_cons_of_neg (by simp [hdir]), hlast, Option.or_assoc, Option.or_assoc,
          Option.or_assoc]
        rfl
      · rw [if_neg hp, if_neg hp, if_neg hp]

/-- **What `env.sh` assigns** besides its exports. -/
theorem sourceEnv_apply {host : Host File} {root : Text}
    (h : host.executable (ogr2ogrPath root) = true) (env : Env) {x : String}
    (hx : x ∉ envExports) :
    (sourceEnv host root env).2 x =
      if x = "SCRIPT_DIR" then some root
      else if x = "LOCAL" then some (localDir root)
      else if x = "_p" then (loopWord host (sitePackages host root)).or (env x)
      else env x := by
  simp only [envExports, List.mem_cons, List.not_mem_nil, or_false, not_or] at hx
  obtain ⟨hpath, hld, hdata, hpython⟩ := hx
  rw [sourceEnv]
  dsimp only
  rw [h, if_neg (by simp)]
  dsimp only
  rw [pythonLoop_apply host _ _ hpython, Env.assign_of_ne _ hdata, Env.assign_of_ne _ hld,
    Env.assign_of_ne _ hpath, Env.assign_apply, Env.assign_apply]
  by_cases hscript : x = "SCRIPT_DIR"
  · subst hscript
    simp
  · by_cases hlocal : x = "LOCAL"
    · subst hlocal
      simp
    · simp [hscript, hlocal]

/-- A caller's variables are left alone when the three that `env.sh` assigns already have their
values. -/
def Prepared (host : Host File) (root : Text) (env : Env) : Prop :=
  env "SCRIPT_DIR" = some root ∧ env "LOCAL" = some (localDir root) ∧
    ∀ p, loopWord host (sitePackages host root) = some p → env "_p" = some p

theorem sourceEnv_frame_iff {host : Host File} {root : Text}
    (h : host.executable (ogr2ogrPath root) = true) (env : Env) :
    (∀ x, x ∉ envExports → (sourceEnv host root env).2 x = env x) ↔ Prepared host root env := by
  constructor
  · intro hframe
    have hscript := hframe "SCRIPT_DIR" (by decide)
    have hlocal := hframe "LOCAL" (by decide)
    have hloop := hframe "_p" (by decide)
    rw [sourceEnv_apply h env (by decide)] at hscript hlocal hloop
    refine ⟨hscript.symm, hlocal.symm, ?_⟩
    intro p hp
    rw [hp] at hloop
    exact hloop.symm
  · rintro ⟨hscript, hlocal, hloop⟩ x hx
    rw [sourceEnv_apply h env hx]
    split_ifs with h₁ h₂ h₃
    · rw [h₁, hscript]
    · rw [h₂, hlocal]
    · rw [h₃]
      cases hp : loopWord host (sitePackages host root) with
      | none => rfl
      | some p => exact (hloop p hp).symm
    · rfl

/-! ## `run_convert_then_verify.sh` -/

theorem sourceEnv_status (host : Host File) (root : Text) (env : Env) :
    (sourceEnv host root env).1 =
      if host.executable (ogr2ogrPath root) then 0 else 1 := by
  rw [sourceEnv]
  dsimp only
  cases host.executable (ogr2ogrPath root) <;> rfl

/-- The conversion that the run should start, on its project. -/
def plannedConvert (root : Text) (args : List Text) (convert : File) : Started File :=
  ⟨convert, cmdSubst root, convertArgs args⟩

/-- The conversion ends with status 0. -/
def Converts (host : Host File) (root : Text) (args : List Text) (convert : File) : Prop :=
  host.exit convert (cmdSubst root) (convertArgs args) = 0

instance (host : Host File) (root : Text) (args : List Text) (convert : File) :
    Decidable (Converts host root args convert) :=
  inferInstanceAs (Decidable (_ = _))

/-- The scripts that the run should start: the conversion, and after it the verification. -/
def plannedScripts (host : Host File) (root : Text) (args : List Text) (convert verify : File) :
    List (Started File) :=
  if Converts host root args convert then [plannedConvert root args convert, ⟨verify, root, []⟩]
  else [plannedConvert root args convert]

/-- The two scripts of the project. -/
def ProjectScripts (host : Host File) (root : Text) (convert verify : File) : Prop :=
  host.file (convertPath (scriptsDir root)) = some convert ∧
    host.file (verifyPath (scriptsDir root)) = some verify

/-- The project root is found again, is its own parent, and has the scripts in it under their
names. -/
structure InRoot (host : Host File) (root : Text) (args : List Text) (convert verify : File) :
    Prop where
  isDir : host.isDir (cmdSubst root) = true
  hasEnv : (host.file (envPath (cmdSubst root))).isSome = true
  built : host.executable (ogr2ogrPath (cmdSubst root)) = true
  found : host.file (convertPath (cmdSubst root)) = some convert
  permitted : host.executable (convertPath (cmdSubst root)) = true
  top : cmdSubst root = "/".toList
  verified : Converts host root args convert →
    root = "/".toList ∧ host.file (verifyPath (cmdSubst root)) = some verify

theorem parentDir_cases (dir : Text) :
    parentDir dir = "/".toList ∨ (parentDir dir).length < dir.length := by
  rw [parentDir]
  split
  · exact Or.inl rfl
  · rename_i hne
    right
    have hle := (List.rdropWhile_prefix (fun c => decide (c ≠ '/')) dir).length_le
    have hpos : dir.rdropWhile (fun c => decide (c ≠ '/')) ≠ [] := by
      intro hnil
      exact hne (by rw [hnil]; rfl)
    have hlen := List.length_pos_of_ne_nil hpos
    rw [List.length_dropLast]
    omega

/-- Only `/` is its own parent. -/
theorem cmdSubst_parentDir_iff (dir : Text) :
    cmdSubst (parentDir dir) = dir ↔ dir = "/".toList := by
  constructor
  · intro h
    rcases parentDir_cases dir with htop | hlt
    · rw [htop] at h
      exact h.symm
    · have hle := (List.rdropWhile_prefix (fun c => decide (c = '\n')) (parentDir dir)).length_le
      have hlen := congrArg List.length h
      rw [cmdSubst] at hlen
      omega
  · rintro rfl
    decide

/-- The scripts are looked for in the project root. -/
theorem runConvertThenVerify_eq {host : Host File} {root : Text} (args : List Text) (env : Env)
    (hdir : host.isDir (cmdSubst root) = true)
    (henv : (host.file (envPath (cmdSubst root))).isSome = true)
    (hogr : host.executable (ogr2ogrPath (cmdSubst root)) = true) :
    runConvertThenVerify host root args env = convertThenVerify host (cmdSubst root) args := by
  have hnone : (host.file (envPath (cmdSubst root))).isNone = false := by
    rw [← Option.not_isSome, henv]
    rfl
  have hsource : ∀ env', ∃ env'', sourceEnv host (cmdSubst root) env' = (0, env'') ∧
      env''.value "SCRIPT_DIR" = cmdSubst root := by
    intro env'
    refine ⟨(sourceEnv host (cmdSubst root) env').2, Prod.ext ?_ rfl, ?_⟩
    · rw [sourceEnv_status, if_pos hogr]
    · rw [Env.value, sourceEnv_apply hogr env' (by decide), if_pos rfl]
      rfl
  obtain ⟨env'', hpair, hvalue⟩ := hsource
    ((env.assign "SCRIPT_DIR" (scriptsDir root)).assign "PROJECT_ROOT" (cmdSubst root))
  simp only [runConvertThenVerify, hdir, hnone, hpair, hvalue, Bool.not_true, Bool.false_eq_true,
    if_false]

/-- Without the project root, its `env.sh` or its `ogr2ogr` nothing is started. -/
theorem runConvertThenVerify_nil {host : Host File} {root : Text} (args : List Text) (env : Env)
    (h : ¬ (host.isDir (cmdSubst root) = true ∧
      (host.file (envPath (cmdSubst root))).isSome = true ∧
      host.executable (ogr2ogrPath (cmdSubst root)) = true)) :
    (runConvertThenVerify host root args env).2 = [] := by
  cases hdir : host.isDir (cmdSubst root) with
  | false => simp [runConvertThenVerify, hdir]
  | true =>
    cases henv : host.file (envPath (cmdSubst root)) with
    | none => simp [runConvertThenVerify, hdir, henv]
    | some envsh =>
      have hogr : host.executable (ogr2ogrPath (cmdSubst root)) = false := by
        rw [← Bool.not_eq_true]
        exact fun hogr => h ⟨hdir, by rw [henv]; rfl, hogr⟩
      have hstatus : ∀ env', ∃ env'', sourceEnv host (cmdSubst root) env' = (1, env'') := by
        intro env'
        refine ⟨(sourceEnv host (cmdSubst root) env').2, Prod.ext ?_ rfl⟩
        rw [sourceEnv_status, hogr]
        rfl
      obtain ⟨env'', hpair⟩ := hstatus ((env.assign "SCRIPT_DIR" (scriptsDir root)).assign
        "PROJECT_ROOT" (cmdSubst root))
      simp [runConvertThenVerify, hdir, henv, hpair]

theorem plannedScripts_head (host : Host File) (root : Text) (args : List Text)
    (convert verify : File) :
    (plannedScripts host root args convert verify).head? =
      some (plannedConvert root args convert) := by
  unfold plannedScripts
  split <;> rfl

theorem convertThenVerify_snd (host : Host File) (dir : Text) (args : List Text) :
    (convertThenVerify host dir args).2 = (startConvert host dir args).2 ++
      if (startConvert host dir args).1 = 0 then (startVerify host dir).2 else [] := by
  rw [convertThenVerify]
  by_cases hzero : (startConvert host dir args).1 = 0 <;> simp [hzero]

/-- The conversion is started if its script is there and may be executed. -/
theorem startConvert_cases (host : Host File) (dir : Text) (args : List Text) :
    ((startConvert host dir args).2 = [] ∧ (startConvert host dir args).1 ≠ 0 ∧
      ∀ f, ¬ (host.file (convertPath dir) = some f ∧ host.executable (convertPath dir) = true)) ∨
    ∃ f, host.file (convertPath dir) = some f ∧ host.executable (convertPath dir) = true ∧
      startConvert host dir args =
        (host.exit f (cmdSubst (parentDir dir)) (convertArgs args),
          [⟨f, cmdSubst (parentDir dir), convertArgs args⟩]) := by
  rw [startConvert]
  cases hfile : host.file (convertPath dir) with
  | none => exact Or.inl ⟨rfl, by simp, by simp⟩
  | some f =>
    cases hexec : host.executable (convertPath dir) with
    | false => exact Or.inl ⟨rfl, by simp, by simp⟩
    | true => exact Or.inr ⟨f, rfl, rfl, rfl⟩

theorem startVerify_iff (host : Host File) (dir root : Text) (verify : File) :
    (startVerify host dir).2 = [⟨verify, root, []⟩] ↔
      host.file (verifyPath dir) = some verify ∧ parentDir dir = root := by
  rw [startVerify]
  cases host.file (verifyPath dir) <;> simp

/-- In `/`, the verification is the planned one if its script is there. -/
theorem startVerify_top_iff (host : Host File) {root : Text} (htop : cmdSubst root = "/".toList)
    (verify : File) :
    (startVerify host (cmdSubst root)).2 = [⟨verify, root, []⟩] ↔
      root = "/".toList ∧ host.file (verifyPath (cmdSubst root)) = some verify := by
  have hparent : parentDir "/".toList = "/".toList := by decide
  rw [startVerify_iff, and_comm, htop, hparent, eq_comm]

/-- What is started in the project root is what is planned, if that is `/` and has the scripts. -/
theorem convertThenVerify_iff (host : Host File) (root : Text) (args : List Text)
    (convert verify : File) :
    (convertThenVerify host (cmdSubst root) args).2 =
        plannedScripts host root args convert verify ↔
      host.file (convertPath (cmdSubst root)) = some convert ∧
      host.executable (convertPath (cmdSubst root)) = true ∧
      cmdSubst root = "/".toList ∧
      (Converts host root args convert →
        root = "/".toList ∧ host.file (verifyPath (cmdSubst root)) = some verify) := by
  rw [convertThenVerify_snd]
  rcases startConvert_cases host (cmdSubst root) args with ⟨hnil, hstatus, hnot⟩ | ⟨f, hf, hx, heq⟩
  · rw [hnil, if_neg hstatus]
    constructor
    · intro h
      have hhead := plannedScripts_head host root args convert verify
      rw [← h] at hhead
      cases hhead
    · rintro ⟨hconvert, hx, _⟩
      exact absurd ⟨hconvert, hx⟩ (hnot convert)
  · have hstarted : (⟨f, cmdSubst (parentDir (cmdSubst root)), convertArgs args⟩ : Started File) =
        plannedConvert root args convert ↔ f = convert ∧ cmdSubst root = "/".toList := by
      rw [plannedConvert, Started.mk.injEq, cmdSubst_parentDir_iff]
      simp
    by_cases hsame : f = convert ∧ cmdSubst root = "/".toList
    · obtain ⟨rfl, htop⟩ := hsame
      have hparent := (cmdSubst_parentDir_iff (cmdSubst root)).mpr htop
      have hverify := startVerify_top_iff host htop verify
      rw [heq, hf, hx, hparent, plannedScripts, plannedConvert]
      by_cases hconv : Converts host root args f
      · have hstatus : host.exit f (cmdSubst root) (convertArgs args) = 0 := hconv
        rw [if_pos hconv, if_pos hstatus, List.singleton_append, List.cons.injEq, hverify]
        simp [htop, hconv]
      · have hstatus : ¬ host.exit f (cmdSubst root) (convertArgs args) = 0 := hconv
        rw [if_neg hconv, if_neg hstatus, List.append_nil]
        simp [htop, hconv]
    · constructor
      · intro h
        have hhead := plannedScripts_head host root args convert verify
        rw [← h, heq, List.singleton_append, List.head?_cons, Option.some.injEq, hstarted] at hhead
        exact absurd hhead hsame
      · rintro ⟨hconvert, _, htop, _⟩
        exact absurd ⟨Option.some.inj (hf.symm.trans hconvert), htop⟩ hsame

theorem runConvertThenVerify_iff (host : Host File) (root : Text) (args : List Text) (env : Env)
    (convert verify : File) :
    (runConvertThenVerify host root args env).2 = plannedScripts host root args convert verify ↔
      InRoot host root args convert verify := by
  by_cases h : host.isDir (cmdSubst root) = true ∧
      (host.file (envPath (cmdSubst root))).isSome = true ∧
      host.executable (ogr2ogrPath (cmdSubst root)) = true
  · obtain ⟨hdir, henv, hogr⟩ := h
    rw [runConvertThenVerify_eq args env hdir henv hogr, convertThenVerify_iff]
    constructor
    · rintro ⟨hfound, hpermitted, htop, hverified⟩
      exact ⟨hdir, henv, hogr, hfound, hpermitted, htop, hverified⟩
    · intro hin
      exact ⟨hin.found, hin.permitted, hin.top, hin.verified⟩
  · have hne : plannedScripts host root args convert verify ≠ [] := by
      intro hnil
      have hhead := plannedScripts_head host root args convert verify
      rw [hnil] at hhead
      cases hhead
    rw [runConvertThenVerify_nil args env h]
    constructor
    · intro heq
      exact absurd heq.symm hne
    · intro hin
      exact absurd ⟨hin.isDir, hin.hasEnv, hin.built⟩ h

/-- **Sourcing `env.sh`.** It disturbs nothing but its exports, and `run_convert_then_verify.sh`
starts the scripts of its project on the project, exactly if the caller's `SCRIPT_DIR`, `LOCAL` and
`_p` already have the values that `env.sh` assigns, and the project root is `/` and has the scripts
in it. -/
theorem env_frame_iff (host : Host File) (root : Text) (env : Env)
    (h : host.executable (ogr2ogrPath root) = true) (projectRoot : Text) (args : List Text)
    (env' : Env) (convert verify : File) :
    ((∀ x, x ∉ envExports → (sourceEnv host root env).2 x = env x) ∧
      (ProjectScripts host projectRoot convert verify →
        (runConvertThenVerify host projectRoot args env').2 =
          plannedScripts host projectRoot args convert verify)) ↔
      Prepared host root env ∧
      (ProjectScripts host projectRoot convert verify →
        InRoot host projectRoot args convert verify) := by
  rw [sourceEnv_frame_iff h, runConvertThenVerify_iff]

/-! ## A project -/

/-- A project with its scripts 1 and 2. With `linked`, there are links to them in its root, and they
may be executed. A script that does not find `env.sh` in its project root ends with status 1. -/
def sampleHost (root : Text) (linked : Bool) : Host Nat where
  isDir path := path = root
  executable path := path = ogr2ogrPath root || linked && path = convertPath root
  glob _ := [localDir root ++ "/lib/python*/site-packages".toList]
  file path :=
    if path = envPath root then some 0
    else if path = convertPath (scriptsDir root) then some 1
    else if path = verifyPath (scriptsDir root) then some 2
    else if linked && path = convertPath root then some 1
    else if linked && path = verifyPath root then some 2
    else none
  exit _ projectRoot _ := if projectRoot = root then 0 else 1

def topHost : Host Nat := sampleHost "/".toList true

/-- The variables after `env.sh` has been sourced once. -/
def sourcedEnv : Env := (sourceEnv topHost "/".toList fun _ => none).2

/-- With the project in `/` and links there, and in a shell that has sourced `env.sh` before. -/
theorem env_frame_linked :
    (∀ x, x ∉ envExports → (sourceEnv topHost "/".toList sourcedEnv).2 x = sourcedEnv x) ∧
    (ProjectScripts topHost "/".toList 1 2 →
      (runConvertThenVerify topHost "/".toList [] sourcedEnv).2 =
        [⟨1, "/".toList, []⟩, ⟨2, "/".toList, []⟩]) := by
  have hloop : loopWord topHost (sitePackages topHost "/".toList) = sourcedEnv "_p" := by decide
  have hprepared : Prepared topHost "/".toList sourcedEnv := by
    refine ⟨by decide, by decide, ?_⟩
    intro p hp
    rw [← hloop, hp]
  have hroot : InRoot topHost "/".toList [] 1 2 :=
    { isDir := by decide
      hasEnv := by decide
      built := by decide
      found := by decide
      permitted := by decide
      top := by decide
      verified := fun _ => ⟨rfl, by decide⟩ }
  exact (env_frame_iff topHost "/".toList sourcedEnv (by decide) "/".toList [] sourcedEnv 1 2).mpr
    ⟨hprepared, fun _ => hroot⟩

/-- `SCRIPT_DIR` of `run_convert_then_verify.sh` is lost, and the run ends with status 127 before
it has started anything. With links to the scripts in the project root, the conversion takes the
folder above for its project. -/
theorem env_frame_lost :
    (sourceEnv (sampleHost "/p".toList false) "/p".toList
      (Env.assign (fun _ => none) "SCRIPT_DIR" "/p/scripts".toList)).2 "SCRIPT_DIR" =
        some "/p".toList ∧
    ProjectScripts (sampleHost "/p".toList false) "/p".toList 1 2 ∧
    runConvertThenVerify (sampleHost "/p".toList false) "/p".toList [] (fun _ => none) =
      (127, []) ∧
    runConvertThenVerify (sampleHost "/p".toList true) "/p".toList [] (fun _ => none) =
      (1, [⟨1, "/".toList, []⟩]) :=
  ⟨by decide, ⟨by decide, by decide⟩, by decide, by decide⟩

end GdalFull.Pipeline
