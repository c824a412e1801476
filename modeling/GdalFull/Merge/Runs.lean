import GdalFull.Merge.Shell

/-!
# Merges over many runs, and two merges of the same files

`merge_gaiku_geoparquet.py` goes through a temporary GeoPackage, which it removes after the
conversion to Parquet. A run that ends before that leaves the GeoPackage to the next run, and a
run whose first call fails appends to what it finds. `gaiku_history_iff` says, for every
sequence of runs, when the Parquet file of a successful run holds the files of that run and
nothing else: its first call succeeds, or no earlier run has left features that every run since
then passed on.

`tochi_drivers_agree_iff` compares the two drivers for 土地活用 on the same files. The shell
driver takes one reference system for all of them and merges the files themselves; the outputs are
the same exactly if that is the system of the zone of every merged file, and no copy with 元X and
元Y is merged in the place of a file. The default is the system of zone 6.
-/

namespace GdalFull.Merge

open Lib

variable {Src Out F : Type}

/-! ## Runs of merge_gaiku_geoparquet.py -/

/-- A run of `main`: the files of the input directory, if it is there, and how the conversion
to Parquet and the removal of the GeoPackage end. -/
structure GaikuRun (Src F : Type) where
  parquets : Option (List (GaikuFile Src (List F)))
  toParquet : ProcEnd (List F)
  removed : Bool

namespace GaikuRun

variable (part : Reading Src → List F) (r : GaikuRun Src F)

def exec (outputs : GaikuOutputs (List F)) : Nat × GaikuOutputs (List F) :=
  gaikuMain (Sink.concat part) outputs r.toParquet r.removed r.parquets

def files : List (GaikuFile Src (List F)) := r.parquets.getD []

/-- The files after a sequence of runs. -/
def history (outputs : GaikuOutputs (List F)) (runs : List (GaikuRun Src F)) :
    GaikuOutputs (List F) :=
  runs.foldl (fun outputs r => (r.exec part outputs).2) outputs

def attempts : List (Attempt (Reading Src)) := gaikuAttempts r.files

/-- The features of the files that the run merges. -/
def merged : List F := (succeeded r.attempts).flatMap part

/-- The first call of the run succeeds, and replaces what is there. -/
def replaces : Bool := r.attempts.head?.any Attempt.ok

/-- The run converts its GeoPackage and removes it. -/
def clears : Bool := !(succeeded r.attempts).isEmpty && r.toParquet.ok && r.removed

/-- No call of the loop runs into its time limit. -/
def NoTimeout : Prop := ∀ f ∈ r.files, ∃ code, f.proc = .exit code

end GaikuRun

theorem gaikuFile_returns (k : Sink (Reading Src) Out) (st : State Out) {f : GaikuFile Src Out}
    (h : ∃ code, f.proc = .exit code) : ∃ st', gaikuFile k st f = .ok st' := by
  obtain ⟨code, hproc⟩ := h
  unfold gaikuFile runCall
  cases f.zukei with
  | none => exact ⟨_, rfl⟩
  | some z =>
    dsimp only
    rw [hproc]
    by_cases hcode : code = 0
    · exact ⟨_, if_pos hcode⟩
    · exact ⟨_, if_neg hcode⟩

/-- A loop without timeouts ends, and its state is that of the calls. -/
theorem gaikuLoop_returns (k : Sink (Reading Src) Out) (prior : Option Out)
    {parquets : List (GaikuFile Src Out)}
    (h : ∀ f ∈ parquets, ∃ code, f.proc = .exit code) :
    ∃ st, gaikuLoop k prior parquets = .ok st ∧
      st.merged = (succeeded (gaikuAttempts parquets)).length ∧
      st.output = k.grow (kept prior (gaikuAttempts parquets))
        (succeeded (gaikuAttempts parquets)) := by
  obtain ⟨st, hst⟩ : ∃ st, gaikuLoop k prior parquets = .ok st := by
    unfold gaikuLoop
    generalize (State.start prior : State Out) = start
    induction parquets generalizing start with
    | nil => exact ⟨start, rfl⟩
    | cons f parquets ih =>
      obtain ⟨st', hst'⟩ := gaikuFile_returns k start (h f List.mem_cons_self)
      rw [List.foldlM_cons, hst']
      exact ih (fun g hg => h g (List.mem_cons_of_mem f hg)) st'
  have hprogress := gaikuLoop_progress hst
  rw [foldl_attempt_eager] at hprogress
  exact ⟨st, hst, congrArg Progress.merged hprogress, congrArg Progress.output hprogress⟩

namespace GaikuRun

variable {part : Reading Src → List F} {r : GaikuRun Src F}

/-- What the run builds on. -/
def base (r : GaikuRun Src F) (prior : List F) : List F := if r.replaces then [] else prior

theorem kept_getD (prior : Option (List F)) (hne : succeeded r.attempts ≠ []) :
    (kept prior r.attempts).getD [] = r.base (prior.getD []) := by
  unfold base replaces kept
  cases h : r.attempts with
  | nil => simp [h] at hne
  | cons a as => cases ha : a.ok <;> simp [ha]

theorem kept_of_none (prior : Option (List F)) (hnone : succeeded r.attempts = []) :
    kept prior r.attempts = prior := by
  rw [succeeded_eq_nil_iff] at hnone
  unfold kept
  cases h : r.attempts with
  | nil => rfl
  | cons a as =>
    have ha : a.ok = false := hnone a (h ▸ List.mem_cons_self)
    simp [ha]

/-- A run by its calls: without a merged file nothing changes, otherwise the GeoPackage holds
what the run builds on and the merged files. -/
theorem exec_cases (part : Reading Src → List F) (hr : r.NoTimeout)
    (outputs : GaikuOutputs (List F)) :
    (succeeded r.attempts = [] → r.exec part outputs = (1, outputs)) ∧
    (succeeded r.attempts ≠ [] →
      let layer := r.base (outputs.gpkg.getD []) ++ r.merged part
      r.exec part outputs = match r.toParquet with
        | .timeout left => (1, ⟨some layer, left⟩)
        | .exit code =>
          if code = 0 then (0, ⟨if r.removed then none else some layer, some layer⟩)
          else (1, { outputs with gpkg := some layer })) := by
  obtain ⟨parquets, toParquet, removed⟩ := r
  have hnil : ∀ files : Option (List (GaikuFile Src (List F))), files.getD [] = [] →
      gaikuMain (Sink.concat part) outputs toParquet removed files = (1, outputs) := by
    intro files hfiles
    cases files with
    | none => rfl
    | some fs =>
      obtain rfl : fs = [] := hfiles
      rfl
  cases hfiles : parquets.getD [] with
  | nil =>
    have hsucc : succeeded (gaikuAttempts (parquets.getD [])) = [] := by rw [hfiles]; rfl
    exact ⟨fun _ => hnil parquets hfiles, fun hne => absurd hsucc hne⟩
  | cons f fs =>
    have hparquets : parquets = some (f :: fs) := by
      cases parquets with
      | none => cases hfiles
      | some fs' => exact congrArg some hfiles
    subst hparquets
    obtain ⟨st, hst, hmerged, houtput⟩ :=
      gaikuLoop_returns (Sink.concat part) outputs.gpkg hr
    have hloop : gaikuLoop (Sink.concat part) outputs.gpkg (f :: fs) = .ok st := hst
    refine ⟨fun hsucc => ?_, fun hne => ?_⟩
    · have hzero : st.merged = 0 := hmerged.trans (congrArg List.length hsucc)
      have hkept : st.output = outputs.gpkg := by
        rw [houtput]
        exact (congrArg (Sink.grow _ _) hsucc).trans (kept_of_none outputs.gpkg hsucc)
      simp only [exec, gaikuMain, hloop, hzero, if_true, hkept]
    · intro layer
      have hpos : st.merged ≠ 0 := by
        rw [hmerged]
        exact fun h => hne (List.length_eq_zero_iff.mp h)
      have hlayer : st.output = some layer := by
        rw [houtput]
        have hkept := kept_getD (r := ⟨some (f :: fs), toParquet, removed⟩) outputs.gpkg hne
        exact (Sink.concat_grow part _ hne).trans (congrArg (fun old => some (old ++ _)) hkept)
      simp only [exec, gaikuMain, hloop, hpos, if_false, hlayer]
      cases toParquet with
      | timeout left => rfl
      | exit code => rfl

/-- What a run leaves in the GeoPackage. -/
theorem exec_gpkg (hr : r.NoTimeout) (outputs : GaikuOutputs (List F)) :
    (r.exec part outputs).2.gpkg.getD [] =
      if r.clears then [] else r.base (outputs.gpkg.getD []) ++ r.merged part := by
  obtain ⟨hnone, hsome⟩ := exec_cases part hr outputs
  by_cases hsucc : succeeded r.attempts = []
  · have hreplaces : r.replaces = false := by
      unfold replaces
      rw [succeeded_eq_nil_iff] at hsucc
      cases h : r.attempts with
      | nil => rfl
      | cons a as => simpa using hsucc a (h ▸ List.mem_cons_self)
    rw [hnone hsucc]
    simp [clears, merged, base, hsucc, hreplaces]
  · rw [hsome hsucc]
    have hne : (succeeded r.attempts).isEmpty = false := by simpa using hsucc
    cases hconv : r.toParquet with
    | timeout left => simp [clears, hconv, ProcEnd.ok]
    | exit code =>
      by_cases hcode : code = 0
      · cases hrem : r.removed <;> simp [clears, hconv, ProcEnd.ok, hcode, hrem, hne]
      · simp [clears, hconv, ProcEnd.ok, hcode]

/-- The Parquet file of a run that exits with 0. -/
theorem exec_parquet (hr : r.NoTimeout) {outputs : GaikuOutputs (List F)}
    (hzero : (r.exec part outputs).1 = 0) :
    (r.exec part outputs).2.parquet =
      some (r.base (outputs.gpkg.getD []) ++ r.merged part) := by
  obtain ⟨hnone, hsome⟩ := exec_cases part hr outputs
  by_cases hsucc : succeeded r.attempts = []
  · rw [hnone hsucc] at hzero
    cases hzero
  · rw [hsome hsucc] at hzero ⊢
    cases hconv : r.toParquet with
    | timeout left => simp [hconv] at hzero
    | exit code =>
      by_cases hcode : code = 0
      · simp [hcode]
      · simp [hconv, hcode] at hzero

/-! ## Sequences of runs -/

/-- The run puts features into the GeoPackage and leaves it there. -/
def Leaves (part : Reading Src → List F) (q : GaikuRun Src F) : Prop :=
  q.clears = false ∧ q.merged part ≠ []

/-- The run neither replaces nor removes what it finds in the GeoPackage. -/
def PassesOn (q : GaikuRun Src F) : Prop := q.clears = false ∧ q.replaces = false

/-- There are features left from the runs. -/
def LeftOver (part : Reading Src → List F) (runs : List (GaikuRun Src F)) : Prop :=
  ∃ older q newer, runs = older ++ q :: newer ∧ q.Leaves part ∧ ∀ p ∈ newer, p.PassesOn

theorem leftOver_concat (runs : List (GaikuRun Src F)) (r : GaikuRun Src F) :
    LeftOver part (runs ++ [r]) ↔
      r.clears = false ∧ (r.merged part ≠ [] ∨ r.replaces = false ∧ LeftOver part runs) := by
  constructor
  · rintro ⟨older, q, newer, heq, hleaves, hpass⟩
    rcases List.eq_nil_or_concat newer with rfl | ⟨newer, p, rfl⟩
    · obtain ⟨-, hqr⟩ := List.append_inj' heq rfl
      obtain rfl : r = q := by simpa using hqr
      exact ⟨hleaves.1, Or.inl hleaves.2⟩
    · rw [List.concat_eq_append, ← List.cons_append, ← List.append_assoc] at heq
      obtain ⟨hruns, hrp⟩ := List.append_inj' heq rfl
      obtain rfl : r = p := by simpa using hrp
      obtain ⟨hclears, hreplaces⟩ := hpass r (by simp)
      exact ⟨hclears, Or.inr ⟨hreplaces, older, q, newer, hruns, hleaves,
        fun p hp => hpass p (by simp [hp])⟩⟩
  · rintro ⟨hclears, hmerged | ⟨hreplaces, older, q, newer, rfl, hleaves, hpass⟩⟩
    · exact ⟨runs, r, [], by simp, ⟨hclears, hmerged⟩, by simp⟩
    · refine ⟨older, q, newer ++ [r], by simp, hleaves, ?_⟩
      intro p hp
      rcases List.mem_append.mp hp with hp | hp
      · exact hpass p hp
      · rw [List.mem_singleton.mp hp]
        exact ⟨hclears, hreplaces⟩

/-- After any sequence of runs from a clean start, the GeoPackage has features in it exactly if
some are left over. -/
theorem history_gpkg_iff (runs : List (GaikuRun Src F)) (hruns : ∀ r ∈ runs, r.NoTimeout)
    (parquet : Option (List F)) :
    (history part ⟨none, parquet⟩ runs).gpkg.getD [] ≠ [] ↔ LeftOver part runs := by
  induction runs using List.reverseRecOn with
  | nil =>
    refine iff_of_false (by simp [history]) ?_
    rintro ⟨older, q, newer, heq, -⟩
    simp at heq
  | append_singleton runs r ih =>
    have ih := ih fun q hq => hruns q (List.mem_append_left _ hq)
    rw [leftOver_concat, ← ih, history, List.foldl_append, List.foldl_cons, List.foldl_nil]
    change (r.exec part (history part ⟨none, parquet⟩ runs)).2.gpkg.getD [] ≠ [] ↔ _
    rw [exec_gpkg (hruns r (by simp))]
    cases hclears : r.clears <;> cases hreplaces : r.replaces <;>
      simp [base, hreplaces, or_comm, ← imp_iff_not_or]

end GaikuRun

/-- **The Parquet file after many runs.** A run that exits with 0 leaves the features of the
files that it merged and no others exactly if its first call succeeded, or no earlier run has
left features in the temporary GeoPackage that every run since then passed on. -/
theorem gaiku_history_iff (part : Reading Src → List F) (runs : List (GaikuRun Src F))
    (hruns : ∀ q ∈ runs, q.NoTimeout) (r : GaikuRun Src F) (hr : r.NoTimeout)
    (parquet : Option (List F))
    (hzero : (r.exec part (GaikuRun.history part ⟨none, parquet⟩ runs)).1 = 0) :
    (r.exec part (GaikuRun.history part ⟨none, parquet⟩ runs)).2.parquet =
        some (r.merged part) ↔
      r.replaces = true ∨ ¬ GaikuRun.LeftOver part runs := by
  rw [GaikuRun.exec_parquet hr hzero, ← GaikuRun.history_gpkg_iff runs hruns parquet]
  cases hreplaces : r.replaces <;> simp [GaikuRun.base, hreplaces]

/-- A run whose conversion fails, and then one whose first call fails: the features of the
first run are in the Parquet file of the second. -/
theorem gaiku_history_left_over :
    let part : Reading Nat → List Nat := fun r => [r.src]
    let failed : GaikuRun Nat Nat := ⟨some [⟨1, some 9, .exit 0⟩], .exit 1, true⟩
    let r : GaikuRun Nat Nat := ⟨some [⟨2, some 9, .exit 1⟩, ⟨3, some 9, .exit 0⟩], .exit 0, true⟩
    (r.exec part (GaikuRun.history part ⟨none, none⟩ [failed])).1 = 0 ∧
      (r.exec part (GaikuRun.history part ⟨none, none⟩ [failed])).2.parquet ≠
        some (r.merged part) := by
  intro part failed r
  have hfailed : ∀ q ∈ [failed], q.NoTimeout := by
    intro q hq
    rw [List.mem_singleton.mp hq]
    intro f hf
    rw [List.mem_singleton.mp hf]
    exact ⟨0, rfl⟩
  have hr : r.NoTimeout := by
    intro f hf
    rcases List.mem_cons.mp hf with rfl | hf
    · exact ⟨1, rfl⟩
    · rw [List.mem_singleton.mp hf]
      exact ⟨0, rfl⟩
  have hzero : (r.exec part (GaikuRun.history part ⟨none, none⟩ [failed])).1 = 0 := by decide
  refine ⟨hzero, fun hown => ?_⟩
  rcases (gaiku_history_iff part [failed] hfailed r hr none hzero).mp hown with h | h
  · exact absurd h (by decide)
  · exact h ⟨[], failed, [], rfl, ⟨by decide, by decide⟩, by simp⟩

/-! ## The two drivers for 土地活用 -/

/-- A file as both drivers meet it: its zone, whether `add_genxy_to_gpkg` writes a copy of it, and
whether the call for it succeeds. No step raises an exception or runs into its time limit. -/
structure SharedFile (Src : Type) where
  src : Src
  zukei : Option Nat
  copied : Bool
  ok : Bool
  deriving DecidableEq

namespace SharedFile

/-- For `merge_tochi_geopackage.py`. -/
def python (f : SharedFile Src) : TochiFile Src Out :=
  ⟨f.src, f.zukei, if f.copied then .written else .refused, .exit (if f.ok then 0 else 1)⟩

/-- For `merge_tochi_geopackage.sh`. -/
def shell (f : SharedFile Src) : ShellFile Src := ⟨f.src, if f.ok then 0 else 1⟩

/-- What the Python driver reads from the file, if it merges it. -/
def pythonReading (hasOgr : Bool) (genxy : Nat → Src → Src) (f : SharedFile Src) :
    Option (Reading Src) :=
  if f.ok then
    f.zukei.map fun z =>
      ⟨some (epsgBase + z), some tochiTgtSrs, if hasOgr && f.copied then genxy z f.src else f.src⟩
  else none

/-- What the shell driver reads from the file, if it merges it. -/
def shellReading (srcSrs : Nat) (f : SharedFile Src) : Option (Reading Src) :=
  if f.ok then some ⟨some srcSrs, some 3857, f.src⟩ else none

theorem python_attempt? (hasOgr : Bool) (genxy : Nat → Src → Src) (f : SharedFile Src) :
    (f.python : TochiFile Src Out).attempt? hasOgr genxy =
      f.zukei.map fun z => ⟨⟨some (epsgBase + z), some tochiTgtSrs,
        if hasOgr && f.copied then genxy z f.src else f.src⟩, f.ok⟩ := by
  have hproc : (ProcEnd.exit (if f.ok then 0 else 1) : ProcEnd Out).ok = f.ok := by
    cases f.ok <;> rfl
  have hcopy : ((if f.copied then CopyEnd.written else .refused) == .written) = f.copied := by
    cases f.copied <;> rfl
  simp only [TochiFile.attempt?, TochiFile.srcPath, python, hproc, hcopy]

theorem python_succeeded (hasOgr : Bool) (genxy : Nat → Src → Src) (fs : List (SharedFile Src)) :
    succeeded (tochiAttempts hasOgr genxy (fs.map (python : _ → TochiFile Src Out))) =
      fs.filterMap (pythonReading hasOgr genxy) := by
  induction fs with
  | nil => rfl
  | cons f fs ih =>
    rw [List.map_cons, List.filterMap_cons, tochiAttempts, List.filterMap_cons, python_attempt?]
    rw [tochiAttempts] at ih
    cases hz : f.zukei with
    | none => cases hok : f.ok <;> simpa [pythonReading, hz, hok] using ih
    | some z => cases hok : f.ok <;> simpa [pythonReading, hz, hok, succeeded] using ih

theorem shell_succeeded (srcSrs : Nat) (fs : List (SharedFile Src)) :
    succeeded ((fs.map shell).map (ShellFile.attempt (mergeTochiGeopackage srcSrs))) =
      fs.filterMap (shellReading srcSrs) := by
  induction fs with
  | nil => rfl
  | cons f fs ih =>
    rw [List.map_cons, List.map_cons, List.filterMap_cons]
    cases hok : f.ok with
    | false => simpa [shell, shellReading, succeeded, ShellFile.attempt, hok] using ih
    | true =>
      simpa [shell, shellReading, succeeded, ShellFile.attempt, hok, mergeTochiGeopackage,
        ShellDriver.reading] using ih

/-- The system is that of the zone of the file, and no other file is merged in its place. -/
def Alike (hasOgr : Bool) (genxy : Nat → Src → Src) (srcSrs : Nat) (f : SharedFile Src) : Prop :=
  ∃ z, f.zukei = some z ∧ epsgBase + z = srcSrs ∧
    (hasOgr = true → f.copied = true → genxy z f.src = f.src)

theorem pythonReading_eq_iff (hasOgr : Bool) (genxy : Nat → Src → Src) (srcSrs : Nat)
    {f : SharedFile Src} (hok : f.ok = true) :
    f.pythonReading hasOgr genxy = f.shellReading srcSrs ↔ f.Alike hasOgr genxy srcSrs := by
  unfold pythonReading shellReading Alike
  cases f.zukei with
  | none => simp [hok]
  | some z => cases hasOgr <;> cases f.copied <;> simp [hok, tochiTgtSrs]

/-- The readings are the same exactly if they are for every file that is merged. -/
theorem readings_eq_iff (hasOgr : Bool) (genxy : Nat → Src → Src) (srcSrs : Nat)
    (fs : List (SharedFile Src)) :
    fs.filterMap (pythonReading hasOgr genxy) = fs.filterMap (shellReading srcSrs) ↔
      ∀ f ∈ fs, f.ok = true → f.Alike hasOgr genxy srcSrs := by
  have hlength : ∀ fs : List (SharedFile Src), (fs.filterMap (pythonReading hasOgr genxy)).length ≤
      (fs.filterMap (shellReading srcSrs)).length := by
    intro fs
    induction fs with
    | nil => exact Nat.le_refl _
    | cons f fs ih =>
      cases hok : f.ok <;> cases hz : f.zukei <;>
        simp [pythonReading, shellReading, hok, hz] <;> omega
  induction fs with
  | nil => simp
  | cons f fs ih =>
    rw [List.forall_mem_cons]
    refine Iff.trans ?_ (and_congr_right fun _ => ih)
    cases hok : f.ok with
    | false => simp [pythonReading, shellReading, hok]
    | true =>
      rw [forall_prop_of_true rfl, ← pythonReading_eq_iff hasOgr genxy srcSrs hok,
        List.filterMap_cons, List.filterMap_cons]
      have hshell : f.shellReading srcSrs = some ⟨some srcSrs, some 3857, f.src⟩ := by
        simp [shellReading, hok]
      cases hpython : f.pythonReading hasOgr genxy with
      | none =>
        -- one file less on the left, and no file is only there
        rw [hshell]
        refine iff_of_false (fun h => ?_) (by simp)
        have hle := hlength fs
        dsimp only at h
        rw [h, List.length_cons] at hle
        omega
      | some reading =>
        rw [hshell]
        simp

end SharedFile

/-- A loop over such files ends, and its state is that of the calls. -/
theorem tochiLoop_returns {k : Sink (Reading Src) Out} (hasOgr : Bool) (genxy : Nat → Src → Src)
    (prior : Option Out) (fs : List (SharedFile Src)) :
    ∃ st, tochiLoop k hasOgr genxy prior (fs.map SharedFile.python) = .ok st ∧
      let attempts := tochiAttempts hasOgr genxy
        (fs.map (SharedFile.python : _ → TochiFile Src Out))
      st.output = k.grow (kept prior attempts) (succeeded attempts) := by
  obtain ⟨st, hst⟩ : ∃ st, tochiLoop k hasOgr genxy prior (fs.map SharedFile.python) = .ok st := by
    unfold tochiLoop
    generalize (State.start prior : State Out) = start
    induction fs generalizing start with
    | nil => exact ⟨start, rfl⟩
    | cons f fs ih =>
      obtain ⟨st', hst'⟩ : ∃ st', tochiFile k hasOgr genxy start f.python = .ok st' := by
        unfold tochiFile SharedFile.python runCall
        cases f.zukei with
        | none => exact ⟨_, rfl⟩
        | some z => cases hasOgr <;> cases f.copied <;> cases f.ok <;> exact ⟨_, rfl⟩
      rw [List.map_cons, List.foldlM_cons, hst']
      exact ih st'
  have hprogress := tochiLoop_progress hst
  rw [foldl_attempt_eager] at hprogress
  exact ⟨st, hst, congrArg Progress.output hprogress⟩

/-- From nothing, a file of readings tells which they were. -/
theorem grow_readings_inj {xs ys : List (Reading Src)} :
    (Sink.concat fun r : Reading Src => [r]).grow none xs =
        (Sink.concat fun r : Reading Src => [r]).grow none ys ↔ xs = ys := by
  have hgrow : ∀ {xs : List (Reading Src)}, xs ≠ [] →
      (Sink.concat fun r : Reading Src => [r]).grow none xs = some xs := by
    intro xs hxs
    rw [Sink.concat_grow _ none hxs]
    simp
  refine ⟨fun h => ?_, fun h => by rw [h]⟩
  by_cases hxs : xs = [] <;> by_cases hys : ys = []
  · rw [hxs, hys]
  · rw [hxs, Sink.grow_nil, hgrow hys] at h
    cases h
  · rw [hys, Sink.grow_nil, hgrow hxs] at h
    cases h
  · rw [hgrow hxs, hgrow hys] at h
    exact Option.some.inj h

/-- The default of `SRC_SRS`. -/
def defaultSrcSrs : Nat := 6674

/-- **The two drivers for 土地活用.** On the same files, from no output file, the shell driver
with a given system and the Python driver read the same into the merged layer exactly if, for every
file whose call succeeds, the system is that of its zone and the Python driver has no copy of it
that differs from it. For the default system the zone is 6. -/
theorem tochi_drivers_agree_iff (hasOgr : Bool) (genxy : Nat → Src → Src) (srcSrs : Nat)
    (fs : List (SharedFile Src)) :
    ((tochiMain (Sink.concat fun r : Reading Src => [r]) hasOgr genxy none
          (some (fs.map SharedFile.python))).2.output =
        (shellMain (Sink.concat fun r : Reading Src => [r]) (mergeTochiGeopackage srcSrs) none
          (some (fs.map SharedFile.shell))).2 ↔
      ∀ f ∈ fs, f.ok = true → f.Alike hasOgr genxy srcSrs) ∧
    ∀ z, epsgBase + z = defaultSrcSrs ↔ z = 6 := by
  refine ⟨?_, fun z => ?_⟩
  · have hread := @SharedFile.python_succeeded Src (List (Reading Src)) hasOgr genxy fs
    rw [← SharedFile.readings_eq_iff, ← hread, ← SharedFile.shell_succeeded, ← grow_readings_inj]
    obtain ⟨st, hst, hpython⟩ :=
      tochiLoop_returns (k := Sink.concat fun r : Reading Src => [r]) hasOgr genxy none fs
    have hkept : ∀ as : List (Attempt (Reading Src)),
        kept (none : Option (List (Reading Src))) as = none := fun as => by simp [kept]
    have hshell := shellLoop_eq (Sink.concat fun r : Reading Src => [r])
      (mergeTochiGeopackage srcSrs) none (fs.map SharedFile.shell)
    rw [foldl_attempt_lazy] at hshell
    dsimp only at hpython
    rw [hkept] at hpython
    cases fs with
    | nil => simp [tochiMain, shellMain, tochiAttempts, State.start, Progress.start]
    | cons f fs =>
      have htochi : (tochiMain (Sink.concat fun r : Reading Src => [r]) hasOgr genxy none
          (some ((f :: fs).map SharedFile.python))).2.output = st.output := by
        simp only [List.map_cons, tochiMain] at hst ⊢
        rw [hst]
      have hsh : (shellMain (Sink.concat fun r : Reading Src => [r]) (mergeTochiGeopackage srcSrs)
          none (some ((f :: fs).map SharedFile.shell))).2 =
          (shellLoop (Sink.concat fun r : Reading Src => [r]) (mergeTochiGeopackage srcSrs) none
            ((f :: fs).map SharedFile.shell)).output := rfl
      rw [htochi, hsh, hpython, hshell]
      simp
  · rw [epsgBase, defaultSrcSrs]
    omega

end GdalFull.Merge
