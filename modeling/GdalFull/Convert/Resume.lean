import GdalFull.Convert.Tree
import Mathlib.Logic.Function.Basic

/-!
# Interrupted runs and `-s`

A run of a driver walks its tasks, one per CSV file. With `-s` a task whose output file
exists is skipped; otherwise `ogr2ogr` writes the output file in place. A call can fail, and
a run can be killed during a call or between two tasks, and then anything may be left at the
output path.

`runTasks_allDone_skip` and `runTasks_allDone` give what a run without failures leaves at a
path, with and without `-s`. The skip test reads only that a file exists, so a resumed run
keeps every file that the earlier runs left, complete or not (`resume_outputs`).
-/

namespace GdalFull.Convert

variable {C File : Type}

/-- The work on one CSV file: its output path and its complete conversion. `none` is a CSV
for which the driver reads no zone and makes no call. -/
structure Task (File : Type) where
  source : Source
  out : Name
  complete : Option File
  deriving DecidableEq

def tasks (driver : Driver) (convert : Source → C → Option File) (tree : InputTree C) :
    List (Task File) :=
  (sources tree).map fun x => ⟨x.1, x.1.outPath driver, convert x.1 x.2⟩

/-- The output directory: what is at each path. -/
abbrev Store (File : Type) := Name → Option File

/-- How the work on a CSV file ends: every call succeeds, a call fails, or the run is killed.
`left` is what is then at the output path. -/
inductive Ending (File : Type) where
  | done
  | failed (left : Option File)
  | killed (left : Option File)
  deriving DecidableEq

def Ending.goesOn : Ending File → Bool
  | .killed _ => false
  | _ => true

/-- What the calls for one CSV file do to the output directory. -/
def Task.finish (t : Task File) (e : Ending File) (st : Store File) : Store File :=
  match t.complete with
  | none => st
  | some file =>
    match e with
    | .done => Function.update st t.out (some file)
    | .failed left => Function.update st t.out left
    | .killed left => Function.update st t.out left

/-- The loops of a driver, with `SKIP_EXISTING`. -/
def runTasks (skip : Bool) : List (Task File × Ending File) → Store File → Store File
  | [], st => st
  | (t, e) :: rest, st =>
    if skip && (st t.out).isSome then runTasks skip rest st
    else if e.goesOn then runTasks skip rest (t.finish e st)
    else t.finish e st

/-- A run: whether it has `-s`, and how the tasks that it reaches end. -/
structure Run (File : Type) where
  skip : Bool
  endings : List (Ending File)

def Run.exec (ts : List (Task File)) (st : Store File) (r : Run File) : Store File :=
  runTasks r.skip (ts.zip r.endings) st

/-- The output directory after a sequence of runs into an empty one. -/
def history (ts : List (Task File)) (runs : List (Run File)) : Store File :=
  runs.foldl (Run.exec ts) fun _ => none

def allDone (ts : List (Task File)) : List (Task File × Ending File) :=
  ts.map fun t => (t, .done)

/-- A run with `-s` in which every call succeeds. -/
def resume (ts : List (Task File)) (st : Store File) : Store File :=
  runTasks true (allDone ts) st

/-- One uninterrupted run into an empty output directory. -/
def cleanRun (ts : List (Task File)) : Store File :=
  runTasks false (allDone ts) fun _ => none

/-! ## Runs without failures -/

/-- The conversions that are written to a path, in order. -/
def conversionsAt (p : Name) (ts : List (Task File)) : List File :=
  ts.filterMap fun t => if t.out = p then t.complete else none

theorem Task.finish_of_ne {t : Task File} {p : Name} (h : p ≠ t.out) (e : Ending File)
    (st : Store File) : t.finish e st p = st p := by
  unfold Task.finish
  cases t.complete with
  | none => rfl
  | some file => cases e <;> exact Function.update_of_ne h _ st

theorem Task.finish_done (t : Task File) (st : Store File) :
    t.finish .done st t.out = t.complete.or (st t.out) := by
  cases hc : t.complete <;> simp [Task.finish, hc]

theorem runTasks_allDone_skip (ts : List (Task File)) (st : Store File) (p : Name) :
    runTasks true (allDone ts) st p = (st p).or (conversionsAt p ts).head? := by
  induction ts generalizing st with
  | nil => simp [allDone, runTasks, conversionsAt]
  | cons t ts ih =>
    have hcons : allDone (t :: ts) = (t, .done) :: allDone ts := rfl
    rw [hcons, runTasks]
    by_cases hex : (st t.out).isSome = true
    · rw [if_pos (by simpa using hex), ih]
      by_cases hp : t.out = p
      · subst hp
        obtain ⟨file, hfile⟩ := Option.isSome_iff_exists.mp hex
        simp [hfile]
      · simp [conversionsAt, hp]
    · have hnone : st t.out = none := by simpa using hex
      have hgo : (Ending.done : Ending File).goesOn = true := rfl
      rw [if_neg (by simpa using hex), if_pos hgo, ih]
      by_cases hp : t.out = p
      · subst hp
        rw [Task.finish_done, hnone]
        cases hc : t.complete <;> simp [conversionsAt, hc]
      · simp [conversionsAt, hp, Task.finish_of_ne (Ne.symm hp)]

theorem runTasks_allDone (ts : List (Task File)) (st : Store File) (p : Name) :
    runTasks false (allDone ts) st p = (conversionsAt p ts).getLast?.or (st p) := by
  induction ts generalizing st with
  | nil => simp [allDone, runTasks, conversionsAt]
  | cons t ts ih =>
    have hcons : allDone (t :: ts) = (t, .done) :: allDone ts := rfl
    have hgo : (Ending.done : Ending File).goesOn = true := rfl
    rw [hcons, runTasks, if_neg (by simp), if_pos hgo, ih]
    by_cases hp : t.out = p
    · subst hp
      rw [Task.finish_done]
      have hstep : conversionsAt t.out (t :: ts) = t.complete.toList ++ conversionsAt t.out ts := by
        cases hc : t.complete <;> simp [conversionsAt, hc]
      rw [hstep, List.getLast?_append, Option.or_assoc]
      cases t.complete <;> rfl
    · simp [conversionsAt, hp, Task.finish_of_ne (Ne.symm hp)]

/-- No other CSV file has this one's output path. -/
def OwnPath (ts : List (Task File)) (t : Task File) : Prop :=
  t ∈ ts ∧ ∀ t' ∈ ts, t'.out = t.out → t' = t

instance [DecidableEq File] (ts : List (Task File)) (t : Task File) : Decidable (OwnPath ts t) :=
  inferInstanceAs (Decidable (_ ∧ _))

theorem mem_conversionsAt {ts : List (Task File)} {t : Task File} (hown : OwnPath ts t)
    (file : File) : file ∈ conversionsAt t.out ts ↔ t.complete = some file := by
  rw [conversionsAt, List.mem_filterMap]
  constructor
  · rintro ⟨t', hmem, hfile⟩
    by_cases hp : t'.out = t.out
    · rw [if_pos hp] at hfile
      rwa [← hown.2 t' hmem hp]
    · simp [hp] at hfile
  · intro hc
    exact ⟨t, hown.1, by simpa using hc⟩

/-- The first and the last conversion written to an own path are the complete one. -/
theorem conversionsAt_own {ts : List (Task File)} {t : Task File} (hown : OwnPath ts t) :
    (conversionsAt t.out ts).head? = t.complete ∧
      (conversionsAt t.out ts).getLast? = t.complete := by
  have hmem := mem_conversionsAt hown
  cases hl : conversionsAt t.out ts with
  | nil =>
    have hnone : t.complete = none := by
      apply Option.eq_none_iff_forall_ne_some.mpr
      intro file hc
      have := (hmem file).mpr hc
      simp [hl] at this
    simp [hnone]
  | cons file rest =>
    have hfirst : t.complete = some file := (hmem file).mp (by simp [hl])
    have hlast := (hmem ((file :: rest).getLast (by simp))).mp (by
      rw [hl]
      exact List.getLast_mem _)
    exact ⟨by simp [hfirst], by rw [List.getLast?_eq_some_getLast (by simp), hlast]⟩

theorem resume_own {ts : List (Task File)} {t : Task File} (hown : OwnPath ts t)
    (st : Store File) : resume ts st t.out = (st t.out).or t.complete := by
  rw [resume, runTasks_allDone_skip, (conversionsAt_own hown).1]

theorem cleanRun_own {ts : List (Task File)} {t : Task File} (hown : OwnPath ts t) :
    cleanRun ts t.out = t.complete := by
  rw [cleanRun, runTasks_allDone, (conversionsAt_own hown).2, Option.or_none]

/-! ## What interrupted runs leave -/

/-- The work on a CSV file leaves no incomplete file at its path. -/
def Ending.Harmless (complete : Option File) : Ending File → Prop
  | .done => True
  | .failed left => left = none ∨ left = complete
  | .killed left => left = none ∨ left = complete

instance [DecidableEq File] (complete : Option File) (e : Ending File) :
    Decidable (e.Harmless complete) := by
  cases e <;> unfold Ending.Harmless <;> infer_instance

/-- At the path of `t` there is nothing, or the complete conversion. -/
def Whole (t : Task File) (st : Store File) : Prop :=
  st t.out = none ∨ st t.out = t.complete

theorem Whole.finish {t : Task File} {e : Ending File} {st : Store File} (hst : Whole t st)
    (he : e.Harmless t.complete) : Whole t (t.finish e st) := by
  unfold Whole Task.finish at *
  cases hc : t.complete with
  | none => simpa [hc] using hst
  | some file =>
    cases e with
    | done => simp
    | failed left => simpa [Ending.Harmless, hc] using he
    | killed left => simpa [Ending.Harmless, hc] using he

theorem Whole.runTasks {ts : List (Task File)} {t : Task File} (hown : OwnPath ts t)
    (skip : Bool) (l : List (Task File × Ending File)) (hl : ∀ x ∈ l, x.1 ∈ ts)
    (he : ∀ e, (t, e) ∈ l → e.Harmless t.complete) {st : Store File} (hst : Whole t st) :
    Whole t (runTasks skip l st) := by
  induction l generalizing st with
  | nil => exact hst
  | cons x l ih =>
    obtain ⟨t', e⟩ := x
    have htail : ∀ x ∈ l, x.1 ∈ ts := fun x hx => hl x (List.mem_cons_of_mem _ hx)
    have hetail : ∀ e, (t, e) ∈ l → e.Harmless t.complete :=
      fun e hmem => he e (List.mem_cons_of_mem _ hmem)
    have hfinish : Whole t (t'.finish e st) := by
      by_cases hp : t'.out = t.out
      · obtain rfl := hown.2 t' (hl (t', e) List.mem_cons_self) hp
        exact hst.finish (he e List.mem_cons_self)
      · have hframe := Task.finish_of_ne (Ne.symm hp) e st
        simpa only [Whole, hframe] using hst
    rw [Convert.runTasks]
    split
    · exact ih htail hetail hst
    · split
      · exact ih htail hetail hfinish
      · exact hfinish

theorem Whole.history {ts : List (Task File)} {t : Task File} (hown : OwnPath ts t)
    (runs : List (Run File))
    (he : ∀ r ∈ runs, ∀ e, (t, e) ∈ ts.zip r.endings → e.Harmless t.complete) :
    Whole t (history ts runs) := by
  have hstart : Whole t fun _ => none := Or.inl rfl
  refine List.foldlRecOn runs (Run.exec ts) hstart ?_
  intro st hst r hr
  refine Whole.runTasks hown r.skip _ ?_ (he r hr) hst
  intro x hx
  exact (List.of_mem_zip hx).1

/-! ## The resumed run -/

/-- After any runs, a run with `-s` leaves what was at the output path of a CSV file, and the
complete conversion if nothing was. The outcome is that of a clean run exactly if the earlier
runs left nothing or the complete conversion, as they do if no failed or killed call leaves
an incomplete file. -/
theorem resume_outputs (driver : Driver) (convert : Source → C → Option File) (tree : InputTree C)
    (runs : List (Run File)) (t : Task File) (hown : OwnPath (tasks driver convert tree) t) :
    cleanRun (tasks driver convert tree) t.out = t.complete ∧
    resume (tasks driver convert tree) (history (tasks driver convert tree) runs) t.out =
      (history (tasks driver convert tree) runs t.out).or t.complete ∧
    (resume (tasks driver convert tree) (history (tasks driver convert tree) runs) t.out =
        cleanRun (tasks driver convert tree) t.out ↔
      Whole t (history (tasks driver convert tree) runs)) ∧
    ((∀ r ∈ runs, ∀ e, (t, e) ∈ (tasks driver convert tree).zip r.endings →
        e.Harmless t.complete) →
      Whole t (history (tasks driver convert tree) runs)) := by
  refine ⟨cleanRun_own hown, resume_own hown _, ?_, Whole.history hown runs⟩
  rw [resume_own hown, cleanRun_own hown, Whole]
  cases history (tasks driver convert tree) runs t.out with
  | none => simp
  | some file => simp

/-- A tree with one CSV file. -/
def oneTree : InputTree Nat
  | .gaiku => some ⟨[("13101.csv".toList, .file 7)], by decide⟩
  | _ => none

def oneTask : Task Nat :=
  ⟨.root .gaiku "13101.csv".toList, "街区基準点等データ/13101.gpkg".toList, some 7⟩

/-- A killed run that leaves nothing, then `-s`. -/
theorem resume_outputs_oneTree :
    resume (tasks .csvToGeopackage (fun _ rows => some rows) oneTree)
        (history (tasks .csvToGeopackage (fun _ rows => some rows) oneTree)
          [⟨false, [.killed none]⟩]) oneTask.out =
      cleanRun (tasks .csvToGeopackage (fun _ rows => some rows) oneTree) oneTask.out := by
  have h := resume_outputs .csvToGeopackage (fun _ rows => some rows) oneTree
    [⟨false, [.killed none]⟩] oneTask (by decide)
  refine h.2.2.1.mpr (h.2.2.2 ?_)
  intro r hr e he
  obtain rfl := List.mem_singleton.mp hr
  have hzip : (tasks .csvToGeopackage (fun _ rows => some rows) oneTree).zip
      [(Ending.killed none : Ending Nat)] = [(oneTask, .killed none)] := by decide
  rw [hzip, List.mem_singleton] at he
  cases he
  exact Or.inl rfl

/-- A killed run leaves 3 of 7 records, and the run with `-s` keeps them, where a clean run
writes all 7; so for both drivers. -/
theorem resume_partial_kept :
    (∃ t ∈ tasks .csvToGeopackage (fun _ rows => some rows) oneTree,
      resume (tasks .csvToGeopackage (fun _ rows => some rows) oneTree)
        (history (tasks .csvToGeopackage (fun _ rows => some rows) oneTree)
          [⟨false, [.killed (some 3)]⟩]) t.out = some 3 ∧
      cleanRun (tasks .csvToGeopackage (fun _ rows => some rows) oneTree) t.out = some 7) ∧
    (∃ t ∈ tasks .csvToGeoparquet (fun _ rows => some rows) oneTree,
      resume (tasks .csvToGeoparquet (fun _ rows => some rows) oneTree)
        (history (tasks .csvToGeoparquet (fun _ rows => some rows) oneTree)
          [⟨false, [.killed (some 3)]⟩]) t.out = some 3 ∧
      cleanRun (tasks .csvToGeoparquet (fun _ rows => some rows) oneTree) t.out = some 7) := by
  constructor
  · exact ⟨oneTask, by decide, by decide, by decide⟩
  · exact ⟨{ oneTask with out := "街区基準点等データ/13101.parquet".toList },
      by decide, by decide, by decide⟩

end GdalFull.Convert
