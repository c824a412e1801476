import GdalFull.Lib.Loop
import GdalFull.Lib.PyStr
import Mathlib.Data.List.Infix

/-!
# Starting and stopping the bundled PostgreSQL

`pg_start.sh` makes the cluster `pg-data` if it is not there, asks `pg_ctl status` whether a
server runs, and starts one if not. It looks for the word `running` in what `pg_ctl` prints,
and `pg_ctl` prints `no server running` for a stopped server. When the word is not printed at
all, `pg_ctl` has given up before it came to the process, and `pg_ctl start` gives up at the
same place. `build_postgresql.sh` does not ask for translations, so the messages are those of
the source.

`pgStart_serving`: no run of the script starts a server. `history_serving` carries that through
every sequence of runs of `pg_start.sh` and `pg_stop.sh`, and `pgStart_exit_iff` says when the
script reports success; a server has no part in it. Both are put together in `start_report`.
-/

namespace GdalFull.Postgres

open GdalFull.Lib

/-- What is at `pg-data`: nothing, a directory without `PG_VERSION`, or a cluster. -/
inductive DataDir where
  | missing
  | plain
  | cluster
  deriving DecidableEq

/-- What `fopen` and `fscanf` find at `postmaster.pid`. -/
inductive PidFile where
  | absent
  | unreadable
  | invalid
  | pid (n : Int)
  deriving DecidableEq

/-- The machine, as far as the scripts and `pg_ctl` look at it. `alive` is `kill(pid, 0) == 0`
for a process other than `pg_ctl` and the shell above it, `opts` the lines of
`postmaster.opts`, and `serving` the process that serves `pg-data`. -/
structure Host where
  installed : Bool
  root : Bool
  data : DataDir
  pidFile : PidFile
  alive : Int → Bool
  opts : Option (List Text)
  serving : Option Int

/-! ## pg_ctl -/

/-- `get_pgpid`: the number in the pid file, 0 without one, or the exit status. -/
def getPgpid (isStatusRequest : Bool) (h : Host) : Except Nat Int :=
  match h.data with
  | .missing => .error (if isStatusRequest then 4 else 1)
  | .plain => .error (if isStatusRequest then 4 else 1)
  | .cluster =>
    match h.pidFile with
    | .absent => .ok 0
    | .unreadable => .error 1
    | .invalid => .error 1
    | .pid n => .ok n

def pidText (pid : Int) : Text := (toString pid).toList

/-- `do_status`: the exit status and the standard output. -/
def doStatus (h : Host) : Nat × Text :=
  match getPgpid true h with
  | .error code => (code, [])
  | .ok pid =>
    if pid < 0 ∧ h.alive (-pid) then
      (0, "pg_ctl: single-user server is running (PID: ".toList ++ pidText (-pid) ++ ")\n".toList)
    else if 0 < pid ∧ h.alive pid then
      (0, "pg_ctl: server is running (PID: ".toList ++ pidText pid ++ ")\n".toList ++
        (h.opts.getD []).flatMap (· ++ ['\n']))
    else (3, "pg_ctl: no server running\n".toList)

/-- How a postmaster comes up: it reports that it is ready, it ends, or it is still at it when
`pg_ctl` stops waiting. -/
inductive StartEnd where
  | ready (pid : Int)
  | failed
  | stillStarting (pid : Int)
  deriving DecidableEq

def doStart (pm : StartEnd) (h : Host) : Nat × Host :=
  match getPgpid false h with
  | .error code => (code, h)
  | .ok _ =>
    match pm with
    | .ready pid => (0, { h with pidFile := .pid pid, serving := some pid })
    | .failed => (1, h)
    | .stillStarting pid => (1, { h with pidFile := .pid pid, serving := some pid })

/-- What follows the stop signal: the pid file goes away, the process ends and leaves it, or
`pg_ctl` stops waiting. -/
inductive StopEnd where
  | clean
  | died
  | timeout
  deriving DecidableEq

/-- The process `pid` is gone. -/
def Host.without (h : Host) (pid : Int) : Host :=
  { h with
    alive := fun n => n != pid && h.alive n
    serving := if h.serving = some pid then none else h.serving }

def doStop (e : StopEnd) (h : Host) : Nat × Host :=
  match getPgpid false h with
  | .error code => (code, h)
  | .ok pid =>
    if 0 < pid ∧ h.alive pid then
      match e with
      | .clean => (0, { h.without pid with pidFile := .absent })
      | .died => (1, h.without pid)
      | .timeout => (1, h)
    else (1, h)

/-- `main` of `pg_ctl` and of `initdb`: not as root. -/
def unlessRoot {α : Type} (refused : α) (command : Host → Nat × α) (h : Host) : Nat × α :=
  if h.root then (1, refused) else command h

/-! ## The scripts -/

/-- How `initdb` ends: with a cluster, or with an error and whatever it leaves. -/
inductive InitEnd where
  | done
  | failed (left : DataDir)
  deriving DecidableEq

def initdb (e : InitEnd) (h : Host) : Nat × Host :=
  match e with
  | .done => (0, { h with data := .cluster, pidFile := .absent })
  | .failed left => (1, { h with data := left })

/-- `if [[ ! -d "$PG_DATA" ]] || [[ ! -f "$PG_DATA/PG_VERSION" ]]; then initdb; fi`. -/
def ensureCluster (e : InitEnd) (h : Host) : Nat × Host :=
  if h.data = .cluster then (0, h) else unlessRoot h (initdb e) h

/-- `grep -q`, for a pattern without special characters and without a line feed. -/
def grepQ (pattern text : Text) : Bool := pattern <:+: text

/-- `pg_ctl status 2>/dev/null | grep -q "running"`. -/
def reportsRunning (h : Host) : Bool :=
  grepQ "running".toList (unlessRoot [] doStatus h).2

/-- `pg_start.sh`: the exit status and the machine after it. -/
def pgStart (init : InitEnd) (pm : StartEnd) (h : Host) : Nat × Host :=
  if h.installed = false then (1, h)
  else
    match ensureCluster init h with
    | (0, h) => if reportsRunning h then (0, h) else unlessRoot h (doStart pm) h
    | (code, h) => (code, h)

/-- `pg_stop.sh`. -/
def pgStop (e : StopEnd) (h : Host) : Nat × Host :=
  if h.installed = false then (1, h) else unlessRoot h (doStop e) h

/-! ## What `pg_ctl status` says -/

/-- Every answer has the word in it; there is no answer exactly if `get_pgpid` gives up. -/
theorem running_doStatus (h : Host) :
    grepQ "running".toList (doStatus h).2 = true ↔ ∃ pid, getPgpid true h = .ok pid := by
  unfold doStatus grepQ
  rw [decide_eq_true_eq]
  cases hpid : getPgpid true h with
  | error code => simp
  | ok pid =>
    refine iff_of_true ?_ ⟨pid, rfl⟩
    dsimp only
    split
    · exact ⟨"pg_ctl: single-user server is ".toList, " (PID: ".toList ++ pidText (-pid) ++
        ")\n".toList, by simp⟩
    · split
      · exact ⟨"pg_ctl: server is ".toList, " (PID: ".toList ++ pidText pid ++ ")\n".toList ++
          (h.opts.getD []).flatMap (· ++ ['\n']), by simp⟩
      · exact ⟨"pg_ctl: no server ".toList, "\n".toList, by decide⟩

/-- A request for the status and a start read the same pid file. -/
theorem getPgpid_ok_iff (isStatusRequest : Bool) (h : Host) :
    (∃ pid, getPgpid isStatusRequest h = .ok pid) ↔
      h.data = .cluster ∧ (h.pidFile = .absent ∨ ∃ n, h.pidFile = .pid n) := by
  unfold getPgpid
  cases h.data with
  | missing => simp
  | plain => simp
  | cluster => cases h.pidFile <;> simp

theorem getPgpid_error {h : Host} {code : Nat} (herr : getPgpid false h = .error code) :
    code = 1 := by
  unfold getPgpid at herr
  split at herr
  · cases herr; rfl
  · cases herr; rfl
  · split at herr <;> cases herr <;> rfl

theorem reportsRunning_iff (h : Host) :
    reportsRunning h = true ↔ h.root = false ∧ ∃ pid, getPgpid false h = .ok pid := by
  unfold reportsRunning unlessRoot
  cases hroot : h.root with
  | true => simp [grepQ]
  | false =>
    rw [if_neg (by simp), running_doStatus, getPgpid_ok_iff, getPgpid_ok_iff]
    simp

/-! ## The start script -/

theorem ensureCluster_serving (init : InitEnd) (h : Host) :
    (ensureCluster init h).2.serving = h.serving := by
  unfold ensureCluster unlessRoot initdb
  split
  · rfl
  · split
    · rfl
    · cases init <;> rfl

/-- A start that is made at all fails where the status failed. -/
theorem doStart_unreported (pm : StartEnd) {h : Host} (hrep : reportsRunning h = false) :
    ∃ code, code ≠ 0 ∧ unlessRoot h (doStart pm) h = (code, h) := by
  have hnot : ¬ (h.root = false ∧ ∃ pid, getPgpid false h = .ok pid) := by
    rw [← reportsRunning_iff, hrep]
    decide
  unfold unlessRoot
  cases hroot : h.root with
  | true => exact ⟨1, by decide, rfl⟩
  | false =>
    rw [if_neg (by simp)]
    unfold doStart
    cases hpid : getPgpid false h with
    | ok pid => exact absurd ⟨hroot, pid, hpid⟩ hnot
    | error code => exact ⟨code, by simp [getPgpid_error hpid], rfl⟩

theorem pgStart_cases (init : InitEnd) (pm : StartEnd) (h : Host) :
    ∃ code, pgStart init pm h = (code, if h.installed then (ensureCluster init h).2 else h) ∧
      (code = 0 ↔ h.installed = true ∧ (ensureCluster init h).1 = 0 ∧
        reportsRunning (ensureCluster init h).2 = true) := by
  unfold pgStart
  cases hinst : h.installed with
  | false => exact ⟨1, rfl, by simp⟩
  | true =>
    rcases hcluster : ensureCluster init h with ⟨_ | code, h'⟩
    · simp only [Bool.true_eq_false, if_false, if_true]
      cases hrep : reportsRunning h' with
      | true => exact ⟨0, rfl, by simp⟩
      | false =>
        obtain ⟨code, hcode, hstart⟩ := doStart_unreported pm hrep
        exact ⟨code, by simpa using hstart, by simp [hcode]⟩
    · exact ⟨code + 1, rfl, by simp⟩

/-- `pg_start.sh` does not change who serves `pg-data`. -/
theorem pgStart_serving (init : InitEnd) (pm : StartEnd) (h : Host) :
    (pgStart init pm h).2.serving = h.serving := by
  obtain ⟨code, hrun, -⟩ := pgStart_cases init pm h
  rw [hrun]
  dsimp only
  split
  · exact ensureCluster_serving init h
  · rfl

/-- What a success report of `pg_start.sh` needs. -/
structure Ready (init : InitEnd) (h : Host) : Prop where
  installed : h.installed = true
  user : h.root = false
  cluster : h.data = .cluster ∧ (h.pidFile = .absent ∨ ∃ n, h.pidFile = .pid n) ∨
    h.data ≠ .cluster ∧ init = .done

theorem pgStart_exit_iff (init : InitEnd) (pm : StartEnd) (h : Host) :
    (pgStart init pm h).1 = 0 ↔ Ready init h := by
  obtain ⟨code, hrun, hcode⟩ := pgStart_cases init pm h
  rw [hrun, hcode, reportsRunning_iff, getPgpid_ok_iff]
  constructor
  · rintro ⟨hinst, hstatus, hroot, hdata, hfile⟩
    unfold ensureCluster unlessRoot initdb at hstatus hroot hdata hfile
    by_cases hc : h.data = .cluster
    · rw [if_pos hc] at hroot hfile
      exact ⟨hinst, hroot, Or.inl ⟨hc, hfile⟩⟩
    · rw [if_neg hc] at hstatus hroot
      cases hr : h.root with
      | true => simp [hr] at hstatus
      | false =>
        cases init with
        | done => exact ⟨hinst, hr, Or.inr ⟨hc, rfl⟩⟩
        | failed left => simp [hr] at hstatus
  · rintro ⟨hinst, hroot, ⟨hc, hfile⟩ | ⟨hc, rfl⟩⟩
    · simp [ensureCluster, hc, hinst, hroot, hfile]
    · simp [ensureCluster, unlessRoot, initdb, hc, hinst, hroot]

/-! ## Histories -/

/-- A run of one of the scripts, with how its steps end. -/
inductive Run where
  | start (init : InitEnd) (pm : StartEnd)
  | stop (e : StopEnd)

def Run.exec (h : Host) : Run → Nat × Host
  | .start init pm => pgStart init pm h
  | .stop e => pgStop e h

def history (h : Host) (runs : List Run) : Host :=
  runs.foldl (fun h r => (r.exec h).2) h

theorem pgStop_serving (e : StopEnd) (h : Host) :
    (pgStop e h).2.serving = h.serving ∨ (pgStop e h).2.serving = none := by
  have hwithout : ∀ pid, (h.without pid).serving = h.serving ∨ (h.without pid).serving = none := by
    intro pid
    by_cases hpid : h.serving = some pid
    · exact Or.inr (if_pos hpid)
    · exact Or.inl (if_neg hpid)
  unfold pgStop unlessRoot doStop
  split
  · exact Or.inl rfl
  · split
    · exact Or.inl rfl
    · split
      · exact Or.inl rfl
      · split
        · cases e with
          | clean => exact hwithout _
          | died => exact hwithout _
          | timeout => exact Or.inl rfl
        · exact Or.inl rfl

/-- Over any sequence of runs, the server is the one from before, or none. -/
theorem history_serving (h : Host) (runs : List Run) :
    (history h runs).serving = h.serving ∨ (history h runs).serving = none := by
  refine foldl_walked
    (I := fun _ (h' : Host) => h'.serving = h.serving ∨ h'.serving = none) (Or.inl rfl) ?_ runs
  intro _ r h' ih
  cases r with
  | start init pm =>
    rw [Run.exec, pgStart_serving]
    exact ih
  | stop e =>
    rcases pgStop_serving e h' with hstop | hstop
    · rw [Run.exec, hstop]
      exact ih
    · exact Or.inr hstop

/-- **The start report.** After any sequence of runs of the two scripts, the server of `pg-data`
is the one that served it before the first run, or there is none; and one more run of
`pg_start.sh` leaves that as it is, and reports success exactly if `pg_ctl` is installed and
not run as root, and either the pid file of the cluster can be read, or a new cluster is made. -/
theorem start_report (h : Host) (runs : List Run) (init : InitEnd) (pm : StartEnd) :
    ((history h runs).serving = h.serving ∨ (history h runs).serving = none) ∧
    (pgStart init pm (history h runs)).2.serving = (history h runs).serving ∧
    ((pgStart init pm (history h runs)).1 = 0 ↔ Ready init (history h runs)) :=
  ⟨history_serving h runs, pgStart_serving init pm _, pgStart_exit_iff init pm _⟩

/-- A new machine: the first run makes the cluster and reports success, without a server. -/
example :
    let h : Host := ⟨true, false, .missing, .absent, fun _ => false, none, none⟩
    (pgStart .done (.ready 1) h).1 = 0 ∧ (pgStart .done (.ready 1) h).2.serving = none := by
  decide

end GdalFull.Postgres
