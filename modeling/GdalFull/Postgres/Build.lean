import GdalFull.Lib.Latch
import Mathlib.Tactic.Common

/-!
# Building PostgreSQL and PostGIS

`build_postgresql.sh` builds and installs the server and then PostGIS, under `set -e`. Its first
test is for `pg-install/bin/postgres`: if that is there, it ends with success. A source tree is
downloaded if there is none.

`postgis_missing_iff`: so after a run that installed the server and stopped before PostGIS, every
further run reports success, and PostGIS is never installed. `installed_version`: the version is
the one that the first download got, whatever later runs ask for.
-/

namespace GdalFull.Postgres.Build

open GdalFull.Lib

variable {V : Type}

/-! ## The script -/

/-- How `curl && tar && rm -rf && mv && rm -f` ends: without a source tree, with one but with a
failing `rm -f` of the archive, or well. -/
inductive Fetch where
  | failed
  | unpacked
  | done
  deriving DecidableEq

/-- The download of a source tree if there is none; an error leaves what is there then. -/
def fetch (version : V) (e : Fetch) : Option V → Except (Option V) V
  | some v => .ok v
  | none =>
    match e with
    | .failed => .error none
    | .unpacked => .error (some version)
    | .done => .ok version

/-- How `make install` ends: it stops, with or without `bin/postgres` and `bin/initdb` in place, or
it installs everything. -/
inductive Install where
  | stopped (server initdb : Bool)
  | done
  deriving DecidableEq

/-- `pg-src`, `pg-install` and `postgis-src`, by the versions in them. -/
structure Tree (V : Type) where
  src : Option V
  server : Option V
  initdb : Bool
  postgisSrc : Option V
  postgis : Option V

/-- A run: `PG_VERSION` and `POSTGIS_VERSION`, and how its commands end; `make` is for `configure`
and `make`. -/
structure Run (V : Type) where
  version : V
  fetch : Fetch
  make : Bool
  install : Install
  postgisVersion : V
  postgisFetch : Fetch
  postgisMake : Bool
  postgisInstall : Bool

variable (r : Run V) (t : Tree V)

def buildServer : Except (Tree V) (Tree V) :=
  match fetch r.version r.fetch t.src with
  | .error src => .error { t with src := src }
  | .ok v =>
    let t := { t with src := some v }
    if r.make then
      match r.install with
      | .done => .ok { t with server := some v, initdb := true }
      | .stopped server initdb =>
        .error { t with
          server := if server then some v else t.server
          initdb := t.initdb || initdb }
    else .error t

def buildPostgis : Except (Tree V) (Tree V) :=
  match fetch r.postgisVersion r.postgisFetch t.postgisSrc with
  | .error src => .error { t with postgisSrc := src }
  | .ok v =>
    let t := { t with postgisSrc := some v }
    if r.postgisMake && r.postgisInstall then .ok { t with postgis := some v } else .error t

/-- `build_postgresql.sh`: the exit status and the directories after it. With `set -e` the status is
that of the failing command; it is 1 here for all of them, and only zero or not zero is meant. -/
def buildPostgresql : Nat × Tree V :=
  if t.server.isSome then (0, t)
  else
    match (buildServer r t).bind (buildPostgis r) with
    | .ok t => (if t.initdb then 0 else 1, t)
    | .error t => (1, t)

/-- The directories after some runs. -/
def after (runs : List (Run V)) : Tree V :=
  runs.foldl (fun t r => (buildPostgresql r t).2) t

/-! ## One run -/

/-- The source tree is there, or is downloaded without an error. -/
def hasSource (src : Option V) (e : Fetch) : Bool := src.isSome || e = .done

theorem fetch_cases (version : V) (e : Fetch) (src : Option V) :
    (hasSource src e = true ∧ ∃ v, fetch version e src = .ok v ∧ (src.or (some version)) = some v) ∨
      hasSource src e = false ∧ ∃ src', fetch version e src = .error src' := by
  cases src with
  | some v => exact Or.inl ⟨rfl, v, rfl, rfl⟩
  | none =>
    cases e with
    | failed => exact Or.inr ⟨rfl, _, rfl⟩
    | unpacked => exact Or.inr ⟨rfl, _, rfl⟩
    | done => exact Or.inl ⟨rfl, version, rfl, rfl⟩

/-- The part for PostGIS goes through. -/
def Run.completes : Bool :=
  hasSource t.postgisSrc r.postgisFetch && r.postgisMake && r.postgisInstall

/-- The run puts `bin/postgres` in place. -/
def Run.serves : Bool :=
  hasSource t.src r.fetch && r.make &&
    match r.install with
    | .done => true
    | .stopped server _ => server

variable {r t}

/-- A run without a server before: it completes, or leaves the server without PostGIS, or leaves
no server. -/
theorem buildPostgresql_cases (hserver : t.server = none) (hpostgis : t.postgis = none) :
    (buildPostgresql r t).2.server.isSome = r.serves t ∧
      (buildPostgresql r t).2.postgis.isSome =
        (r.serves t && decide (r.install = .done) && r.completes t) ∧
      ((buildPostgresql r t).1 = 0 ↔ (buildPostgresql r t).2.postgis.isSome = true) := by
  rw [buildPostgresql, hserver, Option.isSome_none, if_neg (by decide), buildServer]
  rcases fetch_cases r.version r.fetch t.src with ⟨hsrc, v, hfetch, -⟩ | ⟨hsrc, src', hfetch⟩
  · rw [hfetch]
    cases hmake : r.make with
    | false => simp [Except.bind, Run.serves, hmake, hserver, hpostgis]
    | true =>
      cases hinstall : r.install with
      | stopped server initdb =>
        cases server <;>
          simp [Except.bind, Run.serves, hmake, hinstall, hsrc, hserver, hpostgis]
      | done =>
        rcases fetch_cases r.postgisVersion r.postgisFetch t.postgisSrc with
          ⟨hsrc', w, hfetch', -⟩ | ⟨hsrc', src'', hfetch'⟩
        · cases hmake' : r.postgisMake && r.postgisInstall <;>
            simp [Except.bind, buildPostgis, hfetch', hmake', Run.serves, Run.completes, hmake,
              hinstall, hsrc, hsrc', hpostgis]
        · simp [Except.bind, buildPostgis, hfetch', Run.serves, Run.completes, hmake, hinstall,
            hsrc, hsrc', hpostgis]
  · rw [hfetch]
    simp [Except.bind, Run.serves, hsrc, hserver, hpostgis]

/-- With a server nothing is done any more. -/
theorem buildPostgresql_of_server (r : Run V) (h : t.server.isSome = true) :
    buildPostgresql r t = (0, t) := if_pos h

/-! ## Histories -/

/-- PostGIS is not there without the server. -/
theorem postgis_of_server_none (hpostgis : t.postgis = none) (runs : List (Run V))
    (h : (after t runs).server = none) : (after t runs).postgis = none := by
  induction runs using List.reverseRecOn with
  | nil => exact hpostgis
  | append_singleton runs r ih =>
    have hstep : after t (runs ++ [r]) = (buildPostgresql r (after t runs)).2 :=
      List.foldl_append
    rw [hstep] at h ⊢
    cases hbefore : (after t runs).server with
    | some v =>
      rw [buildPostgresql_of_server r (by rw [hbefore]; rfl), hbefore] at h
      cases h
    | none =>
      obtain ⟨hserves, hcompletes, -⟩ := buildPostgresql_cases (r := r) hbefore (ih hbefore)
      rw [h, Option.isSome_none] at hserves
      rw [← hserves, Bool.false_and, Bool.false_and, Option.isSome_eq_false_iff,
        Option.isNone_iff_eq_none] at hcompletes
      exact hcompletes

/-- **PostGIS is missing.** From directories without an installation, after any runs: one more run
reports success and leaves no PostGIS exactly if the run that put `bin/postgres` in place stopped
before PostGIS was installed. -/
theorem postgis_missing_iff (hserver : t.server = none) (hpostgis : t.postgis = none)
    (runs : List (Run V)) (r : Run V) :
    ((buildPostgresql r (after t runs)).1 = 0 ∧
        (buildPostgresql r (after t runs)).2.postgis = none) ↔
      ∃ before q later, runs = before ++ q :: later ∧ (after t before).server = none ∧
        q.serves (after t before) = true ∧
        ¬ (q.install = .done ∧ q.completes (after t before) = true) := by
  have hkeep : ∀ q ∈ runs, ∀ t : Tree V, t.server.isSome = true →
      (buildPostgresql q t).2.server.isSome = true ∧
        (buildPostgresql q t).2.postgis.isSome = t.postgis.isSome := by
    intro q _ t hsome
    rw [buildPostgresql_of_server q hsome]
    exact ⟨hsome, rfl⟩
  have hlatch := latched_iff (fun t q => (buildPostgresql q t).2)
    (fun t => t.server.isSome = true) (fun t => t.postgis.isSome) runs hkeep
    (s := t) (by simp [hserver]) false
  -- the latch, by what the run does that sets it
  have hset : ∀ before q, ((after t before).server = none ∧ q.serves (after t before) = true ∧
      ¬ (q.install = .done ∧ q.completes (after t before) = true)) ↔
      ¬ (after t before).server.isSome = true ∧
        (buildPostgresql q (after t before)).2.server.isSome = true ∧
        (buildPostgresql q (after t before)).2.postgis.isSome = false := by
    intro before q
    rw [Bool.not_eq_true, Option.isSome_eq_false_iff, Option.isNone_iff_eq_none]
    refine and_congr_right fun hbefore => ?_
    obtain ⟨hserves, hcompletes, -⟩ := buildPostgresql_cases (r := q) hbefore
      (postgis_of_server_none hpostgis before hbefore)
    rw [hserves, hcompletes]
    refine and_congr_right fun hs => ?_
    rw [hs, Bool.true_and, Bool.and_eq_false_iff, decide_eq_false_iff_not, ← Bool.not_eq_true]
    tauto
  simp only [hset]
  refine Iff.trans ?_ hlatch
  change _ ↔ (after t runs).server.isSome = true ∧ (after t runs).postgis.isSome = false
  cases hend : (after t runs).server with
  | some v =>
    rw [buildPostgresql_of_server r (by rw [hend]; rfl)]
    simp
  | none =>
    obtain ⟨-, -, hstatus⟩ := buildPostgresql_cases (r := r) hend
      (postgis_of_server_none hpostgis runs hend)
    rw [hstatus]
    simp only [Option.isSome_none, Bool.false_eq_true, false_and, iff_false, not_and]
    intro hsome hnone
    rw [hnone] at hsome
    cases hsome

/-- A first run without the libraries of PostGIS, and a second one with them. -/
theorem postgis_missing_second_run :
    let q : Run Nat := ⟨16, .done, true, .done, 3, .done, false, false⟩
    let r : Run Nat := ⟨16, .done, true, .done, 3, .done, true, true⟩
    (buildPostgresql q ⟨none, none, false, none, none⟩).1 = 1 ∧
      (buildPostgresql r (after ⟨none, none, false, none, none⟩ [q])).1 = 0 ∧
      (buildPostgresql r (after ⟨none, none, false, none, none⟩ [q])).2.postgis = none := by
  intro q r
  have hmissing := (postgis_missing_iff (t := ⟨none, none, false, none, none⟩) rfl rfl [q] r).mpr
    ⟨[], q, [], rfl, rfl, rfl, by simp [Run.completes, q]⟩
  exact ⟨rfl, hmissing⟩

/-! ## The version -/

/-- The source tree after the download. -/
theorem fetch_left (version : V) (e : Fetch) (src : Option V) :
    (∀ v, fetch version e src = .ok v →
      src.or (if e = .failed then none else some version) = some v) ∧
    ∀ src', fetch version e src = .error src' →
      src.or (if e = .failed then none else some version) = src' := by
  cases src with
  | some s => simp [fetch]
  | none => cases e <;> simp [fetch]

/-- The part for PostGIS leaves the server and its source tree alone. -/
theorem buildPostgis_frame (r : Run V) (t : Tree V) :
    ∃ t', (buildPostgis r t = .ok t' ∨ buildPostgis r t = .error t') ∧ t'.src = t.src ∧
      t'.server = t.server := by
  unfold buildPostgis
  split
  · exact ⟨_, Or.inr rfl, rfl, rfl⟩
  · dsimp only
    split
    · exact ⟨_, Or.inl rfl, rfl, rfl⟩
    · exact ⟨_, Or.inr rfl, rfl, rfl⟩

/-- The source tree after a run, and the server that was made of it. -/
theorem src_buildPostgresql (r : Run V) (hserver : t.server = none) :
    (buildPostgresql r t).2.src = t.src.or (if r.fetch = .failed then none else some r.version) ∧
      ∀ v, (buildPostgresql r t).2.server = some v → (buildPostgresql r t).2.src = some v := by
  obtain ⟨hok, herror⟩ := fetch_left r.version r.fetch t.src
  rw [buildPostgresql, hserver, Option.isSome_none, if_neg (by decide), buildServer]
  cases hfetch : fetch r.version r.fetch t.src with
  | error src => simp [Except.bind, herror src hfetch, hserver]
  | ok v =>
    rw [hok v hfetch]
    cases hmake : r.make with
    | false => simp [Except.bind, hserver]
    | true =>
      cases hinstall : r.install with
      | stopped server initdb => cases server <;> simp [Except.bind, hserver]
      | done =>
        obtain ⟨t', hbuild | hbuild, hsrc, hmade⟩ :=
          buildPostgis_frame r { t with src := some v, server := some v, initdb := true }
        all_goals
          simp only [Except.bind, if_true, hbuild]
          rw [hsrc, hmade]
          exact ⟨rfl, fun w hw => hw⟩

theorem after_of_server (h : t.server.isSome = true) (runs : List (Run V)) : after t runs = t := by
  induction runs with
  | nil => rfl
  | cons r runs ih =>
    have hstep : after t (r :: runs) = after (buildPostgresql r t).2 runs := rfl
    rw [hstep, buildPostgresql_of_server r h, ih]

/-- **The version that is installed.** It is the one of the source tree that was there, or else
the one that the first run asked for whose download left a source tree. -/
theorem installed_version (hserver : t.server = none) (runs : List (Run V)) {v : V}
    (h : (after t runs).server = some v) :
    t.src.or ((runs.find? fun q => q.fetch ≠ .failed).map Run.version) = some v := by
  induction runs generalizing t with
  | nil =>
    rw [after, List.foldl_nil, hserver] at h
    cases h
  | cons q runs ih =>
    have hstep : after t (q :: runs) = after (buildPostgresql q t).2 runs := rfl
    obtain ⟨hsrc, hmade⟩ := src_buildPostgresql q hserver
    -- the first download that leaves a source tree is this one, or is among the later ones
    have hfirst : t.src.or (((q :: runs).find? fun q => q.fetch ≠ .failed).map Run.version) =
        (buildPostgresql q t).2.src.or
          ((runs.find? fun q => q.fetch ≠ .failed).map Run.version) := by
      rw [hsrc, Option.or_assoc]
      by_cases hq : q.fetch = .failed <;> simp [hq]
    rw [hstep] at h
    rw [hfirst]
    cases hs : (buildPostgresql q t).2.server with
    | none => exact ih hs h
    | some w =>
      rw [after_of_server (by rw [hs]; rfl), hs] at h
      rw [hmade w hs, Option.some_or, h]

/-- 17 was downloaded and did not compile; the run that asks for 16 installs 17. -/
theorem installed_version_first :
    let runs : List (Run Nat) := [⟨17, .done, false, .done, 3, .done, true, true⟩,
      ⟨16, .done, true, .done, 3, .done, true, true⟩]
    ∃ v, (after ⟨none, none, false, none, none⟩ runs).server = some v ∧ v = 17 := by
  intro runs
  refine ⟨17, rfl, ?_⟩
  have hversion := installed_version (t := ⟨none, none, false, none, none⟩) (v := 17) rfl runs rfl
  exact (Option.some.inj hversion).symm ▸ rfl

end GdalFull.Postgres.Build
