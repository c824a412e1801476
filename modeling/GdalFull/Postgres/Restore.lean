import GdalFull.Lib.Words
import GdalFull.Postgres.Server

/-!
# Restoring a dump

`restore_pg_dump.sh` looks for the database in the table that `psql -lqt` prints, creates it if
it is not there, and hands the dump to `pg_restore` (`*.backup`) or to `psql -f`. The look-up is
`cut -d \| -f 1 | grep -qw NAME`, so a database `gaiku-old` is taken for `gaiku`, and a name with a
`.` in it is a pattern; the exit status of `pg_restore` is dropped; and `psql -f` goes on after a
statement that fails, and ends with 0.

`restore_report_iff` says when a run reports success without the dump being loaded.
`restore_unserved` puts the script behind `pg_start.sh`: on a machine without a server, no sequence
of starts lets it through.
-/

namespace GdalFull.Postgres

open GdalFull.Lib

variable {D : Type}

/-- A name that `psql` prints in one line of the first column. -/
structure DbName where
  text : Text
  newline : '\n' ∉ text
  bar : '|' ∉ text
  deriving DecidableEq

/-- A database: whether it has PostGIS, and the dumps that it was given, each with whether it
was read without an error. -/
structure Database (D : Type) where
  name : DbName
  postgis : Bool
  dumps : List (D × Bool)

/-- The databases of the server, if one answers. -/
abbrev Server (D : Type) := Option (List (Database D))

/-- `DB_NAME`, where every command takes it for the name of a database: `createdb` and `grep` take a
name that begins with `-` for an option, and `psql -d` takes an empty name for a default and some
names for a connection string. -/
structure Target where
  name : DbName
  nonempty : name.text ≠ []
  option : name.text.head? ≠ some '-'
  conninfo : '=' ∉ name.text
  uri : ¬ "postgresql://".toList <+: name.text ∧ ¬ "postgres://".toList <+: name.text

/-- `grep -qw PATTERN`: whether a line is selected. A pattern that begins with `-` is an option, and
`--help` ends with status 0 without any line. -/
structure Grep where
  selects : Text → List Text → Bool
  nothing : ∀ pattern, pattern.head? ≠ some '-' → selects pattern [] = false

/-- The characters that mean something in a pattern of `grep`. -/
def special : List Char := ['.', '[', '\\', '*', '^', '$']

/-- A name without blanks that stands for itself as a pattern. -/
structure Target.Plain (t : Target) : Prop where
  blank : ' ' ∉ t.name.text
  literal : ∀ c ∈ special, c ∉ t.name.text

/-- Such a name is found as a whole word. -/
def Grep.FindsWords (grep : Grep) (word : Char → Bool) : Prop :=
  ∀ (t : Target) (lines : List Text), t.Plain →
    grep.selects t.name.text lines = lines.any (containsWord word t.name.text)

/-- The columns behind the name: how far the name is padded, the rest of its line, and further
lines for cells with line feeds, in which the column of the name is blank. -/
structure Layout where
  pad : DbName → Nat
  rest : DbName → Text
  more : DbName → List (Nat × Text)

/-- The lines of `psql -lqt`. -/
def listing (layout : Layout) (dbs : List (Database D)) : List Text :=
  (dbs.flatMap fun db =>
    (' ' :: (db.name.text ++ List.replicate (layout.pad db.name) ' ') ++
        '|' :: layout.rest db.name) ::
      (layout.more db.name).map fun m => List.replicate m.1 ' ' ++ '|' :: m.2) ++ [[]]

/-- `cut -d \| -f 1`. -/
def cutFirst (line : Text) : Text := line.takeWhile (· ≠ '|')

/-- `psql -lqt 2>/dev/null | cut -d \| -f 1 | grep -qw "$DB_NAME"`. -/
def listed (grep : Grep) (layout : Layout) (name : DbName) (srv : Server D) : Bool :=
  grep.selects name.text (((srv.map (listing layout)).getD []).map cutFirst)

/-- How the reading of a dump ends: all of it went through, or some statements failed and the
reading went on, or the command stopped. -/
inductive LoadEnd where
  | complete
  | failures
  | stopped
  deriving DecidableEq

/-- The exit status of `psql -f`; `ON_ERROR_STOP` is not set. -/
def LoadEnd.status : LoadEnd → Nat
  | .complete => 0
  | .failures => 0
  | .stopped => 2

/-- The commands of a run: whether `createdb` and the statement for the extension go through, and
how the reading of the dump ends, on a database that they can connect to. -/
structure RestoreEnds where
  createdb : Bool
  extension : Bool
  load : LoadEnd

/-- The dump file: whether it is there, whether its name ends in `.backup`, and what it holds. -/
structure Dump (D : Type) where
  found : Bool
  backup : Bool
  content : D

/-- `createdb NAME`. -/
def createdb (name : DbName) (ok : Bool) (srv : Server D) : Nat × Server D :=
  match srv with
  | none => (1, none)
  | some dbs =>
    if dbs.any (·.name = name) || !ok then (1, some dbs)
    else (0, some (dbs ++ [⟨name, false, []⟩]))

/-- `psql -d NAME` or `pg_restore -d NAME`, with its exit status once it is connected and what it
does to the database. -/
def onDatabase (name : DbName) (status : Nat) (f : Database D → Database D) (srv : Server D) :
    Nat × Server D :=
  match srv with
  | none => (2, none)
  | some dbs =>
    if dbs.any (·.name = name) then
      (status, some (dbs.map fun db => if db.name = name then f db else db))
    else (2, some dbs)

/-- `CREATE EXTENSION IF NOT EXISTS postgis`, with its status dropped. -/
def enable (name : DbName) (e : RestoreEnds) (srv : Server D) : Server D :=
  (onDatabase name (if e.extension then 0 else 1)
    (fun db => { db with postgis := db.postgis || e.extension }) srv).2

/-- The reading of the dump. -/
def load (name : DbName) (dump : Dump D) (e : RestoreEnds) (srv : Server D) : Nat × Server D :=
  onDatabase name e.load.status
    (fun db => { db with dumps := db.dumps ++ [(dump.content, decide (e.load = .complete))] }) srv

/-- `restore_pg_dump.sh`: the exit status and the databases after it. -/
def restorePgDump (grep : Grep) (layout : Layout) (name : DbName) (dump : Dump D)
    (e : RestoreEnds) (srv : Server D) : Nat × Server D :=
  if dump.found = false then (1, srv)
  else
    match if listed grep layout name srv then (0, srv) else createdb name e.createdb srv with
    | (0, srv) =>
      let loaded := load name dump e (enable name e srv)
      -- `pg_restore ... || true`
      (if dump.backup then 0 else loaded.1, loaded.2)
    | (code, srv) => (code, srv)

/-! ## The look-up -/

/-- The name stands as a word in the name of a database. -/
def Found (word : Char → Bool) (name : DbName) (dbs : List (Database D)) : Prop :=
  ∃ db ∈ dbs, IsWord word name.text db.name.text

theorem cutFirst_append {a : Text} (h : '|' ∉ a) (b : Text) : cutFirst (a ++ '|' :: b) = a := by
  have hall : ∀ c ∈ a, decide (c ≠ '|') = true := by
    intro c hc
    exact decide_eq_true fun heq => h (heq ▸ hc)
  rw [cutFirst, List.takeWhile_append_of_pos hall]
  simp

/-- A plain name is looked for in the names, whatever else the table shows. -/
theorem listed_iff {grep : Grep} {word : Char → Bool} (hgrep : grep.FindsWords word)
    (hblank : word ' ' = false) (layout : Layout) {t : Target} (ht : t.Plain)
    (dbs : List (Database D)) :
    listed grep layout t.name (some dbs) = true ↔ Found word t.name dbs := by
  have hname : ∀ db : Database D, cutFirst (' ' :: (db.name.text ++
      List.replicate (layout.pad db.name) ' ') ++ '|' :: layout.rest db.name) =
        ' ' :: (db.name.text ++ List.replicate (layout.pad db.name) ' ') := by
    intro db
    apply cutFirst_append
    simp [db.name.bar]
  have hmore : ∀ m : Nat × Text,
      ¬ IsWord word t.name.text (cutFirst (List.replicate m.1 ' ' ++ '|' :: m.2)) := by
    rintro m ⟨a, b, heq, -⟩
    rw [cutFirst_append (by simp)] at heq
    exact t.nonempty (eq_nil_of_infix_blanks ht.blank ⟨a, b, heq.symm⟩)
  have hempty : ¬ IsWord word t.name.text (cutFirst []) := by
    rintro ⟨a, b, heq, -⟩
    have hnil : a ++ t.name.text ++ b = [] := heq.symm
    simp [t.nonempty] at hnil
  rw [listed, hgrep t _ ht]
  simp only [Option.map_some, Option.getD_some, listing, List.any_eq_true, List.mem_map,
    containsWord_iff, List.mem_append, List.mem_flatMap, List.mem_cons,
    List.not_mem_nil, or_false]
  constructor
  · rintro ⟨_, ⟨line, ⟨db, hdb, rfl | ⟨m, -, rfl⟩⟩ | rfl, rfl⟩, hword⟩
    · rw [hname, isWord_padded_iff hblank ht.blank t.nonempty] at hword
      exact ⟨db, hdb, hword⟩
    · exact absurd hword (hmore m)
    · exact absurd hword hempty
  · rintro ⟨db, hdb, hword⟩
    refine ⟨_, ⟨_, Or.inl ⟨db, hdb, Or.inl rfl⟩, rfl⟩, ?_⟩
    rw [hname, isWord_padded_iff hblank ht.blank t.nonempty]
    exact hword

/-! ## The databases -/

/-- The names of the databases. -/
def Has (dbs : List (Database D)) (name : DbName) : Prop := ∃ db ∈ dbs, db.name = name

theorem any_name_iff {dbs : List (Database D)} {name : DbName} :
    dbs.any (·.name = name) = true ↔ Has dbs name := by
  simp [Has]

/-- The dumps that a database was given. -/
def dumpsOf (name : DbName) (srv : Server D) : List (D × Bool) :=
  ((srv.getD []).find? (·.name = name)).elim [] Database.dumps

theorem dumpsOf_createdb {name : DbName} {dbs : List (Database D)} (h : ¬ Has dbs name) :
    dumpsOf name (some (dbs ++ [⟨name, false, []⟩])) = dumpsOf name (some dbs) := by
  have hnone : dbs.find? (·.name = name) = none := by
    rw [List.find?_eq_none]
    intro db hdb hname
    exact h ⟨db, hdb, of_decide_eq_true hname⟩
  simp [dumpsOf, List.find?_append, hnone]

/-- A command on a database changes its dumps as it changes the database. -/
theorem dumpsOf_map {name : DbName} {dbs : List (Database D)} (h : Has dbs name)
    {f : Database D → Database D} (hf : ∀ db, (f db).name = db.name) :
    ∃ db ∈ dbs, dumpsOf name (some dbs) = db.dumps ∧
      dumpsOf name (some (dbs.map fun db => if db.name = name then f db else db)) =
        (f db).dumps := by
  induction dbs with
  | nil =>
    obtain ⟨db, hdb, -⟩ := h
    cases hdb
  | cons db dbs ih =>
    by_cases hname : db.name = name
    · exact ⟨db, List.mem_cons_self, by simp [dumpsOf, hname], by simp [dumpsOf, hname, hf]⟩
    · have hrest : Has dbs name := by
        obtain ⟨db', hdb', hname'⟩ := h
        rcases List.mem_cons.mp hdb' with rfl | hmem
        · exact absurd hname' hname
        · exact ⟨db', hmem, hname'⟩
      obtain ⟨db', hmem, hold, hnew⟩ := ih hrest
      refine ⟨db', List.mem_cons_of_mem _ hmem, ?_, ?_⟩
      · simpa [dumpsOf, hname] using hold
      · simpa [dumpsOf, hname] using hnew

theorem has_map {name : DbName} {dbs : List (Database D)} (h : Has dbs name)
    {f : Database D → Database D} (hf : ∀ db, (f db).name = db.name) :
    Has (dbs.map fun db => if db.name = name then f db else db) name := by
  obtain ⟨db, hdb, hname⟩ := h
  refine ⟨_, List.mem_map.mpr ⟨db, hdb, rfl⟩, ?_⟩
  rw [if_pos hname, hf, hname]

theorem onDatabase_of_has {name : DbName} {dbs : List (Database D)} (h : Has dbs name)
    (status : Nat) (f : Database D → Database D) : onDatabase name status f (some dbs) =
      (status, some (dbs.map fun db => if db.name = name then f db else db)) :=
  if_pos (any_name_iff.mpr h)

theorem onDatabase_of_not_has {name : DbName} {dbs : List (Database D)} (h : ¬ Has dbs name)
    (status : Nat) (f : Database D → Database D) :
    onDatabase name status f (some dbs) = (2, some dbs) :=
  if_neg fun hany => h (any_name_iff.mp hany)

/-- The two commands on a database that is there: the dump is taken, after those before. -/
theorem load_of_has {name : DbName} {dbs : List (Database D)} (h : Has dbs name) (dump : Dump D)
    (e : RestoreEnds) :
    (load name dump e (enable name e (some dbs))).1 = e.load.status ∧
      dumpsOf name (load name dump e (enable name e (some dbs))).2 =
        dumpsOf name (some dbs) ++ [(dump.content, decide (e.load = .complete))] := by
  rw [enable, onDatabase_of_has h]
  obtain ⟨db, -, hold, henabled⟩ := dumpsOf_map h
    (f := fun db => { db with postgis := db.postgis || e.extension }) fun _ => rfl
  have hhas := has_map h
    (f := fun db => { db with postgis := db.postgis || e.extension }) fun _ => rfl
  rw [load, onDatabase_of_has hhas]
  obtain ⟨db', -, hold', htaken⟩ := dumpsOf_map hhas
    (f := fun db => { db with
      dumps := db.dumps ++ [(dump.content, decide (e.load = .complete))] }) fun _ => rfl
  have hsame : db'.dumps = db.dumps := hold'.symm.trans henabled
  refine ⟨rfl, ?_⟩
  rw [htaken, hold, hsame]

theorem load_of_not_has {name : DbName} {dbs : List (Database D)} (h : ¬ Has dbs name)
    (dump : Dump D) (e : RestoreEnds) :
    load name dump e (enable name e (some dbs)) = (2, some dbs) := by
  rw [enable, onDatabase_of_not_has h, load, onDatabase_of_not_has h]

/-! ## The report -/

/-- `grep` selects a line of the table for the name. -/
def Listed (grep : Grep) (layout : Layout) (name : DbName) (dbs : List (Database D)) : Prop :=
  listed grep layout name (some dbs) = true

/-- The name is no database, but a line of the table is taken for it. -/
def Hidden (grep : Grep) (layout : Layout) (name : DbName) (dbs : List (Database D)) : Prop :=
  ¬ Has dbs name ∧ Listed grep layout name dbs

/-- The database is there and seen, or is not there, not seen, and gets created. -/
def Reached (grep : Grep) (layout : Layout) (name : DbName) (e : RestoreEnds)
    (dbs : List (Database D)) : Prop :=
  Has dbs name ∧ Listed grep layout name dbs ∨
    ¬ Has dbs name ∧ ¬ Listed grep layout name dbs ∧ e.createdb = true

/-- This run has read the dump into the database without an error. -/
def Loaded (name : DbName) (dump : Dump D) (before after : Server D) : Prop :=
  dumpsOf name after = dumpsOf name before ++ [(dump.content, true)]

section Report

variable {grep : Grep} {layout : Layout} {name : DbName} {dump : Dump D} {e : RestoreEnds}
  {dbs : List (Database D)}

/-- The database is there when the commands run, with the dumps it had before. -/
theorem start_of_reached (h : Reached grep layout name e dbs) :
    ∃ dbs', Has dbs' name ∧ dumpsOf name (some dbs') = dumpsOf name (some dbs) ∧
      (if listed grep layout name (some dbs) then (0, some dbs)
        else createdb name e.createdb (some dbs)) = (0, some dbs') := by
  rcases h with ⟨hhas, hlisted⟩ | ⟨hnot, hlisted, hok⟩
  · exact ⟨dbs, hhas, rfl, if_pos hlisted⟩
  · have hany : dbs.any (·.name = name) = false := by
      rw [Bool.eq_false_iff]
      exact fun hany => hnot (any_name_iff.mp hany)
    refine ⟨dbs ++ [⟨name, false, []⟩], ⟨_, List.mem_append_right _ List.mem_cons_self, rfl⟩,
      dumpsOf_createdb hnot, ?_⟩
    refine (if_neg hlisted).trans ?_
    simp [createdb, hany, hok]

theorem restore_reached (hfound : dump.found = true) (h : Reached grep layout name e dbs) :
    let run := restorePgDump grep layout name dump e (some dbs)
    (run.1 = 0 ↔ dump.backup = true ∨ e.load ≠ .stopped) ∧
      (Loaded name dump (some dbs) run.2 ↔ e.load = .complete) := by
  obtain ⟨dbs', hhas, hdumps, hstart⟩ := start_of_reached h
  obtain ⟨hstatus, hload⟩ := load_of_has hhas dump e
  simp only [restorePgDump, hfound, hstart, Bool.true_eq_false, if_false]
  refine ⟨?_, ?_⟩
  · rw [hstatus]
    cases dump.backup <;> cases e.load <;> simp [LoadEnd.status]
  · rw [Loaded, hload, hdumps]
    simp

theorem restore_hidden (hfound : dump.found = true) (h : Hidden grep layout name dbs) :
    let run := restorePgDump grep layout name dump e (some dbs)
    (run.1 = 0 ↔ dump.backup = true) ∧ ¬ Loaded name dump (some dbs) run.2 := by
  have hlisted : listed grep layout name (some dbs) = true := h.2
  have hcommands := load_of_not_has h.1 dump e
  simp only [restorePgDump, hfound, hlisted, if_true, Bool.true_eq_false, if_false, hcommands]
  refine ⟨by cases dump.backup <;> simp, ?_⟩
  simp [Loaded]

/-- Otherwise `createdb` is called for a database that is there, or fails. -/
theorem restore_neither (hfound : dump.found = true) (hreached : ¬ Reached grep layout name e dbs)
    (hhidden : ¬ Hidden grep layout name dbs) :
    (restorePgDump grep layout name dump e (some dbs)).1 ≠ 0 := by
  have hlisted : listed grep layout name (some dbs) = false := by
    rw [Bool.eq_false_iff]
    intro hlisted
    by_cases hhas : Has dbs name
    · exact hreached (Or.inl ⟨hhas, hlisted⟩)
    · exact hhidden ⟨hhas, hlisted⟩
  have hfails : (dbs.any (·.name = name) || !e.createdb) = true := by
    rw [Bool.or_eq_true, any_name_iff, Bool.not_eq_true']
    by_contra hok
    rw [not_or, Bool.not_eq_false] at hok
    exact hreached (Or.inr ⟨hok.1, Bool.eq_false_iff.mp hlisted, hok.2⟩)
  simp [restorePgDump, hfound, hlisted, createdb, hfails]

end Report

/-- Without a server, the look-up finds nothing and `createdb` fails. -/
theorem restore_noServer (grep : Grep) (layout : Layout) {name : DbName}
    (hname : name.text.head? ≠ some '-') (dump : Dump D) (e : RestoreEnds) :
    (restorePgDump grep layout name dump e none).1 ≠ 0 ∧
      (restorePgDump grep layout name dump e none).2 = none := by
  have hlisted : listed grep layout name (none : Server D) = false := grep.nothing _ hname
  rw [restorePgDump]
  cases dump.found <;> simp [hlisted, createdb]

/-- **The report of a restore.** Exit status 0 without the dump: the database is reached and
statements of the dump fail, or the dump is a `*.backup` and its reading stops, or the database of a
`*.backup` is hidden by a line of the table. A line is taken for a plain name exactly if the name
stands as a word in the name of a database. -/
theorem restore_report_iff (grep : Grep) (layout : Layout) (t : Target) (dump : Dump D)
    (e : RestoreEnds) (srv : Server D) :
    (((restorePgDump grep layout t.name dump e srv).1 = 0 ∧
        ¬ Loaded t.name dump srv (restorePgDump grep layout t.name dump e srv).2) ↔
      dump.found = true ∧ ∃ dbs, srv = some dbs ∧
        (Hidden grep layout t.name dbs ∧ dump.backup = true ∨
          Reached grep layout t.name e dbs ∧
            (e.load = .failures ∨ e.load = .stopped ∧ dump.backup = true))) ∧
    ∀ word, grep.FindsWords word → word ' ' = false → t.Plain → ∀ dbs : List (Database D),
      (Listed grep layout t.name dbs ↔ Found word t.name dbs) := by
  refine ⟨?_, fun word hgrep hblank ht dbs => listed_iff hgrep hblank layout ht dbs⟩
  cases hfound : dump.found with
  | false => simp [restorePgDump, hfound]
  | true =>
    cases srv with
    | none => simp [(restore_noServer grep layout t.option dump e).1]
    | some dbs =>
      simp only [Option.some.injEq, exists_eq_left', true_and]
      by_cases hr : Reached grep layout t.name e dbs
      · have hnot : ¬ Hidden grep layout t.name dbs := by
          rintro ⟨hhas, hlisted⟩
          rcases hr with ⟨h, _⟩ | ⟨_, h, _⟩
          · exact hhas h
          · exact h hlisted
        obtain ⟨hstatus, hload⟩ := restore_reached hfound hr
        rw [hstatus, hload]
        cases e.load <;> simp [hr, hnot]
      · by_cases hh : Hidden grep layout t.name dbs
        · obtain ⟨hstatus, hload⟩ := restore_hidden (e := e) hfound hh
          simp [hstatus, hload, hh, hr]
        · simp [restore_neither hfound hr hh, hr, hh]

/-- `gaiku`, with only `gaiku-old` on the server. -/
def gaikuName : DbName := ⟨"gaiku".toList, by simp, by simp⟩

def gaikuTarget : Target :=
  ⟨gaikuName, by decide, by decide, by decide, by decide⟩

def gaikuOld : Database Nat := ⟨⟨"gaiku-old".toList, by simp, by simp⟩, false, []⟩

def asciiWord (c : Char) : Bool := c.isAlphanum || c == '_'

/-- `grep -qw` for patterns without special characters. -/
def wordGrep : Grep where
  selects pattern lines := lines.any (containsWord asciiWord pattern)
  nothing _ _ := rfl

/-- The dump goes nowhere, and the exit status is 0. -/
theorem restore_gaiku_hidden :
    let layout : Layout := ⟨fun _ => 1, fun _ => [], fun _ => []⟩
    let run := restorePgDump wordGrep layout gaikuTarget.name ⟨true, true, 0⟩
      ⟨true, true, .complete⟩ (some [gaikuOld])
    run.1 = 0 ∧ ¬ Loaded gaikuTarget.name ⟨true, true, 0⟩ (some [gaikuOld]) run.2 := by
  intro layout run
  have hreport := restore_report_iff wordGrep layout gaikuTarget ⟨true, true, 0⟩
    ⟨true, true, .complete⟩ (some [gaikuOld])
  have hplain : gaikuTarget.Plain := ⟨by decide, by simp [special, gaikuTarget, gaikuName]⟩
  have hhas : ¬ Has [gaikuOld] gaikuTarget.name := by
    rintro ⟨db, hdb, hname⟩
    rw [List.mem_singleton.mp hdb] at hname
    exact absurd hname (by decide)
  have hfound : Found asciiWord gaikuTarget.name [gaikuOld] :=
    ⟨gaikuOld, List.mem_cons_self, [], "-old".toList, rfl, by simp, by simp [asciiWord]⟩
  have hlisted : Listed wordGrep layout gaikuTarget.name [gaikuOld] :=
    (hreport.2 asciiWord (fun _ _ _ => rfl) (by decide) hplain _).mpr hfound
  exact hreport.1.mpr ⟨rfl, _, rfl, Or.inl ⟨⟨hhas, hlisted⟩, rfl⟩⟩

/-! ## After the start script -/

/-- The server that `psql` reaches without further settings is the one of `pg-data`. -/
def answers (dbs : List (Database D)) (h : Host) : Server D := h.serving.map fun _ => dbs

/-- **Start and restore.** On a machine without a server, after any sequence of runs of
`pg_start.sh` and `pg_stop.sh`, the restore fails and leaves no database. -/
theorem restore_unserved (h : Host) (hnone : h.serving = none) (runs : List Run)
    (dbs : List (Database D)) (grep : Grep) (layout : Layout) (name : DbName)
    (hname : name.text.head? ≠ some '-') (dump : Dump D) (e : RestoreEnds) :
    (restorePgDump grep layout name dump e (answers dbs (history h runs))).1 ≠ 0 ∧
      (restorePgDump grep layout name dump e (answers dbs (history h runs))).2 = none := by
  have hserving : (history h runs).serving = none := by
    rcases history_serving h runs with hsame | hgone
    · rw [hsame, hnone]
    · exact hgone
  have hanswers : answers dbs (history h runs) = none := by rw [answers, hserving, Option.map_none]
  rw [hanswers]
  exact restore_noServer grep layout hname dump e

/-- A new machine, started once, with success. -/
theorem restore_after_first_start :
    let h : Host := ⟨true, false, .missing, .absent, fun _ => false, none, none⟩
    let layout : Layout := ⟨fun _ => 1, fun _ => [], fun _ => []⟩
    (pgStart .done (.ready 1) h).1 = 0 ∧
      (restorePgDump wordGrep layout gaikuTarget.name ⟨true, false, 0⟩ ⟨true, true, .complete⟩
        (answers [gaikuOld] (history h [.start .done (.ready 1)]))).1 ≠ 0 := by
  intro h layout
  exact ⟨by decide, (restore_unserved h rfl _ _ _ _ _ gaikuTarget.option _ _).1⟩

end GdalFull.Postgres
