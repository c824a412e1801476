import GdalFull.Lib.Latch
import GdalFull.Lib.PyStr
import Mathlib.Data.List.Nodup

/-!
# Point views

`create_point_views.sh` hands `create_point_views.sql` to `psql -f`: five statements
`CREATE OR REPLACE VIEW ..._pt AS SELECT *, ... AS geom FROM ...`. PostgreSQL replaces a view only
if its columns are the first ones of the new list (`checkViewTupleDesc`). Since `geom` is the last
column, a view of this script is never replaced by one with other columns.

`point_view_iff`: so a view shows the columns that its table had at the first run that could make
it, and a later run is of no use when the table has got other columns. The script reports success
in any case.
-/

namespace GdalFull.Postgres.Views

open GdalFull.Lib

variable {Ty : Type}

/-! ## Relations -/

/-- A column; its type is with the modifier and the collation. -/
structure Column (Ty : Type) where
  name : Text
  type : Ty
  deriving DecidableEq

/-- The columns of a relation, with distinct names. -/
structure RowType (Ty : Type) where
  columns : List (Column Ty)
  nodup : (columns.map Column.name).Nodup

inductive Relation (Ty : Type) where
  | table (row : RowType Ty)
  | view (row : RowType Ty)

def Relation.row : Relation Ty → RowType Ty
  | .table row => row
  | .view row => row

/-- Schema and name. -/
abbrev RelName := Text × Text

/-- A database: its relations, and whether it has PostGIS. -/
structure Catalog (Ty : Type) where
  relations : RelName → Option (Relation Ty)
  postgis : Bool

def Catalog.set (c : Catalog Ty) (q : RelName) (rel : Option (Relation Ty)) : Catalog Ty :=
  { c with relations := fun p => if p = q then rel else c.relations p }

/-- `geometry(Point)`, the types that `ST_MakePoint` takes, and those that can be compared with an
integer. -/
structure Types (Ty : Type) where
  point : Ty
  coordinate : Ty → Bool
  integer : Ty → Bool

/-! ## The statements -/

def geomName : Text := "geom".toList

def geomColumn (ty : Ty) : Column Ty := ⟨geomName, ty⟩

/-- A view of the script, with the columns that the point is made of. -/
structure PointView where
  schema : Text
  table : Text
  x : Text
  y : Text
  deriving DecidableEq

def PointView.source (s : PointView) : RelName := (s.schema, s.table)

def PointView.name (s : PointView) : RelName := (s.schema, s.table ++ "_pt".toList)

/-- The statements of `create_point_views.sql`. -/
def pointViews : List PointView :=
  [⟨"kanri".toList, "hojyoten".toList, "hosei_x".toList, "hosei_y".toList⟩,
    ⟨"kanri".toList, "sankakuten".toList, "hosei_x".toList, "hosei_y".toList⟩,
    ⟨"kanri".toList, "takakuten".toList, "hosei_x".toList, "hosei_y".toList⟩,
    ⟨"tosikanmin".toList, "sankakuten".toList, "x".toList, "y".toList⟩,
    ⟨"tosikanmin".toList, "takakuten".toList, "x".toList, "y".toList⟩]

/-- A column of a name, of a type that will do. -/
def RowType.has (row : RowType Ty) (name : Text) (fits : Ty → Bool) : Bool :=
  row.columns.any fun c => c.name == name && fits c.type

theorem nodup_concat {row : RowType Ty} (h : row.columns.any (·.name == geomName) = false)
    (ty : Ty) : ((row.columns ++ [geomColumn ty]).map Column.name).Nodup := by
  rw [List.map_append, List.map_singleton, List.nodup_append]
  refine ⟨row.nodup, List.nodup_singleton _, ?_⟩
  rintro name hname name' hname' rfl
  obtain ⟨c, hc, rfl⟩ := List.mem_map.mp hname
  rw [List.any_eq_false] at h
  exact h c hc (by simpa [geomColumn] using hname')

/-- `SELECT *, ... AS geom`; a second column `geom` is an error. -/
def RowType.withGeom (row : RowType Ty) (ty : Ty) : Option (RowType Ty) :=
  if h : row.columns.any (·.name == geomName) = false then
    some ⟨row.columns ++ [geomColumn ty], nodup_concat h ty⟩
  else none

section Statements

variable (T : Types Ty)

/-- The columns of the query of a view, if it can be analysed. -/
def PointView.select (s : PointView) (c : Catalog Ty) : Option (RowType Ty) :=
  (c.relations s.source).bind fun rel =>
    if c.postgis && rel.row.has s.x T.coordinate && rel.row.has s.y T.coordinate &&
        rel.row.has "zahyokei_cd".toList T.integer then
      rel.row.withGeom T.point
    else none

variable [DecidableEq Ty]

/-- `checkViewTupleDesc`: no error for the new columns. -/
def checkViewTupleDesc (new old : RowType Ty) : Bool :=
  old.columns.isPrefixOf new.columns

/-- `DefineVirtualRelation` for `CREATE OR REPLACE VIEW`; `none` is an error. -/
def defineVirtualRelation (new : RowType Ty) : Option (Relation Ty) → Option (Relation Ty)
  | none => some (.view new)
  | some (.table _) => none
  | some (.view old) => if checkViewTupleDesc new old then some (.view new) else none

/-- One statement; one that fails changes nothing. -/
def createPointView (c : Catalog Ty) (s : PointView) : Catalog Ty :=
  match (s.select T c).bind fun new => defineVirtualRelation new (c.relations s.name) with
  | none => c
  | some view => c.set s.name (some view)

/-- `psql -f create_point_views.sql`, which goes on after an error. -/
def runStatements (c : Catalog Ty) : Catalog Ty :=
  pointViews.foldl (createPointView T) c

/-- `create_point_views.sh`: the exit status and the database. Without a database name or the SQL
file it ends before, and without a database that answers, `psql` ends with 2. -/
def createPointViews (dbName sqlFile : Bool) (db : Option (Catalog Ty)) :
    Nat × Option (Catalog Ty) :=
  if dbName = false ∨ sqlFile = false then (1, db)
  else
    match db with
    | none => (2, none)
    | some c => (0, some (runStatements T c))

end Statements

/-! ## Columns -/

theorem select_some {T : Types Ty} {s : PointView} {c : Catalog Ty} {new : RowType Ty}
    (h : s.select T c = some new) :
    ∃ cols, new.columns = cols ++ [geomColumn T.point] ∧ ∀ col ∈ cols, col.name ≠ geomName := by
  obtain ⟨rel, -, hrel⟩ := Option.bind_eq_some_iff.mp h
  obtain ⟨-, hrel⟩ := Option.ite_none_right_eq_some.mp hrel
  unfold RowType.withGeom at hrel
  split at hrel
  · rename_i hgeom
    cases hrel
    refine ⟨rel.row.columns, rfl, ?_⟩
    intro col hcol
    rw [List.any_eq_false] at hgeom
    simpa using hgeom col hcol
  · cases hrel

/-- A list that ends with a column `geom` is a beginning of another such list only as the whole. -/
theorem eq_of_prefix_geom {cols cols' : List (Column Ty)} {ty ty' : Ty}
    (hnot : ∀ col ∈ cols', col.name ≠ geomName)
    (h : cols ++ [geomColumn ty] <+: cols' ++ [geomColumn ty']) :
    cols ++ [geomColumn ty] = cols' ++ [geomColumn ty'] := by
  rcases List.prefix_concat_iff.mp h with heq | hstart
  · exact heq
  · have hmem := hstart.subset (List.mem_append_right cols List.mem_cons_self)
    exact absurd rfl (hnot _ hmem)

theorem RowType.ext_columns {r r' : RowType Ty} (h : r.columns = r'.columns) : r = r' := by
  cases r
  cases r'
  cases h
  rfl

/-- A view of the script. -/
def Made (T : Types Ty) (rel : Relation Ty) : Prop :=
  ∃ row cols, rel = .view row ∧ row.columns = cols ++ [geomColumn T.point]

theorem made_select {T : Types Ty} {s : PointView} {c : Catalog Ty} {new : RowType Ty}
    (h : s.select T c = some new) : Made T (.view new) := by
  obtain ⟨cols, hcols, -⟩ := select_some h
  exact ⟨new, cols, rfl, hcols⟩

/-! ## One statement -/

section Frame

variable (T : Types Ty) [DecidableEq Ty]

theorem createPointView_postgis (c : Catalog Ty) (s : PointView) :
    (createPointView T c s).postgis = c.postgis := by
  unfold createPointView
  split <;> rfl

theorem createPointView_other (c : Catalog Ty) (s : PointView) {q : RelName} (h : q ≠ s.name) :
    (createPointView T c s).relations q = c.relations q := by
  unfold createPointView
  split
  · rfl
  · exact if_neg h

/-- What a statement does to its view depends on its table, the view and PostGIS alone. -/
theorem createPointView_congr {c c' : Catalog Ty} {s : PointView}
    (hsource : c.relations s.source = c'.relations s.source)
    (hname : c.relations s.name = c'.relations s.name) (hpostgis : c.postgis = c'.postgis) :
    (createPointView T c s).relations s.name = (createPointView T c' s).relations s.name := by
  have hselect : s.select T c = s.select T c' := by
    rw [PointView.select, PointView.select, hsource, hpostgis]
  unfold createPointView
  rw [hselect, hname]
  split
  · exact hname
  · simp [Catalog.set]

theorem foldl_createPointView_other (l : List PointView) (c : Catalog Ty) {q : RelName}
    (h : ∀ s ∈ l, q ≠ s.name) : (l.foldl (createPointView T) c).relations q = c.relations q := by
  induction l generalizing c with
  | nil => rfl
  | cons s l ih =>
    obtain ⟨hs, hl⟩ := List.forall_mem_cons.mp h
    rw [List.foldl_cons, ih _ hl, createPointView_other T c s hs]

/-- A view is made by its own statement. -/
theorem foldl_createPointView {l : List PointView} (hnames : (l.map PointView.name).Nodup)
    (hsources : ∀ s ∈ l, ∀ s' ∈ l, s.source ≠ s'.name) {s : PointView} (hs : s ∈ l)
    (c : Catalog Ty) : (l.foldl (createPointView T) c).relations s.name =
      (createPointView T c s).relations s.name := by
  induction l generalizing c with
  | nil => cases hs
  | cons a l ih =>
    rw [List.map_cons, List.nodup_cons] at hnames
    have hsources' : ∀ s ∈ l, ∀ s' ∈ l, s.source ≠ s'.name := fun s hs s' hs' =>
      hsources s (List.mem_cons_of_mem _ hs) s' (List.mem_cons_of_mem _ hs')
    rw [List.foldl_cons]
    rcases List.mem_cons.mp hs with rfl | hmem
    · apply foldl_createPointView_other
      intro s' hs' heq
      exact hnames.1 (heq ▸ List.mem_map_of_mem hs')
    · rw [ih hnames.2 hsources' hmem]
      apply createPointView_congr
      · exact createPointView_other T c a (hsources s hs a List.mem_cons_self)
      · apply createPointView_other
        intro heq
        exact hnames.1 (heq ▸ List.mem_map_of_mem hmem)
      · exact createPointView_postgis T c a

theorem pointViews_names : (pointViews.map PointView.name).Nodup := by decide

theorem pointViews_sources :
    ∀ s ∈ pointViews, ∀ s' ∈ pointViews, s.source ≠ s'.name := by decide

theorem runStatements_view {s : PointView} (hs : s ∈ pointViews) (c : Catalog Ty) :
    (runStatements T c).relations s.name = (createPointView T c s).relations s.name :=
  foldl_createPointView T pointViews_names pointViews_sources hs c

variable {T}

/-- **One statement.** It makes the view if there is none, and a view of the script stays. -/
theorem createPointView_view (s : PointView) (c : Catalog Ty) :
    (c.relations s.name = none →
      (createPointView T c s).relations s.name = (s.select T c).map Relation.view) ∧
    ∀ rel, c.relations s.name = some rel → Made T rel →
      (createPointView T c s).relations s.name = some rel := by
  unfold createPointView
  constructor
  · intro hnone
    rw [hnone]
    cases hselect : s.select T c with
    | none => exact hnone
    | some new => simp [defineVirtualRelation, Catalog.set]
  · rintro _ hrel ⟨row, cols, rfl, hcols⟩
    rw [hrel]
    cases hselect : s.select T c with
    | none => exact hrel
    | some new =>
      obtain ⟨cols', hnew, hnot⟩ := select_some hselect
      simp only [Option.bind_some, defineVirtualRelation, checkViewTupleDesc]
      split
      · exact hrel
      · rename_i view hview
        obtain ⟨hstart, hview⟩ := Option.ite_none_right_eq_some.mp hview
        rw [List.isPrefixOf_iff_prefix, hcols, hnew] at hstart
        have hsame : new = row :=
          RowType.ext_columns (by rw [hnew, hcols, eq_of_prefix_geom hnot hstart])
        cases hview
        simp [Catalog.set, hsame]

end Frame

/-! ## Histories -/

/-- What happens to a database: a run of the script, any change of a relation, and PostGIS coming
or going. -/
inductive Event (Ty : Type) where
  | run
  | change (q : RelName) (rel : Option (Relation Ty))
  | postgis (on : Bool)

section History

variable (T : Types Ty) [DecidableEq Ty]

def step (c : Catalog Ty) : Event Ty → Catalog Ty
  | .run => runStatements T c
  | .change q rel => c.set q rel
  | .postgis on => { c with postgis := on }

def after (c : Catalog Ty) (events : List (Event Ty)) : Catalog Ty :=
  events.foldl (step T) c

/-- Nothing but the script is done to the view itself; it is not dropped, either. -/
def Untouched (s : PointView) (events : List (Event Ty)) : Prop :=
  ∀ e ∈ events, ∀ q rel, e = .change q rel → q ≠ s.name

variable {T}

/-- What an event does to a view. -/
theorem step_view {s : PointView} (hs : s ∈ pointViews) {e : Event Ty}
    (he : ∀ q rel, e = .change q rel → q ≠ s.name) (c : Catalog Ty) :
    (step T c e).relations s.name = c.relations s.name ∨
      e = .run ∧ (step T c e).relations s.name = (createPointView T c s).relations s.name := by
  cases e with
  | run => exact Or.inr ⟨rfl, runStatements_view T hs c⟩
  | change q rel => exact Or.inl (if_neg (he q rel rfl).symm)
  | postgis on => exact Or.inl rfl

/-- A view of the script stays as it is. -/
theorem step_made {s : PointView} (hs : s ∈ pointViews) {e : Event Ty}
    (he : ∀ q rel, e = .change q rel → q ≠ s.name) {c : Catalog Ty} {rel : Relation Ty}
    (hrel : c.relations s.name = some rel) (hmade : Made T rel) :
    (step T c e).relations s.name = some rel := by
  rcases step_view hs he c with h | ⟨-, h⟩
  · rw [h, hrel]
  · rw [h, (createPointView_view s c).2 rel hrel hmade]

/-- From no view, there is none or one of the script. -/
theorem after_none_or_made {s : PointView} (hs : s ∈ pointViews) {c : Catalog Ty}
    (hnone : c.relations s.name = none) {events : List (Event Ty)} (hev : Untouched s events) :
    (after T c events).relations s.name = none ∨
      ∃ rel, (after T c events).relations s.name = some rel ∧ Made T rel := by
  induction events using List.reverseRecOn with
  | nil => exact Or.inl hnone
  | append_singleton events e ih =>
    have hstep : after T c (events ++ [e]) = step T (after T c events) e := List.foldl_append
    have he := hev e (List.mem_append_right _ List.mem_cons_self)
    rw [hstep]
    rcases ih fun e' he' => hev e' (List.mem_append_left _ he') with hbefore | ⟨rel, hrel, hmade⟩
    · rcases step_view hs he (after T c events) with h | ⟨-, h⟩
      · exact Or.inl (h.trans hbefore)
      · rw [h, (createPointView_view s _).1 hbefore]
        cases hselect : s.select T (after T c events) with
        | none => exact Or.inl rfl
        | some new => exact Or.inr ⟨.view new, rfl, made_select hselect⟩
    · exact Or.inr ⟨rel, step_made hs he hrel hmade, hmade⟩

/-- A view is the one of the first run that could make it. -/
theorem view_iff {s : PointView} (hs : s ∈ pointViews) {c : Catalog Ty}
    (hnone : c.relations s.name = none) {events : List (Event Ty)} (hev : Untouched s events)
    (row : RowType Ty) :
    (after T c events).relations s.name = some (.view row) ↔
      ∃ before later, events = before ++ .run :: later ∧
        (after T c before).relations s.name = none ∧
        s.select T (after T c before) = some row := by
  have hkeep : ∀ e ∈ events, ∀ c : Catalog Ty,
      (∃ rel, c.relations s.name = some rel ∧ Made T rel) →
      (∃ rel, (step T c e).relations s.name = some rel ∧ Made T rel) ∧
        (step T c e).relations s.name = c.relations s.name := by
    rintro e he c ⟨rel, hrel, hmade⟩
    have hsame := step_made hs (hev e he) hrel hmade
    exact ⟨⟨rel, hsame, hmade⟩, hsame.trans hrel.symm⟩
  have hlatch := latched_iff (step T) (fun c => ∃ rel, c.relations s.name = some rel ∧ Made T rel)
    (fun c => c.relations s.name) events hkeep (s := c) (by simp [hnone]) (some (.view row))
  constructor
  · intro hview
    have hmade : ∃ rel, (after T c events).relations s.name = some rel ∧ Made T rel := by
      rcases after_none_or_made hs hnone hev with h | h
      · rw [h] at hview
        cases hview
      · exact h
    obtain ⟨before, e, later, rfl, hbefore, -, hset⟩ := hlatch.mp ⟨hmade, hview⟩
    have hev' : Untouched s before := fun e' he' => hev e' (List.mem_append_left _ he')
    have he := hev e (List.mem_append_right _ List.mem_cons_self)
    have hempty := (after_none_or_made hs hnone hev').resolve_right hbefore
    rcases step_view hs he (after T c before) with hsame | ⟨rfl, hmake⟩
    · rw [hempty] at hsame
      cases hsame.symm.trans hset
    · refine ⟨before, later, rfl, hempty, ?_⟩
      rw [(createPointView_view s _).1 hempty] at hmake
      obtain ⟨new, hselect, hnew⟩ := Option.map_eq_some_iff.mp (hmake.symm.trans hset)
      cases hnew
      exact hselect
  · rintro ⟨before, later, rfl, hempty, hselect⟩
    have hset : (step T (after T c before) .run).relations s.name = some (.view row) := by
      rw [step, runStatements_view T hs, (createPointView_view s _).1 hempty, hselect]
      rfl
    have hbefore : ¬ ∃ rel, (after T c before).relations s.name = some rel ∧ Made T rel := by
      rintro ⟨rel, hrel, -⟩
      rw [hempty] at hrel
      cases hrel
    exact (hlatch.mpr ⟨before, .run, later, rfl, hbefore, ⟨_, hset, made_select hselect⟩, hset⟩).2

/-- **A point view is up to date.** From a database without the view, after any history that leaves
the view to the script: one more run reports success, and then the view shows the columns of its
query exactly if the first run that could make the view saw these columns. -/
theorem point_view_iff {s : PointView} (hs : s ∈ pointViews) {c : Catalog Ty}
    (hnone : c.relations s.name = none) {events : List (Event Ty)} (hev : Untouched s events)
    {new : RowType Ty} (hnow : s.select T (after T c events) = some new) :
    ∃ c', createPointViews T true true (some (after T c events)) = (0, some c') ∧
      (c'.relations s.name = some (.view new) ↔
        ∀ before later row, events = before ++ .run :: later →
          (after T c before).relations s.name = none →
          s.select T (after T c before) = some row → row = new) := by
  refine ⟨runStatements T (after T c events), rfl, ?_⟩
  rw [runStatements_view T hs]
  have hview := fun row => view_iff hs hnone hev (T := T) row
  rcases after_none_or_made hs hnone hev with hempty | ⟨_, hrel, row, cols, rfl, hcols⟩
  · rw [(createPointView_view s _).1 hempty, hnow]
    refine iff_of_true rfl fun before later row heq hbefore hselect => ?_
    have hthere := (hview row).mpr ⟨before, later, heq, hbefore, hselect⟩
    rw [hempty] at hthere
    cases hthere
  · rw [(createPointView_view s _).2 _ hrel ⟨row, cols, rfl, hcols⟩]
    constructor
    · intro hsame before later row' heq hbefore hselect
      have hthere := (hview row').mpr ⟨before, later, heq, hbefore, hselect⟩
      rw [hrel, hsame] at hthere
      cases hthere
      rfl
    · intro hall
      obtain ⟨before, later, heq, hbefore, hselect⟩ := (hview row).mp hrel
      rw [hall before later row heq hbefore hselect]

end History

/-- Numbers for types: 0 for points, 1 for numbers, 2 for integers, 3 for text. -/
def sampleTypes : Types Nat := ⟨0, (· == 1), (· == 2)⟩

def hojyoten : PointView :=
  ⟨"kanri".toList, "hojyoten".toList, "hosei_x".toList, "hosei_y".toList⟩

def firstColumns : RowType Nat :=
  ⟨[⟨"hosei_x".toList, 1⟩, ⟨"hosei_y".toList, 1⟩, ⟨"zahyokei_cd".toList, 2⟩], by decide⟩

/-- One column more. -/
def laterColumns : RowType Nat :=
  ⟨firstColumns.columns ++ [⟨"biko".toList, 3⟩], by decide⟩

def laterView : RowType Nat :=
  ⟨laterColumns.columns ++ [geomColumn 0], by decide⟩

/-- The table gets a column after the first run. The second run reports success, and the view does
not have the column. -/
theorem point_view_stale :
    let events : List (Event Nat) := [.change hojyoten.source (some (.table firstColumns)),
      .postgis true, .run, .change hojyoten.source (some (.table laterColumns))]
    ∃ c', createPointViews sampleTypes true true
        (some (after sampleTypes ⟨fun _ => none, false⟩ events)) = (0, some c') ∧
      c'.relations hojyoten.name ≠ some (.view laterView) := by
  intro events
  have hev : Untouched hojyoten events := by
    intro e he q rel heq
    subst heq
    simp only [events, List.mem_cons, List.not_mem_nil, or_false, reduceCtorEq, false_or,
      Event.change.injEq] at he
    rcases he with ⟨rfl, -⟩ | ⟨rfl, -⟩ <;> decide
  have hnow : hojyoten.select sampleTypes
      (after sampleTypes ⟨fun _ => none, false⟩ events) = some laterView := rfl
  obtain ⟨c', hrun, hiff⟩ := point_view_iff (by decide) rfl hev hnow
  refine ⟨c', hrun, fun hview => ?_⟩
  have hsame := hiff.mp hview (events.take 2) (events.drop 3) ⟨_, by decide⟩ rfl rfl rfl
  have hlen := congrArg (fun row => row.columns.length) hsame
  exact absurd hlen (by decide)

end GdalFull.Postgres.Views
