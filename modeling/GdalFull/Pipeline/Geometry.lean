import GdalFull.Pipeline.Exports
import GdalFull.Pipeline.Layers

/-!
# The test for a geometry

`run_pipeline_pg.sh` makes the FlatGeobuf file and the tile set of a layer only if there is a line
`Geometry: ...` in what `ogrinfo -so` prints about its GeoParquet file. The list of the layers comes
from `ogrinfo -so` too, and there the script reckons with two forms: a line `N: name (Type)` for
a layer, or `Layer name: name` followed by the details of the layer. Only the details have
a line for the geometry.

`derived_untouched_iff`: with the first form no run ever makes or changes one of these files.
-/

namespace GdalFull.Pipeline.Exports

open GdalFull.Lib
open GdalFull.Pipeline.Pmtiles (Store)

variable {D : Type}

/-! ## What `ogrinfo -so` prints -/

/-- The answer about a GeoParquet file: its path, the layer in one of the two forms, and for the
second form the geometry type and the lines after it. -/
structure Answer where
  path : Text
  layer : ListedLayer
  kind : Text
  details : List Text

def Answer.opened (a : Answer) : List Text :=
  ["INFO: Open of `".toList ++ a.path ++ ['\''],
    "      using driver `Parquet' successful.".toList]

def Answer.lines (a : Answer) : List Text :=
  match a.layer.form with
  | .numbered _ _ => a.opened ++ [a.layer.line]
  | .titled =>
    a.opened ++ [] :: a.layer.line :: ("Geometry: ".toList ++ a.kind) :: a.details

/-- The details are there and name a geometry type. -/
def Answer.Shown (a : Answer) : Prop :=
  match a.layer.form with
  | .numbered _ _ => False
  | .titled => a.kind.dropWhile (· = ' ') ≠ [] ∧ a.kind.dropWhile (· = ' ') ≠ "None".toList

theorem geometryOf_of_head {line : Text} (h : line.head? ≠ some 'G') : geometryOf line = none := by
  apply if_neg
  rw [List.isPrefixOf_iff_prefix]
  rintro ⟨rest, rfl⟩
  exact h rfl

theorem geometryOf_kind (kind : Text) :
    geometryOf ("Geometry: ".toList ++ kind) = some (kind.dropWhile (· = ' ')) := by
  have hstart : "Geometry:".toList.isPrefixOf ("Geometry: ".toList ++ kind) = true :=
    List.isPrefixOf_iff_prefix.mpr ⟨' ' :: kind, rfl⟩
  rw [geometryOf, if_pos hstart]
  rfl

/-- The line `N: name (Type)` begins with a digit. -/
theorem geometryOf_numbered {l : ListedLayer} {n : Nat} {type : Convert.Name}
    (h : l.form = .numbered n type) : geometryOf l.line = none := by
  apply geometryOf_of_head
  obtain ⟨c, ds, hds⟩ := List.exists_cons_of_ne_nil (Nat.toDigits_ne_nil (n := n) (b := 10))
  have hc : c.isDigit = true :=
    Nat.isDigit_of_mem_toDigits (by decide) (by decide) (hds ▸ List.mem_cons_self)
  rw [ListedLayer.line, h]
  dsimp only
  rw [hds]
  intro hhead
  cases hhead
  exact absurd hc (by decide)

theorem hasGeom_lines (a : Answer) : hasGeom a.lines = true ↔ a.Shown := by
  have hopened : a.opened.filterMap geometryOf = [] := by
    have hopen : geometryOf ("INFO: Open of `".toList ++ a.path ++ ['\'']) = none :=
      geometryOf_of_head (by simp)
    have hdriver : geometryOf "      using driver `Parquet' successful.".toList = none :=
      geometryOf_of_head (by decide)
    rw [Answer.opened, List.filterMap_cons, hopen, List.filterMap_cons, hdriver]
    rfl
  unfold hasGeom Answer.lines Answer.Shown
  cases hform : a.layer.form with
  | numbered n type =>
    simp only [List.filterMap_append, hopened, List.filterMap_cons, geometryOf_numbered hform]
    simp
  | titled =>
    have hempty : geometryOf [] = none := geometryOf_of_head (by decide)
    have htitle : geometryOf a.layer.line = none := by
      apply geometryOf_of_head
      rw [ListedLayer.line, hform]
      simp
    simp only [List.filterMap_append, hopened, List.filterMap_cons, hempty, htitle,
      geometryOf_kind]
    simp

/-! ## Histories -/

/-- A layer with what `ogrinfo` says about its GeoParquet file. -/
structure Visit (D : Type) where
  name : Convert.Name
  data : D
  answer : Answer

/-- How the three calls for a layer end. -/
structure Ends where
  parquet : Pmtiles.CallEnd
  fgb : Pmtiles.CallEnd
  pmtiles : Pmtiles.CallEnd

def Ends.ok : Ends := ⟨.ok, .ok, .ok⟩

def Visit.layer (v : Visit D) (e : Ends) : Layer D :=
  ⟨v.name, v.data, v.answer.lines, e.parquet, e.fgb, e.pmtiles⟩

/-- Runs of `run_pipeline_pg.sh`, by the layers that they come to. -/
def pgRuns (runs : List (List (Visit D × Ends))) : List (Run D) :=
  runs.map fun layers => .pg (layers.map fun x => x.1.layer x.2)

/-- The passes of the runs. -/
theorem items_pgRuns (runs : List (List (Visit D × Ends))) :
    (pgRuns runs).flatMap Run.items =
      runs.flatten.filterMap fun x => (x.1.layer x.2).item? := by
  induction runs with
  | nil => rfl
  | cons layers runs ih =>
    have hrun : (Run.pg (layers.map fun x => x.1.layer x.2)).items =
        layers.filterMap fun x => (x.1.layer x.2).item? := by
      rw [Run.items, List.filterMap_map]
      rfl
    rw [List.flatten_cons, List.filterMap_append, ← ih, ← hrun]
    rfl

/-- The pass for a layer. -/
theorem item?_layer {v : Visit D} {e : Ends} {x : Item D} :
    (v.layer e).item? = some x ↔ v.name ≠ [] ∧
      x = ⟨safeName v.name, v.data, hasGeom v.answer.lines, e.parquet, e.fgb, e.pmtiles⟩ := by
  unfold Layer.item? Visit.layer
  by_cases hname : v.name = [] <;> simp [hname, eq_comm]

/-- Passes without a geometry leave the files made from the GeoParquet file alone. -/
theorem exportAll_untouched {items : List (Item D)} (h : ∀ x ∈ items, x.geom = false)
    (st : Store D) (k : Convert.Name) {fmt : Format} (hfmt : fmt ≠ .parquet) :
    exportAll items st (outName k fmt) = st (outName k fmt) := by
  induction items using List.reverseRecOn with
  | nil => rfl
  | append_singleton items x ih =>
    have hx : x.geom = false := h x (List.mem_append_right items List.mem_cons_self)
    have hitems := ih fun y hy => h y (List.mem_append_left [x] hy)
    rw [exportAll_concat]
    by_cases hk : k = x.key
    · subst hk
      obtain ⟨-, hfgb, hpm⟩ := exportStep_self items.length (exportAll items st) x
      cases fmt with
      | parquet => exact absurd rfl hfmt
      | fgb =>
        rw [hfgb, if_neg (by simp [hx])]
        exact hitems
      | pmtiles =>
        rw [hpm, if_neg (by simp [hx])]
        exact hitems
    · rw [exportStep_other hk]
      exact hitems

/-- If all calls succeed, a pass with a geometry makes the FlatGeobuf file, and it stays. -/
theorem exportAll_fgb {items : List (Item D)}
    (hok : ∀ x ∈ items, x.parquet = .ok ∧ x.fgb = .ok) (st : Store D) {x : Item D}
    (hx : x ∈ items) (hgeom : x.geom = true) :
    (exportAll items st (outName x.key .fgb)).isSome = true := by
  induction items using List.reverseRecOn with
  | nil => cases hx
  | append_singleton items y ih =>
    have hitems := ih fun z hz => hok z (List.mem_append_left [y] hz)
    obtain ⟨hparquet, hfgb⟩ := hok y (List.mem_append_right items List.mem_cons_self)
    obtain ⟨-, hself, -⟩ := exportStep_self items.length (exportAll items st) y
    rw [hparquet, hfgb] at hself
    rw [exportAll_concat]
    rcases List.mem_append.mp hx with hx | hx
    · by_cases hk : x.key = y.key
      · rw [hk, hself]
        split
        · rfl
        · exact hk ▸ hitems hx
      · rw [exportStep_other hk]
        exact hitems hx
    · rw [List.mem_singleton.mp hx] at hgeom ⊢
      rw [hself, if_pos ⟨rfl, hgeom⟩]
      rfl

theorem all_ok (visits : List (Visit D)) :
    ∀ x ∈ [visits.map fun v => (v, Ends.ok)].flatten.filterMap fun x => (x.1.layer x.2).item?,
      x.parquet = .ok ∧ x.fgb = .ok := by
  intro x hx
  obtain ⟨⟨v, e⟩, hv, hitem⟩ := List.mem_filterMap.mp hx
  have he : e = Ends.ok := by
    simp only [List.flatten_cons, List.flatten_nil, List.append_nil, List.mem_map,
      Prod.mk.injEq] at hv
    obtain ⟨_, _, _, rfl⟩ := hv
    rfl
  obtain ⟨-, rfl⟩ := item?_layer.mp hitem
  rw [he]
  exact ⟨rfl, rfl⟩

/-- **FlatGeobuf files and tile sets of a database.** Given the layers that a sequence of runs of
`run_pipeline_pg.sh` comes to: whatever is in the output directory and however the calls end, no
such file is made or changed, exactly if `ogrinfo -so` gives no details of the GeoParquet files,
or details without a geometry. -/
theorem derived_untouched_iff (visits : List (Visit D)) :
    (∀ runs : List (List (Visit D × Ends)), runs.flatten.map Prod.fst = visits →
        ∀ (st : Store D) (k : Convert.Name) (fmt : Format), fmt ≠ .parquet →
          history (pgRuns runs) st (outName k fmt) = st (outName k fmt)) ↔
      ∀ v ∈ visits, v.name = [] ∨ ¬ v.answer.Shown := by
  constructor
  · intro h v hv
    by_contra hnot
    obtain ⟨hname, hshown⟩ := not_or.mp hnot
    -- one run in which every call succeeds, into an empty directory
    have hvisits : ([visits.map fun v => (v, Ends.ok)].flatten).map Prod.fst = visits := by
      simp [Function.comp_def]
    have hsame := h _ hvisits (fun _ => none) (safeName v.name) .fgb (by decide)
    rw [history, items_pgRuns] at hsame
    have hitem := item?_layer (v := v) (e := .ok).mpr ⟨hname, rfl⟩
    have hgeom := (hasGeom_lines v.answer).mpr (not_not.mp hshown)
    have hmade := exportAll_fgb (all_ok visits) (fun _ => none)
      (List.mem_filterMap.mpr ⟨(v, Ends.ok), by simpa using hv, hitem⟩) hgeom
    rw [hsame] at hmade
    cases hmade
  · rintro h runs rfl st k fmt hfmt
    rw [history, items_pgRuns]
    apply exportAll_untouched _ st k hfmt
    intro x hx
    obtain ⟨⟨v, e⟩, hv, hitem⟩ := List.mem_filterMap.mp hx
    obtain ⟨hname, rfl⟩ := item?_layer.mp hitem
    have hshown := (h v (List.mem_map_of_mem hv)).resolve_left hname
    rwa [← hasGeom_lines, Bool.not_eq_true] at hshown

/-- The tile set of a table of points whose GeoParquet file is listed as
`1: public_roads (Point)`. -/
example :
    let layer : ListedLayer :=
      ⟨"public_roads".toList, .numbered 1 "Point".toList, by decide, by decide⟩
    let answer : Answer := ⟨"output_data/public_roads.parquet".toList, layer, [], []⟩
    history (pgRuns [[(⟨"public.roads".toList, 1, answer⟩, Ends.ok)]]) (fun _ => none)
      "public_roads.pmtiles".toList = none := by
  decide

end GdalFull.Pipeline.Exports
