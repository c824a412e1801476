import Mathlib.Logic.Function.Basic
import Mathlib.Data.List.Forall2
import Mathlib.Tactic.Common

/-!
# The PostgreSQL pipeline

`run_pipeline_pg.sh` exports every layer of a database to Parquet and converts the Parquet
file to FlatGeobuf and PMTiles. The files are named after `safe_name`, in which `.` and `/`
of the layer name have become `_`.

`safeName_eq_iff` tells which layer names share a file name, and `runLayers_own` that a layer
keeps its outputs to the end of the loop when no other layer shares its file name.
-/

namespace GdalFull.Pipeline

abbrev Name := List Char

/-! ## File names -/

/-- `${s//c/_}`. -/
def replaceAll (c : Char) (s : Name) : Name :=
  s.map fun x => if x = c then '_' else x

def safeName (layer : Name) : Name :=
  replaceAll '/' (replaceAll '.' layer)

/-- Equal, or two of the characters `.`, `/` and `_`. -/
def Alike (x y : Char) : Prop :=
  x = y ∨ x ∈ ['.', '/', '_'] ∧ y ∈ ['.', '/', '_']

instance (x y : Char) : Decidable (Alike x y) :=
  inferInstanceAs (Decidable (_ ∨ _))

inductive Format where
  | parquet
  | fgb
  | pmtiles
  deriving DecidableEq

def Format.ext : Format → Name
  | .parquet => ".parquet".toList
  | .fgb => ".fgb".toList
  | .pmtiles => ".pmtiles".toList

/-- The file of a layer in a format, below `OUTPUT_DIR`. -/
def outFile (layer : Name) (fmt : Format) : Name :=
  safeName layer ++ fmt.ext

theorem safeName_char (x : Char) :
    (if (if x = '.' then '_' else x) = '/' then '_' else if x = '.' then '_' else x) =
      if x ∈ ['.', '/', '_'] then '_' else x := by
  by_cases hdot : x = '.'
  · subst hdot
    decide
  · by_cases hslash : x = '/'
    · subst hslash
      decide
    · by_cases hbar : x = '_'
      · subst hbar
        decide
      · simp [hdot, hslash, hbar]

theorem safeName_eq_map (layer : Name) :
    safeName layer = layer.map fun x => if x ∈ ['.', '/', '_'] then '_' else x := by
  simp only [safeName, replaceAll, List.map_map]
  apply List.map_congr_left
  intro x _
  exact safeName_char x

theorem alike_iff (x y : Char) :
    (if x ∈ ['.', '/', '_'] then '_' else x) = (if y ∈ ['.', '/', '_'] then '_' else y) ↔
      Alike x y := by
  have hbar : '_' ∈ ['.', '/', '_'] := by decide
  unfold Alike
  by_cases hx : x ∈ ['.', '/', '_']
  · by_cases hy : y ∈ ['.', '/', '_']
    · rw [if_pos hx, if_pos hy]
      exact iff_of_true rfl (Or.inr ⟨hx, hy⟩)
    · rw [if_pos hx, if_neg hy]
      constructor
      · rintro rfl
        exact absurd hbar hy
      · rintro (rfl | h)
        · exact absurd hx hy
        · exact absurd h.2 hy
  · rw [if_neg hx]
    constructor
    · intro h
      by_cases hy : y ∈ ['.', '/', '_']
      · rw [if_pos hy] at h
        exact absurd (h ▸ hbar) hx
      · rw [if_neg hy] at h
        exact Or.inl h
    · rintro (rfl | h)
      · rw [if_neg hx]
      · exact absurd h.1 hx

/-- Two layers share a file name when their names agree up to `.`, `/` and `_`. -/
theorem safeName_eq_iff (layer₁ layer₂ : Name) :
    safeName layer₁ = safeName layer₂ ↔ List.Forall₂ Alike layer₁ layer₂ := by
  rw [safeName_eq_map, safeName_eq_map, ← List.forall₂_eq_eq_eq, List.forall₂_map_left_iff,
    List.forall₂_map_right_iff]
  simp only [alike_iff]

theorem outFile_eq_iff {layer₁ layer₂ : Name} {fmt₁ fmt₂ : Format} :
    outFile layer₁ fmt₁ = outFile layer₂ fmt₂ ↔
      safeName layer₁ = safeName layer₂ ∧ fmt₁ = fmt₂ := by
  unfold outFile
  constructor
  · intro h
    have hne : ∀ fmt : Format, fmt.ext ≠ [] := by
      intro fmt
      cases fmt <;> decide
    have hlast := congrArg List.getLast? h
    rw [List.getLast?_append_of_ne_nil _ (hne fmt₁),
      List.getLast?_append_of_ne_nil _ (hne fmt₂)] at hlast
    have hfmt : fmt₁ = fmt₂ := by
      cases fmt₁ <;> cases fmt₂ <;> first | rfl | exact absurd hlast (by decide)
    subst hfmt
    exact ⟨List.append_cancel_right h, rfl⟩
  · rintro ⟨hname, rfl⟩
    rw [hname]

/-! ## The loop -/

variable {F : Type}

/-- What the calls of `ogr2ogr` write when they succeed, and what `ogrinfo` says of a Parquet
file. -/
structure Tools (F : Type) where
  exported : Name → F
  toFgb : F → F
  toPmtiles : F → F
  hasGeom : F → Bool

/-- A call succeeds, or fails and leaves something at its output path. -/
inductive CallEnd (F : Type) where
  | ok
  | failed (left : Option F)

/-- How the three calls for a layer end. -/
structure LayerEnds (F : Type) where
  parquet : CallEnd F
  fgb : CallEnd F
  pmtiles : CallEnd F

structure PgState (F : Type) where
  files : Name → Option F
  failed : Bool

def CallEnd.write (e : CallEnd F) (path : Name) (result : F) (files : Name → Option F) :
    Name → Option F :=
  match e with
  | .ok => Function.update files path (some result)
  | .failed left => Function.update files path left

/-- The body of the loop. -/
def layerStep (tools : Tools F) (s : PgState F) (x : Name × LayerEnds F) : PgState F :=
  let (layer, ends) := x
  if layer = [] then s
  else
    let files := ends.parquet.write (outFile layer .parquet) (tools.exported layer) s.files
    match ends.parquet with
    | .failed _ => { files, failed := true }
    | .ok =>
      match files (outFile layer .parquet) with
      | none => { s with files }
      | some pq =>
        if tools.hasGeom pq then
          let files := ends.fgb.write (outFile layer .fgb) (tools.toFgb pq) files
          let files := ends.pmtiles.write (outFile layer .pmtiles) (tools.toPmtiles pq) files
          { s with files }
        else { s with files }

def runLayers (tools : Tools F) (layers : List (Name × LayerEnds F)) (s : PgState F) :
    PgState F :=
  layers.foldl (layerStep tools) s

/-! ## What one layer does -/

theorem CallEnd.write_of_ne {path p : Name} (h : p ≠ path) (e : CallEnd F) (result : F)
    (files : Name → Option F) : e.write path result files p = files p := by
  cases e <;> exact Function.update_of_ne h _ files

theorem CallEnd.write_ok (path : Name) (result : F) (files : Name → Option F) :
    CallEnd.ok.write path result files path = some result := by
  simp [CallEnd.write]

/-- A step only touches the files that are named after its layer. -/
theorem layerStep_frame (tools : Tools F) (s : PgState F) {layer : Name} (ends : LayerEnds F)
    {p : Name} (hp : ∀ fmt, p ≠ outFile layer fmt) :
    (layerStep tools s (layer, ends)).files p = s.files p := by
  have hwrite := fun fmt => CallEnd.write_of_ne (F := F) (hp fmt)
  unfold layerStep
  dsimp only
  split
  · rfl
  · split
    · exact hwrite .parquet _ _ _
    · split
      · exact hwrite .parquet _ _ _
      · split
        · dsimp only
          rw [hwrite .pmtiles, hwrite .fgb, hwrite .parquet]
        · exact hwrite .parquet _ _ _

theorem runLayers_frame (tools : Tools F) (layers : List (Name × LayerEnds F)) (s : PgState F)
    {p : Name} (hp : ∀ x ∈ layers, ∀ fmt, p ≠ outFile x.1 fmt) :
    (runLayers tools layers s).files p = s.files p := by
  induction layers generalizing s with
  | nil => rfl
  | cons x layers ih =>
    have htail := ih (layerStep tools s x) fun y hy => hp y (List.mem_cons_of_mem _ hy)
    have hhead := layerStep_frame tools s x.2 (hp x List.mem_cons_self)
    exact htail.trans hhead

/-- The outputs of a layer after its step, for the calls that succeeded. -/
structure Exported (tools : Tools F) (layer : Name) (ends : LayerEnds F)
    (files : Name → Option F) : Prop where
  parquet : files (outFile layer .parquet) = some (tools.exported layer)
  fgb : tools.hasGeom (tools.exported layer) = true → ends.fgb = .ok →
    files (outFile layer .fgb) = some (tools.toFgb (tools.exported layer))
  pmtiles : tools.hasGeom (tools.exported layer) = true → ends.pmtiles = .ok →
    files (outFile layer .pmtiles) = some (tools.toPmtiles (tools.exported layer))

theorem layerStep_exported (tools : Tools F) (s : PgState F) {layer : Name}
    (hlayer : layer ≠ []) {ends : LayerEnds F} (hok : ends.parquet = .ok) :
    Exported tools layer ends (layerStep tools s (layer, ends)).files := by
  have hdiff : ∀ fmt₁ fmt₂ : Format, fmt₁ ≠ fmt₂ → outFile layer fmt₁ ≠ outFile layer fmt₂ :=
    fun _ _ hne h => hne (outFile_eq_iff.mp h).2
  have hpq := CallEnd.write_ok (outFile layer .parquet) (tools.exported layer) s.files
  unfold layerStep
  dsimp only
  rw [if_neg hlayer, hok]
  dsimp only
  rw [hpq]
  dsimp only
  cases hgeom : tools.hasGeom (tools.exported layer) with
  | false =>
    rw [if_neg (by simp)]
    exact ⟨hpq, by simp [hgeom], by simp [hgeom]⟩
  | true =>
    rw [if_pos rfl]
    refine ⟨?_, ?_, ?_⟩
    · dsimp only
      rw [CallEnd.write_of_ne (hdiff .parquet .pmtiles (by decide)),
        CallEnd.write_of_ne (hdiff .parquet .fgb (by decide))]
      exact hpq
    · intro _ hfgb
      dsimp only
      rw [CallEnd.write_of_ne (hdiff .fgb .pmtiles (by decide)), hfgb]
      exact CallEnd.write_ok _ _ _
    · intro _ hpm
      dsimp only
      rw [hpm]
      exact CallEnd.write_ok _ _ _

/-! ## The whole run -/

/-- Two layers of the list share a file name exactly when their names agree up to `.`, `/` and
`_`; when no two do, every exported layer has its own outputs after the loop. -/
theorem runLayers_own (tools : Tools F) (layers : List (Name × LayerEnds F)) (s : PgState F)
    (hnodup : (layers.map Prod.fst).Nodup) :
    (∀ x ∈ layers, ∀ y ∈ layers,
      (safeName x.1 = safeName y.1 ↔ List.Forall₂ Alike x.1 y.1)) ∧
    ((∀ x ∈ layers, ∀ y ∈ layers, List.Forall₂ Alike x.1 y.1 → x.1 = y.1) →
      ∀ x ∈ layers, x.1 ≠ [] → x.2.parquet = .ok →
        Exported tools x.1 x.2 (runLayers tools layers s).files) := by
  refine ⟨fun x _ y _ => safeName_eq_iff x.1 y.1, ?_⟩
  rintro hapart ⟨layer, ends⟩ hx hlayer hok
  obtain ⟨before, after, rfl⟩ := List.append_of_mem hx
  have hrest : ∀ fmt, (runLayers tools (before ++ (layer, ends) :: after) s).files
      (outFile layer fmt) =
        (layerStep tools (runLayers tools before s) (layer, ends)).files (outFile layer fmt) := by
    intro fmt
    have hsplit : runLayers tools (before ++ (layer, ends) :: after) s =
        runLayers tools after (layerStep tools (runLayers tools before s) (layer, ends)) := by
      simp [runLayers]
    rw [hsplit]
    apply runLayers_frame
    intro y hy fmt' heq
    have hname := (outFile_eq_iff.mp heq).1
    have hsame : layer = y.1 :=
      hapart _ hx y (by simp [hy]) ((safeName_eq_iff _ _).mp hname)
    rw [List.map_append, List.map_cons, List.nodup_append, List.nodup_cons] at hnodup
    exact hnodup.2.1.1 (hsame ▸ List.mem_map.mpr ⟨y, hy, rfl⟩)
  obtain ⟨hpq, hfgb, hpm⟩ := layerStep_exported tools (runLayers tools before s) hlayer hok
  exact ⟨(hrest _).trans hpq, fun hg h => (hrest _).trans (hfgb hg h),
    fun hg h => (hrest _).trans (hpm hg h)⟩

/-- Files that show which layer and which calls they come from. -/
def nameTools : Tools (Name × List Format) where
  exported := fun layer => (layer, [.parquet])
  toFgb := fun f => (f.1, .fgb :: f.2)
  toPmtiles := fun f => (f.1, .pmtiles :: f.2)
  hasGeom := fun _ => true

def noFiles : PgState (Name × List Format) := ⟨fun _ => none, false⟩

theorem runLayers_own_public :
    Exported nameTools "public.roads".toList ⟨.ok, .ok, .failed none⟩
      (runLayers nameTools [("public.roads".toList, ⟨.ok, .ok, .failed none⟩),
        ("public.rivers".toList, ⟨.ok, .ok, .ok⟩)] noFiles).files :=
  (runLayers_own nameTools [("public.roads".toList, ⟨.ok, .ok, .failed none⟩),
    ("public.rivers".toList, ⟨.ok, .ok, .ok⟩)] noFiles (by decide)).2 (by decide) _
    List.mem_cons_self (by decide) rfl

/-- `public.roads` and `public_roads` share all three files, and the second overwrites the
first. -/
theorem runLayers_overwrite :
    safeName "public.roads".toList = safeName "public_roads".toList ∧
    ∀ fmt ∈ [Format.parquet, .fgb, .pmtiles],
      ((runLayers nameTools [("public.roads".toList, ⟨.ok, .ok, .ok⟩),
          ("public_roads".toList, ⟨.ok, .ok, .ok⟩)] noFiles).files
        (outFile "public.roads".toList fmt)).map Prod.fst = some "public_roads".toList := by
  have hsafe : safeName "public.roads".toList = safeName "public_roads".toList := by decide
  refine ⟨hsafe, ?_⟩
  intro fmt _
  have hfile : outFile "public.roads".toList fmt = outFile "public_roads".toList fmt := by
    rw [outFile, outFile, hsafe]
  obtain ⟨hpq, hfgb, hpm⟩ := layerStep_exported nameTools
    (runLayers nameTools [("public.roads".toList, ⟨.ok, .ok, .ok⟩)] noFiles)
    (show "public_roads".toList ≠ [] by decide) (show (⟨.ok, .ok, .ok⟩ : LayerEnds _).parquet = .ok
      from rfl)
  rw [hfile]
  cases fmt with
  | parquet => exact congrArg (Option.map Prod.fst) hpq
  | fgb => exact congrArg (Option.map Prod.fst) (hfgb rfl rfl)
  | pmtiles => exact congrArg (Option.map Prod.fst) (hpm rfl rfl)

end GdalFull.Pipeline
