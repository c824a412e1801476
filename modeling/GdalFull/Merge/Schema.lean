import GdalFull.Merge.Shell
import Mathlib.Data.List.DropRight
import Mathlib.Data.List.Forall2

/-!
# Attributes of the merged layer

A layer has a list of fields, and its features have values for fields of that list
(`Gpkg.wf`). The creating call fixes the fields of the merged layer; `-append` without
`-addfields` drops every attribute whose field the layer does not have (`schemaSink`).

`schema_grow` gives the merged layer of any row of successful calls: all features are cut
to the fields of the layer that the run builds on. So a run carries every attribute
exactly when these fields cover every merged file, and the copies overwrite nothing
(`merge_attributes_iff`).
-/

namespace GdalFull.Merge

open Lib

variable {V : Type}

/-- A feature: its set attributes, and the coordinates that `add_genxy_to_gpkg` reads off
its geometry (`none` for an empty one). -/
structure Feature (V : Type) where
  attrs : List (String × V)
  genxy : Option (V × V)
  deriving DecidableEq

/-- The one layer of a GeoPackage. -/
structure Gpkg (V : Type) where
  fields : List String
  features : List (Feature V)
  wf : ∀ f ∈ features, ∀ p ∈ f.attrs, p.1 ∈ fields

/-! ## The copy with 元X and 元Y -/

/-- `SetField` on the first field of that name. -/
def setField (attrs : List (String × V)) (q : String × V) : List (String × V) :=
  if q.1 ∈ attrs.map Prod.fst then attrs.map fun p => if p.1 = q.1 then q else p
  else attrs ++ [q]

theorem mem_setField {attrs : List (String × V)} {p q : String × V} :
    p ∈ setField attrs q ↔ p = q ∨ (p ∈ attrs ∧ p.1 ≠ q.1) := by
  unfold setField
  split
  · rename_i hq
    obtain ⟨r, hr, hrq⟩ := List.mem_map.mp hq
    simp only [List.mem_map]
    constructor
    · rintro ⟨s, hs, rfl⟩
      split
      · exact Or.inl rfl
      · exact Or.inr ⟨hs, by assumption⟩
    · rintro (rfl | ⟨hp, hne⟩)
      · exact ⟨r, hr, if_pos hrq⟩
      · exact ⟨p, hp, if_neg hne⟩
  · rename_i hq
    simp only [List.mem_append, List.mem_singleton]
    constructor
    · rintro (hp | rfl)
      · exact Or.inr ⟨hp, fun he => hq (List.mem_map.mpr ⟨p, hp, he⟩)⟩
      · exact Or.inl rfl
    · rintro (rfl | ⟨hp, _⟩)
      · exact Or.inr rfl
      · exact Or.inl hp

/-- The attributes that the copy adds: 元X and 元Y. -/
def Feature.genxyAttrs (f : Feature V) : List (String × V) :=
  match f.genxy with
  | none => []
  | some (gx, gy) => [("元X", gx), ("元Y", gy)]

theorem Feature.mem_genxyAttrs {f : Feature V} {p : String × V} :
    p ∈ f.genxyAttrs ↔
      ∃ gx gy, f.genxy = some (gx, gy) ∧ (p = ("元X", gx) ∨ p = ("元Y", gy)) := by
  unfold Feature.genxyAttrs
  rcases f.genxy with _ | ⟨gx, gy⟩ <;> simp

theorem Feature.genxyAttrs_unique {f : Feature V} {p q : String × V} (hp : p ∈ f.genxyAttrs)
    (hq : q ∈ f.genxyAttrs) (he : p.1 = q.1) : p = q := by
  obtain ⟨gx, gy, hxy, hp⟩ := mem_genxyAttrs.mp hp
  obtain ⟨gx', gy', hxy', hq⟩ := mem_genxyAttrs.mp hq
  obtain ⟨rfl, rfl⟩ : gx = gx' ∧ gy = gy' := by simpa [hxy] using hxy'
  have hne : "元X" ≠ "元Y" := by decide
  rcases hp with rfl | rfl <;> rcases hq with rfl | rfl
  · rfl
  · exact absurd he hne
  · exact absurd he.symm hne
  · rfl

/-- The new feature of the copy: the source's values, then 元X and 元Y. -/
def Feature.withGenxy (f : Feature V) : Feature V :=
  { f with attrs := f.genxyAttrs.foldl setField f.attrs }

theorem mem_withGenxy {f : Feature V} {p : String × V} :
    p ∈ f.withGenxy.attrs ↔
      p ∈ f.genxyAttrs ∨ (p ∈ f.attrs ∧ ∀ q ∈ f.genxyAttrs, p.1 ≠ q.1) := by
  unfold Feature.withGenxy Feature.genxyAttrs
  rcases f.genxy with _ | ⟨gx, gy⟩
  · simp
  · simp only [List.foldl_cons, List.foldl_nil, mem_setField, List.mem_cons, List.not_mem_nil,
      or_false, forall_eq_or_imp, forall_eq]
    constructor
    · rintro (rfl | ⟨rfl | ⟨hp, hx⟩, hy⟩)
      · exact Or.inl (Or.inr rfl)
      · exact Or.inl (Or.inl rfl)
      · exact Or.inr ⟨hp, hx, hy⟩
    · rintro ((rfl | rfl) | ⟨hp, hx, hy⟩)
      · exact Or.inr ⟨Or.inl rfl, show "元X" ≠ "元Y" by decide⟩
      · exact Or.inl rfl
      · exact Or.inr ⟨Or.inr ⟨hp, hx⟩, hy⟩

/-- What `add_genxy_to_gpkg` writes when every call of it succeeds: the source's fields,
then 元X and 元Y. -/
def addGenxyToGpkg (_zukei : Nat) (g : Gpkg V) : Gpkg V where
  fields := g.fields ++ ["元X", "元Y"]
  features := g.features.map Feature.withGenxy
  wf := by
    intro f' hf' p hp
    obtain ⟨f, hf, rfl⟩ := List.mem_map.mp hf'
    rw [List.mem_append]
    rcases mem_withGenxy.mp hp with hp | ⟨hp, _⟩
    · obtain ⟨gx, gy, _, rfl | rfl⟩ := Feature.mem_genxyAttrs.mp hp <;> simp
    · exact Or.inl (g.wf f hf p hp)

/-! ## The merged layer -/

/-- An appended feature keeps the attributes whose field the layer has. -/
def Feature.cut (fields : List String) (f : Feature V) : Feature V :=
  { f with attrs := f.attrs.filter fun p => p.1 ∈ fields }

theorem mem_cut {fields : List String} {f : Feature V} {p : String × V} :
    p ∈ (f.cut fields).attrs ↔ p ∈ f.attrs ∧ p.1 ∈ fields := by
  simp [Feature.cut]

/-- A layer's own features are not cut by its fields. -/
theorem Gpkg.cut_self (g : Gpkg V) : g.features.map (Feature.cut g.fields) = g.features := by
  conv_rhs => rw [← List.map_id g.features]
  apply List.map_congr_left
  intro f hf
  have hall : f.attrs.filter (fun p => p.1 ∈ g.fields) = f.attrs :=
    List.filter_eq_self.mpr fun p hp => by simpa using g.wf f hf p hp
  simp [Feature.cut, hall]

/-- `-append` without `-addfields`: the fields stay, the new features are cut to them. -/
def Gpkg.append (g : Gpkg V) (r : Reading (Gpkg V)) : Gpkg V where
  fields := g.fields
  features := g.features ++ r.src.features.map (Feature.cut g.fields)
  wf := by
    intro f hf p hp
    rcases List.mem_append.mp hf with hf | hf
    · exact g.wf f hf p hp
    · obtain ⟨f, _, rfl⟩ := List.mem_map.mp hf
      exact (mem_cut.mp hp).2

/-- `ogr2ogr` on the attributes of a merge: reprojection does not touch them. -/
def schemaSink : Sink (Reading (Gpkg V)) (Gpkg V) where
  create := Reading.src
  append := Gpkg.append

/-- The fields of the layer that a row of writes builds on: those of the file that is
there, or else of the first source written. -/
def baseFields (out : Option (Gpkg V)) (rs : List (Reading (Gpkg V))) : List String :=
  match out with
  | some g => g.fields
  | none => (rs.head?.map fun r => r.src.fields).getD []

theorem schema_grow_some (g : Gpkg V) (rs : List (Reading (Gpkg V))) :
    ∃ layer, schemaSink.grow (some g) rs = some layer ∧ layer.fields = g.fields ∧
      layer.features =
        g.features ++ rs.flatMap fun r => r.src.features.map (Feature.cut g.fields) := by
  induction rs generalizing g with
  | nil => exact ⟨g, rfl, rfl, by simp⟩
  | cons r rs ih =>
    obtain ⟨layer, hgrow, hfields, hfeatures⟩ := ih (g.append r)
    refine ⟨layer, hgrow, hfields, ?_⟩
    rw [hfeatures]
    simp [Gpkg.append]

/-- The layer after at least one write: what was there, then every source cut to the
fields that the run builds on. -/
theorem schema_grow (out : Option (Gpkg V)) {rs : List (Reading (Gpkg V))} (hrs : rs ≠ []) :
    ∃ layer, schemaSink.grow out rs = some layer ∧
      layer.features = (out.map Gpkg.features).getD [] ++
        rs.flatMap fun r => r.src.features.map (Feature.cut (baseFields out rs)) := by
  cases out with
  | some g =>
    obtain ⟨layer, hgrow, _, hfeatures⟩ := schema_grow_some g rs
    exact ⟨layer, hgrow, hfeatures⟩
  | none =>
    cases rs with
    | nil => exact absurd rfl hrs
    | cons r rs =>
      obtain ⟨layer, hgrow, _, hfeatures⟩ := schema_grow_some r.src rs
      refine ⟨layer, hgrow, ?_⟩
      rw [hfeatures]
      simp [baseFields, Gpkg.cut_self]

/-! ## What a run has to carry -/

/-- A feature of a merged file, and whether its file was merged as the copy. -/
structure Merged (V : Type) where
  copied : Bool
  feature : Feature V

/-- The attributes that the merged layer should have: those of the file, and 元X and 元Y
for a file that was copied. -/
def Merged.attrs (m : Merged V) : List (String × V) :=
  m.feature.attrs ++ if m.copied then m.feature.genxyAttrs else []

/-- The feature as it is handed to `ogr2ogr`. -/
def Merged.handed (m : Merged V) : Feature V :=
  if m.copied then m.feature.withGenxy else m.feature

/-- The last features of the layer are those of the merged files, in order, each with all
its attributes. -/
def Carries (merged : List (Merged V)) (out : Option (Gpkg V)) : Prop :=
  ∃ layer, out = some layer ∧
    List.Forall₂ (fun (m : Merged V) (f : Feature V) => ∀ p ∈ m.attrs, p ∈ f.attrs) merged
      (layer.features.rtake merged.length)

/-- No attribute is lost: its field is among `fields`, and the copy does not overwrite a
value that the file already has under 元X or 元Y with another one. -/
def Merged.Fits (fields : List String) (m : Merged V) : Prop :=
  (∀ p ∈ m.attrs, p.1 ∈ fields) ∧
    (m.copied = true → ∀ p ∈ m.feature.attrs, ∀ q ∈ m.feature.genxyAttrs, p.1 = q.1 → p = q)

instance [DecidableEq V] (fields : List String) (m : Merged V) : Decidable (m.Fits fields) :=
  inferInstanceAs (Decidable (_ ∧ (_ → _)))

theorem Merged.fits_iff (fields : List String) (m : Merged V) :
    (∀ p ∈ m.attrs, p ∈ (m.handed.cut fields).attrs) ↔ m.Fits fields := by
  obtain ⟨copied, f⟩ := m
  cases copied with
  | false =>
    simp only [Merged.attrs, Merged.handed, Merged.Fits, mem_cut, Bool.false_eq_true, if_false,
      List.append_nil, false_implies, and_true]
    exact ⟨fun h p hp => (h p hp).2, fun h p hp => ⟨hp, h p hp⟩⟩
  | true =>
    simp only [Merged.attrs, Merged.handed, Merged.Fits, mem_cut, if_true, forall_const,
      mem_withGenxy, List.mem_append]
    constructor
    · intro h
      refine ⟨fun p hp => (h p hp).2, fun p hp q hq he => ?_⟩
      rcases (h p (Or.inl hp)).1 with hp' | ⟨_, hne⟩
      · exact Feature.genxyAttrs_unique hp' hq he
      · exact absurd he (hne q hq)
    · rintro ⟨hfields, hclash⟩ p hp
      refine ⟨?_, hfields p hp⟩
      rcases hp with hp | hp
      · by_cases hq : ∃ q ∈ f.genxyAttrs, p.1 = q.1
        · obtain ⟨q, hq, he⟩ := hq
          exact Or.inl (hclash p hp q hq he ▸ hq)
        · exact Or.inr ⟨hp, fun q hqm he => hq ⟨q, hqm, he⟩⟩
      · exact Or.inl hp

/-- A layer that ends with the merged features, cut to its fields, carries them exactly when
they all fit these fields. -/
theorem carries_iff {merged : List (Merged V)} {fields : List String} {old : List (Feature V)}
    {out : Option (Gpkg V)} {layer : Gpkg V} (hout : out = some layer)
    (hfeatures : layer.features = old ++ merged.map fun m => m.handed.cut fields) :
    Carries merged out ↔ ∀ m ∈ merged, m.Fits fields := by
  have hlast : layer.features.rtake merged.length = merged.map fun m => m.handed.cut fields := by
    rw [hfeatures, List.rtake]
    simp
  have hcarries : Carries merged out ↔
      List.Forall₂ (fun (m : Merged V) (f : Feature V) => ∀ p ∈ m.attrs, p ∈ f.attrs) merged
        (layer.features.rtake merged.length) := by
    subst hout
    simp [Carries]
  rw [hcarries, hlast, List.forall₂_map_right_iff, List.forall₂_same]
  exact forall₂_congr fun m _ => m.fits_iff fields

/-! ## The drivers -/

/-- The features of the files that `merge_tochi_geopackage.py` counts as merged. -/
def tochiMerged (hasOgr : Bool) (gpkgs : List (TochiFile (Gpkg V) (Gpkg V))) : List (Merged V) :=
  gpkgs.flatMap fun f =>
    if f.zukei.isSome && f.proc.ok then
      f.src.features.map fun x => ⟨hasOgr && f.copy == .written, x⟩
    else []

/-- The features of the files that a shell driver counts as merged. -/
def shellMerged (gpkgs : List (ShellFile (Gpkg V))) : List (Merged V) :=
  gpkgs.flatMap fun f => if f.exit = 0 then f.src.features.map fun x => ⟨false, x⟩ else []

theorem tochiMerged_handed (hasOgr : Bool) (gpkgs : List (TochiFile (Gpkg V) (Gpkg V)))
    (fields : List String) :
    (succeeded (tochiAttempts hasOgr addGenxyToGpkg gpkgs)).flatMap
        (fun r => r.src.features.map (Feature.cut fields)) =
      (tochiMerged hasOgr gpkgs).map fun m => m.handed.cut fields := by
  rw [tochiAttempts, succeeded_flatMap, tochiMerged, List.map_flatMap]
  congr 1
  funext f
  cases hz : f.zukei with
  | none => simp [TochiFile.attempt?, hz, succeeded]
  | some z =>
    cases hok : f.proc.ok with
    | false => simp [TochiFile.attempt?, hz, hok, succeeded]
    | true =>
      simp only [TochiFile.attempt?, hz, hok, succeeded, TochiFile.srcPath, Option.map_some,
        Option.toList_some, List.filter_cons_of_pos, List.filter_nil, List.map_cons, List.map_nil,
        List.flatMap_singleton, Option.isSome_some, Bool.and_self, if_true, List.map_map]
      cases hcopy : hasOgr && f.copy == .written with
      | false => rfl
      | true => simp [addGenxyToGpkg, Merged.handed, Function.comp_def]

theorem shellMerged_handed (d : ShellDriver) (gpkgs : List (ShellFile (Gpkg V)))
    (fields : List String) :
    (succeeded (gpkgs.map (ShellFile.attempt d))).flatMap
        (fun r => r.src.features.map (Feature.cut fields)) =
      (shellMerged gpkgs).map fun m => m.handed.cut fields := by
  have hcalls : gpkgs.map (ShellFile.attempt d) = gpkgs.filterMap (some ∘ ShellFile.attempt d) :=
    congrFun List.filterMap_eq_map.symm gpkgs
  rw [hcalls, succeeded_flatMap, shellMerged, List.map_flatMap]
  congr 1
  funext f
  by_cases hexit : f.exit = 0
  · simp [ShellFile.attempt, ShellDriver.reading, succeeded, hexit, Merged.handed,
      Function.comp_def]
  · simp [ShellFile.attempt, succeeded, hexit]

/-- **Attributes.** A run that ends successfully carries every attribute of every merged
file exactly when each of them is a field of the layer that the run builds on and no copy
overwrites a value. For the Python driver that layer is the file of an earlier run when
the creating call fails over one; otherwise it is the first merged file. -/
theorem merge_attributes_iff :
    (∀ (hasOgr : Bool) (prior : Option (Gpkg V)) (gpkgs : List (TochiFile (Gpkg V) (Gpkg V)))
        (st : State (Gpkg V)),
      tochiMain schemaSink hasOgr addGenxyToGpkg prior (some gpkgs) = (0, st) →
        (Carries (tochiMerged hasOgr gpkgs) st.output ↔
          ∀ m ∈ tochiMerged hasOgr gpkgs,
            m.Fits (baseFields (kept prior (tochiAttempts hasOgr addGenxyToGpkg gpkgs))
              (succeeded (tochiAttempts hasOgr addGenxyToGpkg gpkgs))))) ∧
    ∀ d ∈ [mergeGaikuGeopackage, mergeToshiGeopackage],
      ∀ (prior out : Option (Gpkg V)) (gpkgs : List (ShellFile (Gpkg V))),
        shellMain schemaSink d prior (some gpkgs) = (0, out) →
          (Carries (shellMerged gpkgs) out ↔
            ∀ m ∈ shellMerged gpkgs,
              m.Fits (baseFields none (succeeded (gpkgs.map (ShellFile.attempt d))))) := by
  refine ⟨?_, ?_⟩
  · intro hasOgr prior gpkgs st h
    obtain ⟨hne, hout⟩ := tochiMain_zero h
    obtain ⟨layer, hlayer, hfeatures⟩ :=
      schema_grow (kept prior (tochiAttempts hasOgr addGenxyToGpkg gpkgs)) hne
    rw [tochiMerged_handed] at hfeatures
    exact carries_iff (hout.trans hlayer) hfeatures
  · intro d _ prior out gpkgs h
    obtain ⟨hne, hout⟩ := shellMain_zero h
    obtain ⟨layer, hlayer, hfeatures⟩ := schema_grow none hne
    rw [shellMerged_handed] at hfeatures
    exact carries_iff (hout.trans hlayer) hfeatures

/-- A file with one field and a file with the same field and another one. -/
def narrowGpkg : Gpkg Nat := ⟨["col0"], [⟨[("col0", 1)], some (10, 20)⟩], by decide⟩
def wideGpkg : Gpkg Nat :=
  ⟨["col0", "col1"], [⟨[("col0", 2), ("col1", 3)], some (30, 40)⟩], by decide⟩

/-- The wide file first: the narrow one fits. -/
theorem merge_attributes_wide_first :
    (∃ st, tochiMain schemaSink true addGenxyToGpkg none
        (some [⟨wideGpkg, some 9, .written, .exit 0⟩, ⟨narrowGpkg, some 9, .written, .exit 0⟩]) =
          (0, st) ∧
      Carries (tochiMerged true
        [⟨wideGpkg, some 9, .written, .exit 0⟩, ⟨narrowGpkg, some 9, .written, .exit 0⟩])
        st.output) ∧
    ∀ d ∈ [mergeGaikuGeopackage, mergeToshiGeopackage],
      ∃ out, shellMain schemaSink d none (some [⟨wideGpkg, 0⟩, ⟨narrowGpkg, 0⟩]) = (0, out) ∧
        Carries (shellMerged [⟨wideGpkg, 0⟩, ⟨narrowGpkg, 0⟩]) out := by
  refine ⟨⟨_, rfl, ?_⟩, fun d hd => ⟨_, rfl, ?_⟩⟩
  · exact (merge_attributes_iff.1 true none _ _ rfl).mpr (by decide)
  · refine (merge_attributes_iff.2 d hd none _ _ rfl).mpr ?_
    revert d
    decide

/-- The narrow file first: the second file loses `col1` in the shell drivers. In the Python
driver the first file falls back to the raw one and the second loses 元X and 元Y as well. -/
theorem merge_attributes_narrow_first :
    (∃ st, tochiMain schemaSink true addGenxyToGpkg none
        (some [⟨narrowGpkg, some 9, .refused, .exit 0⟩, ⟨wideGpkg, some 9, .written, .exit 0⟩]) =
          (0, st) ∧
      ¬ Carries (tochiMerged true
        [⟨narrowGpkg, some 9, .refused, .exit 0⟩, ⟨wideGpkg, some 9, .written, .exit 0⟩])
        st.output) ∧
    ∀ d ∈ [mergeGaikuGeopackage, mergeToshiGeopackage],
      ∃ out, shellMain schemaSink d none (some [⟨narrowGpkg, 0⟩, ⟨wideGpkg, 0⟩]) = (0, out) ∧
        ¬ Carries (shellMerged [⟨narrowGpkg, 0⟩, ⟨wideGpkg, 0⟩]) out := by
  refine ⟨⟨_, rfl, ?_⟩, fun d hd => ⟨_, rfl, ?_⟩⟩
  · rintro ⟨layer, hout, hcarries⟩
    cases hout
    revert hcarries
    decide
  · rintro ⟨layer, hout, hcarries⟩
    cases hout
    revert hcarries d
    decide

end GdalFull.Merge
