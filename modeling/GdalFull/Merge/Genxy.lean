import GdalFull.Merge.Schema
import Mathlib.Data.List.Nodup

/-!
# The copy with 元X and 元Y when calls fail

`add_genxy_to_gpkg` copies a layer field by field and feature by feature. OGR reports a failure of
`CreateField`, `SetField`, `SetGeometry` or `CreateFeature` by a return code, and none of these
codes is looked at: the function returns `True` once the layer is there.

`copy_iff` says when a reported copy is complete. Each feature must have been created and its
geometry set, the fields of the source must stand at their own places, and the two coordinates must
find a field that is theirs: a source field with the name 元X is overwritten.

`addGenxy_schema` connects the model with `addGenxyToGpkg` of `Schema`, where every call succeeds.
-/

namespace GdalFull.Merge.Genxy

/-- What the function asks of a geometry. -/
structure Geometries (G V : Type) where
  isEmpty : G → Bool
  isPoint : G → Bool
  xy : G → V × V
  /-- `none` if `Centroid` fails. -/
  centroid : G → Option (V × V)
  /-- The first point of the first part, if there is one. -/
  firstPoint : G → Option (V × V)

/-- How OGR compares field names, for which 元X and 元Y are different. -/
structure Names where
  key : String → String
  distinct : key "元X" ≠ key "元Y"

/-- A feature of the source: `GetField(i)` for every field, and the geometry. -/
structure SourceFeature (V G : Type) where
  values : List (Option V)
  geom : Option G

structure Source (V G : Type) where
  fields : List String
  features : List (SourceFeature V G)
  wf : ∀ f ∈ features, f.values.length = fields.length

/-- Which calls succeed. `createField` is by the number of the call, `setField` by the number of the
feature and of the call for it, `setGeometry` and `createFeature` by the number of the feature. -/
structure Calls where
  hasOgr : Bool
  openSource : Bool
  getLayer : Bool
  createDataSource : Bool
  createLayer : Bool
  createField : Nat → Bool
  setField : Nat → Nat → Bool
  setGeometry : Nat → Bool
  createFeature : Nat → Bool

/-- A written feature: the values of the fields of its layer, and the geometry. -/
structure OutFeature (V G : Type) where
  values : List (Option V)
  geom : Option G

structure OutLayer (V G : Type) where
  fields : List String
  features : List (OutFeature V G)

/-- How the function ends. -/
inductive Ending (V G : Type) where
  | returnedFalse
  /-- `CreateLayer` gave `None`, which has no `CreateField`. -/
  | attributeError
  | returnedTrue (layer : OutLayer V G)

/-! ## The function -/

section Model

variable {V G : Type}

/-- The loop over `CreateField`: the fields that are there after it. -/
def createFields (ok : Nat → Bool) : Nat → List String → List String
  | _, [] => []
  | i, name :: names =>
    if ok i then name :: createFields ok (i + 1) names else createFields ok (i + 1) names

/-- `GetFieldIndex`; `none` is -1. -/
def Names.fieldIndex (names : Names) (fields : List String) (name : String) : Option Nat :=
  fields.findIdx? fun f => names.key f = names.key name

/-- `gx` and `gy`. -/
def Geometries.coordinates (g : Geometries G V) : Option G → Option (V × V)
  | none => none
  | some s =>
    if g.isEmpty s then none
    else if g.isPoint s then some (g.xy s)
    else (g.centroid s).or (g.firstPoint s)

/-- `SetField`, which does nothing to a field that is not there. -/
def setValue (ok : Bool) (idx : Option Nat) (v : Option V) (values : List (Option V)) :
    List (Option V) :=
  match idx with
  | some i => if ok then values.set i v else values
  | none => values

/-- The loop over the fields of the source. -/
def setValues (ok : Nat → Bool) : Nat → List (Option V) → List (Option V) → List (Option V)
  | _, [], new => new
  | i, v :: values, new => setValues ok (i + 1) values (setValue (ok i) (some i) v new)

/-- The values of a new feature. -/
def newValues (ok : Nat → Bool) (ix iy : Option Nat) (width : Nat) (values : List (Option V))
    (xy : Option (V × V)) : List (Option V) :=
  let new := setValues ok 0 values (List.replicate width none)
  match xy with
  | none => new
  | some (x, y) =>
    setValue (ok (values.length + 1)) iy (some y)
      (setValue (ok values.length) ix (some x) new)

variable (g : Geometries G V) (names : Names) (calls : Calls)

def newFeature (fields : List String) (k : Nat) (f : SourceFeature V G) : OutFeature V G where
  values := newValues (calls.setField k) (names.fieldIndex fields "元X")
    (names.fieldIndex fields "元Y") fields.length f.values (g.coordinates f.geom)
  geom := if calls.setGeometry k then f.geom else none

/-- The loop over the features. -/
def writeFeatures (fields : List String) :
    Nat → List (SourceFeature V G) → List (OutFeature V G)
  | _, [] => []
  | k, f :: features =>
    if calls.createFeature k then
      newFeature g names calls fields k f :: writeFeatures fields (k + 1) features
    else writeFeatures fields (k + 1) features

/-- The fields of the written layer. -/
def outFields (src : Source V G) : List String :=
  createFields calls.createField 0 (src.fields ++ ["元X", "元Y"])

def outLayer (src : Source V G) : OutLayer V G where
  fields := outFields calls src
  features := writeFeatures g names calls (outFields calls src) 0 src.features

def addGenxyToGpkg (src : Source V G) : Ending V G :=
  if !calls.hasOgr then .returnedFalse
  else if !calls.openSource then .returnedFalse
  else if !calls.getLayer then .returnedFalse
  else if !calls.createDataSource then .returnedFalse
  else if !calls.createLayer then .attributeError
  else .returnedTrue (outLayer g names calls src)

/-! ## Complete copies -/

/-- The point's coordinates, or those of the centroid. -/
def Geometries.pointOrCentroid : Option G → Option (V × V)
  | none => none
  | some s =>
    if g.isEmpty s then none else if g.isPoint s then some (g.xy s) else g.centroid s

/-- The field of that name holds a value. -/
def OutFeature.Holds (fields : List String) (f : OutFeature V G) (name : String) (v : V) : Prop :=
  ∃ i, names.fieldIndex fields name = some i ∧ f.values[i]? = some (some v)

/-- A feature of the source and its copy. -/
structure Copied (src : Source V G) (layer : OutLayer V G) (f : SourceFeature V G)
    (copy : OutFeature V G) : Prop where
  fields : src.fields <+: layer.fields
  values : ∀ (i : Nat) (v : Option V), f.values[i]? = some v → copy.values[i]? = some v
  geom : copy.geom = f.geom
  genxy : ∀ x y, g.pointOrCentroid f.geom = some (x, y) →
    copy.Holds names layer.fields "元X" x ∧ copy.Holds names layer.fields "元Y" y

/-- One feature per source feature, in order. -/
def Complete (src : Source V G) (layer : OutLayer V G) : Prop :=
  List.Forall₂ (Copied g names src layer) src.features layer.features

/-! ## Calls that have to succeed -/

/-- A coordinate is written into a field. -/
def Overwrites (fields : List String) (k : Nat) (f : SourceFeature V G) (i : Nat) (v : V) : Prop :=
  ∃ x y, g.coordinates f.geom = some (x, y) ∧
    (names.fieldIndex fields "元X" = some i ∧ calls.setField k f.values.length = true ∧ v = x ∨
      names.fieldIndex fields "元Y" = some i ∧ calls.setField k (f.values.length + 1) = true ∧
        v = y)

/-- The field of a coordinate gets it, by its own call or from the source. -/
def AxisHeld (fields : List String) (k : Nat) (f : SourceFeature V G) (name : String) (call : Nat)
    (v : V) : Prop :=
  ∃ i, names.fieldIndex fields name = some i ∧
    (calls.setField k call = true ∨
      f.values[i]? = some (some v) ∧ calls.setField k i = true)

/-- The calls for a feature leave a complete copy of it. -/
structure CallsOk (src : Source V G) (k : Nat) (f : SourceFeature V G) : Prop where
  created : calls.createFeature k = true
  geometry : f.geom.isSome = true → calls.setGeometry k = true
  fields : src.fields <+: outFields calls src
  /-- A value is set, or the same one is written over it. -/
  kept : ∀ (i : Nat) (v : V), f.values[i]? = some (some v) →
    calls.setField k i = true ∨ Overwrites g names calls (outFields calls src) k f i v
  /-- No other value is written over one of the source. -/
  unspoiled : ∀ (i : Nat) (v : Option V) (w : V), f.values[i]? = some v →
    Overwrites g names calls (outFields calls src) k f i w → v = some w
  held : ∀ x y, g.pointOrCentroid f.geom = some (x, y) →
    AxisHeld names calls (outFields calls src) k f "元X" f.values.length x ∧
      AxisHeld names calls (outFields calls src) k f "元Y" (f.values.length + 1) y

end Model

/-! ## The values of a new feature -/

section Values

variable {V G : Type} {g : Geometries G V} {names : Names} {calls : Calls}

theorem setValue_length (ok : Bool) (idx : Option Nat) (v : Option V) (values : List (Option V)) :
    (setValue ok idx v values).length = values.length := by
  unfold setValue
  cases idx with
  | none => rfl
  | some i => cases ok <;> simp

theorem setValue_getElem? (ok : Bool) (idx : Option Nat) (v : Option V) (values : List (Option V))
    {j : Nat} (hj : j < values.length) :
    (setValue ok idx v values)[j]? = if idx = some j ∧ ok = true then some v else values[j]? := by
  unfold setValue
  cases idx with
  | none => simp
  | some i =>
    cases ok with
    | false => simp
    | true =>
      by_cases hij : i = j
      · subst hij
        simp [hj]
      · simp [hij]

theorem setValues_length (ok : Nat → Bool) (k : Nat) (values new : List (Option V)) :
    (setValues ok k values new).length = new.length := by
  induction values generalizing k new with
  | nil => rfl
  | cons v values ih => rw [setValues, ih, setValue_length]

theorem setValues_getElem? (ok : Nat → Bool) (k : Nat) (values new : List (Option V)) {j : Nat}
    (hj : j < new.length) :
    (setValues ok k values new)[j]? =
      if k ≤ j ∧ j < k + values.length ∧ ok j = true then values[j - k]? else new[j]? := by
  induction values generalizing k new with
  | nil =>
    rw [setValues, if_neg]
    rw [List.length_nil]
    omega
  | cons v values ih =>
    have hhere : (setValue (ok k) (some k) v new)[j]? =
        if some k = some j ∧ ok k = true then some v else new[j]? := setValue_getElem? _ _ _ _ hj
    rw [setValues, ih _ _ (by rw [setValue_length]; exact hj), List.length_cons]
    by_cases hk : k = j
    · subst hk
      rw [if_neg (by omega), hhere, Nat.sub_self, List.getElem?_cons_zero]
      by_cases hok : ok k = true
      · rw [if_pos ⟨rfl, hok⟩, if_pos ⟨Nat.le_refl k, by omega, hok⟩]
      · rw [if_neg fun h => hok h.2, if_neg fun h => hok h.2.2]
    · rw [if_neg fun h => hk (Option.some.inj h.1)] at hhere
      by_cases hlt : k ≤ j ∧ j < k + (values.length + 1) ∧ ok j = true
      · have hsub : j - k = j - (k + 1) + 1 := by omega
        rw [if_pos hlt, if_pos ⟨by omega, by omega, hlt.2.2⟩, hsub, List.getElem?_cons_succ]
      · rw [if_neg hlt, if_neg fun h => hlt ⟨by omega, by omega, h.2.2⟩, hhere]

/-- The value that a field of a new feature has from the loop over the fields of the source. -/
def looped (calls : Calls) (k : Nat) (f : SourceFeature V G) (i : Nat) : Option V :=
  if calls.setField k i then f.values[i]?.join else none

theorem setValues_looped (k : Nat) (f : SourceFeature V G) {i width : Nat} (hi : i < width) :
    (setValues (calls.setField k) 0 f.values (List.replicate width none))[i]? =
      some (looped calls k f i) := by
  rw [setValues_getElem? _ _ _ _ (by rw [List.length_replicate]; exact hi), looped,
    List.getElem?_replicate, if_pos hi, Nat.sub_zero, Nat.zero_add]
  cases calls.setField k i with
  | false => simp
  | true =>
    by_cases hlt : i < f.values.length
    · rw [if_pos ⟨Nat.zero_le i, hlt, rfl⟩, List.getElem?_eq_getElem hlt]
      rfl
    · rw [if_neg fun h => hlt h.2.1, List.getElem?_eq_none (Nat.le_of_not_lt hlt)]
      rfl

theorem fieldIndex_ne {fields : List String} {i : Nat}
    (hx : names.fieldIndex fields "元X" = some i) : names.fieldIndex fields "元Y" ≠ some i := by
  intro hy
  obtain ⟨hlt, hkey, _⟩ := List.findIdx?_eq_some_iff_getElem.mp hx
  obtain ⟨_, hkey', _⟩ := List.findIdx?_eq_some_iff_getElem.mp hy
  exact names.distinct ((of_decide_eq_true hkey).symm.trans (of_decide_eq_true hkey'))

theorem fieldIndex_lt {fields : List String} {name : String} {i : Nat}
    (h : names.fieldIndex fields name = some i) : i < fields.length :=
  (List.findIdx?_eq_some_iff_getElem.mp h).1

/-- A coordinate that is written is the value. -/
theorem newFeature_of_overwrites {fields : List String} {k : Nat} {f : SourceFeature V G} {i : Nat}
    {v : V} (h : Overwrites g names calls fields k f i v) :
    (newFeature g names calls fields k f).values[i]? = some (some v) := by
  obtain ⟨x, y, hxy, h⟩ := h
  unfold newFeature newValues
  rw [hxy]
  dsimp only
  rcases h with ⟨hx, hok, rfl⟩ | ⟨hy, hok, rfl⟩
  · have hlt := fieldIndex_lt hx
    rw [setValue_getElem? _ _ _ _ (by simp [setValue_length, setValues_length, hlt]),
      if_neg fun h => fieldIndex_ne hx h.1,
      setValue_getElem? _ _ _ _ (by simp [setValues_length, hlt]), if_pos ⟨hx, hok⟩]
  · have hlt := fieldIndex_lt hy
    rw [setValue_getElem? _ _ _ _ (by simp [setValue_length, setValues_length, hlt]),
      if_pos ⟨hy, hok⟩]

/-- Otherwise it is that of the loop over the fields. -/
theorem newFeature_of_not_overwrites {fields : List String} {k : Nat} {f : SourceFeature V G}
    {i : Nat} (hi : i < fields.length) (h : ∀ v, ¬ Overwrites g names calls fields k f i v) :
    (newFeature g names calls fields k f).values[i]? = some (looped calls k f i) := by
  unfold newFeature newValues
  cases hxy : g.coordinates f.geom with
  | none => exact setValues_looped k f hi
  | some xy =>
    obtain ⟨x, y⟩ := xy
    dsimp only
    rw [setValue_getElem? _ _ _ _ (by simp [setValue_length, setValues_length, hi]),
      if_neg fun hy => h y ⟨x, y, hxy, Or.inr ⟨hy.1, hy.2, rfl⟩⟩,
      setValue_getElem? _ _ _ _ (by simp [setValues_length, hi]),
      if_neg fun hx => h x ⟨x, y, hxy, Or.inl ⟨hx.1, hx.2, rfl⟩⟩]
    exact setValues_looped k f hi

/-! ## Complete copies -/

theorem coordinates_of_pointOrCentroid {geom : Option G} {x y : V}
    (h : g.pointOrCentroid geom = some (x, y)) : g.coordinates geom = some (x, y) := by
  cases geom with
  | none => cases h
  | some s =>
    rw [Geometries.pointOrCentroid] at h
    rw [Geometries.coordinates]
    split at h
    · cases h
    · rename_i hempty
      rw [if_neg hempty]
      split at h
      · rename_i hpoint
        rw [if_pos hpoint]
        exact h
      · rename_i hpoint
        rw [if_neg hpoint, h]
        rfl

/-- The values of the source are in the new feature. -/
theorem values_iff {fields : List String} {k : Nat} {f : SourceFeature V G}
    (hlen : f.values.length ≤ fields.length) :
    (∀ (i : Nat) (v : Option V), f.values[i]? = some v →
        (newFeature g names calls fields k f).values[i]? = some v) ↔
      (∀ (i : Nat) (v : V), f.values[i]? = some (some v) →
        calls.setField k i = true ∨ Overwrites g names calls fields k f i v) ∧
      ∀ (i : Nat) (v : Option V) (w : V), f.values[i]? = some v →
        Overwrites g names calls fields k f i w → v = some w := by
  have hlt : ∀ {i : Nat} {v : Option V}, f.values[i]? = some v → i < fields.length := by
    intro i v hv
    obtain ⟨hi, _⟩ := List.getElem?_eq_some_iff.mp hv
    omega
  constructor
  · intro h
    constructor
    · intro i v hv
      by_cases hover : ∃ w, Overwrites g names calls fields k f i w
      · obtain ⟨w, hw⟩ := hover
        have heq := (h i _ hv).symm.trans (newFeature_of_overwrites hw)
        rw [Option.some.inj (Option.some.inj heq)]
        exact Or.inr hw
      · have heq := (h i _ hv).symm.trans
          (newFeature_of_not_overwrites (hlt hv) fun w hw => hover ⟨w, hw⟩)
        rw [looped] at heq
        split at heq
        · rename_i hok
          exact Or.inl hok
        · cases heq
    · intro i v w hv hw
      exact Option.some.inj ((h i v hv).symm.trans (newFeature_of_overwrites hw))
  · rintro ⟨hkept, hsame⟩ i v hv
    by_cases hover : ∃ w, Overwrites g names calls fields k f i w
    · obtain ⟨w, hw⟩ := hover
      rw [newFeature_of_overwrites hw, hsame i v w hv hw]
    · rw [newFeature_of_not_overwrites (hlt hv) fun w hw => hover ⟨w, hw⟩, looped, hv]
      cases v with
      | none => cases calls.setField k i <;> rfl
      | some v =>
        rw [if_pos ((hkept i v hv).resolve_right fun hw => hover ⟨v, hw⟩)]
        rfl

/-- A coordinate is in its field, if what is written there is this coordinate. -/
theorem holds_iff {fields : List String} {k : Nat} {f : SourceFeature V G} {name : String}
    {call : Nat} {v : V}
    (hover : ∀ i w, names.fieldIndex fields name = some i →
      (Overwrites g names calls fields k f i w ↔ calls.setField k call = true ∧ w = v)) :
    (newFeature g names calls fields k f).Holds names fields name v ↔
      AxisHeld names calls fields k f name call v := by
  unfold OutFeature.Holds AxisHeld
  refine exists_congr fun i => and_congr_right fun hi => ?_
  by_cases hok : calls.setField k call = true
  · have hnew := newFeature_of_overwrites ((hover i v hi).mpr ⟨hok, rfl⟩)
    exact iff_of_true hnew (Or.inl hok)
  · have hnot : ∀ w, ¬ Overwrites g names calls fields k f i w := fun w hw =>
      hok ((hover i w hi).mp hw).1
    rw [newFeature_of_not_overwrites (fieldIndex_lt hi) hnot, looped, Option.some.injEq]
    cases hset : calls.setField k i with
    | false => simp [hok]
    | true => simp [hok, Option.join_eq_some_iff]

theorem overwrites_x {fields : List String} {k : Nat} {f : SourceFeature V G} {x y : V}
    (hxy : g.coordinates f.geom = some (x, y)) {i : Nat} {w : V}
    (hi : names.fieldIndex fields "元X" = some i) :
    Overwrites g names calls fields k f i w ↔
      calls.setField k f.values.length = true ∧ w = x := by
  constructor
  · rintro ⟨x', y', hxy', ⟨_, hok, rfl⟩ | ⟨hy, _⟩⟩
    · cases hxy.symm.trans hxy'
      exact ⟨hok, rfl⟩
    · exact absurd hy (fieldIndex_ne hi)
  · rintro ⟨hok, rfl⟩
    exact ⟨w, y, hxy, Or.inl ⟨hi, hok, rfl⟩⟩

theorem overwrites_y {fields : List String} {k : Nat} {f : SourceFeature V G} {x y : V}
    (hxy : g.coordinates f.geom = some (x, y)) {i : Nat} {w : V}
    (hi : names.fieldIndex fields "元Y" = some i) :
    Overwrites g names calls fields k f i w ↔
      calls.setField k (f.values.length + 1) = true ∧ w = y := by
  constructor
  · rintro ⟨x', y', hxy', ⟨hx, _⟩ | ⟨_, hok, rfl⟩⟩
    · exact absurd hi (fieldIndex_ne hx)
    · cases hxy.symm.trans hxy'
      exact ⟨hok, rfl⟩
  · rintro ⟨hok, rfl⟩
    exact ⟨x, w, hxy, Or.inr ⟨hi, hok, rfl⟩⟩

theorem copied_iff {src : Source V G} {k : Nat} {f : SourceFeature V G} (hf : f ∈ src.features) :
    calls.createFeature k = true ∧
        Copied g names src (outLayer g names calls src) f
          (newFeature g names calls (outFields calls src) k f) ↔
      CallsOk g names calls src k f := by
  have hgeom : (newFeature g names calls (outFields calls src) k f).geom = f.geom ↔
      (f.geom.isSome = true → calls.setGeometry k = true) := by
    rw [newFeature]
    cases calls.setGeometry k <;> cases f.geom <;> simp
  have hheld : ∀ {x y}, g.pointOrCentroid f.geom = some (x, y) →
      ((newFeature g names calls (outFields calls src) k f).Holds names (outFields calls src)
          "元X" x ∧
        (newFeature g names calls (outFields calls src) k f).Holds names (outFields calls src)
          "元Y" y ↔
      AxisHeld names calls (outFields calls src) k f "元X" f.values.length x ∧
        AxisHeld names calls (outFields calls src) k f "元Y" (f.values.length + 1) y) := by
    intro x y hxy
    have hcoords := coordinates_of_pointOrCentroid hxy
    exact and_congr (holds_iff fun i w hi => overwrites_x hcoords hi)
      (holds_iff fun i w hi => overwrites_y hcoords hi)
  have hlen : src.fields <+: outFields calls src →
      f.values.length ≤ (outFields calls src).length := by
    intro hprefix
    rw [src.wf f hf]
    exact hprefix.length_le
  constructor
  · rintro ⟨hcreated, hfields, hvalues, hg, hxy⟩
    obtain ⟨hkept, hsame⟩ := (values_iff (hlen hfields)).mp hvalues
    exact ⟨hcreated, hgeom.mp hg, hfields, hkept, hsame, fun x y h => (hheld h).mp (hxy x y h)⟩
  · rintro ⟨hcreated, hg, hfields, hkept, hsame, hxy⟩
    have hvalues := (values_iff (hlen hfields)).mpr ⟨hkept, hsame⟩
    exact ⟨hcreated, hfields, hvalues, hgeom.mpr hg, fun x y h => (hheld h).mpr (hxy x y h)⟩

theorem writeFeatures_length_le (g : Geometries G V) (names : Names) (calls : Calls)
    (fields : List String) (k : Nat) (features : List (SourceFeature V G)) :
    (writeFeatures g names calls fields k features).length ≤ features.length := by
  induction features generalizing k with
  | nil => exact Nat.le_refl 0
  | cons f features ih =>
    have htail := ih (k + 1)
    rw [writeFeatures, List.length_cons]
    split
    · rw [List.length_cons]
      omega
    · omega

/-- The written features match those of the source exactly when each of them is created and is a
match. -/
theorem forall₂_writeFeatures_iff {R : SourceFeature V G → OutFeature V G → Prop}
    {fields : List String} {k : Nat} {features : List (SourceFeature V G)} :
    List.Forall₂ R features (writeFeatures g names calls fields k features) ↔
      ∀ (j : Nat) (f : SourceFeature V G), features[j]? = some f →
        calls.createFeature (k + j) = true ∧ R f (newFeature g names calls fields (k + j) f) := by
  induction features generalizing k with
  | nil => simp [writeFeatures]
  | cons f features ih =>
    rw [writeFeatures]
    by_cases hcreate : calls.createFeature k = true
    · rw [if_pos hcreate, List.forall₂_cons, ih]
      constructor
      · rintro ⟨hf, hrest⟩ j f' hj
        cases j with
        | zero =>
          cases hj
          exact ⟨hcreate, hf⟩
        | succ j =>
          have hnext := hrest j f' hj
          rw [Nat.add_right_comm] at hnext
          exact hnext
      · intro h
        refine ⟨(h 0 f rfl).2, ?_⟩
        intro j f' hj
        have hnext := h (j + 1) f' hj
        rw [← Nat.add_assoc, Nat.add_right_comm] at hnext
        exact hnext
    · rw [if_neg hcreate]
      constructor
      · -- a feature is missing
        intro h
        have hlen := h.length_eq
        have hle := writeFeatures_length_le g names calls fields (k + 1) features
        rw [List.length_cons] at hlen
        omega
      · intro h
        exact absurd (h 0 f rfl).1 hcreate

theorem complete_iff (src : Source V G) :
    Complete g names src (outLayer g names calls src) ↔
      ∀ (k : Nat) (f : SourceFeature V G), src.features[k]? = some f →
        CallsOk g names calls src k f := by
  refine forall₂_writeFeatures_iff.trans ?_
  refine forall_congr' fun k => forall₂_congr fun f hf => ?_
  rw [Nat.zero_add]
  exact copied_iff (List.mem_of_getElem? hf)

/-- **A reported copy.** The function returns `True` for a complete copy and `False` otherwise
exactly when it gives up before it creates the layer, or the layer is created and the calls for
every feature leave a complete copy. -/
theorem copy_iff (g : Geometries G V) (names : Names) (calls : Calls) (src : Source V G) :
    (addGenxyToGpkg g names calls src = .returnedFalse ∨
      ∃ layer, addGenxyToGpkg g names calls src = .returnedTrue layer ∧
        Complete g names src layer) ↔
    (calls.hasOgr && calls.openSource && calls.getLayer && calls.createDataSource) = false ∨
      calls.createLayer = true ∧
        ∀ (k : Nat) (f : SourceFeature V G), src.features[k]? = some f →
          CallsOk g names calls src k f := by
  rw [← complete_iff]
  unfold addGenxyToGpkg
  cases calls.hasOgr <;> cases calls.openSource <;> cases calls.getLayer <;>
    cases calls.createDataSource <;> cases calls.createLayer <;> simp

end Values

/-! ## Without failures -/

section Schema

variable {V G : Type}

def Calls.succeed : Calls where
  hasOgr := true
  openSource := true
  getLayer := true
  createDataSource := true
  createLayer := true
  createField _ := true
  setField _ _ := true
  setGeometry _ := true
  createFeature _ := true

/-- The attributes that are set. -/
def setAttrs (fields : List String) (values : List (Option V)) : List (String × V) :=
  (fields.zip values).filterMap fun p => p.2.map (p.1, ·)

theorem mem_setAttrs {fields : List String} {values : List (Option V)} {p : String × V} :
    p ∈ setAttrs fields values ↔
      ∃ i : Nat, fields[i]? = some p.1 ∧ values[i]? = some (some p.2) := by
  rw [setAttrs, List.mem_filterMap]
  constructor
  · rintro ⟨⟨name, v⟩, hmem, hp⟩
    obtain ⟨w, hw, rfl⟩ := Option.map_eq_some_iff.mp hp
    obtain ⟨i, hi⟩ := List.mem_iff_getElem?.mp hmem
    obtain ⟨hname, hv⟩ := List.getElem?_zip_eq_some.mp hi
    have hv' : v = some w := hw
    exact ⟨i, hname, hv' ▸ hv⟩
  · rintro ⟨i, hname, hv⟩
    refine ⟨(p.1, some p.2), ?_, rfl⟩
    exact List.mem_iff_getElem?.mpr ⟨i, List.getElem?_zip_eq_some.mpr ⟨hname, hv⟩⟩

def SourceFeature.toFeature (g : Geometries G V) (fields : List String) (f : SourceFeature V G) :
    Feature V :=
  ⟨setAttrs fields f.values, g.coordinates f.geom⟩

def Source.toGpkg (g : Geometries G V) (src : Source V G) : Gpkg V where
  fields := src.fields
  features := src.features.map (SourceFeature.toFeature g src.fields)
  wf := by
    intro f hf p hp
    obtain ⟨f, _, rfl⟩ := List.mem_map.mp hf
    obtain ⟨i, hname, _⟩ := mem_setAttrs.mp hp
    exact List.mem_of_getElem? hname

theorem createFields_succeed (k : Nat) (names : List String) :
    createFields (fun _ => true) k names = names := by
  induction names generalizing k with
  | nil => rfl
  | cons name names ih => rw [createFields, if_pos rfl, ih]

variable {g : Geometries G V} {names : Names}

/-- The field that is found has the name. -/
theorem fieldIndex_getElem? (hkey : Function.Injective names.key) {fields : List String}
    {name : String} {i : Nat} (h : names.fieldIndex fields name = some i) :
    fields[i]? = some name := by
  obtain ⟨hlt, hname, _⟩ := List.findIdx?_eq_some_iff_getElem.mp h
  rw [List.getElem?_eq_getElem hlt, hkey (of_decide_eq_true hname)]

/-- In a list without repetitions, whatever may follow it, a name is found where it stands. -/
theorem fieldIndex_of_nodup (hkey : Function.Injective names.key) {fields more : List String}
    (hnodup : fields.Nodup) {name : String} {i : Nat} (h : fields[i]? = some name) :
    names.fieldIndex (fields ++ more) name = some i := by
  obtain ⟨hlt, hi⟩ := List.getElem?_eq_some_iff.mp h
  refine List.findIdx?_eq_some_iff_getElem.mpr ⟨by rw [List.length_append]; omega, ?_, ?_⟩
  · rw [List.getElem_append_left hlt, hi]
    exact decide_eq_true rfl
  · intro j hj hname
    have hjlt : j < fields.length := by omega
    rw [List.getElem_append_left hjlt] at hname
    have heq : fields[j] = fields[i] := (hkey (of_decide_eq_true hname)).trans hi.symm
    have hij : j = i := (List.Nodup.getElem_inj_iff hnodup).mp heq
    omega

theorem exists_fieldIndex {fields : List String} {name : String} (h : name ∈ fields) :
    ∃ i, names.fieldIndex fields name = some i := by
  refine Option.isSome_iff_exists.mp ?_
  rw [Names.fieldIndex, List.findIdx?_isSome, List.any_eq_true]
  exact ⟨name, h, decide_eq_true rfl⟩

theorem newFeature_attrs (hkey : Function.Injective names.key) {fields : List String}
    (hnodup : fields.Nodup) (k : Nat) {f : SourceFeature V G}
    (hlen : f.values.length = fields.length) (p : String × V) :
    p ∈ setAttrs (fields ++ ["元X", "元Y"])
        (newFeature g names .succeed (fields ++ ["元X", "元Y"]) k f).values ↔
      p ∈ (f.toFeature g fields).withGenxy.attrs := by
  have hmem : p ∈ (f.toFeature g fields).genxyAttrs ↔ ∃ x y, g.coordinates f.geom = some (x, y) ∧
      (p = ("元X", x) ∨ p = ("元Y", y)) := Feature.mem_genxyAttrs
  have hleft : ∀ {i : Nat} {name : String}, fields[i]? = some name →
      (fields ++ ["元X", "元Y"])[i]? = some name := by
    intro i name hi
    rw [List.getElem?_append_left (List.getElem?_eq_some_iff.mp hi).1, hi]
  rw [mem_setAttrs, mem_withGenxy, hmem]
  constructor
  · rintro ⟨i, hname, hvalue⟩
    by_cases hover : ∃ w, Overwrites g names .succeed (fields ++ ["元X", "元Y"]) k f i w
    · -- a field that is written over has the name of its coordinate
      obtain ⟨w, hw⟩ := hover
      rw [newFeature_of_overwrites hw] at hvalue
      cases hvalue
      obtain ⟨x, y, hxy, ⟨hi, _, hv⟩ | ⟨hi, _, hv⟩⟩ := hw
      · have hx := Option.some.inj (hname.symm.trans (fieldIndex_getElem? hkey hi))
        exact Or.inl ⟨x, y, hxy, Or.inl (Prod.ext hx hv)⟩
      · have hy := Option.some.inj (hname.symm.trans (fieldIndex_getElem? hkey hi))
        exact Or.inl ⟨x, y, hxy, Or.inr (Prod.ext hy hv)⟩
    · have hi : i < (fields ++ ["元X", "元Y"]).length := (List.getElem?_eq_some_iff.mp hname).1
      rw [newFeature_of_not_overwrites hi fun w hw => hover ⟨w, hw⟩] at hvalue
      have hset : f.values[i]? = some (some p.2) :=
        Option.join_eq_some_iff.mp (Option.some.inj hvalue)
      have hlt : i < fields.length := hlen ▸ (List.getElem?_eq_some_iff.mp hset).1
      rw [List.getElem?_append_left hlt] at hname
      refine Or.inr ⟨mem_setAttrs.mpr ⟨i, hname, hset⟩, ?_⟩
      -- a field of that name would be written over
      intro q hq heq
      obtain ⟨x, y, hxy, rfl | rfl⟩ := Feature.mem_genxyAttrs.mp hq
      · rw [heq] at hname
        exact hover ⟨x, x, y, hxy, Or.inl ⟨fieldIndex_of_nodup hkey hnodup hname, rfl, rfl⟩⟩
      · rw [heq] at hname
        exact hover ⟨y, x, y, hxy, Or.inr ⟨fieldIndex_of_nodup hkey hnodup hname, rfl, rfl⟩⟩
  · rintro (⟨x, y, hxy, rfl | rfl⟩ | ⟨hattr, hne⟩)
    · obtain ⟨i, hi⟩ := @exists_fieldIndex names (fields ++ ["元X", "元Y"]) "元X" (by simp)
      exact ⟨i, fieldIndex_getElem? hkey hi,
        newFeature_of_overwrites ⟨x, y, hxy, Or.inl ⟨hi, rfl, rfl⟩⟩⟩
    · obtain ⟨i, hi⟩ := @exists_fieldIndex names (fields ++ ["元X", "元Y"]) "元Y" (by simp)
      exact ⟨i, fieldIndex_getElem? hkey hi,
        newFeature_of_overwrites ⟨x, y, hxy, Or.inr ⟨hi, rfl, rfl⟩⟩⟩
    · obtain ⟨i, hname, hset⟩ := mem_setAttrs.mp hattr
      have hlt : i < fields.length := (List.getElem?_eq_some_iff.mp hname).1
      have hover : ∀ w, ¬ Overwrites g names .succeed (fields ++ ["元X", "元Y"]) k f i w := by
        rintro w ⟨x, y, hxy, ⟨hi, _⟩ | ⟨hi, _⟩⟩
        · have hx := Option.some.inj ((hleft hname).symm.trans (fieldIndex_getElem? hkey hi))
          exact hne _ (Feature.mem_genxyAttrs.mpr ⟨x, y, hxy, Or.inl rfl⟩) hx
        · have hy := Option.some.inj ((hleft hname).symm.trans (fieldIndex_getElem? hkey hi))
          exact hne _ (Feature.mem_genxyAttrs.mpr ⟨x, y, hxy, Or.inr rfl⟩) hy
      refine ⟨i, hleft hname, ?_⟩
      rw [newFeature_of_not_overwrites (by rw [List.length_append]; omega) hover, looped, hset]
      rfl

/-- Without failures, and where OGR compares names exactly, the copy is that of `Schema`. -/
theorem addGenxy_schema (hkey : Function.Injective names.key) {src : Source V G}
    (hnodup : src.fields.Nodup) (zukei : Nat) :
    ∃ layer, addGenxyToGpkg g names .succeed src = .returnedTrue layer ∧
      layer.fields = (Merge.addGenxyToGpkg zukei (src.toGpkg g)).fields ∧
      List.Forall₂ (fun f copy => ∀ p, p ∈ setAttrs layer.fields copy.values ↔ p ∈ f.attrs)
        (Merge.addGenxyToGpkg zukei (src.toGpkg g)).features layer.features := by
  have hfields : outFields .succeed src = src.fields ++ ["元X", "元Y"] :=
    createFields_succeed 0 _
  refine ⟨outLayer g names .succeed src, rfl, hfields, ?_⟩
  have hfeatures : (Merge.addGenxyToGpkg zukei (src.toGpkg g)).features =
      src.features.map (Feature.withGenxy ∘ SourceFeature.toFeature g src.fields) :=
    List.map_map
  rw [hfeatures, List.forall₂_map_left_iff]
  refine forall₂_writeFeatures_iff.mpr ?_
  intro j f hj
  refine ⟨rfl, ?_⟩
  have hlen := src.wf f (List.mem_of_getElem? hj)
  have hlayer : (outLayer g names .succeed src).fields = src.fields ++ ["元X", "元Y"] := hfields
  rw [hlayer, hfields]
  exact newFeature_attrs hkey hnodup (0 + j) hlen

end Schema

/-! ## Copies that are reported and not complete -/

/-- Points of numbers. -/
def points : Geometries (Nat × Nat) Nat where
  isEmpty _ := false
  isPoint _ := true
  xy := id
  centroid := some
  firstPoint _ := none

def exactNames : Names where
  key := id
  distinct := by decide

/-- One feature with a field 元X whose value is not the coordinate. -/
def namedSource : Source Nat (Nat × Nat) where
  fields := ["元X"]
  features := [⟨[some 7], some (1, 2)⟩]
  wf := by decide

/-- `True` is returned when `CreateFeature` fails for the only feature; and when no call fails, but
the source has a field 元X, its value is lost. -/
theorem copy_incomplete :
    (∃ layer, addGenxyToGpkg points exactNames
        { Calls.succeed with createFeature := fun _ => false } namedSource = .returnedTrue layer ∧
      layer.features = [] ∧ ¬ Complete points exactNames namedSource layer) ∧
    ∃ layer, addGenxyToGpkg points exactNames .succeed namedSource = .returnedTrue layer ∧
      layer.fields = ["元X", "元X", "元Y"] ∧
      layer.features.map OutFeature.values = [[some 1, none, some 2]] ∧
      ¬ Complete points exactNames namedSource layer := by
  refine ⟨⟨_, rfl, rfl, ?_⟩, ⟨_, rfl, rfl, rfl, ?_⟩⟩
  · intro h
    cases h
  · intro h
    cases h with
    | cons hcopied _ => exact absurd (hcopied.values 0 (some 7) rfl) (by decide)

end GdalFull.Merge.Genxy
