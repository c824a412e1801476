import GdalFull.Lib.PyStr
import GdalFull.Pipeline.Pg
import GdalFull.Pipeline.Pmtiles

/-!
# The two pipelines into one output directory

`run_pipeline.sh` and `run_pipeline_pg.sh` write a GeoParquet file, and from it a FlatGeobuf
file and a tile set, all three under the name of the shapefile or of the layer, and both by
default into `output_data`. A failure of the last two calls is dropped, a layer without a
geometry leaves them out, and the scripts always end with status 0.

An `Item` is what one of the loops does for one shapefile or layer; `exportStep` is the body of
both loops. `inStep_iff`: over every sequence of runs of both scripts, the three files of a
name come from the same pass of a loop exactly if the last pass that did something to the
GeoParquet file had a geometry and all three calls succeeded.
-/

namespace GdalFull.Pipeline.Exports

open GdalFull.Convert (basename cmdSubst)
open GdalFull.Lib
open GdalFull.Pipeline.Pmtiles (Blob Store)

variable {D : Type}

/-! ## The loops -/

/-- What a loop meets: the name of the output files, the data, whether `HAS_GEOM` lets the
second part run, and how the three calls end. -/
structure Item (D : Type) where
  key : Convert.Name
  data : D
  geom : Bool
  parquet : Pmtiles.CallEnd
  fgb : Pmtiles.CallEnd
  pmtiles : Pmtiles.CallEnd

/-- A file of the output directory. -/
def outName (key : Convert.Name) (fmt : Format) : Convert.Name := key ++ fmt.ext

/-- The two calls that read the GeoParquet file. -/
def fromParquet (n : Nat) (x : Item D) (pq : Blob D) (st : Store D) : Store D :=
  x.pmtiles.write (outName x.key .pmtiles) { pq with run := some n }
    (x.fgb.write (outName x.key .fgb) { pq with run := some n } st)

/-- The body of both loops, as pass number `n`. -/
def exportStep (n : Nat) (st : Store D) (x : Item D) : Store D :=
  let written := x.parquet.write (outName x.key .parquet) ⟨some n, [x.data], true⟩ st
  if x.parquet ≠ .ok then written
  else
    match written (outName x.key .parquet) with
    | none => written
    | some pq => if x.geom then fromParquet n x pq written else written

/-- The passes of both loops, one after the other. -/
def exportAll (items : List (Item D)) (st : Store D) : Store D :=
  items.zipIdx.foldl (fun st x => exportStep x.2 st x.1) st

/-! ## The scripts -/

/-- A shapefile of `input_data`. -/
structure Shp (D : Type) where
  name : Convert.Name
  data : D
  parquet : Pmtiles.CallEnd
  fgb : Pmtiles.CallEnd
  pmtiles : Pmtiles.CallEnd

def shpSuffix : Convert.Name := ".shp".toList

/-- The body of `run_pipeline.sh`; `base=$(basename "$shp" .shp)`. -/
def Shp.item (s : Shp D) : Item D :=
  ⟨cmdSubst (basename s.name shpSuffix), s.data, true, s.parquet, s.fgb, s.pmtiles⟩

/-- A layer of the database, with what `ogrinfo -so` prints about its GeoParquet file. -/
structure Layer (D : Type) where
  name : Convert.Name
  data : D
  info : List Text
  parquet : Pmtiles.CallEnd
  fgb : Pmtiles.CallEnd
  pmtiles : Pmtiles.CallEnd

/-- `sed -n 's/^Geometry: *//p'`. -/
def geometryOf (line : Text) : Option Text :=
  if "Geometry:".toList.isPrefixOf line then
    some ((line.drop "Geometry:".toList.length).dropWhile (· = ' '))
  else none

/-- `[[ -n "$HAS_GEOM" && "$HAS_GEOM" != "None" ]]`. -/
def hasGeom (info : List Text) : Bool :=
  match (info.filterMap geometryOf).head? with
  | none => false
  | some kind => kind ≠ [] && kind ≠ "None".toList

/-- The body of `run_pipeline_pg.sh`. -/
def Layer.item? (l : Layer D) : Option (Item D) :=
  if l.name = [] then none
  else some ⟨safeName l.name, l.data, hasGeom l.info, l.parquet, l.fgb, l.pmtiles⟩

/-- A run that gets past its tests of the environment, the drivers and the input. -/
inductive Run (D : Type) where
  | shp (files : List (Shp D))
  | pg (layers : List (Layer D))

def Run.items : Run D → List (Item D)
  | .shp files => files.map Shp.item
  | .pg layers => layers.filterMap Layer.item?

/-- The files after a sequence of runs. -/
def history (runs : List (Run D)) (st : Store D) : Store D :=
  exportAll (runs.flatMap Run.items) st

/-! ## One pass -/

theorem outName_eq_iff {k k' : Convert.Name} {fmt fmt' : Format} :
    outName k fmt = outName k' fmt' ↔ k = k' ∧ fmt = fmt' := by
  unfold outName
  constructor
  · intro h
    have hne : ∀ fmt : Format, fmt.ext ≠ [] := by
      intro fmt
      cases fmt <;> decide
    have hlast := congrArg List.getLast? h
    rw [List.getLast?_append_of_ne_nil _ (hne fmt), List.getLast?_append_of_ne_nil _ (hne fmt')]
      at hlast
    have hfmt : fmt = fmt' := by
      cases fmt <;> cases fmt' <;> first | rfl | exact absurd hlast (by decide)
    subst hfmt
    exact ⟨List.append_cancel_right h, rfl⟩
  · rintro ⟨rfl, rfl⟩
    rfl

theorem write_other {k k' : Convert.Name} {fmt fmt' : Format} (h : k ≠ k' ∨ fmt ≠ fmt')
    (e : Pmtiles.CallEnd) (result : Blob D) (st : Store D) :
    e.write (outName k' fmt') result st (outName k fmt) = st (outName k fmt) := by
  apply Pmtiles.CallEnd.write_of_ne
  rw [Ne, outName_eq_iff]
  rintro ⟨rfl, rfl⟩
  rcases h with h | h <;> exact h rfl

/-- A pass by its calls: when the first one succeeds, the other two read what it wrote. -/
theorem exportStep_eq (n : Nat) (st : Store D) (x : Item D) :
    exportStep n st x =
      let written := x.parquet.write (outName x.key .parquet) ⟨some n, [x.data], true⟩ st
      if x.parquet = .ok ∧ x.geom = true then fromParquet n x ⟨some n, [x.data], true⟩ written
      else written := by
  unfold exportStep
  by_cases hok : x.parquet = .ok
  · have hpq : Pmtiles.CallEnd.ok.write (outName x.key .parquet) ⟨some n, [x.data], true⟩ st
        (outName x.key .parquet) = some ⟨some n, [x.data], true⟩ :=
      Pmtiles.CallEnd.write_self _ _ _ _
    simp [hok, hpq]
  · simp [hok]

/-- What a pass leaves of the three files of its name. -/
theorem exportStep_self (n : Nat) (st : Store D) (x : Item D) :
    exportStep n st x (outName x.key .parquet) =
        x.parquet.leave ⟨some n, [x.data], true⟩ (st (outName x.key .parquet)) ∧
      exportStep n st x (outName x.key .fgb) =
        (if x.parquet = .ok ∧ x.geom = true then
          x.fgb.leave ⟨some n, [x.data], true⟩ (st (outName x.key .fgb))
        else st (outName x.key .fgb)) ∧
      exportStep n st x (outName x.key .pmtiles) =
        if x.parquet = .ok ∧ x.geom = true then
          x.pmtiles.leave ⟨some n, [x.data], true⟩ (st (outName x.key .pmtiles))
        else st (outName x.key .pmtiles) := by
  have hfp : Format.fgb ≠ .parquet := by decide
  have hpp : Format.pmtiles ≠ .parquet := by decide
  have hpf : Format.pmtiles ≠ .fgb := by decide
  rw [exportStep_eq]
  dsimp only
  split
  · unfold fromParquet
    refine ⟨?_, ?_, ?_⟩
    · rw [write_other (Or.inr hpp.symm), write_other (Or.inr hfp.symm),
        Pmtiles.CallEnd.write_self]
    · rw [write_other (Or.inr hpf.symm), Pmtiles.CallEnd.write_self, write_other (Or.inr hfp)]
    · rw [Pmtiles.CallEnd.write_self, write_other (Or.inr hpf), write_other (Or.inr hpp)]
  · exact ⟨Pmtiles.CallEnd.write_self _ _ _ _, write_other (Or.inr hfp) _ _ st,
      write_other (Or.inr hpp) _ _ st⟩

/-- A pass leaves the files of other names alone. -/
theorem exportStep_other {k : Convert.Name} {x : Item D} (h : k ≠ x.key) (n : Nat) (st : Store D)
    (fmt : Format) : exportStep n st x (outName k fmt) = st (outName k fmt) := by
  rw [exportStep_eq]
  dsimp only
  split
  · unfold fromParquet
    rw [write_other (Or.inl h), write_other (Or.inl h), write_other (Or.inl h)]
  · exact write_other (Or.inl h) _ _ st

/-- The end of a call with what it leaves, as the loop over the layers has it. -/
def asEnd (e : Pmtiles.CallEnd) (result : Blob D) (old : Option (Blob D)) : CallEnd (Blob D) :=
  match e with
  | .ok => .ok
  | .kept => .failed old
  | .removed => .failed none
  | .begun => .failed (some { result with whole := false })

theorem asEnd_write {old : Option (Blob D)} {path : Convert.Name} {st : Store D}
    (h : st path = old) (e : Pmtiles.CallEnd) (result : Blob D) :
    (asEnd e result old).write path result st = e.write path result st := by
  subst h
  cases e <;> rfl

theorem asEnd_failed {e : Pmtiles.CallEnd} (h : e ≠ .ok) (result : Blob D)
    (old : Option (Blob D)) : ∃ left, asEnd e result old = .failed left := by
  cases e with
  | ok => exact absurd rfl h
  | kept => exact ⟨_, rfl⟩
  | removed => exact ⟨_, rfl⟩
  | begun => exact ⟨_, rfl⟩

/-- A pass for a layer is the step of `runLayers`, with files that carry the pass. -/
theorem exportStep_eq_layerStep (n : Nat) (l : Layer D) {x : Item D} (hx : l.item? = some x)
    (s : PgState (Blob D)) :
    let result : Blob D := ⟨some n, [l.data], true⟩
    let tools : Tools (Blob D) :=
      ⟨fun _ => result, fun pq => { pq with run := some n }, fun pq => { pq with run := some n },
        fun _ => hasGeom l.info⟩
    let ends : LayerEnds (Blob D) :=
      ⟨asEnd l.parquet result (s.files (outFile l.name .parquet)),
        asEnd l.fgb result (s.files (outFile l.name .fgb)),
        asEnd l.pmtiles result (s.files (outFile l.name .pmtiles))⟩
    (layerStep tools s (l.name, ends)).files = exportStep n s.files x := by
  intro result tools ends
  have hname : l.name ≠ [] := by
    intro hnil
    simp [Layer.item?, hnil] at hx
  obtain rfl : _ = x := by simpa [Layer.item?, hname] using hx
  have hfile : ∀ fmt, outName (safeName l.name) fmt = outFile l.name fmt := fun _ => rfl
  have hother : ∀ {f g : Format}, f ≠ g → ∀ (e : Pmtiles.CallEnd) (st : Store D),
      e.write (outFile l.name g) result st (outFile l.name f) = st (outFile l.name f) :=
    fun hne e st => write_other (Or.inr hne) e result st
  rw [exportStep_eq, layerStep]
  simp only [hname, if_false, ends, tools, hfile, asEnd_write]
  by_cases hok : l.parquet = .ok
  · have hpq : Pmtiles.CallEnd.ok.write (outFile l.name .parquet) result s.files
        (outFile l.name .parquet) = some result := Pmtiles.CallEnd.write_self _ _ _ _
    have hend : ∀ old, asEnd .ok result old = .ok := fun _ => rfl
    simp only [hok, hend, hpq, true_and]
    cases hasGeom l.info with
    | false => rfl
    | true =>
      -- the file each call finds is the one the pass began with
      have hfgb := hother (f := .fgb) (g := .parquet) (by decide) .ok s.files
      have hpm := (hother (f := .pmtiles) (g := .fgb) (by decide) l.fgb _).trans
        (hother (f := .pmtiles) (g := .parquet) (by decide) .ok s.files)
      simp only [if_true, fromParquet, hfile]
      exact (congrArg _ (asEnd_write hfgb l.fgb result)).trans (asEnd_write hpm l.pmtiles result)
  · obtain ⟨left, hleft⟩ :=
      asEnd_failed hok result (s.files (outFile l.name .parquet))
    simp [hleft, hok, result]

/-! ## The three files of a name -/

/-- The three files of a name are complete and come from the same pass. -/
def InStep (k : Convert.Name) (st : Store D) : Prop :=
  ∃ n sources, ∀ fmt, st (outName k fmt) = some ⟨some n, sources, true⟩

/-- The pass does something to the GeoParquet file of the name. -/
def Item.touches (k : Convert.Name) (x : Item D) : Bool := x.key = k && x.parquet ≠ .kept

/-- The pass has a geometry, and its three calls succeed. -/
def Item.Complete (x : Item D) : Prop :=
  x.parquet = .ok ∧ x.geom = true ∧ x.fgb = .ok ∧ x.pmtiles = .ok

/-- The last pass for the GeoParquet file of a name is complete. -/
def LastComplete (k : Convert.Name) (items : List (Item D)) : Prop :=
  ∃ x, (items.filter (Item.touches k)).getLast? = some x ∧ x.Complete

/-- The files of a name are from passes before `n`, or older. -/
def Before (n : Nat) (k : Convert.Name) (st : Store D) : Prop :=
  ∀ fmt b i, st (outName k fmt) = some b → b.run = some i → i < n

theorem leave_before {e : Pmtiles.CallEnd} {n i : Nat} {sources : List D} {old : Option (Blob D)}
    {b : Blob D} (hold : ∀ b i, old = some b → b.run = some i → i < n)
    (h : e.leave ⟨some n, sources, true⟩ old = some b) (hrun : b.run = some i) : i < n + 1 := by
  rcases Pmtiles.CallEnd.leave_cases h with ⟨hb, -⟩ | ⟨-, hkept⟩
  · rw [hb] at hrun
    cases hrun
    exact Nat.lt_succ_self n
  · exact Nat.lt_succ_of_lt (hold b i hkept hrun)

theorem exportStep_before {n : Nat} {k : Convert.Name} {st : Store D} (h : Before n k st)
    (x : Item D) : Before (n + 1) k (exportStep n st x) := by
  intro fmt b i hb hrun
  by_cases hk : k = x.key
  · subst hk
    obtain ⟨hpq, hfgb, hpm⟩ := exportStep_self n st x
    cases fmt with
    | parquet =>
      rw [hpq] at hb
      exact leave_before (h .parquet) hb hrun
    | fgb =>
      rw [hfgb] at hb
      split at hb
      · exact leave_before (h .fgb) hb hrun
      · exact Nat.lt_succ_of_lt (h .fgb b i hb hrun)
    | pmtiles =>
      rw [hpm] at hb
      split at hb
      · exact leave_before (h .pmtiles) hb hrun
      · exact Nat.lt_succ_of_lt (h .pmtiles b i hb hrun)
  · rw [exportStep_other hk] at hb
    exact Nat.lt_succ_of_lt (h fmt b i hb hrun)

/-- A call that leaves a complete file of pass `n`, over older files, has succeeded. -/
theorem leave_fresh_iff {e : Pmtiles.CallEnd} {n : Nat} {sources sources' : List D}
    {old : Option (Blob D)} (hold : ∀ b i, old = some b → b.run = some i → i < n) :
    e.leave ⟨some n, sources, true⟩ old = some ⟨some n, sources', true⟩ ↔
      e = .ok ∧ sources = sources' := by
  cases e with
  | ok => simp [Pmtiles.CallEnd.leave]
  | kept =>
    refine iff_of_false (fun h => ?_) (by simp)
    exact absurd (hold _ n h rfl) (Nat.lt_irrefl n)
  | removed => simp [Pmtiles.CallEnd.leave]
  | begun => simp [Pmtiles.CallEnd.leave]

/-- After a pass that touches the GeoParquet file, the files are in step exactly if the pass is
complete. -/
theorem exportStep_inStep {n : Nat} {st : Store D} {x : Item D} (h : Before n x.key st)
    (htouch : x.parquet ≠ .kept) : InStep x.key (exportStep n st x) ↔ x.Complete := by
  obtain ⟨hpq, hfgb, hpm⟩ := exportStep_self n st x
  constructor
  · rintro ⟨i, sources, hall⟩
    rw [hall .parquet] at hpq
    rw [hall .fgb] at hfgb
    rw [hall .pmtiles] at hpm
    have hi : i = n := by
      rcases Pmtiles.CallEnd.leave_cases hpq.symm with ⟨hrun, -⟩ | ⟨hkept, -⟩
      · exact Option.some.inj hrun
      · exact absurd hkept htouch
    subst hi
    have hok := ((leave_fresh_iff (h .parquet)).mp hpq.symm).1
    by_cases hgeom : x.parquet = .ok ∧ x.geom = true
    · rw [if_pos hgeom] at hfgb hpm
      exact ⟨hok, hgeom.2, ((leave_fresh_iff (h .fgb)).mp hfgb.symm).1,
        ((leave_fresh_iff (h .pmtiles)).mp hpm.symm).1⟩
    · rw [if_neg hgeom] at hfgb
      exact absurd (h .fgb _ i hfgb.symm rfl) (Nat.lt_irrefl i)
  · rintro ⟨hok, hgeom, hf, hp⟩
    rw [if_pos ⟨hok, hgeom⟩, hf] at hfgb
    rw [if_pos ⟨hok, hgeom⟩, hp] at hpm
    rw [hok] at hpq
    refine ⟨n, [x.data], fun fmt => ?_⟩
    cases fmt with
    | parquet => exact hpq
    | fgb => exact hfgb
    | pmtiles => exact hpm

/-- A pass that does not touch the GeoParquet file of a name does nothing to its files. -/
theorem exportStep_untouched {k : Convert.Name} {x : Item D} (h : Item.touches k x = false)
    (n : Nat) (st : Store D) (fmt : Format) :
    exportStep n st x (outName k fmt) = st (outName k fmt) := by
  by_cases hk : k = x.key
  · subst hk
    have hkept : x.parquet = .kept := by simpa [Item.touches] using h
    obtain ⟨hpq, hfgb, hpm⟩ := exportStep_self n st x
    rw [hkept] at hpq hfgb hpm
    cases fmt with
    | parquet => exact hpq
    | fgb => simpa using hfgb
    | pmtiles => simpa using hpm
  · exact exportStep_other hk n st fmt

/-! ## Sequences of passes -/

theorem exportAll_concat (items : List (Item D)) (x : Item D) (st : Store D) :
    exportAll (items ++ [x]) st = exportStep items.length (exportAll items st) x := by
  simp [exportAll, List.zipIdx_append, List.foldl_append]

theorem lastComplete_concat (k : Convert.Name) (items : List (Item D)) (x : Item D) :
    LastComplete k (items ++ [x]) ↔
      if Item.touches k x then x.Complete else LastComplete k items := by
  unfold LastComplete
  cases htouch : Item.touches k x <;> simp [List.filter_append, htouch]

theorem exportAll_inv (k : Convert.Name) {st : Store D} (hst : Before 0 k st)
    (items : List (Item D)) :
    Before items.length k (exportAll items st) ∧
      (InStep k (exportAll items st) ↔ LastComplete k items) := by
  induction items using List.reverseRecOn with
  | nil =>
    refine ⟨hst, iff_of_false ?_ ?_⟩
    · rintro ⟨n, sources, hall⟩
      exact absurd (hst .parquet _ n (hall .parquet) rfl) (Nat.not_lt_zero n)
    · rintro ⟨x, hx, -⟩
      simp at hx
  | append_singleton items x ih =>
    obtain ⟨hbefore, hstep⟩ := ih
    rw [exportAll_concat, List.length_append, List.length_singleton, lastComplete_concat]
    refine ⟨exportStep_before hbefore x, ?_⟩
    cases htouch : Item.touches k x with
    | false =>
      have hsame : InStep k (exportStep items.length (exportAll items st) x) ↔
          InStep k (exportAll items st) := by
        simp only [InStep, exportStep_untouched htouch]
      simpa [hsame] using hstep
    | true =>
      obtain ⟨hkey, hkept⟩ : x.key = k ∧ x.parquet ≠ .kept := by
        simpa [Item.touches] using htouch
      subst hkey
      simpa using exportStep_inStep hbefore hkept

/-- **The three files of a name.** After any sequence of runs of both scripts into one
directory, whatever was there before: the three files of a name are complete and come from the
same pass exactly if the last pass of a loop that did something to the GeoParquet file of that
name found a geometry and all its calls succeeded. -/
theorem inStep_iff (files : Convert.Name → Option (List D)) (runs : List (Run D))
    (k : Convert.Name) :
    InStep k (history runs (Pmtiles.initial files)) ↔
      LastComplete k (runs.flatMap Run.items) := by
  refine (exportAll_inv k ?_ _).2
  intro fmt b i hb hrun
  unfold Pmtiles.initial at hb
  cases hfile : files (outName k fmt) with
  | none => simp [hfile] at hb
  | some sources =>
    simp only [hfile, Option.map_some, Option.some.injEq] at hb
    subst hb
    cases hrun

/-- A layer `public.roads` and then a shapefile `public_roads.shp` whose tiles fail: the tile
set of the layer is left beside the GeoParquet file of the shapefile. -/
example :
    let layer : Run Nat :=
      .pg [⟨"public.roads".toList, 1, ["Geometry: Point".toList], .ok, .ok, .ok⟩]
    let shp : Run Nat := .shp [⟨"public_roads.shp".toList, 2, .ok, .ok, .kept⟩]
    let st := history [layer, shp] fun _ => none
    (st "public_roads.parquet".toList).map Blob.sources = some [2] ∧
      (st "public_roads.pmtiles".toList).map Blob.sources = some [1] := by
  decide

end GdalFull.Pipeline.Exports
