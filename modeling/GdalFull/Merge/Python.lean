import GdalFull.Merge.Attempts

/-!
# The Python merge drivers

`merge_tochi_geopackage.py` and `merge_gaiku_geoparquet.py` walk a sorted list of files.
A file without a zone is skipped; the others are handed to `ogr2ogr` one by one, with the
reference system of their zone. The driver for 土地活用 first tries to make a copy with the
columns 元X and 元Y and hands over the copy when it has one.

Both loops clear their flag (`first`, `first_append`) where they build the creating call,
before its exit status is known. `tochiLoop_progress` and `gaikuLoop_progress` reduce them
to the eager machine of `GdalFull.Merge.Attempts`. The output layer is the concatenation
of the merged files exactly when the run starts from nothing (`pyMerge_layer_iff`): a
creating call that fails over an output file of an earlier run leaves its features in.
-/

namespace GdalFull.Merge

open Lib

variable {Src Out F : Type}

/-- `EPSG_BASE`: zone 1 to 19 is EPSG:6669 to EPSG:6687. -/
def epsgBase : Nat := 6668

/-- What a call reads: a source and the two reference systems (`-s_srs`, `-t_srs`). -/
structure Reading (Src : Type) where
  sSrs : Option Nat
  tSrs : Option Nat
  src : Src
  deriving DecidableEq

/-- The argument list of a merge call: `-update -append` or `-f GPKG`, the layer name
(`-nln`) and what it reads. -/
structure MergeCall (Src : Type) where
  append : Bool
  nln : String
  reading : Reading Src

/-- A successful call: without `-update` it replaces the output file, with
`-update -append` it adds to it and creates it if it is absent. -/
def MergeCall.write (k : Sink (Reading Src) Out) (call : MergeCall Src) (out : Option Out) :
    Out :=
  if call.append then k.put out call.reading else k.create call.reading

/-- How `subprocess.run` ends: with an exit status, or by raising `TimeoutExpired`, with
whatever the killed call has then left at the output path. -/
inductive ProcEnd (Out : Type) where
  | exit (code : Nat)
  | timeout (left : Option Out)
  deriving DecidableEq

def ProcEnd.ok : ProcEnd Out → Bool
  | .exit code => code == 0
  | .timeout _ => false

/-- The loop state: the progress of the merge, the skipped files, and the temporary
`.gpkg` files in the output directory. -/
structure State (Out : Type) extends Progress Out where
  skipped : Nat
  temps : Nat
  deriving DecidableEq

def State.start (prior : Option Out) : State Out where
  toProgress := .start prior
  skipped := 0
  temps := 0

/-- The call for one file and the test of its exit status, the same in both drivers. The
flag is cleared with the construction of the creating call, before the call is made. An
exception escapes with the files as they are then. -/
def runCall (k : Sink (Reading Src) Out) (nln : String) (tSrs zukei : Nat) (src : Src)
    (proc : ProcEnd Out) (st : State Out) : Except (State Out) (State Out) :=
  let epsg := epsgBase + zukei
  let call : MergeCall Src := ⟨!st.first, nln, ⟨some epsg, some tSrs, src⟩⟩
  match proc with
  | .timeout left => .error { st with first := false, output := left }
  | .exit code =>
    if code = 0 then
      .ok { st with
        first := false, merged := st.merged + 1, output := some (call.write k st.output) }
    else
      .ok { st with first := false, skipped := st.skipped + 1 }

/-! ## merge_tochi_geopackage.py -/

/-- How the copy with 元X and 元Y ends: `mkstemp` raised `OSError`, `add_genxy_to_gpkg`
returned `False`, raised (with or without a file left behind), or returned `True`. -/
inductive CopyEnd where
  | noTemp
  | refused
  | raised (left : Bool)
  | written
  deriving DecidableEq

/-- One `.gpkg` of the input directory, with what `get_zukei` finds in it and how the
external steps made for it end. -/
structure TochiFile (Src Out : Type) where
  src : Src
  zukei : Option Nat
  copy : CopyEnd
  proc : ProcEnd Out
  deriving DecidableEq

section Tochi

variable (k : Sink (Reading Src) Out) (hasOgr : Bool) (genxy : Nat → Src → Src)

def tochiTgtSrs : Nat := 3857

/-- The body of the loop of `main`. `genxy z src` is what `add_genxy_to_gpkg` writes when
it succeeds; that temporary copy is removed as soon as the call has returned. -/
def tochiFile (st : State Out) (f : TochiFile Src Out) : Except (State Out) (State Out) :=
  match f.zukei with
  | none => .ok { st with skipped := st.skipped + 1 }
  | some z =>
    let call := runCall k "tochi_merged" tochiTgtSrs z
    if hasOgr then
      match f.copy with
      | .raised left => .error { st with temps := st.temps + left.toNat }
      | .written =>
        (call (genxy z f.src) f.proc { st with temps := st.temps + 1 }).map
          fun st => { st with temps := st.temps - 1 }
      | .noTemp | .refused => call f.src f.proc st
    else call f.src f.proc st

def tochiLoop (prior : Option Out) (gpkgs : List (TochiFile Src Out)) :
    Except (State Out) (State Out) :=
  gpkgs.foldlM (tochiFile k hasOgr genxy) (.start prior)

/-- `main`: the exit status and the state it leaves. `none` is a missing input directory. -/
def tochiMain (prior : Option Out) : Option (List (TochiFile Src Out)) → Nat × State Out
  | none => (1, .start prior)
  | some [] => (1, .start prior)
  | some gpkgs =>
    match tochiLoop k hasOgr genxy prior gpkgs with
    | .error st => (1, st)
    | .ok st => (if st.merged = 0 then 1 else 0, st)

/-- The source that is handed to `ogr2ogr`: the copy when there is one. -/
def TochiFile.srcPath (f : TochiFile Src Out) (z : Nat) : Src :=
  if hasOgr && f.copy == .written then genxy z f.src else f.src

/-- The call made for a file, if it has a zone. -/
def TochiFile.attempt? (f : TochiFile Src Out) : Option (Attempt (Reading Src)) :=
  f.zukei.map fun z =>
    ⟨⟨some (epsgBase + z), some tochiTgtSrs, f.srcPath hasOgr genxy z⟩, f.proc.ok⟩

def tochiAttempts (gpkgs : List (TochiFile Src Out)) : List (Attempt (Reading Src)) :=
  gpkgs.filterMap (TochiFile.attempt? hasOgr genxy)

end Tochi

/-! ## merge_gaiku_geoparquet.py -/

/-- One `.parquet` of the input directory. -/
structure GaikuFile (Src Out : Type) where
  src : Src
  zukei : Option Nat
  proc : ProcEnd Out
  deriving DecidableEq

section Gaiku

variable (k : Sink (Reading Src) Out)

def gaikuTgtSrs : Nat := 4326

def gaikuFile (st : State Out) (f : GaikuFile Src Out) : Except (State Out) (State Out) :=
  match f.zukei with
  | none => .ok { st with skipped := st.skipped + 1 }
  | some z => runCall k "merged" gaikuTgtSrs z f.src f.proc st

/-- The loop up to the GeoPackage stage, over what is at `OUTPUT_GPKG`. -/
def gaikuLoop (prior : Option Out) (parquets : List (GaikuFile Src Out)) :
    Except (State Out) (State Out) :=
  parquets.foldlM (gaikuFile k) (.start prior)

/-- The files that `main` leaves: the temporary GeoPackage and the merged Parquet. -/
structure GaikuOutputs (Out : Type) where
  gpkg : Option Out
  parquet : Option Out
  deriving DecidableEq

/-- `main`. The Parquet is converted from the merged GeoPackage, which is removed only
after that (`removed` is whether `os.remove` succeeds). -/
def gaikuMain (outputs : GaikuOutputs Out) (toParquet : ProcEnd Out) (removed : Bool) :
    Option (List (GaikuFile Src Out)) → Nat × GaikuOutputs Out
  | none => (1, outputs)
  | some [] => (1, outputs)
  | some parquets =>
    match gaikuLoop k outputs.gpkg parquets with
    | .error st => (1, { outputs with gpkg := st.output })
    | .ok st =>
      if st.merged = 0 then (1, { outputs with gpkg := st.output })
      else
        match toParquet with
        | .timeout left => (1, ⟨st.output, left⟩)
        | .exit code =>
          if code = 0 then (0, ⟨if removed then none else st.output, st.output⟩)
          else (1, { outputs with gpkg := st.output })

def GaikuFile.attempt? (f : GaikuFile Src Out) : Option (Attempt (Reading Src)) :=
  f.zukei.map fun z => ⟨⟨some (epsgBase + z), some gaikuTgtSrs, f.src⟩, f.proc.ok⟩

def gaikuAttempts (parquets : List (GaikuFile Src Out)) : List (Attempt (Reading Src)) :=
  parquets.filterMap GaikuFile.attempt?

end Gaiku

/-! ## Reduction to the eager machine -/

/-- A call that returns is one attempt; the skipped and temporary files have no part in it. -/
theorem runCall_progress {k : Sink (Reading Src) Out} {nln : String} {tSrs zukei : Nat} {src : Src}
    {proc : ProcEnd Out} {st st' : State Out} (h : runCall k nln tSrs zukei src proc st = .ok st') :
    st'.toProgress =
      st.toProgress.attempt true k ⟨⟨some (epsgBase + zukei), some tSrs, src⟩, proc.ok⟩ := by
  unfold runCall at h
  cases proc with
  | timeout left => cases h
  | exit code =>
    dsimp only at h
    split at h
    · rename_i hcode
      cases h
      cases hf : st.first <;> simp [Progress.attempt, ProcEnd.ok, MergeCall.write, hcode, hf]
    · rename_i hcode
      cases h
      simp [Progress.attempt, ProcEnd.ok, hcode]

def CopyEnd.raises : CopyEnd → Bool
  | .raised _ => true
  | _ => false

/-- The temporary copies that are there during the call for a file. -/
def TochiFile.copies (f : TochiFile Src Out) (hasOgr : Bool) : Nat :=
  (hasOgr && f.copy == .written).toNat

/-- A file whose copy does not raise is one call, on the copy if there is one, and the copy is
removed after it. -/
theorem tochiFile_call {k : Sink (Reading Src) Out} {hasOgr : Bool} {genxy : Nat → Src → Src}
    {st : State Out} {f : TochiFile Src Out} {z : Nat} (hz : f.zukei = some z)
    (hcopy : (hasOgr && f.copy.raises) = false) :
    tochiFile k hasOgr genxy st f =
      (runCall k "tochi_merged" tochiTgtSrs z (f.srcPath hasOgr genxy z) f.proc
        { st with temps := st.temps + f.copies hasOgr }).map
          fun st => { st with temps := st.temps - f.copies hasOgr } := by
  have hid : ∀ call : Except (State Out) (State Out),
      call = call.map fun st => { st with temps := st.temps - 0 } := by
    intro call
    cases call <;> rfl
  unfold tochiFile TochiFile.srcPath TochiFile.copies
  rw [hz]
  cases hasOgr with
  | false => exact hid _
  | true =>
    cases hc : f.copy with
    | raised left => simp [hc, CopyEnd.raises] at hcopy
    | noTemp => exact hid _
    | refused => exact hid _
    | written => rfl

theorem tochiFile_raises {k : Sink (Reading Src) Out} {hasOgr : Bool} {genxy : Nat → Src → Src}
    {st : State Out} {f : TochiFile Src Out} {z : Nat} (hz : f.zukei = some z)
    (hcopy : (hasOgr && f.copy.raises) = true) :
    ∃ e, tochiFile k hasOgr genxy st f = .error e := by
  obtain ⟨rfl, hraises⟩ := (Bool.and_eq_true _ _).mp hcopy
  unfold tochiFile
  rw [hz]
  cases hc : f.copy with
  | raised left => exact ⟨_, rfl⟩
  | noTemp => simp [hc, CopyEnd.raises] at hraises
  | refused => simp [hc, CopyEnd.raises] at hraises
  | written => simp [hc, CopyEnd.raises] at hraises

/-- A file that the body lets through is skipped without a zone, or its call has returned. -/
theorem tochiFile_ok {k : Sink (Reading Src) Out} {hasOgr : Bool} {genxy : Nat → Src → Src}
    {st st' : State Out} {f : TochiFile Src Out} (h : tochiFile k hasOgr genxy st f = .ok st') :
    f.zukei = none ∧ st' = { st with skipped := st.skipped + 1 } ∨
      ∃ z mid, f.zukei = some z ∧
        runCall k "tochi_merged" tochiTgtSrs z (f.srcPath hasOgr genxy z) f.proc
          { st with temps := st.temps + f.copies hasOgr } = .ok mid ∧
        st' = { mid with temps := mid.temps - f.copies hasOgr } := by
  cases hz : f.zukei with
  | none =>
    rw [tochiFile, hz] at h
    cases h
    exact Or.inl ⟨rfl, rfl⟩
  | some z =>
    right
    cases hcopy : hasOgr && f.copy.raises with
    | true =>
      obtain ⟨e, he⟩ : ∃ e, tochiFile k hasOgr genxy st f = .error e := tochiFile_raises hz hcopy
      rw [he] at h
      cases h
    | false =>
      rw [tochiFile_call hz hcopy] at h
      cases hr : runCall k "tochi_merged" tochiTgtSrs z (f.srcPath hasOgr genxy z) f.proc
          { st with temps := st.temps + f.copies hasOgr } with
      | error e =>
        rw [hr] at h
        cases h
      | ok mid =>
        rw [hr] at h
        cases h
        exact ⟨z, mid, rfl, hr, rfl⟩

theorem tochiFile_progress {k : Sink (Reading Src) Out} {hasOgr : Bool} {genxy : Nat → Src → Src}
    {st st' : State Out} {f : TochiFile Src Out} (h : tochiFile k hasOgr genxy st f = .ok st') :
    st'.toProgress = (f.attempt? hasOgr genxy).toList.foldl (Progress.attempt true k)
      st.toProgress := by
  unfold TochiFile.attempt?
  rcases tochiFile_ok h with ⟨hz, rfl⟩ | ⟨z, mid, hz, hcall, rfl⟩
  · rw [hz]
    rfl
  · have hprogress := runCall_progress hcall
    rw [hz]
    exact hprogress

theorem tochiLoop_progress {k : Sink (Reading Src) Out} {hasOgr : Bool} {genxy : Nat → Src → Src}
    {prior : Option Out} {gpkgs : List (TochiFile Src Out)} {st : State Out}
    (h : tochiLoop k hasOgr genxy prior gpkgs = .ok st) :
    st.toProgress = (tochiAttempts hasOgr genxy gpkgs).foldl (Progress.attempt true k)
      (.start prior) := by
  exact foldlM_simulates State.toProgress (fun _ _ _ => tochiFile_progress) h

theorem gaikuFile_progress {k : Sink (Reading Src) Out} {st st' : State Out} {f : GaikuFile Src Out}
    (h : gaikuFile k st f = .ok st') :
    st'.toProgress = f.attempt?.toList.foldl (Progress.attempt true k) st.toProgress := by
  unfold gaikuFile at h
  unfold GaikuFile.attempt?
  cases hz : f.zukei with
  | none =>
    rw [hz] at h
    cases h
    rfl
  | some z =>
    rw [hz] at h
    exact runCall_progress h

theorem gaikuLoop_progress {k : Sink (Reading Src) Out} {prior : Option Out}
    {parquets : List (GaikuFile Src Out)} {st : State Out}
    (h : gaikuLoop k prior parquets = .ok st) :
    st.toProgress = (gaikuAttempts parquets).foldl (Progress.attempt true k) (.start prior) := by
  exact foldlM_simulates State.toProgress (fun _ _ _ => gaikuFile_progress) h

/-- A run of `merge_tochi_geopackage.py` that exits with 0 has merged some file. -/
theorem tochiMain_zero {k : Sink (Reading Src) Out} {hasOgr : Bool}
    {genxy : Nat → Src → Src} {prior : Option Out} {gpkgs : List (TochiFile Src Out)}
    {st : State Out} (h : tochiMain k hasOgr genxy prior (some gpkgs) = (0, st)) :
    succeeded (tochiAttempts hasOgr genxy gpkgs) ≠ [] ∧
      st.output = k.grow (kept prior (tochiAttempts hasOgr genxy gpkgs))
        (succeeded (tochiAttempts hasOgr genxy gpkgs)) := by
  cases gpkgs with
  | nil => simp [tochiMain] at h
  | cons f gpkgs =>
    simp only [tochiMain] at h
    cases hloop : tochiLoop k hasOgr genxy prior (f :: gpkgs) with
    | error st' => simp [hloop] at h
    | ok st' =>
      simp only [hloop, Prod.mk.injEq] at h
      obtain ⟨hzero, rfl⟩ := h
      have hprogress := tochiLoop_progress hloop
      rw [foldl_attempt_eager] at hprogress
      have hmerged : st'.merged = _ := congrArg Progress.merged hprogress
      refine ⟨?_, congrArg Progress.output hprogress⟩
      intro hnil
      simp [hmerged, hnil] at hzero

/-! ## The merged layer -/

theorem progress_layer_iff (part : Reading Src → List F) (prior : Option (List F))
    (as : List (Attempt (Reading Src))) {st : State (List F)}
    (h : st.toProgress = as.foldl (Progress.attempt true (Sink.concat part)) (.start prior)) :
    st.merged = (succeeded as).length ∧
      ((0 < st.merged → st.output = some ((succeeded as).flatMap part)) ↔
        FreshStart prior as) := by
  rw [foldl_attempt_eager] at h
  have hmerged : st.merged = (succeeded as).length := congrArg Progress.merged h
  have houtput : st.output = (Sink.concat part).grow (kept prior as) (succeeded as) :=
    congrArg Progress.output h
  rw [hmerged, houtput]
  exact ⟨rfl, eager_layer_iff part prior as⟩

/-- **The merged layer.** For both drivers: a loop that ends counts as merged the files
whose call succeeded. If it merged any, its output layer is the concatenation of their
features exactly when the run starts from nothing. -/
theorem pyMerge_layer_iff (part : Reading Src → List F) (prior : Option (List F)) :
    (∀ (hasOgr : Bool) (genxy : Nat → Src → Src) (gpkgs : List (TochiFile Src (List F)))
        (st : State (List F)),
      tochiLoop (Sink.concat part) hasOgr genxy prior gpkgs = .ok st →
        st.merged = (succeeded (tochiAttempts hasOgr genxy gpkgs)).length ∧
        ((0 < st.merged →
            st.output = some ((succeeded (tochiAttempts hasOgr genxy gpkgs)).flatMap part)) ↔
          FreshStart prior (tochiAttempts hasOgr genxy gpkgs))) ∧
    ∀ (parquets : List (GaikuFile Src (List F))) (st : State (List F)),
      gaikuLoop (Sink.concat part) prior parquets = .ok st →
        st.merged = (succeeded (gaikuAttempts parquets)).length ∧
        ((0 < st.merged → st.output = some ((succeeded (gaikuAttempts parquets)).flatMap part)) ↔
          FreshStart prior (gaikuAttempts parquets)) := by
  refine ⟨?_, ?_⟩
  · intro hasOgr genxy gpkgs st h
    exact progress_layer_iff part prior _ (tochiLoop_progress h)
  · intro parquets st h
    exact progress_layer_iff part prior _ (gaikuLoop_progress h)

/-- A first call that succeeds replaces the layer of an earlier run. -/
theorem pyMerge_layer_replaced :
    (∃ st, tochiLoop (Sink.concat fun r : Reading Nat => [r.src]) true (fun _ src => src) (some [7])
        [⟨1, some 9, .written, .exit 0⟩, ⟨2, none, .noTemp, .exit 0⟩,
          ⟨3, some 6, .refused, .exit 0⟩]
          = .ok st ∧ (0 < st.merged → st.output = some [1, 3])) ∧
    ∃ st, gaikuLoop (Sink.concat fun r : Reading Nat => [r.src]) (some [7])
        [⟨1, some 9, .exit 0⟩, ⟨2, none, .exit 0⟩, ⟨3, some 6, .exit 0⟩] = .ok st ∧
      (0 < st.merged → st.output = some [1, 3]) :=
  ⟨⟨_, rfl, ((pyMerge_layer_iff (fun r : Reading Nat => [r.src]) (some [7])).1 true
      (fun _ src => src)
      [⟨1, some 9, .written, .exit 0⟩, ⟨2, none, .noTemp, .exit 0⟩, ⟨3, some 6, .refused, .exit 0⟩]
      _ rfl).2.mpr (by decide)⟩,
    ⟨_, rfl, ((pyMerge_layer_iff (fun r : Reading Nat => [r.src]) (some [7])).2
      [⟨1, some 9, .exit 0⟩, ⟨2, none, .exit 0⟩, ⟨3, some 6, .exit 0⟩] _ rfl).2.mpr (by decide)⟩⟩

/-- A first call that fails over the output of an earlier run: the features of that run stay
in the layer. For 街区 the earlier run is one whose conversion to Parquet failed, which
leaves the temporary GeoPackage behind. -/
theorem pyMerge_stale_layer :
    (∃ st, tochiLoop (Sink.concat fun r : Reading Nat => [r.src]) true (fun _ src => src)
        (tochiMain (Sink.concat fun r : Reading Nat => [r.src]) true (fun _ src => src) none
          (some [⟨1, some 9, .written, .exit 0⟩])).2.output
        [⟨2, some 9, .written, .exit 1⟩, ⟨3, some 9, .written, .exit 0⟩] = .ok st ∧
      0 < st.merged ∧ st.output = some [1, 3] ∧
      (succeeded (tochiAttempts true (fun _ src => src)
        [(⟨2, some 9, .written, .exit 1⟩ : TochiFile Nat (List Nat)),
          ⟨3, some 9, .written, .exit 0⟩])).flatMap (fun r : Reading Nat => [r.src]) = [3]) ∧
    ∃ st, gaikuLoop (Sink.concat fun r : Reading Nat => [r.src])
        (gaikuMain (Sink.concat fun r : Reading Nat => [r.src]) ⟨none, none⟩ (.exit 1) true
          (some [⟨1, some 9, .exit 0⟩])).2.gpkg
        [⟨2, some 9, .exit 1⟩, ⟨3, some 9, .exit 0⟩] = .ok st ∧
      0 < st.merged ∧ st.output = some [1, 3] ∧
      (succeeded (gaikuAttempts [(⟨2, some 9, .exit 1⟩ : GaikuFile Nat (List Nat)),
        ⟨3, some 9, .exit 0⟩])).flatMap (fun r : Reading Nat => [r.src]) = [3] :=
  ⟨⟨_, rfl, by decide, by decide, by decide⟩, ⟨_, rfl, by decide, by decide, by decide⟩⟩

end GdalFull.Merge
