import GdalFull.Convert.Tree
import GdalFull.Lib.Loop
import Mathlib.Logic.Function.Basic
import Mathlib.Tactic.Common

/-!
# Tile sets over many runs

`gpkg_to_pmtiles.sh` and `run_pipeline_14jyo.sh` drop the exit status of the call that writes
the tile set and report success when a `.pmtiles` file is there. Every file carries the run
that wrote it and the input data it was made from, and a history is a sequence of runs of both
scripts, each with its own input data and its own outcome of every call.

`gpkgToPmtiles_fresh_iff` and `run14jyo_fresh_iff` settle one run: a success report is wrong
exactly when the tile set was there before and the first PMTiles call leaves it as it was.
`history_fresh_iff` is the statement for whole histories. A tile set that a failing call has begun
counts as one of its run there; `history_complete_iff` says when every reported one is complete.
-/

namespace GdalFull.Pipeline.Pmtiles

open GdalFull.Convert (basename cmdSubst)
open GdalFull.Lib

variable {D : Type}

/-- A file: the run that wrote it (`none` for a file from before the history), the input data
it holds, and whether the last call that wrote to it went to its end. -/
structure Blob (D : Type) where
  run : Option Nat
  sources : List D
  whole : Bool
  deriving DecidableEq

abbrev Store (D : Type) := Convert.Name → Option (Blob D)

/-- How a call of `ogr2ogr` ends: with success, or with a failure after which the output file
is as before, is gone, or has been begun. -/
inductive CallEnd where
  | ok
  | kept
  | removed
  | begun
  deriving DecidableEq

/-- What is at the output path after a call, given what was there and what success writes. -/
def CallEnd.leave (e : CallEnd) (result : Blob D) (old : Option (Blob D)) : Option (Blob D) :=
  match e with
  | .ok => some result
  | .kept => old
  | .removed => none
  | .begun => some { result with whole := false }

def CallEnd.write (e : CallEnd) (path : Convert.Name) (result : Blob D) (st : Store D) : Store D :=
  Function.update st path (e.leave result (st path))

/-! ## gpkg_to_pmtiles.sh -/

/-- A run of `gpkg_to_pmtiles.sh`: the directory and the name of the GeoPackage, its content
if it is there, and how the calls end. The path is absolute: the `cd` between the test of a relative
one and the calls, which would then mean another file, is left out. -/
structure GpkgRun (D : Type) where
  dir : Convert.Name
  name : Convert.Name
  gpkg : Option D
  direct : CallEnd
  parquet : CallEnd
  fromParquet : CallEnd

def GpkgRun.base (r : GpkgRun D) : Convert.Name :=
  cmdSubst (basename r.name ".gpkg".toList)

def GpkgRun.outPmtiles (r : GpkgRun D) : Convert.Name :=
  r.dir ++ '/' :: (r.base ++ ".pmtiles".toList)

def GpkgRun.outParquet (r : GpkgRun D) : Convert.Name :=
  r.dir ++ '/' :: (r.base ++ ".parquet".toList)

/-- Steps 2 and 3 of the script: the files and the exit status. -/
def viaParquet (n : Nat) (r : GpkgRun D) (g : D) (st : Store D) : Store D × Nat :=
  let exported := r.parquet.write r.outParquet ⟨some n, [g], true⟩ st
  if r.parquet ≠ .ok then (exported, 1)
  else
    match exported r.outParquet with
    | none => (exported, 1)
    | some pq =>
      let tiled := r.fromParquet.write r.outPmtiles { pq with run := some n } exported
      if (tiled r.outPmtiles).isSome then (Function.update tiled r.outParquet none, 0)
      else (tiled, 1)

/-- The files and the exit status after run number `n`. -/
def gpkgToPmtiles (n : Nat) (r : GpkgRun D) (st : Store D) : Store D × Nat :=
  match r.gpkg with
  | none => (st, 1)
  | some g =>
    let direct := r.direct.write r.outPmtiles ⟨some n, [g], true⟩ st
    if (direct r.outPmtiles).isSome then (direct, 0) else viaParquet n r g direct

/-! ## run_pipeline_14jyo.sh -/

/-- A run of `run_pipeline_14jyo.sh`. `ready` stands for the tests of `env.sh`, the drivers and
the input directory; `shps` are the shapefiles, each with the outcome of its call. -/
structure JyoRun (D : Type) where
  dir : Convert.Name
  ready : Bool
  shps : List (D × CallEnd)
  tiles : CallEnd

def JyoRun.mergeGpkg (r : JyoRun D) : Convert.Name :=
  r.dir ++ "/14条地図_merge.gpkg".toList

def JyoRun.outputPmtiles (r : JyoRun D) : Convert.Name :=
  r.dir ++ "/14条地図.pmtiles".toList

/-- One `-update -append`, whose exit status is dropped; an absent file is created. -/
def appendShp (n : Nat) (file : Option (Blob D)) (x : D × CallEnd) : Option (Blob D) :=
  let old := (file.map Blob.sources).getD []
  x.2.leave ⟨some n, old ++ [x.1], true⟩ file

def run14jyo (n : Nat) (r : JyoRun D) (st : Store D) : Store D × Nat :=
  match r.ready, r.shps with
  | false, _ => (st, 1)
  | true, [] => (st, 1)
  | true, first :: rest =>
    -- the merge file was removed, so a failing first call can only leave what it began
    let created := first.2.leave ⟨some n, [first.1], true⟩ none
    if first.2 ≠ .ok then (Function.update st r.mergeGpkg created, 1)
    else
      match rest.foldl (appendShp n) created with
      | none => (Function.update st r.mergeGpkg none, 1)
      | some gpkg =>
        let merged := Function.update st r.mergeGpkg (some gpkg)
        let tiled := r.tiles.write r.outputPmtiles { gpkg with run := some n } merged
        if (tiled r.outputPmtiles).isSome then (tiled, 0) else (tiled, 1)

/-! ## Histories -/

inductive Run (D : Type) where
  | gpkg (r : GpkgRun D)
  | jyo (r : JyoRun D)

def Run.exec (n : Nat) (st : Store D) : Run D → Store D × Nat
  | .gpkg r => gpkgToPmtiles n r st
  | .jyo r => run14jyo n r st

def Run.out : Run D → Convert.Name
  | .gpkg r => r.outPmtiles
  | .jyo r => r.outputPmtiles

def Run.input : Run D → List D
  | .gpkg r => r.gpkg.toList
  | .jyo r => r.shps.map Prod.fst

/-- A run of a history with its number and the files before it. -/
structure Step (D : Type) where
  n : Nat
  before : Store D
  run : Run D

/-- The steps of a sequence of runs, numbered from `n`. -/
def steps : Nat → Store D → List (Run D) → List (Step D)
  | _, _, [] => []
  | n, st, r :: rs => ⟨n, st, r⟩ :: steps (n + 1) (r.exec n st).1 rs

/-- The files from before a history. -/
def initial (files : Convert.Name → Option (List D)) : Store D :=
  fun p => (files p).map fun sources => ⟨none, sources, true⟩

/-- A success report means that the tile set was written by this run from its input. -/
def Step.Fresh (s : Step D) : Prop :=
  (s.run.exec s.n s.before).2 = 0 →
    ∃ b, (s.run.exec s.n s.before).1 s.run.out = some b ∧ b.run = some s.n ∧
      b.sources ≠ [] ∧ b.sources.Sublist s.run.input

/-- A file that exists is still there after calls with these outcomes. -/
def survives (ends : List CallEnd) : Bool :=
  ends.foldl (fun there e =>
    match e with
    | .ok => true
    | .kept => there
    | .removed => false
    | .begun => true) true

/-- The run gets to its first PMTiles call. -/
def Run.reaches : Run D → Bool
  | .gpkg r => r.gpkg.isSome
  | .jyo r => r.ready && (r.shps.head?.map Prod.snd == some .ok) &&
      survives (r.shps.tail.map Prod.snd)

/-- How the first PMTiles call ends. -/
def Run.firstTiles : Run D → CallEnd
  | .gpkg r => r.direct
  | .jyo r => r.tiles

/-- The run does not meet an old tile set that its first PMTiles call leaves as it was. -/
def Step.Safe (s : Step D) : Prop :=
  s.run.reaches = true → s.before s.run.out = none ∨ s.run.firstTiles ≠ .kept

/-- The file at a path is not of run `n`. -/
def NotOf (n : Nat) (st : Store D) (p : Convert.Name) : Prop :=
  ∀ b, st p = some b → b.run ≠ some n

/-! ## One run -/

theorem GpkgRun.outPmtiles_ne_outParquet (r : GpkgRun D) : r.outPmtiles ≠ r.outParquet := by
  intro h
  rw [GpkgRun.outPmtiles, GpkgRun.outParquet, List.append_cancel_left_eq, List.cons.injEq,
    List.append_cancel_left_eq] at h
  exact absurd h.2 (by decide)

theorem JyoRun.outputPmtiles_ne_mergeGpkg (r : JyoRun D) : r.outputPmtiles ≠ r.mergeGpkg := by
  intro h
  rw [JyoRun.outputPmtiles, JyoRun.mergeGpkg, List.append_cancel_left_eq] at h
  exact absurd h (by decide)

theorem CallEnd.write_self (e : CallEnd) (path : Convert.Name) (result : Blob D) (st : Store D) :
    e.write path result st path = e.leave result (st path) :=
  Function.update_self path _ st

theorem CallEnd.write_of_ne {path p : Convert.Name} (h : p ≠ path) (e : CallEnd) (result : Blob D)
    (st : Store D) : e.write path result st p = st p :=
  Function.update_of_ne h _ st

/-- What a call leaves is a file that it has written or the file that was there. -/
theorem CallEnd.leave_cases {e : CallEnd} {result b : Blob D} {old : Option (Blob D)}
    (h : e.leave result old = some b) :
    (b.run = result.run ∧ b.sources = result.sources) ∨ (e = .kept ∧ old = some b) := by
  cases e with
  | ok => cases h; exact Or.inl ⟨rfl, rfl⟩
  | kept => exact Or.inr ⟨rfl, h⟩
  | removed => cases h
  | begun => cases h; exact Or.inl ⟨rfl, rfl⟩

/-- The merge file holds shapefiles of its run, in order. -/
def MergedFrom (n : Nat) (shps : List D) (file : Option (Blob D)) : Prop :=
  ∀ b, file = some b → b.run = some n ∧ b.sources ≠ [] ∧ b.sources.Sublist shps

theorem appendShp_mergedFrom (n : Nat) (first : D) (rest : List (D × CallEnd)) (whole : Bool) :
    MergedFrom n (first :: rest.map Prod.fst)
      (rest.foldl (appendShp n) (some ⟨some n, [first], whole⟩)) := by
  refine foldl_walked
    (I := fun walked file => MergedFrom n (first :: walked.map Prod.fst) file) ?_ ?_ rest
  · intro b hb
    cases hb
    exact ⟨rfl, by simp, List.Sublist.refl _⟩
  · intro walked x file ih b hb
    rw [List.map_append, ← List.cons_append]
    rcases CallEnd.leave_cases hb with ⟨hrun, hsources⟩ | ⟨_, hold⟩
    · refine ⟨hrun, by simp [hsources], ?_⟩
      rw [hsources]
      refine List.Sublist.append ?_ (List.Sublist.refl _)
      cases file with
      | none => exact List.nil_sublist _
      | some old => exact (ih old rfl).2.2
    · obtain ⟨hrun, hne, hsub⟩ := ih b hold
      exact ⟨hrun, hne, hsub.trans (List.sublist_append_left _ _)⟩

theorem foldl_appendShp_isSome (n : Nat) (rest : List (D × CallEnd)) (b : Blob D) :
    (rest.foldl (appendShp n) (some b)).isSome = survives (rest.map Prod.snd) := by
  refine foldl_walked
    (I := fun walked (file : Option (Blob D)) => file.isSome = survives (walked.map Prod.snd))
    rfl ?_ rest
  intro walked x file ih
  rw [survives, List.map_append, List.foldl_append, appendShp]
  change _ = (match x.2 with
    | .ok => true
    | .kept => survives (walked.map Prod.snd)
    | .removed => false
    | .begun => true)
  cases x.2 with
  | ok => rfl
  | kept => exact ih
  | removed => rfl
  | begun => rfl

/-- Where a call decides the report: the report is wrong exactly when it leaves an old file. -/
theorem leave_fresh_iff {n : Nat} (e : CallEnd) (result : Blob D) {old : Option (Blob D)}
    {input : List D} (hold : ∀ b, old = some b → b.run ≠ some n)
    (hrun : result.run = some n) (hne : result.sources ≠ [])
    (hsub : result.sources.Sublist input) :
    (∀ b, e.leave result old = some b →
        b.run = some n ∧ b.sources ≠ [] ∧ b.sources.Sublist input) ↔
      (old = none ∨ e ≠ .kept) := by
  constructor
  · intro h
    by_contra hbad
    rw [not_or, not_not] at hbad
    obtain ⟨hsome, rfl⟩ := hbad
    obtain ⟨b, hb⟩ := Option.ne_none_iff_exists'.mp hsome
    exact hold b hb (h b hb).1
  · intro h b hb
    rcases CallEnd.leave_cases hb with ⟨hr, hs⟩ | ⟨hkept, hb⟩
    · rw [hr, hs]
      exact ⟨hrun, hne, hsub⟩
    · rcases h with h | h
      · rw [h] at hb
        cases hb
      · exact absurd hkept h

/-- The fallback through Parquet only runs where no tile set is left, so what it reports is
its own. -/
theorem viaParquet_fresh {n : Nat} {r : GpkgRun D} {g : D} {st : Store D}
    (hnone : st r.outPmtiles = none) (hexit : (viaParquet n r g st).2 = 0) :
    ∃ b, (viaParquet n r g st).1 r.outPmtiles = some b ∧ b.run = some n ∧ b.sources = [g] := by
  unfold viaParquet at hexit ⊢
  dsimp only at hexit ⊢
  rw [CallEnd.write_self] at hexit ⊢
  cases hpq : r.parquet with
  | kept => simp [hpq] at hexit
  | removed => simp [hpq] at hexit
  | begun => simp [hpq] at hexit
  | ok =>
    rw [hpq, if_neg (by simp)] at hexit
    rw [if_neg (by simp)]
    dsimp only [CallEnd.leave] at hexit ⊢
    split at hexit
    · rename_i hsome
      rw [if_pos hsome]
      dsimp only
      obtain ⟨b, hb⟩ := Option.isSome_iff_exists.mp hsome
      refine ⟨b, (Function.update_of_ne r.outPmtiles_ne_outParquet _ _).trans hb, ?_⟩
      rw [CallEnd.write_self, CallEnd.write_of_ne r.outPmtiles_ne_outParquet, hnone] at hb
      rcases CallEnd.leave_cases hb with h | ⟨_, h⟩
      · exact h
      · cases h
    · cases hexit

/-- A report on a file that is there. -/
theorem report_some_iff {P : Blob D → Prop} (b : Blob D) :
    (0 = 0 → ∃ c, some b = some c ∧ P c) ↔ (true = true → ∀ c, some b = some c → P c) := by
  constructor
  · intro h _ c hc
    obtain ⟨d, hd, hP⟩ := h rfl
    cases hc
    cases hd
    exact hP
  · intro h _
    exact ⟨b, rfl, h rfl b rfl⟩

theorem gpkgToPmtiles_fresh_iff (n : Nat) (r : GpkgRun D) (st : Store D)
    (hold : NotOf n st r.outPmtiles) :
    (Step.mk n st (.gpkg r)).Fresh ↔ (Step.mk n st (.gpkg r)).Safe := by
  unfold Step.Fresh Step.Safe
  dsimp only [Run.exec, Run.out, Run.input, Run.reaches, Run.firstTiles]
  unfold gpkgToPmtiles
  cases hg : r.gpkg with
  | none => simp
  | some g =>
    have hleave := leave_fresh_iff r.direct ⟨some n, [g], true⟩ hold rfl (by simp)
      (List.Sublist.refl [g])
    have hself := CallEnd.write_self r.direct r.outPmtiles ⟨some n, [g], true⟩ st
    dsimp only [Option.isSome_some, Option.toList_some]
    rw [← hleave, ← hself]
    cases hdirect : r.direct.write r.outPmtiles ⟨some n, [g], true⟩ st r.outPmtiles with
    | none =>
      rw [if_neg (by simp)]
      constructor
      · intro _ _ b hb
        cases hb
      · intro _ hexit
        obtain ⟨b, hb, hrun, hsources⟩ := viaParquet_fresh hdirect hexit
        exact ⟨b, hb, hrun, by simp [hsources], by simp [hsources]⟩
    | some b =>
      rw [if_pos Option.isSome_some]
      dsimp only
      rw [hdirect]
      exact report_some_iff b

theorem run14jyo_fresh_iff (n : Nat) (r : JyoRun D) (st : Store D)
    (hold : NotOf n st r.outputPmtiles) :
    (Step.mk n st (.jyo r)).Fresh ↔ (Step.mk n st (.jyo r)).Safe := by
  unfold Step.Fresh Step.Safe
  dsimp only [Run.exec, Run.out, Run.input, Run.reaches, Run.firstTiles]
  unfold run14jyo
  cases hready : r.ready with
  | false => simp
  | true =>
    cases hshps : r.shps with
    | nil => simp
    | cons first rest =>
      obtain ⟨shp, e⟩ := first
      by_cases he : e = .ok
      · subst he
        have hmerged := appendShp_mergedFrom n shp rest true
        have hsome := foldl_appendShp_isSome n rest ⟨some n, [shp], true⟩
        simp only [ne_eq, not_true_eq_false, if_false, CallEnd.leave, List.head?_cons,
          Option.map_some, beq_self_eq_true, List.tail_cons, Bool.true_and, List.map_cons]
        rw [← hsome]
        cases hfile : rest.foldl (appendShp n) (some ⟨some n, [shp], true⟩) with
        | none => simp
        | some gpkg =>
          obtain ⟨_, hne, hsub⟩ := hmerged gpkg hfile
          have hleave := leave_fresh_iff r.tiles { gpkg with run := some n } hold rfl hne hsub
          have hself := CallEnd.write_self r.tiles r.outputPmtiles { gpkg with run := some n }
            (Function.update st r.mergeGpkg (some gpkg))
          rw [Function.update_of_ne r.outputPmtiles_ne_mergeGpkg] at hself
          dsimp only
          rw [← hleave, ← hself]
          cases hout : r.tiles.write r.outputPmtiles { gpkg with run := some n }
              (Function.update st r.mergeGpkg (some gpkg)) r.outputPmtiles with
          | none =>
            rw [if_neg (by simp)]
            constructor
            · intro _ _ b hb
              cases hb
            · intro _ hexit
              cases hexit
          | some b =>
            rw [if_pos Option.isSome_some]
            dsimp only
            rw [hout]
            exact report_some_iff b
      · simp [he]

/-! ## Complete tile sets -/

/-- A success report means that this run wrote the tile set to its end. -/
def Step.Complete (s : Step D) : Prop :=
  (s.run.exec s.n s.before).2 = 0 →
    ∃ b, (s.run.exec s.n s.before).1 s.run.out = some b ∧ b.run = some s.n ∧ b.whole = true

/-- The last of these calls that wrote to a file went to its end. -/
def unbroken (ends : List CallEnd) : Bool :=
  ends.foldl (fun whole e =>
    match e with
    | .ok => true
    | .kept => whole
    | .removed => false
    | .begun => false) true

/-- No call behind the tests leaves a tile set that is old or not complete. -/
def Run.Finishes (old : Option (Blob D)) : Run D → Prop
  | .gpkg r =>
    match r.direct with
    | .ok => True
    | .kept => old = none ∧ (r.parquet = .ok → r.fromParquet ≠ .begun)
    | .removed => r.parquet = .ok → r.fromParquet ≠ .begun
    | .begun => False
  | .jyo r =>
    match r.tiles with
    | .ok => unbroken (r.shps.tail.map Prod.snd) = true
    | .kept => old = none
    | .removed => True
    | .begun => False

def Step.Finished (s : Step D) : Prop :=
  s.run.reaches = true → s.run.Finishes (s.before s.run.out)

theorem foldl_appendShp_whole (n : Nat) (rest : List (D × CallEnd)) {b : Blob D}
    (hb : b.whole = true) {merged : Blob D}
    (h : rest.foldl (appendShp n) (some b) = some merged) :
    merged.whole = unbroken (rest.map Prod.snd) := by
  refine foldl_walked (I := fun walked (file : Option (Blob D)) =>
    ∀ c, file = some c → c.whole = unbroken (walked.map Prod.snd)) ?_ ?_ rest merged h
  · intro c hc
    cases hc
    exact hb
  · intro walked x file ih c hc
    rw [unbroken, List.map_append, List.foldl_append]
    change c.whole = (match x.2 with
      | .ok => true
      | .kept => unbroken (walked.map Prod.snd)
      | .removed => false
      | .begun => false)
    rw [appendShp] at hc
    cases hx : x.2 with
    | ok => rw [hx] at hc; cases hc; rfl
    | kept => rw [hx] at hc; exact ih c hc
    | removed => rw [hx] at hc; cases hc
    | begun => rw [hx] at hc; cases hc; rfl

/-- The fallback starts without a tile set, and reports one that is begun. -/
theorem viaParquet_complete_iff {n : Nat} {r : GpkgRun D} {g : D} {st : Store D}
    (hnone : st r.outPmtiles = none) :
    ((viaParquet n r g st).2 = 0 → ∃ b, (viaParquet n r g st).1 r.outPmtiles = some b ∧
        b.run = some n ∧ b.whole = true) ↔
      (r.parquet = .ok → r.fromParquet ≠ .begun) := by
  have hne := r.outPmtiles_ne_outParquet
  unfold viaParquet
  cases hpq : r.parquet <;> cases hfrom : r.fromParquet <;>
    simp [CallEnd.write, CallEnd.leave, hne, hnone]

theorem gpkgToPmtiles_complete_iff (n : Nat) (r : GpkgRun D) (st : Store D)
    (hold : NotOf n st r.outPmtiles) :
    (Step.mk n st (.gpkg r)).Complete ↔ (Step.mk n st (.gpkg r)).Finished := by
  unfold Step.Complete Step.Finished
  dsimp only [Run.exec, Run.out, Run.reaches, Run.Finishes]
  unfold gpkgToPmtiles
  cases hg : r.gpkg with
  | none => simp
  | some g =>
    have hself := CallEnd.write_self r.direct r.outPmtiles ⟨some n, [g], true⟩ st
    dsimp only
    rw [Option.isSome_some, forall_prop_of_true rfl]
    cases hdirect : r.direct with
    | ok => simp [CallEnd.write, CallEnd.leave]
    | begun => simp [CallEnd.write, CallEnd.leave]
    | removed =>
      rw [hdirect] at hself
      rw [if_neg (by rw [hself]; simp [CallEnd.leave])]
      exact viaParquet_complete_iff hself
    | kept =>
      rw [hdirect] at hself
      cases hst : st r.outPmtiles with
      | none =>
        have hnone : CallEnd.kept.write r.outPmtiles ⟨some n, [g], true⟩ st r.outPmtiles = none :=
          hself.trans hst
        rw [if_neg (by rw [hnone]; simp), viaParquet_complete_iff hnone]
        simp
      | some b =>
        have hsome : CallEnd.kept.write r.outPmtiles ⟨some n, [g], true⟩ st r.outPmtiles =
            some b := hself.trans hst
        rw [if_pos (by rw [hsome]; rfl)]
        simp [hsome, hold b hst]

theorem run14jyo_complete_iff (n : Nat) (r : JyoRun D) (st : Store D)
    (hold : NotOf n st r.outputPmtiles) :
    (Step.mk n st (.jyo r)).Complete ↔ (Step.mk n st (.jyo r)).Finished := by
  unfold Step.Complete Step.Finished
  dsimp only [Run.exec, Run.out, Run.reaches, Run.Finishes]
  unfold run14jyo
  cases hready : r.ready with
  | false => simp
  | true =>
    cases hshps : r.shps with
    | nil => simp
    | cons first rest =>
      obtain ⟨shp, e⟩ := first
      by_cases he : e = .ok
      · subst he
        have hsome := foldl_appendShp_isSome n rest ⟨some n, [shp], true⟩
        simp only [ne_eq, not_true_eq_false, if_false, CallEnd.leave, List.head?_cons,
          Option.map_some, beq_self_eq_true, List.tail_cons, Bool.true_and]
        rw [← hsome]
        cases hfile : rest.foldl (appendShp n) (some ⟨some n, [shp], true⟩) with
        | none => simp
        | some gpkg =>
          have hwhole := foldl_appendShp_whole n rest rfl hfile
          have hne := r.outputPmtiles_ne_mergeGpkg
          dsimp only
          rw [CallEnd.write_self, Option.isSome_some, forall_prop_of_true rfl]
          cases r.tiles with
          | ok => simp [CallEnd.write_self, CallEnd.leave, hwhole]
          | removed => simp [CallEnd.leave]
          | begun => simp [CallEnd.write_self, CallEnd.leave]
          | kept =>
            cases hst : st r.outputPmtiles with
            | none => simp [CallEnd.leave, hne, hst]
            | some b => simp [CallEnd.write_self, CallEnd.leave, hne, hst, hold b hst]
      · simp [he]

/-! ## Whole histories -/

/-- Every file is from before run `n`. -/
def Before (n : Nat) (st : Store D) : Prop :=
  ∀ p b, st p = some b → ∀ k, b.run = some k → k < n

theorem Before.notOf {n : Nat} {st : Store D} (h : Before n st) (p : Convert.Name) :
    NotOf n st p := by
  intro b hb hrun
  exact absurd (h p b hb n hrun) (Nat.lt_irrefl n)

theorem Before.mono {n : Nat} {st : Store D} (h : Before n st) : Before (n + 1) st := by
  intro p b hb k hk
  exact Nat.lt_succ_of_lt (h p b hb k hk)

theorem lt_succ_of_run {n k : Nat} {b : Blob D} (h : b.run = some n) (hk : b.run = some k) :
    k < n + 1 := by
  cases h.symm.trans hk
  exact Nat.lt_succ_self n

theorem Before.update {n : Nat} {st : Store D} (h : Before (n + 1) st) (path : Convert.Name)
    {file : Option (Blob D)} (hfile : ∀ b, file = some b → ∀ k, b.run = some k → k < n + 1) :
    Before (n + 1) (Function.update st path file) := by
  intro p b hb
  by_cases hp : p = path
  · subst hp
    rw [Function.update_self] at hb
    exact hfile b hb
  · rw [Function.update_of_ne hp] at hb
    exact h p b hb

theorem Before.write {n : Nat} {st : Store D} (h : Before (n + 1) st) (e : CallEnd)
    (path : Convert.Name) (result : Blob D) (hrun : result.run = some n) :
    Before (n + 1) (e.write path result st) := by
  apply h.update path
  intro b hb k hk
  rcases CallEnd.leave_cases hb with ⟨hr, _⟩ | ⟨_, hold⟩
  · exact lt_succ_of_run (hr.trans hrun) hk
  · exact h path b hold k hk

theorem Before.viaParquet {n : Nat} {st : Store D} (h : Before (n + 1) st) (r : GpkgRun D)
    (g : D) : Before (n + 1) (viaParquet n r g st).1 := by
  have hexported := h.write r.parquet r.outParquet ⟨some n, [g], true⟩ rfl
  unfold Pmtiles.viaParquet
  dsimp only
  split
  · exact hexported
  · split
    · exact hexported
    · rename_i pq _
      have htiled := hexported.write r.fromParquet r.outPmtiles { pq with run := some n } rfl
      split
      · exact htiled.update _ (by simp)
      · exact htiled

theorem Before.exec {n : Nat} {st : Store D} (h : Before n st) (r : Run D) :
    Before (n + 1) (r.exec n st).1 := by
  cases r with
  | gpkg r =>
    dsimp only [Run.exec]
    unfold gpkgToPmtiles
    split
    · exact h.mono
    · rename_i g _
      have hdirect := h.mono.write r.direct r.outPmtiles ⟨some n, [g], true⟩ rfl
      dsimp only
      split
      · exact hdirect
      · exact hdirect.viaParquet r g
  | jyo r =>
    dsimp only [Run.exec]
    unfold run14jyo
    split
    · exact h.mono
    · exact h.mono
    · rename_i first rest _ _
      have hown : ∀ file : Option (Blob D), MergedFrom n (first.1 :: rest.map Prod.fst) file →
          Before (n + 1) (Function.update st r.mergeGpkg file) := by
        intro file hfile
        apply h.mono.update
        intro b hb k hk
        exact lt_succ_of_run (hfile b hb).1 hk
      dsimp only
      split
      · apply hown
        intro b hb
        rcases CallEnd.leave_cases hb with ⟨hr, hs⟩ | ⟨_, hold⟩
        · exact ⟨hr, by simp [hs], by simp [hs]⟩
        · cases hold
      · rename_i hok
        rw [ne_eq, not_not] at hok
        have hmerged := hown _ (appendShp_mergedFrom n first.1 rest true)
        rw [hok]
        dsimp only [CallEnd.leave]
        cases hfile : rest.foldl (appendShp n) (some ⟨some n, [first.1], true⟩) with
        | none =>
          rw [hfile] at hmerged
          exact hmerged
        | some gpkg =>
          rw [hfile] at hmerged
          have htiled := hmerged.write r.tiles r.outputPmtiles { gpkg with run := some n } rfl
          dsimp only
          split <;> exact htiled

theorem Before.initial (n : Nat) (files : Convert.Name → Option (List D)) :
    Before n (initial files) := by
  intro p b hb k hk
  obtain ⟨sources, _, rfl⟩ := Option.map_eq_some_iff.mp hb
  cases hk

/-- A run of either script reports a tile set of its own exactly when it is safe. -/
theorem step_fresh_iff {n : Nat} {st : Store D} (h : Before n st) (r : Run D) :
    (Step.mk n st r).Fresh ↔ (Step.mk n st r).Safe := by
  cases r with
  | gpkg r => exact gpkgToPmtiles_fresh_iff n r st (h.notOf _)
  | jyo r => exact run14jyo_fresh_iff n r st (h.notOf _)

theorem step_complete_iff {n : Nat} {st : Store D} (h : Before n st) (r : Run D) :
    (Step.mk n st r).Complete ↔ (Step.mk n st r).Finished := by
  cases r with
  | gpkg r => exact gpkgToPmtiles_complete_iff n r st (h.notOf _)
  | jyo r => exact run14jyo_complete_iff n r st (h.notOf _)

/-- What holds of a run with files from before it holds of every run of a history. -/
theorem steps_iff {P Q : Step D → Prop}
    (hPQ : ∀ {n : Nat} {st : Store D}, Before n st → ∀ r, P ⟨n, st, r⟩ ↔ Q ⟨n, st, r⟩)
    (files : Convert.Name → Option (List D)) (runs : List (Run D)) :
    (∀ s ∈ steps 0 (initial files) runs, P s) ↔ ∀ s ∈ steps 0 (initial files) runs, Q s := by
  have hsteps : ∀ (runs : List (Run D)) {n : Nat} {st : Store D}, Before n st →
      ∀ s ∈ steps n st runs, P s ↔ Q s := by
    intro runs
    induction runs with
    | nil => exact fun _ s hs => absurd hs List.not_mem_nil
    | cons r runs ih =>
      intro n st h s hs
      rcases List.mem_cons.mp hs with rfl | hs
      · exact hPQ h r
      · exact ih (h.exec r) s hs
  exact forall₂_congr (hsteps runs (Before.initial 0 files))

/-- **A success report means a fresh tile set** in a history exactly when no run that gets to
its first PMTiles call meets an old tile set and leaves it as it was. -/
theorem history_fresh_iff (files : Convert.Name → Option (List D)) (runs : List (Run D)) :
    (∀ s ∈ steps 0 (initial files) runs, s.Fresh) ↔
      ∀ s ∈ steps 0 (initial files) runs, s.Safe :=
  steps_iff step_fresh_iff files runs

/-- A success report means a complete tile set of the run in a history exactly when every run that
gets to its first PMTiles call finishes. -/
theorem history_complete_iff (files : Convert.Name → Option (List D)) (runs : List (Run D)) :
    (∀ s ∈ steps 0 (initial files) runs, s.Complete) ↔
      ∀ s ∈ steps 0 (initial files) runs, s.Finished :=
  steps_iff step_complete_iff files runs

theorem not_fresh_of_old {s : Step D} {b : Blob D} (hexit : (s.run.exec s.n s.before).2 = 0)
    (hout : (s.run.exec s.n s.before).1 s.run.out = some b) (hrun : b.run ≠ some s.n) :
    ¬ s.Fresh := by
  intro h
  obtain ⟨c, hc, hc', _⟩ := h hexit
  cases hout.symm.trans hc
  exact hrun hc'

/-- A GeoPackage with `data`, converted to tiles directly. -/
def directRun (data : Nat) (direct : CallEnd) : Run Nat :=
  .gpkg ⟨"out".toList, "a.gpkg".toList, some data, direct, .kept, .kept⟩

/-- A merge of one shapefile with `data`. -/
def jyoRun (data : Nat) (tiles : CallEnd) : Run Nat :=
  .jyo ⟨"out".toList, true, [(data, .ok)], tiles⟩

/-- Both scripts, run on new data after a success, report success when the PMTiles call fails
and leaves the tile set of the first run. -/
theorem stale_tiles :
    (∃ s ∈ steps 0 (initial fun _ => none) [directRun 1 .ok, directRun 2 .kept],
      s.n = 1 ∧ (s.run.exec s.n s.before).2 = 0 ∧
        (s.run.exec s.n s.before).1 s.run.out = some ⟨some 0, [1], true⟩ ∧ ¬ s.Fresh) ∧
    (∃ s ∈ steps 0 (initial fun _ => none) [jyoRun 1 .ok, jyoRun 2 .kept],
      s.n = 1 ∧ (s.run.exec s.n s.before).2 = 0 ∧
        (s.run.exec s.n s.before).1 s.run.out = some ⟨some 0, [1], true⟩ ∧ ¬ s.Fresh) := by
  constructor
  · refine ⟨_, List.mem_cons_of_mem _ List.mem_cons_self, rfl, by decide, by decide, ?_⟩
    exact not_fresh_of_old (b := ⟨some 0, [1], true⟩) (by decide) (by decide) (by decide)
  · refine ⟨_, List.mem_cons_of_mem _ List.mem_cons_self, rfl, by decide, by decide, ?_⟩
    exact not_fresh_of_old (b := ⟨some 0, [1], true⟩) (by decide) (by decide) (by decide)

end GdalFull.Pipeline.Pmtiles
