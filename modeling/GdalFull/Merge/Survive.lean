import GdalFull.Merge.GaikuLabel
import GdalFull.Merge.Python

/-!
# Files that stop a merge

The loops of the two Python drivers from the calls of `ogrinfo` on: `get_zukei` of the driver is
asked for the zone, and the file goes through the body of the loop with that. Whatever a body lets
through is counted as merged or skipped and leaves no temporary file (`runCall_counts`); a call of
`ogr2ogr` that runs into its timeout, a copy that raises and a number that `int` does not read
leave the loop (`merge_survives_iff`).
-/

namespace GdalFull.Merge

open GdalFull.Lib

variable {Src Out : Type}

/-- One `.gpkg` of the input directory, with how the external steps made for it end. -/
structure TochiInput (Src Out : Type) where
  src : Src
  info : OgrinfoEnd
  copy : CopyEnd
  proc : ProcEnd Out

/-- One `.parquet` of the input directory. -/
structure GaikuInput (Src Out : Type) where
  src : Src
  info : OgrinfoEnd
  proc : ProcEnd Out

section Loops

variable (k : Sink (Reading Src) Out) (hasOgr : Bool) (genxy : Nat → Src → Src)

/-- The body of the loop with its call of `get_zukei`, whose `ValueError` nothing catches. -/
def tochiBody (st : State Out) (f : TochiInput Src Out) : Except (State Out) (State Out) :=
  match getZukei f.info with
  | .error _ => .error st
  | .ok zukei => tochiFile k hasOgr genxy st ⟨f.src, zukei.map Int.toNat, f.copy, f.proc⟩

def gaikuBody (st : State Out) (f : GaikuInput Src Out) : Except (State Out) (State Out) :=
  match gaikuGetZukei f.info with
  | .error _ => .error st
  | .ok zukei => gaikuFile k st ⟨f.src, zukei.map Int.toNat, f.proc⟩

def tochiRun (prior : Option Out) (gpkgs : List (TochiInput Src Out)) :
    Except (State Out) (State Out) :=
  gpkgs.foldlM (tochiBody k hasOgr genxy) (.start prior)

def gaikuRun (prior : Option Out) (parquets : List (GaikuInput Src Out)) :
    Except (State Out) (State Out) :=
  parquets.foldlM (gaikuBody k) (.start prior)

end Loops

/-- The loop over `n` files runs to its end, has counted each of them and leaves no temporary
file. -/
def Survives (n : Nat) (run : Except (State Out) (State Out)) : Prop :=
  ∃ st, run = .ok st ∧ st.merged + st.skipped = n ∧ st.temps = 0

/-! ## What stops a loop -/

def ProcEnd.returned : ProcEnd Out → Bool
  | .exit _ => true
  | .timeout _ => false

/-- `get_zukei` returns, and if it returns a zone, the copy (which is made if OGR is there) does
not raise and `ogr2ogr` ends within its time. -/
def TochiInput.Harmless (hasOgr : Bool) (f : TochiInput Src Out) : Prop :=
  ∃ zukei, getZukei f.info = .ok zukei ∧
    (zukei.isSome = true → (hasOgr && f.copy.raises) = false ∧ f.proc.returned = true)

def GaikuInput.Harmless (f : GaikuInput Src Out) : Prop :=
  ∃ zukei, gaikuGetZukei f.info = .ok zukei ∧ (zukei.isSome = true → f.proc.returned = true)

theorem runCall_ok_iff {k : Sink (Reading Src) Out} {nln : String} {tSrs zukei : Nat} {src : Src}
    {proc : ProcEnd Out} {st : State Out} :
    (∃ st', runCall k nln tSrs zukei src proc st = .ok st') ↔ proc.returned = true := by
  cases proc with
  | timeout left => simp [runCall, ProcEnd.returned]
  | exit code =>
    by_cases hcode : code = 0 <;> simp [runCall, ProcEnd.returned, hcode]

theorem tochiFile_ok_iff {k : Sink (Reading Src) Out} {hasOgr : Bool} {genxy : Nat → Src → Src}
    {st : State Out} {f : TochiFile Src Out} :
    (∃ st', tochiFile k hasOgr genxy st f = .ok st') ↔
      (f.zukei.isSome = true → (hasOgr && f.copy.raises) = false ∧ f.proc.returned = true) := by
  cases hz : f.zukei with
  | none => simp [tochiFile, hz]
  | some z =>
    simp only [Option.isSome_some, forall_const]
    cases hcopy : hasOgr && f.copy.raises with
    | true =>
      obtain ⟨e, he⟩ : ∃ e, tochiFile k hasOgr genxy st f = .error e := tochiFile_raises hz hcopy
      simp [he]
    | false =>
      simp only [tochiFile_call hz hcopy, true_and]
      rw [← runCall_ok_iff]
      exact exists_map_ok_iff

theorem gaikuFile_ok_iff {k : Sink (Reading Src) Out} {st : State Out} {f : GaikuFile Src Out} :
    (∃ st', gaikuFile k st f = .ok st') ↔
      (f.zukei.isSome = true → f.proc.returned = true) := by
  unfold gaikuFile
  cases f.zukei with
  | none => simp
  | some z => simpa using runCall_ok_iff

theorem tochiBody_ok_iff {k : Sink (Reading Src) Out} {hasOgr : Bool} {genxy : Nat → Src → Src}
    (st : State Out) (f : TochiInput Src Out) :
    (∃ st', tochiBody k hasOgr genxy st f = .ok st') ↔ f.Harmless hasOgr := by
  unfold tochiBody TochiInput.Harmless
  cases getZukei f.info with
  | error e => simp
  | ok zukei =>
    dsimp only
    rw [tochiFile_ok_iff, Option.isSome_map]
    simp

theorem gaikuBody_ok_iff {k : Sink (Reading Src) Out} (st : State Out) (f : GaikuInput Src Out) :
    (∃ st', gaikuBody k st f = .ok st') ↔ f.Harmless := by
  unfold gaikuBody GaikuInput.Harmless
  cases gaikuGetZukei f.info with
  | error e => simp
  | ok zukei =>
    dsimp only
    rw [gaikuFile_ok_iff, Option.isSome_map]
    simp

/-! ## What a loop counts -/

/-- One more file is counted, and there are as many temporary files as before. -/
def Counts (st st' : State Out) : Prop :=
  st'.merged + st'.skipped = st.merged + st.skipped + 1 ∧ st'.temps = st.temps

theorem runCall_counts {k : Sink (Reading Src) Out} {nln : String} {tSrs zukei : Nat} {src : Src}
    {proc : ProcEnd Out} {st st' : State Out}
    (h : runCall k nln tSrs zukei src proc st = .ok st') : Counts st st' := by
  unfold runCall at h
  cases proc with
  | timeout left => cases h
  | exit code =>
    dsimp only at h
    split at h
    · cases h
      refine ⟨?_, rfl⟩
      dsimp only
      omega
    · cases h
      exact ⟨rfl, rfl⟩

theorem tochiFile_counts {k : Sink (Reading Src) Out} {hasOgr : Bool} {genxy : Nat → Src → Src}
    {st st' : State Out} {f : TochiFile Src Out} (h : tochiFile k hasOgr genxy st f = .ok st') :
    Counts st st' := by
  rcases tochiFile_ok h with ⟨_, rfl⟩ | ⟨z, mid, _, hcall, rfl⟩
  · exact ⟨rfl, rfl⟩
  · obtain ⟨hcount, htemps⟩ := runCall_counts hcall
    refine ⟨hcount, ?_⟩
    dsimp only at htemps ⊢
    omega

theorem gaikuFile_counts {k : Sink (Reading Src) Out} {st st' : State Out} {f : GaikuFile Src Out}
    (h : gaikuFile k st f = .ok st') : Counts st st' := by
  unfold gaikuFile at h
  cases hz : f.zukei with
  | none =>
    rw [hz] at h
    cases h
    exact ⟨rfl, rfl⟩
  | some z =>
    rw [hz] at h
    exact runCall_counts h

theorem tochiBody_counts {k : Sink (Reading Src) Out} {hasOgr : Bool} {genxy : Nat → Src → Src}
    {st st' : State Out} {f : TochiInput Src Out} (h : tochiBody k hasOgr genxy st f = .ok st') :
    Counts st st' := by
  unfold tochiBody at h
  split at h
  · cases h
  · exact tochiFile_counts h

theorem gaikuBody_counts {k : Sink (Reading Src) Out} {st st' : State Out}
    {f : GaikuInput Src Out} (h : gaikuBody k st f = .ok st') : Counts st st' := by
  unfold gaikuBody at h
  split at h
  · cases h
  · exact gaikuFile_counts h

/-! ## Whole runs -/

/-- A loop whose body counts every file that it lets through. -/
theorem survives_iff {α : Type} {body : State Out → α → Except (State Out) (State Out)}
    {fine : α → Prop} (hok : ∀ st a, (∃ st', body st a = .ok st') ↔ fine a)
    (hcounts : ∀ st st' a, body st a = .ok st' → Counts st st') (prior : Option Out)
    (xs : List α) :
    Survives xs.length (xs.foldlM body (.start prior)) ↔ ∀ a ∈ xs, fine a := by
  have hends : (∃ st, xs.foldlM body (.start prior) = .ok st) ↔ ∀ a ∈ xs, fine a :=
    foldlM_ok_iff hok
  rw [← hends]
  constructor
  · rintro ⟨st, hst, _⟩
    exact ⟨st, hst⟩
  · rintro ⟨st, hst⟩
    have hwalked : st.merged + st.skipped = xs.length ∧ st.temps = 0 := by
      refine foldlM_walked (I := fun walked (st : State Out) =>
        st.merged + st.skipped = walked.length ∧ st.temps = 0) ⟨rfl, rfl⟩ ?_ hst
      intro walked a b b' hb hbody
      obtain ⟨hcount, htemps⟩ := hcounts b b' a hbody
      rw [List.length_append, List.length_singleton]
      omega
    exact ⟨st, hst, hwalked⟩

/-- **No bad file stops a merge**, except one that `get_zukei` cannot read, whose copy raises or
whose call of `ogr2ogr` runs into its timeout. -/
theorem merge_survives_iff (k : Sink (Reading Src) Out) (prior : Option Out) :
    (∀ (hasOgr : Bool) (genxy : Nat → Src → Src) (gpkgs : List (TochiInput Src Out)),
      Survives gpkgs.length (tochiRun k hasOgr genxy prior gpkgs) ↔
        ∀ f ∈ gpkgs, f.Harmless hasOgr) ∧
    ∀ parquets : List (GaikuInput Src Out),
      Survives parquets.length (gaikuRun k prior parquets) ↔ ∀ f ∈ parquets, f.Harmless := by
  refine ⟨?_, ?_⟩
  · intro hasOgr genxy gpkgs
    exact survives_iff tochiBody_ok_iff (fun _ _ _ => tochiBody_counts) prior gpkgs
  · intro parquets
    exact survives_iff gaikuBody_ok_iff (fun _ _ _ => gaikuBody_counts) prior parquets

/-- A dump with the given value in field 5. -/
def sixthDump (value : String) : OgrinfoEnd :=
  .exited 0 (stringDump "a" ["a", "b", "c", "d", "e", value]).text []

/-- The first of two files stops the loop: `ogr2ogr` runs into its timeout and the copy stays, the
copy raises and stays, or field 5 is a superscript, for which `isdigit` is true and `int` raises.
For 街区 the first file's call runs into its timeout. -/
theorem merge_stopped :
    tochiRun (Sink.concat fun r : Reading Nat => [r.src]) true (fun _ src => src) none
        [⟨1, sixthDump "9", .written, .timeout none⟩, ⟨2, sixthDump "9", .written, .exit 0⟩] =
      .error ⟨⟨false, 0, none⟩, 0, 1⟩ ∧
    tochiRun (Sink.concat fun r : Reading Nat => [r.src]) true (fun _ src => src) none
        [⟨1, sixthDump "9", .raised true, .exit 0⟩, ⟨2, sixthDump "9", .written, .exit 0⟩] =
      .error ⟨⟨true, 0, none⟩, 0, 1⟩ ∧
    tochiRun (Sink.concat fun r : Reading Nat => [r.src]) true (fun _ src => src) none
        [⟨1, sixthDump "²", .written, .exit 0⟩, ⟨2, sixthDump "9", .written, .exit 0⟩] =
      .error ⟨⟨true, 0, none⟩, 0, 0⟩ ∧
    gaikuRun (Sink.concat fun r : Reading Nat => [r.src]) none
        [⟨1, .exited 0 nineDump.text [], .timeout none⟩, ⟨2, .timeoutExpired, .exit 0⟩] =
      .error ⟨⟨false, 0, none⟩, 0, 0⟩ := by
  decide +kernel

end GdalFull.Merge
