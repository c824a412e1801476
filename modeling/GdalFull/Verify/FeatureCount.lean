import GdalFull.Lib.MarkedNumber
import GdalFull.Merge.Zukei
import GdalFull.Verify.Count
import Mathlib.Algebra.Group.Nat.Defs

/-!
# The count in the listing of `ogrinfo`

`verify_csv_geoparquet.py` does not know the number of features of a Parquet file. It calls
`ogrinfo -so -al` and takes the first number behind `Feature Count:` in what is printed. Before
that line `ogrinfo` prints the path of the file and the name of the layer, so a file name can
hold a `Feature Count:` of its own.

`GdalFull.Verify.Count` is the verification by the numbers themselves. `status_eq_exitCode_iff`
says for which names the one by listings has the same exit status whatever the numbers are.
-/

namespace GdalFull.Verify

open GdalFull.Convert GdalFull.Lib GdalFull.Merge

def countMark : Text := "Feature Count:".toList

/-- `Feature Count:\s*(\d+)`. -/
def countPattern : Regex := markedPattern countMark

def getParquetFeatureCount : OgrinfoEnd → Except ValueError (Option Int)
  | .fileNotFound => .ok none
  | .timeoutExpired => .ok none
  | .exited returncode stdout _ =>
    if returncode ≠ 0 then .ok none
    else
      match countPattern.search stdout with
      | none => .ok none
      | some digits =>
        match pyInt digits with
        | none => .error .valueError
        | some n => .ok (some n)

/-- The line that is printed for a pair, with the counts in it. -/
inductive Verdict where
  | csvUnread
  | miss (csvCount : Nat)
  | parquetUnread (csvCount : Nat)
  | ok (csvCount : Nat)
  | ng (csvCount : Nat) (pqCount : Int)
  deriving DecidableEq

/-- The rows of the CSV file of a pair. -/
def pairRows (c : Source × Option Text) : Option Nat :=
  c.2.map fun text => countCsvRows text (hasHeader c.1.dataset)

/-- The body of the loop over the pairs. `ogrinfo` is `none` at a path where there is no file. -/
def checkPair (ogrinfo : Name → Option OgrinfoEnd) (c : Source × Option Text) :
    Except ValueError Verdict :=
  match pairRows c with
  | none => .ok .csvUnread
  | some csvCount =>
    match ogrinfo (parquetPath c.1) with
    | none => .ok (.miss csvCount)
    | some call => do
      match ← getParquetFeatureCount call with
      | none => return .parquetUnread csvCount
      | some pqCount =>
        return if (csvCount : Int) = pqCount then .ok csvCount else .ng csvCount pqCount

def Verdict.isOk : Verdict → Bool
  | .ok _ => true
  | _ => false

def countVerdict (ogrinfo : Name → Option OgrinfoEnd) (n : Nat × Nat) (c : Source × Option Text) :
    Except ValueError (Nat × Nat) := do
  let verdict ← checkPair ogrinfo c
  return if verdict.isOk then (n.1 + 1, n.2) else (n.1, n.2 + 1)

/-- The counters `ok` and `ng` after the loop. -/
def reportLoop (ogrinfo : Name → Option OgrinfoEnd) (pairs : List (Source × Option Text)) :
    Except ValueError (Nat × Nat) :=
  pairs.foldlM (countVerdict ogrinfo) (0, 0)

/-- The exit status. Python ends with 1 after an exception that nothing catches. -/
def exitStatus (ogrinfo : Name → Option OgrinfoEnd) (pairs : List (Source × Option Text)) : Nat :=
  match reportLoop ogrinfo pairs with
  | .ok n => if n.2 = 0 then 0 else 1
  | .error _ => 1

/-! ## The loop -/

section Loop

variable {ogrinfo : Name → Option OgrinfoEnd}

variable (ogrinfo) in
/-- The verdict on a pair is `[OK]`. -/
def Accepted (c : Source × Option Text) : Prop :=
  ∃ csvCount, checkPair ogrinfo c = .ok (.ok csvCount)

/-- A pair that is accepted counts as such; another one counts as a failure or ends the loop. -/
theorem countVerdict_cases (n : Nat × Nat) (c : Source × Option Text) :
    Accepted ogrinfo c ∧ countVerdict ogrinfo n c = .ok (n.1 + 1, n.2) ∨
      ¬ Accepted ogrinfo c ∧ (countVerdict ogrinfo n c = .ok (n.1, n.2 + 1) ∨
        ∃ e, countVerdict ogrinfo n c = .error e) := by
  unfold countVerdict Accepted
  cases checkPair ogrinfo c with
  | error e => exact Or.inr ⟨by simp, Or.inr ⟨e, rfl⟩⟩
  | ok verdict =>
    cases verdict with
    | ok csvCount => exact Or.inl ⟨⟨csvCount, rfl⟩, rfl⟩
    | _ => exact Or.inr ⟨by simp, Or.inl rfl⟩

/-- The counter of the failures never goes down. -/
theorem foldlM_countVerdict {pairs : List (Source × Option Text)} (ok ng : Nat) :
    (∃ n, pairs.foldlM (countVerdict ogrinfo) (ok, ng) = .ok (n, 0)) ↔
      ng = 0 ∧ ∀ c ∈ pairs, Accepted ogrinfo c := by
  induction pairs generalizing ok ng with
  | nil => simp [pure, Except.pure]
  | cons c pairs ih =>
    rw [List.foldlM_cons, List.forall_mem_cons]
    obtain ⟨hacc, hstep⟩ | ⟨hacc, hstep | ⟨e, hstep⟩⟩ := countVerdict_cases (ok, ng) c
    · rw [hstep]
      refine (ih (ok + 1) ng).trans ?_
      rw [and_iff_right hacc]
    · rw [hstep]
      refine (ih ok (ng + 1)).trans ?_
      simp [hacc]
    · rw [hstep]
      simp [hacc, bind, Except.bind]

theorem exitStatus_eq_zero_iff {pairs : List (Source × Option Text)} :
    exitStatus ogrinfo pairs = 0 ↔ ∀ c ∈ pairs, Accepted ogrinfo c := by
  have hloop : (∃ n, reportLoop ogrinfo pairs = .ok (n, 0)) ↔ ∀ c ∈ pairs, Accepted ogrinfo c :=
    (foldlM_countVerdict 0 0).trans (and_iff_right rfl)
  rw [← hloop, exitStatus]
  cases reportLoop ogrinfo pairs with
  | error e => simp
  | ok n =>
    obtain ⟨ok, ng⟩ := n
    by_cases hng : ng = 0 <;> simp [hng]

theorem exitStatus_le_one (pairs : List (Source × Option Text)) :
    exitStatus ogrinfo pairs ≤ 1 := by
  unfold exitStatus
  split
  · split <;> omega
  · omega

end Loop

/-! ## Listings -/

/-- What `ogrinfo` prints for the file at a path besides the number: the text up to the line with
the number (the path, the driver, the layer name, the geometry type), the text behind it, and the
messages. -/
structure Summary where
  head : Name → Text
  rest : Name → Text
  stderr : Name → Text

/-- The listing of a file with `n` features. -/
def Summary.stdout (s : Summary) (path : Name) (n : Nat) : Text :=
  s.head path ++ (countMark ++ (' ' :: (Nat.toDigits 10 n ++ '\n' :: s.rest path)))

/-- `ogrinfo` on the output folders. -/
def Summary.ogrinfo (s : Summary) (out : OutTree) (path : Name) : Option OgrinfoEnd :=
  (out.count path).map fun n => .exited 0 (s.stdout path n) (s.stderr path)

/-- The text before the number has no number of its own behind a `Feature Count:`. -/
def Summary.Plain (s : Summary) (path : Name) : Prop :=
  countPattern.search (s.head path) = none

instance (s : Summary) (path : Name) : Decidable (s.Plain path) :=
  inferInstanceAs (Decidable (_ = _))

theorem search_stdout (s : Summary) (path : Name) (n : Nat) :
    countPattern.search (s.stdout path n) =
      (countPattern.search (s.head path)).or (some (Nat.toDigits 10 n)) := by
  have hnumber : countPattern.search (countMark ++ (' ' :: (Nat.toDigits 10 n ++
      '\n' :: s.rest path))) = some (Nat.toDigits 10 n) :=
    search_number (by intro c hc; cases hc; decide) n
  have hletter : 'F' ∉ "eature Count:".toList := by decide
  have hsplit := search_marked hletter (by decide) (by decide) (s.head path)
    ("eature Count:".toList ++ (' ' :: (Nat.toDigits 10 n ++ '\n' :: s.rest path)))
  exact hsplit.trans (congrArg _ hnumber)

/-- Feature counts are 64-bit integers. -/
def Int64Counts (out : OutTree) : Prop :=
  ∀ path n, out.count path = some n → n < 2 ^ 63

theorem pyInt_count {n : Nat} (h : n < 2 ^ 63) : pyInt (Nat.toDigits 10 n) = some (n : Int) := by
  apply pyInt_toDigits
  have hlen : (Nat.toDigits 10 n).length ≤ 19 :=
    (Nat.length_toDigits_le_iff (by decide) (by decide)).mpr (by omega)
  exact hlen.trans (by decide)

/-- The number that is read from the listing of a file with `n` features; `none` is a
`ValueError`. -/
def Summary.reads (s : Summary) (path : Name) (n : Nat) : Option Int :=
  match countPattern.search (s.head path) with
  | none => some n
  | some digits => pyInt digits

theorem reads_plain {s : Summary} {path : Name} (h : s.Plain path) (n : Nat) :
    s.reads path n = some (n : Int) := by
  rw [Summary.reads, show countPattern.search (s.head path) = none from h]

/-- In a text that is not plain the number does not matter. -/
theorem reads_not_plain {s : Summary} {path : Name} (h : ¬ s.Plain path) (m n : Nat) :
    s.reads path m = s.reads path n := by
  obtain ⟨digits, hdigits⟩ := Option.ne_none_iff_exists'.mp h
  rw [Summary.reads, hdigits, Summary.reads, hdigits]

theorem getParquetFeatureCount_stdout (s : Summary) (path : Name) {n : Nat} (h : n < 2 ^ 63)
    (stderr : Text) :
    getParquetFeatureCount (.exited 0 (s.stdout path n) stderr) =
      match s.reads path n with
      | none => .error .valueError
      | some z => .ok (some z) := by
  rw [getParquetFeatureCount, if_neg (by decide), search_stdout, Summary.reads]
  cases countPattern.search (s.head path) with
  | none =>
    simp only [Option.none_or, pyInt_count h]
  | some digits => rfl

/-! ## The verdicts -/

theorem accepted_iff {s : Summary} {out : OutTree} (hout : Int64Counts out)
    {c : Source × Option Text} :
    Accepted (s.ogrinfo out) c ↔ ∃ rows n, pairRows c = some rows ∧
      out.count (parquetPath c.1) = some n ∧ s.reads (parquetPath c.1) n = some (rows : Int) := by
  unfold Accepted checkPair
  cases pairRows c with
  | none => simp
  | some rows =>
    cases hcount : out.count (parquetPath c.1) with
    | none => simp [Summary.ogrinfo, hcount]
    | some n =>
      simp only [Summary.ogrinfo, hcount, Option.map_some,
        getParquetFeatureCount_stdout s _ (hout _ n hcount)]
      cases hreads : s.reads (parquetPath c.1) n with
      | none => simp [bind, Except.bind, hreads]
      | some z =>
        by_cases hz : (rows : Int) = z
        · simp [bind, Except.bind, pure, Except.pure, hreads, hz]
        · simp [bind, Except.bind, pure, Except.pure, hreads, hz, Ne.symm hz]

theorem passes_iff {out : OutTree} {c : Source × Option Text} :
    passes out c = true ↔ ∃ rows, pairRows c = some rows ∧
      out.count (parquetPath c.1) = some rows := by
  unfold passes pairRows
  cases c.2 <;> simp

/-- A path with a plain text is judged by the number itself. -/
theorem accepted_plain {s : Summary} {out : OutTree} (hout : Int64Counts out)
    {c : Source × Option Text} (h : s.Plain (parquetPath c.1)) :
    Accepted (s.ogrinfo out) c ↔ passes out c = true := by
  rw [accepted_iff hout, passes_iff]
  constructor
  · rintro ⟨rows, n, hrows, hcount, hreads⟩
    rw [reads_plain h] at hreads
    have hn : n = rows := by
      have := Option.some.inj hreads
      omega
    exact ⟨rows, hrows, hn ▸ hcount⟩
  · rintro ⟨rows, hrows, hcount⟩
    exact ⟨rows, rows, hrows, hcount, reads_plain h rows⟩

/-! ## The pairs of a tree -/

/-- The output folders, still empty. -/
def emptyFolders (dirs : Dataset → Bool) : OutTree where
  dirs := dirs
  count := fun _ => none
  wf := by simp

/-- The pairs depend on which output folders are there, not on the files in them. -/
def pairsOf (tree : InputTree Text) (dirs : Dataset → Bool) : List (Source × Option Text) :=
  checks tree (emptyFolders dirs)

/-- The Parquet files of the pairs with given numbers of features. -/
def numbered (tree : InputTree Text) (dirs : Dataset → Bool) (f : Name → Nat) : OutTree where
  dirs := dirs
  count := fun path =>
    if (pairsOf tree dirs).any fun c => parquetPath c.1 == path then some (f path) else none
  wf := by
    intro d name h
    split at h
    · rename_i hany
      obtain ⟨c, hc, hpath⟩ := List.any_eq_true.mp hany
      have hd : c.1.dataset = d := folder_append_inj (eq_of_beq hpath)
      exact hd ▸ (mem_sources_of_mem_checks hc).1
    · cases h

theorem numbered_count {tree : InputTree Text} {dirs : Dataset → Bool} {c : Source × Option Text}
    (hc : c ∈ pairsOf tree dirs) (f : Name → Nat) :
    (numbered tree dirs f).count (parquetPath c.1) = some (f (parquetPath c.1)) := by
  apply if_pos
  exact List.any_eq_true.mpr ⟨c, hc, beq_self_eq_true (parquetPath c.1)⟩

theorem int64Counts_numbered {tree : InputTree Text} {dirs : Dataset → Bool} {f : Name → Nat}
    (hf : ∀ path, f path < 2 ^ 63) : Int64Counts (numbered tree dirs f) := by
  intro path n hn
  obtain ⟨-, hn⟩ := Option.ite_none_right_eq_some.mp hn
  have := hf path
  have := Option.some.inj hn
  omega

/-- No numbers let all pairs pass: a CSV file cannot be read, or two CSV files with different rows
are compared with one Parquet file. -/
def Hopeless (pairs : List (Source × Option Text)) : Prop :=
  (∃ c ∈ pairs, pairRows c = none) ∨
    ∃ c ∈ pairs, ∃ c' ∈ pairs, parquetPath c.1 = parquetPath c'.1 ∧ pairRows c ≠ pairRows c'

/-- The rows of the first pair of a path. -/
def rowsAt (pairs : List (Source × Option Text)) (path : Name) : Nat :=
  ((pairs.find? fun c => parquetPath c.1 == path).bind pairRows).getD 0

theorem rowsAt_eq {pairs : List (Source × Option Text)} (h : ¬ Hopeless pairs)
    {c : Source × Option Text} (hc : c ∈ pairs) :
    pairRows c = some (rowsAt pairs (parquetPath c.1)) := by
  have hsome : (pairs.find? fun c' => parquetPath c'.1 == parquetPath c.1).isSome = true :=
    List.find?_isSome.mpr ⟨c, hc, beq_self_eq_true (parquetPath c.1)⟩
  obtain ⟨c', hfind⟩ := Option.isSome_iff_exists.mp hsome
  have hfound := List.find?_some hfind
  have hpath : parquetPath c'.1 = parquetPath c.1 := eq_of_beq hfound
  have hsame : pairRows c' = pairRows c := by
    by_contra hne
    exact h (Or.inr ⟨c', List.mem_of_find?_eq_some hfind, c, hc, hpath, hne⟩)
  have hread : pairRows c ≠ none := fun hnone => h (Or.inl ⟨c, hc, hnone⟩)
  obtain ⟨rows, hrows⟩ := Option.ne_none_iff_exists'.mp hread
  rw [rowsAt, hfind, Option.bind_some, hsame, hrows, Option.getD_some]

theorem rowsAt_lt {pairs : List (Source × Option Text)} {bound : Nat} (hpos : 0 < bound)
    (h : ∀ c ∈ pairs, ∀ n, pairRows c = some n → n < bound) (path : Name) :
    rowsAt pairs path < bound := by
  unfold rowsAt
  cases hfind : pairs.find? fun c => parquetPath c.1 == path with
  | none => exact hpos
  | some c =>
    rw [Option.bind_some]
    cases hrows : pairRows c with
    | none => exact hpos
    | some n => exact h c (List.mem_of_find?_eq_some hfind) n hrows

/-- Pairs that are all judged by one number for each path are not hopeless. -/
theorem not_hopeless {pairs : List (Source × Option Text)} (value : Name → Option Int)
    (h : ∀ c ∈ pairs, ∃ rows : Nat, pairRows c = some rows ∧
      value (parquetPath c.1) = some (rows : Int)) : ¬ Hopeless pairs := by
  rintro (⟨c, hc, hnone⟩ | ⟨c, hc, c', hc', hpath, hne⟩)
  · obtain ⟨rows, hrows, _⟩ := h c hc
    rw [hnone] at hrows
    cases hrows
  · obtain ⟨rows, hrows, hvalue⟩ := h c hc
    obtain ⟨rows', hrows', hvalue'⟩ := h c' hc'
    rw [hpath, hvalue'] at hvalue
    have heq : rows' = rows := Int.ofNat.inj (Option.some.inj hvalue)
    exact hne (by rw [hrows, hrows', heq])

/-! ## The exit status -/

section Status

variable {s : Summary} {tree : InputTree Text} {out : OutTree}

theorem exitStatus_eq_iff {ogrinfo : Name → Option OgrinfoEnd} :
    exitStatus ogrinfo (checks tree out) = exitCode tree out ↔
      ((∀ c ∈ checks tree out, Accepted ogrinfo c) ↔
        ∀ c ∈ checks tree out, passes out c = true) := by
  rw [← exitStatus_eq_zero_iff, ← exitCode_eq_zero_iff]
  have hstatus : exitStatus ogrinfo (checks tree out) ≤ 1 := exitStatus_le_one _
  have hcode : exitCode tree out ≤ 1 := by
    unfold exitCode
    split <;> omega
  omega

theorem not_hopeless_of_passes (h : ∀ c ∈ checks tree out, passes out c = true) :
    ¬ Hopeless (checks tree out) := by
  apply not_hopeless fun path => (out.count path).map Int.ofNat
  intro c hc
  obtain ⟨rows, hrows, hcount⟩ := passes_iff.mp (h c hc)
  refine ⟨rows, hrows, ?_⟩
  rw [hcount]
  rfl

theorem not_hopeless_of_accepted (hout : Int64Counts out) {pairs : List (Source × Option Text)}
    (h : ∀ c ∈ pairs, Accepted (s.ogrinfo out) c) : ¬ Hopeless pairs := by
  apply not_hopeless fun path => (out.count path).bind (s.reads path)
  intro c hc
  obtain ⟨rows, n, hrows, hcount, hreads⟩ := (accepted_iff hout).mp (h c hc)
  exact ⟨rows, hrows, by rw [hcount, Option.bind_some, hreads]⟩

end Status

section Numbered

variable {s : Summary} {tree : InputTree Text} {dirs : Dataset → Bool}

/-- With the right numbers all pairs pass. -/
theorem passes_numbered (h : ¬ Hopeless (pairsOf tree dirs)) :
    ∀ c ∈ pairsOf tree dirs, passes (numbered tree dirs (rowsAt (pairsOf tree dirs))) c = true :=
  fun _ hc => passes_iff.mpr ⟨_, rowsAt_eq h hc, numbered_count hc _⟩

theorem accepted_numbered_iff {f : Name → Nat} (hf : ∀ path, f path < 2 ^ 63)
    {c : Source × Option Text} (hc : c ∈ pairsOf tree dirs) :
    Accepted (s.ogrinfo (numbered tree dirs f)) c ↔ ∃ rows : Nat, pairRows c = some rows ∧
      s.reads (parquetPath c.1) (f (parquetPath c.1)) = some (rows : Int) := by
  rw [accepted_iff (int64Counts_numbered hf), numbered_count hc]
  simp

theorem update_lt {f : Name → Nat} {bound : Nat} (hf : ∀ path, f path < bound) {path : Name}
    {n : Nat} (hn : n < bound) : ∀ p, Function.update f path n p < bound := by
  intro p
  rw [Function.update_apply]
  split
  · exact hn
  · exact hf p

/-- Another number for a path whose text is not plain is not noticed. -/
theorem accepted_update {f : Name → Nat} (hf : ∀ path, f path < 2 ^ 63) {path : Name}
    (hpath : ¬ s.Plain path) {n : Nat} (hn : n < 2 ^ 63) {c : Source × Option Text}
    (hc : c ∈ pairsOf tree dirs) (h : Accepted (s.ogrinfo (numbered tree dirs f)) c) :
    Accepted (s.ogrinfo (numbered tree dirs (Function.update f path n))) c := by
  rw [accepted_numbered_iff hf hc] at h
  rw [accepted_numbered_iff (update_lt hf hn) hc]
  obtain ⟨rows, hrows, hreads⟩ := h
  refine ⟨rows, hrows, ?_⟩
  by_cases heq : parquetPath c.1 = path
  · rw [heq] at hreads ⊢
    rwa [reads_not_plain hpath _ (f path)]
  · rwa [Function.update_of_ne heq]

/-- A number that is not the given one. -/
def wrongCount (n : Nat) : Nat := if n = 0 then 1 else 0

theorem wrongCount_ne (n : Nat) : wrongCount n ≠ n := by
  unfold wrongCount
  split <;> omega

theorem wrongCount_lt (n : Nat) : wrongCount n < 2 ^ 63 := by
  unfold wrongCount
  split <;> omega

end Numbered

/-- **The exit status by listings.** Take CSV files with fewer than 2^63 rows and any texts that
`ogrinfo` prints around the numbers. The exit status is that of the comparison with the feature
counts, whatever these are, exactly if no text before a number has a `Feature Count:` with a number
behind it, or the pairs cannot all pass anyway. -/
theorem status_eq_exitCode_iff (s : Summary) (tree : InputTree Text) (dirs : Dataset → Bool)
    (hrows : ∀ c ∈ pairsOf tree dirs, ∀ n, pairRows c = some n → n < 2 ^ 63) :
    (∀ out : OutTree, out.dirs = dirs → Int64Counts out →
        exitStatus (s.ogrinfo out) (checks tree out) = exitCode tree out) ↔
      Hopeless (pairsOf tree dirs) ∨ ∀ c ∈ pairsOf tree dirs, s.Plain (parquetPath c.1) := by
  constructor
  · intro h
    by_contra hnot
    obtain ⟨hhope, hplain⟩ := not_or.mp hnot
    push Not at hplain
    obtain ⟨c, hc, hmisled⟩ := hplain
    have hbound := rowsAt_lt (Nat.two_pow_pos 63) hrows
    have hagree : ∀ f : Name → Nat, (∀ path, f path < 2 ^ 63) →
        ((∀ c ∈ pairsOf tree dirs, Accepted (s.ogrinfo (numbered tree dirs f)) c) ↔
          ∀ c ∈ pairsOf tree dirs, passes (numbered tree dirs f) c = true) :=
      fun f hf => exitStatus_eq_iff.mp (h (numbered tree dirs f) rfl (int64Counts_numbered hf))
    -- With the right numbers everything passes, so the number in the text is the right one too.
    have hright := (hagree _ hbound).mpr (passes_numbered hhope)
    -- A wrong number for the misleading path is then not noticed.
    have hlt := wrongCount_lt (rowsAt (pairsOf tree dirs) (parquetPath c.1))
    have hblind := (hagree _ (update_lt hbound hlt)).mp fun c' hc' =>
      accepted_update hbound hmisled hlt hc' (hright c' hc')
    obtain ⟨rows, hsame, hcount⟩ := passes_iff.mp (hblind c hc)
    rw [numbered_count hc, Function.update_self] at hcount
    rw [rowsAt_eq hhope hc, ← hcount] at hsame
    exact wrongCount_ne _ (Option.some.inj hsame).symm
  · rintro (hhope | hplain) out rfl hout
    · rw [exitStatus_eq_iff]
      exact iff_of_false (fun h => not_hopeless_of_accepted hout h hhope)
        (fun h => not_hopeless_of_passes h hhope)
    · rw [exitStatus_eq_iff]
      exact forall₂_congr fun c hc => accepted_plain hout (hplain c hc)

/-- What `ogrinfo` prints for a Parquet file: its path, and its base name as the layer name. -/
def parquetSummary : Summary where
  head := fun path =>
    let file := (path.reverse.takeWhile (· != '/')).reverse
    "INFO: Open of `".toList ++ path ++
      "'\n      using driver `Parquet' successful.\n\nLayer name: ".toList ++
      file.take (file.length - 8) ++ "\nGeometry: Unknown (any)\n".toList
  rest := fun _ => []
  stderr := fun _ => []

/-- One CSV file of 土地活用 with two records. -/
def oneFile (name : Name) : InputTree Text
  | .tochi => some ⟨[(name, .file "1,2\r\n3,4\r\n".toList)], by simp⟩
  | _ => none

theorem pairRows_oneFile {name : Name} {c : Source × Option Text}
    (hc : c ∈ pairsOf (oneFile name) fun _ => true) : pairRows c = some 2 := by
  obtain ⟨d, hc⟩ := mem_checks.mp hc
  obtain ⟨folder, htree, -, hc⟩ := mem_checkBlock.mp hc
  cases d <;> cases htree
  obtain ⟨hkozu, -⟩ | ⟨-, hc⟩ := hc
  · cases hkozu
  · obtain ⟨x, hx, hfile⟩ := List.mem_filterMap.mp hc
    rw [List.mem_singleton.mp hx] at hfile
    cases (Option.ite_none_right_eq_some.mp hfile).2
    show some (countCsvRows "1,2\r\n3,4\r\n".toList false) = some 2
    decide

theorem oneFile_lt (name : Name) : ∀ c ∈ pairsOf (oneFile name) (fun _ => true), ∀ n,
    pairRows c = some n → n < 2 ^ 63 := by
  intro c hc n hn
  rw [pairRows_oneFile hc] at hn
  have := Option.some.inj hn
  omega

theorem not_hopeless_oneFile (name : Name) :
    ¬ Hopeless (pairsOf (oneFile name) fun _ => true) :=
  not_hopeless (fun _ => some 2) fun _ hc => ⟨2, pairRows_oneFile hc, rfl⟩

/-- Under its usual name a file is judged by its feature count; a file that is called
`Feature Count: 2.csv` is not. -/
theorem status_eq_exitCode_names :
    (∀ out : OutTree, out.dirs = (fun _ => true) → Int64Counts out →
      exitStatus (parquetSummary.ogrinfo out) (checks (oneFile "TH_01103.csv".toList) out) =
        exitCode (oneFile "TH_01103.csv".toList) out) ∧
    ¬ ∀ out : OutTree, out.dirs = (fun _ => true) → Int64Counts out →
      exitStatus (parquetSummary.ogrinfo out) (checks (oneFile "Feature Count: 2.csv".toList) out) =
        exitCode (oneFile "Feature Count: 2.csv".toList) out := by
  constructor
  · apply (status_eq_exitCode_iff parquetSummary (oneFile _) _ (oneFile_lt _)).mpr
    exact Or.inr (by decide +kernel)
  · rw [status_eq_exitCode_iff parquetSummary (oneFile _) _ (oneFile_lt _), not_or]
    exact ⟨not_hopeless_oneFile _, by decide +kernel⟩

end GdalFull.Verify
