import GdalFull.Merge.GaikuLabel

/-!
# Numbers that stop the lookup of a zone

Both `get_zukei` hand texts of digits to `int`: those for which `isdigit` is true, and those that
`\d+` matches. `isdigit` is also true for superscripts and the like, which `int` rejects, and `int`
rejects numerals of more than 4300 digits. `zukei_returns_iff` says that a lookup returns if no such
text stands in the dump, and which values of the dump make it raise.
-/

namespace GdalFull.Merge

open GdalFull.Lib GdalFull.Convert

/-- The function returns `None` or an integer from 1 to 19. -/
def Returns (r : Except ValueError (Option Int)) : Prop :=
  ∃ zone, r = .ok zone ∧ ∀ z ∈ zone, 1 ≤ z ∧ z ≤ 19

/-- The text that is searched: what `ogrinfo` prints if it exits with status 0. -/
def OgrinfoEnd.searched : OgrinfoEnd → Option Text
  | .fileNotFound => none
  | .timeoutExpired => none
  | .exited returncode stdout stderr => if returncode = 0 then some (stdout ++ stderr) else none

/-- `int` reads every text of digits that stands in the text. -/
def Readable (txt : Text) : Prop :=
  ∀ v, v <:+: txt → isDigits v = true → IntReads v

/-- The first number after `座標系` is not too long for `int`. -/
def LabelReads (txt : Text) : Prop :=
  ∀ digits, FirstLabelled zukeiLabel txt digits → digits.length ≤ intMaxStrDigits

/-- `int` reads the digits that are met when earlier values are passed over. -/
def LoopReads (values : List Text) : Prop :=
  ∀ earlier v later, values = earlier ++ v :: later → (∀ w ∈ earlier, PassedOver w) →
    isDigits v = true → IntReads v

/-- What `get_zukei` of `merge_tochi_geopackage.py` reads: what stands for the value with index 5,
and the first number after `座標系` if that value is passed over. -/
structure Dump.SixthReads (d : Dump) : Prop where
  value : ∀ v, d.listed[5]? = some v → isDigits v = true → IntReads v
  label : (∀ v, d.listed[5]? = some v → PassedOver v) → LabelReads d.text

/-- What `get_zukei` of `merge_gaiku_geoparquet.py` reads: the first number after `座標系`, and what
stands for the values with index 8 to 13 if there is none. -/
structure Dump.WindowReads (d : Dump) : Prop where
  label : LabelReads d.text
  loop : (∀ digits, ¬ FirstLabelled zukeiLabel d.text digits) → LoopReads (window d.listed)

theorem returns_none : Returns (.ok none) := ⟨none, rfl, by simp⟩

theorem not_returns_error (e : ValueError) : ¬ Returns (.error e) := by
  rintro ⟨zone, h, _⟩
  cases h

/-! ## Single texts -/

theorem returns_intZone_iff {s : Text} : Returns (intZone s) ↔ (pyInt s).isSome = true := by
  unfold intZone Returns
  cases pyInt s with
  | none => simp
  | some z =>
    refine iff_of_true ⟨zoneRange z, rfl, ?_⟩ rfl
    intro w hw
    exact zoneRange_eq_some hw

theorem returns_digitsZone_iff {v : Text} :
    Returns (digitsZone v) ↔ (isDigits v = true → IntReads v) := by
  unfold digitsZone
  split
  · rename_i h
    rw [returns_intZone_iff, pyInt_isSome_iff h, forall_prop_of_true h]
  · rename_i h
    exact iff_of_true returns_none fun hdigits => absurd hdigits h

/-- Digits after `座標系` are only too long for `int`. -/
theorem returns_label_iff {txt digits : Text} (h : FirstLabelled zukeiLabel txt digits) :
    Returns (intZone digits) ↔ LabelReads txt := by
  have hsearch := search_label_iff.mpr h
  have hdigits := isDigits_of_decimal h.digits_ne h.decimal
  rw [returns_intZone_iff, pyInt_isSome_iff hdigits, IntReads, and_iff_right h.decimal, LabelReads]
  simp only [← search_label_iff, hsearch, Option.some.injEq, forall_eq']

theorem returns_labelZone_iff {txt : Text} : Returns (labelZone txt) ↔ LabelReads txt := by
  unfold labelZone
  cases h : labelPattern.search txt with
  | none =>
    refine iff_of_true returns_none fun digits hdigits => ?_
    exact absurd hdigits (search_label_none_iff.mp h digits)
  | some digits => exact returns_label_iff (search_label_iff.mp h)

/-- A value that stands before something else. -/
theorem returns_orElse_iff {v : Text} {rest : Except ValueError (Option Int)} :
    Returns (match digitsZone v with
      | .ok none => rest
      | found => found) ↔
      (isDigits v = true → IntReads v) ∧ (PassedOver v → Returns rest) := by
  rw [← returns_digitsZone_iff, ← digitsZone_eq_none_iff]
  cases digitsZone v with
  | error e => exact iff_of_false (not_returns_error e) fun h => not_returns_error e h.1
  | ok found =>
    cases found with
    | none => simp [returns_none]
    | some z => simp

theorem returns_zoneOf_iff {val : Option Text} {txt : Text} :
    Returns (zoneOf val txt) ↔
      (∀ v, val = some v → isDigits v = true → IntReads v) ∧
        ((∀ v, val = some v → PassedOver v) → LabelReads txt) := by
  rw [← returns_labelZone_iff]
  cases val with
  | none => simp [zoneOf]
  | some v =>
    simp only [Option.some.injEq, forall_eq']
    exact returns_orElse_iff

/-! ## The loops -/

theorem loopReads_cons {v : Text} {values : List Text} :
    LoopReads (v :: values) ↔
      (isDigits v = true → IntReads v) ∧ (PassedOver v → LoopReads values) := by
  constructor
  · intro h
    refine ⟨h [] v values rfl (List.forall_mem_nil _), ?_⟩
    intro hv earlier w later heq hearlier
    exact h (v :: earlier) w later (congrArg _ heq) (List.forall_mem_cons.mpr ⟨hv, hearlier⟩)
  · rintro ⟨hv, hvalues⟩ earlier w later heq hearlier
    cases earlier with
    | nil =>
      obtain ⟨rfl, _⟩ := List.cons.inj heq
      exact hv
    | cons e earlier =>
      obtain ⟨rfl, hrest⟩ := List.cons.inj heq
      obtain ⟨he, hearlier⟩ := List.forall_mem_cons.mp hearlier
      exact hvalues he earlier w later hrest hearlier

theorem returns_firstZone_iff {values : List Text} :
    Returns (firstZone digitsZone values) ↔ LoopReads values := by
  induction values with
  | nil =>
    refine iff_of_true returns_none ?_
    intro earlier v later h
    cases earlier <;> cases h
  | cons v values ih =>
    rw [firstZone, loopReads_cons, ← ih]
    exact returns_orElse_iff

theorem returns_gaikuShows_iff {txt : Text} {values : List Text} :
    (∃ zone, GaikuShows txt values zone ∧ ∀ z ∈ zone, 1 ≤ z ∧ z ≤ 19) ↔
      LabelReads txt ∧
        ((∀ digits, ¬ FirstLabelled zukeiLabel txt digits) → LoopReads values) := by
  unfold GaikuShows
  cases hsearch : labelPattern.search txt with
  | none =>
    have hnone := search_label_none_iff.mp hsearch
    have hreads : LabelReads txt := fun digits hdigits => absurd hdigits (hnone digits)
    simp only [hnone, false_and, exists_false, not_false_eq_true, implies_true, true_and, false_or,
      hreads, forall_const, ← firstZone_eq_ok_iff]
    exact returns_firstZone_iff
  | some digits =>
    have hfirst := search_label_iff.mp hsearch
    have hsome : ¬ ∀ digits, ¬ FirstLabelled zukeiLabel txt digits := fun h => h digits hfirst
    have hshow : ∀ zone, (∃ digits z, FirstLabelled zukeiLabel txt digits ∧ pyInt digits = some z ∧
        zone = zoneRange z) ↔ intZone digits = .ok zone := by
      intro zone
      simp only [← search_label_iff, hsearch, Option.some.injEq, intZone_eq_ok_iff]
      simp
    simp only [hsome, false_and, or_false, false_implies, and_true, hshow]
    exact returns_label_iff hfirst

/-! ## The two functions -/

theorem returns_gaiku_iff (stdout stderr : Text) :
    Returns (gaikuGetZukei (.exited 0 stdout stderr)) ↔
      LabelReads (stdout ++ stderr) ∧
        ((∀ digits, ¬ FirstLabelled zukeiLabel (stdout ++ stderr) digits) →
          LoopReads (triedValues (stdout ++ stderr) (firstVals (stdout ++ stderr)))) := by
  rw [← returns_gaikuShows_iff]
  simp only [Returns, gaikuGetZukei_eq_ok_iff rfl]

theorem attrVals_within {block v : Text} (h : v ∈ attrVals block) : v <:+: block := by
  obtain ⟨line, hline, hsearch⟩ := List.mem_filterMap.mp h
  obtain ⟨g, hg, rfl⟩ := Option.map_eq_some_iff.mp hsearch
  have hstrip : strip g <:+: g :=
    (List.rdropWhile_prefix isSpace _).isInfix.trans (List.dropWhile_suffix isSpace).isInfix
  exact hstrip.trans ((Regex.search_within hg).trans (infix_of_mem_splitlines hline))

theorem firstVals_within {txt v : Text} (h : v ∈ firstVals txt) : v <:+: txt := by
  unfold firstVals at h
  cases hblock : featurePattern.search txt with
  | none =>
    rw [hblock] at h
    cases h
  | some block =>
    rw [hblock] at h
    exact (attrVals_within h).trans (Regex.search_within hblock)

theorem triedValues_within {txt v : Text} (h : v ∈ triedValues txt (firstVals txt)) :
    v <:+: txt := by
  rcases List.mem_append.mp h with h | h
  · obtain ⟨idx, _, hidx⟩ := List.mem_filterMap.mp h
    obtain ⟨name, _, hsearch⟩ := Option.bind_eq_some_iff.mp hidx
    exact Regex.search_within hsearch
  · obtain ⟨i, _, hi⟩ := List.mem_filterMap.mp h
    exact firstVals_within (List.mem_of_getElem? hi)

/-- Digits after `座標系` stand in the text, so that `int` reads them. -/
theorem labelReads_of_readable {txt : Text} (h : Readable txt) : LabelReads txt := by
  intro digits hfirst
  have hdigits := isDigits_of_decimal hfirst.digits_ne hfirst.decimal
  exact (h digits (Regex.search_within (search_label_iff.mpr hfirst)) hdigits).2

theorem returns_of_readable {stdout stderr : Text} (h : Readable (stdout ++ stderr)) :
    Returns (getZukei (.exited 0 stdout stderr)) ∧
      Returns (gaikuGetZukei (.exited 0 stdout stderr)) := by
  have hlabel := labelReads_of_readable h
  constructor
  · rw [getZukei_eq, zukeiVal_eq_firstVals, returns_zoneOf_iff]
    refine ⟨fun v hv => h v (firstVals_within (List.mem_of_getElem? hv)), fun _ => hlabel⟩
  · rw [returns_gaiku_iff]
    refine ⟨hlabel, fun _ earlier v later heq _ => ?_⟩
    apply h v
    apply triedValues_within
    rw [heq]
    exact List.mem_append_right earlier List.mem_cons_self

/-- There is a text, or both functions return `None`. -/
theorem searched_cases (info : OgrinfoEnd) :
    (info.searched = none ∧ getZukei info = .ok none ∧ gaikuGetZukei info = .ok none) ∨
      ∃ stdout stderr, info = .exited 0 stdout stderr ∧
        info.searched = some (stdout ++ stderr) := by
  cases info with
  | fileNotFound => exact Or.inl ⟨rfl, rfl, rfl⟩
  | timeoutExpired => exact Or.inl ⟨rfl, rfl, rfl⟩
  | exited returncode stdout stderr =>
    by_cases hcode : returncode = 0
    · subst hcode
      exact Or.inr ⟨stdout, stderr, rfl, rfl⟩
    · exact Or.inl ⟨if_neg hcode, if_pos hcode, if_pos hcode⟩

theorem searched_eq_some {info : OgrinfoEnd} {txt : Text} (h : info.searched = some txt) :
    ∃ stdout stderr, info = .exited 0 stdout stderr ∧ stdout ++ stderr = txt := by
  rcases searched_cases info with ⟨hnone, -, -⟩ | ⟨stdout, stderr, hinfo, htext⟩
  · rw [hnone] at h
    cases h
  · exact ⟨stdout, stderr, hinfo, Option.some.inj (htext.symm.trans h)⟩

theorem loopReads_congr {xs ys : List Text} (h : xs.map digitsZone = ys.map digitsZone) :
    LoopReads xs ↔ LoopReads ys := by
  rw [← returns_firstZone_iff, ← returns_firstZone_iff, firstZone_zones, h, ← firstZone_zones]

/-- **The lookup of a zone returns** `None` or an integer from 1 to 19 if `int` reads every text of
digits in the dump. For a dump whose values can be told, each function returns exactly if `int`
reads those that the function gets to. Of the texts that `isdigit` accepts, `int` rejects those with
a digit that is no decimal digit and those of more than 4300 digits. -/
theorem zukei_returns_iff (info : OgrinfoEnd) :
    ((∀ txt ∈ info.searched, Readable txt) →
      Returns (getZukei info) ∧ Returns (gaikuGetZukei info)) ∧
    (∀ d : Dump, info.searched = some d.text → d.Lined 6 →
      (Returns (getZukei info) ↔ d.SixthReads)) ∧
    (∀ d : Dump, info.searched = some d.text → d.Unlisted →
      (Returns (gaikuGetZukei info) ↔ d.WindowReads)) ∧
    ∀ v, isDigits v = true → ((pyInt v).isSome = true ↔ IntReads v) := by
  refine ⟨?_, ?_, ?_, fun v => pyInt_isSome_iff⟩
  · intro h
    rcases searched_cases info with ⟨-, htochi, hgaiku⟩ | ⟨stdout, stderr, rfl, htext⟩
    · rw [htochi, hgaiku]
      exact ⟨returns_none, returns_none⟩
    · exact returns_of_readable (h _ htext)
  · intro d hsearched hlined
    obtain ⟨stdout, stderr, rfl, htext⟩ := searched_eq_some hsearched
    rw [getZukei_lined hlined htext, returns_zoneOf_iff]
    exact ⟨fun ⟨hvalue, hlabel⟩ => ⟨hvalue, hlabel⟩, fun h => ⟨h.value, h.label⟩⟩
  · intro d hsearched hunlisted
    obtain ⟨stdout, stderr, rfl, htext⟩ := searched_eq_some hsearched
    have hschema : ∀ idx ∈ schemaIndices, schemaName idx d.text = none := fun idx hidx =>
      schemaName_none (hunlisted.unlisted idx hidx)
    have hzones := window_zones fun i => firstVals_zone (i := i) hunlisted.lined
    rw [returns_gaiku_iff, htext, triedValues_unlisted hschema, loopReads_congr hzones]
    exact ⟨fun ⟨hlabel, hloop⟩ => ⟨hlabel, hloop⟩, fun h => ⟨h.label, h.loop⟩⟩

/-- A layer with zone 9 in field 5. -/
theorem zukei_returns_nine :
    Returns (getZukei (.exited 0 (stringDump "a" ["a", "b", "c", "d", "e", "9"]).text [])) := by
  have hlined : (stringDump "a" ["a", "b", "c", "d", "e", "9"]).Lined 6 :=
    (stringDump_columns "a" (by decide) (by decide)).lined (Or.inl (by decide +kernel))
  have hlisted : (stringDump "a" ["a", "b", "c", "d", "e", "9"]).listed[5]? = some "9".toList := by
    decide +kernel
  have hlabel :
      labelPattern.search (stringDump "a" ["a", "b", "c", "d", "e", "9"]).text = none := by
    decide +kernel
  have hsearched : OgrinfoEnd.searched
      (.exited 0 (stringDump "a" ["a", "b", "c", "d", "e", "9"]).text []) =
        some (stringDump "a" ["a", "b", "c", "d", "e", "9"]).text :=
    congrArg some (List.append_nil _)
  refine ((zukei_returns_iff _).2.1 _ hsearched hlined).mpr ⟨?_, ?_⟩
  · intro v hv hdigits
    rw [hlisted, Option.some.injEq] at hv
    subst hv
    exact (pyInt_isSome_iff hdigits).mp (by decide)
  · intro _ digits hfirst
    exact absurd hfirst (search_label_none_iff.mp hlabel digits)

/-- A superscript in field 5 of a layer of 土地活用, or in field 9 of one of 街区基準点等: `isdigit` is
true and `int` raises. -/
theorem zukei_raises :
    getZukei (.exited 0 (stringDump "a" ["a", "b", "c", "d", "e", "²"]).text []) =
      .error .valueError ∧
    gaikuGetZukei (.exited 0 (garbledDump (gaikuColumns "²" "9")).text []) = .error .valueError ∧
    isDigits "²".toList = true ∧ pyInt "²".toList = none := by
  decide +kernel

end GdalFull.Merge
