import GdalFull.Merge.Dump

/-!
# The zone of a layer of 街区基準点等

`get_zukei` of `merge_gaiku_geoparquet.py` searches the dump for `座標系 (...) = digits`. If that
stands nowhere, it tries the names of the fields 10 to 12 that the text lists, and then the values
at positions 8 to 13 of the first feature, and takes the first number from 1 to 19.

`gaiku_position_iff` says when the result is the zone of the twelfth attribute, for a layer whose
names do not help.
-/

namespace GdalFull.Merge

open GdalFull.Lib GdalFull.Convert

/-! ## `get_zukei` -/

/-- The other letters that a letter of the pattern stands for with `re.IGNORECASE`. -/
def otherCases (c : Char) : Text :=
  if c = 'i' then ['I', 'ı', 'İ'] else if c = 's' then ['S', 'ſ'] else [c.toUpper]

/-- A word in small letters, with `re.IGNORECASE`. -/
def caseLit : Text → Regex
  | [] => .lit []
  | c :: s => .seq ((otherCases c).foldl (fun r d => .alt r (.lit [d])) (.lit [c])) (caseLit s)

/-- `Field\s+N:\s*`. -/
def schemaHead (idx : Text) : Regex :=
  .seq (caseLit "field".toList) <| .seq (.many1 isSpace) <| .seq (.lit (idx ++ [':']))
    (.many isSpace)

/-- `\s*\((?:Integer64?|Real|String)`. -/
def schemaType : Regex :=
  .seq (.many isSpace) <| .seq (.lit ['(']) <|
    .alt (.seq (caseLit "integer6".toList) (.alt (.lit ['4']) (.lit [])))
      (.alt (caseLit "real".toList) (caseLit "string".toList))

/-- The group of `Field\s+N:\s*(.+?)\s*\((?:Integer64?|Real|String)` at a place. -/
def schemaNameAt (idx t : Text) : Option Text :=
  (schemaHead idx).run (fun _ name =>
    runLazy1 (· != '\n') (fun rest =>
      schemaType.run (fun _ _ => some (name.take (name.length - rest.length))) [] rest) name) [] t

/-- `schema_field.group(1)`, at the first place. -/
def schemaName (idx : Text) : Text → Option Text
  | [] => schemaNameAt idx []
  | c :: t => (schemaNameAt idx (c :: t)).or (schemaName idx t)

def schemaIndices : List Text := ["10", "11", "12"].map String.toList

/-- The digits after the name of a listed field, `re.escape(name) + r"\s*\([^)]+\)\s*=\s*(\d+)"`. -/
def schemaDigits (txt idx : Text) : Option Text :=
  (schemaName idx txt).bind fun name => (numberAfter (strip name)).search txt

/-- A loop that returns at the first zone. -/
def firstZone {α : Type} (zone : α → Except ValueError (Option Int)) :
    List α → Except ValueError (Option Int)
  | [] => .ok none
  | x :: xs =>
    match zone x with
    | .ok none => firstZone zone xs
    | found => found

def gaikuIndices : List Nat := [8, 9, 10, 11, 12, 13]

def gaikuGetZukei : OgrinfoEnd → Except ValueError (Option Int)
  | .fileNotFound => .ok none
  | .timeoutExpired => .ok none
  | .exited returncode stdout stderr =>
    if returncode ≠ 0 then .ok none
    else
      let txt := stdout ++ stderr
      match labelPattern.search txt with
      | some digits => intZone digits
      | none =>
        match firstZone (fun idx => (schemaDigits txt idx).elim (.ok none) intZone)
            schemaIndices with
        | .ok none =>
          firstZone (fun i => (firstVals txt)[i]?.elim (.ok none) digitsZone) gaikuIndices
        | found => found

/-! ## The loops as one list of values -/

/-- The loops find the zone among the values: those before it are passed over. If there is no zone,
all are. -/
def LoopShows (values : List Text) : Option Int → Prop
  | none => ∀ v ∈ values, PassedOver v
  | some z => ∃ earlier v later, values = earlier ++ v :: later ∧
      (∀ w ∈ earlier, PassedOver w) ∧ ZoneValue v z

/-- The values at the positions 8 to 13. -/
def window (vals : List Text) : List Text :=
  gaikuIndices.filterMap (vals[·]?)

/-- The zone is that of the first number after `座標系`, or there is none and the loops find it among
the values. -/
def GaikuShows (txt : Text) (values : List Text) (zone : Option Int) : Prop :=
  (∃ digits z, FirstLabelled zukeiLabel txt digits ∧ pyInt digits = some z ∧ zone = zoneRange z) ∨
    (∀ digits, ¬ FirstLabelled zukeiLabel txt digits) ∧ LoopShows values zone

theorem loopShows_cons {v : Text} {values : List Text} {zone : Option Int} :
    LoopShows (v :: values) zone ↔
      (∃ z, ZoneValue v z ∧ zone = some z) ∨ PassedOver v ∧ LoopShows values zone := by
  cases zone with
  | none => simp [LoopShows]
  | some z =>
    simp only [LoopShows, Option.some.injEq]
    constructor
    · rintro ⟨earlier, w, later, heq, hearlier, hw⟩
      cases earlier with
      | nil =>
        obtain ⟨rfl, rfl⟩ := List.cons.inj heq
        exact Or.inl ⟨z, hw, rfl⟩
      | cons e earlier =>
        obtain ⟨rfl, rfl⟩ := List.cons.inj heq
        obtain ⟨hv, hrest⟩ := List.forall_mem_cons.mp hearlier
        exact Or.inr ⟨hv, earlier, w, later, rfl, hrest, hw⟩
    · rintro (⟨z, hv, rfl⟩ | ⟨hv, earlier, w, later, rfl, hearlier, hw⟩)
      · exact ⟨[], v, values, rfl, List.forall_mem_nil _, hv⟩
      · exact ⟨v :: earlier, w, later, rfl, List.forall_mem_cons.mpr ⟨hv, hearlier⟩, hw⟩

theorem firstZone_eq_ok_iff {values : List Text} {zone : Option Int} :
    firstZone digitsZone values = .ok zone ↔ LoopShows values zone := by
  induction values with
  | nil => cases zone <;> simp [firstZone, LoopShows]
  | cons v values ih =>
    rw [firstZone, loopShows_cons, ← ih]
    exact digitsZone_orElse_iff

theorem firstZone_filterMap {α β : Type} (f : α → Option β)
    (zone : β → Except ValueError (Option Int)) (xs : List α) :
    firstZone (fun x => (f x).elim (.ok none) zone) xs = firstZone zone (xs.filterMap f) := by
  induction xs with
  | nil => rfl
  | cons x xs ih =>
    rw [firstZone, List.filterMap_cons]
    cases f x with
    | none => exact ih
    | some y =>
      dsimp only [Option.elim_some]
      rw [firstZone, ih]

theorem firstZone_append {α : Type} (zone : α → Except ValueError (Option Int)) (xs ys : List α) :
    firstZone zone (xs ++ ys) =
      match firstZone zone xs with
      | .ok none => firstZone zone ys
      | found => found := by
  induction xs with
  | nil => rfl
  | cons x xs ih =>
    rw [List.cons_append, firstZone, firstZone, ih]
    cases zone x with
    | error e => rfl
    | ok found => cases found <;> rfl

/-- Only the zones of the values matter. -/
theorem firstZone_zones (values : List Text) :
    firstZone digitsZone values = firstZone id (values.map digitsZone) := by
  induction values with
  | nil => rfl
  | cons v values ih =>
    rw [List.map_cons, firstZone, firstZone, ih]
    rfl

theorem loopShows_congr {xs ys : List Text} (h : xs.map digitsZone = ys.map digitsZone)
    {zone : Option Int} : LoopShows xs zone ↔ LoopShows ys zone := by
  rw [← firstZone_eq_ok_iff, ← firstZone_eq_ok_iff, firstZone_zones, h, ← firstZone_zones]

/-- The digits after a name are digits, so that the two loops treat their values alike. -/
theorem isDigits_of_search {name txt digits : Text}
    (h : (numberAfter name).search txt = some digits) : isDigits digits = true := by
  have hfirst := search_numberAfter_iff.mp h
  exact isDigits_of_decimal hfirst.digits_ne hfirst.decimal

theorem schemaZone_eq (txt idx : Text) :
    (schemaDigits txt idx).elim (.ok none) intZone =
      (schemaDigits txt idx).elim (.ok none) digitsZone := by
  cases h : schemaDigits txt idx with
  | none => rfl
  | some digits =>
    obtain ⟨name, _, hsearch⟩ := Option.bind_eq_some_iff.mp h
    rw [Option.elim_some, Option.elim_some, digitsZone, if_pos (isDigits_of_search hsearch)]

/-- The values that the two loops try, in order. -/
def triedValues (txt : Text) (vals : List Text) : List Text :=
  schemaIndices.filterMap (schemaDigits txt) ++ window vals

/-- **The result of the function**, from what stands in the text. -/
theorem gaikuGetZukei_eq_ok_iff {stdout stderr txt : Text} (htext : stdout ++ stderr = txt)
    {zone : Option Int} :
    gaikuGetZukei (.exited 0 stdout stderr) = .ok zone ↔
      GaikuShows txt (triedValues txt (firstVals txt)) zone := by
  have hschema : (fun idx => (schemaDigits txt idx).elim (.ok none) intZone) =
      fun idx => (schemaDigits txt idx).elim (.ok none) digitsZone :=
    funext (schemaZone_eq txt)
  rw [gaikuGetZukei, if_neg (not_not.mpr rfl), htext]
  dsimp only
  rw [GaikuShows, ← firstZone_eq_ok_iff, triedValues, firstZone_append, hschema,
    firstZone_filterMap, firstZone_filterMap, window]
  simp only [← search_label_iff]
  cases labelPattern.search txt with
  | none => simp
  | some digits => simp [intZone_eq_ok_iff]

/-- If the text lists none of the fields, the positions remain. -/
theorem triedValues_unlisted {txt : Text} (h : ∀ idx ∈ schemaIndices, schemaName idx txt = none)
    (vals : List Text) : triedValues txt vals = window vals := by
  have hdigits : schemaIndices.filterMap (schemaDigits txt) = [] := by
    rw [List.filterMap_eq_nil_iff]
    intro idx hidx
    rw [schemaDigits, h idx hidx, Option.bind_none]
  rw [triedValues, hdigits, List.nil_append]

/-! ## Zone by position -/

/-- The zone is that of the first number after `座標系`, or there is none and it is the first zone
among what stands for the values with index 8 to 13, in a dump in which those can be told. -/
structure Dump.Shows (d : Dump) (zone : Option Int) : Prop where
  lined : d.Lined 14
  shows : GaikuShows d.text (window d.listed) zone

/-- The first feature is found and has the given values; none of the first fourteen is cut, and no
number stands after `座標系` anywhere. -/
structure Dump.Aligned (d : Dump) (columns : List Text) : Prop where
  found : d.Found
  plain : List.Forall₂ PlainField d.firstFields columns
  fourteen : 14 ≤ columns.length
  unmarked : ∀ v ∈ columns.take 14, ¬ featureMark <:+: v
  unlabelled : ∀ digits, ¬ FirstLabelled zukeiLabel d.text digits

theorem window_zones {xs ys : List Text}
    (h : ∀ i < 14, xs[i]?.map digitsZone = ys[i]?.map digitsZone) :
    (window xs).map digitsZone = (window ys).map digitsZone := by
  have hindices : ∀ i ∈ gaikuIndices, i < 14 := by decide
  rw [window, window, List.map_filterMap, List.map_filterMap]
  exact List.filterMap_congr fun i hi => h i (hindices i hi)

theorem gaikuShows_congr {txt : Text} {xs ys : List Text}
    (h : xs.map digitsZone = ys.map digitsZone) {zone : Option Int} :
    GaikuShows txt xs zone ↔ GaikuShows txt ys zone := by
  rw [GaikuShows, GaikuShows, loopShows_congr h]

/-- The result of the function for a dump that lists none of the fields 10 to 12. -/
theorem gaikuGetZukei_lined {d : Dump} (h : d.Lined 14) {stdout stderr : Text}
    (htext : stdout ++ stderr = d.text)
    (hschema : ∀ idx ∈ schemaIndices, schemaName idx d.text = none) {zone : Option Int} :
    gaikuGetZukei (.exited 0 stdout stderr) = .ok zone ↔
      GaikuShows d.text (window d.listed) zone := by
  rw [gaikuGetZukei_eq_ok_iff htext, triedValues_unlisted hschema,
    gaikuShows_congr (window_zones fun i => firstVals_zone h)]

theorem Dump.Aligned.lined {d : Dump} {columns : List Text} (h : d.Aligned columns) :
    d.Lined 14 := by
  have hlen : 14 ≤ d.firstValues.length := by
    rw [Dump.firstValues, values_plain h.plain]
    exact h.fourteen
  exact Or.inl ⟨h.found, legible_plain h.plain, Or.inr hlen⟩

theorem window_aligned {d : Dump} {columns : List Text} (h : d.Aligned columns) :
    (window d.listed).map digitsZone = (window (columns.map strip)).map digitsZone := by
  rw [Dump.listed, if_pos h.found]
  apply window_zones
  intro i hi
  have hunmarked : ∀ j < 14, ∀ v ∈ columns.take (j + 1), ¬ featureMark <:+: v := by
    intro j hj v hv
    exact h.unmarked v ((List.take_prefix_take_left (by omega)).subset hv)
  have hearlier : ¬ ∃ v ∈ columns.take i, featureMark <:+: v := by
    rintro ⟨v, hv, hm⟩
    exact hunmarked i hi v ((List.take_prefix_take_left (by omega)).subset hv) hm
  rw [candidates_getElem? h.plain, if_neg hearlier, List.getElem?_map]
  cases hv : columns[i]? with
  | none => rfl
  | some v =>
    have hmem : v ∈ columns.take (i + 1) :=
      List.mem_of_getElem? ((List.getElem?_take_of_lt (by omega)).trans hv)
    rw [Option.map_some, Option.map_some, before_eq_self (hunmarked i hi v hmem)]
    rfl

/-- **The zone by position.** If the text lists none of the fields 10 to 12 and the values of the
first feature can be told, `get_zukei` finds the zone of field 11 of the first feature exactly when
that is the first number after `座標系`, or there is none and it is the first zone among the values
with index 8 to 13. In a dump with all values set, those are the values of the fields 8 to 13. -/
theorem gaiku_position_iff (d : Dump) (stdout stderr : Text) (htext : stdout ++ stderr = d.text)
    (hschema : ∀ idx ∈ schemaIndices, schemaName idx d.text = none) :
    (d.Shows (d.fieldZone 11) →
      gaikuGetZukei (.exited 0 stdout stderr) = .ok (d.fieldZone 11)) ∧
    (d.Lined 14 → (gaikuGetZukei (.exited 0 stdout stderr) = .ok (d.fieldZone 11) ↔
      d.Shows (d.fieldZone 11))) ∧
    ∀ columns, d.Aligned columns →
      (gaikuGetZukei (.exited 0 stdout stderr) = .ok (d.fieldZone 11) ↔
        LoopShows (window (columns.map strip)) (columns[11]?.bind numeralZone)) := by
  have hshows : d.Lined 14 → (gaikuGetZukei (.exited 0 stdout stderr) = .ok (d.fieldZone 11) ↔
      GaikuShows d.text (window d.listed) (d.fieldZone 11)) :=
    fun hlined => gaikuGetZukei_lined hlined htext hschema
  refine ⟨fun h => (hshows h.lined).mpr h.shows, ?_, ?_⟩
  · intro hlined
    exact (hshows hlined).trans ⟨fun h => ⟨hlined, h⟩, Dump.Shows.shows⟩
  · intro columns h
    rw [hshows h.lined, gaikuShows_congr (window_aligned h), GaikuShows, fieldZone_plain h.plain]
    simp [h.unlabelled]

/-- `座標系` in UTF-8, read as CP932. -/
def garbledName : Text := "蠎ｧ讓咏ｳｻ".toList

/-- A field of type `String` with a garbled name. -/
def garbledField (i : Nat) (v : String) : DumpField :=
  ⟨garbledName ++ Nat.toDigits 10 i, "String".toList, some v.toList⟩

/-- A dump of one feature with such fields. -/
def garbledDump (values : List String) : Dump where
  preamble := "Layer name: a\nFeature Count: 1".toList
  layer := "a".toList
  features := [sampleFeature (values.mapIdx garbledField)]

/-- A record of the 23 columns, with the given 街区点設置者種別 and 座標系. -/
def gaikuColumns (installer zone : String) : List String :=
  ["", "", "", "", "", "15100", "新潟市", "", "", installer, "5A001", zone, "2", "210000.1",
    "48000.2", "3.4", "", "新潟市中央区", "", "20070101", "", "KG3152015A001", ""]

theorem garbledDump_plain {values : List String}
    (h : values.all (fun v => !v.toList.any lineBreak) = true) :
    List.Forall₂ PlainField (values.mapIdx garbledField) (values.map String.toList) := by
  apply mapIdx_plain
  intro i v hv
  have hgarbled : garbledName.all cleanChar = true := by decide +kernel
  have hname : (garbledField i v).name.all cleanChar = true := by
    rw [garbledField, List.all_append, hgarbled, toDigits_cleanChar]
    rfl
  have hbreak := List.all_eq_true.mp h v hv
  have htype : (garbledField i v).type = stringType.text := rfl
  exact plainField htype hname rfl (by simpa using hbreak)

/-- The zone 9 is found if 街区点設置者種別 is 0. -/
theorem gaiku_position_found :
    gaikuGetZukei (.exited 0 (garbledDump (gaikuColumns "0" "9")).text []) =
      .ok ((garbledDump (gaikuColumns "0" "9")).fieldZone 11) := by
  have hschema : ∀ idx ∈ schemaIndices,
      schemaName idx (garbledDump (gaikuColumns "0" "9")).text = none := by decide +kernel
  have hlabel : labelPattern.search (garbledDump (gaikuColumns "0" "9")).text = none := by
    decide +kernel
  have halign : (garbledDump (gaikuColumns "0" "9")).Aligned
      ((gaikuColumns "0" "9").map String.toList) :=
    { found := by decide +kernel
      plain := garbledDump_plain (by decide +kernel)
      fourteen := by decide
      unmarked := by decide +kernel
      unlabelled := search_label_none_iff.mp hlabel }
  refine ((gaiku_position_iff (garbledDump (gaikuColumns "0" "9")) _ [] (List.append_nil _)
    hschema).2.2 _ halign).mpr ?_
  have hzone : ((gaikuColumns "0" "9").map String.toList)[11]?.bind numeralZone = some 9 := by
    decide +kernel
  have hwindow : window (((gaikuColumns "0" "9").map String.toList).map strip) =
      ["".toList, "0".toList, "5A001".toList] ++ "9".toList ::
        ["2".toList, "210000.1".toList] := by decide +kernel
  have hearlier : ∀ w ∈ ["".toList, "0".toList, "5A001".toList], PassedOver w := by
    intro w hw
    rw [← digitsZone_eq_none_iff]
    revert w
    decide +kernel
  rw [hzone]
  exact ⟨_, _, _, hwindow, hearlier, by decide, by decide +kernel, by decide, by decide⟩

/-- If 街区点設置者種別 is 1, that is taken for the zone; if 座標系 is empty, 測地系 is. -/
theorem gaiku_position_neighbour :
    gaikuGetZukei (.exited 0 (garbledDump (gaikuColumns "1" "9")).text []) = .ok (some 1) ∧
    (garbledDump (gaikuColumns "1" "9")).fieldZone 11 = some 9 ∧
    gaikuGetZukei (.exited 0 (garbledDump (gaikuColumns "0" "")).text []) = .ok (some 2) ∧
    (garbledDump (gaikuColumns "0" "")).fieldZone 11 = none := by
  decide +kernel

end GdalFull.Merge
